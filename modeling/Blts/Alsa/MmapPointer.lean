import Blts.Alsa.MmapWrite

/-!
# The application pointer of the mapped buffer

`pcm_mmap_writei` advances the application pointer by all frames asked for, before it copies
any, and returns the frames that were copied.  The two agree in a call unless its loop is
left before the last frame.

With a `sync_ptr` the call begins with the driver's pointer and not with the one that the
call before has left, so a run keeps both.
-/

namespace Blts.Alsa.Mapped

/-- The application pointer of the control structure and the driver's. -/
structure Pointers where
  control : Nat
  driver : Nat
  deriving DecidableEq

/-- Where a call begins. -/
def Pointers.applPtr (hw : MappedPcm) (s : Pointers) : Nat :=
  if hw.syncPtr = true then s.driver else s.control

/-- A call, with the pointers after it and what it returns, if it does. -/
def mmapStep (hw : MappedPcm) (s : Pointers) (call : MmapCall) : Option (Pointers × Int) :=
  let applPtr := s.applPtr hw
  let w := pcmMmapWritei hw applPtr call
  w.result.map fun err =>
    if call.refused hw then (s, err)
    else
      let control := applPtr + call.size
      -- without a `sync_ptr` the control structure is the driver's
      (⟨control, if hw.syncPtr = true ∧ w.passed = false then applPtr else control⟩, err)

/-- In every call of a run the pointer advances by the frames that the call returns. -/
def AdvancesInRun (hw : MappedPcm) : Pointers → List MmapCall → Prop
  | _, [] => True
  | s, call :: calls => ∀ s' err, mmapStep hw s call = some (s', err) →
      s'.control = s.control + err.toNat ∧ AdvancesInRun hw s' calls

/-! ## Calls that copy everything -/

/-- The frames that are left after a turn; there are none if the turn leaves the loop, which
it does if an ioctl that it calls fails, and if nothing is free. -/
def leftAfter (hw : MappedPcm) (applPtr : Nat) (r : Round) (size : Nat) : Option Nat :=
  match freeSpace hw applPtr r size with
  | .failed _ => none
  | .wait => some size
  | .free avail =>
      let frames := min size avail.toNat
      if frames = 0 ∨ starts hw r avail frames ∧ (r.start : Int) < 0 then none
      else some (size - frames)

/-- No turn leaves the loop while frames are left. -/
def Undisturbed (hw : MappedPcm) (applPtr : Nat) : List Round → Nat → Prop
  | [], _ => True
  | r :: rounds, size => size = 0 ∨
      ∃ left, leftAfter hw applPtr r size = some left ∧ Undisturbed hw applPtr rounds left

/-- In every call of a run the first ioctl refuses, or nothing disturbs the copying. -/
def UndisturbedInRun (hw : MappedPcm) : Pointers → List MmapCall → Prop
  | _, [] => True
  | s, call :: calls => ∀ s' err, mmapStep hw s call = some (s', err) →
      (call.refused hw ∨ Undisturbed hw (s.control + call.size) call.rounds call.size) ∧
        UndisturbedInRun hw s' calls

/-- What is counted when the loop is left with an error. -/
theorem Writing.result_toNat {w : Writing} (herr : w.err ≤ 0) : w.result.toNat = w.xfer := by
  unfold Writing.result
  by_cases hxfer : 0 < w.xfer
  · rw [if_pos hxfer, Int.toNat_natCast]
  · rw [if_neg hxfer]
    omega

theorem errAfter_le {hw : MappedPcm} {r : Round} {w : Writing} (herr : w.err ≤ 0) :
    errAfter hw r w ≤ 0 := by
  unfold errAfter
  by_cases hstate : readHwState hw r.stateSync r.state = some .running
  · rw [if_pos hstate]
    exact r.hwsync.property
  · rw [if_neg hstate]
    exact herr

theorem freeSpace_failed {hw : MappedPcm} {applPtr size : Nat} {r : Round} {err : Int}
    (h : freeSpace hw applPtr r size = .failed err) : err < 0 := by
  unfold freeSpace at h
  by_cases hsync : readHwState hw r.stateSync r.state = some .running ∧ (r.hwsync : Int) < 0
  · rw [if_pos hsync, Space.failed.injEq] at h
    rw [← h]
    exact hsync.2
  · rw [if_neg hsync] at h
    by_cases havail : playBufferAvail hw r.availSync r.hwPtr applPtr < 0
    · rw [if_pos havail, Space.failed.injEq] at h
      rw [← h]
      exact havail
    · rw [if_neg havail] at h
      by_cases hwait : readHwState hw r.stateSync r.state = some .running ∧
          playBufferAvail hw r.availSync r.hwPtr applPtr <
            (if hw.syncPtr = true then hw.periodSize else hw.availMin : Nat) ∧
          playBufferAvail hw r.availSync r.hwPtr applPtr < size
      · rw [if_pos hwait] at h
        cases h
      · rw [if_neg hwait] at h
        cases h

/-- A turn that does not fail has passed the pointer where there is a `sync_ptr`. -/
theorem passes_of_freeSpace {hw : MappedPcm} {applPtr size : Nat} {r : Round}
    (hsync : hw.syncPtr = true) (h : ∀ err, freeSpace hw applPtr r size ≠ .failed err) :
    r.passes = true := by
  unfold Round.passes
  refine decide_eq_true (Or.inr (Int.not_lt.mp fun hneg => ?_))
  have havail : playBufferAvail hw r.availSync r.hwPtr applPtr = r.availSync :=
    if_pos ⟨hsync, hneg⟩
  unfold freeSpace at h
  by_cases hfail : readHwState hw r.stateSync r.state = some .running ∧ (r.hwsync : Int) < 0
  · rw [if_pos hfail] at h
    exact h _ rfl
  · rw [if_neg hfail, havail, if_pos hneg] at h
    exact h _ rfl

/-- A turn leaves the loop exactly if no frames are left after it, and counts none then. -/
theorem turn_leftAfter (hw : MappedPcm) (applPtr : Nat) (r : Round) {w : Writing}
    (herr : w.err ≤ 0) :
    (leftAfter hw applPtr r w.size = none ∧
      ∃ copied err, err ≤ 0 ∧ turn hw applPtr r w = .leave copied err) ∨
    ∃ copied next, leftAfter hw applPtr r w.size = some next.size ∧ next.err ≤ 0 ∧
      next.xfer + next.size = w.xfer + w.size ∧ turn hw applPtr r w = .again copied next := by
  unfold leftAfter
  cases hspace : freeSpace hw applPtr r w.size with
  | failed err =>
      have hturn : turn hw applPtr r w = .leave none err := by simp only [turn, hspace]
      exact Or.inl ⟨rfl, _, err, Int.le_of_lt (freeSpace_failed hspace), hturn⟩
  | wait =>
      have hturn : turn hw applPtr r w = .again none { w with err := 0 } := by
        simp only [turn, hspace]
      exact Or.inr ⟨_, { w with err := 0 }, rfl, Int.le_refl 0, rfl, hturn⟩
  | free avail =>
      dsimp only
      by_cases hzero : min w.size avail.toNat = 0
      · have hturn : turn hw applPtr r w = .leave none (errAfter hw r w) := by
          simp only [turn, hspace, if_pos hzero]
        rw [if_pos (Or.inl hzero)]
        exact Or.inl ⟨rfl, _, _, errAfter_le herr, hturn⟩
      · rw [turn_of_free hspace hzero]
        by_cases hrefused : starts hw r avail (min w.size avail.toNat) ∧ (r.start : Int) < 0
        · rw [if_pos (Or.inr hrefused), if_pos hrefused]
          exact Or.inl ⟨rfl, _, _, r.start.property, rfl⟩
        · rw [if_neg (not_or.mpr ⟨hzero, hrefused⟩), if_neg hrefused]
          refine Or.inr ⟨_, _, rfl, ?_, ?_, rfl⟩
          · simp only [Writing.count]
            by_cases hstart : starts hw r avail (min w.size avail.toNat)
            · rw [if_pos hstart]
              exact r.start.property
            · rw [if_neg hstart]
              exact errAfter_le herr
          · simp only [Writing.count]
            omega

/-- **The loop returns all frames** exactly if nothing disturbs it. -/
theorem writeLoop_result {hw : MappedPcm} {applPtr : Nat} (rounds : List Round) :
    ∀ w, w.err ≤ 0 → ∀ res, (writeLoop hw applPtr rounds w).result = some res →
      (res.toNat = w.xfer + w.size ↔ Undisturbed hw applPtr rounds w.size) := by
  induction rounds with
  | nil =>
      intro w herr res hres
      unfold writeLoop at hres
      by_cases hsize : w.size = 0
      · rw [if_pos hsize, Option.some.injEq] at hres
        rw [← hres, Writing.result_toNat herr, hsize]
        exact iff_of_true rfl trivial
      · rw [if_neg hsize] at hres
        cases hres
  | cons r rounds ih =>
      intro w herr res hres
      unfold writeLoop at hres
      by_cases hsize : w.size = 0
      · rw [if_pos hsize, Option.some.injEq] at hres
        rw [← hres, Writing.result_toNat herr]
        exact iff_of_true (by omega) (Or.inl hsize)
      · rw [if_neg hsize] at hres
        rw [Undisturbed, or_iff_right hsize]
        obtain ⟨hleft, copied, err, herr', hturn⟩ | ⟨copied, next, hleft, herr', hsum, hturn⟩ :=
          turn_leftAfter hw applPtr r herr
        · simp only [hturn, Option.some.injEq] at hres
          have hcount : res.toNat = w.xfer := by
            rw [← hres]
            exact Writing.result_toNat herr'
          refine iff_of_false (by omega) ?_
          rintro ⟨left, hsome, -⟩
          rw [hleft] at hsome
          cases hsome
        · simp only [hturn] at hres
          rw [← hsum, ih next herr' res hres, hleft]
          constructor
          · exact fun h => ⟨_, rfl, h⟩
          · rintro ⟨left, hsome, h⟩
            cases hsome
            exact h

/-- The driver has been passed the pointer when a loop that nothing disturbs returns. -/
theorem writeLoop_passed {hw : MappedPcm} {applPtr : Nat} {rounds : List Round} {w : Writing}
    {res : Int} (hsync : hw.syncPtr = true) (hsize : w.size ≠ 0)
    (hres : (writeLoop hw applPtr rounds w).result = some res)
    (h : Undisturbed hw applPtr rounds w.size) :
    (writeLoop hw applPtr rounds w).passed = true := by
  unfold writeLoop at hres ⊢
  rw [if_neg hsize] at hres ⊢
  cases rounds with
  | nil => cases hres
  | cons r rounds =>
      obtain hzero | ⟨left, hleft, -⟩ := h
      · exact absurd hzero hsize
      · have hspace : ∀ err, freeSpace hw applPtr r w.size ≠ .failed err := by
          intro err herr
          unfold leftAfter at hleft
          rw [herr] at hleft
          cases hleft
        have hpasses : r.passes = true := passes_of_freeSpace hsync hspace
        dsimp only
        cases turn hw applPtr r w with
        | leave copied err => exact hpasses
        | again copied next =>
            dsimp only
            rw [hpasses, Bool.true_or]

/-- A loop in which the driver has not been passed the pointer has failed in its first
turn. -/
theorem writeLoop_unpassed {hw : MappedPcm} {applPtr : Nat} {rounds : List Round} {w : Writing}
    {res : Int} (hsync : hw.syncPtr = true) (hsize : w.size ≠ 0) (hxfer : w.xfer = 0)
    (hres : (writeLoop hw applPtr rounds w).result = some res)
    (h : (writeLoop hw applPtr rounds w).passed = false) :
    (writeLoop hw applPtr rounds w).copies = [] ∧ res < 0 := by
  unfold writeLoop at hres h ⊢
  rw [if_neg hsize] at hres h ⊢
  cases rounds with
  | nil => cases hres
  | cons r rounds =>
      have hpasses : r.passes = false := by
        cases hturn : turn hw applPtr r w with
        | leave copied err =>
            simp only [hturn] at h
            exact h
        | again copied next =>
            simp only [hturn, Bool.or_eq_false_iff] at h
            exact h.1
      obtain ⟨err, hspace⟩ : ∃ err, freeSpace hw applPtr r w.size = .failed err := by
        refine Classical.byContradiction fun hno => ?_
        rw [passes_of_freeSpace hsync fun err herr => hno ⟨err, herr⟩] at hpasses
        cases hpasses
      have hturn : turn hw applPtr r w = .leave none err := by simp only [turn, hspace]
      simp only [hturn, Option.some.injEq] at hres ⊢
      rw [← hres]
      simp only [Writing.result, hxfer, Nat.lt_irrefl, if_false]
      exact ⟨rfl, freeSpace_failed hspace⟩

/-- What a call for some frames can do: it fails before anything happens, or the driver's
pointer moves by all frames asked for. -/
theorem mmapStep_cases {hw : MappedPcm} {s s' : Pointers} {call : MmapCall} {err : Int}
    (hsize : call.size ≠ 0) (h : mmapStep hw s call = some (s', err)) :
    (s'.driver = s.applPtr hw ∧ err < 0 ∧
      (pcmMmapWritei hw (s.applPtr hw) call).copies = []) ∨
    (s'.driver = s.applPtr hw + call.size ∧
      (pcmMmapWritei hw (s.applPtr hw) call).copies =
        (writeLoop hw (s.applPtr hw + call.size) call.rounds
          ⟨s.applPtr hw, 0, call.size, 0, 0⟩).copies) := by
  obtain ⟨res, hres, hs⟩ := Option.map_eq_some_iff.mp h
  dsimp only at hres hs
  by_cases hrefused : call.refused hw
  · rw [if_pos hrefused, Prod.mk.injEq] at hs
    obtain ⟨rfl, rfl⟩ := hs
    unfold pcmMmapWritei at hres ⊢
    rw [if_pos hrefused, Option.some.injEq] at hres
    rw [if_pos hrefused]
    refine Or.inl ⟨(if_pos hrefused.1).symm, ?_, rfl⟩
    rw [← hres]
    exact hrefused.2
  · have hloop : pcmMmapWritei hw (s.applPtr hw) call = writeLoop hw (s.applPtr hw + call.size)
        call.rounds ⟨s.applPtr hw, 0, call.size, 0, 0⟩ := if_neg hrefused
    rw [if_neg hrefused, Prod.mk.injEq] at hs
    obtain ⟨rfl, rfl⟩ := hs
    rw [hloop] at hres ⊢
    by_cases hpassed : hw.syncPtr = true ∧ (writeLoop hw (s.applPtr hw + call.size)
        call.rounds ⟨s.applPtr hw, 0, call.size, 0, 0⟩).passed = false
    · obtain ⟨hcopies, hneg⟩ := writeLoop_unpassed hpassed.1 hsize rfl hres hpassed.2
      exact Or.inl ⟨if_pos hpassed, hneg, hcopies⟩
    · exact Or.inr ⟨if_neg hpassed, rfl⟩

/-! ## Runs -/

/-- A call from where both pointers agree: the pointer advances by what is returned exactly
if the call is refused at once or undisturbed, and then they agree after it. -/
theorem mmapStep_iff {hw : MappedPcm} {p : Nat} {call : MmapCall} {s' : Pointers} {err : Int}
    (h : mmapStep hw ⟨p, p⟩ call = some (s', err)) :
    (s'.control = p + err.toNat ↔
      call.refused hw ∨ Undisturbed hw (p + call.size) call.rounds call.size) ∧
    (call.refused hw ∨ Undisturbed hw (p + call.size) call.rounds call.size →
      s' = ⟨s'.control, s'.control⟩) := by
  have happl : Pointers.applPtr hw ⟨p, p⟩ = p := ite_self _
  unfold mmapStep at h
  simp only [happl] at h
  obtain ⟨res, hres, hs⟩ := Option.map_eq_some_iff.mp h
  unfold pcmMmapWritei at hres
  by_cases hrefused : call.refused hw
  · rw [if_pos hrefused, Option.some.injEq] at hres
    rw [if_pos hrefused, Prod.mk.injEq] at hs
    obtain ⟨rfl, rfl⟩ := hs
    have hneg : (call.sync : Int) < 0 := hrefused.2
    have hzero : res.toNat = 0 := by omega
    refine ⟨iff_of_true ?_ (Or.inl hrefused), fun _ => rfl⟩
    rw [hzero, Nat.add_zero]
  · rw [if_neg hrefused] at hres
    rw [if_neg hrefused, Prod.mk.injEq] at hs
    obtain ⟨rfl, rfl⟩ := hs
    rw [or_iff_right hrefused]
    have hall := writeLoop_result call.rounds ⟨p, 0, call.size, 0, 0⟩ (Int.le_refl 0) res hres
    rw [Nat.zero_add] at hall
    refine ⟨?_, fun hund => ?_⟩
    · rw [← hall]
      exact Nat.add_left_cancel_iff.trans eq_comm
    · dsimp only
      rw [Pointers.mk.injEq, and_iff_right rfl]
      by_cases hsize : call.size = 0
      · rw [hsize, Nat.add_zero, ite_self]
      · refine if_neg fun hnot => ?_
        have hpassed : (pcmMmapWritei hw p call).passed = true := by
          unfold pcmMmapWritei
          rw [if_neg hrefused]
          exact writeLoop_passed hnot.1 hsize hres hund
        rw [hpassed] at hnot
        exact absurd hnot.2 (by decide)

/-- **The application pointer advances by the frames that are returned**, in every call of a
run, exactly if every call is refused at once or undisturbed. -/
theorem advancesInRun_iff (hw : MappedPcm) (p : Nat) (calls : List MmapCall) :
    AdvancesInRun hw ⟨p, p⟩ calls ↔ UndisturbedInRun hw ⟨p, p⟩ calls := by
  induction calls generalizing p with
  | nil => exact Iff.rfl
  | cons call calls ih =>
      refine forall_congr' fun s' => forall_congr' fun err => forall_congr' fun hstep => ?_
      obtain ⟨hadv, hagree⟩ := mmapStep_iff hstep
      rw [hadv]
      refine and_congr_right fun hund => ?_
      rw [hagree hund]
      exact ih s'.control

/-- The first period is written, and then the stream has run out of frames: the ioctl that
asks for the hardware pointer fails with `-EPIPE`. -/
def underrun : List MmapCall :=
  [{ size := 4, sync := ⟨0, ioctlDone_nonpos⟩, rounds := [Round.draining 0] },
    { size := 4, sync := ⟨0, ioctlDone_nonpos⟩,
      rounds := [{ Round.draining 4 with
        state := .running
        hwsync := ⟨-32, Int.neg_nonpos_of_nonneg (Int.natCast_nonneg 32)⟩ }] }]

theorem underrun_drifts : ¬∀ (hw : MappedPcm) (p : Nat) (calls : List MmapCall),
    AdvancesInRun hw ⟨p, p⟩ calls := by
  intro h
  have hfirst : mmapStep smallRing ⟨0, 0⟩ (underrun.headD thirdPeriod) = some (⟨4, 4⟩, 4) := by
    decide
  have hsecond : mmapStep smallRing ⟨4, 4⟩ (underrun.getD 1 thirdPeriod) =
      some (⟨8, 8⟩, -32) := by
    decide
  have hrun := ((h smallRing 0 underrun _ _ hfirst).2 _ _ hsecond).1
  revert hrun
  decide

end Blts.Alsa.Mapped
