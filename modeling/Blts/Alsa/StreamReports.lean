import Mathlib.Tactic.ByContra
import Blts.Alsa.StreamResults

/-!
# What a return of 0 says

A test passes if its stream functions return 0.  That is to say that the streams were set
up and prepared, that every transfer succeeded or was recovered, that a stream to be linked
was linked and unlinked, and for the test that every thread ran and returned 0.

It does not say so where a buffer or the threads cannot be allocated (`err` is 0 then), where
a write fails and leaves no error in its request, and where linking or unlinking fails.
-/

namespace Blts.Alsa

/-! ## What a return of 0 is to say -/

/-- `xrun_recovery` has prepared the stream again, or resumed it. -/
def Recovered (err : Int) (r : Recovery) : Prop :=
  (err = -EPIPE ∧ 0 ≤ r.prepare) ∨
    (err = -ESTRPIPE ∧ ∃ resumed, r.resume = some resumed ∧ (0 ≤ resumed ∨ 0 ≤ r.prepare))

/-- The write has succeeded, is tried again, or was recovered. -/
def Write.Succeeds (access : PcmAccess) (w : Write) : Prop :=
  ¬ w.call.Failed access ∨ pcmWrite access w.call = -EAGAIN ∨
    Recovered (pcmWrite access w.call) w.recovery

def RecordRound.Succeeds (access : PcmAccess) (round : RecordRound) : Prop :=
  ¬ round.read.Failed access ∨ (pcmRead access round.read = -EPIPE ∧ 0 ≤ round.prepare)

def AsyncRun.writes (r : AsyncRun) : List Write :=
  r.buffering.flatMap AsyncPeriod.writes ++
    r.rounds.flatMap fun round => (round.pending ++ round.refill).flatMap AsyncPeriod.writes

/-- The writes of a run. -/
def PlayRun.writes (hw : StreamDevice) (r : PlayRun) : List Write :=
  if hw.async then r.async.writes else r.rounds.flatMap PlayRound.writes

/-- The stream is set up and prepared. -/
structure Opening.Succeeds (hw : StreamDevice) (o : Opening) : Prop where
  setup : o.setup = 0
  allocated : o.allocated = true
  mapped : hw.isMapped = true → o.mmapAlloc = 0
  prepared : o.prepare = 0

structure PlayedWell (hw : StreamDevice) (r : PlayRun) (out : StreamReturn) : Prop where
  opening : r.opening.Succeeds hw
  transfers : ∀ w ∈ r.writes hw, w.Succeeds hw.access
  linked : hw.isLinked = true → out.linked = true ∧ out.unlinked = true

structure RecordedWell (hw : StreamDevice) (r : RecordRun) (out : StreamReturn) : Prop where
  opening : r.opening.Succeeds hw
  transfers : ∀ round ∈ r.rounds, round.Succeeds hw.access
  linked : hw.isLinked = true → out.linked = true ∧ out.unlinked = true

structure TestRun.Passed (r : TestRun) : Prop where
  applied : ∀ err ∈ r.defSettings ++ r.settings ++ r.defSettingsAgain, err = 0
  threads : ∀ s ∈ r.sections, r.allocated = true ∧ (s.dir ≠ .none → s.checked = 0) ∧
    s.created = 0 ∧ s.ret = 0

/-! ## When it says so -/

/-- The write has failed, and what it returns is taken for frames, or its failed recovery
for an xrun. -/
def Write.IsLost (access : PcmAccess) (w : Write) : Prop :=
  w.call.Failed access ∧ (0 ≤ pcmWrite access w.call ∨
    xrunRecovery (pcmWrite access w.call) w.recovery = some (-EPIPE))

/-- The write returns no error, or one that is recovered. -/
def Write.SeesNoError (access : PcmAccess) (w : Write) : Prop :=
  0 ≤ pcmWrite access w.call ∨ pcmWrite access w.call = -EAGAIN ∨
    Recovered (pcmWrite access w.call) w.recovery

structure PlayRound.SeesNoError (access : PcmAccess) (round : PlayRound) : Prop where
  sine : round.sine = 0
  writes : ∀ w ∈ round.writes, w.SeesNoError access
  status : round.status.getD 0 = 0

/-- No error is returned to `pcm_play_sine`. -/
structure PlayRun.SeesNoError (hw : StreamDevice) (r : PlayRun) : Prop where
  opening : r.opening.Succeeds hw
  sync : hw.async = false → ∀ round ∈ r.rounds, round.SeesNoError hw.access
  async : hw.async = true → r.stateAllocated = true ∧ asyncPlaybackLoop hw r.async = some 0

structure RecordRound.SeesNoError (access : PcmAccess) (round : RecordRound) : Prop where
  read : 0 ≤ pcmRead access round.read ∨ (pcmRead access round.read = -EPIPE ∧ 0 ≤ round.prepare)
  status : round.status.getD 0 = 0

structure RecordRun.SeesNoError (hw : StreamDevice) (r : RecordRun) : Prop where
  opening : r.opening.Succeeds hw
  rounds : ∀ round ∈ r.rounds, round.SeesNoError hw.access

/-- The stream can be linked in a round that comes late enough, by the count of those before
it. -/
def LinksAt {α : Type} (hw : StreamDevice) (count : List α → Nat) (link : α → Int)
    (rounds : List α) : Prop :=
  ∃ before round after, rounds = before ++ round :: after ∧
    hw.startThreshold < count before ∧ link round = 0

/-- The stream can be linked, and unlinked. -/
structure PlayRun.Links (hw : StreamDevice) (r : PlayRun) : Prop where
  sync : hw.async = false
  link : LinksAt hw (fun before => before.length % 2 ^ 64) PlayRound.link r.rounds
  unlink : r.unlink = 0

structure RecordRun.Links (hw : StreamDevice) (r : RecordRun) : Prop where
  link : LinksAt hw (fun before => (before.map (RecordRound.frames hw.access)).sum % 2 ^ 32)
    RecordRound.link r.rounds
  unlink : r.unlink = 0

/-- The buffers can be allocated, and where no error is seen no write is lost and a stream
that is to be linked is. -/
structure PlayRun.IsReported (hw : StreamDevice) (r : PlayRun) : Prop where
  allocated : r.opening.setup = 0 → r.opening.allocated = true
  writes : r.SeesNoError hw → ∀ w ∈ r.writes hw, ¬ w.IsLost hw.access
  links : r.SeesNoError hw → hw.isLinked = true → r.Links hw

structure RecordRun.IsReported (hw : StreamDevice) (r : RecordRun) : Prop where
  allocated : r.opening.setup = 0 → r.opening.allocated = true
  links : r.SeesNoError hw → hw.isLinked = true → r.Links hw

/-- Everything before the threads succeeds, and the default settings in the clean-up. -/
structure TestRun.IsSetUp (r : TestRun) : Prop where
  tuner : r.tunerNamed = true → r.tunerOpened = true ∧ r.setupTuner = 0
  bt : r.btNamed = true → r.btConnect = 0
  applied : ∀ err ∈ r.defSettings ++ r.settings ++ r.defSettingsAgain, err = 0

/-! ## Writes -/

theorem xrunRecovery_eq_zero {err : Int} (hneg : err < 0) (r : Recovery) :
    xrunRecovery err r = some 0 ↔ Recovered err r := by
  unfold xrunRecovery Recovered
  by_cases hpipe : err = -EPIPE
  · rw [if_pos hpipe]
    have hne : err ≠ -ESTRPIPE := by rw [hpipe]; decide
    by_cases hprepare : r.prepare < 0
    · rw [if_pos hprepare]
      constructor
      · intro h
        have := Option.some.inj h
        omega
      · rintro (⟨_, h⟩ | ⟨h, _⟩)
        · omega
        · exact absurd h hne
    · rw [if_neg hprepare]
      exact ⟨fun _ => .inl ⟨hpipe, by omega⟩, fun _ => rfl⟩
  · rw [if_neg hpipe]
    by_cases hstrpipe : err = -ESTRPIPE
    · rw [if_pos hstrpipe]
      cases hresume : r.resume with
      | none => simp [hpipe]
      | some resumed =>
          by_cases hresumed : resumed < 0
          · by_cases hprepare : r.prepare < 0
            · have hzero : r.prepare ≠ 0 := by omega
              simp [hstrpipe, hresumed, hprepare, hzero]
            · simp [hstrpipe, hprepare]
              omega
          · simp [hstrpipe, hresumed]
            omega
    · rw [if_neg hstrpipe]
      have hzero : err ≠ 0 := by omega
      simp [hpipe, hstrpipe, hzero]

section

variable {access : PcmAccess} {w : Write}

theorem xrunRecovery_other {err : Int} (hpipe : err ≠ -EPIPE) (hstrpipe : err ≠ -ESTRPIPE)
    (r : Recovery) : xrunRecovery err r = some err := by
  unfold xrunRecovery
  rw [if_neg hpipe, if_neg hstrpipe]

/-- A write whose error is not seen, or taken for an xrun. -/
def Write.SeesXrun (access : PcmAccess) (w : Write) : Prop :=
  w.SeesNoError access ∨ xrunRecovery (pcmWrite access w.call) w.recovery = some (-EPIPE)

/-- Of the writes whose error is not seen, the lost ones have not succeeded. -/
theorem succeeds_iff (h : w.SeesXrun access) : w.Succeeds access ↔ ¬ w.IsLost access := by
  have hrecovered : ∀ {err : Int}, Recovered err w.recovery → err < 0 := by
    rintro err (⟨h, _⟩ | ⟨h, _⟩)
    · rw [h]; decide
    · rw [h]; decide
  have hnotXrun : pcmWrite access w.call = -EAGAIN ∨
      Recovered (pcmWrite access w.call) w.recovery →
        ¬ (0 ≤ pcmWrite access w.call ∨
          xrunRecovery (pcmWrite access w.call) w.recovery = some (-EPIPE)) := by
    rintro (hagain | hrec)
    · rw [hagain, xrunRecovery_other (by decide) (by decide)]
      decide
    · have hneg := hrecovered hrec
      rw [(xrunRecovery_eq_zero hneg w.recovery).mpr hrec]
      rintro (hle | hpipe)
      · omega
      · exact absurd hpipe (by decide)
  unfold Write.Succeeds Write.IsLost
  constructor
  · rintro (hok | hseen) ⟨hfailed, hlost⟩
    · exact hok hfailed
    · exact hnotXrun hseen hlost
  · intro hkept
    by_cases hseen : pcmWrite access w.call = -EAGAIN ∨
        Recovered (pcmWrite access w.call) w.recovery
    · exact .inr hseen
    · refine .inl fun hfailed => hkept ⟨hfailed, ?_⟩
      rcases h with (hle | hother) | hpipe
      · exact .inl hle
      · exact absurd hother hseen
      · exact .inr hpipe

/-- **A period** is played if no write returns an error, or each is recovered. -/
theorem writePeriod_eq {writes : List Write} {err : Int} : ∀ {cptr : Int},
    writePeriod access cptr writes = some err →
      (err = 0 ↔ ∀ w ∈ writes, w.SeesNoError access) := by
  induction writes with
  | nil =>
      intro cptr h
      unfold writePeriod at h
      by_cases hcptr : 0 < cptr
      · rw [if_pos hcptr] at h
        cases h
      · rw [if_neg hcptr] at h
        cases h
        simp
  | cons w writes ih =>
      intro cptr h
      unfold writePeriod at h
      by_cases hcptr : 0 < cptr
      · rw [if_pos hcptr] at h
        dsimp only at h
        rw [List.forall_mem_cons]
        by_cases hagain : pcmWrite access w.call = -EAGAIN
        · rw [if_pos hagain] at h
          have hw : w.SeesNoError access := .inr (.inl hagain)
          rw [ih h]
          exact (and_iff_right hw).symm
        · rw [if_neg hagain] at h
          by_cases hneg : pcmWrite access w.call < 0
          · rw [if_pos hneg] at h
            obtain ⟨err', hxrun, h⟩ := Option.bind_eq_some_iff.mp h
            have hw : w.SeesNoError access ↔ err' = 0 := by
              have hrec := xrunRecovery_eq_zero hneg w.recovery
              rw [hxrun, Option.some.injEq] at hrec
              rw [hrec]
              unfold Write.SeesNoError
              constructor
              · rintro (hle | hag | hrec)
                · omega
                · exact absurd hag hagain
                · exact hrec
              · exact fun hrec => .inr (.inr hrec)
            by_cases herr : err' ≠ 0
            · rw [if_pos herr] at h
              cases h
              rw [hw]
              exact ⟨fun h0 => absurd h0 herr, fun h0 => h0.1⟩
            · rw [if_neg herr] at h
              cases writes with
              | nil =>
                  cases h
                  rw [hw]
                  simp [not_not.mp herr]
              | cons w' writes => cases h
          · rw [if_neg hneg] at h
            have hw : w.SeesNoError access := .inl (by omega)
            rw [ih h]
            exact (and_iff_right hw).symm
      · rw [if_neg hcptr] at h
        cases h

end

/-! ## Linking -/

/-- Once the stream is linked it stays so. -/
theorem tryLink_true (hw : StreamDevice) (count : Nat) (link : Int) :
    tryLink hw true count link = true := by
  unfold tryLink
  simp

theorem tryLink_false (hw : StreamDevice) (count : Nat) (link : Int) :
    tryLink hw false count link = true ↔
      hw.isLinked = true ∧ hw.startThreshold < count ∧ link = 0 := by
  unfold tryLink
  by_cases htry : hw.isLinked = true ∧ hw.startThreshold < count
  · simp [htry.1, htry.2]
  · have hno : ¬ (hw.isLinked = true ∧ false = false ∧ hw.startThreshold < count) :=
      fun h => htry ⟨h.1, h.2.2⟩
    rw [if_neg hno]
    simp
    tauto

theorem linksAt_cons {α : Type} {hw : StreamDevice} {count : List α → Nat} {link : α → Int}
    {round : α} {rounds : List α} :
    LinksAt hw count link (round :: rounds) ↔
      (hw.startThreshold < count [] ∧ link round = 0) ∨
        LinksAt hw (fun before => count (round :: before)) link rounds := by
  constructor
  · rintro ⟨before, r, after, heq, hcount, hlink⟩
    cases before with
    | nil =>
        obtain ⟨rfl, rfl⟩ := List.cons.inj heq
        exact .inl ⟨hcount, hlink⟩
    | cons b before =>
        obtain ⟨rfl, rfl⟩ := List.cons.inj heq
        exact .inr ⟨before, r, after, rfl, hcount, hlink⟩
  · rintro (⟨hcount, hlink⟩ | ⟨before, r, after, rfl, hcount, hlink⟩)
    · exact ⟨[], round, rounds, rfl, hcount, hlink⟩
    · exact ⟨round :: before, r, after, rfl, hcount, hlink⟩

theorem linked_cons {α : Type} {hw : StreamDevice} {count : List α → Nat} {link : α → Int}
    {round : α} {rounds : List α} {linkOk linked : Bool}
    (h : linked = true ↔ tryLink hw linkOk (count []) (link round) = true ∨
      (hw.isLinked = true ∧ LinksAt hw (fun before => count (round :: before)) link rounds)) :
    linked = true ↔ linkOk = true ∨
      (hw.isLinked = true ∧ LinksAt hw count link (round :: rounds)) := by
  rw [h, linksAt_cons]
  cases linkOk with
  | false =>
      rw [tryLink_false]
      tauto
  | true =>
      rw [tryLink_true]
      simp

/-! ## Loops -/

/-- The loop is left with an error. -/
def LoopEnd.Fails : LoopEnd → Prop
  | .finished _ => False
  | .cleanup err _ | .returned err _ => err ≠ 0

/-- **The loop of `pcm_play_sine`** finishes if it sees no error, and has then linked the
stream if some round could. -/
theorem playRounds_cases (hw : StreamDevice) {rounds : List PlayRound} {e : LoopEnd} :
    ∀ {linkOk : Bool} {loopCount : Nat}, playRounds hw linkOk loopCount rounds = some e →
      (∃ linked, e = .finished linked ∧ (∀ round ∈ rounds, round.SeesNoError hw.access) ∧
        (linked = true ↔ linkOk = true ∨ (hw.isLinked = true ∧
          LinksAt hw (fun before => (loopCount + before.length) % 2 ^ 64) PlayRound.link
            rounds))) ∨
      (e.Fails ∧ ∃ round ∈ rounds, ¬ round.SeesNoError hw.access) := by
  induction rounds with
  | nil =>
      intro linkOk loopCount h
      cases h
      exact .inl ⟨linkOk, rfl, by simp, by simp [LinksAt]⟩
  | cons round rounds ih =>
      intro linkOk loopCount h
      unfold playRounds at h
      dsimp only at h
      by_cases hsine : round.sine ≠ 0
      · rw [if_pos hsine] at h
        cases h
        exact .inr ⟨hsine, round, List.mem_cons_self, fun hsees => hsine hsees.sine⟩
      · rw [if_neg hsine] at h
        obtain ⟨err, hperiod, h⟩ := Option.bind_eq_some_iff.mp h
        have hwrites := writePeriod_eq hperiod
        by_cases herr : err ≠ 0
        · rw [if_pos herr] at h
          cases h
          exact .inr ⟨herr, round, List.mem_cons_self,
            fun hsees => herr (hwrites.mpr hsees.writes)⟩
        · rw [if_neg herr] at h
          by_cases hstatus : round.status.getD 0 ≠ 0
          · rw [if_pos hstatus] at h
            cases h
            exact .inr ⟨hstatus, round, List.mem_cons_self, fun hsees => hstatus hsees.status⟩
          · rw [if_neg hstatus] at h
            have hround : round.SeesNoError hw.access :=
              ⟨not_not.mp hsine, hwrites.mp (not_not.mp herr), not_not.mp hstatus⟩
            obtain ⟨linked, hend, hsees, hlinked⟩ | ⟨hfails, other, hother, hsees⟩ := ih h
            · refine .inl ⟨linked, hend, List.forall_mem_cons.mpr ⟨hround, hsees⟩, ?_⟩
              refine linked_cons ?_
              rw [hlinked]
              have hcount : (fun before : List PlayRound =>
                  (loopCount + 1 + before.length) % 2 ^ 64) =
                  fun before => (loopCount + (round :: before).length) % 2 ^ 64 := by
                funext before
                rw [List.length_cons, Nat.add_assoc, Nat.add_comm 1]
              rw [hcount]
              rfl
            · exact .inr ⟨hfails, other, List.mem_cons_of_mem round hother, hsees⟩

/-- **The loop of `pcm_record`.** -/
theorem recordRounds_cases (hw : StreamDevice) {rounds : List RecordRound} :
    ∀ {linkOk : Bool} {recFrames : Nat},
      (∃ linked, recordRounds hw linkOk recFrames rounds = .finished linked ∧
        (∀ round ∈ rounds, round.SeesNoError hw.access) ∧
        (linked = true ↔ linkOk = true ∨ (hw.isLinked = true ∧
          LinksAt hw (fun before =>
            (recFrames + (before.map (RecordRound.frames hw.access)).sum) % 2 ^ 32)
            RecordRound.link rounds))) ∨
      ((recordRounds hw linkOk recFrames rounds).Fails ∧
        ∃ round ∈ rounds, ¬ round.SeesNoError hw.access) := by
  induction rounds with
  | nil =>
      intro linkOk recFrames
      exact .inl ⟨linkOk, rfl, by simp, by simp [LinksAt]⟩
  | cons round rounds ih =>
      intro linkOk recFrames
      unfold recordRounds
      dsimp only
      by_cases hprepare : pcmRead hw.access round.read = -EPIPE ∧ round.prepare < 0
      · rw [if_pos hprepare]
        refine .inr ⟨Int.ne_of_lt hprepare.2, round, List.mem_cons_self, fun hsees => ?_⟩
        have hneg : pcmRead hw.access round.read < 0 := by rw [hprepare.1]; decide
        have := hsees.read
        omega
      · rw [if_neg hprepare]
        by_cases hread : pcmRead hw.access round.read ≠ -EPIPE ∧ pcmRead hw.access round.read < 0
        · rw [if_pos hread]
          refine .inr ⟨(by decide : (-1 : Int) ≠ 0), round, List.mem_cons_self,
            fun hsees => ?_⟩
          have := hsees.read
          omega
        · rw [if_neg hread]
          by_cases hstatus : round.status.getD 0 ≠ 0
          · rw [if_pos hstatus]
            exact .inr ⟨hstatus, round, List.mem_cons_self, fun hsees => hstatus hsees.status⟩
          · rw [if_neg hstatus]
            have hround : round.SeesNoError hw.access := ⟨by omega, not_not.mp hstatus⟩
            obtain ⟨linked, hend, hsees, hlinked⟩ | ⟨hfails, other, hother, hsees⟩ :=
              @ih (tryLink hw linkOk (recFrames % 2 ^ 32) round.link)
                (recFrames + round.frames hw.access)
            · refine .inl ⟨linked, hend, List.forall_mem_cons.mpr ⟨hround, hsees⟩, ?_⟩
              refine linked_cons ?_
              rw [hlinked]
              have hcount : (fun before => (recFrames + round.frames hw.access +
                  (before.map (RecordRound.frames hw.access)).sum) % 2 ^ 32) =
                  fun before => (recFrames +
                    ((round :: before).map (RecordRound.frames hw.access)).sum) % 2 ^ 32 := by
                funext before
                rw [List.map_cons, List.sum_cons, Nat.add_assoc]
              rw [hcount]
              rfl
            · exact .inr ⟨hfails, other, List.mem_cons_of_mem round hother, hsees⟩

/-! ## Asynchronous playback -/

section

variable {hw : StreamDevice} {ret out ret' out' : Int}

/-- The writes of a period whose error is not seen, or taken for an xrun. -/
def AsyncPeriod.SeesXrun (p : AsyncPeriod) : Prop :=
  ∀ w ∈ p.writes, w.SeesXrun .rwInterleaved

theorem asyncWrites_sees {writes : List Write} : ∀ {remain out : Int},
    asyncWrites remain out writes = some (ret', out') → ret' = 0 ∨ ret' = -EPIPE →
      ∀ w ∈ writes, w.SeesXrun .rwInterleaved := by
  induction writes with
  | nil => exact fun _ _ _ hw => absurd hw List.not_mem_nil
  | cons w writes ih =>
      intro remain out h hret
      unfold asyncWrites at h
      by_cases hremain : 0 < remain
      · rw [if_pos hremain] at h
        dsimp only at h
        rw [List.forall_mem_cons]
        by_cases hagain : ioctlPcmWritei w.call = -EAGAIN
        · rw [if_pos hagain] at h
          exact ⟨.inl (.inr (.inl hagain)), ih h hret⟩
        · rw [if_neg hagain] at h
          by_cases hneg : ioctlPcmWritei w.call < 0
          · rw [if_pos hneg] at h
            obtain ⟨err, hxrun, h⟩ := Option.bind_eq_some_iff.mp h
            cases writes with
            | cons w' writes => cases h
            | nil =>
                refine ⟨?_, fun _ hw => absurd hw List.not_mem_nil⟩
                by_cases herr : err ≠ 0
                · rw [if_pos List.isEmpty_nil, if_pos herr] at h
                  cases h
                  rw [hret.resolve_left herr] at hxrun
                  exact .inr hxrun
                · rw [not_not.mp herr] at hxrun
                  exact .inl (.inr (.inr ((xrunRecovery_eq_zero hneg w.recovery).mp hxrun)))
          · rw [if_neg hneg] at h
            exact ⟨.inl (.inl (Int.not_lt.mp hneg)), ih h hret⟩
      · rw [if_neg hremain] at h
        cases h

/-- A call of `pcm_async_playback` that returns 0 or an xrun. -/
theorem pcmAsyncPlayback_sees {p : AsyncPeriod}
    (h : pcmAsyncPlayback hw out p = some (ret', out')) (hret : ret' = 0 ∨ ret' = -EPIPE) :
    p.SeesXrun := by
  unfold pcmAsyncPlayback at h
  by_cases hsine : p.sine ≠ 0
  · rw [if_pos hsine] at h
    by_cases hempty : p.writes.isEmpty = true
    · unfold AsyncPeriod.SeesXrun
      rw [List.isEmpty_iff.mp hempty]
      exact fun _ hw => absurd hw List.not_mem_nil
    · rw [if_neg hempty] at h
      cases h
  · rw [if_neg hsine] at h
    exact asyncWrites_sees h hret

theorem fillBuffer_sees {point : Int} {periods : List AsyncPeriod} : ∀ {ret out : Int},
    fillBuffer hw point ret out periods = some (0, out') → ∀ p ∈ periods, p.SeesXrun := by
  induction periods with
  | nil => exact fun _ _ hp => absurd hp List.not_mem_nil
  | cons p periods ih =>
      intro ret out h
      unfold fillBuffer at h
      by_cases hpoint : out < point
      · rw [if_pos hpoint] at h
        obtain ⟨⟨ret₁, out₁⟩, hplay, h⟩ := Option.bind_eq_some_iff.mp h
        dsimp only at h
        by_cases hret : ret₁ ≠ 0
        · rw [if_pos hret] at h
          cases h
          exact absurd rfl hret
        · rw [if_neg hret] at h
          exact List.forall_mem_cons.mpr
            ⟨pcmAsyncPlayback_sees hplay (.inl (not_not.mp hret)), ih h⟩
      · rw [if_neg hpoint] at h
        cases h

theorem servePending_sees {periods : List AsyncPeriod} : ∀ {ret out : Int},
    servePending hw ret out periods = some (ret', out') → ret' = 0 ∨ ret' = -EPIPE →
      ∀ p ∈ periods, p.SeesXrun := by
  induction periods with
  | nil => exact fun _ _ _ hp => absurd hp List.not_mem_nil
  | cons p periods ih =>
      intro ret out h hret
      unfold servePending at h
      obtain ⟨⟨ret₁, out₁⟩, hplay, h⟩ := Option.bind_eq_some_iff.mp h
      dsimp only at h
      by_cases hret₁ : ret₁ ≠ 0
      · rw [if_pos hret₁] at h
        cases periods with
        | nil =>
            cases h
            exact List.forall_mem_cons.mpr
              ⟨pcmAsyncPlayback_sees hplay hret, fun _ hp => absurd hp List.not_mem_nil⟩
        | cons p' periods => cases h
      · rw [if_neg hret₁] at h
        exact List.forall_mem_cons.mpr
          ⟨pcmAsyncPlayback_sees hplay (.inl (not_not.mp hret₁)), ih h hret⟩

/-- The periods of a round. -/
def AsyncRound.SeesXrun (round : AsyncRound) : Prop :=
  ∀ p ∈ round.pending ++ round.refill, p.SeesXrun

theorem asyncRounds_sees {rounds : List AsyncRound} : ∀ {ret out : Int},
    asyncRounds hw ret out rounds = some (0, out') → ∀ round ∈ rounds, round.SeesXrun := by
  induction rounds with
  | nil => exact fun _ _ hround => absurd hround List.not_mem_nil
  | cons round rounds ih =>
      intro ret out h
      unfold asyncRounds at h
      obtain ⟨⟨served, out₁⟩, hserve, h⟩ := Option.bind_eq_some_iff.mp h
      dsimp only at h
      by_cases hserved : served ≠ 0 ∧ served ≠ -EPIPE
      · rw [if_pos hserved] at h
        cases h
        exact absurd rfl hserved.1
      · rw [if_neg hserved] at h
        obtain ⟨⟨ret₂, out₂⟩, hfill, h⟩ := Option.bind_eq_some_iff.mp h
        dsimp only at h
        have hpending := servePending_sees hserve (by omega)
        by_cases hret : ret₂ ≠ 0 ∧ ¬ (served = -EPIPE ∧ round.refill.isEmpty = true)
        · rw [if_pos hret] at h
          cases h
          exact absurd rfl hret.1
        · rw [if_neg hret] at h
          -- the buffer was filled, or there was nothing to fill it with
          have hrefill : ∀ p ∈ round.refill, p.SeesXrun := by
            by_cases hempty : round.refill.isEmpty = true
            · rw [List.isEmpty_iff.mp hempty]
              exact fun _ hp => absurd hp List.not_mem_nil
            · have hzero : ret₂ = 0 := by
                by_contra hne
                exact hret ⟨hne, fun h => hempty h.2⟩
              by_cases hpipe : served = -EPIPE
              · rw [if_pos hpipe, hzero] at hfill
                exact fillBuffer_sees hfill
              · rw [if_neg hpipe, if_neg hempty] at hfill
                cases hfill
          have hround : round.SeesXrun := by
            intro p hp
            exact (List.mem_append.mp hp).elim (hpending p) (hrefill p)
          refine List.forall_mem_cons.mpr ⟨hround, ?_⟩
          by_cases htime : round.timeUp = true
          · rw [if_pos htime] at h
            cases rounds with
            | nil => exact fun _ hr => absurd hr List.not_mem_nil
            | cons round' rounds => cases h
          · rw [if_neg htime] at h
            by_cases hsleep : round.sleep ≠ 0 ∧ round.interrupted = false
            · rw [if_pos hsleep] at h
              exact absurd (congrArg Prod.fst (Option.some.inj h)) hsleep.1
            · rw [if_neg hsleep] at h
              exact ih h

theorem keepError_eq_zero {ret err : Int} (h : keepError ret err = 0) : ret = 0 := by
  by_contra hret
  unfold keepError at h
  rw [if_pos hret] at h
  exact hret h

/-- **`async_playback_loop`** that returns 0. -/
theorem asyncPlaybackLoop_sees {r : AsyncRun} (h : asyncPlaybackLoop hw r = some 0) :
    hw.access = .rwInterleaved ∧ ∀ w ∈ r.writes, w.SeesXrun .rwInterleaved := by
  obtain ⟨ret, hplay, hret⟩ := Option.map_eq_some_iff.mp h
  replace hret := keepError_eq_zero (keepError_eq_zero (keepError_eq_zero hret))
  subst hret
  unfold asyncPlayback at hplay
  by_cases haccess : hw.access ≠ .rwInterleaved
  · rw [if_pos haccess] at hplay
    exact absurd (Option.some.inj hplay) (by decide)
  · rw [if_neg haccess] at hplay
    by_cases hinit : r.init ≠ 0
    · rw [if_pos hinit] at hplay
      exact absurd (Option.some.inj hplay) hinit
    · rw [if_neg hinit] at hplay
      obtain ⟨⟨ret₁, out₁⟩, hfill, hplay⟩ := Option.bind_eq_some_iff.mp hplay
      dsimp only at hplay
      by_cases hret₁ : ret₁ ≠ 0
      · rw [if_pos hret₁] at hplay
        exact absurd (Option.some.inj hplay) hret₁
      · rw [if_neg hret₁] at hplay
        by_cases hstart : (r.timer.map TimerResults.start).getD 0 ≠ 0
        · rw [if_pos hstart] at hplay
          rw [hplay] at hstart
          exact absurd rfl hstart
        · rw [if_neg hstart] at hplay
          by_cases henable : r.enable ≠ 0
          · rw [if_pos henable] at hplay
            exact absurd (Option.some.inj hplay) henable
          · rw [if_neg henable] at hplay
            obtain ⟨⟨ret₂, out₂⟩, hrounds, hcheck⟩ := Option.map_eq_some_iff.mp hplay
            dsimp only at hcheck
            have hret₂ : ret₂ = 0 := by
              by_contra hne
              rw [if_pos hne, ite_self] at hcheck
              exact hne hcheck
            rw [not_not.mp hret₁] at hfill
            rw [hret₂] at hrounds
            refine ⟨not_not.mp haccess, fun w hw => ?_⟩
            obtain hbuffering | hround := List.mem_append.mp hw
            · obtain ⟨p, hp, hw⟩ := List.mem_flatMap.mp hbuffering
              exact fillBuffer_sees hfill p hp w hw
            · obtain ⟨round, hround, hw⟩ := List.mem_flatMap.mp hround
              obtain ⟨p, hp, hw⟩ := List.mem_flatMap.mp hw
              exact asyncRounds_sees hrounds round hround p hp w hw

end

/-! ## The stream functions -/

section

variable {hw : StreamDevice}

/-- Without an error the stream is open.  An error of 0 comes from a buffer that could not be
allocated. -/
theorem openStream_cases (hw : StreamDevice) (o : Opening) :
    (openStream hw o = none ∧ o.Succeeds hw) ∨
      ∃ err, openStream hw o = some err ∧ ¬ o.Succeeds hw ∧
        (err = 0 ↔ o.setup = 0 ∧ o.allocated = false) := by
  unfold openStream
  by_cases hsetup : o.setup ≠ 0
  · rw [if_pos hsetup]
    exact .inr ⟨o.setup, rfl, fun h => hsetup h.setup,
      fun h => absurd h hsetup, fun h => h.1⟩
  · rw [if_neg hsetup]
    have hzero := not_not.mp hsetup
    by_cases halloc : o.allocated = false
    · rw [if_pos halloc]
      refine .inr ⟨o.setup, rfl, fun h => ?_, fun _ => ⟨hzero, halloc⟩, fun _ => hzero⟩
      exact Bool.false_ne_true (halloc.symm.trans h.allocated)
    · rw [if_neg halloc]
      by_cases hmap : hw.isMapped = true ∧ o.mmapAlloc ≠ 0
      · rw [if_pos hmap]
        exact .inr ⟨o.mmapAlloc, rfl, fun h => hmap.2 (h.mapped hmap.1),
          fun h => absurd h hmap.2, fun h => absurd h.2 halloc⟩
      · rw [if_neg hmap]
        by_cases hprepare : o.prepare ≠ 0
        · rw [if_pos hprepare]
          exact .inr ⟨o.prepare, rfl, fun h => hprepare h.prepared,
            fun h => absurd h hprepare, fun h => absurd h.2 halloc⟩
        · rw [if_neg hprepare]
          refine .inl ⟨rfl, hzero, Bool.not_eq_false _ ▸ halloc, fun hmapped => ?_,
            not_not.mp hprepare⟩
          by_contra hne
          exact hmap ⟨hmapped, hne⟩

/-- A stream that is not opened returns 0 if a buffer could not be allocated. -/
theorem allocated_iff {o : Opening} {err : Int}
    (herr : err = 0 ↔ o.setup = 0 ∧ o.allocated = false) :
    err ≠ 0 ↔ (o.setup = 0 → o.allocated = true) := by
  unfold Ne
  rw [herr, not_and, Bool.not_eq_false]

/-- The link of a stream whose loop has finished. -/
theorem finished_linked {linked : Bool} (unlink : Int) {links : Prop}
    (hlinked : linked = true ↔ false = true ∨ (hw.isLinked = true ∧ links)) :
    (hw.isLinked = true → linked = true ∧
      (LoopEnd.close hw unlink (.finished linked)).unlinked = true) ↔
      (hw.isLinked = true → links ∧ unlink = 0) := by
  refine imp_congr_right fun hisLinked => ?_
  have hcard : 0 ≤ hw.linkCard := by
    unfold StreamDevice.isLinked at hisLinked
    rw [Bool.and_eq_true] at hisLinked
    exact of_decide_eq_true hisLinked.1
  rw [hlinked]
  show _ ∧ (decide (0 ≤ hw.linkCard) && decide (unlink = 0)) = true ↔ _
  rw [decide_eq_true hcard, Bool.true_and, decide_eq_true_eq]
  simp [hisLinked]

theorem close_fails {e : LoopEnd} (h : e.Fails) (unlink : Int) :
    (LoopEnd.close hw unlink e).ret ≠ 0 := by
  cases e with
  | finished linkOk => exact h.elim
  | cleanup err linkOk => exact h
  | returned err linkOk => exact h

theorem RecordRound.SeesNoError.succeeds {round : RecordRound} {access : PcmAccess}
    (h : round.SeesNoError access) : round.Succeeds access := by
  obtain hread | hprepare := h.read
  · refine .inl fun hfailed => ?_
    cases access with
    | mmapInterleaved | mmapNoninterleaved =>
        obtain ⟨hresult, herr⟩ : round.read.result ≤ 0 ∧ round.read.err < 0 := hfailed
        have hread : 0 ≤ (if 0 < round.read.result then round.read.result else round.read.err) :=
          hread
        rw [if_neg (Int.not_lt.mpr hresult)] at hread
        omega
    | mmapComplex | rwInterleaved | rwNoninterleaved =>
        have herr : round.read.err < 0 := hfailed
        have hread : 0 ≤ (if round.read.err < 0 then round.read.err else round.read.result) :=
          hread
        rw [if_pos herr] at hread
        omega
  · exact .inr hprepare

/-- **`pcm_record`** returns 0 only if all is well, exactly if its run is reported. -/
theorem recordedWell_iff (r : RecordRun) :
    ((pcmRecord hw r).ret = 0 → RecordedWell hw r (pcmRecord hw r)) ↔ r.IsReported hw := by
  unfold pcmRecord
  obtain ⟨hopen, hok⟩ | ⟨err, hopen, hfail, herr⟩ := openStream_cases hw r.opening
  · rw [hopen]
    obtain ⟨linked, hend, hsees, hlinked⟩ | ⟨hfails, round, hround, hsees⟩ :=
      @recordRounds_cases hw r.rounds false 0
    · simp only [Nat.zero_add] at hlinked
      have hlinks := finished_linked r.unlink hlinked
      rw [hend]
      constructor
      · intro h
        obtain ⟨_, _, hlinked⟩ := h rfl
        refine ⟨fun _ => hok.allocated, fun _ hisLinked => ?_⟩
        obtain ⟨hlink, hunlink⟩ := hlinks.mp hlinked hisLinked
        exact ⟨hlink, hunlink⟩
      · intro h _
        refine ⟨hok, fun round hround => (hsees round hround).succeeds, ?_⟩
        refine hlinks.mpr fun hisLinked => ?_
        have hrun := h.links ⟨hok, hsees⟩ hisLinked
        exact ⟨hrun.link, hrun.unlink⟩
    · constructor
      · intro _
        exact ⟨fun _ => hok.allocated, fun h => absurd (h.rounds round hround) hsees⟩
      · exact fun _ hret => absurd hret (close_fails hfails r.unlink)
  · rw [hopen]
    constructor
    · intro h
      exact ⟨(allocated_iff herr).mp fun hzero => hfail (h hzero).opening,
        fun hsees => absurd hsees.opening hfail⟩
    · exact fun h hret => absurd hret ((allocated_iff herr).mpr h.allocated)

/-- **`pcm_play_sine`**, likewise. -/
theorem playedWell_iff {r : PlayRun} {out : StreamReturn} (hplay : pcmPlaySine hw r = some out) :
    (out.ret = 0 → PlayedWell hw r out) ↔ r.IsReported hw := by
  unfold pcmPlaySine at hplay
  obtain ⟨hopen, hok⟩ | ⟨err, hopen, hfail, herr⟩ := openStream_cases hw r.opening
  · rw [hopen] at hplay
    dsimp only at hplay
    -- a run that returns an error has seen one
    have hreports : ¬ r.SeesNoError hw → out.ret ≠ 0 →
        ((out.ret = 0 → PlayedWell hw r out) ↔ r.IsReported hw) := by
      intro hsees hret
      exact ⟨fun _ => ⟨fun _ => hok.allocated, fun h => absurd h hsees, fun h => absurd h hsees⟩,
        fun _ h => absurd h hret⟩
    by_cases hasync : hw.async = true
    · rw [if_pos hasync] at hplay
      by_cases hstate : r.stateAllocated = false
      · rw [if_pos hstate] at hplay
        cases hplay
        refine hreports (fun hsees => ?_) (show -ENOMEM ≠ 0 by decide)
        exact Bool.false_ne_true (hstate.symm.trans (hsees.async hasync).1)
      · rw [if_neg hstate] at hplay
        obtain ⟨err, hloop, hclose⟩ := Option.map_eq_some_iff.mp hplay
        by_cases herr : err ≠ 0
        · rw [if_pos herr] at hclose
          subst hclose
          refine hreports (fun hsees => ?_) herr
          have hzero := (hsees.async hasync).2
          rw [hloop] at hzero
          exact herr (Option.some.inj hzero)
        · rw [if_neg herr] at hclose
          subst hclose
          rw [not_not.mp herr] at hloop
          have hsees : r.SeesNoError hw :=
            ⟨hok, fun h => absurd (hasync.symm.trans h) (by decide),
              fun _ => ⟨Bool.not_eq_false _ ▸ hstate, hloop⟩⟩
          obtain ⟨haccess, hwrites⟩ := asyncPlaybackLoop_sees hloop
          have hwrites : ∀ w ∈ r.writes hw, w.SeesXrun hw.access := by
            unfold PlayRun.writes
            rw [if_pos hasync, haccess]
            exact hwrites
          constructor
          · intro h
            obtain ⟨_, htransfers, hlinked⟩ := h rfl
            refine ⟨fun _ => hok.allocated, fun _ w hw' => ?_, fun _ hisLinked => ?_⟩
            · exact (succeeds_iff (hwrites w hw')).mp (htransfers w hw')
            · exact absurd (hlinked hisLinked).1 Bool.false_ne_true
          · intro h _
            refine ⟨hok, fun w hw' => ?_, fun hisLinked => ?_⟩
            · exact (succeeds_iff (hwrites w hw')).mpr (h.writes hsees w hw')
            · exact absurd (hasync.symm.trans (h.links hsees hisLinked).sync) (by decide)
    · rw [if_neg hasync] at hplay
      have hsync : hw.async = false := Bool.not_eq_true _ ▸ hasync
      obtain ⟨e, hrounds, hclose⟩ := Option.map_eq_some_iff.mp hplay
      obtain ⟨linked, hend, hsees, hlinked⟩ | ⟨hfails, round, hround, hsees⟩ :=
        playRounds_cases hw hrounds
      · simp only [Nat.zero_add] at hlinked
        have hlinks := finished_linked r.unlink hlinked
        subst hend
        subst hclose
        have hrun : r.SeesNoError hw := ⟨hok, fun _ => hsees, fun h => absurd h hasync⟩
        have hwrites : ∀ w ∈ r.writes hw, w.SeesXrun hw.access := by
          unfold PlayRun.writes
          rw [if_neg hasync]
          intro w hw'
          obtain ⟨round, hround, hw'⟩ := List.mem_flatMap.mp hw'
          exact .inl ((hsees round hround).writes w hw')
        constructor
        · intro h
          obtain ⟨_, htransfers, hlinked⟩ := h rfl
          refine ⟨fun _ => hok.allocated, fun _ w hw' => ?_, fun _ hisLinked => ?_⟩
          · exact (succeeds_iff (hwrites w hw')).mp (htransfers w hw')
          · obtain ⟨hlink, hunlink⟩ := hlinks.mp hlinked hisLinked
            exact ⟨hsync, hlink, hunlink⟩
        · intro h _
          refine ⟨hok, fun w hw' => ?_, hlinks.mpr fun hisLinked => ?_⟩
          · exact (succeeds_iff (hwrites w hw')).mpr (h.writes hrun w hw')
          · have hlinkRun := h.links hrun hisLinked
            exact ⟨hlinkRun.link, hlinkRun.unlink⟩
      · subst hclose
        refine hreports (fun h => ?_) (close_fails hfails r.unlink)
        exact hsees (h.sync hsync round hround)
  · rw [hopen] at hplay
    cases hplay
    constructor
    · intro h
      exact ⟨(allocated_iff herr).mp fun hzero => hfail (h hzero).opening,
        fun hsees => absurd hsees.opening hfail, fun hsees => absurd hsees.opening hfail⟩
    · exact fun h hret => absurd hret ((allocated_iff herr).mpr h.allocated)

end

/-! ## Tests -/

theorem settingsErr_eq_zero {errs : List Int} : settingsErr errs = 0 ↔ ∀ err ∈ errs, err = 0 := by
  induction errs with
  | nil => simp [settingsErr]
  | cons err errs ih =>
      rw [settingsErr, List.forall_mem_cons]
      by_cases herr : err ≠ 0
      · rw [if_pos herr]
        exact ⟨fun h => absurd h herr, fun h => absurd h.1 herr⟩
      · rw [if_neg herr, ih]
        exact (and_iff_right (not_not.mp herr)).symm

theorem startThreads_eq_zero {sections : List SectionRun} :
    startThreads sections = 0 ↔
      ∀ s ∈ sections, (s.dir ≠ .none → s.checked = 0) ∧ s.created = 0 := by
  induction sections with
  | nil => simp [startThreads]
  | cons s sections ih =>
      rw [startThreads, List.forall_mem_cons]
      by_cases hchecked : s.dir ≠ .none ∧ s.checked ≠ 0
      · rw [if_pos hchecked]
        exact ⟨fun h => absurd h hchecked.2, fun h => absurd (h.1.1 hchecked.1) hchecked.2⟩
      · rw [if_neg hchecked]
        by_cases hcreated : s.created ≠ 0
        · rw [if_pos hcreated]
          exact ⟨fun h => absurd h hcreated, fun h => absurd h.1.2 hcreated⟩
        · rw [if_neg hcreated, ih]
          refine (and_iff_right ⟨fun hdir => ?_, not_not.mp hcreated⟩).symm
          by_contra hne
          exact hchecked ⟨hdir, hne⟩

/-- An error that is there stays, or gives way to another. -/
theorem joinThreads_eq_zero {sections : List SectionRun} : ∀ {err : Int},
    joinThreads err sections = 0 ↔ err = 0 ∧ ∀ s ∈ sections, s.ret = 0 := by
  induction sections with
  | nil => simp [joinThreads]
  | cons s sections ih =>
      intro err
      rw [joinThreads, ih, List.forall_mem_cons]
      by_cases hret : s.ret ≠ 0
      · rw [if_pos hret]
        exact ⟨fun h => absurd h.1 hret, fun h => absurd h.2.1 hret⟩
      · rw [if_neg hret]
        have hzero := not_not.mp hret
        simp [hzero]

theorem setUpTest_eq_zero {r : TestRun} : setUpTest r = 0 ↔
    (r.tunerNamed = true → r.tunerOpened = true ∧ r.setupTuner = 0) ∧
      (r.btNamed = true → r.btConnect = 0) ∧
      (∀ err ∈ r.defSettings, err = 0) ∧ ∀ err ∈ r.settings, err = 0 := by
  rw [← settingsErr_eq_zero, ← settingsErr_eq_zero]
  unfold setUpTest
  by_cases hopened : r.tunerNamed = true ∧ r.tunerOpened = false
  · rw [if_pos hopened]
    refine ⟨fun h => absurd h (by decide), fun h => ?_⟩
    exact absurd (hopened.2.symm.trans (h.1 hopened.1).1) Bool.false_ne_true
  · rw [if_neg hopened]
    by_cases hbt : r.btNamed = true ∧ r.btConnect ≠ 0
    · rw [if_pos hbt]
      exact ⟨fun h => absurd h hbt.2, fun h => absurd (h.2.1 hbt.1) hbt.2⟩
    · rw [if_neg hbt]
      by_cases hdef : settingsErr r.defSettings ≠ 0
      · rw [if_pos hdef]
        exact ⟨fun h => absurd h hdef, fun h => absurd h.2.2.1 hdef⟩
      · rw [if_neg hdef]
        by_cases hset : settingsErr r.settings ≠ 0
        · rw [if_pos hset]
          exact ⟨fun h => absurd h hset, fun h => absurd h.2.2.2 hset⟩
        · rw [if_neg hset]
          by_cases htuner : r.tunerNamed = true ∧ r.setupTuner ≠ 0
          · rw [if_pos htuner]
            exact ⟨fun h => absurd h htuner.2, fun h => absurd (h.1 htuner.1).2 htuner.2⟩
          · rw [if_neg htuner]
            refine ⟨fun _ => ⟨fun hnamed => ⟨?_, ?_⟩, fun hnamed => ?_, not_not.mp hdef,
              not_not.mp hset⟩, fun _ => rfl⟩
            · cases hopen : r.tunerOpened with
              | true => rfl
              | false => exact absurd ⟨hnamed, hopen⟩ hopened
            · by_contra hne
              exact htuner ⟨hnamed, hne⟩
            · by_contra hne
              exact hbt ⟨hnamed, hne⟩

/-- **`alsa_play_rec_pcm`** returns 0 only if all is well, exactly if the array of threads
can be allocated. -/
theorem passed_iff (r : TestRun) :
    (alsaPlayRecPcm r = 0 → r.Passed) ↔
      (r.IsSetUp → r.allocated = true ∨ r.sections = []) := by
  unfold alsaPlayRecPcm
  by_cases hagain : settingsErr r.defSettingsAgain ≠ 0
  · rw [if_pos hagain]
    constructor
    · intro _ hsetup
      refine absurd (settingsErr_eq_zero.mpr fun err herr => ?_) hagain
      exact hsetup.applied err (List.mem_append_right _ herr)
    · exact fun _ h => absurd h (by decide)
  · rw [if_neg hagain]
    have hagain' := settingsErr_eq_zero.mp (not_not.mp hagain)
    have hsetup : r.IsSetUp ↔ setUpTest r = 0 := by
      rw [setUpTest_eq_zero]
      constructor
      · intro h
        exact ⟨h.tuner, h.bt, fun err herr => h.applied err (by simp [herr]),
          fun err herr => h.applied err (by simp [herr])⟩
      · rintro ⟨htuner, hbt, hdef, hset⟩
        refine ⟨htuner, hbt, fun err herr => ?_⟩
        obtain herr | herr := List.mem_append.mp herr
        · exact (List.mem_append.mp herr).elim (hdef err) (hset err)
        · exact hagain' err herr
    rw [hsetup]
    unfold runTest
    by_cases hzero : setUpTest r ≠ 0
    · rw [if_pos hzero]
      exact ⟨fun _ h => absurd h hzero, fun _ h => absurd h hzero⟩
    · rw [if_neg hzero]
      have hzero := not_not.mp hzero
      by_cases halloc : r.allocated = false
      · rw [if_pos halloc]
        constructor
        · intro h _
          refine .inr (List.eq_nil_iff_forall_not_mem.mpr fun s hs => ?_)
          have hs := ((h hzero).threads s hs).1
          exact Bool.false_ne_true (halloc.symm.trans hs)
        · intro h _
          have hnil := (h hzero).resolve_left fun htrue =>
            Bool.false_ne_true (halloc.symm.trans htrue)
          refine ⟨(hsetup.mpr hzero).applied, fun s hs => ?_⟩
          rw [hnil] at hs
          exact absurd hs List.not_mem_nil
      · rw [if_neg halloc]
        have halloc : r.allocated = true := Bool.not_eq_false _ ▸ halloc
        refine ⟨fun _ _ => .inl halloc, fun _ hret => ?_⟩
        by_cases hstart : startThreads r.sections ≠ 0
        · rw [if_pos hstart] at hret
          exact absurd hret hstart
        · rw [if_neg hstart] at hret
          have hstarted := startThreads_eq_zero.mp (not_not.mp hstart)
          have hjoined := (joinThreads_eq_zero.mp hret).2
          refine ⟨(hsetup.mpr hzero).applied, fun s hs => ?_⟩
          exact ⟨halloc, (hstarted s hs).1, (hstarted s hs).2, hjoined s hs⟩

/-- A device that writes 4 frames in a period, and is not linked. -/
def plainDevice : StreamDevice where
  access := .rwInterleaved
  periodSize := 4
  startThreshold := 1
  linkCard := -1
  linkDevice := -1
  async := false
  duration := 1
  rate := 8000

/-- One period of the writes. -/
def playOnce (writes : List Write) : PlayRun where
  opening := ⟨0, true, 0, 0⟩
  rounds := [⟨0, 0, writes, none⟩]
  stateAllocated := true
  async := ⟨0, [], none, 0, [], 0⟩
  unlink := 0

end Blts.Alsa
