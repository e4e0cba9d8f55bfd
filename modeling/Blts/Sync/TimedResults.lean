import Blts.Sync.TimedRounds

/-!
# What the timed calls return

`blts_sync_tagged_to` and `blts_sync_anon_to` wrap `barrier_sync_to`, which returns 0
when the round of the barrier is complete and a negative number when one of its waits
fails.  Only the second one hands the result on.

A call is a run from a state in which the process is in no call to one in which it has
returned; the steps of the others are between its own.
-/

namespace Blts.Sync

open Blts.Lib

variable {n : Nat}

/-! ## Calls -/

/-- The next step completes the round for the process: the departure tokens are posted,
or the process takes one. -/
def ProcessPlace.completes : ProcessPlace → Bool
  | .mutexHeld (.release _) | .departing _ => true
  | _ => false

/-- The place is a wait of `barrier_sync_to`, for the mutex of the barrier or one of its
signals. -/
def ProcessPlace.barrierWait : ProcessPlace → Bool
  | .mutexLock (.enter _) | .mutexLock (.release _) | .collecting _ _ | .departing _ => true
  | _ => false

/-- The step completes the round for process `c`. -/
def CompletesRound (c : Fin n) (s : SyncProcesses n) (e : Fin n × Action) : Prop :=
  match e.2 with
  | .proceed => e.1 = c ∧ (s.processes c).place.completes = true
  | _ => False

/-- The step is no failing wait of process `c` at a barrier. -/
def WaitSucceeds (c : Fin n) (s : SyncProcesses n) (e : Fin n × Action) : Prop :=
  match e.2 with
  | .fail _ => e.1 = c → (s.processes c).place.barrierWait = false
  | _ => True

instance (c : Fin n) (s : SyncProcesses n) (e : Fin n × Action) :
    Decidable (CompletesRound c s e) :=
  match e with
  | (d, .proceed) => inferInstanceAs (Decidable (d = c ∧ (s.processes c).place.completes = true))
  | (_, .call _) => isFalse id
  | (_, .fail _) => isFalse id

instance (c : Fin n) (s : SyncProcesses n) (e : Fin n × Action) :
    Decidable (WaitSucceeds c s e) :=
  match e with
  | (d, .fail _) =>
      inferInstanceAs (Decidable (d = c → (s.processes c).place.barrierWait = false))
  | (_, .proceed) => isTrue trivial
  | (_, .call _) => isTrue trivial

/-- The round of the barrier has been completed for process `c`. -/
def RoundCompleted (c : Fin n) (s : SyncProcesses n) (es : List (Fin n × Action)) : Prop :=
  ¬ (interleavings n).Meets (fun s e => ¬ CompletesRound c s e) s es

instance (c : Fin n) (s : SyncProcesses n) (es : List (Fin n × Action)) :
    Decidable (RoundCompleted c s es) :=
  inferInstanceAs (Decidable (¬ (interleavings n).Meets _ s es))

/-- The process begins a call. -/
def Action.begins : Action → Bool
  | .call _ => true
  | _ => false

/-- A timed call of process `c`, from its start to its return. -/
structure TimedCall (c : Fin n) (call : SyncCall) (s t : SyncProcesses n)
    (es : List (Fin n × Action)) : Prop where
  outside : (s.processes c).place = .outside
  run : (interleavings n).exec s ((c, .call (.sync call true)) :: es) = some t
  single : ∀ e ∈ es, e.1 = c → e.2.begins = false
  returned : (t.processes c).place = .outside

/-- The result is 0 if and only if the round has been completed, and negative otherwise. -/
structure ReportsRound (c : Fin n) (s t : SyncProcesses n) (es : List (Fin n × Action)) :
    Prop where
  zero : (t.processes c).result = 0 ↔ RoundCompleted c s es
  negative : ¬ RoundCompleted c s es → (t.processes c).result < 0

/-! ## The phases of a call -/

/-- The result of a call in which the round was completed or a wait failed; neither if
there is no barrier. -/
def Returns (call : SyncCall) (done failed : Prop) (ret : Int) : Prop :=
  done ∧ ¬ failed ∧ ret = 0 ∨
    ¬ done ∧ failed ∧ (call = .anon ∧ ret < 0 ∨ call ≠ .anon ∧ ret = 0) ∨
    ¬ done ∧ ¬ failed ∧ call ≠ .anon ∧ ret < 0

/-- What `barrier_sync_to` is to return. -/
def BarrierReturns (done failed : Prop) (ret : Int) : Prop :=
  done ∧ ¬ failed ∧ ret = 0 ∨ ¬ done ∧ failed ∧ ret < 0

/-- The call of a barrier is that of the client. -/
def BarrierCall.Of (u : BarrierCall) (call : SyncCall) : Prop :=
  u.call = call ∧ u.timed = true

/-- Where a process is in its call, and what has happened in it. -/
def Phase (call : SyncCall) (done failed : Prop) (p : Process) : Prop :=
  match p.place with
  | .syncLock c | .locked c => c = .sync call true ∧ ¬ done ∧ ¬ failed
  | .mutexLock (.enter u) | .mutexHeld (.enter u) | .mutexUnlock (.enter u _)
  | .mutexLock (.release u) | .mutexHeld (.release u)
  | .syncRelease u _ | .collecting u _ | .arriving u | .departing u =>
      u.Of call ∧ ¬ done ∧ ¬ failed
  | .mutexUnlock (.release u) => u.Of call ∧ done ∧ ¬ failed
  | .relock u ret | .leaving u ret => u.Of call ∧ BarrierReturns done failed ret
  | .syncUnlock ret => Returns call done failed ret
  | .outside => Returns call done failed p.result
  | .initialising _ _ | .mutexLock (.ref _) | .mutexHeld (.ref _) | .mutexUnlock (.ref _) =>
      False

theorem BarrierCall.Of.result {u : BarrierCall} {call : SyncCall} (hu : u.Of call)
    {done failed : Prop} {ret : Int} (h : BarrierReturns done failed ret) :
    Returns call done failed (u.result ret) := by
  obtain ⟨hcall, htimed⟩ := hu
  subst hcall
  unfold BarrierCall.result
  cases hc : u.call with
  | anon =>
      dsimp only
      rw [if_pos htimed]
      cases h with
      | inl hdone => exact .inl hdone
      | inr hfailed => exact .inr (.inl ⟨hfailed.1, hfailed.2.1, .inl ⟨rfl, hfailed.2.2⟩⟩)
  | tagged tag =>
      cases h with
      | inl hdone => exact .inl ⟨hdone.1, hdone.2.1, rfl⟩
      | inr hfailed =>
          exact .inr (.inl ⟨hfailed.1, hfailed.2.1, .inr ⟨SyncCall.noConfusion, rfl⟩⟩)

section

variable {m m' : SharedData} {p p' : Process} {call : SyncCall} {done failed : Prop}

/-- The sections under a barrier mutex. -/
theorem underMutex_phase {use : MutexUse} {exit : MutexExit}
    (h : Phase call done failed (p.moveTo (.mutexHeld use)))
    (hstep : underMutex m use = some (m', exit)) :
    Phase call (done ∨ (ProcessPlace.mutexHeld use).completes = true) failed
      (p.moveTo (.mutexUnlock exit)) := by
  cases use with
  | ref b => exact h.elim
  | enter u =>
      have hsame : (done ∨ (ProcessPlace.mutexHeld (.enter u)).completes = true) = done := by
        simp [ProcessPlace.completes]
      rw [hsame]
      simp only [underMutex] at hstep
      by_cases hactive : (m.barriers u.barrier).active
      · rw [if_pos hactive] at hstep
        cases hstep
        exact h
      · rw [if_neg hactive] at hstep
        cases hstep
        exact h
  | release u =>
      obtain ⟨hu, _, hfailed⟩ := h
      simp only [underMutex] at hstep
      by_cases hzero : (m.barriers u.barrier).refcount = 0
      · rw [if_pos hzero] at hstep
        cases hstep
      · rw [if_neg hzero] at hstep
        cases hstep
        exact ⟨hu, .inr rfl, hfailed⟩

/-- The code that looks for the barrier of the call. -/
theorem dispatch_phase (hdone : ¬ done) (hfailed : ¬ failed) :
    Phase call done failed (p.moveTo (dispatch m (.sync call true)).2) := by
  simp only [dispatch]
  cases hbarrier : call.barrier m.barriers with
  | some b => exact ⟨⟨rfl, rfl⟩, hdone, hfailed⟩
  | none =>
      have hcall : call ≠ .anon := by
        rintro rfl
        cases hbarrier
      exact .inr (.inr ⟨hdone, hfailed, hcall, by decide⟩)

/-- A step of the process without a failing wait. -/
theorem proceed_phase (h : Phase call done failed p) (hstep : proceed m p = some (m', p')) :
    Phase call (done ∨ p.place.completes = true) failed p' := by
  have hsame : p.place.completes = false → (done ∨ p.place.completes = true) = done := by
    intro hfalse
    simp [hfalse]
  cases hplace : p.place with
  | outside =>
      simp only [proceed, hplace] at hstep
      cases hstep
  | syncLock c =>
      rw [← hplace, hsame (by rw [hplace]; rfl)]
      simp only [Phase, hplace] at h
      simp only [proceed, hplace] at hstep
      obtain ⟨_, hstep⟩ := Option.ite_none_right_eq_some.mp hstep
      cases hstep
      exact h
  | locked c =>
      rw [← hplace, hsame (by rw [hplace]; rfl)]
      simp only [Phase, hplace] at h
      simp only [proceed, hplace] at hstep
      cases hstep
      obtain ⟨rfl, hdone, hfailed⟩ := h
      exact dispatch_phase hdone hfailed
  | initialising b tag =>
      simp only [Phase, hplace] at h
  | mutexLock use =>
      rw [← hplace, hsame (by rw [hplace]; rfl)]
      simp only [Phase, hplace] at h
      simp only [proceed, hplace] at hstep
      obtain ⟨_, hstep⟩ := Option.ite_none_right_eq_some.mp hstep
      cases hstep
      cases use with
      | ref b => exact h.elim
      | enter u => exact h
      | release u => exact h
  | mutexHeld use =>
      simp only [proceed, hplace] at hstep
      obtain ⟨⟨m₁, exit⟩, hunder, hp'⟩ := Option.map_eq_some_iff.mp hstep
      cases hp'
      simp only [Phase, hplace] at h
      exact underMutex_phase h hunder
  | mutexUnlock exit =>
      rw [← hplace, hsame (by rw [hplace]; rfl)]
      simp only [Phase, hplace] at h
      simp only [proceed, hplace] at hstep
      cases hstep
      cases exit with
      | ref b => exact h.elim
      | enter u first => exact h
      | release u => exact ⟨h.1, .inl ⟨h.2.1, h.2.2, rfl⟩⟩
  | syncRelease u first =>
      rw [← hplace, hsame (by rw [hplace]; rfl)]
      simp only [Phase, hplace] at h
      simp only [proceed, hplace] at hstep
      cases hstep
      cases first with
      | none => exact h
      | some i => exact h
  | collecting u i =>
      rw [← hplace, hsame (by rw [hplace]; rfl)]
      simp only [Phase, hplace] at h
      simp only [proceed, hplace] at hstep
      by_cases hi : i = 0
      · rw [if_pos hi] at hstep
        cases hstep
        exact h
      · rw [if_neg hi] at hstep
        obtain ⟨_, hstep⟩ := Option.ite_none_right_eq_some.mp hstep
        cases hstep
        exact h
  | arriving u =>
      rw [← hplace, hsame (by rw [hplace]; rfl)]
      simp only [Phase, hplace] at h
      simp only [proceed, hplace] at hstep
      cases hstep
      exact h
  | departing u =>
      simp only [Phase, hplace] at h
      simp only [proceed, hplace] at hstep
      obtain ⟨_, hstep⟩ := Option.ite_none_right_eq_some.mp hstep
      cases hstep
      exact ⟨h.1, .inl ⟨.inr rfl, h.2.2, rfl⟩⟩
  | relock u ret =>
      rw [← hplace, hsame (by rw [hplace]; rfl)]
      simp only [Phase, hplace] at h
      simp only [proceed, hplace] at hstep
      obtain ⟨_, hstep⟩ := Option.ite_none_right_eq_some.mp hstep
      cases hstep
      exact h
  | leaving u ret =>
      rw [← hplace, hsame (by rw [hplace]; rfl)]
      simp only [Phase, hplace] at h
      simp only [proceed, hplace] at hstep
      cases hstep
      exact h.1.result h.2
  | syncUnlock ret =>
      rw [← hplace, hsame (by rw [hplace]; rfl)]
      simp only [Phase, hplace] at h
      simp only [proceed, hplace] at hstep
      cases hstep
      exact h

/-- A wait at the barrier fails. -/
theorem BarrierCall.Of.fail {u : BarrierCall} (hu : u.Of call) (hdone : ¬ done)
    (hfailed : failed) {err : WaitError} {next : ProcessPlace}
    (h : (u.fail err next).map p.moveTo = some p') : Phase call done failed p' := by
  obtain ⟨place, hfail, rfl⟩ := Option.map_eq_some_iff.mp h
  have herr : -err.errno < 0 := by cases err <;> decide
  rw [u.fail_eq_some hfail, if_pos hu.2]
  exact ⟨hu, .inr ⟨hdone, hfailed, herr⟩⟩

/-- A failing wait of the process. -/
theorem failWait_phase {err : WaitError} (h : Phase call done failed p)
    (hstep : failWait err p = some p') :
    Phase call done (failed ∨ p.place.barrierWait = true) p' := by
  cases hplace : p.place with
  | syncLock c =>
      have hsame : (failed ∨ (ProcessPlace.syncLock c).barrierWait = true) = failed := by
        simp [ProcessPlace.barrierWait]
      simp only [Phase, hplace] at h
      simp only [failWait, hplace] at hstep
      rw [hsame]
      obtain ⟨_, hstep⟩ := Option.ite_none_right_eq_some.mp hstep
      cases hstep
      exact h
  | relock u ret =>
      have hsame : (failed ∨ (ProcessPlace.relock u ret).barrierWait = true) = failed := by
        simp [ProcessPlace.barrierWait]
      simp only [Phase, hplace] at h
      simp only [failWait, hplace] at hstep
      rw [hsame]
      obtain ⟨_, hstep⟩ := Option.ite_none_right_eq_some.mp hstep
      cases hstep
      exact h
  | mutexLock use =>
      simp only [Phase, hplace] at h
      cases use with
      | ref b => exact h.elim
      | enter u =>
          simp only [failWait, hplace] at hstep
          exact h.1.fail h.2.1 (.inr rfl) hstep
      | release u =>
          simp only [failWait, hplace] at hstep
          exact h.1.fail h.2.1 (.inr rfl) hstep
  | collecting u i =>
      simp only [Phase, hplace] at h
      simp only [failWait, hplace] at hstep
      by_cases hi : i = 0
      · rw [if_pos hi] at hstep
        cases hstep
      · rw [if_neg hi] at hstep
        exact h.1.fail h.2.1 (.inr rfl) hstep
  | departing u =>
      simp only [Phase, hplace] at h
      simp only [failWait, hplace] at hstep
      exact h.1.fail h.2.1 (.inr rfl) hstep
  | outside => simp only [failWait, hplace] at hstep; cases hstep
  | locked c => simp only [failWait, hplace] at hstep; cases hstep
  | initialising b tag => simp only [failWait, hplace] at hstep; cases hstep
  | mutexHeld use => simp only [failWait, hplace] at hstep; cases hstep
  | mutexUnlock exit => simp only [failWait, hplace] at hstep; cases hstep
  | syncRelease u first => simp only [failWait, hplace] at hstep; cases hstep
  | arriving u => simp only [failWait, hplace] at hstep; cases hstep
  | leaving u ret => simp only [failWait, hplace] at hstep; cases hstep
  | syncUnlock ret => simp only [failWait, hplace] at hstep; cases hstep

end

/-! ## Runs -/

variable {c : Fin n} {s s' t : SyncProcesses n} {call : SyncCall}

/-- **A step of the system** that is no call of the process. -/
theorem step_phase {done failed : Prop} {e : Fin n × Action}
    (h : Phase call done failed (s.processes c))
    (hstep : (interleavings n).step s e = some s') (hcall : e.1 = c → e.2.begins = false) :
    Phase call (done ∨ CompletesRound c s e) (failed ∨ ¬ WaitSucceeds c s e)
      (s'.processes c) := by
  obtain ⟨d, a⟩ := e
  obtain ⟨m, p, hact, rfl⟩ := interleavings_step hstep
  by_cases hd : d = c
  · subst hd
    dsimp only
    rw [Function.update_self]
    cases a with
    | call call' => cases hcall rfl
    | proceed =>
        have hdone : (done ∨ CompletesRound d s (d, .proceed)) =
            (done ∨ (s.processes d).place.completes = true) := by
          simp [CompletesRound]
        have hfailed : (failed ∨ ¬ WaitSucceeds d s (d, .proceed)) = failed := by
          simp [WaitSucceeds]
        rw [hdone, hfailed]
        exact proceed_phase h hact
    | fail err =>
        have hdone : (done ∨ CompletesRound d s (d, .fail err)) = done := by
          simp [CompletesRound]
        have hfailed : (failed ∨ ¬ WaitSucceeds d s (d, .fail err)) =
            (failed ∨ (s.processes d).place.barrierWait = true) := by
          simp [WaitSucceeds]
        obtain ⟨q, hfail, hq⟩ := Option.map_eq_some_iff.mp hact
        cases hq
        rw [hdone, hfailed]
        exact failWait_phase h hfail
  · have hdone : (done ∨ CompletesRound c s (d, a)) = done := by
      cases a <;> simp [CompletesRound, hd]
    have hfailed : (failed ∨ ¬ WaitSucceeds c s (d, a)) = failed := by
      cases a <;> simp [WaitSucceeds, hd]
    rw [hdone, hfailed]
    dsimp only
    rw [Function.update_of_ne (Ne.symm hd)]
    exact h

/-- A run that does not meet a condition does not meet it at its first step or later. -/
theorem not_meets_cons {K : SyncProcesses n → Fin n × Action → Prop} {e : Fin n × Action}
    {es : List (Fin n × Action)} (hstep : (interleavings n).step s e = some s') :
    ¬ (interleavings n).Meets K s (e :: es) ↔
      ¬ K s e ∨ ¬ (interleavings n).Meets K s' es := by
  rw [← not_and_or]
  refine not_congr ⟨fun h => h s' hstep, fun h s'' hs'' => ?_⟩
  rw [hstep] at hs''
  cases hs''
  exact h

/-- **A run** within one call of the process. -/
theorem exec_phase (es : List (Fin n × Action)) : ∀ {s : SyncProcesses n} {done failed : Prop},
    Phase call done failed (s.processes c) →
      (∀ e ∈ es, e.1 = c → e.2.begins = false) →
        (interleavings n).exec s es = some t →
          Phase call (done ∨ RoundCompleted c s es)
            (failed ∨ ¬ (interleavings n).Meets (WaitSucceeds c) s es) (t.processes c) := by
  induction es with
  | nil =>
      intro s done failed h _ hrun
      cases hrun
      simpa [RoundCompleted, System.Meets] using h
  | cons e es ih =>
      intro s done failed h hcalls hrun
      obtain ⟨s', hs', hrest⟩ := (interleavings n).exec_cons_eq_some hrun
      obtain ⟨he, hes⟩ := List.forall_mem_cons.mp hcalls
      have hdone : RoundCompleted c s (e :: es) =
          (CompletesRound c s e ∨ RoundCompleted c s' es) := by
        unfold RoundCompleted
        rw [not_meets_cons hs', not_not]
      have hphase := ih (step_phase h hs' he) hes hrest
      rwa [or_assoc, or_assoc, ← hdone, ← not_meets_cons hs'] at hphase

/--
**What the timed calls return.**  In every run of any number of clients, a timed call
returns 0 exactly where the round of its barrier has been completed and a negative number
otherwise, if and only if it is one of the anonymous barrier or none of its waits at the
barrier fails.
-/
theorem timedCall_reports_iff {es : List (Fin n × Action)} (h : TimedCall c call s t es) :
    ReportsRound c s t ((c, .call (.sync call true)) :: es) ↔
      call = .anon ∨ (interleavings n).Meets (WaitSucceeds c) s
        ((c, .call (.sync call true)) :: es) := by
  obtain ⟨hout, hrun, hsingle, hreturned⟩ := h
  obtain ⟨s', hs', hrest⟩ := (interleavings n).exec_cons_eq_some hrun
  have hbegins : Phase call False False (s'.processes c) := by
    obtain ⟨m, p, hact, rfl⟩ := interleavings_step hs'
    simp only [act, hout] at hact
    cases hact
    dsimp only
    rw [Function.update_self]
    exact ⟨rfl, not_false, not_false⟩
  have hends := exec_phase es hbegins hsingle hrest
  have hcompleted : RoundCompleted c s ((c, .call (.sync call true)) :: es) ↔
      RoundCompleted c s' es := by
    unfold RoundCompleted
    rw [not_meets_cons hs', not_not]
    simp [CompletesRound]
  have hwaits : (interleavings n).Meets (WaitSucceeds c) s
      ((c, .call (.sync call true)) :: es) ↔ (interleavings n).Meets (WaitSucceeds c) s' es := by
    rw [← not_iff_not, not_meets_cons hs']
    simp [WaitSucceeds]
  rw [hwaits]
  simp only [Phase, hreturned, false_or] at hends
  constructor
  · rintro ⟨hzero, hnegative⟩
    rw [hcompleted] at hzero hnegative
    obtain ⟨hdone, hgood, hret⟩ | ⟨hdone, hfailed, hret⟩ | ⟨hdone, hgood, hret⟩ := hends
    · exact .inr (not_not.mp hgood)
    · obtain ⟨hanon, _⟩ | ⟨_, hret⟩ := hret
      · exact .inl hanon
      · exact absurd (hzero.mp hret) hdone
    · exact .inr (not_not.mp hgood)
  · intro hcond
    obtain ⟨hdone, hgood, hret⟩ | ⟨hdone, hfailed, hret⟩ | ⟨hdone, hgood, _, hret⟩ := hends
    · exact ⟨iff_of_true hret (hcompleted.mpr hdone), fun hnot =>
        absurd (hcompleted.mpr hdone) hnot⟩
    · obtain ⟨_, hret⟩ | ⟨htagged, _⟩ := hret
      · exact ⟨iff_of_false (by omega) fun hdone' => hdone (hcompleted.mp hdone'),
          fun _ => hret⟩
      · exact absurd (hcond.resolve_left htagged) hfailed
    · exact ⟨iff_of_false (by omega) fun hdone' => hdone (hcompleted.mp hdone'), fun _ => hret⟩

/-! ## A tagged call -/

/-- A barrier with the tag `a` and so many clients. -/
def taggedClients (n refcount : Nat) : SyncProcesses n where
  shared := {
    syncMutex := 1
    mutex := fun _ => 1
    barriers := Function.update (fun _ => .zero) 1
      { TaggedBarrierEntry.zero with refcount := refcount, tag := ['a'] } }
  processes := fun _ => { place := .outside, entered := 0, held := 0, result := 0 }

/-- The only client of the barrier completes its round. -/
theorem timedCall_reports_single : ∃ t,
    ReportsRound 0 (taggedClients 1 1) t
        ((0, .call (.sync (.tagged ['a']) true)) :: List.replicate 13 (0, .proceed)) ↔
      SyncCall.tagged ['a'] = .anon ∨ (interleavings 1).Meets (WaitSucceeds 0)
        (taggedClients 1 1)
        ((0, .call (.sync (.tagged ['a']) true)) :: List.replicate 13 (0, .proceed)) := by
  have hrun : ((interleavings 1).exec (taggedClients 1 1)
      ((0, .call (.sync (.tagged ['a']) true)) :: List.replicate 13 (0, .proceed))).any
        (fun t => (t.processes 0).place.isOutside) = true := by
    decide +kernel
  obtain ⟨t, ht, hout⟩ := (Option.any_eq_true _ _).mp hrun
  exact ⟨t, timedCall_reports_iff ⟨rfl, ht, by decide, ProcessPlace.isOutside_iff.mp hout⟩⟩

/-- The first of two clients sees nobody arrive, and the call returns 0. -/
theorem taggedTimeout_zero : ∃ t,
    TimedCall 0 (.tagged ['a']) (taggedClients 2 2) t
        (List.replicate 6 (0, .proceed) ++ (0, .fail .etimedout) ::
          List.replicate 3 (0, .proceed)) ∧
      (t.processes 0).result = 0 ∧
      ¬ ReportsRound 0 (taggedClients 2 2) t ((0, .call (.sync (.tagged ['a']) true)) ::
        (List.replicate 6 (0, .proceed) ++ (0, .fail .etimedout) ::
          List.replicate 3 (0, .proceed))) := by
  have hrun : ((interleavings 2).exec (taggedClients 2 2)
      ((0, .call (.sync (.tagged ['a']) true)) :: (List.replicate 6 (0, .proceed) ++
        (0, .fail .etimedout) :: List.replicate 3 (0, .proceed)))).any
        (fun t => (t.processes 0).place.isOutside && (t.processes 0).result == 0) = true := by
    decide +kernel
  obtain ⟨t, ht, hends⟩ := (Option.any_eq_true _ _).mp hrun
  obtain ⟨hout, hzero⟩ := (Bool.and_eq_true _ _).mp hends
  have hopen : ¬ RoundCompleted 0 (taggedClients 2 2) ((0, .call (.sync (.tagged ['a']) true)) ::
      (List.replicate 6 (0, .proceed) ++ (0, .fail .etimedout) ::
        List.replicate 3 (0, .proceed))) := by
    decide +kernel
  exact ⟨t, ⟨rfl, ht, by decide, ProcessPlace.isOutside_iff.mp hout⟩, beq_iff_eq.mp hzero,
    fun h => hopen (h.zero.mp (beq_iff_eq.mp hzero))⟩

end Blts.Sync
