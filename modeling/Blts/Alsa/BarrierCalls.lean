import Mathlib.Algebra.Order.BigOperators.Group.Finset
import Blts.Alsa.Config
import Blts.Alsa.PcmBarrier

/-!
# The threads of a test at their barrier

`alsa_play_rec_pcm` counts its sections before it starts a thread for each of them, and
the barrier waits for so many threads.  A stream comes to the barrier twice if nothing
fails, a wait never does.

The last thread to come releases the others, so that the threads can only all go on if
they come to the barrier equally often.
-/

namespace Blts.Alsa

open Blts.Lib

/-! ## The calls of a thread -/

/-- How far `pcm_play_sine` or `pcm_record` gets: an error before the first barrier (the
device cannot be opened, set up or prepared), an error between the barriers, or none. -/
inductive StreamEnd where
  | beforeFirst
  | beforeSecond
  | complete
  deriving DecidableEq

/-- The `pcm_thread_barrier` calls of `pcm_thread_function`. -/
def barrierCalls (dir : StreamDir) (streamEnd : StreamEnd) : Nat :=
  match dir with
  | .none => 0
  | .input | .output =>
      match streamEnd with
      | .beforeFirst => 0
      | .beforeSecond => 1
      | .complete => 2

/-- The calls of the threads for the sections of a testset. -/
def threadCalls (streams : List (StreamDir × StreamEnd)) (c : Fin streams.length) : Nat :=
  barrierCalls (streams.get c).1 (streams.get c).2

/-! ## Threads that wait for nobody -/

section

variable {n : Nat} (calls : Fin n → Nat) (s : PcmBarrierState n)

def PcmFinished (c : Fin n) : Prop :=
  (s.threads c).place = .outside ∧ (s.threads c).entered = calls c

/-- Every thread that has not finished waits, and there is one. -/
def PcmDeadlocked : Prop :=
  (∃ c, ¬ PcmFinished calls s c) ∧ ∀ c, ¬ PcmFinished calls s c → (s.threads c).Waits

end

/-- Nobody is left waiting in any run without timeouts, and the count of a test that is
over is zero. -/
def ReleasesAll {n : Nat} (calls : Fin n → Nat) : Prop :=
  ∀ es s, (∀ e ∈ es, e.IsOrderly) →
    (pcmBarrierSystem n calls).exec (pcmBarrierStart n) es = some s →
      ¬ PcmDeadlocked calls s ∧ ((∀ c, PcmFinished calls s c) → s.readyCount = 0)

/-! ## Invariants -/

/-- No thread has come to the barrier more often than it is to. -/
structure PcmCallsInv {n : Nat} (calls : Fin n → Nat) (s : PcmBarrierState n) : Prop where
  rounds : ∃ R, PcmRoundInv R s
  entered : ∀ c, (s.threads c).entered ≤ calls c

section

variable {n : Nat} {calls : Fin n → Nat} {s s' : PcmBarrierState n} {e : PcmEvent n}

/-- What an enabled step without a timeout is. -/
theorem pcmBarrierStep_cases (he : e.IsOrderly)
    (hstep : (pcmBarrierSystem n calls).step s e = some s') :
    (∃ c, e = .enter c ∧ (s.threads c).place = .outside ∧ (s.threads c).entered < calls c ∧
        s' = s.enterBarrier c) ∨
      ∃ c, e = .leave c ∧ (s.threads c).place = .leaving ∧
        s' = s.setThread c { s.threads c with
          place := .outside, returned := (s.threads c).returned + 1 } := by
  cases e with
  | enter c =>
      replace hstep : (if _ then _ else _) = some s' := hstep
      obtain ⟨hc, hstep⟩ := Option.ite_none_right_eq_some.mp hstep
      cases hstep
      exact .inl ⟨c, rfl, hc.1, hc.2, rfl⟩
  | leave c =>
      replace hstep : (if _ then _ else _) = some s' := hstep
      obtain ⟨hc, hstep⟩ := Option.ite_none_right_eq_some.mp hstep
      cases hstep
      exact .inr ⟨c, rfl, hc, rfl⟩
  | spurious c => exact he.elim
  | timeout c => exact he.elim

/-- To be woken changes no counter. -/
theorem PcmThread.wake_counters (t : PcmThread) :
    t.wake.entered = t.entered ∧ t.wake.returned = t.returned := by
  unfold PcmThread.wake
  split
  · exact ⟨rfl, rfl⟩
  · exact ⟨rfl, rfl⟩

/-- To enter counts for the thread that does. -/
theorem enterBarrier_counters (s : PcmBarrierState n) (c d : Fin n) :
    ((s.enterBarrier c).threads d).entered =
        (s.threads d).entered + (if d = c then 1 else 0) ∧
      ((s.enterBarrier c).threads d).returned = (s.threads d).returned := by
  unfold PcmBarrierState.enterBarrier
  by_cases hlast : n = s.readyCount + 1
  · rw [if_pos hlast]
    by_cases hd : d = c
    · subst hd
      simp
    · simpa [hd] using (s.threads d).wake_counters
  · rw [if_neg hlast]
    by_cases hd : d = c
    · subst hd
      simp
    · simp [hd]

theorem leave_counters (s : PcmBarrierState n) (c d : Fin n) :
    ((s.setThread c { s.threads c with
        place := .outside, returned := (s.threads c).returned + 1 }).threads d).entered =
          (s.threads d).entered ∧
      ((s.setThread c { s.threads c with
        place := .outside, returned := (s.threads c).returned + 1 }).threads d).returned =
          (s.threads d).returned + (if d = c then 1 else 0) := by
  unfold PcmBarrierState.setThread
  by_cases hd : d = c
  · subst hd
    simp
  · simp [hd]

theorem pcmCallsInv_step (h : PcmCallsInv calls s) (he : e.IsOrderly)
    (hstep : (pcmBarrierSystem n calls).step s e = some s') : PcmCallsInv calls s' := by
  refine ⟨pcmRoundInv_step h.rounds he hstep, fun d => ?_⟩
  have hd := h.entered d
  obtain ⟨c, rfl, _, hlt, rfl⟩ | ⟨c, rfl, _, rfl⟩ := pcmBarrierStep_cases he hstep
  · rw [(enterBarrier_counters s c d).1]
    by_cases hdc : d = c
    · subst hdc
      rw [if_pos rfl]
      exact hlt
    · rw [if_neg hdc]
      exact hd
  · rw [(leave_counters s c d).1]
    exact hd

theorem pcmCallsInv_start (calls : Fin n → Nat) : PcmCallsInv calls (pcmBarrierStart n) :=
  ⟨⟨0, pcmRoundInv_start n⟩, fun c => Nat.zero_le (calls c)⟩

theorem pcmCallsInv_exec {es : List (PcmEvent n)} (horderly : ∀ e ∈ es, e.IsOrderly)
    (hrun : (pcmBarrierSystem n calls).exec (pcmBarrierStart n) es = some s) :
    PcmCallsInv calls s := by
  have hmeets := (pcmBarrierSystem n calls).meets_of_forall es
    (s := pcmBarrierStart n) horderly
  exact (pcmBarrierSystem n calls).exec_invariant (PcmCallsInv calls)
    (fun _ _ _ h he hstep => pcmCallsInv_step h he hstep) es (pcmCallsInv_start calls) hmeets hrun

/-! ## Threads that come equally often -/

/-- Where all threads come equally often, they do not all wait. -/
theorem PcmCallsInv.not_deadlocked (h : PcmCallsInv calls s) (hcalls : ∀ c d, calls c = calls d) :
    ¬ PcmDeadlocked calls s := by
  rintro ⟨⟨c, hc⟩, hwaits⟩
  obtain ⟨R, hR⟩ := h.rounds
  have hcwaits : (s.threads c).place = .waiting := hwaits c hc
  have hplaced := hR.placed c
  simp only [PcmThread.Placed, hcwaits] at hplaced
  have hentered := h.entered c
  -- the round of `c` is not complete, so nobody has finished
  have hall : ∀ d, (s.threads d).Waits := by
    intro d
    refine hwaits d fun hd => ?_
    have hplacedd := hR.placed d
    simp only [PcmThread.Placed, hd.1] at hplacedd
    have hsame := hcalls c d
    have hdone := hd.2
    omega
  have hcard : countOf PcmThread.Waits s.threads = n := by
    unfold countOf
    rw [Finset.filter_true_of_mem fun d _ => hall d, Finset.card_univ, Fintype.card_fin]
  have hroom := hR.room c
  rw [hR.count, hcard] at hroom
  exact Nat.lt_irrefl _ hroom

/-- When all threads have finished nobody is counted. -/
theorem PcmCallsInv.readyCount_finished (h : PcmCallsInv calls s)
    (hfinished : ∀ c, PcmFinished calls s c) : s.readyCount = 0 := by
  obtain ⟨R, hR⟩ := h.rounds
  rw [hR.count]
  refine countOf_eq_zero.mpr fun c hc => ?_
  have hplace := (hfinished c).1
  rw [hc] at hplace
  cases hplace

/-! ## Threads that do not -/

/-- The barrier calls that are still to be entered or returned from. -/
def remaining (calls : Fin n → Nat) (s : PcmBarrierState n) : Nat :=
  ∑ c, (2 * calls c - (s.threads c).entered - (s.threads c).returned)

theorem remaining_step (h : PcmCallsInv calls s) (he : e.IsOrderly)
    (hstep : (pcmBarrierSystem n calls).step s e = some s') :
    remaining calls s' < remaining calls s := by
  obtain ⟨R, hR⟩ := h.rounds
  have hbetween (d : Fin n) : (s.threads d).returned ≤ (s.threads d).entered :=
    Nat.le_trans (hR.placed d).between.1 (hR.placed d).between.2
  have hmem (c : Fin n) : c ∈ Finset.univ := Finset.mem_univ c
  obtain ⟨c, rfl, _, hlt, rfl⟩ | ⟨c, rfl, hplace, rfl⟩ := pcmBarrierStep_cases he hstep
  · refine Finset.sum_lt_sum (fun d _ => ?_) ⟨c, hmem c, ?_⟩
    · rw [(enterBarrier_counters s c d).1, (enterBarrier_counters s c d).2]
      omega
    · rw [(enterBarrier_counters s c c).1, (enterBarrier_counters s c c).2, if_pos rfl]
      have hc := hbetween c
      omega
  · refine Finset.sum_lt_sum (fun d _ => ?_) ⟨c, hmem c, ?_⟩
    · rw [(leave_counters s c d).1, (leave_counters s c d).2]
      omega
    · rw [(leave_counters s c c).1, (leave_counters s c c).2, if_pos rfl]
      have hplaced := hR.placed c
      simp only [PcmThread.Placed, hplace] at hplaced
      have hc := h.entered c
      omega

/-- Where no step is left, every thread has finished or waits. -/
theorem finished_or_waits (h : PcmCallsInv calls s)
    (hstuck : ∀ e : PcmEvent n, e.IsOrderly → (pcmBarrierSystem n calls).step s e = none)
    (c : Fin n) : PcmFinished calls s c ∨ (s.threads c).Waits := by
  cases hplace : (s.threads c).place with
  | outside =>
      have hnone := hstuck (.enter c) trivial
      replace hnone : (if _ then _ else _) = none := hnone
      by_cases hlt : (s.threads c).entered < calls c
      · rw [if_pos ⟨hplace, hlt⟩] at hnone
        cases hnone
      · exact .inl ⟨hplace, Nat.le_antisymm (h.entered c) (Nat.not_lt.mp hlt)⟩
  | waiting => exact .inr hplace
  | leaving =>
      have hnone := hstuck (.leave c) trivial
      replace hnone : (if _ then _ else _) = none := hnone
      rw [if_pos hplace] at hnone
      cases hnone

end

/-- **The barrier releases all threads** exactly if they come to it equally often. -/
theorem releasesAll_iff {n : Nat} (calls : Fin n → Nat) :
    ReleasesAll calls ↔ ∀ c d, calls c = calls d := by
  constructor
  · intro h c d
    -- a run goes on until no thread can take a step
    obtain ⟨es, s, hrun, horderly, hinv, hstuck⟩ :=
      (pcmBarrierSystem n calls).exists_exec_stuck (PcmCallsInv calls) (remaining calls)
        (fun s e s' hinv he hstep => ⟨pcmCallsInv_step hinv he hstep,
          remaining_step hinv he hstep⟩) (pcmCallsInv_start calls)
    have hfree := (h es s horderly hrun).1
    have hfinished : ∀ c, PcmFinished calls s c := by
      intro c
      by_contra hc
      exact hfree ⟨⟨c, hc⟩, fun d hd => (finished_or_waits hinv hstuck d).resolve_left hd⟩
    obtain ⟨R, hR⟩ := hinv.rounds
    have hrounds (c : Fin n) : calls c = R := by
      have hplaced := hR.placed c
      simp only [PcmThread.Placed, (hfinished c).1] at hplaced
      rw [← (hfinished c).2]
      exact hplaced.1
    rw [hrounds c, hrounds d]
  · intro hcalls es s horderly hrun
    have hinv := pcmCallsInv_exec horderly hrun
    exact ⟨hinv.not_deadlocked hcalls, hinv.readyCount_finished⟩

/-- **The threads of a testset**: in every run without timeouts no thread is left waiting,
and the count goes back to zero, exactly if the threads of all sections come to the
barrier equally often. -/
theorem testset_releasesAll_iff (streams : List (StreamDir × StreamEnd)) :
    ReleasesAll (threadCalls streams) ↔
      ∀ a ∈ streams, ∀ b ∈ streams, barrierCalls a.1 a.2 = barrierCalls b.1 b.2 := by
  rw [releasesAll_iff]
  constructor
  · intro h a ha b hb
    obtain ⟨c, rfl⟩ := List.get_of_mem ha
    obtain ⟨d, rfl⟩ := List.get_of_mem hb
    exact h c d
  · intro h c d
    exact h _ (List.get_mem streams c) _ (List.get_mem streams d)

/-- A playback with a wait beside it. -/
theorem waitSection_blocks : ¬ ∀ streams, ReleasesAll (threadCalls streams) := by
  intro h
  have hcalls := (releasesAll_iff _).mp (h [(.output, .complete), (.none, .complete)]) 0 1
  cases hcalls

end Blts.Alsa
