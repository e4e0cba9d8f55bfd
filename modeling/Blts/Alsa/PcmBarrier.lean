import Blts.Lib.Count
import Blts.Lib.Run

/-!
# The barrier of the stream threads

`pcm_thread_barrier` counts the threads that have come to it.  The last of them sets the
count back and wakes the others, which wait for that without looking at anything when
they wake up.

All of the function but the wait is one section under `pcm_thread_barrier_lock`, so
that to enter, to be woken and to leave are steps of their own.
-/

namespace Blts.Alsa

open Blts.Lib

inductive PcmPlace where
  | outside
  | waiting
  | leaving
  deriving DecidableEq

/-- A thread, with the number of `pcm_thread_barrier` calls it has entered and the number
it has returned from. -/
structure PcmThread where
  place : PcmPlace
  entered : Nat
  returned : Nat
  deriving DecidableEq

/-- `pcm_thread_barrier_ready_count`, and the `pcm_thread_count` threads. -/
structure PcmBarrierState (n : Nat) where
  readyCount : Nat
  threads : Fin n → PcmThread

/-- What happens at the barrier.  A wait may return by itself or after ten seconds. -/
inductive PcmEvent (n : Nat) where
  | enter (c : Fin n)
  | leave (c : Fin n)
  | spurious (c : Fin n)
  | timeout (c : Fin n)
  deriving DecidableEq

/-- A thread that `pthread_cond_broadcast` finds. -/
def PcmThread.wake (t : PcmThread) : PcmThread :=
  if t.place = .waiting then { t with place := .leaving } else t

namespace PcmBarrierState

variable {n : Nat}

def setThread (s : PcmBarrierState n) (c : Fin n) (t : PcmThread) : PcmBarrierState n :=
  { s with threads := Function.update s.threads c t }

/-- The section before the wait. -/
def enterBarrier (s : PcmBarrierState n) (c : Fin n) : PcmBarrierState n :=
  let t := s.threads c
  if n = s.readyCount + 1 then
    { readyCount := 0
      threads := Function.update (fun d => (s.threads d).wake) c
        { t with place := .leaving, entered := t.entered + 1 } }
  else
    { readyCount := s.readyCount + 1
      threads := Function.update s.threads c
        { t with place := .waiting, entered := t.entered + 1 } }

end PcmBarrierState

/-- The steps of threads that call the barrier `calls c` times. -/
def pcmBarrierStep {n : Nat} (calls : Fin n → Nat) (s : PcmBarrierState n) :
    PcmEvent n → Option (PcmBarrierState n)
  | .enter c =>
      if (s.threads c).place = .outside ∧ (s.threads c).entered < calls c then
        some (s.enterBarrier c)
      else none
  | .leave c =>
      if (s.threads c).place = .leaving then
        some (s.setThread c { s.threads c with
          place := .outside
          returned := (s.threads c).returned + 1 })
      else none
  | .spurious c | .timeout c =>
      if (s.threads c).place = .waiting then some (s.setThread c (s.threads c).wake) else none

def pcmBarrierSystem (n : Nat) (calls : Fin n → Nat) :
    System (PcmBarrierState n) (PcmEvent n) where
  step := pcmBarrierStep calls

/-- No thread has come to the barrier yet. -/
def pcmBarrierStart (n : Nat) : PcmBarrierState n where
  readyCount := 0
  threads _ := { place := .outside, entered := 0, returned := 0 }

/-- A wait only ends by a broadcast. -/
def PcmEvent.IsOrderly {n : Nat} : PcmEvent n → Prop
  | .enter _ | .leave _ => True
  | .spurious _ | .timeout _ => False

/-- No thread has returned from more calls than every thread has entered. -/
def PcmRoundsRespected {n : Nat} (s : PcmBarrierState n) : Prop :=
  ∀ c d, (s.threads c).returned ≤ (s.threads d).entered

/-! ## The round invariant -/

namespace PcmThread

def Waits (t : PcmThread) : Prop := t.place = .waiting

instance : DecidablePred Waits := fun t => inferInstanceAs (Decidable (t.place = .waiting))

/-- The counters of a thread in its place, `R` rounds being complete. -/
def Placed (R : Nat) (t : PcmThread) : Prop :=
  match t.place with
  | .outside => t.entered = R ∧ t.returned = R
  | .waiting => t.entered = R + 1 ∧ t.returned = R
  | .leaving => t.entered = R ∧ t.returned + 1 = R

theorem Placed.between {R : Nat} {t : PcmThread} (h : t.Placed R) :
    t.returned ≤ R ∧ R ≤ t.entered := by
  unfold Placed at h
  cases hplace : t.place with
  | outside =>
      rw [hplace] at h
      dsimp only at h
      omega
  | waiting =>
      rw [hplace] at h
      dsimp only at h
      omega
  | leaving =>
      rw [hplace] at h
      dsimp only at h
      omega

theorem wake_not_waits (t : PcmThread) : ¬ t.wake.Waits := by
  unfold wake Waits
  by_cases hplace : t.place = .waiting
  · rw [if_pos hplace]
    exact fun h => (by cases h)
  · rw [if_neg hplace]
    exact hplace

end PcmThread

/-- The count is that of the threads that wait, and `R` rounds are complete. -/
structure PcmRoundInv {n : Nat} (R : Nat) (s : PcmBarrierState n) : Prop where
  count : s.readyCount = countOf PcmThread.Waits s.threads
  room : ∀ _ : Fin n, s.readyCount < n
  placed : ∀ c, (s.threads c).Placed R

section

variable {n : Nat} {R : Nat} {s : PcmBarrierState n} {c : Fin n}

theorem pcmRoundInv_start (n : Nat) : PcmRoundInv 0 (pcmBarrierStart n) := by
  refine ⟨?_, fun c => c.pos, fun c => ⟨rfl, rfl⟩⟩
  symm
  exact countOf_eq_zero.mpr fun c h => (by cases h)

/-- A thread that is not the last one waits. -/
theorem PcmRoundInv.enter_waiting (h : PcmRoundInv R s)
    (hc : (s.threads c).place = .outside) (hlast : n ≠ s.readyCount + 1) :
    PcmRoundInv R (s.enterBarrier c) := by
  have hplaced := h.placed c
  simp only [PcmThread.Placed, hc] at hplaced
  have hroom := h.room c
  unfold PcmBarrierState.enterBarrier
  rw [if_neg hlast]
  constructor
  case count =>
    rw [countOf_update_add (by simp [PcmThread.Waits, hc]) (by simp [PcmThread.Waits]), ← h.count]
  case room =>
    intro _
    show s.readyCount + 1 < n
    omega
  case placed =>
    intro d
    by_cases hd : d = c
    · subst hd
      simp [PcmThread.Placed, hplaced]
    · simpa [hd] using h.placed d

/-- The last thread completes the round. -/
theorem PcmRoundInv.enter_last (h : PcmRoundInv R s)
    (hc : (s.threads c).place = .outside) (hlast : n = s.readyCount + 1) :
    PcmRoundInv (R + 1) (s.enterBarrier c) := by
  have hplaced := h.placed c
  simp only [PcmThread.Placed, hc] at hplaced
  -- everybody else waits
  have hothers : ∀ d, d ≠ c → (s.threads d).Waits := by
    refine forall_of_countOf (by simp [PcmThread.Waits, hc]) ?_
    rw [Fintype.card_fin, ← h.count]
    exact Nat.le_of_eq hlast
  unfold PcmBarrierState.enterBarrier
  rw [if_pos hlast]
  constructor
  case count =>
    symm
    refine countOf_eq_zero.mpr fun d hd => ?_
    by_cases hdc : d = c
    · subst hdc
      simp [PcmThread.Waits] at hd
    · simp only [Function.update_of_ne hdc] at hd
      exact (s.threads d).wake_not_waits hd
  case room => exact fun d => d.pos
  case placed =>
    intro d
    by_cases hdc : d = c
    · subst hdc
      simp [PcmThread.Placed, hplaced]
    · have hwaits : (s.threads d).place = .waiting := hothers d hdc
      have hd := h.placed d
      simp only [PcmThread.Placed, hwaits] at hd
      simp [hdc, PcmThread.wake, PcmThread.Placed, hwaits, hd]

theorem PcmRoundInv.leave (h : PcmRoundInv R s) (hc : (s.threads c).place = .leaving) :
    PcmRoundInv R (s.setThread c { s.threads c with
      place := .outside, returned := (s.threads c).returned + 1 }) := by
  have hplaced := h.placed c
  simp only [PcmThread.Placed, hc] at hplaced
  constructor
  case count =>
    show s.readyCount = countOf PcmThread.Waits (Function.update s.threads c _)
    rw [countOf_update_same (by simp [PcmThread.Waits, hc]), ← h.count]
  case room => exact h.room
  case placed =>
    intro d
    by_cases hd : d = c
    · subst hd
      simp [PcmBarrierState.setThread, PcmThread.Placed, hplaced]
    · simpa [PcmBarrierState.setThread, hd] using h.placed d

/-- Steps without a spurious return or a timeout keep the rounds apart. -/
theorem pcmRoundInv_step {calls : Fin n → Nat} {e : PcmEvent n} {s' : PcmBarrierState n}
    (h : ∃ R, PcmRoundInv R s) (he : e.IsOrderly)
    (hstep : (pcmBarrierSystem n calls).step s e = some s') : ∃ R, PcmRoundInv R s' := by
  obtain ⟨R, h⟩ := h
  cases e with
  | enter c =>
      replace hstep : (if _ then _ else _) = some s' := hstep
      obtain ⟨hc, hstep⟩ := Option.ite_none_right_eq_some.mp hstep
      cases hstep
      by_cases hlast : n = s.readyCount + 1
      · exact ⟨R + 1, h.enter_last hc.1 hlast⟩
      · exact ⟨R, h.enter_waiting hc.1 hlast⟩
  | leave c =>
      replace hstep : (if _ then _ else _) = some s' := hstep
      obtain ⟨hc, hstep⟩ := Option.ite_none_right_eq_some.mp hstep
      cases hstep
      exact ⟨R, h.leave hc⟩
  | spurious c => exact he.elim
  | timeout c => exact he.elim

theorem PcmRoundInv.respected (h : PcmRoundInv R s) : PcmRoundsRespected s :=
  fun c d => Nat.le_trans (h.placed c).between.1 (h.placed d).between.2

end

theorem pcmRoundInv_exec {n : Nat} {calls : Fin n → Nat} {es : List (PcmEvent n)}
    {s : PcmBarrierState n} (horderly : ∀ e ∈ es, e.IsOrderly)
    (hrun : (pcmBarrierSystem n calls).exec (pcmBarrierStart n) es = some s) :
    ∃ R, PcmRoundInv R s := by
  have hmeets := (pcmBarrierSystem n calls).meets_of_forall es
    (s := pcmBarrierStart n) horderly
  exact (pcmBarrierSystem n calls).exec_invariant (fun s => ∃ R, PcmRoundInv R s)
    (fun _ _ _ h he hstep => pcmRoundInv_step h he hstep) es ⟨0, pcmRoundInv_start n⟩ hmeets hrun

/-- **The rounds of the barrier**: for any number of threads with any number of calls, as
long as no wait returns before its broadcast, no thread returns from a call that some
thread has not entered. -/
theorem pcmBarrier_rounds {n : Nat} {calls : Fin n → Nat} {es : List (PcmEvent n)}
    {s : PcmBarrierState n} (horderly : ∀ e ∈ es, e.IsOrderly)
    (hrun : (pcmBarrierSystem n calls).exec (pcmBarrierStart n) es = some s) :
    PcmRoundsRespected s := by
  obtain ⟨R, h⟩ := pcmRoundInv_exec horderly hrun
  exact h.respected

/-- Two threads that both come to the barrier once. -/
theorem pcmBarrier_rounds_of_two : ∃ s,
    (pcmBarrierSystem 2 fun _ => 1).exec (pcmBarrierStart 2) [.enter 0, .enter 1, .leave 1] =
      some s ∧ PcmRoundsRespected s := by
  refine ⟨_, rfl, ?_⟩
  have horderly : ∀ e ∈ ([.enter 0, .enter 1, .leave 1] : List (PcmEvent 2)), e.IsOrderly := by
    simp [PcmEvent.IsOrderly]
  have hrun : (pcmBarrierSystem 2 fun _ => 1).exec (pcmBarrierStart 2)
      [.enter 0, .enter 1, .leave 1] = some _ := rfl
  exact pcmBarrier_rounds horderly hrun

/-- A single return before the broadcast separates the rounds: the thread leaves a call
that another one has not entered. -/
theorem spurious_breaks_rounds {n : Nat} {calls : Fin n → Nat} {es : List (PcmEvent n)}
    {s t u : PcmBarrierState n} {c : Fin n} (horderly : ∀ e ∈ es, e.IsOrderly)
    (hrun : (pcmBarrierSystem n calls).exec (pcmBarrierStart n) es = some s)
    (hspurious : (pcmBarrierSystem n calls).step s (.spurious c) = some t)
    (hleave : (pcmBarrierSystem n calls).step t (.leave c) = some u) :
    ¬ PcmRoundsRespected u := by
  obtain ⟨R, h⟩ := pcmRoundInv_exec horderly hrun
  replace hspurious : (if _ then _ else _) = some t := hspurious
  obtain ⟨hc, hspurious⟩ := Option.ite_none_right_eq_some.mp hspurious
  cases hspurious
  have hplaced := h.placed c
  simp only [PcmThread.Placed, hc] at hplaced
  -- not everybody waits, and who does not has not come to this round
  obtain ⟨d, hd⟩ : ∃ d, ¬ (s.threads d).Waits := by
    by_contra hall
    have hcard : countOf PcmThread.Waits s.threads = n := by
      unfold countOf
      rw [Finset.filter_true_of_mem fun d _ => Classical.not_not.mp (not_exists.mp hall d),
        Finset.card_univ, Fintype.card_fin]
    have hroom := h.room c
    rw [h.count, hcard] at hroom
    exact Nat.lt_irrefl _ hroom
  have hdR : (s.threads d).entered = R := by
    have hplacedd := h.placed d
    unfold PcmThread.Placed at hplacedd
    cases hplace : (s.threads d).place with
    | outside =>
        rw [hplace] at hplacedd
        exact hplacedd.1
    | waiting => exact absurd hplace hd
    | leaving =>
        rw [hplace] at hplacedd
        exact hplacedd.1
  have hdc : d ≠ c := fun heq => hd (heq ▸ hc)
  replace hleave : (if _ then _ else _) = some u := hleave
  have hleaving : ((s.setThread c (s.threads c).wake).threads c).place = .leaving := by
    simp [PcmBarrierState.setThread, PcmThread.wake, hc]
  rw [if_pos hleaving] at hleave
  cases hleave
  intro hrespected
  have hle := hrespected c d
  simp only [PcmBarrierState.setThread, Function.update_self, Function.update_of_ne hdc,
    PcmThread.wake, if_pos hc, hplaced.2, hdR] at hle
  omega

/-- One of two threads that comes and leaves by itself. -/
theorem spurious_breaks_two : ∃ u, ((pcmBarrierSystem 2 fun _ => 1).exec (pcmBarrierStart 2)
    [.enter 0, .spurious 0, .leave 0]) = some u ∧ ¬ PcmRoundsRespected u :=
  have horderly : ∀ e ∈ ([.enter 0] : List (PcmEvent 2)), e.IsOrderly := by
    simp [PcmEvent.IsOrderly]
  ⟨_, rfl, @spurious_breaks_rounds 2 (fun _ => 1) _ _ _ _ 0 horderly rfl rfl rfl⟩

/-- Two threads: the first one comes to the barrier, and its wait returns by itself. -/
theorem spuriousReturn_overtakes :
    ¬ ∀ (n : Nat) (calls : Fin n → Nat) (es : List (PcmEvent n)) (s : PcmBarrierState n),
      (∀ e ∈ es, ∀ c, e ≠ .timeout c) →
        (pcmBarrierSystem n calls).exec (pcmBarrierStart n) es = some s →
          PcmRoundsRespected s := by
  intro h
  have hle := h 2 (fun _ => 1) [.enter 0, .spurious 0, .leave 0] _ (by simp) rfl 0 1
  exact absurd hle (by decide)

end Blts.Alsa
