import Blts.Sync.LockSteps

/-!
# How often a process holds `sync_mutex`

`barrier_sync_to` is called with `sync_mutex` held, releases it on two of its
paths and takes it again at its label `out`.  If its first wait for the barrier
mutex fails, it goes to `out` with `sync_mutex` still held, although the comment
there says that no locks are held, and waits for a semaphore that only the
process itself could post.
-/

namespace Blts.Sync

open Blts.Lib

variable {n : Nat}

/-- The process holds `sync_mutex` once in the sections that start with a lock,
also when `barrier_sync_to` returns, and not at all where it is about to take it
or waits for the others. -/
def Process.Balanced (p : Process) : Prop :=
  p.held = p.place.locks

def SyncProcesses.Balanced (s : SyncProcesses n) : Prop :=
  ∀ c, (s.processes c).Balanced

/-- The step leaves every process balanced. -/
def BalancedAfter (s : SyncProcesses n) (e : Fin n × Action) : Prop :=
  ∀ s', (interleavings n).step s e = some s' → s'.Balanced

/-- Neither the first wait of `barrier_sync_to` fails, nor a wait for
`sync_mutex`. -/
def CleanLocks (s : SyncProcesses n) : Fin n × Action → Prop
  | (c, .fail _) =>
      (s.processes c).place.syncWait = false ∧
        (s.processes c).place.firstTimedWait = false
  | _ => True

theorem start_balanced (clientCount : Nat) :
    (SyncProcesses.start n clientCount).Balanced :=
  fun _ => rfl

theorem Process.Balanced.proceed {m m' : SharedData} {p p' : Process} (h : p.Balanced)
    (hrun : Sync.proceed m p = some (m', p')) : p'.Balanced := by
  have hp : p.held = p.place.locks := h
  show p'.held = p'.place.locks
  cases proceed_sync hrun with
  | keep _ _ hheld hplace => rw [hheld, hplace, hp]
  | take _ _ hheld hbefore hafter =>
      rw [hheld, hafter, hp, hbefore]
      rfl
  | post _ _ hheld hbefore hafter =>
      rw [hheld, hafter, hp, hbefore]
      rfl

theorem Process.Balanced.fail_iff {err : WaitError} {p p' : Process} (h : p.Balanced)
    (hfail : failWait err p = some p') :
    p'.Balanced ↔ p.place.syncWait = false ∧ p.place.firstTimedWait = false := by
  have hp : p.held = p.place.locks := h
  obtain ⟨heffect, hheld⟩ := failWait_sync hfail
  cases heffect with
  | keep hsync hfirst _ hplace =>
      exact iff_of_true (by rw [Process.Balanced, hheld, hplace, hp]) ⟨hsync, hfirst⟩
  | pass hsync _ hbefore hafter =>
      apply iff_of_false
      · rw [Process.Balanced, hheld, hp, hbefore, hafter]
        decide
      · rw [hsync]
        exact fun hclean => nomatch hclean.1
  | skip hfirst _ hbefore hafter =>
      apply iff_of_false
      · rw [Process.Balanced, hheld, hp, hbefore, hafter]
        decide
      · rw [hfirst]
        exact fun hclean => nomatch hclean.2

/-- **The step lemma**: a step keeps the balance if and only if it is clean. -/
theorem balancedAfter_iff {s s' : SyncProcesses n} {e : Fin n × Action}
    (h : s.Balanced) (hstep : (interleavings n).step s e = some s') :
    s'.Balanced ↔ CleanLocks s e := by
  obtain ⟨c, a⟩ := e
  obtain ⟨m, p, hact, rfl⟩ := interleavings_step hstep
  have hothers : (∀ d, (Function.update s.processes c p d).Balanced) ↔ p.Balanced := by
    constructor
    · intro hall
      have hself := hall c
      rwa [Function.update_self] at hself
    · intro hp d
      by_cases hd : d = c
      · rw [hd, Function.update_self]
        exact hp
      · rw [Function.update_of_ne hd]
        exact h d
  show (∀ d, (Function.update s.processes c p d).Balanced) ↔ _
  rw [hothers]
  cases a with
  | call call =>
      simp only [act] at hact
      split at hact
      case h_1 hplace =>
        cases hact
        have hc : (s.processes c).held = (s.processes c).place.locks := h c
        exact iff_of_true (hc.trans (hplace ▸ rfl)) trivial
      case h_2 => cases hact
  | proceed => exact iff_of_true ((h c).proceed hact) trivial
  | fail err =>
      obtain ⟨p', hfail, hp⟩ := Option.map_eq_some_iff.mp hact
      cases hp
      exact (h c).fail_iff hfail

/--
**The balance of `sync_mutex`** over all interleavings of any number of
processes.  Every step leaves every process with its number of locks if and only
if no wait for `sync_mutex` fails, and no first wait of `barrier_sync_to`.
-/
theorem lockBalance (n clientCount : Nat) (es : List (Fin n × Action)) :
    (interleavings n).Meets BalancedAfter (.start n clientCount) es ↔
      (interleavings n).Meets CleanLocks (.start n clientCount) es := by
  apply (interleavings n).meets_congr SyncProcesses.Balanced _ es
    (start_balanced clientCount)
  intro s e s' hs hstep
  refine ⟨fun hafter => hafter s' hstep, ?_⟩
  rw [← balancedAfter_iff hs hstep]
  constructor
  · exact fun hafter => hafter s' hstep
  · intro hbalanced s'' hstep'
    rw [hstep] at hstep'
    cases hstep'
    exact hbalanced

/-- A call of `blts_sync_anon_to` up to its first wait for the others. -/
def enterAnonTo (c : Fin 2) : List (Fin 2 × Action) :=
  (c, .call (.sync .anon true)) :: List.replicate 6 (c, .proceed)

/-- Process 0 collects the arrival of process 1 and hands out the departure.  It
still has the barrier mutex when process 1 comes back, whose wait for it times
out. -/
def timeoutInside : List (Fin 2 × Action) :=
  enterAnonTo 0 ++ enterAnonTo 1 ++ [(1, .proceed)] ++ List.replicate 4 (0, .proceed) ++
    List.replicate 4 (1, .proceed) ++ (1, .call (.sync .anon true)) ::
      List.replicate 2 (1, .proceed) ++ [(1, .fail .etimedout)]

/-- Process 1 has `sync_mutex` and waits for it. -/
theorem timeoutInside_waits :
    (∃ s, (interleavings 2).exec (.start 2 2) timeoutInside = some s ∧
      (s.processes 1).place.syncWait = true ∧ (s.processes 1).held = 1 ∧
        s.shared.syncMutex = 0) ∧
      ¬ (interleavings 2).Meets BalancedAfter (.start 2 2) timeoutInside := by
  have hrun : ((interleavings 2).exec (.start 2 2) timeoutInside).any (fun s =>
      (s.processes 1).place.syncWait = true ∧ (s.processes 1).held = 1 ∧
        (s.processes 1).place.locks = 0 ∧ s.shared.syncMutex = 0) = true := by
    decide +kernel
  obtain ⟨s, hs, hstate⟩ := (Option.any_eq_true _ _).mp hrun
  obtain ⟨hwait, hheld, hlocks, hshared⟩ := of_decide_eq_true hstate
  refine ⟨⟨s, hs, hwait, hheld, hshared⟩, fun hmeets => ?_⟩
  have hbalanced := (interleavings 2).exec_invariant SyncProcesses.Balanced
    (fun _ _ s' _ hafter hstep => hafter s' hstep) timeoutInside (start_balanced 2) hmeets hs
  have hone : (s.processes 1).held = (s.processes 1).place.locks := hbalanced 1
  rw [hheld, hlocks] at hone
  cases hone

end Blts.Sync
