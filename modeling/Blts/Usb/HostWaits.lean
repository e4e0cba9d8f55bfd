import Mathlib.Logic.Function.Basic
import Blts.Lib.Run

/-!
# Waiting for a buffer of the host driver

A buffer of the host driver is used by one call at a time: `BUF_FL_USER_BUSY` is set under
`hostdrv_lock` and cleared when the call is over.  Other calls wait for the flag in the queue
`userq` of the buffer.

Nothing in the driver wakes the queue.  A thread that has gone to sleep leaves only for a
signal, and no wake-up of it is ever outstanding.
-/

namespace Blts.Usb

open Blts.Lib

/-- The two buffers of an endpoint. -/
inductive HostBuffer where
  | read
  | write
  deriving DecidableEq

/-- Where a thread stands in `hostdrv_read` or `hostdrv_write`. -/
inductive HostPlace where
  | outside
  | entering (b : HostBuffer) (nonblock : Bool)
  /-- At the test of `BUF_FL_USER_BUSY`, with the lock. -/
  | testing (b : HostBuffer) (nonblock : Bool)
  /-- In the queue, before the flag is looked at again. -/
  | queued (b : HostBuffer) (nonblock : Bool)
  | asleep (b : HostBuffer) (nonblock : Bool)
  | relocking (b : HostBuffer) (nonblock : Bool)
  /-- With the flag set, and still the lock. -/
  | claimed (b : HostBuffer)
  | transferring (b : HostBuffer)
  /-- After the wait for the request, in `usb_perform_transfer`. -/
  | urbLocking (b : HostBuffer)
  | urbHolding (b : HostBuffer)
  | finishing (b : HostBuffer)
  | closing (b : HostBuffer)
  | unlocking (b : HostBuffer)
  /-- The lock could not be taken after the transfer. -/
  | interrupted (b : HostBuffer)
  deriving DecidableEq

structure HostState where
  locked : Bool
  busy : HostBuffer → Bool
  threads : Nat → HostPlace

namespace HostState

def move (s : HostState) (c : Nat) (p : HostPlace) : HostState :=
  { s with threads := Function.update s.threads c p }

def lock (s : HostState) (c : Nat) (p : HostPlace) : Option HostState :=
  if s.locked then none else some { s.move c p with locked := true }

def unlock (s : HostState) (c : Nat) (p : HostPlace) : HostState :=
  { s.move c p with locked := false }

/-- `set_bit` and `clear_bit`. -/
def setBusy (s : HostState) (b : HostBuffer) (busy : Bool) : HostState :=
  { s with busy := Function.update s.busy b busy }

end HostState

inductive HostWaitEvent where
  | call (c : Nat) (b : HostBuffer) (nonblock : Bool)
  /-- The next step of a thread.  What it tries succeeds or not: the copy from the user, or
  the submission of the request. -/
  | step (c : Nat) (ok : Bool)
  /-- A wait of the thread is interrupted by a signal. -/
  | interrupt (c : Nat)
  deriving DecidableEq

def hostThreadStep (s : HostState) (c : Nat) (ok : Bool) : Option HostState :=
  match s.threads c with
  | .outside | .asleep _ _ => none
  | .entering b nonblock => s.lock c (.testing b nonblock)
  | .testing b nonblock =>
      if s.busy b then some (s.unlock c (if nonblock then .outside else .queued b nonblock))
      else some ((s.setBusy b true).move c (.claimed b))
  | .queued b nonblock =>
      some (s.move c (if s.busy b then .asleep b nonblock else .relocking b nonblock))
  | .relocking b nonblock => s.lock c (.testing b nonblock)
  | .claimed .read => some (s.unlock c (.transferring .read))
  | .claimed .write =>
      if ok then some (s.unlock c (.transferring .write)) else some (s.move c (.closing .write))
  | .transferring b => some (s.move c (if ok then .urbLocking b else .finishing b))
  | .urbLocking b => s.lock c (.urbHolding b)
  | .urbHolding b => some (s.unlock c (.finishing b))
  | .finishing b => s.lock c (.closing b)
  | .closing b => some ((s.setBusy b false).move c (.unlocking b))
  | .unlocking _ => some (s.unlock c .outside)
  | .interrupted b => some ((s.setBusy b false).move c .outside)

/-- Where a signal takes a thread that waits. -/
def hostInterrupt (s : HostState) (c : Nat) : Option HostPlace :=
  match s.threads c with
  | .entering _ _ | .relocking _ _ => if s.locked then some .outside else none
  | .asleep _ _ => some .outside
  | .finishing b => if s.locked then some (.interrupted b) else none
  | .outside | .testing _ _ | .queued _ _ | .claimed _ | .transferring _ | .urbLocking _
  | .urbHolding _ | .closing _ | .unlocking _ | .interrupted _ => none

def hostWaitStep (s : HostState) : HostWaitEvent → Option HostState
  | .call c b nonblock =>
      if s.threads c = .outside then some (s.move c (.entering b nonblock)) else none
  | .step c ok => hostThreadStep s c ok
  | .interrupt c => (hostInterrupt s c).map (s.move c)

def hostWaitSystem : System HostState HostWaitEvent where
  step := hostWaitStep

def hostWaitStart : HostState where
  locked := false
  busy _ := false
  threads _ := .outside

/-- The thread sleeps in the queue of the buffer. -/
def HostPlace.SleepsOn (b : HostBuffer) (p : HostPlace) : Prop :=
  ∃ nonblock, p = .asleep b nonblock

/-- No thread sleeps for a buffer that is free. -/
def NoLostSleeper (s : HostState) : Prop :=
  ∀ b, s.busy b = false → ∀ c, ¬ (s.threads c).SleepsOn b

/-- The buffer whose flag is cleared in the next step. -/
def HostPlace.clears : HostPlace → Option HostBuffer
  | .closing b | .interrupted b => some b
  | .outside | .entering _ _ | .testing _ _ | .queued _ _ | .asleep _ _ | .relocking _ _
  | .claimed _ | .transferring _ | .urbLocking _ | .urbHolding _ | .finishing _
  | .unlocking _ => none

/-- The flag of a buffer is cleared while no thread sleeps for it. -/
def ClearsUnawaited (s : HostState) : HostWaitEvent → Prop
  | .step c _ => ∀ b, (s.threads c).clears = some b → ∀ d, ¬ (s.threads d).SleepsOn b
  | .call _ _ _ | .interrupt _ => True

section

variable {s s' : HostState} {e : HostWaitEvent} {c : Nat} {p : HostPlace}

/-- What a step does to the flags and the sleepers: a thread moves, and goes to sleep only
for a busy buffer, or it clears the flag of a buffer. -/
inductive WaitStep (s : HostState) (e : HostWaitEvent) : HostState → Prop where
  | move (s' : HostState) (c : Nat) (p : HostPlace)
      (hthreads : s'.threads = Function.update s.threads c p)
      (hbusy : ∀ b, s.busy b = true → s'.busy b = true)
      (hsleeps : ∀ b, p.SleepsOn b → s.busy b = true)
      (hkeeps : ClearsUnawaited s e) : WaitStep s e s'
  | clear (c : Nat) (b : HostBuffer) (p : HostPlace) (ok : Bool) (he : e = .step c ok)
      (hclears : (s.threads c).clears = some b) (hp : ∀ b, ¬ p.SleepsOn b) :
      WaitStep s e ((s.setBusy b false).move c p)

theorem not_sleepsOn (hp : ∀ b nonblock, p ≠ .asleep b nonblock) (b : HostBuffer) :
    ¬ p.SleepsOn b := by
  rintro ⟨nonblock, h⟩
  exact hp b nonblock h

/-- A thread that clears nothing moves to a place where it does not sleep. -/
theorem waitStep_move {ok : Bool} (hplace : (s.threads c).clears = none)
    (hp : ∀ b nonblock, p ≠ .asleep b nonblock)
    (hthreads : s'.threads = Function.update s.threads c p)
    (hbusy : ∀ b, s.busy b = true → s'.busy b = true) : WaitStep s (.step c ok) s' := by
  refine .move s' c p hthreads hbusy (fun b h => absurd h (not_sleepsOn hp b)) fun b h => ?_
  rw [hplace] at h
  cases h

theorem waitStep_lock {ok : Bool} (hplace : (s.threads c).clears = none)
    (hp : ∀ b nonblock, p ≠ .asleep b nonblock) (h : s.lock c p = some s') :
    WaitStep s (.step c ok) s' := by
  unfold HostState.lock at h
  by_cases hlocked : s.locked = true
  · rw [if_pos hlocked] at h
    cases h
  · rw [if_neg hlocked] at h
    cases h
    exact waitStep_move hplace hp rfl fun _ hb => hb

theorem hostThreadStep_cases {ok : Bool} (hstep : hostThreadStep s c ok = some s') :
    WaitStep s (.step c ok) s' := by
  unfold hostThreadStep at hstep
  cases hplace : s.threads c with
  | outside | asleep b nonblock =>
      rw [hplace] at hstep
      cases hstep
  | entering b nonblock | relocking b nonblock =>
      rw [hplace] at hstep
      exact waitStep_lock (by rw [hplace]; rfl) (by simp) hstep
  | testing b nonblock =>
      rw [hplace] at hstep
      dsimp only at hstep
      have hclears : (s.threads c).clears = none := by rw [hplace]; rfl
      by_cases hbusy : s.busy b = true
      · rw [if_pos hbusy] at hstep
        cases hstep
        by_cases hnonblock : nonblock = true
        · rw [if_pos hnonblock]
          exact waitStep_move hclears (by simp) rfl fun _ hb => hb
        · rw [if_neg hnonblock]
          exact waitStep_move hclears (by simp) rfl fun _ hb => hb
      · rw [if_neg hbusy] at hstep
        cases hstep
        refine waitStep_move hclears (by simp) rfl fun b' hb' => ?_
        show Function.update s.busy b true b' = true
        by_cases hbb : b' = b
        · rw [hbb, Function.update_self]
        · rw [Function.update_of_ne hbb]
          exact hb'
  | queued b nonblock =>
      rw [hplace] at hstep
      cases hstep
      by_cases hbusy : s.busy b = true
      · -- the flag has been seen set in the queue
        rw [if_pos hbusy]
        refine .move _ c _ rfl (fun _ hb => hb) ?_ fun b' h => ?_
        · rintro b' ⟨nonblock', h⟩
          cases h
          exact hbusy
        · rw [hplace] at h
          cases h
      · rw [if_neg hbusy]
        exact waitStep_move (by rw [hplace]; rfl) (by simp) rfl fun _ hb => hb
  | claimed b =>
      rw [hplace] at hstep
      have hclears : (s.threads c).clears = none := by rw [hplace]; rfl
      cases b with
      | read =>
          cases hstep
          exact waitStep_move hclears (by simp) rfl fun _ hb => hb
      | write =>
          dsimp only at hstep
          by_cases hok : ok = true
          · rw [if_pos hok] at hstep
            cases hstep
            exact waitStep_move hclears (by simp) rfl fun _ hb => hb
          · rw [if_neg hok] at hstep
            cases hstep
            exact waitStep_move hclears (by simp) rfl fun _ hb => hb
  | transferring b =>
      rw [hplace] at hstep
      cases hstep
      have hclears : (s.threads c).clears = none := by rw [hplace]; rfl
      by_cases hok : ok = true
      · rw [if_pos hok]
        exact waitStep_move hclears (by simp) rfl fun _ hb => hb
      · rw [if_neg hok]
        exact waitStep_move hclears (by simp) rfl fun _ hb => hb
  | urbLocking b | finishing b =>
      rw [hplace] at hstep
      exact waitStep_lock (by rw [hplace]; rfl) (by simp) hstep
  | urbHolding b | unlocking b =>
      rw [hplace] at hstep
      cases hstep
      exact waitStep_move (by rw [hplace]; rfl) (by simp) rfl fun _ hb => hb
  | closing b | interrupted b =>
      rw [hplace] at hstep
      cases hstep
      exact .clear c b _ ok rfl (by rw [hplace]; rfl) (not_sleepsOn (by simp))

/-- A signal takes a thread to a place where it does not sleep. -/
theorem hostInterrupt_place (h : hostInterrupt s c = some p) (b : HostBuffer) :
    ¬ p.SleepsOn b := by
  unfold hostInterrupt at h
  have hif : ∀ {q : HostPlace}, (if s.locked = true then some q else none) = some p → q = p := by
    intro q hq
    by_cases hlocked : s.locked = true
    · rw [if_pos hlocked] at hq
      exact Option.some.inj hq
    · rw [if_neg hlocked] at hq
      cases hq
  cases hplace : s.threads c with
  | entering b' nonblock | relocking b' nonblock | finishing b' =>
      rw [hplace] at h
      cases hif h
      exact not_sleepsOn (by simp) b
  | asleep b' nonblock =>
      rw [hplace] at h
      cases h
      exact not_sleepsOn (by simp) b
  | outside | testing _ _ | queued _ _ | claimed _ | transferring _ | urbLocking _ | urbHolding _
  | closing _ | unlocking _ | interrupted _ =>
      rw [hplace] at h
      cases h

theorem hostWaitStep_cases (hstep : hostWaitSystem.step s e = some s') : WaitStep s e s' := by
  cases e with
  | call c b nonblock =>
      replace hstep : (if _ then _ else _) = some s' := hstep
      obtain ⟨_, hstep⟩ := Option.ite_none_right_eq_some.mp hstep
      cases hstep
      exact .move _ c _ rfl (fun _ hb => hb)
        (fun b h => absurd h (not_sleepsOn (by simp) b)) trivial
  | step c ok => exact hostThreadStep_cases hstep
  | interrupt c =>
      obtain ⟨p, hp, rfl⟩ := Option.map_eq_some_iff.mp hstep
      exact .move _ c p rfl (fun _ hb => hb)
        (fun b h => absurd h (hostInterrupt_place hp b)) trivial

/-- A thread that clears a flag does not sleep. -/
theorem not_sleepsOn_clears {b : HostBuffer} (h : (s.threads c).clears = some b)
    (b' : HostBuffer) : ¬ (s.threads c).SleepsOn b' := by
  rintro ⟨nonblock, hplace⟩
  rw [hplace] at h
  cases h

/-- **A step** leaves no sleeper behind exactly if it clears no flag that is waited for. -/
theorem noLostSleeper_step (hinv : NoLostSleeper s) (hstep : hostWaitSystem.step s e = some s') :
    NoLostSleeper s' ↔ ClearsUnawaited s e := by
  cases hostWaitStep_cases hstep with
  | move s' c p hthreads hbusy hsleeps hkeeps =>
      refine iff_of_true (fun b hfree d => ?_) hkeeps
      have hwas : s.busy b = false := by
        cases hb : s.busy b with
        | false => rfl
        | true => rw [hbusy b hb] at hfree; cases hfree
      rw [hthreads]
      by_cases hdc : d = c
      · rw [hdc, Function.update_self]
        intro h
        rw [hsleeps b h] at hwas
        cases hwas
      · rw [Function.update_of_ne hdc]
        exact hinv b hwas d
  | clear c b p ok he hclears hp =>
      subst he
      have hsame : ∀ d b', (Function.update s.threads c p d).SleepsOn b' ↔
          (s.threads d).SleepsOn b' := by
        intro d b'
        by_cases hdc : d = c
        · rw [hdc, Function.update_self]
          exact iff_of_false (hp b') (not_sleepsOn_clears hclears b')
        · rw [Function.update_of_ne hdc]
      constructor
      · intro h b' hb' d hsleeps
        rw [hclears] at hb'
        cases hb'
        exact h b (Function.update_self _ _ _) d ((hsame d b).mpr hsleeps)
      · intro h b' hfree d hsleeps
        replace hsleeps := (hsame d b').mp hsleeps
        by_cases hbb : b' = b
        · rw [hbb] at hsleeps
          exact h b hclears d hsleeps
        · have hwas : s.busy b' = false := by
            rw [← hfree]
            exact (Function.update_of_ne hbb _ _).symm
          exact hinv b' hwas d hsleeps

end

/-- **Sleepers**: in no state of a run a thread sleeps for a buffer that is free, exactly if
in all its steps flags are only cleared while no thread sleeps for their buffers. -/
theorem noLostSleeper_iff (es : List HostWaitEvent) :
    hostWaitSystem.Meets
      (fun s e => ∀ s', hostWaitSystem.step s e = some s' → NoLostSleeper s') hostWaitStart es ↔
    hostWaitSystem.Meets ClearsUnawaited hostWaitStart es := by
  refine hostWaitSystem.meets_congr NoLostSleeper (fun s e s' hinv hstep => ?_) es ?_
  · have hiff := noLostSleeper_step hinv hstep
    refine ⟨fun h => h s' hstep, fun h => hiff.mp (h s' hstep), fun hclears s₁ hstep₁ => ?_⟩
    rw [hstep] at hstep₁
    cases hstep₁
    exact hiff.mpr hclears
  · rintro b - c ⟨nonblock, h⟩
    cases h

/-- A reader sleeps while another reads, and is not woken. -/
theorem secondReader_sleeps : ¬ ∀ es s,
    hostWaitSystem.exec hostWaitStart es = some s → NoLostSleeper s := by
  intro h
  have hlost := h [.call 0 .read false, .step 0 true, .step 0 true, .step 0 true,
    .call 1 .read false, .step 1 true, .step 1 true, .step 1 true,
    .step 0 true, .step 0 true, .step 0 true, .step 0 true, .step 0 true] _ rfl
  exact hlost .read rfl 1 ⟨false, rfl⟩

end Blts.Usb
