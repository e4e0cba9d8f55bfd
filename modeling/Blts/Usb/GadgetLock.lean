import Blts.Lib.Lock
import Blts.Lib.Run

/-!
# The lock of the gadget driver

All calls of the driver lock `gadgetdrv_lock`.  A reader or writer gives it back while it
waits, for a buffer that is busy or for its USB request, and takes it again afterwards.
If the wait for the request is interrupted, or the lock cannot be taken again, the call goes
to its common exit without the lock.  The exit unlocks it if it is locked, by whomever.

`usb_busy` is cleared by the completion of the request, which takes no lock.
-/

namespace Blts.Usb

open Blts.Lib

/-- A call of `gadgetdrv_read` or `gadgetdrv_write` for one of the buffers. -/
structure GadgetTransfer where
  buf : Nat
  nonblock : Bool
  deriving DecidableEq

inductive GadgetCall where
  | transfer (t : GadgetTransfer)
  | release
  | ioctl
  deriving DecidableEq

/-- Where a thread stands in a call of the driver. -/
inductive GadgetPlace where
  | outside
  | entering (call : GadgetCall)
  /-- In `gadgetdrv_release` or the ioctl handler, with the lock. -/
  | inSection
  /-- At the test of `buf->busy`. -/
  | testing (t : GadgetTransfer)
  | waitingUser (t : GadgetTransfer)
  | relockingUser (t : GadgetTransfer)
  | starting (t : GadgetTransfer)
  /-- At the test of `buf->usb_busy`. -/
  | polling (t : GadgetTransfer)
  | waitingUsb (t : GadgetTransfer)
  | relockingUsb (t : GadgetTransfer)
  /-- At the label `done`, with the lock or without. -/
  | done (t : GadgetTransfer) (locked : Bool)
  /-- The lock has been found locked. -/
  | unlocking (t : GadgetTransfer) (locked : Bool)
  | leaving (t : GadgetTransfer)
  /-- An interrupted `gadgetdrv_release` ends in `BUG_ON`. -/
  | dead
  deriving DecidableEq

/-- The thread has locked `gadgetdrv_lock` and not yet unlocked it. -/
def GadgetPlace.holds : GadgetPlace → Bool
  | .inSection | .testing _ | .starting _ | .polling _ => true
  | .done _ locked | .unlocking _ locked => locked
  | .outside | .entering _ | .waitingUser _ | .relockingUser _ | .waitingUsb _
  | .relockingUsb _ | .leaving _ | .dead => false

/-- The thread is at the test of the common exit, without the lock. -/
def GadgetPlace.isLostExit : GadgetPlace → Bool
  | .done _ locked => !locked
  | _ => false

structure GadgetState where
  locked : Bool
  threads : Nat → GadgetPlace
  busy : Nat → Bool
  usbBusy : Nat → Bool
  /-- The lock has been unlocked by a thread that did not hold it. -/
  badUnlock : Bool

namespace GadgetState

def move (s : GadgetState) (c : Nat) (p : GadgetPlace) : GadgetState :=
  { s with threads := Function.update s.threads c p }

/-- `mutex_lock_interruptible` returns 0. -/
def lock (s : GadgetState) (c : Nat) (p : GadgetPlace) : Option GadgetState :=
  if s.locked then none else some { s.move c p with locked := true }

def unlock (s : GadgetState) (c : Nat) (p : GadgetPlace) : GadgetState :=
  { s.move c p with locked := false, badUnlock := s.badUnlock || !(s.threads c).holds }

end GadgetState

/-- What comes of a transfer before it waits. -/
inductive StartResult where
  /-- There is no memory for a request, or the data of the user cannot be copied. -/
  | failed
  /-- `usb_ep_queue` fails. -/
  | refused
  | queued
  deriving DecidableEq

inductive GadgetEvent where
  | call (c : Nat) (call : GadgetCall)
  /-- The next step of a thread, with the result of a transfer that it starts. -/
  | step (c : Nat) (result : StartResult)
  /-- A wait of the thread is interrupted by a signal. -/
  | interrupt (c : Nat)
  /-- `ep_req_complete`. -/
  | complete (b : Nat)
  deriving DecidableEq

def gadgetThreadStep (s : GadgetState) (c : Nat) (result : StartResult) : Option GadgetState :=
  match s.threads c with
  | .outside | .dead => none
  | .entering (.transfer t) => s.lock c (.testing t)
  | .entering .release | .entering .ioctl => s.lock c .inSection
  | .inSection => some (s.unlock c .outside)
  | .testing t =>
      if s.busy t.buf then some (s.unlock c (if t.nonblock then .outside else .waitingUser t))
      else some (s.move c (.starting t))
  | .waitingUser t => if s.busy t.buf then none else some (s.move c (.relockingUser t))
  | .relockingUser t => s.lock c (.testing t)
  | .starting t =>
      let queueing :=
        { s with
          busy := Function.update s.busy t.buf true
          usbBusy := Function.update s.usbBusy t.buf true }
      match result with
      | .failed => some (s.move c (.done t true))
      | .refused => some (queueing.move c (.done t true))
      | .queued => some (queueing.move c (.polling t))
  | .polling t =>
      if s.usbBusy t.buf then some (s.unlock c (.waitingUsb t))
      else some (s.move c (.done t true))
  | .waitingUsb t => if s.usbBusy t.buf then none else some (s.move c (.relockingUsb t))
  | .relockingUsb t => s.lock c (.polling t)
  | .done t locked =>
      some (s.move c (if s.locked then .unlocking t locked else .leaving t))
  | .unlocking t _ => some (s.unlock c (.leaving t))
  | .leaving t =>
      some ({ s with busy := Function.update s.busy t.buf false }.move c .outside)

/-- Where a signal takes a thread that waits. -/
def gadgetInterrupt (s : GadgetState) (c : Nat) : Option GadgetPlace :=
  match s.threads c with
  | .entering .release => if s.locked then some .dead else none
  | .entering (.transfer _) | .entering .ioctl => if s.locked then some .outside else none
  | .waitingUser t => if s.busy t.buf then some .outside else none
  | .relockingUser _ => if s.locked then some .outside else none
  | .waitingUsb t => if s.usbBusy t.buf then some (.done t false) else none
  | .relockingUsb t => if s.locked then some (.done t false) else none
  | .outside | .inSection | .testing _ | .starting _ | .polling _ | .done _ _ | .unlocking _ _
  | .leaving _ | .dead => none

def gadgetStep (s : GadgetState) : GadgetEvent → Option GadgetState
  | .call c call =>
      if s.threads c = .outside then some (s.move c (.entering call)) else none
  | .step c result => gadgetThreadStep s c result
  | .interrupt c => (gadgetInterrupt s c).map (s.move c)
  | .complete b =>
      if s.usbBusy b then some { s with usbBusy := Function.update s.usbBusy b false } else none

def gadgetSystem : System GadgetState GadgetEvent where
  step := gadgetStep

def gadgetStart : GadgetState where
  locked := false
  threads _ := .outside
  busy _ := false
  usbBusy _ := false
  badUnlock := false

/-- The lock has only been unlocked by its holder, and at most one thread is in a section. -/
structure LockSafe (s : GadgetState) : Prop where
  unlocked : s.badUnlock = false
  exclusive : ∀ c d, (s.threads c).holds = true → (s.threads d).holds = true → c = d

/-- A thread without the lock comes to the test of the common exit while nobody has it. -/
def ExitsUnlocked (s : GadgetState) : GadgetEvent → Prop
  | .step c _ => (s.threads c).isLostExit = true → s.locked = false
  | .call _ _ | .interrupt _ | .complete _ => True

instance (s : GadgetState) : (e : GadgetEvent) → Decidable (ExitsUnlocked s e)
  | .step c _ => inferInstanceAs (Decidable ((s.threads c).isLostExit = true → s.locked = false))
  | .call _ _ | .interrupt _ | .complete _ => isTrue trivial

/-- The lock is held by the thread that has locked it, and a thread that is about to unlock
it holds it. -/
structure GadgetInv (s : GadgetState) : Prop where
  held : LockHeld (fun p : GadgetPlace => p.holds = true) s.locked s.threads
  unlocking : ∀ c t locked, s.threads c = .unlocking t locked → locked = true
  unlocked : s.badUnlock = false

section

variable {s s' : GadgetState} {e : GadgetEvent} {c : Nat} {p : GadgetPlace}

/-- What a step does to the lock: a thread moves and keeps what it has, takes the free lock,
or gives it back. -/
inductive LockStep (s : GadgetState) (e : GadgetEvent) : GadgetState → Prop where
  | move (s' : GadgetState) (c : Nat) (p : GadgetPlace) (hlocked : s'.locked = s.locked)
      (hbad : s'.badUnlock = s.badUnlock) (hthreads : s'.threads = Function.update s.threads c p)
      (hholds : p.holds = true → (s.threads c).holds = true)
      (hunlocking : ∀ t locked, p = .unlocking t locked →
        s.locked = true ∧ s.threads c = .done t locked ∧ ∃ result, e = .step c result) :
      LockStep s e s'
  | lock (c : Nat) (p : GadgetPlace) (hfree : s.locked = false)
      (hp : ∀ t locked, p ≠ .unlocking t locked) :
      LockStep s e { s.move c p with locked := true }
  | unlock (c : Nat) (p : GadgetPlace) (hp : p.holds = false)
      (hother : ∀ t locked, p ≠ .unlocking t locked)
      (hfrom : (s.threads c).holds = true ∨ ∃ t locked, s.threads c = .unlocking t locked) :
      LockStep s e (s.unlock c p)
  | complete (usbBusy : Nat → Bool) : LockStep s e { s with usbBusy := usbBusy }

theorem lockStep_lock (hp : ∀ t locked, p ≠ .unlocking t locked) (h : s.lock c p = some s') :
    LockStep s e s' := by
  unfold GadgetState.lock at h
  by_cases hlocked : s.locked = true
  · rw [if_pos hlocked] at h
    cases h
  · rw [if_neg hlocked] at h
    cases h
    exact .lock c p (Bool.not_eq_true _ ▸ hlocked) hp

/-- A thread moves to a place that is not `unlocking`. -/
theorem lockStep_move (hp : ∀ t locked, p ≠ .unlocking t locked)
    (hholds : p.holds = true → (s.threads c).holds = true) : LockStep s e (s.move c p) :=
  .move _ c p rfl rfl rfl hholds fun t locked h => absurd h (hp t locked)

theorem gadgetThreadStep_lock {result : StartResult}
    (hstep : gadgetThreadStep s c result = some s') :
    LockStep s (.step c result) s' := by
  unfold gadgetThreadStep at hstep
  cases hplace : s.threads c with
  | outside | dead =>
      rw [hplace] at hstep
      cases hstep
  | entering call =>
      rw [hplace] at hstep
      cases call with
      | transfer t => exact lockStep_lock (by simp) hstep
      | release | ioctl => exact lockStep_lock (by simp) hstep
  | inSection =>
      rw [hplace] at hstep
      cases hstep
      exact .unlock c _ rfl (by simp) (.inl (by rw [hplace]; rfl))
  | testing t =>
      rw [hplace] at hstep
      dsimp only at hstep
      by_cases hbusy : s.busy t.buf = true
      · rw [if_pos hbusy] at hstep
        cases hstep
        by_cases hnonblock : t.nonblock = true
        · rw [if_pos hnonblock]
          exact .unlock c _ rfl (by simp) (.inl (by rw [hplace]; rfl))
        · rw [if_neg hnonblock]
          exact .unlock c _ rfl (by simp) (.inl (by rw [hplace]; rfl))
      · rw [if_neg hbusy] at hstep
        cases hstep
        exact lockStep_move (by simp) fun _ => by rw [hplace]; rfl
  | waitingUser t =>
      rw [hplace] at hstep
      dsimp only at hstep
      by_cases hbusy : s.busy t.buf = true
      · rw [if_pos hbusy] at hstep
        cases hstep
      · rw [if_neg hbusy] at hstep
        cases hstep
        exact lockStep_move (by simp) fun h => by cases h
  | relockingUser t =>
      rw [hplace] at hstep
      exact lockStep_lock (by simp) hstep
  | starting t =>
      rw [hplace] at hstep
      have hholds : (s.threads c).holds = true := by rw [hplace]; rfl
      cases result with
      | failed =>
          cases hstep
          exact lockStep_move (by simp) fun _ => hholds
      | refused =>
          cases hstep
          exact .move _ c _ rfl rfl rfl (fun _ => hholds) fun _ _ h => (by cases h)
      | queued =>
          cases hstep
          exact .move _ c _ rfl rfl rfl (fun _ => hholds) fun _ _ h => (by cases h)
  | polling t =>
      rw [hplace] at hstep
      dsimp only at hstep
      have hholds : (s.threads c).holds = true := by rw [hplace]; rfl
      by_cases hbusy : s.usbBusy t.buf = true
      · rw [if_pos hbusy] at hstep
        cases hstep
        exact .unlock c _ rfl (by simp) (.inl hholds)
      · rw [if_neg hbusy] at hstep
        cases hstep
        exact lockStep_move (by simp) fun _ => hholds
  | waitingUsb t =>
      rw [hplace] at hstep
      dsimp only at hstep
      by_cases hbusy : s.usbBusy t.buf = true
      · rw [if_pos hbusy] at hstep
        cases hstep
      · rw [if_neg hbusy] at hstep
        cases hstep
        exact lockStep_move (by simp) fun h => by cases h
  | relockingUsb t =>
      rw [hplace] at hstep
      exact lockStep_lock (by simp) hstep
  | done t locked =>
      rw [hplace] at hstep
      dsimp only at hstep
      cases hstep
      by_cases hlocked : s.locked = true
      · rw [if_pos hlocked]
        refine .move _ c (.unlocking t locked) rfl rfl rfl (fun h => ?_) fun t' locked' h => ?_
        · rw [hplace]
          exact h
        · cases h
          exact ⟨hlocked, hplace, result, rfl⟩
      · rw [if_neg hlocked]
        exact lockStep_move (by simp) fun h => by cases h
  | unlocking t locked =>
      rw [hplace] at hstep
      cases hstep
      exact .unlock c _ rfl (by simp) (.inr ⟨t, locked, hplace⟩)
  | leaving t =>
      rw [hplace] at hstep
      cases hstep
      exact .move _ c _ rfl rfl rfl (fun h => (by cases h)) fun _ _ h => (by cases h)

/-- A signal takes a thread without the lock to a place without it. -/
theorem gadgetInterrupt_place (h : gadgetInterrupt s c = some p) :
    p.holds = false ∧ ∀ t locked, p ≠ .unlocking t locked := by
  unfold gadgetInterrupt at h
  have hif : ∀ {b : Bool} {q : GadgetPlace}, (if b = true then some q else none) = some p →
      q = p := by
    intro b q hq
    by_cases hb : b = true
    · rw [if_pos hb] at hq
      exact Option.some.inj hq
    · rw [if_neg hb] at hq
      cases hq
  cases hplace : s.threads c with
  | entering call =>
      rw [hplace] at h
      cases call with
      | transfer t | release | ioctl =>
          cases hif h
          exact ⟨rfl, by simp⟩
  | waitingUser t | relockingUser t | waitingUsb t | relockingUsb t =>
      rw [hplace] at h
      cases hif h
      exact ⟨rfl, by simp⟩
  | outside | inSection | testing t | starting t | polling t | done t locked
  | unlocking t locked | leaving t | dead =>
      rw [hplace] at h
      cases h

theorem gadgetStep_lock (hstep : gadgetSystem.step s e = some s') : LockStep s e s' := by
  cases e with
  | call c call =>
      replace hstep : (if _ then _ else _) = some s' := hstep
      obtain ⟨_, hstep⟩ := Option.ite_none_right_eq_some.mp hstep
      cases hstep
      exact lockStep_move (by simp) fun h => by cases h
  | step c result => exact gadgetThreadStep_lock hstep
  | interrupt c =>
      obtain ⟨p, hp, rfl⟩ := Option.map_eq_some_iff.mp hstep
      obtain ⟨hholds, hunlocking⟩ := gadgetInterrupt_place hp
      refine lockStep_move hunlocking fun h => ?_
      rw [hholds] at h
      cases h
  | complete b =>
      replace hstep : (if _ then _ else _) = some s' := hstep
      obtain ⟨_, hstep⟩ := Option.ite_none_right_eq_some.mp hstep
      cases hstep
      exact .complete _

/-- **A step** keeps the invariant, if a thread without the lock does not find it locked. -/
theorem gadgetInv_step (hinv : GadgetInv s) (hexits : ExitsUnlocked s e)
    (hstep : gadgetSystem.step s e = some s') : GadgetInv s' := by
  obtain ⟨hheld, hunlocking, hunlocked⟩ := hinv
  have hmoved : ∀ {c : Nat} {p : GadgetPlace}, (∀ t, p ≠ .unlocking t false) →
      ∀ d t locked, Function.update s.threads c p d = .unlocking t locked → locked = true := by
    intro c p hp d t locked hd
    by_cases hdc : d = c
    · rw [hdc, Function.update_self] at hd
      cases locked with
      | true => rfl
      | false => exact absurd hd (hp t)
    · rw [Function.update_of_ne hdc] at hd
      exact hunlocking d t locked hd
  cases gadgetStep_lock hstep with
  | move s' c p hlocked hbad hthreads hholds hexit =>
      have hp : ∀ t, p ≠ .unlocking t false := by
        intro t hp
        obtain ⟨hlocked, hdone, result, rfl⟩ := hexit t false hp
        rw [hexits (by rw [hdone]; rfl)] at hlocked
        cases hlocked
      refine ⟨?_, ?_, hbad.trans hunlocked⟩
      · rw [hlocked, hthreads]
        exact hheld.move hholds
      · rw [hthreads]
        exact hmoved hp
  | lock c p hfree hp =>
      rw [hfree] at hheld
      exact ⟨hheld.take c p, hmoved fun t => hp t false, hunlocked⟩
  | unlock c p hp hother hfrom =>
      have hholds : (s.threads c).holds = true := by
        obtain hholds | ⟨t, locked, hplace⟩ := hfrom
        · exact hholds
        · rw [hplace]
          exact hunlocking c t locked hplace
      refine ⟨hheld.drop hholds fun h => ?_, hmoved fun t => hother t false, ?_⟩
      · rw [hp] at h
        cases h
      · show (s.badUnlock || !(s.threads c).holds) = false
        rw [hunlocked, hholds]
        rfl
  | complete usbBusy => exact ⟨hheld, hunlocking, hunlocked⟩

/-- A thread without the lock that finds it locked unlocks it. -/
theorem lostExit_unlocks {t : GadgetTransfer} (hdone : s.threads c = .done t false)
    (hlocked : s.locked = true) (result : StartResult) :
    ∃ s', gadgetSystem.exec s [.step c result, .step c result] = some s' ∧
      s'.badUnlock = true := by
  have hstep : gadgetSystem.step s (.step c result) = some (s.move c (.unlocking t false)) := by
    show gadgetThreadStep s c result = _
    unfold gadgetThreadStep
    rw [hdone]
    dsimp only
    rw [if_pos hlocked]
  have hplace : (s.move c (.unlocking t false)).threads c = .unlocking t false :=
    Function.update_self _ _ _
  have hunlock : gadgetSystem.step (s.move c (.unlocking t false)) (.step c result) =
      some ((s.move c (.unlocking t false)).unlock c (.leaving t)) := by
    show gadgetThreadStep _ c result = _
    unfold gadgetThreadStep
    rw [hplace]
  refine ⟨_, by rw [System.exec_cons, hstep, Option.bind_some, System.exec_cons, hunlock]; rfl, ?_⟩
  show (s.badUnlock || !((s.move c (.unlocking t false)).threads c).holds) = true
  rw [hplace]
  exact Bool.or_true _

end

theorem gadgetInv_start : GadgetInv gadgetStart where
  held := ⟨fun _ h => (by cases h), fun _ _ h => (by cases h)⟩
  unlocking _ _ _ h := by cases h
  unlocked := rfl

/-- **`gadgetdrv_lock`** is only unlocked by its holder and lets one thread at a time into a
section, in every interleaving in which no thread that has lost it comes to the common exit
while another has it. -/
theorem gadgetLock_safe {es : List GadgetEvent} {s : GadgetState}
    (hmeets : gadgetSystem.Meets ExitsUnlocked gadgetStart es)
    (hrun : gadgetSystem.exec gadgetStart es = some s) : LockSafe s := by
  have hinv := gadgetSystem.exec_invariant GadgetInv
    (fun _ _ _ h hexits hstep => gadgetInv_step h hexits hstep) es gadgetInv_start hmeets hrun
  exact ⟨hinv.unlocked, hinv.held.unique⟩

/-- A reader that waits for its request is interrupted, and leaves. -/
def interruptedRead : List GadgetEvent :=
  [.call 0 (.transfer ⟨2, false⟩), .step 0 .queued, .step 0 .queued, .step 0 .queued,
    .step 0 .queued, .interrupt 0]

theorem gadgetLock_safe_interrupted : ∃ s,
    gadgetSystem.exec gadgetStart (interruptedRead ++ [.step 0 .queued]) = some s ∧ LockSafe s :=
  ⟨_, rfl, @gadgetLock_safe (interruptedRead ++ [.step 0 .queued]) _ (by decide) rfl⟩

/-- The same, while another thread is in the ioctl handler. -/
theorem interruptedRead_unlocks : ¬ ∀ es s,
    gadgetSystem.exec gadgetStart es = some s → LockSafe s := by
  intro h
  have hsafe := h (interruptedRead ++
    [.call 1 .ioctl, .step 1 .queued, .step 0 .queued, .step 0 .queued]) _ rfl
  exact absurd hsafe.unlocked (by decide)

end Blts.Usb
