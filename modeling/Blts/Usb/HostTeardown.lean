import Mathlib.Logic.Function.Basic
import Blts.Lib.Run
import Blts.Usb.HostBuffers

/-!
# Disconnecting the host driver

The disconnect of the device stops the transfers of one buffer after the other and waits for
the calls that use them.  It then gives the lock up, takes it again, and frees what the
buffers have.  A call looks at `dirty` and at its pipe before it takes the lock, and not
again after that.

So a call can set `BUF_FL_USER_BUSY` on a buffer that the disconnect has already passed, and
still use it when it is freed.  The wait for a call also ends after two seconds, with the call
as it is.
-/

namespace Blts.Usb

open Blts.Lib

/-- Where a call of `hostdrv_read` or `hostdrv_write` stands with its buffer. -/
inductive IoPlace where
  | outside
  /-- `dirty` and the pipe have been looked at, and the lock is waited for. -/
  | entering (b : Nat) (nonblock : Bool)
  /-- With the lock, at the test of `BUF_FL_USER_BUSY`. -/
  | testing (b : Nat) (nonblock : Bool)
  | queued (b : Nat) (nonblock : Bool)
  | asleep (b : Nat) (nonblock : Bool)
  /-- With the flag set, and still the lock. -/
  | claimed (b : Nat)
  | submitting (b : Nat)
  /-- The request is submitted, and `BUF_FL_URB_ACTIVE` not yet set. -/
  | submitted (b : Nat)
  /-- At the test of `BUF_FL_DISCONNECTING`. -/
  | racing (b : Nat)
  /-- A disconnect has been seen. -/
  | clearing (b : Nat)
  | unlinking (b : Nat)
  | unlinkHolding (b : Nat)
  | awaiting (b : Nat)
  | reaping (b : Nat)
  /-- With the lock, before `BUF_FL_URB_ACTIVE` is cleared. -/
  | reapHolding (b : Nat)
  | reaped (b : Nat)
  | finishing (b : Nat)
  /-- With the lock, after the transfer. -/
  | closing (b : Nat)
  | unlocking
  /-- The lock could not be taken after the transfer. -/
  | interrupted (b : Nat)
  deriving DecidableEq

/-- Where the disconnect stands. -/
inductive TeardownPlace where
  | idle
  | starting
  /-- With the lock: the buffers before `i` have `BUF_FL_DISCONNECTING` set. -/
  | marking (i : Nat)
  /-- `usb_stop_all_active` waits for the lock. -/
  | stopLocking
  | stopping (i : Nat)
  /-- With the lock, at the test of `BUF_FL_USER_BUSY`. -/
  | checking (i : Nat)
  | waiting (i : Nat)
  | rechecking (i : Nat)
  /-- The wait has timed out. -/
  | skipping (i : Nat)
  | freeLocking
  /-- With the lock, at the `BUG_ON`. -/
  | freeing (i : Nat)
  | releasing (i : Nat)
  | finishing
  | deregistering
  | bug
  deriving DecidableEq

structure TeardownState where
  locked : Bool
  dirty : Bool
  openCount : Nat
  attached : Bool
  usbpipe : Nat → Bool
  /-- The URB and the DMA buffers of a buffer are there. -/
  urb : Nat → Bool
  busy : Nat → Bool
  active : Nat → Bool
  disconnecting : Nat → Bool
  calls : Nat → IoPlace
  teardown : TeardownPlace

namespace TeardownState

def move (s : TeardownState) (c : Nat) (p : IoPlace) : TeardownState :=
  { s with calls := Function.update s.calls c p }

def lock (s : TeardownState) (c : Nat) (p : IoPlace) : Option TeardownState :=
  if s.locked then none else some { s.move c p with locked := true }

def unlock (s : TeardownState) (c : Nat) (p : IoPlace) : TeardownState :=
  { s.move c p with locked := false }

def setBusy (s : TeardownState) (b : Nat) (busy : Bool) : TeardownState :=
  { s with busy := Function.update s.busy b busy }

def setActive (s : TeardownState) (b : Nat) (active : Bool) : TeardownState :=
  { s with active := Function.update s.active b active }

/-- The disconnect goes on with the lock, if that is free. -/
def tdLock (s : TeardownState) (p : TeardownPlace) : Option TeardownState :=
  if s.locked then none else some { s with locked := true, teardown := p }

end TeardownState

inductive TeardownEvent where
  | call (c b : Nat) (nonblock : Bool)
  /-- The next step of a call.  What it tries succeeds or not: the copy from the user, or the
  submission of the request. -/
  | io (c : Nat) (ok : Bool)
  /-- A wait of the call is interrupted by a signal. -/
  | interrupt (c : Nat)
  | disconnect
  /-- The next step of the disconnect. -/
  | teardown
  deriving DecidableEq

/-- The odd buffers are those for writing. -/
def ioStep (s : TeardownState) (c : Nat) (ok : Bool) : Option TeardownState :=
  match s.calls c with
  | .outside | .asleep _ _ => none
  | .entering b nonblock => s.lock c (.testing b nonblock)
  | .testing b nonblock =>
      if s.busy b then some (s.unlock c (if nonblock then .outside else .queued b nonblock))
      else some ((s.setBusy b true).move c (.claimed b))
  | .queued b nonblock =>
      some (s.move c (if s.busy b then .asleep b nonblock else .entering b nonblock))
  | .claimed b =>
      if b % 2 = 1 ∧ ok = false then some (s.move c (.closing b))
      else some (s.unlock c (.submitting b))
  | .submitting b => some (s.move c (if ok then .submitted b else .finishing b))
  | .submitted b => some ((s.setActive b true).move c (.racing b))
  | .racing b => some (s.move c (if s.disconnecting b then .clearing b else .awaiting b))
  | .clearing b =>
      if s.active b then some ((s.setActive b false).move c (.unlinking b))
      else some (s.move c (.awaiting b))
  | .unlinking b => s.lock c (.unlinkHolding b)
  | .unlinkHolding b => some (s.unlock c (.awaiting b))
  | .awaiting b => some (s.move c (.reaping b))
  | .reaping b => s.lock c (.reapHolding b)
  | .reapHolding b => some ((s.setActive b false).move c (.reaped b))
  | .reaped b => some (s.unlock c (.finishing b))
  | .finishing b => s.lock c (.closing b)
  | .closing b => some ((s.setBusy b false).move c .unlocking)
  | .unlocking => some (s.unlock c .outside)
  | .interrupted b => some ((s.setBusy b false).move c .outside)

/-- Where a signal takes a call that waits. -/
def ioInterrupt (s : TeardownState) (c : Nat) : Option IoPlace :=
  match s.calls c with
  | .entering _ _ => if s.locked then some .outside else none
  | .asleep _ _ => some .outside
  | .finishing b => if s.locked then some (.interrupted b) else none
  | .outside | .testing _ _ | .queued _ _ | .claimed _ | .submitting _ | .submitted _
  | .racing _ | .clearing _ | .unlinking _ | .unlinkHolding _ | .awaiting _ | .reaping _
  | .reapHolding _ | .reaped _ | .closing _ | .unlocking | .interrupted _ => none

/-- `hostdrv_common_start_teardown`, `usb_stop_all_active`, `usb_buffer_teardown`, and the rest
of `hostdrv_disconnect`. -/
def teardownStep (s : TeardownState) : Option TeardownState :=
  match s.teardown with
  | .idle | .bug => none
  | .starting => s.tdLock (.marking 0)
  | .marking i =>
      if i < 2 * nHostDevices then
        some { s with
          disconnecting := Function.update s.disconnecting i true, teardown := .marking (i + 1) }
      else
        some { s with
          dirty := s.dirty || s.openCount ≠ 0, locked := false, teardown := .stopLocking }
  | .stopLocking => s.tdLock (.stopping 0)
  | .stopping i =>
      if i < 2 * nHostDevices then some { s.setActive i false with teardown := .checking i }
      else some { s with locked := false, teardown := .freeLocking }
  | .checking i =>
      if s.busy i then some { s with locked := false, teardown := .waiting i }
      else some { s with teardown := .stopping (i + 1) }
  | .waiting i => some { s with teardown := if s.busy i then .skipping i else .rechecking i }
  | .rechecking i => s.tdLock (.checking i)
  | .skipping i => s.tdLock (.stopping (i + 1))
  | .freeLocking => s.tdLock (.freeing 0)
  | .freeing i =>
      if i < 2 * nHostDevices then
        some { s with teardown := if s.active i then .bug else .releasing i }
      else some { s with locked := false, teardown := .finishing }
  | .releasing i =>
      some { s with
        urb := Function.update s.urb i false
        usbpipe := Function.update s.usbpipe i false
        disconnecting := Function.update s.disconnecting i false
        teardown := .freeing (i + 1) }
  | .finishing => s.tdLock .deregistering
  | .deregistering =>
      some { s with
        attached := false, disconnecting := fun _ => false, locked := false, teardown := .idle }

def hostTeardownStep (s : TeardownState) : TeardownEvent → Option TeardownState
  | .call c b nonblock =>
      if s.calls c = .outside ∧ b < 2 * nHostDevices ∧ s.dirty = false ∧ s.usbpipe b = true then
        some (s.move c (.entering b nonblock))
      else none
  | .io c ok => ioStep s c ok
  | .interrupt c => (ioInterrupt s c).map (s.move c)
  | .disconnect => if s.teardown = .idle then some { s with teardown := .starting } else none
  | .teardown => teardownStep s

def hostTeardownSystem : System TeardownState TeardownEvent where
  step := hostTeardownStep

/-- The device is attached with some of the pipes, and the driver opened. -/
def teardownStart (usbpipe : Nat → Bool) (openCount : Nat) : TeardownState where
  locked := false
  dirty := false
  openCount := openCount
  attached := true
  usbpipe := usbpipe
  urb := usbpipe
  busy _ := false
  active _ := false
  disconnecting _ := false
  calls _ := .outside
  teardown := .idle

/-! ## What a disconnect must not do -/

/-- The buffer on which the call has set `BUF_FL_USER_BUSY`. -/
def IoPlace.holds : IoPlace → Option Nat
  | .claimed b | .submitting b | .submitted b | .racing b | .clearing b | .unlinking b
  | .unlinkHolding b | .awaiting b | .reaping b | .reapHolding b | .reaped b | .finishing b
  | .closing b | .interrupted b => some b
  | .outside | .entering _ _ | .testing _ _ | .queued _ _ | .asleep _ _ | .unlocking => none

/-- The disconnect does not come to its `BUG_ON` with an active request, and frees no buffer
that a call uses. -/
def FreesUnused (s : TeardownState) : TeardownEvent → Prop
  | .teardown =>
      (∀ i < 2 * nHostDevices, s.teardown = .freeing i → s.active i = false) ∧
      ∀ i < 2 * nHostDevices, s.teardown = .releasing i → ∀ c, (s.calls c).holds ≠ some i
  | .call _ _ _ | .io _ _ | .interrupt _ | .disconnect => True

/-- The disconnect has found the buffer free, and not yet freed it. -/
def TeardownPlace.passed : TeardownPlace → Nat → Bool
  | .stopping i, b | .checking i, b | .waiting i, b | .rechecking i, b => b < i
  | .skipping i, b => b ≤ i
  | .freeLocking, b => b < 2 * nHostDevices
  | .freeing i, b | .releasing i, b => i ≤ b ∧ b < 2 * nHostDevices
  | .idle, _ | .starting, _ | .marking _, _ | .stopLocking, _ | .finishing, _
  | .deregistering, _ | .bug, _ => false

/-- The buffer whose flag is tested, with the lock. -/
def IoPlace.tests : IoPlace → Option Nat
  | .testing b _ => some b
  | .outside | .entering _ _ | .queued _ _ | .asleep _ _ | .claimed _ | .submitting _
  | .submitted _ | .racing _ | .clearing _ | .unlinking _ | .unlinkHolding _ | .awaiting _
  | .reaping _ | .reapHolding _ | .reaped _ | .finishing _ | .closing _ | .unlocking
  | .interrupted _ => none

/-- The buffer whose call is waited for. -/
def TeardownPlace.awaits : TeardownPlace → Option Nat
  | .waiting i => some i
  | .idle | .starting | .marking _ | .stopLocking | .stopping _ | .checking _ | .rechecking _
  | .skipping _ | .freeLocking | .freeing _ | .releasing _ | .finishing | .deregistering
  | .bug => none

/-- No call claims a buffer that the disconnect has passed and not yet freed, and the disconnect
gives no buffer up that is still used. -/
def KeepsOut (s : TeardownState) : TeardownEvent → Prop
  | .io c _ => ∀ b ∈ (s.calls c).tests, s.busy b = false → s.teardown.passed b = false
  | .teardown => ∀ i ∈ s.teardown.awaits, s.busy i = false
  | .call _ _ _ | .interrupt _ | .disconnect => True

instance (s : TeardownState) : DecidablePred (KeepsOut s)
  | .io c _ => inferInstanceAs (Decidable (∀ b ∈ (s.calls c).tests, _ → _))
  | .teardown => inferInstanceAs (Decidable (∀ i ∈ s.teardown.awaits, _))
  | .call _ _ _ | .interrupt _ | .disconnect => isTrue trivial

/-- A request of the call may have its flag set. -/
def IoPlace.mayBeActive : IoPlace → Option Nat
  | .racing b | .clearing b | .unlinking b | .unlinkHolding b | .awaiting b | .reaping b
  | .reapHolding b => some b
  | .outside | .entering _ _ | .testing _ _ | .queued _ _ | .asleep _ _ | .claimed _
  | .submitting _ | .submitted _ | .reaped _ | .finishing _ | .closing _ | .unlocking
  | .interrupted _ => none

structure TeardownInv (s : TeardownState) : Prop where
  busy : ∀ c b, (s.calls c).holds = some b → s.busy b = true
  unique : ∀ c d b, (s.calls c).holds = some b → (s.calls d).holds = some b → c = d
  active : ∀ b, s.active b = true → ∃ c, (s.calls c).mayBeActive = some b
  passed : ∀ b, s.teardown.passed b = true → ∀ c, (s.calls c).holds ≠ some b

section

variable {s s' : TeardownState} {c : Nat} {p : IoPlace}

theorem holds_of_mayBeActive {b : Nat} (h : p.mayBeActive = some b) : p.holds = some b := by
  cases p <;> first | exact h | cases h

theorem holds_of_tests {b : Nat} (h : p.tests = some b) : p.holds = none := by
  cases p <;> first | rfl | cases h

/-- What a step of a call does: it moves on with the buffer that it holds, if any, it claims a
buffer, or gives it back, or it sets or clears the flag of its request. -/
inductive IoStep (s : TeardownState) (c : Nat) : TeardownState → Prop where
  | move (s' : TeardownState) (p : IoPlace)
      (hholds : p.holds = (s.calls c).holds)
      (hactive : ∀ b, (s.calls c).mayBeActive = some b → p.mayBeActive = some b)
      (hcalls : s'.calls = Function.update s.calls c p)
      (hsame : s'.busy = s.busy ∧ s'.active = s.active ∧ s'.teardown = s.teardown) : IoStep s c s'
  | claim (b : Nat) (hplace : (s.calls c).tests = some b) (hfree : s.busy b = false) :
      IoStep s c ((s.setBusy b true).move c (.claimed b))
  | activate (b : Nat) (hplace : s.calls c = .submitted b) :
      IoStep s c ((s.setActive b true).move c (.racing b))
  | deactivate (b : Nat) (p : IoPlace) (hplace : (s.calls c).mayBeActive = some b)
      (hp : p.holds = some b) : IoStep s c ((s.setActive b false).move c p)
  | release (b : Nat) (p : IoPlace) (hplace : (s.calls c).holds = some b)
      (hinactive : (s.calls c).mayBeActive = none) (hp : p.holds = none) :
      IoStep s c ((s.setBusy b false).move c p)

theorem ioStep_move (hholds : p.holds = (s.calls c).holds)
    (hactive : ∀ b, (s.calls c).mayBeActive = some b → p.mayBeActive = some b) :
    IoStep s c (s.move c p) :=
  .move _ p hholds hactive rfl ⟨rfl, rfl, rfl⟩

theorem ioStep_unlock (hholds : p.holds = (s.calls c).holds)
    (hactive : ∀ b, (s.calls c).mayBeActive = some b → p.mayBeActive = some b) :
    IoStep s c (s.unlock c p) :=
  .move _ p hholds hactive rfl ⟨rfl, rfl, rfl⟩

theorem ioStep_lock (h : s.lock c p = some s') (hholds : p.holds = (s.calls c).holds)
    (hactive : ∀ b, (s.calls c).mayBeActive = some b → p.mayBeActive = some b) :
    IoStep s c s' := by
  unfold TeardownState.lock at h
  by_cases hlocked : s.locked = true
  · rw [if_pos hlocked] at h
    cases h
  · rw [if_neg hlocked] at h
    cases h
    exact .move _ p hholds hactive rfl ⟨rfl, rfl, rfl⟩

theorem ioStep_cases {ok : Bool} (hstep : ioStep s c ok = some s') : IoStep s c s' := by
  unfold ioStep at hstep
  cases hplace : s.calls c with
  | outside | asleep b nonblock =>
      rw [hplace] at hstep
      cases hstep
  | entering b nonblock =>
      rw [hplace] at hstep
      exact ioStep_lock hstep (by rw [hplace]; rfl) (by rw [hplace]; exact fun _ h => h)
  | unlinking b | reaping b | finishing b =>
      rw [hplace] at hstep
      exact ioStep_lock hstep (by rw [hplace]; rfl) (by rw [hplace]; exact fun _ h => h)
  | testing b nonblock =>
      rw [hplace] at hstep
      dsimp only at hstep
      cases hbusy : s.busy b with
      | true =>
          rw [hbusy, if_pos rfl] at hstep
          cases hstep
          cases nonblock with
          | true | false =>
              exact ioStep_unlock (by rw [hplace]; rfl) (by rw [hplace]; exact fun _ h => nomatch h)
      | false =>
          rw [hbusy, if_neg Bool.false_ne_true] at hstep
          cases hstep
          exact .claim b (by rw [hplace]; rfl) hbusy
  | queued b nonblock =>
      rw [hplace] at hstep
      cases hstep
      cases s.busy b with
      | true | false =>
          exact ioStep_move (by rw [hplace]; rfl) (by rw [hplace]; exact fun _ h => nomatch h)
  | claimed b =>
      rw [hplace] at hstep
      dsimp only at hstep
      by_cases hfailed : b % 2 = 1 ∧ ok = false
      · rw [if_pos hfailed] at hstep
        cases hstep
        exact ioStep_move (by rw [hplace]; rfl) (by rw [hplace]; exact fun _ h => nomatch h)
      · rw [if_neg hfailed] at hstep
        cases hstep
        exact ioStep_unlock (by rw [hplace]; rfl) (by rw [hplace]; exact fun _ h => nomatch h)
  | submitting b =>
      rw [hplace] at hstep
      cases hstep
      cases ok with
      | true | false =>
          exact ioStep_move (by rw [hplace]; rfl) (by rw [hplace]; exact fun _ h => nomatch h)
  | submitted b =>
      rw [hplace] at hstep
      cases hstep
      exact .activate b hplace
  | racing b =>
      rw [hplace] at hstep
      cases hstep
      cases s.disconnecting b with
      | true | false => exact ioStep_move (by rw [hplace]; rfl) (by rw [hplace]; exact fun _ h => h)
  | clearing b =>
      rw [hplace] at hstep
      dsimp only at hstep
      cases hactive : s.active b with
      | true =>
          rw [hactive, if_pos rfl] at hstep
          cases hstep
          exact .deactivate b _ (by rw [hplace]; rfl) rfl
      | false =>
          rw [hactive, if_neg Bool.false_ne_true] at hstep
          cases hstep
          exact ioStep_move (by rw [hplace]; rfl) (by rw [hplace]; exact fun _ h => h)
  | unlinkHolding b =>
      rw [hplace] at hstep
      cases hstep
      exact ioStep_unlock (by rw [hplace]; rfl) (by rw [hplace]; exact fun _ h => h)
  | awaiting b =>
      rw [hplace] at hstep
      cases hstep
      exact ioStep_move (by rw [hplace]; rfl) (by rw [hplace]; exact fun _ h => h)
  | reapHolding b =>
      rw [hplace] at hstep
      cases hstep
      exact .deactivate b _ (by rw [hplace]; rfl) rfl
  | reaped b | unlocking =>
      rw [hplace] at hstep
      cases hstep
      exact ioStep_unlock (by rw [hplace]; rfl) (by rw [hplace]; exact fun _ h => nomatch h)
  | closing b | interrupted b =>
      rw [hplace] at hstep
      cases hstep
      exact .release b _ (by rw [hplace]; rfl) (by rw [hplace]; rfl) rfl

/-- A call moves, and holds no other buffer than before. -/
theorem TeardownInv.move (hinv : TeardownInv s)
    (hholds : ∀ b, p.holds = some b → (s.calls c).holds = some b)
    (hactive : ∀ b, (s.calls c).mayBeActive = some b → p.mayBeActive = some b)
    (hcalls : s'.calls = Function.update s.calls c p)
    (hsame : s'.busy = s.busy ∧ s'.active = s.active ∧ s'.teardown = s.teardown) :
    TeardownInv s' := by
  obtain ⟨hbusy, hact, htd⟩ := hsame
  have hback : ∀ d b, (s'.calls d).holds = some b → (s.calls d).holds = some b := by
    intro d b hd
    rw [hcalls] at hd
    by_cases hdc : d = c
    · rw [hdc, Function.update_self] at hd
      rw [hdc]
      exact hholds b hd
    · rw [Function.update_of_ne hdc] at hd
      exact hd
  refine ⟨fun d b hd => ?_, fun d d' b hd hd' => ?_, fun b hb => ?_, fun b hb d hd => ?_⟩
  · rw [hbusy]
    exact hinv.busy d b (hback d b hd)
  · exact hinv.unique d d' b (hback d b hd) (hback d' b hd')
  · rw [hact] at hb
    obtain ⟨d, hd⟩ := hinv.active b hb
    refine ⟨d, ?_⟩
    rw [hcalls]
    by_cases hdc : d = c
    · rw [hdc, Function.update_self]
      exact hactive b (hdc ▸ hd)
    · rw [Function.update_of_ne hdc]
      exact hd
  · rw [htd] at hb
    exact hinv.passed b hb d (hback d b hd)

/-- A free buffer is claimed that the disconnect has not passed. -/
theorem TeardownInv.claim (hinv : TeardownInv s) {b : Nat} (hplace : (s.calls c).tests = some b)
    (hfree : s.busy b = false) (hpassed : s.teardown.passed b = false) :
    TeardownInv ((s.setBusy b true).move c (.claimed b)) := by
  have hnone : ∀ d, (s.calls d).holds ≠ some b := by
    intro d hd
    rw [hinv.busy d b hd] at hfree
    cases hfree
  have hback : ∀ d b', (Function.update s.calls c (.claimed b) d).holds = some b' →
      (d = c ∧ b' = b) ∨ (s.calls d).holds = some b' := by
    intro d b' hd
    by_cases hdc : d = c
    · rw [hdc, Function.update_self] at hd
      cases hd
      exact .inl ⟨hdc, rfl⟩
    · rw [Function.update_of_ne hdc] at hd
      exact .inr hd
  refine ⟨fun d b' hd => ?_, fun d d' b' hd hd' => ?_, fun b' hb' => ?_, fun b' hb' d hd => ?_⟩
  · show Function.update s.busy b true b' = true
    by_cases hbb : b' = b
    · rw [hbb, Function.update_self]
    · rw [Function.update_of_ne hbb]
      obtain ⟨_, h⟩ | h := hback d b' hd
      · exact absurd h hbb
      · exact hinv.busy d b' h
  · obtain ⟨hd, hb'⟩ | h := hback d b' hd
    · obtain ⟨hd', _⟩ | h' := hback d' b' hd'
      · rw [hd, hd']
      · exact absurd (hb' ▸ h') (hnone d')
    · obtain ⟨_, hb'⟩ | h' := hback d' b' hd'
      · exact absurd (hb' ▸ h) (hnone d)
      · exact hinv.unique d d' b' h h'
  · obtain ⟨d, hd⟩ := hinv.active b' hb'
    refine ⟨d, ?_⟩
    have hdc : d ≠ c := by
      rintro rfl
      have hholds := holds_of_mayBeActive hd
      rw [holds_of_tests hplace] at hholds
      cases hholds
    exact (congrArg _ (Function.update_of_ne hdc _ _)).trans hd
  · obtain ⟨_, rfl⟩ | h := hback d b' hd
    · rw [show s.teardown.passed b' = true from hb'] at hpassed
      cases hpassed
    · exact hinv.passed b' hb' d h

theorem TeardownInv.activate (hinv : TeardownInv s) {b : Nat} (hplace : s.calls c = .submitted b) :
    TeardownInv ((s.setActive b true).move c (.racing b)) := by
  have hmoved : TeardownInv (s.move c (.racing b)) :=
    hinv.move (fun b' h => by rw [hplace]; exact h) (fun b' h => by rw [hplace] at h; cases h)
      rfl ⟨rfl, rfl, rfl⟩
  refine ⟨hmoved.busy, hmoved.unique, fun b' hb' => ?_, hmoved.passed⟩
  by_cases hbb : b' = b
  · refine ⟨c, ?_⟩
    rw [hbb]
    exact congrArg _ (Function.update_self _ _ _)
  · exact hmoved.active b' ((Function.update_of_ne hbb _ _).symm.trans hb')

theorem TeardownInv.deactivate (hinv : TeardownInv s) {b : Nat}
    (hplace : (s.calls c).mayBeActive = some b) (hp : p.holds = some b) :
    TeardownInv ((s.setActive b false).move c p) := by
  have hback : ∀ d b', (Function.update s.calls c p d).holds = some b' →
      (s.calls d).holds = some b' := by
    intro d b' hd
    by_cases hdc : d = c
    · rw [hdc, Function.update_self, hp] at hd
      rw [hdc, holds_of_mayBeActive hplace]
      exact hd
    · rw [Function.update_of_ne hdc] at hd
      exact hd
  refine ⟨fun d b' hd => hinv.busy d b' (hback d b' hd),
    fun d d' b' hd hd' => hinv.unique d d' b' (hback d b' hd) (hback d' b' hd'), fun b' hb' => ?_,
    fun b' hb' d hd => hinv.passed b' hb' d (hback d b' hd)⟩
  replace hb' : Function.update s.active b false b' = true := hb'
  have hbb : b' ≠ b := by
    rintro rfl
    rw [Function.update_self] at hb'
    cases hb'
  rw [Function.update_of_ne hbb] at hb'
  obtain ⟨d, hd⟩ := hinv.active b' hb'
  have hdc : d ≠ c := by
    rintro rfl
    rw [hplace] at hd
    exact hbb (Option.some.inj hd).symm
  exact ⟨d, (congrArg _ (Function.update_of_ne hdc _ _)).trans hd⟩

theorem TeardownInv.release (hinv : TeardownInv s) {b : Nat} (hplace : (s.calls c).holds = some b)
    (hinactive : (s.calls c).mayBeActive = none) (hp : p.holds = none) :
    TeardownInv ((s.setBusy b false).move c p) := by
  have hmoved : TeardownInv (s.move c p) :=
    hinv.move (fun b' h => by rw [hp] at h; cases h) (fun b' h => by rw [hinactive] at h; cases h)
      rfl ⟨rfl, rfl, rfl⟩
  refine ⟨fun d b' hd => ?_, hmoved.unique, hmoved.active, hmoved.passed⟩
  have hdc : d ≠ c := by
    rintro rfl
    replace hd : (Function.update s.calls d p d).holds = some b' := hd
    rw [Function.update_self, hp] at hd
    cases hd
  have hwas : (s.calls d).holds = some b' :=
    (congrArg _ (Function.update_of_ne hdc _ _)).symm.trans hd
  have hbb : b' ≠ b := by
    rintro rfl
    exact hdc (hinv.unique d c b' hwas hplace)
  exact (Function.update_of_ne hbb _ _).trans (hinv.busy d b' hwas)

/-- **A step of a call.** -/
theorem TeardownInv.io (hinv : TeardownInv s) {ok : Bool} (hkeeps : KeepsOut s (.io c ok))
    (hstep : ioStep s c ok = some s') : TeardownInv s' := by
  cases ioStep_cases hstep with
  | move s' p hholds hactive hcalls hsame =>
      exact hinv.move (fun b h => hholds ▸ h) hactive hcalls hsame
  | claim b hplace hfree => exact hinv.claim hplace hfree (hkeeps b hplace hfree)
  | activate b hplace => exact hinv.activate hplace
  | deactivate b p hplace hp => exact hinv.deactivate hplace hp
  | release b p hplace hinactive hp => exact hinv.release hplace hinactive hp

/-- A signal lets no call hold another buffer. -/
theorem ioInterrupt_holds (h : ioInterrupt s c = some p) :
    p.holds = (s.calls c).holds ∧ (s.calls c).mayBeActive = none := by
  unfold ioInterrupt at h
  have hif : ∀ {q : IoPlace}, (if s.locked = true then some q else none) = some p → q = p := by
    intro q hq
    by_cases hlocked : s.locked = true
    · rw [if_pos hlocked] at hq
      exact Option.some.inj hq
    · rw [if_neg hlocked] at hq
      cases hq
  cases hplace : s.calls c with
  | entering b nonblock | finishing b =>
      rw [hplace] at h
      cases hif h
      exact ⟨rfl, rfl⟩
  | asleep b nonblock =>
      rw [hplace] at h
      cases h
      exact ⟨rfl, rfl⟩
  | outside | testing _ _ | queued _ _ | claimed _ | submitting _ | submitted _ | racing _
  | clearing _ | unlinking _ | unlinkHolding _ | awaiting _ | reaping _ | reapHolding _
  | reaped _ | closing _ | unlocking | interrupted _ =>
      rw [hplace] at h
      cases h

/-! ## The steps of a disconnect -/

/-- What a step of the disconnect does to what the calls see: it clears flags of requests, and
passes a buffer only when that is free. -/
structure TeardownMoves (s s' : TeardownState) : Prop where
  calls : s'.calls = s.calls
  busy : s'.busy = s.busy
  active : ∀ b, s'.active b = true → s.active b = true
  passed : ∀ b, s'.teardown.passed b = true → s.teardown.passed b = true ∨ s.busy b = false

theorem teardownMoves_lock {p : TeardownPlace} (h : s.tdLock p = some s')
    (hpassed : ∀ b, p.passed b = true → s.teardown.passed b = true ∨ s.busy b = false) :
    TeardownMoves s s' := by
  unfold TeardownState.tdLock at h
  by_cases hlocked : s.locked = true
  · rw [if_pos hlocked] at h
    cases h
  · rw [if_neg hlocked] at h
    cases h
    exact ⟨rfl, rfl, fun _ hb => hb, hpassed⟩

theorem not_passed_stopping {b : Nat} : (TeardownPlace.stopping 0).passed b ≠ true :=
  fun h => Nat.not_lt_zero b (of_decide_eq_true (p := b < 0) h)

theorem teardownStep_moves (hkeeps : KeepsOut s .teardown)
    (hstep : teardownStep s = some s') : TeardownMoves s s' := by
  unfold teardownStep at hstep
  have hnone : ∀ {q : TeardownPlace}, (∀ b, q.passed b = false) → ∀ b, q.passed b = true →
      s.teardown.passed b = true ∨ s.busy b = false := by
    intro q hq b hb
    rw [hq b] at hb
    cases hb
  cases hplace : s.teardown with
  | idle | bug =>
      rw [hplace] at hstep
      cases hstep
  | starting | finishing =>
      rw [hplace] at hstep
      exact teardownMoves_lock hstep (hnone fun _ => rfl)
  | marking i =>
      rw [hplace] at hstep
      dsimp only at hstep
      by_cases hi : i < 2 * nHostDevices
      · rw [if_pos hi] at hstep
        cases hstep
        exact ⟨rfl, rfl, fun _ hb => hb, hnone fun _ => rfl⟩
      · rw [if_neg hi] at hstep
        cases hstep
        exact ⟨rfl, rfl, fun _ hb => hb, hnone fun _ => rfl⟩
  | stopLocking =>
      rw [hplace] at hstep
      exact teardownMoves_lock hstep fun b hb => absurd hb not_passed_stopping
  | stopping i =>
      rw [hplace] at hstep
      dsimp only at hstep
      by_cases hi : i < 2 * nHostDevices
      · rw [if_pos hi] at hstep
        cases hstep
        refine ⟨rfl, rfl, fun b hb => ?_, fun b hb => .inl (by rw [hplace]; exact hb)⟩
        replace hb : Function.update s.active i false b = true := hb
        by_cases hbi : b = i
        · rw [hbi, Function.update_self] at hb
          cases hb
        · rw [Function.update_of_ne hbi] at hb
          exact hb
      · rw [if_neg hi] at hstep
        cases hstep
        refine ⟨rfl, rfl, fun _ hb => hb, fun b hb => .inl ?_⟩
        have hb' : b < 2 * nHostDevices := by simpa [TeardownPlace.passed] using hb
        simpa [hplace, TeardownPlace.passed] using Nat.lt_of_lt_of_le hb' (Nat.not_lt.mp hi)
  | checking i =>
      rw [hplace] at hstep
      dsimp only at hstep
      cases hbusy : s.busy i with
      | true =>
          rw [hbusy, if_pos rfl] at hstep
          cases hstep
          exact ⟨rfl, rfl, fun _ hb => hb, fun b hb => .inl (by rw [hplace]; exact hb)⟩
      | false =>
          rw [hbusy, if_neg Bool.false_ne_true] at hstep
          cases hstep
          refine ⟨rfl, rfl, fun _ hb => hb, fun b hb => ?_⟩
          have hb' : b < i + 1 := by simpa [TeardownPlace.passed] using hb
          obtain hlt | rfl := Nat.lt_succ_iff_lt_or_eq.mp hb'
          · exact .inl (by simpa [hplace, TeardownPlace.passed] using hlt)
          · exact .inr hbusy
  | waiting i =>
      rw [hplace] at hstep
      have hbusy : s.busy i = false := hkeeps i (by rw [hplace]; rfl)
      dsimp only at hstep
      rw [hbusy, if_neg Bool.false_ne_true] at hstep
      cases hstep
      exact ⟨rfl, rfl, fun _ hb => hb, fun b hb => .inl (by rw [hplace]; exact hb)⟩
  | rechecking i =>
      rw [hplace] at hstep
      exact teardownMoves_lock hstep fun b hb => .inl (by rw [hplace]; exact hb)
  | skipping i =>
      rw [hplace] at hstep
      refine teardownMoves_lock hstep fun b hb => .inl ?_
      have hb' : b < i + 1 := by simpa [TeardownPlace.passed] using hb
      simpa [hplace, TeardownPlace.passed] using Nat.le_of_lt_succ hb'
  | freeLocking =>
      rw [hplace] at hstep
      refine teardownMoves_lock hstep fun b hb => .inl ?_
      have hb' : b < 2 * nHostDevices := by simpa [TeardownPlace.passed] using hb
      simpa [hplace, TeardownPlace.passed] using hb'
  | freeing i =>
      rw [hplace] at hstep
      dsimp only at hstep
      by_cases hi : i < 2 * nHostDevices
      · rw [if_pos hi] at hstep
        cases hstep
        cases s.active i with
        | true => exact ⟨rfl, rfl, fun _ hb => hb, hnone fun _ => rfl⟩
        | false =>
            exact ⟨rfl, rfl, fun _ hb => hb, fun b hb => .inl (by rw [hplace]; exact hb)⟩
      · rw [if_neg hi] at hstep
        cases hstep
        exact ⟨rfl, rfl, fun _ hb => hb, hnone fun _ => rfl⟩
  | releasing i =>
      rw [hplace] at hstep
      cases hstep
      refine ⟨rfl, rfl, fun _ hb => hb, fun b hb => .inl ?_⟩
      have hb' : i + 1 ≤ b ∧ b < 2 * nHostDevices := by simpa [TeardownPlace.passed] using hb
      simpa [hplace, TeardownPlace.passed] using
        (⟨Nat.le_of_succ_le hb'.1, hb'.2⟩ : i ≤ b ∧ b < 2 * nHostDevices)
  | deregistering =>
      rw [hplace] at hstep
      cases hstep
      exact ⟨rfl, rfl, fun _ hb => hb, hnone fun _ => rfl⟩

/-- **A step of the disconnect.** -/
theorem TeardownInv.teardown (hinv : TeardownInv s) (hmoves : TeardownMoves s s') :
    TeardownInv s' := by
  obtain ⟨hcalls, hbusy, hact, hpassed⟩ := hmoves
  refine ⟨?_, ?_, ?_, ?_⟩
  · rw [hcalls, hbusy]
    exact hinv.busy
  · rw [hcalls]
    exact hinv.unique
  · rw [hcalls]
    exact fun b hb => hinv.active b (hact b hb)
  · rw [hcalls]
    intro b hb c hc
    obtain hwas | hfree := hpassed b hb
    · exact hinv.passed b hwas c hc
    · rw [hinv.busy c b hc] at hfree
      cases hfree

/-- **A step** of a call or of the disconnect frees nothing that is used. -/
theorem hostTeardownStep_safe {e : TeardownEvent} (hinv : TeardownInv s) (hkeeps : KeepsOut s e)
    (hstep : hostTeardownSystem.step s e = some s') : TeardownInv s' ∧ FreesUnused s e := by
  cases e with
  | call c b nonblock =>
      replace hstep : (if _ then _ else _) = some s' := hstep
      by_cases hcall :
          s.calls c = .outside ∧ b < 2 * nHostDevices ∧ s.dirty = false ∧ s.usbpipe b = true
      · rw [if_pos hcall] at hstep
        cases hstep
        refine ⟨hinv.move (c := c) (fun _ h => (by cases h)) (fun b' h => ?_) rfl ⟨rfl, rfl, rfl⟩,
          trivial⟩
        rw [hcall.1] at h
        cases h
      · rw [if_neg hcall] at hstep
        cases hstep
  | io c ok => exact ⟨hinv.io hkeeps hstep, trivial⟩
  | interrupt c =>
      obtain ⟨p, hp, rfl⟩ := Option.map_eq_some_iff.mp hstep
      obtain ⟨hholds, hinactive⟩ := ioInterrupt_holds hp
      refine ⟨hinv.move (fun b h => hholds ▸ h) (fun b h => ?_) rfl ⟨rfl, rfl, rfl⟩, trivial⟩
      rw [hinactive] at h
      cases h
  | disconnect =>
      replace hstep : (if _ then _ else _) = some s' := hstep
      obtain ⟨_, hstep⟩ := Option.ite_none_right_eq_some.mp hstep
      cases hstep
      exact ⟨⟨hinv.busy, hinv.unique, hinv.active, fun _ h => (by cases h)⟩, trivial⟩
  | teardown =>
      refine ⟨hinv.teardown (teardownStep_moves hkeeps hstep), fun i hi hplace => ?_,
        fun i hi hplace => ?_⟩
      · have hpassed : s.teardown.passed i = true := by
          simpa [hplace, TeardownPlace.passed] using hi
        cases hactive : s.active i with
        | false => rfl
        | true =>
            obtain ⟨c, hc⟩ := hinv.active i hactive
            exact absurd (holds_of_mayBeActive hc) (hinv.passed i hpassed c)
      · exact hinv.passed i (by simpa [hplace, TeardownPlace.passed] using hi)

end

/-- **Disconnects**: no buffer is freed while a call uses it, and the `BUG_ON` is not reached
with an active request, in every run in which no call claims a buffer that the disconnect has
passed and the disconnect gives no buffer up that is still used. -/
theorem freesUnused_of_keepsOut {usbpipe : Nat → Bool} {openCount : Nat}
    {es : List TeardownEvent}
    (hkeeps : hostTeardownSystem.Meets KeepsOut (teardownStart usbpipe openCount) es) :
    hostTeardownSystem.Meets FreesUnused (teardownStart usbpipe openCount) es := by
  refine hostTeardownSystem.meets_imp TeardownInv
    (fun s e s' hinv hk hstep => hostTeardownStep_safe hinv hk hstep) es ?_ hkeeps
  refine ⟨fun _ _ h => ?_, fun _ _ _ h => ?_, fun _ h => ?_, fun _ h => ?_⟩
  all_goals cases h

/-- A read with its own disconnect after it. -/
theorem freesUnused_transfer : hostTeardownSystem.Meets FreesUnused (teardownStart (· == 2) 1)
    (.call 0 2 false :: List.replicate 13 (.io 0 true) ++ .disconnect ::
      List.replicate 168 .teardown) :=
  freesUnused_of_keepsOut (by decide +kernel)

/-- A reader has looked at `dirty` and at the pipe before the disconnect, and comes to claim its
buffer when the disconnect has passed it. -/
def lateReader : List TeardownEvent :=
  .call 0 2 false :: .disconnect :: List.replicate 100 .teardown ++
    List.replicate 4 (.io 0 true) ++ List.replicate 6 .teardown

/-- The URB of the late reader is freed while it is submitted. -/
theorem lateReader_freed : ¬ ∀ usbpipe openCount es,
    hostTeardownSystem.Meets FreesUnused (teardownStart usbpipe openCount) es := by
  intro h
  have hrun : (hostTeardownSystem.exec (teardownStart (· == 2) 1) lateReader).map
      (fun s => (s.teardown, (s.calls 0).holds)) = some (.releasing 2, some 2) := by
    decide +kernel
  obtain ⟨s, hexec, hs⟩ := Option.map_eq_some_iff.mp hrun
  obtain ⟨hplace, hholds⟩ := Prod.mk.inj hs
  have hstep : hostTeardownSystem.step s .teardown = teardownStep s := rfl
  unfold teardownStep at hstep
  rw [hplace] at hstep
  have hlast := (h (· == 2) 1 (lateReader ++ [.teardown])).last _ _ hexec hstep
  exact hlast.2 2 (by decide) hplace 0 hholds

end Blts.Usb
