import Blts.Lib.Lock
import Blts.Lib.Run

/-!
# The lock of the Bluetooth agent

The agent's thread polls its socket, reads a packet and handles it.  It locks the agent to test
the flag that stops it, to read, and to handle, and the calls of the agent lock it too.

A read that finds nothing is no error, and leaves no payload.  Handling what has no payload
returns with the lock held.  And the flag that stops a thread is never cleared, so that a
thread that is started later stops at once.
-/

namespace Blts.Bluetooth

open Blts.Lib

/-- `BtFuteAgentRole`. -/
inductive AgentRole where
  | master
  | slave
  | undefined
  deriving DecidableEq

/-- A call that locks the agent; `bt_fute_agent_unref` calls `bt_fute_agent_stop` and then frees
the agent. -/
inductive AgentCall where
  | ref
  | unref
  | getRole
  | setRole (role : AgentRole)
  | stop (freeing : Bool)
  deriving DecidableEq

/-- A caller of the agent, or one of its threads. -/
inductive Who where
  | caller (c : Nat)
  | thread (k : Nat)
  deriving DecidableEq

inductive AgentPlace where
  | outside
  | locking (call : AgentCall)
  | inSection (call : AgentCall)
  /-- In `pthread_join`. -/
  | joining (freeing : Bool)
  /-- In `bt_fute_agent_run`, which takes no lock. -/
  | opening
  /-- A thread that has not been started. -/
  | unborn
  | testing
  | inTest
  | polling
  | readLocking
  | reading
  | handleLocking (payload : Bool)
  | handling (payload : Bool)
  /-- The thread has ended: it has been told to stop, or a call of it has failed. -/
  | stopped
  | failed
  deriving DecidableEq

/-- The agent has been locked there, and not unlocked yet. -/
def AgentPlace.holds : AgentPlace → Bool
  | .inSection _ | .inTest | .reading | .handling _ => true
  | .outside | .locking _ | .joining _ | .opening | .unborn | .testing | .polling | .readLocking
  | .handleLocking _ | .stopped | .failed => false

/-- The place is one of a thread. -/
def AgentPlace.ofThread : AgentPlace → Bool
  | .outside | .locking _ | .inSection _ | .joining _ | .opening => false
  | .unborn | .testing | .inTest | .polling | .readLocking | .reading | .handleLocking _
  | .handling _ | .stopped | .failed => true

theorem AgentPlace.eq_inSection {p : AgentPlace} (hp : p.holds = true)
    (hkind : p.ofThread = false) : ∃ call, p = .inSection call := by
  cases p with
  | inSection call => exact ⟨call, rfl⟩
  | _ => first | exact absurd hp Bool.false_ne_true | exact absurd hkind.symm Bool.false_ne_true

theorem AgentPlace.eq_of_holds {p : AgentPlace} (hp : p.holds = true) (hkind : p.ofThread = true) :
    p = .inTest ∨ p = .reading ∨ ∃ payload, p = .handling payload := by
  cases p with
  | inTest => exact .inl rfl
  | reading => exact .inr (.inl rfl)
  | handling payload => exact .inr (.inr ⟨payload, rfl⟩)
  | _ => first | exact absurd hp Bool.false_ne_true | exact absurd hkind Bool.false_ne_true

structure AgentState where
  locked : Bool
  places : Who → AgentPlace
  threadId : Option Nat
  stop : Bool
  refCount : Int
  role : AgentRole
  hciOpen : Bool
  freed : Bool
  /-- The thread has been told to stop since it was started. -/
  stopSince : Nat → Bool

namespace AgentState

/-- After `bt_fute_agent_new`. -/
def new : AgentState where
  locked := false
  places
    | .caller _ => .outside
    | .thread _ => .unborn
  threadId := none
  stop := false
  refCount := 1
  role := .undefined
  hciOpen := false
  freed := false
  stopSince := fun _ => false

def move (s : AgentState) (w : Who) (p : AgentPlace) : AgentState :=
  { s with places := Function.update s.places w p }

def lock (s : AgentState) (w : Who) (p : AgentPlace) : Option AgentState :=
  if s.locked then none else some { s.move w p with locked := true }

def unlock (s : AgentState) (w : Who) (p : AgentPlace) : AgentState :=
  { s.move w p with locked := false }

end AgentState

inductive PollResult where
  | nothing
  | hangup
  | ready
  deriving DecidableEq

/-- What `recvmsg` does; `again` stands for `EAGAIN` and `EINTR`. -/
inductive RecvResult where
  | again
  | failed
  | data
  deriving DecidableEq

/-- The results of the calls of a thread's next step, as far as it makes them. -/
structure ThreadResults where
  poll : PollResult
  recv : RecvResult
  handled : Bool
  deriving DecidableEq

inductive AgentEvent where
  | call (c : Nat) (call : AgentCall)
  | run (c : Nat)
  /-- `bt_fute_agent_run` opens the device and starts a thread, or fails to. -/
  | start (c k : Nat) (started : Bool)
  /-- The next step in a call. -/
  | caller (c : Nat)
  | thread (k : Nat) (r : ThreadResults)
  deriving DecidableEq

/-- What a call does while it has the lock. -/
def agentSection (s : AgentState) (c : Nat) : AgentCall → AgentState
  | .ref => { s with refCount := s.refCount + 1 }.unlock (.caller c) .outside
  | .unref =>
      let s := { s with refCount := s.refCount - 1 }
      if (0 : Int) < s.refCount then s.unlock (.caller c) .outside
      else
        let s := { s with hciOpen := false }
        if s.threadId.isSome then s.unlock (.caller c) (.locking (.stop true))
        else { s with freed := true }.unlock (.caller c) .outside
  | .getRole => s.unlock (.caller c) .outside
  | .setRole role => { s with role }.unlock (.caller c) .outside
  | .stop freeing =>
      { s with stop := true, stopSince := fun _ => true }.unlock (.caller c) (.joining freeing)

def agentCallerStep (s : AgentState) (c : Nat) : Option AgentState :=
  match s.places (.caller c) with
  | .locking call => s.lock (.caller c) (.inSection call)
  | .inSection call => some (agentSection s c call)
  | .joining freeing =>
      if s.threadId.all fun k =>
          s.places (.thread k) = .stopped || s.places (.thread k) = .failed then
        some ({ s with threadId := none, freed := s.freed || freeing }.move (.caller c) .outside)
      else none
  | _ => none

/-- `bt_fute_run_thread`. -/
def agentThreadStep (s : AgentState) (k : Nat) (r : ThreadResults) : Option AgentState :=
  match s.places (.thread k) with
  | .testing => s.lock (.thread k) .inTest
  | .inTest => some (s.unlock (.thread k) (if s.stop then .stopped else .polling))
  | .polling =>
      match r.poll with
      | .nothing => some (s.move (.thread k) .testing)
      | .hangup => some (s.move (.thread k) .failed)
      | .ready => some (s.move (.thread k) .readLocking)
  | .readLocking => s.lock (.thread k) .reading
  | .reading =>
      if s.hciOpen = false then some (s.unlock (.thread k) .failed)
      else
        match r.recv with
        | .again => some (s.unlock (.thread k) (.handleLocking false))
        | .failed => some (s.unlock (.thread k) .failed)
        | .data => some (s.unlock (.thread k) (.handleLocking true))
  | .handleLocking payload => s.lock (.thread k) (.handling payload)
  | .handling false =>
      -- the early return of `bt_fute_agent_handle_data` does not unlock
      some (s.move (.thread k) .testing)
  | .handling true => some (s.unlock (.thread k) (if r.handled then .testing else .failed))
  | _ => none

def agentStep (s : AgentState) : AgentEvent → Option AgentState
  | .call c call =>
      if s.freed = false ∧ s.places (.caller c) = .outside then
        some (s.move (.caller c) (.locking call))
      else none
  | .run c =>
      if s.freed = false ∧ s.places (.caller c) = .outside then
        if s.threadId.isSome then some s else some (s.move (.caller c) .opening)
      else none
  | .start c k started =>
      if s.places (.caller c) = .opening ∧ s.places (.thread k) = .unborn then
        if started then
          some (({ s with
            threadId := some k
            hciOpen := true
            stopSince := Function.update s.stopSince k false }.move
              (.caller c) .outside).move (.thread k) .testing)
        else some (s.move (.caller c) .outside)
      else none
  | .caller c => agentCallerStep s c
  | .thread k r => agentThreadStep s k r

def agents : System AgentState AgentEvent := ⟨agentStep⟩

/-! ## What the lock and the flag are for -/

def AgentEvent.who : AgentEvent → Who
  | .call c _ => .caller c
  | .run c => .caller c
  | .start c _ _ => .caller c
  | .caller c => .caller c
  | .thread k _ => .thread k

/-- Somebody has the lock if it is not free, and unlocks it with the next step. -/
def Released (s : AgentState) : Prop :=
  s.locked = true → ∃ w, (s.places w).holds = true ∧
    ∃ e s', e.who = w ∧ agentStep s e = some s' ∧ s'.locked = false

/-- No thread has stopped that has not been told to since it was started. -/
def Serving (s : AgentState) : Prop :=
  ∀ k, s.places (.thread k) = .stopped → s.stopSince k = true

/-- No read finds nothing, and no thread is started once the flag is set. -/
def Fresh (s : AgentState) : AgentEvent → Prop
  | .thread k r => s.places (.thread k) = .reading → s.hciOpen = true → r.recv ≠ .again
  | .start _ _ started => started = true → s.stop = false
  | .call _ _ => True
  | .run _ => True
  | .caller _ => True

instance : ∀ (s : AgentState) (e : AgentEvent), Decidable (Fresh s e)
  | _, .thread _ _ => by unfold Fresh; infer_instance
  | _, .start _ _ _ => by unfold Fresh; infer_instance
  | _, .call _ _ => .isTrue trivial
  | _, .run _ => .isTrue trivial
  | _, .caller _ => .isTrue trivial

/-- What holds of a thread at a place, with the flag, and whether the thread has been told to stop
since it was started. -/
structure ThreadOk (stop since : Bool) (p : AgentPlace) : Prop where
  kind : p.ofThread = true
  payload : p ≠ .handleLocking false ∧ p ≠ .handling false
  stopped : p = .stopped → since = true
  flag : stop = true → p ≠ .unborn → since = true

def PlaceOk (s : AgentState) : Who → AgentPlace → Prop
  | .caller _, p => p.ofThread = false
  | .thread k, p => ThreadOk s.stop (s.stopSince k) p

structure AgentInv (s : AgentState) : Prop where
  held : LockHeld (fun p : AgentPlace => p.holds = true) s.locked s.places
  owned : Owned (fun p : AgentPlace => p.holds = true) s.locked s.places
  places : ∀ w, PlaceOk s w (s.places w)

theorem agentInv_new : AgentInv .new where
  held := by
    have hnone : ∀ w, ¬ (AgentState.new.places w).holds = true := by
      intro w
      cases w with
      | caller c => exact Bool.false_ne_true
      | thread k => exact Bool.false_ne_true
    exact ⟨fun w hw => absurd hw (hnone w), fun w _ hw => absurd hw (hnone w)⟩
  owned := owned_free _ _
  places
    | .caller _ => rfl
    | .thread _ => ⟨rfl, ⟨fun h => (nomatch h), fun h => (nomatch h)⟩, fun h => (nomatch h),
        fun h => (nomatch h)⟩

/-! ## Steps -/

namespace AgentInv

variable {s : AgentState}

/-- Where a thread has gone, and what has become of the lock. -/
theorem relocate (h : AgentInv s) {w : Who} {p : AgentPlace} {locked : Bool}
    (hheld : LockHeld (fun p : AgentPlace => p.holds = true) locked
      (Function.update s.places w p))
    (howned : Owned (fun p : AgentPlace => p.holds = true) locked (Function.update s.places w p))
    (hok : PlaceOk s w p) :
    AgentInv { s with places := Function.update s.places w p, locked } := by
  refine ⟨hheld, howned, fun w' => ?_⟩
  have hplace : PlaceOk s w' (Function.update s.places w p w') := by
    by_cases hw : w' = w
    · rw [hw, Function.update_self]
      exact hok
    · rw [Function.update_of_ne hw]
      exact h.places w'
  cases w' with
  | caller c => exact hplace
  | thread k => exact hplace

/-- A step that neither takes the lock nor gives it back. -/
theorem move (h : AgentInv s) {w : Who} {p : AgentPlace} (hp : p.holds = (s.places w).holds)
    (hok : PlaceOk s w p) : AgentInv (s.move w p) :=
  h.relocate (h.held.move fun hheld => hp ▸ hheld) (h.owned.move fun hheld => hp.symm ▸ hheld) hok

theorem lock (h : AgentInv s) {w : Who} {p : AgentPlace} (hp : p.holds = true)
    (hok : PlaceOk s w p) {s' : AgentState}
    (hlock : s.lock w p = some s') : AgentInv s' := by
  unfold AgentState.lock at hlock
  split at hlock
  · cases hlock
  next hfree =>
    cases hlock
    have hheld := h.held
    rw [Bool.eq_false_iff.mpr hfree] at hheld
    exact h.relocate (hheld.take w p) (Owned.take s.places w hp) hok

theorem unlock (h : AgentInv s) {w : Who} {p : AgentPlace} (hw : (s.places w).holds = true)
    (hp : p.holds = false) (hok : PlaceOk s w p) :
    AgentInv (s.unlock w p) :=
  h.relocate (h.held.drop hw (fun hheld => Bool.false_ne_true (hp.symm.trans hheld)))
    (owned_free _ _) hok

theorem thread (h : AgentInv s) (k : Nat) :
    ThreadOk s.stop (s.stopSince k) (s.places (.thread k)) :=
  h.places (.thread k)

/-- What the other fields are does not matter, as long as the flag and the threads agree. -/
theorem fields (h : AgentInv s) (threadId : Option Nat) (refCount : Int) (role : AgentRole)
    (hciOpen freed : Bool) : AgentInv { s with threadId, refCount, role, hciOpen, freed } :=
  ⟨h.held, h.owned, fun
    | .caller c => h.places (.caller c)
    | .thread k => h.places (.thread k)⟩

theorem setStop (h : AgentInv s) :
    AgentInv { s with stop := true, stopSince := fun _ => true } :=
  ⟨h.held, h.owned, fun
    | .caller c => h.places (.caller c)
    | .thread k => ⟨(h.thread k).kind, (h.thread k).payload, fun _ => rfl, fun _ _ => rfl⟩⟩

theorem callSection (h : AgentInv s) {c : Nat} {call : AgentCall}
    (hplace : s.places (.caller c) = .inSection call) : AgentInv (agentSection s c call) := by
  have hholds : (s.places (.caller c)).holds = true := by rw [hplace]; rfl
  cases call with
  | ref =>
      exact (h.fields s.threadId (s.refCount + 1) s.role s.hciOpen s.freed).unlock hholds rfl
        rfl
  | unref =>
      unfold agentSection
      dsimp only
      split
      · exact (h.fields s.threadId (s.refCount - 1) s.role s.hciOpen s.freed).unlock hholds rfl
          rfl
      · split
        · exact (h.fields s.threadId (s.refCount - 1) s.role false s.freed).unlock hholds rfl
            rfl
        · exact (h.fields s.threadId (s.refCount - 1) s.role false true).unlock hholds rfl
            rfl
  | getRole => exact h.unlock hholds rfl rfl
  | setRole role =>
      exact (h.fields s.threadId s.refCount role s.hciOpen s.freed).unlock hholds rfl rfl
  | stop freeing => exact h.setStop.unlock hholds rfl rfl

theorem callerStep (h : AgentInv s) {c : Nat} {s' : AgentState}
    (hstep : agentCallerStep s c = some s') : AgentInv s' := by
  unfold agentCallerStep at hstep
  split at hstep
  next call hplace => exact h.lock (w := .caller c) (p := .inSection call) rfl rfl hstep
  next call hplace =>
    cases hstep
    exact h.callSection hplace
  next freeing hplace =>
    split at hstep
    · cases hstep
      have hholds : AgentPlace.outside.holds = (s.places (.caller c)).holds := by
        rw [hplace]
        rfl
      exact (h.fields none s.refCount s.role s.hciOpen (s.freed || freeing)).move hholds rfl
    · cases hstep
  · cases hstep

theorem start (h : AgentInv s) {c k : Nat} (hc : s.places (.caller c) = .opening)
    (hk : s.places (.thread k) = .unborn) (hstop : s.stop = false) :
    AgentInv (({ s with
      threadId := some k
      hciOpen := true
      stopSince := Function.update s.stopSince k false }.move
        (.caller c) .outside).move (.thread k) .testing) := by
  have hfresh : AgentInv { s with stopSince := Function.update s.stopSince k false } := by
    refine ⟨h.held, h.owned, fun w => ?_⟩
    cases w with
    | caller c' => exact h.places (.caller c')
    | thread k' =>
        show ThreadOk s.stop (Function.update s.stopSince k false k') (s.places (.thread k'))
        by_cases hkk : k' = k
        · rw [hkk, hk]
          exact ⟨rfl, by decide, fun h => (nomatch h), fun _ hborn => absurd rfl hborn⟩
        · rw [Function.update_of_ne hkk]
          exact h.thread k'
  have hopen := hfresh.fields (some k) s.refCount s.role true s.freed
  have hcaller := hopen.move (w := .caller c) (p := .outside) (by
    show _ = (s.places (.caller c)).holds
    rw [hc]
    rfl) rfl
  refine hcaller.move (w := .thread k) (p := .testing) ?_ ?_
  · have hne : Who.thread k ≠ .caller c := fun h => (nomatch h)
    show _ = (Function.update s.places (.caller c) .outside (.thread k)).holds
    rw [Function.update_of_ne hne, hk]
    rfl
  · exact ⟨rfl, by decide, fun h => (nomatch h), fun hflag =>
      absurd (hstop.symm.trans hflag) Bool.noConfusion⟩

/-- The places in the loop of a thread that is not told to stop. -/
theorem thread_ok (h : AgentInv s) {k : Nat} (hborn : s.places (.thread k) ≠ .unborn)
    {p : AgentPlace} (hkind : p.ofThread = true)
    (hpayload : p ≠ .handleLocking false ∧ p ≠ .handling false)
    (hstopped : p = .stopped → s.stop = true) : PlaceOk s (.thread k) p :=
  ⟨hkind, hpayload, fun hp => (h.thread k).flag (hstopped hp) hborn,
    fun hflag _ => (h.thread k).flag hflag hborn⟩

theorem goesOn (h : AgentInv s) {k : Nat} (hborn : s.places (.thread k) ≠ .unborn)
    {p : AgentPlace} (hkind : p.ofThread = true)
    (hpayload : p ≠ .handleLocking false ∧ p ≠ .handling false)
    (hp : p ≠ .stopped) : PlaceOk s (.thread k) p :=
  h.thread_ok hborn hkind hpayload fun heq => absurd heq hp

/-- **The thread's steps**, with no read that finds nothing. -/
theorem threadStep (h : AgentInv s) {k : Nat} {r : ThreadResults}
    (hfresh : s.places (.thread k) = .reading → s.hciOpen = true → r.recv ≠ .again)
    {s' : AgentState} (hstep : agentThreadStep s k r = some s') : AgentInv s' := by
  unfold agentThreadStep at hstep
  have hok := (h.thread k).payload
  split at hstep
  next hplace =>
    exact h.lock rfl (h.goesOn (by rw [hplace]; decide) rfl (by decide) (by decide)) hstep
  next hplace =>
    cases hstep
    refine h.unlock (by rw [hplace]; rfl) (by split <;> rfl)
      (h.thread_ok (by rw [hplace]; decide) (by split <;> rfl) (by split <;> decide) ?_)
    split
    next hstop => exact fun _ => hstop
    · exact fun h => (nomatch h)
  next hplace =>
    have hborn : s.places (.thread k) ≠ .unborn := by rw [hplace]; decide
    split at hstep
    all_goals
      cases hstep
      exact h.move (by rw [hplace]; rfl) (h.goesOn hborn rfl (by decide) (by decide))
  next hplace =>
    exact h.lock rfl (h.goesOn (by rw [hplace]; decide) rfl (by decide) (by decide)) hstep
  next hplace =>
    have hborn : s.places (.thread k) ≠ .unborn := by rw [hplace]; decide
    have hholds : (s.places (.thread k)).holds = true := by rw [hplace]; rfl
    split at hstep
    · cases hstep
      exact h.unlock hholds rfl (h.goesOn hborn rfl (by decide) (by decide))
    next hopen =>
      split at hstep
      next hagain => exact absurd hagain (hfresh hplace (Bool.not_eq_false _ ▸ hopen))
      · cases hstep
        exact h.unlock hholds rfl (h.goesOn hborn rfl (by decide) (by decide))
      · cases hstep
        exact h.unlock hholds rfl (h.goesOn hborn rfl (by decide) (by decide))
  next payload hplace =>
    cases payload with
    | false => exact absurd hplace hok.1
    | true =>
        exact h.lock rfl (h.goesOn (by rw [hplace]; decide) rfl (by decide) (by decide)) hstep
  next hplace => exact absurd hplace hok.2
  next hplace =>
    cases hstep
    exact h.unlock (by rw [hplace]; rfl) (by split <;> rfl)
      (h.goesOn (by rw [hplace]; decide) (by split <;> rfl) (by split <;> decide)
        (by split <;> decide))
  · cases hstep

theorem step (h : AgentInv s) {e : AgentEvent} (hfresh : Fresh s e) {s' : AgentState}
    (hstep : agentStep s e = some s') : AgentInv s' := by
  cases e with
  | call c call =>
      unfold agentStep at hstep
      dsimp only at hstep
      split at hstep
      next hplace =>
        cases hstep
        exact h.move (by rw [hplace.2]; rfl) rfl
      · cases hstep
  | run c =>
      unfold agentStep at hstep
      dsimp only at hstep
      split at hstep
      next hplace =>
        split at hstep
        · cases hstep
          exact h
        · cases hstep
          exact h.move (by rw [hplace.2]; rfl) rfl
      · cases hstep
  | start c k started =>
      unfold agentStep at hstep
      dsimp only at hstep
      split at hstep
      next hplace =>
        split at hstep
        next hstarted =>
          cases hstep
          exact h.start hplace.1 hplace.2 (hfresh hstarted)
        · cases hstep
          exact h.move (by rw [hplace.1]; rfl) rfl
      · cases hstep
  | caller c => exact h.callerStep hstep
  | thread k r => exact h.threadStep hfresh hstep

theorem section_unlocks (s : AgentState) (c : Nat) (call : AgentCall) :
    (agentSection s c call).locked = false := by
  cases call with
  | ref => rfl
  | unref =>
      unfold agentSection
      dsimp only
      split
      · rfl
      · split <;> rfl
  | getRole => rfl
  | setRole role => rfl
  | stop freeing => rfl

/-- Who has the lock gives it back with the next step. -/
theorem released (h : AgentInv s) : Released s := by
  intro hlocked
  obtain ⟨w, hw⟩ := h.owned hlocked
  refine ⟨w, hw, ?_⟩
  have hplace := h.places w
  cases w with
  | caller c =>
      obtain ⟨call, hcall⟩ := AgentPlace.eq_inSection hw hplace
      have hstep : agentCallerStep s c = some (agentSection s c call) := by
        unfold agentCallerStep
        rw [hcall]
      exact ⟨.caller c, _, rfl, hstep, section_unlocks s c call⟩
  | thread k =>
      have hstep : ∃ s', agentThreadStep s k ⟨.nothing, .data, true⟩ = some s' ∧
          s'.locked = false := by
        unfold agentThreadStep
        rcases AgentPlace.eq_of_holds hw (h.thread k).kind with hp | hp | ⟨payload, hp⟩
        · rw [hp]
          exact ⟨_, rfl, rfl⟩
        · rw [hp]
          dsimp only
          split <;> exact ⟨_, rfl, rfl⟩
        · cases payload with
          | false => exact absurd hp (h.thread k).payload.2
          | true =>
              rw [hp]
              exact ⟨_, rfl, rfl⟩
      obtain ⟨s', hstep, hfree⟩ := hstep
      exact ⟨.thread k ⟨.nothing, .data, true⟩, s', rfl, hstep, hfree⟩

end AgentInv

/-- **The agent's lock and flag**: as long as no read finds nothing, and no thread is started after
a stop, the lock has an owner that gives it back, and a thread runs until the next stop. -/
theorem released_of_fresh {es : List AgentEvent} (hfresh : agents.Meets Fresh .new es)
    {s : AgentState} (hexec : agents.exec .new es = some s) : Released s ∧ Serving s := by
  have hinv : AgentInv s :=
    agents.exec_invariant AgentInv (fun _ _ _ h hfresh hstep => h.step hfresh hstep) es
      agentInv_new hfresh hexec
  exact ⟨hinv.released, fun k => (hinv.thread k).stopped⟩

/-- A thread that is started, handles a packet, and is stopped. -/
def servedAgent : List AgentEvent :=
  [.run 0, .start 0 0 true, .thread 0 ⟨.ready, .data, true⟩, .thread 0 ⟨.ready, .data, true⟩,
    .thread 0 ⟨.ready, .data, true⟩, .thread 0 ⟨.ready, .data, true⟩,
    .thread 0 ⟨.ready, .data, true⟩, .thread 0 ⟨.ready, .data, true⟩,
    .thread 0 ⟨.ready, .data, true⟩, .call 0 (.stop false), .caller 0, .caller 0,
    .thread 0 ⟨.ready, .data, true⟩, .thread 0 ⟨.ready, .data, true⟩, .caller 0, .call 0 .unref,
    .caller 0]

theorem released_servedAgent :
    ∃ s, agents.exec .new servedAgent = some s ∧ s.locked = true ∧ Released s ∧ Serving s := by
  have hrun : (agents.exec .new servedAgent).map (·.locked) = some true := by decide +kernel
  obtain ⟨s, hs, hlocked⟩ := Option.map_eq_some_iff.mp hrun
  exact ⟨s, hs, hlocked, released_of_fresh (by decide +kernel) hs⟩

/-- A read that finds nothing: the lock is kept, and its thread is back at the test of the flag,
where it waits for the lock.  A run after a stop: the thread stops, and has not been told to. -/
theorem emptyRead_locks :
    (agents.exec .new [.run 0, .start 0 0 true, .thread 0 ⟨.ready, .again, true⟩,
      .thread 0 ⟨.ready, .again, true⟩, .thread 0 ⟨.ready, .again, true⟩,
      .thread 0 ⟨.ready, .again, true⟩, .thread 0 ⟨.ready, .again, true⟩,
      .thread 0 ⟨.ready, .again, true⟩, .thread 0 ⟨.ready, .again, true⟩]).map
      (fun s => (s.locked, s.places (.thread 0))) = some (true, .testing) ∧
    (agents.exec .new [.run 0, .start 0 0 true, .call 0 (.stop false), .caller 0, .caller 0,
      .thread 0 ⟨.nothing, .data, true⟩, .thread 0 ⟨.nothing, .data, true⟩, .caller 0, .run 0,
      .start 0 1 true, .thread 1 ⟨.nothing, .data, true⟩, .thread 1 ⟨.nothing, .data, true⟩]).map
      (fun s => (s.places (.thread 1), s.stopSince 1)) = some (.stopped, false) := by
  decide +kernel

end Blts.Bluetooth
