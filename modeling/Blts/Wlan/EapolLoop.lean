import Mathlib.Algebra.Group.Nat.Defs
import Mathlib.Logic.Function.Basic
import Blts.Lib.Run

/-!
# The thread of the EAPOL loop

`eapol_loop_run` and `eapol_loop_unref` count the users of one thread under
`loop_state_lock`, and the thread takes the same lock twice in each turn of its
loop.  The last `eapol_loop_unref` cancels the thread and joins it with the lock
held.  The cancellation is deferred: it is acted upon in `select` and while the end of
the loop is logged, and not where the thread waits for the lock.

A section under the lock that does not block is one step.
-/

namespace Blts.Wlan

open Blts.Lib

/-- Where the thread of the loop is: in front of one of its three
`pthread_mutex_lock`, in `select`, at the end of the loop, or gone. -/
inductive ThreadPlace where
  | loopLock
  | selecting
  | readLock
  | terminating
  | exitLock
  | ended
  deriving DecidableEq

/-- The thread waits for `loop_state_lock`. -/
def ThreadPlace.waitsForLock : ThreadPlace → Bool
  | .loopLock | .readLock | .exitLock => true
  | .selecting | .terminating | .ended => false

/-- A cancellation may be acted upon. -/
def ThreadPlace.cancellable : ThreadPlace → Bool
  | .selecting | .terminating => true
  | .loopLock | .readLock | .exitLock | .ended => false

/-- A thread, and whether `pthread_cancel` has been called for it. -/
structure EapolThread where
  place : ThreadPlace
  cancelled : Bool
  deriving DecidableEq

/-- The calls on the loop. -/
inductive LoopCall where
  | run
  | unref
  deriving DecidableEq

/-- Where a caller is: outside, in front of the `pthread_mutex_lock` of its call, or
in `pthread_join` with the lock held. -/
inductive CallerPlace where
  | outside
  | locking (call : LoopCall)
  | joining (tid : Nat)
  deriving DecidableEq

/-- `loop_state` with its lock, all threads that have been created, and the
callers. -/
structure EapolLoop (C : Type*) where
  /-- who holds `loop_state_lock` between two steps -/
  lock : Option C
  refcnt : Nat
  loopTid : Option Nat
  created : Nat
  threads : Nat → EapolThread
  callers : C → CallerPlace

/-- What `select` comes back with: a frame to read, nothing to read (`EAGAIN`
included), or an error or a signal. -/
inductive SelectResult where
  | ready
  | nothing
  | failed
  deriving DecidableEq

/-- One step of one caller or of one thread. -/
inductive LoopEvent (C : Type*) where
  | call (c : C) (call : LoopCall)
  /-- `eapol_loop_run`; `initOk` says whether the socket and the thread can be set up -/
  | run (c : C) (initOk : Bool)
  | unref (c : C)
  | joined (c : C)
  /-- the section at the top of the loop -/
  | loopTop (t : Nat)
  /-- the cancellation is acted upon -/
  | cancel (t : Nat)
  | selected (t : Nat) (result : SelectResult)
  /-- `eapol_sock_handle_read`, and whether its result is not negative -/
  | handleRead (t : Nat) (ok : Bool)
  /-- the end of the loop has been logged -/
  | logged (t : Nat)
  /-- the section after the loop -/
  | exit (t : Nat)
  deriving DecidableEq

namespace EapolLoop

variable {C : Type*} [DecidableEq C]

/-- Nothing has been called. -/
def initial : EapolLoop C where
  lock := none
  refcnt := 0
  loopTid := none
  created := 0
  threads _ := ⟨.ended, false⟩
  callers _ := .outside

def setCaller (s : EapolLoop C) (c : C) (place : CallerPlace) : EapolLoop C :=
  { s with callers := Function.update s.callers c place }

def setThread (s : EapolLoop C) (t : Nat) (thread : EapolThread) : EapolLoop C :=
  { s with threads := Function.update s.threads t thread }

def moveThread (s : EapolLoop C) (t : Nat) (place : ThreadPlace) : EapolLoop C :=
  s.setThread t { s.threads t with place := place }

/-- `eapol_loop_init`: the thread is created unless there is one already. -/
def eapolLoopInit (s : EapolLoop C) (initOk : Bool) : Bool × EapolLoop C :=
  if initOk ∧ s.loopTid = none then
    (true, { s.setThread s.created ⟨.loopLock, false⟩ with
      loopTid := some s.created
      created := s.created + 1 })
  else (false, s)

/-- `eapol_loop_run` under the lock. -/
def eapolLoopRun (s : EapolLoop C) (initOk : Bool) : EapolLoop C :=
  if s.refcnt = 0 then
    let (ok, s) := s.eapolLoopInit initOk
    if ok then { s with refcnt := (s.refcnt + 1) % 2 ^ 32 } else s
  else { s with refcnt := (s.refcnt + 1) % 2 ^ 32 }

/-- `eapol_loop_destroy` up to `pthread_join`. -/
def eapolLoopDestroy (s : EapolLoop C) (c : C) : EapolLoop C :=
  match s.loopTid with
  | none => s.setCaller c .outside
  | some t =>
      { (s.setThread t { s.threads t with cancelled := true }).setCaller c (.joining t) with
        lock := some c }

/-- `eapol_loop_unref` under the lock, up to `pthread_join`. -/
def eapolLoopUnref (s : EapolLoop C) (c : C) : EapolLoop C :=
  if s.refcnt = 0 then s.setCaller c .outside
  else if s.refcnt - 1 = 0 then { s with refcnt := 0 }.eapolLoopDestroy c
  else { s with refcnt := s.refcnt - 1 }.setCaller c .outside

end EapolLoop

/-- Where the thread goes on after `select`. -/
def SelectResult.next : SelectResult → ThreadPlace
  | .ready => .readLock
  | .nothing => .loopLock
  | .failed => .terminating

/-- The callers `C` and the threads of the loop. -/
def eapolLoop (C : Type*) [DecidableEq C] : System (EapolLoop C) (LoopEvent C) where
  step s e :=
    match e with
    | .call c call =>
        if s.callers c = .outside then some (s.setCaller c (.locking call)) else none
    | .run c initOk =>
        if s.callers c = .locking .run ∧ s.lock = none then
          some ((s.eapolLoopRun initOk).setCaller c .outside)
        else none
    | .unref c =>
        if s.callers c = .locking .unref ∧ s.lock = none then some (s.eapolLoopUnref c)
        else none
    | .joined c =>
        match s.callers c with
        | .joining t =>
            if (s.threads t).place = .ended then
              some { s.setCaller c .outside with loopTid := none, lock := none }
            else none
        | _ => none
    | .loopTop t =>
        if (s.threads t).place = .loopLock ∧ s.lock = none then
          some (s.moveThread t .selecting)
        else none
    | .cancel t =>
        if (s.threads t).place.cancellable = true ∧ (s.threads t).cancelled = true then
          some (s.moveThread t .ended)
        else none
    | .selected t result =>
        if (s.threads t).place = .selecting then some (s.moveThread t result.next) else none
    | .handleRead t ok =>
        if (s.threads t).place = .readLock ∧ s.lock = none then
          some (s.moveThread t (if ok then .loopLock else .terminating))
        else none
    | .logged t =>
        if (s.threads t).place = .terminating then some (s.moveThread t .exitLock) else none
    | .exit t =>
        if (s.threads t).place = .exitLock ∧ s.lock = none then
          some { s.moveThread t .ended with loopTid := none }
        else none

/-- A caller holds the lock and joins a thread that waits for the lock. -/
def EapolLoop.Deadlocked {C : Type*} (s : EapolLoop C) : Prop :=
  ∃ c t, s.lock = some c ∧ s.callers c = .joining t ∧
    (s.threads t).place.waitsForLock = true

section

variable {C : Type*} [DecidableEq C]

/-- The step leads to no deadlock. -/
def AvoidsDeadlock (s : EapolLoop C) (e : LoopEvent C) : Prop :=
  ∀ s', (eapolLoop C).step s e = some s' → ¬ s'.Deadlocked

/-- The last `eapol_loop_unref` finds no thread that is about to take the lock, and a
thread that is cancelled does not go on from a place where that can be acted upon. -/
def CancelsAtOnce (s : EapolLoop C) : LoopEvent C → Prop
  | .unref _ => s.refcnt = 1 → ∀ t ∈ s.loopTid, (s.threads t).place.waitsForLock = false
  | .selected t result =>
      (s.threads t).cancelled = true → result.next.waitsForLock = false
  | .logged t => (s.threads t).cancelled = false
  | _ => True

/-- Where no deadlock is, the threads that are cancelled are those that are joined with
the lock held. -/
structure LoopInv (s : EapolLoop C) : Prop where
  free : ¬ s.Deadlocked
  holder : ∀ c t, s.callers c = .joining t → s.lock = some c
  cancelled : ∀ c t, s.callers c = .joining t → (s.threads t).cancelled = true
  joined : ∀ t, (s.threads t).cancelled = true →
    (s.threads t).place = .ended ∨ ∃ c, s.callers c = .joining t

omit [DecidableEq C] in
theorem initial_loopInv : LoopInv (EapolLoop.initial : EapolLoop C) := by
  constructor
  case free =>
    rintro ⟨c, t, hlock, _⟩
    cases hlock
  case holder => exact fun c t h => (by cases h)
  case cancelled => exact fun c t h => (by cases h)
  case joined => exact fun t _ => .inl rfl

section

variable {s : EapolLoop C} (h : LoopInv s)
include h

omit [DecidableEq C] in
/-- With a free lock nobody joins. -/
theorem LoopInv.not_joining (hlock : s.lock = none) (c : C) (t : Nat) :
    s.callers c ≠ .joining t := by
  intro hjoining
  have hheld := h.holder c t hjoining
  rw [hlock] at hheld
  cases hheld

omit [DecidableEq C] in
/-- With a free lock every thread that has been cancelled is gone. -/
theorem LoopInv.ended (hlock : s.lock = none) {t : Nat}
    (hcancelled : (s.threads t).cancelled = true) : (s.threads t).place = .ended := by
  cases h.joined t hcancelled with
  | inl hended => exact hended
  | inr hjoined =>
      obtain ⟨c, hc⟩ := hjoined
      exact absurd hc (h.not_joining hlock c t)

/-! ## The steps of a thread -/

omit [DecidableEq C] in
/-- A thread runs into a deadlock if it waits for the lock once it is cancelled. -/
theorem LoopInv.moveThread_deadlocked {t : Nat} (hplace : (s.threads t).place ≠ .ended)
    (place : ThreadPlace) : (s.moveThread t place).Deadlocked ↔
      (s.threads t).cancelled = true ∧ place.waitsForLock = true := by
  constructor
  · rintro ⟨c, t', hlock, hjoining, hwaits⟩
    by_cases ht : t' = t
    · rw [ht] at hjoining hwaits
      refine ⟨h.cancelled c t hjoining, ?_⟩
      have hself : (s.moveThread t place).threads t = { s.threads t with place := place } :=
        Function.update_self _ _ _
      rwa [hself] at hwaits
    · have hother : (s.moveThread t place).threads t' = s.threads t' :=
        Function.update_of_ne ht _ _
      rw [hother] at hwaits
      exact absurd ⟨c, t', hlock, hjoining, hwaits⟩ h.free
  · rintro ⟨hcancelled, hwaits⟩
    cases h.joined t hcancelled with
    | inl hended => exact absurd hended hplace
    | inr hjoined =>
        obtain ⟨c, hc⟩ := hjoined
        refine ⟨c, t, h.holder c t hc, hc, ?_⟩
        show (Function.update s.threads t { s.threads t with place := place } t).place.waitsForLock
          = true
        rw [Function.update_self]
        exact hwaits

omit [DecidableEq C] in
theorem LoopInv.moveThread {t : Nat} (hplace : (s.threads t).place ≠ .ended)
    {place : ThreadPlace} (hfree : ¬ (s.moveThread t place).Deadlocked) :
    LoopInv (s.moveThread t place) := by
  have hcancelled (t' : Nat) : ((s.moveThread t place).threads t').cancelled =
      (s.threads t').cancelled := by
    by_cases ht : t' = t
    · rw [ht]
      show (Function.update s.threads t { s.threads t with place := place } t).cancelled = _
      rw [Function.update_self]
    · show (Function.update s.threads t { s.threads t with place := place } t').cancelled = _
      rw [Function.update_of_ne ht]
  constructor
  case free => exact hfree
  case holder => exact h.holder
  case cancelled =>
    intro c t' hjoining
    rw [hcancelled]
    exact h.cancelled c t' hjoining
  case joined =>
    intro t' hc
    rw [hcancelled] at hc
    by_cases ht : t' = t
    · rw [ht] at hc ⊢
      exact .inr ((h.joined t hc).resolve_left hplace)
    · show (Function.update s.threads t { s.threads t with place := place } t').place = .ended ∨ _
      rw [Function.update_of_ne ht]
      exact h.joined t' hc

/-! ## The steps of a caller -/

/-- A caller that joins nobody, before and after. -/
theorem LoopInv.setCaller {c : C} {place : CallerPlace}
    (hbefore : ∀ t, s.callers c ≠ .joining t) (hafter : ∀ t, place ≠ .joining t) :
    LoopInv (s.setCaller c place) := by
  have hcallers (d : C) (t : Nat) : (s.setCaller c place).callers d = .joining t ↔
      s.callers d = .joining t := by
    by_cases hd : d = c
    · rw [hd]
      show Function.update s.callers c place c = _ ↔ _
      rw [Function.update_self]
      exact iff_of_false (hafter t) (hbefore t)
    · show Function.update s.callers c place d = _ ↔ _
      rw [Function.update_of_ne hd]
  constructor
  case free =>
    rintro ⟨d, t, hlock, hjoining, hwaits⟩
    exact h.free ⟨d, t, hlock, (hcallers d t).mp hjoining, hwaits⟩
  case holder => exact fun d t hd => h.holder d t ((hcallers d t).mp hd)
  case cancelled => exact fun d t hd => h.cancelled d t ((hcallers d t).mp hd)
  case joined =>
    intro t hc
    refine (h.joined t hc).imp_right fun hjoined => ?_
    obtain ⟨d, hd⟩ := hjoined
    exact ⟨d, (hcallers d t).mpr hd⟩

omit [DecidableEq C] in
/-- `eapol_loop_run`: the thread that it may create is not cancelled. -/
theorem LoopInv.eapolLoopRun (hlock : s.lock = none) (initOk : Bool) :
    LoopInv (s.eapolLoopRun initOk) := by
  have hsame (refcnt : Nat) : LoopInv { s with refcnt := refcnt } :=
    ⟨h.free, h.holder, h.cancelled, h.joined⟩
  unfold EapolLoop.eapolLoopRun EapolLoop.eapolLoopInit
  by_cases hzero : s.refcnt = 0
  · by_cases hinit : initOk = true ∧ s.loopTid = none
    · simp only [if_pos hzero, if_pos hinit, if_true]
      constructor
      case free =>
        rintro ⟨c, t, hheld, _⟩
        have hnone : s.lock = some c := hheld
        rw [hlock] at hnone
        cases hnone
      case holder => exact fun c t hc => absurd hc (h.not_joining hlock c t)
      case cancelled => exact fun c t hc => absurd hc (h.not_joining hlock c t)
      case joined =>
        intro t hc
        have hthreads : (Function.update s.threads s.created ⟨.loopLock, false⟩ t).cancelled =
            true := hc
        by_cases ht : t = s.created
        · rw [ht, Function.update_self] at hthreads
          cases hthreads
        · rw [Function.update_of_ne ht] at hthreads
          refine .inl ?_
          show (Function.update s.threads s.created ⟨.loopLock, false⟩ t).place = .ended
          rw [Function.update_of_ne ht]
          exact h.ended hlock hthreads
    · simp only [if_pos hzero, if_neg hinit, Bool.false_eq_true, if_false]
      exact h
  · rw [if_neg hzero]
    exact hsame _

omit [DecidableEq C] h in
theorem eapolLoopRun_callers (initOk : Bool) : (s.eapolLoopRun initOk).callers = s.callers := by
  unfold EapolLoop.eapolLoopRun EapolLoop.eapolLoopInit
  by_cases hzero : s.refcnt = 0
  · by_cases hinit : initOk = true ∧ s.loopTid = none
    · simp only [if_pos hzero, if_pos hinit, if_true]
      rfl
    · simp only [if_pos hzero, if_neg hinit, Bool.false_eq_true, if_false]
  · rw [if_neg hzero]

/-- The last `eapol_loop_unref`, when there is a thread to cancel. -/
theorem LoopInv.joins (hlock : s.lock = none) (c : C) {t : Nat} (htid : s.loopTid = some t) :
    (¬ ({ s with refcnt := 0 }.eapolLoopDestroy c).Deadlocked →
      LoopInv ({ s with refcnt := 0 }.eapolLoopDestroy c)) ∧
    (({ s with refcnt := 0 }.eapolLoopDestroy c).Deadlocked ↔
      (s.threads t).place.waitsForLock = true) := by
  have hdestroy : { s with refcnt := 0 }.eapolLoopDestroy c =
      { s with
        lock := some c
        refcnt := 0
        threads := Function.update s.threads t { s.threads t with cancelled := true }
        callers := Function.update s.callers c (.joining t) } := by
    simp only [EapolLoop.eapolLoopDestroy, htid]
    rfl
  rw [hdestroy]
  have hcallers {d : C} {t' : Nat}
      (hd : Function.update s.callers c (.joining t) d = .joining t') : d = c ∧ t' = t := by
    by_cases heq : d = c
    · rw [heq, Function.update_self] at hd
      cases hd
      exact ⟨heq, rfl⟩
    · rw [Function.update_of_ne heq] at hd
      exact absurd hd (h.not_joining hlock d t')
  have hplace : (Function.update s.threads t { s.threads t with cancelled := true } t).place =
      (s.threads t).place := by
    rw [Function.update_self]
  constructor
  · intro hfree
    constructor
    case free => exact hfree
    case holder =>
      intro d t' hd
      rw [(hcallers hd).1]
    case cancelled =>
      intro d t' hd
      show (Function.update s.threads t { s.threads t with cancelled := true } t').cancelled = true
      rw [(hcallers hd).2, Function.update_self]
    case joined =>
      intro t' hc
      by_cases ht : t' = t
      · rw [ht]
        exact .inr ⟨c, Function.update_self _ _ _⟩
      · have hother : Function.update s.threads t { s.threads t with cancelled := true } t' =
            s.threads t' := Function.update_of_ne ht _ _
        dsimp only at hc ⊢
        rw [hother] at hc ⊢
        exact .inl (h.ended hlock hc)
  · constructor
    · rintro ⟨d, t', _, hd, hwaits⟩
      dsimp only at hd hwaits
      rwa [(hcallers hd).2, hplace] at hwaits
    · intro hwaits
      refine ⟨c, t, rfl, Function.update_self _ _ _, ?_⟩
      dsimp only
      rwa [hplace]

/-- `eapol_loop_unref`. -/
theorem LoopInv.eapolLoopUnref (hlock : s.lock = none) (c : C) :
    (¬ (s.eapolLoopUnref c).Deadlocked → LoopInv (s.eapolLoopUnref c)) ∧
    (¬ (s.eapolLoopUnref c).Deadlocked ↔ CancelsAtOnce s (.unref c)) := by
  have hbefore (t : Nat) : s.callers c ≠ .joining t := h.not_joining hlock c t
  have houtside (refcnt : Nat) (hnot : ∀ t ∈ s.loopTid, s.refcnt ≠ 1) :
      (¬ ({ s with refcnt := refcnt }.setCaller c .outside).Deadlocked →
        LoopInv ({ s with refcnt := refcnt }.setCaller c .outside)) ∧
      (¬ ({ s with refcnt := refcnt }.setCaller c .outside).Deadlocked ↔
        CancelsAtOnce s (.unref c)) := by
    have hsame : LoopInv { s with refcnt := refcnt } :=
      ⟨h.free, h.holder, h.cancelled, h.joined⟩
    have hinv : LoopInv ({ s with refcnt := refcnt }.setCaller c .outside) :=
      hsame.setCaller hbefore fun t ht => (by cases ht)
    exact ⟨fun _ => hinv, iff_of_true hinv.free fun hone t ht => absurd hone (hnot t ht)⟩
  unfold EapolLoop.eapolLoopUnref
  by_cases hzero : s.refcnt = 0
  · rw [if_pos hzero]
    exact houtside s.refcnt fun t _ => by omega
  · rw [if_neg hzero]
    by_cases hlast : s.refcnt - 1 = 0
    · rw [if_pos hlast]
      cases Option.eq_none_or_eq_some s.loopTid with
      | inl htid =>
          have hdestroy : { s with refcnt := 0 }.eapolLoopDestroy c =
              { s with refcnt := 0 }.setCaller c .outside := by
            simp only [EapolLoop.eapolLoopDestroy, htid]
          rw [hdestroy]
          exact houtside 0 fun t ht => by rw [htid] at ht; cases ht
      | inr htid =>
          obtain ⟨t, htid⟩ := htid
          obtain ⟨hinv, hiff⟩ := h.joins hlock c htid
          refine ⟨hinv, ?_⟩
          rw [hiff, Bool.not_eq_true]
          constructor
          · intro hfree _ t' ht'
            rw [htid] at ht'
            cases ht'
            exact hfree
          · exact fun hcancels => hcancels (by omega) t htid
    · rw [if_neg hlast]
      exact houtside (s.refcnt - 1) fun t _ => by omega

/-- `pthread_join` comes back. -/
theorem LoopInv.joinedThread {c : C} {t : Nat} (hjoining : s.callers c = .joining t)
    (hended : (s.threads t).place = .ended) :
    LoopInv { s.setCaller c .outside with loopTid := none, lock := none } := by
  have hnobody (d : C) (t' : Nat) : Function.update s.callers c .outside d ≠ .joining t' := by
    intro hd
    by_cases heq : d = c
    · rw [heq, Function.update_self] at hd
      cases hd
    · rw [Function.update_of_ne heq] at hd
      have hheld := (h.holder d t' hd).symm.trans (h.holder c t hjoining)
      exact heq (Option.some.inj hheld)
  constructor
  case free =>
    rintro ⟨d, t', hlock, _⟩
    cases hlock
  case holder => exact fun d t' hd => absurd hd (hnobody d t')
  case cancelled => exact fun d t' hd => absurd hd (hnobody d t')
  case joined =>
    intro t' hc
    refine .inl ?_
    cases h.joined t' hc with
    | inl hgone => exact hgone
    | inr hjoined =>
        obtain ⟨d, hd⟩ := hjoined
        have hheld := (h.holder d t' hd).symm.trans (h.holder c t hjoining)
        rw [Option.some.inj hheld, hjoining] at hd
        cases hd
        exact hended

/-- **One step**, of a caller or of a thread. -/
theorem LoopInv.step {s' : EapolLoop C} {e : LoopEvent C}
    (hstep : (eapolLoop C).step s e = some s') :
    (AvoidsDeadlock s e → LoopInv s') ∧ (AvoidsDeadlock s e ↔ CancelsAtOnce s e) := by
  have havoids : AvoidsDeadlock s e ↔ ¬ s'.Deadlocked := by
    constructor
    · exact fun h => h s' hstep
    · intro hfree s₁ hs₁
      rw [hstep] at hs₁
      cases hs₁
      exact hfree
  rw [havoids]
  have hkept (hinv : LoopInv s') (hcancels : CancelsAtOnce s e) :
      (¬ s'.Deadlocked → LoopInv s') ∧ (¬ s'.Deadlocked ↔ CancelsAtOnce s e) :=
    ⟨fun _ => hinv, iff_of_true hinv.free hcancels⟩
  have hmove {t : Nat} {place : ThreadPlace} (hplace : (s.threads t).place ≠ .ended)
      (hs' : s.moveThread t place = s')
      (hcancels : ¬ ((s.threads t).cancelled = true ∧ place.waitsForLock = true) ↔
        CancelsAtOnce s e) :
      (¬ s'.Deadlocked → LoopInv s') ∧ (¬ s'.Deadlocked ↔ CancelsAtOnce s e) := by
    rw [← hs', h.moveThread_deadlocked hplace, ← hcancels]
    refine ⟨fun hfree => h.moveThread hplace ?_, Iff.rfl⟩
    rwa [h.moveThread_deadlocked hplace]
  cases e with
  | call c call =>
      by_cases hcaller : s.callers c = .outside
      · have hs' : s.setCaller c (.locking call) = s' :=
          Option.some.inj ((if_pos hcaller).symm.trans hstep)
        rw [← hs'] at hkept ⊢
        refine hkept (h.setCaller (fun t ht => ?_) fun t ht => (by cases ht)) trivial
        rw [hcaller] at ht
        cases ht
      · cases (if_neg hcaller).symm.trans hstep
  | run c initOk =>
      by_cases hcaller : s.callers c = .locking .run ∧ s.lock = none
      · have hs' : (s.eapolLoopRun initOk).setCaller c .outside = s' :=
          Option.some.inj ((if_pos hcaller).symm.trans hstep)
        rw [← hs'] at hkept ⊢
        refine hkept ((h.eapolLoopRun hcaller.2 initOk).setCaller (fun t ht => ?_)
          fun t ht => (by cases ht)) trivial
        rw [eapolLoopRun_callers, hcaller.1] at ht
        cases ht
      · cases (if_neg hcaller).symm.trans hstep
  | unref c =>
      by_cases hcaller : s.callers c = .locking .unref ∧ s.lock = none
      · have hs' : s.eapolLoopUnref c = s' :=
          Option.some.inj ((if_pos hcaller).symm.trans hstep)
        rw [← hs']
        exact h.eapolLoopUnref hcaller.2 c
      · cases (if_neg hcaller).symm.trans hstep
  | joined c =>
      cases hjoining : s.callers c with
      | outside =>
          simp only [eapolLoop, hjoining] at hstep
          cases hstep
      | locking call =>
          simp only [eapolLoop, hjoining] at hstep
          cases hstep
      | joining t =>
          simp only [eapolLoop, hjoining] at hstep
          by_cases hended : (s.threads t).place = .ended
          · have hs' := Option.some.inj ((if_pos hended).symm.trans hstep)
            rw [← hs'] at hkept ⊢
            exact hkept (h.joinedThread hjoining hended) trivial
          · cases (if_neg hended).symm.trans hstep
  | loopTop t =>
      by_cases hplace : (s.threads t).place = .loopLock ∧ s.lock = none
      · have hs' := Option.some.inj ((if_pos hplace).symm.trans hstep)
        exact hmove (by rw [hplace.1]; decide) hs' (iff_of_true (fun hwaits => (by cases hwaits.2))
          trivial)
      · cases (if_neg hplace).symm.trans hstep
  | cancel t =>
      by_cases hplace : (s.threads t).place.cancellable = true ∧ (s.threads t).cancelled = true
      · have hs' := Option.some.inj ((if_pos hplace).symm.trans hstep)
        refine hmove (fun hended => ?_) hs'
          (iff_of_true (fun hwaits => (by cases hwaits.2)) trivial)
        rw [hended] at hplace
        exact (by cases hplace.1)
      · cases (if_neg hplace).symm.trans hstep
  | selected t result =>
      by_cases hplace : (s.threads t).place = .selecting
      · have hs' := Option.some.inj ((if_pos hplace).symm.trans hstep)
        refine hmove (by rw [hplace]; decide) hs' ?_
        rw [not_and]
        exact forall_congr' fun _ => Bool.not_eq_true _ ▸ Iff.rfl
      · cases (if_neg hplace).symm.trans hstep
  | handleRead t ok =>
      by_cases hplace : (s.threads t).place = .readLock ∧ s.lock = none
      · have hs' := Option.some.inj ((if_pos hplace).symm.trans hstep)
        refine hmove (by rw [hplace.1]; decide) hs' (iff_of_true (fun hwaits => ?_) trivial)
        have hended := h.ended hplace.2 hwaits.1
        rw [hplace.1] at hended
        cases hended
      · cases (if_neg hplace).symm.trans hstep
  | logged t =>
      by_cases hplace : (s.threads t).place = .terminating
      · have hs' := Option.some.inj ((if_pos hplace).symm.trans hstep)
        refine hmove (by rw [hplace]; decide) hs' ?_
        show ¬ ((s.threads t).cancelled = true ∧ true = true) ↔ (s.threads t).cancelled = false
        simp
      · cases (if_neg hplace).symm.trans hstep
  | exit t =>
      by_cases hplace : (s.threads t).place = .exitLock ∧ s.lock = none
      · have hs' := Option.some.inj ((if_pos hplace).symm.trans hstep)
        have hne : (s.threads t).place ≠ .ended := by
          rw [hplace.1]
          decide
        have hfree : ¬ (s.moveThread t .ended).Deadlocked := by
          rw [h.moveThread_deadlocked hne]
          exact fun hwaits => (by cases hwaits.2)
        have hinv := h.moveThread hne hfree
        rw [← hs'] at hkept ⊢
        exact hkept ⟨hinv.free, hinv.holder, hinv.cancelled, hinv.joined⟩ trivial
      · cases (if_neg hplace).symm.trans hstep

end

/-- **A deadlock lasts**: neither the caller nor the thread gets any further. -/
theorem deadlocked_step {s s' : EapolLoop C} {e : LoopEvent C}
    (honly : ∀ d t, s.callers d = .joining t → s.lock = some d) (hdead : s.Deadlocked)
    (hstep : (eapolLoop C).step s e = some s') :
    (∀ d t, s'.callers d = .joining t → s'.lock = some d) ∧ s'.Deadlocked := by
  obtain ⟨c, t, hlock, hjoining, hwaits⟩ := hdead
  have hheld : ¬ s.lock = none := by
    rw [hlock]
    exact fun hnone => (by cases hnone)
  have hmove {t' : Nat} (place : ThreadPlace) (hne : t' ≠ t) :
      (∀ d t, (s.moveThread t' place).callers d = .joining t →
        (s.moveThread t' place).lock = some d) ∧ (s.moveThread t' place).Deadlocked := by
    refine ⟨honly, c, t, hlock, hjoining, ?_⟩
    show (Function.update s.threads t' { s.threads t' with place := place } t).place.waitsForLock
      = true
    rwa [Function.update_of_ne hne.symm]
  have hother {t' : Nat} (hnot : (s.threads t').place.waitsForLock = false) : t' ≠ t := by
    intro heq
    rw [heq, hwaits] at hnot
    cases hnot
  cases e with
  | call d call =>
      by_cases hcaller : s.callers d = .outside
      · have hs' := Option.some.inj ((if_pos hcaller).symm.trans hstep)
        have hne : c ≠ d := by
          intro heq
          rw [← heq, hjoining] at hcaller
          cases hcaller
        rw [← hs']
        constructor
        · intro d' t' hd'
          by_cases heq : d' = d
          · rw [heq] at hd'
            have hplace : Function.update s.callers d (.locking call) d = .joining t' := hd'
            rw [Function.update_self] at hplace
            cases hplace
          · have hplace : Function.update s.callers d (.locking call) d' = .joining t' := hd'
            rw [Function.update_of_ne heq] at hplace
            exact honly d' t' hplace
        · exact ⟨c, t, hlock, (Function.update_of_ne hne _ _).trans hjoining, hwaits⟩
      · cases (if_neg hcaller).symm.trans hstep
  | run d initOk => cases (if_neg fun hd => hheld hd.2).symm.trans hstep
  | unref d => cases (if_neg fun hd => hheld hd.2).symm.trans hstep
  | joined d =>
      cases hplace : s.callers d with
      | outside =>
          simp only [eapolLoop, hplace] at hstep
          cases hstep
      | locking call =>
          simp only [eapolLoop, hplace] at hstep
          cases hstep
      | joining t' =>
          -- Only the caller that holds the lock joins, and its thread is not gone.
          have heq : d = c := Option.some.inj ((honly d t' hplace).symm.trans hlock)
          have hsame : t' = t := by
            rw [heq, hjoining] at hplace
            cases hplace
            rfl
          simp only [eapolLoop, hplace] at hstep
          by_cases hended : (s.threads t').place = .ended
          · rw [hsame] at hended
            rw [hended] at hwaits
            cases hwaits
          · cases (if_neg hended).symm.trans hstep
  | loopTop t' => cases (if_neg fun hd => hheld hd.2).symm.trans hstep
  | cancel t' =>
      by_cases hplace : (s.threads t').place.cancellable = true ∧ (s.threads t').cancelled = true
      · have hs' := Option.some.inj ((if_pos hplace).symm.trans hstep)
        rw [← hs']
        refine hmove .ended (hother ?_)
        cases hp : (s.threads t').place with
        | selecting => rfl
        | terminating => rfl
        | _ =>
            rw [hp] at hplace
            cases hplace.1
      · cases (if_neg hplace).symm.trans hstep
  | selected t' result =>
      by_cases hplace : (s.threads t').place = .selecting
      · have hs' := Option.some.inj ((if_pos hplace).symm.trans hstep)
        rw [← hs']
        exact hmove result.next (hother (by rw [hplace]; rfl))
      · cases (if_neg hplace).symm.trans hstep
  | handleRead t' ok => cases (if_neg fun hd => hheld hd.2).symm.trans hstep
  | logged t' =>
      by_cases hplace : (s.threads t').place = .terminating
      · have hs' := Option.some.inj ((if_pos hplace).symm.trans hstep)
        rw [← hs']
        exact hmove .exitLock (hother (by rw [hplace]; rfl))
      · cases (if_neg hplace).symm.trans hstep
  | exit t' => cases (if_neg fun hd => hheld hd.2).symm.trans hstep

/--
**The join under the lock.**  A run of callers and threads reaches no deadlock if and
only if every last `eapol_loop_unref` in it finds no thread that is about to take the
lock, and no thread that is cancelled goes on to take it.
-/
theorem deadlock_exact (C : Type*) [DecidableEq C] (events : List (LoopEvent C)) :
    (eapolLoop C).Meets AvoidsDeadlock .initial events ↔
      (eapolLoop C).Meets CancelsAtOnce .initial events :=
  (eapolLoop C).meets_congr LoopInv (fun _ _ _ hinv hstep => hinv.step hstep) events
    initial_loopInv

end

/-- One user starts the loop and releases it when a frame has arrived. -/
def releaseOnFrame : List (LoopEvent Unit) :=
  [.call () .run, .run () true, .loopTop 0, .selected 0 .ready, .call () .unref, .unref ()]

/-- The thread waits for the lock that is held for joining it. -/
theorem releaseOnFrame_deadlocks :
    (∃ s, (eapolLoop Unit).exec .initial releaseOnFrame = some s ∧ s.Deadlocked) ∧
      ¬ (eapolLoop Unit).Meets AvoidsDeadlock .initial releaseOnFrame := by
  have hrun : ((eapolLoop Unit).exec .initial [.call () .run, .run () true, .loopTop 0,
      .selected 0 .ready, .call () .unref]).any (fun s =>
        ((eapolLoop Unit).step s (.unref ())).any fun s' =>
          s'.lock = some () ∧ s'.callers () = .joining 0 ∧
            (s'.threads 0).place.waitsForLock = true) = true := by
    decide +kernel
  obtain ⟨s, hs, hnext⟩ := (Option.any_eq_true _ _).mp hrun
  obtain ⟨s', hs', hdead⟩ := (Option.any_eq_true _ _).mp hnext
  have hdeadlocked : s'.Deadlocked := ⟨(), 0, of_decide_eq_true hdead⟩
  have hsplit : releaseOnFrame = [.call () .run, .run () true, .loopTop 0,
      .selected 0 .ready, .call () .unref] ++ [.unref ()] := rfl
  rw [hsplit]
  refine ⟨⟨s', ?_, hdeadlocked⟩, fun hmeets => ?_⟩
  · rw [System.exec_append, hs]
    simp only [Option.bind_some, System.exec_cons, hs', System.exec_nil]
  · exact System.Meets.last _ _ hmeets hs hs' s' hs' hdeadlocked

end Blts.Wlan
