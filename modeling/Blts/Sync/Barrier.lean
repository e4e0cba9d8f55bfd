import Mathlib.Logic.Function.Basic
import Blts.Lib.Run

/-!
# The cyclic barrier of `blts_sync.c`

`barrier_sync` is built from two counting semaphores and an `active` flag kept
in shared memory.  The first client that finds the flag clear becomes the
collector of the round: it takes one arrival token for every other registered
client, posts one departure token for each of them and clears the flag.  Every
later client posts its arrival token and waits for a departure token.

The grain of atomicity is the one of the source: a semaphore operation is one
step, and so is a section guarded by `sync_mutex` or by the barrier's own
mutex.  `blts_sync_anon` and `blts_sync_tagged` lock `sync_mutex`, resolve the
barrier and run `barrier_sync` up to its `sync_mutex_unlock`: one step, `enter`.
They return in the section opened by the last `sync_mutex_lock`: one step,
`leave`.
-/

namespace Blts.Sync

open Blts.Lib

/-- Characters of a tag that the barrier table keeps (`SYNC_TAG_LEN`). -/
def syncTagLen : Nat := 16

/-- Entries of the barrier table (`SYNC_TAG_COUNT`). -/
def syncTagCount : Nat := 64

/-- `struct tagged_barrier_entry`, without the mutex that guards it: the
sections under that mutex are single steps. -/
structure TaggedBarrierEntry where
  refcount : Nat
  active : Bool
  barrierArriveSignal : Nat
  barrierDepartSignal : Nat
  tag : List Char

/-- `strncmp(entry.tag, tag, len) == 0` for the `len` of
`find_tagged_barrier`. -/
def tagMatches (entry tag : List Char) : Bool :=
  let len := min tag.length syncTagLen
  entry.take len == tag.take len

/-- `find_tagged_barrier`: the first barrier in use whose name matches. -/
def findTaggedBarrier (barriers : Nat → TaggedBarrierEntry)
    (tag : List Char) : Option Nat :=
  (List.range syncTagCount).find? fun i =>
    (barriers i).refcount != 0 && tagMatches (barriers i).tag tag

/-- The two untimed entry points that reach `barrier_sync`. -/
inductive SyncCall where
  | anon
  | tagged (tag : List Char)

/-- The barrier a call resolves to; `none` is the `-EINVAL` of
`blts_sync_tagged`. -/
def SyncCall.barrier (barriers : Nat → TaggedBarrierEntry) :
    SyncCall → Option Nat
  | .anon => some 0
  | .tagged tag => findTaggedBarrier barriers tag

/-- Where a client stands.  The argument of `collecting` is the loop counter
`i` of `while(i--) sem_wait(&b->barrier_arrive_signal)`. -/
inductive ClientPlace where
  | outside
  | collecting (i : Nat)
  | arriving
  | departing
  | leaving
  deriving DecidableEq, Repr

/-- A client process, with the number of `barrier_sync` calls it has entered
and the number it has returned from. -/
structure Client where
  place : ClientPlace
  entered : Nat
  returned : Nat
  deriving DecidableEq, Repr

/-- The barrier table in shared memory and the clients of one barrier. -/
structure SyncState (n : Nat) where
  barriers : Nat → TaggedBarrierEntry
  clients : Fin n → Client

/-- One atomic step of one client. -/
inductive SyncEvent (n : Nat) where
  | enter (c : Fin n) (call : SyncCall)
  | collect (c : Fin n)
  | release (c : Fin n)
  | arrive (c : Fin n)
  | depart (c : Fin n)
  | leave (c : Fin n)

namespace SyncState

variable {n : Nat}

/-- Overwrite client `c`. -/
def setClient (s : SyncState n) (c : Fin n) (client : Client) : SyncState n :=
  { s with clients := Function.update s.clients c client }

/-- Move client `c` to `place`, keeping its counters. -/
def moveTo (s : SyncState n) (c : Fin n) (place : ClientPlace) : SyncState n :=
  s.setClient c { s.clients c with place := place }

/-- Overwrite entry `b` of the barrier table. -/
def setBarrier (s : SyncState n) (b : Nat) (e : TaggedBarrierEntry) :
    SyncState n :=
  { s with barriers := Function.update s.barriers b e }

/-- The section of `barrier_sync` guarded by `sync_mutex`: the first client
raises `active` and will collect, the others will report their arrival. -/
def enterBarrier (s : SyncState n) (b : Nat) (c : Fin n) : SyncState n :=
  let e := s.barriers b
  let entered := (s.clients c).entered + 1
  if e.active then
    s.setClient c { s.clients c with place := .arriving, entered := entered }
  else
    (s.setBarrier b { e with active := true }).setClient c
      { s.clients c with
        place := .collecting (e.refcount - 1)
        entered := entered }

end SyncState

/-- The steps of clients all of whose calls resolve to barrier `b`. -/
def barrierStep {n : Nat} (b : Nat) (s : SyncState n) :
    SyncEvent n → Option (SyncState n)
  | .enter c call =>
      if (s.clients c).place = .outside ∧ call.barrier s.barriers = some b then
        some (s.enterBarrier b c)
      else none
  | .collect c =>
      let e := s.barriers b
      match (s.clients c).place with
      | .collecting (i + 1) =>
          if 0 < e.barrierArriveSignal then
            some ((s.setBarrier b { e with
              barrierArriveSignal := e.barrierArriveSignal - 1 }).moveTo c
                (.collecting i))
          else none
      | _ => none
  | .release c =>
      let e := s.barriers b
      if (s.clients c).place = .collecting 0 then
        some ((s.setBarrier b { e with
          barrierDepartSignal := e.barrierDepartSignal + (e.refcount - 1)
          active := false }).moveTo c .leaving)
      else none
  | .arrive c =>
      let e := s.barriers b
      if (s.clients c).place = .arriving then
        some ((s.setBarrier b { e with
          barrierArriveSignal := e.barrierArriveSignal + 1 }).moveTo c
            .departing)
      else none
  | .depart c =>
      let e := s.barriers b
      if (s.clients c).place = .departing ∧ 0 < e.barrierDepartSignal then
        some ((s.setBarrier b { e with
          barrierDepartSignal := e.barrierDepartSignal - 1 }).moveTo c
            .leaving)
      else none
  | .leave c =>
      if (s.clients c).place = .leaving then
        some (s.setClient c { s.clients c with
          place := .outside
          returned := (s.clients c).returned + 1 })
      else none

/-- The transition system of `n` clients on barrier `b`. -/
def barrierSystem (n b : Nat) : System (SyncState n) (SyncEvent n) where
  step := barrierStep b

/-- The state `barrier_init` leaves behind, with `n` registered clients none
of which has called `barrier_sync` yet. -/
structure Quiescent {n : Nat} (b : Nat) (s : SyncState n) : Prop where
  refcount : (s.barriers b).refcount = n
  active : (s.barriers b).active = false
  arrive : (s.barriers b).barrierArriveSignal = 0
  depart : (s.barriers b).barrierDepartSignal = 0
  clients : ∀ c, s.clients c = { place := .outside, entered := 0, returned := 0 }

/-- No client takes a departure token while a client that has entered fewer
rounds is still waiting for one. -/
def NoOvertaking {n : Nat} (s : SyncState n) : SyncEvent n → Prop
  | .depart c => ∀ d, (s.clients d).place = .departing →
      (s.clients c).entered ≤ (s.clients d).entered
  | _ => True

instance {n : Nat} (s : SyncState n) : DecidablePred (NoOvertaking s)
  | .depart c => inferInstanceAs (Decidable (∀ d,
      (s.clients d).place = .departing →
        (s.clients c).entered ≤ (s.clients d).entered))
  | .enter _ _ | .collect _ | .release _ | .arrive _ | .leave _ =>
      isTrue trivial

end Blts.Sync
