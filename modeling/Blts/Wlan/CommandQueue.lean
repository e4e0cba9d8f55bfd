import Blts.Lib.LinkedList
import Blts.Lib.Run

/-!
# The command queue of `wlan-core-cmdqueue.c`

The netlink thread appends the commands that it hears of, and a test takes them from the
front while it waits for one.  Every function holds `cmd_que_mutex` from its first access to
its last, so that the calls of all threads come one after the other.

`commands_inOrder` is the result: the queue is first in, first out, and loses nothing.
-/

namespace Blts.Wlan

open Blts.Lib

/-- The items with `cmd_que_head`, and `cmd_que_tail`. -/
structure CmdQueue where
  items : LinkedList Int
  tail : Option Nat

/-- `add_to_cmd_queue`, after `malloc`. -/
def addToCmdQueue (q : CmdQueue) (cmd : Int) : Option CmdQueue :=
  let item := q.items.cells.length
  let items : LinkedList Int := { q.items with cells := q.items.cells ++ [some ⟨none, cmd⟩] }
  (items.setLink (some item) (match q.tail with
    | some last => .after last
    | none => .head)).map fun items => ⟨items, some item⟩

/-- `first_cmd_from_queue`. -/
def firstCmdFromQueue (q : CmdQueue) : Option (Int × CmdQueue) :=
  match q.items.head with
  | none => some (-1, q)
  | some a =>
      (q.items.node a).bind fun item =>
        (q.items.remove .head a).map fun items =>
          (item.val, ⟨items, if item.next = none then none else q.tail⟩)

/-- The loop of `clear_cmd_queue`. -/
def freeItems : Nat → Option Nat → LinkedList Int → Option (LinkedList Int)
  | _, none, l => some l
  | 0, some _, _ => none
  | rounds + 1, some a, l => (l.node a).bind fun item => freeItems rounds item.next (l.put a none)

/-- `clear_cmd_queue`. -/
def clearCmdQueue (q : CmdQueue) : Option CmdQueue :=
  (freeItems q.items.cells.length q.items.head q.items).map fun items =>
    ⟨{ items with head := none }, none⟩

/-! ## The calls of all threads -/

/-- A call, with whether `malloc` succeeds. -/
inductive QueueCall where
  | add (cmd : Int) (allocated : Bool)
  | first
  | clear

/-- The queue, the commands that were added, and those that have left it: returned by
`first_cmd_from_queue`, or dropped. -/
structure QueueRun where
  queue : CmdQueue
  added : List Int
  left : List (Int × Bool)

def queueCall (s : QueueRun) : QueueCall → Option QueueRun
  | .add _ false => some s
  | .add cmd true => (addToCmdQueue s.queue cmd).map fun queue =>
      { s with queue := queue, added := s.added ++ [cmd] }
  | .first => (firstCmdFromQueue s.queue).map fun (cmd, queue) =>
      { s with
        queue := queue
        left := s.left ++ if s.queue.items.head = none then [] else [(cmd, true)] }
  | .clear => (clearCmdQueue s.queue).map fun queue =>
      { s with
        queue := queue
        left := s.left ++ s.queue.items.contents.map fun x => (x.2, false) }

def queueSystem : System QueueRun QueueCall := ⟨queueCall⟩

def queueStart : QueueRun := ⟨⟨.empty, none⟩, [], []⟩

/-- The items stand in the list, the tail is the last of them, and what was added has left
or is still there, in order. -/
structure QueueInv (s : QueueRun) (xs : List (Nat × Int)) : Prop where
  holds : s.queue.items.Holds xs
  tail : s.queue.tail = xs.getLast?.map Prod.fst
  inOrder : s.added = s.left.map Prod.fst ++ xs.map Prod.snd

theorem queueInv_start : QueueInv queueStart [] := ⟨LinkedList.holds_empty, rfl, rfl⟩

theorem QueueInv.add {s : QueueRun} {xs : List (Nat × Int)} (h : QueueInv s xs) (cmd : Int) :
    ∃ queue, addToCmdQueue s.queue cmd = some queue ∧
      QueueInv { s with queue := queue, added := s.added ++ [cmd] }
        (xs ++ [(s.queue.items.cells.length, cmd)]) := by
  have hholds : s.queue.items.Holds (xs ++ []) := by
    rw [List.append_nil]
    exact h.holds
  obtain ⟨items, hinsert, hitems, _⟩ := LinkedList.insert_spec hholds cmd
  have hlink : (match s.queue.tail with
      | some last => Link.after last
      | none => .head) = LinkedList.linkAt xs := by
    rw [h.tail, LinkedList.linkAt]
    cases xs.getLast? <;> rfl
  rw [LinkedList.insert, LinkedList.readLink_spec h.holds, Option.bind_some] at hinsert
  refine ⟨⟨items, some s.queue.items.cells.length⟩, ?_, hitems, ?_, ?_⟩
  · simp only [addToCmdQueue, hlink, hinsert, Option.map_some]
  · simp
  · simp [h.inOrder]

theorem QueueInv.first {s : QueueRun} {xs : List (Nat × Int)} (h : QueueInv s xs) :
    ∃ s' xs', queueCall s .first = some s' ∧ QueueInv s' xs' := by
  have hhead := LinkedList.Segment.start_eq h.holds
  cases xs with
  | nil =>
      refine ⟨s, [], ?_, h⟩
      have hnone : s.queue.items.head = none := hhead
      simp only [queueCall, firstCmdFromQueue, hnone, Option.map_some, if_true, List.append_nil]
  | cons x xs =>
      obtain ⟨a, cmd⟩ := x
      obtain ⟨items, hremove, hitems, _⟩ := @LinkedList.remove_spec _ _ [] _ _ _ h.holds
      have hsome : s.queue.items.head = some a := hhead
      have hseg : LinkedList.Segment s.queue.items (some a) ((a, cmd) :: xs) none := by
        rw [← hsome]
        exact h.holds
      obtain _ | @⟨_, n, _, _, hnode, hrest⟩ := hseg
      rw [LinkedList.linkAt_nil] at hremove
      refine ⟨_, xs, by
        simp only [queueCall, firstCmdFromQueue, hsome, hnode, hremove, Option.bind_some,
          Option.map_some]
        rfl, hitems, ?_, ?_⟩
      · show (if n.next = none then none else s.queue.tail) = _
        rw [hrest.start_eq, h.tail]
        cases xs with
        | nil => rfl
        | cons y ys => rw [if_neg (by simp), List.getLast?_cons_cons]
      · simp [h.inOrder]

/-- The loop of `clear_cmd_queue` comes to the end of the list. -/
theorem freeItems_spec (xs : List (Nat × Int)) : ∀ {rounds : Nat} {l : LinkedList Int}
    {ptr : Option Nat}, xs.length ≤ rounds → LinkedList.Segment l ptr xs none →
      ∃ l', freeItems rounds ptr l = some l' := by
  induction xs with
  | nil =>
      intro rounds l ptr _ h
      cases h
      refine ⟨l, ?_⟩
      cases rounds <;> rfl
  | cons x xs ih =>
      intro rounds l ptr hle h
      have hnodup := h.nodup
      obtain _ | @⟨a, n, _, _, hnode, hrest⟩ := h
      cases rounds with
      | zero => cases hle
      | succ rounds =>
          rw [freeItems, hnode, Option.bind_some]
          refine ih (Nat.le_of_succ_le_succ hle) (hrest.congr fun y hy => ?_)
          rw [LinkedList.node_put hnode, if_neg]
          have hmem : y.1 ∈ xs.map Prod.fst := List.mem_map_of_mem hy
          exact fun heq => (List.nodup_cons.mp hnodup).1 (heq ▸ hmem)

theorem QueueInv.clear {s : QueueRun} {xs : List (Nat × Int)} (h : QueueInv s xs) :
    ∃ s', queueCall s .clear = some s' ∧ QueueInv s' [] := by
  obtain ⟨items, hfree⟩ := freeItems_spec xs h.holds.length_le h.holds
  refine ⟨_, by simp only [queueCall, clearCmdQueue, hfree, Option.map_some]; rfl, ?_⟩
  refine ⟨.nil none, rfl, ?_⟩
  simp [LinkedList.contents_eq h.holds, h.inOrder, Function.comp_def]

/-- **First in, first out**: in every order of the calls of all threads, no call follows a
pointer astray, and the commands that were added are, in this order, those that have been
returned or dropped and then those in the queue. -/
theorem commands_inOrder (calls : List QueueCall) :
    ∃ s, queueSystem.exec queueStart calls = some s ∧
      s.added = s.left.map Prod.fst ++ s.queue.items.contents.map Prod.snd := by
  have hrun : ∀ (calls : List QueueCall) {s : QueueRun} {xs : List (Nat × Int)},
      QueueInv s xs → ∃ s' xs', queueSystem.exec s calls = some s' ∧ QueueInv s' xs' := by
    intro calls
    induction calls with
    | nil => exact fun h => ⟨_, _, rfl, h⟩
    | cons call calls ih =>
        intro s xs h
        have hstep : ∃ s' xs', queueCall s call = some s' ∧ QueueInv s' xs' := by
          cases call with
          | add cmd allocated =>
              cases allocated with
              | false => exact ⟨s, xs, rfl, h⟩
              | true =>
                  obtain ⟨queue, hadd, hinv⟩ := h.add cmd
                  exact ⟨_, _, by rw [queueCall, hadd, Option.map_some], hinv⟩
          | first => exact h.first
          | clear =>
              obtain ⟨s', hclear, hinv⟩ := h.clear
              exact ⟨s', [], hclear, hinv⟩
        obtain ⟨s', xs', hcall, hinv⟩ := hstep
        rw [System.exec_cons, show queueSystem.step s call = some s' from hcall]
        exact ih hinv
  obtain ⟨s, xs, hexec, hinv⟩ := hrun calls queueInv_start
  refine ⟨s, hexec, ?_⟩
  rw [LinkedList.contents_eq hinv.holds]
  exact hinv.inOrder

end Blts.Wlan
