import Mathlib.Data.List.TakeWhile
import Blts.Lib.LinkedList

/-!
# The handlers of asynchronous playback

`alsa_async.c` keeps the handlers of the signal in a singly linked list, the most recent
first, and has the signal delivered while there are any.  A handler and the cell that it is
in are allocated and freed together and are one cell here; allocation succeeds.

Deleting frees a cell wherever it is, but repairs the link to it only at the head.
-/

namespace Blts.Alsa

open Blts.Lib

/-- An `async_handler`; a pointer is `none` if it is null. -/
structure AsyncHandler where
  callback : Option Nat
  hw : Option Nat
  fd : Int
  data : Option Nat
  deriving DecidableEq

structure AsyncState where
  asyncHandlers : LinkedList AsyncHandler
  /-- The dispatcher is installed for the signal. -/
  installed : Bool

/-! ## `alsa_util.c` -/

/-- `slist_delete_head`: the new head. -/
def slistDeleteHead (l : LinkedList AsyncHandler) :
    Option Nat → Option (Option Nat × LinkedList AsyncHandler)
  | none => some (none, l)
  | some a => (l.node a).map fun n => (n.next, l.put a none)

/-- `slist_prepend` to the handlers. -/
def slistPrepend (l : LinkedList AsyncHandler) (handler : AsyncHandler) :
    Option (LinkedList AsyncHandler) :=
  l.insert .head handler

/-! ## `alsa_async.c` -/

/-- `set_signal_cb`, where `sigaction` succeeds or not. -/
def setSignalCb (sigaction : Bool) (s : AsyncState) : Int × AsyncState :=
  if sigaction = true then (0, { s with installed := true }) else (-1, s)

def unsetSignalCb (sigaction : Bool) (s : AsyncState) : Int × AsyncState :=
  if sigaction = true then (0, { s with installed := false }) else (-1, s)

/-- `async_handler_add`.  There is no result where the list leads to a freed cell. -/
def asyncHandlerAdd (handler : AsyncHandler) (sigaction : Bool) (s : AsyncState) :
    Option (Int × AsyncState) :=
  if handler.callback = none ∨ handler.hw = none ∨ handler.fd < 0 then some (-22, s)
  else
    let r := if s.asyncHandlers.head = none then setSignalCb sigaction s else (0, s)
    if r.1 ≠ 0 then some r
    else (slistPrepend s.asyncHandlers handler).map fun l => (0, { r.2 with asyncHandlers := l })

/-- The loop of `async_handler_del`: the handlers after it, and how many were found. -/
def delLoop (handler : AsyncHandler) : Nat → LinkedList AsyncHandler → Option Nat →
    Option Nat → Nat → Option (LinkedList AsyncHandler × Nat)
  | _, l, _, none, found => some (l, found)
  | 0, _, _, some _, _ => none
  | fuel + 1, l, prev, some a, found =>
      (l.node a).bind fun n =>
        if n.val = handler then
          (slistDeleteHead l (some a)).bind fun r =>
            let l := if prev = none then { r.2 with head := r.1 } else r.2
            delLoop handler fuel l prev r.1 (found + 1)
        else delLoop handler fuel l (some a) n.next found

/-- `async_handler_del`. -/
def asyncHandlerDel (handler : AsyncHandler) (sigaction : Bool) (s : AsyncState) :
    Option (Int × AsyncState) :=
  (delLoop handler s.asyncHandlers.cells.length s.asyncHandlers none
    s.asyncHandlers.head 0).map fun (l, found) =>
      let ret : Int := if found ≠ 0 then 0 else -1
      let s := { s with asyncHandlers := l }
      if l.head = none then
        let r := unsetSignalCb sigaction s
        -- `ret |= r`: both are 0 or -1
        (if ret = 0 then r.1 else ret, r.2)
      else (ret, s)

/-- The loop of `async_handler_clear`. -/
def clearLoop : Nat → LinkedList AsyncHandler → Option (LinkedList AsyncHandler)
  | 0, l => if l.head = none then some l else none
  | fuel + 1, l =>
      (slistDeleteHead l l.head).bind fun r =>
        let l := { r.2 with head := r.1 }
        if l.head = none then some l else clearLoop fuel l

/-- `async_handler_clear`. -/
def asyncHandlerClear (sigaction : Bool) (s : AsyncState) : Option (Int × AsyncState) :=
  if s.asyncHandlers.head = none then some (0, s)
  else (clearLoop s.asyncHandlers.cells.length s.asyncHandlers).map fun l =>
    unsetSignalCb sigaction { s with asyncHandlers := l }

/-- The calls, each with what `sigaction` does in it. -/
inductive AsyncCall where
  | add (handler : AsyncHandler) (sigaction : Bool)
  | del (handler : AsyncHandler) (sigaction : Bool)
  | clear (sigaction : Bool)

def asyncStep (s : AsyncState) : AsyncCall → Option (Int × AsyncState)
  | .add handler sigaction => asyncHandlerAdd handler sigaction s
  | .del handler sigaction => asyncHandlerDel handler sigaction s
  | .clear sigaction => asyncHandlerClear sigaction s

/-! ## What the list is for -/

/-- A handler is added if its arguments are valid and the dispatcher is installed. -/
def isAdded (handlers : List AsyncHandler) (handler : AsyncHandler) (sigaction : Bool) : Bool :=
  handler.callback.isSome && handler.hw.isSome && decide (0 ≤ handler.fd) &&
    (!handlers.isEmpty || sigaction)

/-- The handlers that have been added and not deleted, after a call. -/
def handlersAfter (handlers : List AsyncHandler) : AsyncCall → List AsyncHandler
  | .add handler sigaction =>
      if isAdded handlers handler sigaction then handler :: handlers else handlers
  | .del handler _ => handlers.filter (· ≠ handler)
  | .clear _ => []

/-- The list consists of live cells with these handlers, and the dispatcher is installed
while there are any. -/
def KeepsHandlers (s : AsyncState) (handlers : List AsyncHandler) : Prop :=
  (∃ xs, s.asyncHandlers.Holds xs ∧ xs.map Prod.snd = handlers) ∧
    (s.installed = true ↔ handlers ≠ [])

/-- What adding and deleting return. -/
def ReturnsRight (handlers : List AsyncHandler) (ret : Int) : AsyncCall → Prop
  | .add handler sigaction => ret = 0 ↔ isAdded handlers handler sigaction = true
  | .del handler _ => ret = 0 ↔ handler ∈ handlers
  | .clear _ => True

/-- In every state of a run the list is right, and so is what the calls return. -/
def KeepsInRun (s : AsyncState) (handlers : List AsyncHandler) : List AsyncCall → Prop
  | [] => KeepsHandlers s handlers
  | c :: cs => KeepsHandlers s handlers ∧ ∃ ret s', asyncStep s c = some (ret, s') ∧
      ReturnsRight handlers ret c ∧ KeepsInRun s' (handlersAfter handlers c) cs

/-- The handlers to delete are at the head of the list, and the dispatcher is removed
where the list becomes empty. -/
def DeletesAtHead (handlers : List AsyncHandler) : AsyncCall → Prop
  | .add _ _ => True
  | .del handler sigaction => handler ∉ handlers.dropWhile (· = handler) ∧
      (handlers ≠ [] → handlers.filter (· ≠ handler) = [] → sigaction = true)
  | .clear sigaction => handlers ≠ [] → sigaction = true

/-- Every call of a run is such a call. -/
def DeletesAtHeadInRun (handlers : List AsyncHandler) : List AsyncCall → Prop
  | [] => True
  | c :: cs => DeletesAtHead handlers c ∧ DeletesAtHeadInRun (handlersAfter handlers c) cs

section

variable {l : LinkedList AsyncHandler} {handler : AsyncHandler}
  {xs : List (Nat × AsyncHandler)}

theorem head_eq_none_iff (h : l.Holds xs) : l.head = none ↔ xs = [] := by
  unfold LinkedList.Holds at h
  constructor
  · intro hhead
    rw [hhead] at h
    cases h
    rfl
  · rintro rfl
    generalize l.head = ptr at h
    cases h
    rfl

/-! ## Adding -/

theorem slistPrepend_spec (h : l.Holds xs) (handler : AsyncHandler) :
    ∃ l', slistPrepend l handler = some l' ∧ l'.Holds ((l.cells.length, handler) :: xs) := by
  obtain ⟨l', hinsert, hholds, _⟩ := LinkedList.insert_spec (show l.Holds ([] ++ xs) from h) handler
  exact ⟨l', hinsert, hholds⟩

end

section

variable {s : AsyncState} {handlers : List AsyncHandler}

theorem asyncHandlerAdd_spec (h : KeepsHandlers s handlers) (handler : AsyncHandler)
    (sigaction : Bool) :
    ∃ ret s', asyncHandlerAdd handler sigaction s = some (ret, s') ∧
      ReturnsRight handlers ret (.add handler sigaction) ∧
      KeepsHandlers s' (handlersAfter handlers (.add handler sigaction)) := by
  obtain ⟨⟨xs, hholds, rfl⟩, hinstalled⟩ := h
  obtain ⟨l', hprepend, hholds'⟩ := slistPrepend_spec hholds handler
  have hhead := head_eq_none_iff hholds
  simp only [asyncHandlerAdd, ReturnsRight, handlersAfter]
  by_cases hargs : handler.callback = none ∨ handler.hw = none ∨ handler.fd < 0
  · have hnot : isAdded (xs.map Prod.snd) handler sigaction = false := by
      unfold isAdded
      rcases hargs with hargs | hargs | hargs
      · simp [hargs]
      · simp [hargs]
      · simp [hargs]
    rw [if_pos hargs, hnot]
    exact ⟨_, _, rfl, by decide, ⟨xs, hholds, rfl⟩, hinstalled⟩
  have hvalid : isAdded (xs.map Prod.snd) handler sigaction = (!xs.isEmpty || sigaction) := by
    obtain ⟨hcallback, hhw, hfd⟩ := not_or.mp hargs |>.imp_right not_or.mp
    unfold isAdded
    rw [Option.isSome_iff_ne_none.mpr hcallback, Option.isSome_iff_ne_none.mpr hhw,
      decide_eq_true (Int.not_lt.mp hfd), List.isEmpty_map]
    rfl
  rw [if_neg hargs, hvalid]
  by_cases hnil : xs = []
  · subst hnil
    rw [if_pos (hhead.mpr rfl), setSignalCb]
    cases sigaction with
    | false => exact ⟨_, _, rfl, by decide, ⟨[], hholds, rfl⟩, hinstalled⟩
    | true =>
        simp only [if_true, ne_eq, not_true_eq_false, if_false, hprepend, Option.map_some]
        exact ⟨_, _, rfl, by decide, ⟨_, hholds', rfl⟩, by simp⟩
  · have hsome : xs.isEmpty = false := List.isEmpty_eq_false_iff.mpr hnil
    have hmap : xs.map Prod.snd ≠ [] := fun h => hnil (List.map_eq_nil_iff.mp h)
    rw [if_neg (fun h => hnil (hhead.mp h)), hsome, hprepend]
    refine ⟨_, _, rfl, iff_of_true rfl rfl, ⟨_, hholds', rfl⟩, ?_⟩
    exact iff_of_true (hinstalled.mpr hmap) (List.cons_ne_nil _ _)

end

/-! ## Freeing cells -/

section

variable {l : LinkedList AsyncHandler} {handler : AsyncHandler} {x : Nat × AsyncHandler}
  {xs : List (Nat × AsyncHandler)} {ptr : Option Nat}

/-- A pointer to some cells is a pointer to the first of them. -/
theorem segment_cons (h : l.Segment ptr (x :: xs) none) : ∃ n, ptr = some x.1 ∧
    l.node x.1 = some n ∧ n.val = x.2 ∧ l.Segment n.next xs none ∧ ∀ y ∈ xs, y.1 ≠ x.1 := by
  have hnodup := h.nodup
  obtain _ | @⟨a, n, _, _, hnode, hrest⟩ := h
  refine ⟨n, rfl, hnode, rfl, hrest, fun y hy heq => ?_⟩
  have hmem : y.1 ∈ xs.map Prod.fst := List.mem_map_of_mem hy
  rw [heq] at hmem
  exact (List.nodup_cons.mp hnodup).1 hmem

/-- Other cells stay as they are when one is freed. -/
theorem segment_put {a : Nat} {n : Node AsyncHandler} (h : l.Segment ptr xs none)
    (hnode : l.node a = some n) (hne : ∀ y ∈ xs, y.1 ≠ a) :
    (l.put a none).Segment ptr xs none :=
  h.congr fun y hy => by rw [LinkedList.node_put hnode, if_neg (hne y hy)]

/-- The head does not matter to a segment. -/
theorem segment_head {head : Option Nat} (h : l.Segment ptr xs none) :
    LinkedList.Segment { l with head := head } ptr xs none :=
  h.congr fun _ _ => rfl

/-! ## Clearing -/

/-- The loop of `async_handler_clear` frees all cells. -/
theorem clearLoop_spec : ∀ {fuel : Nat} {l : LinkedList AsyncHandler}
    {xs : List (Nat × AsyncHandler)}, l.Holds xs → xs.length ≤ fuel →
      ∃ l', clearLoop fuel l = some l' ∧ l'.Holds []
  | 0, l, xs, h, hfuel => by
      obtain rfl := List.eq_nil_of_length_eq_zero (Nat.le_zero.mp hfuel)
      exact ⟨l, if_pos ((head_eq_none_iff h).mpr rfl), h⟩
  | fuel + 1, l, [], h, _ => by
      have hhead := (head_eq_none_iff h).mpr rfl
      obtain ⟨cells, head⟩ := l
      cases hhead
      exact ⟨_, rfl, h⟩
  | fuel + 1, l, x :: xs, h, hfuel => by
      obtain ⟨n, hhead, hnode, _, hrest, hne⟩ := segment_cons h
      have hholds : LinkedList.Holds { l.put x.1 none with head := n.next } xs :=
        segment_head (segment_put hrest hnode hne)
      have hnext := head_eq_none_iff hholds
      rw [clearLoop, hhead, slistDeleteHead, hnode]
      simp only [Option.map_some, Option.bind_some]
      by_cases hnil : xs = []
      · subst hnil
        rw [if_pos (hnext.mpr rfl)]
        exact ⟨_, rfl, hholds⟩
      · rw [if_neg (fun hnone => hnil (hnext.mp hnone))]
        exact clearLoop_spec hholds (Nat.le_of_succ_le_succ hfuel)

end

section

variable {s : AsyncState} {handlers : List AsyncHandler}

theorem asyncHandlerClear_spec (h : KeepsHandlers s handlers) (sigaction : Bool) :
    ∃ ret s', asyncHandlerClear sigaction s = some (ret, s') ∧
      (KeepsHandlers s' [] ↔ DeletesAtHead handlers (.clear sigaction)) := by
  obtain ⟨⟨xs, hholds, rfl⟩, hinstalled⟩ := h
  have hhead := head_eq_none_iff hholds
  unfold asyncHandlerClear
  by_cases hnil : xs = []
  · subst hnil
    rw [if_pos (hhead.mpr rfl)]
    exact ⟨_, _, rfl, iff_of_true ⟨⟨[], hholds, rfl⟩, hinstalled⟩ fun h => absurd rfl h⟩
  · have hmap : xs.map Prod.snd ≠ [] := fun h => hnil (List.map_eq_nil_iff.mp h)
    obtain ⟨l', hclear, hholds'⟩ := clearLoop_spec hholds (LinkedList.Segment.length_le hholds)
    rw [if_neg (fun h => hnil (hhead.mp h)), hclear]
    refine ⟨_, _, rfl, ?_⟩
    cases sigaction with
    | true => exact iff_of_true ⟨⟨[], hholds', rfl⟩,
        iff_of_false Bool.false_ne_true fun h => h rfl⟩ fun _ => rfl
    | false =>
        refine iff_of_false (fun h => ?_) (fun h => Bool.false_ne_true (h hmap))
        exact h.2.mp (hinstalled.mpr hmap) rfl

end

/-! ## Deleting -/

section

variable {handler : AsyncHandler}

/-- The cells of a handler. -/
abbrev cellsOf (handler : AsyncHandler) (xs : List (Nat × AsyncHandler)) :
    List (Nat × AsyncHandler) :=
  xs.filter (·.2 = handler)

/-- The loop of `async_handler_del`, once it has passed another handler: cells are freed
and no pointer changes. -/
theorem delLoop_behind : ∀ {xs : List (Nat × AsyncHandler)} {fuel : Nat}
    {l : LinkedList AsyncHandler} {prev ptr : Option Nat} {found : Nat}, prev ≠ none →
      l.Segment ptr xs none → xs.length ≤ fuel →
        ∃ l', delLoop handler fuel l prev ptr found =
            some (l', found + (cellsOf handler xs).length) ∧ l'.head = l.head ∧
          (∀ a, (∀ x ∈ xs, x.2 = handler → x.1 ≠ a) → l'.node a = l.node a) ∧
          ∀ x ∈ xs, x.2 = handler → l'.node x.1 = none
  | [], fuel, l, prev, ptr, found, _, h, _ => by
      cases h
      refine ⟨l, ?_, rfl, fun _ _ => rfl, fun x hx => by cases hx⟩
      cases fuel <;> rfl
  | x :: xs, 0, l, prev, ptr, found, _, _, hfuel => by cases hfuel
  | x :: xs, fuel + 1, l, prev, ptr, found, hprev, h, hfuel => by
      obtain ⟨n, rfl, hnode, hval, hrest, hne⟩ := segment_cons h
      have hfuel' := Nat.le_of_succ_le_succ hfuel
      rw [delLoop, hnode, Option.bind_some, hval]
      by_cases hx : x.2 = handler
      · have hcells : cellsOf handler (x :: xs) = x :: cellsOf handler xs :=
          List.filter_cons_of_pos (decide_eq_true hx)
        have hput (a : Nat) := LinkedList.node_put (a := a) hnode none
        obtain ⟨l', hloop, hhead, hframe, hfreed⟩ := delLoop_behind hprev
          (segment_put hrest hnode hne) hfuel'
        rw [if_pos hx, slistDeleteHead, hnode]
        simp only [Option.map_some, Option.bind_some, if_neg hprev]
        refine ⟨l', ?_, hhead, fun a ha => ?_, fun y hy hy' => ?_⟩
        · rw [hloop, hcells, List.length_cons, Nat.add_right_comm, Nat.add_assoc]
        · rw [hframe a fun y hy => ha y (List.mem_cons_of_mem x hy), hput,
            if_neg (ha x List.mem_cons_self hx).symm]
        · rcases List.mem_cons.mp hy with rfl | hy
          · rw [hframe _ fun z hz _ => hne z hz, hput, if_pos rfl]
          · exact hfreed y hy hy'
      · have hcells : cellsOf handler (x :: xs) = cellsOf handler xs :=
          List.filter_cons_of_neg (by simpa using hx)
        obtain ⟨l', hloop, hhead, hframe, hfreed⟩ := delLoop_behind
          (Option.some_ne_none x.1) hrest hfuel'
        rw [if_neg hx, hcells]
        refine ⟨l', hloop, hhead, fun a ha => ?_, fun y hy hy' => ?_⟩
        · exact hframe a fun y hy => ha y (List.mem_cons_of_mem x hy)
        · rcases List.mem_cons.mp hy with rfl | hy
          · exact absurd hy' hx
          · exact hfreed y hy hy'

/-- The cells of other handlers. -/
abbrev othersOf (handler : AsyncHandler) (xs : List (Nat × AsyncHandler)) :
    List (Nat × AsyncHandler) :=
  xs.filter (·.2 ≠ handler)

/-- The cells to delete are all at the head. -/
def AllAtHead (handler : AsyncHandler) (xs : List (Nat × AsyncHandler)) : Prop :=
  ∀ x ∈ xs.dropWhile (·.2 = handler), x.2 ≠ handler

/-- A pointer to some cells leads to one that has been freed, if any of them has. -/
theorem not_ends_of_freed {l l' : LinkedList AsyncHandler} :
    ∀ {xs ys : List (Nat × AsyncHandler)} {ptr : Option Nat}, l.Segment ptr xs none →
      (∀ a, (∀ x ∈ xs, x.2 = handler → x.1 ≠ a) → l'.node a = l.node a) →
      (∀ x ∈ xs, x.2 = handler → l'.node x.1 = none) → (∃ x ∈ xs, x.2 = handler) →
        ¬ l'.Segment ptr ys none
  | [], _, _, _, _, _, hmem => by
      obtain ⟨x, hx, _⟩ := hmem
      cases hx
  | x :: xs, ys, ptr, h, hframe, hfreed, hmem => by
      obtain ⟨n, rfl, hnode, _, hrest, hne⟩ := segment_cons h
      by_cases hx : x.2 = handler
      · exact LinkedList.Segment.not_ends (.nil _) (hfreed x List.mem_cons_self hx)
      · -- this cell is as it was, and the freed ones are behind it
        have hsame : l'.node x.1 = l.node x.1 := by
          apply hframe
          intro y hy hy'
          rcases List.mem_cons.mp hy with rfl | hy
          · exact absurd hy' hx
          · exact hne y hy
        have hframe' (a : Nat) (ha : ∀ y ∈ xs, y.2 = handler → y.1 ≠ a) :
            l'.node a = l.node a := by
          apply hframe
          intro y hy hy'
          rcases List.mem_cons.mp hy with rfl | hy
          · exact absurd hy' hx
          · exact ha y hy hy'
        have hmem' : ∃ y ∈ xs, y.2 = handler := by
          obtain ⟨y, hy, hy'⟩ := hmem
          rcases List.mem_cons.mp hy with rfl | hy
          · exact absurd hy' hx
          · exact ⟨y, hy, hy'⟩
        intro hends
        obtain _ | ⟨hnode', hrest'⟩ := hends
        rw [hsame, hnode] at hnode'
        cases hnode'
        exact not_ends_of_freed hrest hframe'
          (fun y hy => hfreed y (List.mem_cons_of_mem x hy)) hmem' hrest'

/-- **The loop of `async_handler_del`**: the list keeps the other handlers exactly if
those to delete are all at its head. -/
theorem delLoop_spec : ∀ {xs : List (Nat × AsyncHandler)} {fuel : Nat}
    {l : LinkedList AsyncHandler} (found : Nat), l.Holds xs → xs.length ≤ fuel →
      ∃ l', delLoop handler fuel l none l.head found =
          some (l', found + (cellsOf handler xs).length) ∧
        (l'.head = none ↔ othersOf handler xs = []) ∧
        (AllAtHead handler xs → l'.Holds (othersOf handler xs)) ∧
        (¬ AllAtHead handler xs → ∀ ys, ¬ l'.Holds ys)
  | [], fuel, l, found, h, _ => by
      have hhead := (head_eq_none_iff h).mpr rfl
      rw [hhead]
      refine ⟨l, ?_, iff_of_true hhead rfl, fun _ => h, fun hnot => ?_⟩
      · cases fuel <;> rfl
      · exact absurd (fun x hx => by cases hx) hnot
  | x :: xs, 0, l, found, _, hfuel => by cases hfuel
  | x :: xs, fuel + 1, l, found, h, hfuel => by
      obtain ⟨n, hhead, hnode, hval, hrest, hne⟩ := segment_cons h
      have hfuel' := Nat.le_of_succ_le_succ hfuel
      rw [hhead, delLoop, hnode, Option.bind_some, hval]
      by_cases hx : x.2 = handler
      · have hcells : cellsOf handler (x :: xs) = x :: cellsOf handler xs :=
          List.filter_cons_of_pos (decide_eq_true hx)
        have hothers : othersOf handler (x :: xs) = othersOf handler xs :=
          List.filter_cons_of_neg (by simpa using hx)
        have hall : AllAtHead handler (x :: xs) ↔ AllAtHead handler xs := by
          have hdrop : (x :: xs).dropWhile (·.2 = handler) = xs.dropWhile (·.2 = handler) :=
            List.dropWhile_cons_of_pos (decide_eq_true hx)
          unfold AllAtHead
          rw [hdrop]
        have hholds : LinkedList.Holds { l.put x.1 none with head := n.next } xs :=
          segment_head (segment_put hrest hnode hne)
        obtain ⟨l', hloop, hspec⟩ := delLoop_spec (found + 1) hholds hfuel'
        rw [if_pos hx, slistDeleteHead, hnode, hothers, hall]
        simp only [Option.map_some, Option.bind_some, if_true]
        refine ⟨l', ?_, hspec⟩
        rw [hloop, hcells, List.length_cons, Nat.add_right_comm, Nat.add_assoc]
      · have hcells : cellsOf handler (x :: xs) = cellsOf handler xs :=
          List.filter_cons_of_neg (by simpa using hx)
        have hothers : othersOf handler (x :: xs) = x :: othersOf handler xs :=
          List.filter_cons_of_pos (by simpa using hx)
        have hall : AllAtHead handler (x :: xs) ↔ ∀ y ∈ xs, y.2 ≠ handler := by
          have hdrop : (x :: xs).dropWhile (·.2 = handler) = x :: xs :=
            List.dropWhile_cons_of_neg (by simpa using hx)
          unfold AllAtHead
          rw [hdrop, List.forall_mem_cons]
          exact and_iff_right hx
        obtain ⟨l', hloop, hhead', hframe, hfreed⟩ := delLoop_behind
          (Option.some_ne_none x.1) hrest hfuel'
        rw [if_neg hx, hcells, hothers, hall]
        refine ⟨l', hloop, ?_, fun hno => ?_, fun hsome ys hys => ?_⟩
        · rw [hhead', hhead]
          exact iff_of_false (Option.some_ne_none _) (List.cons_ne_nil _ _)
        · have hself : othersOf handler xs = xs :=
            List.filter_eq_self.mpr fun y hy => decide_eq_true (hno y hy)
          unfold LinkedList.Holds at h ⊢
          rw [hself, hhead']
          exact h.congr fun y _ => hframe y.1 fun z hz hz' => absurd hz' (hno z hz)
        · have hmem : ∃ y ∈ x :: xs, y.2 = handler := by
            by_contra hnone
            exact hsome fun y hy heq => hnone ⟨y, List.mem_cons_of_mem x hy, heq⟩
          unfold LinkedList.Holds at h hys
          rw [hhead'] at hys
          refine not_ends_of_freed h (fun a ha => ?_) (fun y hy hy' => ?_) hmem hys
          · exact hframe a fun y hy => ha y (List.mem_cons_of_mem x hy)
          · rcases List.mem_cons.mp hy with rfl | hy
            · exact absurd hy' hx
            · exact hfreed y hy hy'

end

section

variable {s : AsyncState} {handlers : List AsyncHandler}

/-- What a call does to the handlers as they are in the cells. -/
theorem cells_map (handler : AsyncHandler) (xs : List (Nat × AsyncHandler)) :
    (othersOf handler xs).map Prod.snd = (xs.map Prod.snd).filter (· ≠ handler) ∧
      (AllAtHead handler xs ↔ handler ∉ (xs.map Prod.snd).dropWhile (· = handler)) ∧
      (0 < (cellsOf handler xs).length ↔ handler ∈ xs.map Prod.snd) := by
  refine ⟨?_, ?_, ?_⟩
  · rw [List.filter_map]
    rfl
  · unfold AllAtHead
    rw [List.dropWhile_map]
    simp only [List.mem_map, not_exists, not_and]
    rfl
  · rw [List.length_pos_iff_exists_mem]
    simp only [List.mem_filter, decide_eq_true_eq, List.mem_map]

theorem asyncHandlerDel_spec (h : KeepsHandlers s handlers) (handler : AsyncHandler)
    (sigaction : Bool) :
    ∃ ret s', asyncHandlerDel handler sigaction s = some (ret, s') ∧
      ((ReturnsRight handlers ret (.del handler sigaction) ∧
          KeepsHandlers s' (handlersAfter handlers (.del handler sigaction))) ↔
        DeletesAtHead handlers (.del handler sigaction)) := by
  obtain ⟨⟨xs, hholds, rfl⟩, hinstalled⟩ := h
  obtain ⟨hothers, hall, hfound⟩ := cells_map handler xs
  obtain ⟨l', hloop, hhead, hkeeps, hbreaks⟩ :=
    delLoop_spec 0 hholds (LinkedList.Segment.length_le hholds)
  have hholds_iff : (∃ ys, l'.Holds ys ∧ ys.map Prod.snd = (xs.map Prod.snd).filter
      (· ≠ handler)) ↔ handler ∉ (xs.map Prod.snd).dropWhile (· = handler) := by
    rw [← hall]
    constructor
    · rintro ⟨ys, hys, _⟩
      by_contra hnot
      exact hbreaks hnot ys hys
    · exact fun hat => ⟨_, hkeeps hat, hothers⟩
  have hempty : l'.head = none ↔ (xs.map Prod.snd).filter (· ≠ handler) = [] := by
    rw [hhead, ← hothers, List.map_eq_nil_iff]
  simp only [asyncHandlerDel, hloop, Option.map_some, ReturnsRight, handlersAfter,
    DeletesAtHead, KeepsHandlers, Nat.zero_add]
  have hret : ((if (cellsOf handler xs).length ≠ 0 then 0 else -1 : Int) = 0 ↔
      handler ∈ xs.map Prod.snd) := by
    rw [← hfound, Nat.pos_iff_ne_zero]
    by_cases hlen : (cellsOf handler xs).length = 0
    · simp [hlen]
    · simp [hlen]
  by_cases hnil : (xs.map Prod.snd).filter (· ≠ handler) = []
  · -- nothing is left
    have hall_eq : ∀ x ∈ xs.map Prod.snd, x = handler := by
      intro x hx
      by_contra hne
      exact List.filter_eq_nil_iff.mp hnil x hx (decide_eq_true hne)
    have hat : handler ∉ (xs.map Prod.snd).dropWhile (· = handler) := by
      rw [List.dropWhile_eq_nil_iff.mpr fun x hx => decide_eq_true (hall_eq x hx)]
      exact List.not_mem_nil
    rw [if_pos (hempty.mpr hnil), hnil]
    rw [hnil] at hholds_iff
    cases sigaction with
    | true =>
        refine ⟨_, _, rfl, iff_of_true ⟨?_, hholds_iff.mpr hat, ?_⟩ ⟨hat, fun _ _ => rfl⟩⟩
        · rw [← hret]
          exact ite_eq_left_iff.trans ⟨fun h => by_contra fun hne => hne (h hne), fun h hne =>
            absurd h hne⟩
        · exact iff_of_false Bool.false_ne_true fun h => h rfl
    | false =>
        refine ⟨-1, { s with asyncHandlers := l' }, ?_, ?_⟩
        · by_cases hlen : (cellsOf handler xs).length ≠ 0
          · rw [if_pos hlen]
            rfl
          · rw [if_neg hlen]
            rfl
        · by_cases hmap : xs.map Prod.snd = []
          · rw [hmap] at hinstalled ⊢
            exact iff_of_true ⟨iff_of_false (by decide) List.not_mem_nil, hholds_iff.mpr hat,
              hinstalled⟩
              ⟨List.not_mem_nil, fun h => absurd rfl h⟩
          · refine iff_of_false (fun h => ?_) fun h => Bool.false_ne_true (h.2 hmap rfl)
            exact h.2.2.mp (hinstalled.mpr hmap) rfl
  · have hmap : xs.map Prod.snd ≠ [] := fun hno => hnil (by rw [hno]; rfl)
    rw [if_neg (fun hno => hnil (hempty.mp hno))]
    refine ⟨_, _, rfl, ?_⟩
    rw [hholds_iff]
    constructor
    · rintro ⟨_, hat, _⟩
      exact ⟨hat, fun _ hno => absurd hno hnil⟩
    · rintro ⟨hat, _⟩
      exact ⟨hret, hat, iff_of_true (hinstalled.mpr hmap) hnil⟩

/-! ## Runs -/

/-- **A call** keeps the list right exactly if what it deletes is at the head. -/
theorem asyncStep_spec (h : KeepsHandlers s handlers) (c : AsyncCall) :
    ∃ ret s', asyncStep s c = some (ret, s') ∧
      ((ReturnsRight handlers ret c ∧ KeepsHandlers s' (handlersAfter handlers c)) ↔
        DeletesAtHead handlers c) := by
  cases c with
  | add handler sigaction =>
      obtain ⟨ret, s', hstep, hret, hkeeps⟩ := asyncHandlerAdd_spec h handler sigaction
      exact ⟨ret, s', hstep, iff_of_true ⟨hret, hkeeps⟩ trivial⟩
  | del handler sigaction => exact asyncHandlerDel_spec h handler sigaction
  | clear sigaction =>
      obtain ⟨ret, s', hstep, hiff⟩ := asyncHandlerClear_spec h sigaction
      exact ⟨ret, s', hstep, (and_iff_right trivial).trans hiff⟩

theorem KeepsInRun.start {cs : List AsyncCall} (h : KeepsInRun s handlers cs) :
    KeepsHandlers s handlers := by
  cases cs with
  | nil => exact h
  | cons c cs => exact h.1

theorem keepsInRun_iff_of {cs : List AsyncCall} : ∀ {s : AsyncState}
    {handlers : List AsyncHandler}, KeepsHandlers s handlers →
      (KeepsInRun s handlers cs ↔ DeletesAtHeadInRun handlers cs) := by
  induction cs with
  | nil => exact fun h => iff_of_true h trivial
  | cons c cs ih =>
      intro s handlers h
      obtain ⟨ret, s', hstep, hiff⟩ := asyncStep_spec h c
      constructor
      · rintro ⟨_, ret', s'', hstep', hret, hrest⟩
        rw [hstep] at hstep'
        cases hstep'
        have hkeeps := hrest.start
        exact ⟨hiff.mp ⟨hret, hkeeps⟩, (ih hkeeps).mp hrest⟩
      · rintro ⟨hcall, hrest⟩
        obtain ⟨hret, hkeeps⟩ := hiff.mpr hcall
        exact ⟨h, ret, s', hstep, hret, (ih hkeeps).mpr hrest⟩

end

/-- No handlers, and the signal as it is by default. -/
def AsyncState.start : AsyncState := ⟨.empty, false⟩

theorem AsyncState.start_keeps : KeepsHandlers .start [] :=
  ⟨⟨[], LinkedList.holds_empty, rfl⟩, iff_of_false Bool.false_ne_true fun h => h rfl⟩

/-- **The list of handlers** over all sequences of calls. -/
theorem keepsInRun_iff (cs : List AsyncCall) :
    KeepsInRun .start [] cs ↔ DeletesAtHeadInRun [] cs :=
  keepsInRun_iff_of AsyncState.start_keeps

/-! ## Two streams -/

/-- The handler of a stream. -/
def streamHandler (hw : Nat) : AsyncHandler := ⟨some 0, some hw, hw, none⟩

/-- The stream that was started first ends first. -/
def firstEndsFirst : List AsyncCall :=
  [.add (streamHandler 1) true, .add (streamHandler 2) true, .del (streamHandler 1) true]

/-- The cell of the first stream is still led to from that of the second. -/
theorem firstEndsFirst_dangles : ¬ ∀ cs : List AsyncCall, KeepsInRun .start [] cs := by
  intro hall
  obtain ⟨_, _, ⟨hat, _⟩, _⟩ :=
    (keepsInRun_iff_of AsyncState.start_keeps).mp (hall firstEndsFirst)
  exact hat (by decide)

end Blts.Alsa
