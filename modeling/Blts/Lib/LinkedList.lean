import Mathlib.Data.List.Basic
import Mathlib.Data.List.Nodup
import Mathlib.Data.Finset.Card

/-!
# Singly linked lists in memory

A list is a pointer to its first cell, and a cell has a value and a pointer to
the next one.  Cells are never used again once they are freed, so a pointer to a
freed cell leads nowhere.  Walks follow the pointers: they fail where a pointer
leads nowhere, or where they would never end.

`Holds l xs` says that the cells of `l` are those of `xs`, in order.  Under it a
walk finds the first match (`find_spec`), and inserting and removing at the
pointer that the walk stopped at are what they are on `xs` (`insert_spec`,
`remove_spec`).
-/

namespace Blts.Lib

universe u

variable {α : Type u}

/-- A cell of a list. -/
structure Node (α : Type u) where
  next : Option Nat
  val : α
  deriving DecidableEq

/-- Memory with a list in it; `none` is a cell that has been freed. -/
structure LinkedList (α : Type u) where
  cells : List (Option (Node α))
  head : Option Nat
  deriving DecidableEq

/-- A pointer to a pointer of the list. -/
inductive Link where
  | head
  | after (a : Nat)
  deriving DecidableEq

namespace LinkedList

/-- Nothing has been allocated. -/
def empty : LinkedList α where
  cells := []
  head := none

/-- Follow a pointer. -/
def node (l : LinkedList α) (a : Nat) : Option (Node α) :=
  l.cells[a]?.join

/-- Write to a cell. -/
def put (l : LinkedList α) (a : Nat) (n : Option (Node α)) : LinkedList α :=
  { l with cells := l.cells.set a n }

/-- The walk to the first match from pointer `ptr`, which is at `link`: the place
of the pointer to the match, or of the null pointer at the end. -/
def seek (l : LinkedList α) (p : α → Bool) :
    Nat → Link → Option Nat → Option (Link × Option Nat)
  | _, link, none => some (link, none)
  | 0, _, some _ => none
  | fuel + 1, link, some a =>
      (l.node a).bind fun n =>
        if p n.val then some (link, some a) else seek l p fuel (.after a) n.next

/-- The walk from the head. -/
def find (l : LinkedList α) (p : α → Bool) : Option (Link × Option Nat) :=
  l.seek p l.cells.length .head l.head

/-- Change the value of a cell. -/
def modify (l : LinkedList α) (a : Nat) (f : α → α) : Option (LinkedList α) :=
  (l.node a).map fun n => l.put a (some { n with val := f n.val })

/-- Read a pointer of the list. -/
def readLink (l : LinkedList α) : Link → Option (Option Nat)
  | .head => some l.head
  | .after a => (l.node a).map Node.next

/-- Write a pointer of the list. -/
def setLink (l : LinkedList α) (ptr : Option Nat) : Link → Option (LinkedList α)
  | .head => some { l with head := ptr }
  | .after a => (l.node a).map fun n => l.put a (some { n with next := ptr })

/-- Allocate a cell and put it in the list at a pointer. -/
def insert (l : LinkedList α) (link : Link) (v : α) : Option (LinkedList α) :=
  (l.readLink link).bind fun ptr =>
    let l' : LinkedList α := { l with cells := l.cells ++ [some { next := ptr, val := v }] }
    l'.setLink (some l.cells.length) link

/-- Take a cell out of the list at a pointer, and free it. -/
def remove (l : LinkedList α) (link : Link) (a : Nat) : Option (LinkedList α) :=
  (l.node a).bind fun n => (l.setLink n.next link).map fun l => l.put a none

/-- The cells of the list, up to some number. -/
def contentsFrom (l : LinkedList α) : Nat → Option Nat → List (Nat × α)
  | fuel + 1, some a =>
      match l.node a with
      | some n => (a, n.val) :: contentsFrom l fuel n.next
      | none => []
  | _, _ => []

/-- The cells of the list. -/
def contents (l : LinkedList α) : List (Nat × α) :=
  l.contentsFrom l.cells.length l.head

/-! ## Segments -/

/-- The cells `xs` follow one another from pointer `p` to pointer `q`. -/
inductive Segment (l : LinkedList α) : Option Nat → List (Nat × α) → Option Nat → Prop
  | nil (p : Option Nat) : Segment l p [] p
  | cons {a : Nat} {n : Node α} {xs : List (Nat × α)} {q : Option Nat}
      (hnode : l.node a = some n) (hrest : Segment l n.next xs q) :
      Segment l (some a) ((a, n.val) :: xs) q

/-- The cells of the list are `xs`. -/
def Holds (l : LinkedList α) (xs : List (Nat × α)) : Prop :=
  Segment l l.head xs none

variable {l l' : LinkedList α} {p q r : Option Nat} {xs ys : List (Nat × α)}

theorem holds_empty : Holds (empty : LinkedList α) [] := .nil none

theorem Segment.append (hxs : Segment l p xs q) (hys : Segment l q ys r) :
    Segment l p (xs ++ ys) r := by
  induction hxs with
  | nil p => exact hys
  | cons hnode _ ih => exact .cons hnode (ih hys)

theorem Segment.split (h : Segment l p (xs ++ ys) r) :
    ∃ q, Segment l p xs q ∧ Segment l q ys r := by
  induction xs generalizing p with
  | nil => exact ⟨p, .nil p, h⟩
  | cons x xs ih =>
      obtain _ | ⟨hnode, hrest⟩ := h
      obtain ⟨q, hxs, hys⟩ := ih hrest
      exact ⟨q, .cons hnode hxs, hys⟩

/-- A segment up to the end starts with its first cell. -/
theorem Segment.start_eq (h : Segment l p xs none) : p = xs.head?.map Prod.fst := by
  cases h <;> rfl

/-- A segment only depends on its own cells. -/
theorem Segment.congr (h : Segment l p xs q)
    (hcells : ∀ x ∈ xs, l'.node x.1 = l.node x.1) : Segment l' p xs q := by
  induction h with
  | nil p => exact .nil p
  | cons hnode _ ih =>
      obtain ⟨hcell, hcells⟩ := List.forall_mem_cons.mp hcells
      exact .cons (hcell.trans hnode) (ih hcells)

/-- The cells up to the end are determined. -/
theorem Segment.unique (hxs : Segment l p xs none) (hys : Segment l p ys none) : xs = ys := by
  induction xs generalizing p ys with
  | nil =>
      cases hxs
      cases hys
      rfl
  | cons x xs ih =>
      obtain _ | ⟨hnode, hrest⟩ := hxs
      obtain _ | ⟨hnode', hrest'⟩ := hys
      rw [hnode] at hnode'
      cases hnode'
      rw [ih hrest hrest']

/-- Cells that lead to one that has been freed do not come to an end. -/
theorem Segment.not_ends {a : Nat} (h : Segment l p xs (some a)) (hfreed : l.node a = none) :
    ¬ Segment l p ys none := by
  induction xs generalizing p ys with
  | nil =>
      cases h
      intro hend
      obtain _ | ⟨hnode, _⟩ := hend
      rw [hfreed] at hnode
      cases hnode
  | cons x xs ih =>
      obtain _ | ⟨hnode, hrest⟩ := h
      intro hend
      obtain _ | ⟨hnode', hrest'⟩ := hend
      rw [hnode] at hnode'
      cases hnode'
      exact ih hrest hrest'

/-- No cell comes twice before the end. -/
theorem Segment.nodup (h : Segment l p xs none) : (xs.map Prod.fst).Nodup := by
  induction xs generalizing p with
  | nil => exact List.nodup_nil
  | cons x xs ih =>
      have hwhole := h
      obtain _ | @⟨a, n, _, _, hnode, hrest⟩ := h
      refine List.nodup_cons.mpr ⟨fun hmem => ?_, ih hrest⟩
      -- the cells from the second time on would be all of them
      obtain ⟨⟨a', v⟩, hx, haddr⟩ := List.mem_map.mp hmem
      obtain rfl : a' = a := haddr
      obtain ⟨pre, post, rfl⟩ := List.append_of_mem hx
      obtain ⟨q, _, hagain⟩ := hrest.split
      obtain rfl : q = some a' := by
        cases hagain
        rfl
      have hlength := congrArg List.length (hwhole.unique hagain)
      simp only [List.length_cons, List.length_append] at hlength
      omega

theorem node_lt {a : Nat} {n : Node α} (h : l.node a = some n) : a < l.cells.length := by
  by_contra hnot
  rw [node, List.getElem?_eq_none (Nat.le_of_not_lt hnot)] at h
  cases h

theorem Segment.lt_length (h : Segment l p xs q) : ∀ x ∈ xs, x.1 < l.cells.length := by
  induction h with
  | nil p => exact fun x hx => by cases hx
  | cons hnode _ ih => exact List.forall_mem_cons.mpr ⟨node_lt hnode, ih⟩

/-- There are no more cells in the list than in memory. -/
theorem Segment.length_le (h : Segment l p xs none) : xs.length ≤ l.cells.length := by
  have hsub : (xs.map Prod.fst).toFinset ⊆ Finset.range l.cells.length := by
    intro a ha
    obtain ⟨x, hx, rfl⟩ := List.mem_map.mp (List.mem_toFinset.mp ha)
    exact Finset.mem_range.mpr (h.lt_length x hx)
  have hcard := Finset.card_le_card hsub
  rwa [List.toFinset_card_of_nodup h.nodup, List.length_map, Finset.card_range] at hcard

/-- The cells are what is read in a walk. -/
theorem contents_eq (h : Holds l xs) : l.contents = xs := by
  have hfrom : ∀ {p : Option Nat} {xs : List (Nat × α)} {fuel : Nat}, Segment l p xs none →
      xs.length ≤ fuel → l.contentsFrom fuel p = xs := by
    intro p xs
    induction xs generalizing p with
    | nil =>
        intro fuel hseg _
        cases hseg
        cases fuel <;> rfl
    | cons x xs ih =>
        intro fuel hseg hle
        obtain _ | ⟨hnode, hrest⟩ := hseg
        cases fuel with
        | zero => cases hle
        | succ fuel =>
            rw [contentsFrom, hnode]
            exact congrArg _ (ih hrest (Nat.le_of_succ_le_succ hle))
  exact hfrom h h.length_le

/-! ## Walks -/

/-- The pointer behind some cells. -/
def linkAt (pre : List (Nat × α)) : Link :=
  match pre.getLast? with
  | some x => .after x.1
  | none => .head

@[simp] theorem linkAt_nil : linkAt ([] : List (Nat × α)) = .head := rfl

@[simp] theorem linkAt_append_singleton (pre : List (Nat × α)) (x : Nat × α) :
    linkAt (pre ++ [x]) = .after x.1 := by
  simp [linkAt]

/-- A walk splits the cells in front of the first match. -/
structure FoundAt (p : α → Bool) (xs pre post : List (Nat × α)) : Prop where
  eq : xs = pre ++ post
  before : ∀ x ∈ pre, p x.2 = false
  first : ∀ x ∈ post.head?, p x.2 = true

/-- **The walk** stops at the first match, or at the end. -/
theorem find_spec (h : Holds l xs) (p : α → Bool) :
    ∃ pre post, FoundAt p xs pre post ∧
      l.find p = some (linkAt pre, post.head?.map Prod.fst) := by
  have hseek : ∀ {ys : List (Nat × α)} {ptr : Option Nat} {fuel : Nat}
      (done : List (Nat × α)), (∀ x ∈ done, p x.2 = false) → Segment l ptr ys none →
      ys.length ≤ fuel → ∃ pre post, FoundAt p (done ++ ys) pre post ∧
        l.seek p fuel (linkAt done) ptr = some (linkAt pre, post.head?.map Prod.fst) := by
    intro ys
    induction ys with
    | nil =>
        intro ptr fuel done hdone hseg _
        cases hseg
        refine ⟨done, [], ⟨rfl, hdone, fun x hx => by cases hx⟩, ?_⟩
        cases fuel <;> rfl
    | cons y ys ih =>
        intro ptr fuel done hdone hseg hle
        obtain _ | @⟨a, n, _, _, hnode, hrest⟩ := hseg
        cases fuel with
        | zero => cases hle
        | succ fuel =>
            rw [seek, hnode, Option.bind_some]
            by_cases hp : p n.val = true
            · rw [if_pos hp]
              refine ⟨done, _, ⟨rfl, hdone, fun x hx => ?_⟩, rfl⟩
              cases hx
              exact hp
            · rw [if_neg hp]
              have hdone' : ∀ x ∈ done ++ [(a, n.val)], p x.2 = false := by
                intro x hx
                rcases List.mem_append.mp hx with hx | hx
                · exact hdone x hx
                · rw [List.mem_singleton.mp hx]
                  exact Bool.not_eq_true _ ▸ hp
              have := ih (done ++ [(a, n.val)]) hdone' hrest (Nat.le_of_succ_le_succ hle)
              rwa [linkAt_append_singleton, List.append_assoc] at this
  exact hseek [] (fun x hx => by cases hx) h h.length_le

/-! ## Changes -/

theorem node_put {a b : Nat} {n : Node α} (hb : l.node b = some n) (m : Option (Node α)) :
    (l.put b m).node a = if a = b then m else l.node a := by
  have hlt := node_lt hb
  unfold node put
  rw [List.getElem?_set]
  by_cases hab : b = a
  · subst hab
    rw [if_pos rfl, if_pos hlt, if_pos rfl]
    cases m <;> rfl
  · rw [if_neg hab, if_neg (Ne.symm hab)]

/-- The cells on both sides of a cell are others. -/
theorem Segment.ne_of_nodup {pre post : List (Nat × α)} {a : Nat} {v : α}
    (hnodup : ((pre ++ (a, v) :: post).map Prod.fst).Nodup) :
    (∀ x ∈ pre, x.1 ≠ a) ∧ ∀ x ∈ post, x.1 ≠ a := by
  rw [List.map_append, List.map_cons] at hnodup
  obtain ⟨_, hcons, hdisj⟩ := List.nodup_append.mp hnodup
  constructor
  · intro x hx
    exact hdisj _ (List.mem_map_of_mem hx) _ List.mem_cons_self
  · intro x hx heq
    have hmem : x.1 ∈ post.map Prod.fst := List.mem_map_of_mem hx
    rw [heq] at hmem
    exact (List.nodup_cons.mp hcons).1 hmem

/-- **Changing a value** changes nothing else. -/
theorem modify_spec {pre post : List (Nat × α)} {a : Nat} {v : α}
    (h : Holds l (pre ++ (a, v) :: post)) (f : α → α) :
    ∃ l', l.modify a f = some l' ∧ Holds l' (pre ++ (a, f v) :: post) ∧
      l'.cells.length = l.cells.length := by
  obtain ⟨hpre, hpost⟩ := Segment.ne_of_nodup h.nodup
  obtain ⟨q, hsegpre, hseg⟩ := Segment.split h
  obtain _ | @⟨_, n, _, _, hnode, hrest⟩ := hseg
  have hput := fun b => node_put (a := b) hnode (some { n with val := f n.val })
  refine ⟨l.put a (some { n with val := f n.val }), by rw [modify, hnode]; rfl, ?_,
    List.length_set⟩
  refine Segment.append (hsegpre.congr fun x hx => ?_) (.cons (n := { n with val := f n.val })
    ?_ (hrest.congr fun x hx => ?_))
  · rw [hput, if_neg (hpre x hx)]
  · rw [hput, if_pos rfl]
  · rw [hput, if_neg (hpost x hx)]

/-- The pointer behind a segment from the head is the one that it ends with. -/
theorem readLink_spec {pre : List (Nat × α)} (h : Segment l l.head pre q) :
    l.readLink (linkAt pre) = some q := by
  obtain rfl | ⟨pre, ⟨a, v⟩, rfl⟩ := List.eq_nil_or_concat' pre
  · generalize hhead : l.head = ptr at h
    cases h
    exact congrArg some hhead
  · obtain ⟨q', _, hlast⟩ := h.split
    obtain _ | @⟨_, n, _, _, hnode, hrest⟩ := hlast
    have hnext : n.next = q := by
      generalize n.next = ptr at hrest
      cases hrest
      rfl
    rw [linkAt_append_singleton, readLink, hnode, Option.map_some, hnext]

/-- Writing that pointer makes the segment end with another. -/
theorem setLink_spec {pre : List (Nat × α)} (h : Segment l l.head pre q)
    (hnodup : (pre.map Prod.fst).Nodup) (q' : Option Nat) :
    ∃ l', l.setLink q' (linkAt pre) = some l' ∧ Segment l' l'.head pre q' ∧
      l'.cells.length = l.cells.length ∧
      ∀ a, (∀ x ∈ pre, x.1 ≠ a) → l'.node a = l.node a := by
  obtain rfl | ⟨pre, ⟨b, v⟩, rfl⟩ := List.eq_nil_or_concat' pre
  · exact ⟨_, rfl, .nil q', rfl, fun a _ => rfl⟩
  · obtain ⟨hpre, _⟩ := Segment.ne_of_nodup hnodup
    obtain ⟨q'', hsegpre, hlast⟩ := h.split
    obtain _ | @⟨_, n, _, _, hnode, hrest⟩ := hlast
    have hput := fun a => node_put (a := a) hnode (some { n with next := q' })
    refine ⟨l.put b (some { n with next := q' }), ?_, ?_, List.length_set, fun a ha => ?_⟩
    · rw [linkAt_append_singleton, setLink, hnode]
      rfl
    · refine Segment.append (hsegpre.congr fun x hx => ?_)
        (.cons (n := { n with next := q' }) ?_ (.nil q'))
      · rw [hput, if_neg (hpre x hx)]
      · rw [hput, if_pos rfl]
    · rw [hput, if_neg]
      rintro rfl
      exact ha _ (List.mem_append_right _ List.mem_cons_self) rfl

/-- **Inserting** a cell at the place of a walk. -/
theorem insert_spec {pre post : List (Nat × α)} (h : Holds l (pre ++ post)) (v : α) :
    ∃ l', l.insert (linkAt pre) v = some l' ∧
      Holds l' (pre ++ (l.cells.length, v) :: post) ∧
      l'.cells.length = l.cells.length + 1 := by
  obtain ⟨q, hsegpre, hseg⟩ := Segment.split h
  have hlt := Segment.lt_length h
  let l₁ : LinkedList α := { l with cells := l.cells ++ [some { next := q, val := v }] }
  have hold : ∀ x ∈ pre ++ post, l₁.node x.1 = l.node x.1 := by
    intro x hx
    show (l.cells ++ _)[x.1]?.join = _
    rw [List.getElem?_append_left (hlt x hx)]
    rfl
  have hnew : l₁.node l.cells.length = some { next := q, val := v } := by
    show (l.cells ++ _)[l.cells.length]?.join = _
    rw [List.getElem?_append_right (Nat.le_refl _), Nat.sub_self]
    rfl
  have hnodup := Segment.nodup h
  rw [List.map_append] at hnodup
  have hdisj := List.nodup_append.mp hnodup
  obtain ⟨l', hset, hsegpre', hlength, hframe⟩ := setLink_spec (l := l₁)
    (hsegpre.congr fun x hx => hold x (List.mem_append_left _ hx)) hdisj.1
    (some l.cells.length)
  refine ⟨l', ?_, ?_, ?_⟩
  · rw [insert, readLink_spec hsegpre]
    exact hset
  · refine hsegpre'.append (.cons (n := { next := q, val := v }) ?_ (hseg.congr fun x hx => ?_))
    · rw [hframe _ fun x hx => ?_, hnew]
      exact Nat.ne_of_lt (hlt x (List.mem_append_left _ hx))
    · rw [hframe _ fun y hy => ?_, hold x (List.mem_append_right _ hx)]
      exact hdisj.2.2 _ (List.mem_map_of_mem hy) _ (List.mem_map_of_mem hx)
  · rw [hlength]
    exact List.length_append

/-- **Removing** the cell that a walk stopped at. -/
theorem remove_spec {pre post : List (Nat × α)} {a : Nat} {v : α}
    (h : Holds l (pre ++ (a, v) :: post)) :
    ∃ l', l.remove (linkAt pre) a = some l' ∧ Holds l' (pre ++ post) ∧
      l'.cells.length = l.cells.length := by
  have hnodup := h.nodup
  obtain ⟨hpre, hpost⟩ := Segment.ne_of_nodup hnodup
  obtain ⟨q, hsegpre, hseg⟩ := Segment.split h
  obtain _ | @⟨_, n, _, _, hnode, hrest⟩ := hseg
  rw [List.map_append, List.map_cons] at hnodup
  have hdisj := List.nodup_append.mp hnodup
  obtain ⟨l₁, hset, hsegpre', hlength, hframe⟩ := setLink_spec hsegpre hdisj.1 n.next
  have hnode₁ : l₁.node a = some n := by rw [hframe a hpre, hnode]
  have hput := fun b => node_put (a := b) hnode₁ none
  refine ⟨l₁.put a none, ?_, ?_, List.length_set.trans hlength⟩
  · rw [remove, hnode, Option.bind_some, hset]
    rfl
  · refine Segment.append (hsegpre'.congr fun x hx => ?_) (hrest.congr fun x hx => ?_)
    · rw [hput, if_neg (hpre x hx)]
    · rw [hput, if_neg (hpost x hx), hframe]
      intro y hy
      exact hdisj.2.2 _ (List.mem_map_of_mem hy) _
        (List.mem_cons_of_mem _ (List.mem_map_of_mem hx))

end LinkedList

end Blts.Lib
