import Mathlib.Data.List.Basic
import Blts.Sync.Barrier

/-!
# Registering users of tagged barriers

`blts_sync_add_tag` and `blts_sync_del_tag` work on the barrier table under
`sync_mutex`, so that each call is one step.  A tag is looked up by comparing as
many characters as it has, at most 16, with the names in the table.

`Registrations` is what the table is meant to record: which tag each barrier
belongs to, and how often it is registered.  The two agree as long as every tag
resolves to its own barrier (`tags_exact`).
-/

namespace Blts.Sync

open Blts.Lib

/-! ## The table -/

/-- `UINT_MAX + 1`. -/
def uintMod : Nat := 4294967296

def enospc : Int := 28

/-- An entry after `memset`. -/
def TaggedBarrierEntry.zero : TaggedBarrierEntry where
  refcount := 0
  active := false
  barrierArriveSignal := 0
  barrierDepartSignal := 0
  tag := []

/-- `barrier_init`, where the semaphores can be initialised. -/
def barrierInit (barriers : Nat → TaggedBarrierEntry) (index clientCount : Nat)
    (tag : List Char) : Int × (Nat → TaggedBarrierEntry) :=
  if (barriers index).refcount ≠ 0 then (-1, barriers)
  else (0, Function.update barriers index
    { TaggedBarrierEntry.zero with
      refcount := clientCount
      tag := tag.take syncTagLen })

/-- The first barrier that is not in use. -/
def freeBarrier (barriers : Nat → TaggedBarrierEntry) : Option Nat :=
  (List.range syncTagCount).find? fun i => (barriers i).refcount == 0

/-- `tagged_barrier_ref`: the index of the barrier, or an error. -/
def taggedBarrierRef (barriers : Nat → TaggedBarrierEntry) (tag : List Char) :
    Int × (Nat → TaggedBarrierEntry) :=
  match findTaggedBarrier barriers tag with
  | some i => (i, Function.update barriers i
      { barriers i with refcount := ((barriers i).refcount + 1) % uintMod })
  | none =>
      match freeBarrier barriers with
      | some i =>
          let (err, barriers) := barrierInit barriers i 1 tag
          if err ≠ 0 then (err, barriers) else (i, barriers)
      | none => (-enospc, barriers)

/-- `tagged_barrier_unref`. -/
def taggedBarrierUnref (barriers : Nat → TaggedBarrierEntry) (tag : List Char) :
    Nat → TaggedBarrierEntry :=
  match findTaggedBarrier barriers tag with
  | none => barriers
  | some i =>
      if (barriers i).refcount - 1 = 0 then
        Function.update barriers i .zero
      else
        Function.update barriers i
          { barriers i with refcount := (barriers i).refcount - 1 }

/-- `blts_sync_add_tag` and `blts_sync_del_tag`. -/
inductive TagCall where
  | addTag (tag : List Char)
  | delTag (tag : List Char)

def TagCall.tag : TagCall → List Char
  | .addTag tag => tag
  | .delTag tag => tag

/-- The result of a call and the table after it. -/
def TagCall.run (barriers : Nat → TaggedBarrierEntry) :
    TagCall → Int × (Nat → TaggedBarrierEntry)
  | .addTag tag => taggedBarrierRef barriers tag
  | .delTag tag => (0, taggedBarrierUnref barriers tag)

/-- The table that `blts_sync_master_init` sets up. -/
def masterBarriers (clientCount : Nat) : Nat → TaggedBarrierEntry :=
  (barrierInit (fun _ => .zero) 0 clientCount "default".toList).2

/-! ## What the table is meant to record -/

/-- A tag with the number of its registrations. -/
structure Registration where
  tag : List Char
  count : Nat
  deriving DecidableEq

/-- The registrations by barrier; none is for the anonymous barrier 0. -/
abbrev Registrations := Nat → Option Registration

namespace Registrations

/-- The barrier of a tag. -/
def barrierOf (r : Registrations) (tag : List Char) : Option Nat :=
  (List.range syncTagCount).find? fun i => i != 0 && (r i).any fun e => e.tag == tag

/-- The first barrier without a tag. -/
def free (r : Registrations) : Option Nat :=
  (List.range syncTagCount).find? fun i => i != 0 && (r i).isNone

/-- The number of registrations of a tag. -/
def count (r : Registrations) (tag : List Char) : Nat :=
  ((r.barrierOf tag).bind r).elim 0 Registration.count

/-- One more registration, and whether there is a barrier for it. -/
def add (r : Registrations) (tag : List Char) : Bool × Registrations :=
  match r.barrierOf tag with
  | some i => (true, Function.update r i (some ⟨tag, r.count tag + 1⟩))
  | none =>
      match r.free with
      | some i => (true, Function.update r i (some ⟨tag, 1⟩))
      | none => (false, r)

/-- One registration less. -/
def del (r : Registrations) (tag : List Char) : Registrations :=
  match r.barrierOf tag with
  | none => r
  | some i =>
      Function.update r i
        (if r.count tag - 1 = 0 then none else some ⟨tag, r.count tag - 1⟩)

end Registrations

/-- A call is meant to do this. -/
def TagCall.register (r : Registrations) : TagCall → Registrations
  | .addTag tag => (r.add tag).2
  | .delTag tag => r.del tag

/-- The table with what it is meant to record. -/
structure TagState where
  barriers : Nat → TaggedBarrierEntry
  registered : Registrations

/-- Sequences of calls by any clients. -/
def tagCalls : System TagState TagCall where
  step s c := some {
    barriers := (c.run s.barriers).2
    registered := c.register s.registered }

def TagState.master (clientCount : Nat) : TagState where
  barriers := masterBarriers clientCount
  registered := fun _ => none

/-! ## The table records the registrations -/

/-- Whether a search for the tag stops at this barrier. -/
def TaggedBarrierEntry.matches (b : TaggedBarrierEntry) (tag : List Char) : Bool :=
  b.refcount != 0 && tagMatches b.tag tag

/-- What a barrier holds for a registration. -/
def Holds (b : TaggedBarrierEntry) : Option Registration → Prop
  | none => b.refcount = 0
  | some e => 0 < e.count ∧ b.refcount = e.count ∧ b.tag = e.tag.take syncTagLen

/-- The anonymous barrier has its clients.  The others are those of the tags:
each holds the number of registrations of its tag, and the tag resolves to it. -/
structure Recorded (clientCount : Nat) (s : TagState) : Prop where
  anon : (s.barriers 0).refcount = clientCount ∧ (s.barriers 0).tag = "default".toList
  holds : ∀ i, i ≠ 0 → Holds (s.barriers i) (s.registered i)
  index : ∀ i e, s.registered i = some e → i ≠ 0 ∧ i < syncTagCount
  own : ∀ i e, s.registered i = some e → findTaggedBarrier s.barriers e.tag = some i

/-- No barrier that matches the tag comes before that of the tag. -/
def OwnFirst (s : TagState) (tag : List Char) : Prop :=
  ∀ i < syncTagCount, (s.barriers i).matches tag = true →
    ∃ k ≤ i, s.registered.barrierOf tag = some k

theorem masterBarriers_eq (clientCount : Nat) :
    masterBarriers clientCount = Function.update (fun _ => .zero) 0
      { TaggedBarrierEntry.zero with
        refcount := clientCount
        tag := "default".toList.take syncTagLen } := rfl

theorem master_recorded (clientCount : Nat) :
    Recorded clientCount (.master clientCount) := by
  constructor
  case anon => exact ⟨rfl, rfl⟩
  case holds =>
    intro i hi
    show (masterBarriers clientCount i).refcount = 0
    rw [masterBarriers_eq, Function.update_of_ne hi]
    rfl
  case index =>
    intro i e he
    cases he
  case own =>
    intro i e he
    cases he

theorem findTaggedBarrier_eq_some {barriers : Nat → TaggedBarrierEntry} {tag : List Char}
    {k : Nat} : findTaggedBarrier barriers tag = some k ↔
      k < syncTagCount ∧ (barriers k).matches tag = true ∧
        ∀ j < k, (barriers j).matches tag = false := by
  unfold findTaggedBarrier
  rw [List.find?_range_eq_some, List.mem_range]
  simp only [Bool.not_eq_true']
  exact and_left_comm

theorem findTaggedBarrier_eq_none {barriers : Nat → TaggedBarrierEntry} {tag : List Char} :
    findTaggedBarrier barriers tag = none ↔
      ∀ j < syncTagCount, (barriers j).matches tag = false := by
  unfold findTaggedBarrier
  rw [List.find?_range_eq_none]
  simp only [Bool.not_eq_true']
  rfl

theorem barrierOf_eq_some {r : Registrations} {tag : List Char} {k : Nat}
    (h : r.barrierOf tag = some k) : ∃ e, r k = some e ∧ e.tag = tag := by
  have hk := (List.find?_range_eq_some.mp h).1
  simp only [Bool.and_eq_true, Option.any_eq_true, beq_iff_eq] at hk
  exact hk.2

/-- The characters that are kept match the tag. -/
theorem tagMatches_take (tag : List Char) : tagMatches (tag.take syncTagLen) tag = true := by
  simp [tagMatches, List.take_take]

/-- The count of a tag is that of its barrier. -/
theorem count_eq {r : Registrations} {tag : List Char} {k : Nat} {e : Registration}
    (hb : r.barrierOf tag = some k) (he : r k = some e) : r.count tag = e.count := by
  rw [Registrations.count, hb, Option.bind_some, he]
  rfl

section

variable {n : Nat} {s : TagState} (h : Recorded n s)
include h

/-- A barrier registered for a tag matches the tag. -/
theorem matches_of_registered {k : Nat} {e : Registration} (he : s.registered k = some e) :
    (s.barriers k).matches e.tag = true :=
  (findTaggedBarrier_eq_some.mp (h.own k e he)).2.1

/-- **A tag resolves to its own barrier**, or to none, if none comes before it. -/
theorem findTaggedBarrier_eq_iff (tag : List Char) :
    findTaggedBarrier s.barriers tag = s.registered.barrierOf tag ↔ OwnFirst s tag := by
  cases hb : s.registered.barrierOf tag with
  | none =>
      rw [findTaggedBarrier_eq_none]
      constructor
      · intro hnone i hi hmatch
        rw [hnone i hi] at hmatch
        cases hmatch
      · intro hown i hi
        by_contra hmatch
        obtain ⟨k, _, hk⟩ := hown i hi (by simpa using hmatch)
        rw [hb] at hk
        cases hk
  | some k =>
      obtain ⟨e, he, htag⟩ := barrierOf_eq_some hb
      have hfind : findTaggedBarrier s.barriers tag = some k := htag ▸ h.own k e he
      refine ⟨fun _ i _ hmatch => ⟨k, ?_, hb⟩, fun _ => hfind⟩
      by_contra hlt
      have hnot := (findTaggedBarrier_eq_some.mp hfind).2.2 i (by omega)
      rw [hmatch] at hnot
      cases hnot

/-- The first barrier that is not in use has no tag. -/
theorem freeBarrier_eq (hn : 0 < n) : freeBarrier s.barriers = s.registered.free := by
  unfold freeBarrier Registrations.free
  congr 1
  funext i
  by_cases hi : i = 0
  · have hanon := h.anon.1
    rw [hi]
    simp only [bne_self_eq_false, Bool.false_and, beq_eq_false_iff_ne]
    omega
  · have hholds := h.holds i hi
    cases hr : s.registered i with
    | none =>
        rw [hr] at hholds
        have huse : (s.barriers i).refcount = 0 := hholds
        simp [huse, hi]
    | some e =>
        rw [hr] at hholds
        obtain ⟨hpos, hcount, _⟩ := hholds
        have huse : (s.barriers i).refcount ≠ 0 := by omega
        simp [huse]

/-- **Writing one barrier** and its registration.  The barrier has to hold the
registration and to be that of its tag, and none of the tags whose barriers come
later may resolve to it. -/
theorem recorded_update_iff {k : Nat} (hne : k ≠ 0) (hk : k < syncTagCount)
    (b : TaggedBarrierEntry) (r : Option Registration) :
    Recorded n {
      barriers := Function.update s.barriers k b
      registered := Function.update s.registered k r } ↔
    Holds b r ∧
      (∀ e, r = some e → ∀ j < k, (s.barriers j).matches e.tag = false) ∧
      ∀ i e, k < i → s.registered i = some e → b.matches e.tag = false := by
  constructor
  · intro h'
    refine ⟨?_, ?_, ?_⟩
    · have hholds := h'.holds k hne
      simpa using hholds
    · intro e he j hj
      have hown := (findTaggedBarrier_eq_some.mp (h'.own k e (by simpa using he))).2.2 j hj
      simpa [Function.update_of_ne (Nat.ne_of_lt hj)] using hown
    · intro i e hi he
      have hreg : Function.update s.registered k r i = some e := by
        rw [Function.update_of_ne (by omega)]
        exact he
      have hown := (findTaggedBarrier_eq_some.mp (h'.own i e hreg)).2.2 k hi
      simpa using hown
  · rintro ⟨hholds, hbefore, hafter⟩
    constructor
    case anon =>
      show (Function.update s.barriers k b 0).refcount = n ∧
        (Function.update s.barriers k b 0).tag = "default".toList
      rw [Function.update_of_ne (Ne.symm hne)]
      exact h.anon
    case holds =>
      intro i hi
      show Holds (Function.update s.barriers k b i) (Function.update s.registered k r i)
      by_cases hik : i = k
      · rw [hik, Function.update_self, Function.update_self]
        exact hholds
      · rw [Function.update_of_ne hik, Function.update_of_ne hik]
        exact h.holds i hi
    case index =>
      intro i e he
      by_cases hik : i = k
      · exact hik ▸ ⟨hne, hk⟩
      · exact h.index i e (by simpa [Function.update_of_ne hik] using he)
    case own =>
      intro i e he
      rw [findTaggedBarrier_eq_some]
      by_cases hik : i = k
      · have hr : r = some e := by simpa [hik] using he
        refine ⟨hik ▸ hk, ?_, ?_⟩
        · rw [hr] at hholds
          obtain ⟨hpos, hcount, hname⟩ := hholds
          show (Function.update s.barriers k b i).matches e.tag = true
          rw [hik, Function.update_self, TaggedBarrierEntry.matches, hname,
            tagMatches_take, Bool.and_true, bne_iff_ne]
          omega
        · intro j hj
          show (Function.update s.barriers k b j).matches e.tag = false
          rw [Function.update_of_ne (by omega)]
          exact hbefore e hr j (by omega)
      · have hold : s.registered i = some e := by
          simpa [Function.update_of_ne hik] using he
        obtain ⟨hi, hmatch, hfirst⟩ := findTaggedBarrier_eq_some.mp (h.own i e hold)
        refine ⟨hi, ?_, ?_⟩
        · show (Function.update s.barriers k b i).matches e.tag = true
          rw [Function.update_of_ne hik]
          exact hmatch
        · intro j hj
          show (Function.update s.barriers k b j).matches e.tag = false
          by_cases hjk : j = k
          · rw [hjk, Function.update_self]
            exact hafter i e (by omega) hold
          · rw [Function.update_of_ne hjk]
            exact hfirst j hj

/-- A tag whose barrier is in use keeps its barrier under a new count. -/
theorem recount_iff {tag : List Char} {k refcount : Nat} {e : Registration}
    (he : s.registered k = some e) (htag : e.tag = tag) (r : Option Registration)
    (hr : ∀ e', r = some e' → e'.tag = tag) :
    Recorded n {
      barriers := Function.update s.barriers k { s.barriers k with refcount := refcount }
      registered := Function.update s.registered k r } ↔
    Holds { s.barriers k with refcount := refcount } r := by
  obtain ⟨hne, hk⟩ := h.index k e he
  rw [recorded_update_iff h hne hk]
  apply and_iff_left
  constructor
  · intro e' he' j hj
    rw [hr e' he', ← htag]
    exact (findTaggedBarrier_eq_some.mp (h.own k e he)).2.2 j hj
  · intro i e' hi he'
    have hfirst := (findTaggedBarrier_eq_some.mp (h.own i e' he')).2.2 k hi
    have hmatch := matches_of_registered h he
    simp only [TaggedBarrierEntry.matches, Bool.and_eq_true, bne_iff_ne] at hmatch
    simp only [TaggedBarrierEntry.matches, Bool.and_eq_false_imp, bne_iff_ne] at hfirst
    simp [TaggedBarrierEntry.matches, hfirst hmatch.1]

end

/-! ## What a call has to meet -/

/-- The state after a call. -/
def TagState.next (s : TagState) (c : TagCall) : TagState where
  barriers := (c.run s.barriers).2
  registered := c.register s.registered

/-- **Each tag has its own barrier**: the tag of the call resolves to the barrier
registered for it, and so do all tags after the call; no barrier but that of the
call has another count. -/
def Exact (clientCount : Nat) (s : TagState) (c : TagCall) : Prop :=
  findTaggedBarrier s.barriers c.tag = s.registered.barrierOf c.tag ∧
    Recorded clientCount (s.next c)

/-- The call returns 0 if and only if the registration takes effect. -/
def ReturnExact (s : TagState) : TagCall → Prop
  | .addTag tag =>
      (taggedBarrierRef s.barriers tag).1 = 0 ↔ (s.registered.add tag).1 = true
  | .delTag _ => True

/-- The barriers that come before that of the tag do not match it; one more
registration fits into the counter, and a barrier that is taken for the tag does
not match the tags whose barriers come later. -/
def OwnBarrier (s : TagState) : TagCall → Prop
  | .addTag tag =>
      OwnFirst s tag ∧ s.registered.count tag + 1 < uintMod ∧
        (s.registered.barrierOf tag = none → ∀ k, s.registered.free = some k →
          ∀ i e, k < i → s.registered i = some e →
            tagMatches (tag.take syncTagLen) e.tag = false)
  | .delTag tag => OwnFirst s tag

/-- The call registers a user. -/
def Registers (s : TagState) : TagCall → Prop
  | .addTag tag => (s.registered.add tag).1 = true
  | .delTag _ => False

theorem free_eq_some {r : Registrations} {k : Nat} (h : r.free = some k) :
    k < syncTagCount ∧ k ≠ 0 ∧ r k = none := by
  obtain ⟨hk, hmem, _⟩ := List.find?_range_eq_some.mp h
  simp only [Bool.and_eq_true, bne_iff_ne, ne_eq, Option.isNone_iff_eq_none] at hk
  exact ⟨List.mem_range.mp hmem, hk⟩

section

variable {n : Nat} {s : TagState} (h : Recorded n s)
include h

/-- One more registration of a tag that has a barrier. -/
theorem recorded_add_some_iff {tag : List Char} {k : Nat}
    (hb : s.registered.barrierOf tag = some k)
    (hfind : findTaggedBarrier s.barriers tag = some k) :
    Recorded n (s.next (.addTag tag)) ↔ s.registered.count tag + 1 < uintMod := by
  obtain ⟨e, he, htag⟩ := barrierOf_eq_some hb
  have hholds := h.holds k (h.index k e he).1
  rw [he] at hholds
  obtain ⟨hpos, hcount, hname⟩ := hholds
  have hcounts := count_eq hb he
  have hnext : s.next (.addTag tag) = {
      barriers := Function.update s.barriers k
        { s.barriers k with refcount := ((s.barriers k).refcount + 1) % uintMod }
      registered := Function.update s.registered k
        (some ⟨tag, s.registered.count tag + 1⟩) } := by
    simp only [TagState.next, TagCall.run, TagCall.register, taggedBarrierRef, hfind,
      Registrations.add, hb]
  rw [hnext, recount_iff h he htag _ (fun e' he' => (Option.some.inj he') ▸ rfl)]
  constructor
  · rintro ⟨_, hmod, _⟩
    have hmod : ((s.barriers k).refcount + 1) % uintMod = s.registered.count tag + 1 := hmod
    rw [← hmod]
    exact Nat.mod_lt _ (by decide)
  · intro hlt
    refine ⟨Nat.succ_pos _, ?_, htag ▸ hname⟩
    show ((s.barriers k).refcount + 1) % uintMod = s.registered.count tag + 1
    rw [hcount, ← hcounts]
    exact Nat.mod_eq_of_lt hlt

/-- A tag takes the first free barrier. -/
theorem recorded_add_free_iff {tag : List Char} {k : Nat}
    (hb : s.registered.barrierOf tag = none)
    (hfind : findTaggedBarrier s.barriers tag = none)
    (hfree : s.registered.free = some k) (hfreeBarrier : freeBarrier s.barriers = some k) :
    Recorded n (s.next (.addTag tag)) ↔
      ∀ i e, k < i → s.registered i = some e →
        tagMatches (tag.take syncTagLen) e.tag = false := by
  obtain ⟨hk, hne, hnone⟩ := free_eq_some hfree
  have hholds := h.holds k hne
  rw [hnone] at hholds
  have huse : (s.barriers k).refcount = 0 := hholds
  have hnext : s.next (.addTag tag) = {
      barriers := Function.update s.barriers k
        { TaggedBarrierEntry.zero with refcount := 1, tag := tag.take syncTagLen }
      registered := Function.update s.registered k (some ⟨tag, 1⟩) } := by
    simp only [TagState.next, TagCall.run, TagCall.register, taggedBarrierRef, hfind,
      hfreeBarrier, barrierInit, huse, Registrations.add, hb, hfree]
    rfl
  rw [hnext, recorded_update_iff h hne hk]
  constructor
  · rintro ⟨_, _, hafter⟩ i e hi he
    simpa [TaggedBarrierEntry.matches] using hafter i e hi he
  · intro hafter
    refine ⟨⟨Nat.one_pos, rfl, rfl⟩, ?_, ?_⟩
    · intro e he j hj
      cases he
      exact findTaggedBarrier_eq_none.mp hfind j (by omega)
    · intro i e hi he
      simpa [TaggedBarrierEntry.matches] using hafter i e hi he

/-- One registration less. -/
theorem recorded_del {tag : List Char}
    (hfind : findTaggedBarrier s.barriers tag = s.registered.barrierOf tag) :
    Recorded n (s.next (.delTag tag)) := by
  cases hb : s.registered.barrierOf tag with
  | none =>
      rw [hb] at hfind
      have hnext : s.next (.delTag tag) = s := by
        simp only [TagState.next, TagCall.run, TagCall.register, taggedBarrierUnref, hfind,
          Registrations.del, hb]
      rw [hnext]
      exact h
  | some k =>
      rw [hb] at hfind
      obtain ⟨e, he, htag⟩ := barrierOf_eq_some hb
      obtain ⟨hne, hk⟩ := h.index k e he
      have hholds := h.holds k hne
      rw [he] at hholds
      obtain ⟨hpos, hcount, hname⟩ := hholds
      have hcounts := count_eq hb he
      by_cases hlast : e.count - 1 = 0
      · have hnext : s.next (.delTag tag) = {
            barriers := Function.update s.barriers k .zero
            registered := Function.update s.registered k none } := by
          simp [TagState.next, TagCall.run, TagCall.register, taggedBarrierUnref, hfind,
            Registrations.del, hb, hcount, hcounts, hlast]
        rw [hnext, recorded_update_iff h hne hk]
        refine ⟨rfl, ?_, fun _ _ _ _ => rfl⟩
        intro e' he'
        cases he'
      · have hnext : s.next (.delTag tag) = {
            barriers := Function.update s.barriers k
              { s.barriers k with refcount := e.count - 1 }
            registered := Function.update s.registered k (some ⟨tag, e.count - 1⟩) } := by
          simp [TagState.next, TagCall.run, TagCall.register, taggedBarrierUnref, hfind,
            Registrations.del, hb, hcount, hcounts, hlast]
        rw [hnext, recount_iff h he htag _ (fun e' he' => (Option.some.inj he') ▸ rfl)]
        exact ⟨by show 0 < e.count - 1; omega, rfl, htag ▸ hname⟩

/-- **The step lemma**: a call is exact if and only if each tag has its own
barrier. -/
theorem exact_iff (hn : 0 < n) (c : TagCall) : Exact n s c ↔ OwnBarrier s c := by
  have hiff := findTaggedBarrier_eq_iff h c.tag
  rw [Exact, hiff]
  cases c with
  | delTag tag =>
      exact and_iff_left_of_imp fun hown => recorded_del h (hiff.mpr hown)
  | addTag tag =>
      apply and_congr_right
      intro hown
      have hfind : findTaggedBarrier s.barriers tag = s.registered.barrierOf tag :=
        hiff.mpr hown
      cases hb : s.registered.barrierOf tag with
      | some k =>
          rw [recorded_add_some_iff h hb (hfind.trans hb)]
          exact ⟨fun hlt => ⟨hlt, fun hnone => nomatch hnone⟩, And.left⟩
      | none =>
          have hcount : s.registered.count tag + 1 < uintMod := by
            rw [Registrations.count, hb]
            show 0 + 1 < uintMod
            decide
          have hfreeBarrier := freeBarrier_eq h hn
          cases hfree : s.registered.free with
          | some k =>
              rw [recorded_add_free_iff h hb (hfind.trans hb) hfree
                (hfreeBarrier.trans hfree)]
              constructor
              · intro hafter
                refine ⟨hcount, fun _ k' hk' => ?_⟩
                cases hk'
                exact hafter
              · exact fun hkept => hkept.2 rfl k rfl
          | none =>
              have hnext : s.next (.addTag tag) = s := by
                simp only [TagState.next, TagCall.run, TagCall.register, taggedBarrierRef,
                  hfind.trans hb, hfreeBarrier.trans hfree, Registrations.add, hb, hfree]
              rw [hnext]
              exact iff_of_true h ⟨hcount, fun _ k' hk' => nomatch hk'⟩

/-- The call returns the index of the barrier it registers. -/
theorem returnExact_iff (hn : 0 < n) (c : TagCall) (hown : OwnBarrier s c) :
    ReturnExact s c ↔ ¬ Registers s c := by
  cases c with
  | delTag tag => exact iff_of_true trivial not_false
  | addTag tag =>
      have hfind := (findTaggedBarrier_eq_iff h tag).mpr hown.1
      have hfreeBarrier := freeBarrier_eq h hn
      cases hb : s.registered.barrierOf tag with
      | some k =>
          obtain ⟨e, he, _⟩ := barrierOf_eq_some hb
          simp [ReturnExact, Registers, taggedBarrierRef, hfind.trans hb, Registrations.add,
            hb, (h.index k e he).1]
      | none =>
          cases hfree : s.registered.free with
          | some k =>
              obtain ⟨_, hne, hnone⟩ := free_eq_some hfree
              have hholds := h.holds k hne
              rw [hnone] at hholds
              have huse : (s.barriers k).refcount = 0 := hholds
              simp [ReturnExact, Registers, taggedBarrierRef, hfind.trans hb,
                hfreeBarrier.trans hfree, barrierInit, huse, Registrations.add, hb, hfree,
                hne]
          | none =>
              simp [ReturnExact, Registers, taggedBarrierRef, hfind.trans hb,
                hfreeBarrier.trans hfree, Registrations.add, hb, hfree, enospc]

end

/-- **Runs of `blts_sync_add_tag` and `blts_sync_del_tag`** on a set-up master,
which is refused for less than one client.  The barriers are exactly those of the
tags if and only if every tag has its own barrier when it is used.  A call that
registers a user never returns 0. -/
theorem tags_exact (clientCount : Nat) (hclients : 0 < clientCount) (cs : List TagCall) :
    (tagCalls.Meets (Exact clientCount) (.master clientCount) cs ↔
      tagCalls.Meets OwnBarrier (.master clientCount) cs) ∧
    (tagCalls.Meets (fun s c => Exact clientCount s c ∧ ReturnExact s c)
        (.master clientCount) cs ↔
      tagCalls.Meets (fun s c => OwnBarrier s c ∧ ¬ Registers s c)
        (.master clientCount) cs) := by
  have hmaster := master_recorded clientCount
  constructor
  · apply tagCalls.meets_congr (Recorded clientCount) _ cs hmaster
    intro s c s' hs hstep
    cases hstep
    exact ⟨fun hexact => hexact.2, exact_iff hs hclients c⟩
  · apply tagCalls.meets_congr (Recorded clientCount) _ cs hmaster
    intro s c s' hs hstep
    cases hstep
    refine ⟨fun hexact => hexact.1.2, ?_⟩
    rw [exact_iff hs hclients c]
    exact and_congr_right (returnExact_iff hs hclients c)

/-- A client registers `abc`, and another one `ab`. -/
def sharedTags : List TagCall := [.addTag "abc".toList, .addTag "ab".toList]

/-- Both tags share barrier 1, and the calls return its index. -/
theorem tags_shared :
    (∃ s, tagCalls.exec (.master 2) sharedTags = some s ∧
      findTaggedBarrier s.barriers "abc".toList = some 1 ∧
      findTaggedBarrier s.barriers "ab".toList = some 1 ∧
      (s.barriers 1).refcount = 2 ∧
      (taggedBarrierRef (masterBarriers 2) "abc".toList).1 = 1) ∧
    ¬ tagCalls.Meets (Exact 2) (.master 2) sharedTags := by
  refine ⟨⟨_, rfl, by decide, by decide, by decide, by decide⟩, ?_⟩
  intro hmeets
  obtain ⟨_, hrest⟩ := hmeets _ rfl
  obtain ⟨⟨hown, _⟩, _⟩ := hrest _ rfl
  revert hown
  decide

/-- Two tags that do not start each other, for two clients. -/
theorem tags_exact_pair :
    tagCalls.Meets (Exact 2) (.master 2)
        [.addTag "left".toList, .addTag "right".toList] ↔
      tagCalls.Meets OwnBarrier (.master 2)
        [.addTag "left".toList, .addTag "right".toList] :=
  (tags_exact 2 (by decide) _).1

end Blts.Sync
