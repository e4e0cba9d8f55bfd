import Mathlib.Data.Fintype.Card
import Mathlib.Algebra.BigOperators.Ring.Finset

/-!
# Counting the members of a family with a property

Semaphore invariants equate a counter with the number of processes in a given
place.  A step moves one process, so the only arithmetic needed is what a
pointwise update does to such a count.
-/

namespace Blts.Lib

variable {ι α : Type*} [Fintype ι]

/-- The number of indices whose value satisfies `p`. -/
def countOf (p : α → Prop) [DecidablePred p] (f : ι → α) : Nat :=
  (Finset.univ.filter fun i => p (f i)).card

/-- Nothing is counted exactly when nobody has the property. -/
theorem countOf_eq_zero {p : α → Prop} [DecidablePred p] {f : ι → α} :
    countOf p f = 0 ↔ ∀ i, ¬ p (f i) := by
  simp [countOf, Finset.filter_eq_empty_iff]

theorem countOf_pos {p : α → Prop} [DecidablePred p] {f : ι → α} {i : ι}
    (h : p (f i)) : 0 < countOf p f :=
  Finset.card_pos.mpr ⟨i, by simpa using h⟩

/-- Somebody is counted when the count is positive. -/
theorem exists_of_countOf_pos {p : α → Prop} [DecidablePred p] {f : ι → α}
    (h : 0 < countOf p f) : ∃ i, p (f i) := by
  obtain ⟨i, hi⟩ := Finset.card_pos.mp h
  exact ⟨i, by simpa using hi⟩

/-- Two counted indices coincide when only one is counted. -/
theorem eq_of_countOf_le_one {p : α → Prop} [DecidablePred p] {f : ι → α}
    (h : countOf p f ≤ 1) {i j : ι} (hi : p (f i)) (hj : p (f j)) : i = j :=
  Finset.card_le_one.mp h i (by simpa using hi) j (by simpa using hj)

/-- With one index not counted, the others bound the count. -/
theorem countOf_lt_card {p : α → Prop} [DecidablePred p] {f : ι → α}
    {c : ι} (hc : ¬ p (f c)) : countOf p f < Fintype.card ι := by
  have hlt := Finset.card_lt_card (Finset.filter_ssubset
    (p := fun i => p (f i)).mpr ⟨c, Finset.mem_univ c, hc⟩)
  simpa only [countOf, Finset.card_univ] using hlt

variable [DecidableEq ι]

/-- Updating one index trades its old contribution for its new one. -/
theorem countOf_update (p : α → Prop) [DecidablePred p] (f : ι → α)
    (c : ι) (a : α) :
    countOf p (Function.update f c a) + (if p (f c) then 1 else 0) =
      countOf p f + (if p a then 1 else 0) := by
  have hrest : ∑ i ∈ Finset.univ.erase c,
        (if p (Function.update f c a i) then 1 else 0) =
      ∑ i ∈ Finset.univ.erase c, (if p (f i) then 1 else 0) := by
    refine Finset.sum_congr rfl fun i hi => ?_
    rw [Function.update_of_ne (Finset.ne_of_mem_erase hi)]
  have hnew := Finset.sum_erase_add Finset.univ
    (fun i => if p (Function.update f c a i) then 1 else 0)
    (Finset.mem_univ c)
  have hold := Finset.sum_erase_add Finset.univ
    (fun i => if p (f i) then 1 else 0) (Finset.mem_univ c)
  simp only [Function.update_self] at hnew
  simp only [countOf, Finset.card_filter]
  omega

/-- An update that does not change whether `c` is counted. -/
theorem countOf_update_same {p : α → Prop} [DecidablePred p] {f : ι → α}
    {c : ι} {a : α} (h : p (f c) ↔ p a) :
    countOf p (Function.update f c a) = countOf p f := by
  have hup := countOf_update p f c a
  simp only [h] at hup
  omega

/-- An update that makes `c` counted. -/
theorem countOf_update_add {p : α → Prop} [DecidablePred p] {f : ι → α}
    {c : ι} {a : α} (hold : ¬ p (f c)) (hnew : p a) :
    countOf p (Function.update f c a) = countOf p f + 1 := by
  have hup := countOf_update p f c a
  simp only [if_neg hold, if_pos hnew] at hup
  omega

/-- An update that stops `c` being counted. -/
theorem countOf_update_sub {p : α → Prop} [DecidablePred p] {f : ι → α}
    {c : ι} {a : α} (hold : p (f c)) (hnew : ¬ p a) :
    countOf p (Function.update f c a) + 1 = countOf p f := by
  have hup := countOf_update p f c a
  simp only [if_pos hold, if_neg hnew] at hup
  omega

/-- An update to a counted value loses nothing. -/
theorem countOf_le_update {p : α → Prop} [DecidablePred p] {f : ι → α}
    {c : ι} {a : α} (hnew : p a) : countOf p f ≤ countOf p (Function.update f c a) := by
  have hup := countOf_update p f c a
  rw [if_pos hnew] at hup
  by_cases hold : p (f c)
  · rw [if_pos hold] at hup
    omega
  · rw [if_neg hold] at hup
    omega

/-- If one index is not counted, a count of all the others means everyone
else has the property. -/
theorem forall_of_countOf {p : α → Prop} [DecidablePred p] {f : ι → α}
    {c : ι} (hc : ¬ p (f c)) (h : Fintype.card ι ≤ countOf p f + 1) :
    ∀ i, i ≠ c → p (f i) := by
  have hsub : (Finset.univ.filter fun i => p (f i)) ⊆ Finset.univ.erase c := by
    intro i hi
    refine Finset.mem_erase.mpr ⟨?_, Finset.mem_univ i⟩
    rintro rfl
    exact hc (by simpa using hi)
  have hcard : (Finset.univ.erase c).card ≤
      (Finset.univ.filter fun i => p (f i)).card := by
    rw [Finset.card_erase_of_mem (Finset.mem_univ c), Finset.card_univ]
    unfold countOf at h
    omega
  have heq := Finset.eq_of_subset_of_card_le hsub hcard
  intro i hi
  have hmem : i ∈ Finset.univ.erase c :=
    Finset.mem_erase.mpr ⟨hi, Finset.mem_univ i⟩
  rw [← heq] at hmem
  simpa using hmem

end Blts.Lib
