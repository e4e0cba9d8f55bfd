import Mathlib.Algebra.BigOperators.Group.List.Lemmas
import Mathlib.Algebra.Order.BigOperators.GroupWithZero.List
import Mathlib.Algebra.Order.Ring.Nat

/-!
# Mixed radix numbers

A list of limits `l₀, l₁, …` is a mixed radix system whose first digit is the
least significant: `digits` writes a number in it, `number` reads it back, and
`succ` counts up in it, digit by digit with a carry.  `succ_digits` says that
the odometer counts, and `existsUnique_digits` that it passes every combination
of digits exactly once before it wraps around.
-/

namespace Blts.Lib.MixedRadix

/-- The digits of `k`, least significant first. -/
def digits : List Nat → Nat → List Nat
  | [], _ => []
  | l :: ls, k => k % l :: digits ls (k / l)

/-- The number that a list of digits stands for. -/
def number : List Nat → List Nat → Nat
  | l :: ls, d :: ds => d + l * number ls ds
  | _, _ => 0

/-- Add one: the first digit below its limit grows, those before it restart. -/
def succ : List Nat → List Nat → List Nat
  | l :: ls, d :: ds => if d + 1 < l then (d + 1) :: ds else 0 :: succ ls ds
  | _, ds => ds

/-- Every digit is below its limit. -/
abbrev Valid (limits ds : List Nat) : Prop := List.Forall₂ (· < ·) ds limits

/-- A system with a digit in every place has no zero limit. -/
abbrev Positive (limits : List Nat) : Prop := ∀ l ∈ limits, 0 < l

@[simp] theorem length_digits (limits : List Nat) :
    ∀ k, (digits limits k).length = limits.length := by
  induction limits with
  | nil => intro k; rfl
  | cons l ls ih => intro k; simp [digits, ih]

theorem digits_zero (limits : List Nat) :
    digits limits 0 = List.replicate limits.length 0 := by
  induction limits with
  | nil => rfl
  | cons l ls ih => simp [digits, ih, List.replicate_succ]

/-- Digits are below their limits. -/
theorem valid_digits {limits : List Nat} (hPos : Positive limits) :
    ∀ k, Valid limits (digits limits k) := by
  induction limits with
  | nil => intro k; exact List.Forall₂.nil
  | cons l ls ih =>
      intro k
      exact List.Forall₂.cons (Nat.mod_lt _ (hPos l (by simp)))
        (ih (fun l' hl' => hPos l' (by simp [hl'])) _)

/-- The digit in place `j` is the quotient by the limits before it, reduced by
its own. -/
theorem getElem?_digits (limits : List Nat) :
    ∀ k j, (digits limits k)[j]? =
      limits[j]?.map fun l => k / (limits.take j).prod % l := by
  induction limits with
  | nil => intro k j; simp [digits]
  | cons l ls ih =>
      intro k j
      cases j with
      | zero => simp [digits]
      | succ j => simp [digits, ih, Nat.div_div_eq_div_mul]

/-- Counting on in the lowest place, with no carry or with one. -/
private theorem succ_div_mod (k l : Nat) (hl : 0 < l) :
    (k % l + 1 < l → (k + 1) / l = k / l ∧ (k + 1) % l = k % l + 1) ∧
    (¬ k % l + 1 < l → (k + 1) / l = k / l + 1 ∧ (k + 1) % l = 0) := by
  have hk := Nat.mod_add_div k l
  have hmod := Nat.mod_lt k hl
  constructor
  · intro hlt
    rw [show k + 1 = k % l + 1 + l * (k / l) by omega,
      Nat.add_mul_div_left _ _ hl, Nat.add_mul_mod_self_left,
      Nat.div_eq_of_lt hlt, Nat.mod_eq_of_lt hlt]
    omega
  · intro hge
    rw [show k + 1 = l * (k / l + 1) by rw [Nat.mul_add]; omega,
      Nat.mul_div_cancel_left _ hl, Nat.mul_mod_right]
    exact ⟨rfl, rfl⟩

/-- **The odometer counts.** -/
theorem succ_digits {limits : List Nat} (hPos : Positive limits) :
    ∀ k, succ limits (digits limits k) = digits limits (k + 1) := by
  induction limits with
  | nil => intro k; rfl
  | cons l ls ih =>
      intro k
      have hl : 0 < l := hPos l (by simp)
      simp only [digits, succ]
      split
      next hlt =>
        obtain ⟨hdiv, hmod⟩ := (succ_div_mod k l hl).1 hlt
        rw [hdiv, hmod]
      next hge =>
        obtain ⟨hdiv, hmod⟩ := (succ_div_mod k l hl).2 hge
        rw [hdiv, hmod, ih fun l' hl' => hPos l' (by simp [hl'])]

/-- Reading the digits of a number below the product of the limits. -/
theorem number_digits (limits : List Nat) :
    ∀ k, k < limits.prod → number limits (digits limits k) = k := by
  induction limits with
  | nil => intro k hk; simp at hk; simp [number, hk]
  | cons l ls ih =>
      intro k hk
      rw [List.prod_cons] at hk
      simp only [digits, number]
      rw [ih _ (Nat.div_lt_of_lt_mul hk)]
      exact Nat.mod_add_div k l

/-- Writing the number of valid digits gives them back. -/
theorem digits_number {limits ds : List Nat} (h : Valid limits ds) :
    digits limits (number limits ds) = ds := by
  induction h with
  | nil => rfl
  | @cons d l ds ls hd _ ih =>
      have hl : 0 < l := by omega
      simp only [number, digits]
      rw [Nat.add_mul_mod_self_left, Nat.mod_eq_of_lt hd,
        Nat.add_mul_div_left _ _ hl, Nat.div_eq_of_lt hd, Nat.zero_add, ih]

/-- Valid digits stand for a number below the product of the limits. -/
theorem number_lt {limits ds : List Nat} (h : Valid limits ds) :
    number limits ds < limits.prod := by
  induction h with
  | nil => simp [number]
  | @cons d l ds ls hd _ ih =>
      simp only [number, List.prod_cons]
      calc d + l * number ls ds < l + l * number ls ds := by omega
        _ = l * (number ls ds + 1) := by rw [Nat.mul_add]; omega
        _ ≤ l * ls.prod := Nat.mul_le_mul_left l ih

/-- **Every combination once.**  Valid digits are the digits of exactly one
number below the product of the limits. -/
theorem existsUnique_digits {limits ds : List Nat} (h : Valid limits ds) :
    ∃! k, k < limits.prod ∧ digits limits k = ds := by
  refine ⟨number limits ds, ⟨number_lt h, digits_number h⟩, ?_⟩
  rintro k ⟨hk, rfl⟩
  exact (number_digits limits k hk).symm

/-- No limit exceeds the product. -/
theorem le_prod {limits : List Nat} (hPos : Positive limits) {l : Nat}
    (hl : l ∈ limits) : l ≤ limits.prod :=
  Nat.le_of_dvd (List.prod_pos (R := Nat) hPos) (List.dvd_prod hl)

/-! ## One element of each list -/

section Select

variable {α : Type*}

/-- The elements at the given indices, one of each list. -/
def select : List (List α) → List Nat → List α
  | v :: vs, d :: ds => v[d]?.toList ++ select vs ds
  | _, _ => []

theorem select_cons {v : List α} {d : Nat} {a : α} (h : v[d]? = some a)
    (vs : List (List α)) (ds : List Nat) :
    select (v :: vs) (d :: ds) = a :: select vs ds := by
  simp [select, h]

/-- Indices below the lengths select one element of each list. -/
theorem length_select {vs : List (List α)} {ds : List Nat}
    (h : Valid (vs.map List.length) ds) :
    (select vs ds).length = vs.length := by
  induction vs generalizing ds with
  | nil => rfl
  | cons v vs ih =>
      obtain _ | ⟨hd, hds⟩ := h
      rw [select_cons (List.getElem?_eq_getElem hd), List.length_cons, ih hds,
        List.length_cons]

/-- The element selected from list `j`. -/
theorem getElem?_select {vs : List (List α)} {ds : List Nat}
    (h : Valid (vs.map List.length) ds) (j : Nat) :
    (select vs ds)[j]? = vs[j]?.bind fun v => ds[j]?.bind fun d => v[d]? := by
  induction vs generalizing ds j with
  | nil => rfl
  | cons v vs ih =>
      obtain _ | ⟨hd, hds⟩ := h
      rw [select_cons (List.getElem?_eq_getElem hd)]
      cases j with
      | zero => simp [hd]
      | succ j => simp [ih hds]

end Select

end Blts.Lib.MixedRadix
