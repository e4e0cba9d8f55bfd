import Mathlib.Algebra.Order.Ring.Nat

/-!
# Numbers of C

The result of an operation on `int`s is a value that an `int` has, or there is none.

A floating-point format whose significand has `p` bits has every whole number below `2 ^ p`.  A
larger one is rounded to the nearest that the format has, and halfway to the one with the even
significand.
-/

namespace Blts.Lib

/-- A value that an `int` has. -/
def IsInt (x : Int) : Prop :=
  -2147483648 ≤ x ∧ x ≤ 2147483647

instance (x : Int) : Decidable (IsInt x) :=
  inferInstanceAs (Decidable (_ ∧ _))

/-- The result of an operation; one that overflows has none. -/
def cInt (x : Int) : Option Int :=
  if IsInt x then some x else none

theorem cInt_of {x : Int} (h : IsInt x) : cInt x = some x :=
  if_pos h

theorem cInt_eq_some_iff {x y : Int} : cInt x = some y ↔ IsInt x ∧ x = y := by
  unfold cInt
  by_cases h : IsInt x
  · rw [if_pos h, Option.some.injEq]
    exact (and_iff_right h).symm
  · rw [if_neg h]
    exact iff_of_false (fun h' => by cases h') fun h' => h h'.1

/-- What comes of a computation that goes on with the result. -/
theorem cInt_bind_eq_some {α : Type} {x : Int} {f : Int → Option α} {r : α} :
    (cInt x).bind f = some r ↔ IsInt x ∧ f x = some r := by
  rw [Option.bind_eq_some_iff]
  simp only [cInt_eq_some_iff]
  constructor
  · rintro ⟨_, ⟨hint, rfl⟩, hr⟩
    exact ⟨hint, hr⟩
  · rintro ⟨hint, hr⟩
    exact ⟨x, ⟨hint, rfl⟩, hr⟩


/-- The multiple of the unit that is nearest, the even one of two. -/
def roundHalfEven (x : Int) (unit : Nat) : Int :=
  if 2 * (x % unit) < unit ∨ (2 * (x % unit) = unit ∧ x / unit % 2 = 0) then
    x / unit * unit
  else
    (x / unit + 1) * unit

/-- The nearest number whose significand has `p` bits. -/
def roundToBits (p : Nat) (x : Int) : Int :=
  roundHalfEven x (2 ^ (Nat.log2 x.natAbs + 1 - p))

theorem roundHalfEven_one (x : Int) : roundHalfEven x 1 = x := by
  unfold roundHalfEven
  rw [if_pos (.inl (by omega))]
  omega

/-- A number with no more bits than the significand is not rounded. -/
theorem roundToBits_eq {p : Nat} {x : Int} (hp : 0 < p) (hx : x.natAbs < 2 ^ p) :
    roundToBits p x = x := by
  have hlog : Nat.log2 x.natAbs < p := by
    by_cases hzero : x.natAbs = 0
    · rw [hzero, Nat.log2_zero]
      exact hp
    · exact (Nat.log2_lt hzero).mpr hx
  rw [roundToBits, Nat.sub_eq_zero_of_le hlog, Nat.pow_zero]
  exact roundHalfEven_one x

example : roundToBits 24 16777217 = 16777216 ∧ roundToBits 24 16777219 = 16777220 := by
  decide

end Blts.Lib
