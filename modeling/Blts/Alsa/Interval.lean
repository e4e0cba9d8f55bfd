import Mathlib.Algebra.Order.Field.Rat
import Mathlib.Data.Set.Basic
import Mathlib.Data.UInt
import Mathlib.Tactic.Linarith

/-!
# Refining intervals

A `snd_interval` stands for the rational numbers between two unsigned bounds, each of which
may be excluded, and for the integers among them only if its flag says so.
-/

namespace Blts.Alsa.Refine

/-- `struct snd_interval`. -/
structure SndInterval where
  min : UInt32
  max : UInt32
  openmin : Bool
  openmax : Bool
  integer : Bool
  empty : Bool
  deriving DecidableEq

/-! ## The source -/

/-- A lower bound that is greater, or excluded where that of the interval is not. -/
def tightenMin (i : SndInterval) (min : UInt32) (openmin : Bool) : SndInterval × Bool :=
  if i.min < min then ({ i with min := min, openmin := openmin }, true)
  else if i.min = min ∧ i.openmin = false ∧ openmin = true then
    ({ i with openmin := true }, true)
  else (i, false)

/-- The same for the upper bound. -/
def tightenMax (i : SndInterval) (max : UInt32) (openmax : Bool) : SndInterval × Bool :=
  if max < i.max then ({ i with max := max, openmax := openmax }, true)
  else if i.max = max ∧ i.openmax = false ∧ openmax = true then
    ({ i with openmax := true }, true)
  else (i, false)

/-- The lower bound of an interval of integers is not excluded. -/
def closeMin (i : SndInterval) : SndInterval :=
  if i.openmin = true then { i with min := i.min + 1, openmin := false } else i

def closeMax (i : SndInterval) : SndInterval :=
  if i.openmax = true then { i with max := i.max - 1, openmax := false } else i

/-- The bounds leave nothing. -/
def SndInterval.Void (i : SndInterval) : Prop :=
  i.max < i.min ∨ i.min = i.max ∧ (i.openmin = true ∨ i.openmax = true)

instance (i : SndInterval) : Decidable i.Void := inferInstanceAs (Decidable (_ ∨ _))

/-- The end of the refinements. -/
def conclude (i : SndInterval) (changed : Bool) : SndInterval × Int :=
  if i.Void then ({ i with empty := true }, -22) else (i, if changed = true then 1 else 0)

/-- An interval of integers, if the other one is. -/
def takeInteger (i : SndInterval) (integer : Bool) : SndInterval × Bool :=
  if i.integer = false ∧ integer = true then ({ i with integer := true }, true) else (i, false)

/-- The bounds of integers are closed, and one number is an integer. -/
def settle (i : SndInterval) : SndInterval :=
  if i.integer = true then closeMax (closeMin i)
  else if i.openmin = false ∧ i.openmax = false ∧ i.min = i.max then { i with integer := true }
  else i

/-- `interval_refine`. -/
def intervalRefine (i v : SndInterval) : SndInterval × Int :=
  if i.empty = true then (i, -2)
  else
    let lower := tightenMin i v.min v.openmin
    let upper := tightenMax lower.1 v.max v.openmax
    let whole := takeInteger upper.1 v.integer
    conclude (settle whole.1) (lower.2 || upper.2 || whole.2)

/-- `interval_refine_set`. -/
def intervalRefineSet (i : SndInterval) (val : UInt32) : SndInterval × Int :=
  intervalRefine i ⟨val, val, false, false, true, false⟩

/-- `interval_refine_min`. -/
def intervalRefineMin (i : SndInterval) (min : UInt32) (openmin : Bool) : SndInterval × Int :=
  if i.empty = true then (i, -2)
  else
    let lower := tightenMin i min openmin
    conclude (if lower.1.integer = true then closeMin lower.1 else lower.1) lower.2

/-- `interval_refine_max`. -/
def intervalRefineMax (i : SndInterval) (max : UInt32) (openmax : Bool) : SndInterval × Int :=
  if i.empty = true then (i, -2)
  else
    let upper := tightenMax i max openmax
    conclude (if upper.1.integer = true then closeMax upper.1 else upper.1) upper.2

/-! ## What an interval stands for -/

/-- A number is above a bound, or is the bound if it is not excluded. -/
def AboveBound (bound : Nat) (excluded : Bool) (x : ℚ) : Prop :=
  if excluded = true then (bound : ℚ) < x else (bound : ℚ) ≤ x

def BelowBound (bound : Nat) (excluded : Bool) (x : ℚ) : Prop :=
  if excluded = true then x < bound else x ≤ bound

/-- An integer. -/
def Whole (x : ℚ) : Prop := ∃ n : ℤ, x = n

/-- The numbers of an interval. -/
def SndInterval.numbers (i : SndInterval) : Set ℚ :=
  { x | i.empty = false ∧ AboveBound i.min.toNat i.openmin x ∧
    BelowBound i.max.toNat i.openmax x ∧ (i.integer = true → Whole x) }

/-- The form that refining leaves: an interval of integers excludes no bound, and one number
is an interval of integers. -/
structure SndInterval.Normal (i : SndInterval) : Prop where
  closed : i.integer = true → i.openmin = false ∧ i.openmax = false
  single : i.openmin = false → i.openmax = false → i.min = i.max → i.integer = true

/-! ## Bounds -/

theorem toNat_succ {a : UInt32} (h : a.toNat ≠ 4294967295) : (a + 1).toNat = a.toNat + 1 := by
  have hlt : a.toNat < 4294967296 := a.toNat_lt
  rw [UInt32.toNat_add]
  exact Nat.mod_eq_of_lt (show a.toNat + 1 < 4294967296 by omega)

theorem toNat_pred {a : UInt32} (h : a.toNat ≠ 0) : (a - 1).toNat = a.toNat - 1 := by
  have hlt : a.toNat < 4294967296 := a.toNat_lt
  rw [UInt32.toNat_sub]
  show (4294967296 - 1 + a.toNat) % 4294967296 = a.toNat - 1
  omega

theorem aboveBound_int {b : Nat} {excluded : Bool} {n : ℤ} :
    AboveBound b excluded n ↔ if excluded = true then (b : ℤ) < n else (b : ℤ) ≤ n := by
  unfold AboveBound
  cases excluded with
  | false =>
      simp only [Bool.false_eq_true, if_false]
      exact_mod_cast Iff.rfl
  | true =>
      simp only [if_true]
      exact_mod_cast Iff.rfl

theorem belowBound_int {b : Nat} {excluded : Bool} {n : ℤ} :
    BelowBound b excluded n ↔ if excluded = true then n < (b : ℤ) else n ≤ (b : ℤ) := by
  unfold BelowBound
  cases excluded with
  | false =>
      simp only [Bool.false_eq_true, if_false]
      exact_mod_cast Iff.rfl
  | true =>
      simp only [if_true]
      exact_mod_cast Iff.rfl

/-- Two lower bounds amount to the one that is greater, or excluded. -/
theorem aboveBound_of_lt {a b : Nat} {e e' : Bool} {x : ℚ} (hab : a < b)
    (h : AboveBound b e' x) : AboveBound a e x := by
  have hcast : (a : ℚ) < b := by exact_mod_cast hab
  unfold AboveBound at *
  cases e <;> cases e' <;> simp only [Bool.false_eq_true, if_false, if_true] at * <;> linarith

theorem belowBound_of_lt {a b : Nat} {e e' : Bool} {x : ℚ} (hab : a < b)
    (h : BelowBound a e x) : BelowBound b e' x := by
  have hcast : (a : ℚ) < b := by exact_mod_cast hab
  unfold BelowBound at *
  cases e <;> cases e' <;> simp only [Bool.false_eq_true, if_false, if_true] at * <;> linarith

theorem aboveBound_of_excluded {a : Nat} {e : Bool} {x : ℚ} (h : AboveBound a true x) :
    AboveBound a e x := by
  cases e with
  | false => exact le_of_lt h
  | true => exact h

theorem belowBound_of_excluded {a : Nat} {e : Bool} {x : ℚ} (h : BelowBound a true x) :
    BelowBound a e x := by
  cases e with
  | false => exact le_of_lt h
  | true => exact h

section Tighten

variable (i : SndInterval)

/-- The tightened bound is one of the two, and stands for both. -/
theorem tightenMin_spec (min : UInt32) (openmin : Bool) : ∃ m o,
    (tightenMin i min openmin).1 = { i with min := m, openmin := o } ∧
    (∀ x, AboveBound m.toNat o x ↔
      AboveBound i.min.toNat i.openmin x ∧ AboveBound min.toNat openmin x) ∧
    ((m = i.min ∧ o = i.openmin) ∨ (m = min ∧ o = openmin)) ∧
    ((tightenMin i min openmin).2 = false → m = i.min ∧ o = i.openmin) := by
  unfold tightenMin
  by_cases hlt : i.min < min
  · rw [if_pos hlt]
    refine ⟨min, openmin, rfl, fun x => ?_, Or.inr ⟨rfl, rfl⟩, fun h => by cases h⟩
    exact (and_iff_right_of_imp (aboveBound_of_lt (UInt32.lt_iff_toNat_lt.mp hlt))).symm
  · rw [if_neg hlt]
    by_cases heq : i.min = min ∧ i.openmin = false ∧ openmin = true
    · obtain ⟨hmin, hopen, hopenmin⟩ := heq
      rw [if_pos ⟨hmin, hopen, hopenmin⟩]
      refine ⟨i.min, true, rfl, fun x => ?_, Or.inr ⟨hmin, hopenmin.symm⟩, fun h => by cases h⟩
      rw [hopenmin, hmin]
      exact (and_iff_right_of_imp aboveBound_of_excluded).symm
    · rw [if_neg heq]
      refine ⟨i.min, i.openmin, rfl, fun x => ?_, Or.inl ⟨rfl, rfl⟩, fun _ => ⟨rfl, rfl⟩⟩
      refine (and_iff_left_of_imp fun h => ?_).symm
      by_cases hmin : i.min = min
      · rw [← hmin]
        cases hopenmin : openmin with
        | false =>
            cases hopen : i.openmin with
            | false => rwa [hopen] at h
            | true =>
                rw [hopen] at h
                exact aboveBound_of_excluded h
        | true =>
            cases hopen : i.openmin with
            | false => exact absurd ⟨hmin, hopen, hopenmin⟩ heq
            | true => rwa [hopen] at h
      · refine aboveBound_of_lt (Nat.lt_of_le_of_ne (Nat.le_of_not_lt fun h' => ?_) ?_) h
        · exact hlt (UInt32.lt_iff_toNat_lt.mpr h')
        · exact fun h' => hmin (UInt32.toNat_inj.mp h'.symm)

theorem tightenMax_spec (max : UInt32) (openmax : Bool) : ∃ m o,
    (tightenMax i max openmax).1 = { i with max := m, openmax := o } ∧
    (∀ x, BelowBound m.toNat o x ↔
      BelowBound i.max.toNat i.openmax x ∧ BelowBound max.toNat openmax x) ∧
    ((m = i.max ∧ o = i.openmax) ∨ (m = max ∧ o = openmax)) ∧
    ((tightenMax i max openmax).2 = false → m = i.max ∧ o = i.openmax) := by
  unfold tightenMax
  by_cases hlt : max < i.max
  · rw [if_pos hlt]
    refine ⟨max, openmax, rfl, fun x => ?_, Or.inr ⟨rfl, rfl⟩, fun h => by cases h⟩
    exact (and_iff_right_of_imp (belowBound_of_lt (UInt32.lt_iff_toNat_lt.mp hlt))).symm
  · rw [if_neg hlt]
    by_cases heq : i.max = max ∧ i.openmax = false ∧ openmax = true
    · obtain ⟨hmax, hopen, hopenmax⟩ := heq
      rw [if_pos ⟨hmax, hopen, hopenmax⟩]
      refine ⟨i.max, true, rfl, fun x => ?_, Or.inr ⟨hmax, hopenmax.symm⟩, fun h => by cases h⟩
      rw [hopenmax, hmax]
      exact (and_iff_right_of_imp belowBound_of_excluded).symm
    · rw [if_neg heq]
      refine ⟨i.max, i.openmax, rfl, fun x => ?_, Or.inl ⟨rfl, rfl⟩, fun _ => ⟨rfl, rfl⟩⟩
      refine (and_iff_left_of_imp fun h => ?_).symm
      by_cases hmax : i.max = max
      · rw [← hmax]
        cases hopenmax : openmax with
        | false =>
            cases hopen : i.openmax with
            | false => rwa [hopen] at h
            | true =>
                rw [hopen] at h
                exact belowBound_of_excluded h
        | true =>
            cases hopen : i.openmax with
            | false => exact absurd ⟨hmax, hopen, hopenmax⟩ heq
            | true => rwa [hopen] at h
      · refine belowBound_of_lt (Nat.lt_of_le_of_ne (Nat.le_of_not_lt fun h' => ?_) ?_) h
        · exact hlt (UInt32.lt_iff_toNat_lt.mpr h')
        · exact fun h' => hmax (UInt32.toNat_inj.mp h')

end Tighten

section Close

variable {i : SndInterval}

/-- Closing a lower bound changes nothing for integers, unless it is the last number. -/
theorem closeMin_spec (h : i.openmin = true → i.min.toNat ≠ 4294967295) : ∃ m,
    closeMin i = { i with min := m, openmin := false } ∧
    ∀ x, Whole x → (AboveBound m.toNat false x ↔ AboveBound i.min.toNat i.openmin x) := by
  unfold closeMin
  by_cases hopen : i.openmin = true
  · rw [if_pos hopen]
    refine ⟨i.min + 1, rfl, ?_⟩
    rintro x ⟨n, rfl⟩
    rw [aboveBound_int, aboveBound_int, hopen, toNat_succ (h hopen)]
    simp only [Bool.false_eq_true, if_false, if_true]
    omega
  · rw [if_neg hopen]
    have hclosed : i.openmin = false := Bool.eq_false_iff.mpr hopen
    exact ⟨i.min, by rw [← hclosed], fun x _ => by rw [hclosed]⟩

theorem closeMax_spec (h : i.openmax = true → i.max.toNat ≠ 0) : ∃ m,
    closeMax i = { i with max := m, openmax := false } ∧
    ∀ x, Whole x → (BelowBound m.toNat false x ↔ BelowBound i.max.toNat i.openmax x) := by
  unfold closeMax
  by_cases hopen : i.openmax = true
  · rw [if_pos hopen]
    refine ⟨i.max - 1, rfl, ?_⟩
    rintro x ⟨n, rfl⟩
    have hne := h hopen
    rw [belowBound_int, belowBound_int, hopen, toNat_pred hne]
    simp only [Bool.false_eq_true, if_false, if_true]
    omega
  · rw [if_neg hopen]
    have hclosed : i.openmax = false := Bool.eq_false_iff.mpr hopen
    exact ⟨i.max, by rw [← hclosed], fun x _ => by rw [hclosed]⟩

/-- Bounds that leave nothing. -/
theorem void_iff (hempty : i.empty = false) (hclosed : i.integer = true → i.openmin = false) :
    i.Void ↔ i.numbers = ∅ := by
  unfold SndInterval.Void
  constructor
  · intro hvoid
    refine Set.eq_empty_iff_forall_notMem.mpr fun x ⟨_, habove, hbelow, _⟩ => ?_
    have hx := hvoid
    rw [UInt32.lt_iff_toNat_lt] at hx
    obtain hlt | ⟨heq, hopen⟩ := hx
    · have hcast : (i.max.toNat : ℚ) < i.min.toNat := by exact_mod_cast hlt
      unfold AboveBound at habove
      unfold BelowBound at hbelow
      cases hmin : i.openmin <;> cases hmax : i.openmax <;>
        simp only [hmin, hmax, Bool.false_eq_true, if_false, if_true] at habove hbelow <;> linarith
    · rw [heq] at habove
      unfold AboveBound at habove
      unfold BelowBound at hbelow
      cases hmin : i.openmin <;> cases hmax : i.openmax <;>
        simp only [hmin, hmax, Bool.false_eq_true, if_false, if_true, or_self] at habove hbelow hopen
          <;> linarith
  · intro hnumbers
    refine Classical.byContradiction fun hnot => ?_
    rw [not_or, UInt32.lt_iff_toNat_lt, Nat.not_lt] at hnot
    obtain ⟨hle, hsame⟩ := hnot
    have hmem : ∀ x, x ∉ i.numbers := Set.eq_empty_iff_forall_notMem.mp hnumbers
    by_cases heq : i.min = i.max
    · -- one number
      have hopen : ¬(i.openmin = true ∨ i.openmax = true) := fun h => hsame ⟨heq, h⟩
      rw [not_or, Bool.not_eq_true, Bool.not_eq_true] at hopen
      refine hmem i.min.toNat ⟨hempty, ?_, ?_, fun _ => ⟨i.min.toNat, by push_cast; rfl⟩⟩
      · rw [hopen.1]
        exact le_refl _
      · rw [hopen.2, ← heq]
        exact le_refl _
    · have hlt : i.min.toNat < i.max.toNat :=
        Nat.lt_of_le_of_ne hle fun h => heq (UInt32.toNat_inj.mp h)
      have hcast : (i.min.toNat : ℚ) < i.max.toNat := by exact_mod_cast hlt
      cases hint : i.integer with
      | true =>
          -- the lower bound is a number of the interval
          refine hmem i.min.toNat ⟨hempty, ?_, ?_, fun _ => ⟨i.min.toNat, by push_cast; rfl⟩⟩
          · rw [hclosed hint]
            exact le_refl _
          · exact belowBound_of_excluded hcast
      | false =>
          -- there is a number between the bounds
          refine hmem ((i.min.toNat + i.max.toNat) / 2) ⟨hempty, ?_, ?_, fun h => ?_⟩
          · refine aboveBound_of_excluded (show (i.min.toNat : ℚ) < _ from ?_)
            linarith
          · refine belowBound_of_excluded (show _ < (i.max.toNat : ℚ) from ?_)
            linarith
          · rw [hint] at h
            cases h

/-- The end of a refinement keeps the numbers and tells if there are none. -/
theorem conclude_spec (hempty : i.empty = false)
    (hclosed : i.integer = true → i.openmin = false) (changed : Bool) :
    (conclude i changed).1.numbers = i.numbers ∧
    ((conclude i changed).2 = -22 ↔ i.numbers = ∅) ∧
    ((conclude i changed).2 = 0 → (conclude i changed).1 = i ∧ changed = false) ∧
    ((conclude i changed).2 < 0 → i.numbers = ∅) ∧
    ((conclude i changed).1.empty = true ∨ (conclude i changed).1 = i) := by
  have hiff := void_iff hempty hclosed
  unfold conclude
  by_cases hvoid : i.Void
  · rw [if_pos hvoid]
    have hnone := hiff.mp hvoid
    refine ⟨?_, iff_of_true rfl hnone, fun h => (by cases h), fun _ => hnone, Or.inl rfl⟩
    rw [hnone]
    exact Set.eq_empty_iff_forall_notMem.mpr fun x hx => by cases hx.1
  · rw [if_neg hvoid]
    refine ⟨rfl, iff_of_false (fun h => ?_) fun h => hvoid (hiff.mpr h), fun h => ⟨rfl, ?_⟩,
      fun h => ?_, Or.inr rfl⟩
    · cases changed <;> cases h
    · cases changed with
      | false => rfl
      | true => cases h
    · cases changed <;> cases h

end Close

/-! ## Refining by another interval -/

section Refine

variable {i v : SndInterval}

/-- The last number is not excluded below an interval that has numbers. -/
theorem min_ne_last (h : i.numbers.Nonempty) (hopen : i.openmin = true) :
    i.min.toNat ≠ 4294967295 := by
  obtain ⟨x, -, habove, hbelow, -⟩ := h
  intro hlast
  have hle : i.max.toNat ≤ 4294967295 := Nat.le_of_lt_succ i.max.toNat_lt
  rw [hopen, hlast] at habove
  obtain hlt | heq := Nat.lt_or_eq_of_le hle
  · have hnot : AboveBound i.max.toNat true x := aboveBound_of_lt hlt habove
    unfold AboveBound at hnot
    unfold BelowBound at hbelow
    cases hmax : i.openmax <;>
      simp only [hmax, Bool.false_eq_true, if_false, if_true] at hbelow hnot <;> linarith
  · rw [heq] at hbelow
    unfold AboveBound at habove
    unfold BelowBound at hbelow
    cases hmax : i.openmax <;>
      simp only [hmax, Bool.false_eq_true, if_false, if_true] at hbelow habove <;> linarith

/-- Zero is not excluded above an interval that has numbers. -/
theorem max_ne_zero (h : i.numbers.Nonempty) (hopen : i.openmax = true) : i.max.toNat ≠ 0 := by
  obtain ⟨x, -, habove, hbelow, -⟩ := h
  intro hzero
  have hcast : (0 : ℚ) ≤ i.min.toNat := by exact_mod_cast Nat.zero_le _
  rw [hopen, hzero] at hbelow
  unfold AboveBound at habove
  unfold BelowBound at hbelow
  cases hmin : i.openmin <;>
    simp only [hmin, Bool.false_eq_true, if_false, if_true, Nat.cast_zero] at hbelow habove <;>
      linarith

/-- The interval with the bounds and the flag of both. -/
structure IsMerged (i v : SndInterval) (merged : SndInterval) (changed : Bool) : Prop where
  empty : merged.empty = false
  integer : merged.integer = (i.integer || v.integer)
  above : ∀ x, AboveBound merged.min.toNat merged.openmin x ↔
    AboveBound i.min.toNat i.openmin x ∧ AboveBound v.min.toNat v.openmin x
  below : ∀ x, BelowBound merged.max.toNat merged.openmax x ↔
    BelowBound i.max.toNat i.openmax x ∧ BelowBound v.max.toNat v.openmax x
  minOpen : merged.openmin = true → merged.min.toNat ≠ 4294967295
  maxOpen : merged.openmax = true → merged.max.toNat ≠ 0
  kept : changed = false → merged = i

theorem IsMerged.numbers {merged : SndInterval} {changed : Bool}
    (h : IsMerged i v merged changed) (hi : i.empty = false) (hv : v.empty = false) :
    merged.numbers = i.numbers ∩ v.numbers := by
  ext x
  constructor
  · rintro ⟨-, habove, hbelow, hwhole⟩
    obtain ⟨hi', hv'⟩ := (h.above x).mp habove
    obtain ⟨hi'', hv''⟩ := (h.below x).mp hbelow
    rw [h.integer, Bool.or_eq_true] at hwhole
    exact ⟨⟨hi, hi', hi'', fun hint => hwhole (Or.inl hint)⟩,
      hv, hv', hv'', fun hint => hwhole (Or.inr hint)⟩
  · rintro ⟨⟨-, hi', hi'', hiw⟩, -, hv', hv'', hvw⟩
    refine ⟨h.empty, (h.above x).mpr ⟨hi', hv'⟩, (h.below x).mpr ⟨hi'', hv''⟩, fun hint => ?_⟩
    rw [h.integer, Bool.or_eq_true] at hint
    exact hint.elim hiw hvw

theorem takeInteger_spec (i : SndInterval) (integer : Bool) :
    (takeInteger i integer).1 = { i with integer := i.integer || integer } ∧
      ((takeInteger i integer).2 = false → (i.integer || integer) = i.integer) := by
  obtain ⟨min, max, openmin, openmax, whole, empty⟩ := i
  cases whole <;> cases integer <;> exact ⟨rfl, fun h => by first | rfl | cases h⟩

/-- The steps of `interval_refine` before the interval is settled. -/
theorem merged_spec (hi : i.numbers.Nonempty) (hv : v.numbers.Nonempty)
    (hempty : i.empty = false) :
    let lower := tightenMin i v.min v.openmin
    let upper := tightenMax lower.1 v.max v.openmax
    let whole := takeInteger upper.1 v.integer
    IsMerged i v whole.1 (lower.2 || upper.2 || whole.2) := by
  intro lower upper whole
  obtain ⟨m, o, hlower, habove, hpick, hkeep⟩ := tightenMin_spec i v.min v.openmin
  obtain ⟨M, O, hupper, hbelow, hpick', hkeep'⟩ := tightenMax_spec lower.1 v.max v.openmax
  obtain ⟨hwhole, hkeep''⟩ := takeInteger_spec upper.1 v.integer
  have hlower' : lower.1 = { i with min := m, openmin := o } := hlower
  have hupper' : upper.1 = ⟨m, M, o, O, i.integer, i.empty⟩ := hupper.trans (by rw [hlower'])
  have hwhole' : whole.1 = ⟨m, M, o, O, i.integer || v.integer, i.empty⟩ :=
    hwhole.trans (by rw [hupper'])
  rw [hlower'] at hbelow hpick' hkeep'
  have hminOpen : o = true → m.toNat ≠ 4294967295 := by
    intro ho
    obtain ⟨rfl, rfl⟩ | ⟨rfl, rfl⟩ := hpick
    · exact min_ne_last hi ho
    · exact min_ne_last hv ho
  have hmaxOpen : O = true → M.toNat ≠ 0 := by
    intro hO
    obtain ⟨rfl, rfl⟩ | ⟨rfl, rfl⟩ := hpick'
    · exact max_ne_zero (i := i) hi hO
    · exact max_ne_zero hv hO
  rw [hwhole']
  refine ⟨hempty, rfl, habove, hbelow, hminOpen, hmaxOpen, fun hchanged => ?_⟩
  rw [Bool.or_eq_false_iff, Bool.or_eq_false_iff] at hchanged
  have hupper2 : (tightenMax { i with min := m, openmin := o } v.max v.openmax).2 = false := by
    rw [← hlower']
    exact hchanged.1.2
  obtain ⟨hM, hO⟩ := hkeep' hupper2
  obtain ⟨hm, ho⟩ := hkeep hchanged.1.1
  have hinteger : (i.integer || v.integer) = i.integer := by
    have h := hkeep'' hchanged.2
    rw [hupper'] at h
    exact h
  rw [hM, hO, hm, ho, hinteger]

/-- Closing the bounds of integers keeps the numbers. -/
theorem closed_spec {merged : SndInterval}
    (hmin : merged.openmin = true → merged.min.toNat ≠ 4294967295)
    (hmax : merged.openmax = true → merged.max.toNat ≠ 0) (hint : merged.integer = true) :
    (closeMax (closeMin merged)).numbers = merged.numbers ∧
      (closeMax (closeMin merged)).empty = merged.empty ∧
      (closeMax (closeMin merged)).openmin = false := by
  obtain ⟨m, hclose, habove⟩ := closeMin_spec hmin
  obtain ⟨M, hclose', hbelow⟩ := closeMax_spec (i := { merged with min := m, openmin := false }) hmax
  rw [hclose, hclose']
  refine ⟨?_, rfl, rfl⟩
  ext x
  constructor
  · rintro ⟨hempty, h, h', hwhole⟩
    exact ⟨hempty, (habove x (hwhole hint)).mp h, (hbelow x (hwhole hint)).mp h', hwhole⟩
  · rintro ⟨hempty, h, h', hwhole⟩
    exact ⟨hempty, (habove x (hwhole hint)).mpr h, (hbelow x (hwhole hint)).mpr h', hwhole⟩

/-- Settling keeps the numbers, and an interval in normal form. -/
theorem settle_spec {merged : SndInterval}
    (hmin : merged.openmin = true → merged.min.toNat ≠ 4294967295)
    (hmax : merged.openmax = true → merged.max.toNat ≠ 0) :
    (settle merged).numbers = merged.numbers ∧ (settle merged).empty = merged.empty ∧
      ((settle merged).integer = true → (settle merged).openmin = false) ∧
      (merged.Normal → settle merged = merged) := by
  unfold settle
  by_cases hint : merged.integer = true
  · rw [if_pos hint]
    obtain ⟨hnumbers, hempty, hclosed⟩ := closed_spec hmin hmax hint
    refine ⟨hnumbers, hempty, fun _ => hclosed, fun hnormal => ?_⟩
    obtain ⟨hopen, hopen'⟩ := hnormal.closed hint
    have hclose : closeMin merged = merged := if_neg (by rw [hopen]; exact Bool.false_ne_true)
    rw [hclose]
    exact if_neg (by rw [hopen']; exact Bool.false_ne_true)
  · rw [if_neg hint]
    by_cases hone : merged.openmin = false ∧ merged.openmax = false ∧ merged.min = merged.max
    · rw [if_pos hone]
      refine ⟨?_, rfl, fun _ => hone.1, fun hnormal => ?_⟩
      · ext x
        constructor
        · rintro ⟨hempty, h, h', hwhole⟩
          exact ⟨hempty, h, h', fun hint' => absurd hint' hint⟩
        · rintro ⟨hempty, h, h', hwhole⟩
          refine ⟨hempty, h, h', fun _ => ⟨merged.min.toNat, ?_⟩⟩
          rw [hone.1] at h
          rw [hone.2.1, ← hone.2.2] at h'
          exact_mod_cast le_antisymm h' h
      · exact absurd (hnormal.single hone.1 hone.2.1 hone.2.2) hint
    · rw [if_neg hone]
      exact ⟨rfl, rfl, fun hint' => absurd hint' hint, fun _ => rfl⟩

/-- **`interval_refine`** leaves the numbers that are in both intervals, fails if there are
none, and returns 0 only if the interval stands for what it stood for; one in normal form is
then the same. -/
theorem intervalRefine_spec (hi : i.numbers.Nonempty) (hv : v.numbers.Nonempty) :
    (intervalRefine i v).1.numbers = i.numbers ∩ v.numbers ∧
    ((intervalRefine i v).2 = -22 ↔ i.numbers ∩ v.numbers = ∅) ∧
    ((intervalRefine i v).2 = 0 → (intervalRefine i v).1.numbers = i.numbers ∧
      (i.Normal → (intervalRefine i v).1 = i)) := by
  have hempty : i.empty = false := hi.some_mem.1
  have hempty' : v.empty = false := hv.some_mem.1
  have hmerged := merged_spec hi hv hempty
  unfold intervalRefine
  rw [if_neg (by rw [hempty]; exact Bool.false_ne_true)]
  dsimp only at hmerged ⊢
  obtain ⟨hsettle, hempty'', hclosed, hnormal⟩ := settle_spec hmerged.minOpen hmerged.maxOpen
  obtain ⟨hnumbers, hnone, hkept, -, -⟩ := conclude_spec
    (hempty''.trans hmerged.empty) hclosed _
  rw [hsettle, hmerged.numbers hempty hempty'] at hnone
  refine ⟨?_, hnone, fun hzero => ?_⟩
  · rw [hnumbers, hsettle, hmerged.numbers hempty hempty']
  · obtain ⟨hsame, hunchanged⟩ := hkept hzero
    have hmerge := hmerged.kept hunchanged
    rw [hsame]
    rw [hmerge] at hsettle hnormal ⊢
    exact ⟨hsettle, hnormal⟩

end Refine

end Blts.Alsa.Refine
