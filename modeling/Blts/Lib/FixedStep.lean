import Mathlib.Algebra.Order.Ring.Int
import Mathlib.Tactic.Linarith
import Mathlib.Tactic.Ring

/-!
# Steps in fixed point

A row of `n` samples is read at `m` places: the step is `n / m` in units of `1 / u`, rounded
towards zero, and the sample of a place is rounded down.  For `n > 0` every sample is one of the
row (`sampleAt_lt`).  For `n < 0` the samples go down from zero; when they stay at zero, and when
they stay above `n`, is said by `sampleAt_last_nonneg_iff` and `lt_sampleAt_last_iff`.
-/

namespace Blts.Lib

/-- The step from one place to the next. -/
def fixedStep (u n m : Int) : Int := (n * u).tdiv m

/-- The sample of a place. -/
def sampleAt (u step i : Int) : Int := i * step / u

section

variable {u n m i : Int}

@[simp] theorem sampleAt_zero (u step : Int) : sampleAt u step 0 = 0 := by
  rw [sampleAt, Int.zero_mul, Int.zero_ediv]

theorem fixedStep_of_nonneg (hu : 0 ≤ u) (hn : 0 ≤ n) : fixedStep u n m = n * u / m :=
  Int.tdiv_eq_ediv_of_nonneg (Int.mul_nonneg hn hu)

theorem fixedStep_neg (u n m : Int) : fixedStep u (-n) m = -fixedStep u n m := by
  rw [fixedStep, Int.neg_mul, Int.neg_tdiv]
  rfl

theorem fixedStep_nonneg (hu : 0 ≤ u) (hn : 0 ≤ n) (hm : 0 ≤ m) : 0 ≤ fixedStep u n m := by
  rw [fixedStep_of_nonneg hu hn]
  exact Int.ediv_nonneg (Int.mul_nonneg hn hu) hm

/-- The steps to all places make the row at most. -/
theorem fixedStep_mul_le (hu : 0 ≤ u) (hn : 0 ≤ n) (hm : 0 < m) :
    m * fixedStep u n m ≤ n * u := by
  rw [fixedStep_of_nonneg hu hn]
  exact Int.mul_ediv_self_le (Int.ne_of_gt hm)

theorem mul_fixedStep_le (hu : 0 ≤ u) (hn : 0 ≤ n) (hi : i < m) (hpos : 0 < m) :
    i * fixedStep u n m ≤ n * u :=
  Int.le_trans (Int.mul_le_mul_of_nonneg_right (Int.le_of_lt hi)
    (fixedStep_nonneg hu hn (Int.le_of_lt hpos))) (fixedStep_mul_le hu hn hpos)

theorem mul_fixedStep_nonneg (hu : 0 ≤ u) (hn : 0 ≤ n) (h0 : 0 ≤ i) (hi : i < m) :
    0 ≤ i * fixedStep u n m :=
  Int.mul_nonneg h0 (fixedStep_nonneg hu hn (Int.le_trans h0 (Int.le_of_lt hi)))

/-- The step is between zero and the whole row. -/
theorem fixedStep_bounds (hu : 0 ≤ u) (hm : 0 < m) :
    min 0 (n * u) ≤ fixedStep u n m ∧ fixedStep u n m ≤ max 0 (n * u) := by
  have hmul : ∀ {a : Int}, 0 ≤ a → fixedStep u a m ≤ a * u := by
    intro a ha
    have hstep := fixedStep_nonneg hu ha (Int.le_of_lt hm)
    have hone := Int.mul_le_mul_of_nonneg_right (show 1 ≤ m from hm) hstep
    rw [Int.one_mul] at hone
    exact Int.le_trans hone (fixedStep_mul_le hu ha hm)
  rcases Int.le_total 0 n with hn | hn
  · have hle := hmul hn
    have hstep := fixedStep_nonneg hu hn (Int.le_of_lt hm)
    omega
  · obtain ⟨a, rfl⟩ : ∃ a, n = -a := ⟨-n, (Int.neg_neg n).symm⟩
    have hle := hmul (show 0 ≤ a by omega)
    have hstep := fixedStep_nonneg hu (show 0 ≤ a by omega) (Int.le_of_lt hm)
    rw [fixedStep_neg, Int.neg_mul]
    omega

/-- A place is between the start and the end of the row, in either direction. -/
theorem mul_fixedStep_bounds (hu : 0 ≤ u) (h0 : 0 ≤ i) (hi : i < m) :
    min 0 (n * u) ≤ i * fixedStep u n m ∧ i * fixedStep u n m ≤ max 0 (n * u) := by
  have hpos : 0 < m := Int.lt_of_le_of_lt h0 hi
  rcases Int.le_total 0 n with hn | hn
  · have hle := mul_fixedStep_le hu hn hi hpos
    have hnonneg := mul_fixedStep_nonneg hu hn h0 hi
    omega
  · obtain ⟨a, rfl⟩ : ∃ a, n = -a := ⟨-n, (Int.neg_neg n).symm⟩
    have ha : 0 ≤ a := by omega
    have hle := mul_fixedStep_le hu ha hi hpos
    have hnonneg := mul_fixedStep_nonneg hu ha h0 hi
    rw [fixedStep_neg, Int.mul_neg, Int.neg_mul]
    omega

theorem sampleAt_bounds (hu : 0 < u) (h0 : 0 ≤ i) (hi : i < m) :
    min 0 n ≤ sampleAt u (fixedStep u n m) i ∧ sampleAt u (fixedStep u n m) i ≤ max 0 n := by
  obtain ⟨hlow, hhigh⟩ := mul_fixedStep_bounds (n := n) (Int.le_of_lt hu) h0 hi
  have hend : n * u / u = n := Int.mul_ediv_cancel n (Int.ne_of_gt hu)
  rcases Int.le_total 0 n with hn | hn
  · have hrow : 0 ≤ n * u := Int.mul_nonneg hn (Int.le_of_lt hu)
    have hle := Int.ediv_le_ediv hu (show i * fixedStep u n m ≤ n * u by omega)
    have hge := Int.ediv_nonneg (show 0 ≤ i * fixedStep u n m by omega) (Int.le_of_lt hu)
    rw [sampleAt]
    omega
  · have hrow : n * u ≤ 0 := Int.mul_nonpos_of_nonpos_of_nonneg hn (Int.le_of_lt hu)
    have hge := Int.ediv_le_ediv hu (show n * u ≤ i * fixedStep u n m by omega)
    have hle := Int.ediv_le_ediv hu (show i * fixedStep u n m ≤ 0 by omega)
    rw [Int.zero_ediv] at hle
    rw [sampleAt]
    omega

/-! ### A row -/

theorem sampleAt_nonneg (hu : 0 < u) (hn : 0 ≤ n) (h0 : 0 ≤ i) (hi : i < m) :
    0 ≤ sampleAt u (fixedStep u n m) i :=
  Int.ediv_nonneg (mul_fixedStep_nonneg (Int.le_of_lt hu) hn h0 hi) (Int.le_of_lt hu)

/-- **Every sample** is one of the row. -/
theorem sampleAt_lt (hu : 0 < u) (hn : 0 < n) (h0 : 0 ≤ i) (hi : i < m) :
    sampleAt u (fixedStep u n m) i < n := by
  have hpos : 0 < m := Int.lt_of_le_of_lt h0 hi
  have hstep := fixedStep_nonneg (Int.le_of_lt hu) (Int.le_of_lt hn) (Int.le_of_lt hpos)
  have htotal := fixedStep_mul_le (Int.le_of_lt hu) (Int.le_of_lt hn) hpos
  have hrow : 0 < n * u := Int.mul_pos hn hu
  refine Int.ediv_lt_of_lt_mul hu ?_
  rcases Int.lt_or_eq_of_le hstep with hstep | hstep
  · exact Int.lt_of_lt_of_le (Int.mul_lt_mul_of_pos_right hi hstep) htotal
  · rw [← hstep, Int.mul_zero]
    exact hrow

theorem sampleAt_le_last (hu : 0 < u) (hn : 0 ≤ n) (h0 : 0 ≤ i) (hi : i < m) :
    sampleAt u (fixedStep u n m) i ≤ sampleAt u (fixedStep u n m) (m - 1) := by
  have hstep := fixedStep_nonneg (Int.le_of_lt hu) hn (Int.le_trans h0 (Int.le_of_lt hi))
  exact Int.ediv_le_ediv hu (Int.mul_le_mul_of_nonneg_right (by omega) hstep)

theorem fixedStep_self (u : Int) (hn : n ≠ 0) : fixedStep u n n = u := by
  rw [fixedStep, Int.mul_comm n u, Int.mul_tdiv_cancel _ hn]

/-- The last sample is the first of the row only if there is but one place or one sample, or the
step is zero. -/
theorem sampleAt_last_nonpos_iff (hu : 0 < u) (hn : 0 < n) (hm : 0 < m) :
    sampleAt u (fixedStep u n m) (m - 1) ≤ 0 ↔ n = 1 ∨ m = 1 ∨ n * u < m := by
  have hlast : m - 1 < m := by omega
  have hfloor : sampleAt u (fixedStep u n m) (m - 1) ≤ 0 ↔ (m - 1) * fixedStep u n m < u := by
    have h := Int.ediv_lt_iff_lt_mul (a := (m - 1) * fixedStep u n m) (b := 1) hu
    rw [Int.one_mul] at h
    rw [← h, sampleAt]
    omega
  rw [hfloor]
  constructor
  · intro h
    by_contra hnot
    rw [not_or, not_or] at hnot
    obtain ⟨hn1, hm1, hmu⟩ := hnot
    have hq : 1 ≤ fixedStep u n m := by
      rw [fixedStep_of_nonneg (Int.le_of_lt hu) (Int.le_of_lt hn), Int.le_ediv_iff_mul_le hm]
      omega
    -- `n * u` is less than one step more at every place, which is at least two rows of `u`.
    have hnext : n * u < m * (fixedStep u n m + 1) := by
      rw [fixedStep_of_nonneg (Int.le_of_lt hu) (Int.le_of_lt hn), Int.mul_comm m]
      exact Int.lt_ediv_add_one_mul_self _ hm
    have htwo : 2 * u ≤ n * u := Int.mul_le_mul_of_nonneg_right (by omega) (Int.le_of_lt hu)
    have hprod : 0 ≤ (m - 2) * (fixedStep u n m - 1) := Int.mul_nonneg (by omega) (by omega)
    have hexpand : 2 * ((m - 1) * fixedStep u n m) =
        m * (fixedStep u n m + 1) + (m - 2) * (fixedStep u n m - 1) - 2 := by ring
    omega
  · rintro (rfl | rfl | hlt)
    · have hlt := sampleAt_lt hu Int.zero_lt_one (by omega) hlast
      have hzero : sampleAt u (fixedStep u 1 m) (m - 1) ≤ 0 := by omega
      have h := Int.ediv_lt_iff_lt_mul (a := (m - 1) * fixedStep u 1 m) (b := 1) hu
      rw [Int.one_mul] at h
      rw [← h]
      exact Int.lt_of_le_of_lt hzero Int.zero_lt_one
    · rw [Int.sub_self, Int.zero_mul]
      exact hu
    · rw [fixedStep_of_nonneg (Int.le_of_lt hu) (Int.le_of_lt hn),
        Int.ediv_eq_zero_of_lt (Int.mul_nonneg (Int.le_of_lt hn) (Int.le_of_lt hu)) hlt,
        Int.mul_zero]
      exact hu

/-! ### A row that goes down -/

theorem sampleAt_neg (u n m i : Int) :
    sampleAt u (fixedStep u (-n) m) i = -(i * fixedStep u n m) / u := by
  rw [sampleAt, fixedStep_neg, Int.mul_neg]

/-- The samples of `-n` are never above zero. -/
theorem sampleAt_neg_nonpos (hu : 0 < u) (hn : 0 ≤ n) (h0 : 0 ≤ i) (hi : i < m) :
    sampleAt u (fixedStep u (-n) m) i ≤ 0 := by
  have hnonneg := mul_fixedStep_nonneg (Int.le_of_lt hu) hn h0 hi
  have hlt := Int.ediv_lt_of_lt_mul (a := -(i * fixedStep u n m)) (b := 1) hu (by omega)
  rw [sampleAt_neg]
  omega

/-- When a sample is above `-c`. -/
theorem neg_lt_sampleAt_iff (hu : 0 < u) (c : Int) :
    -c < sampleAt u (fixedStep u (-n) m) i ↔ i * fixedStep u n m ≤ (c - 1) * u := by
  have h := Int.le_ediv_iff_mul_le (a := 1 - c) (b := -(i * fixedStep u n m)) hu
  have hneg : (1 - c) * u = -((c - 1) * u) := by ring
  rw [hneg] at h
  rw [sampleAt_neg]
  omega

theorem sampleAt_neg_last_le (hu : 0 < u) (hn : 0 ≤ n) (h0 : 0 ≤ i) (hi : i < m) :
    sampleAt u (fixedStep u (-n) m) (m - 1) ≤ sampleAt u (fixedStep u (-n) m) i := by
  have hstep := fixedStep_nonneg (Int.le_of_lt hu) hn (Int.le_trans h0 (Int.le_of_lt hi))
  have hle := Int.mul_le_mul_of_nonneg_right (show i ≤ m - 1 by omega) hstep
  rw [sampleAt_neg, sampleAt_neg]
  exact Int.ediv_le_ediv hu (by omega)

/-- **The samples stay at zero** if there is but one place, or the step is zero. -/
theorem sampleAt_last_nonneg_iff (hu : 0 < u) (hn : 0 < n) (hm : 0 < m) :
    0 ≤ sampleAt u (fixedStep u (-n) m) (m - 1) ↔ m = 1 ∨ n * u < m := by
  have hstep := fixedStep_nonneg (Int.le_of_lt hu) (Int.le_of_lt hn) (Int.le_of_lt hm)
  have hfloor := neg_lt_sampleAt_iff (n := n) (m := m) (i := m - 1) hu 1
  rw [Int.sub_self, Int.zero_mul] at hfloor
  have hzero : fixedStep u n m ≤ 0 ↔ n * u < m := by
    rw [fixedStep_of_nonneg (Int.le_of_lt hu) (Int.le_of_lt hn)]
    have h := Int.ediv_lt_iff_lt_mul (a := n * u) (b := 1) hm
    rw [Int.one_mul] at h
    rw [← h]
    omega
  rw [← hzero]
  constructor
  · intro h
    have hprod : (m - 1) * fixedStep u n m ≤ 0 := hfloor.mp (by omega)
    by_contra hnot
    rw [not_or] at hnot
    have hpos := Int.mul_pos (show 0 < m - 1 by omega) (show 0 < fixedStep u n m by omega)
    omega
  · intro h
    have hprod : (m - 1) * fixedStep u n m ≤ 0 := by
      rcases h with rfl | h
      · rw [Int.sub_self, Int.zero_mul]
      · rw [Int.le_antisymm h hstep, Int.mul_zero]
    have hlt := hfloor.mpr hprod
    omega

/-- **The samples stay above `-n`** if what the step rounds off makes up for it. -/
theorem lt_sampleAt_last_iff (hu : 0 < u) (hn : 0 < n) :
    -n < sampleAt u (fixedStep u (-n) m) (m - 1) ↔ u ≤ n * u % m + n * u / m := by
  have hdiv := Int.emod_add_mul_ediv (n * u) m
  rw [neg_lt_sampleAt_iff hu, fixedStep_of_nonneg (Int.le_of_lt hu) (Int.le_of_lt hn),
    Int.sub_mul, Int.sub_mul, Int.one_mul, Int.one_mul]
  omega

end

end Blts.Lib
