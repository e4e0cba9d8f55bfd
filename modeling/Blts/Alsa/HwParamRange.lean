import Blts.Alsa.HwParamSet

/-!
# A range of a hardware parameter

The lower end is refined first.  Its successor wraps at the last number, and so does the
successor of the upper end, for which the code then takes zero.
-/

namespace Blts.Alsa.Refine

open Blts.Lib

section Ends

variable {min max : UInt32} {mindir maxdir : Int} {x : ℚ}

/-- The ends that the code refines by are the ends of the range. -/
theorem atLeast_iff (hx : 0 ≤ x) :
    AtLeast min mindir x ↔ AboveBound (adjustMin min mindir).1.toNat (adjustMin min mindir).2 x := by
  unfold AtLeast adjustMin
  by_cases hpos : 0 < mindir
  · rw [if_pos hpos, if_pos hpos]
    exact Iff.rfl
  rw [if_neg hpos, if_neg hpos]
  by_cases hneg : mindir < 0
  · rw [if_pos hneg]
    by_cases hmin : 0 < min
    · have hne : min.toNat ≠ 0 := Nat.pos_iff_ne_zero.mp (UInt32.lt_iff_toNat_lt.mp hmin)
      have hcast : (((min - 1).toNat : Nat) : ℚ) = min.toNat - 1 := by
        rw [toNat_pred hne]
        push_cast [Nat.one_le_iff_ne_zero.mpr hne]
        rfl
      rw [if_pos ⟨hneg, hmin⟩, ← hcast]
      exact Iff.rfl
    · have hzero : min.toNat = 0 :=
        Nat.eq_zero_of_not_pos fun h => hmin (UInt32.lt_iff_toNat_lt.mpr h)
      rw [if_neg (fun h => hmin h.2), hzero]
      refine iff_of_true ?_ (show ((0 : Nat) : ℚ) ≤ x by exact_mod_cast hx)
      rw [Nat.cast_zero]
      linarith
  · rw [if_neg hneg, if_neg (fun h => hneg h.1)]
    exact Iff.rfl

theorem atMost_iff (hlast : ¬(0 < maxdir ∧ max.toNat = 4294967295)) :
    AtMost max maxdir x ↔ BelowBound (adjustMax max maxdir).1.toNat (adjustMax max maxdir).2 x := by
  unfold AtMost adjustMax
  by_cases hpos : 0 < maxdir
  · have hcast : (((max + 1).toNat : Nat) : ℚ) = max.toNat + 1 := by
      rw [toNat_succ fun h => hlast ⟨hpos, h⟩, Nat.cast_add, Nat.cast_one]
    rw [if_pos hpos, if_neg (by omega), if_pos hpos, ← hcast]
    exact Iff.rfl
  rw [if_neg hpos]
  by_cases hneg : maxdir < 0
  · rw [if_pos hneg, if_pos hneg]
    exact Iff.rfl
  · rw [if_neg hneg, if_neg hneg, if_neg hpos]
    exact Iff.rfl

/-- The lower end is the last number, and excluded. -/
theorem adjustMin_last : ((adjustMin min mindir).2 = true ∧
    (adjustMin min mindir).1.toNat = 4294967295) ↔ 0 < mindir ∧ min.toNat = 4294967295 := by
  unfold adjustMin
  by_cases hpos : 0 < mindir
  · rw [if_pos hpos]
    exact ⟨fun h => ⟨hpos, h.2⟩, fun h => ⟨rfl, h.2⟩⟩
  rw [if_neg hpos]
  by_cases hneg : mindir < 0 ∧ 0 < min
  · have hne : min.toNat ≠ 0 := Nat.pos_iff_ne_zero.mp (UInt32.lt_iff_toNat_lt.mp hneg.2)
    have hlt := min.toNat_lt
    rw [if_pos hneg, toNat_pred hne]
    exact iff_of_false (fun h => by omega) fun h => hpos h.1
  · rw [if_neg hneg]
    exact iff_of_false (fun h => by cases h.1) fun h => hpos h.1

/-- The upper end is zero, and excluded. -/
theorem adjustMax_zero (max : UInt32) (maxdir : Int) :
    ((adjustMax max maxdir).1.toNat = 0 ∧ (adjustMax max maxdir).2 = true) ↔
    (maxdir < 0 ∧ max.toNat = 0) ∨ (0 < maxdir ∧ max.toNat = 4294967295) := by
  unfold adjustMax
  by_cases hneg : maxdir < 0
  · rw [if_pos hneg]
    exact ⟨fun h => Or.inl ⟨hneg, h.1⟩, fun h => ⟨h.elim And.right fun h => by omega, rfl⟩⟩
  rw [if_neg hneg]
  by_cases hpos : 0 < maxdir
  · rw [if_pos hpos]
    constructor
    · rintro ⟨h, -⟩
      refine Or.inr ⟨hpos, Classical.byContradiction fun hlast => ?_⟩
      rw [toNat_succ hlast] at h
      omega
    · rintro (h | ⟨-, h⟩)
      · exact absurd h.1 hneg
      · have hmax : max = 4294967295 := UInt32.toNat_inj.mp h
        rw [hmax]
        exact ⟨rfl, rfl⟩
  · rw [if_neg hpos]
    refine iff_of_false (fun h => by cases h.2) ?_
    rintro (h | h)
    · exact hneg h.1
    · exact hpos h.1

end Ends

/-! ## The two refinements -/

theorem refineBoth_failed {Param : Type} {refineMin refineMax : Param → Param × Int}
    {param : Param} (h : (refineMin param).2 < 0) :
    refineBoth refineMin refineMax param = refineMin param := if_pos h

theorem refineBoth_fst {Param : Type} {refineMin refineMax : Param → Param × Int}
    {param : Param} (h : ¬(refineMin param).2 < 0) :
    (refineBoth refineMin refineMax param).1 = (refineMax (refineMin param).1).1 := by
  unfold refineBoth
  dsimp only
  rw [if_neg h]
  by_cases hs : (refineMax (refineMin param).1).2 < 0
  · rw [if_pos hs]
  · rw [if_neg hs]

/-! ## Intervals -/

section

variable {i : SndInterval} {min max : UInt32} {mindir maxdir : Int}

/-- The ranges that are right for an interval. -/
def RangeIntervalFits (min : UInt32) (mindir : Int) (max : UInt32) (maxdir : Int)
    (i : SndInterval) : Prop :=
  i.empty = true ∨
    (¬(0 < mindir ∧ min.toNat = 4294967295 ∧ i.integer = true) ∧
      (i.numbers ∩ { x | AtLeast min mindir x } = ∅ ∨
        if 0 < maxdir ∧ max.toNat = 4294967295 then
          i.integer = true ∧ i.max.toNat = 4294967295 ∧ i.openmax = false
        else ¬(maxdir < 0 ∧ max.toNat = 0 ∧ i.integer = true)))

/-- The last number is in an interval of integers that is refined by zero from above. -/
theorem last_mem_of_wraps (hi : i.numbers.Nonempty) (hint : i.integer = true)
    (hclosed : i.openmin = false) : (4294967295 : ℚ) ∈ (intervalRefineMax i 0 true).1.numbers := by
  have hempty : i.empty = false := hi.some_mem.1
  have hle : (i.min.toNat : ℚ) ≤ (4294967295 : Nat) := by
    exact_mod_cast Nat.le_of_lt_succ i.min.toNat_lt
  rw [intervalRefineMax_wraps hi hint hclosed]
  refine ⟨hempty, ?_, ?_, fun _ => ⟨4294967295, by norm_num⟩⟩
  · show AboveBound i.min.toNat i.openmin _
    rw [hclosed]
    exact show (i.min.toNat : ℚ) ≤ 4294967295 by exact_mod_cast hle
  · exact show (4294967295 : ℚ) ≤ (4294967295 : Nat) by norm_num

/-- The upper end, after the lower one. -/
theorem rangeMax_numbers_iff (hi : i.numbers.Nonempty)
    (hclosed : i.integer = true → i.openmin = false) :
    (intervalRefineMax i (adjustMax max maxdir).1 (adjustMax max maxdir).2).1.numbers =
        i.numbers ∩ { x | AtMost max maxdir x } ↔
      if 0 < maxdir ∧ max.toNat = 4294967295 then
        i.integer = true ∧ i.max.toNat = 4294967295 ∧ i.openmax = false
      else ¬(maxdir < 0 ∧ max.toNat = 0 ∧ i.integer = true) := by
  have hzero := adjustMax_zero max maxdir
  by_cases hlast : 0 < maxdir ∧ max.toNat = 4294967295
  · rw [if_pos hlast]
    obtain ⟨hmax, hopen⟩ := hzero.mpr (Or.inr hlast)
    rw [hopen, show (adjustMax max maxdir).1 = 0 from UInt32.toNat_inj.mp hmax]
    -- every number is in the range
    have hall : i.numbers ∩ { x | AtMost max maxdir x } = i.numbers := by
      refine Set.inter_eq_left.mpr fun x hx => ?_
      have hle := numbers_le_last hx
      rw [Set.mem_ofPred_eq, AtMost, if_pos hlast.1, hlast.2]
      norm_num
      linarith
    rw [hall]
    by_cases hint : i.integer = true
    · have hmem := last_mem_of_wraps hi hint (hclosed hint)
      constructor
      · intro hsame
        rw [hsame] at hmem
        have hle : ((4294967295 : Nat) : ℚ) ≤ i.max.toNat := by
          exact_mod_cast numbers_le_max hmem
        have hlt := i.max.toNat_lt
        have hle' : 4294967295 ≤ i.max.toNat := by exact_mod_cast hle
        have heq : i.max.toNat = 4294967295 := by omega
        refine ⟨hint, heq, Bool.eq_false_iff.mpr fun hopenmax => ?_⟩
        have hbelow := hmem.2.2.1
        rw [hopenmax, heq] at hbelow
        exact absurd hbelow (lt_irrefl _)
      · rintro ⟨-, heq, hopenmax⟩
        rw [intervalRefineMax_wraps hi hint (hclosed hint)]
        have hmax : i.max = 4294967295 := UInt32.toNat_inj.mp heq
        rw [← hmax, ← hopenmax]
    · refine iff_of_false (fun hsame => ?_) fun h => hint h.1
      rw [intervalRefineMax_spec hi hclosed fun h => hint h.1] at hsame
      obtain ⟨x, hx⟩ := hi
      have hneg : x < ((0 : UInt32).toNat : ℚ) := by
        rw [← hsame] at hx
        exact hx.2
      have hcast : ((0 : UInt32).toNat : ℚ) = 0 := by norm_num
      have hpos := numbers_nonneg hx
      rw [hcast] at hneg
      exact absurd hpos (not_le.mpr hneg)
  · rw [if_neg hlast]
    by_cases hbelow : maxdir < 0 ∧ max.toNat = 0 ∧ i.integer = true
    · obtain ⟨hneg, hmax, hint⟩ := hbelow
      refine iff_of_false (fun hsame => ?_) fun h => h ⟨hneg, hmax, hint⟩
      obtain ⟨hmax', hopen⟩ := hzero.mpr (Or.inl ⟨hneg, hmax⟩)
      rw [hopen, show (adjustMax max maxdir).1 = 0 from UInt32.toNat_inj.mp hmax'] at hsame
      have hmem := last_mem_of_wraps hi hint (hclosed hint)
      rw [hsame] at hmem
      have hmost : AtMost max maxdir 4294967295 := hmem.2
      rw [AtMost, if_neg (by omega), if_pos hneg, hmax] at hmost
      norm_num at hmost
    · refine iff_of_true ?_ hbelow
      rw [intervalRefineMax_spec hi hclosed ?_]
      · ext x
        exact and_congr_right fun _ => (atMost_iff hlast).symm
      · rintro ⟨hint, hopen, hmax⟩
        obtain h | h := hzero.mp ⟨hmax, hopen⟩
        · exact hbelow ⟨h.1, h.2, hint⟩
        · exact hlast h

theorem belowBound_zero {bound : Nat} {excluded : Bool} (h : ¬(excluded = true ∧ bound = 0)) :
    BelowBound bound excluded 0 := by
  cases excluded with
  | false => exact show (0 : ℚ) ≤ bound by exact_mod_cast Nat.zero_le bound
  | true =>
      have hpos : 0 < bound := Nat.pos_of_ne_zero fun hzero => h ⟨rfl, hzero⟩
      exact show (0 : ℚ) < bound by exact_mod_cast hpos

/-- An interval of integers that is refined by the last number from below has a number left,
whatever the upper end is. -/
theorem range_left_of_wraps (hi : i.numbers.Nonempty) (hint : i.integer = true) (max : UInt32)
    (openmax : Bool) :
    (intervalRefineMax { i with min := 0, openmin := false } max openmax).1.numbers.Nonempty := by
  have hzero : (0 : ℚ) ∈ ({ i with min := 0, openmin := false } : SndInterval).numbers := by
    refine ⟨hi.some_mem.1, show ((0 : Nat) : ℚ) ≤ 0 by norm_num, ?_, fun _ => ⟨0, by norm_num⟩⟩
    exact belowBound_zero fun h => max_ne_zero hi h.1 h.2
  by_cases hwrap : openmax = true ∧ max.toNat = 0
  · obtain ⟨hopen, hmax⟩ := hwrap
    rw [hopen, show max = 0 from UInt32.toNat_inj.mp hmax]
    exact ⟨_, last_mem_of_wraps ⟨0, hzero⟩ hint rfl⟩
  · rw [intervalRefineMax_spec ⟨0, hzero⟩ (fun _ => rfl) fun h => hwrap h.2]
    exact ⟨0, hzero, belowBound_zero hwrap⟩

theorem minmaxInterval_numbers_iff (hwell : i.WellFormed) :
    (minmaxInterval (adjustMin min mindir) (adjustMax max maxdir) i).1.numbers =
        i.numbers ∩ { x | AtLeast min mindir x ∧ AtMost max maxdir x } ↔
      RangeIntervalFits min mindir max maxdir i := by
  unfold minmaxInterval RangeIntervalFits
  obtain hempty | hi := hwell
  · refine iff_of_true ?_ (Or.inl hempty)
    have hsame : intervalRefineMin i (adjustMin min mindir).1 (adjustMin min mindir).2 = (i, -2) :=
      if_pos hempty
    rw [refineBoth_failed (by rw [hsame]; exact show (-2 : Int) < 0 by decide), hsame,
      numbers_of_empty hempty, Set.empty_inter]
  rw [or_iff_right (by rw [hi.some_mem.1]; exact Bool.false_ne_true)]
  -- the numbers from the lower end on, as the code has that end
  have hlower : i.numbers ∩
      { x | AboveBound (adjustMin min mindir).1.toNat (adjustMin min mindir).2 x } =
      i.numbers ∩ { x | AtLeast min mindir x } := by
    ext x
    exact and_congr_right fun hx => (atLeast_iff (numbers_nonneg hx)).symm
  have hrange : i.numbers ∩ { x | AtLeast min mindir x ∧ AtMost max maxdir x } =
      i.numbers ∩ { x | AtLeast min mindir x } ∩ { x | AtMost max maxdir x } := by
    ext x
    exact and_assoc.symm
  by_cases hwrap : 0 < mindir ∧ min.toNat = 4294967295 ∧ i.integer = true
  · -- nothing is in the range
    refine iff_of_false (fun hsame => ?_) fun h => h.1 hwrap
    have hnone : i.numbers ∩ { x | AtLeast min mindir x ∧ AtMost max maxdir x } = ∅ := by
      refine Set.eq_empty_iff_forall_notMem.mpr ?_
      rintro x ⟨hx, hleast, -⟩
      rw [AtLeast, if_pos hwrap.1, hwrap.2.1] at hleast
      have habove : (4294967295 : ℚ) < x := by exact_mod_cast hleast
      exact absurd (numbers_le_last hx) (not_le.mpr habove)
    have hmin : adjustMin min mindir = (4294967295, true) := by
      rw [adjustMin, if_pos hwrap.1, show min = 4294967295 from UInt32.toNat_inj.mp hwrap.2.1]
    rw [hnone, hmin] at hsame
    have hwraps := intervalRefineMin_wraps hi hwrap.2.2
    have hleft := range_left_of_wraps hi hwrap.2.2 (adjustMax max maxdir).1 (adjustMax max maxdir).2
    rw [refineBoth_fst (by rw [hwraps]; exact show ¬(1 : Int) < 0 by decide), hwraps] at hsame
    exact hleft.ne_empty hsame
  · have hnot : ¬(i.integer = true ∧ (adjustMin min mindir).2 = true ∧
        (adjustMin min mindir).1.toNat = 4294967295) := by
      rintro ⟨hint, hlast⟩
      obtain ⟨hpos, hmin⟩ := adjustMin_last.mp hlast
      exact hwrap ⟨hpos, hmin, hint⟩
    rw [and_iff_right hwrap, hrange]
    obtain ⟨hnumbers, hfailed, hrest⟩ := intervalRefineMin_spec hi hnot
    rw [hlower] at hnumbers hfailed
    by_cases hneg : (intervalRefineMin i (adjustMin min mindir).1 (adjustMin min mindir).2).2 < 0
    · have hnone := hfailed.mp hneg
      refine iff_of_true ?_ (Or.inl hnone)
      rw [refineBoth_failed hneg, hnumbers, hnone, Set.empty_inter]
    · obtain ⟨hmax, hopenmax, hint, hclosed⟩ := hrest hneg
      have hsome : i.numbers ∩ { x | AtLeast min mindir x } ≠ ∅ := fun h => hneg (hfailed.mpr h)
      rw [or_iff_right hsome, refineBoth_fst hneg, ← hnumbers, rangeMax_numbers_iff ?_ hclosed,
        hmax, hopenmax, hint]
      rw [hnumbers]
      exact Set.nonempty_iff_ne_empty.mpr hsome

end

/-! ## Masks -/

section

variable {mask : Words} {min max : UInt32} {mindir maxdir : Int}

/-- The ranges that are right for a mask. -/
def RangeMaskFits (min : UInt32) (mindir : Int) (max : UInt32) (maxdir : Int)
    (mask : Words) : Prop :=
  maskEmpty mask = true ∨ (maxdir < 0 ∧ max.toNat = 0) ∨
    if 0 < maxdir ∧ max.toNat = 4294967295 then
      ∀ n : Nat, n < 256 → mask.bit n = true → ¬AtLeast min mindir n
    else if 0 < mindir ∧ min.toNat = 4294967295 then
      (∀ n : Nat, n < 256 → mask.bit n = true → ¬AtMost max maxdir n) ∧ mask.bit 256 = false
    else
      (Drops mask (AtLeast min mindir ·) →
        ∀ n : Nat, 256 ≤ n → ¬AtLeast min mindir n → mask.bit n = false) ∧
      ((∃ n : Nat, n < 256 ∧ mask.bit n = true ∧ AtLeast min mindir n ∧ ¬AtMost max maxdir n) →
        mask.bit 256 = false)

theorem aboveBound_nat_iff {bound : UInt32} {excluded : Bool}
    (h : ¬(excluded = true ∧ bound.toNat = 4294967295)) (n : Nat) :
    AboveBound bound.toNat excluded n ↔
      (bound + if excluded = true then 1 else 0).toNat ≤ n := by
  cases excluded with
  | false =>
      rw [if_neg Bool.false_ne_true, UInt32.add_zero]
      exact show ((bound.toNat : Nat) : ℚ) ≤ n ↔ _ by exact_mod_cast Iff.rfl
  | true =>
      rw [if_pos rfl, toNat_succ fun hlast => h ⟨rfl, hlast⟩]
      exact show ((bound.toNat : Nat) : ℚ) < n ↔ _ by exact_mod_cast Iff.rfl

theorem belowBound_nat_iff {bound : UInt32} {excluded : Bool}
    (h : ¬(bound.toNat = 0 ∧ excluded = true)) (n : Nat) :
    BelowBound bound.toNat excluded n ↔
      n ≤ (bound - if excluded = true then 1 else 0).toNat := by
  cases excluded with
  | false =>
      rw [if_neg Bool.false_ne_true, UInt32.sub_zero]
      exact show (n : ℚ) ≤ (bound.toNat : Nat) ↔ _ by exact_mod_cast Iff.rfl
  | true =>
      have hne : bound.toNat ≠ 0 := fun hzero => h ⟨hzero, rfl⟩
      have hle : n < bound.toNat ↔ n ≤ bound.toNat - 1 := by omega
      rw [if_pos rfl, toNat_pred hne, ← hle]
      exact show (n : ℚ) < (bound.toNat : Nat) ↔ _ by exact_mod_cast Iff.rfl

/-- The least number that is kept. -/
theorem atLeast_nat_iff (hlast : ¬(0 < mindir ∧ min.toNat = 4294967295)) (n : Nat) :
    AtLeast min mindir n ↔ ((adjustMin min mindir).1 +
      if (adjustMin min mindir).2 = true then 1 else 0).toNat ≤ n :=
  (atLeast_iff (by exact_mod_cast Nat.zero_le n)).trans
    (aboveBound_nat_iff (fun h => hlast (adjustMin_last.mp h)) n)

/-- The greatest number that is kept. -/
theorem atMost_nat_iff
    (hzero : ¬((adjustMax max maxdir).1.toNat = 0 ∧ (adjustMax max maxdir).2 = true)) (n : Nat) :
    AtMost max maxdir n ↔ n ≤ ((adjustMax max maxdir).1 -
      if (adjustMax max maxdir).2 = true then 1 else 0).toNat :=
  (atMost_iff fun h => hzero ((adjustMax_zero max maxdir).mpr (Or.inr h))).trans
    (belowBound_nat_iff hzero n)

/-- Two refinements leave what lies behind the mask if each of them does. -/
theorem leaves_both_iff {left left' : Words} {wanted wanted' : Nat → Prop}
    (hinside : ∀ n, n < 256 → (left.bit n = true ↔ mask.bit n = true ∧ wanted n))
    (hinside' : ∀ n, n < 256 → (left'.bit n = true ↔ left.bit n = true ∧ wanted' n))
    (hsub : ∀ n, left.bit n = true → mask.bit n = true)
    (hsub' : ∀ n, left'.bit n = true → left.bit n = true) :
    Leaves mask left' (fun n => wanted n ∧ wanted' n) ↔
      Leaves mask left wanted ∧ Leaves left left' wanted' := by
  constructor
  · intro h
    have hsame : ∀ n, 256 ≤ n → left.bit n = mask.bit n := by
      intro n hn
      refine Bool.eq_iff_iff.mpr ⟨hsub n, fun hbit => hsub' n ?_⟩
      rw [h.outside n hn]
      exact hbit
    exact ⟨⟨hinside, hsame⟩, hinside', fun n hn => by rw [h.outside n hn, hsame n hn]⟩
  · rintro ⟨h, h'⟩
    refine ⟨fun n hn => ?_, fun n hn => (h'.outside n hn).trans (h.outside n hn)⟩
    rw [hinside' n hn, hinside n hn, and_assoc]

/-- The code zeroes the mask for an upper end that is zero and excluded. -/
theorem minmaxMask_none (h : (adjustMax max maxdir).1.toNat = 0 ∧ (adjustMax max maxdir).2 = true)
    (lower : UInt32 × Bool) :
    (minmaxMask lower (adjustMax max maxdir) mask).1 = maskNone mask := by
  unfold minmaxMask
  rw [if_pos ⟨UInt32.toNat_inj.mp h.1, h.2⟩]

theorem minmaxMask_both
    (h : ¬((adjustMax max maxdir).1.toNat = 0 ∧ (adjustMax max maxdir).2 = true))
    (lower : UInt32 × Bool) :
    minmaxMask lower (adjustMax max maxdir) mask =
      refineBoth (maskRefineMin · (lower.1 + if lower.2 = true then 1 else 0).toNat)
        (maskRefineMax · ((adjustMax max maxdir).1 -
          if (adjustMax max maxdir).2 = true then 1 else 0).toNat) mask := by
  unfold minmaxMask
  exact if_neg fun hzero => h ⟨by rw [hzero.1]; rfl, hzero.2⟩

/-- The numbers below the least one that is kept are a range. -/
theorem below_iff (low n : Nat) (hlow : low ≠ 0) : low ≤ n ↔ ¬(0 ≤ n ∧ n ≤ low - 1) := by
  omega

theorem above_iff (high n : Nat) (hn : n < 256) :
    n ≤ high ↔ ¬(high + 1 ≤ n ∧ n ≤ sndrvMaskMax) := by
  rw [sndrvMaskMax]
  omega

/-- The lower end by itself. -/
theorem maskRefineMin_leaves_iff (hempty : ¬maskEmpty mask = true) (low : Nat) :
    Leaves mask (maskRefineMin mask low).1 (low ≤ ·) ↔
      (Drops mask (low ≤ ·) → ∀ n, 256 ≤ n → ¬low ≤ n → mask.bit n = false) := by
  have hrefined := maskRefineMin_refined hempty low
  by_cases hlow : low = 0
  · have hkeeps : ¬Drops mask (low ≤ ·) := by
      rintro ⟨n, -, -, hnot⟩
      omega
    rw [hrefined.kept hkeeps]
    exact iff_of_true (leaves_of_keeps hkeeps) fun h => absurd h hkeeps
  rw [hrefined.leaves_iff fun n _ => below_iff low n hlow]
  refine imp_congr_right fun _ => forall_congr' fun n => imp_congr_right fun _ => ?_
  constructor
  · exact fun h hnot => h (by omega) (by omega)
  · exact fun h _ hle => h (by omega)

/-- The upper end by itself. -/
theorem maskRefineMax_leaves_iff (hempty : ¬maskEmpty mask = true) (high : Nat) :
    Leaves mask (maskRefineMax mask high).1 (· ≤ high) ↔
      (Drops mask (· ≤ high) → mask.bit 256 = false) := by
  rw [(maskRefineMax_refined hempty high).leaves_iff fun n hn => above_iff high n hn]
  refine imp_congr_right fun hdrops => ?_
  obtain ⟨k, hk, -, hnot⟩ := hdrops
  rw [sndrvMaskMax]
  constructor
  · exact fun h => h 256 (by omega) (by omega) (by omega)
  · intro h n hn _ hle
    rw [show n = 256 by omega]
    exact h

/-- Both ends, where the code has them right. -/
theorem refineBoth_leaves_iff (hempty : ¬maskEmpty mask = true) (low high : Nat) :
    Leaves mask (refineBoth (maskRefineMin · low) (maskRefineMax · high) mask).1
        (fun n => low ≤ n ∧ n ≤ high) ↔
      (Drops mask (low ≤ ·) → ∀ n, 256 ≤ n → ¬low ≤ n → mask.bit n = false) ∧
      ((∃ n, n < 256 ∧ mask.bit n = true ∧ low ≤ n ∧ ¬n ≤ high) → mask.bit 256 = false) := by
  have hrefined := maskRefineMin_refined hempty low
  have hlower := maskRefineMin_leaves_iff hempty low
  have hinside : ∀ n, n < 256 →
      ((maskRefineMin mask low).1.bit n = true ↔ mask.bit n = true ∧ low ≤ n) := by
    by_cases hlow : low = 0
    · have hkeeps : ¬Drops mask (low ≤ ·) := by
        rintro ⟨n, -, -, hnot⟩
        omega
      rw [hrefined.kept hkeeps]
      exact (leaves_of_keeps hkeeps).inside
    · exact hrefined.inside fun n _ => below_iff low n hlow
  by_cases hneg : (maskRefineMin mask low).2 < 0
  · -- nothing is left by the lower end
    have hnone := hrefined.failed.mp hneg
    have hsecond : (∃ n, n < 256 ∧ mask.bit n = true ∧ low ≤ n ∧ ¬n ≤ high) →
        mask.bit 256 = false := by
      rintro ⟨n, hn, hbit, hle, -⟩
      exact absurd hle (hnone n hn hbit)
    rw [refineBoth_failed hneg, and_iff_left hsecond, ← hlower]
    constructor
    · refine fun h => ⟨fun n hn => ?_, h.outside⟩
      rw [h.inside n hn]
      exact and_congr_right fun hbit => iff_of_false (fun hboth => hnone n hn hbit hboth.1)
        (hnone n hn hbit)
    · refine fun h => ⟨fun n hn => ?_, h.outside⟩
      rw [h.inside n hn]
      exact and_congr_right fun hbit => iff_of_false (hnone n hn hbit)
        fun hboth => hnone n hn hbit hboth.1
  · have hleft : ¬maskEmpty (maskRefineMin mask low).1 = true := by
      refine fun hnone => hneg (hrefined.failed.mpr fun n hn hbit hle => ?_)
      have hset := (hinside n hn).mpr ⟨hbit, hle⟩
      rw [maskEmpty_iff.mp hnone n hn] at hset
      cases hset
    have hrefined' := maskRefineMax_refined hleft high
    rw [refineBoth_fst hneg, leaves_both_iff hinside
      (hrefined'.inside fun n hn => above_iff high n hn)
      (fun _ => hrefined.bit_of_bit) (fun _ => hrefined'.bit_of_bit), hlower,
      maskRefineMax_leaves_iff hleft]
    refine and_congr_right fun hfirst => ?_
    rw [(hlower.mpr hfirst).outside 256 (by omega)]
    refine imp_congr_left ⟨?_, ?_⟩
    · rintro ⟨n, hn, hbit, hnot⟩
      obtain ⟨hbit', hle⟩ := (hinside n hn).mp hbit
      exact ⟨n, hn, hbit', hle, hnot⟩
    · rintro ⟨n, hn, hbit, hle, hnot⟩
      exact ⟨n, hn, (hinside n hn).mpr ⟨hbit, hle⟩, hnot⟩

/-- A lower end that is zero for the code, where nothing is in the range. -/
theorem refineBoth_none_iff (hempty : ¬maskEmpty mask = true) (high : Nat) {wanted : Nat → Prop}
    (hnone : ∀ n, n < 256 → ¬wanted n) :
    Leaves mask (refineBoth (maskRefineMin · 0) (maskRefineMax · high) mask).1 wanted ↔
      (∀ n, n < 256 → mask.bit n = true → ¬n ≤ high) ∧ mask.bit 256 = false := by
  have hzero : maskRefineMin mask 0 = (mask, 0) := by
    unfold maskRefineMin
    rw [if_neg hempty, if_pos (Nat.zero_le _)]
  rw [refineBoth_fst (by rw [hzero]; exact show ¬(0 : Int) < 0 by decide), hzero]
  have hrefined := maskRefineMax_refined hempty high
  have hinside := hrefined.inside fun n hn => above_iff high n hn
  obtain ⟨k, hk, hbit⟩ := exists_bit hempty
  constructor
  · intro h
    have hout : ∀ n, n < 256 → mask.bit n = true → ¬n ≤ high := by
      intro n hn hset hle
      exact hnone n hn ((h.inside n hn).mp ((hinside n hn).mpr ⟨hset, hle⟩)).2
    exact ⟨hout, (maskRefineMax_leaves_iff hempty high).mp ⟨hinside, h.outside⟩
      ⟨k, hk, hbit, hout k hk hbit⟩⟩
  · rintro ⟨hout, hclear⟩
    have hleaves := (maskRefineMax_leaves_iff hempty high).mpr fun _ => hclear
    refine ⟨fun n hn => ?_, hleaves.outside⟩
    rw [hinside n hn]
    exact and_congr_right fun hset => iff_of_false (hout n hn hset) (hnone n hn)

theorem minmaxMask_leaves_iff :
    Leaves mask (minmaxMask (adjustMin min mindir) (adjustMax max maxdir) mask).1
        (fun n => AtLeast min mindir n ∧ AtMost max maxdir n) ↔
      RangeMaskFits min mindir max maxdir mask := by
  unfold RangeMaskFits
  by_cases hzero : (adjustMax max maxdir).1.toNat = 0 ∧ (adjustMax max maxdir).2 = true
  · rw [minmaxMask_none hzero, maskNone_leaves_iff]
    obtain ⟨hneg, hmax⟩ | hlast := (adjustMax_zero max maxdir).mp hzero
    · -- nothing is below zero
      refine iff_of_true (fun n _ _ hboth => ?_) (Or.inr (Or.inl ⟨hneg, hmax⟩))
      have hmost := hboth.2
      rw [AtMost, if_neg (by omega), if_pos hneg, hmax] at hmost
      exact absurd (show (0 : ℚ) ≤ n by exact_mod_cast Nat.zero_le n)
        (not_le.mpr (by exact_mod_cast hmost))
    · -- every number is in the range, but the mask is zeroed
      have hall : ∀ n : Nat, n < 256 → AtMost max maxdir n := by
        intro n hn
        rw [AtMost, if_pos hlast.1, hlast.2]
        have hlt : n < 4294967295 + 1 := by omega
        exact_mod_cast hlt
      have hneg : ¬(maxdir < 0 ∧ max.toNat = 0) := by omega
      rw [or_iff_right hneg, if_pos hlast]
      constructor
      · exact fun h => Or.inr fun n hn hbit hleast => h n hn hbit ⟨hleast, hall n hn⟩
      · rintro (hempty | h) n hn hbit hboth
        · rw [maskEmpty_iff.mp hempty n hn] at hbit
          cases hbit
        · exact h n hn hbit hboth.1
  rw [minmaxMask_both hzero]
  have hneg : ¬(maxdir < 0 ∧ max.toNat = 0) :=
    fun h => hzero ((adjustMax_zero max maxdir).mpr (Or.inl h))
  have hlast : ¬(0 < maxdir ∧ max.toNat = 4294967295) :=
    fun h => hzero ((adjustMax_zero max maxdir).mpr (Or.inr h))
  rw [or_iff_right hneg, if_neg hlast]
  have hmost := atMost_nat_iff hzero
  generalize ((adjustMax max maxdir).1 -
    if (adjustMax max maxdir).2 = true then 1 else 0).toNat = high at hmost ⊢
  by_cases hempty : maskEmpty mask = true
  · refine iff_of_true ?_ (Or.inl hempty)
    have hsame : ∀ low, maskRefineMin mask low = (mask, -2) := fun low => if_pos hempty
    rw [refineBoth_failed (by rw [hsame]; exact show (-2 : Int) < 0 by decide), hsame]
    exact leaves_of_empty hempty _
  rw [or_iff_right hempty]
  by_cases hwrap : 0 < mindir ∧ min.toNat = 4294967295
  · have hlow : ((adjustMin min mindir).1 +
        if (adjustMin min mindir).2 = true then 1 else 0).toNat = 0 := by
      rw [adjustMin, if_pos hwrap.1, if_pos rfl, show min = 4294967295 from
        UInt32.toNat_inj.mp hwrap.2]
      rfl
    have hnone : ∀ n : Nat, n < 256 → ¬AtLeast min mindir n := by
      intro n hn hleast
      rw [AtLeast, if_pos hwrap.1, hwrap.2] at hleast
      have hlt : 4294967295 < n := by exact_mod_cast hleast
      omega
    rw [if_pos hwrap, hlow]
    simp only [hmost]
    exact refineBoth_none_iff hempty high fun n hn hboth => hnone n hn hboth.1
  rw [if_neg hwrap]
  have hleast := atLeast_nat_iff hwrap
  generalize ((adjustMin min mindir).1 +
    if (adjustMin min mindir).2 = true then 1 else 0).toNat = low at hleast ⊢
  simp only [hleast, hmost]
  exact refineBoth_leaves_iff hempty low high

end

/-!
## Refinements of hardware parameters

Intervals are refined by one another without fault.  What goes wrong is at the ends: the number
after the last one, and the bit after the last one of a mask.
-/

/-- A call to one of the refinements. -/
inductive Request where
  | refine (i v : SndInterval)
  | set (params : HwParams) (var : Int) (val : UInt32) (dir : Int)
  | setMinmax (params : HwParams) (var : Int) (min : UInt32) (mindir : Int) (max : UInt32)
      (maxdir : Int)

/-- The intervals have numbers, or are marked as empty where that may be. -/
def Request.WellFormed : Request → Prop
  | refine i v => i.numbers.Nonempty ∧ v.numbers.Nonempty
  | set params var _ _ => IsInterval var → (hwParamInterval params var).WellFormed
  | setMinmax params var _ _ _ _ => IsInterval var → (hwParamInterval params var).WellFormed

/-- The call leaves what is in both sets, and touches nothing else. -/
def Request.Exact : Request → Prop
  | refine i v =>
      (intervalRefine i v).1.numbers = i.numbers ∩ v.numbers ∧
      ((intervalRefine i v).2 = -22 ↔ i.numbers ∩ v.numbers = ∅) ∧
      ((intervalRefine i v).2 = 0 → (intervalRefine i v).1.numbers = i.numbers ∧
        (i.Normal → (intervalRefine i v).1 = i))
  | set params var val dir =>
      LeavesParam params (pcmHwParamSet params var val dir).1 var (Picks val dir) (Around val dir)
  | setMinmax params var min mindir max maxdir =>
      LeavesParam params (pcmHwParamSetMinmax params var min mindir max maxdir).1 var
        (fun n => AtLeast min mindir n ∧ AtMost max maxdir n)
        (fun x => AtLeast min mindir x ∧ AtMost max maxdir x)

/-- The calls that keep away from the ends. -/
def Request.Fits : Request → Prop
  | refine _ _ => True
  | set params var val dir =>
      (IsMask var → SetMaskFits val dir (hwParamMask params var)) ∧
      (IsInterval var → SetIntervalFits val dir (hwParamInterval params var))
  | setMinmax params var min mindir max maxdir =>
      (IsMask var → RangeMaskFits min mindir max maxdir (hwParamMask params var)) ∧
      (IsInterval var → RangeIntervalFits min mindir max maxdir (hwParamInterval params var))

/-- Every mask is full, and every interval has all numbers. -/
def anyParams : HwParams where
  masks := fun _ => 4294967295#32
  intervals := fun _ => ⟨0, 4294967295, false, false, false, false⟩
  cmask := 0#32
  rmask := 4294967295#32

end Blts.Alsa.Refine
