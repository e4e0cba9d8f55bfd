import Mathlib.Algebra.Order.Ring.Nat
import Blts.Lib.BitWords

/-!
# Refining masks

A `snd_mask` is a set of the numbers below 256, in eight words.  What lies behind them in
memory is kept with them here: a bit is cleared by its number, whatever word that is in.
-/

namespace Blts.Alsa.Refine

open Blts.Lib

/-- `MASK_SIZE`. -/
def maskSize : Nat := 8

/-- `SNDRV_MASK_MAX`. -/
def sndrvMaskMax : Nat := 256

/-! ## The source -/

/-- `mask_empty`. -/
def maskEmpty (mask : Words) : Bool := (List.range maskSize).all fun i => mask i == 0#32

/-- The loop of `mask_single`; `c` words before are not zero. -/
def singleLoop (mask : Words) : List Nat → Nat → Bool
  | [], _ => true
  | i :: is, c =>
      if mask i = 0#32 then singleLoop mask is c
      else if mask i &&& (mask i - 1#32) ≠ 0#32 then false
      else if c ≠ 0 then false
      else singleLoop mask is (c + 1)

/-- `mask_single`. -/
def maskSingle (mask : Words) : Bool := singleLoop mask (List.range maskSize) 0

/-- `mask_leave`. -/
def maskLeave (mask : Words) (val : Nat) : Words :=
  let v := mask (val >>> 5) &&& Words.bitMask val
  Words.set (fun i => if i < maskSize then 0#32 else mask i) (val >>> 5) v

/-- `mask_refine_set`. -/
def maskRefineSet (mask : Words) (val : Nat) : Words × Int :=
  if maskEmpty mask = true then (mask, -2)
  else
    let left := maskLeave mask val
    if maskEmpty left = true then (left, -22)
    else (left, if maskSingle mask = true then 0 else 1)

/-- `mask_reset_range`, the bits up to `last`. -/
def maskResetRange (mask : Words) (first last : Nat) : Words :=
  mask.clearFrom first (last + 1 - first)

/-- `ffs`, of the C library: the number of the least bit that is set, counted from 1. -/
def ffs (word : BitVec 32) : Nat :=
  match Words.least word with
  | some k => k + 1
  | none => 0

/-- A step of `ld2`: whether the bits from `shift` on are not zero. -/
def ld2Step (shift : Nat) (vr : Nat × Nat) : Nat × Nat :=
  if 2 ^ shift ≤ vr.1 then (vr.1 >>> shift, vr.2 + shift) else vr

/-- `ld2`. -/
def ld2 (v : Nat) : Nat :=
  let vr := ld2Step 2 (ld2Step 4 (ld2Step 8 (ld2Step 16 (v, 0))))
  if 2 ≤ vr.1 then vr.2 + 1 else vr.2

/-- `mask_min`. -/
def maskMin (mask : Words) : Nat :=
  match (List.range maskSize).find? fun i => mask i != 0#32 with
  | some i => ffs (mask i) - 1 + (i <<< 5)
  | none => 0

/-- The loop of `mask_max`, from the word before `i` down. -/
def maxLoop (mask : Words) : Nat → Nat
  | 0 => 0
  | i + 1 => if mask i ≠ 0#32 then ld2 (mask i).toNat + (i <<< 5) else maxLoop mask i

/-- `mask_max`. -/
def maskMax (mask : Words) : Nat := maxLoop mask maskSize

/-- `mask_refine_min`. -/
def maskRefineMin (mask : Words) (val : Nat) : Words × Int :=
  if maskEmpty mask = true then (mask, -2)
  else if val ≤ maskMin mask then (mask, 0)
  else
    let left := maskResetRange mask 0 (val - 1)
    if maskEmpty left = true then (left, -22) else (left, 1)

/-- `mask_refine_max`. -/
def maskRefineMax (mask : Words) (val : Nat) : Words × Int :=
  if maskEmpty mask = true then (mask, -2)
  else if maskMax mask ≤ val then (mask, 0)
  else
    let left := maskResetRange mask (val + 1) sndrvMaskMax
    if maskEmpty left = true then (left, -22) else (left, 1)

/-! ## The numbers of a mask -/

section

variable {mask : Words}

theorem maskEmpty_iff : maskEmpty mask = true ↔ ∀ n, n < 256 → mask.bit n = false := by
  simp only [maskEmpty, List.all_eq_true, List.mem_range, beq_iff_eq, Words.word_eq_zero_iff]
  constructor
  · intro h n hn
    exact h (n / 32) (by rw [maskSize]; omega) n rfl
  · intro h i hi n hn
    rw [maskSize] at hi
    exact h n (by omega)

/-- A mask that is not empty has a number. -/
theorem exists_bit (h : ¬maskEmpty mask = true) : ∃ n, n < 256 ∧ mask.bit n = true := by
  rw [maskEmpty_iff] at h
  obtain ⟨n, hn⟩ := Classical.not_forall.mp h
  obtain ⟨hlt, hbit⟩ := Classical.not_imp.mp hn
  exact ⟨n, hlt, by simpa using hbit⟩

theorem ffs_spec {word : BitVec 32} (h : word ≠ 0#32) : ffs word - 1 < 32 ∧
    word.getLsbD (ffs word - 1) = true ∧ ∀ j, j < ffs word - 1 → word.getLsbD j = false := by
  obtain ⟨k, hk⟩ := Words.exists_least h
  unfold ffs
  rw [hk]
  exact Words.least_eq_some_iff.mp hk

/-- A step of `ld2` keeps the logarithm. -/
theorem ld2Step_log2 (shift : Nat) {vr : Nat × Nat} (hv : vr.1 ≠ 0) (hlt : vr.1 < 2 ^ (2 * shift)) :
    (ld2Step shift vr).1 ≠ 0 ∧ (ld2Step shift vr).1 < 2 ^ shift ∧
      (ld2Step shift vr).1.log2 + (ld2Step shift vr).2 = vr.1.log2 + vr.2 := by
  unfold ld2Step
  by_cases hle : 2 ^ shift ≤ vr.1
  · rw [if_pos hle, Nat.shiftRight_eq_div_pow]
    have hpow : 2 ^ (2 * shift) = 2 ^ shift * 2 ^ shift := by
      rw [← Nat.pow_add]
      exact congrArg (2 ^ ·) (by omega)
    have hpos : vr.1 / 2 ^ shift ≠ 0 := by
      have := Nat.div_pos hle (Nat.two_pow_pos shift)
      omega
    refine ⟨hpos, ?_, ?_⟩
    · rw [hpow] at hlt
      exact Nat.div_lt_of_lt_mul hlt
    · -- the quotient loses `shift` bits
      have hlog : vr.1.log2 = (vr.1 / 2 ^ shift).log2 + shift := by
        rw [Nat.log2_eq_iff hv]
        obtain ⟨hlow, hhigh⟩ := (Nat.log2_eq_iff hpos).mp rfl
        constructor
        · rw [Nat.pow_add]
          exact Nat.le_trans (Nat.mul_le_mul_right _ hlow) (Nat.div_mul_le_self vr.1 _)
        · rw [Nat.add_right_comm, Nat.pow_add]
          exact (Nat.div_lt_iff_lt_mul (Nat.two_pow_pos shift)).mp hhigh
      dsimp only
      omega
  · rw [if_neg hle]
    exact ⟨hv, Nat.lt_of_not_le hle, rfl⟩

theorem ld2_eq {v : Nat} (hv : v ≠ 0) (hlt : v < 2 ^ 32) : ld2 v = v.log2 := by
  obtain ⟨hv1, hlt1, hlog1⟩ := @ld2Step_log2 16 (v, 0) hv hlt
  obtain ⟨hv2, hlt2, hlog2⟩ := ld2Step_log2 8 hv1 hlt1
  obtain ⟨hv3, hlt3, hlog3⟩ := ld2Step_log2 4 hv2 hlt2
  obtain ⟨hv4, hlt4, hlog4⟩ := ld2Step_log2 2 hv3 hlt3
  unfold ld2
  dsimp only at hlog1 ⊢
  generalize ld2Step 2 (ld2Step 4 (ld2Step 8 (ld2Step 16 (v, 0)))) = vr at hv4 hlt4 hlog4 ⊢
  -- two bits are left
  have hlast : vr.1.log2 = if 2 ≤ vr.1 then 1 else 0 := by
    have hlt : vr.1 < 4 := hlt4
    obtain h | h | h : vr.1 = 1 ∨ vr.1 = 2 ∨ vr.1 = 3 := by omega
    all_goals rw [h]; decide
  by_cases h : 2 ≤ vr.1
  · rw [if_pos h] at hlast ⊢
    omega
  · rw [if_neg h] at hlast ⊢
    omega

/-- `mask_min` is the least number. -/
theorem maskMin_spec (h : ¬maskEmpty mask = true) : maskMin mask < 256 ∧
    mask.bit (maskMin mask) = true ∧ ∀ n, n < maskMin mask → mask.bit n = false := by
  unfold maskMin
  cases hfind : (List.range maskSize).find? fun i => mask i != 0#32 with
  | none =>
      refine absurd ?_ h
      rw [maskEmpty, List.all_eq_true]
      intro i hi
      simpa using List.find?_eq_none.mp hfind i hi
  | some i =>
      obtain ⟨hword, hi, hbefore⟩ := List.find?_range_eq_some.mp hfind
      have hlt : i < 8 := List.mem_range.mp hi
      obtain ⟨hk, hset, hleast⟩ := ffs_spec (bne_iff_ne.mp hword)
      have hshift : i <<< 5 = 32 * i := by
        rw [Nat.shiftLeft_eq, Nat.mul_comm]
      dsimp only
      rw [hshift, Nat.add_comm]
      refine ⟨by omega, by rw [Words.bit_word mask i hk]; exact hset, fun n hn => ?_⟩
      by_cases hdiv : n / 32 = i
      · rw [Words.bit, hdiv]
        exact hleast _ (by omega)
      · have hzero : mask (n / 32) = 0#32 := by
          simpa using hbefore (n / 32) (by omega)
        exact (Words.word_eq_zero_iff mask (n / 32)).mp hzero n rfl

theorem maxLoop_spec : ∀ i, (∃ n, n < 32 * i ∧ mask.bit n = true) → maxLoop mask i < 32 * i ∧
    mask.bit (maxLoop mask i) = true ∧
    ∀ n, n < 32 * i → maxLoop mask i < n → mask.bit n = false
  | 0 => by
      rintro ⟨n, hn, -⟩
      omega
  | i + 1 => by
      rintro ⟨n, hn, hbit⟩
      unfold maxLoop
      by_cases hword : mask i ≠ 0#32
      · obtain ⟨hset, hlt, hafter⟩ := Words.getLsbD_log2 hword
        have hne : (mask i).toNat ≠ 0 := fun hz => hword (BitVec.eq_of_toNat_eq hz)
        have hshift : i <<< 5 = 32 * i := by
          rw [Nat.shiftLeft_eq, Nat.mul_comm]
        rw [if_pos hword, ld2_eq hne (mask i).isLt, hshift, Nat.add_comm]
        refine ⟨by omega, by rw [Words.bit_word mask i hlt]; exact hset, fun k hk hlast => ?_⟩
        have hdiv : k / 32 = i := by omega
        rw [Words.bit, hdiv]
        exact hafter _ (by omega)
      · have hzero := (Words.word_eq_zero_iff mask i).mp (Decidable.not_not.mp hword)
        rw [if_neg hword]
        -- the number is in a word before
        have hbefore : n / 32 ≠ i := fun hdiv => by
          rw [hzero n hdiv] at hbit
          cases hbit
        obtain ⟨hlt, hset, hafter⟩ := maxLoop_spec i ⟨n, by omega, hbit⟩
        refine ⟨by omega, hset, fun k hk hlast => ?_⟩
        by_cases hdiv : k / 32 = i
        · exact hzero k hdiv
        · exact hafter k (by omega) hlast

/-- `mask_max` is the greatest number. -/
theorem maskMax_spec (h : ¬maskEmpty mask = true) : maskMax mask < 256 ∧
    mask.bit (maskMax mask) = true ∧ ∀ n, n < 256 → maskMax mask < n → mask.bit n = false :=
  maxLoop_spec maskSize (exists_bit h)

/-! ## Refining -/

/-- A mask with the numbers that are left, the bits behind it being as they were. -/
structure Leaves (mask left : Words) (wanted : Nat → Prop) : Prop where
  inside : ∀ n, n < 256 → (left.bit n = true ↔ mask.bit n = true ∧ wanted n)
  outside : ∀ n, 256 ≤ n → left.bit n = mask.bit n

/-- There is a number of the mask that is not wanted. -/
def Drops (mask : Words) (wanted : Nat → Prop) : Prop :=
  ∃ n, n < 256 ∧ mask.bit n = true ∧ ¬wanted n

/-- A mask is left as it is where nothing is dropped. -/
theorem leaves_of_keeps {wanted : Nat → Prop} (h : ¬Drops mask wanted) :
    Leaves mask mask wanted := by
  refine ⟨fun n hn => ⟨fun hbit => ⟨hbit, ?_⟩, And.left⟩, fun n _ => rfl⟩
  exact Classical.byContradiction fun hnot => h ⟨n, hn, hbit, hnot⟩

/-- Nothing is left of a mask that is empty. -/
theorem leaves_of_empty (h : maskEmpty mask = true) (wanted : Nat → Prop) :
    Leaves mask mask wanted := by
  refine leaves_of_keeps ?_
  rintro ⟨n, hn, hbit, -⟩
  rw [maskEmpty_iff.mp h n hn] at hbit
  cases hbit

theorem bit_maskLeave (val n : Nat) : (maskLeave mask val).bit n =
    if n / 32 = val / 32 then mask.bit n && decide (n = val)
    else if n < 256 then false else mask.bit n := by
  unfold maskLeave
  dsimp only
  rw [Words.bit_set, Words.ofs_eq]
  by_cases h : n / 32 = val / 32
  · have heq : (n % 32 = val % 32) ↔ n = val := by omega
    rw [if_pos h, if_pos h, BitVec.getLsbD_and, Words.getLsbD_bitMask,
      decide_eq_decide.mpr heq, Words.bit, h]
  · rw [if_neg h, if_neg h, Words.bit]
    have hword : (n / 32 < maskSize) ↔ n < 256 := by
      rw [maskSize]
      omega
    by_cases hn : n < 256
    · rw [if_pos (hword.mpr hn), if_pos hn, BitVec.getLsbD_zero]
    · rw [if_neg (fun hlt => hn (hword.mp hlt)), if_neg hn]
      rfl

theorem maskRefineSet_fst (h : ¬maskEmpty mask = true) (val : Nat) :
    (maskRefineSet mask val).1 = maskLeave mask val := by
  unfold maskRefineSet
  rw [if_neg h]
  dsimp only
  by_cases hleft : maskEmpty (maskLeave mask val) = true
  · rw [if_pos hleft]
  · rw [if_neg hleft]

/-- A number from 256 on is looked for behind the mask, and its word is left with that bit. -/
theorem maskRefineSet_leaves_iff {val : Nat} :
    Leaves mask (maskRefineSet mask val).1 (· = val) ↔
      maskEmpty mask = true ∨ val < 256 ∨
        ∀ n, n / 32 = val / 32 → n ≠ val → mask.bit n = false := by
  by_cases hempty : maskEmpty mask = true
  · refine iff_of_true ?_ (Or.inl hempty)
    have hsame : (maskRefineSet mask val).1 = mask := by
      unfold maskRefineSet
      rw [if_pos hempty]
    rw [hsame]
    exact leaves_of_empty hempty _
  rw [maskRefineSet_fst hempty, or_iff_right hempty]
  -- the numbers of the mask are right in any case
  have hinside : ∀ n, n < 256 →
      ((maskLeave mask val).bit n = true ↔ mask.bit n = true ∧ n = val) := by
    intro n hn
    rw [bit_maskLeave]
    by_cases h : n / 32 = val / 32
    · rw [if_pos h, Bool.and_eq_true, decide_eq_true_iff]
    · rw [if_neg h, if_pos hn]
      exact iff_of_false Bool.false_ne_true fun hval => h (by rw [hval.2])
  constructor
  · intro h
    by_cases hval : val < 256
    · exact Or.inl hval
    · refine Or.inr fun n hword hne => ?_
      rw [← h.outside n (by omega), bit_maskLeave, if_pos hword, decide_eq_false hne,
        Bool.and_false]
  · rintro h
    refine ⟨hinside, fun n hn => ?_⟩
    rw [bit_maskLeave]
    by_cases hword : n / 32 = val / 32
    · rw [if_pos hword]
      obtain hval | hclear := h
      · omega
      by_cases heq : n = val
      · rw [decide_eq_true heq, Bool.and_true]
      · rw [hclear n hword heq, Bool.false_and]
    · rw [if_neg hword, if_neg (by omega)]

theorem bit_maskResetRange (first last n : Nat) : (maskResetRange mask first last).bit n =
    (mask.bit n && decide (¬(first ≤ n ∧ n ≤ last))) := by
  rw [maskResetRange, Words.bit_clearFrom]
  exact congrArg (mask.bit n && ·) (decide_eq_decide.mpr (by omega))

/-- A range that is cleared is to hold no number that is wanted, and no bit behind the mask. -/
theorem maskResetRange_leaves_iff {wanted : Nat → Prop} {first last : Nat}
    (h : ∀ n, n < 256 → (wanted n ↔ ¬(first ≤ n ∧ n ≤ last))) :
    Leaves mask (maskResetRange mask first last) wanted ↔
      ∀ n, 256 ≤ n → first ≤ n → n ≤ last → mask.bit n = false := by
  constructor
  · intro hleaves n hn hfirst hlast
    rw [← hleaves.outside n hn, bit_maskResetRange,
      decide_eq_false (fun hnot => hnot ⟨hfirst, hlast⟩), Bool.and_false]
  · intro hclear
    refine ⟨fun n hn => ?_, fun n hn => ?_⟩
    · rw [bit_maskResetRange, Bool.and_eq_true, decide_eq_true_iff, h n hn]
    · rw [bit_maskResetRange]
      by_cases hrange : first ≤ n ∧ n ≤ last
      · rw [hclear n hn hrange.1 hrange.2, Bool.false_and]
      · rw [decide_eq_true hrange, Bool.and_true]

/-- What a refinement by a bound comes to. -/
structure Refined (mask : Words) (wanted : Nat → Prop) (first last : Nat)
    (r : Words × Int) : Prop where
  kept : ¬Drops mask wanted → r.1 = mask
  dropped : Drops mask wanted → r.1 = maskResetRange mask first last
  failed : r.2 < 0 ↔ ∀ n, n < 256 → mask.bit n = true → ¬wanted n

/-- The refinements by a bound: the mask is as wanted, or the range of the others is cleared. -/
theorem refined_of_keeps {wanted : Nat → Prop} {first last : Nat} {Kept : Prop} [Decidable Kept]
    (hempty : ¬maskEmpty mask = true) (hkept : Kept ↔ ¬Drops mask wanted)
    (hrange : ∀ n, n < 256 → (wanted n ↔ ¬(first ≤ n ∧ n ≤ last))) :
    Refined mask wanted first last
      (if Kept then (mask, 0)
        else if maskEmpty (maskResetRange mask first last) = true then
          (maskResetRange mask first last, -22)
        else (maskResetRange mask first last, 1)) := by
  by_cases h : Kept
  · rw [if_pos h]
    refine ⟨fun _ => rfl, fun hdrops => absurd hdrops (hkept.mp h), ?_⟩
    refine iff_of_false (show ¬(0 : Int) < 0 by decide) fun hall => ?_
    obtain ⟨n, hn, hbit⟩ := exists_bit hempty
    exact hkept.mp h ⟨n, hn, hbit, hall n hn hbit⟩
  · rw [if_neg h]
    have hleft : maskEmpty (maskResetRange mask first last) = true ↔
        ∀ n, n < 256 → mask.bit n = true → ¬wanted n := by
      rw [maskEmpty_iff]
      refine forall_congr' fun n => forall_congr' fun hn => ?_
      rw [bit_maskResetRange, hrange n hn, Bool.and_eq_false_imp, decide_eq_false_iff_not]
    by_cases hnone : maskEmpty (maskResetRange mask first last) = true
    · rw [if_pos hnone]
      exact ⟨fun hkeeps => absurd (hkept.mpr hkeeps) h, fun _ => rfl,
        iff_of_true (show (-22 : Int) < 0 by decide) (hleft.mp hnone)⟩
    · rw [if_neg hnone]
      exact ⟨fun hkeeps => absurd (hkept.mpr hkeeps) h, fun _ => rfl,
        iff_of_false (show ¬(1 : Int) < 0 by decide) fun hall => hnone (hleft.mpr hall)⟩

theorem maskRefineMin_refined (hempty : ¬maskEmpty mask = true) (val : Nat) :
    Refined mask (val ≤ ·) 0 (val - 1) (maskRefineMin mask val) := by
  obtain ⟨hlt, hmin, hleast⟩ := maskMin_spec hempty
  unfold maskRefineMin
  rw [if_neg hempty]
  by_cases hval : val = 0
  · -- every number is wanted, and nothing is cleared
    subst hval
    rw [if_pos (Nat.zero_le _)]
    refine ⟨fun _ => rfl, ?_, iff_of_false (show ¬(0 : Int) < 0 by decide) ?_⟩
    · rintro ⟨n, -, -, hnot⟩
      exact absurd (Nat.zero_le n) hnot
    · exact fun hall => hall _ hlt hmin (Nat.zero_le _)
  refine refined_of_keeps hempty ⟨?_, fun hkeeps => ?_⟩ fun n _ => by omega
  · rintro hle ⟨n, -, hbit, hnot⟩
    rw [hleast n (by omega)] at hbit
    cases hbit
  · exact Decidable.not_not.mp fun hnot => hkeeps ⟨_, hlt, hmin, hnot⟩

theorem maskRefineMax_refined (hempty : ¬maskEmpty mask = true) (val : Nat) :
    Refined mask (· ≤ val) (val + 1) sndrvMaskMax (maskRefineMax mask val) := by
  obtain ⟨hlt, hmax, hlast⟩ := maskMax_spec hempty
  unfold maskRefineMax
  rw [if_neg hempty]
  refine refined_of_keeps hempty ⟨?_, fun hkeeps => ?_⟩ fun n hn => ?_
  · rintro hle ⟨n, hn, hbit, hnot⟩
    rw [hlast n hn (by omega)] at hbit
    cases hbit
  · exact Decidable.not_not.mp fun hnot => hkeeps ⟨_, hlt, hmax, hnot⟩
  · rw [sndrvMaskMax]
    omega

/-- A refinement sets no bit. -/
theorem Refined.bit_of_bit {wanted : Nat → Prop} {first last : Nat} {r : Words × Int}
    (h : Refined mask wanted first last r) {n : Nat} (hbit : r.1.bit n = true) :
    mask.bit n = true := by
  by_cases hdrops : Drops mask wanted
  · rw [h.dropped hdrops, bit_maskResetRange, Bool.and_eq_true] at hbit
    exact hbit.1
  · rwa [h.kept hdrops] at hbit

/-- The numbers of the mask are right after a refinement. -/
theorem Refined.inside {wanted : Nat → Prop} {first last : Nat} {r : Words × Int}
    (h : Refined mask wanted first last r)
    (hrange : ∀ n, n < 256 → (wanted n ↔ ¬(first ≤ n ∧ n ≤ last))) :
    ∀ n, n < 256 → (r.1.bit n = true ↔ mask.bit n = true ∧ wanted n) := by
  intro n hn
  by_cases hdrops : Drops mask wanted
  · rw [h.dropped hdrops, bit_maskResetRange, Bool.and_eq_true, decide_eq_true_iff, hrange n hn]
  · rw [h.kept hdrops]
    exact (leaves_of_keeps hdrops).inside n hn

/-- The mask is right after a refinement unless bits behind it are cleared. -/
theorem Refined.leaves_iff {wanted : Nat → Prop} {first last : Nat} {r : Words × Int}
    (h : Refined mask wanted first last r)
    (hrange : ∀ n, n < 256 → (wanted n ↔ ¬(first ≤ n ∧ n ≤ last))) :
    Leaves mask r.1 wanted ↔ (Drops mask wanted →
      ∀ n, 256 ≤ n → first ≤ n → n ≤ last → mask.bit n = false) := by
  by_cases hdrops : Drops mask wanted
  · rw [h.dropped hdrops, maskResetRange_leaves_iff hrange]
    exact ⟨fun hclear _ => hclear, fun hclear => hclear hdrops⟩
  · rw [h.kept hdrops]
    exact iff_of_true (leaves_of_keeps hdrops) fun hnot => absurd hnot hdrops

end

end Blts.Alsa.Refine
