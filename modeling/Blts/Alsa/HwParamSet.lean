import Blts.Alsa.HwParams

/-!
# Setting a hardware parameter

The value after the last number is zero for the code, and a value that is no number of a mask
is looked for behind it.
-/

namespace Blts.Alsa.Refine

open Blts.Lib

/-! ## Masks -/

section

variable {mask : Words}

theorem bit_maskNone (n : Nat) :
    (maskNone mask).bit n = if n < 256 then false else mask.bit n := by
  rw [Words.bit, maskNone]
  have hword : (n / 32 < maskSize) ↔ n < 256 := by
    rw [maskSize]
    omega
  by_cases hn : n < 256
  · rw [if_pos (hword.mpr hn), if_pos hn, BitVec.getLsbD_zero]
  · rw [if_neg (fun hlt => hn (hword.mp hlt)), if_neg hn, Words.bit]

theorem maskNone_leaves_iff {wanted : Nat → Prop} : Leaves mask (maskNone mask) wanted ↔
    ∀ n, n < 256 → mask.bit n = true → ¬wanted n := by
  constructor
  · intro h n hn hbit hwanted
    have hset := (h.inside n hn).mpr ⟨hbit, hwanted⟩
    rw [bit_maskNone, if_pos hn] at hset
    cases hset
  · intro h
    refine ⟨fun n hn => ?_, fun n hn => ?_⟩
    · rw [bit_maskNone, if_pos hn]
      exact iff_of_false Bool.false_ne_true fun hboth => h n hn hboth.1 hboth.2
    · rw [bit_maskNone, if_neg (by omega)]

theorem leaves_congr {left : Words} {wanted wanted' : Nat → Prop}
    (h : ∀ n, n < 256 → (wanted n ↔ wanted' n)) :
    Leaves mask left wanted ↔ Leaves mask left wanted' := by
  constructor
  · exact fun hleft => ⟨fun n hn => by rw [← h n hn]; exact hleft.inside n hn, hleft.outside⟩
  · exact fun hleft => ⟨fun n hn => by rw [h n hn]; exact hleft.inside n hn, hleft.outside⟩

/-- What the code looks for. -/
def picked (val : UInt32) (dir : Int) : UInt32 :=
  if 0 < dir then val + 1 else if dir < 0 then val - 1 else val

theorem sign_eq (dir : Int) : dir.sign = if 0 < dir then 1 else if dir < 0 then -1 else 0 := by
  by_cases hpos : 0 < dir
  · rw [if_pos hpos, Int.sign_eq_one_of_pos hpos]
  rw [if_neg hpos]
  by_cases hneg : dir < 0
  · rw [if_pos hneg, Int.sign_eq_neg_one_of_neg hneg]
  · have hzero : dir = 0 := by omega
    rw [if_neg hneg, hzero, Int.sign_zero]

/-- That is the number asked for, but before zero and after the last number. -/
theorem picks_iff {val : UInt32} {dir : Int} (hfirst : ¬(val = 0 ∧ dir < 0))
    (hlast : ¬(0 < dir ∧ val.toNat = 4294967295)) (n : Nat) :
    Picks val dir n ↔ n = (picked val dir).toNat := by
  rw [Picks, sign_eq, picked]
  by_cases hpos : 0 < dir
  · have hsucc := toNat_succ (a := val) fun h => hlast ⟨hpos, h⟩
    rw [if_pos hpos, if_pos hpos, hsucc]
    omega
  rw [if_neg hpos, if_neg hpos]
  by_cases hneg : dir < 0
  · have hne : val.toNat ≠ 0 := fun h => hfirst ⟨UInt32.toNat_inj.mp h, hneg⟩
    rw [if_pos hneg, if_pos hneg, toNat_pred hne]
    omega
  · rw [if_neg hneg, if_neg hneg]
    omega

/-- The values that are right for a mask. -/
def SetMaskFits (val : UInt32) (dir : Int) (mask : Words) : Prop :=
  maskEmpty mask = true ∨ (val = 0 ∧ dir < 0) ∨
    if 0 < dir ∧ val.toNat = 4294967295 then mask.bit 0 = false
    else (picked val dir).toNat < 256 ∨
      ∀ n, n / 32 = (picked val dir).toNat / 32 → n ≠ (picked val dir).toNat → mask.bit n = false

theorem setMask_leaves_iff {val : UInt32} {dir : Int} :
    Leaves mask (setMask val dir mask).1 (Picks val dir) ↔ SetMaskFits val dir mask := by
  unfold SetMaskFits
  by_cases hfirst : val = 0 ∧ dir < 0
  · rw [or_iff_right_of_imp fun _ => Or.inl hfirst]
    refine iff_of_true ?_ (Or.inl hfirst)
    have hresult : setMask val dir mask = (maskNone mask, -22) := if_pos hfirst
    rw [hresult, maskNone_leaves_iff]
    intro n _ _ hpicks
    rw [Picks, hfirst.1, Int.sign_eq_neg_one_of_neg hfirst.2] at hpicks
    have hzero : (0 : UInt32).toNat = 0 := rfl
    omega
  have hresult : setMask val dir mask = maskRefineSet mask (picked val dir).toNat := if_neg hfirst
  rw [hresult, or_iff_right hfirst]
  by_cases hlast : 0 < dir ∧ val.toNat = 4294967295
  · -- zero is left, which is not asked for
    have hzero : (picked val dir).toNat = 0 := by
      have hval : val = 4294967295 := UInt32.toNat_inj.mp hlast.2
      rw [picked, if_pos hlast.1, hval]
      rfl
    rw [if_pos hlast, hzero]
    have hnone : ∀ n, n < 256 → ¬Picks val dir n := by
      intro n hn hpicks
      rw [Picks, Int.sign_eq_one_of_pos hlast.1, hlast.2] at hpicks
      omega
    have hleaves : Leaves mask (maskRefineSet mask 0).1 (· = 0) :=
      maskRefineSet_leaves_iff.mpr (Or.inr (Or.inl (by omega)))
    constructor
    · intro h
      refine Or.inr (Bool.eq_false_iff.mpr fun hbit => ?_)
      have hset := (hleaves.inside 0 (by omega)).mpr ⟨hbit, rfl⟩
      exact hnone 0 (by omega) ((h.inside 0 (by omega)).mp hset).2
    · intro h
      have hbit : mask.bit 0 = false :=
        h.elim (fun hempty => maskEmpty_iff.mp hempty 0 (by omega)) id
      refine ⟨fun n hn => ?_, hleaves.outside⟩
      rw [hleaves.inside n hn]
      refine iff_of_false ?_ fun hboth => hnone n hn hboth.2
      rintro ⟨hset, rfl⟩
      rw [hbit] at hset
      cases hset
  · rw [if_neg hlast, leaves_congr fun n _ => picks_iff hfirst hlast n, maskRefineSet_leaves_iff]

end

/-! ## Intervals -/

section

variable {i : SndInterval}

/-- An interval that is not marked as empty has numbers. -/
def SndInterval.WellFormed (i : SndInterval) : Prop := i.empty = true ∨ i.numbers.Nonempty

theorem numbers_of_empty (h : i.empty = true) : i.numbers = ∅ := by
  refine Set.eq_empty_iff_forall_notMem.mpr fun x hx => ?_
  have hempty := hx.1
  rw [h] at hempty
  cases hempty

/-- The values that are right for an interval. -/
def SetIntervalFits (val : UInt32) (dir : Int) (i : SndInterval) : Prop :=
  i.empty = true ∨ ¬(0 < dir ∧ val.toNat = 4294967295 ∧ i.integer = true)

theorem numbers_single (val : UInt32) :
    (⟨val, val, false, false, true, false⟩ : SndInterval).numbers =
      { x : ℚ | x = val.toNat } := by
  ext x
  constructor
  · rintro ⟨-, habove, hbelow, -⟩
    exact le_antisymm hbelow habove
  · rintro rfl
    exact ⟨rfl, le_refl _, le_refl _, fun _ => ⟨val.toNat, by push_cast; rfl⟩⟩

theorem numbers_between {a b : UInt32} (h : b.toNat = a.toNat + 1) :
    (⟨a, b, true, true, false, false⟩ : SndInterval).numbers.Nonempty := by
  have hcast : (b.toNat : ℚ) = a.toNat + 1 := by exact_mod_cast h
  refine ⟨a.toNat + 1 / 2, rfl, ?_, ?_, fun h' => by cases h'⟩
  · exact show (a.toNat : ℚ) < _ by linarith
  · exact show _ < (b.toNat : ℚ) by linarith

theorem mem_between {a b : UInt32} {x : ℚ} :
    x ∈ (⟨a, b, true, true, false, false⟩ : SndInterval).numbers ↔
      (a.toNat : ℚ) < x ∧ x < b.toNat :=
  ⟨fun h => ⟨h.2.1, h.2.2.1⟩, fun h => ⟨rfl, h.1, h.2, fun h' => by cases h'⟩⟩

/-- What is after the last number is between it and zero for the code: all integers, if the
interval is one of integers. -/
theorem intervalRefine_wraps (hi : i.numbers.Nonempty) :
    (intervalRefine i ⟨4294967295, 0, true, true, false, false⟩).1.numbers = ∅ ↔
      i.integer = false := by
  have hempty : i.empty = false := hi.some_mem.1
  obtain ⟨min, max, openmin, openmax, integer, empty⟩ := i
  cases (show empty = false from hempty)
  have hmin := tightenMin_last (min_ne_last hi)
  have hopen : openmax = true → max.toNat ≠ 0 := max_ne_zero hi
  have hmax := tightenMax_zero (i := ⟨4294967295, max, true, openmax, integer, false⟩) hopen
  have hresult : intervalRefine ⟨min, max, openmin, openmax, integer, false⟩
      ⟨4294967295, 0, true, true, false, false⟩ =
        conclude (settle ⟨4294967295, 0, true, true, integer, false⟩) true := by
    unfold intervalRefine
    rw [if_neg Bool.false_ne_true]
    dsimp only
    rw [hmin]
    dsimp only
    rw [hmax]
    cases integer <;> rfl
  rw [hresult]
  cases integer with
  | true =>
      refine iff_of_false (fun hnone => ?_) fun h => by cases h
      have hzero : (0 : ℚ) ∈
          (⟨0, 4294967295, false, false, true, false⟩ : SndInterval).numbers := by
        refine ⟨rfl, ?_, ?_, fun _ => ⟨0, by norm_num⟩⟩
        · exact show ((0 : Nat) : ℚ) ≤ 0 by norm_num
        · exact show (0 : ℚ) ≤ (4294967295 : Nat) by norm_num
      exact Set.eq_empty_iff_forall_notMem.mp hnone 0 hzero
  | false =>
      refine iff_of_true ?_ rfl
      exact numbers_of_empty rfl

theorem setInterval_numbers_iff {val : UInt32} {dir : Int} (hwell : i.WellFormed) :
    (setInterval val dir i).1.numbers = i.numbers ∩ { x | Around val dir x } ↔
      SetIntervalFits val dir i := by
  unfold SetIntervalFits setInterval
  by_cases hfirst : val = 0 ∧ dir < 0
  · -- nothing is before zero
    rw [if_pos hfirst]
    refine iff_of_true ?_ (Or.inr fun h => by omega)
    rw [numbers_of_empty rfl, eq_comm, Set.eq_empty_iff_forall_notMem]
    rintro x ⟨hx, haround⟩
    rw [Set.mem_ofPred_eq, Around, if_neg (by omega), if_pos hfirst.2, hfirst.1] at haround
    have hneg : x < ((0 : UInt32).toNat : ℚ) := haround.2
    have hzero : ((0 : UInt32).toNat : ℚ) = 0 := by norm_num
    exact absurd (numbers_nonneg hx) (by rw [← hzero]; exact not_le.mpr hneg)
  rw [if_neg hfirst]
  obtain hempty | hi := hwell
  · -- an empty interval stays so
    refine iff_of_true ?_ (Or.inl hempty)
    have hsame : ∀ v, intervalRefine i v = (i, -2) := fun v => if_pos hempty
    rw [intervalRefineSet, hsame, hsame, hsame, ite_self, ite_self, numbers_of_empty hempty,
      Set.empty_inter]
  rw [or_iff_right (by rw [hi.some_mem.1]; exact Bool.false_ne_true)]
  by_cases hdir : dir = 0
  · rw [if_pos hdir]
    refine iff_of_true ?_ fun h => by omega
    have hset := numbers_single val
    have hv : (⟨val, val, false, false, true, false⟩ : SndInterval).numbers.Nonempty := by
      rw [hset]
      exact ⟨_, rfl⟩
    rw [intervalRefineSet, (intervalRefine_spec hi hv).1, hset]
    simp only [Around, if_pos hdir]
  rw [if_neg hdir]
  by_cases hneg : dir < 0
  · rw [if_pos hneg]
    refine iff_of_true ?_ fun h => by omega
    have hne : val.toNat ≠ 0 := fun h => hfirst ⟨UInt32.toNat_inj.mp h, hneg⟩
    have hpred := toNat_pred hne
    have hcast : (((val - 1).toNat : Nat) : ℚ) = val.toNat - 1 := by
      rw [hpred]
      push_cast [Nat.one_le_iff_ne_zero.mpr hne]
      rfl
    rw [(intervalRefine_spec hi (numbers_between (by omega))).1]
    ext x
    simp only [Set.mem_inter_iff, Set.mem_ofPred_eq, mem_between, Around, if_neg hdir, if_pos hneg,
      hcast]
  rw [if_neg hneg]
  have hpos : 0 < dir := by omega
  by_cases hlast : val.toNat = 4294967295
  · -- nothing is after the last number
    have hval : val = 4294967295 := UInt32.toNat_inj.mp hlast
    have hnone : i.numbers ∩ { x | Around val dir x } = ∅ := by
      refine Set.eq_empty_iff_forall_notMem.mpr ?_
      rintro x ⟨hx, haround⟩
      rw [Set.mem_ofPred_eq, Around, if_neg hdir, if_neg hneg, hlast] at haround
      have habove : (4294967295 : ℚ) < x := by exact_mod_cast haround.1
      exact absurd (numbers_le_last hx) (not_le.mpr habove)
    rw [hnone]
    have hiff := intervalRefine_wraps hi
    have hsucc : (4294967295 : UInt32) + 1 = 0 := by decide
    rw [hval, hsucc, hiff, ← hval]
    constructor
    · rintro hint ⟨-, -, hint'⟩
      rw [hint] at hint'
      cases hint'
    · exact fun h => Bool.eq_false_iff.mpr fun hint => h ⟨hpos, hlast, hint⟩
  · refine iff_of_true ?_ fun h => hlast h.2.1
    have hsucc := toNat_succ hlast
    rw [(intervalRefine_spec hi (numbers_between hsucc)).1]
    ext x
    simp only [Set.mem_inter_iff, Set.mem_ofPred_eq, mem_between, Around, if_neg hdir, if_neg hneg,
      hsucc, Nat.cast_add, Nat.cast_one]

end

end Blts.Alsa.Refine
