/-!
# Bits in words

The bits of an array of 32-bit words are numbered through, least bit first.  Operations on
words are known by what they do to the bits.
-/

namespace Blts.Lib

/-- Words of memory, counted from some place on. -/
abbrev Words := Nat → BitVec 32

namespace Words

/-- A bit by its number. -/
def bit (m : Words) (n : Nat) : Bool := (m (n / 32)).getLsbD (n % 32)

/-- The mask of a bit in its word. -/
def bitMask (n : Nat) : BitVec 32 := 1#32 <<< (n &&& 31)

/-- Replace a word. -/
def set (m : Words) (i : Nat) (word : BitVec 32) : Words := fun k => if k = i then word else m k

/-- Clear a bit. -/
def clear (m : Words) (n : Nat) : Words := m.set (n >>> 5) (m (n >>> 5) &&& ~~~bitMask n)

/-- Clear some bits from one on. -/
def clearFrom (m : Words) (n : Nat) : Nat → Words
  | 0 => m
  | count + 1 => clearFrom (m.clear n) (n + 1) count

theorem ofs_eq (n : Nat) : n >>> 5 = n / 32 := Nat.shiftRight_eq_div_pow n 5

theorem getLsbD_bitMask (n k : Nat) : (bitMask n).getLsbD k = decide (k = n % 32) := by
  have hmod : n &&& 31 = n % 32 := Nat.and_two_pow_sub_one_eq_mod n 5
  rw [bitMask, hmod, BitVec.shiftLeft_eq_mul_twoPow, BitVec.one_mul,
    BitVec.getLsbD_twoPow, decide_eq_true (Nat.mod_lt n (by decide)), Bool.true_and]
  exact decide_eq_decide.mpr eq_comm

theorem bit_word (m : Words) (i : Nat) {k : Nat} (hk : k < 32) :
    m.bit (32 * i + k) = (m i).getLsbD k := by
  have hdiv : (32 * i + k) / 32 = i := by omega
  have hmod : (32 * i + k) % 32 = k := by omega
  rw [bit, hdiv, hmod]

/-- The bits of four bytes put together. -/
theorem getLsbD_bytes (b₃ b₂ b₁ b₀ : BitVec 8) (k : Nat) :
    (b₃ ++ b₂ ++ b₁ ++ b₀ : BitVec 32).getLsbD k =
      if k < 8 then b₀.getLsbD k
      else if k < 16 then b₁.getLsbD (k - 8)
      else if k < 24 then b₂.getLsbD (k - 16)
      else b₃.getLsbD (k - 24) := by
  show (b₃ ++ b₂ ++ b₁ ++ b₀).getLsbD k = _
  rw [BitVec.getLsbD_append, BitVec.getLsbD_append, BitVec.getLsbD_append]
  by_cases h₁ : k < 8
  · simp [h₁]
  by_cases h₂ : k < 16
  · simp [h₁, h₂, show k - 8 < 8 by omega]
  by_cases h₃ : k < 24
  · simp [h₁, h₂, h₃, show ¬ k - 8 < 8 by omega, show k - 8 - 8 = k - 16 by omega,
      show k - 16 < 8 by omega]
  · simp [h₁, h₂, h₃, show ¬ k - 8 < 8 by omega, show ¬ k - 8 - 8 < 8 by omega,
      show k - 8 - 8 - 8 = k - 24 by omega]

theorem word_eq_zero_iff (m : Words) (i : Nat) :
    m i = 0#32 ↔ ∀ n, n / 32 = i → m.bit n = false := by
  constructor
  · rintro h n rfl
    rw [bit, h, BitVec.getLsbD_zero]
  · intro h
    refine BitVec.eq_of_getLsbD_eq fun k hk => ?_
    rw [← bit_word m i hk, BitVec.getLsbD_zero]
    exact h _ (by omega)

theorem bit_set (m : Words) (i : Nat) (word : BitVec 32) (n : Nat) :
    (m.set i word).bit n = if n / 32 = i then word.getLsbD (n % 32) else m.bit n := by
  unfold bit set
  by_cases h : n / 32 = i
  · rw [if_pos h, if_pos h]
  · rw [if_neg h, if_neg h]

theorem bit_clear (m : Words) (n k : Nat) :
    (m.clear n).bit k = (m.bit k && decide (k ≠ n)) := by
  rw [clear, bit_set, ofs_eq]
  by_cases h : k / 32 = n / 32
  · rw [if_pos h, BitVec.getLsbD_and, BitVec.getLsbD_not, getLsbD_bitMask,
      decide_eq_true (Nat.mod_lt k (by decide)), Bool.true_and, bit, h]
    have heq : (k % 32 = n % 32) ↔ k = n := by omega
    rw [decide_eq_decide.mpr heq, decide_not]
  · have hne : k ≠ n := fun heq => h (by rw [heq])
    rw [if_neg h, decide_eq_true hne, Bool.and_true]

theorem bit_clearFrom (count : Nat) : ∀ (m : Words) (n k : Nat),
    (m.clearFrom n count).bit k = (m.bit k && decide (¬(n ≤ k ∧ k < n + count))) := by
  induction count with
  | zero =>
      intro m n k
      rw [clearFrom, decide_eq_true (by omega), Bool.and_true]
  | succ count ih =>
      intro m n k
      rw [clearFrom, ih, bit_clear, Bool.and_assoc, ← Bool.decide_and]
      exact congrArg (m.bit k && ·) (decide_eq_decide.mpr (by omega))

/-! ## The least and the greatest bit of a word -/

/-- The least bit of a word that is set. -/
def least (x : BitVec 32) : Option Nat := (List.range 32).find? x.getLsbD

theorem least_eq_some_iff {x : BitVec 32} {k : Nat} :
    least x = some k ↔ k < 32 ∧ x.getLsbD k = true ∧ ∀ j, j < k → x.getLsbD j = false := by
  rw [least, List.find?_range_eq_some, List.mem_range]
  constructor
  · rintro ⟨hset, hlt, hleast⟩
    exact ⟨hlt, hset, fun j hj => by simpa using hleast j hj⟩
  · rintro ⟨hlt, hset, hleast⟩
    exact ⟨hset, hlt, fun j hj => by simpa using hleast j hj⟩

/-- A word that is not zero has a least bit. -/
theorem exists_least {x : BitVec 32} (hx : x ≠ 0#32) : ∃ k, least x = some k := by
  cases hleast : least x with
  | some k => exact ⟨k, rfl⟩
  | none =>
      refine absurd (BitVec.eq_of_getLsbD_eq fun k hk => ?_) hx
      have hnone := List.find?_eq_none.mp hleast k (List.mem_range.mpr hk)
      rw [BitVec.getLsbD_zero]
      exact Bool.eq_false_iff.mpr hnone

/-- The greatest bit of a word is its logarithm. -/
theorem getLsbD_log2 {x : BitVec 32} (hx : x ≠ 0#32) :
    x.getLsbD x.toNat.log2 = true ∧ x.toNat.log2 < 32 ∧
      ∀ j, x.toNat.log2 < j → x.getLsbD j = false := by
  have hne : x.toNat ≠ 0 := fun h => hx (BitVec.eq_of_toNat_eq h)
  refine ⟨Nat.testBit_log2 hne, ?_, fun j hj => ?_⟩
  · exact (Nat.log2_lt hne).mpr x.isLt
  · exact Nat.testBit_lt_two_pow ((Nat.log2_lt hne).mp hj)

end Words

end Blts.Lib
