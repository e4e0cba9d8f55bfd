import Mathlib.Algebra.Group.Nat.Defs
import Mathlib.Data.List.Basic

/-!
# Numbers as bytes, least byte first

A number of `w` bytes is stored with its least byte first.  Storing keeps the number modulo
`256 ^ w`, and loading is the inverse of storing on all lists of `w` bytes.
-/

namespace Blts.Lib

/-- The number that the bytes stand for. -/
def leValue : List UInt8 → Nat
  | [] => 0
  | b :: bs => b.toNat + 256 * leValue bs

/-- The `w` least bytes of a number. -/
def leBytes : Nat → Nat → List UInt8
  | 0, _ => []
  | w + 1, n => UInt8.ofNat n :: leBytes w (n / 256)

theorem ofNat_eq_of_mod {x y : Nat} (h : x % 256 = y % 256) : UInt8.ofNat x = UInt8.ofNat y := by
  apply UInt8.toNat_inj.mp
  rwa [UInt8.toNat_ofNat', UInt8.toNat_ofNat']

@[simp] theorem length_leBytes (w n : Nat) : (leBytes w n).length = w := by
  induction w generalizing n with
  | zero => rfl
  | succ w ih => rw [leBytes, List.length_cons, ih]

theorem leValue_leBytes (w n : Nat) : leValue (leBytes w n) = n % 256 ^ w := by
  induction w generalizing n with
  | zero =>
      rw [Nat.pow_zero, Nat.mod_one]
      rfl
  | succ w ih =>
      have hbyte : (UInt8.ofNat n).toNat = n % 256 := UInt8.toNat_ofNat'
      rw [leBytes, leValue, ih, hbyte, Nat.pow_succ', Nat.mod_mul]

theorem leBytes_leValue (bs : List UInt8) : leBytes bs.length (leValue bs) = bs := by
  induction bs with
  | nil => rfl
  | cons b bs ih =>
      have hlow : (b.toNat + 256 * leValue bs) % 256 = b.toNat := by
        have hb : b.toNat < 256 := UInt8.toNat_lt b
        omega
      have hhigh : (b.toNat + 256 * leValue bs) / 256 = leValue bs := by
        have hb : b.toNat < 256 := UInt8.toNat_lt b
        omega
      have hbyte : UInt8.ofNat (b.toNat + 256 * leValue bs) = b := by
        apply UInt8.toNat_inj.mp
        rw [UInt8.toNat_ofNat']
        exact hlow
      rw [List.length_cons, leBytes, leValue, hhigh, ih, hbyte]

theorem leValue_lt (bs : List UInt8) : leValue bs < 256 ^ bs.length := by
  have hmod := leValue_leBytes bs.length (leValue bs)
  rw [leBytes_leValue] at hmod
  rw [hmod]
  exact Nat.mod_lt _ (Nat.pow_pos (by decide))

end Blts.Lib
