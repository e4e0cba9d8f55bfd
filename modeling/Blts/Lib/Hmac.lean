import Mathlib.Data.List.Basic
import Mathlib.Logic.Function.Iterate
import Blts.Lib.Bytes

/-!
# Keyed hashing

HMAC (RFC 2104) over a hash function, and two functions that derive keys of any length from
it: the pseudo random function of IEEE 802.11i, and PBKDF2 (RFC 2898).  Both take the first
bytes of a sequence of blocks (`derive`), and are known by what is left to derive after a
block.

## Main results

* `derive_of_le`, `derive_of_ge` — the last block, and one that is taken whole.
-/

namespace Blts.Lib

/-! ## Bytes from blocks -/

section

variable (size : Nat) (block : Nat → List UInt8)

/-- The first bytes of a sequence of blocks. -/
def derive (length : Nat) : List UInt8 :=
  ((List.range ((length + size - 1) / size)).flatMap block).take length

variable {size block}

theorem derive_zero : derive size block 0 = [] := by
  rw [derive, List.take_zero]

/-- The last block. -/
theorem derive_of_le {length : Nat} (hpos : 0 < length) (h : length ≤ size) :
    derive size block length = (block 0).take length := by
  have hcount : (length + size - 1) / size = 1 := by
    rw [show length + size - 1 = length - 1 + size by omega,
      Nat.add_div_right _ (by omega), Nat.div_eq_of_lt (by omega)]
  rw [derive, hcount, List.range_one, List.flatMap_singleton]

/-- A block that is taken whole. -/
theorem derive_of_ge (hblock : (block 0).length = size) (hsize : 0 < size) {length : Nat}
    (h : size ≤ length) :
    derive size block length =
      block 0 ++ derive size (fun i => block (i + 1)) (length - size) := by
  have hcount : (length + size - 1) / size = (length - size + size - 1) / size + 1 := by
    rw [show length + size - 1 = length - size + size - 1 + size by omega,
      Nat.add_div_right _ hsize]
  rw [derive, hcount, List.range_succ_eq_map, List.flatMap_cons, List.flatMap_map,
    List.take_append, hblock, List.take_of_length_le (by omega), derive]

end

/-! ## HMAC -/

section

variable (hash : List UInt8 → List UInt8) (blockLength : Nat)

/-- A key as long as a block; a longer one is hashed first. -/
def hmacKey (key : List UInt8) : List UInt8 :=
  let key := if blockLength < key.length then hash key else key
  key ++ List.replicate (blockLength - key.length) 0

/-- **HMAC.** -/
def hmac (key message : List UInt8) : List UInt8 :=
  hash ((hmacKey hash blockLength key).map (· ^^^ 0x5c) ++
    hash ((hmacKey hash blockLength key).map (· ^^^ 0x36) ++ message))

end

/-! ## Deriving keys -/

section

variable (mac : List UInt8 → List UInt8 → List UInt8) (size : Nat)

/-- The **pseudo random function**: the blocks are numbered by one byte. -/
def prf (key label data : List UInt8) (length : Nat) : List UInt8 :=
  derive size (fun i => mac key (label ++ [0] ++ data ++ [UInt8.ofNat i])) length

/-- The exclusive or of two strings of one length. -/
def xorBytes (as bs : List UInt8) : List UInt8 := List.zipWith (· ^^^ ·) as bs

/-- The exclusive or of iterates. -/
def xorIterates (f : List UInt8 → List UInt8) (first : List UInt8) (count : Nat) : List UInt8 :=
  (List.range count).foldl (fun sum i => xorBytes sum (f^[i + 1] first)) first

/-- **PBKDF2**: the blocks are numbered from one on, by four bytes. -/
def pbkdf2 (password salt : List UInt8) (iterations length : Nat) : List UInt8 :=
  derive size (fun i => xorIterates (mac password)
    (mac password (salt ++ (leBytes 4 (i + 1)).reverse)) (iterations - 1)) length

end

end Blts.Lib
