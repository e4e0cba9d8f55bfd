import Blts.Lib.Bytes

/-!
# SHA-1

A hash function takes its message block by block: `absorb` runs a compression over the whole
blocks of a message.  A message may come in pieces, since what has been absorbed and what is
left over are all that the rest of the message depends on.

SHA-1 is the hash function of FIPS 180 over this: the schedule of eighty words, the rounds
over five working variables, and the padding of a message to whole blocks.

## Main results

* `absorb_resume`, `leftOver_resume` — a message in two pieces.
-/

namespace Blts.Lib

/-! ## Block after block -/

section

variable {State : Type} (compress : State → List UInt8 → State) (n : Nat)

/-- The first blocks of a message. -/
def absorbBlocks : Nat → State → List UInt8 → State
  | 0, s, _ => s
  | count + 1, s, bytes => absorbBlocks count (compress s (bytes.take n)) (bytes.drop n)

/-- All whole blocks of a message. -/
def absorb (s : State) (bytes : List UInt8) : State :=
  absorbBlocks compress n (bytes.length / n) s bytes

/-- What comes after the last whole block. -/
def leftOver (bytes : List UInt8) : List UInt8 := bytes.drop (bytes.length / n * n)

variable {compress n}

theorem length_leftOver (bytes : List UInt8) : (leftOver n bytes).length = bytes.length % n := by
  rw [leftOver, List.length_drop, Nat.mod_eq_sub_div_mul]

theorem take_append_leftOver (bytes : List UInt8) :
    bytes.take (bytes.length / n * n) ++ leftOver n bytes = bytes :=
  List.take_append_drop _ bytes

theorem dvd_length_whole (bytes : List UInt8) : n ∣ (bytes.take (bytes.length / n * n)).length := by
  rw [List.length_take, Nat.min_eq_left (Nat.div_mul_le_self _ _)]
  exact Nat.dvd_mul_left n _

theorem absorb_of_lt (s : State) {bytes : List UInt8} (h : bytes.length < n) :
    absorb compress n s bytes = s := by
  rw [absorb, Nat.div_eq_of_lt h, absorbBlocks]

theorem leftOver_of_lt {bytes : List UInt8} (h : bytes.length < n) : leftOver n bytes = bytes := by
  rw [leftOver, Nat.div_eq_of_lt h, Nat.zero_mul, List.drop_zero]

theorem absorb_block (s : State) {block : List UInt8} (hn : 0 < n) (h : block.length = n)
    (rest : List UInt8) :
    absorb compress n s (block ++ rest) = absorb compress n (compress s block) rest := by
  have hcount : (block ++ rest).length / n = rest.length / n + 1 := by
    rw [List.length_append, h, Nat.add_div_left _ hn]
  rw [absorb, hcount, absorbBlocks, List.take_left' h, List.drop_left' h, absorb]

theorem absorb_append (hn : 0 < n) (s : State) {whole : List UInt8} (h : n ∣ whole.length)
    (rest : List UInt8) :
    absorb compress n s (whole ++ rest) = absorb compress n (absorb compress n s whole) rest := by
  obtain ⟨count, hcount⟩ := h
  induction count generalizing s whole with
  | zero =>
      have hnil : whole = [] := List.eq_nil_of_length_eq_zero hcount
      rw [hnil, @absorb_of_lt _ _ _ s [] hn, List.nil_append]
  | succ count ih =>
      -- the first block is absorbed, the induction is on the blocks after it
      rw [Nat.mul_succ] at hcount
      have htake : (whole.take n).length = n := by
        rw [List.length_take]
        omega
      have hdrop : (whole.drop n).length = n * count := by
        rw [List.length_drop]
        omega
      have hsplit : whole = whole.take n ++ whole.drop n := (List.take_append_drop n whole).symm
      rw [hsplit, List.append_assoc, absorb_block s hn htake, absorb_block s hn htake]
      exact ih (compress s (whole.take n)) hdrop

theorem leftOver_append (hn : 0 < n) {whole : List UInt8} (h : n ∣ whole.length)
    (rest : List UInt8) : leftOver n (whole ++ rest) = leftOver n rest := by
  obtain ⟨count, hcount⟩ := h
  have hlength : (whole ++ rest).length / n * n = whole.length + rest.length / n * n := by
    rw [List.length_append, hcount, Nat.mul_add_div hn, Nat.add_mul, Nat.mul_comm count]
  rw [leftOver, hlength, List.drop_length_add_append, leftOver]

/-- **A message in two pieces**: the second is absorbed after what the first left over. -/
theorem absorb_resume (hn : 0 < n) (s : State) (first second : List UInt8) :
    absorb compress n s (first ++ second) =
      absorb compress n (absorb compress n s first) (leftOver n first ++ second) := by
  have hwhole := dvd_length_whole (n := n) first
  have hfirst : absorb compress n s first =
      absorb compress n s (first.take (first.length / n * n)) := by
    conv_lhs => rw [← take_append_leftOver (n := n) first]
    rw [absorb_append hn s hwhole, absorb_of_lt]
    rw [length_leftOver]
    exact Nat.mod_lt _ hn
  rw [hfirst]
  conv_lhs => rw [← take_append_leftOver (n := n) first, List.append_assoc]
  exact absorb_append hn s hwhole _

theorem leftOver_resume (hn : 0 < n) (first second : List UInt8) :
    leftOver n (first ++ second) = leftOver n (leftOver n first ++ second) := by
  conv_lhs => rw [← take_append_leftOver (n := n) first, List.append_assoc]
  exact leftOver_append hn (dvd_length_whole first) _

end

/-! ## The standard -/

namespace Sha1

/-- The working variables, and the hash value between blocks. -/
structure Hash where
  a : BitVec 32
  b : BitVec 32
  c : BitVec 32
  d : BitVec 32
  e : BitVec 32
  deriving DecidableEq

/-- The initial hash value. -/
def initial : Hash where
  a := 0x67452301#32
  b := 0xefcdab89#32
  c := 0x98badcfe#32
  d := 0x10325476#32
  e := 0xc3d2e1f0#32

/-- A word of a message, highest byte first. -/
def wordAt (bytes : List UInt8) (i : Nat) : BitVec 32 :=
  (bytes.getD i 0).toBitVec ++ (bytes.getD (i + 1) 0).toBitVec ++
    (bytes.getD (i + 2) 0).toBitVec ++ (bytes.getD (i + 3) 0).toBitVec

/-- The message schedule. -/
def schedule (block : List UInt8) (t : Nat) : BitVec 32 :=
  if t < 16 then wordAt block (4 * t)
  else (schedule block (t - 3) ^^^ schedule block (t - 8) ^^^ schedule block (t - 14) ^^^
    schedule block (t - 16)).rotateLeft 1
termination_by t

def choose (x y z : BitVec 32) : BitVec 32 := (x &&& y) ^^^ (~~~x &&& z)

def parity (x y z : BitVec 32) : BitVec 32 := x ^^^ y ^^^ z

def majority (x y z : BitVec 32) : BitVec 32 := (x &&& y) ^^^ (x &&& z) ^^^ (y &&& z)

/-- The function of a round. -/
def mix (t : Nat) : BitVec 32 → BitVec 32 → BitVec 32 → BitVec 32 :=
  if t < 20 then choose else if t < 40 then parity else if t < 60 then majority else parity

/-- The constant of a round. -/
def constant (t : Nat) : BitVec 32 :=
  if t < 20 then 0x5a827999#32
  else if t < 40 then 0x6ed9eba1#32
  else if t < 60 then 0x8f1bbcdc#32
  else 0xca62c1d6#32

def round (block : List UInt8) (h : Hash) (t : Nat) : Hash where
  a := h.a.rotateLeft 5 + mix t h.b h.c h.d + h.e + constant t + schedule block t
  b := h.a
  c := h.b.rotateLeft 30
  d := h.c
  e := h.d

/-- The working variables after the first rounds. -/
def rounds (block : List UInt8) (h : Hash) (count : Nat) : Hash :=
  (List.range count).foldl (round block) h

/-- What a block does to the hash value. -/
def compress (h : Hash) (block : List UInt8) : Hash :=
  let r := rounds block h 80
  ⟨h.a + r.a, h.b + r.b, h.c + r.c, h.d + r.d, h.e + r.e⟩

/-- The padding: a bit, zeros, and the length in bits. -/
def padding (length : Nat) : List UInt8 :=
  0x80 :: List.replicate ((119 - length % 64) % 64) 0 ++ (leBytes 8 (8 * length)).reverse

def wordBytes (word : BitVec 32) : List UInt8 :=
  [24, 16, 8, 0].map fun shift => UInt8.ofBitVec ((word >>> shift).setWidth 8)

def Hash.bytes (h : Hash) : List UInt8 :=
  wordBytes h.a ++ wordBytes h.b ++ wordBytes h.c ++ wordBytes h.d ++ wordBytes h.e

/-- **SHA-1** of a message. -/
def hash (message : List UInt8) : List UInt8 :=
  (absorb compress 64 initial (message ++ padding message.length)).bytes

theorem schedule_of_lt (block : List UInt8) {t : Nat} (h : t < 16) :
    schedule block t = wordAt block (4 * t) := by
  rw [schedule, if_pos h]

theorem schedule_add (block : List UInt8) (t : Nat) :
    schedule block (t + 16) = (schedule block (t + 13) ^^^ schedule block (t + 8) ^^^
      schedule block (t + 2) ^^^ schedule block t).rotateLeft 1 := by
  rw [schedule, if_neg (by omega)]
  congr 1

theorem rounds_succ (block : List UInt8) (h : Hash) (count : Nat) :
    rounds block h (count + 1) = round block (rounds block h count) count := by
  rw [rounds, List.range_succ, List.foldl_append]
  rfl

@[simp] theorem length_wordBytes (word : BitVec 32) : (wordBytes word).length = 4 := rfl

@[simp] theorem length_bytes (h : Hash) : h.bytes.length = 20 := rfl

@[simp] theorem length_hash (message : List UInt8) : (hash message).length = 20 := rfl

end Sha1

end Blts.Lib
