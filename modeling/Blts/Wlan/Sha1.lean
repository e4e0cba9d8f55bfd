import Blts.Lib.BitWords
import Blts.Lib.Sha1
import Blts.Wlan.KeyFrame
import Mathlib.Tactic.IntervalCases

/-!
# SHA-1 of `wlan-core-crypto.c`

`SHA1Transform` keeps the last sixteen words of the schedule only, in the place of the block,
and renames the five working variables instead of moving them.  `SHA1Update` keeps the bytes
of the last block that is not complete yet, and the number of bits as two 32-bit halves.

The digest of a message in pieces is that of FIPS 180 of the whole message, as long as no
piece is so long that the sum of its length and of the bytes in the buffer wraps around.

## Main results

* `sha1Transform_eq` — the transformation is the compression of the standard.
* `sha1Update_spec` — what an update does to a context.
* `sha1Vector_eq` — the digest of a message in pieces.
-/

namespace Blts.Wlan

open Blts.Lib

/-! ## The transformation -/

/-- `rol`. -/
def rol (value : BitVec 32) (bits : Nat) : BitVec 32 :=
  value <<< bits ||| value >>> (32 - bits)

/-- A word as it is loaded from memory, lowest byte first. -/
def loadWord (bytes : Bytes) (i : Nat) : BitVec 32 :=
  (bytes.getD (i + 3) 0).toBitVec ++ (bytes.getD (i + 2) 0).toBitVec ++
    (bytes.getD (i + 1) 0).toBitVec ++ (bytes.getD i 0).toBitVec

/-- The working variables `a` to `e`, by their places, and `block->l`. -/
structure Sha1Work where
  vars : List (BitVec 32)
  block : List (BitVec 32)

/-- `blk0(i)`: the bytes of a word are swapped in its place. -/
def Sha1Work.blk0 (s : Sha1Work) (i : Nat) : BitVec 32 :=
  rol (s.block.getD i 0) 24 &&& 0xff00ff00#32 ||| rol (s.block.getD i 0) 8 &&& 0x00ff00ff#32

/-- `blk(i)`. -/
def Sha1Work.blk (s : Sha1Work) (i : Nat) : BitVec 32 :=
  rol (s.block.getD ((i + 13) % 16) 0 ^^^ s.block.getD ((i + 8) % 16) 0 ^^^
    s.block.getD ((i + 2) % 16) 0 ^^^ s.block.getD (i % 16) 0) 1

/-- The place of a name in call `i`: the calls of the macros are those of
`R0(a,b,c,d,e, 0); R0(e,a,b,c,d, 1); R0(d,e,a,b,c, 2);` and so on. -/
def place (i name : Nat) : Nat := (name + 4 * i) % 5

/-- The common part of `R0` to `R4`: `z += f(w, x, y) + word + k + rol(v, 5); w = rol(w, 30)`. -/
def Sha1Work.r (f : BitVec 32 → BitVec 32 → BitVec 32 → BitVec 32) (k word : BitVec 32)
    (i : Nat) (s : Sha1Work) : Sha1Work :=
  let v := s.vars.getD (place i 0) 0
  let w := s.vars.getD (place i 1) 0
  let x := s.vars.getD (place i 2) 0
  let y := s.vars.getD (place i 3) 0
  let z := s.vars.getD (place i 4) 0
  let vars := s.vars.set (place i 4) (z + (f w x y + word + k + rol v 5))
  { vars := vars.set (place i 1) (rol w 30), block := s.block.set (i % 16) word }

def Sha1Work.r0 (s : Sha1Work) (i : Nat) : Sha1Work :=
  s.r (fun w x y => (w &&& (x ^^^ y)) ^^^ y) 0x5a827999#32 (s.blk0 i) i

def Sha1Work.r1 (s : Sha1Work) (i : Nat) : Sha1Work :=
  s.r (fun w x y => (w &&& (x ^^^ y)) ^^^ y) 0x5a827999#32 (s.blk i) i

def Sha1Work.r2 (s : Sha1Work) (i : Nat) : Sha1Work :=
  s.r (fun w x y => w ^^^ x ^^^ y) 0x6ed9eba1#32 (s.blk i) i

def Sha1Work.r3 (s : Sha1Work) (i : Nat) : Sha1Work :=
  s.r (fun w x y => (w ||| x) &&& y ||| w &&& x) 0x8f1bbcdc#32 (s.blk i) i

def Sha1Work.r4 (s : Sha1Work) (i : Nat) : Sha1Work :=
  s.r (fun w x y => w ^^^ x ^^^ y) 0xca62c1d6#32 (s.blk i) i

/-- Call `i` of the eighty calls. -/
def Sha1Work.call (s : Sha1Work) (i : Nat) : Sha1Work :=
  if i < 16 then s.r0 i
  else if i < 20 then s.r1 i
  else if i < 40 then s.r2 i
  else if i < 60 then s.r3 i
  else s.r4 i

/-- The working variables and the block that `SHA1Transform` starts with. -/
def Sha1Work.start (state : Sha1.Hash) (buffer : Bytes) : Sha1Work where
  vars := [state.a, state.b, state.c, state.d, state.e]
  block := (List.range 16).map fun i => loadWord buffer (4 * i)

/-- `SHA1Transform`. -/
def sha1Transform (state : Sha1.Hash) (buffer : Bytes) : Sha1.Hash :=
  let s := (List.range 80).foldl Sha1Work.call (.start state buffer)
  ⟨state.a + s.vars.getD 0 0, state.b + s.vars.getD 1 0, state.c + s.vars.getD 2 0,
    state.d + s.vars.getD 3 0, state.e + s.vars.getD 4 0⟩

/-! ## Contexts -/

/-- `SHA1_CTX`. -/
structure Sha1Context where
  state : Sha1.Hash
  /-- `count[0]`, the low half -/
  count0 : Nat
  /-- `count[1]` -/
  count1 : Nat
  buffer : Bytes

/-- `SHA1Init`.  The buffer, of which nothing is read before it is written, is taken to be
clear. -/
def sha1Init : Sha1Context where
  state := Sha1.initial
  count0 := 0
  count1 := 0
  buffer := List.replicate 64 0

/-- The loop `for ( ; i + 63 < len; i += 64)`, with what is left of the data. -/
def transformBlocks : Nat → Sha1.Hash → Bytes → Sha1.Hash × Bytes
  | rounds + 1, state, data =>
      if 63 < data.length then
        transformBlocks rounds (sha1Transform state (data.take 64)) (data.drop 64)
      else (state, data)
  | 0, state, data => (state, data)

/-- `SHA1Update`, the length of the data being a `u32`. -/
def sha1Update (context : Sha1Context) (data : Bytes) : Except Fault Sha1Context :=
  let len := data.length % 4294967296
  let data := data.take len
  let j := context.count0 / 8 % 64
  let count0 := (context.count0 + len * 8) % 4294967296
  let carry := if count0 < len * 8 % 4294967296 then 1 else 0
  let count1 := (context.count1 + carry + len / 536870912) % 4294967296
  if 63 < (j + len) % 4294967296 then
    let buffer := overwrite context.buffer j (data.take (64 - j))
    let (state, rest) := transformBlocks len (sha1Transform context.state buffer)
      (data.drop (64 - j))
    .ok ⟨state, count0, count1, overwrite buffer 0 rest⟩
  else if 63 < j + len then .error .outOfBounds
  else .ok ⟨context.state, count0, count1, overwrite context.buffer j data⟩

/-- The loop `while ((context->count[0] & 504) != 448)`. -/
def padZeros : Nat → Sha1Context → Except Fault Sha1Context
  | 0, context => .ok context
  | rounds + 1, context =>
      if context.count0 &&& 504 = 448 then .ok context
      else do
        let context ← sha1Update context [0]
        padZeros rounds context

/-- The digest of a state. -/
def digest (state : Sha1.Hash) : Bytes :=
  let words := [state.a, state.b, state.c, state.d, state.e]
  (List.range 20).map fun i =>
    UInt8.ofBitVec ((words.getD (i / 4) 0 >>> ((3 - i % 4) * 8)).setWidth 8)

/-- `SHA1Final`: every round of the loop adds eight to the count, so sixty-four are enough. -/
def sha1Final (context : Sha1Context) : Except Fault Bytes := do
  let finalcount := (List.range 8).map fun i =>
    UInt8.ofNat ((if 4 ≤ i then context.count0 else context.count1) >>> ((3 - i % 4) * 8))
  let context ← sha1Update context [0x80]
  let context ← padZeros 64 context
  let context ← sha1Update context finalcount
  return digest context.state

/-- The updates of `sha1_vector`. -/
def sha1Updates : Sha1Context → List Bytes → Except Fault Sha1Context
  | context, [] => .ok context
  | context, data :: rest => do
      let context ← sha1Update context data
      sha1Updates context rest

/-- `sha1_vector`. -/
def sha1Vector (pieces : List Bytes) : Except Fault Bytes := do
  let context ← sha1Updates sha1Init pieces
  sha1Final context

/-! ## The transformation is the compression -/

theorem rol_eq (value : BitVec 32) {bits : Nat} (h : bits < 32) :
    rol value bits = value.rotateLeft bits := by
  rw [rol, BitVec.rotateLeft_def, Nat.mod_eq_of_lt h]

/-- The swap of `blk0` reads a word highest byte first. -/
theorem swap_loadWord (bytes : Bytes) (i : Nat) :
    (rol (loadWord bytes i) 24 &&& 0xff00ff00#32 ||| rol (loadWord bytes i) 8 &&& 0x00ff00ff#32) =
      Sha1.wordAt bytes i := by
  unfold loadWord Sha1.wordAt rol
  apply BitVec.eq_of_getLsbD_eq
  intro k hk
  simp only [BitVec.getLsbD_or, BitVec.getLsbD_and, BitVec.getLsbD_shiftLeft,
    BitVec.getLsbD_ushiftRight, Words.getLsbD_bytes]
  interval_cases k <;> simp

theorem choose_eq (x y z : BitVec 32) : (x &&& (y ^^^ z)) ^^^ z = Sha1.choose x y z := by
  unfold Sha1.choose
  ext k hk
  simp only [BitVec.getElem_xor, BitVec.getElem_and, BitVec.getElem_not]
  cases x[k] <;> cases y[k] <;> cases z[k] <;> rfl

theorem majority_eq (x y z : BitVec 32) :
    ((x ||| y) &&& z ||| x &&& y) = Sha1.majority x y z := by
  unfold Sha1.majority
  ext k hk
  simp only [BitVec.getElem_xor, BitVec.getElem_and, BitVec.getElem_or]
  cases x[k] <;> cases y[k] <;> cases z[k] <;> rfl

theorem getD_set (l : List (BitVec 32)) (i j : Nat) (value : BitVec 32) :
    (l.set i value).getD j 0 = if i = j ∧ i < l.length then value else l.getD j 0 := by
  rw [List.getD_eq_getElem?_getD, List.getD_eq_getElem?_getD, List.getElem?_set]
  by_cases hij : i = j
  · subst hij
    by_cases hi : i < l.length
    · rw [if_pos rfl, if_pos hi, if_pos ⟨rfl, hi⟩, Option.getD_some]
    · rw [if_pos rfl, if_neg hi, if_neg (fun h => hi h.2),
        List.getElem?_eq_none (Nat.not_lt.mp hi)]
  · rw [if_neg hij, if_neg (fun h => hij h.1)]

/-- The working variables and the block after the first calls: the names have moved on, and
the last sixteen words of the schedule are in their places. -/
structure Follows (buffer : Bytes) (state : Sha1.Hash) (n : Nat) (s : Sha1Work) : Prop where
  vars : s.vars.length = 5
  block : s.block.length = 16
  a : s.vars.getD (place n 0) 0 = (Sha1.rounds buffer state n).a
  b : s.vars.getD (place n 1) 0 = (Sha1.rounds buffer state n).b
  c : s.vars.getD (place n 2) 0 = (Sha1.rounds buffer state n).c
  d : s.vars.getD (place n 3) 0 = (Sha1.rounds buffer state n).d
  e : s.vars.getD (place n 4) 0 = (Sha1.rounds buffer state n).e
  done : ∀ t < n, n ≤ t + 16 → s.block.getD (t % 16) 0 = Sha1.schedule buffer t
  ahead : ∀ t < 16, n ≤ t → s.block.getD t 0 = loadWord buffer (4 * t)

/-- A name moves on to the place of the one before it. -/
theorem place_succ (i name : Nat) : place (i + 1) (name + 1) = place i name := by
  unfold place
  omega

theorem place_succ_zero (i : Nat) : place (i + 1) 0 = place i 4 := by
  unfold place
  omega

namespace Follows

variable {buffer : Bytes} {state : Sha1.Hash} {n : Nat} {s : Sha1Work}

theorem start : Follows buffer state 0 (.start state buffer) where
  vars := rfl
  block := rfl
  a := rfl
  b := rfl
  c := rfl
  d := rfl
  e := rfl
  done t ht := absurd ht (Nat.not_lt_zero t)
  ahead t ht _ := by
    simp [Sha1Work.start, List.getD_eq_getElem?_getD, ht]

/-- What a call leaves in the places of its names. -/
theorem vars_r (h : Follows buffer state n s)
    (f : BitVec 32 → BitVec 32 → BitVec 32 → BitVec 32) (k word : BitVec 32) {name : Nat}
    (hname : name < 5) :
    (s.r f k word n).vars.getD (place n name) 0 =
      if name = 1 then rol (s.vars.getD (place n 1) 0) 30
      else if name = 4 then
        s.vars.getD (place n 4) 0 + (f (s.vars.getD (place n 1) 0) (s.vars.getD (place n 2) 0)
          (s.vars.getD (place n 3) 0) + word + k + rol (s.vars.getD (place n 0) 0) 5)
      else s.vars.getD (place n name) 0 := by
  have hlt (other : Nat) : place n other < s.vars.length := by
    rw [h.vars]
    exact Nat.mod_lt _ (by decide)
  have heq {other : Nat} (hother : other < 5) : place n other = place n name ↔ name = other := by
    unfold place
    omega
  unfold Sha1Work.r
  simp only [getD_set, List.length_set, hlt, and_true, heq (show 1 < 5 by decide),
    heq (show 4 < 5 by decide)]

/-- A call with the function, the constant and the word of its round. -/
theorem r (h : Follows buffer state n s) {f : BitVec 32 → BitVec 32 → BitVec 32 → BitVec 32}
    {k word : BitVec 32} (hf : ∀ x y z, f x y z = Sha1.mix n x y z) (hk : k = Sha1.constant n)
    (hword : word = Sha1.schedule buffer n) :
    Follows buffer state (n + 1) (s.r f k word n) := by
  have hvars {name : Nat} (hname : name < 5) := h.vars_r f k word hname
  have hblock (t : Nat) : (s.r f k word n).block.getD t 0 =
      if n % 16 = t then word else s.block.getD t 0 := by
    have hlt : n % 16 < s.block.length := by
      rw [h.block]
      exact Nat.mod_lt _ (by decide)
    show (s.block.set (n % 16) word).getD t 0 = _
    simp only [getD_set, hlt, and_true]
  refine ⟨?_, ?_, ?_, ?_, ?_, ?_, ?_, fun t ht hle => ?_, fun t ht hle => ?_⟩
  · simp [Sha1Work.r, h.vars]
  · simp [Sha1Work.r, h.block]
  · rw [place_succ_zero, hvars (by decide), if_neg (by decide), if_pos rfl, Sha1.rounds_succ, hf,
      hk, hword, rol_eq _ (by decide), h.a, h.b, h.c, h.d, h.e, Sha1.round]
    ac_rfl
  · rw [place_succ n 0, hvars (by decide), if_neg (by decide), if_neg (by decide), h.a,
      Sha1.rounds_succ]
    rfl
  · rw [place_succ n 1, hvars (by decide), if_pos rfl, h.b, rol_eq _ (by decide),
      Sha1.rounds_succ]
    rfl
  · rw [place_succ n 2, hvars (by decide), if_neg (by decide), if_neg (by decide), h.c,
      Sha1.rounds_succ]
    rfl
  · rw [place_succ n 3, hvars (by decide), if_neg (by decide), if_neg (by decide), h.d,
      Sha1.rounds_succ]
    rfl
  · rw [hblock]
    by_cases hlast : t = n
    · rw [hlast, if_pos rfl, hword]
    · rw [if_neg (by omega)]
      exact h.done t (by omega) (by omega)
  · rw [hblock, if_neg (by omega)]
    exact h.ahead t ht (by omega)

/-- The words that the calls take are those of the schedule. -/
theorem blk0_eq (h : Follows buffer state n s) (hn : n < 16) :
    s.blk0 n = Sha1.schedule buffer n := by
  rw [Sha1Work.blk0, h.ahead n hn (Nat.le_refl n), swap_loadWord, Sha1.schedule_of_lt _ hn]

theorem blk_eq (h : Follows buffer state n s) (hn : 16 ≤ n) :
    s.blk n = Sha1.schedule buffer n := by
  obtain ⟨t, rfl⟩ : ∃ t, n = t + 16 := ⟨n - 16, by omega⟩
  have hword {back : Nat} (hback : back < 16) :
      s.block.getD ((t + 16 + back) % 16) 0 = Sha1.schedule buffer (t + back) := by
    rw [show (t + 16 + back) % 16 = (t + back) % 16 by omega]
    exact h.done (t + back) (by omega) (by omega)
  have hfirst : s.block.getD ((t + 16) % 16) 0 = Sha1.schedule buffer t := @hword 0 (by decide)
  rw [Sha1Work.blk, hword (by decide), hword (by decide), hword (by decide), hfirst,
    rol_eq _ (by decide), Sha1.schedule_add]

/-- Each of the eighty calls does its round. -/
theorem call (h : Follows buffer state n s) : Follows buffer state (n + 1) (s.call n) := by
  unfold Sha1Work.call
  by_cases h₁ : n < 16
  · rw [if_pos h₁]
    refine h.r (fun x y z => ?_) ?_ (h.blk0_eq h₁)
    · rw [Sha1.mix, if_pos (by omega), choose_eq]
    · rw [Sha1.constant, if_pos (by omega)]
  have hblk := h.blk_eq (Nat.not_lt.mp h₁)
  rw [if_neg h₁]
  by_cases h₂ : n < 20
  · rw [if_pos h₂]
    refine h.r (fun x y z => ?_) ?_ hblk
    · rw [Sha1.mix, if_pos h₂, choose_eq]
    · rw [Sha1.constant, if_pos h₂]
  rw [if_neg h₂]
  by_cases h₃ : n < 40
  · rw [if_pos h₃]
    refine h.r (fun x y z => ?_) ?_ hblk
    · rw [Sha1.mix, if_neg h₂, if_pos h₃, Sha1.parity]
    · rw [Sha1.constant, if_neg h₂, if_pos h₃]
  rw [if_neg h₃]
  by_cases h₄ : n < 60
  · rw [if_pos h₄]
    refine h.r (fun x y z => ?_) ?_ hblk
    · rw [Sha1.mix, if_neg h₂, if_neg h₃, if_pos h₄, majority_eq]
    · rw [Sha1.constant, if_neg h₂, if_neg h₃, if_pos h₄]
  rw [if_neg h₄]
  refine h.r (fun x y z => ?_) ?_ hblk
  · rw [Sha1.mix, if_neg h₂, if_neg h₃, if_neg h₄, Sha1.parity]
  · rw [Sha1.constant, if_neg h₂, if_neg h₃, if_neg h₄]

theorem calls (buffer : Bytes) (state : Sha1.Hash) (n : Nat) :
    Follows buffer state n ((List.range n).foldl Sha1Work.call (.start state buffer)) := by
  induction n with
  | zero => exact start
  | succ n ih =>
      rw [List.range_succ, List.foldl_append]
      exact ih.call

end Follows

/-- **`SHA1Transform`** is the compression of the standard. -/
theorem sha1Transform_eq (state : Sha1.Hash) (buffer : Bytes) :
    sha1Transform state buffer = Sha1.compress state buffer := by
  have h := Follows.calls buffer state 80
  -- after eighty calls the names are in their own places again
  unfold sha1Transform Sha1.compress
  simp only
  rw [← h.a, ← h.b, ← h.c, ← h.d, ← h.e]
  rfl

/-! ## Contexts of a message -/

theorem transformBlocks_eq (data : Bytes) : ∀ {rounds : Nat} (state : Sha1.Hash),
    data.length ≤ rounds → transformBlocks rounds state data =
      (absorb Sha1.compress 64 state data, leftOver 64 data) := by
  intro rounds
  induction rounds generalizing data with
  | zero =>
      intro state h
      rw [List.eq_nil_of_length_eq_zero (Nat.le_zero.mp h)]
      rfl
  | succ rounds ih =>
      intro state h
      by_cases hlong : 63 < data.length
      · have htake : (data.take 64).length = 64 := by
          rw [List.length_take]
          omega
        have hdrop : (data.drop 64).length ≤ rounds := by
          rw [List.length_drop]
          omega
        have hsplit : data = data.take 64 ++ data.drop 64 := (List.take_append_drop 64 data).symm
        rw [transformBlocks, if_pos hlong, ih (data.drop 64) _ hdrop, sha1Transform_eq]
        conv_rhs => rw [hsplit]
        rw [absorb_block state (by decide) htake,
          leftOver_append (by decide) (Dvd.intro 1 htake.symm)]
      · rw [transformBlocks, if_neg hlong, absorb_of_lt state (by omega),
          leftOver_of_lt (by omega)]

/-- The context of a message: its whole blocks have been absorbed, its length in bits is
counted, and the rest of it is in the buffer. -/
structure Sha1Context.Of (context : Sha1Context) (message : Bytes) : Prop where
  state : context.state = absorb Sha1.compress 64 Sha1.initial message
  count0 : context.count0 = 8 * message.length % 4294967296
  count1 : context.count1 = 8 * message.length / 4294967296 % 4294967296
  length : context.buffer.length = 64
  buffer : context.buffer.take (message.length % 64) = leftOver 64 message

theorem sha1Init_of : sha1Init.Of [] where
  state := rfl
  count0 := rfl
  count1 := rfl
  length := rfl
  buffer := rfl

/-- **What an update does**: the context is that of the longer message. -/
theorem sha1Update_spec {context : Sha1Context} {message : Bytes} (h : context.Of message)
    (data : Bytes) (hlen : message.length % 64 + data.length < 4294967296) :
    ∃ context', sha1Update context data = .ok context' ∧ context'.Of (message ++ data) := by
  have hlen' : data.length % 4294967296 = data.length := Nat.mod_eq_of_lt (by omega)
  have hj : context.count0 / 8 % 64 = message.length % 64 := by
    rw [h.count0]
    omega
  have hcount0 : (context.count0 + data.length * 8) % 4294967296 =
      8 * (message ++ data).length % 4294967296 := by
    rw [h.count0, List.length_append]
    omega
  have hcount1 : (context.count1 + (if (context.count0 + data.length * 8) % 4294967296 <
      data.length * 8 % 4294967296 then 1 else 0) + data.length / 536870912) % 4294967296 =
      8 * (message ++ data).length / 4294967296 % 4294967296 := by
    rw [h.count0, h.count1, List.length_append]
    split <;> omega
  have hj64 : message.length % 64 < 64 := Nat.mod_lt _ (by decide)
  have hleft : (leftOver 64 message).length = message.length % 64 := length_leftOver message
  have habsorb := @absorb_resume _ Sha1.compress 64 (by decide) Sha1.initial message data
  have hresume := leftOver_resume (n := 64) (by decide) message data
  unfold sha1Update
  simp only [hlen', List.take_length, hj, Nat.mod_eq_of_lt hlen]
  by_cases hfull : 63 < message.length % 64 + data.length
  · -- the buffer becomes the first block
    have hbuffer : overwrite context.buffer (message.length % 64)
        (data.take (64 - message.length % 64)) =
          leftOver 64 message ++ data.take (64 - message.length % 64) := by
      rw [overwrite, h.buffer, List.drop_eq_nil_of_le, List.append_nil]
      rw [List.length_take, h.length]
      omega
    have hblock : (leftOver 64 message ++ data.take (64 - message.length % 64)).length = 64 := by
      rw [List.length_append, hleft, List.length_take]
      omega
    have hsplit : leftOver 64 message ++ data =
        (leftOver 64 message ++ data.take (64 - message.length % 64)) ++
          data.drop (64 - message.length % 64) := by
      rw [List.append_assoc, List.take_append_drop]
    have hrest : (leftOver 64 (data.drop (64 - message.length % 64))).length =
        (message ++ data).length % 64 := by
      rw [length_leftOver, List.length_drop, List.length_append]
      omega
    rw [hsplit, absorb_block _ (by decide) hblock] at habsorb
    have hdvd : 64 ∣ (leftOver 64 message ++ data.take (64 - message.length % 64)).length :=
      Dvd.intro 1 hblock.symm
    rw [hsplit, leftOver_append (by decide) hdvd (data.drop (64 - message.length % 64))]
      at hresume
    have hloop := @transformBlocks_eq (data.drop (64 - message.length % 64)) data.length
      (sha1Transform context.state
        (leftOver 64 message ++ data.take (64 - message.length % 64)))
      (by rw [List.length_drop]; omega)
    rw [if_pos hfull, hbuffer, hloop]
    refine ⟨_, rfl, ⟨?_, hcount0, hcount1, ?_, ?_⟩⟩
    · rw [habsorb, sha1Transform_eq, h.state]
    · have hlt : (leftOver 64 (data.drop (64 - message.length % 64))).length < 64 := by
        rw [hrest]
        exact Nat.mod_lt _ (by decide)
      simp only [overwrite, List.take_zero, List.nil_append, List.length_append, List.length_drop,
        hblock]
      omega
    · rw [hresume, overwrite, List.take_zero, List.nil_append, ← hrest, List.take_left']
      rfl
  · -- the data goes behind what is in the buffer
    have hshort : (leftOver 64 message ++ data).length < 64 := by
      rw [List.length_append, hleft]
      omega
    rw [absorb_of_lt _ hshort] at habsorb
    rw [leftOver_of_lt hshort] at hresume
    have hmod : (message ++ data).length % 64 = message.length % 64 + data.length := by
      rw [List.length_append]
      omega
    rw [if_neg hfull, if_neg hfull]
    refine ⟨_, rfl, ⟨?_, hcount0, hcount1, ?_, ?_⟩⟩
    · rw [habsorb, h.state]
    · simp only [overwrite, List.length_append, List.length_take, List.length_drop, h.length]
      omega
    · rw [hresume, overwrite, h.buffer, hmod, List.take_left']
      rw [List.length_append, hleft]

theorem sha1Updates_spec {pieces : List Bytes}
    (hpieces : ∀ piece ∈ pieces, piece.length + 63 < 4294967296) :
    ∀ {context : Sha1Context} {message : Bytes}, context.Of message →
      ∃ context', sha1Updates context pieces = .ok context' ∧
        context'.Of (message ++ pieces.flatten) := by
  induction pieces with
  | nil =>
      intro context message h
      exact ⟨context, rfl, by rwa [List.flatten_nil, List.append_nil]⟩
  | cons piece pieces ih =>
      intro context message h
      have hpiece := hpieces piece List.mem_cons_self
      have hj64 : message.length % 64 < 64 := Nat.mod_lt _ (by decide)
      obtain ⟨context₁, hupdate, h₁⟩ := sha1Update_spec h piece (by omega)
      obtain ⟨context₂, hupdates, h₂⟩ :=
        ih (fun p hp => hpieces p (List.mem_cons_of_mem piece hp)) h₁
      refine ⟨context₂, ?_, ?_⟩
      · rw [sha1Updates, hupdate]
        exact hupdates
      · rwa [List.flatten_cons, ← List.append_assoc]

/-! ## The padding -/

/-- The bits of the count that the loop looks at. -/
theorem and_504 (length : Nat) : 8 * length % 4294967296 &&& 504 = 8 * (length % 64) := by
  have hlow : 8 * length % 4294967296 = (length % 536870912) <<< 3 := by
    rw [Nat.shiftLeft_eq]
    omega
  have hmask : (length % 536870912) &&& 63 = length % 536870912 % 64 :=
    Nat.and_two_pow_sub_one_eq_mod _ 6
  rw [hlow, show 504 = 63 <<< 3 from rfl, ← Nat.shiftLeft_and_distrib, hmask, Nat.shiftLeft_eq]
  omega

theorem padZeros_spec : ∀ {rounds : Nat} {context : Sha1Context} {message : Bytes},
    context.Of message → (120 - message.length % 64) % 64 ≤ rounds →
      ∃ context', padZeros rounds context = .ok context' ∧
        context'.Of (message ++ List.replicate ((120 - message.length % 64) % 64) 0) := by
  intro rounds
  induction rounds with
  | zero =>
      intro context message h hrounds
      rw [Nat.le_zero.mp hrounds]
      exact ⟨context, rfl, by rwa [List.replicate_zero, List.append_nil]⟩
  | succ rounds ih =>
      intro context message h hrounds
      rw [padZeros, h.count0, and_504]
      by_cases hdone : 8 * (message.length % 64) = 448
      · rw [if_pos hdone, show (120 - message.length % 64) % 64 = 0 by omega]
        exact ⟨context, rfl, by rwa [List.replicate_zero, List.append_nil]⟩
      · have hj64 : message.length % 64 < 64 := Nat.mod_lt _ (by decide)
        obtain ⟨context₁, hupdate, h₁⟩ := sha1Update_spec h [0]
          (by rw [List.length_singleton]; omega)
        have hzeros : (120 - message.length % 64) % 64 =
            (120 - (message ++ [0]).length % 64) % 64 + 1 := by
          rw [List.length_append, List.length_singleton]
          omega
        obtain ⟨context₂, hloop, h₂⟩ := ih h₁ (by omega)
        refine ⟨context₂, ?_, ?_⟩
        · rw [if_neg hdone, hupdate]
          exact hloop
        · rw [hzeros, List.replicate_succ]
          rwa [List.append_assoc] at h₂

/-- The number of bits, as it goes into the last block. -/
theorem finalcount_eq (bits : Nat) :
    ((List.range 8).map fun i => UInt8.ofNat
      ((if 4 ≤ i then bits % 4294967296 else bits / 4294967296 % 4294967296) >>>
        ((3 - i % 4) * 8))) = (leBytes 8 bits).reverse := by
  simp only [List.range, List.range.loop, List.map_cons, List.map_nil, leBytes, List.reverse_cons,
    List.reverse_nil, List.nil_append, List.cons_append, Nat.shiftRight_eq_div_pow, List.cons.injEq,
    and_true]
  refine ⟨?_, ?_, ?_, ?_, ?_, ?_, ?_, ?_⟩ <;> apply ofNat_eq_of_mod <;> simp <;> omega

theorem digest_eq (state : Sha1.Hash) : digest state = state.bytes := rfl

/-- **`SHA1Final`** gives the digest of the message. -/
theorem sha1Final_eq {context : Sha1Context} {message : Bytes} (h : context.Of message) :
    sha1Final context = .ok (Sha1.hash message) := by
  have hj64 : message.length % 64 < 64 := Nat.mod_lt _ (by decide)
  obtain ⟨context₁, hmark, h₁⟩ := sha1Update_spec h [0x80]
    (by rw [List.length_singleton]; omega)
  have hlength : (message ++ [0x80]).length = message.length + 1 := by
    rw [List.length_append, List.length_singleton]
  obtain ⟨context₂, hloop, h₂⟩ := @padZeros_spec 64 _ _ h₁
    (Nat.le_of_lt (Nat.mod_lt _ (by decide)))
  have hcount := finalcount_eq (8 * message.length)
  rw [← h.count0, ← h.count1] at hcount
  obtain ⟨context₃, hbits, h₃⟩ := sha1Update_spec h₂ (leBytes 8 (8 * message.length)).reverse
    (by rw [List.length_reverse, length_leBytes]; omega)
  have hpadding : message ++ [0x80] ++
      List.replicate ((120 - (message ++ [0x80]).length % 64) % 64) 0 ++
        (leBytes 8 (8 * message.length)).reverse = message ++ Sha1.padding message.length := by
    have hzeros : (120 - (message.length + 1) % 64) % 64 = (119 - message.length % 64) % 64 := by
      omega
    rw [hlength, hzeros, Sha1.padding]
    simp
  rw [hpadding] at h₃
  unfold sha1Final
  simp only [hmark, hloop, hcount, hbits, ok_bind]
  show Except.ok (digest context₃.state) = _
  rw [digest_eq, h₃.state, Sha1.hash]

theorem sha1Vector_hash {pieces : List Bytes}
    (hpieces : ∀ piece ∈ pieces, piece.length + 63 < 4294967296) :
    sha1Vector pieces = .ok (Sha1.hash pieces.flatten) := by
  obtain ⟨context, hupdates, h⟩ := sha1Updates_spec hpieces sha1Init_of
  rw [List.nil_append] at h
  rw [sha1Vector, hupdates]
  exact sha1Final_eq h

/-- **The digest of a message in pieces** is that of the message, wherever it is cut. -/
theorem sha1Vector_eq {pieces pieces' : List Bytes}
    (hpieces : ∀ piece ∈ pieces, piece.length + 63 < 4294967296)
    (hpieces' : ∀ piece ∈ pieces', piece.length + 63 < 4294967296)
    (hsame : pieces.flatten = pieces'.flatten) :
    sha1Vector pieces = .ok (Sha1.hash pieces.flatten) ∧
      sha1Vector pieces' = sha1Vector pieces := by
  rw [sha1Vector_hash hpieces, sha1Vector_hash hpieces', hsame]
  exact ⟨rfl, rfl⟩

/-- A message of three bytes, cut twice. -/
theorem sha1Vector_abc : sha1Vector [[97], [98, 99]] = .ok (Sha1.hash [97, 98, 99]) ∧
    sha1Vector [[97, 98], [99]] = sha1Vector [[97], [98, 99]] :=
  sha1Vector_eq (by decide) (by decide) rfl

end Blts.Wlan
