import Mathlib.Data.List.Basic

/-!
# Reading packed records from a block of bytes

A block is a list of bytes, and a read that goes past its end stops the computation with the
error `past`.  What a computation needs of the block is worked out from its end to its start:
`Returns` moves over each step, and leaves a bound on the length of the block and a condition
on the bytes that the later steps depend on.
-/

namespace Blts.Lib

variable {ε α β : Type}

/-! ## Computations that return -/

/-- The computation comes to its end, with a result that has the property. -/
def Returns (x : Except ε α) (post : α → Prop) : Prop :=
  ∃ a, x = .ok a ∧ post a

@[simp] theorem returns_ok {a : α} {post : α → Prop} :
    Returns (.ok a : Except ε α) post ↔ post a := by
  constructor
  · rintro ⟨b, hb, hpost⟩
    cases hb
    exact hpost
  · intro ha
    exact ⟨a, rfl, ha⟩

@[simp] theorem returns_pure {a : α} {post : α → Prop} :
    Returns (pure a : Except ε α) post ↔ post a := returns_ok

@[simp] theorem not_returns_error {e : ε} {post : α → Prop} :
    ¬ Returns (.error e : Except ε α) post := by
  rintro ⟨_, h, _⟩
  cases h

@[simp] theorem returns_bind {x : Except ε α} {f : α → Except ε β} {post : β → Prop} :
    Returns (x >>= f) post ↔ Returns x fun a => Returns (f a) post := by
  cases x with
  | error e => exact ⟨fun h => absurd h not_returns_error, fun h => absurd h not_returns_error⟩
  | ok a =>
      rw [returns_ok]
      rfl

@[simp] theorem returns_map {x : Except ε α} {f : α → β} {post : β → Prop} :
    Returns (f <$> x) post ↔ Returns x fun a => post (f a) := by
  cases x with
  | error e => exact ⟨fun h => absurd h not_returns_error, fun h => absurd h not_returns_error⟩
  | ok a =>
      rw [returns_ok]
      exact returns_ok

@[simp] theorem returns_ite {c : Prop} [Decidable c] {x y : Except ε α} {post : α → Prop} :
    Returns (if c then x else y) post ↔ (c → Returns x post) ∧ (¬ c → Returns y post) := by
  by_cases hc : c
  · simp [hc]
  · simp [hc]

/-- **A loop** that appends `n` values to a buffer for each element comes to its end if every lap
does. -/
theorem returns_foldlM_append {f : List β → α → Except ε (List β)} {P : α → Prop}
    {v : α → List β} {n size : Nat} {l : List α} (hlen : ∀ a ∈ l, (v a).length = n)
    (hstep : ∀ a ∈ l, ∀ out, out.length + n ≤ size → ∀ post : List β → Prop,
      Returns (f out a) post ↔ P a ∧ post (out ++ v a))
    {out : List β} (hfit : out.length + n * l.length ≤ size) (post : List β → Prop) :
    Returns (l.foldlM f out) post ↔ (∀ a ∈ l, P a) ∧ post (out ++ l.flatMap v) := by
  induction l generalizing out with
  | nil =>
      rw [List.foldlM_nil, List.flatMap_nil, List.append_nil, returns_pure]
      exact (and_iff_right (List.forall_mem_nil P)).symm
  | cons a l ih =>
      obtain ⟨hlenHead, hlenTail⟩ := List.forall_mem_cons.mp hlen
      obtain ⟨hhead, htail⟩ := List.forall_mem_cons.mp hstep
      rw [List.length_cons, Nat.mul_succ] at hfit
      have hrest : (out ++ v a).length + n * l.length ≤ size := by
        rw [List.length_append, hlenHead]
        omega
      rw [List.foldlM_cons, returns_bind, hhead out (by omega), ih hlenTail htail hrest,
        List.forall_mem_cons, List.flatMap_cons, List.append_assoc, and_assoc]

theorem isOk_iff_returns {x : Except ε α} : x.isOk = true ↔ Returns x fun _ => True := by
  cases x with
  | error e => exact ⟨fun h => absurd h Bool.false_ne_true, fun h => absurd h not_returns_error⟩
  | ok a => exact ⟨fun _ => ⟨a, rfl, trivial⟩, fun _ => rfl⟩

/-! ## Bytes -/

/-- The byte at a place of the block, where that is taken to be in the block. -/
def byte (block : List UInt8) (o : Nat) : Nat := (block.getD o 0).toNat

/-- The byte at a place of the block. -/
def byteAt (past : ε) (block : List UInt8) (o : Nat) : Except ε Nat :=
  if o < block.length then .ok (byte block o) else .error past

/-- `n` bytes of the block. -/
def bytesAt (past : ε) (block : List UInt8) (o n : Nat) : Except ε (List UInt8) :=
  if o + n ≤ block.length then .ok ((block.drop o).take n) else .error past

@[simp] theorem returns_byteAt {past : ε} {block : List UInt8} {o : Nat} {post : Nat → Prop} :
    Returns (byteAt past block o) post ↔ o < block.length ∧ post (byte block o) := by
  unfold byteAt
  by_cases h : o < block.length
  · simp [h]
  · simp [h]

@[simp] theorem returns_bytesAt {past : ε} {block : List UInt8} {o n : Nat}
    {post : List UInt8 → Prop} :
    Returns (bytesAt past block o n) post ↔
      o + n ≤ block.length ∧ post ((block.drop o).take n) := by
  unfold bytesAt
  by_cases h : o + n ≤ block.length
  · simp [h]
  · simp [h]

/-- Read a string up to the byte 0 that ends it. -/
def readString (past : ε) : List UInt8 → Except ε Unit
  | [] => .error past
  | b :: bs => if b = 0 then .ok () else readString past bs

@[simp] theorem returns_readString {past : ε} {bs : List UInt8} {post : Unit → Prop} :
    Returns (readString past bs) post ↔ 0 ∈ bs ∧ post () := by
  induction bs with
  | nil => simp [readString]
  | cons b bs ih =>
      rw [readString, returns_ite, returns_ok, ih, List.mem_cons]
      by_cases hb : b = 0
      · simp [hb]
      · simp [hb, Ne.symm hb]

/-! ## Records -/

/-- A field of a packed record: where it starts in the record, and how many bytes it has. -/
structure Field where
  offset : Nat
  size : Nat
  deriving DecidableEq

/-- Where the last of the fields ends, if the record starts at `start`. -/
def fieldsEnd (start : Nat) : List Field → Nat
  | [] => 0
  | f :: fs => max (start + f.offset + f.size) (fieldsEnd start fs)

/-- Read the fields of a record that starts at `start`. -/
def readFields (past : ε) (block : List UInt8) (start : Nat) : List Field → Except ε Unit
  | [] => .ok ()
  | f :: fs => do
      let _ ← bytesAt past block (start + f.offset) f.size
      readFields past block start fs

/-- Read the fields of `n` records of one size that follow each other. -/
def readRecords (past : ε) (block : List UInt8) (start size : Nat) (fs : List Field) :
    Nat → Except ε Unit
  | 0 => .ok ()
  | n + 1 => do
      readRecords past block start size fs n
      readFields past block (start + n * size) fs

@[simp] theorem returns_readFields {past : ε} {block : List UInt8} {start : Nat}
    {fs : List Field} {post : Unit → Prop} :
    Returns (readFields past block start fs) post ↔
      fieldsEnd start fs ≤ block.length ∧ post () := by
  induction fs with
  | nil => simp [readFields, fieldsEnd]
  | cons f fs ih =>
      rw [readFields, returns_bind, returns_bytesAt, ih, fieldsEnd, Nat.max_le, and_assoc]

theorem fieldsEnd_mono {start start' : Nat} (h : start ≤ start') (fs : List Field) :
    fieldsEnd start fs ≤ fieldsEnd start' fs := by
  induction fs with
  | nil => exact Nat.le_refl 0
  | cons f fs ih =>
      rw [fieldsEnd, fieldsEnd]
      omega

/-- Of records that follow each other the last one reaches farthest. -/
theorem returns_readRecords {past : ε} {block : List UInt8} {start size : Nat}
    {fs : List Field} {n : Nat} {post : Unit → Prop} :
    Returns (readRecords past block start size fs n) post ↔
      (0 < n → fieldsEnd (start + (n - 1) * size) fs ≤ block.length) ∧ post () := by
  induction n generalizing post with
  | zero => simp [readRecords]
  | succ n ih =>
      have hbefore : fieldsEnd (start + (n - 1) * size) fs ≤ fieldsEnd (start + n * size) fs :=
        fieldsEnd_mono (Nat.add_le_add_left (Nat.mul_le_mul_right _ (Nat.sub_le _ _)) _) _
      rw [readRecords, returns_bind, ih, returns_readFields, Nat.add_sub_cancel]
      constructor
      · rintro ⟨-, hlast, hpost⟩
        exact ⟨fun _ => hlast, hpost⟩
      · rintro ⟨hlast, hpost⟩
        exact ⟨fun _ => Nat.le_trans hbefore (hlast (Nat.succ_pos n)), hlast (Nat.succ_pos n),
          hpost⟩

theorem fieldsEnd_eq_add {fs : List Field} (hfs : fs ≠ []) (start : Nat) :
    fieldsEnd start fs = start + fieldsEnd 0 fs := by
  induction fs with
  | nil => exact absurd rfl hfs
  | cons f fs ih =>
      rw [fieldsEnd, fieldsEnd]
      cases fs with
      | nil =>
          rw [fieldsEnd, fieldsEnd]
          omega
      | cons g fs =>
          rw [ih (List.cons_ne_nil g fs)]
          omega

/-- Records whose last field ends with them take up `n * size` bytes. -/
theorem returns_readRecords_of_full {past : ε} {block : List UInt8} {start size : Nat}
    {fs : List Field} (hfs : fs ≠ []) (hfull : fieldsEnd 0 fs = size) {n : Nat}
    {post : Unit → Prop} (hstart : start ≤ block.length) :
    Returns (readRecords past block start size fs n) post ↔
      start + n * size ≤ block.length ∧ post () := by
  rw [returns_readRecords]
  cases n with
  | zero => simp [hstart]
  | succ n =>
      rw [Nat.add_sub_cancel, fieldsEnd_eq_add hfs, hfull, Nat.add_assoc, ← Nat.succ_mul]
      simp

end Blts.Lib
