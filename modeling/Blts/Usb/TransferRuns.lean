import Mathlib.Algebra.Order.Ring.Nat
import Blts.Cli.Options

/-!
# Reading from and writing to an endpoint

`test_read_real` and `test_write_real` transfer data until a gigabyte has gone through or ten
seconds have passed.  One variable holds the size of the last transfer, the error of the last
transfer and the result, and `errno` is consulted in the end whether or not a call has failed.

A run is the list of the transfers that it makes.  A run in which everything goes well returns
the size of its last transfer, or the `errno` that something before it has left.
-/

namespace Blts.Usb.Transfer

/-- `MAX_XFER_SIZE`. -/
def maxXferSize : Int := 1073741824

def eio : Int := 5

def eoverflow : Nat := 75

/-- An error number. -/
abbrev Errno := { errno : Nat // 0 < errno }

/-- A number stored in an `unsigned`. -/
def toUnsigned (x : Int) : Nat := (x % 4294967296).toNat

/-- What has been transferred so far. -/
structure Progress where
  size : Nat
  left : Int
  dTot : Int
  errno : Nat

/-- A transfer with the result `ret` is counted. -/
def Progress.count (p : Progress) (ret : Int) : Progress :=
  let left := p.left - ret
  { p with
    left := left
    dTot := p.dTot + ret
    size := if left < Cli.toInt p.size then toUnsigned left else p.size }

@[simp] theorem Progress.count_errno (p : Progress) (ret : Int) :
    (p.count ret).errno = p.errno := by
  cases p
  rfl

@[simp] theorem Progress.count_dTot (p : Progress) (ret : Int) :
    (p.count ret).dTot = p.dTot + ret := by
  cases p
  rfl

/-- The result of the function, from `ret` on. -/
def exitCode (errno : Nat) (ret : Int) : Int :=
  if errno ≠ 0 ∧ ret ≠ 0 then -errno else ret

/-- The end of both functions, after the loop. -/
def finish (p : Progress) (ret : Int) : Int :=
  exitCode p.errno (if ret = 0 ∨ p.dTot = 0 then -eio else ret)

/-! ## Reading -/

/-- What a `read` comes back with, and whether ten seconds have passed then. -/
structure ReadTransfer where
  result : Except Errno (List UInt8)
  late : Bool

/-- The check of a whole frame, whatever has been read of it. -/
def frameConsistent (buf : List UInt8) (size : Nat) : Bool :=
  (List.range size).all fun i => buf[i]? = some (UInt8.ofNat (i % 63))

/-- The loop of `test_read_real`, which makes exactly these transfers. -/
def readLoop : List ReadTransfer → List UInt8 → Progress → Option Int
  | [], _, _ => none
  | t :: ts, buf, p =>
      match t.result with
      | .error errno => if ts.isEmpty then some (finish { p with errno := errno } (-1)) else none
      | .ok bytes =>
          if bytes.length ≤ p.size then
            let buf := bytes ++ buf.drop bytes.length
            if frameConsistent buf p.size then
              let p := p.count bytes.length
              if p.left = 0 ∨ t.late then
                if ts.isEmpty then some (finish p bytes.length) else none
              else readLoop ts buf p
            else if ts.isEmpty then some (exitCode p.errno (-1)) else none
          else none

/-- What `test_read_real` returns after exactly these transfers, with the `errno` that is
there before. -/
def testReadReal (size errno : Nat) (ts : List ReadTransfer) : Option Int :=
  readLoop ts (List.replicate size 0) ⟨size, maxXferSize, 0, errno⟩

/-- A transfer succeeds, and the bytes are those expected at their offsets. -/
def ReadTransfer.Right (t : ReadTransfer) : Prop :=
  ∃ bytes, t.result = .ok bytes ∧ ∀ i b, bytes[i]? = some b → b = UInt8.ofNat (i % 63)

/-- The number of bytes received. -/
def ReadTransfer.amount (t : ReadTransfer) : Nat :=
  match t.result with
  | .ok bytes => bytes.length
  | .error _ => 0

/-- Every transfer succeeds with the expected bytes, and there is at least one byte. -/
def ReadsWell (ts : List ReadTransfer) : Prop :=
  (∀ t ∈ ts, t.Right) ∧ 0 < (ts.map ReadTransfer.amount).sum

/-! ## Writing -/

/-- What a `write` comes back with, and whether ten seconds have passed then. -/
structure WriteTransfer where
  result : Except Errno Nat
  late : Bool

/-- The loop of `test_write_real`.  It goes on after an overflow, which is counted as -1. -/
def writeLoop : List WriteTransfer → Progress → Option Int
  | [], _ => none
  | t :: ts, p =>
      match t.result with
      | .error errno =>
          let p := { p with errno := errno }
          if errno.val = eoverflow then
            let p := p.count (-1)
            if p.left = 0 ∨ t.late then if ts.isEmpty then some (finish p (-1)) else none
            else writeLoop ts p
          else if ts.isEmpty then some (finish p (-1)) else none
      | .ok n =>
          if n ≤ p.size then
            let p := p.count n
            if p.left = 0 ∨ t.late then if ts.isEmpty then some (finish p n) else none
            else writeLoop ts p
          else none

def testWriteReal (size errno : Nat) (ts : List WriteTransfer) : Option Int :=
  writeLoop ts ⟨size, maxXferSize, 0, errno⟩

def WriteTransfer.amount (t : WriteTransfer) : Nat :=
  match t.result with
  | .ok n => n
  | .error _ => 0

/-- Every transfer succeeds, and there is at least one byte. -/
def WritesWell (ts : List WriteTransfer) : Prop :=
  (∀ t ∈ ts, ∃ n, t.result = .ok n) ∧ 0 < (ts.map WriteTransfer.amount).sum

/-! ## The result -/

/-- The result says whether all went well: 0 if it did, else a negative number. -/
def Tells (well : Prop) (ret : Int) : Prop :=
  (well → ret = 0) ∧ (¬well → ret < 0)

theorem exitCode_ne_zero {errno : Nat} {ret : Int} (h : ret ≠ 0) : exitCode errno ret ≠ 0 := by
  unfold exitCode
  by_cases herrno : errno = 0
  · rw [if_neg fun h' => h'.1 herrno]
    exact h
  · rw [if_pos ⟨herrno, h⟩]
    omega

theorem exitCode_neg {errno : Nat} {ret : Int} (h : ret ≠ 0) (hneg : errno ≠ 0 ∨ ret < 0) :
    exitCode errno ret < 0 := by
  unfold exitCode
  by_cases herrno : errno = 0
  · rw [if_neg fun h' => h'.1 herrno]
    exact hneg.resolve_left fun h' => h' herrno
  · rw [if_pos ⟨herrno, h⟩]
    omega

theorem finish_ne_zero (p : Progress) (ret : Int) : finish p ret ≠ 0 := by
  unfold finish
  refine exitCode_ne_zero ?_
  by_cases h : ret = 0 ∨ p.dTot = 0
  · rw [if_pos h]
    decide
  · rw [if_neg h]
    exact fun h' => h (.inl h')

/-- The result is negative with an `errno`, without a byte, or after a failure. -/
theorem finish_neg {p : Progress} {ret : Int} (h : p.errno ≠ 0 ∨ p.dTot = 0 ∨ ret < 0) :
    finish p ret < 0 := by
  unfold finish
  by_cases hzero : ret = 0 ∨ p.dTot = 0
  · rw [if_pos hzero]
    exact exitCode_neg (by decide) (.inr (by decide))
  · rw [if_neg hzero]
    refine exitCode_neg (fun h' => hzero (.inl h')) ?_
    rcases h with h | h | h
    · exact .inl h
    · exact absurd (.inr h) hzero
    · exact .inr h

theorem right_of_consistent {bytes rest : List UInt8} {size : Nat} (hle : bytes.length ≤ size)
    (h : frameConsistent (bytes ++ rest) size = true) (i : Nat) (b : UInt8)
    (hb : bytes[i]? = some b) : b = UInt8.ofNat (i % 63) := by
  obtain ⟨hi, -⟩ := List.getElem?_eq_some_iff.mp hb
  have hall := List.all_eq_true.mp h i (List.mem_range.mpr (by omega))
  rw [List.getElem?_append_left hi, hb] at hall
  exact Option.some.inj (of_decide_eq_true hall)

/-- A run of reads never returns 0, and returns a negative number if one of them is not right
or nothing has come in. -/
theorem readLoop_ret {ts : List ReadTransfer} {ret : Int} :
    ∀ {buf : List UInt8} {p : Progress}, readLoop ts buf p = some ret → ret ≠ 0 ∧
      ((¬∀ t ∈ ts, t.Right) ∨ p.dTot + ((ts.map ReadTransfer.amount).sum : Nat) = 0 →
        ret < 0) := by
  induction ts with
  | nil =>
      intro buf p h
      cases h
  | cons t ts ih =>
      intro buf p h
      cases hres : t.result with
      | error errno =>
          simp only [readLoop, hres, List.isEmpty_iff] at h
          obtain ⟨-, h⟩ := Option.ite_none_right_eq_some.mp h
          cases h
          exact ⟨finish_ne_zero _ _, fun _ => finish_neg (.inr (.inr (by decide)))⟩
      | ok bytes =>
          simp only [readLoop, hres, List.isEmpty_iff] at h
          obtain ⟨hlen, h⟩ := Option.ite_none_right_eq_some.mp h
          by_cases hcons : frameConsistent (bytes ++ buf.drop bytes.length) p.size = true
          · rw [if_pos hcons] at h
            have hright : t.Right := ⟨bytes, hres, right_of_consistent hlen hcons⟩
            have hamount : t.amount = bytes.length := by
              simp only [ReadTransfer.amount, hres]
            by_cases hend : (p.count bytes.length).left = 0 ∨ t.late = true
            · rw [if_pos hend] at h
              obtain ⟨hnil, h⟩ := Option.ite_none_right_eq_some.mp h
              cases h
              refine ⟨finish_ne_zero _ _, fun hbad => finish_neg (.inr (.inl ?_))⟩
              rw [hnil] at hbad
              rcases hbad with hbad | hzero
              · exact absurd (List.forall_mem_singleton.mpr hright) hbad
              · rw [List.map_singleton, List.sum_singleton, hamount] at hzero
                exact hzero
            · rw [if_neg hend] at h
              obtain ⟨hne, hneg⟩ := ih h
              refine ⟨hne, fun hbad => hneg ?_⟩
              rw [List.forall_mem_cons, List.map_cons, List.sum_cons, hamount] at hbad
              rcases hbad with hbad | hzero
              · exact .inl fun h' => hbad ⟨hright, h'⟩
              · right
                rw [Progress.count_dTot]
                omega
          · rw [if_neg hcons] at h
            obtain ⟨-, h⟩ := Option.ite_none_right_eq_some.mp h
            cases h
            exact ⟨exitCode_ne_zero (by decide),
              fun _ => exitCode_neg (by decide) (.inr (by decide))⟩

/-- A run of writes never returns 0, and returns a negative number if there is an `errno`, if
one of them fails or if nothing has gone out. -/
theorem writeLoop_ret {ts : List WriteTransfer} {ret : Int} :
    ∀ {p : Progress}, writeLoop ts p = some ret → ret ≠ 0 ∧
      (p.errno ≠ 0 ∨ (¬∀ t ∈ ts, ∃ n, t.result = .ok n) ∨
        p.dTot + ((ts.map WriteTransfer.amount).sum : Nat) = 0 → ret < 0) := by
  induction ts with
  | nil =>
      intro p h
      cases h
  | cons t ts ih =>
      intro p h
      cases hres : t.result with
      | error errno =>
          have herrno : errno.val ≠ 0 := Nat.ne_of_gt errno.property
          simp only [writeLoop, hres, List.isEmpty_iff] at h
          by_cases hover : errno.val = eoverflow
          · rw [if_pos hover] at h
            by_cases hend : (Progress.count { p with errno := errno } (-1)).left = 0 ∨
                t.late = true
            · rw [if_pos hend] at h
              obtain ⟨-, h⟩ := Option.ite_none_right_eq_some.mp h
              cases h
              exact ⟨finish_ne_zero _ _, fun _ => finish_neg (.inl herrno)⟩
            · rw [if_neg hend] at h
              obtain ⟨hne, hneg⟩ := ih h
              -- the `errno` of the overflow stays
              exact ⟨hne, fun _ => hneg (.inl herrno)⟩
          · rw [if_neg hover] at h
            obtain ⟨-, h⟩ := Option.ite_none_right_eq_some.mp h
            cases h
            exact ⟨finish_ne_zero _ _, fun _ => finish_neg (.inl herrno)⟩
      | ok n =>
          simp only [writeLoop, hres, List.isEmpty_iff] at h
          obtain ⟨-, h⟩ := Option.ite_none_right_eq_some.mp h
          have hamount : t.amount = n := by
            simp only [WriteTransfer.amount, hres]
          by_cases hend : (p.count n).left = 0 ∨ t.late = true
          · rw [if_pos hend] at h
            obtain ⟨hnil, h⟩ := Option.ite_none_right_eq_some.mp h
            cases h
            refine ⟨finish_ne_zero _ _, fun hbad => finish_neg ?_⟩
            rw [hnil] at hbad
            rcases hbad with hbad | hbad | hzero
            · left
              rw [Progress.count_errno]
              exact hbad
            · exact absurd (List.forall_mem_singleton.mpr ⟨n, hres⟩) hbad
            · rw [List.map_singleton, List.sum_singleton, hamount] at hzero
              exact .inr (.inl hzero)
          · rw [if_neg hend] at h
            obtain ⟨hne, hneg⟩ := ih h
            refine ⟨hne, fun hbad => hneg ?_⟩
            rw [List.forall_mem_cons, List.map_cons, List.sum_cons, hamount] at hbad
            rcases hbad with hbad | hbad | hzero
            · left
              rw [Progress.count_errno]
              exact hbad
            · exact .inr (.inl fun h' => hbad ⟨⟨n, hres⟩, h'⟩)
            · right
              right
              rw [Progress.count_dTot]
              omega

/--
**The result of a run.**  The result of a run of reads, and of one of writes, says whether all
went well exactly where it did not: a run in which every transfer succeeds never returns 0.
-/
theorem tells_iff_not_well (size errno : Nat) :
    (∀ ts ret, testReadReal size errno ts = some ret →
      (Tells (ReadsWell ts) ret ↔ ¬ReadsWell ts)) ∧
    (∀ ts ret, testWriteReal size errno ts = some ret →
      (Tells (WritesWell ts) ret ↔ ¬WritesWell ts)) := by
  constructor
  · intro ts ret h
    obtain ⟨hne, hneg⟩ := readLoop_ret h
    refine ⟨fun htells hwell => hne (htells.1 hwell), fun hbad => ⟨fun h => absurd h hbad, fun _ =>
      hneg ?_⟩⟩
    rcases not_and_or.mp hbad with hright | hsum
    · exact .inl hright
    · right
      show (0 : Int) + _ = 0
      omega
  · intro ts ret h
    obtain ⟨hne, hneg⟩ := writeLoop_ret h
    refine ⟨fun htells hwell => hne (htells.1 hwell), fun hbad => ⟨fun h => absurd h hbad, fun _ =>
      hneg (.inr ?_)⟩⟩
    rcases not_and_or.mp hbad with hright | hsum
    · exact .inl hright
    · right
      show (0 : Int) + _ = 0
      omega

/-- One read of four bytes, as expected, after which the time is up. -/
def fourBytes : List ReadTransfer := [⟨.ok [0, 1, 2, 3], true⟩]

theorem fourBytes_well : ReadsWell fourBytes := by
  refine ⟨List.forall_mem_singleton.mpr ⟨_, rfl, ?_⟩, by decide⟩
  intro i b hb
  obtain ⟨hi, rfl⟩ := List.getElem?_eq_some_iff.mp hb
  revert hi
  revert i
  decide

/-- The result is the size of the transfer, and with an `errno` from before it is that. -/
theorem fourBytes_not_told :
    ¬(∀ size errno ts ret, testReadReal size errno ts = some ret → Tells (ReadsWell ts) ret) ∧
      testReadReal 4 0 fourBytes = some 4 ∧ testReadReal 4 25 fourBytes = some (-25) := by
  refine ⟨fun h => ?_, by decide, by decide⟩
  have hzero := (h 4 0 fourBytes 4 (by decide)).1 fourBytes_well
  exact absurd hzero (by decide)

end Blts.Usb.Transfer
