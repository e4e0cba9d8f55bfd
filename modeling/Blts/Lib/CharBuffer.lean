import Mathlib.Algebra.Order.Ring.Nat
import Mathlib.Data.List.Basic

/-!
# Buffers of characters

A buffer is a row of cells, and a cell that nobody has written holds nothing.  Writing past the
end and reading such a cell have no result.  A string ends at the first NUL; `snprintf` cuts a text
off so that it fits with its NUL.
-/

namespace Blts.Lib

/-- The cells of a buffer. -/
abbrev CharBuffer := List (Option Char)

/-- A string of C: no NUL is among its characters. -/
structure CString where
  chars : List Char
  noNul : '\x00' ∉ chars

/-- A number in decimal, with zeros before it up to a width. -/
def decimal (width n : Nat) : List Char :=
  (Nat.toDigits 10 n).leftpad width '0'

namespace CharBuffer

/-- The characters are written one after the other, the first at `i`. -/
def write (b : CharBuffer) (i : Nat) : List Char → Option CharBuffer
  | [] => some b
  | c :: s => if i < b.length then write (b.set i (some c)) (i + 1) s else none

/-- The string at the start of the cells. -/
def read : CharBuffer → Option (List Char)
  | some c :: b => if c = '\x00' then some [] else (read b).map (c :: ·)
  | _ => none

/-- The number of characters before the first NUL. -/
def strlen (b : CharBuffer) : Option Nat :=
  (read b).map List.length

/-- The text with its NUL, without a bound. -/
def sprintf (b : CharBuffer) (i : Nat) (text : List Char) : Option CharBuffer :=
  b.write i (text ++ ['\x00'])

/-- As much of the text as a size leaves room for with its NUL. -/
def snprintf (b : CharBuffer) (i size : Nat) (text : List Char) : Option CharBuffer :=
  if size = 0 then some b else b.sprintf i (text.take (size - 1))

/-- The first cells hold these characters. -/
def StartsWith (b : CharBuffer) (s : List Char) : Prop :=
  s.map some <+: b

/-- The buffer starts with a string. -/
def Holds (b : CharBuffer) (s : List Char) : Prop :=
  '\x00' ∉ s ∧ b.StartsWith (s ++ ['\x00'])

/-- What is written takes the place of as many cells. -/
theorem write_append (start rest : CharBuffer) (s : List Char) (h : s.length ≤ rest.length) :
    write (start ++ rest) start.length s = some (start ++ (s.map some ++ rest.drop s.length)) := by
  induction s generalizing start rest with
  | nil => rfl
  | cons c s ih =>
      cases rest with
      | nil => cases h
      | cons o rest =>
          have hset : (start ++ o :: rest).set start.length (some c) =
              (start ++ [some c]) ++ rest := by
            rw [List.set_append_right _ _ (Nat.le_refl _), Nat.sub_self, List.append_assoc]
            rfl
          have hnext := ih (start ++ [some c]) rest (Nat.le_of_succ_le_succ h)
          rw [List.length_append, List.append_assoc, List.append_assoc] at hnext
          have hlt : start.length < (start ++ o :: rest).length := by
            rw [List.length_append, List.length_cons]
            omega
          rw [write, if_pos hlt, hset, List.append_assoc]
          exact hnext

theorem StartsWith.left {b : CharBuffer} {s text : List Char} (h : b.StartsWith (s ++ text)) :
    b.StartsWith s :=
  List.IsPrefix.trans (List.map_append ▸ List.prefix_append _ _) h

/-- The first characters and what is written behind them. -/
theorem StartsWith.write_eq {b : CharBuffer} {s text : List Char} (h : b.StartsWith s)
    (hfits : s.length + text.length ≤ b.length) :
    ∃ b', b.write s.length text = some b' ∧ b'.StartsWith (s ++ text) ∧
      b'.length = b.length := by
  obtain ⟨rest, rfl⟩ := h
  rw [List.length_append, List.length_map] at hfits
  have hwrite := write_append (s.map some) rest text (by omega)
  rw [List.length_map] at hwrite
  refine ⟨_, hwrite, ⟨rest.drop text.length, ?_⟩, ?_⟩
  · rw [List.map_append, List.append_assoc]
  · rw [List.length_append, List.length_append, List.length_append, List.length_map,
      List.length_map, List.length_drop]
    omega

theorem read_append {s : List Char} (h : '\x00' ∉ s) (rest : CharBuffer) :
    read (s.map some ++ some '\x00' :: rest) = some s := by
  induction s with
  | nil => rfl
  | cons c s ih =>
      rw [List.mem_cons, not_or] at h
      rw [List.map_cons, List.cons_append, read, if_neg (Ne.symm h.1), ih h.2]
      rfl

theorem Holds.read_eq {b : CharBuffer} {s : List Char} (h : b.Holds s) : b.read = some s := by
  obtain ⟨hnul, rest, rfl⟩ := h
  rw [List.map_append, List.append_assoc]
  exact read_append hnul rest

theorem Holds.strlen_eq {b : CharBuffer} {s : List Char} (h : b.Holds s) :
    b.strlen = some s.length := by
  rw [strlen, h.read_eq, Option.map_some]

/-- A text written behind the first characters makes a string with them. -/
theorem StartsWith.sprintf_eq {b : CharBuffer} {s text : List Char} (h : b.StartsWith s)
    (hnul : '\x00' ∉ s ++ text) (hfits : s.length + text.length < b.length) :
    ∃ b', b.sprintf s.length text = some b' ∧ b'.Holds (s ++ text) ∧ b'.length = b.length := by
  have hlast : (text ++ ['\x00']).length = text.length + 1 := by
    rw [List.length_append, List.length_singleton]
  have hroom : s.length + (text ++ ['\x00']).length ≤ b.length := by omega
  obtain ⟨b', hwrite, hstarts, hlength⟩ := h.write_eq hroom
  rw [← List.append_assoc] at hstarts
  exact ⟨b', hwrite, ⟨hnul, hstarts⟩, hlength⟩

/-- `snprintf` appends what there is room for. -/
theorem Holds.snprintf_eq {b : CharBuffer} {s text : List Char} {size : Nat} (h : b.Holds s)
    (hnul : '\x00' ∉ text) (hsize : 0 < size) (hfits : s.length + size ≤ b.length) :
    ∃ b', b.snprintf s.length size text = some b' ∧ b'.Holds (s ++ text.take (size - 1)) ∧
      b'.length = b.length := by
  have hlength : (text.take (size - 1)).length ≤ size - 1 := List.length_take_le _ _
  have hboth : '\x00' ∉ s ++ text.take (size - 1) := by
    rw [List.mem_append, not_or]
    exact ⟨h.1, fun hmem => hnul (List.mem_of_mem_take hmem)⟩
  rw [snprintf, if_neg (Nat.ne_of_gt hsize)]
  exact h.2.left.sprintf_eq hboth (by omega)

end CharBuffer

/-- No digit is a NUL. -/
theorem noNul_decimal (width n : Nat) : '\x00' ∉ decimal width n := by
  unfold decimal List.leftpad
  rw [List.mem_append, not_or]
  refine ⟨fun hmem => ?_, fun hmem => ?_⟩
  · cases (List.mem_replicate.mp hmem).2
  · have hdigit := Nat.isDigit_of_mem_toDigits (by decide) (by decide) hmem
    exact absurd hdigit (by decide)

/-- A number of few digits is not wider than the width it is given. -/
theorem length_decimal_le {width k n : Nat} (hwidth : width ≤ k) (hk : 0 < k) (hn : n < 10 ^ k) :
    (decimal width n).length ≤ k := by
  rw [decimal, List.length_leftpad]
  exact Nat.max_le.mpr ⟨hwidth, (Nat.length_toDigits_le_iff (by decide) hk).mpr hn⟩

end Blts.Lib
