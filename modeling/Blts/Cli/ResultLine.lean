import Blts.Lib.CharBuffer

/-!
# The line of `print_test_case_result`

The line is put together in a buffer of one character more than it has: a label of at most 34
characters, as much of the name of the case as leaves room for the verdict, and dots from there
to the verdict.  Whatever the names and the numbers are, nothing is written outside the buffer and
the line has the same length (`printTestCaseResult_eq`).
-/

namespace Blts.Cli

open Lib Lib.CharBuffer

/-- `MAX_LOG_LINE_LEN` -/
def maxLogLineLen : Nat := 89

/-- `passed_txt` -/
def passedTxt : List Char := "[\x1b[32mPASSED\x1b[0m]".toList

/-- `failed_txt` -/
def failedTxt : List Char := "[\x1b[31mFAILED\x1b[0m]".toList

/-- A difference of two values of `size_t`; one below zero would wrap around. -/
def sizeSub (a b : Nat) : Option Nat :=
  if b ≤ a then some (a - b) else none

/-- The three formats of the label. -/
def resultLabel (binName : CString) (testNum varNum : Int) : List Char :=
  if 0 ≤ testNum ∧ 0 ≤ varNum then
    binName.chars ++ '-' :: decimal 3 testNum.toNat ++ '-' :: decimal 3 varNum.toNat ++ [':', ' ']
  else if 0 ≤ testNum then
    binName.chars ++ '-' :: decimal 3 testNum.toNat ++ ":     ".toList
  else
    binName.chars ++ ":         ".toList

/-- The verdict at the end of the line. -/
def writeVerdict (logLine : CharBuffer) (result : Int) : Option CharBuffer :=
  if result ≠ 0 then do
    let start ← sizeSub maxLogLineLen failedTxt.length
    logLine.sprintf start failedTxt
  else do
    let start ← sizeSub maxLogLineLen passedTxt.length
    logLine.sprintf start passedTxt

/-- `print_test_case_result`: what it prints.  The cells of `log_line` are not written yet. -/
def printTestCaseResult (manualExecution : Bool) (binName caseName : CString)
    (testNum varNum result : Int) : Option (List Char) :=
  if manualExecution then
    some []
  else do
    let logLine : CharBuffer := List.replicate (maxLogLineLen + 1) none
    let logLine ← logLine.write 0 ['\x00']
    let len ← logLine.strlen
    let logLine ← logLine.snprintf len 35 (resultLabel binName testNum varNum)
    let len ← logLine.strlen
    let size ← sizeSub maxLogLineLen len
    let size ← sizeSub size passedTxt.length
    let logLine ← logLine.snprintf len size caseName.chars
    let len ← logLine.strlen
    let size ← sizeSub maxLogLineLen len
    let logLine ← logLine.write len (List.replicate size '.')
    let logLine ← writeVerdict logLine result
    let line ← logLine.read
    return line ++ ['\n']

/-- The verdict that corresponds to a result. -/
def verdictTxt (result : Int) : List Char :=
  if result ≠ 0 then failedTxt else passedTxt

/-- A line for a result: the label, the name of the case, dots, and the verdict. -/
structure ResultLine (binName caseName : CString) (testNum varNum result : Int)
    (line : List Char) : Prop where
  length : line.length = maxLogLineLen
  text : ∃ label name dots, label <+: resultLabel binName testNum varNum ∧
    name <+: caseName.chars ∧ 0 < dots ∧
    line = label ++ name ++ List.replicate dots '.' ++ verdictTxt result
  whole : (resultLabel binName testNum varNum).length ≤ 34 →
    (resultLabel binName testNum varNum ++ caseName.chars).length ≤ 71 →
    resultLabel binName testNum varNum ++ caseName.chars <+: line

@[simp] theorem length_verdictTxt (result : Int) : (verdictTxt result).length = 17 := by
  unfold verdictTxt
  split <;> rfl

theorem noNul_verdictTxt (result : Int) : '\x00' ∉ verdictTxt result := by
  unfold verdictTxt
  split <;> decide

theorem noNul_resultLabel (binName : CString) (testNum varNum : Int) :
    '\x00' ∉ resultLabel binName testNum varNum := by
  have htest := noNul_decimal 3 testNum.toNat
  have hvar := noNul_decimal 3 varNum.toNat
  have hbin := binName.noNul
  unfold resultLabel
  split
  · simp [htest, hvar, hbin]
  · split
    · simp [htest, hbin]
    · simp [hbin]

/-- The dots are written over the NUL and over what is behind it, and the verdict over the
last of them. -/
theorem verdict_over_dots {b : CharBuffer} {s verdict : List Char} {room : Nat} (h : b.Holds s)
    (hlength : b.length = room + verdict.length + 1) (hroom : s.length ≤ room)
    (hnul : '\x00' ∉ verdict) :
    ∃ b' b'', b.write s.length (List.replicate (room + verdict.length - s.length) '.') = some b' ∧
      b'.sprintf room verdict = some b'' ∧
      b''.read = some (s ++ List.replicate (room - s.length) '.' ++ verdict) := by
  have hsplit : List.replicate (room + verdict.length - s.length) '.' =
      List.replicate (room - s.length) '.' ++ List.replicate verdict.length '.' := by
    rw [List.replicate_append_replicate]
    congr 1
    omega
  have hfits : s.length + (List.replicate (room + verdict.length - s.length) '.').length ≤
      b.length := by
    rw [List.length_replicate]
    omega
  obtain ⟨b', hdots, hstarts, hlen⟩ := h.2.left.write_eq hfits
  rw [hsplit, ← List.append_assoc] at hstarts
  have hat : (s ++ List.replicate (room - s.length) '.').length = room := by
    rw [List.length_append, List.length_replicate]
    omega
  have hline : '\x00' ∉ s ++ List.replicate (room - s.length) '.' ++ verdict := by
    have hdot : '\x00' ∉ List.replicate (room - s.length) '.' := fun hmem => by
      cases (List.mem_replicate.mp hmem).2
    rw [List.mem_append, List.mem_append, not_or, not_or]
    exact ⟨⟨h.1, hdot⟩, hnul⟩
  obtain ⟨b'', hverdict, hholds, -⟩ := hstarts.left.sprintf_eq hline (by omega)
  rw [hat] at hverdict
  exact ⟨b', b'', hdots, hverdict, hholds.read_eq⟩

theorem writeVerdict_eq (b : CharBuffer) (result : Int) :
    writeVerdict b result = b.sprintf 72 (verdictTxt result) := by
  rw [writeVerdict, verdictTxt]
  split <;> rfl

section

variable (binName caseName : CString) (testNum varNum result : Int)

/-- What there is room for of the label. -/
def labelPart : List Char :=
  (resultLabel binName testNum varNum).take 34

/-- What there is room for of the name between the label and the verdict. -/
def namePart : List Char :=
  caseName.chars.take (71 - (labelPart binName testNum varNum).length)

theorem length_labelPart : (labelPart binName testNum varNum).length ≤ 34 :=
  List.length_take_le _ _

theorem length_named :
    (labelPart binName testNum varNum ++ namePart binName caseName testNum varNum).length ≤ 71 := by
  have hlabel := length_labelPart binName testNum varNum
  have hname : (namePart binName caseName testNum varNum).length ≤
      71 - (labelPart binName testNum varNum).length := List.length_take_le _ _
  rw [List.length_append]
  omega

/-- The line with the parts that there is room for. -/
def lineOfParts : List Char :=
  labelPart binName testNum varNum ++ namePart binName caseName testNum varNum ++
    List.replicate (72 - (labelPart binName testNum varNum ++
      namePart binName caseName testNum varNum).length) '.' ++ verdictTxt result

theorem lineOfParts_resultLine : ResultLine binName caseName testNum varNum result
    (lineOfParts binName caseName testNum varNum result) := by
  have hnamed := length_named binName caseName testNum varNum
  refine ⟨?_, ⟨_, _, _, List.take_prefix _ _, List.take_prefix _ _, by omega, rfl⟩, ?_⟩
  · rw [lineOfParts, List.length_append, List.length_append, List.length_replicate,
      length_verdictTxt, maxLogLineLen]
    omega
  · intro hlabelFits hfits
    have hlabel : labelPart binName testNum varNum = resultLabel binName testNum varNum :=
      List.take_of_length_le hlabelFits
    have hname : namePart binName caseName testNum varNum = caseName.chars := by
      rw [List.length_append, ← hlabel] at hfits
      exact List.take_of_length_le (by omega)
    rw [lineOfParts, hlabel, hname, List.append_assoc (_ ++ _)]
    exact List.prefix_append _ _

/-- Each write stays inside the buffer, each difference of sizes is one, and each string ends
inside the buffer. -/
theorem printTestCaseResult_lineOfParts :
    printTestCaseResult false binName caseName testNum varNum result =
      some (lineOfParts binName caseName testNum varNum result ++ ['\n']) := by
  have hlabel := length_labelPart binName testNum varNum
  have hnamed := length_named binName caseName testNum varNum
  obtain ⟨b, hempty, hb, hlen⟩ : ∃ b : CharBuffer,
      CharBuffer.write (List.replicate (maxLogLineLen + 1) none) 0 ['\x00'] = some b ∧
        b.Holds [] ∧ b.length = 90 :=
    @StartsWith.sprintf_eq _ [] [] List.nil_prefix (by decide) (by decide)
  obtain ⟨b₁, hfirst, hb₁, hlen₁⟩ : ∃ b₁,
      b.snprintf 0 35 (resultLabel binName testNum varNum) = some b₁ ∧
        b₁.Holds (labelPart binName testNum varNum) ∧ b₁.length = b.length :=
    hb.snprintf_eq (noNul_resultLabel binName testNum varNum) (by decide) (by rw [hlen]; decide)
  have hsize : sizeSub maxLogLineLen (labelPart binName testNum varNum).length =
      some (89 - (labelPart binName testNum varNum).length) :=
    if_pos (by rw [maxLogLineLen]; omega)
  have hsize₁ : sizeSub (89 - (labelPart binName testNum varNum).length) passedTxt.length =
      some (89 - (labelPart binName testNum varNum).length - 17) :=
    if_pos (by rw [show passedTxt.length = 17 from rfl]; omega)
  have hname : caseName.chars.take (89 - (labelPart binName testNum varNum).length - 17 - 1) =
      namePart binName caseName testNum varNum := by
    rw [namePart]
    congr 1
    omega
  have hfits : (labelPart binName testNum varNum).length +
      (89 - (labelPart binName testNum varNum).length - 17) ≤ b₁.length := by
    omega
  obtain ⟨b₂, hsecond, hb₂, hlen₂⟩ := hb₁.snprintf_eq caseName.noNul (by omega) hfits
  rw [hname] at hb₂
  have hsize₂ : sizeSub maxLogLineLen (labelPart binName testNum varNum ++
        namePart binName caseName testNum varNum).length =
      some (72 + (verdictTxt result).length - (labelPart binName testNum varNum ++
        namePart binName caseName testNum varNum).length) := by
    rw [length_verdictTxt]
    exact if_pos (by rw [maxLogLineLen]; omega)
  have hroom : b₂.length = 72 + (verdictTxt result).length + 1 := by
    rw [length_verdictTxt]
    omega
  obtain ⟨b₃, b₄, hfill, hverdict, hread⟩ :=
    verdict_over_dots hb₂ hroom (by omega) (noNul_verdictTxt result)
  rw [printTestCaseResult, if_neg Bool.false_ne_true]
  simp only [Option.bind_eq_bind, hempty, hb.strlen_eq, List.length_nil, hfirst, hb₁.strlen_eq,
    hsize, hsize₁, hsecond, hb₂.strlen_eq, hsize₂, hfill, writeVerdict_eq, hverdict, hread,
    Option.bind_some]
  rfl

/-- What is printed is a line for the result, and nothing is written outside the buffer. -/
theorem printTestCaseResult_eq (manualExecution : Bool) :
    ∃ line, ResultLine binName caseName testNum varNum result line ∧
      printTestCaseResult manualExecution binName caseName testNum varNum result =
        some (if manualExecution then [] else line ++ ['\n']) := by
  refine ⟨_, lineOfParts_resultLine binName caseName testNum varNum result, ?_⟩
  cases manualExecution with
  | true => rfl
  | false => exact printTestCaseResult_lineOfParts binName caseName testNum varNum result

end

end Blts.Cli
