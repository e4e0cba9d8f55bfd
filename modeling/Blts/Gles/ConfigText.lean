import Mathlib.Algebra.Order.Field.Rat
import Mathlib.Algebra.Order.Ring.Nat
import Mathlib.Data.List.TakeWhile
import Blts.Gles.ConfigReads

/-!
# Configuration texts

A text is written here as a list of lines: settings, comments and blank lines, in any layout,
and each continued over as many lines of the file as one likes.  The three passes of
`cnfparser_cleanup` leave the settings, one on a line (`cleanLines_contents`), if the file is
laid out as the passes expect it (`PlainFrom`): no part of a setting looks like a comment or a
blank line of its own, as these go before lines are joined; and where an odd number of quotes
comes before a line, which then counts as text in a string, it has no blanks that matter.
-/

namespace Blts.Gles

open Blts.Alsa (cString isKept keptTail maxLineLen quoteAfter splitLines splitLines_unlines
  uintLimit unlines unlines_cons_append)

/-! ## Numerals -/

/-- A number in decimal notation. -/
structure Numeral where
  negative : Bool
  whole : List Char
  fraction : Option (List Char)
  whole_digits : ∀ c ∈ whole, c.isDigit = true
  fraction_digits : ∀ f ∈ fraction, ∀ c ∈ f, c.isDigit = true
  ne_nil : whole ++ fraction.getD [] ≠ []

namespace Numeral

def text (x : Numeral) : List Char :=
  (if x.negative then ['-'] else []) ++ x.whole ++ (x.fraction.elim [] fun f => '.' :: f)

def sign (x : Numeral) : Int := if x.negative then -1 else 1

/-- The number that is written. -/
def value (x : Numeral) : ℚ :=
  x.sign * (Nat.ofDigitChars 10 (x.whole ++ x.fraction.getD []) 0 : ℕ) /
    (10 ^ (x.fraction.getD []).length : ℕ)

/-- Without what comes after the point. -/
def truncated (x : Numeral) : Int := x.sign * (Nat.ofDigitChars 10 x.whole 0 : ℕ)

/-- The digits at the end: those after the point, if there is one. -/
def lastDigits (x : Numeral) : List Char := x.fraction.getD x.whole

/-- The number that they make. -/
def lastNumber (x : Numeral) : Nat := Nat.ofDigitChars 10 x.lastDigits 0

end Numeral

/-! ## Settings -/

/-- A blank that the first pass removes. -/
def isBlank (c : Char) : Bool := c == '\r' || c == '\t' || c == ' '

/-- An element of a matrix; there may be blanks around the number. -/
structure MatrixElement where
  lead : List Char
  number : Numeral
  trail : List Char
  lead_blank : ∀ c ∈ lead, isBlank c = true
  trail_blank : ∀ c ∈ trail, isBlank c = true
  short : number.text.length < tmpSize

def MatrixElement.text (e : MatrixElement) : List Char := e.lead ++ e.number.text ++ e.trail

/-- The names that `read_config` looks for. -/
def knownNames : List String :=
  intNames ++ ["compositor_cmd", "convolution_mat", "convolution_mat_divisor"]

/-- A name and its value. -/
inductive ConfigItem where
  | int (name : String) (known : name ∈ intNames) (x : Numeral) (whole : x.fraction = none)
      (low : -2147483648 ≤ x.truncated) (high : x.truncated < 2147483648)
  | cmd (str : List Char) (plain : '"' ∉ str)
  | matrix (elements : List MatrixElement) (count : elements.length < maxConvMatSize)
  | divisor (x : Numeral)
  | other (name value : List Char) (unknown : ∀ known ∈ knownNames, known.toList ≠ name)
      (plain : ∀ c ∈ name, c ≠ ':' ∧ c ≠ '"' ∧ isBlank c = false)

namespace ConfigItem

def name : ConfigItem → List Char
  | int name .. => name.toList
  | cmd .. => "compositor_cmd".toList
  | matrix .. => "convolution_mat".toList
  | divisor _ => "convolution_mat_divisor".toList
  | other name .. => name

/-- Words with commas between them. -/
def listText : List (List Char) → List Char
  | [] => []
  | [w] => w
  | w :: ws => w ++ ',' :: listText ws

def value : ConfigItem → List Char
  | int _ _ x .. => x.text
  | cmd str _ => '"' :: str ++ ['"']
  | matrix elements _ => '"' :: listText (elements.map MatrixElement.text) ++ ['"']
  | divisor x => x.text
  | other _ value .. => value

/-- The value is a number, which is looked for at the end of the line. -/
def isNumber : ConfigItem → Bool
  | int .. | divisor _ => true
  | _ => false

end ConfigItem

/-- A setting with the blanks around its parts. -/
structure SettingText where
  item : ConfigItem
  lead : List Char
  beforeColon : List Char
  afterColon : List Char
  trail : List Char
  lead_blank : ∀ c ∈ lead, isBlank c = true
  beforeColon_blank : ∀ c ∈ beforeColon, isBlank c = true
  afterColon_blank : ∀ c ∈ afterColon, isBlank c = true
  trail_blank : ∀ c ∈ trail, isBlank c = true

def SettingText.text (s : SettingText) : List Char :=
  s.lead ++ s.item.name ++ s.beforeColon ++ ':' :: (s.afterColon ++ s.item.value ++ s.trail)

/-! ## Lines -/

inductive LineKind where
  | blank
  | comment
  | setting (s : SettingText)

/-- What a line of the kind may say. -/
def LineKind.IsText : LineKind → List Char → Prop
  | .blank, text => ∀ c ∈ text, isBlank c = true
  | .comment, text => ∃ lead rest, (∀ c ∈ lead, isBlank c = true) ∧ text = lead ++ '#' :: rest
  | .setting s, text => text = s.text

def LineKind.isSetting : LineKind → Bool
  | .setting _ => true
  | _ => false

/-- A line of a text.  In the file it may be continued: the parts in `before` end with a
backslash each, which `last` does not. -/
structure ConfigLine where
  kind : LineKind
  before : List (List Char)
  last : List Char
  isText : kind.IsText (before.flatten ++ last)
  chars : ∀ c ∈ before.flatten ++ last, c ≠ '\n' ∧ c ≠ '\x00'
  ended : last.getLast? ≠ some '\\'
  short : (before.flatten ++ last).length < maxLineLen

namespace ConfigLine

def text (l : ConfigLine) : List Char := l.before.flatten ++ l.last

/-- The lines of the file. -/
def physical (l : ConfigLine) : List (List Char) :=
  l.before.map (· ++ ['\\']) ++ [l.last]

end ConfigLine

/-- The file. -/
def contentsOf (lines : List ConfigLine) : List Char :=
  unlines (lines.flatMap ConfigLine.physical)

/-! ## The first pass -/

/-- `in_str` after some text. -/
def quotesAfter (inStr : Bool) (text : List Char) : Bool := text.foldl quoteAfter inStr

/-- Lines without the blanks that the first pass removes. -/
def withoutBlanks (inStr : Bool) : List (List Char) → List (List Char)
  | [] => []
  | l :: ls => removeBlanks inStr l :: withoutBlanks (quotesAfter inStr l) ls

/-- What the three passes expect of a setting.  In a string, as far as they can see, it has no
blanks before the colon or after a number. -/
structure SettingText.Plain (s : SettingText) (inStr : Bool) : Prop where
  name : s.item.name.length < paramNameSize
  ended : ¬Continued (removeBlanks inStr s.text)
  inString : inStr = true →
    s.lead = [] ∧ s.beforeColon = [] ∧ (s.item.isNumber = true → s.trail = [])

/-- What they expect of a line: the second pass keeps its parts if it is a setting, and else
removes them. -/
structure ConfigLine.Plain (l : ConfigLine) (inStr : Bool) : Prop where
  parts : ∀ part ∈ withoutBlanks inStr l.physical, isKept part = l.kind.isSetting
  short : ∀ part ∈ withoutBlanks inStr l.physical, part.length < maxLineLen
  setting : ∀ s, l.kind = .setting s → s.Plain inStr

/-- What they expect of a text. -/
def PlainFrom : Bool → List ConfigLine → Prop
  | _, [] => True
  | inStr, l :: ls => l.Plain inStr ∧ PlainFrom (quotesAfter inStr l.text) ls

/-- The settings, each with whether it counts as text in a string. -/
def settingsFrom : Bool → List ConfigLine → List (Bool × SettingText)
  | _, [] => []
  | inStr, l :: ls =>
      match l.kind with
      | .setting s => (inStr, s) :: settingsFrom (quotesAfter inStr l.text) ls
      | _ => settingsFrom (quotesAfter inStr l.text) ls

section

variable {inStr : Bool} {a b : List Char}

theorem removeBlanks_append (inStr : Bool) (a b : List Char) :
    removeBlanks inStr (a ++ b) = removeBlanks inStr a ++ removeBlanks (quotesAfter inStr a) b := by
  induction a generalizing inStr with
  | nil => rfl
  | cons c a ih =>
      rw [List.cons_append, removeBlanks, removeBlanks, ih]
      by_cases hc : (!quoteAfter inStr c && (c == '\r' || c == '\t' || c == ' ')) = true
      · rw [if_pos hc, if_pos hc]
        rfl
      · rw [if_neg hc, if_neg hc]
        rfl

theorem quotesAfter_append (inStr : Bool) (a b : List Char) :
    quotesAfter inStr (a ++ b) = quotesAfter (quotesAfter inStr a) b :=
  List.foldl_append ..

theorem quotesAfter_plain (h : '"' ∉ a) : quotesAfter inStr a = inStr := by
  induction a with
  | nil => rfl
  | cons c a ih =>
      rw [List.mem_cons, not_or] at h
      have hc : quoteAfter inStr c = inStr := by
        rw [quoteAfter, if_neg fun heq => h.1 (beq_iff_eq.mp heq).symm]
      rw [quotesAfter, List.foldl_cons, hc]
      exact ih h.2

/-- In a string everything stays. -/
theorem removeBlanks_true (h : '"' ∉ a) : removeBlanks true a = a := by
  induction a with
  | nil => rfl
  | cons c a ih =>
      rw [List.mem_cons, not_or] at h
      have hc : quoteAfter true c = true := by
        rw [quoteAfter, if_neg fun heq => h.1 (beq_iff_eq.mp heq).symm]
      rw [removeBlanks, hc, ih h.2]
      rfl

/-- Outside of strings the blanks go. -/
theorem removeBlanks_false (h : '"' ∉ a) :
    removeBlanks false a = a.filter fun c => !isBlank c := by
  induction a with
  | nil => rfl
  | cons c a ih =>
      rw [List.mem_cons, not_or] at h
      have hc : quoteAfter false c = false := by
        rw [quoteAfter, if_neg fun heq => h.1 (beq_iff_eq.mp heq).symm]
      rw [removeBlanks, hc, ih h.2, List.filter_cons, isBlank]
      cases c == '\r' || c == '\t' || c == ' ' <;> rfl

theorem length_removeBlanks_le (inStr : Bool) (a : List Char) :
    (removeBlanks inStr a).length ≤ a.length := by
  induction a generalizing inStr with
  | nil => exact Nat.le_refl _
  | cons c a ih =>
      have hrest := ih (quoteAfter inStr c)
      rw [removeBlanks]
      by_cases hc : (!quoteAfter inStr c && (c == '\r' || c == '\t' || c == ' ')) = true
      · rw [if_pos hc, List.length_cons]
        omega
      · rw [if_neg hc, List.length_cons, List.length_cons]
        omega

/-- A newline is no blank. -/
theorem removeBlanks_newline (inStr : Bool) (rest : List Char) :
    removeBlanks inStr ('\n' :: rest) = '\n' :: removeBlanks inStr rest := by
  cases inStr <;> rfl

/-- A backslash is no blank either. -/
theorem removeBlanks_backslash (inStr : Bool) :
    removeBlanks inStr ['\\'] = ['\\'] := by
  cases inStr <;> rfl

theorem quotesAfter_backslash (inStr : Bool) (a : List Char) :
    quotesAfter inStr (a ++ ['\\']) = quotesAfter inStr a := by
  rw [quotesAfter_append]
  exact quotesAfter_plain (by decide)

theorem removeBlanks_unlines (inStr : Bool) (ls : List (List Char)) :
    removeBlanks inStr (unlines ls) = unlines (withoutBlanks inStr ls) := by
  induction ls generalizing inStr with
  | nil => rfl
  | cons l ls ih =>
      rw [unlines, removeBlanks_append, removeBlanks_newline, ih]
      rfl

theorem withoutBlanks_append (inStr : Bool) (ls ls' : List (List Char)) :
    withoutBlanks inStr (ls ++ ls') =
      withoutBlanks inStr ls ++ withoutBlanks (quotesAfter inStr ls.flatten) ls' := by
  induction ls generalizing inStr with
  | nil => rfl
  | cons l ls ih =>
      rw [List.cons_append, withoutBlanks, withoutBlanks, ih, List.flatten_cons,
        quotesAfter_append, List.cons_append]

theorem newline_not_mem_removeBlanks (inStr : Bool) (h : '\n' ∉ a) :
    '\n' ∉ removeBlanks inStr a := by
  induction a generalizing inStr with
  | nil => exact h
  | cons c a ih =>
      rw [List.mem_cons, not_or] at h
      have hrest := ih (quoteAfter inStr c) h.2
      rw [removeBlanks]
      by_cases hc : (!quoteAfter inStr c && (c == '\r' || c == '\t' || c == ' ')) = true
      · rw [if_pos hc]
        exact hrest
      · rw [if_neg hc, List.mem_cons, not_or]
        exact ⟨h.1, hrest⟩

theorem newline_not_mem_withoutBlanks {ls : List (List Char)} (inStr : Bool)
    (h : ∀ l ∈ ls, '\n' ∉ l) : ∀ l ∈ withoutBlanks inStr ls, '\n' ∉ l := by
  induction ls generalizing inStr with
  | nil => exact fun l hl => absurd hl List.not_mem_nil
  | cons l ls ih =>
      obtain ⟨hl, hls⟩ := List.forall_mem_cons.mp h
      exact List.forall_mem_cons.mpr ⟨newline_not_mem_removeBlanks inStr hl, ih _ hls⟩

end

/-! ## The other passes -/

section

variable {inStr : Bool} {start : List Char} {rest : List (List Char)}

/-- A continued line of the file, without its blanks. -/
theorem withoutBlanks_continued (inStr : Bool) (part : List Char) (ls : List (List Char)) :
    withoutBlanks inStr ((part ++ ['\\']) :: ls) =
      (removeBlanks inStr part ++ ['\\']) :: withoutBlanks (quotesAfter inStr part) ls := by
  rw [withoutBlanks, quotesAfter_backslash, removeBlanks_append, removeBlanks_backslash]

theorem continued_backslash (line : List Char) : Continued (line ++ ['\\']) := by
  rw [Continued, List.getLast?_concat]

/-- **The third pass** joins the parts of a setting. -/
theorem joinedLines_parts (before : List (List Char)) {last : List Char}
    (hended : ¬Continued (start ++ removeBlanks inStr (before.flatten ++ last))) :
    joinedLines start
        (withoutBlanks inStr (before.map (· ++ ['\\']) ++ [last]) ++ rest) =
      ((start ++ removeBlanks inStr (before.flatten ++ last)) :: (joinedLines [] rest).1,
        (joinedLines [] rest).2) := by
  induction before generalizing start inStr with
  | nil =>
      rw [List.flatten_nil, List.nil_append] at hended ⊢
      rw [List.map_nil, List.nil_append, withoutBlanks, withoutBlanks, List.cons_append,
        joinedLines, if_neg hended, List.nil_append]
  | cons part before ih =>
      rw [List.flatten_cons, List.append_assoc, removeBlanks_append, ← List.append_assoc]
        at hended ⊢
      rw [List.map_cons, List.cons_append, withoutBlanks_continued, List.cons_append, joinedLines,
        ← List.append_assoc start, if_pos (continued_backslash _), List.dropLast_concat]
      exact ih hended

theorem quotesAfter_parts (inStr : Bool) (before : List (List Char)) :
    quotesAfter inStr (before.map (· ++ ['\\'])).flatten = quotesAfter inStr before.flatten := by
  induction before generalizing inStr with
  | nil => rfl
  | cons part before ih =>
      rw [List.map_cons, List.flatten_cons, List.flatten_cons, quotesAfter_append,
        quotesAfter_backslash, ih, quotesAfter_append]

theorem removeBlanks_last_mem (before : List (List Char)) (last : List Char) :
    removeBlanks (quotesAfter inStr before.flatten) last ∈
      withoutBlanks inStr (before.map (· ++ ['\\']) ++ [last]) := by
  rw [withoutBlanks_append, quotesAfter_parts]
  exact List.mem_append_right _ List.mem_cons_self

/-- While the parts are joined they fit, as the whole does. -/
theorem joinsFit_parts (before : List (List Char)) {last : List Char}
    (hended : ¬Continued (start ++ removeBlanks inStr (before.flatten ++ last)))
    (hlast : ∀ part ∈ withoutBlanks inStr (before.map (· ++ ['\\']) ++ [last]), part ≠ [])
    (hlen : (start ++ removeBlanks inStr (before.flatten ++ last)).length < maxLineLen)
    (hrest : JoinsFit [] rest) :
    JoinsFit start (withoutBlanks inStr (before.map (· ++ ['\\']) ++ [last]) ++ rest) := by
  induction before generalizing start inStr with
  | nil =>
      rw [List.flatten_nil, List.nil_append] at hended hlen
      rw [List.map_nil, List.nil_append, withoutBlanks, withoutBlanks, List.cons_append, JoinsFit,
        if_neg hended]
      exact ⟨hlen, hrest⟩
  | cons part before ih =>
      rw [List.flatten_cons, List.append_assoc, removeBlanks_append, ← List.append_assoc]
        at hended hlen
      rw [List.map_cons, List.cons_append, withoutBlanks_continued] at hlast ⊢
      rw [List.cons_append, JoinsFit, ← List.append_assoc start, if_pos (continued_backslash _),
        List.dropLast_concat]
      have hlast' := (List.forall_mem_cons.mp hlast).2
      have hpos : 0 < (removeBlanks (quotesAfter inStr part) (before.flatten ++ last)).length := by
        rw [removeBlanks_append, List.length_append]
        have hne := hlast' _ (removeBlanks_last_mem before last)
        have hpos := List.length_pos_iff.mpr hne
        omega
      rw [List.length_append] at hlen ⊢
      rw [List.length_singleton]
      exact ⟨by omega, ih hended hlast' (by rw [List.length_append]; exact hlen)⟩

theorem quotesAfter_physical (l : ConfigLine) (inStr : Bool) :
    quotesAfter inStr l.physical.flatten = quotesAfter inStr l.text := by
  rw [ConfigLine.physical, List.flatten_append, List.flatten_singleton, quotesAfter_append,
    quotesAfter_parts, ConfigLine.text, quotesAfter_append]

/-- The lines after the second pass. -/
theorem filter_physical_setting {l : ConfigLine} (h : l.Plain inStr)
    (hkind : l.kind.isSetting = true) :
    (withoutBlanks inStr l.physical).filter isKept = withoutBlanks inStr l.physical := by
  refine List.filter_eq_self.mpr fun part hpart => ?_
  rw [h.parts part hpart, hkind]

theorem filter_physical_other {l : ConfigLine} (h : l.Plain inStr)
    (hkind : l.kind.isSetting = false) :
    (withoutBlanks inStr l.physical).filter isKept = [] := by
  refine List.filter_eq_nil_iff.mpr fun part hpart => ?_
  rw [h.parts part hpart, hkind]
  exact Bool.false_ne_true

/-- **The passes** leave the settings, and stay inside the buffers. -/
theorem joinedLines_settings (lines : List ConfigLine) : ∀ {inStr : Bool},
    PlainFrom inStr lines →
    joinedLines [] ((withoutBlanks inStr (lines.flatMap ConfigLine.physical)).filter isKept) =
        ((settingsFrom inStr lines).map fun s => removeBlanks s.1 s.2.text, []) ∧
      JoinsFit [] ((withoutBlanks inStr (lines.flatMap ConfigLine.physical)).filter isKept) := by
  induction lines with
  | nil => exact fun _ => ⟨rfl, trivial⟩
  | cons l lines ih =>
      intro inStr hplain
      obtain ⟨hl, hrest⟩ := hplain
      obtain ⟨hjoined, hfit⟩ := ih hrest
      rw [List.flatMap_cons, withoutBlanks_append, List.filter_append, quotesAfter_physical]
      cases hkind : l.kind with
      | blank =>
          rw [filter_physical_other hl (by rw [hkind]; rfl), List.nil_append, settingsFrom, hkind]
          exact ⟨hjoined, hfit⟩
      | comment =>
          rw [filter_physical_other hl (by rw [hkind]; rfl), List.nil_append, settingsFrom, hkind]
          exact ⟨hjoined, hfit⟩
      | setting s =>
          have htext : l.text = s.text := by
            have h := l.isText
            rw [hkind] at h
            exact h
          have hended : ¬Continued ([] ++ removeBlanks inStr l.text) := by
            rw [htext]
            exact (hl.setting s hkind).ended
          have hparts : ∀ part ∈ withoutBlanks inStr l.physical, part ≠ [] := by
            intro part hpart hnil
            have h := hl.parts part hpart
            rw [hnil, hkind] at h
            cases h
          have hlen : ([] ++ removeBlanks inStr l.text).length < maxLineLen :=
            Nat.lt_of_le_of_lt (length_removeBlanks_le inStr l.text) l.short
          rw [filter_physical_setting hl (by rw [hkind]; rfl), settingsFrom, hkind]
          constructor
          · rw [ConfigLine.physical, joinedLines_parts l.before hended, hjoined]
            have hline : removeBlanks inStr (l.before.flatten ++ l.last) =
                removeBlanks inStr s.text := congrArg (removeBlanks inStr) htext
            rw [hline]
            rfl
          · exact joinsFit_parts l.before hended hparts hlen hfit

end

/-! ## The whole text -/

/-- The lines that the passes leave. -/
def settingLinesOf (lines : List ConfigLine) : List (List Char) :=
  (settingsFrom false lines).map fun s => removeBlanks s.1 s.2.text

/-- A text that the passes clean as they should, and whose length is an `unsigned int`. -/
structure Cleanable (lines : List ConfigLine) : Prop where
  plain : PlainFrom false lines
  length : (contentsOf lines).length + 1 < uintLimit

section

variable {lines : List ConfigLine}

theorem not_mem_physical {c : Char} (hc : c ≠ '\\') {l : ConfigLine} (h : c ∉ l.text) :
    ∀ part ∈ l.physical, c ∉ part := by
  rw [ConfigLine.text, List.mem_append, not_or] at h
  intro part hpart hmem
  rcases List.mem_append.mp hpart with hpart | hpart
  · obtain ⟨before, hbefore, hpart⟩ := List.mem_map.mp hpart
    rw [← hpart] at hmem
    rcases List.mem_append.mp hmem with hmem | hmem
    · exact h.1 (List.mem_flatten_of_mem hbefore hmem)
    · exact hc (List.mem_singleton.mp hmem)
  · rw [List.mem_singleton.mp hpart] at hmem
    exact h.2 hmem

theorem newline_not_mem_lines (lines : List ConfigLine) :
    ∀ part ∈ lines.flatMap ConfigLine.physical, '\n' ∉ part := by
  intro part hpart
  obtain ⟨l, -, hpart⟩ := List.mem_flatMap.mp hpart
  exact not_mem_physical (by decide) (fun h => (l.chars _ h).1 rfl) part hpart

theorem nul_not_mem_unlines {ls : List (List Char)} (h : ∀ l ∈ ls, '\x00' ∉ l) :
    '\x00' ∉ unlines ls := by
  induction ls with
  | nil => exact List.not_mem_nil
  | cons l ls ih =>
      obtain ⟨hl, hls⟩ := List.forall_mem_cons.mp h
      rw [unlines, List.mem_append, List.mem_cons, not_or, not_or]
      exact ⟨hl, by decide, ih hls⟩

theorem textOf_contents (h : (contentsOf lines).length + 1 < uintLimit) :
    textOf (contentsOf lines) = contentsOf lines := by
  have hnul : '\x00' ∉ contentsOf lines := by
    refine nul_not_mem_unlines fun part hpart => ?_
    obtain ⟨l, -, hpart⟩ := List.mem_flatMap.mp hpart
    exact not_mem_physical (by decide) (fun h => (l.chars _ h).2 rfl) part hpart
  have hmod : (contentsOf lines).length % uintLimit = (contentsOf lines).length :=
    Nat.mod_eq_of_lt (Nat.lt_of_succ_lt h)
  rw [textOf, hmod, List.take_length, cString, List.takeWhile_eq_self_iff]
  intro c hc
  rw [decide_eq_true_eq]
  intro heq
  rw [heq] at hc
  exact hnul hc

/-- The lines after the first pass. -/
theorem blankLines_contents (h : (contentsOf lines).length + 1 < uintLimit) :
    blankLines (contentsOf lines) =
      (withoutBlanks false (lines.flatMap ConfigLine.physical), []) := by
  rw [blankLines, textOf_contents h, contentsOf, removeBlanks_unlines,
    ← List.append_nil (unlines _)]
  exact splitLines_unlines List.not_mem_nil
    (newline_not_mem_withoutBlanks false (newline_not_mem_lines lines))

theorem short_withoutBlanks : ∀ {lines : List ConfigLine} {inStr : Bool}, PlainFrom inStr lines →
    ∀ part ∈ withoutBlanks inStr (lines.flatMap ConfigLine.physical),
      part.length < maxLineLen := by
  intro lines
  induction lines with
  | nil => exact fun _ part hpart => absurd hpart List.not_mem_nil
  | cons l lines ih =>
      intro inStr hplain part hpart
      rw [List.flatMap_cons, withoutBlanks_append, quotesAfter_physical] at hpart
      rcases List.mem_append.mp hpart with hpart | hpart
      · exact hplain.1.short part hpart
      · exact ih hplain.2 part hpart

/-- **The cleaned text** has one line for each setting. -/
theorem cleanLines_contents (h : Cleanable lines) :
    cleanLines (contentsOf lines) = settingLinesOf lines ∧ cleanTail (contentsOf lines) = [] ∧
      JoinsFit [] (keptLines (contentsOf lines)) := by
  obtain ⟨hjoined, hfit⟩ := joinedLines_settings lines h.plain
  rw [cleanLines, cleanTail, keptLines, blankLines_contents h.length]
  dsimp only
  rw [hjoined]
  exact ⟨rfl, rfl, hfit⟩

/-- **Reading the text** is reading its settings. -/
theorem readConfig_contents_iff {F : Type} (lib : Floats F)
    {config config' : TestConfigurationFileParams F} (h : Cleanable lines) :
    (∃ rounds, readConfig lib rounds true config (some (contentsOf lines)) =
        some (.ok (.config config'))) ↔
      cnfparserParseConfig lib (unlines (settingLinesOf lines)) config = .ok config' := by
  obtain ⟨hlines, htail, hfit⟩ := cleanLines_contents h
  have hcleaned : ∀ r, (∃ rounds, cnfparserCleanup rounds true (textOf (contentsOf lines)) =
      some (.ok r)) ↔ r = unlines (settingLinesOf lines) := by
    intro r
    rw [cleanup_ok_iff, hlines, htail, List.append_nil, blankLines_contents h.length,
      and_iff_right rfl, and_iff_right (short_withoutBlanks h.plain), and_iff_right hfit,
      and_iff_right (by decide)]
  have hfile : Blts.Alsa.readFile (contentsOf lines) = .ok (textOf (contentsOf lines)) := by
    have hmod : (contentsOf lines).length % uintLimit + 1 < uintLimit := by
      rw [Nat.mod_eq_of_lt (Nat.lt_of_succ_lt h.length)]
      exact h.length
    exact if_pos hmod
  simp only [readConfig, hfile]
  constructor
  · rintro ⟨rounds, hread⟩
    obtain ⟨x, hx, hr⟩ := Option.map_eq_some_iff.mp hread
    cases x with
    | error stop => cases hr
    | ok text =>
        rw [(hcleaned text).mp ⟨rounds, hx⟩] at hr
        cases hparse : cnfparserParseConfig lib (unlines (settingLinesOf lines)) config with
        | error stop =>
            simp only [Blts.Alsa.ok_bind, hparse] at hr
            cases stop <;> cases hr
        | ok parsed =>
            simp only [Blts.Alsa.ok_bind, hparse, parseResult] at hr
            cases hr
            rfl
  · intro hparse
    obtain ⟨rounds, hrounds⟩ := (hcleaned _).mpr rfl
    refine ⟨rounds, ?_⟩
    rw [hrounds, Option.map_some, Blts.Alsa.ok_bind, hparse]
    rfl

end

end Blts.Gles
