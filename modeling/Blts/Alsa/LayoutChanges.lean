import Blts.Alsa.WrittenText

/-!
# Changing the layout of a configuration file

A comment or an empty line goes in the last pass of the clean-up, and the blanks before a line
go in the second.  But the first pass looks for strings before that, in comments too.  So a
quote in a comment turns what follows into a string, or out of one, and there tabs and carriage
returns are treated the other way.
-/

namespace Blts.Alsa

/-! ## The first two passes, line by line -/

/-- `in_str` after some characters. -/
def inStrAfter (inStr : Bool) (s : List Char) : Bool := s.foldl quoteAfter inStr

/-- What the first two passes leave of a line. -/
def blankLine (inStr : Bool) (line : List Char) : List Char :=
  (removeTabs inStr line).dropWhile (· = ' ')

/-- What they leave of lines that follow each other. -/
def blankLines : Bool → List (List Char) → List (List Char)
  | _, [] => []
  | inStr, line :: lines => blankLine inStr line :: blankLines (inStrAfter inStr line) lines

theorem removeTabs_append (inStr : Bool) (s s' : List Char) :
    removeTabs inStr (s ++ s') = removeTabs inStr s ++ removeTabs (inStrAfter inStr s) s' := by
  induction s generalizing inStr with
  | nil => rfl
  | cons c s ih =>
      show removeTabs inStr (c :: (s ++ s')) =
        removeTabs inStr (c :: s) ++ removeTabs (inStrAfter (quoteAfter inStr c) s) s'
      rw [removeTabs, removeTabs, ih]
      by_cases hstr : quoteAfter inStr c = true
      · rw [if_pos hstr, if_pos hstr, List.cons_append]
      · rw [if_neg hstr, if_neg hstr]
        by_cases hreturn : (c == '\r') = true
        · rw [if_pos hreturn, if_pos hreturn]
        · rw [if_neg hreturn, if_neg hreturn]
          by_cases htab : (c == '\t') = true
          · rw [if_pos htab, if_pos htab, List.cons_append]
          · rw [if_neg htab, if_neg htab, List.cons_append]

theorem removeTabs_plain {s : List Char} (h : '\n' ∉ s) (inStr : Bool) :
    '\n' ∉ removeTabs inStr s := by
  induction s generalizing inStr with
  | nil => exact List.not_mem_nil
  | cons c s ih =>
      have hc : c ≠ '\n' := fun heq => h (heq ▸ List.mem_cons_self)
      have hs := ih (fun hmem => h (List.mem_cons_of_mem c hmem)) (quoteAfter inStr c)
      have hcons : ∀ d, d ≠ '\n' → '\n' ∉ d :: removeTabs (quoteAfter inStr c) s := by
        intro d hd hmem
        cases hmem with
        | head => exact hd rfl
        | tail _ hmem => exact hs hmem
      rw [removeTabs]
      split
      · exact hcons c hc
      · split
        · exact hs
        · split
          · exact hcons ' ' (by decide)
          · exact hcons c hc

theorem removeTabs_newline (inStr : Bool) (s : List Char) :
    removeTabs inStr ('\n' :: s) = '\n' :: removeTabs inStr s := by
  cases inStr <;> rfl

theorem removeSpaces_newline {line : List Char} (h : '\n' ∉ line) (rest : List Char) :
    removeSpaces true (line ++ '\n' :: rest) =
      line.dropWhile (· = ' ') ++ '\n' :: removeSpaces true rest := by
  induction line with
  | nil => rfl
  | cons c line ih =>
      have hline : '\n' ∉ line := fun hmem => h (List.mem_cons_of_mem c hmem)
      by_cases hc : c = ' '
      · subst hc
        exact ih hline
      · have hnewline : (c == '\n') = false := by
          simpa using fun heq : c = '\n' => h (heq ▸ List.mem_cons_self)
        rw [List.cons_append, removeSpaces, hnewline, removeSpaces_inside hline,
          List.dropWhile_cons_of_neg (by simpa using hc)]
        simp [hc]

theorem removeSpaces_tail {tail : List Char} (h : '\n' ∉ tail) :
    removeSpaces true tail = tail.dropWhile (· = ' ') := by
  have hall : ∀ {s : List Char}, '\n' ∉ s → removeSpaces false s = s := by
    intro s hs
    induction s with
    | nil => rfl
    | cons c s ih =>
        have hnewline : (c == '\n') = false := by
          simpa using fun heq : c = '\n' => hs (heq ▸ List.mem_cons_self)
        show c :: removeSpaces (c == '\n') s = c :: s
        rw [hnewline, ih fun hmem => hs (List.mem_cons_of_mem c hmem)]
  induction tail with
  | nil => rfl
  | cons c tail ih =>
      have htail : '\n' ∉ tail := fun hmem => h (List.mem_cons_of_mem c hmem)
      by_cases hc : c = ' '
      · subst hc
        exact ih htail
      · have hnewline : (c == '\n') = false := by
          simpa using fun heq : c = '\n' => h (heq ▸ List.mem_cons_self)
        rw [removeSpaces, hnewline, hall htail, List.dropWhile_cons_of_neg (by simpa using hc)]
        simp [hc]

/-- **The first two passes** over the lines of a text. -/
theorem blankText_unlines {lines : List (List Char)} {tail : List Char} (htail : '\n' ∉ tail) :
    ∀ inStr, (∀ l ∈ lines, '\n' ∉ l) →
      removeSpaces true (removeTabs inStr (unlines lines ++ tail)) =
        unlines (blankLines inStr lines) ++
          blankLine (lines.foldl inStrAfter inStr) tail := by
  induction lines with
  | nil =>
      intro inStr _
      exact removeSpaces_tail (removeTabs_plain htail inStr)
  | cons line lines ih =>
      intro inStr hlines
      have hline := hlines line List.mem_cons_self
      rw [unlines_cons_append, removeTabs_append, removeTabs_newline,
        removeSpaces_newline (removeTabs_plain hline inStr),
        ih _ fun l hl => hlines l (List.mem_cons_of_mem line hl), blankLines,
        unlines_cons_append]
      rfl

theorem mem_dropWhile_plain {s : List Char} (h : '\n' ∉ s) (p : Char → Bool) :
    '\n' ∉ s.dropWhile p :=
  fun hmem => h ((List.dropWhile_sublist p).mem hmem)

theorem blankLine_plain {line : List Char} (h : '\n' ∉ line) (inStr : Bool) :
    '\n' ∉ blankLine inStr line :=
  mem_dropWhile_plain (removeTabs_plain h inStr) _

theorem blankLines_plain {lines : List (List Char)} : ∀ inStr, (∀ l ∈ lines, '\n' ∉ l) →
    ∀ l ∈ blankLines inStr lines, '\n' ∉ l := by
  induction lines with
  | nil => exact fun _ _ l hl => (by cases hl)
  | cons line lines ih =>
      intro inStr hlines l hl
      cases hl with
      | head => exact blankLine_plain (hlines line List.mem_cons_self) inStr
      | tail _ hl => exact ih _ (fun l hl => hlines l (List.mem_cons_of_mem line hl)) l hl

theorem splitLines_blankText {lines : List (List Char)} {tail : List Char} (htail : '\n' ∉ tail)
    (hlines : ∀ l ∈ lines, '\n' ∉ l) :
    splitLines (blankText (unlines lines ++ tail)) =
      (blankLines false lines, blankLine (lines.foldl inStrAfter false) tail) := by
  unfold blankText
  rw [blankText_unlines htail false hlines]
  exact splitLines_unlines (blankLine_plain htail _) (blankLines_plain false hlines)

/-! ## Changes of the layout -/

/-- What may end a line besides its newline. -/
def ending (cr : Bool) : List Char := if cr then ['\r'] else []

/-- A line without contents, after the blanks before it. -/
inductive LayoutLine where
  | empty (cr : Bool)
  | comment (text : List Char)
  deriving DecidableEq

def LayoutLine.chars : LayoutLine → List Char
  | .empty cr => ending cr
  | .comment text => '#' :: text

/-- A change of the layout at a line.  A comment is reworded by removing one and inserting
another. -/
inductive LineChange where
  /-- The blanks before the line and what ends it may change. -/
  | kept (blanks blanks' body : List Char) (cr cr' : Bool)
  | removed (blanks : List Char) (line : LayoutLine)
  | inserted (blanks : List Char) (line : LayoutLine)
  deriving DecidableEq

/-- A change of what no newline ends. -/
inductive TailChange where
  | kept (blanks blanks' body : List Char)
  | replaced (blanks blanks' : List Char) (line line' : LayoutLine)
  deriving DecidableEq

structure LayoutChange where
  lines : List LineChange
  tail : TailChange
  deriving DecidableEq

def LineChange.before : LineChange → List (List Char)
  | .kept blanks _ body cr _ => [blanks ++ (body ++ ending cr)]
  | .removed blanks line => [blanks ++ line.chars]
  | .inserted _ _ => []

def LineChange.after : LineChange → List (List Char)
  | .kept _ blanks' body _ cr' => [blanks' ++ (body ++ ending cr')]
  | .removed _ _ => []
  | .inserted blanks line => [blanks ++ line.chars]

def TailChange.before : TailChange → List Char
  | .kept blanks _ body => blanks ++ body
  | .replaced blanks _ line _ => blanks ++ line.chars

def TailChange.after : TailChange → List Char
  | .kept _ blanks' body => blanks' ++ body
  | .replaced _ blanks' _ line' => blanks' ++ line'.chars

/-- The text that is changed. -/
def LayoutChange.before (c : LayoutChange) : List Char :=
  unlines (c.lines.flatMap LineChange.before) ++ c.tail.before

/-- The changed text. -/
def LayoutChange.after (c : LayoutChange) : List Char :=
  unlines (c.lines.flatMap LineChange.after) ++ c.tail.after

/-- Blanks and tabs. -/
def IsBlanks (s : List Char) : Prop := ∀ c ∈ s, c = ' ' ∨ c = '\t'

/-- The contents of a line: they begin with no blank. -/
def IsBody (body : List Char) : Prop :=
  '\n' ∉ body ∧ ∀ c ∈ body.head?, c ≠ ' ' ∧ c ≠ '\t'

def LineChange.Valid : LineChange → Prop
  | .kept blanks blanks' body _ _ => IsBlanks blanks ∧ IsBlanks blanks' ∧ IsBody body
  | .removed blanks line | .inserted blanks line => IsBlanks blanks ∧ '\n' ∉ line.chars

def TailChange.Valid : TailChange → Prop
  | .kept blanks blanks' body => IsBlanks blanks ∧ IsBlanks blanks' ∧ IsBody body
  | .replaced blanks blanks' line line' =>
      IsBlanks blanks ∧ IsBlanks blanks' ∧ '\n' ∉ line.chars ∧ '\n' ∉ line'.chars

/-- Only the layout changes. -/
def LayoutChange.Valid (c : LayoutChange) : Prop :=
  (∀ l ∈ c.lines, l.Valid) ∧ c.tail.Valid

/-! ## Where a change is seen -/

/-- The blanks that the second pass finds before a line and leaves: in a string a tab is no
space. -/
def leftBlanks (inStr : Bool) (blanks : List Char) : List Char :=
  if inStr then blanks.dropWhile (· = ' ') else []

/-- The first pass treats the contents in the same way. -/
def SameBody (inStr inStr' : Bool) (body : List Char) : Prop :=
  inStr = inStr' ∨ '\t' ∉ body ∧ '\r' ∉ body

/-- The line goes: a string is not open where tabs and carriage returns stand in it. -/
def Hides (inStr : Bool) (blanks : List Char) (line : LayoutLine) : Prop :=
  inStr = true → '\t' ∉ blanks ∧ line ≠ .empty true

/-- The change is not seen, for the states at the start of the line in both texts, and what is
inserted fits the line buffer and does not end the text. -/
def LineChange.Undisturbed (inStr inStr' : Bool) : LineChange → Prop
  | .kept blanks blanks' body cr cr' =>
      SameBody inStr inStr' body ∧ leftBlanks inStr blanks = leftBlanks inStr' blanks' ∧
        (inStrAfter inStr body && cr) = (inStrAfter inStr' body && cr')
  | .removed blanks line => Hides inStr blanks line
  | .inserted blanks line =>
      Hides inStr' blanks line ∧ '\x00' ∉ line.chars ∧
        (blankLine inStr' (blanks ++ line.chars)).length < maxLineLen

def TailChange.Undisturbed (inStr inStr' : Bool) : TailChange → Prop
  | .kept blanks blanks' body =>
      SameBody inStr inStr' body ∧ leftBlanks inStr blanks = leftBlanks inStr' blanks'
  | .replaced blanks blanks' line line' =>
      Hides inStr blanks line ∧ Hides inStr' blanks' line' ∧ '\x00' ∉ line'.chars

/-- No change is seen.  The state is carried on through the comments. -/
def Undisturbed : Bool → Bool → List LineChange → TailChange → Prop
  | inStr, inStr', [], tail => tail.Undisturbed inStr inStr'
  | inStr, inStr', c :: cs, tail =>
      c.Undisturbed inStr inStr' ∧
        Undisturbed (c.before.foldl inStrAfter inStr) (c.after.foldl inStrAfter inStr') cs tail

section

variable (inStr inStr' : Bool)

instance (s : List Char) : Decidable (IsBlanks s) :=
  List.decidableBAll (fun c => c = ' ' ∨ c = '\t') s

instance (body : List Char) : Decidable (IsBody body) :=
  @instDecidableAnd _ _ _ (Option.decidableForallMem body.head?)

instance (c : LineChange) : Decidable c.Valid := by
  cases c <;> unfold LineChange.Valid <;> infer_instance

instance (t : TailChange) : Decidable t.Valid := by
  cases t <;> unfold TailChange.Valid <;> infer_instance

instance (c : LayoutChange) : Decidable c.Valid :=
  inferInstanceAs (Decidable ((∀ l ∈ c.lines, l.Valid) ∧ c.tail.Valid))

instance (body : List Char) : Decidable (SameBody inStr inStr' body) :=
  inferInstanceAs (Decidable (inStr = inStr' ∨ '\t' ∉ body ∧ '\r' ∉ body))

instance (blanks : List Char) (line : LayoutLine) : Decidable (Hides inStr blanks line) :=
  inferInstanceAs (Decidable (inStr = true → '\t' ∉ blanks ∧ line ≠ .empty true))

instance (c : LineChange) : Decidable (c.Undisturbed inStr inStr') := by
  cases c <;> unfold LineChange.Undisturbed <;> infer_instance

instance (t : TailChange) : Decidable (t.Undisturbed inStr inStr') := by
  cases t <;> unfold TailChange.Undisturbed <;> infer_instance

end

instance decidableUndisturbed (tail : TailChange) : (inStr inStr' : Bool) →
    (cs : List LineChange) → Decidable (Undisturbed inStr inStr' cs tail)
  | inStr, inStr', [] => inferInstanceAs (Decidable (tail.Undisturbed inStr inStr'))
  | inStr, inStr', c :: cs =>
      have := decidableUndisturbed tail (c.before.foldl inStrAfter inStr)
        (c.after.foldl inStrAfter inStr') cs
      inferInstanceAs (Decidable (c.Undisturbed inStr inStr' ∧ Undisturbed _ _ cs tail))

/-! ## One line -/

theorem removeTabs_ending (inStr cr : Bool) :
    removeTabs inStr (ending cr) = ending (inStr && cr) := by
  cases inStr <;> cases cr <;> rfl

theorem removeTabs_quiet {body : List Char} (htab : '\t' ∉ body) (hreturn : '\r' ∉ body)
    (inStr : Bool) : removeTabs inStr body = body := by
  induction body generalizing inStr with
  | nil => rfl
  | cons c body ih =>
      have hct : (c == '\t') = false := by
        simpa using fun heq : c = '\t' => htab (heq ▸ List.mem_cons_self)
      have hcr : (c == '\r') = false := by
        simpa using fun heq : c = '\r' => hreturn (heq ▸ List.mem_cons_self)
      rw [removeTabs, hct, hcr, ih (fun hmem => htab (List.mem_cons_of_mem c hmem))
        fun hmem => hreturn (List.mem_cons_of_mem c hmem)]
      split <;> rfl

/-- Outside of a string the blanks before a line go. -/
theorem blankLine_outside {blanks : List Char} (h : IsBlanks blanks) (rest : List Char) :
    blankLine false (blanks ++ rest) = blankLine false rest := by
  unfold blankLine
  rw [removeTabs_indent h]
  induction blanks.length with
  | zero => rfl
  | succ n ih => exact ih

/-- In a string those from the first tab on stay, before contents that begin with no blank. -/
theorem blankLine_inside {blanks body : List Char} (h : IsBlanks blanks)
    (hbody : ∀ c ∈ body.head?, c ≠ ' ' ∧ c ≠ '\t') :
    blankLine true (blanks ++ body) = leftBlanks true blanks ++ removeTabs true body := by
  have hquote : ∀ c ∈ blanks, c ≠ '"' := by
    intro c hc heq
    cases h c hc with
    | inl hspace => rw [heq] at hspace; exact absurd hspace (by decide)
    | inr htab => rw [heq] at htab; exact absurd htab (by decide)
  unfold blankLine leftBlanks
  rw [removeTabs_string hquote, if_pos rfl]
  cases body with
  | nil => rw [removeTabs, List.append_nil, List.append_nil]
  | cons c body =>
      have hhead : ∃ rest, removeTabs true (c :: body) = c :: rest := by
        by_cases hc : c = '"'
        · subst hc
          exact ⟨removeTabs false body, rfl⟩
        · have hstr : quoteAfter true c = true := by simp [quoteAfter, hc]
          exact ⟨removeTabs true body, by rw [removeTabs, hstr, if_pos rfl]⟩
      obtain ⟨rest, hrest⟩ := hhead
      have hspace : c ≠ ' ' := (hbody c rfl).1
      rw [hrest]
      induction blanks with
      | nil => exact List.dropWhile_cons_of_neg (by simpa using hspace)
      | cons b blanks ih =>
          by_cases hb : b = ' '
          · subst hb
            exact ih (fun c hc => h c (List.mem_cons_of_mem _ hc))
              fun c hc => hquote c (List.mem_cons_of_mem _ hc)
          · rw [List.cons_append, List.dropWhile_cons_of_neg (by simpa using hb),
              List.dropWhile_cons_of_neg (by simpa using hb), List.cons_append]

theorem dropWhile_head {s : List Char} (h : ∀ c ∈ s.head?, c ≠ ' ') :
    s.dropWhile (· = ' ') = s := by
  cases s with
  | nil => rfl
  | cons c s => exact List.dropWhile_cons_of_neg (by simpa using h c rfl)

/-- Two lines are the same after the first two passes. -/
theorem blankLine_same {inStr inStr' : Bool} {blanks blanks' rest rest' : List Char}
    (hblanks : IsBlanks blanks) (hblanks' : IsBlanks blanks')
    (hrest : ∀ c ∈ rest.head?, c ≠ ' ' ∧ c ≠ '\t') (hrest' : ∀ c ∈ rest'.head?, c ≠ ' ' ∧ c ≠ '\t')
    (hleft : leftBlanks inStr blanks = leftBlanks inStr' blanks')
    (htabs : removeTabs inStr rest = removeTabs inStr' rest')
    (hstarts : inStr ≠ inStr' → ∀ c ∈ (removeTabs inStr rest).head?, c ≠ ' ') :
    blankLine inStr (blanks ++ rest) = blankLine inStr' (blanks' ++ rest') := by
  cases inStr with
  | false =>
      rw [blankLine_outside hblanks]
      cases inStr' with
      | false =>
          rw [blankLine_outside hblanks']
          exact congrArg (List.dropWhile _) htabs
      | true =>
          rw [blankLine_inside hblanks' hrest', ← hleft, ← htabs]
          exact dropWhile_head (hstarts Bool.false_ne_true)
  | true =>
      rw [blankLine_inside hblanks hrest]
      cases inStr' with
      | false =>
          rw [blankLine_outside hblanks', hleft, htabs]
          rw [htabs] at hstarts
          exact (dropWhile_head (hstarts Bool.false_ne_true.symm)).symm
      | true => rw [blankLine_inside hblanks' hrest', hleft, htabs]

theorem head_ending {body : List Char} (hbody : IsBody body) (cr : Bool) :
    ∀ c ∈ (body ++ ending cr).head?, c ≠ ' ' ∧ c ≠ '\t' := by
  cases body with
  | cons c body => exact hbody.2
  | nil =>
      intro c hc
      cases cr with
      | false => cases hc
      | true =>
          cases hc
          decide

/-- The contents of a line are treated alike in both texts. -/
theorem SameBody.removeTabs_eq {inStr inStr' : Bool} {body : List Char}
    (h : SameBody inStr inStr' body) : removeTabs inStr body = removeTabs inStr' body := by
  obtain rfl | ⟨htab, hreturn⟩ := h
  · rfl
  · rw [removeTabs_quiet htab hreturn, removeTabs_quiet htab hreturn]

theorem kept_same {inStr inStr' : Bool} {blanks blanks' body : List Char} {cr cr' : Bool}
    (hblanks : IsBlanks blanks) (hblanks' : IsBlanks blanks') (hbody : IsBody body)
    (hsame : SameBody inStr inStr' body)
    (hleft : leftBlanks inStr blanks = leftBlanks inStr' blanks')
    (hcr : (inStrAfter inStr body && cr) = (inStrAfter inStr' body && cr')) :
    blankLine inStr (blanks ++ (body ++ ending cr)) =
      blankLine inStr' (blanks' ++ (body ++ ending cr')) := by
  have htabs : removeTabs inStr (body ++ ending cr) = removeTabs inStr' (body ++ ending cr') := by
    rw [removeTabs_append, removeTabs_append, removeTabs_ending, removeTabs_ending, hcr,
      hsame.removeTabs_eq]
  refine blankLine_same hblanks hblanks' (head_ending hbody cr) (head_ending hbody cr') hleft htabs
    fun hne c hc => ?_
  obtain heq | ⟨htab, hreturn⟩ := hsame
  · exact absurd heq hne
  · rw [removeTabs_append, removeTabs_quiet htab hreturn, removeTabs_ending] at hc
    exact (head_ending hbody _ c hc).1

/-- A line without contents goes. -/
theorem Hides.not_kept {inStr : Bool} {blanks : List Char} {line : LayoutLine}
    (h : Hides inStr blanks line) (hblanks : IsBlanks blanks) :
    blankLine inStr (blanks ++ line.chars) = [] ∨
      (blankLine inStr (blanks ++ line.chars)).head? = some '#' := by
  have hstart : ∀ c ∈ line.chars.head?, c ≠ ' ' ∧ c ≠ '\t' := by
    cases line with
    | empty cr => exact head_ending ⟨List.not_mem_nil, fun c hc => (by cases hc)⟩ cr
    | comment text =>
        intro c hc
        cases hc
        decide
  have hcomment : ∀ text, removeTabs inStr ('#' :: text) = '#' :: removeTabs inStr text := by
    intro text
    cases inStr <;> rfl
  cases inStr with
  | false =>
      rw [blankLine_outside hblanks]
      cases line with
      | empty cr => exact .inl (by cases cr <;> rfl)
      | comment text =>
          refine .inr ?_
          show ((removeTabs false ('#' :: text)).dropWhile _).head? = _
          rw [hcomment]
          rfl
  | true =>
      obtain ⟨htab, hempty⟩ := h rfl
      have hleft : leftBlanks true blanks = [] := by
        show blanks.dropWhile (· = ' ') = []
        refine List.dropWhile_eq_nil_iff.mpr fun c hc => ?_
        cases hblanks c hc with
        | inl hspace => exact decide_eq_true hspace
        | inr hctab => exact absurd (hctab ▸ hc) htab
      rw [blankLine_inside hblanks hstart, hleft, List.nil_append]
      cases line with
      | empty cr =>
          cases cr with
          | false => exact .inl rfl
          | true => exact absurd rfl hempty
      | comment text =>
          refine .inr ?_
          show (removeTabs true ('#' :: text)).head? = _
          rw [hcomment]
          rfl

/-! ## All lines -/

theorem isKept_false {line : List Char} (h : line = [] ∨ line.head? = some '#') :
    isKept line = false := by
  obtain rfl | hhash := h
  · rfl
  · simp [isKept, hhash]

theorem keptTail_nil {tail : List Char} (h : tail = [] ∨ tail.head? = some '#') :
    keptTail tail = [] := by
  obtain rfl | hhash := h
  · rfl
  · exact if_pos hhash

theorem blankLines_append (inStr : Bool) (lines lines' : List (List Char)) :
    blankLines inStr (lines ++ lines') =
      blankLines inStr lines ++ blankLines (lines.foldl inStrAfter inStr) lines' := by
  induction lines generalizing inStr with
  | nil => rfl
  | cons line lines ih =>
      rw [List.cons_append, blankLines, blankLines, ih, List.cons_append, List.foldl_cons]

/-- One change leaves the same lines, and these fit. -/
theorem LineChange.Undisturbed.same {inStr inStr' : Bool} {c : LineChange}
    (h : c.Undisturbed inStr inStr') (hvalid : c.Valid) :
    (blankLines inStr' c.after).filter isKept = (blankLines inStr c.before).filter isKept ∧
      ((∀ l ∈ blankLines inStr c.before, l.length < maxLineLen) →
        ∀ l ∈ blankLines inStr' c.after, l.length < maxLineLen) := by
  cases c with
  | kept blanks blanks' body cr cr' =>
      obtain ⟨hblanks, hblanks', hbody⟩ := hvalid
      obtain ⟨hsame, hleft, hcr⟩ := h
      have heq := kept_same hblanks hblanks' hbody hsame hleft hcr
      show (blankLine inStr' _ :: []).filter isKept = (blankLine inStr _ :: []).filter isKept ∧
        ((∀ l ∈ [blankLine inStr _], l.length < maxLineLen) →
          ∀ l ∈ [blankLine inStr' _], l.length < maxLineLen)
      rw [heq]
      exact ⟨rfl, fun hfit => hfit⟩
  | removed blanks line =>
      refine ⟨?_, fun _ l hl => (by cases hl)⟩
      show [] = [blankLine inStr _].filter isKept
      rw [List.filter_cons, isKept_false (h.not_kept hvalid.1)]
      rfl
  | inserted blanks line =>
      obtain ⟨hhides, -, hfit⟩ := h
      refine ⟨?_, fun _ => List.forall_mem_singleton.mpr hfit⟩
      show [blankLine inStr' _].filter isKept = []
      rw [List.filter_cons, isKept_false (hhides.not_kept hvalid.1)]
      rfl

theorem TailChange.Undisturbed.same {inStr inStr' : Bool} {t : TailChange}
    (h : t.Undisturbed inStr inStr') (hvalid : t.Valid) :
    keptTail (blankLine inStr' t.after) = keptTail (blankLine inStr t.before) := by
  cases t with
  | kept blanks blanks' body =>
      obtain ⟨hblanks, hblanks', hbody⟩ := hvalid
      have heq : blankLine inStr (blanks ++ (body ++ ending false)) =
          blankLine inStr' (blanks' ++ (body ++ ending false)) :=
        kept_same hblanks hblanks' hbody h.1 h.2 (by rw [Bool.and_false, Bool.and_false])
      rw [show ending false = [] from rfl, List.append_nil] at heq
      exact congrArg keptTail heq.symm
  | replaced blanks blanks' line line' =>
      rw [TailChange.after, TailChange.before, keptTail_nil (h.1.not_kept hvalid.1),
        keptTail_nil (h.2.1.not_kept hvalid.2.1)]

/-- **A change that is not seen** leaves the lines that are read, and these fit. -/
theorem Undisturbed.same {tail : TailChange} (htail : tail.Valid) {cs : List LineChange} :
    ∀ {inStr inStr' : Bool}, (∀ c ∈ cs, c.Valid) → Undisturbed inStr inStr' cs tail →
      (blankLines inStr' (cs.flatMap LineChange.after)).filter isKept =
          (blankLines inStr (cs.flatMap LineChange.before)).filter isKept ∧
        ((∀ l ∈ blankLines inStr (cs.flatMap LineChange.before), l.length < maxLineLen) →
          ∀ l ∈ blankLines inStr' (cs.flatMap LineChange.after), l.length < maxLineLen) ∧
        keptTail (blankLine ((cs.flatMap LineChange.after).foldl inStrAfter inStr') tail.after) =
          keptTail (blankLine ((cs.flatMap LineChange.before).foldl inStrAfter inStr)
            tail.before) := by
  induction cs with
  | nil =>
      intro inStr inStr' _ h
      exact ⟨rfl, fun _ l hl => (by cases hl), TailChange.Undisturbed.same h htail⟩
  | cons c cs ih =>
      intro inStr inStr' hvalid h
      obtain ⟨hlines, hfit⟩ := h.1.same (hvalid c List.mem_cons_self)
      obtain ⟨hrest, hrestFit, htails⟩ := ih (fun d hd => hvalid d (List.mem_cons_of_mem c hd)) h.2
      rw [List.flatMap_cons, List.flatMap_cons, blankLines_append, blankLines_append,
        List.filter_append, List.filter_append, hlines, hrest, List.foldl_append,
        List.foldl_append]
      refine ⟨rfl, fun hall l hl => ?_, htails⟩
      rcases List.mem_append.mp hl with hl | hl
      · exact hfit (fun k hk => hall k (List.mem_append_left _ hk)) l hl
      · exact hrestFit (fun k hk => hall k (List.mem_append_right _ hk)) l hl

/-! ## The texts -/

theorem not_mem_unlines {d : Char} (hd : d ≠ '\n') {lines : List (List Char)} :
    d ∉ unlines lines ↔ ∀ l ∈ lines, d ∉ l := by
  induction lines with
  | nil => exact iff_of_true List.not_mem_nil fun l hl => (by cases hl)
  | cons line lines ih =>
      rw [unlines, List.mem_append, List.mem_cons, List.forall_mem_cons, ← ih]
      simp [hd]

theorem not_mem_blanks {d : Char} (hspace : d ≠ ' ') (htab : d ≠ '\t') {blanks : List Char}
    (h : IsBlanks blanks) : d ∉ blanks := by
  intro hmem
  cases h d hmem with
  | inl heq => exact hspace heq
  | inr heq => exact htab heq

theorem not_mem_ending {d : Char} (hreturn : d ≠ '\r') (cr : Bool) : d ∉ ending cr := by
  cases cr with
  | false => exact List.not_mem_nil
  | true => exact fun hmem => hreturn (List.mem_singleton.mp hmem)

theorem LineChange.Valid.newline {c : LineChange} (h : c.Valid) :
    (∀ l ∈ c.before, '\n' ∉ l) ∧ ∀ l ∈ c.after, '\n' ∉ l := by
  have hblank : ∀ {blanks}, IsBlanks blanks → '\n' ∉ blanks := fun hblanks =>
    not_mem_blanks (by decide) (by decide) hblanks
  have hnil : ∀ l ∈ ([] : List (List Char)), '\n' ∉ l := fun l hl => (by cases hl)
  have happend : ∀ {s s' : List Char}, '\n' ∉ s → '\n' ∉ s' → '\n' ∉ s ++ s' :=
    fun hs hs' hmem => (List.mem_append.mp hmem).elim hs hs'
  cases c with
  | kept blanks blanks' body cr cr' =>
      obtain ⟨hblanks, hblanks', hbody⟩ := h
      exact ⟨List.forall_mem_singleton.mpr (happend (hblank hblanks)
          (happend hbody.1 (not_mem_ending (by decide) cr))),
        List.forall_mem_singleton.mpr (happend (hblank hblanks')
          (happend hbody.1 (not_mem_ending (by decide) cr')))⟩
  | removed blanks line =>
      exact ⟨List.forall_mem_singleton.mpr (happend (hblank h.1) h.2), hnil⟩
  | inserted blanks line =>
      exact ⟨hnil, List.forall_mem_singleton.mpr (happend (hblank h.1) h.2)⟩

theorem TailChange.Valid.newline {t : TailChange} (h : t.Valid) :
    '\n' ∉ t.before ∧ '\n' ∉ t.after := by
  have hblank : ∀ {blanks}, IsBlanks blanks → '\n' ∉ blanks := fun hblanks =>
    not_mem_blanks (by decide) (by decide) hblanks
  cases t with
  | kept blanks blanks' body =>
      obtain ⟨hblanks, hblanks', hbody⟩ := h
      exact ⟨fun hmem => (List.mem_append.mp hmem).elim (hblank hblanks) hbody.1,
        fun hmem => (List.mem_append.mp hmem).elim (hblank hblanks') hbody.1⟩
  | replaced blanks blanks' line line' =>
      obtain ⟨hblanks, hblanks', hline, hline'⟩ := h
      exact ⟨fun hmem => (List.mem_append.mp hmem).elim (hblank hblanks) hline,
        fun hmem => (List.mem_append.mp hmem).elim (hblank hblanks') hline'⟩

theorem LineChange.Undisturbed.nul {inStr inStr' : Bool} {c : LineChange}
    (h : c.Undisturbed inStr inStr') (hvalid : c.Valid) (hbefore : ∀ l ∈ c.before, '\x00' ∉ l) :
    ∀ l ∈ c.after, '\x00' ∉ l := by
  cases c with
  | kept blanks blanks' body cr cr' =>
      have hline : '\x00' ∉ blanks ++ (body ++ ending cr) := hbefore _ List.mem_cons_self
      have hbody : '\x00' ∉ body := fun hmem =>
        hline (List.mem_append_right _ (List.mem_append_left _ hmem))
      refine List.forall_mem_singleton.mpr fun hmem => ?_
      rcases List.mem_append.mp hmem with hmem | hmem
      · exact not_mem_blanks (by decide) (by decide) hvalid.2.1 hmem
      · exact (List.mem_append.mp hmem).elim hbody (not_mem_ending (by decide) cr')
  | removed blanks line => exact fun l hl => (by cases hl)
  | inserted blanks line =>
      exact List.forall_mem_singleton.mpr fun hmem => (List.mem_append.mp hmem).elim
        (not_mem_blanks (by decide) (by decide) hvalid.1) h.2.1

theorem TailChange.Undisturbed.nul {inStr inStr' : Bool} {t : TailChange}
    (h : t.Undisturbed inStr inStr') (hvalid : t.Valid) (hbefore : '\x00' ∉ t.before) :
    '\x00' ∉ t.after := by
  cases t with
  | kept blanks blanks' body =>
      exact fun hmem => (List.mem_append.mp hmem).elim
        (not_mem_blanks (by decide) (by decide) hvalid.2.1)
        fun hbody => hbefore (List.mem_append_right _ hbody)
  | replaced blanks blanks' line line' =>
      exact fun hmem => (List.mem_append.mp hmem).elim
        (not_mem_blanks (by decide) (by decide) hvalid.2.1) h.2.2

theorem Undisturbed.nul {tail : TailChange} (htail : tail.Valid) {cs : List LineChange} :
    ∀ {inStr inStr' : Bool}, (∀ c ∈ cs, c.Valid) → Undisturbed inStr inStr' cs tail →
      (∀ l ∈ cs.flatMap LineChange.before, '\x00' ∉ l) → '\x00' ∉ tail.before →
        (∀ l ∈ cs.flatMap LineChange.after, '\x00' ∉ l) ∧ '\x00' ∉ tail.after := by
  induction cs with
  | nil =>
      intro inStr inStr' _ h _ hbefore
      exact ⟨fun l hl => (by cases hl), TailChange.Undisturbed.nul h htail hbefore⟩
  | cons c cs ih =>
      intro inStr inStr' hvalid h hlines hbefore
      rw [List.flatMap_cons] at hlines
      obtain ⟨hrest, hafter⟩ := ih (fun d hd => hvalid d (List.mem_cons_of_mem c hd)) h.2
        (fun l hl => hlines l (List.mem_append_right _ hl)) hbefore
      refine ⟨fun l hl => ?_, hafter⟩
      rw [List.flatMap_cons] at hl
      rcases List.mem_append.mp hl with hl | hl
      · exact h.1.nul (hvalid c List.mem_cons_self)
          (fun k hk => hlines k (List.mem_append_left _ hk)) l hl
      · exact hrest l hl

/-! ## Reading the texts -/

/-- The text is a string without a 0 in it, of a length that an `unsigned int` counts, and so is
the changed one; and no change is seen. -/
structure LayoutChange.Harmless (c : LayoutChange) : Prop where
  nul : '\x00' ∉ c.before
  lengths : c.before.length + 1 < uintLimit ∧ c.after.length + 1 < uintLimit
  undisturbed : Undisturbed false false c.lines c.tail

/-- A text that is accepted gives the same configuration after the change. -/
def LayoutChange.KeepsConfiguration (junk : Int) (c : LayoutChange) : Prop :=
  ∀ config, alsaReadConfig junk (some c.before) = .ok (.config config) →
    alsaReadConfig junk (some c.after) = .ok (.config config)

/-- A text of lines is read by what the first two passes leave of them. -/
theorem alsaReadConfig_blank (junk : Int) {lines : List (List Char)} {tail : List Char}
    (hlines : ∀ l ∈ lines, '\n' ∉ l) (htail : '\n' ∉ tail)
    (hnul : '\x00' ∉ unlines lines ++ tail)
    (hlen : (unlines lines ++ tail).length + 1 < uintLimit) :
    alsaReadConfig junk (some (unlines lines ++ tail)) =
      if ∀ l ∈ blankLines false lines, l.length < maxLineLen then
        resultOf (readSections junk (keptTail (blankLine (lines.foldl inStrAfter false) tail)) false
          (chunks fileTags ((blankLines false lines).filter isKept)) .zero)
      else .error (.fault .outOfBounds) := by
  have htext : textOf (unlines lines ++ tail) = unlines lines ++ tail := textOf_eq hnul hlen
  have hsplit := splitLines_blankText htail hlines
  have hmod : (unlines lines ++ tail).length % uintLimit + 1 < uintLimit := by
    rw [Nat.mod_eq_of_lt (Nat.lt_of_succ_lt hlen)]
    exact hlen
  have hfits : LinesFit (unlines lines ++ tail) ↔
      ∀ l ∈ blankLines false lines, l.length < maxLineLen := by
    unfold LinesFit
    rw [hsplit]
  have hclean : cleanLines (unlines lines ++ tail) = (blankLines false lines).filter isKept := by
    unfold cleanLines
    rw [hsplit]
  have hrest : cleanTail (unlines lines ++ tail) =
      keptTail (blankLine (lines.foldl inStrAfter false) tail) := by
    unfold cleanTail
    rw [hsplit]
  rw [alsaReadConfig_eq, htext, hclean, hrest]
  by_cases hfit : ∀ l ∈ blankLines false lines, l.length < maxLineLen
  · rw [if_pos ⟨hmod, hfits.mpr hfit⟩, if_pos hfit]
  · rw [if_neg fun h => hfit (hfits.mp h.2), if_neg hfit]

/-- **Layout.**  A change that is not seen keeps the configuration: the clean-up leaves the same
lines of both texts. -/
theorem keepsConfiguration_of_harmless (junk : Int) {c : LayoutChange} (hvalid : c.Valid)
    (h : c.Harmless) : c.KeepsConfiguration junk := by
  intro config haccepted
  obtain ⟨hlines, hfits, htail⟩ := Undisturbed.same hvalid.2 hvalid.1 h.undisturbed
  have hbefore : ∀ l ∈ c.lines.flatMap LineChange.before, '\n' ∉ l := by
    intro l hl
    obtain ⟨d, hd, hl⟩ := List.mem_flatMap.mp hl
    exact (hvalid.1 d hd).newline.1 l hl
  have hafter : ∀ l ∈ c.lines.flatMap LineChange.after, '\n' ∉ l := by
    intro l hl
    obtain ⟨d, hd, hl⟩ := List.mem_flatMap.mp hl
    exact (hvalid.1 d hd).newline.2 l hl
  have hnul : '\x00' ∉ c.after := by
    have hbeforeNul := h.nul
    unfold LayoutChange.before at hbeforeNul
    rw [List.mem_append, not_or, not_mem_unlines (by decide)] at hbeforeNul
    obtain ⟨hl, ht⟩ := Undisturbed.nul hvalid.2 hvalid.1 h.undisturbed hbeforeNul.1 hbeforeNul.2
    unfold LayoutChange.after
    rw [List.mem_append, not_or, not_mem_unlines (by decide)]
    exact ⟨hl, ht⟩
  unfold LayoutChange.before at haccepted
  rw [alsaReadConfig_blank junk hbefore hvalid.2.newline.1 h.nul h.lengths.1] at haccepted
  unfold LayoutChange.after
  rw [alsaReadConfig_blank junk hafter hvalid.2.newline.2 hnul h.lengths.2, hlines, htail]
  by_cases hfit : ∀ l ∈ blankLines false (c.lines.flatMap LineChange.before), l.length < maxLineLen
  · rw [if_pos hfit] at haccepted
    rw [if_pos (hfits hfit)]
    exact haccepted
  · rw [if_neg hfit] at haccepted
    cases haccepted

/-! ## Examples of changes -/

/-- A default for card 0, with a tab before and after the keyword; the blanks before it and the
ends of the lines from it on may change. -/
def cardLines (blanks' : List Char) (cr' : Bool) : List LineChange :=
  [.kept [] [] "[defaults]".toList false false, .kept [] [] "[control]".toList false false,
    .kept ['\t'] blanks' "card\t0".toList false cr',
    .kept [] [] "[end_control]".toList false cr', .kept [] [] "[end_defaults]".toList false cr']

/-- A comment is inserted, a line is indented anew, and lines end with a carriage return. -/
theorem keepsConfiguration_comment :
    LayoutChange.KeepsConfiguration 0
      ⟨.inserted [' '] (.comment "a \"card\"".toList) :: cardLines [' ', ' '] true,
        .kept [] [] []⟩ :=
  keepsConfiguration_of_harmless 0 (by decide +kernel)
    ⟨by decide +kernel, by decide +kernel, by decide +kernel⟩

/-- With a comment of one quote before it the text is refused, and with one of 255 characters
after its `#` the line buffer overflows. -/
theorem comment_changes :
    LayoutChange.Valid ⟨.inserted [] (.comment " a 3.5\" jack".toList) :: cardLines ['\t'] false,
      .kept [] [] []⟩ ∧
    ¬ LayoutChange.KeepsConfiguration 0
      ⟨.inserted [] (.comment " a 3.5\" jack".toList) :: cardLines ['\t'] false, .kept [] [] []⟩ ∧
    ¬ LayoutChange.KeepsConfiguration 0
      ⟨.inserted [] (.comment (List.replicate 255 '-')) :: cardLines ['\t'] false,
        .kept [] [] []⟩ := by
  have hread : alsaReadConfig 0
      (some (LayoutChange.before ⟨cardLines ['\t'] false, .kept [] [] []⟩)) =
      .ok (.config ⟨[], [⟨0, []⟩]⟩) := by decide +kernel
  refine ⟨by decide, fun h => ?_, fun h => ?_⟩
  · exact absurd (h _ hread) (by decide +kernel)
  · exact absurd (h _ hread) (by decide +kernel)

end Blts.Alsa
