import Blts.Alsa.FileLines

/-!
# The cleaned text

Every text is a list of lines and what follows the last newline.  The third pass of
`cnfparser_cleanup` goes through the lines, and stops at one that is too long for its
buffer; otherwise the comments and the empty lines go.
-/

namespace Blts.Alsa

/-- The lines of a text, and what no newline ends. -/
def splitLines : List Char → List (List Char) × List Char
  | [] => ([], [])
  | c :: cs =>
      if c = '\n' then ([] :: (splitLines cs).1, (splitLines cs).2)
      else
        match (splitLines cs).1 with
        | [] => ([], c :: (splitLines cs).2)
        | line :: lines => ((c :: line) :: lines, (splitLines cs).2)

theorem splitLines_line {line : List Char} (h : '\n' ∉ line) (rest : List Char) :
    splitLines (line ++ '\n' :: rest) = (line :: (splitLines rest).1, (splitLines rest).2) := by
  induction line with
  | nil =>
      show splitLines ('\n' :: rest) = _
      rw [splitLines, if_pos rfl]
  | cons c line ih =>
      have hc : c ≠ '\n' := fun heq => h (heq ▸ List.mem_cons_self)
      rw [List.cons_append, splitLines, if_neg hc,
        ih fun hmem => h (List.mem_cons_of_mem c hmem)]

theorem splitLines_tail {tail : List Char} (h : '\n' ∉ tail) : splitLines tail = ([], tail) := by
  induction tail with
  | nil => rfl
  | cons c tail ih =>
      have hc : c ≠ '\n' := fun heq => h (heq ▸ List.mem_cons_self)
      rw [splitLines, if_neg hc, ih fun hmem => h (List.mem_cons_of_mem c hmem)]

/-- A list of lines with an unterminated text is split into these. -/
theorem splitLines_unlines {tail : List Char} (htail : '\n' ∉ tail) {lines : List (List Char)}
    (hlines : ∀ l ∈ lines, '\n' ∉ l) : splitLines (unlines lines ++ tail) = (lines, tail) := by
  induction lines with
  | nil => exact splitLines_tail htail
  | cons line lines ih =>
      rw [unlines_cons_append, splitLines_line (hlines line List.mem_cons_self),
        ih fun l hl => hlines l (List.mem_cons_of_mem line hl)]

/-- The parts make the text. -/
theorem unlines_splitLines (buf : List Char) :
    unlines (splitLines buf).1 ++ (splitLines buf).2 = buf ∧
      (∀ l ∈ (splitLines buf).1, '\n' ∉ l) ∧ '\n' ∉ (splitLines buf).2 := by
  induction buf with
  | nil => exact ⟨rfl, fun l hl => (by cases hl), List.not_mem_nil⟩
  | cons c cs ih =>
      obtain ⟨htext, hlines, htail⟩ := ih
      rw [splitLines]
      by_cases hc : c = '\n'
      · rw [if_pos hc]
        refine ⟨?_, ?_, htail⟩
        · rw [unlines_cons_append, htext, hc]
          rfl
        · intro l hl
          cases hl with
          | head => exact List.not_mem_nil
          | tail _ hl => exact hlines l hl
      · rw [if_neg hc]
        cases hsplit : (splitLines cs).1 with
        | nil =>
            rw [hsplit] at htext
            refine ⟨congrArg (c :: ·) htext, fun l hl => (by cases hl), fun hmem => ?_⟩
            cases hmem with
            | head => exact hc rfl
            | tail _ hmem => exact htail hmem
        | cons line lines =>
            rw [hsplit] at htext hlines
            refine ⟨congrArg (c :: ·) htext, ?_, htail⟩
            intro l hl
            cases hl with
            | head =>
                intro hmem
                cases hmem with
                | head => exact hc rfl
                | tail _ hmem => exact hlines line List.mem_cons_self hmem
            | tail _ hl => exact hlines l (List.mem_cons_of_mem line hl)

/-! ## The third pass -/

/-- The line is no comment and not empty. -/
def isKept (line : List Char) : Bool :=
  line != [] && line.head? != some '#'

/-- What is left of an unterminated text. -/
def keptTail (tail : List Char) : List Char :=
  if tail.head? = some '#' then [] else tail

theorem cnfparserReadline_long {line : List Char} (h : '\n' ∉ line)
    (hlen : ¬ line.length < maxLineLen) (rest : List Char) (old : Option (List Char)) :
    cnfparserReadline (line ++ '\n' :: rest) old = .error (.fault .outOfBounds) := by
  have hmin : min line.length maxLineLen = maxLineLen := Nat.min_eq_right (Nat.not_lt.mp hlen)
  unfold cnfparserReadline
  rw [if_pos (by simp), takeWhile_line h, hmin]
  dsimp only
  rw [if_neg (Nat.lt_irrefl _)]

theorem removeComments_nil (fuel : Nat) : removeComments fuel [] = .ok [] := by
  cases fuel <;> rfl

theorem removeComments_tail {tail : List Char} (htail : '\n' ∉ tail) {fuel : Nat}
    (hfuel : tail.length ≤ fuel) : removeComments fuel tail = .ok (keptTail tail) := by
  by_cases hnil : tail = []
  · subst hnil
    exact removeComments_nil fuel
  · have hpos := List.length_pos_iff.mpr hnil
    obtain ⟨fuel, rfl⟩ : ∃ k, fuel = k + 1 := ⟨fuel - 1, by omega⟩
    have hread : cnfparserReadline tail none = .ok (tail.length, none) := if_neg htail
    rw [removeComments, if_neg hnil, hread, ok_bind]
    dsimp only
    unfold keptTail
    rw [if_neg (by omega)]
    by_cases hhash : tail.head? = some '#'
    · rw [if_pos hhash, if_pos hhash, List.drop_eq_nil_of_le (Nat.le_refl _), removeComments_nil]
    · rw [if_neg hhash, if_neg hhash, List.drop_eq_nil_of_le (Nat.le_succ _), removeComments_nil,
        ok_bind, List.take_of_length_le (Nat.le_succ _), List.append_nil]

theorem removeComments_empty {fuel : Nat} (rest : List Char) :
    removeComments (fuel + 1) ('\n' :: rest) = removeComments fuel rest := by
  rw [removeComments, if_neg (List.cons_ne_nil _ _),
    show '\n' :: rest = [] ++ '\n' :: rest from rfl,
    cnfparserReadline_line ⟨List.not_mem_nil, by decide⟩, ok_bind]
  rfl

/-- **The third pass** over the lines of a text. -/
theorem removeComments_eq {tail : List Char} (htail : '\n' ∉ tail) {lines : List (List Char)} :
    ∀ {fuel : Nat}, (∀ l ∈ lines, '\n' ∉ l) → (unlines lines ++ tail).length ≤ fuel →
      removeComments fuel (unlines lines ++ tail) =
        if ∀ l ∈ lines, l.length < maxLineLen then
          .ok (unlines (lines.filter isKept) ++ keptTail tail)
        else .error (.fault .outOfBounds) := by
  induction lines with
  | nil =>
      intro fuel _ hfuel
      rw [if_pos fun l hl => (by cases hl)]
      exact removeComments_tail htail hfuel
  | cons line lines ih =>
      intro fuel hlines hfuel
      have hline := hlines line List.mem_cons_self
      have hrest : ∀ l ∈ lines, '\n' ∉ l := fun l hl => hlines l (List.mem_cons_of_mem line hl)
      rw [unlines_cons_append] at hfuel ⊢
      rw [List.length_append, List.length_cons] at hfuel
      obtain ⟨fuel, rfl⟩ : ∃ k, fuel = k + 1 := ⟨fuel - 1, by omega⟩
      by_cases hlen : line.length < maxLineLen
      · have hall : (∀ l ∈ line :: lines, l.length < maxLineLen) ↔
            ∀ l ∈ lines, l.length < maxLineLen := by
          rw [List.forall_mem_cons]
          exact and_iff_right hlen
        simp only [hall]
        by_cases hnil : line = []
        · subst hnil
          rw [List.nil_append, removeComments_empty, ih hrest (by simpa using hfuel)]
          rfl
        · have hpos := List.length_pos_iff.mpr hnil
          have hne : line ++ '\n' :: (unlines lines ++ tail) ≠ [] := by simp
          have hhead : (line ++ '\n' :: (unlines lines ++ tail)).head? = line.head? := by
            cases line with
            | nil => exact absurd rfl hnil
            | cons c line => rfl
          rw [removeComments, if_neg hne, cnfparserReadline_line ⟨hline, hlen⟩, ok_bind]
          dsimp only
          rw [if_neg (by omega), hhead]
          by_cases hhash : line.head? = some '#'
          · obtain ⟨fuel, rfl⟩ : ∃ k, fuel = k + 1 := ⟨fuel - 1, by omega⟩
            have hkept : isKept line = false := by simp [isKept, hhash]
            rw [if_pos hhash, List.drop_left, removeComments_empty, ih hrest (by omega),
              List.filter_cons, hkept]
            rfl
          · have hkept : isKept line = true := by simp [isKept, hnil, hhash]
            rw [if_neg hhash, drop_line, take_line, ih hrest (by omega), List.filter_cons, hkept]
            by_cases hshort : ∀ l ∈ lines, l.length < maxLineLen
            · rw [if_pos hshort, if_pos hshort]
              simp [unlines]
            · rw [if_neg hshort, if_neg hshort]
              rfl
      · have hne : line ++ '\n' :: (unlines lines ++ tail) ≠ [] := by simp
        rw [if_neg fun h => hlen (h line List.mem_cons_self), removeComments, if_neg hne,
          cnfparserReadline_long hline hlen]
        rfl

/-! ## Reading a file by lines -/

/-- The text after the first two passes. -/
def blankText (buf : List Char) : List Char :=
  removeSpaces true (removeTabs false buf)

/-- The lines that a text is read as. -/
def cleanLines (buf : List Char) : List (List Char) :=
  (splitLines (blankText buf)).1.filter isKept

/-- The unterminated text after them. -/
def cleanTail (buf : List Char) : List Char :=
  keptTail (splitLines (blankText buf)).2

/-- Every line fits its buffer. -/
def LinesFit (buf : List Char) : Prop :=
  ∀ l ∈ (splitLines (blankText buf)).1, l.length < maxLineLen

instance (buf : List Char) : Decidable (LinesFit buf) :=
  inferInstanceAs (Decidable (∀ l ∈ (splitLines (blankText buf)).1, l.length < maxLineLen))

/-- **`cnfparser_cleanup`** by lines. -/
theorem cnfparserCleanup_eq (buf : List Char) :
    cnfparserCleanup buf =
      if LinesFit buf then .ok (unlines (cleanLines buf) ++ cleanTail buf)
      else .error (.fault .outOfBounds) := by
  obtain ⟨htext, hlines, htail⟩ := unlines_splitLines (blankText buf)
  have h := removeComments_eq htail hlines (Nat.le_refl _)
  rw [htext] at h
  exact h

theorem cleanLines_isLine {buf : List Char} (h : LinesFit buf) :
    ∀ l ∈ cleanLines buf, IsLine l := by
  intro l hl
  have hmem := (List.mem_filter.mp hl).1
  exact ⟨(unlines_splitLines (blankText buf)).2.1 l hmem, h l hmem⟩

theorem cleanTail_plain (buf : List Char) : '\n' ∉ cleanTail buf := by
  unfold cleanTail keptTail
  split
  · exact List.not_mem_nil
  · exact (unlines_splitLines (blankText buf)).2.2

/-- **Reading the sections** of a cleaned text by lines. -/
theorem cnfparserParseSections_eq (junk : Int) {buf : List Char} (h : LinesFit buf) :
    cnfparserParseSections junk (unlines (cleanLines buf) ++ cleanTail buf) =
      readSections junk (cleanTail buf) false (chunks fileTags (cleanLines buf)) .zero := by
  unfold cnfparserParseSections
  have hfuel : (cleanLines buf).length + (cleanTail buf).length ≤
      (unlines (cleanLines buf) ++ cleanTail buf).length := by
    rw [List.length_append]
    exact Nat.add_le_add_right (length_le_unlines _) _
  have hstale : ∀ text, none = some text → cleanLines buf = [] →
      text ≠ "[testset]".toList ∧ text ≠ "[defaults]".toList := by
    intro text htext
    cases htext
  exact parseSections_eq (cleanTail_plain buf) .zero (cleanLines_isLine h) hfuel hstale

end Blts.Alsa
