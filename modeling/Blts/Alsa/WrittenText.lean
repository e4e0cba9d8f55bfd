import Mathlib.Data.List.TakeWhile
import Blts.Alsa.WrittenWords
import Blts.Alsa.Capacities

/-!
# Writing lines

The clean-up takes the blanks before a written line away and leaves the line as it is.
-/

namespace Blts.Alsa

open WrittenWord

/-! ## What the first pass leaves alone -/

/-- The first pass changes nothing here, and is in no string before or after. -/
def KeepsTabs (s : List Char) : Prop :=
  ∀ rest, removeTabs false (s ++ rest) = s ++ removeTabs false rest

theorem keepsTabs_nil : KeepsTabs [] := fun _ => rfl

theorem KeepsTabs.append {s s' : List Char} (h : KeepsTabs s) (h' : KeepsTabs s') :
    KeepsTabs (s ++ s') := by
  intro rest
  rw [List.append_assoc, h, h', List.append_assoc]

theorem KeepsTabs.cons {c : Char} {s : List Char} (hc : c ∉ ['"', '\t', '\r'])
    (h : KeepsTabs s) : KeepsTabs (c :: s) := by
  intro rest
  simp only [List.mem_cons, not_or, List.not_mem_nil, not_false_eq_true, and_true] at hc
  obtain ⟨hquote, htab, hreturn⟩ := hc
  have hafter : quoteAfter false c = false := by simp [quoteAfter, hquote]
  have hkeep : removeTabs false (c :: (s ++ rest)) = c :: removeTabs false (s ++ rest) := by
    simp [removeTabs, hafter, hreturn, htab]
  rw [List.cons_append, hkeep, h]
  rfl

theorem keepsTabs_of_plain {s : List Char} (h : ∀ c ∈ s, c ∉ ['"', '\t', '\r']) :
    KeepsTabs s := by
  induction s with
  | nil => exact keepsTabs_nil
  | cons c s ih =>
      exact KeepsTabs.cons (h c List.mem_cons_self)
        (ih fun c' hc' => h c' (List.mem_cons_of_mem c hc'))

/-- In a string everything is kept. -/
theorem removeTabs_string {s : List Char} (h : ∀ c ∈ s, c ≠ '"') (rest : List Char) :
    removeTabs true (s ++ rest) = s ++ removeTabs true rest := by
  induction s with
  | nil => rfl
  | cons c s ih =>
      have hafter : quoteAfter true c = true := by simp [quoteAfter, h c List.mem_cons_self]
      rw [List.cons_append, removeTabs, hafter, if_pos rfl,
        ih fun c' hc' => h c' (List.mem_cons_of_mem c hc')]
      rfl

theorem keepsTabs_quoted {s : List Char} (h : ∀ c ∈ s, c ≠ '"') :
    KeepsTabs ('"' :: s ++ ['"']) := by
  intro rest
  have hopen : removeTabs false ('"' :: s ++ ['"'] ++ rest) =
      '"' :: removeTabs true (s ++ '"' :: rest) := by
    rw [List.append_assoc]
    rfl
  have hclose : removeTabs true ('"' :: rest) = '"' :: removeTabs false rest := rfl
  rw [hopen, removeTabs_string h, hclose, List.append_assoc]
  rfl

/-! ## Written lines -/

/-- A line that the clean-up leaves as it is. -/
structure IsWritten (line : List Char) : Prop where
  tabs : KeepsTabs line
  newline : '\n' ∉ line
  nul : '\x00' ∉ line
  start : ∃ c cs, line = c :: cs ∧ c ≠ ' ' ∧ c ≠ '#'

theorem text_tabs {w : WrittenWord} (h : w.WellFormed) : KeepsTabs w.text := by
  cases w with
  | bare str =>
      refine keepsTabs_of_plain fun c hc hmem => h.1 c hc ?_
      simp only [List.mem_cons, List.not_mem_nil, or_false] at hmem
      obtain rfl | rfl | rfl := hmem
      · decide
      · decide
      · decide
  | quoted str =>
      refine keepsTabs_quoted fun c hc heq => h c hc ?_
      rw [heq]
      exact List.mem_cons_self
  | number n =>
      refine keepsTabs_of_plain fun c hc hmem => ?_
      have hdigit := digits_isDigit hc
      simp only [List.mem_cons, List.not_mem_nil, or_false] at hmem
      obtain rfl | rfl | rfl := hmem
      · exact absurd hdigit (by decide)
      · exact absurd hdigit (by decide)
      · exact absurd hdigit (by decide)

/-- A word has no character that a line or a text ends at. -/
theorem text_not_mem {w : WrittenWord} (h : w.WellFormed) :
    '\n' ∉ w.text ∧ '\x00' ∉ w.text := by
  cases w with
  | bare str => exact ⟨fun hmem => h.1 _ hmem (by decide), fun hmem => h.1 _ hmem (by decide)⟩
  | quoted str =>
      have hchars (c : Char) (hc : c ≠ '"') (hmem : c ∈ (quoted str).text) : c ∈ str := by
        simpa [text, hc] using hmem
      exact ⟨fun hmem => h _ (hchars _ (by decide) hmem) (by decide),
        fun hmem => h _ (hchars _ (by decide) hmem) (by decide)⟩
  | number n =>
      exact ⟨fun hmem => absurd (digits_isDigit hmem) (by decide),
        fun hmem => absurd (digits_isDigit hmem) (by decide)⟩

theorem mem_writeLine {k : WrittenWord} {words : List WrittenWord} {c : Char}
    (h : c ∈ writeLine k words) : c = ' ' ∨ ∃ w ∈ k :: words, c ∈ w.text := by
  rw [writeLine, List.mem_append, List.mem_flatMap] at h
  cases h with
  | inl h => exact .inr ⟨k, List.mem_cons_self, h⟩
  | inr h =>
      obtain ⟨w, hw, hc⟩ := h
      cases hc with
      | head => exact .inl rfl
      | tail _ hc => exact .inr ⟨w, List.mem_cons_of_mem k hw, hc⟩

/-- A line that begins with a keyword is a written line. -/
theorem isWritten_writeLine {keyword : List Char} {words : List WrittenWord}
    (hkeyword : IsBare keyword) (hcomment : keyword.head? ≠ some '#')
    (hwords : ∀ w ∈ words, w.WellFormed) : IsWritten (writeLine (.bare keyword) words) := by
  have hall : ∀ w ∈ bare keyword :: words, w.WellFormed := by
    intro w hw
    cases hw with
    | head => exact hkeyword
    | tail _ hw => exact hwords w hw
  refine ⟨?_, ?_, ?_, ?_⟩
  · refine KeepsTabs.append (text_tabs (w := .bare keyword) hkeyword) ?_
    clear hall
    induction words with
    | nil => exact keepsTabs_nil
    | cons w words ih =>
        rw [List.flatMap_cons]
        exact ((text_tabs (hwords w List.mem_cons_self)).cons (by decide)).append
          (ih fun w' hw' => hwords w' (List.mem_cons_of_mem w hw'))
  · intro hmem
    cases mem_writeLine hmem with
    | inl h => exact absurd h (by decide)
    | inr h =>
        obtain ⟨w, hw, hc⟩ := h
        exact (text_not_mem (hall w hw)).1 hc
  · intro hmem
    cases mem_writeLine hmem with
    | inl h => exact absurd h (by decide)
    | inr h =>
        obtain ⟨w, hw, hc⟩ := h
        exact (text_not_mem (hall w hw)).2 hc
  · cases hstr : keyword with
    | nil => exact absurd hstr (IsBare.plain hkeyword).1
    | cons c cs =>
        refine ⟨c, _, rfl, ?_, ?_⟩
        · exact ((IsBare.plain hkeyword).2.1 c (hstr ▸ List.mem_cons_self)).2.1
        · intro hc
          rw [hstr, hc] at hcomment
          exact hcomment rfl

/-! ## Indentation -/

/-- A written line with blanks before it, if it still fits. -/
def IsIndented (line line' : List Char) : Prop :=
  ∃ indent, (∀ c ∈ indent, c = ' ' ∨ c = '\t') ∧ line' = indent ++ line ∧
    line'.length < maxLineLen

/-- A text of these lines, each of them with any indentation. -/
def IsTextOf (lines : List (List Char)) (text : List Char) : Prop :=
  ∃ lines', List.Forall₂ IsIndented lines lines' ∧ text = unlines lines'

theorem removeTabs_indent {indent : List Char} (h : ∀ c ∈ indent, c = ' ' ∨ c = '\t')
    (rest : List Char) : removeTabs false (indent ++ rest) =
      List.replicate indent.length ' ' ++ removeTabs false rest := by
  induction indent with
  | nil => rfl
  | cons c indent ih =>
      have hblank : removeTabs false (c :: (indent ++ rest)) =
          ' ' :: removeTabs false (indent ++ rest) := by
        cases h c List.mem_cons_self with
        | inl hc => rw [hc]; rfl
        | inr hc => rw [hc]; rfl
      rw [List.cons_append, hblank, ih fun c' hc' => h c' (List.mem_cons_of_mem c hc')]
      rfl

theorem removeSpaces_inside {line : List Char} (h : '\n' ∉ line) (rest : List Char) :
    removeSpaces false (line ++ '\n' :: rest) = line ++ '\n' :: removeSpaces true rest := by
  induction line with
  | nil => rfl
  | cons c line ih =>
      have hc : (c == '\n') = false := by
        simpa using fun heq : c = '\n' => h (heq ▸ List.mem_cons_self)
      rw [List.cons_append, removeSpaces, hc, ih fun hmem => h (List.mem_cons_of_mem c hmem)]
      rfl

theorem removeSpaces_line {line : List Char} (h : IsWritten line) (n : Nat) (rest : List Char) :
    removeSpaces true (List.replicate n ' ' ++ (line ++ '\n' :: rest)) =
      line ++ '\n' :: removeSpaces true rest := by
  induction n with
  | zero =>
      have hnewline := h.newline
      obtain ⟨c, cs, rfl, hspace, _⟩ := h.start
      have hc : (c == '\n') = false := by
        simpa using fun heq : c = '\n' => hnewline (heq ▸ List.mem_cons_self)
      show removeSpaces true (c :: (cs ++ '\n' :: rest)) = _
      rw [removeSpaces, hc, removeSpaces_inside fun hmem => hnewline (List.mem_cons_of_mem c hmem)]
      simp [hspace]
  | succ n ih => exact ih

/-- The first two passes give the lines as they were written. -/
theorem blankText_indented {lines lines' : List (List Char)}
    (h : List.Forall₂ IsIndented lines lines') (hlines : ∀ l ∈ lines, IsWritten l) :
    blankText (unlines lines') = unlines lines := by
  unfold blankText
  induction h with
  | nil => rfl
  | @cons line line' lines lines' hline _ ih =>
      have hwritten := hlines line List.mem_cons_self
      obtain ⟨indent, hindent, rfl, _⟩ := hline
      have hnewline : removeTabs false ('\n' :: unlines lines') =
          '\n' :: removeTabs false (unlines lines') := rfl
      rw [unlines, List.append_assoc, removeTabs_indent hindent, hwritten.tabs, hnewline,
        removeSpaces_line hwritten, ih fun l hl => hlines l (List.mem_cons_of_mem line hl)]
      rfl

/-! ## Reading a written text -/

theorem IsWritten.isKept {line : List Char} (h : IsWritten line) : isKept line = true := by
  obtain ⟨c, cs, rfl, _, hcomment⟩ := h.start
  simp [Alsa.isKept, hcomment]

theorem indented_length {lines lines' : List (List Char)}
    (h : List.Forall₂ IsIndented lines lines') : ∀ l ∈ lines, l.length < maxLineLen := by
  induction h with
  | nil => exact fun l hl => (by cases hl)
  | cons hline _ ih =>
      intro l hl
      cases hl with
      | head =>
          obtain ⟨indent, _, rfl, hlen⟩ := hline
          rw [List.length_append] at hlen
          omega
      | tail _ hl => exact ih l hl

theorem indented_nul {lines lines' : List (List Char)}
    (h : List.Forall₂ IsIndented lines lines') (hlines : ∀ l ∈ lines, IsWritten l) :
    '\x00' ∉ unlines lines' := by
  induction h with
  | nil => exact List.not_mem_nil
  | @cons line line' lines lines' hline _ ih =>
      obtain ⟨indent, hindent, rfl, _⟩ := hline
      have hrest := ih fun l hl => hlines l (List.mem_cons_of_mem line hl)
      have hnul := (hlines line List.mem_cons_self).nul
      intro hmem
      rw [unlines, List.mem_append, List.mem_append, List.mem_cons] at hmem
      obtain (hmem | hmem) | hmem | hmem := hmem
      · exact absurd (hindent _ hmem) (by decide)
      · exact hnul hmem
      · exact absurd hmem (by decide)
      · exact hrest hmem

theorem textOf_eq {text : List Char} (hnul : '\x00' ∉ text)
    (hlen : text.length + 1 < uintLimit) : textOf text = text := by
  unfold textOf cString
  rw [Nat.mod_eq_of_lt (Nat.lt_of_succ_lt hlen), List.take_length]
  apply List.takeWhile_eq_self_iff.mpr
  intro c hc
  exact decide_eq_true fun heq => hnul (heq ▸ hc)

/-- **`alsa_read_config`** reads a written text line by line. -/
theorem alsaReadConfig_lines (junk : Int) {lines : List (List Char)} {text : List Char}
    (htext : IsTextOf lines text) (hlines : ∀ l ∈ lines, IsWritten l)
    (hlen : text.length + 1 < uintLimit) :
    alsaReadConfig junk (some text) =
      resultOf (readSections junk [] false (chunks fileTags lines) .zero) := by
  obtain ⟨lines', hindented, rfl⟩ := htext
  have htextOf := textOf_eq (indented_nul hindented hlines) hlen
  have hsplit : splitLines (blankText (unlines lines')) = (lines, []) := by
    rw [blankText_indented hindented hlines, ← List.append_nil (unlines lines)]
    exact splitLines_unlines List.not_mem_nil fun l hl => (hlines l hl).newline
  have hfit : LinesFit (unlines lines') := by
    unfold LinesFit
    rw [hsplit]
    exact indented_length hindented
  have hclean : cleanLines (unlines lines') = lines := by
    unfold cleanLines
    rw [hsplit]
    exact List.filter_eq_self.mpr fun l hl => (hlines l hl).isKept
  have htail : cleanTail (unlines lines') = [] := by
    unfold cleanTail
    rw [hsplit]
    rfl
  have hmod : (unlines lines').length % uintLimit = (unlines lines').length :=
    Nat.mod_eq_of_lt (Nat.lt_of_succ_lt hlen)
  rw [alsaReadConfig_eq, htextOf, hclean, htail, if_pos ⟨by rw [hmod]; exact hlen, hfit⟩]

end Blts.Alsa
