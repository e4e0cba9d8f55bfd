import Blts.Alsa.LineWords

/-!
# A text as lines

Where a text consists of lines that fit the buffer, each with its newline, every loop
of the parser goes from line to line.  The sections are read here once more over lists
of lines; `sectionEnd` splits such a list at an end tag.
-/

namespace Blts.Alsa

/-- A line that `cnfparser_readline` copies as it is. -/
def IsLine (line : List Char) : Prop :=
  '\n' ∉ line ∧ line.length < maxLineLen

/-- The text of a list of lines. -/
def unlines : List (List Char) → List Char
  | [] => []
  | line :: lines => line ++ '\n' :: unlines lines

theorem unlines_cons_append (line : List Char) (lines : List (List Char)) (rest : List Char) :
    unlines (line :: lines) ++ rest = line ++ '\n' :: (unlines lines ++ rest) := by
  rw [unlines, List.append_assoc, List.cons_append]

theorem unlines_cons_ne_nil (line : List Char) (lines : List (List Char)) :
    unlines (line :: lines) ≠ [] := by
  simp [unlines]

/-- There are not more lines than characters. -/
theorem length_le_unlines (lines : List (List Char)) : lines.length ≤ (unlines lines).length := by
  induction lines with
  | nil => exact Nat.le_refl 0
  | cons line lines ih =>
      simp only [unlines, List.length_cons, List.length_append]
      omega

theorem takeWhile_line {line : List Char} (h : '\n' ∉ line) (rest : List Char) :
    (line ++ '\n' :: rest).takeWhile (· ≠ '\n') = line := by
  rw [List.takeWhile_append_of_pos]
  · simp
  · intro c hc
    exact decide_eq_true fun heq => h (heq ▸ hc)

/-- **`cnfparser_readline`** at a line. -/
theorem cnfparserReadline_line {line : List Char} (h : IsLine line) (rest : List Char)
    (old : Option (List Char)) :
    cnfparserReadline (line ++ '\n' :: rest) old = .ok (line.length, some line) := by
  have hmin : min line.length maxLineLen = line.length := Nat.min_eq_left (Nat.le_of_lt h.2)
  unfold cnfparserReadline
  rw [if_pos (by simp), takeWhile_line h.1, hmin]
  dsimp only
  rw [if_pos h.2, List.take_left']
  rfl

theorem readLine_line {line : List Char} (h : IsLine line) (rest : List Char)
    (old : Option (List Char)) :
    readLine (line ++ '\n' :: rest) old = .ok (line.length, line) := by
  unfold readLine
  rw [cnfparserReadline_line h]
  show (if line.length < intLimit then _ else _) = _
  rw [if_pos (Nat.lt_trans h.2 (by decide))]

theorem drop_line (line rest : List Char) :
    (line ++ '\n' :: rest).drop (line.length + 1) = rest := by
  rw [List.drop_append, List.drop_eq_nil_of_le (Nat.le_succ _)]
  simp

theorem take_line (line rest : List Char) :
    (line ++ '\n' :: rest).take (line.length + 1) = line ++ ['\n'] := by
  rw [List.take_append, List.take_of_length_le (Nat.le_succ _)]
  simp

/-! ## Sections without sections in them -/

/-- The lines of a section, with the value of the last token. -/
def readLines {σ : Type} (step : List Word → Int → σ → Except CnfStop (Int × σ)) :
    List (List Char) → Int → σ → Except CnfStop σ
  | [], _, params => .ok params
  | line :: lines, value, params => do
      let r ← step (wordsOf line) value params
      readLines step lines r.1 r.2

theorem parseLines_eq {σ : Type}
    {parse : List Char → CnfToken → σ → Except CnfStop (CnfToken × σ)}
    {step : List Word → Int → σ → Except CnfStop (Int × σ)} (h : Follows parse step)
    {lines : List (List Char)} : ∀ {fuel : Nat} (after : List Char) (line : Option (List Char))
      (token : CnfToken) (params : σ), (∀ l ∈ lines, IsLine l) → lines.length ≤ fuel →
        parseLines parse fuel (unlines lines) after line token params =
          readLines step lines token.value params := by
  induction lines with
  | nil =>
      intro fuel after line token params _ _
      cases fuel <;> rfl
  | cons l lines ih =>
      intro fuel after line token params hlines hfuel
      obtain ⟨fuel, rfl⟩ := Nat.exists_eq_add_one.mpr (Nat.zero_lt_of_lt hfuel)
      have hl := hlines l List.mem_cons_self
      have hrest : ∀ l' ∈ lines, IsLine l' := fun l' hl' => hlines l' (List.mem_cons_of_mem l hl')
      rw [parseLines, if_neg (unlines_cons_ne_nil l lines), unlines, List.append_assoc,
        List.cons_append, readLine_line hl, ok_bind, readLines, ← h l token params hl.2]
      dsimp only
      rw [drop_line]
      cases parse l token params with
      | error stop => rfl
      | ok r => exact ih after (some l) r.1 r.2 hrest (Nat.le_of_succ_le_succ hfuel)

theorem parseSection_eq {σ : Type}
    {parse : List Char → CnfToken → σ → Except CnfStop (CnfToken × σ)}
    {step : List Word → Int → σ → Except CnfStop (Int × σ)} (h : Follows parse step)
    {lines : List (List Char)} (junk : Int) (after : List Char) (params : σ)
    (hlines : ∀ l ∈ lines, IsLine l) :
    parseSection parse junk (unlines lines) after params = readLines step lines junk params :=
  parseLines_eq h after none _ params hlines (length_le_unlines lines)

/-! ## Where a section ends -/

/-- The lines before an end tag, and the rest from there on. -/
def sectionEnd (tag : String) (lines : List (List Char)) :
    Option (List (List Char) × List (List Char)) :=
  if tag.toList ∈ lines then
    some (lines.takeWhile (· ≠ tag.toList), lines.dropWhile (· ≠ tag.toList))
  else none

theorem sectionEnd_cons_eq {tag : String} (lines : List (List Char)) :
    sectionEnd tag (tag.toList :: lines) = some ([], tag.toList :: lines) := by
  simp [sectionEnd]

theorem sectionEnd_cons_ne {tag : String} {line : List Char} (h : line ≠ tag.toList)
    (lines : List (List Char)) :
    sectionEnd tag (line :: lines) =
      (sectionEnd tag lines).map fun r => (line :: r.1, r.2) := by
  by_cases hmem : tag.toList ∈ lines
  · simp [sectionEnd, hmem, h]
  · simp [sectionEnd, hmem, Ne.symm h]

/-- The rest is no longer than the lines, and all of them are lines of the text. -/
theorem sectionEnd_length {tag : String} {lines inner rest : List (List Char)}
    (h : sectionEnd tag lines = some (inner, rest)) : lines = inner ++ rest := by
  unfold sectionEnd at h
  split at h
  · cases h
    exact List.takeWhile_append_dropWhile.symm
  · cases h

/-- The rest begins with the end tag. -/
theorem sectionEnd_rest {tag : String} {lines : List (List Char)} :
    ∀ {inner rest : List (List Char)}, sectionEnd tag lines = some (inner, rest) →
      ∃ rest', rest = tag.toList :: rest' := by
  induction lines with
  | nil =>
      intro inner rest h
      cases h
  | cons line lines ih =>
      intro inner rest h
      by_cases hline : line = tag.toList
      · rw [hline, sectionEnd_cons_eq] at h
        cases h
        exact ⟨lines, rfl⟩
      · rw [sectionEnd_cons_ne hline] at h
        obtain ⟨r, hr, heq⟩ := Option.map_eq_some_iff.mp h
        cases heq
        exact ih hr

/-- The lines that begin a section, and those that end it. -/
structure Tags (S : Type) where
  start : List Char → Option S
  stop : S → String

/-- What a text is made of: lines outside of sections, sections with an end, and at last
one without. -/
inductive Chunk (S : Type) where
  | line (line : List Char)
  | part (section_ : S) (inner : List (List Char))
  | noEnd (section_ : S) (rest : List (List Char))

/-- A section is what stands before its end tag; that is a line again. -/
def chunks {S : Type} (tags : Tags S) : List (List Char) → List (Chunk S)
  | [] => []
  | line :: lines =>
      match tags.start line with
      | none => .line line :: chunks tags lines
      | some section_ =>
          match _h : sectionEnd (tags.stop section_) lines with
          | none => [.noEnd section_ lines]
          | some (inner, rest) => .part section_ inner :: chunks tags rest
termination_by lines => lines.length
decreasing_by
  · simp
  · have hlines := sectionEnd_length ‹_›
    have hlength := congrArg List.length hlines
    simp only [List.length_append, List.length_cons] at hlength ⊢
    omega

section

variable {S : Type} {tags : Tags S} {line : List Char} {lines inner rest : List (List Char)}
  {section_ : S}

@[simp] theorem chunks_nil : chunks tags [] = [] := by
  rw [chunks]

theorem chunks_line (h : tags.start line = none) :
    chunks tags (line :: lines) = .line line :: chunks tags lines := by
  rw [chunks]
  simp only [h]

theorem chunks_part (h : tags.start line = some section_)
    (hend : sectionEnd (tags.stop section_) lines = some (inner, rest)) :
    chunks tags (line :: lines) = .part section_ inner :: chunks tags rest := by
  rw [chunks]
  simp only [h]
  split
  case h_1 hnone =>
    rw [hend] at hnone
    cases hnone
  case h_2 inner' rest' hsome =>
    rw [hend] at hsome
    cases hsome
    rfl

theorem chunks_noEnd (h : tags.start line = some section_)
    (hend : sectionEnd (tags.stop section_) lines = none) :
    chunks tags (line :: lines) = [.noEnd section_ lines] := by
  rw [chunks]
  simp only [h]
  split
  case h_1 => rfl
  case h_2 inner' rest' hsome =>
    rw [hend] at hsome
    cases hsome

end

/-- What a search finds in lines with an unterminated text after them. -/
def seekResult (tail : List Char) : Option (List (List Char) × List (List Char)) →
    Except CnfStop (Option (List Char × List Char))
  | some r => .ok (some (unlines r.1, unlines r.2 ++ tail))
  | none => if tail.length < intLimit then .ok none else .error .astray

/-- A text that no newline ends leaves `line` alone. -/
theorem readLine_tail_none {tail : List Char} (h : '\n' ∉ tail) :
    readLine tail none = .error .unset := by
  unfold readLine cnfparserReadline
  rw [if_neg h]
  rfl

theorem readLine_tail_some {tail : List Char} (h : '\n' ∉ tail) (text : List Char) :
    readLine tail (some text) =
      if tail.length < intLimit then .ok (tail.length, text) else .error .astray := by
  unfold readLine cnfparserReadline
  rw [if_neg h]
  rfl

section

variable {tag : String} {tail after : List Char}

/-- A search that comes to an unterminated text. -/
theorem seekSectionEnd_tail (htail : '\n' ∉ tail) (hafter : tail = [] ∨ after = [])
    {text : List Char} (htext : text ≠ tag.toList) {fuel : Nat} (hfuel : tail.length ≤ fuel) :
    seekSectionEnd tag fuel tail after (some text) = seekResult tail none := by
  by_cases hnil : tail = []
  · subst hnil
    cases fuel <;> rfl
  · have hpos := List.length_pos_iff.mpr hnil
    obtain ⟨fuel, rfl⟩ : ∃ k, fuel = k + 1 := ⟨fuel - 1, by omega⟩
    rw [hafter.resolve_left hnil, seekSectionEnd, if_neg hnil, List.append_nil,
      readLine_tail_some htail, seekResult]
    by_cases hlen : tail.length < intLimit
    · rw [if_pos hlen, if_pos hlen, ok_bind]
      dsimp only
      rw [if_neg htext, List.drop_eq_nil_of_le (Nat.le_succ _)]
      cases fuel <;> rfl
    · rw [if_neg hlen, if_neg hlen]
      rfl

/-- A search at a line. -/
theorem seekSectionEnd_cons {lines : List (List Char)} {l : List Char} {fuel : Nat}
    (hrest : l ≠ tag.toList → seekSectionEnd tag fuel (unlines lines ++ tail) after (some l) =
      seekResult tail (sectionEnd tag lines)) (hl : IsLine l) (line : Option (List Char)) :
    seekSectionEnd tag (fuel + 1) (unlines (l :: lines) ++ tail) after line =
      seekResult tail (sectionEnd tag (l :: lines)) := by
  have hne : unlines (l :: lines) ++ tail ≠ [] := by simp [unlines]
  rw [seekSectionEnd, if_neg hne, unlines_cons_append, List.append_assoc, List.cons_append,
    readLine_line hl, ok_bind]
  dsimp only
  by_cases htag : l = tag.toList
  · rw [if_pos htag, htag, sectionEnd_cons_eq]
    simp [unlines, seekResult]
  · rw [if_neg htag, drop_line, take_line, hrest htag, sectionEnd_cons_ne htag]
    cases sectionEnd tag lines with
    | some r => simp [unlines, seekResult]
    | none =>
        show seekResult tail none >>= _ = seekResult tail none
        unfold seekResult
        by_cases hlen : tail.length < intLimit
        · rw [if_pos hlen]
          rfl
        · rw [if_neg hlen]
          rfl

/-- **`cnfparser_seek_section_end`**, where the line before is not the tag. -/
theorem seekSectionEnd_some (htail : '\n' ∉ tail) (hafter : tail = [] ∨ after = [])
    {lines : List (List Char)} : ∀ {fuel : Nat} {text : List Char}, text ≠ tag.toList →
      (∀ l ∈ lines, IsLine l) → lines.length + tail.length ≤ fuel →
        seekSectionEnd tag fuel (unlines lines ++ tail) after (some text) =
          seekResult tail (sectionEnd tag lines) := by
  induction lines with
  | nil =>
      intro fuel text htext _ hfuel
      exact seekSectionEnd_tail htail hafter htext (by simpa using hfuel)
  | cons l lines ih =>
      intro fuel text htext hlines hfuel
      rw [List.length_cons] at hfuel
      obtain ⟨fuel, rfl⟩ : ∃ k, fuel = k + 1 := ⟨fuel - 1, by omega⟩
      exact seekSectionEnd_cons (fun h => ih h (fun l' hl' => hlines l'
        (List.mem_cons_of_mem l hl')) (by omega)) (hlines l List.mem_cons_self) _

variable (tag tail after) in
/-- **`cnfparser_seek_section_end`** from its start, with nothing in `line`. -/
theorem seekSectionEnd_eq (htail : '\n' ∉ tail) (hafter : tail = [] ∨ after = [])
    {lines : List (List Char)} (hlines : ∀ l ∈ lines, IsLine l) :
    seekSectionEnd tag (unlines lines ++ tail).length (unlines lines ++ tail) after none =
      if lines = [] ∧ tail ≠ [] then .error .unset
      else seekResult tail (sectionEnd tag lines) := by
  cases lines with
  | nil =>
      by_cases hnil : tail = []
      · subst hnil
        rfl
      · rw [if_pos ⟨rfl, hnil⟩]
        have hpos := List.length_pos_iff.mpr hnil
        obtain ⟨fuel, hfuel⟩ : ∃ k, tail.length = k + 1 := ⟨tail.length - 1, by omega⟩
        show seekSectionEnd tag tail.length tail after none = _
        rw [hfuel, hafter.resolve_left hnil, seekSectionEnd, if_neg hnil, List.append_nil,
          readLine_tail_none htail]
        rfl
  | cons l lines =>
      rw [if_neg (fun h => (by cases h.1))]
      have hlength := length_le_unlines lines
      obtain ⟨fuel, hfuel⟩ : ∃ k, (unlines (l :: lines) ++ tail).length = k + 1 :=
        Nat.exists_eq_add_one.mpr (List.length_pos_iff.mpr (by simp [unlines]))
      have hle : lines.length + tail.length ≤ fuel := by
        simp only [unlines, List.length_append, List.length_cons] at hfuel
        omega
      rw [hfuel]
      exact seekSectionEnd_cons (fun h => seekSectionEnd_some htail hafter h (fun l' hl' =>
        hlines l' (List.mem_cons_of_mem l hl')) hle) (hlines l List.mem_cons_self) none

end

end Blts.Alsa
