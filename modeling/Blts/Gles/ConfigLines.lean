import Blts.Gles.ConfigFile
import Blts.Alsa.CleanLines

/-!
# The configuration file by lines

The text is a list of lines with an unterminated text after it.  Every pass and every
search goes from line to line: `JoinsFit` and `SearchFits` say when none of them stops.
-/

namespace Blts.Gles

open Blts.Alsa (CnfStop IsLine cnfparserReadline cnfparserReadline_line cnfparserReadline_long
  drop_line intLimit maxLineLen ok_bind readLine readLine_line readLine_tail_none
  readLine_tail_some take_line unlines unlines_cons_append unlines_cons_ne_nil)

/-! ## Joining lines -/

/-- The line ends with a backslash. -/
def Continued (line : List Char) : Prop :=
  line.getLast? = some '\\'

instance (line : List Char) : Decidable (Continued line) :=
  inferInstanceAs (Decidable (line.getLast? = some '\\'))

/-- The lines after the third pass, and what has been joined and not been ended. -/
def joinedLines : List Char → List (List Char) → List (List Char) × List Char
  | start, [] => ([], start)
  | start, line :: lines =>
      if Continued (start ++ line) then joinedLines (start ++ line).dropLast lines
      else ((start ++ line) :: (joinedLines [] lines).1, (joinedLines [] lines).2)

/-- Every line fits its buffer, whenever it is read. -/
def JoinsFit : List Char → List (List Char) → Prop
  | _, [] => True
  | start, line :: lines =>
      (start ++ line).length < maxLineLen ∧
        if Continued (start ++ line) then JoinsFit (start ++ line).dropLast lines
        else JoinsFit [] lines

instance decidableJoinsFit : (start : List Char) → (lines : List (List Char)) →
    Decidable (JoinsFit start lines)
  | _, [] => .isTrue trivial
  | start, line :: lines => by
      have := decidableJoinsFit (start ++ line).dropLast lines
      have := decidableJoinsFit [] lines
      unfold JoinsFit
      infer_instance

section

variable {line tail rest start : List Char} {lines : List (List Char)}

theorem ne_nil_of_continued (h : Continued line) : line ≠ [] := by
  rintro rfl
  cases h

/-- The last character of a line that a newline ends. -/
theorem getElem?_last (hne : line ≠ []) (rest : List Char) :
    (line ++ rest)[line.length - 1]? = line.getLast? := by
  have hpos := List.length_pos_iff.mpr hne
  rw [List.getElem?_append_left (by omega), List.getLast?_eq_getElem?]

/-- A backslash goes with the newline after it. -/
theorem removeData_two (c d : Char) (rest : List Char) :
    cnfparserRemoveData (c :: d :: rest) 0 2 = .ok rest := by
  unfold cnfparserRemoveData
  simp only [List.length_cons]
  rw [if_neg (by omega), if_pos (by omega)]
  rfl

theorem joinRound_line (hline : IsLine line) (hne : line ≠ []) (rest : List Char) :
    joinRound (line ++ '\n' :: rest) =
      if Continued line then .ok ([], line.dropLast ++ rest)
      else .ok (line ++ ['\n'], rest) := by
  have hpos := List.length_pos_iff.mpr hne
  unfold joinRound
  rw [cnfparserReadline_line hline, ok_bind]
  dsimp only
  rw [if_neg (by omega), getElem?_last hne]
  by_cases hlast : Continued line
  · obtain ⟨pre, rfl⟩ : ∃ pre, line = pre ++ ['\\'] := by
      obtain ⟨pre, hpre⟩ := List.getLast?_eq_some_iff.mp hlast
      exact ⟨pre, hpre⟩
    have hbackslash : (pre ++ ['\\']).getLast? = some '\\' := hlast
    have hdrop : (pre ++ ['\\'] ++ '\n' :: rest).drop ((pre ++ ['\\']).length - 1) =
        '\\' :: '\n' :: rest := by simp
    have htake : (pre ++ ['\\'] ++ '\n' :: rest).take ((pre ++ ['\\']).length - 1) = pre := by
      simp
    rw [if_pos hbackslash, if_pos hlast, hdrop, htake, removeData_two, ok_bind,
      List.dropLast_concat]
  · have hother : ¬ line.getLast? = some '\\' := hlast
    rw [if_neg hother, if_neg hlast, take_line, drop_line]

theorem joinRound_long (hline : '\n' ∉ line) (hlong : ¬ line.length < maxLineLen) :
    joinRound (line ++ '\n' :: rest) = .error (.fault .outOfBounds) := by
  unfold joinRound
  rw [cnfparserReadline_long hline hlong]
  rfl

/-- At an unterminated text that ends with a backslash nothing changes. -/
theorem joinRound_tail (htail : '\n' ∉ tail) (hne : tail ≠ []) :
    joinRound tail = if Continued tail then .ok ([], tail) else .ok (tail, []) := by
  have hpos := List.length_pos_iff.mpr hne
  have hread : cnfparserReadline tail none = .ok (tail.length, none) := if_neg htail
  have hlen : tail[tail.length - 1]? = tail.getLast? := List.getLast?_eq_getElem?.symm
  unfold joinRound
  rw [hread, ok_bind]
  dsimp only
  rw [if_neg (by omega), hlen]
  by_cases hlast : Continued tail
  · have hdrop : (tail.drop (tail.length - 1)).length = 1 := by
      rw [List.length_drop]
      omega
    have hremove : cnfparserRemoveData (tail.drop (tail.length - 1)) 0 2 =
        .ok (tail.drop (tail.length - 1)) := by
      unfold cnfparserRemoveData
      rw [hdrop]
      rfl
    have hbackslash : tail.getLast? = some '\\' := hlast
    rw [if_pos hbackslash, if_pos hlast, hremove, ok_bind, List.take_append_drop]
  · have hother : ¬ tail.getLast? = some '\\' := hlast
    rw [if_neg hother, if_neg hlast, List.take_of_length_le (Nat.le_succ _),
      List.drop_eq_nil_of_le (Nat.le_succ _)]

/-- What the rounds make of the rest of the text. -/
theorem joinLines_round {rounds : Nat} {buf passed rest : List Char} (hne : buf ≠ [])
    (hround : joinRound buf = .ok (passed, rest)) :
    joinLines (rounds + 1) buf = (joinLines rounds rest).map fun r => r.map (passed ++ ·) := by
  rw [joinLines, if_neg hne, hround]

theorem joinLines_nil (rounds : Nat) : joinLines rounds [] = some (.ok []) := by
  cases rounds <;> rfl

theorem joinLines_tail (htail : '\n' ∉ tail) (hlast : ¬ Continued tail) (rounds : Nat) :
    joinLines (rounds + 1) tail = some (.ok tail) := by
  by_cases hnil : tail = []
  · rw [hnil, joinLines_nil]
  · have hround := joinRound_tail htail hnil
    rw [if_neg hlast] at hround
    rw [joinLines_round hnil hround, joinLines_nil]
    simp [Except.map]

/-- A text that ends with a backslash is read again and again. -/
theorem joinLines_stuck (htail : '\n' ∉ tail) (hlast : Continued tail) (rounds : Nat) :
    joinLines rounds tail = none := by
  have hnil := ne_nil_of_continued hlast
  have hround := joinRound_tail htail hnil
  rw [if_pos hlast] at hround
  induction rounds with
  | zero => rw [joinLines, if_neg hnil]
  | succ rounds ih =>
      rw [joinLines_round hnil hround, ih]
      rfl

theorem map_append_eq_ok {x : Option (Except CnfStop (List Char))} {passed r : List Char}
    (h : (x.map fun r => r.map (passed ++ ·)) = some (.ok r)) :
    ∃ r', x = some (.ok r') ∧ r = passed ++ r' := by
  obtain ⟨y, hy, hmap⟩ := Option.map_eq_some_iff.mp h
  cases y with
  | error stop => cases hmap
  | ok r' =>
      cases hmap
      exact ⟨r', hy, rfl⟩

theorem newline_not_mem_dropLast (h : '\n' ∉ line) : '\n' ∉ line.dropLast :=
  fun hmem => h (List.dropLast_subset line hmem)

theorem newline_not_mem_append (hstart : '\n' ∉ start) (hline : '\n' ∉ line) :
    '\n' ∉ start ++ line :=
  fun hmem => (List.mem_append.mp hmem).elim hstart hline

/-- The text with the start of the line at `ptr` joined to it. -/
theorem joinText_cons (start line tail : List Char) (lines : List (List Char)) :
    start ++ (unlines (line :: lines) ++ tail) =
      (start ++ line) ++ '\n' :: (unlines lines ++ tail) := by
  rw [unlines_cons_append, List.append_assoc]

/-- **The third pass** comes to an end where the lines fit and the last is not continued. -/
theorem joinLines_ok (htail : '\n' ∉ tail) : ∀ (lines : List (List Char)) {start : List Char},
    '\n' ∉ start → (∀ l ∈ lines, '\n' ∉ l ∧ l ≠ []) → JoinsFit start lines →
      ¬ Continued ((joinedLines start lines).2 ++ tail) →
      joinLines (lines.length + 1) (start ++ (unlines lines ++ tail)) =
        some (.ok (unlines (joinedLines start lines).1 ++
          ((joinedLines start lines).2 ++ tail))) := by
  intro lines
  induction lines with
  | nil =>
      intro start hstart _ _ hlast
      exact joinLines_tail (newline_not_mem_append hstart htail) hlast 0
  | cons line lines ih =>
      intro start hstart hlines hfit hlast
      obtain ⟨hline, hne⟩ := hlines line List.mem_cons_self
      have hrest := fun l hl => hlines l (List.mem_cons_of_mem line hl)
      have hplain := newline_not_mem_append hstart hline
      have hne' : start ++ line ≠ [] := by simp [hne]
      have hround := joinRound_line ⟨hplain, hfit.1⟩ hne' (unlines lines ++ tail)
      have hnil : (start ++ line) ++ '\n' :: (unlines lines ++ tail) ≠ [] := by simp
      rw [joinText_cons, List.length_cons]
      rw [JoinsFit] at hfit
      rw [joinedLines] at hlast ⊢
      by_cases hcont : Continued (start ++ line)
      · rw [if_pos hcont] at hround hlast ⊢
        rw [if_pos hcont] at hfit
        rw [joinLines_round hnil hround, ih (newline_not_mem_dropLast hplain) hrest hfit.2 hlast]
        rfl
      · rw [if_neg hcont] at hround hlast ⊢
        rw [if_neg hcont] at hfit
        have hjoin := ih List.not_mem_nil hrest hfit.2 hlast
        rw [List.nil_append] at hjoin
        rw [joinLines_round hnil hround, hjoin]
        simp [Except.map, unlines]

/-- **The third pass** comes to an end nowhere else, and always with the same text. -/
theorem joinLines_only (htail : '\n' ∉ tail) : ∀ (lines : List (List Char))
    {start : List Char} {rounds : Nat} {r : List Char},
    '\n' ∉ start → (∀ l ∈ lines, '\n' ∉ l ∧ l ≠ []) →
      joinLines rounds (start ++ (unlines lines ++ tail)) = some (.ok r) →
      JoinsFit start lines ∧ ¬ Continued ((joinedLines start lines).2 ++ tail) ∧
        r = unlines (joinedLines start lines).1 ++ ((joinedLines start lines).2 ++ tail) := by
  intro lines
  induction lines with
  | nil =>
      intro start rounds r hstart _ hr
      have hplain := newline_not_mem_append hstart htail
      rw [unlines, List.nil_append] at hr
      by_cases hlast : Continued (start ++ tail)
      · rw [joinLines_stuck hplain hlast] at hr
        cases hr
      · refine ⟨trivial, hlast, ?_⟩
        cases rounds with
        | zero =>
            rw [joinLines] at hr
            split at hr
            · next hnil =>
                cases hr
                exact hnil.symm
            · cases hr
        | succ rounds =>
            rw [joinLines_tail hplain hlast] at hr
            cases hr
            rfl
  | cons line lines ih =>
      intro start rounds r hstart hlines hr
      obtain ⟨hline, hne⟩ := hlines line List.mem_cons_self
      have hrest := fun l hl => hlines l (List.mem_cons_of_mem line hl)
      have hplain := newline_not_mem_append hstart hline
      have hne' : start ++ line ≠ [] := by simp [hne]
      have hnil : (start ++ line) ++ '\n' :: (unlines lines ++ tail) ≠ [] := by simp
      rw [joinText_cons] at hr
      rw [JoinsFit, joinedLines]
      cases rounds with
      | zero =>
          rw [joinLines, if_neg hnil] at hr
          cases hr
      | succ rounds =>
          by_cases hlen : (start ++ line).length < maxLineLen
          · have hround := joinRound_line ⟨hplain, hlen⟩ hne' (unlines lines ++ tail)
            by_cases hcont : Continued (start ++ line)
            · rw [if_pos hcont] at hround ⊢
              rw [if_pos hcont]
              rw [joinLines_round hnil hround] at hr
              obtain ⟨r', hr', rfl⟩ := map_append_eq_ok hr
              obtain ⟨hfit, hlast, heq⟩ := ih (newline_not_mem_dropLast hplain) hrest hr'
              exact ⟨⟨hlen, hfit⟩, hlast, heq⟩
            · rw [if_neg hcont] at hround ⊢
              rw [if_neg hcont]
              rw [joinLines_round hnil hround] at hr
              obtain ⟨r', hr', rfl⟩ := map_append_eq_ok hr
              rw [← List.nil_append (unlines lines ++ tail)] at hr'
              obtain ⟨hfit, hlast, heq⟩ := ih List.not_mem_nil hrest hr'
              refine ⟨⟨hlen, hfit⟩, hlast, ?_⟩
              rw [heq]
              simp [unlines]
          · rw [joinLines, if_neg hnil, joinRound_long hplain hlen] at hr
            cases hr

/-- What has been joined are lines again. -/
theorem joinedLines_isLine : ∀ (lines : List (List Char)) {start : List Char}, '\n' ∉ start →
    (∀ l ∈ lines, '\n' ∉ l ∧ l ≠ []) → JoinsFit start lines →
      (∀ l ∈ (joinedLines start lines).1, IsLine l) ∧ '\n' ∉ (joinedLines start lines).2 := by
  intro lines
  induction lines with
  | nil => exact fun hstart _ _ => ⟨fun l hl => (by cases hl), hstart⟩
  | cons line lines ih =>
      intro start hstart hlines hfit
      obtain ⟨hline, _⟩ := hlines line List.mem_cons_self
      have hrest := fun l hl => hlines l (List.mem_cons_of_mem line hl)
      have hplain := newline_not_mem_append hstart hline
      rw [JoinsFit] at hfit
      rw [joinedLines]
      by_cases hcont : Continued (start ++ line)
      · rw [if_pos hcont] at hfit ⊢
        exact ih (newline_not_mem_dropLast hplain) hrest hfit.2
      · rw [if_neg hcont] at hfit ⊢
        obtain ⟨hjoined, hend⟩ := ih List.not_mem_nil hrest hfit.2
        exact ⟨List.forall_mem_cons.mpr ⟨⟨hplain, hfit.1⟩, hjoined⟩, hend⟩

end

/-! ## Searching -/

/-- The line has this name. -/
def named (name line : List Char) : Bool :=
  paramName line == some name

/-- The lines that a search looks at. -/
def looked (name : List Char) : List (List Char) → List (List Char)
  | [] => []
  | line :: lines => if named name line then [line] else line :: looked name lines

/-- The name of the line fits its buffer. -/
def NameFits (line : List Char) : Prop :=
  ∀ found ∈ paramName line, found.length < paramNameSize

instance (line : List Char) : Decidable (NameFits line) :=
  inferInstanceAs (Decidable (∀ found ∈ paramName line, found.length < paramNameSize))

/-- A search of the lines, with an unterminated text after them, stops nowhere: it begins
with a line that is ended, the names it looks at fit, and if it comes to the end the length
of what is not ended is an `int`. -/
structure SearchFits (lines : List (List Char)) (tail name : List Char) : Prop where
  begins : lines = [] → tail = []
  names : ∀ l ∈ looked name lines, NameFits l
  ends : lines.find? (named name) = none → tail.length < intLimit

instance (lines : List (List Char)) (tail name : List Char) :
    Decidable (SearchFits lines tail name) :=
  decidable_of_iff ((lines = [] → tail = []) ∧ (∀ l ∈ looked name lines, NameFits l) ∧
      (lines.find? (named name) = none → tail.length < intLimit))
    ⟨fun h => ⟨h.1, h.2.1, h.2.2⟩, fun h => ⟨h.begins, h.names, h.ends⟩⟩

/-- What a search finds, once a line has been read. -/
def searchResult (lines : List (List Char)) (tail name : List Char) :
    Except CnfStop (Option (List Char)) :=
  if ∀ l ∈ looked name lines, NameFits l then
    match lines.find? (named name) with
    | some l => .ok (some l)
    | none => if tail.length < intLimit then .ok none else .error .astray
  else .error (.fault .outOfBounds)

section

variable {tail name : List Char}

/-- Looking at a line. -/
theorem searchSetting_step {fuel len : Nat} {buf text : List Char} {line : Option (List Char)}
    (hne : buf ≠ []) (hread : readLine buf line = .ok (len, text)) :
    searchSetting name (fuel + 1) buf line =
      if NameFits text then
        if named name text then .ok (some text)
        else searchSetting name fuel (buf.drop (len + 1)) (some text)
      else .error (.fault .outOfBounds) := by
  rw [searchSetting, if_neg hne, hread, ok_bind]
  dsimp only
  cases hname : paramName text with
  | none => simp [NameFits, named, hname]
  | some found =>
      have hfit : NameFits text ↔ found.length < paramNameSize := by simp [NameFits, hname]
      by_cases hlen : found.length < paramNameSize
      · by_cases heq : found = name <;> simp [hfit, hlen, named, hname, heq]
      · simp [hfit, hlen]

/-- A search that comes to an unterminated text takes the line before it again. -/
theorem searchSetting_tail (htail : '\n' ∉ tail) {text : List Char} (hfit : NameFits text)
    (hother : named name text = false) {fuel : Nat} (hfuel : tail.length ≤ fuel) :
    searchSetting name fuel tail (some text) =
      if tail.length < intLimit then .ok none else .error .astray := by
  by_cases hnil : tail = []
  · subst hnil
    cases fuel <;> rfl
  · have hpos := List.length_pos_iff.mpr hnil
    obtain ⟨fuel, rfl⟩ : ∃ k, fuel = k + 1 := ⟨fuel - 1, by omega⟩
    have hread := readLine_tail_some htail text
    by_cases hlen : tail.length < intLimit
    · rw [if_pos hlen] at hread ⊢
      rw [searchSetting_step hnil hread, if_pos hfit, hother, if_neg Bool.false_ne_true,
        List.drop_eq_nil_of_le (Nat.le_succ _)]
      cases fuel <;> rfl
    · rw [if_neg hlen] at hread ⊢
      rw [searchSetting, if_neg hnil, hread]
      rfl

/-- A search at a line, where the rest is searched as it should. -/
theorem searchSetting_cons {line : List Char} {lines : List (List Char)} {fuel : Nat}
    (hline : IsLine line) (hrest : NameFits line → named name line = false →
      searchSetting name fuel (unlines lines ++ tail) (some line) = searchResult lines tail name)
    (old : Option (List Char)) :
    searchSetting name (fuel + 1) (unlines (line :: lines) ++ tail) old =
      searchResult (line :: lines) tail name := by
  rw [unlines_cons_append, searchSetting_step (by simp) (readLine_line hline _ old), drop_line,
    searchResult, looked]
  cases hname : named name line with
  | true => simp [hname]
  | false =>
      by_cases hfit : NameFits line
      · rw [if_pos hfit, if_neg Bool.false_ne_true, hrest hfit hname, searchResult]
        simp [hname, hfit]
      · simp [hfit]

/-- **The search** by lines, after a line that has another name. -/
theorem searchSetting_some (htail : '\n' ∉ tail) : ∀ (lines : List (List Char)) {fuel : Nat}
    {text : List Char}, NameFits text → named name text = false → (∀ l ∈ lines, IsLine l) →
      (unlines lines ++ tail).length ≤ fuel →
      searchSetting name fuel (unlines lines ++ tail) (some text) =
        searchResult lines tail name := by
  intro lines
  induction lines with
  | nil =>
      intro fuel text hfit hother _ hfuel
      rw [searchResult, if_pos fun l hl => (by cases hl)]
      exact searchSetting_tail htail hfit hother hfuel
  | cons line lines ih =>
      intro fuel text _ _ hlines hfuel
      rw [unlines_cons_append] at hfuel
      simp only [List.length_append, List.length_cons] at hfuel
      obtain ⟨fuel, rfl⟩ : ∃ k, fuel = k + 1 := ⟨fuel - 1, by omega⟩
      refine searchSetting_cons (hlines line List.mem_cons_self) (fun hfit hname => ?_) _
      refine ih hfit hname (fun l hl => hlines l (List.mem_cons_of_mem line hl)) ?_
      rw [List.length_append]
      omega

theorem searchResult_ok_iff {lines : List (List Char)} {r : Option (List Char)} :
    searchResult lines tail name = .ok r ↔
      (∀ l ∈ looked name lines, NameFits l) ∧
        (lines.find? (named name) = none → tail.length < intLimit) ∧
        r = lines.find? (named name) := by
  unfold searchResult
  by_cases hnames : ∀ l ∈ looked name lines, NameFits l
  · rw [if_pos hnames]
    cases hfind : lines.find? (named name) with
    | none =>
        by_cases hlen : tail.length < intLimit
        · rw [and_iff_right hnames]
          simp [hlen, eq_comm]
        · simp [hlen]
    | some l =>
        rw [and_iff_right hnames]
        simp [eq_comm]
  · simp [hnames]

/-- **The search** by lines. -/
theorem searchSetting_ok_iff (htail : '\n' ∉ tail) {lines : List (List Char)}
    (hlines : ∀ l ∈ lines, IsLine l) {r : Option (List Char)} :
    searchSetting name (unlines lines ++ tail).length (unlines lines ++ tail) none = .ok r ↔
      SearchFits lines tail name ∧ r = lines.find? (named name) := by
  have hfits : SearchFits lines tail name ↔ (lines = [] → tail = []) ∧
      (∀ l ∈ looked name lines, NameFits l) ∧
      (lines.find? (named name) = none → tail.length < intLimit) :=
    ⟨fun h => ⟨h.begins, h.names, h.ends⟩, fun h => ⟨h.1, h.2.1, h.2.2⟩⟩
  rw [hfits]
  cases lines with
  | nil =>
      by_cases hnil : tail = []
      · subst hnil
        simp [searchSetting, unlines, looked, intLimit, eq_comm]
      · have hpos := List.length_pos_iff.mpr hnil
        obtain ⟨fuel, hfuel⟩ : ∃ k, tail.length = k + 1 := ⟨tail.length - 1, by omega⟩
        rw [unlines, List.nil_append, hfuel, searchSetting, if_neg hnil,
          readLine_tail_none htail]
        exact iff_of_false (fun h => by cases h) fun h => hnil (h.1.1 rfl)
  | cons line lines =>
      have hbegins : line :: lines = [] → tail = [] := fun h => absurd h (List.cons_ne_nil _ _)
      obtain ⟨fuel, hfuel⟩ : ∃ k, (unlines (line :: lines) ++ tail).length = k + 1 :=
        Nat.exists_eq_add_one.mpr (List.length_pos_iff.mpr (by simp [unlines]))
      have hle : (unlines lines ++ tail).length ≤ fuel := by
        rw [unlines_cons_append] at hfuel
        simp only [List.length_append, List.length_cons] at hfuel ⊢
        omega
      rw [hfuel, searchSetting_cons (hlines line List.mem_cons_self) (fun hfit hname =>
        searchSetting_some htail lines hfit hname
          (fun l hl => hlines l (List.mem_cons_of_mem line hl)) hle) none, searchResult_ok_iff,
        and_iff_right hbegins, and_assoc]

end

end Blts.Gles
