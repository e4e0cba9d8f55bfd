import Blts.Gles.ConfigText
import Blts.Alsa.WrittenWords

/-!
# Cleaned settings

The settings of a cleaned text are found by their names.  Of a number only the digits at the end
of its line are read (`SettingText.Plain.cleaned_number`): a sign is lost, and what stands before
a point.  Of a string everything is read but the blanks, where the first pass takes the string
for what is between two others.
-/

namespace Blts.Gles

open Blts.Alsa (CnfStop maxLineLen ok_bind quoteAfter unlines)

/-! ## Cleaned settings -/

section

variable {s : SettingText} {inStr : Bool}

theorem isBlank_ne_quote {b : List Char} (h : ∀ c ∈ b, isBlank c = true) : '"' ∉ b :=
  fun hmem => absurd (h _ hmem) (by decide)

/-- Blanks stay in a string, and go outside. -/
theorem removeBlanks_blanks {b : List Char} (h : ∀ c ∈ b, isBlank c = true) (inStr : Bool) :
    removeBlanks inStr b = if inStr then b else [] := by
  cases inStr with
  | true => exact removeBlanks_true (isBlank_ne_quote h)
  | false =>
      rw [removeBlanks_false (isBlank_ne_quote h), if_neg Bool.false_ne_true,
        List.filter_eq_nil_iff]
      intro c hc
      rw [h c hc]
      exact Bool.false_ne_true

/-- A word without blanks and quotes stays. -/
theorem removeBlanks_word {w : List Char} (hquote : '"' ∉ w)
    (hblank : ∀ c ∈ w, isBlank c = false) (inStr : Bool) : removeBlanks inStr w = w := by
  cases inStr with
  | true => exact removeBlanks_true hquote
  | false =>
      rw [removeBlanks_false hquote, List.filter_eq_self]
      intro c hc
      rw [hblank c hc]
      rfl

theorem knownNames_plain : ∀ name ∈ knownNames, ∀ c ∈ name.toList,
    c ≠ ':' ∧ c ≠ '"' ∧ isBlank c = false := by
  have hall : (knownNames.all fun name => name.toList.all fun c =>
      c != ':' && (c != '"' && !isBlank c)) = true := by decide
  intro name hname c hc
  have hchar := List.all_eq_true.mp (List.all_eq_true.mp hall name hname) c hc
  rw [Bool.and_eq_true, Bool.and_eq_true, bne_iff_ne, bne_iff_ne, Bool.not_eq_true'] at hchar
  exact hchar

theorem ConfigItem.name_plain (item : ConfigItem) :
    ∀ c ∈ item.name, c ≠ ':' ∧ c ≠ '"' ∧ isBlank c = false := by
  cases item with
  | int name known x whole low high =>
      exact knownNames_plain name (List.mem_append_left _ known)
  | cmd str plain => exact knownNames_plain "compositor_cmd" (by decide)
  | matrix elements count => exact knownNames_plain "convolution_mat" (by decide)
  | divisor x => exact knownNames_plain "convolution_mat_divisor" (by decide)
  | other name value unknown plain => exact plain

theorem ConfigItem.quote_not_mem_name (item : ConfigItem) : '"' ∉ item.name :=
  fun h => (item.name_plain _ h).2.1 rfl

/-- What stands after the colon. -/
def SettingText.afterName (s : SettingText) : List Char := s.afterColon ++ s.item.value ++ s.trail

/-- A cleaned line begins with the name and the colon. -/
theorem SettingText.Plain.cleaned (h : s.Plain inStr) :
    removeBlanks inStr s.text = s.item.name ++ ':' :: removeBlanks inStr s.afterName := by
  have hlead : removeBlanks inStr s.lead = [] := by
    rw [removeBlanks_blanks s.lead_blank]
    cases inStr with
    | true => rw [if_pos rfl, (h.inString rfl).1]
    | false => rfl
  have hbefore : removeBlanks inStr s.beforeColon = [] := by
    rw [removeBlanks_blanks s.beforeColon_blank]
    cases inStr with
    | true => rw [if_pos rfl, (h.inString rfl).2.1]
    | false => rfl
  have hname := removeBlanks_word s.item.quote_not_mem_name
    (fun c hc => (s.item.name_plain c hc).2.2) inStr
  have hcolon :
      removeBlanks inStr (':' :: s.afterName) = ':' :: removeBlanks inStr s.afterName := by
    cases inStr <;> rfl
  have hquotes : quotesAfter inStr (s.lead ++ s.item.name ++ s.beforeColon) = inStr := by
    rw [quotesAfter_append, quotesAfter_append, quotesAfter_plain (isBlank_ne_quote s.lead_blank),
      quotesAfter_plain s.item.quote_not_mem_name,
      quotesAfter_plain (isBlank_ne_quote s.beforeColon_blank)]
  rw [SettingText.text, removeBlanks_append, hquotes, removeBlanks_append, removeBlanks_append,
    quotesAfter_append, quotesAfter_plain (isBlank_ne_quote s.lead_blank),
    quotesAfter_plain s.item.quote_not_mem_name, hlead, hbefore, hname, List.nil_append,
    List.append_nil]
  exact congrArg (s.item.name ++ ·) hcolon

theorem paramName_append {name : List Char} (h : ':' ∉ name) (rest : List Char) :
    paramName (name ++ ':' :: rest) = some name := by
  have htake : (name ++ ':' :: rest).takeWhile (· ≠ ':') = name := by
    rw [List.takeWhile_append_of_pos]
    · simp
    · intro c hc
      rw [decide_eq_true_eq]
      intro heq
      rw [heq] at hc
      exact h hc
  rw [paramName, if_pos (List.mem_append_right _ List.mem_cons_self), htake]

theorem SettingText.Plain.paramName (h : s.Plain inStr) :
    Gles.paramName (removeBlanks inStr s.text) = some s.item.name := by
  rw [h.cleaned]
  exact paramName_append (fun hmem => (s.item.name_plain _ hmem).1 rfl) _

theorem SettingText.Plain.named_iff (h : s.Plain inStr) (name : List Char) :
    named name (removeBlanks inStr s.text) = (s.item.name == name) := by
  rw [named, h.paramName]
  rfl

theorem plain_of_mem_settingsFrom {lines : List ConfigLine} : ∀ {inStr : Bool},
    PlainFrom inStr lines → ∀ s ∈ settingsFrom inStr lines, s.2.Plain s.1 := by
  induction lines with
  | nil => exact fun _ s hs => absurd hs List.not_mem_nil
  | cons l lines ih =>
      intro inStr hplain s hs
      rw [settingsFrom] at hs
      cases hkind : l.kind with
      | blank =>
          rw [hkind] at hs
          exact ih hplain.2 s hs
      | comment =>
          rw [hkind] at hs
          exact ih hplain.2 s hs
      | setting t =>
          rw [hkind] at hs
          rcases List.mem_cons.mp hs with hs | hs
          · rw [hs]
            exact hplain.1.setting t hkind
          · exact ih hplain.2 s hs

end

/-! ## Finding a setting -/

/-- The first setting with the name, with whether it counts as text in a string. -/
def firstNamed (lines : List ConfigLine) (name : String) : Option (Bool × SettingText) :=
  (settingsFrom false lines).find? fun s => s.2.item.name == name.toList

section

variable {lines : List ConfigLine} {name : String}

theorem settingLine_settings (h : Cleanable lines) (name : String) :
    settingLine (settingLinesOf lines) name =
      (firstNamed lines name).map fun s => removeBlanks s.1 s.2.text := by
  rw [settingLine, settingLinesOf, List.find?_map, firstNamed]
  refine congrArg (Option.map _) ?_
  have hplain := plain_of_mem_settingsFrom h.plain
  generalize settingsFrom false lines = settings at hplain
  induction settings with
  | nil => rfl
  | cons s settings ih =>
      obtain ⟨hs, hsettings⟩ := List.forall_mem_cons.mp hplain
      rw [List.find?_cons, List.find?_cons, ih hsettings, Function.comp_apply,
        hs.named_iff name.toList]

theorem looked_subset (name : List Char) (ls : List (List Char)) :
    ∀ l ∈ looked name ls, l ∈ ls := by
  induction ls with
  | nil => exact fun l hl => hl
  | cons l ls ih =>
      intro l' hl'
      rw [looked] at hl'
      by_cases hname : named name l = true
      · rw [if_pos hname] at hl'
        rw [List.mem_singleton.mp hl']
        exact List.mem_cons_self
      · rw [if_neg hname] at hl'
        rcases List.mem_cons.mp hl' with hl' | hl'
        · rw [hl']
          exact List.mem_cons_self
        · exact List.mem_cons_of_mem l (ih l' hl')

/-- Every search of a cleaned text fits. -/
theorem searchFits_settings (h : Cleanable lines) (name : List Char) :
    SearchFits (settingLinesOf lines) [] name where
  begins := fun _ => rfl
  names := by
    intro l hl
    obtain ⟨s, hs, hl⟩ := List.mem_map.mp (looked_subset name _ l hl)
    have hplain := plain_of_mem_settingsFrom h.plain s hs
    rw [← hl, NameFits, hplain.paramName]
    intro found hfound
    cases hfound
    exact hplain.name
  ends := fun _ => by decide

theorem searchSetting_settings (h : Cleanable lines) (name : String) :
    searchSetting name.toList (unlines (settingLinesOf lines)).length
        (unlines (settingLinesOf lines)) none =
      .ok (settingLine (settingLinesOf lines) name) := by
  obtain ⟨hclean, htail, hfit⟩ := cleanLines_contents h
  have hlines := (cleanLines_isLine hfit).1
  rw [hclean] at hlines
  have hsearch := (searchSetting_ok_iff List.not_mem_nil hlines
    (r := settingLine (settingLinesOf lines) name)).mpr ⟨searchFits_settings h name.toList, rfl⟩
  rw [List.append_nil] at hsearch
  exact hsearch

theorem readVal_settings (h : Cleanable lines) (name : String) :
    cnfparserReadVal (unlines (settingLinesOf lines)) name =
      .ok ((firstNamed lines name).map fun s => lastDigits (removeBlanks s.1 s.2.text)) := by
  rw [cnfparserReadVal, searchSetting_settings h, ok_bind, settingLine_settings h, Option.map_map]
  rfl

end

/-! ## Reading numerals -/

/-- What `strtod` reads of a text without an exponent. -/
def decimalValue (s : List Char) : ℚ :=
  let r := Cli.readSign (s.dropWhile Cli.isSpace)
  let whole := r.2.takeWhile Char.isDigit
  let fraction := match r.2.dropWhile Char.isDigit with
    | '.' :: cs => cs.takeWhile Char.isDigit
    | _ => []
  r.1 * (Nat.ofDigitChars 10 (whole ++ fraction) 0 : ℕ) / (10 ^ fraction.length : ℕ)

/-- The text ends, or goes on with something else than a digit. -/
def StopsDigits (rest : List Char) : Prop :=
  ∀ c ∈ rest.head?, Cli.digitValue c = none ∧ c.isDigit = false

theorem isBlank_cases {c : Char} (h : isBlank c = true) : c = '\r' ∨ c = '\t' ∨ c = ' ' := by
  rw [isBlank, Bool.or_eq_true, Bool.or_eq_true, beq_iff_eq, beq_iff_eq, beq_iff_eq, or_assoc] at h
  exact h

theorem isSpace_of_isBlank {c : Char} (h : isBlank c = true) : Cli.isSpace c = true := by
  rcases isBlank_cases h with rfl | rfl | rfl
  · decide
  · decide
  · decide

theorem stopsDigits_blanks {b : List Char} (h : ∀ c ∈ b, isBlank c = true) : StopsDigits b := by
  intro c hc
  rcases isBlank_cases (h c (List.mem_of_head? hc)) with rfl | rfl | rfl
  · decide
  · decide
  · decide

theorem stopsDigits_point (cs : List Char) : StopsDigits ('.' :: cs) := by
  intro c hc
  cases hc
  decide

/-- Digits are read up to something else. -/
theorem readDigits_append {ds rest : List Char} (hds : ∀ c ∈ ds, c.isDigit = true)
    (hrest : StopsDigits rest) (n : Nat) :
    Cli.readDigits 10 (ds ++ rest) n = Nat.ofDigitChars 10 ds n := by
  induction ds generalizing n with
  | nil =>
      cases rest with
      | nil => exact Nat.ofDigitChars_nil.symm
      | cons c cs =>
          rw [List.nil_append, Cli.readDigits, (hrest c rfl).1]
          exact Nat.ofDigitChars_nil.symm
  | cons c ds ih =>
      obtain ⟨hc, hds⟩ := List.forall_mem_cons.mp hds
      obtain ⟨hvalue, hlt⟩ := Alsa.digitValue_digit hc
      rw [List.cons_append, Cli.readDigits, hvalue]
      dsimp only
      rw [if_pos hlt, ih hds, Nat.ofDigitChars_cons, Nat.mul_comm]
      rfl

theorem takeWhile_digits {ds rest : List Char} (hds : ∀ c ∈ ds, c.isDigit = true)
    (hrest : StopsDigits rest) :
    (ds ++ rest).takeWhile Char.isDigit = ds ∧ (ds ++ rest).dropWhile Char.isDigit = rest := by
  cases rest with
  | nil =>
      rw [List.append_nil]
      exact ⟨List.takeWhile_eq_self_iff.mpr hds, List.dropWhile_eq_nil_iff.mpr hds⟩
  | cons c cs =>
      have hc : ¬c.isDigit = true := by
        rw [(hrest c rfl).2]
        exact Bool.false_ne_true
      rw [List.takeWhile_append_of_pos hds, List.dropWhile_append_of_pos hds,
        List.takeWhile_cons_of_neg hc, List.dropWhile_cons_of_neg hc, List.append_nil]
      exact ⟨rfl, rfl⟩

namespace Numeral

variable (x : Numeral)

/-- The point and what comes after it. -/
def fractionText : List Char := x.fraction.elim [] fun f => '.' :: f

theorem stopsDigits_fractionText {b : List Char} (h : ∀ c ∈ b, isBlank c = true) :
    StopsDigits (x.fractionText ++ b) := by
  rw [fractionText]
  cases x.fraction with
  | none => exact stopsDigits_blanks h
  | some f => exact stopsDigits_point _

/-- A digit or a point is first after the sign. -/
theorem head_body (b : List Char) :
    ∃ c cs, x.whole ++ (x.fractionText ++ b) = c :: cs ∧ (c.isDigit = true ∨ c = '.') := by
  cases hwhole : x.whole with
  | cons c cs =>
      have hdigit := x.whole_digits c (by rw [hwhole]; exact List.mem_cons_self)
      exact ⟨c, cs ++ (x.fractionText ++ b), rfl, .inl hdigit⟩
  | nil =>
      rw [fractionText]
      cases hfraction : x.fraction with
      | some f => exact ⟨'.', f ++ b, rfl, .inr rfl⟩
      | none =>
          have hne := x.ne_nil
          rw [hwhole, hfraction] at hne
          exact absurd rfl hne

theorem digit_or_point {c : Char} (h : c.isDigit = true ∨ c = '.') :
    Cli.isSpace c = false ∧ c ≠ '-' ∧ c ≠ '+' := by
  rcases h with h | h
  · refine ⟨?_, ?_, ?_⟩
    · rw [Char.isDigit, Bool.and_eq_true, decide_eq_true_eq, decide_eq_true_eq] at h
      have hlow : 48 ≤ c.toNat := h.1
      rw [Cli.isSpace, Bool.or_eq_false_iff]
      constructor
      · rw [beq_eq_false_iff_ne]
        intro heq
        rw [heq] at hlow
        exact absurd hlow (by decide)
      · rw [Bool.and_eq_false_iff]
        exact .inr (decide_eq_false (by omega))
    · intro heq
      rw [heq] at h
      exact absurd h (by decide)
    · intro heq
      rw [heq] at h
      exact absurd h (by decide)
  · rw [h]
    decide

theorem readSign_of_ne {c : Char} {cs : List Char} (hminus : c ≠ '-') (hplus : c ≠ '+') :
    Cli.readSign (c :: cs) = (1, c :: cs) := by
  unfold Cli.readSign
  split
  · next heq => exact absurd (List.cons.inj heq).1 hminus
  · next heq => exact absurd (List.cons.inj heq).1 hplus
  · rfl

/-- What is read of a numeral between blanks before its digits. -/
theorem readSign_text {lead trail : List Char} (hlead : ∀ c ∈ lead, isBlank c = true) :
    Cli.readSign ((lead ++ x.text ++ trail).dropWhile Cli.isSpace) =
      (x.sign, x.whole ++ (x.fractionText ++ trail)) := by
  obtain ⟨c, cs, hbody, hc⟩ := x.head_body trail
  obtain ⟨hspace, hminus, hplus⟩ := digit_or_point hc
  have hlead' : ∀ c ∈ lead, Cli.isSpace c = true := fun c hc => isSpace_of_isBlank (hlead c hc)
  rw [List.append_assoc, List.dropWhile_append_of_pos hlead']
  cases hneg : x.negative with
  | true =>
      have htext : x.text ++ trail = '-' :: (x.whole ++ (x.fractionText ++ trail)) := by
        rw [text, hneg, if_pos rfl, List.append_assoc, List.append_assoc]
        rfl
      rw [htext, List.dropWhile_cons_of_neg (by decide), sign, hneg]
      rfl
  | false =>
      have htext : x.text ++ trail = x.whole ++ (x.fractionText ++ trail) := by
        rw [text, hneg, if_neg Bool.false_ne_true, List.nil_append, List.append_assoc]
        rfl
      have hstop : ¬Cli.isSpace c = true := by
        rw [hspace]
        exact Bool.false_ne_true
      rw [htext, hbody, List.dropWhile_cons_of_neg hstop, readSign_of_ne hminus hplus, sign, hneg]
      rfl

/-- **`atof`** reads the number. -/
theorem decimalValue_text {lead trail : List Char} (hlead : ∀ c ∈ lead, isBlank c = true)
    (htrail : ∀ c ∈ trail, isBlank c = true) :
    decimalValue (lead ++ x.text ++ trail) = x.value := by
  rw [decimalValue, x.readSign_text hlead]
  dsimp only
  obtain ⟨htake, hdrop⟩ :=
    takeWhile_digits x.whole_digits (x.stopsDigits_fractionText htrail)
  have hfraction : (match x.fractionText ++ trail with
      | '.' :: cs => cs.takeWhile Char.isDigit
      | _ => []) = x.fraction.getD [] := by
    rw [fractionText]
    cases hf : x.fraction with
    | some f =>
        exact (takeWhile_digits (x.fraction_digits f hf) (stopsDigits_blanks htrail)).1
    | none =>
        cases trail with
        | nil => rfl
        | cons c cs =>
            rcases isBlank_cases (htrail c List.mem_cons_self) with rfl | rfl | rfl
            · rfl
            · rfl
            · rfl
  rw [htake, hdrop, hfraction, value]

/-- Digits alone. -/
theorem decimalValue_digits {ds : List Char} (h : ∀ c ∈ ds, c.isDigit = true) :
    decimalValue ds = (Nat.ofDigitChars 10 ds 0 : ℕ) := by
  have hdrop : ds.dropWhile Cli.isSpace = ds := by
    cases ds with
    | nil => rfl
    | cons c ds =>
        have hc := (digit_or_point (.inl (h c List.mem_cons_self))).1
        exact List.dropWhile_cons_of_neg (by rw [hc]; exact Bool.false_ne_true)
  have hsign : Cli.readSign ds = (1, ds) := by
    cases ds with
    | nil => rfl
    | cons c ds =>
        obtain ⟨-, hminus, hplus⟩ := digit_or_point (.inl (h c List.mem_cons_self))
        exact readSign_of_ne hminus hplus
  rw [decimalValue, hdrop, hsign]
  dsimp only
  rw [List.takeWhile_eq_self_iff.mpr h, List.dropWhile_eq_nil_iff.mpr h]
  simp

/-- **`atoi`** reads the number up to the point. -/
theorem atoi_text {lead trail : List Char} (hlead : ∀ c ∈ lead, isBlank c = true)
    (htrail : ∀ c ∈ trail, isBlank c = true) :
    Cli.atoi (lead ++ x.text ++ trail) = x.truncated := by
  rw [Cli.atoi, x.readSign_text hlead]
  dsimp only
  rw [readDigits_append x.whole_digits (x.stopsDigits_fractionText htrail), truncated]

end Numeral

/-! ## Numbers at the end of a line -/

theorem lastDigits_append {q ds : List Char} {c : Char} (hc : c.isDigit = false)
    (hds : ∀ c ∈ ds, c.isDigit = true) : lastDigits (q ++ c :: ds) = ds := by
  have hstop : ¬c.isDigit = true := by
    rw [hc]
    exact Bool.false_ne_true
  have hds' : ∀ c ∈ ds.reverse, c.isDigit = true := fun c h => hds c (List.mem_reverse.mp h)
  rw [lastDigits]
  cases q with
  | nil =>
      rw [List.nil_append, List.drop_one, List.tail_cons, List.takeWhile_eq_self_iff.mpr hds',
        List.reverse_reverse]
  | cons d q =>
      rw [List.cons_append, List.drop_one, List.tail_cons, List.reverse_append, List.reverse_cons,
        List.append_assoc, List.takeWhile_append_of_pos hds', List.singleton_append,
        List.takeWhile_cons_of_neg hstop, List.append_nil, List.reverse_reverse]

theorem exists_last_of_forall {l : List Char} {P : Char → Prop} (hne : l ≠ []) (h : ∀ c ∈ l, P c) :
    ∃ q c, l = q ++ [c] ∧ P c :=
  ⟨_, _, (List.dropLast_concat_getLast hne).symm, h _ (List.getLast_mem hne)⟩

namespace Numeral

variable (x : Numeral)

theorem text_chars : ∀ c ∈ x.text, c.isDigit = true ∨ c = '-' ∨ c = '.' := by
  intro c hc
  rw [text, List.mem_append, List.mem_append] at hc
  rcases hc with (hc | hc) | hc
  · by_cases hneg : x.negative = true
    · rw [if_pos hneg] at hc
      exact .inr (.inl (List.mem_singleton.mp hc))
    · rw [if_neg hneg] at hc
      cases hc
  · exact .inl (x.whole_digits c hc)
  · cases hf : x.fraction with
    | none =>
        rw [hf] at hc
        cases hc
    | some f =>
        rw [hf] at hc
        rcases List.mem_cons.mp hc with hc | hc
        · exact .inr (.inr hc)
        · exact .inl (x.fraction_digits f hf c hc)

theorem not_mem_text {c : Char} (hdigit : c.isDigit = false) (hminus : c ≠ '-') (hpoint : c ≠ '.') :
    c ∉ x.text := by
  intro hc
  rcases x.text_chars c hc with h | h | h
  · rw [hdigit] at h
    cases h
  · exact hminus h
  · exact hpoint h

theorem isBlank_text : ∀ c ∈ x.text, isBlank c = false := by
  intro c hc
  refine Bool.eq_false_iff.mpr fun hblank => ?_
  rcases isBlank_cases hblank with rfl | rfl | rfl
  · exact x.not_mem_text (by decide) (by decide) (by decide) hc
  · exact x.not_mem_text (by decide) (by decide) (by decide) hc
  · exact x.not_mem_text (by decide) (by decide) (by decide) hc

theorem lastDigits_digits : ∀ c ∈ x.lastDigits, c.isDigit = true := by
  rw [lastDigits]
  cases hf : x.fraction with
  | none => exact x.whole_digits
  | some f => exact x.fraction_digits f hf

/-- The digits at the end of a line that ends with the numeral. -/
theorem lastDigits_line (name : List Char) {gap : List Char} (hgap : ∀ c ∈ gap, isBlank c = true) :
    Gles.lastDigits (name ++ ':' :: (gap ++ x.text)) = x.lastDigits := by
  have hdigits := x.lastDigits_digits
  cases hf : x.fraction with
  | some f =>
      have hlast : x.lastDigits = f := by rw [lastDigits, hf, Option.getD_some]
      have hline : name ++ ':' :: (gap ++ x.text) =
          (name ++ ':' :: (gap ++ ((if x.negative then ['-'] else []) ++ x.whole))) ++
            '.' :: f := by
        simp only [text, hf, Option.elim_some, List.append_assoc, List.cons_append]
      rw [hlast] at hdigits ⊢
      rw [hline]
      exact lastDigits_append (by decide) hdigits
  | none =>
      have hlast : x.lastDigits = x.whole := by rw [lastDigits, hf, Option.getD_none]
      -- What stands before the digits does not end with a digit.
      have hbefore : ∃ q c, ':' :: (gap ++ (if x.negative then ['-'] else [])) = q ++ [c] ∧
          c.isDigit = false := by
        refine exists_last_of_forall (List.cons_ne_nil _ _) fun c hc => ?_
        rcases List.mem_cons.mp hc with hc | hc
        · rw [hc]
          decide
        · rcases List.mem_append.mp hc with hc | hc
          · rcases isBlank_cases (hgap c hc) with rfl | rfl | rfl
            · decide
            · decide
            · decide
          · by_cases hneg : x.negative = true
            · rw [if_pos hneg] at hc
              rw [List.mem_singleton.mp hc]
              decide
            · rw [if_neg hneg] at hc
              cases hc
      obtain ⟨q, c, hq, hc⟩ := hbefore
      have hline : name ++ ':' :: (gap ++ x.text) = (name ++ q) ++ c :: x.whole := by
        have htext : name ++ ':' :: (gap ++ x.text) =
            name ++ (':' :: (gap ++ (if x.negative then ['-'] else []))) ++ x.whole := by
          simp only [text, hf, Option.elim_none, List.append_nil, List.append_assoc,
            List.cons_append]
        rw [htext, hq]
        simp only [List.append_assoc, List.singleton_append]
      rw [hlast] at hdigits ⊢
      rw [hline]
      exact lastDigits_append hc hdigits

/-- **What is stored of an integer** is right unless it is negative; the digits of the least one
make it again. -/
theorem atoi_lastDigits_iff (hwhole : x.fraction = none) (hlow : -2147483648 ≤ x.truncated)
    (hhigh : x.truncated < 2147483648) :
    Alsa.atoi x.lastDigits = x.truncated ↔ 0 ≤ x.truncated ∨ x.truncated = -2147483648 := by
  have hlast : x.lastDigits = x.whole := by rw [lastDigits, hwhole, Option.getD_none]
  rw [Alsa.atoi, hlast, Alsa.readDigits_digits x.whole_digits]
  rw [truncated, sign] at hlow hhigh ⊢
  generalize Nat.ofDigitChars 10 x.whole 0 = n at hlow hhigh ⊢
  rw [Cli.toInt]
  by_cases hneg : x.negative = true
  · rw [if_pos hneg] at hlow hhigh ⊢
    omega
  · rw [if_neg hneg] at hlow hhigh ⊢
    omega

end Numeral

/-- The line of a number, without its blanks. -/
theorem SettingText.Plain.cleaned_number {s : SettingText} {inStr : Bool} (h : s.Plain inStr)
    {x : Numeral} (hnumber : s.item.isNumber = true) (hvalue : s.item.value = x.text) :
    lastDigits (removeBlanks inStr s.text) = x.lastDigits := by
  have hquote : '"' ∉ x.text := x.not_mem_text (by decide) (by decide) (by decide)
  have htrail : removeBlanks inStr s.trail = [] := by
    rw [removeBlanks_blanks s.trail_blank]
    cases inStr with
    | true => rw [if_pos rfl, (h.inString rfl).2.2 hnumber]
    | false => rfl
  have hafter : removeBlanks inStr s.afterName =
      removeBlanks inStr s.afterColon ++ x.text := by
    rw [SettingText.afterName, removeBlanks_append, removeBlanks_append, quotesAfter_append,
      quotesAfter_plain (isBlank_ne_quote s.afterColon_blank), hvalue,
      removeBlanks_word hquote x.isBlank_text, quotesAfter_plain hquote, htrail, List.append_nil]
  rw [h.cleaned, hafter]
  refine x.lastDigits_line _ ?_
  rw [removeBlanks_blanks s.afterColon_blank]
  cases inStr with
  | true => exact s.afterColon_blank
  | false => exact fun c hc => absurd hc List.not_mem_nil

/-! ## Strings -/

/-- What is left of a string: the first pass takes its blanks for those outside of a string, if it
is in one before. -/
def seenString (inStr : Bool) (str : List Char) : List Char :=
  if inStr then str.filter (fun c => !isBlank c) else str

theorem quoted_append {before str after : List Char} (hbefore : '"' ∉ before) (hstr : '"' ∉ str) :
    quoted (before ++ '"' :: (str ++ '"' :: after)) = some str := by
  have hneq : ∀ {w : List Char}, '"' ∉ w → ∀ c ∈ w, decide (c ≠ '"') = true := by
    intro w hw c hc
    rw [decide_eq_true_eq]
    intro heq
    rw [heq] at hc
    exact hw hc
  have hdrop : (before ++ '"' :: (str ++ '"' :: after)).dropWhile (· ≠ '"') =
      '"' :: (str ++ '"' :: after) := by
    rw [List.dropWhile_append_of_pos (hneq hbefore), List.dropWhile_cons_of_neg (by decide)]
  have htake : (str ++ '"' :: after).takeWhile (· ≠ '"') = str := by
    rw [List.takeWhile_append_of_pos (hneq hstr), List.takeWhile_cons_of_neg (by decide),
      List.append_nil]
  rw [quoted, hdrop]
  dsimp only
  rw [if_pos (List.mem_append_right _ List.mem_cons_self), htake]

theorem removeBlanks_string {str : List Char} (hstr : '"' ∉ str) (inStr : Bool)
    (after : List Char) :
    removeBlanks inStr ('"' :: (str ++ '"' :: after)) =
      '"' :: (seenString inStr str ++ '"' :: removeBlanks inStr after) := by
  have hopen : ∀ text, removeBlanks inStr ('"' :: text) = '"' :: removeBlanks (!inStr) text := by
    cases inStr <;> exact fun _ => rfl
  have hclose : ∀ text, removeBlanks (!inStr) ('"' :: text) = '"' :: removeBlanks inStr text := by
    cases inStr <;> exact fun _ => rfl
  have hseen : removeBlanks (!inStr) str = seenString inStr str := by
    cases inStr with
    | true => exact removeBlanks_false hstr
    | false => exact removeBlanks_true hstr
  rw [hopen, removeBlanks_append, quotesAfter_plain hstr, hclose, hseen]

theorem quote_not_mem_seenString {str : List Char} (h : '"' ∉ str) (inStr : Bool) :
    '"' ∉ seenString inStr str := by
  cases inStr with
  | true => exact fun hmem => h (List.mem_filter.mp hmem).1
  | false => exact h

/-- The line of a string, without its blanks. -/
theorem SettingText.Plain.cleaned_string {s : SettingText} {inStr : Bool} (h : s.Plain inStr)
    {str : List Char} (hstr : '"' ∉ str) (hvalue : s.item.value = '"' :: str ++ ['"']) :
    quoted (removeBlanks inStr s.text) = some (seenString inStr str) := by
  have hafter : s.afterName = s.afterColon ++ '"' :: (str ++ '"' :: s.trail) := by
    rw [SettingText.afterName, hvalue]
    simp only [List.append_assoc, List.cons_append, List.nil_append]
  have hgap : '"' ∉ removeBlanks inStr s.afterColon := by
    rw [removeBlanks_blanks s.afterColon_blank]
    cases inStr with
    | true => exact isBlank_ne_quote s.afterColon_blank
    | false => exact List.not_mem_nil
  have hbefore : '"' ∉ s.item.name ++ ':' :: removeBlanks inStr s.afterColon := by
    rw [List.mem_append, List.mem_cons, not_or, not_or]
    exact ⟨s.item.quote_not_mem_name, by decide, hgap⟩
  have hline : removeBlanks inStr s.text =
      (s.item.name ++ ':' :: removeBlanks inStr s.afterColon) ++
        '"' :: (seenString inStr str ++ '"' :: removeBlanks inStr s.trail) := by
    rw [h.cleaned, hafter, removeBlanks_append,
      quotesAfter_plain (isBlank_ne_quote s.afterColon_blank), removeBlanks_string hstr,
      List.append_assoc, List.cons_append]
  rw [hline]
  exact quoted_append hbefore (quote_not_mem_seenString hstr inStr)

/-! ## The matrix -/

/-- What is left of an element. -/
def MatrixElement.seen (inStr : Bool) (e : MatrixElement) : List Char :=
  if inStr then e.number.text else e.text

namespace MatrixElement

variable (e : MatrixElement)

theorem not_mem_text {c : Char} (hblank : isBlank c = false) (hdigit : c.isDigit = false)
    (hminus : c ≠ '-') (hpoint : c ≠ '.') : c ∉ e.text := by
  rw [text, List.mem_append, List.mem_append, not_or, not_or]
  refine ⟨⟨fun h => ?_, e.number.not_mem_text hdigit hminus hpoint⟩, fun h => ?_⟩
  · rw [e.lead_blank c h] at hblank
    cases hblank
  · rw [e.trail_blank c h] at hblank
    cases hblank

theorem filter_text : e.text.filter (fun c => !isBlank c) = e.number.text := by
  have hnone : ∀ {b : List Char}, (∀ c ∈ b, isBlank c = true) →
      b.filter (fun c => !isBlank c) = [] := by
    intro b hb
    rw [List.filter_eq_nil_iff]
    intro c hc
    rw [hb c hc]
    exact Bool.false_ne_true
  have hall : e.number.text.filter (fun c => !isBlank c) = e.number.text := by
    rw [List.filter_eq_self]
    intro c hc
    rw [e.number.isBlank_text c hc]
    rfl
  rw [text, List.filter_append, List.filter_append, hnone e.lead_blank, hnone e.trail_blank, hall,
    List.nil_append, List.append_nil]

theorem text_ne_nil : e.number.text ≠ [] := by
  obtain ⟨c, cs, hbody, -⟩ := e.number.head_body []
  rw [List.append_nil] at hbody
  rw [Numeral.text, List.append_assoc]
  intro hnil
  have hnil' : e.number.whole ++ e.number.fractionText = [] := (List.append_eq_nil_iff.mp hnil).2
  rw [hbody] at hnil'
  cases hnil'

/-- What is left of an element is its number with or without the blanks. -/
theorem seen_eq (inStr : Bool) : ∃ lead trail : List Char,
    e.seen inStr = lead ++ e.number.text ++ trail ∧
    (∀ c ∈ lead, isBlank c = true) ∧ ∀ c ∈ trail, isBlank c = true := by
  cases inStr with
  | true =>
      refine ⟨[], [], ?_, fun c hc => absurd hc List.not_mem_nil,
        fun c hc => absurd hc List.not_mem_nil⟩
      rw [List.nil_append, List.append_nil]
      rfl
  | false => exact ⟨e.lead, e.trail, rfl, e.lead_blank, e.trail_blank⟩

end MatrixElement

open ConfigItem (listText)

theorem filter_listText (es : List MatrixElement) :
    (listText (es.map MatrixElement.text)).filter (fun c => !isBlank c) =
      listText (es.map fun e => e.number.text) := by
  induction es with
  | nil => rfl
  | cons e es ih =>
      cases es with
      | nil => exact e.filter_text
      | cons e' es =>
          rw [List.map_cons, List.map_cons] at ih
          rw [List.map_cons, List.map_cons, listText, List.filter_append, e.filter_text,
            List.filter_cons_of_pos (by decide), ih]
          · rfl
          · exact fun h => absurd h (List.cons_ne_nil _ _)

/-- The list that is left. -/
theorem seenString_listText (es : List MatrixElement) (inStr : Bool) :
    seenString inStr (listText (es.map MatrixElement.text)) =
      listText (es.map (MatrixElement.seen inStr)) := by
  cases inStr with
  | true => exact filter_listText es
  | false => rfl

theorem quote_not_mem_listText (es : List MatrixElement) :
    '"' ∉ listText (es.map MatrixElement.text) := by
  induction es with
  | nil => exact List.not_mem_nil
  | cons e es ih =>
      have he : '"' ∉ e.text := e.not_mem_text (by decide) (by decide) (by decide) (by decide)
      cases es with
      | nil => exact he
      | cons e' es =>
          rw [List.map_cons, List.map_cons, listText, List.mem_append, List.mem_cons, not_or,
            not_or]
          · exact ⟨he, by decide, ih⟩
          · exact fun h => absurd h (List.cons_ne_nil _ _)

end Blts.Gles
