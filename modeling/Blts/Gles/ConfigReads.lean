import Blts.Gles.ConfigLines

/-!
# Reading any configuration file

`read_config` comes to an end, stays inside its buffers and uses no text that it has
not read exactly for the files of `ReadsInside` (`readConfig_inside_iff`).
-/

namespace Blts.Gles

open Blts.Alsa (CnfStop IsLine cString cnfparserReadline isKept keptTail maxLineLen ok_bind
  readFile readLine removeComments removeComments_eq splitLines uintLimit unlines unlines_splitLines)

/-! ## Returning -/

/-- The function returns, possibly with an error. -/
def Returns {α : Type} (x : Except CnfStop α) : Prop :=
  ∀ stop, x = .error stop → stop = .failed

section

variable {α β : Type} {x : Except CnfStop α} {f : α → Except CnfStop β}

@[simp] theorem returns_ok (a : α) : Returns (.ok a : Except CnfStop α) :=
  fun _ h => nomatch h

@[simp] theorem returns_error {stop : CnfStop} :
    Returns (.error stop : Except CnfStop α) ↔ stop = .failed :=
  ⟨fun h => h stop rfl, fun h _ heq => (Except.error.inj heq) ▸ h⟩

/-- Two parts return if both do. -/
theorem returns_bind : Returns (x >>= f) ↔ Returns x ∧ ∀ a, x = .ok a → Returns (f a) := by
  cases x with
  | error stop =>
      refine ⟨fun h => ⟨fun stop' heq => ?_, fun a ha => (by cases ha)⟩, fun h stop' heq => ?_⟩
      · cases heq
        exact h _ rfl
      · cases heq
        exact h.1 _ rfl
  | ok a =>
      refine ⟨fun h => ⟨returns_ok a, fun a' ha' => ?_⟩, fun h => h.2 a rfl⟩
      cases ha'
      exact h

theorem exists_of_bind_ok {b : β} (h : (x >>= f) = .ok b) : ∃ a, x = .ok a ∧ f a = .ok b := by
  cases x with
  | error stop => cases h
  | ok a => exact ⟨a, rfl, h⟩

/-- The function never returns an error. -/
def NeverFails (x : Except CnfStop α) : Prop :=
  x ≠ .error .failed

theorem NeverFails.bind (hx : NeverFails x) (hf : ∀ a, NeverFails (f a)) :
    NeverFails (x >>= f) := by
  cases x with
  | error stop => exact fun h => hx (by cases h; rfl)
  | ok a => exact hf a

/-- A part that never fails, before one that returns whatever it is given or never. -/
theorem NeverFails.returns_bind {p : Prop} (hx : NeverFails x)
    (hf : ∀ a, Returns (f a) ↔ p) : Returns (x >>= f) ↔ Returns x ∧ p := by
  cases x with
  | error stop =>
      refine iff_of_false (fun h => hx ?_) fun h => hx ?_
      · rw [h stop rfl]
      · rw [h.1 stop rfl]
  | ok a => exact (hf a).trans (and_iff_right (returns_ok a)).symm

theorem NeverFails.returns_iff (hx : NeverFails x) : Returns x ↔ ∃ a, x = .ok a := by
  cases x with
  | error stop =>
      refine iff_of_false (fun h => hx (congrArg Except.error (h stop rfl))) ?_
      rintro ⟨a, ha⟩
      cases ha
  | ok a => exact iff_of_true (returns_ok a) ⟨a, rfl⟩

end

/-! ## The matrix -/

/-- The elements of a matrix. -/
def elements : List Char → List (List Char)
  | [] => [[]]
  | c :: cs =>
      if c = ',' then [] :: elements cs
      else
        match elements cs with
        | [] => [[c]]
        | e :: es => (c :: e) :: es

/-- How many of them are stored: the last one only if it is not empty. -/
def elementCount (started : Bool) : List Char → Nat
  | [] => if started then 1 else 0
  | c :: cs => if c = ',' then elementCount false cs + 1 else elementCount true cs

/-- A matrix that the parser can take: there is something before the first comma, every
element fits its buffer, and there is room for a zero after the last one. -/
structure MatrixFits (str : List Char) : Prop where
  first : str.head? ≠ some ','
  elements_fit : ∀ e ∈ elements str, e.length < tmpSize
  count : elementCount false str < maxConvMatSize

instance (str : List Char) : Decidable (MatrixFits str) :=
  decidable_of_iff (str.head? ≠ some ',' ∧ (∀ e ∈ elements str, e.length < tmpSize) ∧
      elementCount false str < maxConvMatSize)
    ⟨fun h => ⟨h.1, h.2.1, h.2.2⟩, fun h => ⟨h.first, h.elements_fit, h.count⟩⟩

theorem exists_elements (str : List Char) : ∃ e es, elements str = e :: es := by
  cases str with
  | nil => exact ⟨[], [], rfl⟩
  | cons c cs =>
      rw [elements]
      split
      · exact ⟨_, _, rfl⟩
      · split
        · exact ⟨_, _, rfl⟩
        · exact ⟨_, _, rfl⟩

section

variable {F : Type} (lib : Floats F)

/-- An element is stored at an index of the matrix. -/
theorem storeElement_bind {α : Type} {mat : Vector F maxConvMatSize} {p : Nat} {v : F}
    {k : Vector F maxConvMatSize → Except CnfStop α} {r : α} :
    (storeElement mat p v >>= k) = .ok r ↔ ∃ h : p < maxConvMatSize, k (mat.set p v h) = .ok r := by
  unfold storeElement
  by_cases h : p < maxConvMatSize
  · rw [dif_pos h, ok_bind]
    exact ⟨fun hk => ⟨h, hk⟩, fun ⟨_, hk⟩ => hk⟩
  · rw [dif_neg h]
    exact ⟨fun hk => (by cases hk), fun ⟨hp, _⟩ => absurd hp h⟩

/-- After the last character. -/
theorem closeMatrix_ok_iff {mat : Vector F maxConvMatSize} {tmp : Option (List Char)}
    {p i n : Nat} (htmp : tmp = none → i = 0) :
    (∃ mat', closeMatrix lib mat tmp p i = .ok (mat', n)) ↔
      n = p + elementCount (decide (i ≠ 0)) [] ∧ n < maxConvMatSize := by
  unfold closeMatrix
  by_cases hi : i = 0
  · rw [if_pos hi]
    simp only [storeElement_bind, elementCount, hi]
    constructor
    · rintro ⟨mat', hp, heq⟩
      cases heq
      exact ⟨rfl, hp⟩
    · rintro ⟨rfl, hp⟩
      exact ⟨_, hp, rfl⟩
  · rw [if_neg hi]
    obtain ⟨str, rfl⟩ := Option.ne_none_iff_exists'.mp fun h => hi (htmp h)
    rw [readTmp, ok_bind]
    simp only [storeElement_bind, elementCount, hi, ne_eq, not_false_eq_true, decide_true,
      if_true]
    constructor
    · rintro ⟨mat', _, hp, heq⟩
      cases heq
      exact ⟨rfl, hp⟩
    · rintro ⟨rfl, hp⟩
      exact ⟨_, Nat.lt_of_succ_lt hp, hp, rfl⟩

/-- **The loop of the matrix**, with the start of an element in `tmp`. -/
theorem scanMatrix_ok_iff : ∀ (cs : List Char) {mat : Vector F maxConvMatSize}
    {tmp : Option (List Char)} {p i n : Nat} {e : List Char} {es : List (List Char)},
    elements cs = e :: es → (tmp = none → i = 0) → i < tmpSize →
      ((∃ mat', scanMatrix lib mat tmp p i cs = .ok (mat', n)) ↔
        (tmp = none → cs.head? ≠ some ',') ∧ (e.length + i < tmpSize ∧
          ∀ e' ∈ es, e'.length < tmpSize) ∧
          n = p + elementCount (decide (i ≠ 0)) cs ∧ n < maxConvMatSize) := by
  intro cs
  induction cs with
  | nil =>
      intro mat tmp p i n e es helem htmp hi
      cases helem
      rw [scanMatrix, closeMatrix_ok_iff lib htmp]
      simp [hi]
  | cons c cs ih =>
      intro mat tmp p i n e es helem htmp hi
      obtain ⟨e', es', helem'⟩ := exists_elements cs
      rw [scanMatrix]
      rw [elements] at helem
      by_cases hc : c = ','
      · rw [if_pos hc] at helem ⊢
        cases helem
        cases tmp with
        | none =>
            refine iff_of_false ?_ fun h => h.1 rfl (by rw [hc]; rfl)
            rintro ⟨mat', h⟩
            cases h
        | some str =>
            have hcount : elementCount (decide (i ≠ 0)) (c :: cs) =
                elementCount false cs + 1 := by rw [elementCount, if_pos hc]
            rw [readTmp, ok_bind, hcount]
            simp only [storeElement_bind]
            have hwritten : some str = none → 0 = 0 := fun _ => rfl
            constructor
            · rintro ⟨mat', _, h⟩
              obtain ⟨_, ⟨hfirst, hrest⟩, hn, hlt⟩ :=
                (ih helem' hwritten (by decide)).mp ⟨mat', h⟩
              refine ⟨fun h => (by cases h), ⟨by simpa using hi, ?_⟩, ?_, hlt⟩
              · rw [helem']
                exact List.forall_mem_cons.mpr ⟨hfirst, hrest⟩
              · rw [hn]
                simp only [ne_eq, not_true_eq_false, decide_false]
                omega
            · rintro ⟨_, ⟨_, hfit⟩, hn, hlt⟩
              rw [helem'] at hfit
              obtain ⟨hfirst, hrest⟩ := List.forall_mem_cons.mp hfit
              have hp : p < maxConvMatSize := by omega
              have hn' : n = p + 1 + elementCount (decide (0 ≠ 0)) cs := by
                simp only [ne_eq, not_true_eq_false, decide_false]
                omega
              obtain ⟨mat', h⟩ : ∃ mat', scanMatrix lib (mat.set p (lib.atof str) hp) (some str)
                  (p + 1) 0 cs = .ok (mat', n) :=
                (ih helem' hwritten (by decide)).mpr
                  ⟨fun h => (by cases h), ⟨hfirst, hrest⟩, hn', hlt⟩
              exact ⟨mat', hp, h⟩
      · rw [if_neg hc, if_neg (Nat.not_le.mpr hi)]
        rw [if_neg hc, helem'] at helem
        cases helem
        have hcount : elementCount (decide (i ≠ 0)) (c :: cs) = elementCount true cs := by
          rw [elementCount, if_neg hc]
        rw [hcount]
        by_cases hnext : i + 1 < tmpSize
        · rw [if_pos hnext, ih helem' (fun h => (by cases h)) hnext]
          have hhead : (tmp = none → (c :: cs).head? ≠ some ',') := by simp [hc]
          have hlen : (c :: e').length + i < tmpSize ↔ e'.length + (i + 1) < tmpSize := by
            rw [List.length_cons, Nat.succ_add, Nat.add_succ]
          rw [hlen, and_iff_right hhead, and_iff_right fun h => (by cases h)]
          rfl
        · rw [if_neg hnext]
          refine iff_of_false ?_ fun h => ?_
          · rintro ⟨mat', h⟩
            cases h
          · have hlen := h.2.1.1
            rw [List.length_cons] at hlen
            omega

theorem readTmp_neverFails (tmp : Option (List Char)) : NeverFails (readTmp tmp) := by
  cases tmp <;> exact fun h => (by cases h)

theorem storeElement_neverFails (mat : Vector F maxConvMatSize) (p : Nat) (v : F) :
    NeverFails (storeElement mat p v) := by
  unfold storeElement
  split <;> exact fun h => (by cases h)

theorem closeMatrix_neverFails (mat : Vector F maxConvMatSize) (tmp : Option (List Char))
    (p i : Nat) : NeverFails (closeMatrix lib mat tmp p i) := by
  unfold closeMatrix
  split
  · exact (storeElement_neverFails _ _ _).bind fun _ h => (by cases h)
  · exact (readTmp_neverFails tmp).bind fun _ => (storeElement_neverFails _ _ _).bind fun _ =>
      (storeElement_neverFails _ _ _).bind fun _ h => (by cases h)

theorem scanMatrix_neverFails : ∀ (cs : List Char) (mat : Vector F maxConvMatSize)
    (tmp : Option (List Char)) (p i : Nat), NeverFails (scanMatrix lib mat tmp p i cs) := by
  intro cs
  induction cs with
  | nil => exact fun mat tmp p i => closeMatrix_neverFails lib mat tmp p i
  | cons c cs ih =>
      intro mat tmp p i
      rw [scanMatrix]
      split
      · exact (readTmp_neverFails tmp).bind fun _ =>
          (storeElement_neverFails _ _ _).bind fun _ => ih _ _ _ _
      · split
        · exact fun h => (by cases h)
        · split
          · exact ih _ _ _ _
          · exact fun h => (by cases h)

/-- **`cnfparser_parse_matrix`**: how many elements are stored, and when. -/
theorem parseMatrix_ok_iff {mat : Vector F maxConvMatSize} {str : List Char} {n : Nat} :
    (∃ mat', cnfparserParseMatrix lib mat str = .ok (mat', n)) ↔
      MatrixFits str ∧ n = elementCount false str := by
  obtain ⟨e, es, helem⟩ := exists_elements str
  have hunset : (none : Option (List Char)) = none → 0 = 0 := fun _ => rfl
  have hfits : MatrixFits str ↔ str.head? ≠ some ',' ∧ (∀ e ∈ elements str, e.length < tmpSize) ∧
      elementCount false str < maxConvMatSize :=
    ⟨fun h => ⟨h.1, h.2, h.3⟩, fun h => ⟨h.1, h.2.1, h.2.2⟩⟩
  have hcount : elementCount (decide (0 ≠ 0)) str = elementCount false str := rfl
  have hfirst : ((none : Option (List Char)) = none → str.head? ≠ some ',') ↔
      str.head? ≠ some ',' := ⟨fun h => h rfl, fun h _ => h⟩
  rw [cnfparserParseMatrix, scanMatrix_ok_iff lib str helem hunset (by decide), hfits, helem,
    List.forall_mem_cons, hcount, Nat.zero_add, Nat.add_zero, hfirst]
  constructor
  · rintro ⟨hfirst, hlen, rfl, hlt⟩
    exact ⟨⟨hfirst, hlen, hlt⟩, rfl⟩
  · rintro ⟨⟨hfirst, hlen, hlt⟩, rfl⟩
    exact ⟨hfirst, hlen, rfl, hlt⟩

theorem parseMatrix_returns_iff {mat : Vector F maxConvMatSize} {str : List Char} :
    Returns (cnfparserParseMatrix lib mat str) ↔ MatrixFits str := by
  rw [cnfparserParseMatrix, (scanMatrix_neverFails lib str mat none 0 0).returns_iff]
  constructor
  · rintro ⟨⟨mat', n⟩, h⟩
    exact ((parseMatrix_ok_iff lib).mp ⟨mat', h⟩).1
  · intro h
    obtain ⟨mat', h'⟩ : ∃ mat', cnfparserParseMatrix lib mat str = .ok (mat', _) :=
      (parseMatrix_ok_iff lib).mpr ⟨h, rfl⟩
    exact ⟨_, h'⟩

end

/-! ## The settings -/

theorem readLine_neverFails (buf : List Char) (line : Option (List Char)) :
    NeverFails (readLine buf line) := by
  unfold readLine
  refine NeverFails.bind ?_ fun r => ?_
  · unfold cnfparserReadline
    split
    · dsimp only
      split <;> exact fun h => (by cases h)
    · exact fun h => (by cases h)
  · obtain ⟨len, line⟩ := r
    cases line with
    | none => exact fun h => (by cases h)
    | some text =>
        show NeverFails (if _ then _ else _)
        split <;> exact fun h => (by cases h)

theorem searchSetting_neverFails (name : List Char) : ∀ (fuel : Nat) (buf : List Char)
    (line : Option (List Char)), NeverFails (searchSetting name fuel buf line) := by
  intro fuel
  induction fuel with
  | zero => exact fun buf line h => (by cases h)
  | succ fuel ih =>
      intro buf line
      rw [searchSetting]
      split
      · exact fun h => (by cases h)
      · refine (readLine_neverFails buf line).bind fun r => ?_
        obtain ⟨len, text⟩ := r
        dsimp only
        split
        · exact ih _ _
        · split
          · split
            · exact fun h => (by cases h)
            · exact ih _ _
          · exact fun h => (by cases h)

/-- What stands between quotes is shorter than the line. -/
theorem quoted_length {line str : List Char} (h : quoted line = some str) :
    str.length < line.length := by
  unfold quoted at h
  split at h
  · cases h
  · next c rest hdrop =>
      split at h
      · cases h
        have hsuffix := (List.dropWhile_suffix (· ≠ '"') (l := line)).length_le
        have hprefix := (List.takeWhile_prefix (· ≠ '"') (l := rest)).length_le
        rw [hdrop, List.length_cons] at hsuffix
        omega
      · cases h

section

variable {lines : List (List Char)} {tail : List Char}

/-- The line of a setting. -/
def settingLine (lines : List (List Char)) (name : String) : Option (List Char) :=
  lines.find? (named name.toList)

/-- **A search** returns where it fits. -/
theorem returns_search_bind (htail : '\n' ∉ tail) (hlines : ∀ l ∈ lines, IsLine l) (name : String)
    {α : Type} {k : Option (List Char) → Except CnfStop α} :
    Returns (searchSetting name.toList (unlines lines ++ tail).length (unlines lines ++ tail) none
        >>= k) ↔
      SearchFits lines tail name.toList ∧ Returns (k (settingLine lines name)) := by
  rw [returns_bind, (searchSetting_neverFails _ _ _ _).returns_iff]
  simp only [searchSetting_ok_iff htail hlines]
  constructor
  · rintro ⟨⟨_, hfits, _⟩, hk⟩
    exact ⟨hfits, hk _ ⟨hfits, rfl⟩⟩
  · rintro ⟨hfits, hk⟩
    refine ⟨⟨_, hfits, rfl⟩, ?_⟩
    rintro a ⟨_, rfl⟩
    exact hk

/-- The line of a setting has no quotes around a string. -/
def Unquoted (lines : List (List Char)) (name : String) : Prop :=
  ∃ line, settingLine lines name = some line ∧ quoted line = none

theorem not_unquoted {name : String} (h : settingLine lines name = none) :
    ¬ Unquoted lines name := by
  rintro ⟨line, hline, _⟩
  rw [h] at hline
  cases hline

theorem unquoted_iff {name : String} {line : List Char} (h : settingLine lines name = some line) :
    Unquoted lines name ↔ quoted line = none := by
  constructor
  · rintro ⟨line', hline, hnone⟩
    obtain rfl := Option.some.inj (h.symm.trans hline)
    exact hnone
  · exact fun hnone => ⟨line, h, hnone⟩

/-- **`cnfparser_read_str`**, where the buffer is not smaller than a line. -/
theorem returns_readStr_bind (htail : '\n' ∉ tail) (hlines : ∀ l ∈ lines, IsLine l)
    (name : String) {size : Nat} (hsize : maxLineLen ≤ size) {α : Type}
    {k : Option (List Char) → Except CnfStop α} :
    Returns (cnfparserReadStr (unlines lines ++ tail) name size >>= k) ↔
      SearchFits lines tail name.toList ∧
        (Unquoted lines name ∨ Returns (k ((settingLine lines name).bind quoted))) := by
  rw [cnfparserReadStr, bind_assoc, returns_search_bind htail hlines]
  refine and_congr_right fun _ => ?_
  cases hline : settingLine lines name with
  | none =>
      rw [or_iff_right (not_unquoted hline)]
      rfl
  | some line =>
      have hlen := (hlines line (List.mem_of_find?_eq_some hline)).2
      rw [copyQuoted]
      cases hstr : quoted line with
      | none =>
          exact iff_of_true (returns_error.mpr rfl) (.inl ((unquoted_iff hline).mpr hstr))
      | some str =>
          have hquoted : ¬ Unquoted lines name := by
            rw [unquoted_iff hline, hstr]
            exact Option.some_ne_none str
          have hfit : str.length < size :=
            Nat.lt_of_lt_of_le (Nat.lt_trans (quoted_length hstr) hlen) hsize
          dsimp only
          rw [if_pos hfit, or_iff_right hquoted, Option.bind_some, hstr]
          rfl

theorem returns_readVal (htail : '\n' ∉ tail) (hlines : ∀ l ∈ lines, IsLine l) (name : String) :
    Returns (cnfparserReadVal (unlines lines ++ tail) name) ↔
      SearchFits lines tail name.toList := by
  rw [cnfparserReadVal, returns_search_bind htail hlines]
  exact and_iff_left (returns_ok _)

theorem readVal_neverFails (buf : List Char) (name : String) :
    NeverFails (cnfparserReadVal buf name) :=
  (searchSetting_neverFails _ _ _ _).bind fun _ h => (by cases h)

variable {F : Type}

theorem readInt_neverFails (buf : List Char) (config : TestConfigurationFileParams F)
    (setting : String × (TestConfigurationFileParams F → Int → TestConfigurationFileParams F)) :
    NeverFails (readInt buf config setting) := by
  refine (readVal_neverFails buf setting.1).bind fun digits => ?_
  cases digits <;> exact fun h => (by cases h)

theorem returns_readInt (htail : '\n' ∉ tail) (hlines : ∀ l ∈ lines, IsLine l)
    (config : TestConfigurationFileParams F)
    (setting : String × (TestConfigurationFileParams F → Int → TestConfigurationFileParams F)) :
    Returns (readInt (unlines lines ++ tail) config setting) ↔
      SearchFits lines tail setting.1.toList := by
  rw [readInt, (readVal_neverFails _ _).returns_bind (p := True) fun digits => ?_, and_true,
    returns_readVal htail hlines]
  cases digits <;> exact iff_true_intro (returns_ok _)

/-- **The settings of type `int`.** -/
theorem returns_readInts (htail : '\n' ∉ tail) (hlines : ∀ l ∈ lines, IsLine l) :
    ∀ (settings : List (String × (TestConfigurationFileParams F → Int →
      TestConfigurationFileParams F))) (config : TestConfigurationFileParams F),
      NeverFails (settings.foldlM (readInt (unlines lines ++ tail)) config) ∧
        (Returns (settings.foldlM (readInt (unlines lines ++ tail)) config) ↔
          ∀ setting ∈ settings, SearchFits lines tail setting.1.toList) := by
  intro settings
  induction settings with
  | nil =>
      intro config
      exact ⟨fun h => (by cases h), iff_of_true (returns_ok _) fun _ h => (by cases h)⟩
  | cons setting settings ih =>
      intro config
      rw [List.foldlM_cons, List.forall_mem_cons, ← returns_readInt htail hlines config setting]
      exact ⟨(readInt_neverFails _ _ _).bind fun config' => (ih config').1,
        (readInt_neverFails _ _ _).returns_bind fun config' => (ih config').2⟩

/-- The names of the settings of type `int`. -/
def intNames : List String :=
  ["scale_images_to_window", "video_widget_generation_freq", "video_widget_texture_width",
    "video_widget_texture_height", "desktop_count", "layer_count", "widget_count",
    "particle_count", "scroll_speed"]

theorem intSettings_names : (intSettings (F := F)).map Prod.fst = intNames := rfl

/-- The matrix is in the file, and if it is in quotes the parser can take it and the last
search fits. -/
structure MatrixSettingFits (lines : List (List Char)) (tail : List Char) : Prop where
  search : SearchFits lines tail "convolution_mat".toList
  present : ∃ line, settingLine lines "convolution_mat" = some line ∧
    ∀ str, quoted line = some str →
      MatrixFits str ∧ SearchFits lines tail "convolution_mat_divisor".toList

/-- Everything that is searched is found or missed without harm; a command without quotes
ends the reading. -/
structure SettingsFit (lines : List (List Char)) (tail : List Char) : Prop where
  ints : ∀ name ∈ intNames, SearchFits lines tail name.toList
  cmd : SearchFits lines tail "compositor_cmd".toList
  matrix : Unquoted lines "compositor_cmd" ∨ MatrixSettingFits lines tail

/-- The matrix and what comes after it. -/
theorem returns_readMatrix_bind (lib : Floats F) (htail : '\n' ∉ tail)
    (hlines : ∀ l ∈ lines, IsLine l) (config : TestConfigurationFileParams F) {α : Type}
    {k : TestConfigurationFileParams F → Except CnfStop α}
    (hk : ∀ config, Returns (k config) ↔
      SearchFits lines tail "convolution_mat_divisor".toList) :
    Returns (readMatrix lib (unlines lines ++ tail) config >>= k) ↔
      MatrixSettingFits lines tail := by
  have hparts : MatrixSettingFits lines tail ↔
      SearchFits lines tail "convolution_mat".toList ∧
        ∃ line, settingLine lines "convolution_mat" = some line ∧ ∀ str, quoted line = some str →
          MatrixFits str ∧ SearchFits lines tail "convolution_mat_divisor".toList :=
    ⟨fun h => ⟨h.1, h.2⟩, fun h => ⟨h.1, h.2⟩⟩
  rw [readMatrix, bind_assoc, returns_readStr_bind htail hlines _ (Nat.le_refl _), hparts]
  refine and_congr_right fun _ => ?_
  cases hline : settingLine lines "convolution_mat" with
  | none =>
      refine iff_of_false ?_ ?_
      · rintro (h | h)
        · exact not_unquoted hline h
        · cases h _ rfl
      · rintro ⟨line, hline', _⟩
        cases hline'
  | some line =>
      cases hstr : quoted line with
      | none =>
          refine iff_of_true (.inl ((unquoted_iff hline).mpr hstr))
            ⟨line, rfl, fun str h => ?_⟩
          rw [hstr] at h
          cases h
      | some str =>
          have hquoted : ¬ Unquoted lines "convolution_mat" := by
            rw [unquoted_iff hline, hstr]
            exact Option.some_ne_none str
          rw [or_iff_right hquoted, Option.bind_some, hstr, readTmp, ok_bind, bind_assoc]
          refine (NeverFails.returns_bind (scanMatrix_neverFails lib str _ _ _ _)
            fun r => hk _).trans ?_
          rw [← cnfparserParseMatrix, parseMatrix_returns_iff]
          refine ⟨fun h => ⟨line, rfl, fun str' hstr' => ?_⟩, ?_⟩
          · obtain rfl := Option.some.inj (hstr.symm.trans hstr')
            exact h
          · rintro ⟨line', hline', h⟩
            cases hline'
            exact h str hstr

/-- **`cnfparser_parse_config`** returns exactly where the settings fit. -/
theorem returns_parseConfig (lib : Floats F) (htail : '\n' ∉ tail)
    (hlines : ∀ l ∈ lines, IsLine l) (config : TestConfigurationFileParams F) :
    Returns (cnfparserParseConfig lib (unlines lines ++ tail) config) ↔
      SettingsFit lines tail := by
  have hrest (config : TestConfigurationFileParams F) :
      Returns (cnfparserReadVal (unlines lines ++ tail) "convolution_mat_divisor" >>= fun digits =>
          Except.ok { config with
            convolutionMatDivisor := (digits.map lib.atof).getD config.convolutionMatDivisor }) ↔
        SearchFits lines tail "convolution_mat_divisor".toList := by
    rw [(readVal_neverFails _ _).returns_bind fun _ => iff_true_intro (returns_ok _), and_true]
    exact returns_readVal htail hlines _
  have hcmd (config : TestConfigurationFileParams F) :
      Returns (cnfparserReadStr (unlines lines ++ tail) "compositor_cmd" pathMax >>= fun cmd =>
          readMatrix lib (unlines lines ++ tail)
              { config with compositorCmd := cmd.getD config.compositorCmd } >>= fun config =>
            cnfparserReadVal (unlines lines ++ tail) "convolution_mat_divisor" >>= fun digits =>
              Except.ok { config with
                convolutionMatDivisor :=
                  (digits.map lib.atof).getD config.convolutionMatDivisor }) ↔
        SearchFits lines tail "compositor_cmd".toList ∧
          (Unquoted lines "compositor_cmd" ∨ MatrixSettingFits lines tail) := by
    rw [returns_readStr_bind htail hlines _ (by decide),
      returns_readMatrix_bind lib htail hlines _ hrest]
  obtain ⟨hnever, hints⟩ := returns_readInts htail hlines (intSettings (F := F)) config
  have hnames : (∀ setting ∈ intSettings (F := F), SearchFits lines tail setting.1.toList) ↔
      ∀ name ∈ intNames, SearchFits lines tail name.toList := by
    rw [← intSettings_names (F := F), List.forall_mem_map]
  refine (hnever.returns_bind hcmd).trans ?_
  rw [hints, hnames]
  exact ⟨fun h => ⟨h.1, h.2.1, h.2.2⟩, fun h => ⟨h.1, h.2, h.3⟩⟩

end

/-! ## The file -/

/-- The text that is read of a file. -/
def textOf (contents : List Char) : List Char :=
  cString (contents.take (contents.length % uintLimit))

/-- The lines after the first pass, with what no newline ends. -/
def blankLines (contents : List Char) : List (List Char) × List Char :=
  splitLines (removeBlanks false (textOf contents))

/-- The lines after the second pass. -/
def keptLines (contents : List Char) : List (List Char) :=
  (blankLines contents).1.filter isKept

/-- The lines after the third pass. -/
def cleanLines (contents : List Char) : List (List Char) :=
  (joinedLines [] (keptLines contents)).1

/-- The unterminated text after them. -/
def cleanTail (contents : List Char) : List Char :=
  (joinedLines [] (keptLines contents)).2 ++ keptTail (blankLines contents).2

/-- What `read_config` can read: there is memory for a copy of the text, whose length is no
`unsigned int` before the last; every line that is ended fits its buffer, before and while
lines are joined; the text does not end with a backslash; and the settings fit. -/
structure ReadsInside (memory : Bool) (contents : List Char) : Prop where
  memory : memory = true
  length : contents.length % uintLimit + 1 < uintLimit
  lines : ∀ l ∈ (blankLines contents).1, l.length < maxLineLen
  joins : JoinsFit [] (keptLines contents)
  ended : ¬ Continued (cleanTail contents)
  settings : SettingsFit (cleanLines contents) (cleanTail contents)

section

variable {memory : Bool} {contents : List Char}

theorem keptLines_plain (contents : List Char) : ∀ l ∈ keptLines contents, '\n' ∉ l ∧ l ≠ [] := by
  intro l hl
  obtain ⟨hmem, hkept⟩ := List.mem_filter.mp hl
  refine ⟨(unlines_splitLines (removeBlanks false (textOf contents))).2.1 l hmem, ?_⟩
  rintro rfl
  cases hkept

theorem keptTail_plain (contents : List Char) : '\n' ∉ keptTail (blankLines contents).2 := by
  unfold keptTail
  split
  · exact List.not_mem_nil
  · exact (unlines_splitLines (removeBlanks false (textOf contents))).2.2

/-- The first two passes. -/
theorem cleanup_eq (rounds : Nat) (contents : List Char) :
    cnfparserCleanup rounds true (textOf contents) =
      if ∀ l ∈ (blankLines contents).1, l.length < maxLineLen then
        joinLines rounds (unlines (keptLines contents) ++ keptTail (blankLines contents).2)
      else some (.error (.fault .outOfBounds)) := by
  obtain ⟨htext, hlines, htail⟩ :=
    unlines_splitLines (removeBlanks false (textOf contents))
  have h := removeComments_eq htail hlines (Nat.le_refl _)
  rw [htext] at h
  rw [cnfparserCleanup, if_neg (by decide)]
  dsimp only
  rw [h]
  by_cases hfit : ∀ l ∈ (splitLines (removeBlanks false (textOf contents))).1,
      l.length < maxLineLen
  · rw [if_pos hfit]
    exact (if_pos hfit).symm
  · rw [if_neg hfit]
    exact (if_neg hfit).symm

/-- What is parsed after the three passes. -/
theorem cleanup_ok_iff {r : List Char} :
    (∃ rounds, cnfparserCleanup rounds memory (textOf contents) = some (.ok r)) ↔
      memory = true ∧ (∀ l ∈ (blankLines contents).1, l.length < maxLineLen) ∧
        JoinsFit [] (keptLines contents) ∧ ¬ Continued (cleanTail contents) ∧
        r = unlines (cleanLines contents) ++ cleanTail contents := by
  cases memory with
  | false =>
      refine iff_of_false ?_ fun h => Bool.false_ne_true h.1
      rintro ⟨rounds, h⟩
      cases h
  | true =>
      simp only [cleanup_eq]
      by_cases hfit : ∀ l ∈ (blankLines contents).1, l.length < maxLineLen
      · simp only [if_pos hfit]
        constructor
        · rintro ⟨rounds, h⟩
          rw [← List.nil_append (unlines (keptLines contents) ++ _)] at h
          exact ⟨trivial, hfit, joinLines_only (keptTail_plain contents) (keptLines contents)
            List.not_mem_nil (keptLines_plain contents) h⟩
        · rintro ⟨_, _, hjoins, hended, rfl⟩
          exact ⟨_, joinLines_ok (keptTail_plain contents) (keptLines contents)
            List.not_mem_nil (keptLines_plain contents) hjoins hended⟩
      · refine iff_of_false ?_ fun h => hfit h.2.1
        rintro ⟨rounds, h⟩
        rw [if_neg hfit] at h
        cases h

theorem cleanLines_isLine (h : JoinsFit [] (keptLines contents)) :
    (∀ l ∈ cleanLines contents, IsLine l) ∧ '\n' ∉ cleanTail contents := by
  obtain ⟨hlines, hend⟩ := joinedLines_isLine (keptLines contents) List.not_mem_nil
    (keptLines_plain contents) h
  exact ⟨hlines, newline_not_mem_append hend (keptTail_plain contents)⟩

theorem parseResult_ok_iff {F : Type} {x : Except CnfStop (TestConfigurationFileParams F)} :
    (∃ r, parseResult x = .ok r) ↔ Returns x := by
  cases x with
  | ok config => exact iff_of_true ⟨_, rfl⟩ (returns_ok config)
  | error stop =>
      rw [returns_error]
      constructor
      · rintro ⟨r, h⟩
        cases stop <;> first | rfl | cases h
      · rintro rfl
        exact ⟨_, rfl⟩

end

/-! ## What is accepted -/

theorem readMatrix_size {F : Type} {lib : Floats F} {buf : List Char}
    {config config' : TestConfigurationFileParams F}
    (h : readMatrix lib buf config = .ok config') :
    config'.convolutionMatSize < maxConvMatSize := by
  obtain ⟨line, _, h⟩ := exists_of_bind_ok h
  obtain ⟨str, _, h⟩ := exists_of_bind_ok h
  obtain ⟨r, hparse, h⟩ := exists_of_bind_ok h
  cases h
  obtain ⟨hfits, hsize⟩ := (parseMatrix_ok_iff lib).mp ⟨r.1, hparse⟩
  exact Nat.lt_of_le_of_lt (Nat.le_of_eq hsize) hfits.count

/-- A configuration that is accepted has fewer elements than there is room for. -/
theorem size_of_accepted {F : Type} {lib : Floats F} {rounds : Nat} {memory : Bool}
    {config config' : TestConfigurationFileParams F} {contents : List Char}
    (h : readConfig lib rounds memory config (some contents) = some (.ok (.config config'))) :
    config'.convolutionMatSize < maxConvMatSize := by
  unfold readConfig at h
  cases hfile : readFile contents with
  | error stop =>
      simp only [hfile] at h
      cases h
  | ok buf =>
      simp only [hfile] at h
      obtain ⟨x, _, hx⟩ := Option.map_eq_some_iff.mp h
      obtain ⟨text, _, hresult⟩ := exists_of_bind_ok hx
      cases hparse : cnfparserParseConfig lib text config with
      | error stop =>
          rw [hparse] at hresult
          cases stop <;> cases hresult
      | ok parsed =>
          rw [hparse] at hresult
          cases hresult
          obtain ⟨ints, _, hparse⟩ := exists_of_bind_ok hparse
          obtain ⟨cmd, _, hparse⟩ := exists_of_bind_ok hparse
          obtain ⟨matrix, hmatrix, hparse⟩ := exists_of_bind_ok hparse
          obtain ⟨digits, _, hparse⟩ := exists_of_bind_ok hparse
          cases hparse
          have hsize := readMatrix_size hmatrix
          exact hsize

/-- A library for whole numbers. -/
def wholeFloats : Floats Int where
  atof := Cli.atoi
  ofInt n := n
  isZero n := n == 0
  isOne n := n == 1
  isMinusOne n := n == -1
  fixed2 n := (toString n).toList ++ ".00".toList

/-- What `memset` leaves. -/
def TestConfigurationFileParams.zero : TestConfigurationFileParams Int where
  scaleImagesToWindow := 0
  desktopCount := 0
  layerCount := 0
  widgetCount := 0
  particleCount := 0
  videoWidgetTexWidth := 0
  videoWidgetTexHeight := 0
  videoWidgetGenerationFreq := 0
  scrollSpeed := 0
  compositorCmd := []
  convolutionMat := .replicate maxConvMatSize 0
  convolutionMatSize := 0
  convolutionMatDivisor := 0

end Blts.Gles
