import Blts.Gles.CleanedSettings

/-!
# What is stored of a configuration text

`read_config` stores what is written if no integer is negative, the digits at the end of the
divisor make the divisor, there is a matrix, and its last element, which is read with `atoi`, has
no fraction (`storesWritten_iff`).
-/

namespace Blts.Gles

open Blts.Alsa (CnfStop isKept maxLineLen ok_bind unlines)

open ConfigItem (listText)

variable {F : Type} (lib : Floats F)

/-! ## The elements of a matrix -/

section

variable {mat : Vector F maxConvMatSize} {p : Nat}

theorem scanMatrix_word (w : List Char) {t cs : List Char} (hcomma : ',' ∉ w)
    (hlen : t.length + w.length < tmpSize) :
    scanMatrix lib mat (some t) p t.length (w ++ cs) =
      scanMatrix lib mat (some (t ++ w)) p (t ++ w).length cs := by
  induction w generalizing t with
  | nil => rw [List.append_nil, List.nil_append]
  | cons c w ih =>
      rw [List.mem_cons, not_or] at hcomma
      rw [List.length_cons] at hlen
      have hnext : (t ++ [c]).length + w.length < tmpSize := by
        rw [List.length_append, List.length_singleton]
        omega
      have hrest := ih hcomma.2 hnext
      rw [List.append_assoc, List.singleton_append, List.length_append, List.length_singleton]
        at hrest
      rw [List.cons_append, scanMatrix, if_neg fun heq => hcomma.1 heq.symm, if_neg (by omega),
        if_pos (by omega), Option.getD_some, List.take_length]
      exact hrest

/-- A word of a matrix goes to `tmp`. -/
theorem scanMatrix_first {w cs : List Char} (tmp : Option (List Char)) (hne : w ≠ [])
    (hcomma : ',' ∉ w) (hlen : w.length < tmpSize) :
    scanMatrix lib mat tmp p 0 (w ++ cs) = scanMatrix lib mat (some w) p w.length cs := by
  cases w with
  | nil => exact absurd rfl hne
  | cons c w =>
      rw [List.mem_cons, not_or] at hcomma
      rw [List.length_cons] at hlen
      have hrest : scanMatrix lib mat (some [c]) p [c].length (w ++ cs) =
          scanMatrix lib mat (some ([c] ++ w)) p ([c] ++ w).length cs :=
        scanMatrix_word lib w hcomma.2 (by rw [List.length_singleton]; omega)
      rw [List.cons_append, scanMatrix, if_neg fun heq => hcomma.1 heq.symm,
        if_neg (by decide), if_pos (by decide), List.take_zero, List.nil_append]
      exact hrest

/-- What can be an element. -/
def IsWord (w : List Char) : Prop := w ≠ [] ∧ ',' ∉ w

theorem MatrixElement.isWord_seen (e : MatrixElement) (inStr : Bool) : IsWord (e.seen inStr) := by
  cases inStr with
  | true =>
      exact ⟨e.text_ne_nil, e.number.not_mem_text (by decide) (by decide) (by decide)⟩
  | false =>
      constructor
      · intro hnil
        exact e.text_ne_nil (List.append_eq_nil_iff.mp (List.append_eq_nil_iff.mp hnil).1).2
      · exact e.not_mem_text (by decide) (by decide) (by decide) (by decide)

/-- What is stored of a word. -/
def storedWord (last : Bool) (w : List Char) : F :=
  if last then lib.ofInt (Cli.atoi w) else lib.atof w

/-- **The matrix** has the words in order. -/
theorem scanMatrix_words (ws : List (List Char)) : ∀ {mat : Vector F maxConvMatSize}
    {tmp : Option (List Char)} {p : Nat}, ws ≠ [] →
    (∀ w ∈ ws, IsWord w ∧ w.length < tmpSize) → p + ws.length < maxConvMatSize →
    ∃ mat', scanMatrix lib mat tmp p 0 (listText ws) = .ok (mat', p + ws.length) ∧
      (∀ j < p, mat'[j]? = mat[j]?) ∧
      ∀ k w, ws[k]? = some w → mat'[p + k]? = some (storedWord lib (k + 1 = ws.length) w) := by
  induction ws with
  | nil => exact fun h => absurd rfl h
  | cons w ws ih =>
      intro mat tmp p _ hws hcount
      obtain ⟨⟨⟨hne, hcomma⟩, hlen⟩, hrest⟩ := List.forall_mem_cons.mp hws
      rw [List.length_cons] at hcount
      have hp : p < maxConvMatSize := by omega
      cases ws with
      | nil =>
          have hscan : scanMatrix lib mat tmp p 0 (w ++ []) =
              scanMatrix lib mat (some w) p w.length [] := scanMatrix_first lib tmp hne hcomma hlen
          rw [List.append_nil] at hscan
          have hp' : p + 1 < maxConvMatSize := hcount
          have hi : w.length ≠ 0 := fun h => hne (List.length_eq_zero_iff.mp h)
          refine ⟨(mat.set p (storedWord lib true w) hp).set (p + 1) (lib.ofInt 0) hp', ?_, ?_, ?_⟩
          · rw [listText, hscan, scanMatrix, closeMatrix, if_neg hi, readTmp, ok_bind, storeElement,
              dif_pos hp, ok_bind, storeElement, dif_pos hp']
            rfl
          · intro j hj
            rw [Vector.getElem?_set_ne hp' (by omega), Vector.getElem?_set_ne hp (by omega)]
          · intro k w' hk
            cases k with
            | zero =>
                cases hk
                have hset : ((mat.set p (storedWord lib true w) hp).set (p + 1) (lib.ofInt 0)
                    hp')[p]? = some (storedWord lib true w) := by
                  rw [Vector.getElem?_set_ne hp' (Nat.succ_ne_self p), Vector.getElem?_set_self hp]
                exact hset
            | succ k => cases hk
      | cons w' ws =>
          have hscan : scanMatrix lib mat tmp p 0 (w ++ ',' :: listText (w' :: ws)) =
              scanMatrix lib mat (some w) p w.length (',' :: listText (w' :: ws)) :=
            scanMatrix_first lib tmp hne hcomma hlen
          have hp' : p + 1 + (w' :: ws).length < maxConvMatSize := by omega
          obtain ⟨mat', hmat', hbefore, hafter⟩ :=
            @ih (mat.set p (lib.atof w) hp) (some w) (p + 1) (List.cons_ne_nil _ _) hrest hp'
          refine ⟨mat', ?_, ?_, ?_⟩
          · rw [listText, hscan, scanMatrix, if_pos rfl, readTmp, ok_bind, storeElement,
              dif_pos hp, ok_bind, hmat',
              show (w :: w' :: ws).length = (w' :: ws).length + 1 from rfl]
            · exact congrArg (fun n => Except.ok (mat', n)) (by omega)
            · exact fun h => absurd h (List.cons_ne_nil _ _)
          · intro j hj
            rw [hbefore j (by omega), Vector.getElem?_set_ne hp (by omega)]
          · intro k v hk
            cases k with
            | zero =>
                cases hk
                rw [Nat.add_zero, hbefore p (Nat.lt_succ_self p), Vector.getElem?_set_self hp]
                rfl
            | succ k =>
                have hk' := hafter k v hk
                rw [Nat.add_assoc, Nat.add_comm 1 k] at hk'
                rw [hk']
                simp only [List.length_cons, Nat.add_right_cancel_iff]

/-- The elements of a text are its words. -/
theorem elements_listText {ws : List (List Char)} (hne : ws ≠ []) (hws : ∀ w ∈ ws, ',' ∉ w) :
    elements (listText ws) = ws := by
  have hword : ∀ {w : List Char}, ',' ∉ w → elements w = [w] := by
    intro w hw
    induction w with
    | nil => rfl
    | cons c w ih =>
        rw [List.mem_cons, not_or] at hw
        rw [elements, if_neg fun heq => hw.1 heq.symm, ih hw.2]
  have hcons : ∀ {w : List Char} {rest : List Char}, ',' ∉ w →
      elements (w ++ ',' :: rest) = w :: elements rest := by
    intro w rest hw
    induction w with
    | nil => rw [List.nil_append, elements, if_pos rfl]
    | cons c w ih =>
        rw [List.mem_cons, not_or] at hw
        rw [List.cons_append, elements, if_neg fun heq => hw.1 heq.symm, ih hw.2]
  induction ws with
  | nil => exact absurd rfl hne
  | cons w ws ih =>
      obtain ⟨hw, hws⟩ := List.forall_mem_cons.mp hws
      cases ws with
      | nil => exact hword hw
      | cons w' ws =>
          rw [listText, hcons hw, ih (List.cons_ne_nil _ _) hws]
          exact fun h => absurd h (List.cons_ne_nil _ _)

end

/-! ## What the library does -/

/-- What is known of the numbers of floating point: `atof` and the conversion of an `int` round
what they are given, and numbers that are written with seven characters at most round to different
ones. -/
structure Rounds (lib : Floats F) (round : ℚ → F) : Prop where
  atof : ∀ s, (∀ c ∈ s, c.isDigit = true ∨ c = '-' ∨ c = '.' ∨ isBlank c = true) →
    lib.atof s = round (decimalValue s)
  ofInt : ∀ n : Int, lib.ofInt n = round n
  short : ∀ x y : Numeral, x.text.length < tmpSize → y.text.length < tmpSize →
    round x.value = round y.value → x.value = y.value

section

variable {lib} {round : ℚ → F}

theorem Rounds.atof_digits (h : Rounds lib round) {ds : List Char}
    (hds : ∀ c ∈ ds, c.isDigit = true) :
    lib.atof ds = round (Nat.ofDigitChars 10 ds 0 : ℕ) := by
  rw [h.atof ds fun c hc => .inl (hds c hc), Numeral.decimalValue_digits hds]

/-- What is stored of an element. -/
theorem Rounds.storedWord (h : Rounds lib round) (e : MatrixElement) (inStr last : Bool) :
    storedWord lib last (e.seen inStr) =
      round (if last then (e.number.truncated : ℚ) else e.number.value) := by
  obtain ⟨lead, trail, hseen, hlead, htrail⟩ := e.seen_eq inStr
  rw [hseen, Gles.storedWord]
  cases last with
  | true =>
      rw [if_pos rfl, if_pos rfl, e.number.atoi_text hlead htrail, h.ofInt]
  | false =>
      rw [if_neg Bool.false_ne_true, if_neg Bool.false_ne_true, h.atof,
        e.number.decimalValue_text hlead htrail]
      intro c hc
      rcases List.mem_append.mp hc with hc | hc
      · rcases List.mem_append.mp hc with hc | hc
        · exact .inr (.inr (.inr (hlead c hc)))
        · rcases e.number.text_chars c hc with hc | hc | hc
          · exact .inl hc
          · exact .inr (.inl hc)
          · exact .inr (.inr (.inl hc))
      · exact .inr (.inr (.inr (htrail c hc)))

/-- A whole number. -/
def Numeral.ofWhole (negative : Bool) (whole : List Char)
    (digits : ∀ c ∈ whole, c.isDigit = true) (ne_nil : whole ≠ []) : Numeral where
  negative := negative
  whole := whole
  fraction := none
  whole_digits := digits
  fraction_digits := fun _ hf => by cases hf
  ne_nil := by
    rw [Option.getD_none, List.append_nil]
    exact ne_nil

theorem Numeral.value_of_whole {x : Numeral} (h : x.fraction = none) : x.value = x.truncated := by
  rw [value, truncated, h]
  simp

/-- A short number without its fraction is a short number. -/
theorem Numeral.exists_truncated (x : Numeral) (hx : x.text.length < tmpSize) :
    ∃ y : Numeral, y.text.length < tmpSize ∧ y.value = x.truncated := by
  by_cases hwhole : x.whole = []
  · refine ⟨ofWhole false ['0'] (List.forall_mem_singleton.mpr rfl) (List.cons_ne_nil _ _),
      by decide, ?_⟩
    rw [value_of_whole rfl, truncated, truncated, hwhole, Nat.ofDigitChars_nil, Int.natCast_zero,
      Int.mul_zero]
    rfl
  · refine ⟨ofWhole x.negative x.whole x.whole_digits hwhole, ?_, value_of_whole rfl⟩
    have htext : (ofWhole x.negative x.whole x.whole_digits hwhole).text =
        (if x.negative then ['-'] else []) ++ x.whole := List.append_nil _
    have hle := (List.prefix_append ((if x.negative then ['-'] else []) ++ x.whole)
      (x.fraction.elim [] fun f => '.' :: f)).length_le
    rw [htext]
    exact Nat.lt_of_le_of_lt hle hx

/-- **The last element** is right exactly if it has no fraction. -/
theorem Rounds.truncated_iff (h : Rounds lib round) {x : Numeral} (hx : x.text.length < tmpSize) :
    round (x.truncated : ℚ) = round x.value ↔ (x.truncated : ℚ) = x.value := by
  refine ⟨fun heq => ?_, congrArg round⟩
  obtain ⟨y, hy, hvalue⟩ := x.exists_truncated hx
  rw [← hvalue] at heq ⊢
  exact h.short y x hy hx heq

end

/-! ## What is written and what is stored -/

def ConfigItem.int? : ConfigItem → Option Int
  | .int _ _ x .. => some x.truncated
  | _ => none

def ConfigItem.matrix? : ConfigItem → Option (List MatrixElement)
  | .matrix elements _ => some elements
  | _ => none

def ConfigItem.divisor? : ConfigItem → Option Numeral
  | .divisor x => some x
  | _ => none

/-- The integer that is written. -/
def writtenInt (lines : List ConfigLine) (name : String) : Option Int :=
  (firstNamed lines name).bind fun s => s.2.item.int?

def writtenMatrix (lines : List ConfigLine) : Option (List MatrixElement) :=
  (firstNamed lines "convolution_mat").bind fun s => s.2.item.matrix?

def writtenDivisor (lines : List ConfigLine) : Option Numeral :=
  (firstNamed lines "convolution_mat_divisor").bind fun s => s.2.item.divisor?

/-- The settings of type `int`. -/
def intFields : List (String × (TestConfigurationFileParams F → Int)) :=
  [("scale_images_to_window", fun config => config.scaleImagesToWindow),
    ("video_widget_generation_freq", fun config => config.videoWidgetGenerationFreq),
    ("video_widget_texture_width", fun config => config.videoWidgetTexWidth),
    ("video_widget_texture_height", fun config => config.videoWidgetTexHeight),
    ("desktop_count", fun config => config.desktopCount),
    ("layer_count", fun config => config.layerCount),
    ("widget_count", fun config => config.widgetCount),
    ("particle_count", fun config => config.particleCount),
    ("scroll_speed", fun config => config.scrollSpeed)]

/-- What is written is stored, and what is not written stays. -/
structure StoredAs (round : ℚ → F) (lines : List ConfigLine)
    (config config' : TestConfigurationFileParams F) : Prop where
  ints : ∀ f ∈ intFields (F := F), f.2 config' = (writtenInt lines f.1).getD (f.2 config)
  matrix : ∀ es, writtenMatrix lines = some es → config'.convolutionMatSize = es.length ∧
    ∀ (i : Nat) (e : MatrixElement), es[i]? = some e →
      config'.convolutionMat[i]? = some (round e.number.value)
  noMatrix : writtenMatrix lines = none → config'.convolutionMat = config.convolutionMat ∧
    config'.convolutionMatSize = config.convolutionMatSize
  divisor : config'.convolutionMatDivisor =
    ((writtenDivisor lines).map fun x => round x.value).getD config.convolutionMatDivisor
  noCmd : firstNamed lines "compositor_cmd" = none → config'.compositorCmd = config.compositorCmd

/-- `read_config` stores what is written in the text. -/
def StoresWritten (lib : Floats F) (round : ℚ → F) (lines : List ConfigLine)
    (config : TestConfigurationFileParams F) : Prop :=
  ∃ rounds config', readConfig lib rounds true config (some (contentsOf lines)) =
    some (.ok (.config config')) ∧ StoredAs round lines config config'

/-- What `read_config` can store: integers that are not negative (the digits of the least one make
it again), a divisor that its last digits make, and a matrix, which has to be there; its last
element has no fraction, and what is left of an element fits its buffer. -/
structure Storable (round : ℚ → F) (lines : List ConfigLine) : Prop where
  ints : ∀ name ∈ intNames, ∀ n ∈ writtenInt lines name, 0 ≤ n ∨ n = -2147483648
  matrix : ∃ inStr s es, firstNamed lines "convolution_mat" = some (inStr, s) ∧
    s.item.matrix? = some es ∧ (∀ e ∈ es, (e.seen inStr).length < tmpSize) ∧
    ∀ e ∈ es.getLast?, (e.number.truncated : ℚ) = e.number.value
  divisor : ∀ x ∈ writtenDivisor lines, round (x.lastNumber : ℚ) = round x.value

section

variable {lines : List ConfigLine} {s : Bool × SettingText} {name : String}

theorem name_of_firstNamed (h : firstNamed lines name = some s) :
    s.2.item.name = name.toList := by
  have hname : (s.2.item.name == name.toList) = true :=
    List.find?_some (p := fun s : Bool × SettingText => s.2.item.name == name.toList) h
  exact beq_iff_eq.mp hname

theorem plain_of_firstNamed (hclean : Cleanable lines) (h : firstNamed lines name = some s) :
    s.2.Plain s.1 :=
  plain_of_mem_settingsFrom hclean.plain s (List.mem_of_find?_eq_some h)

/-- The name tells what is written. -/
theorem item_of_name {item : ConfigItem} (hname : name ∈ knownNames)
    (h : item.name = name.toList) :
    (name ∈ intNames ∧ ∃ name' known x whole low high, item = .int name' known x whole low high) ∨
      (name = "compositor_cmd" ∧ ∃ str plain, item = .cmd str plain) ∨
      (name = "convolution_mat" ∧ ∃ elements count, item = .matrix elements count) ∨
      (name = "convolution_mat_divisor" ∧ ∃ x, item = .divisor x) := by
  cases item with
  | int name' known x whole low high =>
      have heq : name' = name := String.toList_inj.mp h
      exact .inl ⟨heq ▸ known, name', known, x, whole, low, high, rfl⟩
  | cmd str plain => exact .inr (.inl ⟨(String.toList_inj.mp h).symm, str, plain, rfl⟩)
  | matrix elements count =>
      exact .inr (.inr (.inl ⟨(String.toList_inj.mp h).symm, elements, count, rfl⟩))
  | divisor x => exact .inr (.inr (.inr ⟨(String.toList_inj.mp h).symm, x, rfl⟩))
  | other name' value unknown plain => exact absurd h.symm (unknown name hname)

theorem item_of_int (hname : name ∈ intNames) (h : firstNamed lines name = some s) :
    ∃ name' known x whole low high, s.2.item = .int name' known x whole low high := by
  rcases item_of_name (List.mem_append_left _ hname) (name_of_firstNamed h) with
    ⟨-, hitem⟩ | ⟨rfl, -⟩ | ⟨rfl, -⟩ | ⟨rfl, -⟩
  · exact hitem
  · exact absurd hname (by decide)
  · exact absurd hname (by decide)
  · exact absurd hname (by decide)

theorem item_of_cmd (h : firstNamed lines "compositor_cmd" = some s) :
    ∃ str plain, s.2.item = .cmd str plain := by
  rcases item_of_name (by decide) (name_of_firstNamed h) with
    ⟨hname, -⟩ | ⟨-, hitem⟩ | ⟨hname, -⟩ | ⟨hname, -⟩
  · exact absurd hname (by decide)
  · exact hitem
  · exact absurd hname (by decide)
  · exact absurd hname (by decide)

theorem item_of_matrix (h : firstNamed lines "convolution_mat" = some s) :
    ∃ elements count, s.2.item = .matrix elements count := by
  rcases item_of_name (by decide) (name_of_firstNamed h) with
    ⟨hname, -⟩ | ⟨hname, -⟩ | ⟨-, hitem⟩ | ⟨hname, -⟩
  · exact absurd hname (by decide)
  · exact absurd hname (by decide)
  · exact hitem
  · exact absurd hname (by decide)

theorem item_of_divisor (h : firstNamed lines "convolution_mat_divisor" = some s) :
    ∃ x, s.2.item = .divisor x := by
  rcases item_of_name (by decide) (name_of_firstNamed h) with
    ⟨hname, -⟩ | ⟨hname, -⟩ | ⟨hname, -⟩ | ⟨-, hitem⟩
  · exact absurd hname (by decide)
  · exact absurd hname (by decide)
  · exact absurd hname (by decide)
  · exact hitem

/-! ## Reading the settings -/

/-- What `cnfparser_read_val` stores of an integer. -/
def storedInt (lines : List ConfigLine) (name : String) : Option Int :=
  (firstNamed lines name).map fun s => Alsa.atoi (lastDigits (removeBlanks s.1 s.2.text))

theorem storedInt_getD_iff (hclean : Cleanable lines) (hname : name ∈ intNames) (old : Int) :
    (storedInt lines name).getD old = (writtenInt lines name).getD old ↔
      ∀ n ∈ writtenInt lines name, 0 ≤ n ∨ n = -2147483648 := by
  rw [storedInt, writtenInt]
  cases hfirst : firstNamed lines name with
  | none => exact iff_of_true rfl fun n hn => by cases hn
  | some s =>
      obtain ⟨name', known, x, whole, low, high, hitem⟩ := item_of_int hname hfirst
      have hplain := plain_of_firstNamed hclean hfirst
      have hdigits : lastDigits (removeBlanks s.1 s.2.text) = x.lastDigits :=
        hplain.cleaned_number (by rw [hitem]; rfl) (by rw [hitem]; rfl)
      have hwritten : s.2.item.int? = some x.truncated := by rw [hitem]; rfl
      rw [Option.map_some, Option.bind_some, hwritten, Option.getD_some, Option.getD_some,
        hdigits, x.atoi_lastDigits_iff whole low high]
      constructor
      · intro h n hn
        cases hn
        exact h
      · exact fun h => h _ rfl

/-- What `cnfparser_parse_config` does with a setting of type `int`. -/
def setInt (v : String → Option Int) (config : TestConfigurationFileParams F)
    (setting : String × (TestConfigurationFileParams F → Int → TestConfigurationFileParams F)) :
    TestConfigurationFileParams F :=
  ((v setting.1).map (setting.2 config)).getD config

/-- A field that one of the settings sets, and the others leave. -/
theorem foldl_setInt_get {v : String → Option Int} {get : TestConfigurationFileParams F → Int}
    {name : String} (settings : List (String ×
      (TestConfigurationFileParams F → Int → TestConfigurationFileParams F)))
    (hset : ∀ setting ∈ settings, ∀ config n,
      get (setting.2 config n) = if setting.1 = name then n else get config)
    (hnodup : (settings.map Prod.fst).Nodup) (config : TestConfigurationFileParams F) :
    get (settings.foldl (setInt v) config) =
      if name ∈ settings.map Prod.fst then (v name).getD (get config) else get config := by
  induction settings generalizing config with
  | nil => rfl
  | cons setting settings ih =>
      obtain ⟨hhead, hset⟩ := List.forall_mem_cons.mp hset
      rw [List.map_cons, List.nodup_cons] at hnodup
      rw [List.foldl_cons, ih hset hnodup.2, List.map_cons, setInt]
      by_cases hname : setting.1 = name
      · rw [if_neg (hname ▸ hnodup.1), if_pos (by rw [hname]; exact List.mem_cons_self), hname]
        cases v name with
        | none => rfl
        | some n =>
            rw [Option.map_some, Option.getD_some, Option.getD_some, hhead, if_pos hname]
      · have hkeeps : get (((v setting.1).map (setting.2 config)).getD config) = get config := by
          cases v setting.1 with
          | none => rfl
          | some n => rw [Option.map_some, Option.getD_some, hhead, if_neg hname]
        have hmem : name ∈ setting.1 :: settings.map Prod.fst ↔ name ∈ settings.map Prod.fst := by
          rw [List.mem_cons, or_iff_right fun h => hname h.symm]
        rw [hkeeps, if_congr hmem rfl rfl]

theorem intFields_set : ∀ f ∈ intFields (F := F), ∀ setting ∈ intSettings (F := F), ∀ config n,
    f.2 (setting.2 config n) = if setting.1 = f.1 then n else f.2 config := by
  simp [intFields, intSettings]

/-- The fields of type `int`. -/
theorem foldl_intSettings (v : String → Option Int) (config : TestConfigurationFileParams F) :
    ∀ f ∈ intFields (F := F),
      f.2 (intSettings.foldl (setInt v) config) = (v f.1).getD (f.2 config) := by
  intro f hf
  have hmem : f.1 ∈ (intSettings (F := F)).map Prod.fst :=
    List.mem_map_of_mem (f := Prod.fst) hf
  rw [foldl_setInt_get intSettings (intFields_set f hf) (by rw [intSettings_names]; decide),
    if_pos hmem]

/-- A field that no setting of type `int` sets. -/
theorem foldl_setInt_keeps {α : Type} {v : String → Option Int}
    {g : TestConfigurationFileParams F → α} (settings : List (String ×
      (TestConfigurationFileParams F → Int → TestConfigurationFileParams F)))
    (hkeeps : ∀ setting ∈ settings, ∀ config n, g (setting.2 config n) = g config)
    (config : TestConfigurationFileParams F) :
    g (settings.foldl (setInt v) config) = g config := by
  induction settings generalizing config with
  | nil => rfl
  | cons setting settings ih =>
      obtain ⟨hhead, hkeeps⟩ := List.forall_mem_cons.mp hkeeps
      rw [List.foldl_cons, ih hkeeps, setInt]
      cases v setting.1 with
      | none => rfl
      | some n => exact hhead config n

theorem readInts_settings (hclean : Cleanable lines) (settings : List (String ×
    (TestConfigurationFileParams F → Int → TestConfigurationFileParams F)))
    (config : TestConfigurationFileParams F) :
    settings.foldlM (readInt (unlines (settingLinesOf lines))) config =
      .ok (settings.foldl (setInt (storedInt lines)) config) := by
  induction settings generalizing config with
  | nil => rfl
  | cons setting settings ih =>
      have hread : readInt (unlines (settingLinesOf lines)) config setting =
          .ok (setInt (storedInt lines) config setting) := by
        rw [readInt, readVal_settings hclean, ok_bind, setInt, storedInt]
        cases firstNamed lines setting.1 <;> rfl
      rw [List.foldlM_cons, hread, ok_bind, ih]
      rfl

theorem readStr_settings (hclean : Cleanable lines) (name : String) (size : Nat) :
    cnfparserReadStr (unlines (settingLinesOf lines)) name size =
      copyQuoted size ((firstNamed lines name).map fun s => removeBlanks s.1 s.2.text) := by
  rw [cnfparserReadStr, searchSetting_settings hclean, ok_bind, settingLine_settings hclean]

/-- A line that has been found is short. -/
theorem short_of_firstNamed (hclean : Cleanable lines) (h : firstNamed lines name = some s) :
    (removeBlanks s.1 s.2.text).length < maxLineLen := by
  obtain ⟨hlines, -, hfit⟩ := cleanLines_contents hclean
  have hall := (cleanLines_isLine hfit).1
  rw [hlines] at hall
  exact (hall _ (List.mem_map_of_mem (List.mem_of_find?_eq_some h))).2

/-- The command is copied, whatever it says. -/
theorem readCmd_settings (hclean : Cleanable lines) :
    ∃ cmd, cnfparserReadStr (unlines (settingLinesOf lines)) "compositor_cmd" pathMax = .ok cmd ∧
      (firstNamed lines "compositor_cmd" = none → cmd = none) := by
  rw [readStr_settings hclean]
  cases hfirst : firstNamed lines "compositor_cmd" with
  | none => exact ⟨none, rfl, fun _ => rfl⟩
  | some s =>
      obtain ⟨str, plain, hitem⟩ := item_of_cmd hfirst
      have hquoted : quoted (removeBlanks s.1 s.2.text) = some (seenString s.1 str) :=
        (plain_of_firstNamed hclean hfirst).cleaned_string plain (by rw [hitem]; rfl)
      have hlen : (seenString s.1 str).length < pathMax :=
        Nat.lt_trans (quoted_length hquoted)
          (Nat.lt_trans (short_of_firstNamed hclean hfirst) (by decide))
      refine ⟨some (seenString s.1 str), ?_, fun h => by cases h⟩
      rw [Option.map_some, copyQuoted, hquoted]
      exact if_pos hlen

/-- The text between the quotes of the matrix. -/
theorem readMat_settings (hclean : Cleanable lines) :
    cnfparserReadStr (unlines (settingLinesOf lines)) "convolution_mat" maxLineLen =
      .ok ((firstNamed lines "convolution_mat").map fun s =>
        listText ((s.2.item.matrix?.getD []).map (MatrixElement.seen s.1))) := by
  rw [readStr_settings hclean]
  cases hfirst : firstNamed lines "convolution_mat" with
  | none => rfl
  | some s =>
      obtain ⟨es, count, hitem⟩ := item_of_matrix hfirst
      have hquoted : quoted (removeBlanks s.1 s.2.text) =
          some (seenString s.1 (listText (es.map MatrixElement.text))) :=
        (plain_of_firstNamed hclean hfirst).cleaned_string (quote_not_mem_listText es)
          (by rw [hitem]; rfl)
      have hlen := Nat.lt_trans (quoted_length hquoted) (short_of_firstNamed hclean hfirst)
      have helements : s.2.item.matrix? = some es := by rw [hitem]; rfl
      rw [Option.map_some, copyQuoted, hquoted, Option.map_some, helements, Option.getD_some,
        ← seenString_listText]
      exact if_pos hlen

variable {lib} {round : ℚ → F}

/-- **The matrix** that is read: the numbers in order, the last without its fraction. -/
theorem parseMatrix_seen (hlib : Rounds lib round) (mat : Vector F maxConvMatSize)
    {es : List MatrixElement} {inStr : Bool} (hcount : es.length < maxConvMatSize)
    (hfit : ∀ e ∈ es, (e.seen inStr).length < tmpSize) :
    ∃ mat', cnfparserParseMatrix lib mat (listText (es.map (MatrixElement.seen inStr))) =
        .ok (mat', es.length) ∧
      ∀ (k : Nat) (e : MatrixElement), es[k]? = some e → mat'[k]? =
        some (round (if k + 1 = es.length then (e.number.truncated : ℚ) else e.number.value)) := by
  cases hes : es with
  | nil =>
      refine ⟨mat.set 0 (lib.ofInt 0) (by decide), rfl, fun k e h => ?_⟩
      cases h
  | cons e₀ es₀ =>
      rw [← hes]
      have hwords : ∀ w ∈ es.map (MatrixElement.seen inStr), IsWord w ∧ w.length < tmpSize := by
        intro w hw
        obtain ⟨e, he, hw⟩ := List.mem_map.mp hw
        rw [← hw]
        exact ⟨e.isWord_seen inStr, hfit e he⟩
      have hne : es.map (MatrixElement.seen inStr) ≠ [] := by
        rw [hes]
        exact List.cons_ne_nil _ _
      have hcount' : 0 + (es.map (MatrixElement.seen inStr)).length < maxConvMatSize := by
        rw [List.length_map, Nat.zero_add]
        exact hcount
      obtain ⟨mat', hmat', -, hafter⟩ :=
        @scanMatrix_words F lib (es.map (MatrixElement.seen inStr)) mat none 0 hne hwords hcount'
      rw [List.length_map, Nat.zero_add] at hmat'
      refine ⟨mat', hmat', fun k e hk => ?_⟩
      have hk' := hafter k (e.seen inStr) (by rw [List.getElem?_map, hk]; rfl)
      rw [Nat.zero_add, hlib.storedWord] at hk'
      rw [hk', List.length_map]
      simp only [decide_eq_true_eq]

/-- A matrix that is read fits. -/
theorem fit_of_parseMatrix {mat : Vector F maxConvMatSize} {r : Vector F maxConvMatSize × Nat}
    {es : List MatrixElement} {inStr : Bool}
    (h : cnfparserParseMatrix lib mat (listText (es.map (MatrixElement.seen inStr))) = .ok r) :
    ∀ e ∈ es, (e.seen inStr).length < tmpSize := by
  intro e he
  obtain ⟨hfits, -⟩ := (parseMatrix_ok_iff lib).mp ⟨r.1, h⟩
  have hne : es.map (MatrixElement.seen inStr) ≠ [] := by
    intro hnil
    rw [List.map_eq_nil_iff] at hnil
    rw [hnil] at he
    cases he
  have hwords : ∀ w ∈ es.map (MatrixElement.seen inStr), ',' ∉ w := by
    intro w hw
    obtain ⟨e', -, hw⟩ := List.mem_map.mp hw
    rw [← hw]
    exact (e'.isWord_seen inStr).2
  have hall := hfits.elements_fit
  rw [elements_listText hne hwords] at hall
  exact hall _ (List.mem_map_of_mem he)

/-- The digits of the divisor. -/
def divisorDigits (lines : List ConfigLine) : Option (List Char) :=
  (firstNamed lines "convolution_mat_divisor").map fun s =>
    lastDigits (removeBlanks s.1 s.2.text)

theorem divisorDigits_eq (hlib : Rounds lib round) (hclean : Cleanable lines) :
    (divisorDigits lines).map lib.atof =
      (writtenDivisor lines).map fun x => round (x.lastNumber : ℚ) := by
  rw [divisorDigits, writtenDivisor]
  cases hfirst : firstNamed lines "convolution_mat_divisor" with
  | none => rfl
  | some s =>
      obtain ⟨x, hitem⟩ := item_of_divisor hfirst
      have hdigits : lastDigits (removeBlanks s.1 s.2.text) = x.lastDigits :=
        (plain_of_firstNamed hclean hfirst).cleaned_number (by rw [hitem]; rfl)
          (by rw [hitem]; rfl)
      have hwritten : s.2.item.divisor? = some x := by rw [hitem]; rfl
      rw [Option.map_some, Option.map_some, Option.bind_some, hwritten, Option.map_some, hdigits,
        hlib.atof_digits x.lastDigits_digits]
      rfl

/-- **What is parsed** before the matrix, and with it. -/
theorem parseConfig_settings (lib : Floats F) (hclean : Cleanable lines)
    (config : TestConfigurationFileParams F) :
    ∃ base : TestConfigurationFileParams F,
      (∀ f ∈ intFields (F := F), f.2 base = (storedInt lines f.1).getD (f.2 config)) ∧
      (firstNamed lines "compositor_cmd" = none → base.compositorCmd = config.compositorCmd) ∧
      base.convolutionMatDivisor = config.convolutionMatDivisor ∧
      cnfparserParseConfig lib (unlines (settingLinesOf lines)) config = (do
        let str ← readTmp ((firstNamed lines "convolution_mat").map fun s =>
          listText ((s.2.item.matrix?.getD []).map (MatrixElement.seen s.1)))
        let r ← cnfparserParseMatrix lib base.convolutionMat str
        .ok { base with
          convolutionMat := r.1
          convolutionMatSize := r.2
          convolutionMatDivisor :=
            ((divisorDigits lines).map lib.atof).getD base.convolutionMatDivisor }) := by
  obtain ⟨cmd, hcmd, hnone⟩ := readCmd_settings hclean
  have hints := foldl_intSettings (storedInt lines) config
  have hkept : (intSettings.foldl (setInt (storedInt lines)) config).compositorCmd =
      config.compositorCmd :=
    foldl_setInt_keeps (g := fun c => c.compositorCmd) intSettings (by simp [intSettings]) config
  have hdivisor : (intSettings.foldl (setInt (storedInt lines)) config).convolutionMatDivisor =
      config.convolutionMatDivisor :=
    foldl_setInt_keeps (g := fun c => c.convolutionMatDivisor) intSettings
      (by simp [intSettings]) config
  rw [cnfparserParseConfig, readInts_settings hclean, ok_bind, hcmd, ok_bind]
  generalize intSettings.foldl (setInt (storedInt lines)) config = c at hints hkept hdivisor
  refine ⟨{ c with compositorCmd := cmd.getD c.compositorCmd }, ?_, ?_, hdivisor, ?_⟩
  · intro f hf
    have hfield : ∀ f ∈ intFields (F := F),
        f.2 { c with compositorCmd := cmd.getD c.compositorCmd } = f.2 c := by
      simp [intFields]
    rw [hfield f hf, hints f hf]
  · intro h
    rw [hnone h]
    exact hkept
  · simp only [readMatrix, readMat_settings hclean, ok_bind]
    cases readTmp ((firstNamed lines "convolution_mat").map fun s =>
        listText ((s.2.item.matrix?.getD []).map (MatrixElement.seen s.1))) with
    | error stop => rfl
    | ok str =>
        simp only [ok_bind]
        cases cnfparserParseMatrix lib c.convolutionMat str with
        | error stop => rfl
        | ok r =>
            simp only [ok_bind, readVal_settings hclean]
            rfl

/-- The settings that the rest of the text adds to those of `base`. -/
def completed (base : TestConfigurationFileParams F) (r : Vector F maxConvMatSize × Nat)
    (divisor : F) : TestConfigurationFileParams F :=
  { base with
    convolutionMat := r.1
    convolutionMatSize := r.2
    convolutionMatDivisor := divisor }

theorem intFields_completed (base : TestConfigurationFileParams F)
    (r : Vector F maxConvMatSize × Nat) (divisor : F) :
    ∀ f ∈ intFields (F := F), f.2 (completed base r divisor) = f.2 base := by
  simp [intFields, completed]

theorem exists_intField (hname : name ∈ intNames) : ∃ f ∈ intFields (F := F), f.1 = name := by
  have hmap : (intFields (F := F)).map Prod.fst = intNames := rfl
  rw [← hmap] at hname
  exact List.mem_map.mp hname

theorem intField_name {f : String × (TestConfigurationFileParams F → Int)}
    (hf : f ∈ intFields (F := F)) : f.1 ∈ intNames :=
  List.mem_map_of_mem (f := Prod.fst) hf

theorem writtenMatrix_of_firstNamed {es : List MatrixElement}
    (hfirst : firstNamed lines "convolution_mat" = some s) (hes : s.2.item.matrix? = some es) :
    writtenMatrix lines = some es := by
  rw [writtenMatrix, hfirst, Option.bind_some, hes]

/-- What is read of a text is right exactly if it is `Storable`. -/
theorem storedAs_completed_iff (hlib : Rounds lib round) (hclean : Cleanable lines)
    {config base : TestConfigurationFileParams F} {es : List MatrixElement}
    {mat' : Vector F maxConvMatSize}
    (hints : ∀ f ∈ intFields (F := F), f.2 base = (storedInt lines f.1).getD (f.2 config))
    (hcmd : firstNamed lines "compositor_cmd" = none → base.compositorCmd = config.compositorCmd)
    (hdivisor : base.convolutionMatDivisor = config.convolutionMatDivisor)
    (hfirst : firstNamed lines "convolution_mat" = some s) (hes : s.2.item.matrix? = some es)
    (hfit : ∀ e ∈ es, (e.seen s.1).length < tmpSize)
    (hmat : ∀ (k : Nat) (e : MatrixElement), es[k]? = some e → mat'[k]? =
      some (round (if k + 1 = es.length then (e.number.truncated : ℚ) else e.number.value))) :
    StoredAs round lines config (completed base (mat', es.length)
        (((divisorDigits lines).map lib.atof).getD base.convolutionMatDivisor)) ↔
      Storable round lines := by
  have hwritten := writtenMatrix_of_firstNamed hfirst hes
  have hlast : ∀ e ∈ es.getLast?, es[es.length - 1]? = some e ∧ es.length - 1 + 1 = es.length := by
    intro e he
    have hne : es ≠ [] := by
      intro hnil
      rw [hnil] at he
      cases he
    have hpos := List.length_pos_iff.mpr hne
    rw [List.getLast?_eq_getElem?] at he
    exact ⟨he, by omega⟩
  have hdigits := divisorDigits_eq hlib hclean
  constructor
  · intro h
    refine ⟨fun name hname => ?_, ⟨s.1, s.2, es, hfirst, hes, hfit, fun e he => ?_⟩, fun x hx => ?_⟩
    · obtain ⟨f, hf, hfname⟩ := exists_intField (F := F) hname
      have hstored := h.ints f hf
      rw [intFields_completed _ _ _ f hf, hints f hf, hfname] at hstored
      exact (storedInt_getD_iff hclean hname _).mp hstored
    · obtain ⟨hget, hlen⟩ := hlast e he
      have hstored := ((h.matrix es hwritten).2 _ e hget).symm.trans (hmat _ e hget)
      rw [if_pos hlen] at hstored
      exact (hlib.truncated_iff e.short).mp (Option.some.inj hstored).symm
    · have hstored := h.divisor
      rw [completed, hdigits, hx, Option.map_some, Option.map_some, Option.getD_some,
        Option.getD_some] at hstored
      exact hstored
  · intro h
    obtain ⟨inStr, s', es', hfirst', hes', -, hlastRight⟩ := h.matrix
    rw [hfirst] at hfirst'
    cases hfirst'
    rw [hes] at hes'
    cases hes'
    refine ⟨fun f hf => ?_, fun es' hes' => ?_, fun hnone => ?_, ?_, hcmd⟩
    · rw [intFields_completed _ _ _ f hf, hints f hf]
      exact (storedInt_getD_iff hclean (intField_name hf) _).mpr (h.ints f.1 (intField_name hf))
    · rw [hwritten] at hes'
      cases hes'
      refine ⟨rfl, fun k e hk => (hmat k e hk).trans ?_⟩
      by_cases hlen : k + 1 = es.length
      · have he : e ∈ es.getLast? := by
          rw [List.getLast?_eq_getElem?, ← hlen]
          exact hk
        rw [if_pos hlen, hlastRight e he]
      · rw [if_neg hlen]
    · rw [hwritten] at hnone
      cases hnone
    · rw [completed, hdigits, hdivisor]
      cases hx : writtenDivisor lines with
      | none => rfl
      | some x => exact h.divisor x hx

/-- The integers that are stored, whatever else is. -/
theorem ints_of_readConfig (hclean : Cleanable lines) {lib : Floats F} {rounds : Nat}
    {config config' : TestConfigurationFileParams F}
    (h : readConfig lib rounds true config (some (contentsOf lines)) =
      some (.ok (.config config'))) :
    ∀ f ∈ intFields (F := F), f.2 config' = (storedInt lines f.1).getD (f.2 config) := by
  obtain ⟨base, hints, -, -, hparse⟩ := parseConfig_settings lib hclean config
  have hok := (readConfig_contents_iff lib hclean).mp ⟨rounds, h⟩
  rw [hparse] at hok
  obtain ⟨str, -, hok⟩ := exists_of_bind_ok hok
  obtain ⟨r, -, hok⟩ := exists_of_bind_ok hok
  cases hok
  exact fun f hf => (intFields_completed base r _ f hf).trans (hints f hf)

end

/-! ## Two texts -/

/-- A library that does not round. -/
def exactFloats : Floats ℚ where
  atof := decimalValue
  ofInt n := n
  isZero x := x == 0
  isOne x := x == 1
  isMinusOne x := x == -1
  fixed2 x := (toString x.floor).toList ++ ".00".toList

theorem exactFloats_rounds : Rounds exactFloats id :=
  ⟨fun _ _ => rfl, fun _ => rfl, fun _ _ _ _ h => h⟩

/-- Settings that have not been read. -/
def unreadParams : TestConfigurationFileParams ℚ where
  scaleImagesToWindow := 0
  desktopCount := 0
  layerCount := 0
  widgetCount := 0
  particleCount := 0
  videoWidgetTexWidth := 0
  videoWidgetTexHeight := 0
  videoWidgetGenerationFreq := 0
  scrollSpeed := 0
  compositorCmd := []
  convolutionMat := .replicate maxConvMatSize 0
  convolutionMatSize := 0
  convolutionMatDivisor := 0

/-- A setting with a blank after the colon. -/
def SettingText.spaced (item : ConfigItem) : SettingText where
  item := item
  lead := []
  beforeColon := []
  afterColon := [' ']
  trail := []
  lead_blank := List.forall_mem_nil _
  beforeColon_blank := List.forall_mem_nil _
  afterColon_blank := List.forall_mem_singleton.mpr rfl
  trail_blank := List.forall_mem_nil _

/-- A character that a line can have. -/
def isLineChar (c : Char) : Bool := c != '\n' && c != '\x00'

theorem lineChars {text : List Char} (h : text.all isLineChar = true) :
    ∀ c ∈ text, c ≠ '\n' ∧ c ≠ '\x00' := by
  intro c hc
  have hchar := List.all_eq_true.mp h c hc
  rw [isLineChar, Bool.and_eq_true, bne_iff_ne, bne_iff_ne] at hchar
  exact hchar

/-- A line of the file of its own. -/
def ConfigLine.single (kind : LineKind) (text : List Char) (isText : kind.IsText text)
    (chars : text.all isLineChar = true) (ended : text.getLast? ≠ some '\\')
    (short : text.length < maxLineLen) : ConfigLine where
  kind := kind
  before := []
  last := text
  isText := isText
  chars := lineChars chars
  ended := ended
  short := short

/-- A number without blanks. -/
def MatrixElement.bare (number : Numeral) (short : number.text.length < tmpSize) :
    MatrixElement where
  lead := []
  number := number
  trail := []
  lead_blank := List.forall_mem_nil _
  trail_blank := List.forall_mem_nil _
  short := short

/-- A setting on a line of its own. -/
def ConfigLine.ofItem (item : ConfigItem)
    (chars : (SettingText.spaced item).text.all isLineChar = true)
    (ended : (SettingText.spaced item).text.getLast? ≠ some '\\')
    (short : (SettingText.spaced item).text.length < maxLineLen) : ConfigLine :=
  .single (.setting (.spaced item)) (SettingText.spaced item).text rfl chars ended short

def one : Numeral := .ofWhole false ['1'] (List.forall_mem_singleton.mpr rfl) (List.cons_ne_nil _ _)

def minusOne : Numeral :=
  .ofWhole true ['1'] (List.forall_mem_singleton.mpr rfl) (List.cons_ne_nil _ _)

def minusTwoAndAHalf : Numeral where
  negative := true
  whole := ['2']
  fraction := some ['5']
  whole_digits := List.forall_mem_singleton.mpr rfl
  fraction_digits := fun f hf => by
    cases hf
    exact List.forall_mem_singleton.mpr rfl
  ne_nil := List.cons_ne_nil _ _

def desktopItem (x : Numeral) (whole : x.fraction = none) (low : -2147483648 ≤ x.truncated)
    (high : x.truncated < 2147483648) : ConfigItem :=
  .int "desktop_count" (by decide) x whole low high

/-- A comment, `desktop_count: 1`, `convolution_mat: "1,-2.5,1"` and
`convolution_mat_divisor: 1`. -/
def filterLines : List ConfigLine :=
  [.single .comment "# blur".toList ⟨[], " blur".toList, List.forall_mem_nil _, rfl⟩ (by decide)
      (by decide) (by decide),
    .ofItem (desktopItem one rfl (by decide) (by decide)) (by decide) (by decide) (by decide),
    .ofItem (.matrix [.bare one (by decide), .bare minusTwoAndAHalf (by decide),
      .bare one (by decide)] (by decide)) (by decide) (by decide) (by decide),
    .ofItem (.divisor one) (by decide) (by decide) (by decide)]

/-- `desktop_count: -1` and `convolution_mat: "1"`. -/
def signedLines : List ConfigLine :=
  [.ofItem (desktopItem minusOne rfl (by decide) (by decide)) (by decide) (by decide) (by decide),
    .ofItem (.matrix [.bare one (by decide)] (by decide)) (by decide) (by decide) (by decide)]

section

variable {kind : LineKind} {text : List Char} {isText : kind.IsText text}
  {chars : text.all isLineChar = true} {ended : text.getLast? ≠ some '\\'}
  {short : text.length < maxLineLen}

/-- A line of its own is as the passes expect it if it looks like what it is. -/
theorem ConfigLine.Plain.single (hkept : isKept (removeBlanks false text) = kind.isSetting)
    (hsetting : ∀ s, kind = .setting s → s.item.name.length < paramNameSize ∧
      ¬Continued (removeBlanks false s.text)) :
    (ConfigLine.single kind text isText chars ended short).Plain false := by
  have hparts : withoutBlanks false (ConfigLine.single kind text isText chars ended
      short).physical = [removeBlanks false text] := rfl
  refine ⟨?_, ?_, fun s hs => ⟨(hsetting s hs).1, (hsetting s hs).2, fun h => by cases h⟩⟩
  · rw [hparts]
    exact List.forall_mem_singleton.mpr hkept
  · rw [hparts]
    exact List.forall_mem_singleton.mpr
      (Nat.lt_of_le_of_lt (length_removeBlanks_le false text) short)

end

theorem ConfigLine.Plain.ofItem {item : ConfigItem} {chars ended short}
    (hkept : isKept (removeBlanks false (SettingText.spaced item).text) = true)
    (hname : item.name.length < paramNameSize)
    (hended : ¬Continued (removeBlanks false (SettingText.spaced item).text)) :
    (ConfigLine.ofItem item chars ended short).Plain false := by
  refine Plain.single hkept fun s hs => ?_
  cases hs
  exact ⟨hname, hended⟩

theorem filterLines_cleanable : Cleanable filterLines := by
  have hcomment : ∀ s, LineKind.comment = .setting s → s.item.name.length < paramNameSize ∧
      ¬Continued (removeBlanks false s.text) := fun s hs => by cases hs
  have hplain : PlainFrom false filterLines :=
    ⟨.single (by decide) hcomment, .ofItem (by decide) (by decide) (by decide),
      .ofItem (by decide) (by decide) (by decide),
      .ofItem (by decide) (by decide) (by decide), trivial⟩
  exact ⟨hplain, by decide +kernel⟩

theorem signedLines_cleanable : Cleanable signedLines :=
  ⟨⟨.ofItem (by decide) (by decide) (by decide),
    .ofItem (by decide) (by decide) (by decide), trivial⟩, by decide +kernel⟩

end Blts.Gles
