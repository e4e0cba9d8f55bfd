import Blts.Alsa.Documents
import Blts.Alsa.LineVerdicts

/-!
# Reading the lines of a section

A line of the file format does what it says, except that the value of a control goes
through an `int` on its way to a `long long` (`asRead`).
-/

namespace Blts.Alsa

open WrittenWord

/-! ## What is read of a configuration -/

def AlsaControlValue.asRead (value : AlsaControlValue) : AlsaControlValue :=
  { value with value := asInt value.value }

def AlsaControlSettings.asRead (config : AlsaControlSettings) : AlsaControlSettings :=
  { config with values := config.values.map AlsaControlValue.asRead }

def AlsaTestset.asRead (testset : AlsaTestset) : AlsaTestset :=
  { testset with ctls := testset.ctls.map AlsaControlSettings.asRead }

def AlsaConfiguration.asRead (config : AlsaConfiguration) : AlsaConfiguration where
  testsets := config.testsets.map AlsaTestset.asRead
  defCtls := config.defCtls.map AlsaControlSettings.asRead

/-! ## Any section -/

section

variable {σ S : Type} {step : List Word → Int → σ → Except CnfStop (Int × σ)}
  {line : S → List Char} {apply : σ → S → σ} {Valid : S → Prop} {Fits : σ → Prop}

theorem foldl_fits (hfits : ∀ params s, Fits (apply params s) → Fits params) {statements : List S} :
    ∀ {params : σ}, Fits (statements.foldl apply params) → Fits params := by
  induction statements with
  | nil => exact fun h => h
  | cons s statements ih => exact fun h => hfits _ s (ih h)

/-- Statements that are read one by one are read as a section. -/
theorem readLines_statements (read : σ → σ)
    (hfits : ∀ params s, Fits (apply params s) → Fits params)
    (hstep : ∀ params s value, Valid s → Fits (apply params s) →
      ∃ value', step (wordsOf (line s)) value (read params) =
        .ok (value', read (apply params s))) {statements : List S} :
    ∀ {params : σ} (value : Int), (∀ s ∈ statements, Valid s) →
      Fits (statements.foldl apply params) →
        readLines step (statements.map line) value (read params) =
          .ok (read (statements.foldl apply params)) := by
  induction statements with
  | nil => exact fun _ _ _ => rfl
  | cons s statements ih =>
      intro params value hvalid h
      obtain ⟨value', hread⟩ := hstep params s value (hvalid s List.mem_cons_self)
        (foldl_fits hfits h)
      rw [List.map_cons, readLines, hread, ok_bind]
      exact ih value' (fun s' hs' => hvalid s' (List.mem_cons_of_mem s hs')) h

end

/-! ## Words -/

theorem wordsOf_keyword (keyword : List Char) {words : List WrittenWord} (h : IsBare keyword)
    (hwords : ∀ w ∈ words, w.WellFormed) :
    wordsOf (writeLine (bare keyword) words) =
      ⟨.str, keyword⟩ :: words.map WrittenWord.word :=
  wordsOf_writeLine (show (bare keyword).WellFormed from h) hwords

theorem wordsOf_number (keyword : List Char) (h : IsBare keyword) (n : Nat) :
    wordsOf (writeLine (bare keyword) [number n]) = [⟨.str, keyword⟩, ⟨.int, digits n⟩] :=
  wordsOf_keyword keyword h fun w hw => (by rw [List.mem_singleton.mp hw]; trivial)

theorem atoi_int {n : Nat} (h : n < intLimit) : atoi (digits n) = n := by
  rw [atoi_digits, asInt_eq_iff]
  unfold intLimit at h
  omega

theorem asInt_zero : asInt 0 = 0 := (asInt_eq_iff 0).mpr (by omega)

theorem strField_word (w : WrittenWord) : strField w.word.type w.word.str = w.name := by
  cases w <;> rfl

theorem valueAfter_int {w : Word} (h : w.type = .int) (old : Int) :
    w.valueAfter old = atoi w.str := by
  unfold Word.valueAfter
  rw [h]

theorem intField_int (value : Int) : intField .int value = value := rfl

theorem intField_word (w : WrittenWord) (old : Int) :
    intField w.word.type (w.word.valueAfter old) = asInt w.value := by
  cases w with
  | bare str => simp only [word, intField, value, asInt_zero]
  | quoted str => simp only [word, intField, value, asInt_zero]
  | number n =>
      have htype : (number n).word.type = .int := rfl
      have hstr : (number n).word.str = digits n := rfl
      have hvalue : (number n).value = n := rfl
      rw [valueAfter_int htype, htype, intField_int, hstr, atoi_digits, hvalue]

theorem WrittenWord.value_nonneg (w : WrittenWord) : 0 ≤ w.value := by
  cases w with
  | bare str => exact Int.le_refl 0
  | quoted str => exact Int.le_refl 0
  | number n => exact Int.natCast_nonneg n

theorem copyString_fits {size : Nat} {str : List Char} (h : str.length < size) :
    copyString size str = .ok str := if_pos h

/-! ## Controls -/

theorem controlStatement_fits (config : AlsaControlSettings) (s : ControlStatement)
    (h : (s.apply config).Fits) : config.Fits := by
  cases s with
  | card n => exact h
  | set control value =>
      have hlen : (config.values ++ [_]).length ≤ magicNumber := h
      rw [List.length_append] at hlen
      exact Nat.le_of_add_right_le hlen

theorem controlStatement_read (config : AlsaControlSettings) (s : ControlStatement) (old : Int)
    (hvalid : s.Valid) (hfits : (s.apply config).Fits) :
    ∃ old', controlWords (wordsOf s.line) old config.asRead =
      .ok (old', (s.apply config).asRead) := by
  cases s with
  | card n =>
      have hwords : wordsOf (ControlStatement.card n).line = _ :=
        wordsOf_number "card".toList (by decide) n
      refine ⟨n, ?_⟩
      rw [hwords]
      show Except.ok (atoi (digits n), { config.asRead with card := atoi (digits n) }) = _
      rw [atoi_int hvalid]
      rfl
  | set control value =>
      obtain ⟨hcontrol, hvalue, hname, hid, hstr⟩ := hvalid
      have hwords : wordsOf (ControlStatement.set control value).line = _ :=
        wordsOf_keyword "set".toList (by decide)
          (List.forall_mem_cons.mpr ⟨hcontrol, List.forall_mem_singleton.mpr hvalue⟩)
      have hlen : (config.values ++ [_]).length ≤ magicNumber := hfits
      rw [List.length_append] at hlen
      have hroom : writeAt magicNumber config.asRead.values.length = .ok () := by
        refine if_pos ?_
        show (config.values.map AlsaControlValue.asRead).length < magicNumber
        rw [List.length_map]
        exact hlen
      have hid' : asInt control.value = control.value :=
        (asInt_eq_iff _).mpr ⟨control.value_nonneg, hid⟩
      refine ⟨value.word.valueAfter (control.word.valueAfter old), ?_⟩
      rw [hwords]
      show (writeAt magicNumber config.asRead.values.length >>= fun _ =>
        setWords config.asRead old [control.word, value.word]) = _
      rw [hroom, ok_bind, setWords, strField_word, copyString_fits hname, ok_bind,
        strField_word, copyString_fits hstr, ok_bind, intField_word, hid']
      dsimp only
      rw [intField_word]
      simp [AlsaControlSettings.asRead, ControlStatement.apply, AlsaControlValue.asRead]

/-- A `[control]` section is read. -/
theorem readLines_control (junk : Int) {statements : List ControlStatement}
    (hvalid : ∀ s ∈ statements, s.Valid) (hfits : (controlSettings statements).Fits) :
    readLines controlWords (statements.map ControlStatement.line) junk .zero =
      .ok (controlSettings statements).asRead :=
  readLines_statements AlsaControlSettings.asRead controlStatement_fits controlStatement_read
    junk hvalid hfits

/-! ## Streams -/

theorem PcmList.get_field (list : PcmList) (field : PcmField) (params : AlsaPcmSettings)
    (value : Int) : list.get (field.set params value) = list.get params := by
  cases list <;> cases field <;> rfl

theorem pcmStatement_fits (params : AlsaPcmSettings) (s : PcmStatement)
    (h : (s.apply params).Fits) : params.Fits := by
  intro list
  have hlist := h list
  cases s with
  | field f n =>
      rw [PcmStatement.apply, PcmList.get_field] at hlist
      exact hlist
  | list l values =>
      rw [PcmStatement.apply] at hlist
      by_cases heq : l = list
      · rw [heq, PcmList.get_set, List.length_append] at hlist
        exact Nat.le_of_add_right_le hlist
      · rw [PcmList.get_set_ne heq] at hlist
        exact hlist
  | link card device => exact hlist

theorem pcmKeyword_field (field : PcmField) :
    IsBare field.keyword.toList ∧ pcmKeyword field.keyword.toList = some (.field field) := by
  cases field <;> decide

theorem pcmKeyword_list (list : PcmList) :
    IsBare list.keyword.toList ∧ pcmKeyword list.keyword.toList = some (.list list) := by
  cases list <;> decide

/-- The tables give every value a name of its own, and no name begins with another. -/
theorem PcmList.table_read (list : PcmList) {table : List GenVs} (h : list.table = some table) :
    ∃ strToCode, list.codes = some strToCode ∧ ∀ e ∈ table,
      IsBare (valueToStr table e.value) ∧ 0 ≤ e.value ∧
        strToCode (valueToStr table e.value) = e.value := by
  cases list with
  | channels => cases h
  | rates => cases h
  | formats =>
      cases h
      exact ⟨strToFormat, rfl, by decide +kernel⟩
  | access =>
      cases h
      exact ⟨strToAccess, rfl, by decide +kernel⟩
  | async =>
      cases h
      exact ⟨strToAsync, rfl, by decide +kernel⟩

theorem PcmList.write_wellFormed {list : PcmList} {n : Nat} (h : list.IsValue n) :
    (list.write n).WellFormed := by
  unfold PcmList.write
  unfold PcmList.IsValue at h
  cases htable : list.table with
  | none => trivial
  | some table =>
      rw [htable] at h
      obtain ⟨e, he, hvalue⟩ := h
      obtain ⟨_, _, hnames⟩ := list.table_read htable
      have hname := (hnames e he).1
      rw [hvalue] at hname
      exact hname

/-- A written value is stored. -/
theorem storeWords_value {list : PcmList} {n : Nat} (h : list.IsValue n) {values : List Int}
    (hroom : values.length < magicNumber) (ws : List Word) (old : Int) :
    ∃ old', storeWords list.codes ((list.write n).word :: ws) old values =
      storeWords list.codes ws old' (values ++ [(n : Int)]) := by
  have hstore (a : Int) : store magicNumber values a = .ok (values ++ [a]) := by
    unfold store writeAt
    rw [if_pos hroom]
    rfl
  unfold PcmList.write
  unfold PcmList.IsValue at h
  cases htable : list.table with
  | none =>
      rw [htable] at h
      refine ⟨n, ?_⟩
      show storeWords list.codes (⟨.int, digits n⟩ :: ws) old values = _
      rw [storeWords_int rfl, atoi_int h, hstore, ok_bind]
  | some table =>
      rw [htable] at h
      obtain ⟨e, he, hvalue⟩ := h
      obtain ⟨strToCode, hcodes, hnames⟩ := list.table_read htable
      obtain ⟨_, hnonneg, hread⟩ := hnames e he
      rw [hvalue] at hread hnonneg
      refine ⟨old, ?_⟩
      show storeWords list.codes (⟨.str, valueToStr table n⟩ :: ws) old values = _
      rw [hcodes, storeWords_code rfl, hread, hstore, ok_bind,
        if_neg (Int.not_lt.mpr hnonneg)]

theorem storeWords_values {list : PcmList} {ns : List Nat} : ∀ (old : Int) {values : List Int},
    (∀ n ∈ ns, list.IsValue n) → (values ++ ns.map Int.ofNat).length ≤ magicNumber →
      ∃ old', storeWords list.codes (ns.map fun n => (list.write n).word) old values =
        .ok (old', values ++ ns.map Int.ofNat) := by
  induction ns with
  | nil =>
      intro old values _ _
      exact ⟨old, by rw [List.map_nil, List.map_nil, List.append_nil, storeWords]⟩
  | cons n ns ih =>
      intro old values hvalid hlen
      have hroom : values.length < magicNumber := by
        simp only [List.length_append, List.length_map, List.length_cons] at hlen
        omega
      obtain ⟨old₁, hfirst⟩ := storeWords_value (hvalid n List.mem_cons_self)
        hroom (ns.map fun n => (list.write n).word) old
      have happend : values ++ (n :: ns).map Int.ofNat =
          values ++ [(n : Int)] ++ ns.map Int.ofNat := by simp
      rw [happend] at hlen ⊢
      rw [List.map_cons, hfirst]
      exact ih old₁ (fun n' hn' => hvalid n' (List.mem_cons_of_mem n hn')) hlen

theorem pcmStatement_read (params : AlsaPcmSettings) (s : PcmStatement) (old : Int)
    (hvalid : s.Valid) (hfits : (s.apply params).Fits) :
    ∃ old', pcmWords (wordsOf s.line) old params = .ok (old', s.apply params) := by
  cases s with
  | field f n =>
      obtain ⟨hbare, hkeyword⟩ := pcmKeyword_field f
      have hwords : wordsOf (PcmStatement.field f n).line = _ := wordsOf_number _ hbare n
      refine ⟨n, ?_⟩
      rw [hwords]
      simp only [pcmWords, hkeyword, ne_eq, not_true_eq_false, if_false]
      show Except.ok (atoi (digits n), f.set params (atoi (digits n))) = _
      rw [atoi_int hvalid]
      rfl
  | list l values =>
      obtain ⟨hbare, hkeyword⟩ := pcmKeyword_list l
      have hwell : ∀ w ∈ values.map l.write, w.WellFormed := by
        intro w hw
        obtain ⟨n, hn, rfl⟩ := List.mem_map.mp hw
        exact PcmList.write_wellFormed (hvalid n hn)
      have hwords : wordsOf (PcmStatement.list l values).line = _ := wordsOf_keyword _ hbare hwell
      have hlen := hfits l
      rw [PcmStatement.apply, PcmList.get_set] at hlen
      obtain ⟨old', hstore⟩ := storeWords_values old hvalid hlen
      refine ⟨old', ?_⟩
      rw [hwords, List.map_map]
      simp only [pcmWords, hkeyword, ne_eq, not_true_eq_false, if_false]
      show (storeWords l.codes (values.map fun n => (l.write n).word) old (l.get params) >>= _) = _
      rw [hstore]
      rfl
  | link card device =>
      have hwell : ∀ w ∈ [number card, number device], w.WellFormed :=
        List.forall_mem_cons.mpr ⟨trivial, List.forall_mem_singleton.mpr trivial⟩
      have hwords : wordsOf (PcmStatement.link card device).line = _ :=
        wordsOf_keyword "link".toList (by decide) hwell
      have hkeyword : pcmKeyword "link".toList = some .link := by decide
      refine ⟨device, ?_⟩
      rw [hwords]
      simp only [pcmWords, hkeyword, ne_eq, not_true_eq_false, if_false]
      show Except.ok (atoi (digits device),
        { params with linkCard := atoi (digits card), linkDevice := atoi (digits device) }) = _
      rw [atoi_int hvalid.1, atoi_int hvalid.2]
      rfl

/-- A section for a stream is read. -/
theorem readLines_stream (junk : Int) (dir : StreamDir) {statements : List PcmStatement}
    (hvalid : ∀ s ∈ statements, s.Valid) (hfits : (pcmSettings dir statements).Fits) :
    ∃ params, readLines pcmWords (statements.map PcmStatement.line) junk .start = .ok params ∧
      { params with dir := dir } = pcmSettings dir statements := by
  have hlists : (statements.foldl PcmStatement.apply .start).Fits := by
    intro list
    have hlist := hfits list
    cases list <;> exact hlist
  exact ⟨_, readLines_statements id pcmStatement_fits pcmStatement_read junk hvalid
    hlists, rfl⟩

/-! ## Tuner and Bluetooth -/

theorem wordsOf_string (keyword : List Char) {str : List Char} (h : IsBare keyword)
    (hstr : IsQuotable str) :
    wordsOf (writeLine (bare keyword) [quoted str]) = [⟨.str, keyword⟩, ⟨.str, str⟩] :=
  wordsOf_keyword keyword h (List.forall_mem_singleton.mpr hstr)

theorem stringWords_fits {σ : Type} {size : Nat} {str : List Char} (h : str.length < size)
    (set : List Char → σ) (value : Int) :
    stringWords size set value [⟨.str, str⟩] = .ok (value, set str) := by
  simp only [stringWords, ne_eq, not_true_eq_false, if_false, copyString_fits h]
  rfl

theorem tunerStatement_read (tuner : V4lTunerSettings) (s : TunerStatement) (old : Int)
    (hvalid : s.Valid) : ∃ old', tunerWords (wordsOf s.line) old tuner =
      .ok (old', s.apply tuner) := by
  cases s with
  | device str =>
      have hwords : wordsOf (TunerStatement.device str).line = _ :=
        wordsOf_string "device".toList (by decide) hvalid.1
      refine ⟨old, ?_⟩
      rw [hwords]
      exact stringWords_fits hvalid.2 _ old
  | freq n =>
      have hwords : wordsOf (TunerStatement.freq n).line = _ :=
        wordsOf_number "freq".toList (by decide) n
      refine ⟨n, ?_⟩
      rw [hwords]
      show Except.ok (atoi (digits n), { tuner with freq := atoi (digits n) }) = _
      rw [atoi_int hvalid]
      rfl
  | scanSelect n =>
      have hwords : wordsOf (TunerStatement.scanSelect n).line = _ :=
        wordsOf_number "scan_select".toList (by decide) n
      refine ⟨n, ?_⟩
      rw [hwords]
      show Except.ok (atoi (digits n), { tuner with scan := atoi (digits n) }) = _
      rw [atoi_int hvalid]
      rfl

theorem readLines_tuner (junk : Int) {statements : List TunerStatement}
    (hvalid : ∀ s ∈ statements, s.Valid) (tuner : V4lTunerSettings) :
    readLines tunerWords (statements.map TunerStatement.line) junk tuner =
      .ok (statements.foldl TunerStatement.apply tuner) :=
  readLines_statements id (fun _ _ (h : True) => h)
    (fun tuner s old h _ => tunerStatement_read tuner s old h) junk hvalid trivial

theorem bluetoothStatement_read (btaudio : BluetoothAudioSettings) (s : BluetoothStatement)
    (old : Int) (hvalid : s.Valid) : ∃ old', bluetoothWords (wordsOf s.line) old btaudio =
      .ok (old', s.apply btaudio) := by
  cases s with
  | connect mac =>
      have hwords : wordsOf (BluetoothStatement.connect mac).line = _ :=
        wordsOf_string "connect".toList (by decide) hvalid.1
      refine ⟨old, ?_⟩
      rw [hwords]
      exact stringWords_fits hvalid.2 _ old
  | pin code =>
      have hwords : wordsOf (BluetoothStatement.pin code).line = _ :=
        wordsOf_string "pin".toList (by decide) hvalid.1
      refine ⟨old, ?_⟩
      rw [hwords]
      exact stringWords_fits hvalid.2 _ old

theorem readLines_bluetooth (junk : Int) {statements : List BluetoothStatement}
    (hvalid : ∀ s ∈ statements, s.Valid) (btaudio : BluetoothAudioSettings) :
    readLines bluetoothWords (statements.map BluetoothStatement.line) junk btaudio =
      .ok (statements.foldl BluetoothStatement.apply btaudio) :=
  readLines_statements id (fun _ _ (h : True) => h)
    (fun btaudio s old h _ => bluetoothStatement_read btaudio s old h) junk hvalid trivial

end Blts.Alsa
