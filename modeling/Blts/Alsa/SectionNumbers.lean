import Mathlib.Data.List.Forall2
import Blts.Alsa.Missing
import Blts.Alsa.ReadStatements

/-!
# The numbers of a section

A setting that takes an integer has a line of its own, and the last such line counts.  Here
are these settings for streams, controls and tuners, with the number that is written for each
in the lines of its section.
-/

namespace Blts.Alsa.Numbers

/-! ## Settings that take an integer -/

/-- The decimal value of the first word, if that is an unsigned integer. -/
def numberOf : List Word → Option Nat
  | [] => none
  | w :: _ => if w.type = .int then some (Cli.readDigits 10 w.str 0) else none

/-- A setting that takes an integer: the words that are its value on a line of its own, and
where the value is kept. -/
structure NumberField (σ : Type) where
  words : List Word → Option (List Word)
  get : σ → Int

section

variable {σ : Type} (field : NumberField σ)

/-- Every line of the setting has an unsigned integer. -/
def NumberField.Numeric (lines : List (List Word)) : Prop :=
  ∀ line ∈ lines, ∀ ws, field.words line = some ws → numberOf ws ≠ none

/-- The number on the last line of the setting. -/
def NumberField.written : List (List Word) → Option Nat
  | [] => none
  | line :: lines => (NumberField.written lines).or ((field.words line).bind numberOf)

/-- The setting has the number that is written, or is as it was before the section. -/
def NumberField.Exact (start : Int) (lines : List (List Word)) (params : σ) : Prop :=
  field.Numeric lines ∧ field.get params = (field.written lines).elim start Int.ofNat

/-- The lines of the setting have unsigned integers, and the one that counts is an `int`. -/
def NumberField.Fits (lines : List (List Word)) : Prop :=
  field.Numeric lines ∧ ∀ n, field.written lines = some n → n < intLimit

/-- What a line does to the setting, where it is taken. -/
structure NumberField.SetBy (step : List Word → Int → σ → Except CnfStop (Int × σ)) : Prop where
  other : ∀ {line value params r}, step line value params = .ok r → field.words line = none →
    field.get r.2 = field.get params
  own : ∀ {line value params r ws n}, step line value params = .ok r →
    field.words line = some ws → numberOf ws = some n → field.get r.2 = asInt n

variable {field}

theorem asInt_natCast_iff (n : Nat) : asInt n = n ↔ n < intLimit := by
  rw [asInt_eq_iff]
  unfold intLimit
  omega

/-- After the lines of a section, the setting is read from the last line of its own. -/
theorem NumberField.SetBy.readLines {step : List Word → Int → σ → Except CnfStop (Int × σ)}
    (h : field.SetBy step) {lines : List (List Char)} :
    ∀ {value : Int} {params params' : σ}, readLines step lines value params = .ok params' →
      field.Numeric (lines.map wordsOf) →
      field.get params' =
        (field.written (lines.map wordsOf)).elim (field.get params) fun n => asInt n := by
  induction lines with
  | nil =>
      intro value params params' hread _
      cases hread
      rfl
  | cons line lines ih =>
      intro value params params' hread hnumeric
      rw [Alsa.readLines] at hread
      cases hstep : step (wordsOf line) value params with
      | error stop =>
          rw [hstep] at hread
          cases hread
      | ok r =>
          rw [hstep, ok_bind] at hread
          rw [List.map_cons] at hnumeric ⊢
          rw [ih hread fun l hl => hnumeric l (List.mem_cons_of_mem _ hl), NumberField.written]
          cases field.written (lines.map wordsOf) with
          | some n => rw [Option.some_or, Option.elim_some, Option.elim_some]
          | none =>
              rw [Option.none_or, Option.elim_none]
              cases hwords : field.words (wordsOf line) with
              | none =>
                  rw [Option.bind_none, Option.elim_none]
                  exact h.other hstep hwords
              | some ws =>
                  obtain ⟨n, hn⟩ := Option.ne_none_iff_exists'.mp
                    (hnumeric _ List.mem_cons_self ws hwords)
                  rw [Option.bind_some, hn, Option.elim_some]
                  exact h.own hstep hwords hn

/-- A number is read as it is written if it is an `int`. -/
theorem elim_asInt_iff (number : Option Nat) (start : Int) :
    ((number.elim start fun n => asInt n) = number.elim start Int.ofNat) ↔
      ∀ n, number = some n → n < intLimit := by
  cases number with
  | none =>
      rw [Option.elim_none, Option.elim_none]
      exact iff_of_true rfl fun n hn => by cases hn
  | some n =>
      rw [Option.elim_some, Option.elim_some, Int.ofNat_eq_natCast, asInt_natCast_iff]
      refine ⟨fun hlt n' hn => ?_, fun h => h n rfl⟩
      rw [← Option.some.inj hn]
      exact hlt

/-- A setting that is read from its last line is exact for numbers that are an `int`. -/
theorem NumberField.exact_iff {start : Int} {lines : List (List Word)} {params : σ}
    (h : field.Numeric lines →
      field.get params = (field.written lines).elim start fun n => asInt n) :
    field.Exact start lines params ↔ field.Fits lines := by
  refine and_congr_right fun hnumeric => ?_
  rw [h hnumeric, elim_asInt_iff]

theorem numberOf_eq_some {ws : List Word} {n : Nat} (h : numberOf ws = some n) :
    ∃ w rest, ws = w :: rest ∧ w.type = .int ∧ atoi w.str = asInt n := by
  cases ws with
  | nil => cases h
  | cons w rest =>
      rw [numberOf] at h
      by_cases hw : w.type = .int
      · rw [if_pos hw] at h
        cases h
        exact ⟨w, rest, rfl, hw, by rw [asInt, Int.toNat_natCast, atoi]⟩
      · rw [if_neg hw] at h
        cases h

theorem atoi_of_number {w : Word} {ws : List Word} {n : Nat} (h : numberOf (w :: ws) = some n) :
    atoi w.str = asInt n := by
  obtain ⟨w', ws', heq, -, hatoi⟩ := numberOf_eq_some h
  cases heq
  exact hatoi

theorem wordsAfter_some {keyword : List Char → Bool} {k : Word} {ws ws' : List Word}
    (h : wordsAfter keyword (k :: ws) = some ws') : keyword k.str = true ∧ ws = ws' := by
  rw [wordsAfter] at h
  by_cases hk : k.type = .str ∧ keyword k.str = true
  · rw [if_pos hk] at h
    exact ⟨hk.2, Option.some.inj h⟩
  · rw [if_neg hk] at h
    cases h

theorem valueWords_ok {set : Int → σ} {value : Int} {ws : List Word} {r : Int × σ}
    (h : valueWords set value ws = .ok r) : ∃ v, r.2 = set v := by
  cases ws with
  | nil => cases h
  | cons w ws => exact ⟨_, by rw [← Except.ok.inj h]⟩

/-- A value is read as its number. -/
theorem valueWords_number {set : Int → σ} {value : Int} {ws : List Word} {n : Nat} {r : Int × σ}
    (hn : numberOf ws = some n) (h : valueWords set value ws = .ok r) : r.2 = set (asInt n) := by
  obtain ⟨w, rest, rfl, hw, hatoi⟩ := numberOf_eq_some hn
  rw [valueWords, valueAfter_int hw, hatoi] at h
  rw [← Except.ok.inj h]

theorem numberWords_number {set : Int → σ} {value : Int} {ws : List Word} {n : Nat} {r : Int × σ}
    (hn : numberOf ws = some n) (h : numberWords set value ws = .ok r) : r.2 = set (asInt n) := by
  obtain ⟨w, rest, rfl, hw, hatoi⟩ := numberOf_eq_some hn
  rw [numberWords, if_neg (not_not_intro hw), hatoi] at h
  rw [← Except.ok.inj h]

end

/-! ## Streams -/

def PcmField.get (field : PcmField) (params : AlsaPcmSettings) : Int :=
  match field with
  | .card => params.card
  | .device => params.device
  | .hwResampling => params.hwResampling
  | .duration => params.duration
  | .freq => params.freq
  | .periodSize => params.periodSize
  | .volume => params.volume

/-- The integers of a stream. -/
inductive StreamNumber where
  | field (field : PcmField)
  | linkCard
  | linkDevice

def StreamNumber.keyword : StreamNumber → PcmKeyword
  | .field f => .field f
  | .linkCard | .linkDevice => .link

/-- The second number of a link is the device. -/
def StreamNumber.value : StreamNumber → List Word → List Word
  | .field _ | .linkCard => id
  | .linkDevice => List.tail

def StreamNumber.get : StreamNumber → AlsaPcmSettings → Int
  | .field f => PcmField.get f
  | .linkCard => AlsaPcmSettings.linkCard
  | .linkDevice => AlsaPcmSettings.linkDevice

def streamField (num : StreamNumber) : NumberField AlsaPcmSettings where
  words line := (wordsAfter (fun str => pcmKeyword str == some num.keyword) line).map num.value
  get := num.get

theorem streamField_words {num : StreamNumber} {k : Word} {ws : List Word} {keyword : PcmKeyword}
    (htype : k.type = .str) (h : pcmKeyword k.str = some keyword) :
    (streamField num).words (k :: ws) =
      if keyword = num.keyword then some (num.value ws) else none := by
  show (wordsAfter _ (k :: ws)).map num.value = _
  by_cases hk : keyword = num.keyword
  · rw [if_pos hk, wordsAfter_pos htype (by rw [h, hk]; exact beq_self_eq_true _), Option.map_some]
  · have hne : ¬some keyword = some num.keyword := fun heq => hk (Option.some.inj heq)
    rw [if_neg hk, wordsAfter_neg (by rw [h]; exact beq_eq_false_iff_ne.mpr hne), Option.map_none]

/-- Lists are kept apart from the integers. -/
theorem streamField_list (num : StreamNumber) (list : PcmList) (params : AlsaPcmSettings)
    (values : List Int) : (streamField num).get (list.set params values) =
      (streamField num).get params := by
  cases num with
  | field f => cases f <;> cases list <;> rfl
  | linkCard => cases list <;> rfl
  | linkDevice => cases list <;> rfl

theorem PcmField.get_set (field : PcmField) (params : AlsaPcmSettings) (value : Int) :
    PcmField.get field (field.set params value) = value := by
  cases field <;> rfl

theorem PcmField.get_set_ne {field field' : PcmField} (h : field' ≠ field)
    (params : AlsaPcmSettings) (value : Int) :
    PcmField.get field (field'.set params value) = PcmField.get field params := by
  cases field <;> cases field' <;> first | rfl | exact absurd rfl h

/-- A line of a stream that is taken begins with a keyword. -/
theorem pcmWords_ok {line : List Word} {value : Int} {params : AlsaPcmSettings}
    {r : Int × AlsaPcmSettings} (h : pcmWords line value params = .ok r) :
    ∃ k ws, line = k :: ws ∧ k.type = .str ∧
      ((∃ field, pcmKeyword k.str = some (.field field) ∧
          valueWords (field.set params) value ws = .ok r) ∨
        (∃ list values, pcmKeyword k.str = some (.list list) ∧ r.2 = list.set params values) ∨
        (pcmKeyword k.str = some .link ∧ linkWords params ws = .ok r)) := by
  cases line with
  | nil => cases h
  | cons k ws =>
      rw [pcmWords] at h
      by_cases htype : k.type = .str
      · rw [if_neg (not_not_intro htype)] at h
        refine ⟨k, ws, rfl, htype, ?_⟩
        cases hkeyword : pcmKeyword k.str with
        | none =>
            rw [hkeyword] at h
            cases h
        | some keyword =>
            rw [hkeyword] at h
            cases keyword with
            | field field => exact Or.inl ⟨field, rfl, h⟩
            | list list =>
                refine Or.inr (Or.inl ?_)
                dsimp only at h
                cases hstore : storeWords list.codes ws value (list.get params) with
                | error stop =>
                    rw [hstore] at h
                    cases h
                | ok s =>
                    rw [hstore] at h
                    cases h
                    exact ⟨list, s.2, rfl, rfl⟩
            | link => exact Or.inr (Or.inr ⟨rfl, h⟩)
      · rw [if_pos htype] at h
        cases h

/-- The numbers of a link. -/
theorem linkWords_ok {params : AlsaPcmSettings} {ws : List Word} {r : Int × AlsaPcmSettings}
    (h : linkWords params ws = .ok r) :
    (∃ card device, r.2 = { params with linkCard := card, linkDevice := device }) ∧
    (∀ n, numberOf ws = some n → r.2.linkCard = asInt n) ∧
    (∀ n, numberOf ws.tail = some n → r.2.linkDevice = asInt n) := by
  cases ws with
  | nil => cases h
  | cons w ws =>
      cases ws with
      | nil =>
          rw [linkWords] at h
          by_cases hw : w.type = .int
          · rw [if_neg (not_not_intro hw)] at h
            rw [← Except.ok.inj h]
            exact ⟨⟨_, _, rfl⟩, fun n => atoi_of_number, fun n hn => by cases hn⟩
          · rw [if_pos hw] at h
            cases h
      | cons w' ws =>
          rw [linkWords] at h
          by_cases hw : w.type = .int
          · rw [if_neg (not_not_intro hw)] at h
            by_cases hw' : w'.type = .int
            · rw [if_neg (not_not_intro hw')] at h
              rw [← Except.ok.inj h]
              exact ⟨⟨_, _, rfl⟩, fun n => atoi_of_number, fun n => atoi_of_number⟩
            · rw [if_pos hw'] at h
              cases h
          · rw [if_pos hw] at h
            cases h

/-- A line of a stream sets its own integer, and no other one. -/
theorem streamField_setBy (num : StreamNumber) : (streamField num).SetBy pcmWords where
  other := by
    intro line value params r hok hwords
    obtain ⟨k, ws, rfl, htype, ⟨field, hkeyword, hvalue⟩ | ⟨list, values, -, hlist⟩ |
      ⟨hkeyword, hlink⟩⟩ := pcmWords_ok hok
    · obtain ⟨v, hset⟩ := valueWords_ok hvalue
      rw [hset]
      rw [streamField_words htype hkeyword] at hwords
      cases num with
      | field f =>
          refine PcmField.get_set_ne (fun heq => ?_) params v
          rw [heq, if_pos (show PcmKeyword.field f = (StreamNumber.field f).keyword from rfl)] at hwords
          cases hwords
      | linkCard => cases field <;> rfl
      | linkDevice => cases field <;> rfl
    · rw [hlist]
      exact streamField_list num list params values
    · obtain ⟨⟨card, device, hset⟩, -, -⟩ := linkWords_ok hlink
      rw [streamField_words htype hkeyword] at hwords
      rw [hset]
      cases num with
      | field f => cases f <;> rfl
      | linkCard => cases hwords
      | linkDevice => cases hwords
  own := by
    intro line value params r ws' n hok hwords hn
    obtain ⟨k, ws, rfl, htype, ⟨field, hkeyword, hvalue⟩ | ⟨list, values, hkeyword, -⟩ |
      ⟨hkeyword, hlink⟩⟩ := pcmWords_ok hok
    · rw [streamField_words htype hkeyword] at hwords
      cases num with
      | field f =>
          by_cases hf : PcmKeyword.field field = .field f
          · rw [StreamNumber.keyword, if_pos hf] at hwords
            cases hf
            cases hwords
            rw [valueWords_number hn hvalue]
            exact PcmField.get_set field params _
          · rw [StreamNumber.keyword, if_neg hf] at hwords
            cases hwords
      | linkCard => cases hwords
      | linkDevice => cases hwords
    · rw [streamField_words htype hkeyword] at hwords
      cases num <;> cases hwords
    · rw [streamField_words htype hkeyword] at hwords
      obtain ⟨-, hcard, hdevice⟩ := linkWords_ok hlink
      cases num with
      | field f => cases hwords
      | linkCard =>
          cases hwords
          exact hcard n hn
      | linkDevice =>
          cases hwords
          exact hdevice n hn

/-! ## Controls -/

def cardField : NumberField AlsaControlSettings := ⟨wordsAfter isCard, AlsaControlSettings.card⟩

/-- The words of a control and its value. -/
def setLines (lines : List (List Word)) : List (List Word) := lines.filterMap (wordsAfter isSet)

/-- A control is set by two words.  One that is no integer is a name, and leaves zero. -/
def SetExact : List Word → AlsaControlValue → Prop
  | n :: w :: _, v =>
      v.controlId = (numberOf [n]).elim 0 Int.ofNat ∧ v.value = (numberOf [w]).elim 0 Int.ofNat
  | _, _ => False

def SetFits : List Word → Prop
  | n :: w :: _ =>
      (∀ id, numberOf [n] = some id → id < intLimit) ∧
      ∀ value, numberOf [w] = some value → value < intLimit
  | _ => False

/-- What a number is set to. -/
theorem intField_number (w : Word) (old : Int) : intField w.type (w.valueAfter old) =
    (numberOf [w]).elim 0 fun n => asInt n := by
  cases htype : w.type with
  | int =>
      have hn : numberOf [w] = some (Cli.readDigits 10 w.str 0) := by
        rw [numberOf, if_pos htype]
      rw [hn, Option.elim_some, intField_int, valueAfter_int htype, atoi_of_number hn]
  | str =>
      have hn : numberOf [w] = none := by
        rw [numberOf, if_neg (by rw [htype]; exact CnfTokenType.noConfusion)]
      rw [hn]
      rfl

/-- A control that is set is exact for two words with numbers that are an `int`. -/
theorem setWords_ok {config : AlsaControlSettings} {value : Int} {ws : List Word}
    {r : Int × AlsaControlSettings} (h : setWords config value ws = .ok r) :
    r.2.card = config.card ∧
      ∃ v, r.2.values = config.values ++ [v] ∧ (SetExact ws v ↔ SetFits ws) := by
  cases ws with
  | nil => cases h
  | cons n ws =>
      cases ws with
      | nil =>
          rw [setWords] at h
          cases hname : copyString magicNumber (strField n.type n.str) with
          | error stop =>
              rw [hname] at h
              cases h
          | ok name =>
              rw [hname, ok_bind] at h
              rw [← Except.ok.inj h]
              exact ⟨rfl, _, rfl, Iff.rfl⟩
      | cons w ws =>
          rw [setWords] at h
          cases hname : copyString magicNumber (strField n.type n.str) with
          | error stop =>
              rw [hname] at h
              cases h
          | ok name =>
              rw [hname, ok_bind] at h
              dsimp only at h
              cases hstr : copyString maxLineLen (strField w.type w.str) with
              | error stop =>
                  rw [hstr] at h
                  cases h
              | ok str =>
                  rw [hstr, ok_bind] at h
                  rw [← Except.ok.inj h]
                  refine ⟨rfl, _, rfl, ?_⟩
                  show _ ∧ _ ↔ _ ∧ _
                  rw [intField_number, intField_number, elim_asInt_iff, elim_asInt_iff]

/-- A line of a control that is taken. -/
theorem controlWords_ok {line : List Word} {value : Int} {config : AlsaControlSettings}
    {r : Int × AlsaControlSettings} (h : controlWords line value config = .ok r) :
    ∃ k ws, line = k :: ws ∧ k.type = .str ∧
      ((isCard k.str = true ∧ isSet k.str = false ∧
          valueWords (fun card => { config with card := card }) value ws = .ok r) ∨
        (isCard k.str = false ∧ isSet k.str = true ∧ setWords config value ws = .ok r)) := by
  cases line with
  | nil => cases h
  | cons k ws =>
      rw [controlWords] at h
      by_cases htype : k.type = .str
      · rw [if_neg (not_not_intro htype)] at h
        refine ⟨k, ws, rfl, htype, ?_⟩
        by_cases hcard : beginsWith k.str "card" 4 = true
        · rw [if_pos hcard] at h
          exact Or.inl ⟨hcard, by rw [isSet, hcard]; rfl, h⟩
        rw [if_neg hcard] at h
        by_cases hset : beginsWith k.str "set" 3 = true
        · rw [if_pos hset] at h
          cases hroom : writeAt magicNumber config.values.length with
          | error stop =>
              rw [hroom] at h
              cases h
          | ok u =>
              rw [hroom, ok_bind] at h
              have hnot : beginsWith k.str "card" 4 = false := Bool.eq_false_iff.mpr hcard
              exact Or.inr ⟨hnot, by rw [isSet, hnot, hset]; rfl, h⟩
        · rw [if_neg hset] at h
          cases h
      · rw [if_pos htype] at h
        cases h

theorem cardField_setBy : cardField.SetBy controlWords where
  other := by
    intro line value config r hok hwords
    obtain ⟨k, ws, rfl, htype, ⟨hcard, -, -⟩ | ⟨-, -, hset⟩⟩ := controlWords_ok hok
    · have hnone : wordsAfter isCard (k :: ws) = none := hwords
      rw [wordsAfter_pos htype hcard] at hnone
      cases hnone
    · exact (setWords_ok hset).1
  own := by
    intro line value config r ws' n hok hwords hn
    obtain ⟨k, ws, rfl, htype, ⟨-, -, hvalue⟩ | ⟨hcard, -, -⟩⟩ := controlWords_ok hok
    · obtain ⟨-, rfl⟩ := wordsAfter_some hwords
      rw [valueWords_number hn hvalue]
      rfl
    · have hsome : wordsAfter isCard (k :: ws) = some ws' := hwords
      rw [wordsAfter_neg hcard] at hsome
      cases hsome

/-- A relation that holds for the elements of two lists under a condition on the first. -/
theorem forall₂_iff_of {α β : Type} {R : α → β → Prop} {P : α → Prop} {as : List α} {bs : List β}
    (h : List.Forall₂ (fun a b => R a b ↔ P a) as bs) :
    List.Forall₂ R as bs ↔ ∀ a ∈ as, P a := by
  induction h with
  | nil => exact iff_of_true List.Forall₂.nil fun a ha => by cases ha
  | cons hab _ ih => rw [List.forall₂_cons, List.forall_mem_cons, hab, ih]

/-- The controls that are set in a section. -/
theorem readLines_sets {lines : List (List Char)} :
    ∀ {value : Int} {config config' : AlsaControlSettings},
      readLines controlWords lines value config = .ok config' →
      ∃ values, config'.values = config.values ++ values ∧
        List.Forall₂ (fun ws v => SetExact ws v ↔ SetFits ws) (setLines (lines.map wordsOf))
          values := by
  induction lines with
  | nil =>
      intro value config config' hread
      cases hread
      exact ⟨[], (List.append_nil _).symm, List.Forall₂.nil⟩
  | cons line lines ih =>
      intro value config config' hread
      rw [readLines] at hread
      cases hstep : controlWords (wordsOf line) value config with
      | error stop =>
          rw [hstep] at hread
          cases hread
      | ok r =>
          rw [hstep, ok_bind] at hread
          obtain ⟨values, hvalues, hall⟩ := ih hread
          obtain ⟨k, ws, hline, htype, ⟨-, hnot, hcard⟩ | ⟨-, hset, hwords⟩⟩ :=
            controlWords_ok hstep
          · obtain ⟨card, hsame⟩ := valueWords_ok hcard
            have hnone : wordsAfter isSet (wordsOf line) = none := by
              rw [hline, wordsAfter_neg hnot]
            refine ⟨values, ?_, ?_⟩
            · rw [hvalues, hsame]
            · rw [setLines, List.map_cons, List.filterMap_cons_none hnone]
              exact hall
          · obtain ⟨-, v, hadd, hiff⟩ := setWords_ok hwords
            have hsome : wordsAfter isSet (wordsOf line) = some ws := by
              rw [hline, wordsAfter_pos htype hset]
            refine ⟨v :: values, ?_, ?_⟩
            · rw [hvalues, hadd, List.append_assoc]
              rfl
            · rw [setLines, List.map_cons, List.filterMap_cons_some hsome]
              exact List.Forall₂.cons hiff hall

/-! ## Tuners -/

def freqField : NumberField V4lTunerSettings :=
  ⟨wordsAfter fun str => str == "freq".toList, V4lTunerSettings.freq⟩

def scanField : NumberField V4lTunerSettings :=
  ⟨wordsAfter fun str => str == "scan_select".toList, V4lTunerSettings.scan⟩

theorem stringWords_ok {σ : Type} {size : Nat} {set : List Char → σ} {value : Int}
    {ws : List Word} {r : Int × σ} (h : stringWords size set value ws = .ok r) :
    ∃ str, r.2 = set str := by
  cases ws with
  | nil => cases h
  | cons w ws =>
      rw [stringWords] at h
      by_cases hw : w.type = .str
      · rw [if_neg (not_not_intro hw)] at h
        cases hcopy : copyString size w.str with
        | error stop =>
            rw [hcopy] at h
            cases h
        | ok str =>
            rw [hcopy, ok_bind] at h
            exact ⟨str, by rw [← Except.ok.inj h]⟩
      · rw [if_pos hw] at h
        cases h

theorem numberWords_ok {σ : Type} {set : Int → σ} {value : Int} {ws : List Word} {r : Int × σ}
    (h : numberWords set value ws = .ok r) : ∃ v, r.2 = set v := by
  cases ws with
  | nil => exact ⟨_, by rw [← Except.ok.inj h]⟩
  | cons w ws =>
      rw [numberWords] at h
      by_cases hw : w.type = .int
      · rw [if_neg (not_not_intro hw)] at h
        exact ⟨_, by rw [← Except.ok.inj h]⟩
      · rw [if_pos hw] at h
        cases h

/-- A line of a tuner that is taken. -/
theorem tunerWords_ok {line : List Word} {value : Int} {tuner : V4lTunerSettings}
    {r : Int × V4lTunerSettings} (h : tunerWords line value tuner = .ok r) :
    ∃ k ws, line = k :: ws ∧ k.type = .str ∧
      ((k.str = "device".toList ∧ ∃ device, r.2 = { tuner with device := device }) ∨
        (k.str = "freq".toList ∧
          numberWords (fun freq => { tuner with freq := freq }) value ws = .ok r) ∨
        (k.str = "scan_select".toList ∧
          numberWords (fun scan => { tuner with scan := scan }) value ws = .ok r)) := by
  cases line with
  | nil => cases h
  | cons k ws =>
      rw [tunerWords] at h
      by_cases htype : k.type = .str
      · rw [if_neg (not_not_intro htype)] at h
        refine ⟨k, ws, rfl, htype, ?_⟩
        by_cases hdevice : k.str = "device".toList
        · rw [if_pos hdevice] at h
          exact Or.inl ⟨hdevice, stringWords_ok h⟩
        rw [if_neg hdevice] at h
        by_cases hfreq : k.str = "freq".toList
        · rw [if_pos hfreq] at h
          exact Or.inr (Or.inl ⟨hfreq, h⟩)
        rw [if_neg hfreq] at h
        by_cases hscan : k.str = "scan_select".toList
        · rw [if_pos hscan] at h
          exact Or.inr (Or.inr ⟨hscan, h⟩)
        · rw [if_neg hscan] at h
          cases h
      · rw [if_pos htype] at h
        cases h

theorem words_str (keyword : List Char) {k : Word} (ws : List Word) (htype : k.type = .str) :
    wordsAfter (fun str => str == keyword) (k :: ws) =
      if k.str = keyword then some ws else none := by
  by_cases h : k.str = keyword
  · rw [if_pos h]
    exact if_pos ⟨htype, beq_iff_eq.mpr h⟩
  · rw [if_neg h]
    exact if_neg fun hk => h (beq_iff_eq.mp hk.2)

/-- A line of a tuner sets its own integer, and no other one. -/
theorem freqField_setBy : freqField.SetBy tunerWords where
  other := by
    intro line value tuner r hok hwords
    obtain ⟨k, ws, rfl, htype, ⟨-, device, hset⟩ | ⟨hkey, -⟩ | ⟨-, hscan⟩⟩ := tunerWords_ok hok
    · rw [hset]
      rfl
    · have hnone := (words_str "freq".toList ws htype).symm.trans hwords
      rw [if_pos hkey] at hnone
      cases hnone
    · obtain ⟨scan, hset⟩ := numberWords_ok hscan
      rw [hset]
      rfl
  own := by
    intro line value tuner r ws' n hok hwords hn
    obtain ⟨k, ws, rfl, htype, ⟨hkey, -⟩ | ⟨hkey, hfreq⟩ | ⟨hkey, -⟩⟩ := tunerWords_ok hok
    · have hsome := (words_str "freq".toList ws htype).symm.trans hwords
      rw [if_neg (by rw [hkey]; decide)] at hsome
      cases hsome
    · have hsome := (words_str "freq".toList ws htype).symm.trans hwords
      rw [if_pos hkey] at hsome
      cases hsome
      rw [numberWords_number hn hfreq]
      rfl
    · have hsome := (words_str "freq".toList ws htype).symm.trans hwords
      rw [if_neg (by rw [hkey]; decide)] at hsome
      cases hsome

theorem scanField_setBy : scanField.SetBy tunerWords where
  other := by
    intro line value tuner r hok hwords
    obtain ⟨k, ws, rfl, htype, ⟨-, device, hset⟩ | ⟨-, hfreq⟩ | ⟨hkey, -⟩⟩ := tunerWords_ok hok
    · rw [hset]
      rfl
    · obtain ⟨freq, hset⟩ := numberWords_ok hfreq
      rw [hset]
      rfl
    · have hnone := (words_str "scan_select".toList ws htype).symm.trans hwords
      rw [if_pos hkey] at hnone
      cases hnone
  own := by
    intro line value tuner r ws' n hok hwords hn
    obtain ⟨k, ws, rfl, htype, ⟨hkey, -⟩ | ⟨hkey, -⟩ | ⟨hkey, hscan⟩⟩ := tunerWords_ok hok
    · have hsome := (words_str "scan_select".toList ws htype).symm.trans hwords
      rw [if_neg (by rw [hkey]; decide)] at hsome
      cases hsome
    · have hsome := (words_str "scan_select".toList ws htype).symm.trans hwords
      rw [if_neg (by rw [hkey]; decide)] at hsome
      cases hsome
    · have hsome := (words_str "scan_select".toList ws htype).symm.trans hwords
      rw [if_pos hkey] at hsome
      cases hsome
      rw [numberWords_number hn hscan]
      rfl

end Blts.Alsa.Numbers
