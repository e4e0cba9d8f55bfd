import Blts.Alsa.SectionNumbers

/-!
# The numbers of a file

The integers of a configuration, section by section.  A testset has one tuner: its frequency
is what the last of its sections says, the scan what the last section itself says.
-/

namespace Blts.Alsa.Numbers

/-! ## Sections -/

/-- The sections of some kind. -/
def partsOf {S : Type} (kind : S → Bool) : List (Chunk S) → List (List (List Char))
  | [] => []
  | .line _ :: cs => partsOf kind cs
  | .part section_ inner :: cs =>
      if kind section_ = true then inner :: partsOf kind cs else partsOf kind cs
  | .noEnd _ _ :: cs => partsOf kind cs

def isStream (section_ : TestsetSection) : Bool :=
  section_ == .playback || section_ == .recording || section_ == .wait

def isControl (section_ : TestsetSection) : Bool := section_ == .control

def isTuner (section_ : TestsetSection) : Bool := section_ == .tuner

/-- The lines of a section as words. -/
abbrev wordLines (lines : List (List Char)) : List (List Word) := lines.map wordsOf

/-! ## What a configuration says -/

def StreamExact (lines : List (List Char)) (pcm : AlsaPcmSettings) : Prop :=
  ∀ num, (streamField num).Exact ((streamField num).get .start) (wordLines lines) pcm

def ControlExact (lines : List (List Char)) (ctl : AlsaControlSettings) : Prop :=
  cardField.Exact 0 (wordLines lines) ctl ∧
    List.Forall₂ SetExact (setLines (wordLines lines)) ctl.values

/-- The tuner, from its sections in a testset. -/
def TunerExact (parts : List (List (List Char))) (tuner : V4lTunerSettings) : Prop :=
  freqField.Exact 0 (wordLines parts.flatten) tuner ∧
  scanField.Numeric (wordLines parts.flatten) ∧
  tuner.scan = parts.getLast?.elim 0 fun lines =>
    (scanField.written (wordLines lines)).elim (-1) Int.ofNat

def TestsetExact (lines : List (List Char)) (testset : AlsaTestset) : Prop :=
  List.Forall₂ StreamExact (partsOf isStream (chunks testsetTags lines)) testset.pcms ∧
  List.Forall₂ ControlExact (partsOf isControl (chunks testsetTags lines)) testset.ctls ∧
  TunerExact (partsOf isTuner (chunks testsetTags lines)) testset.tuner

/-- The testsets of a text. -/
def testsetParts (lines : List (List Char)) : List (List (List Char)) :=
  partsOf (· == .testset) (chunks fileTags lines)

/-- The default controls of the `[defaults]` sections. -/
def defaultsOf (cs : List (Chunk FileSection)) : List (List (List Char)) :=
  (partsOf (· == .defaults) cs).flatMap fun inner =>
    partsOf (fun _ => true) (chunks defaultsTags inner)

/-- The default controls of a text. -/
def defaultParts (lines : List (List Char)) : List (List (List Char)) :=
  defaultsOf (chunks fileTags lines)

/-- Every integer of the configuration is the number on its own line, and every such line has a
number. -/
def ConfigExact (lines : List (List Char)) (config : AlsaConfiguration) : Prop :=
  List.Forall₂ TestsetExact (testsetParts lines) config.testsets ∧
    List.Forall₂ ControlExact (defaultParts lines) config.defCtls

/-! ## The texts for which it does -/

def StreamFits (lines : List (List Char)) : Prop :=
  ∀ num, (streamField num).Fits (wordLines lines)

def ControlFits (lines : List (List Char)) : Prop :=
  cardField.Fits (wordLines lines) ∧ ∀ ws ∈ setLines (wordLines lines), SetFits ws

def TunerFits (parts : List (List (List Char))) : Prop :=
  freqField.Fits (wordLines parts.flatten) ∧
  scanField.Numeric (wordLines parts.flatten) ∧
  ∀ lines, parts.getLast? = some lines →
    ∀ n, scanField.written (wordLines lines) = some n → n < intLimit

def TestsetFits (lines : List (List Char)) : Prop :=
  (∀ part ∈ partsOf isStream (chunks testsetTags lines), StreamFits part) ∧
  (∀ part ∈ partsOf isControl (chunks testsetTags lines), ControlFits part) ∧
  TunerFits (partsOf isTuner (chunks testsetTags lines))

/-- Every line of an integer has one, and those that count are an `int`. -/
def NumbersFit (lines : List (List Char)) : Prop :=
  (∀ part ∈ testsetParts lines, TestsetFits part) ∧ ∀ part ∈ defaultParts lines, ControlFits part

/-! ## Reading a section -/

theorem readStream_exact {junk : Int} {lines : List (List Char)} {pcm : AlsaPcmSettings}
    (h : readLines pcmWords lines junk .start = .ok pcm) (dir : StreamDir) :
    StreamExact lines { pcm with dir := dir } ↔ StreamFits lines := by
  refine forall_congr' fun num => NumberField.exact_iff fun hnumeric => ?_
  rw [← (streamField_setBy num).readLines h hnumeric]
  cases num with
  | field f => cases f <;> rfl
  | linkCard => rfl
  | linkDevice => rfl

theorem readControl_exact {junk : Int} {lines : List (List Char)} {ctl : AlsaControlSettings}
    (h : readLines controlWords lines junk .zero = .ok ctl) :
    ControlExact lines ctl ↔ ControlFits lines := by
  obtain ⟨values, hvalues, hall⟩ := readLines_sets h
  have hsame : ctl.values = values := hvalues
  refine and_congr (NumberField.exact_iff fun hnumeric => cardField_setBy.readLines h hnumeric) ?_
  rw [hsame]
  exact forall₂_iff_of hall

/-- The tuner after some of its sections. -/
structure TunerRead (parts : List (List (List Char))) (tuner left : V4lTunerSettings) : Prop where
  freq : freqField.Numeric (wordLines parts.flatten) →
    left.freq = (freqField.written (wordLines parts.flatten)).elim tuner.freq fun n => asInt n
  scan : scanField.Numeric (wordLines parts.flatten) →
    left.scan = parts.getLast?.elim tuner.scan fun lines =>
      (scanField.written (wordLines lines)).elim (-1) fun n => asInt n

theorem TunerRead.exact_iff {parts : List (List (List Char))} {device : List Char}
    {left : V4lTunerSettings} (h : TunerRead parts ⟨device, 0, 0⟩ left) :
    TunerExact parts left ↔ TunerFits parts := by
  refine and_congr (NumberField.exact_iff h.freq) (and_congr_right fun hnumeric => ?_)
  rw [h.scan hnumeric]
  cases parts.getLast? with
  | none =>
      rw [Option.elim_none, Option.elim_none]
      exact iff_of_true rfl fun lines hlines => by cases hlines
  | some lines =>
      rw [Option.elim_some, Option.elim_some, elim_asInt_iff]
      refine ⟨fun hfits lines' hlines' => ?_, fun hfits => hfits lines rfl⟩
      rw [← Option.some.inj hlines']
      exact hfits

/-- The lines of two parts: the number of the second one counts. -/
theorem NumberField.written_append {σ : Type} (field : NumberField σ)
    (lines lines' : List (List Word)) :
    field.written (lines ++ lines') = (field.written lines').or (field.written lines) := by
  induction lines with
  | nil => rw [List.nil_append, NumberField.written, Option.or_none]
  | cons line lines ih => rw [List.cons_append, written, written, ih, Option.or_assoc]

theorem NumberField.numeric_append {σ : Type} {field : NumberField σ}
    {lines lines' : List (List Word)} :
    field.Numeric (lines ++ lines') ↔ field.Numeric lines ∧ field.Numeric lines' :=
  List.forall_mem_append

/-- A section of the tuner, and those after it. -/
theorem TunerRead.cons {junk : Int} {inner : List (List Char)} {parts : List (List (List Char))}
    {tuner tuner' left : V4lTunerSettings}
    (h : readLines tunerWords inner junk { tuner with scan := -1 } = .ok tuner')
    (hrest : TunerRead parts tuner' left) : TunerRead (inner :: parts) tuner left where
  freq := by
    intro hnumeric
    rw [List.flatten_cons, wordLines, List.map_append] at hnumeric ⊢
    obtain ⟨hinner, hparts⟩ := NumberField.numeric_append.mp hnumeric
    have hfirst := freqField_setBy.readLines h hinner
    have hfreq : tuner'.freq = (freqField.written (wordLines inner)).elim tuner.freq
        fun n => asInt n := hfirst
    rw [hrest.freq hparts, NumberField.written_append, hfreq]
    cases freqField.written (wordLines parts.flatten) with
    | none => rw [Option.none_or, Option.elim_none]
    | some n => rw [Option.some_or, Option.elim_some, Option.elim_some]
  scan := by
    intro hnumeric
    rw [List.flatten_cons, wordLines, List.map_append] at hnumeric
    obtain ⟨hinner, hparts⟩ := NumberField.numeric_append.mp hnumeric
    have hfirst := scanField_setBy.readLines h hinner
    have hscan : tuner'.scan = (scanField.written (wordLines inner)).elim (-1)
        fun n => asInt n := hfirst
    rw [hrest.scan hparts, hscan, List.getLast?_cons]
    cases parts.getLast? with
    | none => rfl
    | some lines => rfl

/-! ## Reading a testset -/

/-- What the sections of a testset add to it. -/
structure TestsetRead (cs : List (Chunk TestsetSection)) (testset left : AlsaTestset) : Prop where
  pcms : ∃ pcms, left.pcms = testset.pcms ++ pcms ∧
    List.Forall₂ (fun part pcm => StreamExact part pcm ↔ StreamFits part) (partsOf isStream cs) pcms
  ctls : ∃ ctls, left.ctls = testset.ctls ++ ctls ∧
    List.Forall₂ (fun part ctl => ControlExact part ctl ↔ ControlFits part)
      (partsOf isControl cs) ctls
  tuner : TunerRead (partsOf isTuner cs) testset.tuner left.tuner

section

variable {junk : Int} {inner : List (List Char)} {testset testset' left : AlsaTestset}
  {cs : List (Chunk TestsetSection)}

theorem testsetRead_nil : TestsetRead [] testset testset where
  pcms := ⟨[], (List.append_nil _).symm, List.Forall₂.nil⟩
  ctls := ⟨[], (List.append_nil _).symm, List.Forall₂.nil⟩
  tuner := ⟨fun _ => rfl, fun _ => rfl⟩

/-- A stream and what follows it. -/
theorem TestsetRead.stream {section_ : TestsetSection} (hkind : isStream section_ = true)
    {dir : StreamDir} (hstream : readStream junk dir inner testset = .ok testset')
    (h : TestsetRead cs testset' left) : TestsetRead (.part section_ inner :: cs) testset left := by
  obtain ⟨⟨pcms, hpcms, hall⟩, hctls, htuner⟩ := h
  unfold readStream at hstream
  by_cases hfull : testset.pcms.length ≥ maxStreams
  · rw [if_pos hfull] at hstream
    cases hstream
  rw [if_neg hfull] at hstream
  cases hread : readLines pcmWords inner junk .start with
  | error stop =>
      rw [hread] at hstream
      cases hstream
  | ok pcm =>
      rw [hread, ok_bind] at hstream
      cases hstream
      have hcontrol : isControl section_ = false := by
        cases section_ <;> first | rfl | cases hkind
      have htuned : isTuner section_ = false := by
        cases section_ <;> first | rfl | cases hkind
      refine ⟨⟨{ pcm with dir := dir } :: pcms, ?_, ?_⟩, ?_, ?_⟩
      · rw [hpcms, List.append_assoc]
        rfl
      · rw [partsOf, if_pos hkind]
        exact List.Forall₂.cons (readStream_exact hread dir) hall
      · rw [partsOf, hcontrol, if_neg Bool.false_ne_true]
        exact hctls
      · rw [partsOf, htuned, if_neg Bool.false_ne_true]
        exact htuner

/-- A control and what follows it. -/
theorem TestsetRead.control (hpart : readPart junk inner testset .control = .ok testset')
    (h : TestsetRead cs testset' left) : TestsetRead (.part .control inner :: cs) testset left := by
  obtain ⟨hpcms, ⟨ctls, hctls, hall⟩, htuner⟩ := h
  rw [readPart] at hpart
  by_cases hfull : testset.ctls.length ≥ maxStreams
  · rw [if_pos hfull] at hpart
    cases hpart
  rw [if_neg hfull] at hpart
  cases hread : readLines controlWords inner junk .zero with
  | error stop =>
      rw [hread] at hpart
      cases hpart
  | ok ctl =>
      rw [hread, ok_bind] at hpart
      cases hpart
      refine ⟨hpcms, ⟨ctl :: ctls, ?_, ?_⟩, htuner⟩
      · rw [hctls, List.append_assoc]
        rfl
      · exact List.Forall₂.cons (readControl_exact hread) hall

/-- A section of the tuner and what follows it. -/
theorem TestsetRead.tuned (hpart : readPart junk inner testset .tuner = .ok testset')
    (h : TestsetRead cs testset' left) : TestsetRead (.part .tuner inner :: cs) testset left := by
  obtain ⟨hpcms, hctls, htuner⟩ := h
  rw [readPart] at hpart
  cases hread : readLines tunerWords inner junk { testset.tuner with scan := -1 } with
  | error stop =>
      rw [hread] at hpart
      cases hpart
  | ok tuner =>
      rw [hread, ok_bind] at hpart
      cases hpart
      exact ⟨hpcms, hctls, htuner.cons hread⟩

theorem TestsetRead.bluetooth (hpart : readPart junk inner testset .bluetooth = .ok testset')
    (h : TestsetRead cs testset' left) :
    TestsetRead (.part .bluetooth inner :: cs) testset left := by
  rw [readPart] at hpart
  cases hread : readLines bluetoothWords inner junk testset.btaudio with
  | error stop =>
      rw [hread] at hpart
      cases hpart
  | ok btaudio =>
      rw [hread, ok_bind] at hpart
      cases hpart
      exact ⟨h.pcms, h.ctls, h.tuner⟩

/-- A line outside of sections has nothing but the description. -/
theorem testsetWords_ok {line : List Word} {value : Int} {r : Int × AlsaTestset}
    (h : testsetWords line value testset = .ok r) :
    ∃ description, r.2 = { testset with description := description } := by
  cases line with
  | nil => exact ⟨testset.description, by rw [← Except.ok.inj h]⟩
  | cons k ws =>
      rw [testsetWords] at h
      by_cases hk : k.type = .str ∧ beginsWith k.str "description" 11 = true
      · rw [if_pos hk] at h
        exact stringWords_ok h
      · rw [if_neg hk] at h
        exact ⟨testset.description, by rw [← Except.ok.inj h]⟩

end

/-- **A testset** that is read, from its sections. -/
theorem readTestset_read {junk : Int} : ∀ {cs : List (Chunk TestsetSection)} {value : Int}
    {testset left : AlsaTestset}, readTestset junk cs value testset = .ok left →
      TestsetRead cs testset left
  | [], _, _, _ => by
      intro h
      cases h
      exact testsetRead_nil
  | .line line :: cs, value, testset, left => by
      intro h
      rw [readTestset] at h
      cases hline : testsetWords (wordsOf line) value testset with
      | error stop =>
          rw [hline] at h
          cases h
      | ok r =>
          rw [hline, ok_bind] at h
          have hrest := readTestset_read h
          obtain ⟨description, hsame⟩ := testsetWords_ok hline
          rw [hsame] at hrest
          exact ⟨hrest.pcms, hrest.ctls, hrest.tuner⟩
  | .part section_ inner :: cs, value, testset, left => by
      intro h
      rw [readTestset] at h
      cases hpart : readPart junk inner testset section_ with
      | error stop =>
          rw [hpart] at h
          cases h
      | ok testset' =>
          rw [hpart, ok_bind] at h
          have hrest := readTestset_read h
          cases section_ with
          | playback => exact hrest.stream rfl hpart
          | recording => exact hrest.stream rfl hpart
          | control => exact hrest.control hpart
          | wait => exact hrest.stream rfl hpart
          | tuner => exact hrest.tuned hpart
          | bluetooth => exact hrest.bluetooth hpart
  | .noEnd _ _ :: _, _, _, _ => by
      intro h
      cases h

theorem testset_exact_iff {junk value : Int} {lines : List (List Char)} {testset : AlsaTestset}
    (h : readTestset junk (chunks testsetTags lines) value .zero = .ok testset) :
    TestsetExact lines testset ↔ TestsetFits lines := by
  obtain ⟨⟨pcms, hpcms, hstreams⟩, ⟨ctls, hctls, hcontrols⟩, htuner⟩ := readTestset_read h
  have hpcms' : testset.pcms = pcms := hpcms
  have hctls' : testset.ctls = ctls := hctls
  unfold TestsetExact TestsetFits
  rw [hpcms', hctls']
  exact and_congr (forall₂_iff_of hstreams) (and_congr (forall₂_iff_of hcontrols) htuner.exact_iff)

/-! ## Reading a file -/

/-- The controls that a `[defaults]` section adds. -/
theorem readDefaults_read {junk : Int} : ∀ {cs : List (Chunk Unit)}
    {config left : AlsaConfiguration}, readDefaults junk cs config = .ok left →
      left.testsets = config.testsets ∧ ∃ ctls, left.defCtls = config.defCtls ++ ctls ∧
        List.Forall₂ (fun part ctl => ControlExact part ctl ↔ ControlFits part)
          (partsOf (fun _ => true) cs) ctls
  | [], _, _ => by
      intro h
      cases h
      exact ⟨rfl, [], (List.append_nil _).symm, List.Forall₂.nil⟩
  | .line _ :: cs, config, left => by
      intro h
      rw [readDefaults] at h
      have hrest := readDefaults_read h
      exact hrest
  | .part _ inner :: cs, config, left => by
      intro h
      rw [readDefaults] at h
      by_cases hfull : config.defCtls.length ≥ maxStreams
      · rw [if_pos hfull] at h
        cases h
      rw [if_neg hfull] at h
      cases hread : readLines controlWords inner junk .zero with
      | error stop =>
          rw [hread] at h
          cases h
      | ok ctl =>
          rw [hread, ok_bind] at h
          obtain ⟨htestsets, ctls, hctls, hall⟩ := readDefaults_read h
          refine ⟨htestsets, ctl :: ctls, ?_, ?_⟩
          · rw [hctls, List.append_assoc]
            rfl
          · rw [partsOf, if_pos rfl]
            exact List.Forall₂.cons (readControl_exact hread) hall
  | .noEnd _ _ :: _, _, _ => by
      intro h
      cases h

/-- What the sections of a file add to a configuration. -/
structure FileRead (cs : List (Chunk FileSection)) (config left : AlsaConfiguration) : Prop where
  testsets : ∃ testsets, left.testsets = config.testsets ++ testsets ∧
    List.Forall₂ (fun part testset => TestsetExact part testset ↔ TestsetFits part)
      (partsOf (· == .testset) cs) testsets
  defCtls : ∃ ctls, left.defCtls = config.defCtls ++ ctls ∧
    List.Forall₂ (fun part ctl => ControlExact part ctl ↔ ControlFits part) (defaultsOf cs) ctls

theorem fileRead_nil (config : AlsaConfiguration) : FileRead [] config config where
  testsets := ⟨[], (List.append_nil _).symm, List.Forall₂.nil⟩
  defCtls := ⟨[], (List.append_nil _).symm, List.Forall₂.nil⟩

section

variable {junk : Int} {inner : List (List Char)} {cs : List (Chunk FileSection)}
  {config config' left : AlsaConfiguration}

theorem FileRead.testset (hpart : readFileSection junk inner config .testset = .ok config')
    (h : FileRead cs config' left) : FileRead (.part .testset inner :: cs) config left := by
  obtain ⟨⟨testsets, htestsets, hall⟩, hctls⟩ := h
  rw [readFileSection, readTestsetSection] at hpart
  cases hroom : writeAt magicNumber config.testsets.length with
  | error stop =>
      rw [hroom] at hpart
      cases hpart
  | ok u =>
      rw [hroom, ok_bind] at hpart
      cases hread : readTestset junk (chunks testsetTags inner) junk .zero with
      | error stop =>
          rw [hread] at hpart
          cases hpart
      | ok testset =>
          rw [hread, ok_bind] at hpart
          cases hpart
          refine ⟨⟨testset :: testsets, ?_, ?_⟩, hctls⟩
          · rw [htestsets, List.append_assoc]
            rfl
          · exact List.Forall₂.cons (testset_exact_iff hread) hall

theorem FileRead.defaults (hpart : readFileSection junk inner config .defaults = .ok config')
    (h : FileRead cs config' left) : FileRead (.part .defaults inner :: cs) config left := by
  obtain ⟨htestsets, ctls, hctls, hall⟩ := h
  obtain ⟨hsame, ctls', hctls', hall'⟩ := readDefaults_read hpart
  rw [hsame] at htestsets
  refine ⟨htestsets, ctls' ++ ctls, ?_, ?_⟩
  · rw [hctls, hctls', List.append_assoc]
  · exact List.rel_append hall' hall

end

/-- **A file** that is read, from its sections. -/
theorem readSections_read {junk : Int} {tail : List Char} :
    ∀ {cs : List (Chunk FileSection)} {started : Bool} {config left : AlsaConfiguration},
      readSections junk tail started cs config = .ok left → FileRead cs config left
  | [], started, config, left => by
      intro h
      have hsame : left = config := by
        rw [readSections] at h
        by_cases htail : tail = []
        · rw [if_pos htail] at h
          exact (Except.ok.inj h).symm
        rw [if_neg htail] at h
        by_cases hstarted : started = false
        · rw [if_pos hstarted] at h
          cases h
        rw [if_neg hstarted] at h
        by_cases hlen : tail.length < intLimit
        · rw [if_pos hlen] at h
          exact (Except.ok.inj h).symm
        · rw [if_neg hlen] at h
          cases h
      rw [hsame]
      exact fileRead_nil config
  | .line _ :: cs, started, config, left => by
      intro h
      rw [readSections] at h
      have hrest := readSections_read h
      exact ⟨hrest.testsets, hrest.defCtls⟩
  | .part section_ inner :: cs, started, config, left => by
      intro h
      rw [readSections] at h
      cases hpart : readFileSection junk inner config section_ with
      | error stop =>
          rw [hpart] at h
          cases h
      | ok config' =>
          rw [hpart, ok_bind] at h
          have hrest := readSections_read h
          cases section_ with
          | testset => exact hrest.testset hpart
          | defaults => exact hrest.defaults hpart
  | .noEnd _ _ :: _, _, _, _ => by
      intro h
      cases h

/-- **The integers of a configuration** that is accepted are those of the text, exactly where
every line of an integer has one and those that count are an `int`. -/
theorem config_exact_iff {junk : Int} {contents : List Char} {config : AlsaConfiguration}
    (h : alsaReadConfig junk (some contents) = .ok (.config config)) :
    ConfigExact (cleanLines (textOf contents)) config ↔
      NumbersFit (cleanLines (textOf contents)) := by
  rw [alsaReadConfig_eq] at h
  by_cases hfit : contents.length % uintLimit + 1 < uintLimit ∧ LinesFit (textOf contents)
  · rw [if_pos hfit] at h
    cases hread : readSections junk (cleanTail (textOf contents)) false
        (chunks fileTags (cleanLines (textOf contents))) .zero with
    | error stop =>
        rw [hread] at h
        cases stop <;> cases h
    | ok left =>
        rw [hread] at h
        cases h
        obtain ⟨⟨testsets, htestsets, hall⟩, ctls, hctls, hall'⟩ := readSections_read hread
        have htestsets' : config.testsets = testsets := htestsets
        have hctls' : config.defCtls = ctls := hctls
        unfold ConfigExact NumbersFit
        rw [htestsets', hctls']
        exact and_congr (forall₂_iff_of hall) (forall₂_iff_of hall')
  · rw [if_neg hfit] at h
    cases h

/-- A testset that plays on the second card. -/
def cardText : List Char :=
  unlines (["[testset]", "[playback]", "card 1", "[end_playback]", "[end_testset]"].map String.toList)

def cardConfig : AlsaConfiguration where
  testsets := [{ AlsaTestset.zero with
    pcms := [{ AlsaPcmSettings.start with card := 1, dir := .output }] }]
  defCtls := []

theorem cardConfig_exact_iff : ConfigExact (cleanLines (textOf cardText)) cardConfig ↔
    NumbersFit (cleanLines (textOf cardText)) :=
  config_exact_iff (show alsaReadConfig 0 (some cardText) = .ok (.config cardConfig) by
    decide +kernel)

/-- The volume is a word, and the number of the card is taken. -/
def volumeText : List Char :=
  unlines (["[testset]", "[playback]", "card 1", "volume max", "[end_playback]",
    "[end_testset]"].map String.toList)

def volumeConfig : AlsaConfiguration where
  testsets := [{ AlsaTestset.zero with
    pcms := [{ AlsaPcmSettings.start with card := 1, volume := 1, dir := .output }] }]
  defCtls := []

/-- The testset of the text, and the stream in it. -/
theorem volumeText_parts :
    testsetParts (cleanLines (textOf volumeText)) =
      [["[playback]", "card 1", "volume max", "[end_playback]"].map String.toList] ∧
    partsOf isStream (chunks testsetTags
      (["[playback]", "card 1", "volume max", "[end_playback]"].map String.toList)) =
      [["card 1", "volume max"].map String.toList] := by
  constructor
  · have hlines : cleanLines (textOf volumeText) = ["[testset]", "[playback]", "card 1",
      "volume max", "[end_playback]", "[end_testset]"].map String.toList := by decide +kernel
    have hend : sectionEnd (fileTags.stop .testset) (["[playback]", "card 1", "volume max",
        "[end_playback]", "[end_testset]"].map String.toList) =
      some (["[playback]", "card 1", "volume max", "[end_playback]"].map String.toList,
        [String.toList "[end_testset]"]) := by decide +kernel
    rw [hlines, testsetParts, List.map_cons, chunks_part (by decide) hend,
      chunks_line (by decide), chunks_nil]
    rfl
  · have hend : sectionEnd (testsetTags.stop .playback) (["card 1", "volume max",
        "[end_playback]"].map String.toList) =
      some (["card 1", "volume max"].map String.toList, [String.toList "[end_playback]"]) := by
      decide +kernel
    rw [List.map_cons, chunks_part (by decide) hend, chunks_line (by decide), chunks_nil]
    rfl

/-- The volume is the card. -/
theorem volume_stale : ¬∀ (junk : Int) (contents : List Char) (config : AlsaConfiguration),
    alsaReadConfig junk (some contents) = .ok (.config config) →
      ConfigExact (cleanLines (textOf contents)) config := by
  intro h
  have hread : alsaReadConfig 0 (some volumeText) = .ok (.config volumeConfig) := by
    decide +kernel
  obtain ⟨htestsets, -⟩ := h 0 volumeText volumeConfig hread
  obtain ⟨hparts, hstreams⟩ := volumeText_parts
  rw [hparts] at htestsets
  obtain ⟨⟨hpcms, -, -⟩, -⟩ := List.forall₂_cons.mp htestsets
  rw [hstreams] at hpcms
  obtain ⟨hstream, -⟩ := List.forall₂_cons.mp hpcms
  have hword : ∀ w ∈ [WrittenWord.bare "max".toList], w.WellFormed :=
    List.forall_mem_singleton.mpr (by decide)
  have hwords : wordsOf "volume max".toList = [⟨.str, "volume".toList⟩, ⟨.str, "max".toList⟩] :=
    wordsOf_keyword "volume".toList (by decide) hword
  have hkeyword : pcmKeyword "volume".toList = some (.field .volume) := by decide
  have hvolume : (streamField (.field .volume)).words (wordsOf "volume max".toList) =
      some [⟨.str, "max".toList⟩] := by
    rw [hwords, streamField_words rfl hkeyword]
    rfl
  exact (hstream (.field .volume)).1 (wordsOf "volume max".toList)
    (List.mem_cons_of_mem _ List.mem_cons_self) _ hvolume rfl

end Blts.Alsa.Numbers
