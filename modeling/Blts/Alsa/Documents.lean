import Blts.Alsa.WrittenText

/-!
# Configurations in writing

The file format of the documentation: what stands in a file, how it is written, and the
configuration that it describes.  A list may be given on one line or on several, the lines
of a section stand in any order, and of two lines for one setting the second counts.
-/

namespace Blts.Alsa

open WrittenWord

/-! ## Controls -/

/-- The string that a word stands for. -/
def WrittenWord.name : WrittenWord → List Char
  | bare str => str
  | quoted str => str
  | number _ => []

/-- The number that a word stands for. -/
def WrittenWord.value : WrittenWord → Int
  | bare _ => 0
  | quoted _ => 0
  | number n => n

/-- A line of a `[control]` section: the card, or the name or number of a control and
what it is set to. -/
inductive ControlStatement where
  | card (n : Nat)
  | set (control value : WrittenWord)
  deriving DecidableEq

namespace ControlStatement

def line : ControlStatement → List Char
  | card n => writeLine (bare "card".toList) [number n]
  | set control value => writeLine (bare "set".toList) [control, value]

def apply (config : AlsaControlSettings) : ControlStatement → AlsaControlSettings
  | card n => { config with card := n }
  | set control value =>
      { config with
        values := config.values ++ [⟨control.name, control.value, value.value, value.name⟩] }

/-- The strings and the `int`s fit. -/
def Valid : ControlStatement → Prop
  | card n => n < intLimit
  | set control value =>
      control.WellFormed ∧ value.WellFormed ∧ control.name.length < magicNumber ∧
        control.value < intLimit ∧ value.name.length < maxLineLen

instance : (s : ControlStatement) → Decidable s.Valid
  | card n => inferInstanceAs (Decidable (n < intLimit))
  | set _ _ => inferInstanceAs (Decidable (_ ∧ _ ∧ _ ∧ _ ∧ _))

end ControlStatement

/-- The settings of a `[control]` section. -/
def controlSettings (statements : List ControlStatement) : AlsaControlSettings :=
  statements.foldl ControlStatement.apply .zero

/-! ## Streams -/

def PcmField.keyword : PcmField → String
  | .card => "card"
  | .device => "device"
  | .hwResampling => "hw_resampling"
  | .duration => "duration"
  | .freq => "freq"
  | .periodSize => "period_size"
  | .volume => "volume"

def PcmList.keyword : PcmList → String
  | .channels => "channels"
  | .rates => "rates"
  | .formats => "formats"
  | .access => "access"
  | .async => "async"

/-- The names of the values of a list, if they have names. -/
def PcmList.table : PcmList → Option (List GenVs)
  | .channels | .rates => none
  | .formats => some formatValues
  | .access => some accessValues
  | .async => some asyncValues

/-- How a value of a list is written: by its name, if there is one. -/
def PcmList.write (list : PcmList) (n : Nat) : WrittenWord :=
  match list.table with
  | none => number n
  | some table => bare (valueToStr table n)

/-- A value that the list can have. -/
def PcmList.IsValue (list : PcmList) (n : Nat) : Prop :=
  match list.table with
  | none => n < intLimit
  | some table => ∃ e ∈ table, e.value = n

instance (n : Nat) : (list : PcmList) → Decidable (list.IsValue n)
  | .channels | .rates => inferInstanceAs (Decidable (n < intLimit))
  | .formats => inferInstanceAs (Decidable (∃ e ∈ formatValues, e.value = n))
  | .access => inferInstanceAs (Decidable (∃ e ∈ accessValues, e.value = n))
  | .async => inferInstanceAs (Decidable (∃ e ∈ asyncValues, e.value = n))

/-- A line of a section for a stream. -/
inductive PcmStatement where
  | field (field : PcmField) (n : Nat)
  | list (list : PcmList) (values : List Nat)
  | link (card device : Nat)
  deriving DecidableEq

namespace PcmStatement

def line : PcmStatement → List Char
  | field f n => writeLine (bare f.keyword.toList) [number n]
  | list l values => writeLine (bare l.keyword.toList) (values.map l.write)
  | link card device => writeLine (bare "link".toList) [number card, number device]

def apply (params : AlsaPcmSettings) : PcmStatement → AlsaPcmSettings
  | field f n => f.set params n
  | list l values => l.set params (l.get params ++ values.map Int.ofNat)
  | link card device => { params with linkCard := card, linkDevice := device }

def Valid : PcmStatement → Prop
  | field _ n => n < intLimit
  | list l values => ∀ n ∈ values, l.IsValue n
  | link card device => card < intLimit ∧ device < intLimit

instance : (s : PcmStatement) → Decidable s.Valid
  | field _ n => inferInstanceAs (Decidable (n < intLimit))
  | list l values => inferInstanceAs (Decidable (∀ n ∈ values, l.IsValue n))
  | link card device => inferInstanceAs (Decidable (card < intLimit ∧ device < intLimit))

end PcmStatement

/-- The settings of a stream.  What is not written is not linked and has the full
volume. -/
def pcmSettings (dir : StreamDir) (statements : List PcmStatement) : AlsaPcmSettings :=
  { statements.foldl PcmStatement.apply .start with dir := dir }

/-! ## Tuner and Bluetooth -/

/-- A line of a `[tuner]` section. -/
inductive TunerStatement where
  | device (str : List Char)
  | freq (n : Nat)
  | scanSelect (n : Nat)
  deriving DecidableEq

namespace TunerStatement

def line : TunerStatement → List Char
  | device str => writeLine (bare "device".toList) [quoted str]
  | freq n => writeLine (bare "freq".toList) [number n]
  | scanSelect n => writeLine (bare "scan_select".toList) [number n]

def apply (tuner : V4lTunerSettings) : TunerStatement → V4lTunerSettings
  | device str => { tuner with device := str }
  | freq n => { tuner with freq := n }
  | scanSelect n => { tuner with scan := n }

def Valid : TunerStatement → Prop
  | device str => IsQuotable str ∧ str.length < settingLen
  | freq n => n < intLimit
  | scanSelect n => n < intLimit

instance : (s : TunerStatement) → Decidable s.Valid
  | device str => inferInstanceAs (Decidable (IsQuotable str ∧ str.length < settingLen))
  | freq n => inferInstanceAs (Decidable (n < intLimit))
  | scanSelect n => inferInstanceAs (Decidable (n < intLimit))

end TunerStatement

/-- A line of a `[bluetooth]` section. -/
inductive BluetoothStatement where
  | connect (mac : List Char)
  | pin (code : List Char)
  deriving DecidableEq

namespace BluetoothStatement

def line : BluetoothStatement → List Char
  | connect mac => writeLine (bare "connect".toList) [quoted mac]
  | pin code => writeLine (bare "pin".toList) [quoted code]

def apply (btaudio : BluetoothAudioSettings) : BluetoothStatement → BluetoothAudioSettings
  | connect mac => { btaudio with remoteMac := mac }
  | pin code => { btaudio with pin := code }

def Valid : BluetoothStatement → Prop
  | connect mac => IsQuotable mac ∧ mac.length < settingLen
  | pin code => IsQuotable code ∧ code.length < settingLen

instance : (s : BluetoothStatement) → Decidable s.Valid
  | connect mac => inferInstanceAs (Decidable (IsQuotable mac ∧ mac.length < settingLen))
  | pin code => inferInstanceAs (Decidable (IsQuotable code ∧ code.length < settingLen))

end BluetoothStatement

/-! ## Testsets -/

/-- A section, from its tag to its end tag. -/
def sectionLines (tag endTag : String) (lines : List (List Char)) : List (List Char) :=
  tag.toList :: (lines ++ [endTag.toList])

/-- The section for a stream. -/
def StreamDir.pcmSection : StreamDir → TestsetSection
  | .none => .wait
  | .input => .recording
  | .output => .playback

/-- A line or a section of a testset. -/
inductive TestsetStatement where
  | description (str : List Char)
  | stream (dir : StreamDir) (statements : List PcmStatement)
  | control (statements : List ControlStatement)
  | tuner (statements : List TunerStatement)
  | bluetooth (statements : List BluetoothStatement)
  deriving DecidableEq

/-- A section of a testset with its lines. -/
def TestsetSection.lines (section_ : TestsetSection) (inner : List (List Char)) :
    List (List Char) :=
  sectionLines section_.tag section_.endTag inner

namespace TestsetStatement

def lines : TestsetStatement → List (List Char)
  | description str => [writeLine (bare "description".toList) [quoted str]]
  | stream dir statements => dir.pcmSection.lines (statements.map PcmStatement.line)
  | control statements => TestsetSection.control.lines (statements.map ControlStatement.line)
  | tuner statements => TestsetSection.tuner.lines (statements.map TunerStatement.line)
  | bluetooth statements =>
      TestsetSection.bluetooth.lines (statements.map BluetoothStatement.line)

def apply (testset : AlsaTestset) : TestsetStatement → AlsaTestset
  | description str => { testset with description := str }
  | stream dir statements =>
      { testset with pcms := testset.pcms ++ [pcmSettings dir statements] }
  | control statements =>
      { testset with ctls := testset.ctls ++ [controlSettings statements] }
  | tuner statements =>
      { testset with
        tuner := statements.foldl TunerStatement.apply { testset.tuner with scan := -1 } }
  | bluetooth statements =>
      { testset with
        btaudio := statements.foldl BluetoothStatement.apply testset.btaudio }

def Valid : TestsetStatement → Prop
  | description str => IsQuotable str ∧ str.length < maxLineLen
  | stream _ statements => ∀ s ∈ statements, s.Valid
  | control statements => ∀ s ∈ statements, s.Valid
  | tuner statements => ∀ s ∈ statements, s.Valid
  | bluetooth statements => ∀ s ∈ statements, s.Valid

instance : (s : TestsetStatement) → Decidable s.Valid
  | description str => inferInstanceAs (Decidable (IsQuotable str ∧ str.length < maxLineLen))
  | stream _ statements => inferInstanceAs (Decidable (∀ s ∈ statements, s.Valid))
  | control statements => inferInstanceAs (Decidable (∀ s ∈ statements, s.Valid))
  | tuner statements => inferInstanceAs (Decidable (∀ s ∈ statements, s.Valid))
  | bluetooth statements => inferInstanceAs (Decidable (∀ s ∈ statements, s.Valid))

end TestsetStatement

/-! ## Files -/

/-- A section of a file: a testset, or the `[control]` sections of the defaults. -/
inductive FileStatement where
  | testset (statements : List TestsetStatement)
  | defaults (controls : List (List ControlStatement))
  deriving DecidableEq

namespace FileStatement

def lines : FileStatement → List (List Char)
  | testset statements =>
      sectionLines "[testset]" "[end_testset]" (statements.flatMap TestsetStatement.lines)
  | defaults controls =>
      sectionLines "[defaults]" "[end_defaults]" (controls.flatMap fun statements =>
        TestsetSection.control.lines (statements.map ControlStatement.line))

def apply (config : AlsaConfiguration) : FileStatement → AlsaConfiguration
  | testset statements =>
      { config with testsets := config.testsets ++ [statements.foldl TestsetStatement.apply .zero] }
  | defaults controls =>
      { config with defCtls := config.defCtls ++ controls.map controlSettings }

def Valid : FileStatement → Prop
  | testset statements => ∀ s ∈ statements, s.Valid
  | defaults controls => ∀ statements ∈ controls, ∀ s ∈ statements, s.Valid

instance : (s : FileStatement) → Decidable s.Valid
  | testset statements => inferInstanceAs (Decidable (∀ s ∈ statements, s.Valid))
  | defaults controls =>
      inferInstanceAs (Decidable (∀ statements ∈ controls, ∀ s ∈ statements, s.Valid))

end FileStatement

/-- What stands in a file. -/
abbrev Document := List FileStatement

namespace Document

def lines (doc : Document) : List (List Char) := doc.flatMap FileStatement.lines

/-- The configuration that a file describes. -/
def config (doc : Document) : AlsaConfiguration := doc.foldl FileStatement.apply .zero

def Valid (doc : Document) : Prop := ∀ s ∈ doc, s.Valid

instance (doc : Document) : Decidable doc.Valid :=
  inferInstanceAs (Decidable (∀ s ∈ doc, s.Valid))

end Document

/-! ## Capacities -/

def AlsaControlSettings.Fits (config : AlsaControlSettings) : Prop :=
  config.values.length ≤ magicNumber

instance (config : AlsaControlSettings) : Decidable config.Fits :=
  inferInstanceAs (Decidable (config.values.length ≤ magicNumber))

def AlsaPcmSettings.Fits (params : AlsaPcmSettings) : Prop :=
  ∀ list : PcmList, (list.get params).length ≤ magicNumber

structure AlsaTestset.Fits (testset : AlsaTestset) : Prop where
  pcms : testset.pcms.length ≤ maxStreams
  ctls : testset.ctls.length ≤ maxStreams
  pcm : ∀ params ∈ testset.pcms, params.Fits
  ctl : ∀ config ∈ testset.ctls, config.Fits

/-- The lists fit the arrays that they are read to. -/
structure AlsaConfiguration.Fits (config : AlsaConfiguration) : Prop where
  testsets : config.testsets.length ≤ magicNumber
  defCtls : config.defCtls.length ≤ maxStreams
  testset : ∀ testset ∈ config.testsets, testset.Fits
  ctl : ∀ settings ∈ config.defCtls, settings.Fits

/-- A text of the file format for a configuration that fits, as long as `alsa_read_config`
can take. -/
def Writes (text : List Char) (config : AlsaConfiguration) : Prop :=
  ∃ doc : Document, doc.Valid ∧ doc.config = config ∧ config.Fits ∧
    IsTextOf doc.lines text ∧ text.length + 1 < uintLimit

end Blts.Alsa
