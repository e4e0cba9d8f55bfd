import Blts.Fault

/-!
# The ALSA configuration

The types of `alsa_config.h` and the tables of `alsa_util.c`.  An array with a
counter of its own is a list here: the counter is its length, and whatever
appends to it checks the capacity.  A character array holds a string without its
terminator.
-/

namespace Blts.Alsa

/-- `MAX_LINE_LEN`. -/
def maxLineLen : Nat := 256

/-- `MAGIC_NUMBER`. -/
def magicNumber : Nat := 256

/-- `MAX_STREAMS`. -/
def maxStreams : Nat := 10

/-- The size of the strings of the tuner and Bluetooth settings. -/
def settingLen : Nat := 64

/-! ## The configuration -/

/-- `STREAM_DIR_NONE`, `STREAM_DIR_IN` and `STREAM_DIR_OUT`. -/
inductive StreamDir where
  | none
  | input
  | output
  deriving DecidableEq

structure AlsaControlValue where
  controlName : List Char
  controlId : Int
  value : Int
  strValue : List Char
  deriving DecidableEq

structure AlsaControlSettings where
  card : Int
  values : List AlsaControlValue
  deriving DecidableEq

structure AlsaPcmSettings where
  card : Int
  device : Int
  dir : StreamDir
  rates : List Int
  formats : List Int
  channels : List Int
  access : List Int
  hwResampling : Int
  async : List Int
  duration : Int
  freq : Int
  linkCard : Int
  linkDevice : Int
  periodSize : Int
  volume : Int
  deriving DecidableEq

structure V4lTunerSettings where
  device : List Char
  freq : Int
  scan : Int
  deriving DecidableEq

structure BluetoothAudioSettings where
  remoteMac : List Char
  pin : List Char
  deriving DecidableEq

structure AlsaTestset where
  description : List Char
  pcms : List AlsaPcmSettings
  ctls : List AlsaControlSettings
  tuner : V4lTunerSettings
  btaudio : BluetoothAudioSettings
  deriving DecidableEq

structure AlsaConfiguration where
  testsets : List AlsaTestset
  defCtls : List AlsaControlSettings
  deriving DecidableEq

/-! What `calloc` and `memset` make of them. -/

def AlsaControlValue.zero : AlsaControlValue := ⟨[], 0, 0, []⟩

def AlsaControlSettings.zero : AlsaControlSettings := ⟨0, []⟩

def AlsaPcmSettings.zero : AlsaPcmSettings where
  card := 0
  device := 0
  dir := .none
  rates := []
  formats := []
  channels := []
  access := []
  hwResampling := 0
  async := []
  duration := 0
  freq := 0
  linkCard := 0
  linkDevice := 0
  periodSize := 0
  volume := 0

def AlsaTestset.zero : AlsaTestset where
  description := []
  pcms := []
  ctls := []
  tuner := ⟨[], 0, 0⟩
  btaudio := ⟨[], []⟩

def AlsaConfiguration.zero : AlsaConfiguration := ⟨[], []⟩

/-- A configuration as its type allows it: the array of streams has `MAX_STREAMS`
elements. -/
def StreamsFit (conf : AlsaConfiguration) : Prop :=
  ∀ testset ∈ conf.testsets, testset.pcms.length ≤ maxStreams

/-! ## Names of formats, access methods and modes -/

/-- `gen_vs`: a name and its value. -/
structure GenVs where
  str : List Char
  value : Int

/-- `format_values`, with the numbers of `sound/asound.h`. -/
def formatValues : List GenVs := [
  ⟨"S8".toList, 0⟩, ⟨"U8".toList, 1⟩, ⟨"S16_LE".toList, 2⟩, ⟨"S16_BE".toList, 3⟩,
  ⟨"U16_LE".toList, 4⟩, ⟨"U16_BE".toList, 5⟩, ⟨"S24_LE".toList, 6⟩, ⟨"S24_BE".toList, 7⟩,
  ⟨"U24_LE".toList, 8⟩, ⟨"U24_BE".toList, 9⟩, ⟨"S32_LE".toList, 10⟩, ⟨"S32_BE".toList, 11⟩,
  ⟨"U32_LE".toList, 12⟩, ⟨"U32_BE".toList, 13⟩, ⟨"FLOAT_LE".toList, 14⟩,
  ⟨"FLOAT_BE".toList, 15⟩, ⟨"FLOAT64_LE".toList, 16⟩, ⟨"FLOAT64_BE".toList, 17⟩,
  ⟨"IEC958_SUBFRAME_LE".toList, 18⟩, ⟨"IEC958_SUBFRAME_BE".toList, 19⟩,
  ⟨"MU_LAW".toList, 20⟩, ⟨"A_LAW".toList, 21⟩, ⟨"IMA_ADPCM".toList, 22⟩,
  ⟨"FORMAT_MPEG".toList, 23⟩, ⟨"GSM".toList, 24⟩, ⟨"SPECIAL".toList, 31⟩,
  ⟨"S24_3LE".toList, 32⟩, ⟨"S24_3BE".toList, 33⟩, ⟨"U24_3LE".toList, 34⟩,
  ⟨"U24_3BE".toList, 35⟩, ⟨"S20_3LE".toList, 36⟩, ⟨"S20_3BE".toList, 37⟩,
  ⟨"U20_3LE".toList, 38⟩, ⟨"U20_3BE".toList, 39⟩, ⟨"S18_3LE".toList, 40⟩,
  ⟨"S18_3BE".toList, 41⟩, ⟨"U18_3LE".toList, 42⟩, ⟨"U18_3BE".toList, 43⟩]

def accessValues : List GenVs := [
  ⟨"MMAP_INTERLEAVED".toList, 0⟩, ⟨"MMAP_NONINTERLEAVED".toList, 1⟩,
  ⟨"MMAP_COMPLEX".toList, 2⟩, ⟨"INTERLEAVED".toList, 3⟩, ⟨"NONINTERLEAVED".toList, 4⟩]

/-- `async_values`; the modes are `TEST_ASYNC_MODE_NONE`, `_SIGNAL` and `_TIMER`. -/
def asyncValues : List GenVs := [
  ⟨"SYNC".toList, 0⟩, ⟨"ASYNC_SIGNAL".toList, 1⟩, ⟨"ASYNC_TIMER".toList, 2⟩]

/-- `strncasecmp(str, name, strlen(name)) == 0`. -/
def matchesName (str name : List Char) : Bool :=
  (str.take name.length).map Char.toLower == name.map Char.toLower

/-- The value of the first name in a table that `str` begins with, or -1. -/
def strToValue (table : List GenVs) (str : List Char) : Int :=
  match table.find? fun e => matchesName str e.str with
  | some e => e.value
  | none => -1

/-- The name of the first entry of a table with a value. -/
def valueToStr (table : List GenVs) (value : Int) : List Char :=
  match table.find? fun e => e.value == value with
  | some e => e.str
  | none => "Unknown".toList

def strToFormat : List Char → Int := strToValue formatValues

def strToAccess : List Char → Int := strToValue accessValues

def strToAsync : List Char → Int := strToValue asyncValues

def formatToStr : Int → List Char := valueToStr formatValues

def accessToStr : Int → List Char := valueToStr accessValues

def asyncToStr : Int → List Char := valueToStr asyncValues

end Blts.Alsa
