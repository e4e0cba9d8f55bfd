import Blts.Lib.MixedRadix
import Blts.Alsa.Text

/-!
# The test cases of a configuration

`generate_pcm_testcase_list` makes two tables: the test cases that the command line
knows, and the parameters that a generated case runs with.  The tables grow in two
passes over the combinations of a testset.  An array with a counter of its own is a list
here, and no allocation fails; a name is written to the bytes that were allocated for it.
-/

namespace Blts.Alsa

open Blts.Lib.MixedRadix

/-- What ends the generation early. -/
inductive GenStop where
  | fault (f : Fault)
  /-- A count is used that nothing has been written to. -/
  | unset
  /-- An `int` does not hold its value. -/
  | overflow
  /-- The function returns `NULL`. -/
  | failed
  deriving DecidableEq

/-- A number that an `int` holds. -/
def checkInt (value : Int) : Except GenStop Int :=
  if -intLimit ≤ value ∧ value < intLimit then .ok value else .error .overflow

/-- A number of elements that an `int` counts. -/
def checkCount (count : Nat) : Except GenStop Nat :=
  if count < intLimit then .ok count else .error .overflow

structure PcmParams where
  card : Int
  device : Int
  dir : StreamDir
  duration : Int
  freq : Int
  format : Int
  rate : Int
  channels : Int
  hwResampling : Int
  access : Int
  async : Int
  linkCard : Int
  linkDevice : Int
  periodSize : Int
  volume : Int
  deriving DecidableEq

/-- What `calloc` makes of it. -/
def PcmParams.zero : PcmParams where
  card := 0
  device := 0
  dir := .none
  duration := 0
  freq := 0
  format := 0
  rate := 0
  channels := 0
  hwResampling := 0
  access := 0
  async := 0
  linkCard := 0
  linkDevice := 0
  periodSize := 0
  volume := 0

/-- The settings of its testset that a test case refers to. -/
structure TestcaseRefs where
  defControlRef : List AlsaControlSettings
  controlRef : List AlsaControlSettings
  tuner : V4lTunerSettings
  btaudio : BluetoothAudioSettings
  deriving DecidableEq

/-- A `testcase_params`.  The settings are there when the second pass has set them. -/
structure TestcaseParams where
  params : List PcmParams
  refs : Option TestcaseRefs
  deriving DecidableEq

inductive CaseFunc where
  | presenceCheck
  | openClosePcm
  | openCloseTimer
  | openCloseControls
  | openCloseHwdeps
  | enumerateControlElements
  | powerManagement
  | enumerateCtlDevices
  | addRemoveCtlElement
  | playRecPcm
  deriving DecidableEq

structure CliTestcase where
  caseName : List Char
  caseFunc : CaseFunc
  timeout : Int
  deriving DecidableEq

def bltsAlsaCases : List CliTestcase := [
  ⟨"ALSA presence check".toList, .presenceCheck, 10000⟩,
  ⟨"Open and close PCM devices".toList, .openClosePcm, 20000⟩,
  ⟨"Open and close timer".toList, .openCloseTimer, 20000⟩,
  ⟨"Open and close controls".toList, .openCloseControls, 20000⟩,
  ⟨"Open and close hwdeps".toList, .openCloseHwdeps, 20000⟩,
  ⟨"Enumerate control elements".toList, .enumerateControlElements, 20000⟩,
  ⟨"Power management".toList, .powerManagement, 20000⟩,
  ⟨"Enumerate devices with control interface".toList, .enumerateCtlDevices, 20000⟩,
  ⟨"Add and remove control element".toList, .addRemoveCtlElement, 20000⟩]

/-! ## The parameters of a stream -/

/-- The loops of `generate_pcm_params`. -/
def pcmVariations (pcm : AlsaPcmSettings) : List PcmParams :=
  pcm.rates.flatMap fun rate =>
    pcm.formats.flatMap fun format =>
      pcm.channels.flatMap fun channels =>
        pcm.access.flatMap fun access =>
          pcm.async.map fun async =>
            { card := pcm.card, device := pcm.device, dir := pcm.dir, duration := pcm.duration,
              freq := pcm.freq, format, rate, channels, hwResampling := pcm.hwResampling, access,
              async, linkCard := pcm.linkCard, linkDevice := pcm.linkDevice,
              periodSize := pcm.periodSize, volume := pcm.volume }

/-- `generate_pcm_params`, which counts them too. -/
def generatePcmParams (pcm : AlsaPcmSettings) : Except GenStop (List PcmParams) := do
  let _ ← checkCount (pcmVariations pcm).length
  .ok (pcmVariations pcm)

/-- `params` and `param_count` of a stream: a section to wait has one of each. -/
def streamParams (pcm : AlsaPcmSettings) : Except GenStop (List PcmParams) := do
  let params ← generatePcmParams pcm
  if params = [] then
    if pcm.dir = .none then .ok [{ PcmParams.zero with duration := pcm.duration }]
    else .error .failed
  else .ok params

/-- The parameters of all streams of a testset, from the stream `p` on, and `param_count`.
That array is not cleared between testsets. -/
def collectParams : List AlsaPcmSettings → Nat → List (Option Nat) →
    Except GenStop (List (List PcmParams) × List (Option Nat))
  | [], _, paramCount => .ok ([], paramCount)
  | pcm :: pcms, p, paramCount =>
      if p < paramCount.length then do
        let params ← streamParams pcm
        let r ← collectParams pcms (p + 1) (paramCount.set p (some params.length))
        .ok (params :: r.1, r.2)
      else .error (.fault .outOfBounds)

/-! ## The number of test cases -/

/-- A count that is used, whatever it was computed for. -/
def readCount (paramCount : List (Option Nat)) (p : Nat) : Except GenStop Nat :=
  match paramCount[p]?.join with
  | some count => .ok count
  | none => .error .unset

/-- `count *= param_count[p]`, for some streams from `p` on. -/
def multiplyCounts (paramCount : List (Option Nat)) : Nat → Nat → Nat → Except GenStop Nat
  | 0, _, count => .ok count
  | n + 1, p, count => do
      let c ← readCount paramCount p
      let count ← checkCount (count * c)
      multiplyCounts paramCount n (p + 1) count

/-- The number of test cases.  The first count is taken whether there is a stream or not. -/
def countCases (numPcms : Nat) (paramCount : List (Option Nat)) : Except GenStop Nat := do
  let count ← readCount paramCount 0
  multiplyCounts paramCount (numPcms - 1) 1 count

/-! ## Combinations -/

/-- The first pass: `count` combinations from the indices `px` on. -/
def combineParams (params : List (List PcmParams)) : Nat → List Nat → List TestcaseParams
  | 0, _ => []
  | count + 1, px =>
      { params := select params px, refs := none } ::
        combineParams params count (succ (params.map List.length) px)

/-! ## Names and timeouts -/

/-- `%d`. -/
def showInt (value : Int) : List Char := (toString value).toList

/-- The values of a stream in a name. -/
def streamName (params : PcmParams) : List Char :=
  showInt params.card ++ ':' :: showInt params.device ++ ' ' :: showInt params.rate ++
    ' ' :: showInt params.channels ++ ' ' :: accessToStr params.access ++
    ' ' :: formatToStr params.format ++ ' ' :: asyncToStr params.async

/-- The name of a test case with one stream. -/
def simpleName (description : List Char) (params : PcmParams) : List Char :=
  if params.dir = .none then "PCM route ".toList ++ description
  else
    "PCM ".toList ++ (if params.dir = .input then "recording" else "playback").toList ++
      ' ' :: description ++ " (".toList ++ streamName params ++ ")".toList

/-- The name of a test case with any other number of streams. -/
def multiName (description : List Char) (params : List PcmParams) : List Char :=
  let rec_ := params.any fun p => p.dir == .input
  let play := params.any fun p => p.dir == .output
  (if rec_ && play then "PCM playback and recording" else if rec_ then "PCM recording"
    else "PCM playback").toList ++ ' ' :: description ++
    params.flatMap fun p =>
      " (".toList ++ (if p.dir = .input then "r" else "p").toList ++ ' ' :: streamName p ++
        ")".toList

def caseName (description : List Char) (params : List PcmParams) : List Char :=
  match params with
  | [p] => simpleName description p
  | ps => multiName description ps

/-- The name is written to 256 bytes for each stream. -/
def writeName (testset : AlsaTestset) (params : List PcmParams) :
    Except GenStop (List Char) :=
  let name := caseName testset.description params
  if name.length < 256 * testset.pcms.length then .ok name else .error (.fault .outOfBounds)

/-- The longest duration, which is not negative. -/
def maxDuration (params : List PcmParams) : Int :=
  params.foldl (fun timeout p => if p.duration > timeout then p.duration else timeout) 0

/-- The timeout of a test case in milliseconds. -/
def caseTimeout (testset : AlsaTestset) (params : List PcmParams) : Except GenStop Int := do
  let timeout ← checkInt (maxDuration params * 2)
  let timeout ← checkInt (timeout + 5)
  let timeout ← checkInt (timeout * 1000)
  if testset.tuner.device ≠ [] ∨ testset.btaudio.remoteMac ≠ [] then
    checkInt (timeout + 60 * 1000)
  else .ok timeout

/-! ## The tables -/

/-- The two tables.  The parameters of a static case are not written. -/
structure Tables where
  testcases : List (Option TestcaseParams)
  cases : List CliTestcase
  deriving DecidableEq

/-- The parameters of a case that is named: its entry in the table is read. -/
def readTestcase (tables : Tables) : Except GenStop TestcaseParams :=
  match tables.testcases[tables.cases.length]? with
  | some (some testcase) => .ok testcase
  | some none => .error .unset
  | none => .error (.fault .outOfBounds)

/-- The second pass: `count` cases get their names, timeouts and settings. -/
def nameCases (conf : AlsaConfiguration) (testset : AlsaTestset) :
    Nat → Tables → Except GenStop Tables
  | 0, tables => .ok tables
  | count + 1, tables => do
      let testcase ← readTestcase tables
      let name ← writeName testset testcase.params
      let timeout ← caseTimeout testset testcase.params
      let refs : TestcaseRefs :=
        { defControlRef := conf.defCtls, controlRef := testset.ctls, tuner := testset.tuner,
          btaudio := testset.btaudio }
      nameCases conf testset count
        { testcases := tables.testcases.set tables.cases.length
            (some { testcase with refs := some refs })
          cases := tables.cases ++ [⟨name, .playRecPcm, timeout⟩] }

/-- A testset. -/
def generateTestset (conf : AlsaConfiguration) (testset : AlsaTestset)
    (paramCount : List (Option Nat)) (tables : Tables) :
    Except GenStop (List (Option Nat) × Tables) := do
  let r ← collectParams testset.pcms 0 paramCount
  let count ← countCases testset.pcms.length r.2
  let _ ← checkCount (tables.cases.length + count)
  let combinations := combineParams r.1 count (List.replicate r.1.length 0)
  let tables ← nameCases conf testset count
    { tables with testcases := tables.testcases ++ combinations.map some }
  .ok (r.2, tables)

def generateTestsets (conf : AlsaConfiguration) : List AlsaTestset → List (Option Nat) →
    Tables → Except GenStop Tables
  | [], _, tables => .ok tables
  | testset :: testsets, paramCount, tables => do
      let r ← generateTestset conf testset paramCount tables
      generateTestsets conf testsets r.1 r.2

/-- `generate_pcm_testcase_list`.  The list of cases ends with an entry of its own. -/
def generatePcmTestcaseList (conf : AlsaConfiguration) : Except GenStop Tables := do
  let tables ← generateTestsets conf conf.testsets (List.replicate maxStreams none)
    { testcases := List.replicate bltsAlsaCases.length none, cases := bltsAlsaCases }
  let _ ← checkCount (tables.cases.length + 1)
  .ok tables

end Blts.Alsa
