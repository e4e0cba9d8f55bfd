import Blts.Cli.Options
import Blts.Cli.RunTest
import Blts.Config.Calls

/-!
# `blts_cli_main`

After the options come the stages that may end the program before a test is run:
the setup for synchronized runs, the configuration file, the arguments of the
test module, the listing of the tests and the result files.  Then the selected
tests are run, or all of them.

`Program` is the test module with the environment that it runs in.
-/

namespace Blts.Cli

open Blts.Params Blts.Config

/-- What the environment does during one call of `run_test`. -/
structure TestEvents where
  passes : Nat → Pass
  totalStart : Int
  totalEnd : Int

/-- The test module, and what the calls of `blts_cli_main` meet. -/
structure Program where
  /-- `argv[0]` -/
  argv0 : String
  /-- The names of the test cases. -/
  names : List String
  /-- `blts_cli_process_arguments`, which may declare tests; it succeeds unless it
  returns a null pointer. -/
  processArguments : Option (List String → ConfigState → Bool × ConfigState)
  /-- What the module has declared before. -/
  config : ConfigState
  mem : Memory
  /-- `BLTS_CONFIG_DIR` -/
  configDir : String
  files : String → Except Nat (List Token × Bool)
  bltsSyncMasterInit : Int → Int
  bltsSyncClientInit : Int
  xmlResultOpen : String → Bool → Int
  csvResultFileOpen : String → Bool → Int
  /-- The events of each call of `run_test`, in order. -/
  tests : Nat → TestEvents
  gen : GenFuncs
  fuel : Nat

/-- The file name in a path. -/
def binFname (argv0 : String) : String :=
  String.ofList ((argv0.toList.reverse.takeWhile (· ≠ '/')).reverse)

/-- The configuration file, and whether it is given by an option. -/
def Program.configFile (prog : Program) (o : CliOptions) : String × Bool :=
  match o.usedConfigFile with
  | some file => (file, true)
  | none => (prog.configDir ++ "/" ++ binFname prog.argv0 ++ ".cnf", false)

/-- `config_generate_testset_tests`, which is not implemented. -/
def configGenerateTestsetTests : Int × List String :=
  (0, [])

/-- `blts_config_add_testcases`. -/
def bltsConfigAddTestcases (names : List String) : Int × List String :=
  let (ret, newCases) := configGenerateTestsetTests
  if ret < 0 then (ret, names) else (0, names ++ newCases)

/-- The setup for synchronized runs. -/
def setupSync (prog : Program) (o : CliOptions) : Except CliStop Unit :=
  if o.syncMasterModeClientCount ≠ 0 then
    .error (.cleanup (prog.bltsSyncMasterInit o.syncMasterModeClientCount))
  else if o.syncClientMode ∧ prog.bltsSyncClientInit ≠ 0 then
    .error (.cleanup prog.bltsSyncClientInit)
  else .ok ()

/-- The configuration: the test cases and the state it leaves. -/
def loadConfig (prog : Program) (o : CliOptions) (s : ConfigState) :
    Except CliStop (List String × ConfigState) := do
  let (file, configFileGiven) := prog.configFile o
  let (result, s) ← liftFault (bltsConfigLoadFromFile s (prog.files file))
  if result = -enoent then
    if configFileGiven then .error (.cleanup result)
    else .ok (prog.names, s)
  else if result < 0 then .error (.cleanup result)
  else
    let (err, names) := bltsConfigAddTestcases prog.names
    if err < 0 then .error (.cleanup (-einval))
    else .ok (names, s)

/-- The arguments of the test module. -/
def processModuleArguments (prog : Program) (o : CliOptions) (s : ConfigState) :
    Except CliStop ConfigState :=
  match prog.processArguments with
  | none => .ok s
  | some process =>
      let (ok, s) := process o.processedArgv s
      if ok then .ok s else .error (.cleanup (-einval))

/-- The listing of the tests, and the result files. -/
def openResults (prog : Program) (o : CliOptions) : Except CliStop Unit :=
  if o.wantTestList then .error (.cleanup 0)
  else if o.xmlResultFile.any fun f => prog.xmlResultOpen f o.xmlAppendResults ≠ 0 then
    .error (.cleanup (-einval))
  else if o.csvResultFile.any fun f => prog.csvResultFileOpen f o.csvAppendResults ≠ 0 then
    .error (.cleanup (-einval))
  else .ok ()

/-- What is reached before the tests: the test cases and the configuration. -/
def prepare (prog : Program) (o : CliOptions) (s : ConfigState) :
    Except CliStop (List String × ConfigState) := do
  setupSync prog o
  let (names, s) ← loadConfig prog o s
  let s ← processModuleArguments prog o s
  openResults prog o
  return (names, s)

/-! ## Running the tests -/

/-- A test number that the run loop has come to, and the result of `run_test` if
there is such a test. -/
structure Visit where
  num : Int
  ran : Option TestResult
  deriving DecidableEq

/-- `result` with the tests that have been visited. -/
structure Totals where
  result : Int
  visits : List Visit
  deriving DecidableEq

def Totals.initial : Totals where
  result := 0
  visits := []

/-- The name of the test with a number. -/
def testName (names : List String) (num : Int) : Option String :=
  if num > names.length ∨ num < 1 then none else names[num.toNat - 1]?

/-- What `run_test` is called with when the run loop has visited `t` tests. -/
def Program.testRun (prog : Program) (o : CliOptions) (s : ConfigState) (args : List String)
    (t : Nat) (num : Int) (name : String) : TestRun where
  table := s.table
  testnum := num
  caseName := name
  cmdline := String.intercalate " " (prog.argv0 :: args)
  manualExecution := o.manualExecution
  passes := (prog.tests t).passes
  totalStart := (prog.tests t).totalStart
  totalEnd := (prog.tests t).totalEnd

/-- One turn of the run loop for a test number. -/
def visit (prog : Program) (names : List String) (testRun : Nat → Int → String → TestRun)
    (num : Int) (r : Totals) : Except Fault Totals :=
  match testName names num with
  | none => .ok { result := r.result + 1, visits := r.visits ++ [⟨num, none⟩] }
  | some name => do
      let out ← runTest (testRun r.visits.length num name) prog.gen prog.fuel
      return { result := r.result + out.ret, visits := r.visits ++ [⟨num, some out⟩] }

/-- The run loop over `test_list`, of which `n` cells from `t` on are left. -/
def runSelected (prog : Program) (names : List String)
    (testRun : Nat → Int → String → TestRun) (testList : TestList) :
    Nat → Nat → Totals → Except Fault Totals
  | 0, _, _ => .error .outOfBounds
  | n + 1, t, r =>
      if testList t = 0 then .ok r
      else do
        let r ← visit prog names testRun (testList t) r
        runSelected prog names testRun testList n (t + 1) r

/-- The run loop over all tests, `n` of which are left. -/
def runAllTests (prog : Program) (names : List String)
    (testRun : Nat → Int → String → TestRun) : Nat → Totals → Except Fault Totals
  | 0, r => .ok r
  | n + 1, r => do
      let r ← visit prog names testRun ((names.length - n : Nat) : Int) r
      runAllTests prog names testRun n r

/-- The tests given by options, or all of them. -/
def runTests (prog : Program) (o : CliOptions) (names : List String)
    (testRun : Nat → Int → String → TestRun) : Except Fault Totals :=
  if o.numTests ≠ 0 then runSelected prog names testRun o.testList maxArgs 0 .initial
  else runAllTests prog names testRun names.length .initial

/-- The result of `blts_cli_main`, with the tests that it has visited. -/
structure CliResult where
  result : Int
  visits : List Visit
  deriving DecidableEq

/-- The options, and what is reached before the tests. -/
def prepared (prog : Program) (args : List String) :
    Except CliStop (CliOptions × List String × ConfigState) := do
  let o ← parseArguments prog.names prog.mem args (.initial prog.mem prog.argv0)
  let (names, s) ← prepare prog o prog.config
  return (o, names, s)

/-- `blts_cli_main` on the arguments after `argv[0]`. -/
def bltsCliMain (prog : Program) (args : List String) : Except Fault CliResult :=
  match prepared prog args with
  | .error (.fault f) => .error f
  | .error (.cleanup result) => .ok { result := result, visits := [] }
  | .ok (o, names, s) => do
      let r ← runTests prog o names (prog.testRun o s args)
      return { result := r.result, visits := r.visits }

end Blts.Cli
