import Blts.Params.Declare
import Blts.Params.Variations

/-!
# `run_test`

One test case is run in a child process for each of its variants, or once if it
has none.  What a child does is up to the test case: `Pass` holds what the
parent sees of it.  The parent collects the failed variants in a list, the last
one first, and writes one result case at the end.

The calls of the result writer are kept in order; log output and the signal
handlers are not modelled.
-/

namespace Blts.Cli

open Blts.Params

/-- How a child process ends: with the status that `waitpid` stores, or by the
timeout. -/
inductive Completion where
  | status (ret : Int)
  | timeout
  deriving DecidableEq

/-- `wait_for_test_case_completion`. -/
def waitForTestCaseCompletion : Completion → Int
  | .status ret => if ret ≠ 0 then 1 else 0
  | .timeout => 1

/-- One pass of the loop of `run_test`, as the parent sees it; there is no
completion if `fork` fails. -/
structure Pass where
  completion : Option Completion
  startTime : Int
  endTime : Int

/-- What `run_test` is called with, and what happens while it runs. -/
structure TestRun where
  table : SymbolTable
  testnum : Int
  caseName : String
  cmdline : String
  manualExecution : Bool
  /-- The passes in order. -/
  passes : Nat → Pass
  totalStart : Int
  totalEnd : Int

/-- A child process: the test number and, for a variant, the call that sets the
user pointer. -/
structure Child where
  testnum : Int
  handler : Option HandlerCall
  deriving DecidableEq

/-- `struct result_list`. -/
structure ResultList where
  startTime : Int
  endTime : Int
  index : Nat
  values : List BoxedValue
  deriving DecidableEq

/-- What is printed in `Variant %d failed, parameters: %s`. -/
structure FailureInfo where
  variant : Int
  paramNames : List String
  values : List BoxedValue
  deriving DecidableEq

/-- The calls that write results. -/
inductive ResultCall where
  | startCase (name : String) (manual : Bool) (result : Int)
  | writeStep (expectedResult returnCode startTime endTime : Int) (cmdline : String)
      (failureInfo : Option FailureInfo)
  | endCase
  deriving DecidableEq

/-- An `unsigned` as `%d` prints it. -/
def printedInt (x : Nat) : Int :=
  if x < 2147483648 then x else (x : Int) - 4294967296

/-- `blts_config_boxed_value_list_dup`, which looks at the second value before
it has seen a first one. -/
def bltsConfigBoxedValueListDup : List BoxedValue → Except Fault (List BoxedValue)
  | [] => .error .nullDeref
  | v :: values => .ok (v :: values)

/-- The variables of `run_test`, with the child processes so far. -/
structure RunState where
  nVariations : Nat
  failedVariants : List ResultList
  ret : Int
  children : List Child
  deriving DecidableEq

/-- Where the loop ends early. -/
inductive RunStop where
  | fault (f : Fault)
  | forkFailed (children : List Child)
  deriving DecidableEq

def RunState.initial : RunState where
  nVariations := 0
  failedVariants := []
  ret := 0
  children := []

/-- The child process of a pass. -/
def TestRun.child (run : TestRun) (variant : Option (List BoxedValue)) : Child where
  testnum := run.testnum
  handler := variant.bind fun values =>
    bltsConfigMutateUserParams run.table run.caseName values

/-- One pass of the loop; there is no variant in the only pass of a test without
variants. -/
def runPass (run : TestRun) (variant : Option (List BoxedValue)) (s : RunState) :
    Except RunStop RunState :=
  let pass := run.passes s.children.length
  match pass.completion with
  | none => .error (.forkFailed s.children)
  | some completion =>
      let s' := {
        nVariations := (s.nVariations + 1) % uintMod
        failedVariants := s.failedVariants
        ret := waitForTestCaseCompletion completion
        children := s.children ++ [run.child variant] : RunState }
      match variant with
      | none => .ok s'
      | some values =>
          if s'.ret ≠ 0 then
            match bltsConfigBoxedValueListDup values with
            | .error f => .error (.fault f)
            | .ok values => .ok { s' with failedVariants := {
                startTime := pass.startTime
                endTime := pass.endTime
                index := s'.nVariations
                values := values } :: s'.failedVariants }
          else .ok s'

/-- The loop, which makes one pass before it looks for variants. -/
def runLoop (run : TestRun) : List (List BoxedValue) → RunState → Except RunStop RunState
  | [], s => runPass run none s
  | [values], s => runPass run (some values) s
  | values :: next :: variants, s => do
      let s ← runPass run (some values) s
      runLoop run (next :: variants) s

/-- The result of `run_test`, with the children it ran and the results it
wrote. -/
structure TestResult where
  ret : Int
  children : List Child
  calls : List ResultCall
  deriving DecidableEq

/-- The step of a failed variant. -/
def TestRun.failedStep (run : TestRun) (paramNames : List String) (ret : Int)
    (r : ResultList) : ResultCall :=
  .writeStep 0 ret r.startTime r.endTime run.cmdline
    (some ⟨printedInt r.index, paramNames, r.values⟩)

/-- `run_test` after it has found the variants. -/
def runTestVariants (run : TestRun) (paramNames : List String)
    (variants : List (List BoxedValue)) : Except Fault TestResult :=
  match runLoop run variants .initial with
  | .error (.fault f) => .error f
  | .error (.forkFailed children) => .ok { ret := 1, children := children, calls := [] }
  | .ok s =>
      let ret := if s.failedVariants ≠ [] then 1 else s.ret
      let steps :=
        if s.failedVariants ≠ [] then s.failedVariants.map (run.failedStep paramNames ret)
        else [.writeStep 0 ret run.totalStart run.totalEnd run.cmdline none]
      .ok {
        ret := ret
        children := s.children
        calls := .startCase run.caseName run.manualExecution ret :: steps ++ [.endCase] }

/-- `blts_config_get_test_param_names`. -/
def bltsConfigGetTestParamNames (table : SymbolTable) (testname : String) :
    Except Fault (List String) := do
  let (err, c) ← collectTestParams table testname
  if err ≠ 0 then
    return []
  c.testParams.mapM fun p =>
    match SymbolTable.entry? table p.param with
    | some e => .ok e.key
    | none => .error .nullDeref

/-- `run_test`. -/
def runTest (run : TestRun) (gen : GenFuncs) (fuel : Nat) : Except Fault TestResult :=
  if bltsConfigTestIsVariable run.table run.caseName then do
    let variants ← bltsConfigGenerateTestVariations run.table gen fuel run.caseName
      .combinations
    let names ← bltsConfigGetTestParamNames run.table run.caseName
    runTestVariants run names variants
  else runTestVariants run [] []

end Blts.Cli
