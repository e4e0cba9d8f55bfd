import Mathlib.Algebra.Order.Field.Rat
import Mathlib.Data.List.Sort
import Mathlib.Logic.Function.Iterate

/-!
# The verdict of a measuring test

`MwtsResult` collects steps, errors and measures in iterations and gives the
verdict of a test case.  Iterations are objects that the list, the current and
the initial iteration point to, so they are kept in a memory of their own: the
initial iteration is not in the list until a report puts it there, and it is the
same object then.

Measures are exact numbers.  The standard deviation is a square root that is
only printed, so it is left out.
-/

namespace Blts.Mwts

/-! ## Iterations -/

/-- `MwtsMeasure`. -/
structure MwtsMeasure where
  name : String
  value : ℚ
  unit : String
  deriving DecidableEq

/-- `MwtsStep`. -/
structure MwtsStep where
  name : String
  passed : Bool
  deriving DecidableEq

/-- `MwtsIteration`. -/
structure MwtsIteration where
  listMeasures : List MwtsMeasure
  listErrors : List String
  listSteps : List MwtsStep
  deriving DecidableEq

namespace MwtsIteration

/-- `new MwtsIteration`. -/
def new : MwtsIteration where
  listMeasures := []
  listErrors := []
  listSteps := []

/-- `MwtsIteration::IsPassed`. -/
def isPassed (it : MwtsIteration) : Bool :=
  if it.listErrors.length > 0 then false
  else it.listSteps.all MwtsStep.passed

def addMeasure (it : MwtsIteration) (measure : MwtsMeasure) : MwtsIteration :=
  { it with listMeasures := it.listMeasures ++ [measure] }

def addStep (it : MwtsIteration) (step : MwtsStep) : MwtsIteration :=
  { it with listSteps := it.listSteps ++ [step] }

def addError (it : MwtsIteration) (error : String) : MwtsIteration :=
  { it with listErrors := it.listErrors ++ [error] }

end MwtsIteration

/-! ## Statistics -/

/-- `MwtsStatistics`. -/
structure MwtsStatistics where
  max : ℚ
  min : ℚ
  mean : ℚ
  median : ℚ
  deriving DecidableEq

/-- The constructor of `MwtsStatistics`. -/
def MwtsStatistics.new (values : List ℚ) : MwtsStatistics :=
  match values with
  | [] => { max := 0, min := 0, mean := 0, median := 0 }
  | [v] => { max := v, min := v, mean := v, median := v }
  | values =>
      let sorted := values.insertionSort (· ≤ ·)
      { max := sorted.getLastD 0
        min := sorted.headD 0
        mean := values.sum / values.length
        median := sorted.getD (values.length / 2) 0 }

/-! ## Results -/

/-- A pointer to an iteration. -/
abbrev IterationRef := Nat

/-- `MwtsResult`, with the iterations that its pointers lead to. -/
structure MwtsResult where
  iterations : IterationRef → MwtsIteration
  allocated : Nat
  listIterations : List IterationRef
  currentIteration : IterationRef
  initIteration : IterationRef
  nIteration : Nat
  target : ℚ
  failLimit : ℚ
  resultFilter : String

/-- What a report says about the measures. -/
structure MeasureReport where
  measureName : String
  measureUnit : String
  stats : MwtsStatistics
  limitExceeded : Bool
  deriving DecidableEq

/-- What a report says. -/
structure Report where
  nIterations : Nat
  nPassedIterations : Nat
  measures : Option MeasureReport
  passed : Bool
  deriving DecidableEq

namespace MwtsResult

/-- The constructor of `MwtsResult`. -/
def new : MwtsResult where
  iterations := fun _ => .new
  allocated := 1
  listIterations := []
  currentIteration := 0
  initIteration := 0
  nIteration := 0
  target := 0
  failLimit := 0
  resultFilter := ""

/-- Change the iteration that `m_pCurrentIteration` points to. -/
def modifyCurrent (f : MwtsIteration → MwtsIteration) (s : MwtsResult) : MwtsResult :=
  { s with
    iterations := Function.update s.iterations s.currentIteration
      (f (s.iterations s.currentIteration)) }

/-- `MwtsResult::AddError`. -/
def addError (s : MwtsResult) (error : String) : MwtsResult :=
  s.modifyCurrent fun it => it.addError error

/-- `MwtsResult::StepPassed`. -/
def stepPassed (s : MwtsResult) (step : String) (passed : Bool) : MwtsResult :=
  s.modifyCurrent fun it => it.addStep { name := step, passed := passed }

/-- `MwtsResult::SetLimits`. -/
def setLimits (s : MwtsResult) (target fail : ℚ) : MwtsResult :=
  { s with failLimit := fail, target := target }

/-- `MwtsResult::SetResultFilter`. -/
def setResultFilter (s : MwtsResult) (filter : String) : MwtsResult :=
  { s with resultFilter := filter }

/-- `MwtsResult::AddMeasure`; `contains` is that of `QString`, without regard to
case. -/
def addMeasure (contains : String → String → Bool) (s : MwtsResult) (name : String)
    (value : ℚ) (unit : String) : MwtsResult :=
  if s.resultFilter ≠ "" ∧ contains name s.resultFilter = false then s
  else s.modifyCurrent fun it =>
    it.addMeasure { name := name, value := value, unit := unit }

/-- `MwtsResult::NextIteration`. -/
def nextIteration (s : MwtsResult) : MwtsResult :=
  { s with
    iterations := Function.update s.iterations s.allocated .new
    allocated := s.allocated + 1
    listIterations := s.listIterations ++ [s.allocated]
    currentIteration := s.allocated
    nIteration := s.nIteration + 1 }

/-- `MwtsResult::IsLimitExceeded`. -/
def isLimitExceeded (s : MwtsResult) (stats : MwtsStatistics) : Bool :=
  let biggerIsBetter := !decide (s.failLimit > s.target)
  if biggerIsBetter && decide (stats.median < s.failLimit) then false
  else if !biggerIsBetter && decide (stats.median > s.failLimit) then false
  else true

/-- The loop of `MwtsResult::IsPassed`; `none` is a verdict that is given
inside. -/
def passedValues : List MwtsIteration → List ℚ → Option (List ℚ)
  | [], values => some values
  | it :: its, values =>
      if it.isPassed = false then none
      else
        match it.listMeasures with
        | [] => passedValues its values
        | [measure] => passedValues its (values ++ [measure.value])
        | _ => none

/-- `MwtsResult::IsPassed`. -/
def isPassed (s : MwtsResult) : Bool :=
  if (s.iterations s.initIteration).isPassed = false then false
  else
    match passedValues (s.listIterations.map s.iterations) [] with
    | none => false
    | some [] => true
    | some values => s.isLimitExceeded (.new values)

/-- The measures that `MwtsResult::WriteReport` looks at. -/
def reportedMeasures : List MwtsIteration → List MwtsMeasure
  | [] => []
  | it :: its =>
      match it.listMeasures with
      | [measure] => measure :: reportedMeasures its
      | _ => reportedMeasures its

/-- What `MwtsResult::WriteReport` says about the measures. -/
def measureReport (s : MwtsResult) (measures : List MwtsMeasure) : Option MeasureReport :=
  measures.getLast?.map fun measure =>
    let stats := MwtsStatistics.new (measures.map MwtsMeasure.value)
    { measureName := measure.name
      measureUnit := measure.unit
      stats := stats
      limitExceeded := s.isLimitExceeded stats }

/-- `MwtsResult::WriteReport`: what it writes and what it leaves. -/
def writeReport (s : MwtsResult) : Report × MwtsResult :=
  let s' := if s.listIterations.length = 0 then
      { s with listIterations := s.listIterations ++ [s.initIteration] }
    else s
  let its := s'.listIterations.map s'.iterations
  ({ nIterations := its.length
     nPassedIterations := its.countP MwtsIteration.isPassed
     measures := s'.measureReport (reportedMeasures its)
     passed := s'.isPassed }, s')

end MwtsResult

/-! ## Calls -/

/-- The calls that a test makes before its report. -/
inductive ResultCall where
  | stepPassed (step : String) (passed : Bool)
  | addMeasure (name : String) (value : ℚ) (unit : String)
  | addError (error : String)
  | setLimits (target fail : ℚ)
  | setResultFilter (filter : String)
  | nextIteration
  deriving DecidableEq

/-- One call. -/
def ResultCall.run (contains : String → String → Bool) (s : MwtsResult) :
    ResultCall → MwtsResult
  | .stepPassed step passed => s.stepPassed step passed
  | .addMeasure name value unit => s.addMeasure contains name value unit
  | .addError error => s.addError error
  | .setLimits target fail => s.setLimits target fail
  | .setResultFilter filter => s.setResultFilter filter
  | .nextIteration => s.nextIteration

/-- The result after some calls. -/
def collected (contains : String → String → Bool) (cs : List ResultCall) : MwtsResult :=
  cs.foldl (ResultCall.run contains) .new

/-- The result after some reports. -/
def reportedTimes (n : Nat) (s : MwtsResult) : MwtsResult :=
  (fun s => s.writeReport.2)^[n] s

end Blts.Mwts
