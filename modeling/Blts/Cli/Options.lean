import Mathlib.Logic.Function.Basic
import Blts.Fault
import Blts.Params.BoxedValue

/-!
# The option loop of `blts_cli_main`

The selected tests are kept in `test_list`, a block of `MAX_ARGS` numbers that a
zero ends.  `-e` fills it from a list of numbers, `-en` appends the number of the
test with a name.  Memory that has not been written holds anything: `Memory` says
what the block and the buffer of `parse_test_list` hold before.

The options that only concern the log take their arguments and are not kept.
-/

namespace Blts.Cli

open Blts.Params

/-! ## Numbers in strings -/

/-- `isspace`. -/
def isSpace (c : Char) : Bool :=
  c == ' ' || (9 ≤ c.toNat && c.toNat ≤ 13)

/-- The value of a digit in bases up to 16. -/
def digitValue (c : Char) : Option Nat :=
  if '0' ≤ c ∧ c ≤ '9' then some (c.toNat - 48)
  else if 'a' ≤ c ∧ c ≤ 'f' then some (c.toNat - 87)
  else if 'A' ≤ c ∧ c ≤ 'F' then some (c.toNat - 55)
  else none

/-- The number that the leading digits make. -/
def readDigits (base : Nat) : List Char → Nat → Nat
  | [], acc => acc
  | c :: cs, acc =>
      match digitValue c with
      | some d => if d < base then readDigits base cs (acc * base + d) else acc
      | none => acc

/-- A sign and what follows it. -/
def readSign : List Char → Int × List Char
  | '-' :: cs => (-1, cs)
  | '+' :: cs => (1, cs)
  | cs => (1, cs)

/-- `atoi`, where the number is an `int`. -/
def atoi (s : List Char) : Int :=
  let (sign, digits) := readSign (s.dropWhile isSpace)
  sign * readDigits 10 digits 0

/-- `strtol(s, NULL, 0)`; there is no result if `errno` is set. -/
def strtol (s : List Char) : Option Int :=
  let (sign, digits) := readSign (s.dropWhile isSpace)
  let value := match digits with
    | '0' :: x :: c :: cs =>
        if (x = 'x' ∨ x = 'X') ∧ (digitValue c).isSome then readDigits 16 (c :: cs) 0
        else readDigits 8 digits 0
    | '0' :: cs => readDigits 8 cs 0
    | cs => readDigits 10 cs 0
  let value := sign * value
  if -9223372036854775808 ≤ value ∧ value < 9223372036854775808 then some value else none

/-- A `long` stored in an `int`. -/
def toInt (x : Int) : Int :=
  (x + 2147483648) % 4294967296 - 2147483648

/-! ## The selected tests -/

/-- `MAX_ARGS`. -/
def maxArgs : Nat := 256

/-- The size of the buffer in `parse_test_list`. -/
def tmpSize : Nat := 8

/-- The cells of `test_list`. -/
abbrev TestList := Nat → Int

/-- `test_list[i] = num`. -/
def setTest (list : TestList) (i : Nat) (num : Int) : Except Fault TestList :=
  if i < maxArgs then .ok (Function.update list i num) else .error .outOfBounds

/-- The loop of `parse_test_list`: `p` numbers have been written, and the buffer
holds `tmp`, of which the first `i` characters are new.  The result is empty if
the function returns 0. -/
def parseTestListLoop : List Char → Nat → Nat → List Char → TestList →
    Except Fault (Option (Nat × Nat × List Char × TestList))
  | [], p, i, tmp, out => .ok (some (p, i, tmp, out))
  | c :: cs, p, i, tmp, out =>
      if c = ',' then
        match setTest out p (atoi tmp) with
        | .error f => .error f
        | .ok out =>
            if p + 1 ≥ maxArgs - 1 then .ok (some (p + 1, 0, tmp, out))
            else parseTestListLoop cs (p + 1) 0 tmp out
      else if i ≥ tmpSize then .ok none
      -- `tmp[i++] = c; tmp[i] = 0`
      else if i + 1 < tmpSize then
        parseTestListLoop cs p (i + 1) (tmp.take i ++ [c]) out
      else .error .outOfBounds

/-- `parse_test_list`: the number of tests and the list. -/
def parseTestList (list : List Char) (tmp : List Char) (out : TestList) :
    Except Fault (Nat × TestList) := do
  match ← parseTestListLoop list 0 0 tmp out with
  | none => return (0, out)
  | some (p, i, tmp, out) =>
      if i ≠ 0 then
        let out ← setTest out p (atoi tmp)
        let out ← setTest out (p + 1) 0
        return (p + 1, out)
      else
        let out ← setTest out p 0
        return (p, out)

/-- `find_test_by_name`. -/
def findTestByName (names : List String) (name : String) : Int :=
  match names.findIdx? fun n => n == name with
  | some t => t
  | none => -1

/-! ## The options -/

/-- The options of the command line. -/
inductive CliFlag where
  | e
  | en
  | s
  | help
  | auto
  | config
  | xml
  | axml
  | csv
  | acsv
  | syncprep
  | sync
  /-- `-l`, which takes a file name -/
  | log
  /-- `-v`, `-vv` and `-strace` -/
  | verbose
  /-- an argument for the test module -/
  | other
  deriving DecidableEq

def cliFlag (arg : String) : CliFlag :=
  if arg = "-e" then .e
  else if arg = "-en" then .en
  else if arg = "-s" then .s
  else if arg = "-?" then .help
  else if arg = "-l" then .log
  else if arg = "-auto" then .auto
  else if arg = "-v" then .verbose
  else if arg = "-vv" then .verbose
  else if arg = "-strace" then .verbose
  else if arg = "-C" then .config
  else if arg = "-xml" then .xml
  else if arg = "-axml" then .axml
  else if arg = "-csv" then .csv
  else if arg = "-acsv" then .acsv
  else if arg = "-syncprep" then .syncprep
  else if arg = "-sync" then .sync
  else .other

/-- Whether the next argument belongs to the option. -/
def CliFlag.takesArgument : CliFlag → Bool
  | .e | .en | .log | .config | .xml | .axml | .csv | .acsv | .syncprep => true
  | _ => false

/-- The variables that the options set. -/
structure CliOptions where
  testList : TestList
  numTests : Nat
  wantTestList : Bool
  manualExecution : Bool
  usedConfigFile : Option String
  xmlResultFile : Option String
  xmlAppendResults : Bool
  csvResultFile : Option String
  csvAppendResults : Bool
  syncMasterModeClientCount : Int
  syncClientMode : Bool
  processedArgv : List String

/-- Where `blts_cli_main` ends before it has read all options, or goes to its
label `cleanup`. -/
inductive CliStop where
  | fault (f : Fault)
  | cleanup (result : Int)
  deriving DecidableEq

/-- What memory holds that has not been written: `test_list`, and the buffer of
`parse_test_list` when so many arguments are left. -/
structure Memory where
  testList : TestList
  tmp : Nat → List Char

def CliOptions.initial (mem : Memory) (argv0 : String) : CliOptions where
  testList := mem.testList
  numTests := 0
  wantTestList := false
  manualExecution := true
  usedConfigFile := none
  xmlResultFile := none
  xmlAppendResults := false
  csvResultFile := none
  csvAppendResults := false
  syncMasterModeClientCount := 0
  syncClientMode := false
  processedArgv := [argv0]

/-- An operation that may stop the program. -/
def liftFault {α : Type} : Except Fault α → Except CliStop α
  | .error f => .error (.fault f)
  | .ok a => .ok a

/-- An option without an argument of its own. -/
def runFlag (flag : CliFlag) (arg : String) (o : CliOptions) : Except CliStop CliOptions :=
  match flag with
  | .s => .ok { o with wantTestList := true }
  | .help => .error (.cleanup 0)
  | .auto => .ok { o with manualExecution := false }
  | .sync => .ok { o with syncClientMode := true }
  | .other =>
      if o.processedArgv.length ≥ maxArgs then .error (.cleanup (-einval))
      else .ok { o with processedArgv := o.processedArgv ++ [arg] }
  | _ => .ok o

/-- An option with its argument; `tmp` is the buffer of `parse_test_list`. -/
def runOption (names : List String) (tmp : List Char) (flag : CliFlag) (arg : String)
    (o : CliOptions) : Except CliStop CliOptions :=
  match flag with
  | .e => do
      let (numTests, testList) ← liftFault (parseTestList arg.toList tmp o.testList)
      if numTests = 0 then .error (.cleanup (-einval))
      else .ok { o with numTests := numTests, testList := testList }
  | .en => do
      let num := findTestByName names arg + 1
      let testList ← liftFault (setTest o.testList o.numTests num)
      if num = 0 then .error (.cleanup (-einval))
      else
        let testList ← liftFault (setTest testList (o.numTests + 1) 0)
        .ok { o with numTests := o.numTests + 1, testList := testList }
  | .config =>
      if o.usedConfigFile.isSome then .error (.cleanup (-einval))
      else .ok { o with usedConfigFile := some arg }
  | .xml => .ok { o with xmlResultFile := some arg }
  | .axml => .ok { o with xmlResultFile := some arg, xmlAppendResults := true }
  | .csv => .ok { o with csvResultFile := some arg }
  | .acsv => .ok { o with csvResultFile := some arg, csvAppendResults := true }
  | .syncprep =>
      match strtol arg.toList with
      | none => .error (.cleanup (-einval))
      | some count =>
          if toInt count < 1 then .error (.cleanup (-einval))
          else .ok { o with syncMasterModeClientCount := toInt count }
  | _ => .ok o

/-- The loop over the arguments. -/
def parseArguments (names : List String) (mem : Memory) :
    List String → CliOptions → Except CliStop CliOptions
  | [], o => .ok o
  | arg :: args, o =>
      if (cliFlag arg).takesArgument then
        match args with
        | [] => .error (.cleanup (-einval))
        | value :: args => do
            let o ← runOption names (mem.tmp args.length) (cliFlag arg) value o
            parseArguments names mem args o
      else do
        let o ← runFlag (cliFlag arg) arg o
        parseArguments names mem args o

end Blts.Cli
