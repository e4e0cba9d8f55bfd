import Blts.Lib.Loop
import Blts.Mwts.Result

/-!
# The throughput measured with iperf

`MwtsIPerfThroughput` runs iperf as a client of one or of both directions, or as a server, and
reads the throughput from its output.  Only the client of one direction returns what the parser
found: for every other role `Exec` returns true when its event loop is over.

The parser starts from `true`, which the handler of a normal exit has set.  Each result line of
the output overwrites the verdict, up to the first shorter line: the last one counts, and if the
output begins with a shorter line, none.

What goes to the log only is left out.
-/

namespace Blts.Mwts

open Blts.Lib

/-- `IPERF_ROLE`. -/
inductive IperfRole where
  | client
  | biclient
  | server
  deriving DecidableEq

/-- What Qt makes of a text: `QString::trimmed`, and `QString::toULong` where it sets `ok`. -/
structure QtText where
  trimmed : List Char → List Char
  toULong : List Char → Option Nat

/-- What is written to `g_pResult`. -/
inductive ResultWrite where
  | write (text : String)
  | call (c : ResultCall)
  deriving DecidableEq

/-- The speed of a result line, in bits per second. -/
def QtText.speed? (q : QtText) (line : List Char) : Option Nat :=
  q.toULong (q.trimmed ((line.splitOn ',').getD 8 []))

/-- A line has the fields of a result. -/
def resultFields (line : List Char) : Bool := 9 ≤ (line.splitOn ',').length

def mbits (speed : Nat) : ℚ := speed / 1000 / 1000

/-! ## The parser -/

/-- `m_pReturnValue`, `iBidirectionalStep`, and what has been written. -/
structure Parsing where
  returnValue : Bool
  bidirectionalStep : Nat
  writes : List ResultWrite

namespace Parsing

def write (s : Parsing) (text : String) : Parsing :=
  { s with writes := s.writes ++ [.write text] }

def addMeasure (s : Parsing) (name : String) (value : ℚ) : Parsing :=
  { s with writes := s.writes ++ [.call (.addMeasure name value "Mbits per second")] }

/-- The step is written, and is the verdict so far. -/
def stepPassed (s : Parsing) (passed : Bool) : Parsing :=
  { s with
    returnValue := passed
    writes := s.writes ++ [.call (.stepPassed "Throughput" passed)] }

/-- The speed of a line cannot be read. -/
def unreadable (s : Parsing) : Parsing :=
  (s.write "Failed to convert speed from string to double!").stepPassed false

end Parsing

/-- A line of the output of a client of both directions. -/
def bidirectionalLine (q : QtText) (s : Parsing) (line : List Char) : Lap Parsing Parsing :=
  if (line.splitOn ',').length < 9 then .leave s
  else
    match q.speed? line with
    | none => .again s.unreadable
    | some speed =>
        if s.bidirectionalStep = 2 then
          let s := { s with bidirectionalStep := 1 }.addMeasure "Download" (mbits speed)
          if mbits speed = 0 then
            .leave ((s.write
              "Download speed is 0, iperf probably not running in the other end").stepPassed false)
          else .leave (s.stepPassed true)
        else .again { s with bidirectionalStep := s.bidirectionalStep + 1 }

/-- A line of any other output. -/
def singleLine (q : QtText) (s : Parsing) (line : List Char) : Lap Parsing Parsing :=
  if (line.splitOn ',').length < 9 then .leave s
  else
    match q.speed? line with
    | none => .again s.unreadable
    | some speed =>
        let s := s.addMeasure "Upload" (mbits speed)
        if mbits speed = 0 then
          .again ((s.write
            "Upload speed is 0, iperf probably not running in the other end").stepPassed false)
        else .again (s.stepPassed true)

/-- The loop over the lines. -/
def parseLines (body : Parsing → List Char → Lap Parsing Parsing) :
    List (List Char) → Parsing → Parsing
  | [], s => s
  | line :: lines, s =>
      match body s line with
      | .again s' => parseLines body lines s'
      | .leave s' => s'

/-- `MwtsIPerfThroughput::ParseOutput`. -/
def parseOutput (q : QtText) (role : IperfRole) (stdOut : List Char) (s : Parsing) : Parsing :=
  if 0 < stdOut.length then
    parseLines (if role = .biclient then bidirectionalLine q else singleLine q)
      (stdOut.splitOn '\n') s
  else (s.write "Failed to measure throughput!").stepPassed false

/-! ## The process -/

/-- `MwtsIPerfThroughput`: its parameters for iperf, its role, and its return value. -/
structure MwtsIPerfThroughput where
  params : List (List Char)
  role : IperfRole
  returnValue : Bool

inductive ExitStatus where
  | normalExit
  | crashExit
  deriving DecidableEq

/-- The signals of the process before it finishes. -/
inductive ProcessSignal where
  | started
  | error
  | stateChanged
  deriving DecidableEq

/-- A run of iperf. -/
structure IperfRun where
  signals : List ProcessSignal
  exitStatus : ExitStatus
  stdOut : List Char

namespace MwtsIPerfThroughput

/-- `MwtsIPerfThroughput::SetClientMeasurement`; a time that is not positive is the default
one. -/
def setClientMeasurement (s : MwtsIPerfThroughput) (serverIP : List Char) (transtime : Int)
    (direction : List Char) : MwtsIPerfThroughput :=
  let testtime := if transtime ≤ 0 then 180 else transtime
  let params := ["-t".toList, (toString testtime).toList, "-f".toList, "m".toList, "-c".toList,
    serverIP, "-y".toList, "C".toList]
  if direction.take 2 = "bi".toList then
    { s with role := .biclient, params := params ++ ["-r".toList] }
  else { s with role := .client, params := params }

/-- `MwtsIPerfThroughput::SetServerMeasurement`. -/
def setServerMeasurement (s : MwtsIPerfThroughput) : MwtsIPerfThroughput :=
  { s with
    role := .server
    params := ["-s".toList, "-f".toList, "m".toList, "-y".toList, "C".toList] }

/-- `onStarted`, `onError` and `onStateChanged`. -/
def onSignal (s : MwtsIPerfThroughput) : ProcessSignal → MwtsIPerfThroughput
  | .error => { s with returnValue := false }
  | .started | .stateChanged => s

/-- `MwtsIPerfThroughput::onFinished`, with what it writes. -/
def onFinished (q : QtText) (s : MwtsIPerfThroughput) (exitStatus : ExitStatus)
    (stdOut : List Char) : MwtsIPerfThroughput × List ResultWrite :=
  let parsed := parseOutput q s.role stdOut ⟨exitStatus = .normalExit, 1, []⟩
  ({ s with returnValue := parsed.returnValue }, parsed.writes)

/-- `MwtsIPerfThroughput::Exec`.  The event loop of a client runs until iperf has finished, that
of a server until it has started. -/
def exec (q : QtText) (s : MwtsIPerfThroughput) (run : IperfRun) :
    MwtsIPerfThroughput × List ResultWrite :=
  let s := run.signals.foldl onSignal { s with returnValue := false }
  match s.role with
  | .client => s.onFinished q run.exitStatus run.stdOut
  | .biclient =>
      let finished := s.onFinished q run.exitStatus run.stdOut
      ({ finished.1 with returnValue := true }, finished.2)
  | .server => ({ s with returnValue := true }, [])

theorem foldl_onSignal_role (signals : List ProcessSignal) (s : MwtsIPerfThroughput) :
    (signals.foldl onSignal s).role = s.role := by
  induction signals generalizing s with
  | nil => rfl
  | cons signal signals ih =>
      rw [List.foldl_cons, ih]
      cases signal <;> rfl

end MwtsIPerfThroughput

/-! ## What has been measured -/

/-- The lines of the output that hold a result. -/
def resultLines (stdOut : List Char) : List (List Char) :=
  (stdOut.splitOn '\n').filter resultFields

/-- The results that a client is to give. -/
def expectedResults : IperfRole → Nat
  | .biclient => 2
  | .client | .server => 1

/-- The speed of the line is an unsigned integer, and not 0. -/
def HasSpeed (q : QtText) (line : List Char) : Prop :=
  ∃ speed, q.speed? line = some speed ∧ speed ≠ 0

/-- The output has the expected results, each with a speed. -/
def Measured (q : QtText) (role : IperfRole) (stdOut : List Char) : Prop :=
  expectedResults role ≤ (resultLines stdOut).length ∧
    ∀ line ∈ (resultLines stdOut).take (expectedResults role), HasSpeed q line

/-- The lines that the parser looks at in a measurement of one direction. -/
def leadingResults (stdOut : List Char) : List (List Char) :=
  (stdOut.splitOn '\n').takeWhile resultFields

/-- The verdict on the output is that of its results.  For one direction: the first and the last
result before a shorter line both have a speed, or neither has; or there is no output; or a
shorter line comes first, and the result after it has a speed.  For both directions: the output
has the two results, each with a speed. -/
def Tellable (q : QtText) (role : IperfRole) (stdOut : List Char) : Prop :=
  if role = .client then
    match (leadingResults stdOut).head?, (leadingResults stdOut).getLast? with
    | some first, some last => HasSpeed q first ↔ HasSpeed q last
    | _, _ => stdOut = [] ∨ Measured q .client stdOut
  else Measured q role stdOut

theorem mbits_eq_zero_iff (speed : Nat) : mbits speed = 0 ↔ speed = 0 := by
  simp [mbits]

section Single

variable {q : QtText} {s : Parsing} {line : List Char}

/-- A shorter line ends the loop. -/
theorem singleLine_leave (h : ¬resultFields line = true) : singleLine q s line = .leave s := by
  rw [resultFields, decide_eq_true_eq, Nat.not_le] at h
  rw [singleLine, if_pos h]

/-- A result overwrites the verdict. -/
theorem singleLine_again (h : resultFields line = true) :
    ∃ s', singleLine q s line = .again s' ∧ (s'.returnValue = true ↔ HasSpeed q line) := by
  rw [resultFields, decide_eq_true_eq] at h
  rw [singleLine, if_neg (Nat.not_lt.mpr h)]
  cases hspeed : q.speed? line with
  | none =>
      refine ⟨s.unreadable, rfl, iff_of_false Bool.false_ne_true ?_⟩
      rintro ⟨speed, h, -⟩
      rw [hspeed] at h
      cases h
  | some speed =>
      have hhas : HasSpeed q line ↔ speed ≠ 0 := by
        constructor
        · rintro ⟨speed', h, hne⟩
          cases hspeed.symm.trans h
          exact hne
        · exact fun hne => ⟨speed, hspeed, hne⟩
      rw [hhas]
      by_cases hzero : mbits speed = 0
      · refine ⟨_, if_pos hzero, iff_of_false Bool.false_ne_true ?_⟩
        rw [mbits_eq_zero_iff] at hzero
        exact not_not.mpr hzero
      · refine ⟨_, if_neg hzero, iff_of_true rfl ?_⟩
        rwa [mbits_eq_zero_iff] at hzero

/-- The last result before a shorter line decides. -/
theorem parseLines_single (lines : List (List Char)) (s : Parsing) :
    (parseLines (singleLine q) lines s).returnValue = true ↔
      match (lines.takeWhile resultFields).getLast? with
      | some last => HasSpeed q last
      | none => s.returnValue = true := by
  induction lines generalizing s with
  | nil => rfl
  | cons line lines ih =>
      by_cases hline : resultFields line = true
      · obtain ⟨s', hs', hverdict⟩ := singleLine_again (q := q) (s := s) hline
        rw [parseLines, hs', List.takeWhile_cons_of_pos hline, List.getLast?_cons]
        rw [ih s']
        cases (lines.takeWhile resultFields).getLast? with
        | none => exact hverdict
        | some last => exact Iff.rfl
      · rw [parseLines, singleLine_leave hline, List.takeWhile_cons_of_neg hline]
        exact Iff.rfl

/-- One result is expected: the first. -/
theorem measured_client_iff {stdOut : List Char} {first : List Char}
    (h : (leadingResults stdOut).head? = some first) :
    Measured q .client stdOut ↔ HasSpeed q first := by
  have hlines : ∃ lines, resultLines stdOut = first :: lines := by
    rw [leadingResults] at h
    rw [resultLines]
    match stdOut.splitOn '\n', h with
    | line :: lines, h =>
        by_cases hline : resultFields line = true
        · rw [List.takeWhile_cons_of_pos hline, List.head?_cons] at h
          cases h
          exact ⟨_, List.filter_cons_of_pos hline⟩
        · rw [List.takeWhile_cons_of_neg hline] at h
          cases h
  obtain ⟨lines, hlines⟩ := hlines
  rw [Measured, hlines, expectedResults, List.take_succ_cons, List.take_zero,
    List.forall_mem_singleton]
  exact and_iff_right (Nat.succ_le_succ (Nat.zero_le _))

theorem not_measured_nil : ¬Measured q .client [] := by
  intro h
  exact absurd h.1 (by decide)

/-- The verdict of the parser for one direction. -/
theorem parseOutput_client_iff (stdOut : List Char) :
    ((parseOutput q .client stdOut ⟨true, 1, []⟩).returnValue = true ↔
      Measured q .client stdOut) ↔ Tellable q .client stdOut := by
  rw [Tellable, if_pos rfl]
  by_cases hnil : stdOut = []
  · rw [hnil]
    exact iff_of_true (iff_of_false Bool.false_ne_true not_measured_nil) (.inl rfl)
  · have hpos : 0 < stdOut.length := List.length_pos_iff.mpr hnil
    rw [parseOutput, if_pos hpos, if_neg (show IperfRole.client ≠ .biclient by decide),
      parseLines_single]
    rw [← leadingResults]
    cases hfirst : (leadingResults stdOut).head? with
    | none =>
        rw [List.head?_eq_none_iff] at hfirst
        rw [hfirst, or_iff_right hnil]
        exact iff_true_left rfl
    | some first =>
        rw [measured_client_iff hfirst]
        cases hlast : (leadingResults stdOut).getLast? with
        | none =>
            rw [List.getLast?_eq_none_iff] at hlast
            rw [hlast] at hfirst
            cases hfirst
        | some last => exact Iff.comm

end Single

namespace MwtsIPerfThroughput

/-- `Exec` returns true exactly if the output of iperf has the expected results. -/
def VerdictRight (q : QtText) (s : MwtsIPerfThroughput) (run : IperfRun) : Prop :=
  (s.exec q run).1.returnValue = true ↔ Measured q s.role run.stdOut

theorem setClientMeasurement_role (s : MwtsIPerfThroughput) (serverIP : List Char)
    (transtime : Int) (direction : List Char) :
    (s.setClientMeasurement serverIP transtime direction).role = .client ∨
      (s.setClientMeasurement serverIP transtime direction).role = .biclient := by
  rw [setClientMeasurement]
  by_cases hdirection : direction.take 2 = "bi".toList
  · exact .inr (congrArg role (if_pos hdirection))
  · exact .inl (congrArg role (if_neg hdirection))

/-- The client of one direction returns what the parser has found. -/
theorem exec_of_client {q : QtText} {s : MwtsIPerfThroughput} (run : IperfRun)
    (h : s.role = .client) : (s.exec q run).1.returnValue =
      (parseOutput q .client run.stdOut ⟨run.exitStatus = .normalExit, 1, []⟩).returnValue := by
  have hrole := foldl_onSignal_role run.signals { s with returnValue := false }
  rw [exec]
  generalize run.signals.foldl onSignal { s with returnValue := false } = t at hrole
  have ht : t.role = .client := hrole.trans h
  simp only [ht, onFinished]

/-- For both directions `Exec` returns true. -/
theorem exec_of_biclient {q : QtText} {s : MwtsIPerfThroughput} (run : IperfRun)
    (h : s.role = .biclient) : (s.exec q run).1.returnValue = true := by
  have hrole := foldl_onSignal_role run.signals { s with returnValue := false }
  rw [exec]
  generalize run.signals.foldl onSignal { s with returnValue := false } = t at hrole
  have ht : t.role = .biclient := hrole.trans h
  simp only [ht]

/-- **The verdict of a client** whose iperf has finished normally, whatever the process has
signalled before. -/
theorem verdictRight_iff_tellable (q : QtText) (s : MwtsIPerfThroughput) (serverIP : List Char)
    (transtime : Int) (direction : List Char) (signals : List ProcessSignal)
    (stdOut : List Char) :
    (s.setClientMeasurement serverIP transtime direction).VerdictRight q
        ⟨signals, .normalExit, stdOut⟩ ↔
      Tellable q (s.setClientMeasurement serverIP transtime direction).role stdOut := by
  rcases setClientMeasurement_role s serverIP transtime direction with hrole | hrole
  · rw [VerdictRight, exec_of_client _ hrole, hrole]
    exact parseOutput_client_iff stdOut
  · rw [VerdictRight, exec_of_biclient _ hrole, hrole, Tellable,
      if_neg (show IperfRole.biclient ≠ .client by decide)]
    exact iff_true_left rfl

/-- Texts read as blanks around decimal digits, as those of iperf are. -/
def decimalText : QtText where
  trimmed := fun text =>
    ((text.dropWhile Char.isWhitespace).reverse.dropWhile Char.isWhitespace).reverse
  toULong := fun text =>
    if text ≠ [] ∧ text.all Char.isDigit = true then some (Nat.ofDigitChars 10 text 0) else none

/-- There is no output if iperf has connected to no server, and a line of another kind if the
connection is refused: neither has a result, and `Exec` returns true. -/
theorem noResult_returns_true :
    ¬((⟨[], .server, false⟩ : MwtsIPerfThroughput).setClientMeasurement "10.0.0.1".toList 10
        "bidirectional".toList).VerdictRight decimalText ⟨[.started], .normalExit, []⟩ ∧
      ¬((⟨[], .server, false⟩ : MwtsIPerfThroughput).setClientMeasurement "10.0.0.1".toList 10
        "upload".toList).VerdictRight decimalText
          ⟨[.started], .normalExit, "connect failed: Connection refused\n".toList⟩ := by
  constructor
  · intro h
    have hmeasured := h.mp rfl
    exact absurd hmeasured.1 (by decide)
  · intro h
    have hmeasured := h.mp (by decide)
    exact absurd hmeasured.1 (by decide)

end MwtsIPerfThroughput

end Blts.Mwts
