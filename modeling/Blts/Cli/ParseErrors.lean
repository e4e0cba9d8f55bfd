import Blts.Cli.Selection

/-!
# Errors in the configuration file

`_blts_conf_parser_start` returns how many errors it has counted, or the code of
the parser: a positive number.  `blts_cli_main` looks for negative results of the
load.  The errors of a file therefore stop nothing, and whether tests are run is
left to the stages after it.
-/

namespace Blts.Cli

open Blts.Params Blts.Config

/-- Parsing calls `yyerror`, or fails.  `parse_errors` never decreases; a program
that is stopped may have counted errors before. -/
def ReportsError (t : SymbolTable) (toks : List Token) (lexError : Bool) : Prop :=
  match yyparse (.initial t) toks lexError with
  | .ok (code, s) => code ≠ 0 ∨ 0 < s.parseErrors
  | .error _ => ∃ n p, yytokens (.initial t) (toks.take n) = .ok p ∧
      (0 < p.state.parseErrors ∨ toks.length ≤ n ∧ lexError = true)

/-- The configuration file of the run is there, and parsing it reports an error. -/
def ConfigReportsError (prog : Program) (o : CliOptions) : Prop :=
  ∃ toks lexError, prog.files (prog.configFile o).1 = .ok (toks, lexError) ∧
    ReportsError (symbolTableInit prog.config.table) toks lexError

/-- `blts_cli_main` returns a failure and has not called `run_test`. -/
def FailsUnrun (prog : Program) (args : List String) : Prop :=
  ∃ r, bltsCliMain prog args = .ok r ∧ r.result ≠ 0 ∧ ∀ v ∈ r.visits, v.ran = none

/-- The test module refuses its arguments, or there is no listing to be made and a
result file cannot be opened. -/
def RefusedLater (prog : Program) (o : CliOptions) (s : ConfigState) : Prop :=
  (∃ process, prog.processArguments = some process ∧
    (process o.processedArgv s).1 = false) ∨
  o.wantTestList = false ∧
    ((∃ f, o.xmlResultFile = some f ∧ prog.xmlResultOpen f o.xmlAppendResults ≠ 0) ∨
      ∃ f, o.csvResultFile = some f ∧ prog.csvResultFileOpen f o.csvAppendResults ≠ 0)

/-- Tests are selected, and none of them exists. -/
def OnlyMissing (prog : Program) (o : CliOptions) : Prop :=
  o.wantTestList = false ∧ storedFrom o.testList o.numTests 0 ≠ [] ∧
    ∀ num ∈ storedFrom o.testList o.numTests 0, testName prog.names num = none

/-! ## The result of the load -/

/-- The parser returns 0 or 1. -/
theorem feed_none_code {code : Int} {s : ParserState} (n : Nat) : ∀ {p : Parser},
    feed n p none = .ret code s → 0 ≤ code := by
  induction n with
  | zero =>
      intro p h
      cases h
  | succ n ih =>
      intro p h
      unfold feed at h
      cases hstep : yystep p none with
      | next p' =>
          rw [hstep] at h
          cases h
      | retry p' =>
          rw [hstep] at h
          exact ih h
      | fault f =>
          rw [hstep] at h
          cases h
      | ret code' s' =>
          rw [hstep] at h
          cases h
          unfold yystep at hstep
          cases hmove : move p.pos none with
          | shift as next recover =>
              simp only [hmove] at hstep
              split at hstep <;> cases hstep
          | reduce as next recover =>
              simp only [hmove] at hstep
              split at hstep <;> cases hstep
          | accept =>
              simp only [hmove] at hstep
              cases hstep
              exact Int.le_refl 0
          | error =>
              simp only [hmove] at hstep
              split at hstep
              · cases hstep
                decide
              · cases hstep

theorem yyparse_code {p : Parser} {toks : List Token} {lexError : Bool} {code : Int}
    {s : ParserState} (h : yyparse p toks lexError = .ok (code, s)) : 0 ≤ code := by
  have heof {p' : Parser} (h : yyeof p' = .ok (code, s)) : 0 ≤ code := by
    unfold yyeof at h
    cases hfeed : feed maxTurns p' none with
    | next p₁ =>
        rw [hfeed] at h
        cases h
    | fault f =>
        rw [hfeed] at h
        cases h
    | ret code' s' =>
        rw [hfeed] at h
        cases h
        exact feed_none_code maxTurns hfeed
  obtain ⟨p', _, h⟩ := exists_of_bind_eq_ok h
  cases lexError with
  | true => exact heof h
  | false => exact heof h

/-- An error that is reported is a positive result. -/
theorem load_pos {prog : Program} {o : CliOptions} {ret : Int} {s : ConfigState}
    (herror : ConfigReportsError prog o)
    (hload : bltsConfigLoadFromFile prog.config (prog.files (prog.configFile o).1) =
      .ok (ret, s)) : 0 < ret := by
  obtain ⟨toks, lexError, hfile, herror⟩ := herror
  rw [hfile] at hload
  obtain ⟨⟨ret', t⟩, hstart, hload⟩ := exists_of_bind_eq_ok hload
  cases hload
  obtain ⟨⟨code, s'⟩, hparse, hstart⟩ := exists_of_bind_eq_ok hstart
  unfold ReportsError at herror
  rw [hparse] at herror
  have hcode := yyparse_code hparse
  by_cases hzero : code = 0
  · have hcount : 0 < s'.parseErrors := herror.resolve_left (not_not_intro hzero)
    dsimp only at hstart
    rw [if_neg (not_not_intro hzero)] at hstart
    cases hstart
    omega
  · dsimp only at hstart
    rw [if_pos hzero] at hstart
    cases hstart
    omega

/-- What follows the load. -/
def afterLoad (prog : Program) (o : CliOptions) (s : ConfigState) :
    Except CliStop (List String × ConfigState) := do
  let s ← processModuleArguments prog o s
  openResults prog o
  return (prog.names, s)

theorem prepare_of_pos {prog : Program} {o : CliOptions} {ret : Int} {s : ConfigState}
    (hsync : setupSync prog o = .ok ()) (hpos : 0 < ret)
    (hload : bltsConfigLoadFromFile prog.config (prog.files (prog.configFile o).1) =
      .ok (ret, s)) : prepare prog o prog.config = afterLoad prog o s := by
  have hconfig : loadConfig prog o prog.config = .ok (prog.names, s) := by
    have henoent : ¬ ret = -enoent := by
      have hnum : enoent = 2 := rfl
      omega
    simp only [loadConfig, hload, liftFault, bind, Except.bind, if_neg henoent,
      if_neg (show ¬ ret < 0 by omega), bltsConfigAddTestcases, configGenerateTestsetTests,
      List.append_nil]
    rfl
  simp only [prepare, afterLoad, hsync, hconfig, bind, Except.bind]

/-! ## The stages after it -/

theorem afterLoad_of_refused {prog : Program} {o : CliOptions} {s : ConfigState}
    (h : RefusedLater prog o s) : afterLoad prog o s = .error (.cleanup (-einval)) := by
  -- The result files are opened only if the module accepts its arguments.
  have hopen {s' : ConfigState} (hmodule : processModuleArguments prog o s = .ok s')
      (hrefused : openResults prog o = .error (.cleanup (-einval))) :
      afterLoad prog o s = .error (.cleanup (-einval)) := by
    simp only [afterLoad, hmodule, hrefused, bind, Except.bind]
  have hfiles (hlist : o.wantTestList = false)
      (h : (∃ f, o.xmlResultFile = some f ∧ prog.xmlResultOpen f o.xmlAppendResults ≠ 0) ∨
        ∃ f, o.csvResultFile = some f ∧ prog.csvResultFileOpen f o.csvAppendResults ≠ 0) :
      openResults prog o = .error (.cleanup (-einval)) := by
    have hnot : ¬ o.wantTestList = true := by simp [hlist]
    unfold openResults
    rw [if_neg hnot]
    by_cases hxml : o.xmlResultFile.any
        fun f => prog.xmlResultOpen f o.xmlAppendResults ≠ 0
    · exact if_pos hxml
    · rw [if_neg hxml]
      cases h with
      | inl hopen =>
          obtain ⟨f, hf, hne⟩ := hopen
          exact absurd (by simp [hf, hne]) hxml
      | inr hopen =>
          obtain ⟨f, hf, hne⟩ := hopen
          exact if_pos (by simp [hf, hne])
  cases hprocess : prog.processArguments with
  | none =>
      cases h with
      | inl hmodule =>
          obtain ⟨process, hsome, _⟩ := hmodule
          rw [hprocess] at hsome
          cases hsome
      | inr hresults =>
          have hmodule : processModuleArguments prog o s = .ok s := by
            simp only [processModuleArguments, hprocess]
          exact hopen hmodule (hfiles hresults.1 hresults.2)
  | some process =>
      by_cases hok : (process o.processedArgv s).1 = true
      · cases h with
        | inl hmodule =>
            obtain ⟨process', hsome, hfalse⟩ := hmodule
            rw [hprocess] at hsome
            cases hsome
            rw [hok] at hfalse
            cases hfalse
        | inr hresults =>
            have hmodule : processModuleArguments prog o s =
                .ok (process o.processedArgv s).2 := by
              simp only [processModuleArguments, hprocess, if_pos hok]
            exact hopen hmodule (hfiles hresults.1 hresults.2)
      · simp only [afterLoad, processModuleArguments, hprocess, if_neg hok, bind, Except.bind]

theorem afterLoad_of_not_refused {prog : Program} {o : CliOptions} {s : ConfigState}
    (h : ¬ RefusedLater prog o s) :
    (o.wantTestList = true → afterLoad prog o s = .error (.cleanup 0)) ∧
    (o.wantTestList = false → ∃ s', afterLoad prog o s = .ok (prog.names, s')) := by
  have hmodule : ∃ s', processModuleArguments prog o s = .ok s' := by
    unfold processModuleArguments
    cases hprocess : prog.processArguments with
    | none => exact ⟨s, rfl⟩
    | some process =>
        by_cases hok : (process o.processedArgv s).1 = true
        · exact ⟨_, if_pos hok⟩
        · exact absurd (.inl ⟨process, hprocess, by simpa using hok⟩) h
  obtain ⟨s', hmodule⟩ := hmodule
  constructor
  · intro hlist
    simp only [afterLoad, hmodule, openResults, if_pos hlist, bind, Except.bind]
  · intro hlist
    have hnot : ¬ o.wantTestList = true := by simp [hlist]
    have hxml : ¬ (o.xmlResultFile.any
        fun f => prog.xmlResultOpen f o.xmlAppendResults ≠ 0) = true := by
      intro hany
      obtain ⟨f, hf, hne⟩ := (Option.any_eq_true _ _).mp hany
      exact h (.inr ⟨hlist, .inl ⟨f, hf, of_decide_eq_true hne⟩⟩)
    have hcsv : ¬ (o.csvResultFile.any
        fun f => prog.csvResultFileOpen f o.csvAppendResults ≠ 0) = true := by
      intro hany
      obtain ⟨f, hf, hne⟩ := (Option.any_eq_true _ _).mp hany
      exact h (.inr ⟨hlist, .inr ⟨f, hf, of_decide_eq_true hne⟩⟩)
    refine ⟨s', ?_⟩
    simp only [afterLoad, hmodule, openResults, if_neg hnot, if_neg hxml, if_neg hcsv, bind,
      Except.bind]
    rfl

/-! ## The tests that are run -/

section

variable {prog : Program} {names : List String} {testRun : Nat → Int → String → TestRun}

/-- The loop over all tests visits their numbers. -/
theorem runAllTests_eq (n : Nat) : ∀ {r : Totals}, n ≤ names.length →
    runAllTests prog names testRun n r = visitAll prog names testRun
      ((List.range' (names.length + 1 - n) n).map Int.ofNat) r := by
  induction n with
  | zero => exact fun _ => rfl
  | succ n ih =>
      intro r hle
      have hfirst : names.length + 1 - (n + 1) = names.length - n := by omega
      have hnext : names.length + 1 - n = names.length - n + 1 := by omega
      rw [runAllTests, List.range'_succ, List.map_cons, visitAll, hfirst]
      congr 1
      funext r'
      rw [ih (by omega), hnext]

theorem testName_isSome {k : Nat} (hpos : 0 < k) (hle : k ≤ names.length) :
    (testName names k).isSome = true := by
  have hnot : ¬ ((k : Int) > names.length ∨ (k : Int) < 1) := by omega
  have hlt : k - 1 < names.length := by omega
  rw [testName, if_neg hnot, Int.toNat_natCast, List.getElem?_eq_getElem hlt]
  rfl

/-- A visit is a run unless there is no such test. -/
theorem VisitedAll.unrun_iff {nums : List Int} : ∀ {t : Nat} {vs : List Visit},
    VisitedAll prog names testRun t nums vs →
      ((∀ v ∈ vs, v.ran = none) ↔ ∀ num ∈ nums, testName names num = none) := by
  induction nums with
  | nil =>
      intro t vs h
      cases vs with
      | nil => exact iff_of_true (fun v hv => (by cases hv)) (fun num hnum => (by cases hnum))
      | cons v vs => exact h.elim
  | cons num nums ih =>
      intro t vs h
      cases vs with
      | nil => exact h.elim
      | cons v vs =>
          have hfirst : v.ran = none ↔ testName names num = none := by
            have hvisited := h.1.2
            cases hname : testName names num with
            | none =>
                rw [hname] at hvisited
                exact iff_of_true hvisited rfl
            | some name =>
                rw [hname] at hvisited
                obtain ⟨out, _, hran⟩ := hvisited
                rw [hran]
                exact iff_of_false (fun heq => (by cases heq)) (fun heq => (by cases heq))
          rw [List.forall_mem_cons, List.forall_mem_cons, hfirst, ih h.2]

/-- Visits of missing tests only, and how they are counted. -/
theorem visitAll_unrun {nums : List Int} {r : Totals}
    (h : visitAll prog names testRun nums .initial = .ok r) :
    (r.result ≠ 0 ∧ ∀ v ∈ r.visits, v.ran = none) ↔
      nums ≠ [] ∧ ∀ num ∈ nums, testName names num = none := by
  obtain ⟨vs, hvs, rfl⟩ := (visitAll_iff nums).mp h
  have hvisits : (Totals.initial.after vs).visits = vs := rfl
  have hresult : (Totals.initial.after vs).result = vs.countP Visit.failed := by
    simp [Totals.after, Totals.initial]
  rw [hvisits, hresult, hvs.unrun_iff]
  refine and_congr_left fun hnone => ?_
  have hunrun := hvs.unrun_iff.mpr hnone
  have hcount : vs.countP Visit.failed = nums.length := by
    rw [← hvs.nums, List.length_map, List.countP_eq_length]
    intro v hv
    rw [Visit.failed, hunrun v hv]
  rw [hcount, ne_eq, ne_eq, ← List.length_eq_zero_iff]
  exact not_congr Int.natCast_eq_zero

/-- Missing tests are visited without a fault. -/
theorem exists_visitAll_unrun {nums : List Int} :
    (∃ r, visitAll prog names testRun nums .initial = .ok r ∧ r.result ≠ 0 ∧
      ∀ v ∈ r.visits, v.ran = none) ↔
        nums ≠ [] ∧ ∀ num ∈ nums, testName names num = none := by
  constructor
  · rintro ⟨r, hr, hunrun⟩
    exact (visitAll_unrun hr).mp hunrun
  · intro h
    have hreturn : TestsReturn prog names testRun 0 nums := by
      intro j num name hj hname
      rw [h.2 num (List.mem_of_getElem? hj)] at hname
      cases hname
    obtain ⟨vs, hvs⟩ := (exists_visitedAll_iff nums).mpr hreturn
    have hr : visitAll prog names testRun nums .initial = .ok (Totals.initial.after vs) :=
      (visitAll_iff nums).mpr ⟨vs, hvs, rfl⟩
    exact ⟨_, hr, (visitAll_unrun hr).mpr h⟩

end

/-- The run of the tests, of which none is run. -/
theorem runTests_unrun (prog : Program) (testRun : Nat → Int → String → TestRun)
    {o : CliOptions} {sel : List Int} (h : Stored o sel) :
    (∃ r, runTests prog o prog.names testRun = .ok r ∧ r.result ≠ 0 ∧
      ∀ v ∈ r.visits, v.ran = none) ↔
        storedFrom o.testList o.numTests 0 ≠ [] ∧
          ∀ num ∈ storedFrom o.testList o.numTests 0, testName prog.names num = none := by
  by_cases hnum : o.numTests = 0
  · -- All tests are run, and each of them exists.
    have hall : runTests prog o prog.names testRun = visitAll prog prog.names testRun
        ((List.range' 1 prog.names.length).map Int.ofNat) .initial := by
      rw [runTests, if_neg (not_not_intro hnum), runAllTests_eq _ (Nat.le_refl _),
        Nat.add_sub_cancel_left]
    rw [hall, exists_visitAll_unrun, hnum]
    refine iff_of_false ?_ (fun hnot => hnot.1 rfl)
    rintro ⟨hne, hmissing⟩
    have hpos : 0 < prog.names.length := by
      by_contra hzero
      exact hne (by rw [Nat.eq_zero_of_not_pos hzero]; rfl)
    have hfirst := hmissing 1 (by
      rw [List.mem_map]
      exact ⟨1, by simp only [List.mem_range'_1]; omega, rfl⟩)
    have hsome := testName_isSome (k := 1) Nat.one_pos hpos
    rw [show ((1 : Nat) : Int) = 1 from rfl, hfirst] at hsome
    cases hsome
  · have hcap : listCap + 1 = maxArgs := rfl
    have hle : o.numTests ≤ listCap := by
      rw [h.count]
      exact Nat.min_le_left _ _
    have hselected : runTests prog o prog.names testRun = visitAll prog prog.names testRun
        (storedFrom o.testList o.numTests 0) .initial := by
      rw [runTests, if_pos hnum]
      exact runSelected_eq o.testList (h.last hnum) maxArgs (Nat.zero_le _) (by omega)
    rw [hselected]
    exact exists_visitAll_unrun

/--
**Errors in the configuration file.**  Let the options be accepted and the setup
for synchronized runs succeed, and let parsing the configuration file report an
error.  `blts_cli_main` fails without running a test if and only if the parser
comes back and either a later stage refuses to go on, or tests are selected of
which none exists.
-/
theorem parseError_exact (prog : Program) (args : List String) {o : CliOptions}
    (hparse : parseArguments prog.names prog.mem args (.initial prog.mem prog.argv0) = .ok o)
    (hsync : setupSync prog o = .ok ()) (herror : ConfigReportsError prog o) :
    FailsUnrun prog args ↔
      ∃ ret s, bltsConfigLoadFromFile prog.config (prog.files (prog.configFile o).1) =
          .ok (ret, s) ∧ (RefusedLater prog o s ∨ OnlyMissing prog o) := by
  have hstored : Stored o (selection prog.names args []) :=
    ((parseArguments_stored prog.names prog.mem args.length (Nat.le_refl args.length)
      (initial_stored prog.mem prog.argv0)).2 o hparse).2
  cases hload : bltsConfigLoadFromFile prog.config (prog.files (prog.configFile o).1) with
  | error f =>
      have hprepare : prepare prog o prog.config = .error (.fault f) := by
        simp only [prepare, hsync, loadConfig, hload, liftFault, bind, Except.bind]
      have hmain : bltsCliMain prog args = .error f := by
        simp only [bltsCliMain, prepared, hparse, hprepare, bind, Except.bind]
      refine iff_of_false ?_ (fun h => ?_)
      · rintro ⟨r, hr, _⟩
        rw [hmain] at hr
        cases hr
      · obtain ⟨ret, s, hok, _⟩ := h
        cases hok
  | ok x =>
      obtain ⟨ret, s⟩ := x
      have hprepare := prepare_of_pos hsync (load_pos herror hload) hload
      have hright : (∃ ret' s', (Except.ok (ret, s) : Except Fault (Int × ConfigState)) =
          .ok (ret', s') ∧ (RefusedLater prog o s' ∨ OnlyMissing prog o)) ↔
            RefusedLater prog o s ∨ OnlyMissing prog o := by
        constructor
        · rintro ⟨ret', s', heq, h⟩
          cases heq
          exact h
        · exact fun h => ⟨ret, s, rfl, h⟩
      rw [hright]
      by_cases hrefused : RefusedLater prog o s
      · have hmain : bltsCliMain prog args = .ok { result := -einval, visits := [] } := by
          simp only [bltsCliMain, prepared, hparse, hprepare, afterLoad_of_refused hrefused,
            bind, Except.bind]
        exact iff_of_true ⟨_, hmain, by decide, fun v hv => (by cases hv)⟩ (.inl hrefused)
      · obtain ⟨hlisting, hrun⟩ := afterLoad_of_not_refused hrefused
        by_cases hlist : o.wantTestList = true
        · have hmain : bltsCliMain prog args = .ok { result := 0, visits := [] } := by
            simp only [bltsCliMain, prepared, hparse, hprepare, hlisting hlist, bind,
              Except.bind]
          refine iff_of_false ?_ (fun h => ?_)
          · rintro ⟨r, hr, hne, _⟩
            rw [hmain] at hr
            cases hr
            exact hne rfl
          · cases h with
            | inl h => exact hrefused h
            | inr h =>
                have hnot := h.1
                rw [hlist] at hnot
                cases hnot
        · obtain ⟨s', hafter⟩ := hrun (by simpa using hlist)
          have hprepared : prepared prog args = .ok (o, prog.names, s') := by
            simp only [prepared, hparse, hprepare, hafter, bind, Except.bind]
            rfl
          have hunrun := runTests_unrun prog (prog.testRun o s' args) hstored
          have hmissing : RefusedLater prog o s ∨ OnlyMissing prog o ↔
              storedFrom o.testList o.numTests 0 ≠ [] ∧
                ∀ num ∈ storedFrom o.testList o.numTests 0, testName prog.names num = none := by
            rw [or_iff_right hrefused, OnlyMissing, and_iff_right (by simpa using hlist)]
          rw [hmissing, ← hunrun]
          simp only [FailsUnrun, bltsCliMain, hprepared]
          constructor
          · rintro ⟨r, hr, hfails⟩
            obtain ⟨r', hr', hr⟩ := exists_of_bind_eq_ok hr
            cases hr
            exact ⟨r', hr', hfails⟩
          · rintro ⟨r, hr, hfails⟩
            exact ⟨{ result := r.result, visits := r.visits }, by rw [hr]; rfl, hfails⟩

/-- The two tests, with a configuration file of one broken line. -/
def brokenConfig : Program :=
  { twoTests with files := fun _ => .ok ([.name, .cr], false) }

/-- The options of an empty command line. -/
def noOptions : CliOptions :=
  .initial brokenConfig.mem brokenConfig.argv0

theorem brokenConfig_reportsError : ConfigReportsError brokenConfig noOptions := by
  refine ⟨[.name, .cr], false, rfl, ?_⟩
  have herror : ((yyparse (.initial (symbolTableInit .unallocated)) [.name, .cr]
      false).toOption.any fun r => 0 < r.2.parseErrors) = true := by
    decide +kernel
  show ReportsError (symbolTableInit .unallocated) [.name, .cr] false
  unfold ReportsError
  cases hparse : yyparse (.initial (symbolTableInit .unallocated)) [.name, .cr] false with
  | error f =>
      rw [hparse] at herror
      cases herror
  | ok r =>
      rw [hparse] at herror
      exact .inr (of_decide_eq_true herror)

/-- With it, nothing refuses to run both tests. -/
theorem parseError_exact_broken :
    FailsUnrun brokenConfig [] ↔
      ∃ ret s, bltsConfigLoadFromFile brokenConfig.config
          (brokenConfig.files (brokenConfig.configFile noOptions).1) = .ok (ret, s) ∧
        (RefusedLater brokenConfig noOptions s ∨ OnlyMissing brokenConfig noOptions) :=
  parseError_exact brokenConfig [] rfl rfl brokenConfig_reportsError

/-- Both tests are run, and the program succeeds. -/
theorem parseError_runs :
    ConfigReportsError brokenConfig noOptions ∧
      (bltsCliMain brokenConfig []).toOption.any
        (fun r => r.result = 0 ∧ r.visits.map (fun v => v.ran.isSome) = [true, true]) = true ∧
      ¬ FailsUnrun brokenConfig [] := by
  have hrun : (bltsCliMain brokenConfig []).toOption.any
      (fun r => r.result = 0 ∧ r.visits.map (fun v => v.ran.isSome) = [true, true]) = true := by
    decide +kernel
  refine ⟨brokenConfig_reportsError, hrun, ?_⟩
  rintro ⟨r, hr, hne, _⟩
  rw [hr] at hrun
  exact hne (of_decide_eq_true hrun).1

end Blts.Cli
