import Blts.Cli.Main
import Blts.Cli.RunReports
import Blts.Cli.TestLists

/-!
# The tests that the options select

`-e` selects the numbers of its list and nothing else, and `-en` one more test.
What the program keeps of this is a block of cells that a zero ends: a selected
number 0 ends it early, and so does an entry that is no number; `-en` does not
look for the end of the block.
-/

namespace Blts.Cli

open Blts.Params Blts.Config

/-! ## What is selected -/

/-- The selection after an option with its argument. -/
def selectOption (names : List String) : CliFlag → String → List Int → List Int
  | .e, list, _ => testNumbers list
  | .en, name, sel => sel ++ [findTestByName names name + 1]
  | _, _, sel => sel

/-- The last `-e` list followed by the `-en` tests after it. -/
def selection (names : List String) : List String → List Int → List Int
  | [], sel => sel
  | arg :: args, sel =>
      if (cliFlag arg).takesArgument then
        match args with
        | [] => sel
        | value :: args => selection names args (selectOption names (cliFlag arg) value sel)
      else selection names args sel

/-- The argument of the option fits into the buffer, and what it selects into
`test_list`. -/
def OptionFits : CliFlag → String → List Int → Prop
  | .e, list, _ => EntriesFit ((entries list).take listCap)
  | .en, _, sel => sel.length < listCap
  | _, _, _ => True

/-- All options do. -/
def OptionsFit (names : List String) : List String → List Int → Prop
  | [], _ => True
  | arg :: args, sel =>
      if (cliFlag arg).takesArgument then
        match args with
        | [] => True
        | value :: args => OptionFits (cliFlag arg) value sel ∧
            OptionsFit names args (selectOption names (cliFlag arg) value sel)
      else OptionsFit names args sel

/-- `test_list` holds the selection as far as it fits. -/
structure Stored (o : CliOptions) (sel : List Int) : Prop where
  count : o.numTests = min listCap sel.length
  cells : ∀ j num, j < o.numTests → sel[j]? = some num → num ≠ 0 → o.testList j = num
  last : o.numTests ≠ 0 → o.testList o.numTests = 0

theorem Stored.congr {o o' : CliOptions} {sel : List Int} (h : Stored o sel)
    (hcount : o'.numTests = o.numTests) (hlist : o'.testList = o.testList) :
    Stored o' sel := by
  constructor
  case count => rw [hcount, h.count]
  case cells => rw [hcount, hlist]; exact h.cells
  case last => rw [hcount, hlist]; exact h.last

/-- What the `-e` list leaves. -/
theorem stored_testNumbers {o : CliOptions} {list : String} {out : TestList}
    (h : Written 0 (entries list) o.testList out) :
    Stored { o with numTests := min listCap (entries list).length, testList := out }
      (testNumbers list) := by
  constructor
  case count => simp [testNumbers]
  case cells =>
    intro j num hj hsel hne
    rw [testNumbers, List.getElem?_map] at hsel
    obtain ⟨e, he, hnum⟩ := Option.map_eq_some_iff.mp hsel
    have hlt : j < min listCap (entries list).length := hj
    have hcell := h.cells j e (by omega) he (by
      intro hnil
      rw [hnil] at hnum
      exact hne hnum.symm)
    rw [Nat.zero_add] at hcell
    exact hcell.trans hnum
  case last =>
    intro _
    have hlast := h.last
    rwa [Nat.zero_add] at hlast

/-- What `-en` leaves. -/
theorem stored_append {o : CliOptions} {sel : List Int} {num : Int} (h : Stored o sel)
    (hfits : sel.length < listCap) :
    Stored { o with
      numTests := o.numTests + 1
      testList := Function.update (Function.update o.testList o.numTests num)
        (o.numTests + 1) 0 } (sel ++ [num]) := by
  have hcount : o.numTests = sel.length := by
    rw [h.count]
    omega
  constructor
  case count =>
    show o.numTests + 1 = min listCap (sel ++ [num]).length
    rw [List.length_append, List.length_singleton]
    omega
  case cells =>
    intro j num' hj hsel hne
    have hlt : j < o.numTests + 1 := hj
    show Function.update (Function.update o.testList o.numTests num) (o.numTests + 1) 0 j = num'
    rw [Function.update_of_ne (by omega)]
    by_cases hlast : j = o.numTests
    · rw [hlast, hcount, List.getElem?_concat_length] at hsel
      rw [hlast, Function.update_self]
      exact Option.some.inj hsel
    · rw [Function.update_of_ne hlast]
      rw [List.getElem?_append_left (by omega)] at hsel
      exact h.cells j num' (by omega) hsel hne
  case last => exact fun _ => Function.update_self _ _ _

/-- An option that selects nothing leaves the selection alone. -/
theorem runOption_keeps (names : List String) (tmp : List Char) {flag : CliFlag}
    (arg : String) (o : CliOptions) (he : flag ≠ .e) (hen : flag ≠ .en) :
    (∀ f, runOption names tmp flag arg o ≠ .error (.fault f)) ∧
    ∀ o', runOption names tmp flag arg o = .ok o' →
      o'.numTests = o.numTests ∧ o'.testList = o.testList := by
  have hdone {x : CliOptions} (hx : runOption names tmp flag arg o = .ok x)
      (hcount : x.numTests = o.numTests) (hlist : x.testList = o.testList) :
      (∀ f, runOption names tmp flag arg o ≠ .error (.fault f)) ∧
      ∀ o', runOption names tmp flag arg o = .ok o' →
        o'.numTests = o.numTests ∧ o'.testList = o.testList := by
    rw [hx]
    refine ⟨fun f h => (nomatch h), fun o' h => ?_⟩
    cases h
    exact ⟨hcount, hlist⟩
  have hstop {r : Int} (hx : runOption names tmp flag arg o = .error (.cleanup r)) :
      (∀ f, runOption names tmp flag arg o ≠ .error (.fault f)) ∧
      ∀ o', runOption names tmp flag arg o = .ok o' →
        o'.numTests = o.numTests ∧ o'.testList = o.testList := by
    rw [hx]
    exact ⟨fun f h => (nomatch h), fun o' h => (nomatch h)⟩
  cases flag with
  | e => exact absurd rfl he
  | en => exact absurd rfl hen
  | config =>
      by_cases hused : o.usedConfigFile.isSome = true
      · exact hstop (if_pos hused)
      · exact hdone (if_neg hused) rfl rfl
  | syncprep =>
      cases hcount : strtol arg.toList with
      | none => exact hstop (by simp only [runOption, hcount]; rfl)
      | some count =>
          by_cases hlow : toInt count < 1
          · exact hstop (by simp only [runOption, hcount, if_pos hlow]; rfl)
          · exact hdone (x := { o with syncMasterModeClientCount := toInt count })
              (by simp only [runOption, hcount, if_neg hlow]) rfl rfl
  | s => exact hdone (x := o) rfl rfl rfl
  | help => exact hdone (x := o) rfl rfl rfl
  | auto => exact hdone (x := o) rfl rfl rfl
  | sync => exact hdone (x := o) rfl rfl rfl
  | log => exact hdone (x := o) rfl rfl rfl
  | verbose => exact hdone (x := o) rfl rfl rfl
  | other => exact hdone (x := o) rfl rfl rfl
  | xml => exact hdone (x := { o with xmlResultFile := some arg }) rfl rfl rfl
  | axml =>
      exact hdone (x := { o with xmlResultFile := some arg, xmlAppendResults := true })
        rfl rfl rfl
  | csv => exact hdone (x := { o with csvResultFile := some arg }) rfl rfl rfl
  | acsv =>
      exact hdone (x := { o with csvResultFile := some arg, csvAppendResults := true })
        rfl rfl rfl

/-- One option with its argument. -/
theorem runOption_stored (names : List String) (tmp : List Char) (flag : CliFlag)
    (arg : String) {o : CliOptions} {sel : List Int} (h : Stored o sel) :
    (OptionFits flag arg sel → ∀ f, runOption names tmp flag arg o ≠ .error (.fault f)) ∧
    ∀ o', runOption names tmp flag arg o = .ok o' →
      OptionFits flag arg sel ∧ Stored o' (selectOption names flag arg sel) := by
  have hle : o.numTests ≤ listCap := by
    rw [h.count]
    exact Nat.min_le_left _ _
  have hcap : listCap + 1 = maxArgs := rfl
  by_cases he : flag = .e
  · subst he
    obtain ⟨hlong, hshort⟩ := parseTestList_spec arg tmp o.testList
    by_cases hfit : EntriesFit ((entries arg).take listCap)
    · obtain ⟨out, hrun, hwritten⟩ := hshort hfit
      by_cases hzero : min listCap (entries arg).length = 0
      · have hoption : runOption names tmp .e arg o = .error (.cleanup (-einval)) := by
          simp only [runOption, hrun, liftFault]
          exact if_pos hzero
        rw [hoption]
        exact ⟨fun _ f hf => (nomatch hf), fun o' ho => (nomatch ho)⟩
      · have hoption : runOption names tmp .e arg o =
            .ok { o with numTests := min listCap (entries arg).length, testList := out } := by
          simp only [runOption, hrun, liftFault]
          exact if_neg hzero
        rw [hoption]
        refine ⟨fun _ f hf => (nomatch hf), fun o' ho => ⟨hfit, ?_⟩⟩
        cases ho
        exact stored_testNumbers hwritten
    · have hoption : runOption names tmp .e arg o = .error (.fault .outOfBounds) := by
        simp only [runOption, hlong hfit, liftFault]
        rfl
      rw [hoption]
      exact ⟨fun hfits => absurd hfits hfit, fun o' ho => (nomatch ho)⟩
  · by_cases hen : flag = .en
    · subst hen
      have hset := setTest_eq_ok o.testList (findTestByName names arg + 1)
        (show o.numTests < maxArgs by omega)
      by_cases hnum : findTestByName names arg + 1 = 0
      · have hoption : runOption names tmp .en arg o = .error (.cleanup (-einval)) := by
          simp only [runOption, hset, liftFault]
          exact if_pos hnum
        rw [hoption]
        exact ⟨fun _ f hf => (nomatch hf), fun o' ho => (nomatch ho)⟩
      · by_cases hfit : sel.length < listCap
        · have hcount : o.numTests < listCap := by
            rw [h.count]
            omega
          have hend := setTest_eq_ok
            (Function.update o.testList o.numTests (findTestByName names arg + 1)) 0
            (show o.numTests + 1 < maxArgs by omega)
          have hoption : runOption names tmp .en arg o = .ok { o with
              numTests := o.numTests + 1
              testList := Function.update
                (Function.update o.testList o.numTests (findTestByName names arg + 1))
                (o.numTests + 1) 0 } := by
            simp only [runOption, hset, liftFault, bind, Except.bind, if_neg hnum, hend]
          rw [hoption]
          refine ⟨fun _ f hf => (nomatch hf), fun o' ho => ⟨hfit, ?_⟩⟩
          cases ho
          exact stored_append h hfit
        · have hcount : o.numTests = listCap := by
            rw [h.count]
            omega
          have hend : setTest
              (Function.update o.testList o.numTests (findTestByName names arg + 1))
              (o.numTests + 1) 0 = .error .outOfBounds := if_neg (by omega)
          have hoption : runOption names tmp .en arg o = .error (.fault .outOfBounds) := by
            simp only [runOption, hset, liftFault, bind, Except.bind, if_neg hnum, hend]
          rw [hoption]
          exact ⟨fun hfits => absurd hfits hfit, fun o' ho => (nomatch ho)⟩
    · obtain ⟨hnofault, hkeeps⟩ := runOption_keeps names tmp arg o he hen
      have hselect : selectOption names flag arg sel = sel := by
        unfold selectOption
        split
        · exact absurd rfl he
        · exact absurd rfl hen
        · rfl
      have hfits : OptionFits flag arg sel := by
        unfold OptionFits
        split
        · exact absurd rfl he
        · exact absurd rfl hen
        · trivial
      rw [hselect]
      refine ⟨fun _ => hnofault, fun o' ho => ⟨hfits, ?_⟩⟩
      obtain ⟨hcount, hlist⟩ := hkeeps o' ho
      exact h.congr hcount hlist

theorem runFlag_keeps (flag : CliFlag) (arg : String) (o : CliOptions) :
    (∀ f, runFlag flag arg o ≠ .error (.fault f)) ∧
    ∀ o', runFlag flag arg o = .ok o' →
      o'.numTests = o.numTests ∧ o'.testList = o.testList := by
  unfold runFlag
  split
  case h_5 =>
    split
    · exact ⟨fun f h => (nomatch h), fun o' h => (nomatch h)⟩
    · refine ⟨fun f h => (nomatch h), fun o' h => ?_⟩
      cases h
      exact ⟨rfl, rfl⟩
  case h_2 => exact ⟨fun f h => (nomatch h), fun o' h => (nomatch h)⟩
  all_goals
    refine ⟨fun f h => (nomatch h), fun o' h => ?_⟩
    cases h
    exact ⟨rfl, rfl⟩

theorem bind_eq_fault {α β : Type} {x : Except CliStop α} {k : α → Except CliStop β}
    {f : Fault} (h : (x >>= k) = .error (.fault f)) :
    x = .error (.fault f) ∨ ∃ a, x = .ok a ∧ k a = .error (.fault f) := by
  cases x with
  | error stop =>
      have hstop : (Except.error stop : Except CliStop β) = .error (.fault f) := h
      cases hstop
      exact .inl rfl
  | ok a => exact .inr ⟨a, rfl, h⟩

theorem bind_eq_ok {α β : Type} {x : Except CliStop α} {k : α → Except CliStop β} {b : β}
    (h : (x >>= k) = .ok b) : ∃ a, x = .ok a ∧ k a = .ok b := by
  cases x with
  | error stop => cases h
  | ok a => exact ⟨a, rfl, h⟩

/-- **The options**: if they fit, nothing is written past an end, and the
selection is stored. -/
theorem parseArguments_stored (names : List String) (mem : Memory) (n : Nat) :
    ∀ {args : List String} {o : CliOptions} {sel : List Int}, args.length ≤ n →
      Stored o sel →
      (OptionsFit names args sel → ∀ f, parseArguments names mem args o ≠ .error (.fault f)) ∧
      ∀ o', parseArguments names mem args o = .ok o' →
        OptionsFit names args sel ∧ Stored o' (selection names args sel) := by
  induction n with
  | zero =>
      intro args o sel hlength h
      rw [List.length_eq_zero_iff.mp (Nat.le_zero.mp hlength)]
      refine ⟨fun _ f hf => (nomatch hf), fun o' ho => ⟨trivial, ?_⟩⟩
      cases ho
      exact h
  | succ n ih =>
      intro args o sel hlength h
      cases args with
      | nil =>
          refine ⟨fun _ f hf => (nomatch hf), fun o' ho => ⟨trivial, ?_⟩⟩
          cases ho
          exact h
      | cons arg args =>
          rw [List.length_cons] at hlength
          by_cases htakes : (cliFlag arg).takesArgument = true
          · cases args with
            | nil =>
                simp only [parseArguments, OptionsFit, selection, if_pos htakes]
                exact ⟨fun _ f hf => (nomatch hf), fun o' ho => (nomatch ho)⟩
            | cons value args =>
                rw [List.length_cons] at hlength
                have hoption := runOption_stored names (mem.tmp args.length)
                  (cliFlag arg) value h
                simp only [parseArguments, OptionsFit, selection, if_pos htakes]
                constructor
                · rintro ⟨hfits, hrest⟩ f hf
                  cases bind_eq_fault hf with
                  | inl hfault => exact hoption.1 hfits f hfault
                  | inr hok =>
                      obtain ⟨o₁, ho₁, hf⟩ := hok
                      exact (ih (by omega) (hoption.2 o₁ ho₁).2).1 hrest f hf
                · intro o' ho
                  obtain ⟨o₁, ho₁, ho⟩ := bind_eq_ok ho
                  obtain ⟨hfits, hstored⟩ := hoption.2 o₁ ho₁
                  obtain ⟨hrest, hstored'⟩ := (ih (by omega) hstored).2 o' ho
                  exact ⟨⟨hfits, hrest⟩, hstored'⟩
          · obtain ⟨hnofault, hkeeps⟩ := runFlag_keeps (cliFlag arg) arg o
            unfold parseArguments OptionsFit selection
            simp only [if_neg htakes]
            constructor
            · intro hrest f hf
              cases bind_eq_fault hf with
              | inl hfault => exact hnofault f hfault
              | inr hok =>
                  obtain ⟨o₁, ho₁, hf⟩ := hok
                  obtain ⟨hcount, hlist⟩ := hkeeps o₁ ho₁
                  exact (ih (by omega) (h.congr hcount hlist)).1 hrest f hf
            · intro o' ho
              obtain ⟨o₁, ho₁, ho⟩ := bind_eq_ok ho
              obtain ⟨hcount, hlist⟩ := hkeeps o₁ ho₁
              exact (ih (by omega) (h.congr hcount hlist)).2 o' ho

theorem initial_stored (mem : Memory) (argv0 : String) : Stored (.initial mem argv0) [] := by
  constructor
  case count => rfl
  case cells =>
    intro j num hj
    cases hj
  case last => exact fun hne => absurd rfl hne

/-! ## What is run -/

/-- A visit of the test with this number, the one after `t` others: the test is
run once, or there is none. -/
def Visited (prog : Program) (names : List String)
    (testRun : Nat → Int → String → TestRun) (t : Nat) (num : Int) (v : Visit) : Prop :=
  v.num = num ∧
    match testName names num with
    | none => v.ran = none
    | some name => ∃ out, runTest (testRun t num name) prog.gen prog.fuel = .ok out ∧
        v.ran = some out

/-- These numbers have been visited, in this order and nothing else. -/
def VisitedAll (prog : Program) (names : List String)
    (testRun : Nat → Int → String → TestRun) : Nat → List Int → List Visit → Prop
  | _, [], [] => True
  | t, num :: nums, v :: vs =>
      Visited prog names testRun t num v ∧ VisitedAll prog names testRun (t + 1) nums vs
  | _, _, _ => False

/-- The visit counts as a failure. -/
def Visit.failed (v : Visit) : Bool :=
  match v.ran with
  | none => true
  | some out => out.ret != 0

/-- The turns of the run loop for these numbers. -/
def visitAll (prog : Program) (names : List String)
    (testRun : Nat → Int → String → TestRun) : List Int → Totals → Except Fault Totals
  | [], r => .ok r
  | num :: nums, r => do
      let r ← visit prog names testRun num r
      visitAll prog names testRun nums r

section

variable {prog : Program} {names : List String} {testRun : Nat → Int → String → TestRun}

/-- The totals after these visits. -/
def Totals.after (r : Totals) (vs : List Visit) : Totals where
  result := r.result + vs.countP Visit.failed
  visits := r.visits ++ vs

theorem visit_iff {num : Int} {r r' : Totals} :
    visit prog names testRun num r = .ok r' ↔
      ∃ v, Visited prog names testRun r.visits.length num v ∧ r' = r.after [v] := by
  unfold visit Visited
  cases hname : testName names num with
  | none =>
      constructor
      · intro h
        cases h
        exact ⟨⟨num, none⟩, ⟨rfl, rfl⟩, rfl⟩
      · rintro ⟨⟨num', ran⟩, ⟨hnum, hran⟩, hr⟩
        cases hnum
        cases hran
        rw [hr]
        rfl
  | some name =>
      have hafter (out : TestResult) (hret : out.ret = 0 ∨ out.ret = 1) :
          ({ result := r.result + out.ret, visits := r.visits ++ [⟨num, some out⟩] } : Totals)
            = r.after [⟨num, some out⟩] := by
        cases hret with
        | inl hzero => simp [Totals.after, Visit.failed, hzero]
        | inr hone => simp [Totals.after, Visit.failed, hone]
      constructor
      · intro h
        obtain ⟨out, hout, h⟩ := exists_of_bind_eq_ok h
        cases h
        exact ⟨⟨num, some out⟩, ⟨rfl, out, hout, rfl⟩, hafter out (runTest_ret hout)⟩
      · rintro ⟨⟨num', ran⟩, ⟨hnum, out, hout, hran⟩, hr⟩
        cases hnum
        cases hran
        rw [hr, ← hafter out (runTest_ret hout)]
        simp only [hout]
        rfl

theorem Totals.after_cons (r : Totals) (v : Visit) (vs : List Visit) :
    r.after (v :: vs) = (r.after [v]).after vs := by
  cases hfailed : v.failed with
  | false => simp [Totals.after, hfailed]
  | true =>
      simp [Totals.after, hfailed]
      omega

theorem Totals.after_length (r : Totals) (v : Visit) :
    (r.after [v]).visits.length = r.visits.length + 1 := by
  simp [Totals.after]

theorem visitAll_iff (nums : List Int) : ∀ {r r' : Totals},
    visitAll prog names testRun nums r = .ok r' ↔
      ∃ vs, VisitedAll prog names testRun r.visits.length nums vs ∧ r' = r.after vs := by
  induction nums with
  | nil =>
      intro r r'
      have hnil : r.after [] = r := by simp [Totals.after]
      constructor
      · intro h
        cases h
        exact ⟨[], trivial, hnil.symm⟩
      · rintro ⟨vs, hvs, hr⟩
        cases vs with
        | nil => rw [hr, hnil]; rfl
        | cons v vs => exact hvs.elim
  | cons num nums ih =>
      intro r r'
      constructor
      · intro h
        obtain ⟨r₁, hr₁, h⟩ := exists_of_bind_eq_ok h
        obtain ⟨v, hv, rfl⟩ := visit_iff.mp hr₁
        obtain ⟨vs, hvs, hr⟩ := ih.mp h
        rw [r.after_length] at hvs
        exact ⟨v :: vs, ⟨hv, hvs⟩, hr.trans (r.after_cons v vs).symm⟩
      · rintro ⟨vs, hvs, hr⟩
        cases vs with
        | nil => exact hvs.elim
        | cons v vs =>
            have hfirst := visit_iff.mpr ⟨v, hvs.1, rfl⟩
            have hrest := ih.mpr ⟨vs, by rw [r.after_length]; exact hvs.2,
              hr.trans (r.after_cons v vs)⟩
            simp only [visitAll, hfirst]
            exact hrest

theorem VisitedAll.nums {nums : List Int} : ∀ {t : Nat} {vs : List Visit},
    VisitedAll prog names testRun t nums vs → vs.map Visit.num = nums := by
  induction nums with
  | nil =>
      intro t vs h
      cases vs with
      | nil => rfl
      | cons v vs => exact h.elim
  | cons num nums ih =>
      intro t vs h
      cases vs with
      | nil => exact h.elim
      | cons v vs => rw [List.map_cons, h.1.1, ih h.2]

/-- `run_test` comes back from each of the tests. -/
def TestsReturn (prog : Program) (names : List String)
    (testRun : Nat → Int → String → TestRun) (t : Nat) (nums : List Int) : Prop :=
  ∀ j num name, nums[j]? = some num → testName names num = some name →
    ∃ out, runTest (testRun (t + j) num name) prog.gen prog.fuel = .ok out

theorem exists_visitedAll_iff (nums : List Int) : ∀ {t : Nat},
    (∃ vs, VisitedAll prog names testRun t nums vs) ↔
      TestsReturn prog names testRun t nums := by
  induction nums with
  | nil =>
      intro t
      exact iff_of_true ⟨[], trivial⟩ fun j num name h => (nomatch h)
  | cons num nums ih =>
      intro t
      constructor
      · rintro ⟨vs, hvs⟩
        cases vs with
        | nil => exact hvs.elim
        | cons v vs =>
            intro j num' name hj hname
            cases j with
            | zero =>
                cases hj
                have hv := hvs.1.2
                rw [hname] at hv
                obtain ⟨out, hout, _⟩ := hv
                exact ⟨out, hout⟩
            | succ j =>
                have hrest := ih.mp ⟨vs, hvs.2⟩ j num' name hj hname
                rwa [Nat.add_right_comm] at hrest
      · intro hreturn
        have hrest : TestsReturn prog names testRun (t + 1) nums := by
          intro j num' name hj hname
          have hj' := hreturn (j + 1) num' name hj hname
          rwa [← Nat.add_assoc, Nat.add_right_comm] at hj'
        obtain ⟨vs, hvs⟩ := ih.mpr hrest
        cases hname : testName names num with
        | none => exact ⟨⟨num, none⟩ :: vs, ⟨rfl, by rw [hname]⟩, hvs⟩
        | some name =>
            obtain ⟨out, hout⟩ := hreturn 0 num name rfl hname
            refine ⟨⟨num, some out⟩ :: vs, ⟨rfl, ?_⟩, hvs⟩
            rw [hname]
            exact ⟨out, hout, rfl⟩

/-- The cells from `t` on up to the zero. -/
def storedFrom (list : TestList) : Nat → Nat → List Int
  | 0, _ => []
  | n + 1, t => if list t = 0 then [] else list t :: storedFrom list n (t + 1)

/-- The run loop visits the cells up to the zero. -/
theorem runSelected_eq (list : TestList) {m : Nat} (hend : list m = 0) (n : Nat) :
    ∀ {t : Nat} {r : Totals}, t ≤ m → m < t + n →
      runSelected prog names testRun list n t r =
        visitAll prog names testRun (storedFrom list (m - t) t) r := by
  induction n with
  | zero =>
      intro t r hle hlt
      omega
  | succ n ih =>
      intro t r hle hlt
      by_cases hzero : list t = 0
      · have hstored : storedFrom list (m - t) t = [] := by
          cases m - t with
          | zero => rfl
          | succ k => rw [storedFrom, if_pos hzero]
        rw [runSelected, if_pos hzero, hstored, visitAll]
      · have hne : t ≠ m := by
          intro heq
          exact hzero (heq ▸ hend)
        have hstored : storedFrom list (m - t) t =
            list t :: storedFrom list (m - (t + 1)) (t + 1) := by
          rw [show m - t = m - (t + 1) + 1 by omega, storedFrom, if_neg hzero]
        rw [runSelected, if_neg hzero, hstored, visitAll]
        congr 1
        funext r'
        exact ih (by omega) (by omega)

theorem storedFrom_ne_zero (list : TestList) (n : Nat) : ∀ {t : Nat},
    ∀ num ∈ storedFrom list n t, num ≠ 0 := by
  induction n with
  | zero => exact fun num h => (nomatch h)
  | succ n ih =>
      intro t num hmem
      unfold storedFrom at hmem
      split at hmem
      · cases hmem
      case isFalse hne =>
        cases List.mem_cons.mp hmem with
        | inl heq => exact heq ▸ hne
        | inr hrest => exact ih num hrest

theorem storedFrom_length (list : TestList) (n : Nat) : ∀ {t : Nat},
    (storedFrom list n t).length ≤ n := by
  induction n with
  | zero => exact Nat.le_refl 0
  | succ n ih =>
      intro t
      unfold storedFrom
      split
      · exact Nat.zero_le _
      · exact Nat.succ_le_succ ih

/-- Cells without a zero are all visited. -/
theorem storedFrom_eq {list : TestList} (nums : List Int) : ∀ {t : Nat},
    (∀ num ∈ nums, num ≠ 0) → (∀ j num, nums[j]? = some num → list (t + j) = num) →
      storedFrom list nums.length t = nums := by
  induction nums with
  | nil => exact fun _ _ => rfl
  | cons num nums ih =>
      intro t hne hcells
      have hfirst : list t = num := hcells 0 num rfl
      have hnum : ¬ list t = 0 := by
        rw [hfirst]
        exact hne num List.mem_cons_self
      have hrest := ih (t := t + 1) (fun num' h => hne num' (List.mem_cons_of_mem _ h))
        (fun j num' h => by
          rw [Nat.add_right_comm]
          exact hcells (j + 1) num' h)
      rw [List.length_cons, storedFrom, if_neg hnum, hfirst, hrest]

end

/-! ## The run -/

/-- The options lead to a run that visits exactly the selected tests, and the
result is the number of those that failed or do not exist. -/
def RunsSelection (prog : Program) (args : List String) : Prop :=
  ∃ o names s r, prepared prog args = .ok (o, names, s) ∧ bltsCliMain prog args = .ok r ∧
    VisitedAll prog names (prog.testRun o s args) 0 (selection prog.names args []) r.visits ∧
      r.result = r.visits.countP Visit.failed

/-- The options and the selection fit, no selected number is 0, and `run_test`
comes back from each selected test. -/
def Selectable (prog : Program) (args : List String) : Prop :=
  OptionsFit prog.names args [] ∧ (selection prog.names args []).length ≤ listCap ∧
    (∀ num ∈ selection prog.names args [], num ≠ 0) ∧
      ∀ o names s, prepared prog args = .ok (o, names, s) →
        TestsReturn prog names (prog.testRun o s args) 0 (selection prog.names args [])

/-- What the run loop does with a stored selection. -/
theorem runTests_stored {prog : Program} {names : List String}
    {testRun : Nat → Int → String → TestRun} {o : CliOptions} {sel : List Int}
    (h : Stored o sel) (hne : sel ≠ []) :
    runTests prog o names testRun =
      visitAll prog names testRun (storedFrom o.testList o.numTests 0) .initial := by
  have hpos := List.length_pos_iff.mpr hne
  have hcap : listCap + 1 = maxArgs := rfl
  have hcount := h.count
  have hnum : o.numTests ≠ 0 := by
    rw [hcount]
    exact Nat.ne_of_gt (Nat.lt_min.mpr ⟨by decide, hpos⟩)
  rw [runTests, if_pos hnum]
  exact runSelected_eq o.testList (h.last hnum) maxArgs (Nat.zero_le _) (by omega)

/--
**The selected tests.**  Let the options be accepted and select tests, and let
everything before the run succeed.  The run visits exactly the selected tests in
order, each of them being run once or counted as a failure, if and only if the
lists fit, no more than 255 tests are selected, none of them with number 0, and
`run_test` comes back from each.
-/
theorem selection_exact (prog : Program) (args : List String)
    (haccept : ∀ result, parseArguments prog.names prog.mem args
      (.initial prog.mem prog.argv0) ≠ .error (.cleanup result))
    (hprepare : ∀ o, parseArguments prog.names prog.mem args
      (.initial prog.mem prog.argv0) = .ok o → ∃ x, prepare prog o prog.config = .ok x)
    (hselect : selection prog.names args [] ≠ []) :
    RunsSelection prog args ↔ Selectable prog args := by
  obtain ⟨hnofault, hstored⟩ := parseArguments_stored prog.names prog.mem args.length
    (Nat.le_refl args.length) (initial_stored prog.mem prog.argv0)
  -- What both sides say once the options are read and the rest is prepared.
  have hmain {o : CliOptions} {names : List String} {s : ConfigState}
      (hprepared : prepared prog args = .ok (o, names, s))
      (h : Stored o (selection prog.names args [])) (r : CliResult) :
      bltsCliMain prog args = .ok r ↔ ∃ vs, VisitedAll prog names (prog.testRun o s args) 0
        (storedFrom o.testList o.numTests 0) vs ∧
          r = { result := vs.countP Visit.failed, visits := vs } := by
    have hvisit (t : Totals) : visitAll prog names (prog.testRun o s args)
        (storedFrom o.testList o.numTests 0) .initial = .ok t ↔
          ∃ vs, VisitedAll prog names (prog.testRun o s args) 0
            (storedFrom o.testList o.numTests 0) vs ∧ t = Totals.initial.after vs :=
      visitAll_iff _
    simp only [bltsCliMain, hprepared, runTests_stored h hselect]
    constructor
    · intro hr
      obtain ⟨r', hr', hr⟩ := exists_of_bind_eq_ok hr
      obtain ⟨vs, hvs, rfl⟩ := (hvisit _).mp hr'
      cases hr
      exact ⟨vs, hvs, by simp [Totals.after, Totals.initial]⟩
    · rintro ⟨vs, hvs, rfl⟩
      rw [(hvisit _).mpr ⟨vs, hvs, rfl⟩]
      simp [Totals.after, Totals.initial]
  constructor
  · rintro ⟨o, names, s, r, hprepared, hr, hvisited, _⟩
    obtain ⟨o', ho', hrest⟩ := bind_eq_ok hprepared
    obtain ⟨x, _, hx⟩ := bind_eq_ok hrest
    cases hx
    obtain ⟨hfit, hsel⟩ := hstored o ho'
    obtain ⟨vs, hvs, rfl⟩ := (hmain hprepared hsel r).mp hr
    have hnums : storedFrom o.testList o.numTests 0 = selection prog.names args [] :=
      hvs.nums.symm.trans hvisited.nums
    refine ⟨hfit, ?_, ?_, ?_⟩
    · have hlength := storedFrom_length o.testList o.numTests (t := 0)
      rw [hnums, hsel.count] at hlength
      exact hlength.trans (Nat.min_le_left _ _)
    · rw [← hnums]
      exact storedFrom_ne_zero o.testList o.numTests
    · intro o₁ names₁ s₁ hprepared₁
      rw [hprepared] at hprepared₁
      cases hprepared₁
      exact (exists_visitedAll_iff _).mp ⟨vs, hvisited⟩
  · rintro ⟨hfit, hlength, hnonzero, hreturn⟩
    cases hparse : parseArguments prog.names prog.mem args (.initial prog.mem prog.argv0) with
    | error stop =>
        cases stop with
        | fault f => exact absurd hparse (hnofault hfit f)
        | cleanup result => exact absurd hparse (haccept result)
    | ok o =>
        obtain ⟨⟨names, s⟩, hx⟩ := hprepare o hparse
        have hprepared : prepared prog args = .ok (o, names, s) := by
          simp only [prepared, hparse, hx, bind, Except.bind]
          rfl
        have hsel := (hstored o hparse).2
        have hcount : o.numTests = (selection prog.names args []).length := by
          rw [hsel.count]
          exact Nat.min_eq_right hlength
        have hnums : storedFrom o.testList o.numTests 0 = selection prog.names args [] := by
          rw [hcount]
          refine storedFrom_eq _ hnonzero fun j num hj => ?_
          have hlt := (List.getElem?_eq_some_iff.mp hj).1
          rw [Nat.zero_add]
          exact hsel.cells j num (by omega) hj (hnonzero num (List.mem_of_getElem? hj))
        obtain ⟨vs, hvs⟩ := (exists_visitedAll_iff _).mpr (hreturn o names s hprepared)
        refine ⟨o, names, s, { result := vs.countP Visit.failed, visits := vs }, hprepared,
          ?_, hvs, rfl⟩
        exact (hmain hprepared hsel _).mpr ⟨vs, by rw [hnums]; exact hvs, rfl⟩

/-- A test module with two tests and no configuration, in which each test passes. -/
def twoTests : Program where
  argv0 := "/usr/bin/blts-example"
  names := ["A", "B"]
  processArguments := none
  config := .initial
  mem := { testList := fun _ => 0, tmp := fun _ => [] }
  configDir := "/etc/blts"
  files := fun _ => .error 2
  bltsSyncMasterInit := fun _ => 0
  bltsSyncClientInit := 0
  xmlResultOpen := fun _ _ => 0
  csvResultFileOpen := fun _ _ => 0
  tests := fun _ => {
    passes := fun _ => { completion := some (.status 0), startTime := 0, endTime := 0 }
    totalStart := 0
    totalEnd := 0 }
  gen := fun _ _ => none
  fuel := 1

/-- Two numbers and a name. -/
theorem selection_exact_two :
    RunsSelection twoTests ["-e", "2,1", "-en", "B"] ↔
      Selectable twoTests ["-e", "2,1", "-en", "B"] := by
  have hprepared : (prepared twoTests ["-e", "2,1", "-en", "B"]).toOption.isSome = true := by
    decide +kernel
  refine selection_exact twoTests ["-e", "2,1", "-en", "B"] ?_ ?_ (by decide +kernel)
  · intro result hparse
    rw [prepared, hparse] at hprepared
    cases hprepared
  · intro o hparse
    cases hx : prepare twoTests o twoTests.config with
    | ok x => exact ⟨x, rfl⟩
    | error stop =>
        rw [prepared, hparse] at hprepared
        simp only [bind, Except.bind, hx] at hprepared
        cases hprepared

/-- A selected number 0 ends the run before test 1, and the name after 255 others
is written past the end of `test_list`. -/
theorem selection_zero :
    bltsCliMain twoTests ["-e", "0,1"] = .ok { result := 0, visits := [] } ∧
      ¬ RunsSelection twoTests ["-e", "0,1"] ∧
      bltsCliMain twoTests (List.replicate 256 ["-en", "A"]).flatten =
        .error .outOfBounds := by
  have hrun : bltsCliMain twoTests ["-e", "0,1"] = .ok { result := 0, visits := [] } := by
    decide +kernel
  refine ⟨hrun, ?_, by decide +kernel⟩
  rintro ⟨o, names, s, r, _, hr, hvisited, _⟩
  rw [hrun] at hr
  cases hr
  have hsel : selection twoTests.names ["-e", "0,1"] [] = [0, 1] := by decide +kernel
  have hnums := hvisited.nums
  rw [hsel] at hnums
  cases hnums

end Blts.Cli
