import Blts.Cli.RunTest

/-!
# What `run_test` reports

The list of failed variants is built while the variants are freed one after the
other, so everything that is reported about a variant has been copied.  The copy
of a variant without values follows a null pointer: `run_test` reports what
happened if and only if no such variant fails (`runTest_reports`).
-/

namespace Blts.Cli

open Blts.Params

/-- The pass with this number is reported failed. -/
def TestRun.fails (run : TestRun) (k : Nat) : Bool :=
  (run.passes k).completion.any fun c => waitForTestCaseCompletion c != 0

/-- The failed variants with the numbers of their passes, the first one being
`k`. -/
def TestRun.failures (run : TestRun) (variants : List (List BoxedValue)) (k : Nat) :
    List (List BoxedValue × Nat) :=
  (variants.zipIdx k).filter fun v => run.fails v.2

/-- The step that is due for a failed variant: its position counts from 1. -/
def TestRun.dueStep (run : TestRun) (paramNames : List String)
    (v : List BoxedValue × Nat) : ResultCall :=
  .writeStep 0 1 (run.passes v.2).startTime (run.passes v.2).endTime run.cmdline
    (some ⟨v.2 + 1, paramNames, v.1⟩)

/-- Each variant has been run once and in order; the result says whether a run
failed; one case has been written with this result, and it has one step for each
failed variant, the last one first, or one step if there is none. -/
structure Reported (run : TestRun) (paramNames : List String)
    (variants : List (List BoxedValue)) (r : TestResult) : Prop where
  children : r.children =
    if variants = [] then [run.child none] else variants.map fun v => run.child (some v)
  ret : r.ret = if ∃ k < max 1 variants.length, run.fails k = true then 1 else 0
  calls : r.calls = .startCase run.caseName run.manualExecution r.ret ::
    (if run.failures variants 0 = [] then
      [.writeStep 0 r.ret run.totalStart run.totalEnd run.cmdline none]
    else ((run.failures variants 0).map (run.dueStep paramNames)).reverse) ++ [.endCase]

/-- What is recorded of a failed variant. -/
def TestRun.record (run : TestRun) (v : List BoxedValue × Nat) : ResultList where
  startTime := (run.passes v.2).startTime
  endTime := (run.passes v.2).endTime
  index := (v.2 + 1) % uintMod
  values := v.1

/-- The state after the passes for these variants. -/
def RunState.after (s : RunState) (run : TestRun) (variants : List (List BoxedValue)) :
    RunState where
  nVariations := (s.children.length + variants.length) % uintMod
  failedVariants :=
    ((run.failures variants s.children.length).map run.record).reverse ++ s.failedVariants
  ret := if run.fails (s.children.length + variants.length - 1) then 1 else 0
  children := s.children ++ variants.map fun v => run.child (some v)

theorem TestRun.failures_nil (run : TestRun) (k : Nat) : run.failures [] k = [] := rfl

theorem TestRun.failures_cons (run : TestRun) (values : List BoxedValue)
    (variants : List (List BoxedValue)) (k : Nat) :
    run.failures (values :: variants) k =
      (if run.fails k then [(values, k)] else []) ++ run.failures variants (k + 1) := by
  unfold TestRun.failures
  rw [List.zipIdx_cons, List.filter_cons]
  by_cases hfail : run.fails k = true
  · simp [hfail]
  · simp [hfail]

theorem RunState.after_cons (s : RunState) (run : TestRun) (values : List BoxedValue)
    (variants : List (List BoxedValue)) :
    s.after run (values :: variants) = (s.after run [values]).after run variants := by
  have hlength : (s.after run [values]).children.length = s.children.length + 1 := by
    simp [RunState.after]
  have hcount : s.children.length + (values :: variants).length =
      (s.after run [values]).children.length + variants.length := by
    rw [hlength, List.length_cons]
    omega
  unfold RunState.after at hcount ⊢
  simp only [hcount, run.failures_cons values variants, run.failures_cons values [],
    run.failures_nil]
  simp

section

variable (run : TestRun) (hfork : ∀ k, (run.passes k).completion ≠ none)
include hfork

/-- The result of a pass is 1 if it fails, and 0 otherwise. -/
theorem completion_ret (k : Nat) : ∃ c, (run.passes k).completion = some c ∧
    waitForTestCaseCompletion c = if run.fails k then 1 else 0 := by
  obtain ⟨c, hc⟩ := Option.ne_none_iff_exists'.mp (hfork k)
  refine ⟨c, hc, ?_⟩
  simp only [TestRun.fails, hc, Option.any_some]
  cases c with
  | timeout => rfl
  | status ret =>
      by_cases hret : ret = 0
      · simp [waitForTestCaseCompletion, hret]
      · simp [waitForTestCaseCompletion, hret]

theorem runPass_none (s : RunState) : runPass run none s = .ok {
    nVariations := (s.nVariations + 1) % uintMod
    failedVariants := s.failedVariants
    ret := if run.fails s.children.length then 1 else 0
    children := s.children ++ [run.child none] } := by
  obtain ⟨c, hc, hret⟩ := completion_ret run hfork s.children.length
  simp only [runPass, hc, hret]

/-- **One pass**, unless a variant without values fails. -/
theorem runPass_some {s : RunState} (hs : s.nVariations = s.children.length % uintMod)
    (values : List BoxedValue) : runPass run (some values) s =
      if run.fails s.children.length = true ∧ values = [] then .error (.fault .nullDeref)
      else .ok (s.after run [values]) := by
  obtain ⟨c, hc, hret⟩ := completion_ret run hfork s.children.length
  have hnext : (s.nVariations + 1) % uintMod = (s.children.length + 1) % uintMod := by
    rw [hs, Nat.mod_add_mod]
  simp only [runPass, hc, hret, hnext]
  by_cases hfail : run.fails s.children.length = true
  · cases values with
    | nil => simp [hfail, bltsConfigBoxedValueListDup]
    | cons v values =>
        simp [hfail, bltsConfigBoxedValueListDup, RunState.after, TestRun.failures,
          TestRun.record]
  · simp [hfail, RunState.after, TestRun.failures]

/-- **The loop** makes a pass for each variant, until one without values fails. -/
theorem runLoop_eq (variants : List (List BoxedValue)) : ∀ {s : RunState},
    variants ≠ [] → s.nVariations = s.children.length % uintMod →
      runLoop run variants s =
        if ∃ v ∈ run.failures variants s.children.length, v.1 = [] then
          .error (.fault .nullDeref)
        else .ok (s.after run variants) := by
  induction variants with
  | nil => exact fun hne => absurd rfl hne
  | cons values variants ih =>
      intro s _ hs
      have hpass := runPass_some run hfork hs values
      have hlength : (s.after run [values]).children.length = s.children.length + 1 := by
        simp [RunState.after]
      have hinner : (∃ v ∈ run.failures (values :: variants) s.children.length, v.1 = []) ↔
          (run.fails s.children.length = true ∧ values = []) ∨
            ∃ v ∈ run.failures variants (s.children.length + 1), v.1 = [] := by
        rw [run.failures_cons]
        by_cases hfail : run.fails s.children.length = true
        · simp [hfail]
        · simp [hfail]
      cases variants with
      | nil =>
          rw [runLoop, hpass]
          simp only [hinner, run.failures_nil, List.not_mem_nil, false_and, exists_false,
            or_false]
      | cons next variants =>
          have hrest : (s.after run [values]).nVariations =
              (s.after run [values]).children.length % uintMod := by
            rw [hlength]
            rfl
          have hloop := ih (by simp) hrest
          rw [hlength] at hloop
          rw [runLoop, hpass]
          by_cases hnull : run.fails s.children.length = true ∧ values = []
          · rw [if_pos hnull, if_pos (hinner.mpr (.inl hnull))]
            rfl
          · have hrestIff : (∃ v ∈ run.failures (values :: next :: variants)
                s.children.length, v.1 = []) ↔
                  ∃ v ∈ run.failures (next :: variants) (s.children.length + 1), v.1 = [] := by
              rw [hinner]
              exact or_iff_right hnull
            rw [if_neg hnull]
            show runLoop run (next :: variants) (s.after run [values]) = _
            rw [hloop, ← s.after_cons run values]
            simp only [hrestIff]

end

/-- Some pass fails if and only if there is a failed variant. -/
theorem TestRun.exists_fails_iff (run : TestRun) (variants : List (List BoxedValue)) :
    (∃ k < variants.length, run.fails k = true) ↔ run.failures variants 0 ≠ [] := by
  unfold TestRun.failures
  constructor
  · rintro ⟨k, hk, hfail⟩
    have hmem : (variants[k], k) ∈ variants.zipIdx 0 :=
      List.mk_mem_zipIdx_iff_getElem?.mpr (List.getElem?_eq_getElem hk)
    exact List.ne_nil_of_mem (List.mem_filter.mpr ⟨hmem, hfail⟩)
  · intro hne
    obtain ⟨⟨values, k⟩, hmem⟩ := List.exists_mem_of_ne_nil _ hne
    obtain ⟨hmem, hfail⟩ := List.mem_filter.mp hmem
    have hk := List.mk_mem_zipIdx_iff_getElem?.mp hmem
    exact ⟨k, (List.getElem?_eq_some_iff.mp hk).1, hfail⟩

theorem printedInt_succ_iff (k : Nat) :
    printedInt ((k + 1) % uintMod) = k + 1 ↔ k + 1 < 2147483648 := by
  have hmod : uintMod = 4294967296 := rfl
  unfold printedInt
  rw [hmod]
  split <;> omega

/-- The step that is written carries the position if `%d` can print it. -/
theorem TestRun.failedStep_record_iff (run : TestRun) (paramNames : List String)
    (v : List BoxedValue × Nat) :
    run.failedStep paramNames 1 (run.record v) = run.dueStep paramNames v ↔
      v.2 + 1 < 2147483648 := by
  rw [← printedInt_succ_iff]
  simp [TestRun.failedStep, TestRun.record, TestRun.dueStep]

/-- The steps for the failed variants. -/
theorem TestRun.failedSteps_iff (run : TestRun) (paramNames : List String)
    (failures : List (List BoxedValue × Nat)) :
    (failures.map run.record).reverse.map (run.failedStep paramNames 1) =
        (failures.map (run.dueStep paramNames)).reverse ↔
      ∀ v ∈ failures, v.2 + 1 < 2147483648 := by
  rw [List.map_reverse, List.reverse_inj, List.map_map, List.map_inj_left]
  exact forall₂_congr fun v _ => run.failedStep_record_iff paramNames v

section

variable (run : TestRun) (paramNames : List String)
  (hfork : ∀ k, (run.passes k).completion ≠ none)
include hfork

/-- A test without variants is run once. -/
theorem reported_nil : ∃ r, runTestVariants run paramNames [] = .ok r ∧
    Reported run paramNames [] r := by
  have hloop : runLoop run [] .initial = .ok {
      nVariations := 1
      failedVariants := []
      ret := if run.fails 0 then 1 else 0
      children := [run.child none] } := runPass_none run hfork .initial
  refine ⟨_, by rw [runTestVariants, hloop], ?_⟩
  constructor
  case children => rfl
  case ret => simp
  case calls => rfl

/-- The variants are run, and none of the failed ones is without values. -/
theorem reported_iff {variants : List (List BoxedValue)} (hne : variants ≠ [])
    (hvalues : ¬ ∃ v ∈ run.failures variants 0, v.1 = []) :
    (∃ r, runTestVariants run paramNames variants = .ok r ∧
        Reported run paramNames variants r) ↔
      ∀ v ∈ run.failures variants 0, v.2 + 1 < 2147483648 := by
  have hloop := runLoop_eq run hfork variants (s := .initial) hne rfl
  rw [show RunState.initial.children.length = 0 from rfl, if_neg hvalues] at hloop
  have hpasses : max 1 variants.length = variants.length :=
    Nat.max_eq_right (List.length_pos_iff.mpr hne)
  have hexists := run.exists_fails_iff variants
  have hchildren : (RunState.initial.after run variants).children =
      if variants = [] then [run.child none] else variants.map fun v => run.child (some v) := by
    rw [if_neg hne]
    rfl
  have hfailed : (RunState.initial.after run variants).failedVariants =
      ((run.failures variants 0).map run.record).reverse := List.append_nil _
  by_cases hfailures : run.failures variants 0 = []
  · have hlast : ¬ run.fails (0 + variants.length - 1) = true := by
      intro hfail
      have hpos := List.length_pos_iff.mpr hne
      exact hexists.mp ⟨_, by omega, hfail⟩ hfailures
    have hret : (RunState.initial.after run variants).ret = 0 := if_neg hlast
    have hnone : (RunState.initial.after run variants).failedVariants = [] := by
      rw [hfailed, hfailures]
      rfl
    refine iff_of_true ⟨_, by rw [runTestVariants, hloop], ?_⟩ ?_
    · simp only [hnone, hret, ne_eq, not_true_eq_false, if_false]
      constructor
      case children => exact hchildren
      case ret => simp [hpasses, hexists, hfailures]
      case calls => simp [hfailures]
    · rw [hfailures]
      exact fun v hv => nomatch hv
  · have hsome : (RunState.initial.after run variants).failedVariants ≠ [] := by
      rw [hfailed]
      simpa using hfailures
    have hresult : runTestVariants run paramNames variants = .ok {
        ret := 1
        children := (RunState.initial.after run variants).children
        calls := .startCase run.caseName run.manualExecution 1 ::
          ((run.failures variants 0).map run.record).reverse.map
            (run.failedStep paramNames 1) ++ [.endCase] } := by
      rw [runTestVariants, hloop]
      simp only [if_pos hsome]
      rw [hfailed]
    rw [← run.failedSteps_iff paramNames, hresult]
    constructor
    · rintro ⟨r, hr, hreported⟩
      cases hr
      have hcalls := hreported.calls
      rw [if_neg hfailures] at hcalls
      exact List.append_cancel_right (List.cons.inj hcalls).2
    · intro hsteps
      refine ⟨_, rfl, ?_⟩
      constructor
      case children => exact hchildren
      case ret => simp [hpasses, hexists, hfailures]
      case calls => rw [if_neg hfailures, hsteps]

end

/--
**What `run_test` reports**, for every test case and all of its variants if
`fork` succeeds.  Every variant is run once and in order, the result tells
whether one failed, and the case that is written has one step with the position
and the values of each failed variant, if and only if every failed variant has
values and a position that an `int` holds.
-/
theorem runTest_reports (run : TestRun) (paramNames : List String)
    (variants : List (List BoxedValue))
    (hfork : ∀ k, (run.passes k).completion ≠ none) :
    (∃ r, runTestVariants run paramNames variants = .ok r ∧
        Reported run paramNames variants r) ↔
      ∀ v ∈ run.failures variants 0, v.1 ≠ [] ∧ v.2 + 1 < 2147483648 := by
  by_cases hne : variants = []
  · rw [hne]
    exact iff_of_true (reported_nil run paramNames hfork) fun v hv => nomatch hv
  · by_cases hvalues : ∃ v ∈ run.failures variants 0, v.1 = []
    · have hloop : runLoop run variants .initial = .error (.fault .nullDeref) := by
        rw [runLoop_eq run hfork variants hne rfl]
        exact if_pos hvalues
      obtain ⟨v, hv, hempty⟩ := hvalues
      apply iff_of_false
      · rintro ⟨r, hr, _⟩
        rw [runTestVariants, hloop] at hr
        cases hr
      · exact fun hall => (hall v hv).1 hempty
    · rw [reported_iff run paramNames hfork hne hvalues]
      push Not at hvalues
      exact forall₂_congr fun v hv => (and_iff_right (hvalues v hv)).symm

/-! ## The result -/

theorem waitForTestCaseCompletion_le (c : Completion) :
    waitForTestCaseCompletion c = 0 ∨ waitForTestCaseCompletion c = 1 := by
  cases c with
  | timeout => exact .inr rfl
  | status ret =>
      by_cases hret : ret = 0
      · exact .inl (if_neg (not_not_intro hret))
      · exact .inr (if_pos hret)

theorem runPass_ret {run : TestRun} {variant : Option (List BoxedValue)} {s s' : RunState}
    (h : runPass run variant s = .ok s') : s'.ret = 0 ∨ s'.ret = 1 := by
  cases hc : (run.passes s.children.length).completion with
  | none =>
      simp only [runPass, hc] at h
      cases h
  | some c =>
      have hret := waitForTestCaseCompletion_le c
      simp only [runPass, hc] at h
      cases variant with
      | none =>
          cases h
          exact hret
      | some values =>
          dsimp only at h
          split at h
          · split at h
            · cases h
            · cases h
              exact hret
          · cases h
            exact hret

theorem runLoop_ret {run : TestRun} (variants : List (List BoxedValue)) :
    ∀ {s s' : RunState}, runLoop run variants s = .ok s' → s'.ret = 0 ∨ s'.ret = 1 := by
  induction variants with
  | nil => exact fun h => runPass_ret h
  | cons values variants ih =>
      intro s s' h
      cases variants with
      | nil => exact runPass_ret h
      | cons next variants =>
          simp only [runLoop] at h
          cases hpass : runPass run (some values) s with
          | error stop =>
              rw [hpass] at h
              cases h
          | ok s₁ =>
              rw [hpass] at h
              exact ih h

theorem runTestVariants_ret {run : TestRun} {names : List String}
    {variants : List (List BoxedValue)} {out : TestResult}
    (h : runTestVariants run names variants = .ok out) : out.ret = 0 ∨ out.ret = 1 := by
  unfold runTestVariants at h
  split at h
  case h_1 => cases h
  case h_2 =>
    cases h
    exact .inr rfl
  case h_3 s hloop =>
    cases h
    dsimp only
    split
    · exact .inr rfl
    · exact runLoop_ret variants hloop

/-- **The result of `run_test`** is 0 or 1. -/
theorem runTest_ret {run : TestRun} {gen : GenFuncs} {fuel : Nat} {out : TestResult}
    (h : runTest run gen fuel = .ok out) : out.ret = 0 ∨ out.ret = 1 := by
  unfold runTest at h
  split at h
  · obtain ⟨variants, _, h⟩ := exists_of_bind_eq_ok h
    obtain ⟨names, _, h⟩ := exists_of_bind_eq_ok h
    exact runTestVariants_ret h
  · exact runTestVariants_ret h

/-! ## A variant without values -/

/-- A test `T` that accepts one parameter, for which the configuration has a
value but no variation. -/
def fixOnly : SymbolTable where
  cells := some [
    some ⟨"p", .param ⟨.int, .constlist (some [.int 1])⟩⟩,
    some ⟨"T", .test {
      settings := [.fix 0 (some (.int 2))]
      paramDefaults := [.int 1]
      paramTags := ["p"]
      argHandler := some 0
      argHandler2 := none }⟩]
  top := 2

/-- A run of `T` in which only the pass with this number fails. -/
def failingPass (n : Nat) : TestRun where
  table := fixOnly
  testnum := 1
  caseName := "T"
  cmdline := "blts"
  manualExecution := true
  passes := fun k => {
    completion := some (.status (if k = n then 256 else 0))
    startTime := k
    endTime := k + 1 }
  totalStart := 0
  totalEnd := 3

/-- Two variants, the first of which fails. -/
theorem runTest_reports_two : ∃ r,
    runTestVariants (failingPass 0) ["p"] [[.int 1], [.int 2]] = .ok r ∧
      Reported (failingPass 0) ["p"] [[.int 1], [.int 2]] r :=
  (runTest_reports (failingPass 0) ["p"] [[.int 1], [.int 2]]
    fun _ h => Option.some_ne_none _ h).mpr (by decide)

/-- The only variant of `T` has no values, and it fails. -/
theorem runTest_fixOnly :
    runTest (failingPass 0) (fun _ _ => none) 1 = .error .nullDeref ∧
      ¬ ∃ r, runTestVariants (failingPass 0) [] [[]] = .ok r ∧
        Reported (failingPass 0) [] [[]] r := by
  have hrun : runTest (failingPass 0) (fun _ _ => none) 1 = .error .nullDeref := by
    decide +kernel
  have hvariants : runTestVariants (failingPass 0) [] [[]] = .error .nullDeref := by
    decide +kernel
  refine ⟨hrun, ?_⟩
  rintro ⟨r, hr, _⟩
  rw [hvariants] at hr
  cases hr

end Blts.Cli
