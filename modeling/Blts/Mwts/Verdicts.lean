import Blts.Mwts.Result

/-!
# Verdicts before and after a report

A report puts the initial iteration in the list if it is the only one, and only
then its measures count.  After a report the verdict is always the right one
(`passed_report`); before it, it is unless measures are left in the initial
iteration (`verdictKept_iff`).
-/

namespace Blts.Mwts

/-! ## The verdict -/

/-- No step has failed, and there is no error. -/
def MwtsIteration.Clean (it : MwtsIteration) : Prop :=
  it.listErrors = [] ∧ ∀ step ∈ it.listSteps, step.passed = true

instance (it : MwtsIteration) : Decidable it.Clean := by
  unfold MwtsIteration.Clean
  infer_instance

theorem MwtsIteration.isPassed_iff (it : MwtsIteration) : it.isPassed = true ↔ it.Clean := by
  unfold MwtsIteration.isPassed MwtsIteration.Clean
  cases it.listErrors <;> simp

/-- The value is on the right side of the limit: large values are good unless the
limit is above the target. -/
def MeetsLimit (s : MwtsResult) (v : ℚ) : Prop :=
  if s.target < s.failLimit then v ≤ s.failLimit else s.failLimit ≤ v

instance (s : MwtsResult) (v : ℚ) : Decidable (MeetsLimit s v) := by
  unfold MeetsLimit
  infer_instance

/-- The iterations of a report: those of the list, or the initial one. -/
def reported (s : MwtsResult) : List MwtsIteration :=
  if s.listIterations = [] then [s.iterations s.initIteration]
  else s.listIterations.map s.iterations

/-- The values that were measured in these iterations. -/
def measured (its : List MwtsIteration) : List ℚ :=
  its.flatMap fun it => it.listMeasures.map MwtsMeasure.value

/-- The value in the middle, wherever the values are sorted, meets the limit. -/
def MedianMeets (s : MwtsResult) (values : List ℚ) : Prop :=
  ∀ sorted : List ℚ, sorted.Perm values → sorted.Pairwise (· ≤ ·) →
    ∀ v, sorted[sorted.length / 2]? = some v → MeetsLimit s v

/-- The test case has passed. -/
structure Verdict (s : MwtsResult) : Prop where
  clean : ∀ ref < s.allocated, (s.iterations ref).Clean
  single : ∀ it ∈ reported s, it.listMeasures.length ≤ 1
  median : MedianMeets s (measured (reported s))

/-! ## What the code computes -/

theorem isLimitExceeded_iff (s : MwtsResult) (stats : MwtsStatistics) :
    s.isLimitExceeded stats = true ↔ MeetsLimit s stats.median := by
  unfold MwtsResult.isLimitExceeded MeetsLimit
  by_cases hdir : s.target < s.failLimit
  · simp [hdir]
  · simp [hdir]

/-- The median is the value in the middle of every sorted list of the values. -/
theorem median_new {values sorted : List ℚ} (hne : values ≠ []) (hperm : sorted.Perm values)
    (hsorted : sorted.Pairwise (· ≤ ·)) :
    sorted[sorted.length / 2]? = some (MwtsStatistics.new values).median := by
  obtain _ | ⟨v, _ | ⟨w, values⟩⟩ := values
  · exact absurd rfl hne
  · obtain rfl := List.perm_singleton.mp hperm
    simp [MwtsStatistics.new]
  · have heq : sorted = (v :: w :: values).insertionSort (· ≤ ·) :=
      (hperm.trans (List.perm_insertionSort _ _).symm).eq_of_pairwise' hsorted
        (List.pairwise_insertionSort _ _)
    have hlength := hperm.length_eq
    have hlt : sorted.length / 2 < sorted.length := by
      rw [hlength, List.length_cons]
      omega
    rw [List.getElem?_eq_getElem hlt]
    unfold MwtsStatistics.new
    simp only [← heq, ← hlength, List.getD_eq_getElem?_getD, List.getElem?_eq_getElem hlt,
      Option.getD_some]

theorem medianMeets_iff (s : MwtsResult) {values : List ℚ} (hne : values ≠ []) :
    MedianMeets s values ↔ MeetsLimit s (MwtsStatistics.new values).median := by
  constructor
  · intro h
    exact h _ (List.perm_insertionSort (· ≤ ·) values) (List.pairwise_insertionSort _ _) _
      (median_new hne (List.perm_insertionSort _ _) (List.pairwise_insertionSort _ _))
  · intro h sorted hperm hsorted v hv
    rw [median_new hne hperm hsorted] at hv
    exact Option.some.inj hv ▸ h

theorem medianMeets_nil (s : MwtsResult) : MedianMeets s [] := by
  intro sorted hperm _ v hv
  rw [List.perm_nil.mp hperm] at hv
  cases hv

/-- The loop adds up the values of clean iterations with one measure at most. -/
theorem passedValues_eq_some {its : List MwtsIteration} :
    ∀ {values values' : List ℚ}, MwtsResult.passedValues its values = some values' ↔
      (∀ it ∈ its, it.Clean ∧ it.listMeasures.length ≤ 1) ∧
        values' = values ++ measured its := by
  induction its with
  | nil =>
      intro values values'
      simp [MwtsResult.passedValues, measured, eq_comm]
  | cons it its ih =>
      intro values values'
      rw [MwtsResult.passedValues, List.forall_mem_cons, ← it.isPassed_iff]
      cases hpassed : it.isPassed with
      | false => simp
      | true =>
          simp only [Bool.true_eq_false, if_false, true_and]
          obtain hnil | ⟨measure, hone⟩ | ⟨m₁, m₂, ms, hmore⟩ :
              it.listMeasures = [] ∨ (∃ m, it.listMeasures = [m]) ∨
                ∃ m₁ m₂ ms, it.listMeasures = m₁ :: m₂ :: ms := by
            obtain _ | ⟨m, _ | ⟨m', ms⟩⟩ := it.listMeasures <;> simp
          · rw [hnil]
            simp [ih, measured, hnil]
          · rw [hone]
            simp [ih, measured, hone]
          · rw [hmore]
            simp

/-- **The verdict of the code** looks at the initial iteration, and at the
measures of the list. -/
theorem isPassed_iff (s : MwtsResult) :
    s.isPassed = true ↔ (s.iterations s.initIteration).Clean ∧
      (∀ it ∈ s.listIterations.map s.iterations,
        it.Clean ∧ it.listMeasures.length ≤ 1) ∧
      MedianMeets s (measured (s.listIterations.map s.iterations)) := by
  unfold MwtsResult.isPassed
  rw [← MwtsIteration.isPassed_iff]
  cases hinit : (s.iterations s.initIteration).isPassed with
  | false => simp
  | true =>
      simp only [Bool.true_eq_false, if_false, true_and]
      cases hvalues : MwtsResult.passedValues (s.listIterations.map s.iterations) [] with
      | none =>
          refine iff_of_false Bool.false_ne_true fun h => ?_
          rw [passedValues_eq_some.mpr ⟨h.1, rfl⟩] at hvalues
          cases hvalues
      | some values =>
          obtain ⟨hall, hmeasured⟩ := passedValues_eq_some.mp hvalues
          rw [List.nil_append] at hmeasured
          rw [← hmeasured]
          cases values with
          | nil => exact iff_of_true rfl ⟨hall, medianMeets_nil s⟩
          | cons v values =>
              rw [medianMeets_iff s (List.cons_ne_nil v values)]
              exact (isLimitExceeded_iff s _).trans ⟨fun h => ⟨hall, h⟩, fun h => h.2⟩

/-! ## Before and after a report -/

/-- The iterations that exist are the initial one and those of the list. -/
def Listed (s : MwtsResult) : Prop :=
  ∀ ref, ref < s.allocated ↔ ref = s.initIteration ∨ ref ∈ s.listIterations

theorem listed_new : Listed .new := by
  intro ref
  show ref < 1 ↔ ref = 0 ∨ ref ∈ []
  simp

/-- **One call** keeps the iterations listed. -/
theorem Listed.run {contains : String → String → Bool} {s : MwtsResult} (h : Listed s)
    (c : ResultCall) : Listed (c.run contains s) := by
  cases c with
  | stepPassed step passed => exact h
  | addError error => exact h
  | setLimits target fail => exact h
  | setResultFilter filter => exact h
  | addMeasure name value unit =>
      show Listed (s.addMeasure contains name value unit)
      unfold MwtsResult.addMeasure
      split
      · exact h
      · exact h
  | nextIteration =>
      intro ref
      show ref < s.allocated + 1 ↔
        ref = s.initIteration ∨ ref ∈ s.listIterations ++ [s.allocated]
      rw [List.mem_append, List.mem_singleton, ← or_assoc, ← h ref]
      omega

/-- **Every sequence of calls** keeps them listed. -/
theorem listed_collected (contains : String → String → Bool) (cs : List ResultCall) :
    Listed (collected contains cs) := by
  have hfold : ∀ (cs : List ResultCall) (s : MwtsResult), Listed s →
      Listed (cs.foldl (ResultCall.run contains) s) := by
    intro cs
    induction cs with
    | nil => exact fun _ h => h
    | cons c cs ih => exact fun s h => ih _ (h.run c)
  exact hfold cs _ listed_new

/-- Only the next iteration is put in the list. -/
theorem listIterations_run (contains : String → String → Bool) (s : MwtsResult)
    (c : ResultCall) : (c.run contains s).listIterations = [] ↔
      s.listIterations = [] ∧ c ≠ .nextIteration := by
  cases c with
  | stepPassed step passed => exact (and_iff_left (by simp)).symm
  | addError error => exact (and_iff_left (by simp)).symm
  | setLimits target fail => exact (and_iff_left (by simp)).symm
  | setResultFilter filter => exact (and_iff_left (by simp)).symm
  | addMeasure name value unit =>
      show (s.addMeasure contains name value unit).listIterations = [] ↔ _
      unfold MwtsResult.addMeasure
      split
      · exact (and_iff_left (by simp)).symm
      · exact (and_iff_left (by simp)).symm
  | nextIteration =>
      show s.listIterations ++ [s.allocated] = [] ↔ _
      simp

theorem listIterations_collected (contains : String → String → Bool)
    (cs : List ResultCall) :
    (collected contains cs).listIterations = [] ↔ .nextIteration ∉ cs := by
  have hfold : ∀ (cs : List ResultCall) (s : MwtsResult),
      (cs.foldl (ResultCall.run contains) s).listIterations = [] ↔
        s.listIterations = [] ∧ .nextIteration ∉ cs := by
    intro cs
    induction cs with
    | nil => simp
    | cons c cs ih =>
        intro s
        rw [List.foldl_cons, ih, listIterations_run, List.mem_cons, not_or, and_assoc,
          ne_comm]
  rw [collected, hfold]
  exact and_iff_right rfl

/-- The verdict, by the iterations of a report. -/
theorem verdict_iff {s : MwtsResult} (h : Listed s) :
    Verdict s ↔ (s.iterations s.initIteration).Clean ∧
      (∀ it ∈ reported s, it.Clean ∧ it.listMeasures.length ≤ 1) ∧
      MedianMeets s (measured (reported s)) := by
  constructor
  · intro hv
    refine ⟨hv.clean _ ((h _).mpr (.inl rfl)), fun it hit => ⟨?_, hv.single it hit⟩,
      hv.median⟩
    unfold reported at hit
    split at hit
    · rw [List.mem_singleton.mp hit]
      exact hv.clean _ ((h _).mpr (.inl rfl))
    · obtain ⟨ref, href, rfl⟩ := List.mem_map.mp hit
      exact hv.clean _ ((h _).mpr (.inr href))
  · rintro ⟨hinit, hall, hmedian⟩
    refine ⟨fun ref href => ?_, fun it hit => (hall it hit).2, hmedian⟩
    rcases (h ref).mp href with rfl | hmem
    · exact hinit
    · refine (hall _ ?_).1
      rw [reported, if_neg (List.ne_nil_of_mem hmem)]
      exact List.mem_map.mpr ⟨ref, hmem, rfl⟩

/-- With other iterations the verdict of the code is right. -/
theorem isPassed_of_listed {s : MwtsResult} (h : Listed s) (hne : s.listIterations ≠ []) :
    s.isPassed = true ↔ Verdict s := by
  rw [verdict_iff h, reported, if_neg hne]
  exact isPassed_iff s

/-- Without them it leaves out the measures of the initial iteration. -/
theorem isPassed_of_initial {s : MwtsResult} (hnil : s.listIterations = []) :
    s.isPassed = true ↔ (s.iterations s.initIteration).Clean := by
  rw [isPassed_iff, hnil]
  exact and_iff_left ⟨fun it hit => absurd hit List.not_mem_nil, medianMeets_nil s⟩

/-- **After a report** the verdict is right. -/
theorem isPassed_writeReport {s : MwtsResult} (h : Listed s) :
    s.writeReport.2.isPassed = true ↔ Verdict s := by
  by_cases hnil : s.listIterations = []
  · have hafter : s.writeReport.2 = { s with listIterations := [s.initIteration] } := by
      simp [MwtsResult.writeReport, hnil]
    rw [hafter, isPassed_iff, verdict_iff h, reported, if_pos hnil]
    rfl
  · have hafter : s.writeReport.2 = s := by
      simp [MwtsResult.writeReport, hnil]
    rw [hafter]
    exact isPassed_of_listed h hnil

/-- A second report changes nothing. -/
theorem writeReport_writeReport (s : MwtsResult) :
    s.writeReport.2.writeReport.2 = s.writeReport.2 := by
  by_cases hnil : s.listIterations = []
  · simp [MwtsResult.writeReport, hnil]
  · simp [MwtsResult.writeReport, hnil]

theorem reportedTimes_succ (n : Nat) (s : MwtsResult) :
    reportedTimes (n + 1) s = s.writeReport.2 := by
  unfold reportedTimes
  induction n with
  | zero => rfl
  | succ n ih => rw [Function.iterate_succ_apply', ih, writeReport_writeReport]

/-- The verdict that is reported is the right one, after any calls. -/
theorem passed_report (contains : String → String → Bool) (cs : List ResultCall) :
    (collected contains cs).writeReport.1.passed = true ↔ Verdict (collected contains cs) :=
  isPassed_writeReport (listed_collected contains cs)

/-! ## The verdict of a sequence of calls -/

/-- The verdict of the code is the right one after these calls, before and after
any number of reports. -/
def VerdictKept (contains : String → String → Bool) (cs : List ResultCall) : Prop :=
  ∀ n, (reportedTimes n (collected contains cs)).isPassed = true ↔
    Verdict (collected contains cs)

/-- The measures do not stay in the initial iteration, or they make no difference
there: it has failed anyway, or it has one measure at most, and that meets the
limit. -/
def MeasuresCount (contains : String → String → Bool) (cs : List ResultCall) : Prop :=
  .nextIteration ∈ cs ∨
    let s := collected contains cs
    let it := s.iterations s.initIteration
    ¬ it.Clean ∨ it.listMeasures.length ≤ 1 ∧
      ∀ measure ∈ it.listMeasures, MeetsLimit s measure.value

instance (contains : String → String → Bool) (cs : List ResultCall) :
    Decidable (MeasuresCount contains cs) := by
  unfold MeasuresCount
  infer_instance

/-- The median of one measure is that measure. -/
theorem medianMeets_initial (s : MwtsResult) {it : MwtsIteration}
    (hone : it.listMeasures.length ≤ 1) :
    MedianMeets s (measured [it]) ↔
      ∀ measure ∈ it.listMeasures, MeetsLimit s measure.value := by
  obtain hnil | ⟨measure, hsingle⟩ :
      it.listMeasures = [] ∨ ∃ measure, it.listMeasures = [measure] := by
    cases hlist : it.listMeasures with
    | nil => exact .inl rfl
    | cons m ms =>
        rw [hlist, List.length_cons] at hone
        obtain rfl : ms = [] := List.eq_nil_of_length_eq_zero (by omega)
        exact .inr ⟨m, rfl⟩
  · rw [hnil, measured, List.flatMap_singleton, hnil]
    exact iff_of_true (medianMeets_nil s) fun m hm => by cases hm
  · rw [hsingle, measured, List.flatMap_singleton, hsingle, List.forall_mem_singleton]
    exact medianMeets_iff s (List.cons_ne_nil _ _)

/--
**One verdict.**  After any calls, the verdict of the code is the same before and
after any number of reports, and passes exactly the test cases without failed
steps and errors, with one measure for each reported iteration at most, and with
a median that meets the limit, if and only if the measures are not left in the
initial iteration where they would make a difference.
-/
theorem verdictKept_iff (contains : String → String → Bool) (cs : List ResultCall) :
    VerdictKept contains cs ↔ MeasuresCount contains cs := by
  have h := listed_collected contains cs
  have hlist := listIterations_collected contains cs
  unfold VerdictKept MeasuresCount
  by_cases hnext : .nextIteration ∈ cs
  · refine iff_of_true (fun n => ?_) (.inl hnext)
    cases n with
    | zero => exact isPassed_of_listed h (mt hlist.mp (not_not_intro hnext))
    | succ n =>
        rw [reportedTimes_succ]
        exact isPassed_writeReport h
  · have hnil := hlist.mpr hnext
    have hbefore := isPassed_of_initial hnil
    have hverdict := verdict_iff h
    rw [reported, if_pos hnil] at hverdict
    simp only [hnext, false_or]
    constructor
    · intro hkept
      refine or_iff_not_imp_left.mpr fun hclean => ?_
      have hv := (hkept 0).mp (hbefore.mpr (not_not.mp hclean))
      obtain ⟨_, hall, hmedian⟩ := hverdict.mp hv
      have hone := (hall _ List.mem_cons_self).2
      exact ⟨hone, (medianMeets_initial _ hone).mp hmedian⟩
    · intro hcount n
      cases n with
      | succ n =>
          rw [reportedTimes_succ]
          exact isPassed_writeReport h
      | zero =>
          refine hbefore.trans ⟨fun hclean => hverdict.mpr ⟨hclean, ?_⟩,
            fun hv => (hverdict.mp hv).1⟩
          rcases hcount with hnot | ⟨hone, hmeets⟩
          · exact absurd hclean hnot
          · exact ⟨List.forall_mem_singleton.mpr ⟨hclean, hone⟩,
              (medianMeets_initial _ hone).mpr hmeets⟩

/-- A transfer rate below the limit, and no iterations. -/
def slowUpload : List ResultCall :=
  [.setLimits 20 10, .stepPassed "upload" true, .addMeasure "bt.upload" 5 "kB/s"]

/-- It passes until it is reported. -/
theorem slowUpload_passes :
    (collected (fun _ _ => true) slowUpload).isPassed = true ∧
      (collected (fun _ _ => true) slowUpload).writeReport.2.isPassed = false ∧
      ¬ VerdictKept (fun _ _ => true) slowUpload := by
  have hbefore : (collected (fun _ _ => true) slowUpload).isPassed = true := by decide +kernel
  have hafter : (collected (fun _ _ => true) slowUpload).writeReport.2.isPassed = false := by
    decide +kernel
  refine ⟨hbefore, hafter, fun hkept => ?_⟩
  have hv := (hkept 0).mp hbefore
  have hpassed := (hkept 1).mpr hv
  rw [reportedTimes_succ, hafter] at hpassed
  cases hpassed

end Blts.Mwts
