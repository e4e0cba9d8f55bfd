import Blts.Cli.RunReports

/-!
# Waiting for a test case

`wait_for_test_case_completion` calls `waitpid` every 100 ms until it fails, which it
does when the child has been reaped by the call before.  So there is one round more after
the child has ended, and the timeout may expire in it.

What a test case returns reaches the parent through `exit`, which keeps its last eight
bits.
-/

namespace Blts.Cli

open Blts.Params

/-! ## The loop -/

/-- How a child ends: the number of calls of `waitpid` at which it still runs, and the
status that the next call stores. -/
structure ChildEnd where
  poll : Nat
  status : Int

/-- The answers of `waitpid` with `WNOHANG`. -/
inductive WaitAnswer where
  | running
  | reaped (status : Int)
  | failed

/-- The `n`th call of `waitpid`; there is no end of a child that does not end. -/
def waitpid (child : Option ChildEnd) (n : Nat) : WaitAnswer :=
  match child with
  | none => .running
  | some e =>
      if n < e.poll then .running
      else if n = e.poll then .reaped e.status
      else .failed

/-- `ret` after a call of `waitpid`. -/
def WaitAnswer.store (ret : Int) : WaitAnswer → Int
  | .reaped status => status
  | _ => ret

/-- The loop of `wait_for_test_case_completion` from its round `n` on, and the number of
calls of `waitpid` after which it sends `SIGKILL`, if it does. -/
def waitLoop (timeout : Nat) (child : Option ChildEnd) :
    Nat → Nat → Int → Nat → Option (Completion × Option Nat)
  | 0, _, _, _ => none
  | rounds + 1, n, ret, timeElapsed =>
      match waitpid child n with
      | .failed => some (.status ret, none)
      | answer =>
          if timeout ≠ 0 ∧ timeout < (timeElapsed + 100) % uintMod then
            some (.timeout, some (n + 1))
          else
            waitLoop timeout child rounds (n + 1) (answer.store ret)
              ((timeElapsed + 100) % uintMod)

/-- The loop comes to an end. -/
def WaitEnds (timeout : Nat) (child : Option ChildEnd) (r : Completion × Option Nat) : Prop :=
  ∃ rounds, waitLoop timeout child rounds 0 0 0 = some r

/-! ## What is asked of it -/

/-- The child has been reaped by the first `n` calls of `waitpid`. -/
def Reaped (child : Option ChildEnd) (n : Nat) : Prop :=
  ∃ e, child = some e ∧ e.poll < n

/-- The child ends with status 0 and is reaped before the timeout, if there is one, has
expired. -/
def PassesInTime (timeout : Nat) (child : Option ChildEnd) : Prop :=
  ∃ e, child = some e ∧ e.status = 0 ∧ (timeout = 0 ∨ 100 * e.poll ≤ timeout)

/-- The result is 0 for a child that passes in time, and no other, and a child that has
been reaped is not killed. -/
structure WaitsRightly (timeout : Nat) (child : Option ChildEnd) : Prop where
  result : (∃ r, WaitEnds timeout child r ∧ waitForTestCaseCompletion r.1 = 0) ↔
    PassesInTime timeout child
  kill : ∀ c n, WaitEnds timeout child (c, some n) → ¬ Reaped child n

/-- The timeout is seen to expire in the `n`th round, where `time_elapsed` is an
`unsigned`. -/
def Expires (timeout n : Nat) : Prop :=
  timeout ≠ 0 ∧ timeout < 100 * n % uintMod

/-- In none of the first `n` rounds. -/
def Quiet (timeout n : Nat) : Prop :=
  ∀ m ≤ n, ¬ Expires timeout m

/-- The timeout does not expire in the round that reaps the child, nor is it missed for a
child with status 0. -/
structure ReapedApart (timeout : Nat) (e : ChildEnd) : Prop where
  round : Quiet timeout e.poll → ¬ Expires timeout (e.poll + 1)
  missed : e.status = 0 → Quiet timeout (e.poll + 1) → timeout = 0 ∨ 100 * e.poll ≤ timeout

/-! ## How the loop ends -/

/-- The ends of the loop: after the child's, or where the timeout expires first. -/
inductive WaitEnd (timeout : Nat) (child : Option ChildEnd) :
    Completion × Option Nat → Prop
  | ended (e : ChildEnd) (child_eq : child = some e) (quiet : Quiet timeout (e.poll + 1)) :
      WaitEnd timeout child (.status e.status, none)
  | killed (n : Nat) (quiet : Quiet timeout n) (expires : Expires timeout (n + 1))
      (before : ∀ e, child = some e → n ≤ e.poll) :
      WaitEnd timeout child (.timeout, some (n + 1))

/-- What holds before round `n`. -/
structure WaitInv (timeout : Nat) (child : Option ChildEnd) (n : Nat) (ret : Int) : Prop where
  quiet : Quiet timeout n
  le : ∀ e, child = some e → n ≤ e.poll + 1
  stored : ∀ e, child = some e → e.poll < n → ret = e.status

section

variable {timeout n : Nat} {child : Option ChildEnd} {ret : Int}

theorem WaitInv.start : WaitInv timeout child 0 0 := by
  constructor
  case quiet =>
    intro m hm hexp
    obtain rfl : m = 0 := by omega
    exact absurd hexp.2 (Nat.not_lt_zero _)
  case le => exact fun e _ => Nat.zero_le _
  case stored => exact fun e _ hlt => absurd hlt (Nat.not_lt_zero _)

theorem elapsed_succ (n : Nat) :
    (100 * n % uintMod + 100) % uintMod = 100 * (n + 1) % uintMod := by
  rw [Nat.mod_add_mod, Nat.mul_succ]

/-- `waitpid` fails once the child has been reaped. -/
theorem waitpid_failed_iff : waitpid child n = .failed ↔ Reaped child n := by
  unfold waitpid Reaped
  cases child with
  | none => simp
  | some e =>
      dsimp only
      by_cases hlt : n < e.poll
      · rw [if_pos hlt]
        refine iff_of_false (fun h => by cases h) ?_
        rintro ⟨e', he', hlt'⟩
        cases he'
        omega
      · rw [if_neg hlt]
        by_cases heq : n = e.poll
        · rw [if_pos heq]
          refine iff_of_false (fun h => by cases h) ?_
          rintro ⟨e', he', hlt'⟩
          cases he'
          omega
        · rw [if_neg heq]
          exact iff_of_true rfl ⟨e, rfl, by omega⟩

/-- A round that does not end the loop. -/
theorem WaitInv.next (h : WaitInv timeout child n ret) (hrun : ¬ Reaped child n)
    (hquiet : ¬ Expires timeout (n + 1)) :
    WaitInv timeout child (n + 1) ((waitpid child n).store ret) := by
  constructor
  case quiet =>
    intro m hm
    by_cases hn : m ≤ n
    · exact h.quiet m hn
    · rwa [show m = n + 1 by omega]
  case le =>
    intro e he
    by_contra hgt
    exact hrun ⟨e, he, by omega⟩
  case stored =>
    intro e he hlt
    have hnot : ¬ e.poll < n := fun hlt' => hrun ⟨e, he, hlt'⟩
    rw [he]
    unfold waitpid
    dsimp only
    rw [if_neg (by omega), if_pos (by omega)]
    rfl

/-- A round after the child has been reaped. -/
theorem waitLoop_reaped (h : Reaped child n) (rounds timeElapsed : Nat) :
    waitLoop timeout child (rounds + 1) n ret timeElapsed = some (.status ret, none) := by
  rw [waitLoop, waitpid_failed_iff.mpr h]

/-- A round before that. -/
theorem waitLoop_running (h : ¬ Reaped child n) (rounds timeElapsed : Nat) :
    waitLoop timeout child (rounds + 1) n ret timeElapsed =
      if timeout ≠ 0 ∧ timeout < (timeElapsed + 100) % uintMod then
        some (.timeout, some (n + 1))
      else
        waitLoop timeout child rounds (n + 1) ((waitpid child n).store ret)
          ((timeElapsed + 100) % uintMod) := by
  have hne : waitpid child n ≠ .failed := fun hfail => h (waitpid_failed_iff.mp hfail)
  rw [waitLoop]
  cases hanswer : waitpid child n with
  | failed => exact absurd hanswer hne
  | running => rfl
  | reaped status => rfl

theorem waitLoop_expires (h : ¬ Reaped child n) (hexp : Expires timeout (n + 1)) (rounds : Nat) :
    waitLoop timeout child (rounds + 1) n ret (100 * n % uintMod) =
      some (.timeout, some (n + 1)) := by
  rw [waitLoop_running h, elapsed_succ]
  exact if_pos hexp

theorem waitLoop_next (h : ¬ Reaped child n) (hquiet : ¬ Expires timeout (n + 1))
    (rounds : Nat) :
    waitLoop timeout child (rounds + 1) n ret (100 * n % uintMod) =
      waitLoop timeout child rounds (n + 1) ((waitpid child n).store ret)
        (100 * (n + 1) % uintMod) := by
  rw [waitLoop_running h, elapsed_succ]
  exact if_neg hquiet

/-- **Every end** of the loop is one of the two. -/
theorem waitLoop_end (rounds : Nat) : ∀ {n : Nat} {ret : Int} {r : Completion × Option Nat},
    WaitInv timeout child n ret →
      waitLoop timeout child rounds n ret (100 * n % uintMod) = some r →
        WaitEnd timeout child r := by
  induction rounds with
  | zero =>
      intro n ret r _ h
      cases h
  | succ rounds ih =>
      intro n ret r hinv h
      by_cases hreaped : Reaped child n
      · rw [waitLoop_reaped hreaped] at h
        cases h
        obtain ⟨e, he, hlt⟩ := hreaped
        have hle := hinv.le e he
        rw [hinv.stored e he hlt]
        refine .ended e he fun m hm => ?_
        exact hinv.quiet m (by omega)
      · by_cases hexp : Expires timeout (n + 1)
        · rw [waitLoop_expires hreaped hexp] at h
          cases h
          refine .killed n hinv.quiet hexp fun e he => ?_
          by_contra hgt
          exact hreaped ⟨e, he, by omega⟩
        · rw [waitLoop_next hreaped hexp] at h
          exact ih (hinv.next hreaped hexp) h

/-- The loop comes to its first round that ends it. -/
theorem waitLoop_reaches {last : Nat} (hrun : ∀ m < last, ¬ Reaped child m)
    (hquiet : Quiet timeout last) (rounds : Nat) : ∀ k : Nat, k ≤ last →
    ∃ ret, WaitInv timeout child k ret ∧
      waitLoop timeout child (k + rounds) 0 0 0 =
        waitLoop timeout child rounds k ret (100 * k % uintMod) := by
  intro k
  induction k generalizing rounds with
  | zero => exact fun _ => ⟨0, .start, by rw [Nat.zero_add]; rfl⟩
  | succ k ih =>
      intro hk
      obtain ⟨ret, hinv, hloop⟩ := ih (rounds + 1) (by omega)
      have hreaped := hrun k (by omega)
      have hexp := hquiet (k + 1) hk
      refine ⟨_, hinv.next hreaped hexp, ?_⟩
      rw [show k + 1 + rounds = k + (rounds + 1) by omega, hloop, waitLoop_next hreaped hexp]

/-- **How the loop ends**: after the child, or with its kill. -/
theorem waitEnds_iff {r : Completion × Option Nat} :
    WaitEnds timeout child r ↔ WaitEnd timeout child r := by
  constructor
  · rintro ⟨rounds, h⟩
    exact waitLoop_end rounds .start h
  · intro h
    cases h with
    | ended e child_eq quiet =>
        have hrun : ∀ m < e.poll + 1, ¬ Reaped child m := by
          rintro m hm ⟨e', he', hlt⟩
          rw [child_eq] at he'
          cases he'
          omega
        obtain ⟨ret, hinv, hloop⟩ := waitLoop_reaches hrun quiet 1 (e.poll + 1) (Nat.le_refl _)
        refine ⟨_, hloop.trans ?_⟩
        rw [waitLoop_reaped ⟨e, child_eq, Nat.lt_succ_self _⟩,
          hinv.stored e child_eq (Nat.lt_succ_self _)]
    | killed n quiet expires before =>
        have hrun : ∀ m < n + 1, ¬ Reaped child m := by
          rintro m hm ⟨e, he, hlt⟩
          have hle := before e he
          omega
        obtain ⟨ret, _, hloop⟩ :=
          waitLoop_reaches (fun m hm => hrun m (by omega)) quiet 1 n (Nat.le_refl _)
        refine ⟨_, hloop.trans ?_⟩
        rw [waitLoop_expires (hrun n (Nat.lt_succ_self n)) expires]

end

/-! ## The verdict near the deadline -/

theorem waitForTestCaseCompletion_status {status : Int} :
    waitForTestCaseCompletion (.status status) = 0 ↔ status = 0 := by
  unfold waitForTestCaseCompletion
  by_cases h : status = 0 <;> simp [h]

/-- A time that is not past the timeout is none at which it expires. -/
theorem quiet_of_le {timeout n : Nat} (h : timeout = 0 ∨ 100 * n ≤ timeout) :
    Quiet timeout n := by
  rintro m hm ⟨hpos, hlt⟩
  have hle := Nat.mod_le (100 * m) uintMod
  omega

theorem Quiet.succ {timeout n : Nat} (h : Quiet timeout n) (hlast : ¬ Expires timeout (n + 1)) :
    Quiet timeout (n + 1) := by
  intro m hm
  by_cases hn : m ≤ n
  · exact h m hn
  · rwa [show m = n + 1 by omega]

/--
**Waiting for a test case.**  For every timeout and every child, the result is 0 for a
child that ends with status 0 in time and no other, and no reaped child is killed, if and
only if the timeout does not expire in the round in which the child is reaped, nor is
missed because `time_elapsed` starts again.
-/
theorem waitsRightly_iff (timeout : Nat) (child : Option ChildEnd) :
    WaitsRightly timeout child ↔ ∀ e, child = some e → ReapedApart timeout e := by
  constructor
  · rintro ⟨hresult, hkill⟩ e he
    constructor
    case round =>
      intro hquiet hexp
      have hbefore : ∀ e', child = some e' → e.poll ≤ e'.poll := by
        intro e' he'
        rw [he] at he'
        cases he'
        exact Nat.le_refl _
      exact hkill _ _ (waitEnds_iff.mpr (.killed e.poll hquiet hexp hbefore))
        ⟨e, he, Nat.lt_succ_self _⟩
    case missed =>
      intro hstatus hquiet
      obtain ⟨e', he', _, hle⟩ := hresult.mp ⟨_, waitEnds_iff.mpr (.ended e he hquiet),
        waitForTestCaseCompletion_status.mpr hstatus⟩
      rw [he] at he'
      cases he'
      exact hle
  · intro hapart
    constructor
    case result =>
      constructor
      · rintro ⟨r, hends, hzero⟩
        cases waitEnds_iff.mp hends with
        | ended e child_eq quiet =>
            have hstatus := waitForTestCaseCompletion_status.mp hzero
            exact ⟨e, child_eq, hstatus, (hapart e child_eq).missed hstatus quiet⟩
        | killed n quiet expires before => cases hzero
      · rintro ⟨e, he, hstatus, hle⟩
        have hquiet := quiet_of_le hle
        refine ⟨_, waitEnds_iff.mpr (.ended e he (hquiet.succ ?_)),
          waitForTestCaseCompletion_status.mpr hstatus⟩
        exact (hapart e he).round hquiet
    case kill =>
      rintro c n hends ⟨e, he, hlt⟩
      cases waitEnds_iff.mp hends with
      | killed n quiet expires before =>
          have hn : n = e.poll := by
            have hle := before e he
            omega
          rw [hn] at quiet expires
          exact (hapart e he).round quiet expires

/-- For a timeout of less than 49 days this is the round in which it expires. -/
theorem reapedApart_iff {timeout : Nat} (hpos : timeout ≠ 0) (hlt : timeout < 4294967200)
    (e : ChildEnd) : ReapedApart timeout e ↔ e.poll ≠ timeout / 100 := by
  have huint : uintMod = 4294967296 := rfl
  have hexp : ∀ n, 100 * n ≤ timeout + 100 → (Expires timeout n ↔ timeout < 100 * n) := by
    intro n hn
    unfold Expires
    rw [Nat.mod_eq_of_lt (by omega)]
    exact and_iff_right hpos
  have hfirst : Expires timeout (timeout / 100 + 1) := (hexp _ (by omega)).mpr (by omega)
  constructor
  · intro h heq
    have hquiet : Quiet timeout e.poll := quiet_of_le (.inr (by omega))
    rw [← heq] at hfirst
    exact h.round hquiet hfirst
  · intro hne
    constructor
    case round =>
      intro hquiet hlast
      by_cases hle : e.poll ≤ timeout / 100
      · have := (hexp (e.poll + 1) (by omega)).mp hlast
        omega
      · exact hquiet (timeout / 100 + 1) (by omega) hfirst
    case missed =>
      intro _ hquiet
      by_cases hle : e.poll ≤ timeout / 100
      · exact .inr (by omega)
      · exact absurd hfirst (hquiet (timeout / 100 + 1) (by omega))

/-- A child that ends with status 0 after 180 ms is reaped after 200 ms, and killed and
counted as failed with a timeout of 250 ms. -/
theorem reapedLate_killed :
    WaitEnds 250 (some ⟨2, 0⟩) (.timeout, some 3) ∧ PassesInTime 250 (some ⟨2, 0⟩) ∧
      Reaped (some ⟨2, 0⟩) 3 ∧ ¬ WaitsRightly 250 (some ⟨2, 0⟩) := by
  have hends : WaitEnds 250 (some ⟨2, 0⟩) (.timeout, some 3) := ⟨3, rfl⟩
  have hreaped : Reaped (some ⟨2, 0⟩) 3 := ⟨_, rfl, by decide⟩
  exact ⟨hends, ⟨_, rfl, rfl, .inr (by decide)⟩, hreaped, fun h => h.kill _ _ hends hreaped⟩

/-!
## The value of a test case function

A child exits with what its test case function returns, and of that `waitpid` stores the
last eight bits: the case is reported passed for every multiple of 256.
-/

/-! ## What is asked of `run_test` -/

/-- The status that `waitpid` stores after `exit(value)`. -/
def exitStatus (value : Int) : Int := 256 * (value % 256)

/-- In every pass the test case function returns a value, and the child ends before the
call of `waitpid` with this number. -/
structure TestRun.Returns (run : TestRun) (timeout : Nat) (values : Nat → Int)
    (polls : Nat → Nat) : Prop where
  returned : ∀ k, Quiet timeout (polls k)
  completion : ∀ k, ∃ r, WaitEnds timeout (some ⟨polls k, exitStatus (values k)⟩) r ∧
    (run.passes k).completion = some r.1

/-- The case is reported as passed, by the result and in the result file. -/
def TestRun.Passed (run : TestRun) (paramNames : List String)
    (variants : List (List BoxedValue)) : Prop :=
  ∃ r, runTestVariants run paramNames variants = .ok r ∧ r.ret = 0 ∧
    r.calls.head? = some (.startCase run.caseName run.manualExecution 0)

/-- What the passes return and when their children are reaped: if everything is zero no
timeout expires in the round that reaps a child, and if no timeout does and every value is
a multiple of 256 then everything is zero. -/
structure ValuesKept (timeout passes : Nat) (values : Nat → Int) (polls : Nat → Nat) :
    Prop where
  inTime : (∀ k < passes, values k = 0) → ∀ k < passes, ¬ Expires timeout (polls k + 1)
  nonZero : (∀ k < passes, 256 ∣ values k ∧ ¬ Expires timeout (polls k + 1)) →
    ∀ k < passes, values k = 0

/-! ## One pass -/

theorem exitStatus_eq_zero {value : Int} : exitStatus value = 0 ↔ 256 ∣ value := by
  unfold exitStatus
  omega

/-- A pass does not fail if and only if the value is a multiple of 256 and is seen in
time. -/
theorem TestRun.Returns.fails_iff {run : TestRun} {timeout : Nat} {values : Nat → Int}
    {polls : Nat → Nat} (h : run.Returns timeout values polls) (k : Nat) :
    run.fails k = false ↔ 256 ∣ values k ∧ ¬ Expires timeout (polls k + 1) := by
  obtain ⟨r, hends, hcompletion⟩ := h.completion k
  have hfails : run.fails k = false ↔ waitForTestCaseCompletion r.1 = 0 := by
    simp [TestRun.fails, hcompletion]
  rw [hfails]
  cases waitEnds_iff.mp hends with
  | ended e child_eq quiet =>
      cases child_eq
      rw [waitForTestCaseCompletion_status, exitStatus_eq_zero]
      exact (and_iff_left (quiet _ (Nat.le_refl _))).symm
  | killed n quiet expires before =>
      have hle : n ≤ polls k := before _ rfl
      have hn : n = polls k := by
        by_contra hne
        exact h.returned k (n + 1) (by omega) expires
      rw [hn] at expires
      exact iff_of_false (fun hzero => by cases hzero) fun hpass => hpass.2 expires

/-! ## The whole run -/

/-- The case is reported as passed if and only if no pass fails. -/
theorem TestRun.passed_iff {run : TestRun} (paramNames : List String)
    (variants : List (List BoxedValue)) (hfork : ∀ k, (run.passes k).completion ≠ none) :
    run.Passed paramNames variants ↔
      ∀ k < max 1 variants.length, run.fails k = false := by
  by_cases hne : variants = []
  · obtain ⟨r, hr, hreported⟩ := reported_nil run paramNames hfork
    rw [hne]
    have hret := hreported.ret
    constructor
    · rintro ⟨r', hr', hzero, _⟩ k hk
      rw [hr] at hr'
      cases hr'
      by_contra hfail
      rw [hret, if_pos ⟨k, hk, Bool.of_not_eq_false hfail⟩] at hzero
      cases hzero
    · intro hpasses
      have hzero : r.ret = 0 := by
        rw [hret, if_neg]
        rintro ⟨k, hk, hfail⟩
        rw [hpasses k hk] at hfail
        cases hfail
      refine ⟨r, hr, hzero, ?_⟩
      rw [hreported.calls, hzero]
      rfl
  · have hmax : max 1 variants.length = variants.length :=
      Nat.max_eq_right (List.length_pos_iff.mpr hne)
    have hexists := run.exists_fails_iff variants
    rw [hmax]
    constructor
    · rintro ⟨r, hr, hzero, _⟩ k hk
      by_contra hfail
      have hfailures := hexists.mp ⟨k, hk, Bool.of_not_eq_false hfail⟩
      have hloop := runLoop_eq run hfork variants (s := .initial) hne rfl
      rw [show RunState.initial.children.length = 0 from rfl] at hloop
      by_cases hvalues : ∃ v ∈ run.failures variants 0, v.1 = []
      · rw [if_pos hvalues] at hloop
        rw [runTestVariants, hloop] at hr
        cases hr
      · have hsome : (RunState.initial.after run variants).failedVariants ≠ [] := by
          show ((run.failures variants 0).map run.record).reverse ++ [] ≠ []
          simpa using hfailures
        rw [if_neg hvalues] at hloop
        rw [runTestVariants, hloop] at hr
        simp only [if_pos hsome] at hr
        cases hr
        cases hzero
    · intro hpasses
      have hnone : run.failures variants 0 = [] := by
        by_contra hsome
        obtain ⟨k, hk, hfail⟩ := hexists.mpr hsome
        rw [hpasses k hk] at hfail
        cases hfail
      have hvalues : ¬ ∃ v ∈ run.failures variants 0, v.1 = [] := by
        rw [hnone]
        rintro ⟨v, hv, _⟩
        cases hv
      obtain ⟨r, hr, hreported⟩ := (reported_iff run paramNames hfork hne hvalues).mpr
        (by rw [hnone]; exact fun v hv => by cases hv)
      have hzero : r.ret = 0 := by
        rw [hreported.ret, if_neg]
        rintro ⟨k, hk, hfail⟩
        rw [hpasses k (by omega)] at hfail
        cases hfail
      refine ⟨r, hr, hzero, ?_⟩
      rw [hreported.calls, hzero]
      rfl

/--
**The value of a test case function.**  For all values that the test case functions return
in the passes of a test, it is reported as passed exactly where all of them are 0, if and
only if no timeout expires while a child that returned 0 is reaped, and no other multiple
of 256 takes the place of 0.
-/
theorem passed_values_iff {run : TestRun} {timeout : Nat} {values : Nat → Int}
    {polls : Nat → Nat} (h : run.Returns timeout values polls) (paramNames : List String)
    (variants : List (List BoxedValue)) :
    (run.Passed paramNames variants ↔ ∀ k < max 1 variants.length, values k = 0) ↔
      ValuesKept timeout (max 1 variants.length) values polls := by
  have hfork : ∀ k, (run.passes k).completion ≠ none := by
    intro k hnone
    obtain ⟨r, _, hsome⟩ := h.completion k
    rw [hnone] at hsome
    cases hsome
  have hpasses : run.Passed paramNames variants ↔ ∀ k < max 1 variants.length,
      256 ∣ values k ∧ ¬ Expires timeout (polls k + 1) := by
    rw [run.passed_iff paramNames variants hfork]
    exact forall₂_congr fun k _ => h.fails_iff k
  rw [hpasses]
  constructor
  · intro hiff
    exact ⟨fun hzero k hk => (hiff.mpr hzero k hk).2, hiff.mp⟩
  · rintro ⟨hinTime, hnonZero⟩
    refine ⟨hnonZero, fun hzero k hk => ⟨?_, hinTime hzero k hk⟩⟩
    rw [hzero k hk]
    exact Int.dvd_zero 256

/-! ## A test that returns 256 -/

/-- A test case without variants and timeout whose function returns at once. -/
def returning (value : Int) : TestRun where
  table := fixOnly
  testnum := 1
  caseName := "T"
  cmdline := "blts"
  manualExecution := false
  passes := fun k => {
    completion := some (.status (exitStatus value))
    startTime := k
    endTime := k + 1 }
  totalStart := 0
  totalEnd := 1

theorem returning_returns (value : Int) :
    (returning value).Returns 0 (fun _ => value) fun _ => 0 := by
  have hquiet : ∀ n, Quiet 0 n := fun n => quiet_of_le (.inl rfl)
  exact ⟨fun _ => hquiet 0, fun k => ⟨_, waitEnds_iff.mpr (.ended _ rfl (hquiet 1)), rfl⟩⟩

/-- The value is 1. -/
theorem passed_values_one :
    ((returning 1).Passed [] [] ↔ ∀ k < 1, (1 : Int) = 0) ↔
      ValuesKept 0 1 (fun _ => 1) fun _ => 0 :=
  passed_values_iff (returning_returns 1) [] []

/-- The value is 256: the case is reported as passed. -/
theorem returning_256_passed :
    (returning 256).Returns 0 (fun _ => 256) (fun _ => 0) ∧ (returning 256).Passed [] [] ∧
      ¬ ((returning 256).Passed [] [] ↔ (256 : Int) = 0) := by
  have hpassed : (returning 256).Passed [] [] := ⟨_, rfl, rfl, rfl⟩
  exact ⟨returning_returns 256, hpassed, fun hiff => absurd (hiff.mp hpassed) (by decide)⟩

end Blts.Cli
