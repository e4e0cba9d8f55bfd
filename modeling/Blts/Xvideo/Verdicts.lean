import Mathlib.Data.List.Basic

/-!
# The verdicts of the XVideo tests

What the tests return is followed through all results of the X library, of the events and of the
child process.  `ret` has the verdict of a test, and the clean-up assigns to it again: a test that
puts images returns what `XvUngrabPort` gives, whatever the images did
(`putAndUngrab_right_iff`), and the test of the notify events returns what the last of the calls
that end the notifications gives, whatever was received (`xvideoNotifyEventsTest_eq_zero_iff`).
-/

namespace Blts.Xvideo

/-- `Success` of the X library. -/
def success : Int := 0

/-- `EINVAL`. -/
def einval : Int := 22

/-- A result of the X library as the verdict. -/
def checked (result : Int) : Int :=
  if result ≠ success then -1 else result

@[simp] theorem checked_eq_zero_iff (result : Int) : checked result = 0 ↔ result = success := by
  unfold checked success
  by_cases h : result ≠ 0
  · rw [if_pos h]
    exact iff_of_false (by decide) h
  · rw [if_neg h]

/-- The steps of a test in their order, whether each succeeds and what the test returns if not:
the result of the first that fails. -/
def firstFailure : List (Bool × Int) → Option Int
  | [] => none
  | (ok, ret) :: steps => if ok then firstFailure steps else some ret

/-- All the steps succeed. -/
def AllSucceed (steps : List (Bool × Int)) : Prop := ∀ step ∈ steps, step.1 = true

theorem firstFailure_eq_none_iff (steps : List (Bool × Int)) :
    firstFailure steps = none ↔ AllSucceed steps := by
  induction steps with
  | nil => exact iff_of_true rfl fun _ h => absurd h List.not_mem_nil
  | cons step steps ih =>
      obtain ⟨ok, ret⟩ := step
      rw [AllSucceed, List.forall_mem_cons, firstFailure]
      cases ok with
      | true => exact ih.trans (and_iff_right rfl).symm
      | false => exact iff_of_false (fun h => by cases h) fun h => by cases h.1

/-- A test whose failing steps all have a verdict against it fails if one does. -/
theorem firstFailure_ne_zero {steps : List (Bool × Int)}
    (h : ∀ step ∈ steps, step.1 = false → step.2 ≠ 0) : firstFailure steps ≠ some 0 := by
  induction steps with
  | nil => exact fun hnone => by cases hnone
  | cons step steps ih =>
      obtain ⟨ok, ret⟩ := step
      obtain ⟨hstep, hsteps⟩ := List.forall_mem_cons.mp h
      rw [firstFailure]
      cases ok with
      | true => exact ih hsteps
      | false => exact fun hret => hstep rfl (Option.some.inj hret)

/-! ## Putting images -/

/-- What a test returns, with the results of the images that it has put. -/
structure PutRun where
  ret : Int
  puts : List Int
  deriving DecidableEq

/-- A run that passes has put all its images. -/
def PutRun.Right (run : PutRun) : Prop :=
  run.ret = 0 → ∀ put ∈ run.puts, put = success

/-- The loop that puts images, with the results that it gets until the time is up: `ret` and the
results of the images that were put. -/
def putImages (ret : Int) : List Int → Int × List Int
  | [] => (ret, [])
  | put :: puts =>
      if put ≠ success then (-1, [put])
      else
        let (ret, made) := putImages put puts
        (ret, put :: made)

/-- The images and the end of a test that has grabbed the port. -/
def putAndUngrab (ret : Int) (puts : List Int) (ungrab : Int) : PutRun :=
  let (_, made) := putImages ret puts
  -- `ret` is that of `XvUngrabPort` from here on
  ⟨checked ungrab, made⟩

/-- `XV_PUTIMAGE` and `XV_SHMPUTIMAGE`. -/
inductive PutMode where
  | putimage
  | shmputimage

/-- What the calls of a benchmark give. -/
structure BenchmarkResults where
  userPtr : Bool
  window : Bool
  setupSuitablePort : Int
  format : Bool
  generateTestImages : Int
  grabPort : Int
  puts : PutMode → List Int
  ungrabPort : Int

/-- The steps of the benchmark before its images. -/
def BenchmarkResults.steps (r : BenchmarkResults) : List (Bool × Int) :=
  [(r.userPtr, -einval),
    (r.window, -1),
    (r.setupSuitablePort = 0, r.setupSuitablePort),
    (r.format, -1),
    (r.generateTestImages = 0, r.generateTestImages),
    (r.grabPort = success, -1)]

/-- `xvideo_benchmark`. -/
def xvideoBenchmark (mode : PutMode) (r : BenchmarkResults) : PutRun :=
  match firstFailure r.steps with
  | some ret => ⟨ret, []⟩
  | none => putAndUngrab r.grabPort (r.puts mode) r.ungrabPort

def xvideoPutimage (r : BenchmarkResults) : PutRun := xvideoBenchmark .putimage r

def xvideoShmputimage (r : BenchmarkResults) : PutRun := xvideoBenchmark .shmputimage r

/-- What the calls of the test of the best size give, with the size of its window. -/
structure BestSizeResults where
  userPtr : Bool
  window : Bool
  queryExtension : Int
  setupSuitablePort : Int
  generateTestImages : Int
  grabPort : Int
  queryBestSize : Int
  width : Nat
  height : Nat
  windowWidth : Nat
  windowHeight : Nat
  puts : List Int
  ungrabPort : Int

/-- The best size is inside the window. -/
def BestSizeResults.validSize (r : BestSizeResults) : Bool :=
  r.width ≠ 0 && r.height ≠ 0 && r.width ≤ r.windowWidth && r.height ≤ r.windowHeight

/-- The steps of the test of the best size before its images. -/
def BestSizeResults.steps (r : BestSizeResults) : List (Bool × Int) :=
  [(r.userPtr, -einval),
    (r.window, -1),
    (r.queryExtension = success, -1),
    (r.setupSuitablePort = 0, r.setupSuitablePort),
    (r.generateTestImages = 0, r.generateTestImages),
    (r.grabPort = success, -1),
    (r.queryBestSize = success, -1),
    (r.validSize, -1)]

/-- `xvideo_querybestsize`. -/
def xvideoQuerybestsize (r : BestSizeResults) : PutRun :=
  match firstFailure r.steps with
  | some ret => ⟨ret, []⟩
  | none => putAndUngrab r.queryBestSize r.puts r.ungrabPort

/-! ## Waiting for an event -/

/-- The events of a display, with the name of the attribute that has changed. -/
inductive XvEvent where
  | videoNotify
  | portNotify (name : String)
  | other

/-- A lap of the loop that waits: when it looks at the time, and which event it then gets and
when. -/
structure WaitLap where
  asked : Nat
  arrived : Nat
  event : XvEvent
  asked_le : asked ≤ arrived

/-- The loop waits for five seconds; times are in nanoseconds. -/
def timeLimit : Nat := 5000000000

/-- What the calls of the test of the notify events give.  After the laps, the loop looks at the
time at `lastAsked`, and no event comes any more. -/
structure NotifyResults where
  userPtr : Bool
  window : Bool
  queryExtension : Int
  setupSuitablePort : Int
  selectPortNotify : Int
  selectVideoNotify : Int
  fork : Bool
  attrName : String
  laps : List WaitLap
  lastAsked : Nat
  /-- the status of the child, if `waitpid` gives it -/
  waitpid : Option Int
  stopPortNotify : Int
  stopVideoNotify : Int

/-- The loop that waits for the event: `waiting` and `ret`; `none` if `XNextEvent` never
returns. -/
def waitForEvent (attrName : String) (lastAsked : Nat) (ret : Int) :
    List WaitLap → Option (Bool × Int)
  | [] => if lastAsked < timeLimit then none else some (true, ret)
  | lap :: laps =>
      if lap.asked < timeLimit then
        match lap.event with
        | .videoNotify => some (false, -1)
        | .portNotify name =>
            if name = attrName then some (false, ret)
            else waitForEvent attrName lastAsked ret laps
        | .other => waitForEvent attrName lastAsked ret laps
      else some (true, ret)

/-- The end of the notifications: each of the two calls sets `ret`. -/
def stopNotify (r : NotifyResults) (ret : Int) : Int :=
  [r.stopPortNotify, r.stopVideoNotify].foldl (fun _ result => checked result) ret

/-- `ret` after the child has been started and the event has been waited for. -/
def forkAndWait (r : NotifyResults) : Option Int :=
  if r.fork = false then some (-1)
  else do
    let (waiting, ret) ← waitForEvent r.attrName r.lastAsked r.selectVideoNotify r.laps
    let ret := r.waitpid.getD ret
    return if waiting then -1 else ret

/-- The steps of the test of the notify events until the events are requested. -/
def NotifyResults.steps (r : NotifyResults) : List (Bool × Int) :=
  [(r.userPtr, -einval),
    (r.window, -1),
    (r.queryExtension = success, -1),
    (r.setupSuitablePort = 0, r.setupSuitablePort),
    (r.selectPortNotify = success, -1),
    (r.selectVideoNotify = success, -1)]

/-- `xvideo_notify_events_test`, unless it hangs. -/
def xvideoNotifyEventsTest (r : NotifyResults) : Option Int :=
  match firstFailure r.steps with
  | some ret => some ret
  | none => (forkAndWait r).map (stopNotify r)

/-- What has to have happened in a run of the test that passes. -/
structure NotifyResults.Notified (r : NotifyResults) : Prop where
  child : r.fork = true ∧ r.waitpid = some 0
  event : ∃ before lap after, r.laps = before ++ lap :: after ∧
    lap.event = .portNotify r.attrName ∧ lap.arrived < timeLimit ∧
      ∀ earlier ∈ before, earlier.event ≠ .videoNotify

/-- A run that passes has been notified. -/
def NotifyResults.Right (r : NotifyResults) : Prop :=
  xvideoNotifyEventsTest r = some 0 → r.Notified

/-! ## What decides the verdicts -/

/-- All the images in the list are put, or the first that fails is the last that is put. -/
theorem putImages_made (ret : Int) (puts : List Int) :
    (∀ put ∈ (putImages ret puts).2, put = success) ↔ ∀ put ∈ puts, put = success := by
  induction puts generalizing ret with
  | nil => exact Iff.rfl
  | cons put puts ih =>
      rw [putImages]
      by_cases hput : put = success
      · rw [if_neg (not_not_intro hput), List.forall_mem_cons, List.forall_mem_cons, ih]
      · rw [if_pos hput]
        exact iff_of_false (fun h => hput (h put (List.mem_singleton_self put)))
          fun h => hput (h put List.mem_cons_self)

/-- **A test that has grabbed the port** is right if and only if it cannot give it back, or all
images are put. -/
theorem putAndUngrab_right_iff (ret : Int) (puts : List Int) (ungrab : Int) :
    (putAndUngrab ret puts ungrab).Right ↔
      (ungrab = success → ∀ put ∈ puts, put = success) := by
  rw [PutRun.Right, putAndUngrab, checked_eq_zero_iff, putImages_made]

/-- A test that ends before it puts an image is right. -/
theorem right_of_noPuts (ret : Int) : (PutRun.mk ret []).Right :=
  fun _ _ hput => absurd hput List.not_mem_nil

/-- The loop that waits comes to an end. -/
def NotifyResults.WaitEnds (r : NotifyResults) : Prop :=
  timeLimit ≤ r.lastAsked ∨ ∃ lap ∈ r.laps,
    timeLimit ≤ lap.asked ∨ lap.event = .videoNotify ∨ lap.event = .portNotify r.attrName

theorem waitForEvent_isSome_iff (attrName : String) (lastAsked : Nat) (ret : Int)
    (laps : List WaitLap) :
    (waitForEvent attrName lastAsked ret laps).isSome = true ↔
      timeLimit ≤ lastAsked ∨ ∃ lap ∈ laps,
        timeLimit ≤ lap.asked ∨ lap.event = .videoNotify ∨ lap.event = .portNotify attrName := by
  induction laps with
  | nil =>
      rw [waitForEvent]
      by_cases hlast : lastAsked < timeLimit
      · rw [if_pos hlast]
        refine iff_of_false (by decide) ?_
        rintro (hle | ⟨_, hmem, -⟩)
        · omega
        · exact List.not_mem_nil hmem
      · rw [if_neg hlast]
        exact iff_of_true rfl (.inl (by omega))
  | cons lap laps ih =>
      have hcons : ∀ p : WaitLap → Prop,
          (∃ l ∈ lap :: laps, p l) ↔ p lap ∨ ∃ l ∈ laps, p l := by
        intro p
        simp only [List.mem_cons, exists_eq_or_imp]
      rw [waitForEvent, hcons, ← or_left_comm, ← ih]
      by_cases hasked : lap.asked < timeLimit
      · have hnot : ¬timeLimit ≤ lap.asked := by omega
        rw [if_pos hasked, or_iff_right hnot]
        cases lap.event with
        | videoNotify => exact iff_of_true rfl (.inl (.inl rfl))
        | portNotify name =>
            by_cases hname : name = attrName
            · simp [hname]
            · simp [hname]
        | other => simp
      · rw [if_neg hasked]
        exact iff_of_true rfl (.inl (.inl (by omega)))

/-- **The test of the notify events** passes if and only if the events are requested, the loop
comes to an end, and the last call of the clean-up succeeds. -/
theorem xvideoNotifyEventsTest_eq_zero_iff (r : NotifyResults) :
    xvideoNotifyEventsTest r = some 0 ↔
      AllSucceed r.steps ∧ (r.fork = true → r.WaitEnds) ∧ r.stopVideoNotify = success := by
  have hsteps : ∀ step ∈ r.steps, step.1 = false → step.2 ≠ 0 := by
    simp only [NotifyResults.steps, List.forall_mem_cons, decide_eq_false_iff_not]
    refine ⟨fun _ => by decide, fun _ => by decide, fun _ => by decide, id, fun _ => by decide,
      fun _ => by decide, fun _ h => absurd h List.not_mem_nil⟩
  rw [xvideoNotifyEventsTest, ← firstFailure_eq_none_iff]
  cases hfirst : firstFailure r.steps with
  | some ret =>
      refine iff_of_false (fun h => ?_) fun h => by cases h.1
      exact firstFailure_ne_zero hsteps (hfirst.trans h)
  | none =>
      rw [and_iff_right rfl]
      have hstop : ∀ ret, stopNotify r ret = checked r.stopVideoNotify := fun _ => rfl
      have hends : (forkAndWait r).isSome = true ↔ (r.fork = true → r.WaitEnds) := by
        rw [forkAndWait]
        cases r.fork with
        | false => exact iff_of_true rfl fun h => by cases h
        | true =>
            have hwait :=
              waitForEvent_isSome_iff r.attrName r.lastAsked r.selectVideoNotify r.laps
            rw [if_neg Bool.noConfusion, forall_prop_of_true rfl, NotifyResults.WaitEnds, ← hwait]
            cases waitForEvent r.attrName r.lastAsked r.selectVideoNotify r.laps with
            | none => exact Iff.rfl
            | some _ => exact iff_of_true rfl rfl
      rw [← hends]
      cases forkAndWait r with
      | none => exact iff_of_false (fun h => by cases h) fun h => by cases h.1
      | some ret =>
          rw [Option.map_some, hstop, Option.some.injEq, checked_eq_zero_iff]
          exact (and_iff_right rfl).symm

/-- The verdicts of the tests that put images. -/
theorem xvideoBenchmark_right_iff (mode : PutMode) (r : BenchmarkResults) :
    (xvideoBenchmark mode r).Right ↔
      (AllSucceed r.steps → r.ungrabPort = success → ∀ put ∈ r.puts mode, put = success) := by
  rw [xvideoBenchmark, ← firstFailure_eq_none_iff]
  cases firstFailure r.steps with
  | some ret => exact iff_of_true (right_of_noPuts ret) fun h => by cases h
  | none => rw [forall_prop_of_true rfl, putAndUngrab_right_iff]

theorem xvideoQuerybestsize_right_iff (r : BestSizeResults) :
    (xvideoQuerybestsize r).Right ↔
      (AllSucceed r.steps → r.ungrabPort = success → ∀ put ∈ r.puts, put = success) := by
  rw [xvideoQuerybestsize, ← firstFailure_eq_none_iff]
  cases firstFailure r.steps with
  | some ret => exact iff_of_true (right_of_noPuts ret) fun h => by cases h
  | none => rw [forall_prop_of_true rfl, putAndUngrab_right_iff]

/-- The verdicts are right if and only if, where the clean-up succeeds, there was nothing that it
could have hidden. -/
theorem verdicts_right_iff (b : BenchmarkResults) (q : BestSizeResults) (n : NotifyResults) :
    (xvideoPutimage b).Right ∧ (xvideoShmputimage b).Right ∧ (xvideoQuerybestsize q).Right ∧
        n.Right ↔
      (AllSucceed b.steps → b.ungrabPort = success →
        ∀ mode, ∀ put ∈ b.puts mode, put = success) ∧
      (AllSucceed q.steps → q.ungrabPort = success → ∀ put ∈ q.puts, put = success) ∧
      (AllSucceed n.steps → (n.fork = true → n.WaitEnds) → n.stopVideoNotify = success →
        n.Notified) := by
  have hmodes : (∀ mode, ∀ put ∈ b.puts mode, put = success) ↔
      (∀ put ∈ b.puts .putimage, put = success) ∧
        ∀ put ∈ b.puts .shmputimage, put = success := by
    constructor
    · exact fun h => ⟨h .putimage, h .shmputimage⟩
    · rintro ⟨hput, hshm⟩ mode
      cases mode with
      | putimage => exact hput
      | shmputimage => exact hshm
  rw [xvideoPutimage, xvideoShmputimage, xvideoBenchmark_right_iff, xvideoBenchmark_right_iff,
    xvideoQuerybestsize_right_iff, NotifyResults.Right, xvideoNotifyEventsTest_eq_zero_iff, hmodes,
    ← and_assoc]
  refine and_congr ?_ (and_congr Iff.rfl ?_)
  · constructor
    · exact fun h hsteps hungrab => ⟨h.1 hsteps hungrab, h.2 hsteps hungrab⟩
    · exact fun h => ⟨fun hsteps hungrab => (h hsteps hungrab).1,
        fun hsteps hungrab => (h hsteps hungrab).2⟩
  · constructor
    · exact fun h hsteps hends hstop => h ⟨hsteps, hends, hstop⟩
    · exact fun h hall => h hall.1 hall.2.1 hall.2.2

/-- A benchmark whose second image is not put. -/
def failedPut : BenchmarkResults where
  userPtr := true
  window := true
  setupSuitablePort := 0
  format := true
  generateTestImages := 0
  grabPort := success
  puts _ := [success, 11]
  ungrabPort := success

/-- A child that fails, and no event for five seconds. -/
def noEvent : NotifyResults where
  userPtr := true
  window := true
  queryExtension := success
  setupSuitablePort := 0
  selectPortNotify := success
  selectVideoNotify := success
  fork := true
  attrName := "XV_BRIGHTNESS"
  laps := [⟨0, 5000000000, .other, by decide⟩]
  lastAsked := 5000000000
  waitpid := some 65280
  stopPortNotify := success
  stopVideoNotify := success

/-- Both tests pass. -/
theorem failures_pass :
    ¬(xvideoPutimage failedPut).Right ∧ xvideoNotifyEventsTest noEvent = some 0 ∧
      ¬noEvent.Right := by
  have hpass : xvideoNotifyEventsTest noEvent = some 0 := by decide
  refine ⟨fun h => ?_, hpass, fun h => ?_⟩
  · exact absurd (h (by decide) 11 (by decide)) (by decide)
  · exact absurd (h hpass).child.2 (by decide)

end Blts.Xvideo
