import Mathlib.Logic.Function.Basic
import Blts.V4l2.SelectStream

/-!
# Trying the video standards of every input

`loop_through_video_inputs` selects the inputs of a device one after the other, calls a
function for each of them, and selects the input that was there before.  `do_get_standards`
only asks for the standard of the input; `do_set_standards` sets every standard that the
device enumerates and then the original one.

The original standard is put back where the input reports standards (`input->std`), but they
are tried regardless.  The function is also called, once, for a device whose first input
cannot be enumerated, with an `input` of zeros and the original input selected.
-/

namespace Blts.V4l2

abbrev StdId := UInt64

/-- A call succeeds or fails. -/
abbrev CallResult := Except IoctlErrno Unit

/-- A device with `count` inputs: what each of them reports as its standards, and the
standards that are enumerated while it is selected. -/
structure VideoDevice where
  count : Nat
  std : Nat → StdId
  standards : Nat → List StdId

/-- The selected input, and the standard of each input. -/
structure VideoState where
  selected : Nat
  standard : Nat → StdId

/-- How the calls of `do_get_standards` and `do_set_standards` go for one input. -/
structure StandardResults where
  getStd : CallResult
  enumStd : Nat → CallResult
  setStd : Nat → CallResult
  getSet : Nat → CallResult
  restoreStd : CallResult
  getRestored : CallResult

/-- How the calls of `loop_through_video_inputs` go. -/
structure InputResults where
  getInput : CallResult
  enumInput : Nat → CallResult
  setInput : Nat → CallResult
  standards : Nat → StandardResults
  restoreInput : CallResult

/-- The calls that put back what was there before do not fail. -/
structure InputResults.Restoring (out : InputResults) : Prop where
  input : out.restoreInput = .ok ()
  standard : ∀ k, (out.standards k).restoreStd = .ok ()

namespace VideoState

/-- The selected input gets a standard. -/
def setStandard (s : VideoState) (id : StdId) : VideoState :=
  { s with standard := Function.update s.standard s.selected id }

@[simp] theorem setStandard_selected (s : VideoState) (id : StdId) :
    (s.setStandard id).selected = s.selected := rfl

@[simp] theorem setStandard_setStandard (s : VideoState) (a b : StdId) :
    (s.setStandard a).setStandard b = s.setStandard b := by
  simp only [setStandard, Function.update_idem]

@[simp] theorem setStandard_self (s : VideoState) :
    s.setStandard (s.standard s.selected) = s := by
  simp only [setStandard, Function.update_eq_self]

end VideoState

/-! ## The functions called for an input -/

/-- The errors that the checks of an input look for. -/
def errnoExpected : IoctlErrno → Bool
  | .einval => true
  | .other => false

/-- What `do_get_standards` makes of an input that was enumerated (`check`). -/
def doGetStandards (_ : VideoDevice) (check : CallResult) (std : StdId) (out : StandardResults)
    (s : VideoState) : VideoState × Bool :=
  match check with
  | .ok () =>
      if std = 0 then (s, true)
      else
        match out.getStd with
        | .ok () => (s, true)
        | .error e => (s, errnoExpected e)
  | .error e => (s, errnoExpected e)

/-- Sets a standard and reads it back. -/
def setVideoStandard (id : StdId) (check : CallResult) (std : StdId) (set get : CallResult)
    (s : VideoState) : VideoState × Bool :=
  let s' :=
    match set with
    | .ok () => s.setStandard id
    | .error _ => s
  match check with
  | .ok () =>
      if std = 0 then (s', true)
      else
        match set with
        | .ok () => (s', get.isOk)
        | .error e => (s', errnoExpected e)
  | .error e => (s', errnoExpected e)

/-- The loop over the enumerated standards, from an index on, with the failures so far. -/
def tryStandards (check : CallResult) (std : StdId) (out : StandardResults) :
    List StdId → Nat → VideoState × Nat → VideoState × Nat
  | [], _, p => p
  | id :: ids, index, (s, failed) =>
      match out.enumStd index with
      | .error _ => (s, failed)
      | .ok () =>
          match setVideoStandard id check std (out.setStd index) (out.getSet index) s with
          | (s', true) => tryStandards check std out ids (index + 1) (s', failed)
          | (s', false) => tryStandards check std out ids (index + 1) (s', failed + 1)

def doSetStandards (dev : VideoDevice) (check : CallResult) (std : StdId) (out : StandardResults)
    (s : VideoState) : VideoState × Bool :=
  let (s', failed) := tryStandards check std out (dev.standards s.selected) 0 (s, 0)
  match out.getStd with
  | .ok () =>
      if std = 0 then (s', failed == 0)
      else
        let (s'', ok) := setVideoStandard (s.standard s.selected) check std out.restoreStd
          out.getRestored s'
        (s'', ok && failed == 0)
  | .error e => (s', errnoExpected e && failed == 0)

/-- What `loop_through_video_inputs` may be called with. -/
abbrev VideoInputFunc :=
  VideoDevice → CallResult → StdId → StandardResults → VideoState → VideoState × Bool

/-! ## The loop over the inputs -/

/-- The rounds for the inputs from an index on, of which the device has `n`, and the number
of failures. -/
def inputRounds (dev : VideoDevice) (out : InputResults) (fp : VideoInputFunc) :
    Nat → Nat → Bool → VideoState → VideoState × Nat
  | 0, index, first, s =>
      if first then
        match fp dev (.error .einval) 0 (out.standards index) s with
        | (s', true) => (s', 0)
        | (s', false) => (s', 1)
      else (s, 0)
  | n + 1, index, first, s =>
      match out.enumInput index with
      | .error e =>
          if first then
            match fp dev (.error e) 0 (out.standards index) s with
            | (s', true) => (s', 0)
            | (s', false) => (s', 1)
          else (s, 0)
      | .ok () =>
          match out.setInput index with
          | .error _ => (s, 1)
          | .ok () =>
              let (s', ok) := fp dev (.ok ()) (dev.std index) (out.standards index)
                { s with selected := index }
              let (s'', failed) := inputRounds dev out fp n (index + 1) false s'
              (s'', if ok then failed else failed + 1)

def loopThroughVideoInputs (dev : VideoDevice) (out : InputResults) (fp : VideoInputFunc)
    (s : VideoState) : VideoState × Bool :=
  match out.getInput with
  | .error _ => (s, false)
  | .ok () =>
      let (s', failed) := inputRounds dev out fp dev.count 0 true s
      match out.restoreInput with
      | .ok () => ({ s' with selected := s.selected }, failed == 0)
      | .error _ => (s', false)

/-! ## What the functions leave -/

/-- The standard that is set last, if any is. -/
def lastSet (out : StandardResults) : List StdId → Nat → Option StdId
  | [], _ => none
  | id :: ids, index =>
      match out.enumStd index with
      | .error _ => none
      | .ok () =>
          (lastSet out ids (index + 1)).or
            (match out.setStd index with
            | .ok () => some id
            | .error _ => none)

/-- An input keeps its standard: it is read before the others are tried and the input reports
standards; or no standard is set, or the last one set is the one that it has. -/
def KeepsStandard (std : StdId) (out : StandardResults) (standards : List StdId)
    (original : StdId) : Prop :=
  (out.getStd = .ok () ∧ std ≠ 0) ∨ ∀ id ∈ lastSet out standards 0, id = original

/-- The standard that `do_set_standards` leaves to the selected input. -/
def standardLeft (std : StdId) (out : StandardResults) (standards : List StdId)
    (original : StdId) : StdId :=
  match out.getStd with
  | .ok () => if std = 0 then (lastSet out standards 0).getD original else original
  | .error _ => (lastSet out standards 0).getD original

theorem getD_eq_iff {α : Type*} (o : Option α) (a : α) : o.getD a = a ↔ ∀ b ∈ o, b = a := by
  cases o with
  | none => simp
  | some b => simp

theorem standardLeft_eq_iff {std : StdId} {out : StandardResults} {standards : List StdId}
    {original : StdId} : standardLeft std out standards original = original ↔
      KeepsStandard std out standards original := by
  unfold KeepsStandard standardLeft
  cases hget : out.getStd with
  | error e =>
      refine (getD_eq_iff _ _).trans ⟨.inr, fun h => h.resolve_left fun h => ?_⟩
      cases h.1
  | ok u =>
      by_cases hstd : std = 0
      · simp only [hstd, if_true, ne_eq, not_true, and_false, false_or]
        exact getD_eq_iff _ _
      · simp only [hstd, if_false, ne_eq, not_false_eq_true, and_self, true_or]

theorem setVideoStandard_fst (id : StdId) (check : CallResult) (std : StdId)
    (set get : CallResult) (s : VideoState) :
    (setVideoStandard id check std set get s).1 =
      match set with
      | .ok () => s.setStandard id
      | .error _ => s := by
  unfold setVideoStandard
  cases check with
  | error e => rfl
  | ok u =>
      by_cases hstd : std = 0
      · simp only [hstd, if_true]
      · cases set with
        | error e => simp only [hstd, if_false]
        | ok u => simp only [hstd, if_false]

/-- Trying the standards leaves the last one that is set. -/
theorem tryStandards_fst (check : CallResult) (std : StdId) (out : StandardResults)
    (ids : List StdId) (index : Nat) (s : VideoState) (failed : Nat) :
    (tryStandards check std out ids index (s, failed)).1 =
      s.setStandard ((lastSet out ids index).getD (s.standard s.selected)) := by
  induction ids generalizing index s failed with
  | nil => exact s.setStandard_self.symm
  | cons id ids ih =>
      cases henum : out.enumStd index with
      | error e =>
          simp only [tryStandards, lastSet, henum, Option.getD_none, VideoState.setStandard_self]
      | ok u =>
          have hfst := setVideoStandard_fst id check std (out.setStd index) (out.getSet index) s
          -- what is set later is what counts, whether or not this standard failed
          have hrest : ∀ failed, (tryStandards check std out ids (index + 1)
              ((setVideoStandard id check std (out.setStd index) (out.getSet index) s).1,
                failed)).1 =
              s.setStandard ((lastSet out (id :: ids) index).getD (s.standard s.selected)) := by
            intro failed
            rw [ih, hfst]
            simp only [lastSet, henum]
            cases hset : out.setStd index with
            | error e => simp only [Option.or_none]
            | ok u =>
                cases lastSet out ids (index + 1) with
                | none =>
                    simp only [Option.getD_none, Option.none_or, Option.getD_some]
                    exact VideoState.setStandard_self _
                | some id' =>
                    simp only [Option.getD_some, Option.some_or,
                      VideoState.setStandard_setStandard]
          simp only [tryStandards, henum]
          cases hpair : setVideoStandard id check std (out.setStd index) (out.getSet index) s with
          | mk s' ok =>
              rw [hpair] at hrest
              cases ok with
              | true => exact hrest failed
              | false => exact hrest (failed + 1)

/-- What a function called for the selected input does to its standard. -/
def SetsStandard (fp : VideoInputFunc) (dev : VideoDevice)
    (left : StdId → StandardResults → List StdId → StdId → StdId) : Prop :=
  ∀ check std out s, out.restoreStd = .ok () →
    (fp dev check std out s).1 =
      s.setStandard (left std out (dev.standards s.selected) (s.standard s.selected))

theorem doGetStandards_sets (dev : VideoDevice) :
    SetsStandard doGetStandards dev fun _ _ _ original => original := by
  intro check std out s _
  rw [VideoState.setStandard_self]
  unfold doGetStandards
  cases check with
  | error e => rfl
  | ok u =>
      by_cases hstd : std = 0
      · simp only [hstd, if_true]
      · cases hget : out.getStd with
        | error e => simp only [hstd, if_false]
        | ok u => simp only [hstd, if_false]

theorem doSetStandards_sets (dev : VideoDevice) :
    SetsStandard doSetStandards dev standardLeft := by
  intro check std out s hrestore
  have htry := tryStandards_fst check std out (dev.standards s.selected) 0 s 0
  unfold doSetStandards standardLeft
  cases hget : out.getStd with
  | error e => exact htry
  | ok u =>
      by_cases hstd : std = 0
      · simp only [hstd, if_true] at htry ⊢
        exact htry
      · simp only [hstd, if_false]
        rw [setVideoStandard_fst, hrestore, htry]
        exact VideoState.setStandard_setStandard ..

/-! ## What the loop leaves -/

section Loop

variable {dev : VideoDevice} {out : InputResults} {fp : VideoInputFunc}
  {left : StdId → StandardResults → List StdId → StdId → StdId}

/-- The function is called for input `k` in a loop that begins at an index. -/
def ReachedFrom (dev : VideoDevice) (out : InputResults) (index k : Nat) : Prop :=
  index ≤ k ∧ k < dev.count ∧
    ∀ j, index ≤ j → j ≤ k → out.enumInput j = .ok () ∧ out.setInput j = .ok ()

/-- The function is called for input `k`, which has been enumerated and selected. -/
def Reached (dev : VideoDevice) (out : InputResults) (k : Nat) : Prop :=
  ReachedFrom dev out 0 k

theorem reachedFrom_iff_succ {index k : Nat} (hk : k ≠ index)
    (h : out.enumInput index = .ok () ∧ out.setInput index = .ok ()) :
    ReachedFrom dev out index k ↔ ReachedFrom dev out (index + 1) k := by
  constructor
  · rintro ⟨hle, hlt, hall⟩
    exact ⟨by omega, hlt, fun j hj hjk => hall j (by omega) hjk⟩
  · rintro ⟨hle, hlt, hall⟩
    refine ⟨by omega, hlt, fun j hj hjk => ?_⟩
    by_cases hj' : j = index
    · exact hj' ▸ h
    · exact hall j (by omega) hjk

/-- The standard of an input after the rounds that begin at an index. -/
theorem inputRounds_standard (hfp : SetsStandard fp dev left)
    (hrestore : ∀ k, (out.standards k).restoreStd = .ok ()) (n index : Nat) (s : VideoState)
    (hn : index + n = dev.count) (k : Nat) :
    (ReachedFrom dev out index k →
      (inputRounds dev out fp n index false s).1.standard k =
        left (dev.std k) (out.standards k) (dev.standards k) (s.standard k)) ∧
    (¬ReachedFrom dev out index k →
      (inputRounds dev out fp n index false s).1.standard k = s.standard k) := by
  induction n generalizing index s with
  | zero =>
      refine ⟨fun h => ?_, fun _ => rfl⟩
      obtain ⟨hle, hlt, -⟩ := h
      omega
  | succ n ih =>
      cases henum : out.enumInput index with
      | error e =>
          have hnot : ¬ReachedFrom dev out index k := by
            rintro ⟨hle, -, hall⟩
            cases henum.symm.trans (hall index (Nat.le_refl _) hle).1
          refine ⟨fun h => absurd h hnot, fun _ => ?_⟩
          simp only [inputRounds, henum, Bool.false_eq_true, if_false]
      | ok u =>
          cases hset : out.setInput index with
          | error e =>
              have hnot : ¬ReachedFrom dev out index k := by
                rintro ⟨hle, -, hall⟩
                cases hset.symm.trans (hall index (Nat.le_refl _) hle).2
              refine ⟨fun h => absurd h hnot, fun _ => ?_⟩
              simp only [inputRounds, henum, hset]
          | ok u' =>
              have hstate := hfp (.ok ()) (dev.std index) (out.standards index)
                { s with selected := index } (hrestore index)
              simp only [inputRounds, henum, hset]
              rw [hstate]
              obtain ⟨hin, hout⟩ := ih (index + 1)
                (VideoState.setStandard { s with selected := index }
                  (left (dev.std index) (out.standards index) (dev.standards index)
                    (s.standard index))) (by omega)
              by_cases hk : k = index
              · subst hk
                have hnext : ¬ReachedFrom dev out (k + 1) k := fun h => by
                  have := h.1
                  omega
                refine ⟨fun _ => ?_, fun h => absurd ⟨Nat.le_refl k, by omega, ?_⟩ h⟩
                · rw [hout hnext]
                  exact Function.update_self ..
                · intro j hj hjk
                  cases Nat.le_antisymm hj hjk
                  exact ⟨henum, hset⟩
              · have hkeep : (VideoState.setStandard { s with selected := index }
                    (left (dev.std index) (out.standards index) (dev.standards index)
                      (s.standard index))).standard k = s.standard k :=
                  Function.update_of_ne hk ..
                rw [reachedFrom_iff_succ hk ⟨henum, hset⟩]
                rw [hkeep] at hin hout
                exact ⟨hin, hout⟩

/-- An input is enumerated at index 0. -/
def FirstEnumerated (dev : VideoDevice) (out : InputResults) : Prop :=
  0 < dev.count ∧ out.enumInput 0 = .ok ()

theorem inputRounds_true (h : FirstEnumerated dev out) (s : VideoState) :
    inputRounds dev out fp dev.count 0 true s = inputRounds dev out fp dev.count 0 false s := by
  obtain ⟨n, hn⟩ := Nat.exists_eq_succ_of_ne_zero (Nat.pos_iff_ne_zero.mp h.1)
  rw [hn]
  simp only [inputRounds, h.2]

/-- With no first input the function is called for the original one. -/
theorem inputRounds_not_enumerated (h : ¬FirstEnumerated dev out) (s : VideoState) :
    ∃ check, (inputRounds dev out fp dev.count 0 true s).1 =
      (fp dev check 0 (out.standards 0) s).1 := by
  cases hn : dev.count with
  | zero =>
      refine ⟨.error .einval, ?_⟩
      simp only [inputRounds, if_true]
      cases fp dev (.error .einval) 0 (out.standards 0) s with
      | mk s' ok => cases ok <;> rfl
  | succ n =>
      cases henum : out.enumInput 0 with
      | ok u => exact absurd ⟨hn ▸ Nat.succ_pos n, henum⟩ h
      | error e =>
          refine ⟨.error e, ?_⟩
          simp only [inputRounds, henum, if_true]
          cases fp dev (.error e) 0 (out.standards 0) s with
          | mk s' ok => cases ok <;> rfl

/-- Where the input that was selected is put back, the rest is the standards. -/
theorem loop_eq_iff (hget : out.getInput = .ok ()) (hrestore : out.restoreInput = .ok ())
    (s : VideoState) : (loopThroughVideoInputs dev out fp s).1 = s ↔
      ∀ k, (inputRounds dev out fp dev.count 0 true s).1.standard k = s.standard k := by
  simp only [loopThroughVideoInputs, hget, hrestore]
  constructor
  · intro h k
    exact congrFun (congrArg VideoState.standard h) k
  · intro h
    have hfun : (inputRounds dev out fp dev.count 0 true s).1.standard = s.standard := funext h
    rw [hfun]

/-- Every input for which the function is called gets back its standard. -/
def KeepsEach (dev : VideoDevice) (out : InputResults)
    (left : StdId → StandardResults → List StdId → StdId → StdId) (s : VideoState) : Prop :=
  (FirstEnumerated dev out → ∀ k, Reached dev out k →
    left (dev.std k) (out.standards k) (dev.standards k) (s.standard k) = s.standard k) ∧
  (¬FirstEnumerated dev out →
    left 0 (out.standards 0) (dev.standards s.selected) (s.standard s.selected) =
      s.standard s.selected)

theorem loop_keeps_iff (hfp : SetsStandard fp dev left) (hrestoring : out.Restoring)
    (hget : out.getInput = .ok ()) (s : VideoState) :
    (loopThroughVideoInputs dev out fp s).1 = s ↔ KeepsEach dev out left s := by
  rw [loop_eq_iff hget hrestoring.input]
  by_cases hfirst : FirstEnumerated dev out
  · rw [inputRounds_true hfirst]
    have hspec := inputRounds_standard hfp hrestoring.standard dev.count 0 s (Nat.zero_add _)
    constructor
    · exact fun h => ⟨fun _ k hk => ((hspec k).1 hk).symm.trans (h k),
        fun hnot => absurd hfirst hnot⟩
    · intro h k
      by_cases hk : Reached dev out k
      · exact ((hspec k).1 hk).trans (h.1 hfirst k hk)
      · exact (hspec k).2 hk
  · have hrounds : ∃ check, (inputRounds dev out fp dev.count 0 true s).1 =
        (fp dev check 0 (out.standards 0) s).1 := inputRounds_not_enumerated hfirst s
    obtain ⟨check, hstate⟩ := hrounds
    rw [hstate, hfp check 0 (out.standards 0) s (hrestoring.standard 0)]
    constructor
    · intro h
      have hsel := h s.selected
      exact ⟨fun h' => absurd h' hfirst, fun _ => (Function.update_self ..).symm.trans hsel⟩
    · intro h k
      rw [h.2 hfirst, VideoState.setStandard_self]

end Loop

/-- Every input that is tried keeps its standard. -/
def KeepsStandards (dev : VideoDevice) (out : InputResults) (s : VideoState) : Prop :=
  out.getInput = .ok () →
    (FirstEnumerated dev out → ∀ k, Reached dev out k →
      KeepsStandard (dev.std k) (out.standards k) (dev.standards k) (s.standard k)) ∧
    (¬FirstEnumerated dev out →
      KeepsStandard 0 (out.standards 0) (dev.standards s.selected) (s.standard s.selected))

/--
**As they were before.**  With `do_get_standards` the loop over the inputs leaves the device
as it was, and with `do_set_standards` it does so exactly where every input that it tries
keeps its standard.
-/
theorem loop_restores_iff (dev : VideoDevice) (out : InputResults) (s : VideoState)
    (hrestoring : out.Restoring) :
    (loopThroughVideoInputs dev out doGetStandards s).1 = s ∧
      ((loopThroughVideoInputs dev out doSetStandards s).1 = s ↔ KeepsStandards dev out s) := by
  cases hget : out.getInput with
  | error e =>
      have hno : ∀ fp, (loopThroughVideoInputs dev out fp s).1 = s := fun fp => by
        simp only [loopThroughVideoInputs, hget]
      refine ⟨hno _, iff_of_true (hno _) fun h => ?_⟩
      cases hget.symm.trans h
  | ok u =>
      constructor
      · exact (loop_keeps_iff (doGetStandards_sets dev) hrestoring hget s).mpr
          ⟨fun _ _ _ => rfl, fun _ => rfl⟩
      · rw [loop_keeps_iff (doSetStandards_sets dev) hrestoring hget s]
        simp only [KeepsEach, KeepsStandards, standardLeft_eq_iff]
        exact ⟨fun h _ => h, fun h => h hget⟩

/-- Every call succeeds. -/
def allStandards : StandardResults where
  getStd := .ok ()
  enumStd _ := .ok ()
  setStd _ := .ok ()
  getSet _ := .ok ()
  restoreStd := .ok ()
  getRestored := .ok ()

def allInputs : InputResults where
  getInput := .ok ()
  enumInput _ := .ok ()
  setInput _ := .ok ()
  standards _ := allStandards
  restoreInput := .ok ()

/-- A tuner and a camera.  The device enumerates two standards for both, but the camera
reports none. -/
def tunerAndCamera : VideoDevice where
  count := 2
  std k := if k = 0 then 3 else 0
  standards _ := [1, 2]

theorem loop_restores_tunerAndCamera :
    (loopThroughVideoInputs tunerAndCamera allInputs doGetStandards ⟨1, fun _ => 2⟩).1 =
        ⟨1, fun _ => 2⟩ ∧
      ((loopThroughVideoInputs tunerAndCamera allInputs doSetStandards ⟨1, fun _ => 2⟩).1 =
        ⟨1, fun _ => 2⟩ ↔ KeepsStandards tunerAndCamera allInputs ⟨1, fun _ => 2⟩) :=
  loop_restores_iff tunerAndCamera allInputs _ ⟨rfl, fun _ => rfl⟩

/-- The camera, which had the first standard, is left with the second one. -/
theorem camera_not_restored :
    ¬∀ (dev : VideoDevice) (out : InputResults) (s : VideoState), out.Restoring →
      (loopThroughVideoInputs dev out doSetStandards s).1 = s := by
  intro h
  have hstate := h tunerAndCamera allInputs ⟨0, fun _ => 1⟩ ⟨rfl, fun _ => rfl⟩
  have hcamera := congrFun (congrArg VideoState.standard hstate) 1
  revert hcamera
  decide

end Blts.V4l2
