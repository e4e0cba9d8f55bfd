import Blts.Cli.Options
import Blts.Params.BoxedValue
import Blts.V4l2.SelectStream

/-!
# Testing a control

`test_control` sets a control to its minimum, to its maximum and to the values configured for
it, compares the bounds with the configured ones, and sets the control back to the value that
it had.  A control that the device does not support, or that is disabled, read only, write
only or inactive, is not tested and counts as good.

The two configured bounds are looked up one after the other.  Without a configured minimum the
maximum is not looked at, and without a configured maximum the minimum is not compared.
-/

namespace Blts.V4l2

open Blts.Lib Blts.Params

/-! ## The configuration -/

/-- The values of the configuration file, by their names. -/
abbrev ControlConfig := List Char → Option BoxedValue

/-- `escape_control_name`. -/
def escapeControlName (name : List Char) : List Char :=
  (name.map fun c => if c = ' ' then '_' else c).filter
    fun c => c ∉ ['/', '(', ')', '[', ']']

/-- `dev%c_%s_` and what follows it: the character is the last one of the device's name. -/
def confName (devName ctlname suffix : List Char) : List Char :=
  "dev".toList ++ devName.getLast?.toList ++ ['_'] ++ escapeControlName ctlname ++ ['_'] ++
    suffix

/-- The integer that is configured. -/
def configuredInt (config : ControlConfig) (key : List Char) : Option Int :=
  match config key with
  | some (.int v) => some v
  | some (.long v) => some v
  | some (.bool v) => some v
  | _ => none

/-- `blts_config_get_value_int`: the `long` is stored in an `int`. -/
def bltsConfigGetValueInt (config : ControlConfig) (key : List Char) : Option Int32 :=
  (configuredInt config key).map Int32.ofInt

/-- `blts_config_get_value_string`. -/
def bltsConfigGetValueString (config : ControlConfig) (key : List Char) : Option (List Char) :=
  match config key with
  | some (.string s) => some s.toList
  | _ => none

/-! ## Numerals -/

/-- The number of a token that is a decimal numeral. -/
def decimalNumeral (token : List Char) : Option Int :=
  let (sign, digits) := Cli.readSign (token.dropWhile Cli.isSpace)
  if digits ≠ [] ∧ digits.all Char.isDigit then some (sign * Cli.readDigits 10 digits 0)
  else none

/-- The `int` that is left of the `long` that `strtol` gives for a number. -/
def strtolInt (w : Int) : Int32 :=
  Int32.ofInt (max (-9223372036854775808) (min w 9223372036854775807))

def FitsInt (w : Int) : Prop := -2147483648 ≤ w ∧ w < 2147483648

theorem toInt_fits (v : Int32) : FitsInt v.toInt := ⟨v.le_toInt, v.toInt_lt⟩

theorem toInt_ofInt_of_fits {w : Int} (h : FitsInt w) : (Int32.ofInt w).toInt = w :=
  Int32.toInt_ofInt_of_le h.1 h.2

theorem toInt_strtolInt_of_fits {w : Int} (h : FitsInt w) : (strtolInt w).toInt = w := by
  unfold strtolInt
  have hlong : max (-9223372036854775808) (min w 9223372036854775807) = w := by
    have h1 := h.1
    have h2 := h.2
    omega
  rw [hlong]
  exact toInt_ofInt_of_fits h

/-! ## The driver -/

inductive CtrlType where
  | integer
  | boolean
  | menu
  | button
  | integer64
  | ctrlClass
  | string
  | other
  deriving DecidableEq

/-- What `VIDIOC_QUERYCTRL` says about a control. -/
structure Queryctrl where
  type : CtrlType
  name : List Char
  minimum : Int32
  maximum : Int32
  flags : UInt32

/-- The control is disabled, read only, write only or inactive. -/
def Queryctrl.skipped (q : Queryctrl) : Bool :=
  q.flags &&& 0x0001 ≠ 0 || q.flags &&& (0x0004 ||| 0x0040) ≠ 0 || q.flags &&& 0x0010 ≠ 0

/-- What happens when a value is tried: whether the driver takes it, whether a picture can be
taken then, and whether the verification tool finds it good. -/
structure TrialResult where
  set : Bool
  snapshot : Bool
  verified : Bool

/-- The values that have been tried, each with whether the driver took it. -/
abbrev Tried := List (Int32 × Bool)

/-- What the driver does: a value that is tried may depend on those tried before. -/
structure ControlAnswers where
  queryctrl : Except IoctlErrno Queryctrl
  getCtrl : Bool
  trial : Tried → Int32 → TrialResult
  querymenu : UInt32 → Except IoctlErrno Unit
  restore : Bool

/-- What the test reads of a `v4l2_data`. -/
structure ControlTest where
  config : ControlConfig
  devName : List Char
  /-- `CLI_FLAG_IMGSAVE`. -/
  imgSave : Bool
  /-- There is an `img_verify_tool`. -/
  imgVerifyTool : Bool

/-- The value of the control, the values tried, and how the restoring call went. -/
structure ControlState where
  value : Int32
  tried : Tried
  restored : Option Bool

def ControlState.start (value : Int32) : ControlState := ⟨value, [], none⟩

/-! ## The test -/

section Test

variable (data : ControlTest) (ans : ControlAnswers)

/-- Whether a trial counts as good. -/
def trialGood (trial : TrialResult) : Bool :=
  trial.set && (!data.imgSave || (trial.snapshot && (!data.imgVerifyTool || trial.verified)))

/-- The control when a value has been tried. -/
def ControlState.afterTrial (s : ControlState) (value : Int32) : ControlState :=
  if (ans.trial s.tried value).set then
    { s with value := value, tried := s.tried ++ [(value, true)] }
  else { s with tried := s.tried ++ [(value, false)] }

def testControlValue (value : Int32) (s : ControlState) : ControlState × Bool :=
  (s.afterTrial ans value, trialGood data (ans.trial s.tried value))

def validateControlValues (q : Queryctrl) : Bool :=
  match bltsConfigGetValueInt data.config (confName data.devName q.name "min".toList) with
  | none => true
  | some confMin =>
      match bltsConfigGetValueInt data.config (confName data.devName q.name "max".toList) with
      | none => true
      | some confMax => q.minimum = confMin && q.maximum = confMax

/-- The loop over the configured values. -/
def testConfiguredTokens : List (List Char) → ControlState → Bool → ControlState × Bool
  | [], s, testResult => (s, testResult)
  | token :: tokens, s, testResult =>
      match decimalNumeral token with
      | none => (s, false)
      | some w =>
          let (s', res) := testControlValue data ans (strtolInt w) s
          testConfiguredTokens tokens s' (res && testResult)

/-- The words of the configured test values, which are split at spaces. -/
def testValues (q : Queryctrl) : List (List Char) :=
  match bltsConfigGetValueString data.config
      (confName data.devName q.name "testvalues".toList) with
  | none => []
  | some confValues => (confValues.splitOn ' ').filter (· ≠ [])

def testConfiguredValues (q : Queryctrl) (s : ControlState) : ControlState × Bool :=
  testConfiguredTokens data ans (testValues data q) s true

/-- A lap of the loop over the indices of a menu, which are unsigned. -/
def menuLap (maxvalue : UInt32) :
    ControlState × UInt32 × Bool → Lap (ControlState × UInt32 × Bool) (ControlState × Bool)
  | (s, index, testResult) =>
      if index ≤ maxvalue then
        match ans.querymenu index with
        | .ok () =>
            let (s', res) := testControlValue data ans index.toInt32 s
            .again (s', index + 1, res && testResult)
        | .error .einval => .again (s, index + 1, testResult)
        | .error .other => .leave (s, false)
      else .leave (s, testResult)

/-- `set_control_value` with the original value. -/
def ControlState.restore (s : ControlState) (origValue : Int32) : ControlState :=
  if ans.restore then { s with value := origValue, restored := some true }
  else { s with restored := some false }

/-- What `test_control` leaves and returns, if so many laps are enough for a menu. -/
def testControl (laps : Nat) (s : ControlState) : Option (ControlState × Bool) :=
  match ans.queryctrl with
  | .error .einval => some (s, true)
  | .error .other => some (s, false)
  | .ok q =>
      if q.skipped then some (s, true)
      else if ans.getCtrl then
        match q.type with
        | .integer =>
            let valid := validateControlValues data q
            let (s1, res1) := testControlValue data ans q.minimum s
            let (s2, res2) := testControlValue data ans q.maximum s1
            let (s3, res3) := testConfiguredValues data ans q s2
            some (s3.restore ans s.value, res3 && (res2 && (res1 && valid)))
        | .boolean =>
            let (s1, res1) := testControlValue data ans q.minimum s
            let (s2, res2) := testControlValue data ans q.maximum s1
            some (s2.restore ans s.value, res2 && res1)
        | .menu =>
            (Lap.run (menuLap data ans q.maximum.toUInt32) laps (s, q.minimum.toUInt32, true)).map
              fun (s1, res) => (s1.restore ans s.value, res)
        | .button | .integer64 | .ctrlClass | .string | .other => some (s, true)
      else some (s, false)

end Test

/-! ## A run of trials -/

section Trials

variable (data : ControlTest) (ans : ControlAnswers)

/-- Every one of these values is good when it is tried after the ones before it. -/
def trialsGood : List Int32 → Tried → Bool
  | [], _ => true
  | v :: vs, tried =>
      trialGood data (ans.trial tried v) &&
        trialsGood vs (tried ++ [(v, (ans.trial tried v).set)])

variable {data ans}

@[simp] theorem afterTrial_tried (s : ControlState) (v : Int32) :
    (s.afterTrial ans v).tried = s.tried ++ [(v, (ans.trial s.tried v).set)] := by
  unfold ControlState.afterTrial
  cases h : (ans.trial s.tried v).set with
  | true => rw [if_pos rfl]
  | false => rw [if_neg Bool.false_ne_true]

theorem set_of_trialGood {trial : TrialResult} (h : trialGood data trial = true) :
    trial.set = true := by
  simp only [trialGood, Bool.and_eq_true] at h
  exact h.1

/-- The configured values, as far as they are numbers. -/
def configuredNumbers (data : ControlTest) (q : Queryctrl) : List Int :=
  (testValues data q).filterMap decimalNumeral

/-- The verdict over the configured values: they are numbers, and all of them are good. -/
theorem testConfiguredTokens_snd (tokens : List (List Char)) (s : ControlState) (r : Bool) :
    (testConfiguredTokens data ans tokens s r).2 = true ↔
      r = true ∧ (∀ t ∈ tokens, decimalNumeral t ≠ none) ∧
        trialsGood data ans ((tokens.filterMap decimalNumeral).map strtolInt) s.tried = true := by
  induction tokens generalizing s r with
  | nil => simp only [testConfiguredTokens, List.not_mem_nil, false_imp_iff, implies_true,
      List.filterMap_nil, List.map_nil, trialsGood, and_true]
  | cons t tokens ih =>
      rw [List.forall_mem_cons]
      cases ht : decimalNumeral t with
      | none =>
          simp only [testConfiguredTokens, ht, ne_eq, not_true, false_and, and_false,
            Bool.false_eq_true]
      | some w =>
          simp only [testConfiguredTokens, ht, testControlValue, ih, afterTrial_tried, ne_eq,
            List.filterMap_cons_some ht, List.map_cons, trialsGood, Bool.and_eq_true,
            reduceCtorEq, not_false_eq_true, true_and]
          tauto

/-- The trials are recorded, each with success if all of them are good. -/
theorem testConfiguredTokens_tried (tokens : List (List Char)) (s : ControlState) (r : Bool)
    (hnum : ∀ t ∈ tokens, decimalNumeral t ≠ none)
    (hgood : trialsGood data ans ((tokens.filterMap decimalNumeral).map strtolInt) s.tried = true) :
    (testConfiguredTokens data ans tokens s r).1.tried =
      s.tried ++ ((tokens.filterMap decimalNumeral).map strtolInt).map (·, true) := by
  induction tokens generalizing s r with
  | nil => exact (List.append_nil _).symm
  | cons t tokens ih =>
      obtain ⟨ht, hrest⟩ := List.forall_mem_cons.mp hnum
      obtain ⟨w, hw⟩ := Option.ne_none_iff_exists'.mp ht
      rw [List.filterMap_cons_some hw, List.map_cons, trialsGood, Bool.and_eq_true] at hgood
      obtain ⟨hfirst, hgood⟩ := hgood
      have hstate : (s.afterTrial ans (strtolInt w)).tried = s.tried ++ [(strtolInt w, true)] := by
        rw [afterTrial_tried, set_of_trialGood hfirst]
      rw [← afterTrial_tried] at hgood
      simp only [testConfiguredTokens, hw, testControlValue]
      rw [ih _ _ hrest hgood, hstate, List.filterMap_cons_some hw, List.append_assoc]
      rfl

end Trials

/-! ## What the verdict is worth -/

section Verdict

variable (data : ControlTest) (ans : ControlAnswers)

/-- The values that are tried on an integer control. -/
def triedValues (q : Queryctrl) : List Int32 :=
  q.minimum :: q.maximum :: (configuredNumbers data q).map strtolInt

/-- The configured minimum and maximum. -/
def configuredMin (q : Queryctrl) : Option Int :=
  configuredInt data.config (confName data.devName q.name "min".toList)

def configuredMax (q : Queryctrl) : Option Int :=
  configuredInt data.config (confName data.devName q.name "max".toList)

/-- Each configured bound is the one that the driver reports. -/
def BoundsEqual (q : Queryctrl) : Prop :=
  (∀ v ∈ configuredMin data q, v = q.minimum.toInt) ∧
    ∀ v ∈ configuredMax data q, v = q.maximum.toInt

/-- The driver has taken the bounds and each of the configured values. -/
def ValuesTaken (q : Queryctrl) (tried : Tried) : Prop :=
  (q.minimum, true) ∈ tried ∧ (q.maximum, true) ∈ tried ∧
    ∀ token ∈ testValues data q, ∃ v, decimalNumeral token = some v.toInt ∧ (v, true) ∈ tried

/-- A test of a control with this value tells the truth when it says that an integer control is
good, and leaves the control as it was if the restoring call does not fail. -/
def TestsRight (value : Int32) : Prop :=
  ∀ laps s ret, testControl data ans laps (ControlState.start value) = some (s, ret) →
    (∀ q, ans.queryctrl = .ok q → q.type = .integer → ret = true →
      BoundsEqual data q ∧ ValuesTaken data q s.tried) ∧
    (s.restored ≠ some false → s.value = value)

/-- The test fails whatever the bounds are worth: the control cannot be read, both bounds are
configured and one differs, a configured value is not a number, or a trial goes wrong. -/
def FailsAnyway (q : Queryctrl) : Prop :=
  ans.getCtrl = false ∨
    (∃ a ∈ configuredMin data q, ∃ b ∈ configuredMax data q,
      q.minimum ≠ Int32.ofInt a ∨ q.maximum ≠ Int32.ofInt b) ∨
    (∃ token ∈ testValues data q, decimalNumeral token = none) ∨
    trialsGood data ans (triedValues data q) [] = false

/-- A bound that is configured without the other one is the one that the driver reports. -/
def LoneBoundEqual (q : Queryctrl) : Prop :=
  (configuredMax data q = none → ∀ v ∈ configuredMin data q, v = q.minimum.toInt) ∧
    (configuredMin data q = none → ∀ v ∈ configuredMax data q, v = q.maximum.toInt)

/-- The configured numbers fit in an `int`. -/
def ConfigFits (q : Queryctrl) : Prop :=
  (∀ v ∈ configuredMin data q, FitsInt v) ∧ (∀ v ∈ configuredMax data q, FitsInt v) ∧
    ∀ v ∈ configuredNumbers data q, FitsInt v

variable {data ans}

theorem validateControlValues_iff (q : Queryctrl) :
    validateControlValues data q = true ↔
      ∀ a ∈ configuredMin data q, ∀ b ∈ configuredMax data q,
        q.minimum = Int32.ofInt a ∧ q.maximum = Int32.ofInt b := by
  unfold validateControlValues bltsConfigGetValueInt
  change _ ↔ ∀ a ∈ configuredInt data.config _, ∀ b ∈ configuredInt data.config _, _
  cases configuredInt data.config (confName data.devName q.name "min".toList) with
  | none => simp
  | some a =>
      cases configuredInt data.config (confName data.devName q.name "max".toList) with
      | none => simp
      | some b => simp

@[simp] theorem restore_tried (s : ControlState) (v : Int32) :
    (s.restore ans v).tried = s.tried := by
  unfold ControlState.restore
  by_cases h : ans.restore = true
  · rw [if_pos h]
  · rw [if_neg h]

/-- The restoring call puts the original value back, if it does not fail. -/
theorem restore_value (s : ControlState) (v : Int32)
    (h : (s.restore ans v).restored ≠ some false) : (s.restore ans v).value = v := by
  unfold ControlState.restore at h ⊢
  by_cases hr : ans.restore = true
  · rw [if_pos hr]
  · rw [if_neg hr] at h
    exact absurd rfl h

/-- The test of an integer control says that it is good unless the test fails anyway, and then
the driver has taken every value. -/
theorem testControl_integer {q : Queryctrl} (hq : ans.queryctrl = .ok q)
    (htype : q.type = .integer) (hskip : q.skipped = false) (laps : Nat) (value : Int32) :
    ∃ s ret, testControl data ans laps (ControlState.start value) = some (s, ret) ∧
      (ret = true ↔ ¬FailsAnyway data ans q) ∧
      (ret = true → s.tried = (triedValues data q).map (·, true)) := by
  cases hget : ans.getCtrl with
  | false =>
      refine ⟨ControlState.start value, false, ?_, ?_, fun h => absurd h Bool.false_ne_true⟩
      · simp only [testControl, hq, hskip, hget, Bool.false_eq_true, if_false]
      · exact iff_of_false Bool.false_ne_true fun h => h (.inl hget)
  | true =>
      let s1 := (ControlState.start value).afterTrial ans q.minimum
      let s2 := s1.afterTrial ans q.maximum
      let r1 := trialGood data (ans.trial [] q.minimum)
      let r2 := trialGood data (ans.trial s1.tried q.maximum)
      have hs1 : s1.tried = [(q.minimum, (ans.trial [] q.minimum).set)] := afterTrial_tried _ _
      have hs2 : s2.tried = s1.tried ++ [(q.maximum, (ans.trial s1.tried q.maximum).set)] :=
        afterTrial_tried _ _
      have hrun : testControl data ans laps (ControlState.start value) =
          some ((testConfiguredValues data ans q s2).1.restore ans value,
            (testConfiguredValues data ans q s2).2 &&
              (r2 && (r1 && validateControlValues data q))) := by
        simp only [testControl, hq, hskip, hget, htype, if_true, Bool.false_eq_true, if_false]
        rfl
      -- the trials of both bounds come before those of the configured values
      have htrials : trialsGood data ans (triedValues data q) [] =
          (r1 && (r2 &&
            trialsGood data ans ((configuredNumbers data q).map strtolInt) s2.tried)) := by
        rw [hs2, hs1]
        simp only [triedValues, trialsGood, List.nil_append, r1, r2, hs1]
      have hverdict : ((testConfiguredValues data ans q s2).2 &&
          (r2 && (r1 && validateControlValues data q))) = true ↔
            (∀ t ∈ testValues data q, decimalNumeral t ≠ none) ∧
              trialsGood data ans (triedValues data q) [] = true ∧
              validateControlValues data q = true := by
        rw [htrials]
        simp only [Bool.and_eq_true, testConfiguredValues, testConfiguredTokens_snd, true_and,
          configuredNumbers]
        tauto
      refine ⟨_, _, hrun, hverdict.trans ?_, fun hret => ?_⟩
      · rw [validateControlValues_iff]
        unfold FailsAnyway
        rw [hget]
        constructor
        · rintro ⟨hnum, hgood, hvalid⟩ (h | ⟨a, ha, b, hb, hne⟩ | ⟨t, ht, hno⟩ | h)
          · cases h
          · obtain ⟨hmin, hmax⟩ := hvalid a ha b hb
            exact hne.elim (· hmin) (· hmax)
          · exact hnum t ht hno
          · exact Bool.false_ne_true (h.symm.trans hgood)
        · intro h
          push Not at h
          obtain ⟨-, hvalid, hnum, hgood⟩ := h
          exact ⟨hnum, by simpa using hgood, hvalid⟩
      · obtain ⟨hnum, hgood, -⟩ := hverdict.mp hret
        rw [htrials, Bool.and_eq_true, Bool.and_eq_true] at hgood
        obtain ⟨h1, h2, h3⟩ := hgood
        have hbounds : s2.tried = [(q.minimum, true)] ++ [(q.maximum, true)] := by
          rw [hs2, set_of_trialGood h2, hs1, set_of_trialGood h1]
        rw [restore_tried, testConfiguredValues, testConfiguredTokens_tried _ _ _ hnum h3, hbounds]
        rfl

/-- Whatever the type of the control, it is left as it was if the restoring call succeeds. -/
theorem testControl_value {laps : Nat} {value : Int32} {s : ControlState} {ret : Bool}
    (h : testControl data ans laps (ControlState.start value) = some (s, ret))
    (hrestored : s.restored ≠ some false) : s.value = value := by
  -- no trial comes before a return without the restoring call
  have huntried : ∀ r, some (ControlState.start value, r) = some (s, ret) → s.value = value := by
    rintro r h
    cases h
    rfl
  have hput : ∀ (t : ControlState) (r : Bool),
      some (t.restore ans value, r) = some (s, ret) → s.value = value := by
    rintro t r h
    cases h
    exact restore_value t value hrestored
  unfold testControl at h
  cases hq : ans.queryctrl with
  | error e =>
      rw [hq] at h
      cases e with
      | einval => exact huntried _ h
      | other => exact huntried _ h
  | ok q =>
      simp only [hq] at h
      by_cases hskip : q.skipped = true
      · rw [if_pos hskip] at h
        exact huntried _ h
      · rw [if_neg hskip] at h
        by_cases hget : ans.getCtrl = true
        · rw [if_pos hget] at h
          cases htype : q.type with
          | integer => rw [htype] at h; exact hput _ _ h
          | boolean => rw [htype] at h; exact hput _ _ h
          | menu =>
              rw [htype] at h
              obtain ⟨⟨t, r⟩, -, h⟩ := Option.map_eq_some_iff.mp h
              exact hput t r (congrArg some h)
          | button => rw [htype] at h; exact huntried _ h
          | integer64 => rw [htype] at h; exact huntried _ h
          | ctrlClass => rw [htype] at h; exact huntried _ h
          | string => rw [htype] at h; exact huntried _ h
          | other => rw [htype] at h; exact huntried _ h
        · rw [if_neg hget] at h
          exact huntried _ h

/-- Where the test does not fail anyway: the bounds are equal, and the values taken, exactly
where a lone bound is equal and the configured numbers fit. -/
theorem boundsEqual_and_taken_iff {q : Queryctrl} (h : ¬FailsAnyway data ans q) :
    BoundsEqual data q ∧ ValuesTaken data q ((triedValues data q).map (·, true)) ↔
      LoneBoundEqual data q ∧ ConfigFits data q := by
  unfold FailsAnyway at h
  push Not at h
  obtain ⟨-, hvalid, hnum, -⟩ := h
  have htaken : ∀ {v}, (v, true) ∈ (triedValues data q).map (·, true) ↔
      v ∈ triedValues data q := by
    intro v
    simp
  constructor
  · rintro ⟨⟨hmin, hmax⟩, -, -, hvalues⟩
    refine ⟨⟨fun _ => hmin, fun _ => hmax⟩, fun v hv => hmin v hv ▸ toInt_fits _,
      fun v hv => hmax v hv ▸ toInt_fits _, fun v hv => ?_⟩
    obtain ⟨token, htoken, hval⟩ := List.mem_filterMap.mp hv
    obtain ⟨v', hv', -⟩ := hvalues token htoken
    cases hval.symm.trans hv'
    exact toInt_fits v'
  · rintro ⟨⟨hmin, hmax⟩, hfmin, hfmax, hfnum⟩
    refine ⟨⟨fun v hv => ?_, fun v hv => ?_⟩, htaken.mpr List.mem_cons_self,
      htaken.mpr (List.mem_cons_of_mem _ List.mem_cons_self), fun token htoken => ?_⟩
    · cases hb : configuredMax data q with
      | none => exact hmin hb v hv
      | some b => rw [(hvalid v hv b hb).1, toInt_ofInt_of_fits (hfmin v hv)]
    · cases ha : configuredMin data q with
      | none => exact hmax ha v hv
      | some a => rw [(hvalid a ha v hv).2, toInt_ofInt_of_fits (hfmax v hv)]
    · obtain ⟨w, hw⟩ := Option.ne_none_iff_exists'.mp (hnum token htoken)
      have hmem : w ∈ configuredNumbers data q := List.mem_filterMap.mpr ⟨token, htoken, hw⟩
      refine ⟨strtolInt w, ?_, htaken.mpr ?_⟩
      · rw [toInt_strtolInt_of_fits (hfnum w hmem), hw]
      · exact List.mem_cons_of_mem _ (List.mem_cons_of_mem _ (List.mem_map_of_mem hmem))

end Verdict

/-- What it takes for the verdict on an integer control to be right. -/
def VerdictHolds (data : ControlTest) (ans : ControlAnswers) : Prop :=
  ∀ q, ans.queryctrl = .ok q → q.type = .integer →
    q.skipped = false ∧
      (FailsAnyway data ans q ∨ (LoneBoundEqual data q ∧ ConfigFits data q))

/--
**The test of a control.**  The control is left as it was, and success on an integer control
means equal bounds and accepted values, exactly where the control is tested at all and, unless
the test fails anyway, a bound configured alone is the one reported and the configured numbers
fit in an `int`.
-/
theorem testsRight_iff (data : ControlTest) (ans : ControlAnswers) (value : Int32) :
    TestsRight data ans value ↔ VerdictHolds data ans := by
  constructor
  · intro h q hq htype
    by_cases hskip : q.skipped = true
    · have hrun : testControl data ans 0 (ControlState.start value) =
          some (ControlState.start value, true) := by
        simp only [testControl, hq, hskip, if_true]
      obtain ⟨-, hmin, -⟩ := (h 0 _ _ hrun).1 q hq htype rfl
      cases hmin
    · have hskip' : q.skipped = false := Bool.not_eq_true _ ▸ hskip
      refine ⟨hskip', ?_⟩
      by_cases hfails : FailsAnyway data ans q
      · exact .inl hfails
      · obtain ⟨s, ret, hrun, hret, htried⟩ := testControl_integer hq htype hskip' 0 value
        have hgood := hret.mpr hfails
        have hright := (h 0 s ret hrun).1 q hq htype hgood
        rw [htried hgood] at hright
        exact .inr ((boundsEqual_and_taken_iff hfails).mp hright)
  · intro h laps s ret hrun
    refine ⟨fun q hq htype hgood => ?_, testControl_value hrun⟩
    obtain ⟨hskip, hor⟩ := h q hq htype
    obtain ⟨s', ret', hrun', hret, htried⟩ := testControl_integer hq htype hskip laps value
    cases hrun.symm.trans hrun'
    have hfails := hret.mp hgood
    rw [htried hgood]
    exact (boundsEqual_and_taken_iff hfails).mpr (hor.resolve_left hfails)

/-- A brightness with a configured maximum and no configured minimum. -/
def maximumOnly : ControlTest where
  config key := if key = "dev0_Brightness_max".toList then some (.long 127) else none
  devName := "/dev/video0".toList
  imgSave := false
  imgVerifyTool := false

/-- A driver that takes every value. -/
def willing : ControlAnswers where
  queryctrl := .ok ⟨.integer, "Brightness".toList, 0, 255, 0⟩
  getCtrl := true
  trial _ _ := ⟨true, true, true⟩
  querymenu _ := .ok ()
  restore := true

/-- The maximum is not the configured one, and the test succeeds. -/
theorem maximumOnly_not_compared : ¬TestsRight maximumOnly willing 128 := by
  intro h
  have hrun : testControl maximumOnly willing 0 (ControlState.start 128) =
      some (⟨128, [(0, true), (255, true)], some true⟩, true) := rfl
  have hmax := ((h 0 _ _ hrun).1 _ rfl rfl rfl).1.2 127 (by decide)
  exact absurd hmax (by decide)

end Blts.V4l2
