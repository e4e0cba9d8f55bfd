import Mathlib.Data.List.Basic
import Mathlib.Data.List.FinRange
import Blts.Lib.CNumbers

/-!
# The measurements of a sensor

The tests of noise and range take the extremes of each axis from `INT_MAX` and `INT_MIN` and
subtract them as `int`s, also where nothing has been read.  The test of the rate counts changes of
the first three values if the input is polled, and nothing if it is not.  When each of the tests
says what it should is settled by `noiseRight_iff`, `rangeRight_iff` and `rateRight_iff`.
-/

namespace Blts.Sensors

open Lib

/-- The values of a reading, which are `int`s. -/
structure Reading (n : Nat) where
  values : Fin n → Int
  isInt : ∀ i, IsInt (values i)

/-- `INT_MAX` -/
def intMax : Int := 2147483647

/-- `INT_MIN` -/
def intMin : Int := -2147483648

/-- `abs` -/
def cAbs (x : Int) : Option Int :=
  cInt x.natAbs

/-- What is used of `sensors_data`. -/
structure SensorsData where
  duration : Int
  maxNoise : Int
  rangeMin : Int
  rangeMax : Int
  rangeDeviation : Int
  inputIsPolled : Bool
  maxRateDifferencePct : Int

section

variable {n : Nat}

/-! ## Noise and range -/

/-- The arrays `min` and `max`. -/
structure Extremes (n : Nat) where
  min : Fin n → Int
  max : Fin n → Int

/-- `update_input_min_max` -/
def updateInputMinMax (e : Extremes n) (r : Reading n) : Extremes n where
  min i := if r.values i < e.min i then r.values i else e.min i
  max i := if r.values i > e.max i then r.values i else e.max i

/-- The loop of `measure_input_min_max`, over what the plug-in delivers until the time is over: a
reading, or none where it fails. -/
def measureLoop (e : Extremes n) : List (Option (Reading n)) → Int × Extremes n
  | [] => (0, e)
  | none :: _ => (-1, e)
  | some r :: rs => measureLoop (updateInputMinMax e r) rs

/-- `measure_input_min_max` -/
def measureInputMinMax (readings : List (Option (Reading n))) : Int × Extremes n :=
  measureLoop { min := fun _ => intMax, max := fun _ => intMin } readings

/-- The loop of `test_noise`. -/
def noiseLoop (data : SensorsData) (e : Extremes n) : List (Fin n) → Option Int
  | [] => some 0
  | i :: axes => do
    let noise ← cInt (e.max i - e.min i)
    if noise > data.maxNoise then some (-1) else noiseLoop data e axes

/-- `test_noise` -/
def testNoise (data : SensorsData) (readings : List (Option (Reading n))) : Option Int :=
  let (ret, e) := measureInputMinMax readings
  if ret = 0 then noiseLoop data e (List.finRange n) else some ret

/-- Whether an axis is out of its range; the upper end is looked at where the lower one is right. -/
def outOfRange (data : SensorsData) (e : Extremes n) (i : Fin n) : Option Bool := do
  let below ← cAbs (← cInt (data.rangeMin - e.min i))
  if below > data.rangeDeviation then
    return true
  let above ← cAbs (← cInt (data.rangeMax - e.max i))
  return above > data.rangeDeviation

/-- The loop of `test_range`. -/
def rangeLoop (data : SensorsData) (e : Extremes n) : Int → List (Fin n) → Option Int
  | ret, [] => some ret
  | ret, i :: axes => do
    let out ← outOfRange data e i
    rangeLoop data e (if out then -1 else ret) axes

/-- `test_range` -/
def testRange (data : SensorsData) (readings : List (Option (Reading n))) : Option Int :=
  let (ret, e) := measureInputMinMax readings
  if ret = 0 then rangeLoop data e ret (List.finRange n) else some ret

/-! ## Rate -/

/-- The comparison of the values at these indices, up to the first difference. -/
def differs (values prev : Fin n → Int) : List Nat → Option Bool
  | [] => some false
  | k :: ks =>
    if h : k < n then
      if values ⟨k, h⟩ ≠ prev ⟨k, h⟩ then some true else differs values prev ks
    else
      none

/-- The loop of `test_rate`: what is returned so far, and `num_updates`. -/
def rateLoop (polled : Bool) (prev : Fin n → Int) (numUpdates : Int) :
    List (Option (Reading n)) → Option (Int × Int)
  | [] => some (0, numUpdates)
  | none :: _ => some (-1, numUpdates)
  | some r :: rs =>
    if polled then do
      if ← differs r.values prev [0, 1, 2] then
        let numUpdates ← cInt (numUpdates + 1)
        rateLoop polled r.values numUpdates rs
      else
        rateLoop polled prev numUpdates rs
    else
      rateLoop polled prev numUpdates rs

/-- The end of `test_rate`: the observed rate beside that of the sensor. -/
def judgeRate (data : SensorsData) (sensorRate numUpdates : Int) : Option Int := do
  if data.duration = 0 then
    none
  let observedRate := numUpdates.tdiv data.duration
  if sensorRate = 0 then
    return if observedRate ≠ 0 then -1 else 0
  let difference ← cAbs (← cInt (sensorRate - observedRate))
  let product ← cInt (difference * 100)
  return if product.tdiv sensorRate > data.maxRateDifferencePct then -1 else 0

/-- `test_rate`, of an input that can be read; `sensorRate` is what the plug-in says, if it does. -/
def testRate (data : SensorsData) (sensorRate : Option Int)
    (readings : List (Option (Reading n))) : Option Int :=
  match sensorRate with
  | none => some (-1)
  | some sensorRate => do
    let (ret, numUpdates) ← rateLoop data.inputIsPolled (fun _ => 0) 0 readings
    if ret = 0 then judgeRate data sensorRate numUpdates else return ret

/-! ## What the tests should say -/

/-- The readings up to the first that fails. -/
def obtained : List (Option (Reading n)) → List (Reading n)
  | some r :: rs => r :: obtained rs
  | _ => []

/-- A reading fails. -/
def failed (readings : List (Option (Reading n))) : Bool :=
  readings.any Option.isNone

/-- The smallest value of an axis, where there is one. -/
def lowest (rs : List (Reading n)) (i : Fin n) : Int :=
  rs.foldl (fun m r => min m (r.values i)) intMax

/-- The largest value of an axis, where there is one. -/
def highest (rs : List (Reading n)) (i : Fin n) : Int :=
  rs.foldl (fun m r => max m (r.values i)) intMin

/-- At least one reading was obtained, and none failed. -/
def Measured (readings : List (Option (Reading n))) : Prop :=
  obtained readings ≠ [] ∧ failed readings = false

/-- `test_noise` succeeds just where no axis is too noisy. -/
def NoiseRight (data : SensorsData) (readings : List (Option (Reading n))) : Prop :=
  ∃ ret, testNoise data readings = some ret ∧
    (ret = 0 ↔ Measured readings ∧ ∀ i,
      highest (obtained readings) i - lowest (obtained readings) i ≤ data.maxNoise)

/-- The ends of an axis are within the deviation. -/
def InRange (data : SensorsData) (low high : Int) : Prop :=
  (data.rangeMin - low).natAbs ≤ data.rangeDeviation ∧
    (data.rangeMax - high).natAbs ≤ data.rangeDeviation

instance (data : SensorsData) (low high : Int) : Decidable (InRange data low high) :=
  inferInstanceAs (Decidable (_ ∧ _))

/-- `test_range` succeeds just where the ends of all axes are within the deviation. -/
def RangeRight (data : SensorsData) (readings : List (Option (Reading n))) : Prop :=
  ∃ ret, testRange data readings = some ret ∧
    (ret = 0 ↔ Measured readings ∧ ∀ i,
      InRange data (lowest (obtained readings) i) (highest (obtained readings) i))

theorem lowest_le_foldl (i : Fin n) (rs : List (Reading n)) : ∀ m : Int,
    rs.foldl (fun m r => min m (r.values i)) m ≤ m ∧
      ∀ r ∈ rs, rs.foldl (fun m r => min m (r.values i)) m ≤ r.values i := by
  induction rs with
  | nil => exact fun m => ⟨Int.le_refl m, fun r hr => absurd hr List.not_mem_nil⟩
  | cons r rs ih =>
    intro m
    obtain ⟨hm, hrs⟩ := ih (min m (r.values i))
    refine ⟨Int.le_trans hm (Int.min_le_left _ _), fun r' hr' => ?_⟩
    rcases List.mem_cons.mp hr' with rfl | hmem
    · exact Int.le_trans hm (Int.min_le_right _ _)
    · exact hrs r' hmem

theorem highest_ge_foldl (i : Fin n) (rs : List (Reading n)) : ∀ m : Int,
    m ≤ rs.foldl (fun m r => max m (r.values i)) m ∧
      ∀ r ∈ rs, r.values i ≤ rs.foldl (fun m r => max m (r.values i)) m := by
  induction rs with
  | nil => exact fun m => ⟨Int.le_refl m, fun r hr => absurd hr List.not_mem_nil⟩
  | cons r rs ih =>
    intro m
    obtain ⟨hm, hrs⟩ := ih (max m (r.values i))
    refine ⟨Int.le_trans (Int.le_max_left _ _) hm, fun r' hr' => ?_⟩
    rcases List.mem_cons.mp hr' with rfl | hmem
    · exact Int.le_trans (Int.le_max_right _ _) hm
    · exact hrs r' hmem

/-- What is chosen from the values of an axis one after the other is the first one, or one of
them. -/
theorem foldl_mem_or {f : Int → Int → Int} (hf : ∀ a b, f a b = a ∨ f a b = b) (i : Fin n)
    (rs : List (Reading n)) : ∀ m : Int,
      rs.foldl (fun m r => f m (r.values i)) m = m ∨
        ∃ r ∈ rs, r.values i = rs.foldl (fun m r => f m (r.values i)) m := by
  induction rs with
  | nil => exact fun m => .inl rfl
  | cons r rs ih =>
    intro m
    rw [List.foldl_cons]
    rcases ih (f m (r.values i)) with heq | ⟨r', hmem, heq⟩
    · rcases hf m (r.values i) with hfirst | hvalue
      · exact .inl (heq.trans hfirst)
      · exact .inr ⟨r, List.mem_cons_self, (heq.trans hvalue).symm⟩
    · exact .inr ⟨r', List.mem_cons_of_mem _ hmem, heq⟩

/-- Of some readings, the lowest value of an axis is the value of one, and none is below it. -/
theorem lowest_isLeast {rs : List (Reading n)} (hne : rs ≠ []) (i : Fin n) :
    (∃ r ∈ rs, r.values i = lowest rs i) ∧ ∀ r ∈ rs, lowest rs i ≤ r.values i := by
  have hle := (lowest_le_foldl i rs intMax).2
  refine ⟨?_, hle⟩
  rcases foldl_mem_or (f := min) (fun a b => by omega) i rs intMax with heq | hmem
  · obtain ⟨r, hr⟩ := List.exists_mem_of_ne_nil rs hne
    refine ⟨r, hr, Int.le_antisymm ?_ (hle r hr)⟩
    rw [lowest, heq]
    exact (r.isInt i).2
  · exact hmem

/-- Of some readings, the highest value of an axis is the value of one, and none is above it. -/
theorem highest_isGreatest {rs : List (Reading n)} (hne : rs ≠ []) (i : Fin n) :
    (∃ r ∈ rs, r.values i = highest rs i) ∧ ∀ r ∈ rs, r.values i ≤ highest rs i := by
  have hge := (highest_ge_foldl i rs intMin).2
  refine ⟨?_, hge⟩
  rcases foldl_mem_or (f := max) (fun a b => by omega) i rs intMin with heq | hmem
  · obtain ⟨r, hr⟩ := List.exists_mem_of_ne_nil rs hne
    refine ⟨r, hr, Int.le_antisymm (hge r hr) ?_⟩
    rw [highest, heq]
    exact (r.isInt i).1
  · exact hmem

/-- Of some readings, no lowest value is above the highest. -/
theorem lowest_le_highest {rs : List (Reading n)} (hne : rs ≠ []) (i : Fin n) :
    lowest rs i ≤ highest rs i := by
  obtain ⟨r, hr, heq⟩ := (lowest_isLeast hne i).1
  exact heq ▸ (highest_isGreatest hne i).2 r hr

/-- The arrays after readings that did not fail. -/
theorem measureLoop_eq (readings : List (Option (Reading n))) : ∀ e : Extremes n,
    measureLoop e readings = (if failed readings then -1 else 0,
      { min := fun i => (obtained readings).foldl (fun m r => min m (r.values i)) (e.min i)
        max := fun i => (obtained readings).foldl (fun m r => max m (r.values i)) (e.max i) }) := by
  induction readings with
  | nil => exact fun e => rfl
  | cons reading readings ih =>
    intro e
    cases reading with
    | none => rfl
    | some r =>
      have hmin (i : Fin n) : (updateInputMinMax e r).min i = min (e.min i) (r.values i) := by
        rw [updateInputMinMax]
        dsimp only
        split <;> omega
      have hmax (i : Fin n) : (updateInputMinMax e r).max i = max (e.max i) (r.values i) := by
        rw [updateInputMinMax]
        dsimp only
        split <;> omega
      rw [measureLoop, ih]
      simp only [hmin, hmax]
      rfl

/-- What is measured are the extremes of the readings. -/
theorem measureInputMinMax_eq (readings : List (Option (Reading n))) :
    measureInputMinMax readings = (if failed readings then -1 else 0,
      { min := lowest (obtained readings), max := highest (obtained readings) }) :=
  measureLoop_eq readings _

/-! ## When they do -/

/-- The absolute value of a difference of two `int`s. -/
theorem cAbs_cInt_bind_eq_some {α : Type} {x : Int} {f : Int → Option α} {r : α} :
    ((cInt x).bind fun d => (cAbs d).bind f) = some r ↔
      (x.natAbs : Int) ≤ intMax ∧ f x.natAbs = some r := by
  rw [cInt_bind_eq_some, cAbs, cInt_bind_eq_some, ← and_assoc, intMax]
  refine and_congr_left fun _ => ?_
  constructor
  · rintro ⟨-, habs⟩
    exact habs.2
  · intro hle
    exact ⟨⟨by omega, by omega⟩, ⟨by omega, hle⟩⟩

/-- The noise of each axis up to the first that is noisy is an `int`. -/
def NoiseFits (data : SensorsData) (rs : List (Reading n)) : List (Fin n) → Prop
  | [] => True
  | i :: axes => highest rs i - lowest rs i ≤ intMax ∧
      (highest rs i - lowest rs i ≤ data.maxNoise → NoiseFits data rs axes)

/-- The distances of the ends of an axis that are looked at are `int`s. -/
def RangeFits (data : SensorsData) (low high : Int) : Prop :=
  (data.rangeMin - low).natAbs ≤ intMax ∧
    ((data.rangeMin - low).natAbs ≤ data.rangeDeviation → (data.rangeMax - high).natAbs ≤ intMax)

/-- The loop goes through the axes up to the first that is noisy. -/
theorem noiseLoop_eq_some_iff {data : SensorsData} {rs : List (Reading n)} (hne : rs ≠ [])
    {ret : Int} (axes : List (Fin n)) :
    noiseLoop data { min := lowest rs, max := highest rs } axes = some ret ↔
      NoiseFits data rs axes ∧
        ret = if ∀ i ∈ axes, highest rs i - lowest rs i ≤ data.maxNoise then 0 else -1 := by
  induction axes with
  | nil =>
    have hall : ∀ i ∈ ([] : List (Fin n)), highest rs i - lowest rs i ≤ data.maxNoise :=
      fun i hi => absurd hi List.not_mem_nil
    rw [noiseLoop, if_pos hall, Option.some.injEq, eq_comm]
    exact (and_iff_right trivial).symm
  | cons i axes ih =>
    have hle := lowest_le_highest hne i
    have hint : IsInt (highest rs i - lowest rs i) ↔ highest rs i - lowest rs i ≤ intMax :=
      ⟨fun h => h.2, fun h => ⟨by omega, h⟩⟩
    rw [noiseLoop, Option.bind_eq_bind, cInt_bind_eq_some, NoiseFits, hint, and_assoc]
    refine and_congr_right fun _ => ?_
    by_cases hnoisy : highest rs i - lowest rs i ≤ data.maxNoise
    · have hall : (∀ j ∈ i :: axes, highest rs j - lowest rs j ≤ data.maxNoise) ↔
          ∀ j ∈ axes, highest rs j - lowest rs j ≤ data.maxNoise := by
        rw [List.forall_mem_cons]
        exact and_iff_right hnoisy
      rw [if_neg (Int.not_lt.mpr hnoisy), ih]
      simp only [hall, hnoisy, true_imp_iff]
    · have hnot : ¬∀ j ∈ i :: axes, highest rs j - lowest rs j ≤ data.maxNoise :=
        fun hall => hnoisy (hall i List.mem_cons_self)
      rw [if_pos (Int.not_le.mp hnoisy), if_neg hnot, Option.some.injEq, eq_comm]
      exact (and_iff_right fun h => absurd h hnoisy).symm

/-- An axis is looked at as far as it goes. -/
theorem outOfRange_eq_some_iff {data : SensorsData} {e : Extremes n} {i : Fin n} {out : Bool} :
    outOfRange data e i = some out ↔ RangeFits data (e.min i) (e.max i) ∧
      out = decide (¬InRange data (e.min i) (e.max i)) := by
  rw [outOfRange, Option.bind_eq_bind, cAbs_cInt_bind_eq_some, RangeFits, and_assoc]
  refine and_congr_right fun _ => ?_
  by_cases hlow : ((data.rangeMin - e.min i).natAbs : Int) ≤ data.rangeDeviation
  · have hhigh : decide (((data.rangeMax - e.max i).natAbs : Int) > data.rangeDeviation) =
        decide (¬InRange data (e.min i) (e.max i)) := by
      refine decide_eq_decide.mpr ⟨fun hgt h => ?_, fun hnot => ?_⟩
      · exact absurd h.2 (Int.not_le.mpr hgt)
      · exact Int.not_le.mp fun hle => hnot ⟨hlow, hle⟩
    rw [if_neg (Int.not_lt.mpr hlow), forall_prop_of_true hlow, ← hhigh,
      cAbs_cInt_bind_eq_some, Option.pure_def, Option.some.injEq, eq_comm (a := out)]
  · have hout : decide (¬InRange data (e.min i) (e.max i)) = true :=
      decide_eq_true fun h => hlow h.1
    rw [if_pos (Int.not_le.mp hlow), hout, forall_prop_of_false hlow, true_and, Option.pure_def,
      Option.some.injEq, eq_comm (a := out)]

/-- All axes are looked at. -/
theorem rangeLoop_eq_some_iff {data : SensorsData} {e : Extremes n} {ret : Int}
    (axes : List (Fin n)) : ∀ ret' : Int,
    rangeLoop data e ret' axes = some ret ↔ (∀ i ∈ axes, RangeFits data (e.min i) (e.max i)) ∧
      ret = if ∀ i ∈ axes, InRange data (e.min i) (e.max i) then ret' else -1 := by
  induction axes with
  | nil =>
    intro ret'
    have hall {p : Fin n → Prop} : ∀ i ∈ ([] : List (Fin n)), p i :=
      fun i hi => absurd hi List.not_mem_nil
    rw [rangeLoop, if_pos hall, Option.some.injEq, eq_comm]
    exact (and_iff_right hall).symm
  | cons i axes ih =>
    intro ret'
    rw [rangeLoop, Option.bind_eq_bind, Option.bind_eq_some_iff]
    simp only [outOfRange_eq_some_iff, ih, List.forall_mem_cons, and_assoc, exists_and_left,
      exists_eq_left]
    refine and_congr_right fun _ => and_congr_right fun _ => ?_
    by_cases hin : InRange data (e.min i) (e.max i)
    · simp only [hin, not_true_eq_false, decide_false, Bool.false_eq_true, if_false, true_and]
    · simp only [hin, not_false_eq_true, decide_true, if_true, false_and, if_false, ite_self]

theorem ite_eq_zero_iff {p : Prop} [Decidable p] : (if p then (0 : Int) else -1) = 0 ↔ p := by
  by_cases hp : p
  · rw [if_pos hp]
    exact iff_of_true rfl hp
  · rw [if_neg hp]
    exact iff_of_false (by decide) hp

/-- With nothing to measure, the first noise is `INT_MIN - INT_MAX`. -/
theorem noiseLoop_nothing (data : SensorsData) (hn : 0 < n) :
    noiseLoop data { min := lowest ([] : List (Reading n)), max := highest [] }
      (List.finRange n) = none := by
  cases haxes : List.finRange n with
  | nil =>
    have hlength := congrArg List.length haxes
    rw [List.length_finRange, List.length_nil] at hlength
    omega
  | cons i axes =>
    have hnoise : cInt (highest ([] : List (Reading n)) i - lowest [] i) = none := rfl
    rw [noiseLoop, hnoise]
    rfl

/-- What `test_noise` says is right just where a reading fails, or there is one and the noise
fits. -/
theorem noiseRight_iff {data : SensorsData} {readings : List (Option (Reading n))} (hn : 0 < n) :
    NoiseRight data readings ↔ failed readings = true ∨
      (obtained readings ≠ [] ∧ NoiseFits data (obtained readings) (List.finRange n)) := by
  rw [NoiseRight, testNoise, measureInputMinMax_eq, Measured]
  dsimp only
  cases hfailed : failed readings with
  | true =>
    refine iff_of_true ⟨-1, rfl, ?_⟩ (.inl rfl)
    exact iff_of_false (by decide) fun h => absurd h.1.2 (by decide)
  | false =>
    simp only [Bool.false_eq_true, if_false, if_true, false_or, and_true]
    by_cases hne : obtained readings = []
    · refine iff_of_false ?_ fun h => h.1 hne
      rintro ⟨ret, hret, -⟩
      rw [hne, noiseLoop_nothing data hn] at hret
      cases hret
    · simp only [noiseLoop_eq_some_iff hne, and_assoc, exists_and_left, exists_eq_left,
        ite_eq_zero_iff, List.mem_finRange, forall_const]
      constructor
      · rintro ⟨hfits, -⟩
        exact ⟨hne, hfits⟩
      · rintro ⟨-, hfits⟩
        exact ⟨hfits, (and_iff_right hne).symm⟩

/-- What `test_range` says is right just where a reading fails, or the distances fit, and where
there is no reading some end is out of the range. -/
theorem rangeRight_iff {data : SensorsData} {readings : List (Option (Reading n))} (hn : 0 < n) :
    RangeRight data readings ↔ failed readings = true ∨
      ((∀ i, RangeFits data (lowest (obtained readings) i) (highest (obtained readings) i)) ∧
        (obtained readings = [] → ¬InRange data intMax intMin)) := by
  rw [RangeRight, testRange, measureInputMinMax_eq, Measured]
  dsimp only
  cases hfailed : failed readings with
  | true =>
    refine iff_of_true ⟨-1, rfl, ?_⟩ (.inl rfl)
    exact iff_of_false (by decide) fun h => absurd h.1.2 (by decide)
  | false =>
    simp only [Bool.false_eq_true, if_false, if_true, false_or, and_true, rangeLoop_eq_some_iff,
      and_assoc, exists_and_left, exists_eq_left, ite_eq_zero_iff, List.mem_finRange, forall_const]
    refine and_congr_right fun _ => ?_
    by_cases hne : obtained readings = []
    · rw [hne]
      constructor
      · exact fun hall _ hin => (hall.mp fun _ => hin).1 rfl
      · intro hout
        exact iff_of_false (fun hall => hout rfl (hall ⟨0, hn⟩)) fun h => h.1 rfl
    · exact iff_of_true (and_iff_right hne).symm fun h => absurd h hne

/-! ## Rate -/

/-- The readings whose values differ from those before, by this comparison. -/
def changes (differ : (Fin n → Int) → (Fin n → Int) → Bool) (prev : Fin n → Int) :
    List (Reading n) → Nat
  | [] => 0
  | r :: rs => (if differ r.values prev then 1 else 0) + changes differ r.values rs

/-- Some value differs. -/
def anyDiffers (values prev : Fin n → Int) : Bool :=
  decide (∃ i, values i ≠ prev i)

/-- One of the first three values differs. -/
def firstDiffers (values prev : Fin n → Int) : Bool :=
  decide (∃ i : Fin n, i.val < 3 ∧ values i ≠ prev i)

/-- The updates that occurred: all changes of a polled input, and each reading of another. -/
def updates (polled : Bool) (rs : List (Reading n)) : Nat :=
  if polled then changes anyDiffers (fun _ => 0) rs else rs.length

/-- The updates that are counted. -/
def counted (polled : Bool) (rs : List (Reading n)) : Nat :=
  if polled then changes firstDiffers (fun _ => 0) rs else 0

/-- So many updates are as many as the sensor's rate says: the difference of the rates, in percent
of the sensor's, is not above the maximum. -/
def RateAccepted (data : SensorsData) (sensorRate : Int) (updates : Nat) : Prop :=
  if sensorRate = 0 then
    (updates : Int).tdiv data.duration = 0
  else
    ((sensorRate - (updates : Int).tdiv data.duration).natAbs * 100 : Int).tdiv sensorRate ≤
      data.maxRateDifferencePct

instance (data : SensorsData) (sensorRate : Int) (updates : Nat) :
    Decidable (RateAccepted data sensorRate updates) :=
  inferInstanceAs (Decidable (ite _ _ _))

/-- `test_rate` reads no value that there is not, does not divide by zero, and judges the updates
that occurred. -/
def RateRight (data : SensorsData) (sensorRate : Int) (readings : List (Option (Reading n))) :
    Prop :=
  ∃ ret, testRate data (some sensorRate) readings = some ret ∧
    (ret = 0 ↔ failed readings = false ∧
      RateAccepted data sensorRate (updates data.inputIsPolled (obtained readings)))

/-- Each reading differs from the one before. -/
def EachDiffers (prev : Fin n → Int) : List (Reading n) → Prop
  | [] => True
  | r :: rs => anyDiffers r.values prev = true ∧ EachDiffers r.values rs

/-- When `test_rate` judges what it should: no comparison of a polled input goes past its values,
the updates can be counted, and where no reading fails, there is a duration to divide by, the
percentage can be computed, and what is counted is judged as what occurred. -/
structure RateFits (data : SensorsData) (sensorRate : Int) (readings : List (Option (Reading n))) :
    Prop where
  inside : data.inputIsPolled = true → 3 ≤ n ∨ EachDiffers (fun _ => 0) (obtained readings)
  count : (counted data.inputIsPolled (obtained readings) : Int) ≤ intMax
  duration : failed readings = false → data.duration ≠ 0
  percentage : failed readings = false → sensorRate ≠ 0 →
    ((sensorRate - (counted data.inputIsPolled (obtained readings) : Int).tdiv
      data.duration).natAbs * 100 : Int) ≤ intMax
  judged : failed readings = false →
    (RateAccepted data sensorRate (counted data.inputIsPolled (obtained readings)) ↔
      RateAccepted data sensorRate (updates data.inputIsPolled (obtained readings)))

/-- The comparison of some values ends at the first difference, or past the values. -/
theorem differs_range (values prev : Fin n → Int) (m : Nat) : ∀ a, a ≤ n →
    differs values prev (List.range' a m) =
      if ∃ i : Fin n, a ≤ i.val ∧ i.val < a + m ∧ values i ≠ prev i then some true
      else if a + m ≤ n then some false else none := by
  induction m with
  | zero =>
    intro a ha
    have hnone : ¬∃ i : Fin n, a ≤ i.val ∧ i.val < a + 0 ∧ values i ≠ prev i := by
      rintro ⟨i, hle, hlt, -⟩
      omega
    have hle : a + 0 ≤ n := ha
    rw [if_neg hnone, if_pos hle]
    rfl
  | succ m ih =>
    intro a ha
    rw [List.range'_succ, differs]
    by_cases hlt : a < n
    · rw [dif_pos hlt]
      by_cases hne : values ⟨a, hlt⟩ ≠ prev ⟨a, hlt⟩
      · rw [if_pos hne, if_pos ⟨⟨a, hlt⟩, Nat.le_refl a, by dsimp only; omega, hne⟩]
      · have hiff : (∃ i : Fin n, a + 1 ≤ i.val ∧ i.val < a + 1 + m ∧ values i ≠ prev i) ↔
            ∃ i : Fin n, a ≤ i.val ∧ i.val < a + (m + 1) ∧ values i ≠ prev i := by
          constructor
          · rintro ⟨i, hle, hi, hdiffer⟩
            exact ⟨i, by omega, by omega, hdiffer⟩
          · rintro ⟨i, hle, hi, hdiffer⟩
            have hnot : a ≠ i.val := by
              rintro rfl
              exact hne hdiffer
            exact ⟨i, by omega, by omega, hdiffer⟩
        have hbound : a + 1 + m ≤ n ↔ a + (m + 1) ≤ n := by omega
        rw [if_neg hne, ih (a + 1) hlt]
        simp only [hiff, hbound]
    · have hnone : ¬∃ i : Fin n, a ≤ i.val ∧ i.val < a + (m + 1) ∧ values i ≠ prev i := by
        rintro ⟨i, hle, -⟩
        have hi := i.isLt
        omega
      rw [dif_neg hlt, if_neg hnone, if_neg (by omega)]

/-- The comparison of three values ends at the first difference, or past the values. -/
theorem differs_eq (values prev : Fin n → Int) :
    differs values prev [0, 1, 2] =
      if firstDiffers values prev then some true else if 3 ≤ n then some false else none := by
  have hrange := differs_range values prev 3 0 (Nat.zero_le n)
  have hfirst : firstDiffers values prev = true ↔
      ∃ i : Fin n, 0 ≤ i.val ∧ i.val < 0 + 3 ∧ values i ≠ prev i := by
    rw [firstDiffers, decide_eq_true_iff]
    simp only [Nat.zero_le, true_and, Nat.zero_add]
  have hthree : 0 + 3 ≤ n ↔ 3 ≤ n := by omega
  simp only [hfirst]
  simp only [hthree] at hrange
  exact hrange

/-- What differs from a value differs from one with the same first three values. -/
theorem firstDiffers_congr (values : Fin n → Int) {prev prev' : Fin n → Int}
    (h : firstDiffers prev' prev = false) :
    firstDiffers values prev' = firstDiffers values prev := by
  have hsame : ∀ i : Fin n, i.val < 3 → prev' i = prev i := by
    intro i hi
    by_contra hne
    exact absurd (decide_eq_true ⟨i, hi, hne⟩) (ne_true_of_eq_false h)
  refine decide_eq_decide.mpr (exists_congr fun i => and_congr_right fun hi => ?_)
  rw [hsame i hi]

/-- Of fewer than three values, all are compared. -/
theorem anyDiffers_eq {values prev : Fin n → Int} (hn : ¬3 ≤ n) :
    anyDiffers values prev = firstDiffers values prev := by
  refine decide_eq_decide.mpr (exists_congr fun i => (and_iff_right ?_).symm)
  have hi := i.isLt
  omega

theorem firstDiffers_self (values : Fin n → Int) : firstDiffers values values = false :=
  decide_eq_false fun ⟨_, _, hne⟩ => hne rfl

theorem anyDiffers_of_first {values prev : Fin n → Int} (h : firstDiffers values prev = true) :
    anyDiffers values prev = true := by
  obtain ⟨i, -, hne⟩ := of_decide_eq_true h
  exact decide_eq_true ⟨i, hne⟩

/-- The loop on a polled input: `prev` is the last reading that was counted, which has the same
first three values as the one before. -/
theorem rateLoop_polled {result : Int × Int} (readings : List (Option (Reading n))) :
    ∀ {prev prev' : Fin n → Int} {numUpdates : Int}, firstDiffers prev' prev = false →
      0 ≤ numUpdates → numUpdates ≤ intMax →
        (rateLoop true prev numUpdates readings = some result ↔
          (3 ≤ n ∨ EachDiffers prev' (obtained readings)) ∧
            numUpdates + changes firstDiffers prev' (obtained readings) ≤ intMax ∧
              result = (if failed readings then -1 else 0,
                numUpdates + changes firstDiffers prev' (obtained readings))) := by
  induction readings with
  | nil =>
    intro prev prev' numUpdates _ _ hmax
    have heach : 3 ≤ n ∨ EachDiffers prev' (obtained ([] : List (Option (Reading n)))) :=
      .inr trivial
    rw [rateLoop, and_iff_right heach, Option.some.injEq, eq_comm]
    simp only [obtained, changes, failed, List.any_nil, Bool.false_eq_true, if_false,
      Int.natCast_zero, Int.add_zero, hmax, true_and]
  | cons reading readings ih =>
    intro prev prev' numUpdates hsame hnonneg hmax
    cases reading with
    | none =>
      have heach : 3 ≤ n ∨ EachDiffers prev' (obtained (none :: readings)) := .inr trivial
      rw [rateLoop, and_iff_right heach, Option.some.injEq, eq_comm]
      simp only [obtained, changes, failed, List.any_cons, Option.isNone_none, Bool.true_or,
        if_true, Int.natCast_zero, Int.add_zero, hmax, true_and]
    | some r =>
      have hfailed : failed (some r :: readings) = failed readings := rfl
      have hcongr := firstDiffers_congr r.values hsame
      rw [rateLoop, if_pos rfl, differs_eq, hfailed, obtained, EachDiffers, changes]
      cases hfirst : firstDiffers r.values prev with
      | true =>
        have hany := anyDiffers_of_first (hcongr.trans hfirst)
        have hstep := @ih r.values r.values (numUpdates + 1) (firstDiffers_self _) (by omega)
        rw [hcongr, hfirst, if_pos rfl, if_pos rfl, hany]
        simp only [Option.bind_eq_bind, Option.bind_some, if_true, cInt_bind_eq_some, true_and]
        have hsum : numUpdates + ((1 + changes firstDiffers r.values (obtained readings) : Nat) :
            Int) = numUpdates + 1 + changes firstDiffers r.values (obtained readings) := by
          omega
        rw [hsum]
        by_cases hle : numUpdates + 1 ≤ intMax
        · have hint : IsInt (numUpdates + 1) := ⟨by omega, hle⟩
          rw [hstep hle]
          exact and_iff_right hint
        · refine iff_of_false (fun h => hle h.1.2) fun h => ?_
          have hmore := h.2.1
          omega
      | false =>
        rw [hcongr, hfirst, if_neg Bool.false_ne_true, if_neg Bool.false_ne_true]
        by_cases hn : 3 ≤ n
        · have hstep := @ih prev r.values numUpdates hfirst hnonneg hmax
          rw [if_pos hn, Nat.zero_add]
          refine hstep.trans (and_congr_left fun _ => ?_)
          exact iff_of_true (.inl hn) (.inl hn)
        · have hany : anyDiffers r.values prev' = false :=
            (anyDiffers_eq hn).trans (hcongr.trans hfirst)
          rw [if_neg hn, hany]
          refine iff_of_false (fun h => by cases h) ?_
          rintro ⟨hthree | ⟨hdiffers, -⟩, -⟩
          · exact hn hthree
          · cases hdiffers

/-- The loop on an input that is not polled counts nothing. -/
theorem rateLoop_not_polled (prev : Fin n → Int) (numUpdates : Int)
    (readings : List (Option (Reading n))) :
    rateLoop false prev numUpdates readings =
      some (if failed readings then -1 else 0, numUpdates) := by
  induction readings with
  | nil => rfl
  | cons reading readings ih =>
    cases reading with
    | none => rfl
    | some r => exact ih

/-- The loop of `test_rate`. -/
theorem rateLoop_eq_some_iff {polled : Bool} {result : Int × Int}
    {readings : List (Option (Reading n))} :
    rateLoop polled (fun _ => 0) 0 readings = some result ↔
      (polled = true → 3 ≤ n ∨ EachDiffers (fun _ => 0) (obtained readings)) ∧
        (counted polled (obtained readings) : Int) ≤ intMax ∧
          result = (if failed readings then -1 else 0,
            (counted polled (obtained readings) : Int)) := by
  cases polled with
  | true =>
    rw [rateLoop_polled readings (firstDiffers_self _) (Int.le_refl 0) (by decide), Int.zero_add,
      forall_prop_of_true rfl]
    rfl
  | false =>
    have hcount : ((counted false (obtained readings) : Nat) : Int) = 0 := rfl
    rw [rateLoop_not_polled, hcount, Option.some.injEq, eq_comm]
    simp only [Bool.false_eq_true, false_imp_iff, true_and]
    exact (and_iff_right (by decide)).symm

/-- The end of the test judges so many updates. -/
theorem judgeRate_eq_some_iff {data : SensorsData} {sensorRate ret : Int} {updates : Nat} :
    judgeRate data sensorRate updates = some ret ↔
      data.duration ≠ 0 ∧
        (sensorRate ≠ 0 →
          ((sensorRate - (updates : Int).tdiv data.duration).natAbs * 100 : Int) ≤ intMax) ∧
          ret = if RateAccepted data sensorRate updates then 0 else -1 := by
  rw [judgeRate]
  by_cases hduration : data.duration = 0
  · rw [if_pos hduration]
    exact iff_of_false (fun h => by cases h) fun h => h.1 hduration
  · rw [if_neg hduration, and_iff_right hduration]
    simp only [Option.bind_eq_bind, Option.pure_def, RateAccepted]
    by_cases hrate : sensorRate = 0
    · rw [if_pos hrate, Option.some.injEq, eq_comm]
      simp only [hrate, ne_eq, not_true_eq_false, false_imp_iff, true_and, if_true, ite_not]
    · have hproduct {x : Int} : ((x.natAbs : Int) ≤ intMax ∧ IsInt (x.natAbs * 100)) ↔
          (x.natAbs * 100 : Int) ≤ intMax := by
        rw [intMax]
        exact ⟨fun h => h.2.2, fun h => ⟨by omega, by omega, h⟩⟩
      rw [if_neg hrate, cAbs_cInt_bind_eq_some, cInt_bind_eq_some, ← and_assoc, hproduct,
        Option.some.injEq]
      simp only [hrate, ne_eq, not_false_eq_true, true_imp_iff, if_false, gt_iff_lt]
      refine and_congr_right fun _ => ?_
      rw [eq_comm, ← ite_not]
      simp only [Int.not_lt]

/-- What `test_rate` says is right just where it judges what it should. -/
theorem rateRight_iff {data : SensorsData} {sensorRate : Int}
    {readings : List (Option (Reading n))} :
    RateRight data sensorRate readings ↔ RateFits data sensorRate readings := by
  have htest : testRate data (some sensorRate) readings =
      (rateLoop data.inputIsPolled (fun _ => 0) 0 readings).bind fun result =>
        if result.1 = 0 then judgeRate data sensorRate result.2 else some result.1 := rfl
  rw [RateRight, htest]
  simp only [Option.bind_eq_some_iff, rateLoop_eq_some_iff]
  cases hfailed : failed readings with
  | true =>
    have hnot {p : Prop} : failed readings = false → p := fun h =>
      absurd (hfailed.symm.trans h) (by decide)
    constructor
    · rintro ⟨-, ⟨_, ⟨hinside, hcount, -⟩, -⟩, -⟩
      exact ⟨hinside, hcount, hnot, hnot, hnot⟩
    · intro h
      exact ⟨-1, ⟨_, ⟨h.inside, h.count, rfl⟩, rfl⟩,
        iff_of_false (by decide) fun hright => absurd hright.1 (by decide)⟩
  | false =>
    constructor
    · rintro ⟨ret, ⟨_, ⟨hinside, hcount, rfl⟩, hjudge⟩, hiff⟩
      obtain ⟨hduration, hpercentage, rfl⟩ := judgeRate_eq_some_iff.mp hjudge
      rw [ite_eq_zero_iff] at hiff
      exact ⟨hinside, hcount, fun _ => hduration, fun _ => hpercentage,
        fun _ => hiff.trans (and_iff_right rfl)⟩
    · intro h
      refine ⟨_, ⟨_, ⟨h.inside, h.count, rfl⟩, judgeRate_eq_some_iff.mpr
        ⟨h.duration hfailed, h.percentage hfailed, rfl⟩⟩, ?_⟩
      rw [ite_eq_zero_iff]
      exact (h.judged hfailed).trans (and_iff_right rfl).symm

/-- The three tests say what they should just where this is so. -/
theorem sensorTests_iff {data : SensorsData} {sensorRate : Int}
    {readings : List (Option (Reading n))} (hn : 0 < n) :
    (NoiseRight data readings ↔ failed readings = true ∨
      (obtained readings ≠ [] ∧ NoiseFits data (obtained readings) (List.finRange n))) ∧
    (RangeRight data readings ↔ failed readings = true ∨
      ((∀ i, RangeFits data (lowest (obtained readings) i) (highest (obtained readings) i)) ∧
        (obtained readings = [] → ¬InRange data intMax intMin))) ∧
    (RateRight data sensorRate readings ↔ RateFits data sensorRate readings) :=
  ⟨noiseRight_iff hn, rangeRight_iff hn, rateRight_iff⟩

end

/-- A reading with the same value on three axes. -/
def level (v : Int) (h : IsInt v) : Reading 3 where
  values _ := v
  isInt _ := h

/-- A test of one second, of a sensor that is said to deliver two values in it. -/
def oneSecond (polled : Bool) : SensorsData where
  duration := 1
  maxNoise := 5
  rangeMin := 10
  rangeMax := 12
  rangeDeviation := 3
  inputIsPolled := polled
  maxRateDifferencePct := 10

/-- Two readings on three axes. -/
theorem sensorTests_two :
    (NoiseRight (oneSecond true) [some (level 10 (by decide)), some (level 12 (by decide))] ↔
      failed [some (level 10 (by decide)), some (level 12 (by decide))] = true ∨
        (obtained [some (level 10 (by decide)), some (level 12 (by decide))] ≠ [] ∧
          NoiseFits (oneSecond true)
            (obtained [some (level 10 (by decide)), some (level 12 (by decide))])
            (List.finRange 3))) ∧
    (RangeRight (oneSecond true) [some (level 10 (by decide)), some (level 12 (by decide))] ↔
      failed [some (level 10 (by decide)), some (level 12 (by decide))] = true ∨
        ((∀ i, RangeFits (oneSecond true)
            (lowest (obtained [some (level 10 (by decide)), some (level 12 (by decide))]) i)
            (highest (obtained [some (level 10 (by decide)), some (level 12 (by decide))]) i)) ∧
          (obtained [some (level 10 (by decide)), some (level 12 (by decide))] = [] →
            ¬InRange (oneSecond true) intMax intMin))) ∧
    (RateRight (oneSecond true) 2 [some (level 10 (by decide)), some (level 12 (by decide))] ↔
      RateFits (oneSecond true) 2 [some (level 10 (by decide)), some (level 12 (by decide))]) :=
  sensorTests_iff (by decide)

/-- Two readings in a second of an input that is not polled, at the rate of the sensor: none is
counted and the test fails.  And without a reading the test of noise subtracts `INT_MAX` from
`INT_MIN`. -/
theorem updates_not_counted :
    testRate (oneSecond false) (some 2) [some (level 10 (by decide)), some (level 12 (by decide))] =
        some (-1) ∧
      ¬RateRight (oneSecond false) 2
        [some (level 10 (by decide)), some (level 12 (by decide))] ∧
      ¬NoiseRight (oneSecond false) ([] : List (Option (Reading 3))) := by
  have hfails : testRate (oneSecond false) (some 2)
      [some (level 10 (by decide)), some (level 12 (by decide))] = some (-1) := rfl
  refine ⟨hfails, ?_, ?_⟩
  · rintro ⟨ret, hret, hiff⟩
    cases hfails.symm.trans hret
    exact absurd (hiff.mpr ⟨rfl, by decide⟩) (by decide)
  · rintro ⟨ret, hret, -⟩
    cases hret

end Blts.Sensors
