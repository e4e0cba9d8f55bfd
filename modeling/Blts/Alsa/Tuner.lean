import Mathlib.Data.UInt

/-!
# The radio tuner

A tuner counts frequencies in steps of 62.5 Hz where it has the capability `LOW`, and in
steps of 62.5 kHz where it has not.  The functions of `v4l_tuner.c` take and return kHz;
the conversion is written once for each of them.
-/

namespace Blts.Alsa

/-- `FREQ_UNIT`. -/
def freqUnit : UInt32 := 16

/-- `V4L2_TUNER_CAP_LOW`. -/
def tunerCapLow : UInt32 := 1

/-- What is used of a `v4l2_tuner`. -/
structure V4l2Tuner where
  capability : UInt32
  rangelow : UInt32
  rangehigh : UInt32
  deriving DecidableEq

/-- A radio: what it says of itself, the frequency that it is at, and the one that it takes
for one it is given.  Where there is none, the request fails. -/
structure Radio where
  tuner : Option V4l2Tuner
  frequency : Option UInt32
  store : UInt32 → Option UInt32

/-- What is used of a `tuner_device`. -/
structure TunerDevice where
  v4l2tuner : V4l2Tuner
  v4l2freq : UInt32
  deriving DecidableEq

/-! ## `v4l_tuner.c` -/

/-- `update_tuner`; nobody looks at what it returns. -/
def updateTuner (radio : Radio) (dev : TunerDevice) : TunerDevice :=
  match radio.tuner with
  | none => { dev with v4l2tuner := ⟨0, 0, 0⟩ }
  | some tuner =>
      if tuner.capability = tunerCapLow then
        { dev with v4l2tuner := { tuner with
            rangelow := tuner.rangelow / freqUnit
            rangehigh := tuner.rangehigh / freqUnit } }
      else
        { dev with v4l2tuner := { tuner with
            rangelow := tuner.rangelow * 1000 / freqUnit
            rangehigh := tuner.rangehigh * 1000 / freqUnit } }

def tunerGetFreq (radio : Radio) (dev : TunerDevice) : UInt32 × TunerDevice :=
  match radio.frequency with
  | none => (0, dev)
  | some frequency =>
      let dev := { dev with v4l2freq := frequency }
      if dev.v4l2tuner.capability = tunerCapLow then (frequency / freqUnit, dev)
      else (frequency * 1000 / freqUnit, dev)

/-- What `tuner_set_freq` asks for. -/
def requestedFreq (dev : TunerDevice) : UInt32 :=
  if dev.v4l2tuner.capability &&& tunerCapLow = 0 then dev.v4l2freq / 1000 else dev.v4l2freq

def tunerSetFreq (radio : Radio) (dev : TunerDevice) (freq : UInt32) :
    UInt32 × Radio × TunerDevice :=
  let dev := updateTuner radio { dev with v4l2freq := freq * freqUnit }
  let dev := { dev with v4l2freq := requestedFreq dev }
  match radio.store dev.v4l2freq with
  | none => (0, radio, dev)
  | some stored =>
      let radio := { radio with frequency := some stored }
      let r := tunerGetFreq radio (updateTuner radio dev)
      (r.1, radio, r.2)

/-! ## Steps and kHz -/

/-- A step of the tuner, of which 16 times 62.5 Hz are a kHz. -/
def V4l2Tuner.step (tuner : V4l2Tuner) : Nat :=
  if tuner.capability &&& tunerCapLow = 0 then 1000 else 1

/-- A number of steps in kHz. -/
def V4l2Tuner.kHz (tuner : V4l2Tuner) (steps : UInt32) : Nat :=
  steps.toNat * tuner.step / 16

/-- A frequency in kHz that the tuner can be set to. -/
def V4l2Tuner.Reaches (tuner : V4l2Tuner) (freq : UInt32) : Prop :=
  tuner.rangelow.toNat * tuner.step ≤ freq.toNat * 16 ∧
    freq.toNat * 16 ≤ tuner.rangehigh.toNat * tuner.step

/-- A radio with this tuner that stores a frequency of its range as it is given. -/
structure Radio.Stores (radio : Radio) (tuner : V4l2Tuner) : Prop where
  answers : radio.tuner = some tuner
  stores : ∀ steps, tuner.rangelow ≤ steps → steps ≤ tuner.rangehigh →
    radio.store steps = some steps

/-- The frequency that comes back is the one that was set up to a step, and the ends of
the range are kHz too. -/
structure TunesRight (radio : Radio) (tuner : V4l2Tuner) (dev : TunerDevice)
    (freq : UInt32) : Prop where
  low : freq.toNat * 16 ≤ (tunerSetFreq radio dev freq).1.toNat * 16 + tuner.step
  high : (tunerSetFreq radio dev freq).1.toNat * 16 ≤ freq.toNat * 16 + tuner.step
  rangelow : (updateTuner radio dev).v4l2tuner.rangelow.toNat = tuner.kHz tuner.rangelow
  rangehigh : (updateTuner radio dev).v4l2tuner.rangehigh.toNat = tuner.kHz tuner.rangehigh

/-- A number of steps in kHz as it is computed where `capability` is compared. -/
def comparedKHz (tuner : V4l2Tuner) (steps : UInt32) : UInt32 :=
  if tuner.capability = tunerCapLow then steps / freqUnit else steps * 1000 / freqUnit

section

variable {radio : Radio} {tuner : V4l2Tuner} {dev : TunerDevice} {freq : UInt32}

theorem updateTuner_eq (h : radio.tuner = some tuner) : updateTuner radio dev =
    { dev with v4l2tuner := { tuner with
        rangelow := comparedKHz tuner tuner.rangelow
        rangehigh := comparedKHz tuner tuner.rangehigh } } := by
  unfold updateTuner comparedKHz
  rw [h]
  by_cases hlow : tuner.capability = tunerCapLow
  · simp only [if_pos hlow]
  · simp only [if_neg hlow]

theorem toNat_mul_freqUnit (hfit : freq.toNat * 16 < 4294967296) :
    (freq * freqUnit).toNat = freq.toNat * 16 := by
  rw [UInt32.toNat_mul]
  exact Nat.mod_eq_of_lt hfit

/-- A frequency of the range is asked for within the range. -/
theorem requested_mem (hfit : freq.toNat * 16 < 4294967296) (h : tuner.Reaches freq) :
    let steps := if tuner.capability &&& tunerCapLow = 0 then freq * freqUnit / 1000
      else freq * freqUnit
    tuner.rangelow ≤ steps ∧ steps ≤ tuner.rangehigh := by
  obtain ⟨hlow, hhigh⟩ := h
  unfold V4l2Tuner.step at hlow hhigh
  have hmul := toNat_mul_freqUnit hfit
  by_cases hcap : tuner.capability &&& tunerCapLow = 0
  · have hdiv : (freq * freqUnit / 1000).toNat = freq.toNat * 16 / 1000 := by
      rw [UInt32.toNat_div, hmul]
      rfl
    rw [if_pos hcap] at hlow hhigh
    simp only [if_pos hcap, UInt32.le_iff_toNat_le, hdiv]
    omega
  · rw [if_neg hcap] at hlow hhigh
    simp only [if_neg hcap, UInt32.le_iff_toNat_le, hmul]
    omega

/-- **`tuner_set_freq`** where the radio stores what it is given. -/
theorem tunerSetFreq_eq (h : radio.Stores tuner) (hfit : freq.toNat * 16 < 4294967296)
    (hreach : tuner.Reaches freq) : (tunerSetFreq radio dev freq).1 =
      comparedKHz tuner (if tuner.capability &&& tunerCapLow = 0 then freq * freqUnit / 1000
        else freq * freqUnit) := by
  obtain ⟨hlow, hhigh⟩ := requested_mem hfit hreach
  have hstore := h.stores _ hlow hhigh
  -- the radio says of itself what it said before
  have hagain (stored : UInt32) (dev' : TunerDevice) :
      updateTuner { radio with frequency := some stored } dev' = _ := updateTuner_eq h.answers
  unfold tunerSetFreq
  simp only [updateTuner_eq h.answers, requestedFreq, hstore, hagain]
  unfold tunerGetFreq comparedKHz
  by_cases hcap : tuner.capability = tunerCapLow
  · simp only [if_pos hcap]
  · simp only [if_neg hcap]

/-! ## Where the conversions agree -/

/-- With `LOW` alone a number of steps is compared right. -/
theorem comparedKHz_low (h : tuner.capability = tunerCapLow) (steps : UInt32) :
    (comparedKHz tuner steps).toNat = tuner.kHz steps := by
  have hcap : tuner.capability &&& tunerCapLow ≠ 0 := by
    rw [h]
    decide
  unfold comparedKHz V4l2Tuner.kHz V4l2Tuner.step
  rw [if_pos h, if_neg hcap, UInt32.toNat_div, Nat.mul_one]
  rfl

/-- Without that, it is multiplied by 1000. -/
theorem comparedKHz_ne (h : tuner.capability ≠ tunerCapLow) (steps : UInt32) :
    (comparedKHz tuner steps).toNat = steps.toNat * 1000 % 4294967296 / 16 := by
  unfold comparedKHz
  rw [if_neg h, UInt32.toNat_div, UInt32.toNat_mul]
  rfl

/-- Without `LOW`, the conversion is right as long as it fits. -/
theorem comparedKHz_eq_iff (h : tuner.capability &&& tunerCapLow = 0) (steps : UInt32) :
    (comparedKHz tuner steps).toNat = tuner.kHz steps ↔ steps.toNat * 1000 < 4294967296 := by
  have hne : tuner.capability ≠ tunerCapLow := by
    intro heq
    rw [heq] at h
    exact absurd h (by decide)
  rw [comparedKHz_ne hne, V4l2Tuner.kHz, V4l2Tuner.step, if_pos h]
  omega

/-- A frequency that was multiplied by 1000 and not divided before comes back as it was
only if it is 0. -/
theorem thousandfold_eq_iff {freq : Nat} (hfit : freq * 16 < 4294967296) :
    freq * 16 * 1000 % 4294967296 / 16 = freq ↔ freq = 0 := by
  omega

section

variable (h : radio.Stores tuner) (hfit : freq.toNat * 16 < 4294967296)
  (hreach : tuner.Reaches freq)

include h hfit hreach

/-- `LOW` alone. -/
theorem tunesRight_low (hcap : tuner.capability = tunerCapLow) :
    TunesRight radio tuner dev freq := by
  have hlow : tuner.capability &&& tunerCapLow ≠ 0 := by
    rw [hcap]
    decide
  have hmul := toNat_mul_freqUnit hfit
  have hset : (tunerSetFreq radio dev freq).1.toNat = freq.toNat * 16 / 16 := by
    rw [tunerSetFreq_eq h hfit hreach, if_neg hlow, comparedKHz_low hcap, V4l2Tuner.kHz,
      V4l2Tuner.step, if_neg hlow, hmul, Nat.mul_one]
  refine ⟨by omega, by omega, ?_, ?_⟩
  · rw [updateTuner_eq h.answers]
    exact comparedKHz_low hcap _
  · rw [updateTuner_eq h.answers]
    exact comparedKHz_low hcap _

/-- No `LOW`: the frequency is right, and so is the lower end of the range. -/
theorem tunesRight_high_iff (hcap : tuner.capability &&& tunerCapLow = 0) :
    TunesRight radio tuner dev freq ↔ tuner.rangehigh.toNat * 1000 < 4294967296 := by
  have hne : tuner.capability ≠ tunerCapLow := by
    intro heq
    rw [heq] at hcap
    exact absurd hcap (by decide)
  have hdiv : (freq * freqUnit / 1000).toNat = freq.toNat * 16 / 1000 := by
    rw [UInt32.toNat_div, toNat_mul_freqUnit hfit]
    rfl
  have hset : (tunerSetFreq radio dev freq).1.toNat =
      freq.toNat * 16 / 1000 * 1000 % 4294967296 / 16 := by
    rw [tunerSetFreq_eq h hfit hreach, if_pos hcap, comparedKHz_ne hne, hdiv]
  have hstep : tuner.step = 1000 := if_pos hcap
  have hrange (steps : UInt32) := comparedKHz_eq_iff hcap steps
  constructor
  · intro hright
    have hend := hright.rangehigh
    rw [updateTuner_eq h.answers] at hend
    exact (hrange _).mp hend
  · intro hend
    have hbegin := hreach.1
    rw [hstep] at hbegin
    have hrangelow : tuner.rangelow.toNat * 1000 < 4294967296 :=
      Nat.lt_of_le_of_lt hbegin hfit
    have hfits : freq.toNat * 16 / 1000 * 1000 % 4294967296 = freq.toNat * 16 / 1000 * 1000 :=
      Nat.mod_eq_of_lt (Nat.lt_of_le_of_lt (Nat.div_mul_le_self _ _) hfit)
    rw [hfits] at hset
    refine ⟨by omega, by omega, ?_, ?_⟩
    · rw [updateTuner_eq h.answers]
      exact (hrange _).mpr hrangelow
    · rw [updateTuner_eq h.answers]
      exact (hrange _).mpr hend

/-- `LOW` and others: a frequency in steps of 62.5 Hz is taken for one in steps of
62.5 kHz. -/
theorem tunesRight_both_iff (hcap : tuner.capability &&& tunerCapLow ≠ 0)
    (hne : tuner.capability ≠ tunerCapLow) :
    TunesRight radio tuner dev freq ↔ freq = 0 ∧
      tuner.rangehigh.toNat * 1000 % 4294967296 / 16 = tuner.rangehigh.toNat / 16 := by
  have hmul := toNat_mul_freqUnit hfit
  have hset : (tunerSetFreq radio dev freq).1.toNat =
      freq.toNat * 16 * 1000 % 4294967296 / 16 := by
    rw [tunerSetFreq_eq h hfit hreach, if_neg hcap, comparedKHz_ne hne, hmul]
  have hstep : tuner.step = 1 := if_neg hcap
  have hkHz (steps : UInt32) : tuner.kHz steps = steps.toNat / 16 := by
    rw [V4l2Tuner.kHz, hstep, Nat.mul_one]
  have hzero : freq = 0 ↔ freq.toNat = 0 := UInt32.toNat_inj.symm
  constructor
  · intro hright
    have hlow := hright.low
    have hhigh := hright.high
    have hend := hright.rangehigh
    rw [hset, hstep] at hlow hhigh
    rw [updateTuner_eq h.answers, hkHz] at hend
    exact ⟨hzero.mpr ((thousandfold_eq_iff hfit).mp (by omega)),
      (comparedKHz_ne hne _).symm.trans hend⟩
  · rintro ⟨hfreq, hend⟩
    have hbegin := hreach.1
    rw [hzero.mp hfreq, hstep] at hbegin
    have hrangelow : tuner.rangelow.toNat = 0 := by omega
    have hback := (thousandfold_eq_iff hfit).mpr (hzero.mp hfreq)
    refine ⟨by omega, by omega, ?_, ?_⟩
    · rw [updateTuner_eq h.answers, hkHz]
      exact (comparedKHz_ne hne _).trans (by rw [hrangelow])
    · rw [updateTuner_eq h.answers, hkHz]
      exact (comparedKHz_ne hne _).trans hend

end

/-- **Tuning**, for all capabilities.  With `LOW` and others besides it, the unit of the
frequency that is set is not that of the frequency and of the range that are read. -/
theorem tunesRight_iff (h : radio.Stores tuner) (hfit : freq.toNat * 16 < 4294967296)
    (hreach : tuner.Reaches freq) : TunesRight radio tuner dev freq ↔
      tuner.capability = tunerCapLow ∨
      (tuner.capability &&& tunerCapLow = 0 ∧ tuner.rangehigh.toNat * 1000 < 4294967296) ∨
      (tuner.capability &&& tunerCapLow ≠ 0 ∧ freq = 0 ∧
        tuner.rangehigh.toNat * 1000 % 4294967296 / 16 = tuner.rangehigh.toNat / 16) := by
  by_cases hlow : tuner.capability = tunerCapLow
  · exact iff_of_true (tunesRight_low h hfit hreach hlow) (.inl hlow)
  by_cases hcap : tuner.capability &&& tunerCapLow = 0
  · rw [tunesRight_high_iff h hfit hreach hcap]
    simp only [hlow, hcap, ne_eq, not_true_eq_false, false_or, true_and, false_and, or_false]
  · rw [tunesRight_both_iff h hfit hreach hcap hlow]
    simp only [hlow, hcap, ne_eq, not_false_eq_true, false_or, true_and, false_and]

end

/-! ## Radios -/

/-- A stereo tuner for 76 to 108 MHz in steps of 62.5 Hz. -/
def stereoTuner : V4l2Tuner where
  capability := 0x11
  rangelow := 1216000
  rangehigh := 1728000

/-- The same in mono. -/
def monoTuner : V4l2Tuner := { stereoTuner with capability := tunerCapLow }

/-- A radio that stores whatever it is given. -/
def storingRadio (tuner : V4l2Tuner) : Radio where
  tuner := some tuner
  frequency := none
  store := some

theorem storingRadio_stores (tuner : V4l2Tuner) : (storingRadio tuner).Stores tuner :=
  ⟨rfl, fun _ _ _ => rfl⟩

def closedTuner : TunerDevice := ⟨⟨0, 0, 0⟩, 0⟩

/-- 100 MHz on a stereo tuner come back as 100 GHz. -/
theorem stereoTuner_off : ¬ ∀ (radio : Radio) (tuner : V4l2Tuner) (dev : TunerDevice)
    (freq : UInt32), radio.Stores tuner → freq.toNat * 16 < 4294967296 → tuner.Reaches freq →
      TunesRight radio tuner dev freq := by
  intro hall
  have hreach : stereoTuner.Reaches 100000 := by
    unfold V4l2Tuner.Reaches
    decide
  have hright := hall (storingRadio stereoTuner) stereoTuner closedTuner 100000
    (storingRadio_stores stereoTuner) (by decide) hreach
  have hfreq : (tunerSetFreq (storingRadio stereoTuner) closedTuner 100000).1 = 100000000 := by
    decide
  have hhigh := hright.high
  rw [hfreq] at hhigh
  exact absurd hhigh (by decide)

theorem monoTuner_right : TunesRight (storingRadio monoTuner) monoTuner closedTuner 100000 :=
  (tunesRight_iff (storingRadio_stores monoTuner) (by decide)
    (show _ ∧ _ by decide)).mpr (.inl rfl)

end Blts.Alsa
