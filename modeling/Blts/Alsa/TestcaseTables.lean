import Mathlib.Algebra.Order.BigOperators.Group.List
import Blts.Alsa.Testcases

/-!
# What the tables hold

The combinations of a testset, and the entries that both tables have for each of them.
The generation makes exactly these tables if every stream has variations, the counts and
timeouts are numbers that an `int` holds and the names fit the bytes allocated for them;
otherwise it makes none.
-/

namespace Blts.Alsa

open Blts.Lib.MixedRadix

/-! ## Results -/

theorem gen_bind_eq_ok {α β : Type} {x : Except GenStop α} {f : α → Except GenStop β} {b : β} :
    (x >>= f) = .ok b ↔ ∃ a, x = .ok a ∧ f a = .ok b := by
  cases x with
  | error stop => exact ⟨fun h => (by cases h), fun ⟨_, h, _⟩ => (by cases h)⟩
  | ok a => exact ⟨fun h => ⟨a, rfl, h⟩, fun ⟨_, h, hf⟩ => by cases h; exact hf⟩

theorem ok_eq_ok {α : Type} {a b : α} : (.ok a : Except GenStop α) = .ok b ↔ b = a :=
  ⟨fun h => (Except.ok.inj h).symm, fun h => congrArg Except.ok h.symm⟩

/-- A check. -/
theorem guard_eq_ok {α : Type} {p : Prop} [Decidable p] {a b : α} {stop : GenStop} :
    (if p then .ok a else .error stop : Except GenStop α) = .ok b ↔ p ∧ b = a := by
  by_cases hp : p
  · rw [if_pos hp, ok_eq_ok]
    exact (and_iff_right hp).symm
  · rw [if_neg hp]
    exact ⟨fun h => (by cases h), fun h => absurd h.1 hp⟩

theorem checkInt_eq_ok {value b : Int} :
    checkInt value = .ok b ↔ (-intLimit ≤ value ∧ value < intLimit) ∧ b = value := guard_eq_ok

theorem checkCount_eq_ok {count b : Nat} :
    checkCount count = .ok b ↔ count < intLimit ∧ b = count := guard_eq_ok

/-! ## The variations of a stream -/

/-- The parameters of a stream with a value of each list. -/
def variation (pcm : AlsaPcmSettings) (rate format channels access async : Int) : PcmParams :=
  { card := pcm.card, device := pcm.device, dir := pcm.dir, duration := pcm.duration,
    freq := pcm.freq, format, rate, channels, hwResampling := pcm.hwResampling, access,
    async, linkCard := pcm.linkCard, linkDevice := pcm.linkDevice,
    periodSize := pcm.periodSize, volume := pcm.volume }

/-- The parameters of a section that is only waited for. -/
def waitParams (pcm : AlsaPcmSettings) : PcmParams :=
  { PcmParams.zero with duration := pcm.duration }

/-- The choices that a section gives. -/
def choices (pcm : AlsaPcmSettings) : List PcmParams :=
  if pcmVariations pcm = [] then [waitParams pcm] else pcmVariations pcm

/-- The product of the lengths of the lists. -/
def variationCount (pcm : AlsaPcmSettings) : Nat :=
  pcm.rates.length * (pcm.formats.length *
    (pcm.channels.length * (pcm.access.length * pcm.async.length)))

/-- Lists of one length after another. -/
theorem length_flatMap_const {α β : Type} {f : α → List β} {m : Nat} {as : List α}
    (hm : ∀ a ∈ as, (f a).length = m) : (as.flatMap f).length = as.length * m := by
  induction as with
  | nil => simp
  | cons a as ih =>
      obtain ⟨ha, has⟩ := List.forall_mem_cons.mp hm
      rw [List.flatMap_cons, List.length_append, ha, ih has, List.length_cons, Nat.succ_mul,
        Nat.add_comm]

/-- Where an element of one of the lists stands. -/
theorem getElem?_flatMap_const {α β : Type} {f : α → List β} {m : Nat} {as : List α}
    (hm : ∀ a ∈ as, (f a).length = m) : ∀ {i j : Nat} {a : α} {b : β}, as[i]? = some a →
      (f a)[j]? = some b → (as.flatMap f)[i * m + j]? = some b := by
  induction as with
  | nil => intro i j a b ha; cases ha
  | cons a' as ih =>
      intro i j a b ha hb
      obtain ⟨ha', has⟩ := List.forall_mem_cons.mp hm
      rw [List.flatMap_cons]
      cases i with
      | zero =>
          cases ha
          have hj : j < (f a').length := (List.getElem?_eq_some_iff.mp hb).1
          rw [Nat.zero_mul, Nat.zero_add, List.getElem?_append_left hj, hb]
      | succ i =>
          have hle : (f a').length ≤ (i + 1) * m + j := by
            rw [ha', Nat.succ_mul]
            omega
          rw [List.getElem?_append_right hle, ha', Nat.succ_mul,
            show i * m + m + j - m = i * m + j by omega]
          exact ih has ha hb

theorem length_pcmVariations (pcm : AlsaPcmSettings) :
    (pcmVariations pcm).length = variationCount pcm := by
  unfold pcmVariations variationCount
  refine length_flatMap_const fun rate _ => length_flatMap_const fun format _ =>
    length_flatMap_const fun channels _ => length_flatMap_const fun access _ => ?_
  exact List.length_map _

/-- The place of a choice of values among the variations: the async modes vary fastest,
then access, channels, formats and rates. -/
def variationPlace (pcm : AlsaPcmSettings) (r f c a s : Nat) : Nat :=
  r * (pcm.formats.length * (pcm.channels.length * (pcm.access.length * pcm.async.length))) +
    (f * (pcm.channels.length * (pcm.access.length * pcm.async.length)) +
      (c * (pcm.access.length * pcm.async.length) + (a * pcm.async.length + s)))

/-- **Every choice of values** has its place among the variations. -/
theorem getElem?_pcmVariations (pcm : AlsaPcmSettings) {r f c a s : Nat}
    {rate format channels access async : Int} (hrate : pcm.rates[r]? = some rate)
    (hformat : pcm.formats[f]? = some format) (hchannels : pcm.channels[c]? = some channels)
    (haccess : pcm.access[a]? = some access) (hasync : pcm.async[s]? = some async) :
    (pcmVariations pcm)[variationPlace pcm r f c a s]? =
      some (variation pcm rate format channels access async) := by
  unfold pcmVariations variationPlace
  refine getElem?_flatMap_const (fun rate _ => length_flatMap_const fun format _ =>
    length_flatMap_const fun channels _ => length_flatMap_const fun access _ =>
      List.length_map _) hrate ?_
  refine getElem?_flatMap_const (fun format _ => length_flatMap_const fun channels _ =>
    length_flatMap_const fun access _ => List.length_map _) hformat ?_
  refine getElem?_flatMap_const (fun channels _ => length_flatMap_const fun access _ =>
    List.length_map _) hchannels ?_
  refine getElem?_flatMap_const (fun access _ => List.length_map _) haccess ?_
  rw [List.getElem?_map, hasync]
  rfl

/-- There is something to do for a stream, and an `int` counts it. -/
def StreamOk (pcm : AlsaPcmSettings) : Prop :=
  (variationCount pcm ≠ 0 ∨ pcm.dir = .none) ∧ variationCount pcm < intLimit

theorem pcmVariations_eq_nil {pcm : AlsaPcmSettings} :
    pcmVariations pcm = [] ↔ variationCount pcm = 0 := by
  rw [← length_pcmVariations]
  exact List.length_eq_zero_iff.symm

theorem generatePcmParams_eq_ok {pcm : AlsaPcmSettings} {ps : List PcmParams} :
    generatePcmParams pcm = .ok ps ↔ variationCount pcm < intLimit ∧ ps = pcmVariations pcm := by
  unfold generatePcmParams
  rw [gen_bind_eq_ok, length_pcmVariations]
  constructor
  · rintro ⟨count, hcount, hps⟩
    exact ⟨(checkCount_eq_ok.mp hcount).1, ok_eq_ok.mp hps⟩
  · rintro ⟨hcount, hps⟩
    exact ⟨variationCount pcm, checkCount_eq_ok.mpr ⟨hcount, rfl⟩, ok_eq_ok.mpr hps⟩

theorem streamParams_eq_ok {pcm : AlsaPcmSettings} {ps : List PcmParams} :
    streamParams pcm = .ok ps ↔ StreamOk pcm ∧ ps = choices pcm := by
  have hstream : streamParams pcm = .ok ps ↔ variationCount pcm < intLimit ∧
      (if pcmVariations pcm = [] then
        if pcm.dir = .none then .ok [waitParams pcm] else .error .failed
      else .ok (pcmVariations pcm) : Except GenStop _) = .ok ps := by
    unfold streamParams
    rw [gen_bind_eq_ok]
    constructor
    · rintro ⟨ps', hps', hps⟩
      obtain ⟨hcount, rfl⟩ := generatePcmParams_eq_ok.mp hps'
      exact ⟨hcount, hps⟩
    · rintro ⟨hcount, hps⟩
      exact ⟨_, generatePcmParams_eq_ok.mpr ⟨hcount, rfl⟩, hps⟩
  rw [hstream]
  unfold StreamOk choices
  by_cases hnil : pcmVariations pcm = []
  · have hzero := pcmVariations_eq_nil.mp hnil
    rw [if_pos hnil, if_pos hnil, guard_eq_ok]
    simp only [hzero, ne_eq, not_true_eq_false, false_or]
    exact ⟨fun h => ⟨⟨h.2.1, h.1⟩, h.2.2⟩, fun h => ⟨h.1.2, h.1.1, h.2⟩⟩
  · have hpos : variationCount pcm ≠ 0 := fun h => hnil (pcmVariations_eq_nil.mpr h)
    rw [if_neg hnil, if_neg hnil, ok_eq_ok]
    exact ⟨fun h => ⟨⟨.inl hpos, h.1⟩, h.2⟩, fun h => ⟨h.1.2, h.2⟩⟩

/-- How many choices a section gives. -/
def numChoices (pcm : AlsaPcmSettings) : Nat :=
  if variationCount pcm = 0 then 1 else variationCount pcm

theorem length_choices (pcm : AlsaPcmSettings) : (choices pcm).length = numChoices pcm := by
  unfold choices numChoices
  by_cases hnil : pcmVariations pcm = []
  · rw [if_pos hnil, if_pos (pcmVariations_eq_nil.mp hnil)]
    rfl
  · rw [if_neg hnil, if_neg fun h => hnil (pcmVariations_eq_nil.mpr h), length_pcmVariations]

theorem numChoices_pos (pcm : AlsaPcmSettings) : 0 < numChoices pcm := by
  unfold numChoices
  split
  · exact Nat.one_pos
  · exact Nat.pos_of_ne_zero ‹_›

theorem numChoices_lt {pcm : AlsaPcmSettings} (h : StreamOk pcm) : numChoices pcm < intLimit := by
  unfold numChoices
  split
  · decide
  · exact h.2

/-! ## The counts of a testset -/

/-- The limits of the indices of a testset. -/
def limits (pcms : List AlsaPcmSettings) : List Nat := pcms.map numChoices

theorem limits_positive (pcms : List AlsaPcmSettings) : Positive (limits pcms) := by
  intro l hl
  obtain ⟨pcm, _, rfl⟩ := List.mem_map.mp hl
  exact numChoices_pos pcm

theorem limits_choices (pcms : List AlsaPcmSettings) :
    (pcms.map choices).map List.length = limits pcms := by
  unfold limits
  rw [List.map_map]
  exact List.map_congr_left fun pcm _ => length_choices pcm

/-- `param_count` after some counts have been written from `p` on. -/
def overwrite (paramCount : List (Option Nat)) (p : Nat) : List Nat → List (Option Nat)
  | [] => paramCount
  | c :: cs => overwrite (paramCount.set p (some c)) (p + 1) cs

theorem length_overwrite (cs : List Nat) : ∀ (paramCount : List (Option Nat)) (p : Nat),
    (overwrite paramCount p cs).length = paramCount.length := by
  induction cs with
  | nil => exact fun _ _ => rfl
  | cons c cs ih =>
      intro paramCount p
      rw [overwrite, ih, List.length_set]

theorem getElem?_overwrite_lt {cs : List Nat} : ∀ {paramCount : List (Option Nat)} {p i : Nat},
    i < p → (overwrite paramCount p cs)[i]? = paramCount[i]? := by
  induction cs with
  | nil => exact fun _ => rfl
  | cons c cs ih =>
      intro paramCount p i hi
      rw [overwrite, ih (by omega), List.getElem?_set_ne (by omega)]

theorem getElem?_overwrite {cs : List Nat} : ∀ {paramCount : List (Option Nat)} {p i : Nat},
    p + cs.length ≤ paramCount.length → i < cs.length →
      (overwrite paramCount p cs)[p + i]? = some cs[i]? := by
  induction cs with
  | nil => intro paramCount p i _ hi; cases hi
  | cons c cs ih =>
      intro paramCount p i hlen hi
      rw [List.length_cons] at hlen hi
      rw [overwrite]
      cases i with
      | zero =>
          show (overwrite (paramCount.set p (some c)) (p + 1) cs)[p]? = _
          rw [getElem?_overwrite_lt (Nat.lt_succ_self p), List.getElem?_set_self (by omega)]
          rfl
      | succ i =>
          rw [show p + (i + 1) = p + 1 + i by omega, ih (by rw [List.length_set]; omega)
            (by omega)]
          rfl

theorem collectParams_eq_ok {pcms : List AlsaPcmSettings} : ∀ {p : Nat}
    {paramCount : List (Option Nat)} {r : List (List PcmParams) × List (Option Nat)},
      p + pcms.length ≤ paramCount.length →
        (collectParams pcms p paramCount = .ok r ↔
          (∀ pcm ∈ pcms, StreamOk pcm) ∧
            r = (pcms.map choices, overwrite paramCount p (limits pcms))) := by
  induction pcms with
  | nil =>
      intro p paramCount r _
      rw [collectParams, ok_eq_ok]
      exact (and_iff_right fun pcm hpcm => (by cases hpcm)).symm
  | cons pcm pcms ih =>
      intro p paramCount r hlen
      rw [List.length_cons] at hlen
      have hroom : p < paramCount.length := by omega
      rw [collectParams, if_pos hroom, gen_bind_eq_ok, List.forall_mem_cons]
      constructor
      · rintro ⟨params, hparams, hrest⟩
        obtain ⟨hok, rfl⟩ := streamParams_eq_ok.mp hparams
        obtain ⟨r', hr', hr⟩ := gen_bind_eq_ok.mp hrest
        obtain ⟨hall, rfl⟩ := (ih (by rw [List.length_set]; omega)).mp hr'
        rw [length_choices] at hr
        exact ⟨⟨hok, hall⟩, ok_eq_ok.mp hr⟩
      · rintro ⟨⟨hok, hall⟩, hr⟩
        refine ⟨choices pcm, streamParams_eq_ok.mpr ⟨hok, rfl⟩, gen_bind_eq_ok.mpr ⟨_,
          (ih (by rw [List.length_set]; omega)).mpr ⟨hall, rfl⟩, ?_⟩⟩
        rw [length_choices]
        exact ok_eq_ok.mpr hr

theorem readCount_some {paramCount : List (Option Nat)} {p c : Nat}
    (h : paramCount[p]? = some (some c)) : readCount paramCount p = .ok c := by
  unfold readCount
  rw [h]
  rfl

/-- The counts from `p` on are multiplied if their product fits. -/
theorem multiplyCounts_eq_ok {cs : List Nat} : ∀ {paramCount : List (Option Nat)} {p count r : Nat},
    (∀ c ∈ cs, 0 < c) → (∀ i, i < cs.length → paramCount[p + i]? = some cs[i]?) →
      count < intLimit →
        (multiplyCounts paramCount cs.length p count = .ok r ↔
          count * cs.prod < intLimit ∧ r = count * cs.prod) := by
  induction cs with
  | nil =>
      intro paramCount p count r _ _ hcount
      rw [List.prod_nil, Nat.mul_one]
      exact ok_eq_ok.trans (and_iff_right hcount).symm
  | cons c cs ih =>
      intro paramCount p count r hpos hcounts hcount
      obtain ⟨hc, hcs⟩ := List.forall_mem_cons.mp hpos
      have hfirst : readCount paramCount p = .ok c := readCount_some (hcounts 0 (by simp))
      have hrest : ∀ i, i < cs.length → paramCount[p + 1 + i]? = some cs[i]? := by
        intro i hi
        have h := hcounts (i + 1) (by simpa using hi)
        rw [show p + 1 + i = p + (i + 1) by omega]
        exact h
      rw [List.length_cons, multiplyCounts, hfirst, List.prod_cons, ← Nat.mul_assoc]
      show (checkCount (count * c) >>= _) = _ ↔ _
      rw [gen_bind_eq_ok]
      constructor
      · rintro ⟨count', hcount', hr⟩
        obtain ⟨hlt, rfl⟩ := checkCount_eq_ok.mp hcount'
        exact (ih hcs hrest hlt).mp hr
      · rintro ⟨hlt, hr⟩
        have hprod : 0 < cs.prod := List.prod_pos hcs
        have hle : count * c < intLimit :=
          Nat.lt_of_le_of_lt (Nat.le_mul_of_pos_right _ hprod) hlt
        exact ⟨count * c, checkCount_eq_ok.mpr ⟨hle, rfl⟩, (ih hcs hrest hle).mpr ⟨hlt, hr⟩⟩

/-- The number of test cases of a testset with streams. -/
theorem countCases_eq_ok {pcms : List AlsaPcmSettings} (hne : pcms ≠ [])
    (hok : ∀ pcm ∈ pcms, StreamOk pcm) {paramCount : List (Option Nat)}
    (hlen : pcms.length ≤ paramCount.length) {r : Nat} :
    countCases pcms.length (overwrite paramCount 0 (limits pcms)) = .ok r ↔
      (limits pcms).prod < intLimit ∧ r = (limits pcms).prod := by
  cases pcms with
  | nil => exact absurd rfl hne
  | cons pcm pcms =>
      have hlimits : (limits (pcm :: pcms)).length = (pcm :: pcms).length := List.length_map _
      have hcount (i : Nat) (hi : i < (pcm :: pcms).length) :
          (overwrite paramCount 0 (limits (pcm :: pcms)))[0 + i]? =
            some (limits (pcm :: pcms))[i]? :=
        getElem?_overwrite (by rw [hlimits]; omega) (by rw [hlimits]; exact hi)
      have hfirst := readCount_some (hcount 0 (by simp))
      have hrest : ∀ i, i < (limits pcms).length →
          (overwrite paramCount 0 (limits (pcm :: pcms)))[1 + i]? = some (limits pcms)[i]? := by
        intro i hi
        have h := hcount (i + 1) (by simpa [limits] using hi)
        rw [show 1 + i = 0 + (i + 1) by omega]
        exact h
      have hpcm := hok pcm List.mem_cons_self
      unfold countCases
      rw [hfirst, show (pcm :: pcms).length - 1 = (limits pcms).length from
        (List.length_map _).symm]
      exact multiplyCounts_eq_ok (limits_positive pcms) hrest (numChoices_lt hpcm)

/-! ## Combinations -/

/-- The combinations of the choices of some streams, the first of them varying fastest. -/
def combinations (pcms : List AlsaPcmSettings) : List (List PcmParams) :=
  (List.range (limits pcms).prod).map fun k =>
    select (pcms.map choices) (digits (limits pcms) k)

theorem length_combinations (pcms : List AlsaPcmSettings) :
    (combinations pcms).length = (limits pcms).prod := by
  unfold combinations
  rw [List.length_map, List.length_range]

/-- An entry of the parameter table after the first pass. -/
def pending (params : List PcmParams) : TestcaseParams := { params, refs := none }

/-- **The odometer** of the first pass goes through the indices in order. -/
theorem combineParams_eq {params : List (List PcmParams)}
    (hpos : Positive (params.map List.length)) (count : Nat) : ∀ k,
      combineParams params count (digits (params.map List.length) k) =
        (List.range' k count).map fun i =>
          pending (select params (digits (params.map List.length) i)) := by
  induction count with
  | zero => exact fun _ => rfl
  | succ count ih =>
      intro k
      rw [combineParams, succ_digits hpos, ih, List.range'_succ, List.map_cons]
      rfl

theorem combineParams_choices (pcms : List AlsaPcmSettings) :
    combineParams (pcms.map choices) (limits pcms).prod
      (List.replicate (pcms.map choices).length 0) = (combinations pcms).map pending := by
  have hlimits := limits_choices pcms
  have hpos : Positive ((pcms.map choices).map List.length) := hlimits ▸ limits_positive pcms
  have hzero : List.replicate (pcms.map choices).length 0 =
      digits ((pcms.map choices).map List.length) 0 := by
    rw [digits_zero, List.length_map (f := List.length)]
  rw [hzero, combineParams_eq hpos, hlimits, ← List.range_eq_range']
  unfold combinations
  rw [List.map_map]
  rfl

/-! ## Names and timeouts -/

/-- A minute is added for a tuner or a Bluetooth device. -/
def deviceTimeout (testset : AlsaTestset) : Int :=
  if testset.tuner.device ≠ [] ∨ testset.btaudio.remoteMac ≠ [] then 60 * 1000 else 0

theorem deviceTimeout_nonneg (testset : AlsaTestset) : 0 ≤ deviceTimeout testset := by
  unfold deviceTimeout
  split <;> decide

/-- The timeout of a test case. -/
def timeoutOf (testset : AlsaTestset) (params : List PcmParams) : Int :=
  (maxDuration params * 2 + 5) * 1000 + deviceTimeout testset

/-- The name of a test case fits, and its timeout is an `int`. -/
def CaseOk (testset : AlsaTestset) (params : List PcmParams) : Prop :=
  (caseName testset.description params).length < 256 * testset.pcms.length ∧
    timeoutOf testset params < intLimit

theorem foldl_max_nonneg {params : List PcmParams} : ∀ {timeout : Int}, 0 ≤ timeout →
    0 ≤ params.foldl (fun timeout p => if p.duration > timeout then p.duration else timeout)
      timeout := by
  induction params with
  | nil => exact fun h => h
  | cons p params ih =>
      intro timeout h
      rw [List.foldl_cons]
      apply ih
      split
      · omega
      · exact h

theorem caseTimeout_eq_ok {testset : AlsaTestset} {params : List PcmParams} {r : Int} :
    caseTimeout testset params = .ok r ↔
      timeoutOf testset params < intLimit ∧ r = timeoutOf testset params := by
  have hmax : 0 ≤ maxDuration params := foldl_max_nonneg (Int.le_refl 0)
  have hlimit : (0 : Int) ≤ intLimit := Int.natCast_nonneg intLimit
  have hdevice := deviceTimeout_nonneg testset
  -- what is added at the end
  have hadd (t : Int) (ht : 0 ≤ t ∧ t < intLimit) :
      (if testset.tuner.device ≠ [] ∨ testset.btaudio.remoteMac ≠ [] then
        checkInt (t + 60 * 1000) else .ok t) = .ok r ↔
          t + deviceTimeout testset < intLimit ∧ r = t + deviceTimeout testset := by
    unfold deviceTimeout
    by_cases h : testset.tuner.device ≠ [] ∨ testset.btaudio.remoteMac ≠ []
    · rw [if_pos h, if_pos h, checkInt_eq_ok]
      exact and_congr_left fun _ => ⟨fun hle => hle.2, fun hle => ⟨by omega, hle⟩⟩
    · rw [if_neg h, if_neg h, Int.add_zero, ok_eq_ok]
      exact (and_iff_right ht.2).symm
  unfold caseTimeout timeoutOf
  simp only [gen_bind_eq_ok, checkInt_eq_ok]
  constructor
  · rintro ⟨t₁, ⟨⟨_, h₁⟩, rfl⟩, t₂, ⟨⟨_, h₂⟩, rfl⟩, t₃, ⟨⟨_, h₃⟩, rfl⟩, h⟩
    exact (hadd _ ⟨by omega, h₃⟩).mp h
  · rintro ⟨hlt, hr⟩
    have h₃ : (maxDuration params * 2 + 5) * 1000 < intLimit := by omega
    exact ⟨_, ⟨⟨by omega, by omega⟩, rfl⟩, _, ⟨⟨by omega, by omega⟩, rfl⟩, _,
      ⟨⟨by omega, h₃⟩, rfl⟩, (hadd _ ⟨by omega, h₃⟩).mpr ⟨hlt, hr⟩⟩

/-- The settings that the cases of a testset refer to. -/
def refsOf (conf : AlsaConfiguration) (testset : AlsaTestset) : TestcaseRefs where
  defControlRef := conf.defCtls
  controlRef := testset.ctls
  tuner := testset.tuner
  btaudio := testset.btaudio

/-- The entry of a combination in the table of test cases. -/
def caseOf (testset : AlsaTestset) (params : List PcmParams) : CliTestcase where
  caseName := caseName testset.description params
  caseFunc := .playRecPcm
  timeout := timeoutOf testset params

/-- Its entry in the table of parameters. -/
def paramsOf (conf : AlsaConfiguration) (testset : AlsaTestset) (params : List PcmParams) :
    TestcaseParams where
  params := params
  refs := some (refsOf conf testset)

theorem writeName_eq_ok {testset : AlsaTestset} {params : List PcmParams} {r : List Char} :
    writeName testset params = .ok r ↔
      (caseName testset.description params).length < 256 * testset.pcms.length ∧
        r = caseName testset.description params := guard_eq_ok

/-- **The second pass** over the entries of the first. -/
theorem nameCases_eq_ok {conf : AlsaConfiguration} {testset : AlsaTestset}
    {combos : List (List PcmParams)} : ∀ {testcases : List (Option TestcaseParams)}
      {cases : List CliTestcase} {r : Tables}, testcases.length = cases.length →
        (nameCases conf testset combos.length
            ⟨testcases ++ combos.map fun c => some (pending c), cases⟩ = .ok r ↔
          (∀ c ∈ combos, CaseOk testset c) ∧
            r = ⟨testcases ++ combos.map fun c => some (paramsOf conf testset c),
              cases ++ combos.map (caseOf testset)⟩) := by
  induction combos with
  | nil =>
      intro testcases cases r _
      rw [List.map_nil, List.map_nil, List.map_nil, List.append_nil, List.append_nil]
      exact ok_eq_ok.trans (and_iff_right fun c hc => (by cases hc)).symm
  | cons c combos ih =>
      intro testcases cases r hlen
      have hread : readTestcase ⟨testcases ++ (c :: combos).map fun c => some (pending c), cases⟩ =
          .ok (pending c) := by
        unfold readTestcase
        simp [← hlen]
      have hset : (testcases ++ (c :: combos).map fun c => some (pending c)).set cases.length
          (some (paramsOf conf testset c)) =
            (testcases ++ [some (paramsOf conf testset c)]) ++
              combos.map fun c => some (pending c) := by
        simp [← hlen]
      have hstep (r : Tables) : nameCases conf testset combos.length
          ⟨(testcases ++ (c :: combos).map fun c => some (pending c)).set cases.length
            (some (paramsOf conf testset c)), cases ++ [caseOf testset c]⟩ = .ok r ↔
          (∀ c ∈ combos, CaseOk testset c) ∧
            r = ⟨testcases ++ (c :: combos).map fun c => some (paramsOf conf testset c),
              cases ++ (c :: combos).map (caseOf testset)⟩ := by
        rw [hset, ih (by simp [hlen])]
        simp
      rw [List.length_cons, nameCases, hread, List.forall_mem_cons]
      show (writeName testset c >>= _) = _ ↔ _
      rw [gen_bind_eq_ok]
      constructor
      · rintro ⟨name, hname, h⟩
        obtain ⟨hfits, rfl⟩ := writeName_eq_ok.mp hname
        obtain ⟨timeout, htimeout, h⟩ := gen_bind_eq_ok.mp h
        obtain ⟨hlt, rfl⟩ := caseTimeout_eq_ok.mp htimeout
        obtain ⟨hall, hr⟩ := (hstep r).mp h
        exact ⟨⟨⟨hfits, hlt⟩, hall⟩, hr⟩
      · rintro ⟨⟨⟨hfits, hlt⟩, hall⟩, hr⟩
        exact ⟨_, writeName_eq_ok.mpr ⟨hfits, rfl⟩, gen_bind_eq_ok.mpr ⟨_,
          caseTimeout_eq_ok.mpr ⟨hlt, rfl⟩, (hstep r).mpr ⟨hall, hr⟩⟩⟩

/-! ## Testsets -/

/-- The number of test cases of a testset. -/
def testCount (testset : AlsaTestset) : Nat := (limits testset.pcms).prod

/-- A testset has streams, all of them with something to do, and all its test cases get
their names and timeouts. -/
structure TestsetOk (testset : AlsaTestset) : Prop where
  streams : testset.pcms ≠ []
  stream : ∀ pcm ∈ testset.pcms, StreamOk pcm
  case : ∀ c ∈ combinations testset.pcms, CaseOk testset c

/-- The array of counts, and the first of them if there is one. -/
def CountsOk (paramCount : List (Option Nat)) : Prop :=
  paramCount.length = maxStreams ∧ ∀ c, paramCount[0]? = some (some c) → 0 < c

/-- What a testset adds to the tables. -/
def Tables.addTestset (conf : AlsaConfiguration) (testset : AlsaTestset) (tables : Tables) :
    Tables where
  testcases := tables.testcases ++
    (combinations testset.pcms).map fun c => some (paramsOf conf testset c)
  cases := tables.cases ++ (combinations testset.pcms).map (caseOf testset)

/-- Without a stream, the count of an earlier testset is used, or one that was never
written; no name fits then. -/
theorem generateTestset_no_streams {conf : AlsaConfiguration} {testset : AlsaTestset}
    (hnil : testset.pcms = []) {paramCount : List (Option Nat)} (hcounts : CountsOk paramCount)
    {tables : Tables} (r : List (Option Nat) × Tables) :
    generateTestset conf testset paramCount tables ≠ .ok r := by
  intro h
  unfold generateTestset at h
  rw [hnil] at h
  obtain ⟨_, hparams, h⟩ := gen_bind_eq_ok.mp h
  cases hparams
  obtain ⟨count, hcount, h⟩ := gen_bind_eq_ok.mp h
  obtain ⟨_, _, h⟩ := gen_bind_eq_ok.mp h
  obtain ⟨_, hname, _⟩ := gen_bind_eq_ok.mp h
  have hpos : 0 < count := by
    obtain ⟨c, hc, hmul⟩ := gen_bind_eq_ok.mp hcount
    cases hmul
    unfold readCount at hc
    cases hfirst : paramCount[0]? with
    | none =>
        rw [hfirst] at hc
        cases hc
    | some first =>
        cases first with
        | none =>
            rw [hfirst] at hc
            cases hc
        | some c' =>
            rw [hfirst] at hc
            cases hc
            exact hcounts.2 _ hfirst
  obtain ⟨count, rfl⟩ := Nat.exists_eq_add_one.mpr hpos
  rw [nameCases] at hname
  obtain ⟨testcase, _, hname⟩ := gen_bind_eq_ok.mp hname
  obtain ⟨name, hwrite, _⟩ := gen_bind_eq_ok.mp hname
  have hlt := (writeName_eq_ok.mp hwrite).1
  rw [hnil] at hlt
  exact Nat.not_lt_zero _ hlt

/-- **A testset**. -/
theorem generateTestset_eq_ok {conf : AlsaConfiguration} {testset : AlsaTestset}
    (hstreams : testset.pcms.length ≤ maxStreams) {paramCount : List (Option Nat)}
    (hcounts : CountsOk paramCount) {tables : Tables}
    (htables : tables.testcases.length = tables.cases.length)
    {r : List (Option Nat) × Tables} :
    generateTestset conf testset paramCount tables = .ok r ↔
      TestsetOk testset ∧ tables.cases.length + testCount testset < intLimit ∧
        r = (overwrite paramCount 0 (limits testset.pcms), tables.addTestset conf testset) := by
  by_cases hnil : testset.pcms = []
  · exact iff_of_false (generateTestset_no_streams hnil hcounts r) fun h => h.1.streams hnil
  have hlen : testset.pcms.length ≤ paramCount.length := hcounts.1 ▸ hstreams
  have hcollect {r : List (List PcmParams) × List (Option Nat)} :
      collectParams testset.pcms 0 paramCount = .ok r ↔ _ :=
    collectParams_eq_ok ((Nat.zero_add _).trans_le hlen)
  have hname {r : Tables} : nameCases conf testset (limits testset.pcms).prod
      { tables with testcases := tables.testcases ++
          (combineParams (testset.pcms.map choices) (limits testset.pcms).prod
            (List.replicate (testset.pcms.map choices).length 0)).map some } = .ok r ↔
      (∀ c ∈ combinations testset.pcms, CaseOk testset c) ∧
        r = tables.addTestset conf testset := by
    rw [combineParams_choices, List.map_map, ← length_combinations]
    exact nameCases_eq_ok htables
  unfold generateTestset
  rw [gen_bind_eq_ok]
  constructor
  · rintro ⟨params, hparams, h⟩
    obtain ⟨hall, rfl⟩ := hcollect.mp hparams
    obtain ⟨count, hcount, h⟩ := gen_bind_eq_ok.mp h
    obtain ⟨_, rfl⟩ := (countCases_eq_ok hnil hall hlen).mp hcount
    obtain ⟨_, hcheck, h⟩ := gen_bind_eq_ok.mp h
    obtain ⟨tables', htables', h⟩ := gen_bind_eq_ok.mp h
    obtain ⟨hcases, rfl⟩ := hname.mp htables'
    exact ⟨⟨hnil, hall, hcases⟩, (checkCount_eq_ok.mp hcheck).1, ok_eq_ok.mp h⟩
  · rintro ⟨hok, hcount, hr⟩
    have hprod : (limits testset.pcms).prod < intLimit :=
      Nat.lt_of_le_of_lt (Nat.le_add_left _ _) hcount
    exact ⟨_, hcollect.mpr ⟨hok.stream, rfl⟩, gen_bind_eq_ok.mpr ⟨_,
      (countCases_eq_ok hnil hok.stream hlen).mpr ⟨hprod, rfl⟩, gen_bind_eq_ok.mpr ⟨_,
        checkCount_eq_ok.mpr ⟨hcount, rfl⟩, gen_bind_eq_ok.mpr ⟨_,
          hname.mpr ⟨hok.case, rfl⟩, ok_eq_ok.mpr hr⟩⟩⟩⟩

/-- The counts after a testset with streams. -/
theorem CountsOk.overwrite {paramCount : List (Option Nat)} (h : CountsOk paramCount)
    {pcms : List AlsaPcmSettings} (hne : pcms ≠ []) :
    CountsOk (Alsa.overwrite paramCount 0 (limits pcms)) := by
  refine ⟨(length_overwrite _ _ _).trans h.1, fun c hc => ?_⟩
  cases pcms with
  | nil => exact absurd rfl hne
  | cons pcm pcms =>
      have hroom : 0 < paramCount.length := h.1 ▸ (by decide)
      have hfirst : (Alsa.overwrite paramCount 0 (limits (pcm :: pcms)))[0]? =
          some (some (numChoices pcm)) := by
        show (Alsa.overwrite (paramCount.set 0 (some (numChoices pcm))) (0 + 1)
          (limits pcms))[0]? = _
        rw [getElem?_overwrite_lt (Nat.lt_succ_self 0), List.getElem?_set_self hroom]
      rw [hfirst] at hc
      cases hc
      exact numChoices_pos pcm

/-- What some testsets add to the tables. -/
def Tables.addTestsets (conf : AlsaConfiguration) (testsets : List AlsaTestset)
    (tables : Tables) : Tables where
  testcases := tables.testcases ++ testsets.flatMap fun testset =>
    (combinations testset.pcms).map fun c => some (paramsOf conf testset c)
  cases := tables.cases ++ testsets.flatMap fun testset =>
    (combinations testset.pcms).map (caseOf testset)

theorem Tables.addTestsets_cons (conf : AlsaConfiguration) (testset : AlsaTestset)
    (testsets : List AlsaTestset) (tables : Tables) :
    (tables.addTestset conf testset).addTestsets conf testsets =
      tables.addTestsets conf (testset :: testsets) := by
  unfold addTestsets addTestset
  simp only [List.flatMap_cons, List.append_assoc]

/-- **All testsets**. -/
theorem generateTestsets_eq_ok {conf : AlsaConfiguration} {testsets : List AlsaTestset} :
    ∀ {paramCount : List (Option Nat)} {tables r : Tables},
      (∀ testset ∈ testsets, testset.pcms.length ≤ maxStreams) → CountsOk paramCount →
        tables.testcases.length = tables.cases.length → tables.cases.length < intLimit →
          (generateTestsets conf testsets paramCount tables = .ok r ↔
            (∀ testset ∈ testsets, TestsetOk testset) ∧
              tables.cases.length + (testsets.map testCount).sum < intLimit ∧
                r = tables.addTestsets conf testsets) := by
  induction testsets with
  | nil =>
      intro paramCount tables r _ _ _ hlt
      have hnone : tables.addTestsets conf [] = tables := by
        unfold Tables.addTestsets
        simp
      rw [generateTestsets, ok_eq_ok, hnone]
      exact ⟨fun h => ⟨fun t ht => (by cases ht), hlt, h⟩, fun h => h.2.2⟩
  | cons testset testsets ih =>
      intro paramCount tables r hstreams hcounts htables hlt
      obtain ⟨hfirst, hrest⟩ := List.forall_mem_cons.mp hstreams
      have hadded : (tables.addTestset conf testset).testcases.length =
          (tables.addTestset conf testset).cases.length := by
        unfold Tables.addTestset
        simp [htables]
      have hlength : (tables.addTestset conf testset).cases.length =
          tables.cases.length + testCount testset := by
        unfold Tables.addTestset testCount
        rw [List.length_append, List.length_map, length_combinations]
      rw [generateTestsets, gen_bind_eq_ok, List.forall_mem_cons, List.map_cons, List.sum_cons,
        ← Nat.add_assoc, ← hlength, ← Tables.addTestsets_cons]
      constructor
      · rintro ⟨r', hr', h⟩
        obtain ⟨hok, hcount, rfl⟩ := (generateTestset_eq_ok hfirst hcounts htables).mp hr'
        obtain ⟨hall, hsum, hr⟩ := (ih hrest (hcounts.overwrite hok.streams) hadded
          (hlength.trans_lt hcount)).mp h
        exact ⟨⟨hok, hall⟩, hsum, hr⟩
      · rintro ⟨⟨hok, hall⟩, hsum, hr⟩
        have hcount : (tables.addTestset conf testset).cases.length < intLimit :=
          Nat.lt_of_le_of_lt (Nat.le_add_right _ _) hsum
        exact ⟨_, (generateTestset_eq_ok hfirst hcounts htables).mpr
          ⟨hok, hlength.symm.trans_lt hcount, rfl⟩,
          (ih hrest (hcounts.overwrite hok.streams) hadded hcount).mpr ⟨hall, hsum, hr⟩⟩

theorem length_addTestsets (conf : AlsaConfiguration) (testsets : List AlsaTestset)
    (tables : Tables) : (tables.addTestsets conf testsets).cases.length =
      tables.cases.length + (testsets.map testCount).sum := by
  have hcount (testset : AlsaTestset) :
      ((combinations testset.pcms).map (caseOf testset)).length = testCount testset := by
    rw [List.length_map, length_combinations]
    rfl
  unfold Tables.addTestsets
  rw [List.length_append, List.length_flatMap]
  simp only [hcount]

/-! ## Configurations -/

/-- The tables of a configuration: the static cases, and those of each testset. -/
def tablesOf (conf : AlsaConfiguration) : Tables :=
  Tables.addTestsets conf conf.testsets
    { testcases := List.replicate bltsAlsaCases.length none, cases := bltsAlsaCases }

/-- A stream with something to play or record has a value in each of its lists. -/
def HasChoices (pcm : AlsaPcmSettings) : Prop :=
  pcm.dir ≠ .none → pcm.rates ≠ [] ∧ pcm.formats ≠ [] ∧ pcm.channels ≠ [] ∧
    pcm.access ≠ [] ∧ pcm.async ≠ []

/-- Every testset has a stream, and every stream has choices. -/
def HasStreams (conf : AlsaConfiguration) : Prop :=
  ∀ testset ∈ conf.testsets, testset.pcms ≠ [] ∧ ∀ pcm ∈ testset.pcms, HasChoices pcm

/-- An `int` counts all test cases and the end of the list, and holds their timeouts; their
names fit. -/
def CasesFit (conf : AlsaConfiguration) : Prop :=
  bltsAlsaCases.length + (conf.testsets.map testCount).sum + 1 < intLimit ∧
    ∀ testset ∈ conf.testsets, ∀ c ∈ combinations testset.pcms, CaseOk testset c

theorem hasChoices_iff {pcm : AlsaPcmSettings} :
    HasChoices pcm ↔ variationCount pcm ≠ 0 ∨ pcm.dir = .none := by
  unfold HasChoices variationCount
  simp only [ne_eq, Nat.mul_eq_zero, List.length_eq_zero_iff, not_or]
  by_cases hdir : pcm.dir = .none
  · simp [hdir]
  · simp [hdir]

/-- The choices of a stream are not more than all test cases. -/
theorem variationCount_le_sum {conf : AlsaConfiguration} {testset : AlsaTestset}
    (htestset : testset ∈ conf.testsets) {pcm : AlsaPcmSettings} (hpcm : pcm ∈ testset.pcms) :
    variationCount pcm ≤ (conf.testsets.map testCount).sum := by
  have hchoices : variationCount pcm ≤ numChoices pcm := by
    unfold numChoices
    split <;> omega
  have hprod : numChoices pcm ≤ testCount testset :=
    le_prod (limits_positive testset.pcms) (List.mem_map_of_mem hpcm)
  have hsum : testCount testset ≤ (conf.testsets.map testCount).sum :=
    List.le_sum_of_mem (List.mem_map_of_mem htestset)
  omega

/-- **`generate_pcm_testcase_list`**: when it makes tables, and which. -/
theorem generate_eq_ok {conf : AlsaConfiguration} (hstreams : StreamsFit conf)
    {tables : Tables} :
    generatePcmTestcaseList conf = .ok tables ↔
      HasStreams conf ∧ CasesFit conf ∧ tables = tablesOf conf := by
  have hcounts : CountsOk (List.replicate maxStreams none) := by
    refine ⟨List.length_replicate, fun c hc => ?_⟩
    cases hc
  have htestsets {r : Tables} : generateTestsets conf conf.testsets
      (List.replicate maxStreams none)
      { testcases := List.replicate bltsAlsaCases.length none, cases := bltsAlsaCases } =
        .ok r ↔ _ :=
    generateTestsets_eq_ok hstreams hcounts List.length_replicate (by decide)
  have hlength : (tablesOf conf).cases.length =
      bltsAlsaCases.length + (conf.testsets.map testCount).sum := length_addTestsets _ _ _
  unfold generatePcmTestcaseList
  rw [gen_bind_eq_ok]
  constructor
  · rintro ⟨r, hr, h⟩
    obtain ⟨hall, _, rfl⟩ := htestsets.mp hr
    obtain ⟨_, hcheck, h⟩ := gen_bind_eq_ok.mp h
    have hcount : (tablesOf conf).cases.length + 1 < intLimit := (checkCount_eq_ok.mp hcheck).1
    rw [hlength] at hcount
    refine ⟨fun testset ht => ⟨(hall testset ht).streams, fun pcm hpcm => ?_⟩,
      ⟨hcount, fun testset ht => (hall testset ht).case⟩, ok_eq_ok.mp h⟩
    exact hasChoices_iff.mpr ((hall testset ht).stream pcm hpcm).1
  · rintro ⟨hall, ⟨hcount, hcases⟩, rfl⟩
    refine ⟨tablesOf conf, htestsets.mpr ⟨fun testset ht => ⟨(hall testset ht).1,
      fun pcm hpcm => ⟨hasChoices_iff.mp ((hall testset ht).2 pcm hpcm), ?_⟩,
        hcases testset ht⟩, Nat.lt_of_succ_lt hcount, rfl⟩, gen_bind_eq_ok.mpr ⟨_,
          checkCount_eq_ok.mpr ⟨hlength ▸ hcount, rfl⟩, rfl⟩⟩
    have hle := variationCount_le_sum ht hpcm
    omega

/-! ## What is described -/

/-- The tables hold the static cases and then those of each testset in order, entry for
entry of the same combination and with the settings of their testset.  The combinations of
a testset are those of one choice for each section, the choices of the first section
varying fastest; a section has a choice for every value of each of its lists, or one to
wait. -/
structure Describes (conf : AlsaConfiguration) (tables : Tables) : Prop where
  cases : tables.cases = bltsAlsaCases ++ conf.testsets.flatMap fun testset =>
    (combinations testset.pcms).map (caseOf testset)
  testcases : tables.testcases = List.replicate bltsAlsaCases.length none ++
    conf.testsets.flatMap fun testset =>
      (combinations testset.pcms).map fun c => some (paramsOf conf testset c)
  count : ∀ testset ∈ conf.testsets,
    (combinations testset.pcms).length = (testset.pcms.map numChoices).prod
  order : ∀ testset ∈ conf.testsets, ∀ k, k < (testset.pcms.map numChoices).prod →
    ∃ params, (combinations testset.pcms)[k]? = some params ∧
      params.length = testset.pcms.length ∧ ∀ (j : Nat) (pcm : AlsaPcmSettings),
        testset.pcms[j]? = some pcm → params[j]? =
          (choices pcm)[k / ((testset.pcms.map numChoices).take j).prod % numChoices pcm]?
  once : ∀ testset ∈ conf.testsets, ∀ ds, Valid (testset.pcms.map numChoices) ds →
    ∃! k, k < (testset.pcms.map numChoices).prod ∧
      digits (testset.pcms.map numChoices) k = ds
  choice : ∀ testset ∈ conf.testsets, ∀ pcm ∈ testset.pcms,
    (choices pcm).length = numChoices pcm ∧ (variationCount pcm ≠ 0 →
      ∀ (r f c a s : Nat) (rate format channels access async : Int),
        pcm.rates[r]? = some rate → pcm.formats[f]? = some format →
          pcm.channels[c]? = some channels → pcm.access[a]? = some access →
            pcm.async[s]? = some async → (choices pcm)[variationPlace pcm r f c a s]? =
              some (variation pcm rate format channels access async))

theorem describes_tablesOf (conf : AlsaConfiguration) : Describes conf (tablesOf conf) where
  cases := rfl
  testcases := rfl
  count testset _ := length_combinations testset.pcms
  order testset _ k hk := by
    have hvalid : Valid ((testset.pcms.map choices).map List.length)
        (digits (limits testset.pcms) k) :=
      (limits_choices testset.pcms).symm ▸ valid_digits (limits_positive testset.pcms) k
    refine ⟨select (testset.pcms.map choices) (digits (limits testset.pcms) k), ?_, ?_, ?_⟩
    · unfold combinations
      rw [List.getElem?_map, List.getElem?_range (show k < (limits testset.pcms).prod from hk)]
      rfl
    · rw [length_select hvalid, List.length_map]
    · intro j pcm hpcm
      rw [getElem?_select hvalid, getElem?_digits, List.getElem?_map, hpcm, limits,
        List.getElem?_map, hpcm]
      rfl
  once testset _ ds hds := existsUnique_digits hds
  choice testset _ pcm _ := by
    refine ⟨length_choices pcm, fun hpos r f c a s _ _ _ _ _ hr hf hc ha hs => ?_⟩
    have hchoices : choices pcm = pcmVariations pcm :=
      if_neg fun hnil => hpos (pcmVariations_eq_nil.mp hnil)
    rw [hchoices]
    exact getElem?_pcmVariations pcm hr hf hc ha hs

/-- **The test cases of a configuration** with streams in every testset and choices for
every stream: the tables describe it exactly if all counts, timeouts and names fit. -/
theorem generate_describes_iff {conf : AlsaConfiguration} (hfit : StreamsFit conf)
    (hstreams : HasStreams conf) :
    (∃ tables, generatePcmTestcaseList conf = .ok tables ∧ Describes conf tables) ↔
      CasesFit conf := by
  constructor
  · rintro ⟨tables, hok, _⟩
    exact ((generate_eq_ok hfit).mp hok).2.1
  · intro hcases
    exact ⟨tablesOf conf, (generate_eq_ok hfit).mpr ⟨hstreams, hcases, rfl⟩,
      describes_tablesOf conf⟩

/-- A testset with a description and one stream. -/
def playbackConf (description : List Char) : AlsaConfiguration where
  testsets := [{ AlsaTestset.zero with
    description := description
    pcms := [{ AlsaPcmSettings.zero with
      dir := .output, rates := [44100, 96000], formats := [2], channels := [2], access := [3],
      async := [0], duration := 5 }] }]
  defCtls := []

theorem playbackConf_fits (description : List Char) : StreamsFit (playbackConf description) := by
  simp [StreamsFit, playbackConf, maxStreams]

theorem playbackConf_streams (description : List Char) :
    HasStreams (playbackConf description) := by
  simp [HasStreams, HasChoices, playbackConf]

/-- The conditions hold of a configuration with one stream. -/
theorem generate_describes_headphone :
    (∃ tables, generatePcmTestcaseList (playbackConf "front headphone".toList) = .ok tables ∧
      Describes (playbackConf "front headphone".toList) tables) ↔
        CasesFit (playbackConf "front headphone".toList) :=
  generate_describes_iff (playbackConf_fits _) (playbackConf_streams _)

/-- A description of 240 characters: the name does not fit its 256 bytes. -/
theorem longDescription_overflows :
    ¬ ∀ conf, StreamsFit conf → HasStreams conf →
      ∃ tables, generatePcmTestcaseList conf = .ok tables ∧ Describes conf tables := by
  intro h
  obtain ⟨tables, htables, _⟩ := h (playbackConf (List.replicate 240 'd'))
    (playbackConf_fits _) (playbackConf_streams _)
  have hover : generatePcmTestcaseList (playbackConf (List.replicate 240 'd')) =
      .error (.fault .outOfBounds) := by
    decide +kernel
  rw [hover] at htables
  cases htables

end Blts.Alsa
