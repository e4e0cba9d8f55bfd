import Blts.Alsa.Interval
import Blts.Alsa.Mask

/-!
# Requests to hardware parameters

`pcm_hw_param_set` and `pcm_hw_param_set_minmax` refine a parameter, a mask or an interval, by
a value or by a range.  A direction takes the number after or before the one that is given; for
an interval, what is between the two.
-/

/-!
## Refining an interval by its bounds

`interval_refine_min` and `interval_refine_max` close the bound of an interval of integers by
adding or subtracting one.  A request that excludes the last number below, or zero above,
is the one that wraps.
-/

namespace Blts.Alsa.Refine

variable {i : SndInterval} {x : ℚ}

theorem conclude_nonneg {changed : Bool} (h : ¬i.Void) :
    (conclude i changed).1 = i ∧ ¬(conclude i changed).2 < 0 := by
  unfold conclude
  rw [if_neg h]
  refine ⟨rfl, fun hneg => ?_⟩
  cases changed <;> cases hneg

/-- The bounds of an interval that has numbers. -/
theorem numbers_le_max (h : x ∈ i.numbers) : x ≤ i.max.toNat := by
  obtain ⟨-, -, hbelow, -⟩ := h
  unfold BelowBound at hbelow
  cases hmax : i.openmax with
  | false =>
      rw [hmax] at hbelow
      exact hbelow
  | true =>
      rw [hmax] at hbelow
      exact le_of_lt hbelow

theorem numbers_ge_min (h : x ∈ i.numbers) : (i.min.toNat : ℚ) ≤ x := by
  obtain ⟨-, habove, -, -⟩ := h
  unfold AboveBound at habove
  cases hmin : i.openmin with
  | false =>
      rw [hmin] at habove
      exact habove
  | true =>
      rw [hmin] at habove
      exact le_of_lt habove

theorem numbers_nonneg (h : x ∈ i.numbers) : 0 ≤ x :=
  le_trans (by exact_mod_cast Nat.zero_le _) (numbers_ge_min h)

theorem numbers_le_last (h : x ∈ i.numbers) : x ≤ 4294967295 := by
  refine le_trans (numbers_le_max h) ?_
  exact_mod_cast Nat.le_of_lt_succ i.max.toNat_lt

/-! ## The lower bound -/

/-- What is left of an interval when its lower bound has been refined. -/
structure RefinedMin (i : SndInterval) (min : UInt32) (openmin : Bool)
    (r : SndInterval × Int) : Prop where
  numbers : r.1.numbers = i.numbers ∩ { x | AboveBound min.toNat openmin x }
  failed : r.2 < 0 ↔ i.numbers ∩ { x | AboveBound min.toNat openmin x } = ∅
  rest : ¬r.2 < 0 → r.1.max = i.max ∧ r.1.openmax = i.openmax ∧ r.1.integer = i.integer ∧
    (r.1.integer = true → r.1.openmin = false)

theorem intervalRefineMin_spec (hi : i.numbers.Nonempty) {min : UInt32} {openmin : Bool}
    (hwrap : ¬(i.integer = true ∧ openmin = true ∧ min.toNat = 4294967295)) :
    RefinedMin i min openmin (intervalRefineMin i min openmin) := by
  have hempty : i.empty = false := hi.some_mem.1
  obtain ⟨m, o, hlower, habove, hpick, -⟩ := tightenMin_spec i min openmin
  unfold intervalRefineMin
  rw [if_neg (by rw [hempty]; exact Bool.false_ne_true)]
  dsimp only
  rw [hlower]
  have hnumbers : ({ i with min := m, openmin := o } : SndInterval).numbers =
      i.numbers ∩ { x | AboveBound min.toNat openmin x } := by
    ext x
    constructor
    · rintro ⟨he, h, h', hw⟩
      obtain ⟨h1, h2⟩ := (habove x).mp h
      exact ⟨⟨he, h1, h', hw⟩, h2⟩
    · rintro ⟨⟨he, h1, h', hw⟩, h2⟩
      exact ⟨he, (habove x).mpr ⟨h1, h2⟩, h', hw⟩
  -- the bound is closed where the interval is one of integers
  have hclosed : ∃ c : SndInterval,
      (if i.integer = true then closeMin { i with min := m, openmin := o }
        else { i with min := m, openmin := o }) = c ∧
      c.numbers = i.numbers ∩ { x | AboveBound min.toNat openmin x } ∧ c.empty = false ∧
      c.max = i.max ∧ c.openmax = i.openmax ∧ c.integer = i.integer ∧
      (c.integer = true → c.openmin = false) := by
    by_cases hint : i.integer = true
    · rw [if_pos hint]
      have hopen : o = true → m.toNat ≠ 4294967295 := by
        intro ho
        obtain ⟨rfl, rfl⟩ | ⟨rfl, rfl⟩ := hpick
        · exact min_ne_last hi ho
        · exact fun hlast => hwrap ⟨hint, ho, hlast⟩
      obtain ⟨m', hclose, hsame⟩ := closeMin_spec (i := { i with min := m, openmin := o }) hopen
      rw [hclose]
      refine ⟨_, rfl, ?_, hempty, rfl, rfl, rfl, fun _ => rfl⟩
      rw [← hnumbers]
      ext x
      constructor
      · rintro ⟨he, h, h', hw⟩
        exact ⟨he, (hsame x (hw hint)).mp h, h', hw⟩
      · rintro ⟨he, h, h', hw⟩
        exact ⟨he, (hsame x (hw hint)).mpr h, h', hw⟩
    · rw [if_neg hint]
      exact ⟨_, rfl, hnumbers, hempty, rfl, rfl, rfl, fun h => absurd h hint⟩
  obtain ⟨c, hc, hcnumbers, hcempty, hcmax, hcopen, hcint, hcclosed⟩ := hclosed
  rw [hc]
  obtain ⟨hkeep, hfail, -, hneg, -⟩ := conclude_spec hcempty hcclosed (tightenMin i min openmin).2
  refine ⟨hkeep.trans hcnumbers, ⟨fun h => ?_, fun h => ?_⟩, fun hnot => ?_⟩
  · rw [← hcnumbers]
    exact hneg h
  · rw [hfail.mpr (hcnumbers.trans h)]
    decide
  · have hsame : (conclude c (tightenMin i min openmin).2).1 = c := by
      refine (conclude_nonneg fun hvoid => hnot ?_).1
      rw [hfail.mpr ((void_iff hcempty hcclosed).mp hvoid)]
      decide
    rw [hsame]
    exact ⟨hcmax, hcopen, hcint, hcclosed⟩

theorem tightenMin_last (h : i.openmin = true → i.min.toNat ≠ 4294967295) :
    tightenMin i 4294967295 true = ({ i with min := 4294967295, openmin := true }, true) := by
  unfold tightenMin
  by_cases hlt : i.min < 4294967295
  · rw [if_pos hlt]
  · have hlast : i.min.toNat = 4294967295 := by
      have hle : 4294967295 ≤ i.min.toNat :=
        Nat.le_of_not_lt fun h => hlt (UInt32.lt_iff_toNat_lt.mpr h)
      have := i.min.toNat_lt
      omega
    have hmin : i.min = 4294967295 := UInt32.toNat_inj.mp hlast
    have hopen : i.openmin = false := Bool.eq_false_iff.mpr fun hopen => h hopen hlast
    rw [if_neg hlt, if_pos ⟨hmin, hopen, rfl⟩, ← hmin]

/-- A request above the last number leaves all integers up to the upper bound. -/
theorem intervalRefineMin_wraps (hi : i.numbers.Nonempty) (hint : i.integer = true) :
    intervalRefineMin i 4294967295 true = ({ i with min := 0, openmin := false }, 1) := by
  have hempty : i.empty = false := hi.some_mem.1
  have hvoid : ¬({ i with min := 0, openmin := false } : SndInterval).Void := by
    rintro (h | ⟨h, h' | h'⟩)
    · exact Nat.not_lt_zero _ (UInt32.lt_iff_toNat_lt.mp h)
    · cases h'
    · have hmax : i.max = 0 := h.symm
      exact max_ne_zero hi h' (by rw [hmax]; rfl)
  unfold intervalRefineMin
  rw [if_neg (by rw [hempty]; exact Bool.false_ne_true), tightenMin_last (min_ne_last hi)]
  dsimp only
  rw [if_pos hint]
  have hsucc : (4294967295 : UInt32) + 1 = 0 := by decide
  have hclose : closeMin { i with min := 4294967295, openmin := true } =
      { i with min := 0, openmin := false } := by
    simp only [closeMin, if_true, hsucc]
  rw [hclose]
  unfold conclude
  rw [if_neg hvoid]
  rfl

/-! ## The upper bound -/

theorem tightenMax_numbers {max : UInt32} {openmax : Bool} {m : UInt32} {o : Bool}
    (h : ∀ x, BelowBound m.toNat o x ↔
      BelowBound i.max.toNat i.openmax x ∧ BelowBound max.toNat openmax x) :
    ({ i with max := m, openmax := o } : SndInterval).numbers =
      i.numbers ∩ { x | BelowBound max.toNat openmax x } := by
  ext x
  constructor
  · rintro ⟨he, habove, hbelow, hw⟩
    obtain ⟨h1, h2⟩ := (h x).mp hbelow
    exact ⟨⟨he, habove, h1, hw⟩, h2⟩
  · rintro ⟨⟨he, habove, h1, hw⟩, h2⟩
    exact ⟨he, habove, (h x).mpr ⟨h1, h2⟩, hw⟩

/-- The upper bound, of an interval the lower bound of which has been refined. -/
theorem intervalRefineMax_spec (hi : i.numbers.Nonempty)
    (hclosed : i.integer = true → i.openmin = false) {max : UInt32} {openmax : Bool}
    (hwrap : ¬(i.integer = true ∧ openmax = true ∧ max.toNat = 0)) :
    (intervalRefineMax i max openmax).1.numbers =
      i.numbers ∩ { x | BelowBound max.toNat openmax x } := by
  have hempty : i.empty = false := hi.some_mem.1
  obtain ⟨m, o, hupper, hbelow, hpick, -⟩ := tightenMax_spec i max openmax
  unfold intervalRefineMax
  rw [if_neg (by rw [hempty]; exact Bool.false_ne_true)]
  dsimp only
  rw [hupper]
  have hnumbers := tightenMax_numbers hbelow
  by_cases hint : i.integer = true
  · rw [if_pos hint]
    have hopen : o = true → m.toNat ≠ 0 := by
      intro ho
      obtain ⟨rfl, rfl⟩ | ⟨rfl, rfl⟩ := hpick
      · exact max_ne_zero hi ho
      · exact fun hzero => hwrap ⟨hint, ho, hzero⟩
    obtain ⟨m', hclose, hsame⟩ := closeMax_spec (i := { i with max := m, openmax := o }) hopen
    rw [hclose]
    refine (conclude_spec (i := { i with max := m', openmax := false }) hempty hclosed _).1.trans ?_
    rw [← hnumbers]
    ext x
    constructor
    · rintro ⟨he, h, h', hw⟩
      exact ⟨he, h, (hsame x (hw hint)).mp h', hw⟩
    · rintro ⟨he, h, h', hw⟩
      exact ⟨he, h, (hsame x (hw hint)).mpr h', hw⟩
  · rw [if_neg hint]
    exact (conclude_spec (i := { i with max := m, openmax := o }) hempty
      (fun h => absurd h hint) _).1.trans hnumbers

theorem tightenMax_zero (h : i.openmax = true → i.max.toNat ≠ 0) :
    tightenMax i 0 true = ({ i with max := 0, openmax := true }, true) := by
  unfold tightenMax
  by_cases hlt : 0 < i.max
  · rw [if_pos hlt]
  · have hzero : i.max.toNat = 0 := by
      have hle : i.max.toNat ≤ 0 :=
        Nat.le_of_not_lt fun h => hlt (UInt32.lt_iff_toNat_lt.mpr h)
      omega
    have hmax : i.max = 0 := UInt32.toNat_inj.mp hzero
    have hopen : i.openmax = false := Bool.eq_false_iff.mpr fun hopen => h hopen hzero
    rw [if_neg hlt, if_pos ⟨hmax, hopen, rfl⟩, ← hmax]

/-- A request below zero leaves all integers from the lower bound on. -/
theorem intervalRefineMax_wraps (hi : i.numbers.Nonempty) (hint : i.integer = true)
    (hclosed : i.openmin = false) :
    intervalRefineMax i 0 true = ({ i with max := 4294967295, openmax := false }, 1) := by
  have hempty : i.empty = false := hi.some_mem.1
  have hvoid : ¬({ i with max := 4294967295, openmax := false } : SndInterval).Void := by
    rintro (h | ⟨h, h' | h'⟩)
    · have hlast : 4294967295 < i.min.toNat := UInt32.lt_iff_toNat_lt.mp h
      have := i.min.toNat_lt
      omega
    · rw [hclosed] at h'
      cases h'
    · cases h'
  unfold intervalRefineMax
  rw [if_neg (by rw [hempty]; exact Bool.false_ne_true), tightenMax_zero (max_ne_zero hi)]
  dsimp only
  rw [if_pos hint]
  have hpred : (0 : UInt32) - 1 = 4294967295 := by decide
  have hclose : closeMax { i with max := 0, openmax := true } =
      { i with max := 4294967295, openmax := false } := by
    simp only [closeMax, if_true, hpred]
  rw [hclose]
  unfold conclude
  rw [if_neg hvoid]
  rfl

end Blts.Alsa.Refine

namespace Blts.Alsa.Refine

open Blts.Lib

/-- The parameters of `struct snd_pcm_hw_params`.  The words of the masks come one mask after
the other, then whatever else lies behind the masks. -/
structure HwParams where
  masks : Words
  intervals : Nat → SndInterval
  cmask : BitVec 32
  rmask : BitVec 32

/-! ## The source -/

/-- From `SNDRV_PCM_HW_PARAM_FIRST_MASK` to the last one. -/
def IsMask (var : Int) : Prop := 0 ≤ var ∧ var ≤ 2

/-- From `SNDRV_PCM_HW_PARAM_FIRST_INTERVAL` to the last one. -/
def IsInterval (var : Int) : Prop := 8 ≤ var ∧ var ≤ 19

instance (var : Int) : Decidable (IsMask var) := inferInstanceAs (Decidable (_ ∧ _))

instance (var : Int) : Decidable (IsInterval var) := inferInstanceAs (Decidable (_ ∧ _))

/-- `hw_param_mask`. -/
def hwParamMask (params : HwParams) (var : Int) : Words := fun k =>
  params.masks (maskSize * var.toNat + k)

/-- `hw_param_interval`. -/
def hwParamInterval (params : HwParams) (var : Int) : SndInterval :=
  params.intervals (var.toNat - 8)

def putMask (params : HwParams) (var : Int) (mask : Words) : HwParams :=
  { params with masks := fun k =>
      if k < maskSize * var.toNat then params.masks k else mask (k - maskSize * var.toNat) }

def putInterval (params : HwParams) (var : Int) (i : SndInterval) : HwParams :=
  { params with intervals := fun k => if k = var.toNat - 8 then i else params.intervals k }

/-- The end of the requests: the parameter is marked if it has been changed. -/
def mark (params : HwParams) (var changed : Int) : HwParams :=
  if changed ≠ 0 then
    { params with
      cmask := params.cmask ||| 1#32 <<< var.toNat
      rmask := params.rmask ||| 1#32 <<< var.toNat }
  else params

/-- What a request does to a mask, or to an interval. -/
def refineParam (params : HwParams) (var : Int) (onMask : Words → Words × Int)
    (onInterval : SndInterval → SndInterval × Int) : HwParams × Int :=
  if IsMask var then
    let r := onMask (hwParamMask params var)
    (mark (putMask params var r.1) var r.2, r.2)
  else if IsInterval var then
    let r := onInterval (hwParamInterval params var)
    (mark (putInterval params var r.1) var r.2, r.2)
  else (params, -22)

/-- `memset` of a mask. -/
def maskNone (mask : Words) : Words := fun k => if k < maskSize then 0#32 else mask k

/-- `pcm_hw_param_set`, of a mask. -/
def setMask (val : UInt32) (dir : Int) (mask : Words) : Words × Int :=
  if val = 0 ∧ dir < 0 then (maskNone mask, -22)
  else
    let val := if 0 < dir then val + 1 else if dir < 0 then val - 1 else val
    maskRefineSet mask val.toNat

/-- `pcm_hw_param_set`, of an interval. -/
def setInterval (val : UInt32) (dir : Int) (i : SndInterval) : SndInterval × Int :=
  if val = 0 ∧ dir < 0 then ({ i with empty := true }, -22)
  else if dir = 0 then intervalRefineSet i val
  else if dir < 0 then intervalRefine i ⟨val - 1, val, true, true, false, false⟩
  else intervalRefine i ⟨val, val + 1, true, true, false, false⟩

/-- `pcm_hw_param_set`. -/
def pcmHwParamSet (params : HwParams) (var : Int) (val : UInt32) (dir : Int) : HwParams × Int :=
  refineParam params var (setMask val dir) (setInterval val dir)

/-- The lower bound, and whether it is excluded. -/
def adjustMin (min : UInt32) (mindir : Int) : UInt32 × Bool :=
  if 0 < mindir then (min, true)
  else if mindir < 0 ∧ 0 < min then (min - 1, true)
  else (min, false)

def adjustMax (max : UInt32) (maxdir : Int) : UInt32 × Bool :=
  if maxdir < 0 then (max, true)
  else if 0 < maxdir then (max + 1, true)
  else (max, false)

/-- Two refinements, of which the second is tried if the first one does not fail. -/
def refineBoth {Param : Type} (refineMin refineMax : Param → Param × Int) (param : Param) :
    Param × Int :=
  let r := refineMin param
  if r.2 < 0 then r
  else
    let s := refineMax r.1
    if s.2 < 0 then s else (s.1, if r.2 ≠ 0 ∨ s.2 ≠ 0 then 1 else 0)

/-- `pcm_hw_param_set_minmax`, of a mask. -/
def minmaxMask (min max : UInt32 × Bool) (mask : Words) : Words × Int :=
  if max.1 = 0 ∧ max.2 = true then (maskNone mask, -22)
  else
    refineBoth (maskRefineMin · (min.1 + if min.2 = true then 1 else 0).toNat)
      (maskRefineMax · (max.1 - if max.2 = true then 1 else 0).toNat) mask

/-- `pcm_hw_param_set_minmax`, of an interval. -/
def minmaxInterval (min max : UInt32 × Bool) (i : SndInterval) : SndInterval × Int :=
  refineBoth (intervalRefineMin · min.1 min.2) (intervalRefineMax · max.1 max.2) i

/-- `pcm_hw_param_set_minmax`. -/
def pcmHwParamSetMinmax (params : HwParams) (var : Int) (min : UInt32) (mindir : Int)
    (max : UInt32) (maxdir : Int) : HwParams × Int :=
  refineParam params var (minmaxMask (adjustMin min mindir) (adjustMax max maxdir))
    (minmaxInterval (adjustMin min mindir) (adjustMax max maxdir))

/-! ## What a request is to leave -/

/-- The number of a mask that is asked for. -/
def Picks (val : UInt32) (dir : Int) (n : Nat) : Prop := (n : Int) = val.toNat + dir.sign

/-- The numbers of an interval that are asked for. -/
def Around (val : UInt32) (dir : Int) (x : ℚ) : Prop :=
  if dir = 0 then x = val.toNat
  else if dir < 0 then (val.toNat : ℚ) - 1 < x ∧ x < val.toNat
  else (val.toNat : ℚ) < x ∧ x < val.toNat + 1

/-- The ends of a range. -/
def AtLeast (min : UInt32) (mindir : Int) (x : ℚ) : Prop :=
  if 0 < mindir then (min.toNat : ℚ) < x
  else if mindir < 0 then (min.toNat : ℚ) - 1 < x
  else (min.toNat : ℚ) ≤ x

def AtMost (max : UInt32) (maxdir : Int) (x : ℚ) : Prop :=
  if 0 < maxdir then x < max.toNat + 1
  else if maxdir < 0 then x < max.toNat
  else x ≤ max.toNat

/-- The addressed parameter is left with what it had of the request, and nothing else is
changed but its own marks. -/
structure LeavesParam (params left : HwParams) (var : Int) (number : Nat → Prop)
    (value : ℚ → Prop) : Prop where
  mask : IsMask var → Leaves (hwParamMask params var) (hwParamMask left var) number
  masks : ∀ k, (IsMask var → k < maskSize * var.toNat) → left.masks k = params.masks k
  interval : IsInterval var →
    (hwParamInterval left var).numbers = (hwParamInterval params var).numbers ∩ { x | value x }
  intervals : ∀ k, (IsInterval var → k ≠ var.toNat - 8) → left.intervals k = params.intervals k
  cmask : ∀ k : Nat, (k : Int) ≠ var → left.cmask.getLsbD k = params.cmask.getLsbD k
  rmask : ∀ k : Nat, (k : Int) ≠ var → left.rmask.getLsbD k = params.rmask.getLsbD k

theorem getLsbD_or_bit {word : BitVec 32} {var : Int} {k : Nat} (h : (k : Int) ≠ var)
    (hvar : 0 ≤ var) : (word ||| 1#32 <<< var.toNat).getLsbD k = word.getLsbD k := by
  have hne : var.toNat ≠ k := by omega
  rw [BitVec.getLsbD_or, BitVec.shiftLeft_eq_mul_twoPow, BitVec.one_mul, BitVec.getLsbD_twoPow,
    decide_eq_false hne, Bool.and_false, Bool.or_false]

/-- Only the marks of the parameter are set. -/
theorem mark_spec (params : HwParams) {var : Int} (hvar : 0 ≤ var) (changed : Int) :
    (mark params var changed).masks = params.masks ∧
    (mark params var changed).intervals = params.intervals ∧
    ∀ k : Nat, (k : Int) ≠ var →
      (mark params var changed).cmask.getLsbD k = params.cmask.getLsbD k ∧
      (mark params var changed).rmask.getLsbD k = params.rmask.getLsbD k := by
  unfold mark
  by_cases h : changed ≠ 0
  · rw [if_pos h]
    exact ⟨rfl, rfl, fun k hk => ⟨getLsbD_or_bit hk hvar, getLsbD_or_bit hk hvar⟩⟩
  · rw [if_neg h]
    exact ⟨rfl, rfl, fun k _ => ⟨rfl, rfl⟩⟩

section

variable {params : HwParams} {var : Int} {onMask : Words → Words × Int}
  {onInterval : SndInterval → SndInterval × Int} {number : Nat → Prop} {value : ℚ → Prop}

/-- A request is right if it is right for the mask or the interval. -/
theorem refineParam_leaves_iff :
    LeavesParam params (refineParam params var onMask onInterval).1 var number value ↔
      (IsMask var →
        Leaves (hwParamMask params var) (onMask (hwParamMask params var)).1 number) ∧
      (IsInterval var → (onInterval (hwParamInterval params var)).1.numbers =
        (hwParamInterval params var).numbers ∩ { x | value x }) := by
  by_cases hmask : IsMask var
  · have hnot : ¬IsInterval var := fun h => by
      unfold IsMask at hmask
      unfold IsInterval at h
      omega
    have hresult : refineParam params var onMask onInterval =
        (mark (putMask params var (onMask (hwParamMask params var)).1) var
          (onMask (hwParamMask params var)).2, (onMask (hwParamMask params var)).2) := if_pos hmask
    rw [hresult]
    generalize onMask (hwParamMask params var) = r
    obtain ⟨hmasks, hintervals, hmarks⟩ := mark_spec (putMask params var r.1) hmask.1 r.2
    have hleft : hwParamMask (mark (putMask params var r.1) var r.2) var = r.1 := by
      funext k
      rw [hwParamMask, hmasks, putMask]
      dsimp only
      rw [if_neg (by omega), Nat.add_sub_cancel_left]
    constructor
    · intro h
      refine ⟨fun _ => ?_, fun hvar => absurd hvar hnot⟩
      rw [← hleft]
      exact h.mask hmask
    · rintro ⟨h, -⟩
      refine ⟨fun _ => ?_, fun k hk => ?_, fun hvar => absurd hvar hnot, fun k _ => ?_,
        fun k hk => (hmarks k hk).1, fun k hk => (hmarks k hk).2⟩
      · rw [hleft]
        exact h hmask
      · rw [hmasks, putMask]
        exact if_pos (hk hmask)
      · rw [hintervals]
        rfl
  by_cases hinterval : IsInterval var
  · have hresult : refineParam params var onMask onInterval =
        (mark (putInterval params var (onInterval (hwParamInterval params var)).1) var
          (onInterval (hwParamInterval params var)).2,
          (onInterval (hwParamInterval params var)).2) :=
      (if_neg hmask).trans (if_pos hinterval)
    have hpos : 0 ≤ var := by
      have := hinterval.1
      omega
    rw [hresult]
    generalize onInterval (hwParamInterval params var) = r
    obtain ⟨hmasks, hintervals, hmarks⟩ := mark_spec (putInterval params var r.1) hpos r.2
    have hleft : hwParamInterval (mark (putInterval params var r.1) var r.2) var = r.1 := by
      rw [hwParamInterval, hintervals, putInterval]
      exact if_pos rfl
    constructor
    · intro h
      refine ⟨fun hvar => absurd hvar hmask, fun _ => ?_⟩
      rw [← hleft]
      exact h.interval hinterval
    · rintro ⟨-, h⟩
      refine ⟨fun hvar => absurd hvar hmask, fun k _ => ?_, fun _ => ?_, fun k hk => ?_,
        fun k hk => (hmarks k hk).1, fun k hk => (hmarks k hk).2⟩
      · rw [hmasks]
        rfl
      · rw [hleft]
        exact h hinterval
      · rw [hintervals, putInterval]
        exact if_neg (hk hinterval)
  · have hresult : refineParam params var onMask onInterval = (params, -22) :=
      (if_neg hmask).trans (if_neg hinterval)
    rw [hresult]
    refine iff_of_true ⟨fun h => absurd h hmask, fun _ _ => rfl, fun h => absurd h hinterval,
      fun _ _ => rfl, fun _ _ => rfl, fun _ _ => rfl⟩ ?_
    exact ⟨fun h => absurd h hmask, fun h => absurd h hinterval⟩

end

end Blts.Alsa.Refine
