import Blts.Input.TouchEvents

/-!
# Waiting for a touch in a rectangle

The rectangles of the test of a single touch are given in parts of the screen, and
`wait_for_st_event` scales them to the ranges of the axes.  The products are `int`s.  Where they do
not overflow, the ranges are so small that no coordinate is rounded on its way through `float`,
and a touch is accepted just where it should be (`acceptsExactly_iff`).
-/

namespace Blts.Input

open Lib

/-- `REL_MUL` -/
def relMul : Int := 0xFFFF

/-- The bounds that `wait_for_st_event` is called with. -/
structure Target where
  xMin : Int
  yMin : Int
  xMax : Int
  yMax : Int
  deriving DecidableEq

/-- The rectangles of `input_single_touch_test`: the quarters of the screen in their order. -/
def targets : List Target :=
  [⟨0, 0, relMul / 2, relMul / 2⟩, ⟨relMul / 2, 0, relMul, relMul / 2⟩,
    ⟨relMul / 2, relMul / 2, relMul, relMul⟩, ⟨0, relMul / 2, relMul / 2, relMul⟩]

/-- What has been read of a touch. -/
structure Touch where
  x : Int
  y : Int
  gotX : Bool
  gotY : Bool
  gotPress : Bool

namespace Touch

def initial : Touch where
  x := -1
  y := -1
  gotX := false
  gotY := false
  gotPress := false

/-- An event, of a multi-touch device or of another. -/
def event (mt : Bool) (s : Touch) (e : InputEvent) : Touch :=
  if e.is evKey btnTouch then
    { s with gotPress := true }
  else if e.is evAbs (if mt then absMtPositionX else absX) then
    { s with x := e.value, gotX := true }
  else if e.is evAbs (if mt then absMtPositionY else absY) then
    { s with y := e.value, gotY := true }
  else
    s

/-- Both coordinates and a press have been seen. -/
def complete (s : Touch) : Bool :=
  s.gotX && s.gotY && s.gotPress

end Touch

/-- A bound in the units of an axis. -/
def scale (range bound : Int) : Option Int := do
  let product ← cInt (range * bound)
  return product.tdiv relMul

section

variable (swapXy : Bool) (axisX axisY : InputAbsinfo)

/-- The axis that goes across the screen. -/
def acrossAxis : InputAbsinfo :=
  if swapXy then axisY else axisX

/-- The axis that goes down the screen. -/
def downAxis : InputAbsinfo :=
  if swapXy then axisX else axisY

/-- Whether a touch is inside the scaled rectangle: what `wait_for_st_event` returns. -/
def decideTouch (xMin yMin xMax yMax x y : Int) : Option Int := do
  let distX ← axisDistance axisX x
  let distY ← axisDistance axisY y
  let across := if swapXy then distY else distX
  let down := if swapXy then distX else distY
  return if xMin ≤ across ∧ across ≤ xMax ∧ yMin ≤ down ∧ down ≤ yMax then 0 else -1

end

/-- The loop of `wait_for_st_event`, over what the reads within thirty seconds return: an error,
or events, or none. -/
def waitLoop (mt : Bool) (verdict : Int → Int → Option Int) (s : Touch) :
    List (Except Int (List InputEvent)) → Option Int
  | [] => some (-1)
  | .error rb :: _ => some rb
  | .ok [] :: reads => waitLoop mt verdict s reads
  | .ok (e :: chunk) :: reads =>
    let s := (e :: chunk).foldl (Touch.event mt) s
    if s.complete then verdict s.x s.y else waitLoop mt verdict s reads

/-- `wait_for_st_event`, on a device that can be opened and grabbed. -/
def waitForStEvent (dev : TouchDevice) (swapXy : Bool) (target : Target)
    (reads : List (Except Int (List InputEvent))) : Option Int := do
  match ← getAbsoluteLimits dev with
  | .error ret => return ret
  | .ok (axisX, axisY, mt) =>
    let across := acrossAxis swapXy axisX axisY
    let down := downAxis swapXy axisX axisY
    let w ← cInt across.range
    let h ← cInt down.range
    let xMin ← scale w target.xMin
    let yMin ← scale h target.yMin
    let xMax ← scale w target.xMax
    let yMax ← scale h target.yMax
    waitLoop mt (decideTouch swapXy axisX axisY xMin yMin xMax yMax) .initial reads

/-! ## What should be accepted -/

/-- The touch that the reads report: the last coordinates of the first chunk that completes it. -/
def reportedTouch (mt : Bool) (s : Touch) : List (Except Int (List InputEvent)) → Option (Int × Int)
  | [] => none
  | .error _ :: _ => none
  | .ok chunk :: reads =>
    let s := chunk.foldl (Touch.event mt) s
    if s.complete then some (s.x, s.y) else reportedTouch mt s reads

/-- A point is inside the range of an axis. -/
def InputAbsinfo.Contains (axis : InputAbsinfo) (value : Int) : Prop :=
  axis.minimum ≤ value ∧ value ≤ axis.maximum

/-- A distance between the exact integer parts of two bounds. -/
def Between (axis : InputAbsinfo) (value lower upper : Int) : Prop :=
  axis.range * lower / relMul ≤ value - axis.minimum ∧
    value - axis.minimum ≤ axis.range * upper / relMul

/-- The touch is inside the rectangle. -/
def InTarget (swapXy : Bool) (axisX axisY : InputAbsinfo) (target : Target) (x y : Int) : Prop :=
  if swapXy then
    Between axisY y target.xMin target.xMax ∧ Between axisX x target.yMin target.yMax
  else
    Between axisX x target.xMin target.xMax ∧ Between axisY y target.yMin target.yMax

/-- The touch is accepted just where it is inside the rectangle, no product overflows, and no
coordinate is rounded. -/
def AcceptsExactly (dev : TouchDevice) (swapXy : Bool) (target : Target)
    (reads : List (Except Int (List InputEvent))) (axisX axisY : InputAbsinfo) (x y : Int) : Prop :=
  (∃ ret, waitForStEvent dev swapXy target reads = some ret ∧
    (ret = 0 ↔ InTarget swapXy axisX axisY target x y)) ∧
    ExactDistance axisX x ∧ ExactDistance axisY y

/-- The largest product of each axis is an `int`. -/
def ProductsFit (swapXy : Bool) (axisX axisY : InputAbsinfo) (target : Target) : Prop :=
  (acrossAxis swapXy axisX axisY).range * target.xMax ≤ 2147483647 ∧
    (downAxis swapXy axisX axisY).range * target.yMax ≤ 2147483647

theorem scale_eq_some_iff {range bound r : Int} (hrange : 0 < range) (hbound : 0 ≤ bound) :
    scale range bound = some r ↔ range * bound ≤ 2147483647 ∧ range * bound / relMul = r := by
  have hnonneg : 0 ≤ range * bound := Int.mul_nonneg (Int.le_of_lt hrange) hbound
  have hdiv : (range * bound).tdiv relMul = range * bound / relMul :=
    Int.tdiv_eq_ediv_of_nonneg hnonneg
  rw [scale, Option.bind_eq_bind, cInt_bind_eq_some, hdiv, Option.pure_def, Option.some.injEq]
  exact and_congr_left fun _ => ⟨fun h => h.2, fun h => ⟨by omega, h⟩⟩

/-- The bounds of the rectangles are in order, and the upper ones at least half the screen. -/
theorem targets_bounds : ∀ t ∈ targets, 0 ≤ t.xMin ∧ t.xMin ≤ t.xMax ∧ 32767 ≤ t.xMax ∧
    0 ≤ t.yMin ∧ t.yMin ≤ t.yMax ∧ 32767 ≤ t.yMax := by
  decide

/-- The loop ends with the verdict on the reported touch. -/
theorem waitLoop_of_reported {mt : Bool} {verdict : Int → Int → Option Int} {x y : Int}
    (reads : List (Except Int (List InputEvent))) : ∀ {s : Touch}, s.complete = false →
      reportedTouch mt s reads = some (x, y) → waitLoop mt verdict s reads = verdict x y := by
  induction reads with
  | nil => exact fun _ h => by cases h
  | cons read reads ih =>
    intro s hs h
    cases read with
    | error rb => cases h
    | ok chunk =>
      cases chunk with
      | nil =>
        rw [reportedTouch, List.foldl_nil, hs] at h
        exact ih hs h
      | cons e chunk =>
        rw [reportedTouch] at h
        rw [waitLoop]
        cases hcomplete : ((e :: chunk).foldl (Touch.event mt) s).complete with
        | true =>
          rw [hcomplete] at h
          cases h
          rfl
        | false =>
          rw [hcomplete] at h
          exact ih hcomplete h

section

variable {dev : TouchDevice} {swapXy mt : Bool} {axisX axisY : InputAbsinfo} {target : Target}
  {reads : List (Except Int (List InputEvent))} {x y : Int}

theorem ranges_of_axes (swapXy : Bool) (h : axisX.Ranges ∧ axisY.Ranges) :
    (acrossAxis swapXy axisX axisY).Ranges ∧ (downAxis swapXy axisX axisY).Ranges := by
  cases swapXy with
  | true => exact h.symm
  | false => exact h

/-- Scaling goes through where the largest products are `int`s, and gives the exact bounds. -/
theorem waitForStEvent_eq_some_iff
    (hlimits : getAbsoluteLimits dev = some (.ok (axisX, axisY, mt))) (htarget : target ∈ targets)
    (hreported : reportedTouch mt .initial reads = some (x, y)) {ret : Int} :
    waitForStEvent dev swapXy target reads = some ret ↔
      ProductsFit swapXy axisX axisY target ∧
        decideTouch swapXy axisX axisY
          ((acrossAxis swapXy axisX axisY).range * target.xMin / relMul)
          ((downAxis swapXy axisX axisY).range * target.yMin / relMul)
          ((acrossAxis swapXy axisX axisY).range * target.xMax / relMul)
          ((downAxis swapXy axisX axisY).range * target.yMax / relMul) x y = some ret := by
  obtain ⟨hxMin, hxLe, -, hyMin, hyLe, -⟩ := targets_bounds target htarget
  obtain ⟨hacross, hdown⟩ := ranges_of_axes swapXy (ranges_of_getAbsoluteLimits hlimits)
  have hsmall {range lower upper : Int} (hr : 0 < range) (hle : lower ≤ upper)
      (h : range * upper ≤ 2147483647) : range * lower ≤ 2147483647 :=
    Int.le_trans (Int.mul_le_mul_of_nonneg_left hle (Int.le_of_lt hr)) h
  rw [waitForStEvent, hlimits]
  simp only [Option.bind_eq_bind, Option.bind_some, cInt_of hacross.isInt, cInt_of hdown.isInt,
    Option.bind_eq_some_iff, scale_eq_some_iff hacross.1 hxMin, scale_eq_some_iff hdown.1 hyMin,
    scale_eq_some_iff hacross.1 (Int.le_trans hxMin hxLe),
    scale_eq_some_iff hdown.1 (Int.le_trans hyMin hyLe), waitLoop_of_reported reads rfl hreported]
  constructor
  · rintro ⟨_, ⟨-, rfl⟩, _, ⟨-, rfl⟩, _, ⟨hx, rfl⟩, _, ⟨hy, rfl⟩, hdecide⟩
    exact ⟨⟨hx, hy⟩, hdecide⟩
  · rintro ⟨⟨hx, hy⟩, hdecide⟩
    exact ⟨_, ⟨hsmall hacross.1 hxLe hx, rfl⟩, _, ⟨hsmall hdown.1 hyLe hy, rfl⟩, _, ⟨hx, rfl⟩, _,
      ⟨hy, rfl⟩, hdecide⟩

/-- Where the products fit, the points inside the ranges have few bits. -/
theorem exactDistance_of_productsFit
    (hlimits : getAbsoluteLimits dev = some (.ok (axisX, axisY, mt))) (htarget : target ∈ targets)
    (hfit : ProductsFit swapXy axisX axisY target) (hx : axisX.Contains x)
    (hy : axisY.Contains y) : ExactDistance axisX x ∧ ExactDistance axisY y := by
  obtain ⟨-, -, hxMax, -, -, hyMax⟩ := targets_bounds target htarget
  obtain ⟨hrangeX, hrangeY⟩ := ranges_of_getAbsoluteLimits hlimits
  have hbound {range upper : Int} (hr : 0 < range) (hle : 32767 ≤ upper)
      (h : range * upper ≤ 2147483647) : range * 32767 ≤ 2147483647 :=
    Int.le_trans (Int.mul_le_mul_of_nonneg_left hle (Int.le_of_lt hr)) h
  have hboth : axisX.range * 32767 ≤ 2147483647 ∧ axisY.range * 32767 ≤ 2147483647 := by
    unfold ProductsFit acrossAxis downAxis at hfit
    cases swapXy with
    | true => exact ⟨hbound hrangeX.1 hyMax hfit.2, hbound hrangeY.1 hxMax hfit.1⟩
    | false => exact ⟨hbound hrangeX.1 hxMax hfit.1, hbound hrangeY.1 hyMax hfit.2⟩
  have hexact {axis : InputAbsinfo} {value : Int} (h : axis.range * 32767 ≤ 2147483647)
      (hmem : axis.Contains value) : ExactDistance axis value := by
    obtain ⟨hlow, hhigh⟩ := hmem
    rw [InputAbsinfo.range] at h
    exact exactDistance_of_lt (by omega)
  exact ⟨hexact hboth.1 hx, hexact hboth.2 hy⟩

/-- With exact distances the verdict is on the rectangle with the exact bounds. -/
theorem decideTouch_eq (swapXy : Bool) (target : Target) (hx : ExactDistance axisX x)
    (hy : ExactDistance axisY y) :
    ∃ ret, decideTouch swapXy axisX axisY
        ((acrossAxis swapXy axisX axisY).range * target.xMin / relMul)
        ((downAxis swapXy axisX axisY).range * target.yMin / relMul)
        ((acrossAxis swapXy axisX axisY).range * target.xMax / relMul)
        ((downAxis swapXy axisX axisY).range * target.yMax / relMul) x y = some ret ∧
      (ret = 0 ↔ InTarget swapXy axisX axisY target x y) := by
  have hzero {p : Prop} [Decidable p] : (if p then (0 : Int) else -1) = 0 ↔ p := by
    split
    · exact iff_of_true rfl ‹p›
    · exact iff_of_false (by decide) ‹¬p›
  rw [decideTouch, axisDistance_eq hx, axisDistance_eq hy]
  refine ⟨_, rfl, hzero.trans ?_⟩
  cases swapXy with
  | true => exact and_assoc.symm
  | false => exact and_assoc.symm

/-- A touch inside the ranges is accepted exactly where it should be if and only if the products of
the ranges and the upper bounds are `int`s. -/
theorem acceptsExactly_iff
    (hlimits : getAbsoluteLimits dev = some (.ok (axisX, axisY, mt))) (htarget : target ∈ targets)
    (hreported : reportedTouch mt .initial reads = some (x, y)) (hx : axisX.Contains x)
    (hy : axisY.Contains y) :
    AcceptsExactly dev swapXy target reads axisX axisY x y ↔
      ProductsFit swapXy axisX axisY target := by
  constructor
  · rintro ⟨⟨ret, hret, -⟩, -⟩
    exact ((waitForStEvent_eq_some_iff hlimits htarget hreported).mp hret).1
  · intro hfit
    obtain ⟨hexactX, hexactY⟩ := exactDistance_of_productsFit hlimits htarget hfit hx hy
    obtain ⟨ret, hdecide, hiff⟩ := decideTouch_eq swapXy target hexactX hexactY
    exact ⟨⟨ret, (waitForStEvent_eq_some_iff hlimits htarget hreported).mpr ⟨hfit, hdecide⟩, hiff⟩,
      hexactX, hexactY⟩

end

/-- A device with axes from zero on. -/
def panel (maxX maxY : Int) : TouchDevice where
  mtPositionX := .ok ⟨0, 0⟩
  mtPositionY := .ok ⟨0, 0⟩
  x := .ok ⟨0, maxX⟩
  y := .ok ⟨0, maxY⟩

/-- The events of a press. -/
def press (x y : Int) : List InputEvent :=
  [⟨evKey, btnTouch, 1⟩, ⟨evAbs, absX, x⟩, ⟨evAbs, absY, y⟩, ⟨evSyn, synReport, 0⟩]

/-- A touch in the upper left quarter of a small panel. -/
theorem acceptsExactly_small :
    AcceptsExactly (panel 1023 599) false ⟨0, 0, 32767, 32767⟩ [.ok [], .ok (press 100 50)]
        ⟨0, 1023⟩ ⟨0, 599⟩ 100 50 ↔
      ProductsFit false ⟨0, 1023⟩ ⟨0, 599⟩ ⟨0, 0, 32767, 32767⟩ :=
  acceptsExactly_iff (show getAbsoluteLimits (panel 1023 599) = some (.ok (_, _, false)) from rfl)
    (by decide) rfl ⟨by decide, by decide⟩ ⟨by decide, by decide⟩

/-- A touch in the upper right quarter of a panel with axes of sixteen bits: the product
overflows. -/
theorem sixteen_bits_overflow :
    waitForStEvent (panel 65535 65535) false ⟨32767, 0, 65535, 32767⟩ [.ok (press 60000 100)] =
        none ∧
      ¬AcceptsExactly (panel 65535 65535) false ⟨32767, 0, 65535, 32767⟩
        [.ok (press 60000 100)] ⟨0, 65535⟩ ⟨0, 65535⟩ 60000 100 := by
  have hnone : waitForStEvent (panel 65535 65535) false ⟨32767, 0, 65535, 32767⟩
      [.ok (press 60000 100)] = none := rfl
  refine ⟨hnone, ?_⟩
  rintro ⟨⟨ret, hret, -⟩, -⟩
  cases hnone.symm.trans hret

end Blts.Input
