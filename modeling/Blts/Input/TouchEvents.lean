import Blts.Lib.CNumbers

/-!
# Events of a touch device

What the tests of the touch devices share: the events, the ranges of the axes, and the distance of
a coordinate from the minimum of its axis, which is converted to `float` and back.
-/

namespace Blts.Input

open Lib

/-- `struct input_event`, without its time. -/
structure InputEvent where
  type : Nat
  code : Nat
  value : Int
  deriving DecidableEq

/-- `struct input_absinfo`: the limits of an axis. -/
structure InputAbsinfo where
  minimum : Int
  maximum : Int

/-- The length of the axis. -/
def InputAbsinfo.range (axis : InputAbsinfo) : Int :=
  axis.maximum - axis.minimum

/-- `EV_SYN` -/
def evSyn : Nat := 0

/-- `EV_KEY` -/
def evKey : Nat := 1

/-- `EV_ABS` -/
def evAbs : Nat := 3

/-- `SYN_REPORT` -/
def synReport : Nat := 0

/-- `SYN_MT_REPORT` -/
def synMtReport : Nat := 2

/-- `BTN_TOUCH` -/
def btnTouch : Nat := 0x14a

/-- `ABS_X` -/
def absX : Nat := 0

/-- `ABS_Y` -/
def absY : Nat := 1

/-- `ABS_MT_POSITION_X` -/
def absMtPositionX : Nat := 0x35

/-- `ABS_MT_POSITION_Y` -/
def absMtPositionY : Nat := 0x36

/-- The event has this type and this code. -/
def InputEvent.is (e : InputEvent) (type code : Nat) : Bool :=
  e.type == type && e.code == code

/-- An `int` as a `float`, in an `int` again. -/
def throughFloat (d : Int) : Option Int :=
  cInt (roundToBits 24 d)

/-- `(float)(value - minimum)` in an `int`. -/
def axisDistance (axis : InputAbsinfo) (value : Int) : Option Int := do
  let d ← cInt (value - axis.minimum)
  throughFloat d

/-- The distance is an `int`, and one that a `float` has. -/
def ExactDistance (axis : InputAbsinfo) (value : Int) : Prop :=
  IsInt (value - axis.minimum) ∧ roundToBits 24 (value - axis.minimum) = value - axis.minimum

instance (axis : InputAbsinfo) (value : Int) : Decidable (ExactDistance axis value) :=
  inferInstanceAs (Decidable (_ ∧ _))

theorem axisDistance_eq {axis : InputAbsinfo} {value : Int} (h : ExactDistance axis value) :
    axisDistance axis value = some (value - axis.minimum) := by
  rw [axisDistance, Option.bind_eq_bind, cInt_of h.1, Option.bind_some, throughFloat, h.2,
    cInt_of h.1]

/-- A distance of less than twenty-five bits is exact. -/
theorem exactDistance_of_lt {axis : InputAbsinfo} {value : Int}
    (h : (value - axis.minimum).natAbs < 16777216) : ExactDistance axis value :=
  ⟨⟨by omega, by omega⟩, roundToBits_eq (p := 24) (by decide) h⟩

/-! ## The limits of the axes -/

/-- What the device answers to `EVIOCGABS`, or the `errno` of the call. -/
structure TouchDevice where
  mtPositionX : Except Int InputAbsinfo
  mtPositionY : Except Int InputAbsinfo
  x : Except Int InputAbsinfo
  y : Except Int InputAbsinfo

/-- `EINVAL` -/
def einval : Int := 22

/-- The limits of an axis if the maximum is above the minimum. -/
def checkLimits (axis : Except Int InputAbsinfo) : Option (Except Int InputAbsinfo) :=
  match axis with
  | .error errno => some (.error (-errno))
  | .ok axis => do
    let range ← cInt axis.range
    return if range ≤ 0 then .error (-einval) else .ok axis

/-- `get_absolute_limits`: the axes, and whether they are those of a multi-touch device. -/
def getAbsoluteLimits (dev : TouchDevice) :
    Option (Except Int (InputAbsinfo × InputAbsinfo × Bool)) :=
  match dev.mtPositionX with
  | .error errno => some (.error (-errno))
  | .ok first => do
    let mt := !(first.minimum == 0 && first.maximum == 0)
    match ← checkLimits (if mt then .ok first else dev.x) with
    | .error ret => return .error ret
    | .ok axisX =>
      match ← checkLimits (if mt then dev.mtPositionY else dev.y) with
      | .error ret => return .error ret
      | .ok axisY => return .ok (axisX, axisY, mt)

/-- An axis with a range that is a positive `int`. -/
def InputAbsinfo.Ranges (axis : InputAbsinfo) : Prop :=
  0 < axis.range ∧ axis.range ≤ 2147483647

theorem InputAbsinfo.Ranges.isInt {axis : InputAbsinfo} (h : axis.Ranges) : IsInt axis.range :=
  ⟨Int.le_trans (by decide) (Int.le_of_lt h.1), h.2⟩

theorem ranges_of_checkLimits {axis : Except Int InputAbsinfo} {result : InputAbsinfo}
    (h : checkLimits axis = some (.ok result)) : result.Ranges := by
  cases axis with
  | error errno => cases h
  | ok axis =>
    obtain ⟨hint, hrange⟩ := cInt_bind_eq_some.mp h
    by_cases hle : axis.range ≤ 0
    · rw [if_pos hle] at hrange
      cases hrange
    · rw [if_neg hle] at hrange
      cases hrange
      exact ⟨Int.not_le.mp hle, hint.2⟩

/-- The limits that are handed on are those of axes with a range. -/
theorem ranges_of_getAbsoluteLimits {dev : TouchDevice} {axisX axisY : InputAbsinfo} {mt : Bool}
    (h : getAbsoluteLimits dev = some (.ok (axisX, axisY, mt))) :
    axisX.Ranges ∧ axisY.Ranges := by
  unfold getAbsoluteLimits at h
  cases hfirst : dev.mtPositionX with
  | error errno =>
    rw [hfirst] at h
    cases h
  | ok first =>
    rw [hfirst] at h
    obtain ⟨x, hx, hrest⟩ := Option.bind_eq_some_iff.mp h
    cases x with
    | error ret => cases hrest
    | ok x =>
      obtain ⟨y, hy, hlast⟩ := Option.bind_eq_some_iff.mp hrest
      cases y with
      | error ret => cases hlast
      | ok y =>
        cases hlast
        exact ⟨ranges_of_checkLimits hx, ranges_of_checkLimits hy⟩

end Blts.Input
