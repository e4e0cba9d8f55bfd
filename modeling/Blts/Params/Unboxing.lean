import Mathlib.Logic.Function.Iterate
import Blts.Params.BoxedValue

/-!
# What comes out of a boxed value

Each getter asserts that the type code can be cast to its own, and reads the member of the union
that its own code goes with.  The cases of `__boxed_value_can_cast` fall through: a getter of the
whole numbers accepts the type codes of the others as well, and then reads a member that nobody
has stored.  All other pairs of a constructor and a getter either fail the assertion or give the
value back (`roundTrip_iff`).
-/

namespace Blts.Params

/-! ## The code -/

/-- `blts_config_boxed_value_new_string_take`. -/
def bltsConfigBoxedValueNewStringTake (v : String) : BoxedValue := .string v

/-- `__boxed_value_can_cast`. -/
def boxedValueCanCast (type : ConfigParam) : ConfigParam → Bool
  | .int | .long | .bool =>
    if type = .int ∨ type = .long ∨ type = .bool then true
    -- There is no `break`.
    else if type = .float ∨ type = .double then true
    else false
  | .float | .double => if type = .float ∨ type = .double then true else false
  | .string => false

namespace BoxedValue

/-- The member `int_val`. -/
def intVal : BoxedValue → Except Fault Int
  | .int v | .long v | .bool v => .ok v
  | _ => .error .wrongMember

/-- The member `float_val`. -/
def floatVal : BoxedValue → Except Fault Double
  | .float v | .double v => .ok v
  | _ => .error .wrongMember

/-- The member `str_val`. -/
def strVal : BoxedValue → Except Fault String
  | .string v => .ok v
  | _ => .error .wrongMember

end BoxedValue

/-- The conversions between the C types, with the type `float`. -/
structure Conversions (F : Type) where
  longToInt : Int → Int
  longToFloat : Int → F
  longToDouble : Int → Double
  doubleToFloat : Double → F
  /-- None for a number that the type does not have. -/
  doubleToInt : Double → Option Int
  doubleToLong : Double → Option Int

/-- `BOXED_VALUE_GETTER`. -/
def boxedValueGetter {α β : Type} (cast : α → β) (name : ConfigParam)
    (storage : BoxedValue → Except Fault α) (val : BoxedValue) : Except Fault β :=
  if boxedValueCanCast val.type name then
    (storage val).map cast
  else
    .error .assertFailed

section

variable {F : Type} (conv : Conversions F)

def bltsConfigBoxedValueGetInt : BoxedValue → Except Fault Int :=
  boxedValueGetter conv.longToInt .int BoxedValue.intVal

def bltsConfigBoxedValueGetLong : BoxedValue → Except Fault Int :=
  boxedValueGetter id .long BoxedValue.intVal

def bltsConfigBoxedValueGetBool : BoxedValue → Except Fault Int :=
  boxedValueGetter conv.longToInt .bool BoxedValue.intVal

def bltsConfigBoxedValueGetFloat : BoxedValue → Except Fault F :=
  boxedValueGetter conv.doubleToFloat .float BoxedValue.floatVal

def bltsConfigBoxedValueGetDouble : BoxedValue → Except Fault Double :=
  boxedValueGetter id .double BoxedValue.floatVal

def bltsConfigBoxedValueGetString (val : BoxedValue) : Except Fault String :=
  if val.type = .string then val.strVal else .error .assertFailed

/-- `blts_config_boxed_value_dup`; a copy of a string has the same characters. -/
def bltsConfigBoxedValueDup (v : BoxedValue) : BoxedValue :=
  match v with
  | .string strVal => .string strVal
  | val => val

/-! ## Boxing and unboxing -/

/-- A constructor with its value. -/
inductive Boxing where
  | int (v : Int)
  | long (v : Int)
  | bool (v : Int)
  | float (v : Double)
  | double (v : Double)
  | string (v : String)
  | stringTake (v : String)

/-- What a getter returns. -/
inductive Unboxed (F : Type) where
  | int (v : Int)
  | long (v : Int)
  | float (v : F)
  | double (v : Double)
  | string (v : String)

/-- The value that a constructor returns. -/
def Boxing.box : Boxing → BoxedValue
  | .int v => bltsConfigBoxedValueNewInt v
  | .long v => bltsConfigBoxedValueNewLong v
  | .bool v => bltsConfigBoxedValueNewBool v
  | .float v => bltsConfigBoxedValueNewFloat v
  | .double v => bltsConfigBoxedValueNewDouble v
  | .string v => bltsConfigBoxedValueNewString v
  | .stringTake v => bltsConfigBoxedValueNewStringTake v

/-- The getter with this name. -/
def unbox (val : BoxedValue) : ConfigParam → Except Fault (Unboxed F)
  | .int => (bltsConfigBoxedValueGetInt conv val).map .int
  | .long => (bltsConfigBoxedValueGetLong val).map .long
  | .bool => (bltsConfigBoxedValueGetBool conv val).map .int
  | .float => (bltsConfigBoxedValueGetFloat conv val).map .float
  | .double => (bltsConfigBoxedValueGetDouble val).map .double
  | .string => (bltsConfigBoxedValueGetString val).map .string

/-- The value of a constructor, converted to the C type of the getter with this name. -/
def Boxing.converted : Boxing → ConfigParam → Option (Unboxed F)
  | .int v, .int | .long v, .int | .bool v, .int => some (.int (conv.longToInt v))
  | .int v, .bool | .long v, .bool | .bool v, .bool => some (.int (conv.longToInt v))
  | .int v, .long | .long v, .long | .bool v, .long => some (.long v)
  | .int v, .float | .long v, .float | .bool v, .float => some (.float (conv.longToFloat v))
  | .int v, .double | .long v, .double | .bool v, .double => some (.double (conv.longToDouble v))
  | .float v, .int | .double v, .int => (conv.doubleToInt v).map .int
  | .float v, .bool | .double v, .bool => (conv.doubleToInt v).map .int
  | .float v, .long | .double v, .long => (conv.doubleToLong v).map .long
  | .float v, .float | .double v, .float => some (.float (conv.doubleToFloat v))
  | .float v, .double | .double v, .double => some (.double v)
  | .string v, .string | .stringTake v, .string => some (.string v)
  | _, _ => none

/-- The assertion of the getter fails, or it returns the value of the constructor in its own
type, after so many copies. -/
def RoundTrips (b : Boxing) (copies : Nat) (name : ConfigParam) : Prop :=
  unbox conv (bltsConfigBoxedValueDup^[copies] b.box) name = .error .assertFailed ∨
    ∃ v, b.converted conv name = some v ∧
      unbox conv (bltsConfigBoxedValueDup^[copies] b.box) name = .ok v

/-- The constructor stores a `double`. -/
def Boxing.StoresDouble : Boxing → Prop
  | .float _ | .double _ => True
  | _ => False

theorem bltsConfigBoxedValueDup_eq (v : BoxedValue) : bltsConfigBoxedValueDup v = v := by
  cases v <;> rfl

/-- A copy of a copy is the value again. -/
theorem iterate_bltsConfigBoxedValueDup (v : BoxedValue) (copies : Nat) :
    bltsConfigBoxedValueDup^[copies] v = v :=
  Function.iterate_fixed (bltsConfigBoxedValueDup_eq v) copies

/-- The getters of the whole numbers accept a `double`, and read another member. -/
theorem unbox_wrongMember {b : Boxing} {name : ConfigParam} (hb : b.StoresDouble)
    (hname : name = .int ∨ name = .long ∨ name = .bool) :
    unbox conv b.box name = .error .wrongMember := by
  cases b with
  | float v => rcases hname with rfl | rfl | rfl <;> rfl
  | double v => rcases hname with rfl | rfl | rfl <;> rfl
  | int v => exact hb.elim
  | long v => exact hb.elim
  | bool v => exact hb.elim
  | string v => exact hb.elim
  | stringTake v => exact hb.elim

/-- A whole number comes out of its own getters, and of no others. -/
theorem unbox_whole {b : Boxing} {v : Int} (hb : b = .int v ∨ b = .long v ∨ b = .bool v)
    (name : ConfigParam) : unbox conv b.box name = .error .assertFailed ∨
      ∃ u, b.converted conv name = some u ∧ unbox conv b.box name = .ok u := by
  rcases hb with rfl | rfl | rfl <;> cases name with
  | int => exact .inr ⟨_, rfl, rfl⟩
  | long => exact .inr ⟨_, rfl, rfl⟩
  | bool => exact .inr ⟨_, rfl, rfl⟩
  | float => exact .inl rfl
  | double => exact .inl rfl
  | string => exact .inl rfl

/-- A string comes out of its own getter, and of no other. -/
theorem unbox_string {b : Boxing} {v : String} (hb : b = .string v ∨ b = .stringTake v)
    (name : ConfigParam) : unbox conv b.box name = .error .assertFailed ∨
      ∃ u, b.converted conv name = some u ∧ unbox conv b.box name = .ok u := by
  rcases hb with rfl | rfl <;> cases name with
  | string => exact .inr ⟨_, rfl, rfl⟩
  | int => exact .inl rfl
  | long => exact .inl rfl
  | bool => exact .inl rfl
  | float => exact .inl rfl
  | double => exact .inl rfl

/-- A `double` comes out of its own getters; the getter of the strings fails. -/
theorem unbox_double {b : Boxing} {v : Double} (hb : b = .float v ∨ b = .double v)
    {name : ConfigParam} (hname : ¬(name = .int ∨ name = .long ∨ name = .bool)) :
    unbox conv b.box name = .error .assertFailed ∨
      ∃ u, b.converted conv name = some u ∧ unbox conv b.box name = .ok u := by
  rcases hb with rfl | rfl <;> cases name with
  | float => exact .inr ⟨_, rfl, rfl⟩
  | double => exact .inr ⟨_, rfl, rfl⟩
  | string => exact .inl rfl
  | int => exact absurd (.inl rfl) hname
  | long => exact absurd (.inr (.inl rfl)) hname
  | bool => exact absurd (.inr (.inr rfl)) hname

/-- The value comes back, or the assertion fails, for all constructors, values, copies and getters
but those that take a `double` for a whole number. -/
theorem roundTrips_iff (b : Boxing) (copies : Nat) (name : ConfigParam) :
    RoundTrips conv b copies name ↔
      ¬(b.StoresDouble ∧ (name = .int ∨ name = .long ∨ name = .bool)) := by
  rw [RoundTrips, iterate_bltsConfigBoxedValueDup]
  constructor
  · rintro htrip ⟨hb, hname⟩
    rw [unbox_wrongMember conv hb hname] at htrip
    rcases htrip with hassert | ⟨u, -, hok⟩
    · cases hassert
    · cases hok
  · intro hnot
    cases b with
    | int v => exact unbox_whole conv (.inl rfl) name
    | long v => exact unbox_whole conv (.inr (.inl rfl)) name
    | bool v => exact unbox_whole conv (.inr (.inr rfl)) name
    | string v => exact unbox_string conv (.inl rfl) name
    | stringTake v => exact unbox_string conv (.inr rfl) name
    | float v => exact unbox_double conv (.inl rfl) fun hname => hnot ⟨trivial, hname⟩
    | double v => exact unbox_double conv (.inr rfl) fun hname => hnot ⟨trivial, hname⟩

end

/-- One and a half, boxed as a `double` and taken out as an `int`: the bits of the `double` are
read as a whole number. -/
theorem newDouble_getInt :
    (∀ conv : Conversions Double, bltsConfigBoxedValueGetInt conv
        (bltsConfigBoxedValueNewDouble ⟨0x3ff8000000000000⟩) = .error .wrongMember) ∧
      ∀ conv : Conversions Double,
        ¬RoundTrips conv (.double ⟨0x3ff8000000000000⟩) 0 .int := by
  refine ⟨fun _ => rfl, ?_⟩
  rintro conv (hassert | ⟨u, -, hok⟩)
  · cases hassert
  · cases hok

end Blts.Params
