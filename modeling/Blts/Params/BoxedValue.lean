import Blts.Fault

/-!
# Boxed values

`struct boxed_value` is a type code, a union and a `next` pointer.  Each
constructor of `BoxedValue` is a type code together with the member of the
union that the code goes with; the `next` pointer is not kept, because lists of
boxed values are lists.

Every constructor function of the source takes the C type of its name, but the
type code it stores is chosen by hand: `boxed_value_new_double` stores
`CONFIG_PARAM_FLOAT`.
-/

namespace Blts.Params

/-- A C `double`, of which the parameter code only ever copies the bits. -/
structure Double where
  bits : BitVec 64
  deriving DecidableEq

/-- The type codes `CONFIG_PARAM_*` of values. -/
inductive ConfigParam where
  | int
  | long
  | float
  | double
  | string
  | bool
  deriving DecidableEq

/-- `struct boxed_value`: the type code with its storage. -/
inductive BoxedValue where
  | int (intVal : Int)
  | long (intVal : Int)
  | float (floatVal : Double)
  | double (floatVal : Double)
  | string (strVal : String)
  | bool (intVal : Int)
  deriving DecidableEq

namespace BoxedValue

/-- The member `type`. -/
def type : BoxedValue → ConfigParam
  | .int _ => .int
  | .long _ => .long
  | .float _ => .float
  | .double _ => .double
  | .string _ => .string
  | .bool _ => .bool

end BoxedValue

/-! ## The constructors, with the type codes they store -/

def bltsConfigBoxedValueNewInt (v : Int) : BoxedValue := .int v

def bltsConfigBoxedValueNewLong (v : Int) : BoxedValue := .long v

def bltsConfigBoxedValueNewBool (v : Int) : BoxedValue := .bool v

def bltsConfigBoxedValueNewFloat (v : Double) : BoxedValue := .float v

/-- The source passes `CONFIG_PARAM_FLOAT` here. -/
def bltsConfigBoxedValueNewDouble (v : Double) : BoxedValue := .float v

def bltsConfigBoxedValueNewString (v : String) : BoxedValue := .string v

/-! ## Error codes -/

def enoent : Int := 2

def enomem : Int := 12

def eexist : Int := 17

def einval : Int := 22

end Blts.Params
