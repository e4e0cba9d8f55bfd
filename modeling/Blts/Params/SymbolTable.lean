import Mathlib.Data.List.Basic
import Blts.Params.BoxedValue

/-!
# The symbol table

`symbol_table` is a heap block of `SYMBOL_TABLE_MAX` pointers, null until
`symbol_table_init` allocates it, and `symbol_table_top` is the index the next
insertion writes to.  Both are kept as the source keeps them, so that nothing
about the relation of the two is built in: `cells` are the leading pointers of
the block (those that follow are null), and a write checks that there is a
block and that the index lies inside it.

An entry that has been inserted is never removed on its own, so a pointer to an
entry is the index of its cell (`SymRef`).
-/

namespace Blts.Params

/-- `SYMBOL_TABLE_MAX`. -/
def symbolTableMax : Nat := 1024

/-- A pointer to an entry of the symbol table. -/
abbrev SymRef := Nat

/-- A pointer to a user function. -/
abbrev FnRef := Nat

/-- `mode` and the union of `struct paramdef`; `none` is a null pointer. -/
inductive ParamArgs where
  | constlist (values : Option (List BoxedValue))
  | range (lowBound highBound : Option BoxedValue)
  | generated (generatorFnName : String) (generatorFnParamsSyms : List SymRef)
  deriving DecidableEq

/-- `struct paramdef`. -/
structure ParamDef where
  type : ConfigParam
  args : ParamArgs
  deriving DecidableEq

/-- `struct test_setting`.  The value of a `fix` is null until it is parsed. -/
inductive TestSetting where
  | paramlist (paramPgroup : List SymRef)
  | pgroup (pgroup : SymRef)
  | fix (param : SymRef) (value : Option BoxedValue)
  deriving DecidableEq

/-- `struct testdef`. -/
structure TestDef where
  settings : List TestSetting
  paramDefaults : List BoxedValue
  paramTags : List String
  argHandler : Option FnRef
  argHandler2 : Option FnRef
  deriving DecidableEq

/-- `memset(test_definition, 0, sizeof (struct testdef))`. -/
def TestDef.empty : TestDef where
  settings := []
  paramDefaults := []
  paramTags := []
  argHandler := none
  argHandler2 := none

/-- `enum testset_exec_type`. -/
inductive TestsetExec where
  | serial
  | parallel
  | threads
  deriving DecidableEq

/-- `struct testsetdef`. -/
structure TestsetDef where
  execType : TestsetExec
  settings : List TestSetting
  tests : List SymRef
  deriving DecidableEq

/-- `type` and the union of `struct symbol_table_entry`. -/
inductive SymbolData where
  | boxedValue (value : Option BoxedValue)
  | param (paramDefinition : ParamDef)
  | pgroup (pgroupParamsSyms : List SymRef)
  | test (testDefinition : TestDef)
  | testset (testsetDefinition : TestsetDef)
  | generatorFn (genFunc : FnRef)
  deriving DecidableEq

/-- `struct symbol_table_entry`. -/
structure SymbolTableEntry where
  key : String
  data : SymbolData
  deriving DecidableEq

/-- `symbol_table` and `symbol_table_top`. -/
structure SymbolTable where
  cells : Option (List (Option SymbolTableEntry))
  top : Nat
  deriving DecidableEq

namespace SymbolTable

/-- The static variables before anything has run, and after `config_free`. -/
def unallocated : SymbolTable where
  cells := none
  top := 0

/-- The pointers of the block; none while there is no block. -/
def block (t : SymbolTable) : List (Option SymbolTableEntry) :=
  t.cells.getD []

/-- Follow a pointer to an entry. -/
def entry? (t : SymbolTable) (ref : SymRef) : Option SymbolTableEntry :=
  t.block[ref]?.join

end SymbolTable

/-- `symbol_table[i] = e` in a block of pointers. -/
def writeCell (cells : List (Option SymbolTableEntry)) (i : Nat)
    (e : SymbolTableEntry) : List (Option SymbolTableEntry) :=
  if i < cells.length then cells.set i (some e)
  else cells ++ List.replicate (i - cells.length) none ++ [some e]

/-- `symbol_table_init`. -/
def symbolTableInit (t : SymbolTable) : SymbolTable :=
  match t.cells with
  | some _ => t
  | none => { cells := some [], top := 0 }

/-- `symbol_table_free`; the caller resets `symbol_table_top`. -/
def symbolTableFree (t : SymbolTable) : SymbolTable :=
  { t with cells := none }

/-- `_blts_conf_symbol_table_lookup`: the first entry with the key. -/
def symbolTableLookup (t : SymbolTable) (key : String) : Option SymRef :=
  t.block.findIdx? fun cell => cell.any fun e => e.key == key

/-- `_blts_conf_symbol_table_insert`: the result code and the new table. -/
def symbolTableInsert (t : SymbolTable) (e : SymbolTableEntry) :
    Except Fault (Int × SymbolTable) :=
  if symbolTableMax ≤ t.top then
    .ok (-enomem, t)
  else if (symbolTableLookup t e.key).isSome then
    .ok (-eexist, t)
  else
    match t.cells with
    | none => .error .tableWrite
    | some cells =>
        .ok (0, { cells := some (writeCell cells t.top e), top := t.top + 1 })

/-! ## What a lookup finds -/

/-- The lookup together with the entry it points to. -/
def lookupEntry (t : SymbolTable) (key : String) : Option SymbolTableEntry :=
  (symbolTableLookup t key).bind t.entry?

end Blts.Params
