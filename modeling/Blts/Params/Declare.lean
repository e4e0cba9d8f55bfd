import Blts.Lib.Registry
import Blts.Params.SymbolTable

/-!
# Declaring tests

A test module declares its tests with the parameters they take.  For a test
that is in the configuration this records the handler, the tags and the
defaults; for any other test, and for every test while no configuration is
loaded, it also builds the test in the symbol table, with a parameter of one
constant value wherever there is none of the name.

Tags and defaults are collected at the head of the lists of the test and the
lists are reversed at the end, as in the source.
-/

/-!
## The symbol table is a registry

`Holds t r` says that the heap block of the table `t` holds the entries of the
registry `r` from its start on, and that `symbol_table_top` counts them.  The
operations of the table then are those of the registry: the lookup finds what
`find` finds, an insertion into an allocated table is accepted exactly when
`insert` accepts it, and a write through a pointer to an entry is an `update`.
-/

namespace Blts.Params

open Blts.Lib

/-- What the table is for: entries with distinct keys. -/
abbrev Symbols := Registry SymbolTableEntry.key symbolTableMax

/-- The table holds these entries, and counts them. -/
structure Holds (t : SymbolTable) (r : Symbols) : Prop where
  block : t.block = r.entries.map some
  top : t.top = r.entries.length

/-- Write to the data of the entry that a pointer leads to. -/
def SymbolTable.modifyEntry (t : SymbolTable) (ref : SymRef)
    (f : SymbolData → SymbolData) : SymbolTable :=
  { t with cells := t.cells.map fun cells =>
      cells.modify ref (Option.map fun e => { e with data := f e.data }) }

/-- The same write in the registry. -/
def modifySymbol (r : Symbols) (ref : SymRef) (f : SymbolData → SymbolData) :
    Symbols :=
  r.update ref (fun e => { e with data := f e.data }) fun _ => rfl

theorem holds_unallocated : Holds .unallocated Registry.empty :=
  ⟨rfl, rfl⟩

@[simp] theorem SymbolTable.cells_modifyEntry (t : SymbolTable) (ref : SymRef)
    (f : SymbolData → SymbolData) :
    (t.modifyEntry ref f).cells.isSome = t.cells.isSome := by
  simp [modifyEntry]

namespace Holds

variable {t : SymbolTable} {r : Symbols}

theorem init (h : Holds t r) : Holds (symbolTableInit t) r := by
  unfold symbolTableInit
  cases hcells : t.cells with
  | some cells => exact h
  | none =>
      have hnil : r.entries = [] := by
        have hblock := h.block
        rw [SymbolTable.block, hcells] at hblock
        exact List.map_eq_nil_iff.mp hblock.symm
      exact ⟨by rw [hnil]; rfl, by rw [hnil]; rfl⟩

theorem entry? (h : Holds t r) (ref : SymRef) : t.entry? ref = r.entries[ref]? := by
  rw [SymbolTable.entry?, h.block, List.getElem?_map]
  cases r.entries[ref]? <;> rfl

theorem lookup (h : Holds t r) (key : String) :
    symbolTableLookup t key = r.find key := by
  rw [symbolTableLookup, h.block, List.findIdx?_map]
  rfl

/-- An insertion into an allocated table is one into the registry. -/
theorem insert (h : Holds t r) (halloc : t.cells.isSome = true)
    (e : SymbolTableEntry) :
    match r.insert e with
    | some r' => ∃ t', symbolTableInsert t e = .ok (0, t') ∧ Holds t' r' ∧
        t'.cells.isSome = true
    | none => ∃ ret, ret ≠ 0 ∧ symbolTableInsert t e = .ok (ret, t) := by
  obtain ⟨cells, hcells⟩ := Option.isSome_iff_exists.mp halloc
  have hblock : cells = r.entries.map some := by
    have hblock := h.block
    rwa [SymbolTable.block, hcells] at hblock
  have hbound := r.bound
  cases hins : r.insert e with
  | none =>
      have hno := Registry.insert_eq_none_iff.mp hins
      by_cases htop : symbolTableMax ≤ t.top
      · exact ⟨-enomem, by decide, if_pos htop⟩
      · have hfind : r.find e.key ≠ none := by
          intro hfind
          exact hno ⟨by rw [h.top] at htop; omega, hfind⟩
        refine ⟨-eexist, by decide, ?_⟩
        rw [symbolTableInsert, if_neg htop, h.lookup,
          if_pos (Option.isSome_iff_ne_none.mpr hfind)]
  | some r' =>
      have hentries := Registry.entries_insert hins
      have hyes : r.entries.length < symbolTableMax ∧ r.find e.key = none := by
        by_contra hno
        rw [Registry.insert_eq_none_iff.mpr hno] at hins
        cases hins
      have hwrite : writeCell cells t.top e = r'.entries.map some := by
        rw [writeCell, hblock, hentries, h.top, List.length_map,
          if_neg (Nat.lt_irrefl _), Nat.sub_self]
        simp
      refine ⟨{ cells := some (writeCell cells t.top e), top := t.top + 1 }, ?_,
        ⟨hwrite, by rw [hentries, List.length_append, h.top]; rfl⟩, rfl⟩
      rw [symbolTableInsert, if_neg (by rw [h.top]; omega), h.lookup, hyes.2,
        hcells]
      rfl

/-- A write through a pointer to an entry. -/
theorem modifyEntry (h : Holds t r) (ref : SymRef)
    (f : SymbolData → SymbolData) :
    Holds (t.modifyEntry ref f) (modifySymbol r ref f) := by
  have hblock : (t.modifyEntry ref f).block =
      t.block.modify ref (Option.map fun e => { e with data := f e.data }) := by
    simp only [SymbolTable.block, SymbolTable.modifyEntry]
    cases t.cells with
    | none => simp
    | some cells => rfl
  constructor
  · rw [hblock, h.block]
    apply List.ext_getElem?
    intro i
    simp only [modifySymbol, Registry.update, List.getElem?_modify,
      List.getElem?_map]
    cases r.entries[i]? with
    | none => rfl
    | some e => by_cases hi : ref = i <;> simp [hi]
  · simp [SymbolTable.modifyEntry, modifySymbol, Registry.update, h.top]

end Holds

/-- The static variables of `blts_params.c`. -/
structure ConfigState where
  table : SymbolTable
  configLoadComplete : Bool
  deriving DecidableEq

/-- Nothing has been loaded, or all of it has been freed. -/
def ConfigState.initial : ConfigState where
  table := .unallocated
  configLoadComplete := false

/-- A type code with the value that is passed for it; `invalid` is a code that
is none of `CONFIG_PARAM_*`. -/
inductive ArgValue where
  | int (v : Int)
  | long (v : Int)
  | bool (v : Int)
  | float (v : Double)
  | double (v : Double)
  | string (v : Option String)
  | invalid
  deriving DecidableEq

/-- One parameter of a declaration.  The tag is null in a call that passes no
string. -/
structure DeclaredParam where
  paramTag : Option String
  value : ArgValue
  deriving DecidableEq

/-- The boxed default, if the type code is known. -/
def ArgValue.box : ArgValue → Option BoxedValue
  | .int v => some (bltsConfigBoxedValueNewInt v)
  | .long v => some (bltsConfigBoxedValueNewLong v)
  | .bool v => some (bltsConfigBoxedValueNewBool v)
  | .float v => some (bltsConfigBoxedValueNewFloat v)
  | .double v => some (bltsConfigBoxedValueNewDouble v)
  | .string v => some (bltsConfigBoxedValueNewString (v.getD ""))
  | .invalid => none

/-! ## Writing to a test -/

/-- Write to the members of `test_definition`. -/
def SymbolTable.modifyTest (t : SymbolTable) (test : SymRef)
    (f : TestDef → TestDef) : SymbolTable :=
  t.modifyEntry test fun
    | .test td => .test (f td)
    | data => data

/-- Prepend a parameter to the two lists of a test. -/
def TestDef.prependParam (tag : String) (val : BoxedValue) (td : TestDef) :
    TestDef :=
  { td with
    paramTags := tag :: td.paramTags
    paramDefaults := val :: td.paramDefaults }

/-- `blts_config_boxed_value_list_reverse` on both lists. -/
def TestDef.reverseParams (td : TestDef) : TestDef :=
  { td with
    paramTags := td.paramTags.reverse
    paramDefaults := td.paramDefaults.reverse }

/-- The new setting of `symbol_table_add_param_for_test`, at the end of the
array.  The copy of the old array takes the size of a setting where the size of
a pointer is meant; what it reads behind an array from the parser is stored
behind the pointers in use and never looked at. -/
def TestDef.addSetting (param : SymRef) (td : TestDef) : TestDef :=
  { td with settings := td.settings ++ [.paramlist [param]] }

/-! ## Tests and parameters without a configuration -/

/-- `setup_symbol_table_no_config`; the result of the insertion is ignored. -/
def setupSymbolTableNoConfig (t : SymbolTable) (testname : String) :
    Except Fault SymbolTable :=
  (symbolTableInsert (symbolTableInit t)
    { key := testname, data := .test .empty }).map Prod.snd

/-- `symbol_table_add_param_for_test`. -/
def symbolTableAddParamForTest (t : SymbolTable) (paramname testname : String) :
    Except Fault SymbolTable :=
  match symbolTableLookup t paramname, symbolTableLookup t testname with
  | some param, some test =>
      match t.entry? param, t.entry? test with
      | some { data := .param _, .. }, some { data := .test _, .. } =>
          .ok (t.modifyTest test (TestDef.addSetting param))
      | _, _ => .error .assertFailed
  | _, _ => .error .assertFailed

/-- A parameter with one constant value. -/
def defaultParam (value : BoxedValue) : ParamDef where
  type := value.type
  args := .constlist (some [value])

/-- A parameter with one constant value, where there is no symbol of the name;
the result of the insertion is ignored. -/
def insertDefault (t : SymbolTable) (paramname : String) (value : BoxedValue) :
    Except Fault SymbolTable :=
  if (symbolTableLookup t paramname).isSome then .ok t
  else
    (symbolTableInsert t
      { key := paramname, data := .param (defaultParam value) }).map Prod.snd

/-- `symbol_table_insert_param_with_default`. -/
def symbolTableInsertParamWithDefault (t : SymbolTable)
    (paramname : Option String) (testname : String) (value : BoxedValue) :
    Except Fault SymbolTable :=
  match t.cells, paramname with
  | some _, some paramname => do
      let t ← insertDefault t paramname value
      symbolTableAddParamForTest t paramname testname
  | _, _ => .error .assertFailed

/-! ## The two declarations -/

/-- The check of a tag against the configuration.  There is a symbol in the
table by then, so that a null tag is compared with its key. -/
def undefinedTag (loaded : Bool) (t : SymbolTable) :
    Option String → Except Fault Bool
  | some tag => .ok (loaded && (symbolTableLookup t tag).isNone)
  | none => if loaded then .error .nullDeref else .ok false

/-- A parameter of a declaration that looks ok. -/
def addDeclaredParam (useDefaults : Bool) (test : SymRef) (key : String)
    (paramTag : Option String) (val : BoxedValue) (t : SymbolTable) :
    Except Fault SymbolTable :=
  let t := t.modifyTest test (TestDef.prependParam (paramTag.getD "") val)
  if useDefaults then symbolTableInsertParamWithDefault t paramTag key val
  else .ok t

/-- The loop of `blts_config_declare_variable_test` over the parameters. -/
def declareParams (loaded useDefaults : Bool) (test : SymRef) (key : String) :
    List DeclaredParam → SymbolTable → Except Fault (Int × SymbolTable)
  | [], t => .ok (0, t.modifyTest test TestDef.reverseParams)
  | p :: params, t => do
      if ← undefinedTag loaded t p.paramTag then
        return (-einval, t)
      match p.value.box with
      | none => return (-einval, t)
      | some val => do
          let t ← addDeclaredParam useDefaults test key p.paramTag val t
          declareParams loaded useDefaults test key params t

/-- The table that a test is looked up in: without a configuration the test is
set up first. -/
def declaredTable (s : ConfigState) (name : String) : Except Fault SymbolTable :=
  if s.configLoadComplete then .ok s.table
  else setupSymbolTableNoConfig s.table name

/-- What is left of the declaration once its test is found. -/
def declareTest (s : ConfigState) (useDefaults : Bool) (name : String)
    (argHandler : Option FnRef) (params : List DeclaredParam) (test : SymRef)
    (t : SymbolTable) : Except Fault (Int × ConfigState) := do
  let t := t.modifyTest test fun td => { td with argHandler := argHandler }
  let (ret, t) ←
    declareParams s.configLoadComplete useDefaults test name params t
  return (ret, { s with table := t })

/-- `blts_config_declare_variable_test`. -/
def bltsConfigDeclareVariableTest (s : ConfigState) (name : Option String)
    (argHandler : Option FnRef) (params : List DeclaredParam) :
    Except Fault (Int × ConfigState) :=
  match name with
  | none => .ok (-einval, s)
  | some name => do
      let t ← declaredTable s name
      match symbolTableLookup t name with
      | some test =>
          match t.entry? test with
          | some { data := .test _, .. } =>
              declareTest s (!s.configLoadComplete) name argHandler params test t
          | _ => return (-enoent, { s with table := t })
      | none => do
          let t ← setupSymbolTableNoConfig t name
          match symbolTableLookup t name with
          | some test => declareTest s true name argHandler params test t
          | none => return (-enoent, { s with table := t })

/-- The type that `process_pgroup_params` finds for a parameter.  For a
generated one it reads the first parameter of the generator through the member
for globals; the definition of a parameter starts with its type as well. -/
def pgroupParamType (t : SymbolTable) (e : SymbolTableEntry) :
    Except Fault (Option ConfigParam) :=
  match e.data with
  | .param { args := .constlist (some (val :: _)), .. } => .ok (some val.type)
  | .param { args := .range (some low) _, .. } => .ok (some low.type)
  | .param { args := .generated _ (sym :: _), .. } =>
      match t.entry? sym with
      | some { data := .boxedValue (some val), .. } => .ok (some val.type)
      | some { data := .param pd, .. } => .ok (some pd.type)
      | some { data := .boxedValue none, .. } | none => .error .nullDeref
      | some _ => .error .wrongMember
  | .param _ => .error .nullDeref
  | _ => .ok none

/-- The default that stands for the values of a parameter of the
configuration. -/
def zeroValue : ConfigParam → BoxedValue
  | .int => bltsConfigBoxedValueNewInt 0
  | .long => bltsConfigBoxedValueNewLong 0
  | .bool => bltsConfigBoxedValueNewBool 0
  | .float => bltsConfigBoxedValueNewFloat ⟨0⟩
  | .double => bltsConfigBoxedValueNewDouble ⟨0⟩
  | .string => bltsConfigBoxedValueNewString ""

/-- `process_pgroup_params`. -/
def processPgroupParams (loaded : Bool) (test : SymRef) :
    List SymRef → SymbolTable → Except Fault (Int × SymbolTable)
  | [], t => .ok (0, t)
  | sym :: syms, t =>
      match t.entry? sym with
      | none => .error .nullDeref
      | some e => do
          let type ← pgroupParamType t e
          if ← undefinedTag loaded t (some e.key) then
            return (-einval, t)
          match type with
          | none => return (-einval, t)
          | some type =>
              processPgroupParams loaded test syms
                (t.modifyTest test (TestDef.prependParam e.key (zeroValue type)))

/-- The loop of `blts_config_declare_variable_test_dynamic` over the settings;
the result is that of the last one that is not a `fix`. -/
def declareSettings (loaded : Bool) (test : SymRef) :
    List TestSetting → Int → SymbolTable → Except Fault (Int × SymbolTable)
  | [], ret, t => .ok (ret, t)
  | .paramlist syms :: settings, _, t => do
      let (ret, t) ← processPgroupParams loaded test syms t
      declareSettings loaded test settings ret t
  | .pgroup ref :: settings, _, t =>
      match t.entry? ref with
      | none => .error .nullDeref
      | some { data := .pgroup syms, .. } => do
          let (ret, t) ← processPgroupParams loaded test syms t
          declareSettings loaded test settings ret t
      | some _ => .error .wrongMember
  | .fix _ _ :: settings, ret, t => declareSettings loaded test settings ret t

/-- `blts_config_declare_variable_test_dynamic`. -/
def bltsConfigDeclareVariableTestDynamic (s : ConfigState) (name : Option String)
    (argHandler : Option FnRef) : Except Fault (Int × ConfigState) :=
  match name with
  | none => .ok (-einval, s)
  | some name => do
      let t ← declaredTable s name
      match (symbolTableLookup t name).map fun test => (test, t.entry? test) with
      | some (test, some { data := .test td, .. }) => do
          let t := t.modifyTest test fun td => { td with argHandler2 := argHandler }
          let (ret, t) ← declareSettings s.configLoadComplete test td.settings 0 t
          if ret = 0 then
            return (ret,
              { s with table := t.modifyTest test TestDef.reverseParams })
          else return (ret, { s with table := t })
      | _ => return (-enoent, { s with table := t })

/-! ## Generators -/

/-- `blts_config_register_generating_func`; the result of the insertion is
ignored. -/
def bltsConfigRegisterGeneratingFunc (s : ConfigState) (name : Option String)
    (func : FnRef) : Except Fault (Int × ConfigState) :=
  match name with
  | none => .error .nullDeref
  | some name =>
      if (symbolTableLookup s.table name).isSome then .ok (-einval, s)
      else do
        let (_, t) ← symbolTableInsert s.table
          { key := name, data := .generatorFn func }
        return (0, { s with table := t })

/-! ## Running a declared test -/

/-- `blts_config_test_is_variable`. -/
def bltsConfigTestIsVariable (t : SymbolTable) (name : String) : Bool :=
  match lookupEntry t name with
  | some { data := .test td, .. } =>
      !td.settings.isEmpty && !td.paramDefaults.isEmpty && !td.paramTags.isEmpty &&
        (td.argHandler.isSome || td.argHandler2.isSome)
  | _ => false

/-- What a user function is called with. -/
inductive HandlerCall where
  | argHandler (func : FnRef) (values : List BoxedValue)
  | argHandler2 (func : FnRef) (paramTags : List String) (values : List BoxedValue)
  deriving DecidableEq

/-- `_blts_config_mutate_user_params`: the call that it makes. -/
def bltsConfigMutateUserParams (t : SymbolTable) (testname : String)
    (values : List BoxedValue) : Option HandlerCall :=
  match lookupEntry t testname with
  | some { data := .test td, .. } =>
      match td.argHandler, td.argHandler2 with
      | some func, _ => some (.argHandler func values)
      | none, some func => some (.argHandler2 func td.paramTags values)
      | none, none => none
  | _ => none

end Blts.Params
