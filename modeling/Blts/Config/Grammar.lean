import Blts.Config.ErrorFree

/-!
# What a configuration says

A configuration without errors is a list of items: blank lines and complete
sections.  `Item.tokens` writes an item down as the parser reads it, and
`Item.declare` says what it adds to the symbol table, in terms of names and
values and without positions, contexts or lists under construction.

One piece of the context shows through.  The list of test names is collected in
the value list of the whole file, which `[globals]` sections leave filled, so the
meaning of an item depends on the values left over by the items before it.
-/

namespace Blts.Config

open Blts.Params

/-! ## Syntax -/

/-- `value`. -/
inductive Value where
  | int (v : Int)
  | long (v : Int)
  | bool (v : Int)
  | float (v : Double)
  | double (v : Double)
  | string (v : String)
  | global (name : String)
  deriving DecidableEq

/-- `numericvalue`. -/
inductive NumericValue where
  | int (v : Int)
  | long (v : Int)
  | float (v : Double)
  | double (v : Double)
  | global (name : String)
  deriving DecidableEq

/-- `numerictypespec`. -/
inductive NumericTypespec where
  | int
  | long
  | float
  | double
  deriving DecidableEq

/-- `paramvalues`. -/
inductive ParamValues where
  | const (first : Value) (rest : List Value)
  | range (type : NumericTypespec) (low high : NumericValue)
  | generate (fn : String) (args : List String)
  deriving DecidableEq

/-- A line of a `[globals]` section. -/
inductive GlobalLine where
  | blank
  | valuedef (key : String) (val : Value)
  deriving DecidableEq

/-- A line of a `[test]` section. -/
inductive SettingLine where
  | params (names : List String)
  | pgroup (name : String)
  | fix (name : String) (val : Value)
  deriving DecidableEq

/-- A blank line or a section.  A test may have one blank line, before its
settings. -/
inductive Item where
  | blank
  | globals (lines : List GlobalLine)
  | param (key : String) (values : ParamValues)
  | pgroup (key : String) (lines : List (List String))
  | test (key : String) (gap : Bool) (settings : List SettingLine)
  | testset (key : String) (fixes : List (String × Value)) (type : TestsetExec)
      (names : List String)
  deriving DecidableEq

def Value.token : Value → Token
  | .int v => .int v
  | .long v => .long v
  | .bool v => .bool v
  | .float v => .float v
  | .double v => .double v
  | .string v => .string v
  | .global name => .ident name

def NumericValue.token : NumericValue → Token
  | .int v => .int v
  | .long v => .long v
  | .float v => .float v
  | .double v => .double v
  | .global name => .ident name

def NumericTypespec.token : NumericTypespec → Token
  | .int => .intspec
  | .long => .longspec
  | .float => .floatspec
  | .double => .doublespec

def ParamValues.tokens : ParamValues → List Token
  | .const first rest => .const :: first.token :: rest.map Value.token
  | .range type low high => [.range, type.token, low.token, high.token]
  | .generate fn args => .generate :: .ident fn :: args.map .ident

def GlobalLine.tokens : GlobalLine → List Token
  | .blank => [.cr]
  | .valuedef key val => [.ident key, val.token, .cr]

/-- A line of a `[pgroup]` section. -/
def idlistTokens (names : List String) : List Token :=
  names.map .ident ++ [.cr]

def fixTokens (name : String) (val : Value) : List Token :=
  [.fix, .ident name, val.token, .cr]

def SettingLine.tokens : SettingLine → List Token
  | .params names => .params :: idlistTokens names
  | .pgroup name => [.pgroup, .ident name, .cr]
  | .fix name val => fixTokens name val

/-- The first two lines of a section that defines a symbol. -/
def headerTokens (kind : DefKind) (key : Token) : List Token :=
  [.defStart kind, .cr, .name, key, .cr]

/-- An item as the parser reads it. -/
def Item.tokens : Item → List Token
  | .blank => [.cr]
  | .globals lines =>
      .globStart :: .cr :: (lines.flatMap GlobalLine.tokens ++ [.globEnd])
  | .param key values =>
      headerTokens .param (.ident key) ++ (values.tokens ++ [.cr, .defEnd .param])
  | .pgroup key lines =>
      headerTokens .pgroup (.ident key) ++
        (lines.flatMap idlistTokens ++ [.defEnd .pgroup])
  | .test key gap settings =>
      headerTokens .test (.string key) ++
        ((if gap then [.cr] else []) ++
          (settings.flatMap SettingLine.tokens ++ [.defEnd .test]))
  | .testset key fixes type names =>
      headerTokens .testset (.string key) ++
        (fixes.flatMap (fun f => fixTokens f.1 f.2) ++
          (.exec type :: (names.map .string ++ [.cr, .defEnd .testset])))

/-! ## Meaning -/

/-- What an item depends on: the table, and the values that earlier items have
left in the value list. -/
structure Env where
  table : SymbolTable
  stale : List BoxedValue
  deriving DecidableEq

/-- The part of the parser's context that the next item depends on. -/
def ParserState.env (s : ParserState) : Env where
  table := s.table
  stale := s.valueList

/-- Add an entry to the table, if that is not rejected. -/
def insertEntry (t : SymbolTable) (e : SymbolTableEntry) : Option SymbolTable :=
  match symbolTableInsert t e with
  | .ok (ret, t') => if ret = 0 then some t' else none
  | .error _ => none

/-- The symbols with the given names. -/
def lookupAll (t : SymbolTable) : List String → Option (List SymRef)
  | [] => some []
  | name :: names =>
      (symbolTableLookup t name).bind fun sym =>
        (lookupAll t names).map fun syms => sym :: syms

def Value.eval (t : SymbolTable) (v : Value) : Option BoxedValue :=
  valueOf t v.token

/-- The value of a bound: a literal, or a global of one of the two types that
`globalnumericvalue` accepts. -/
def NumericValue.eval (t : SymbolTable) (v : NumericValue) : Option BoxedValue :=
  (valueOf t v.token).filter (numericOk v.token)

def Value.evalAll (t : SymbolTable) : List Value → Option (List BoxedValue)
  | [] => some []
  | v :: vs =>
      (v.eval t).bind fun val => (evalAll t vs).map fun vals => val :: vals

def NumericTypespec.type : NumericTypespec → ConfigParam
  | .int | .long => .long
  | .float | .double => .double

/-- The definition of a parameter, and the values that are left over. -/
def ParamValues.eval (env : Env) :
    ParamValues → Option (ParamDef × List BoxedValue)
  | .const first rest =>
      (Value.evalAll env.table (first :: rest)).map fun vals =>
        ({ type := .int, args := .constlist (some vals) }, [])
  | .range type low high =>
      (low.eval env.table).bind fun lowBound =>
        (high.eval env.table).map fun highBound =>
          ({ type := type.type, args := .range (some lowBound) (some highBound) },
            [])
  | .generate fn args =>
      (lookupAll env.table args).map fun syms =>
        ({ type := .int, args := .generated fn syms }, env.stale)

def GlobalLine.declare (env : Env) : GlobalLine → Option Env
  | .blank => some env
  | .valuedef key val =>
      (val.eval env.table).bind fun v =>
        (insertEntry env.table { key := key, data := .boxedValue (some v) }).map
          fun t => { table := t, stale := v :: env.stale }

/-- The setting of a `fix` line. -/
def evalFix (t : SymbolTable) (name : String) (val : Value) :
    Option TestSetting :=
  (symbolTableLookup t name).bind fun sym =>
    (val.eval t).map fun v => .fix sym (some v)

def SettingLine.eval (t : SymbolTable) : SettingLine → Option TestSetting
  | .params names => (lookupAll t names).map .paramlist
  | .pgroup name => (symbolTableLookup t name).map .pgroup
  | .fix name val => evalFix t name val

def SettingLine.isFix : SettingLine → Bool
  | .fix _ _ => true
  | _ => false

def SettingLine.evalAll (t : SymbolTable) :
    List SettingLine → Option (List TestSetting)
  | [] => some []
  | l :: ls =>
      (l.eval t).bind fun setting =>
        (evalAll t ls).map fun settings => setting :: settings

/-- The values that stand in the value list when the names of a testset are
collected: `serial` and `fix` lines drop those that are left over, `parallel`
and `threads` do not. -/
def staleInTestlist (stale : List BoxedValue) (fixes : List (String × Value))
    (type : TestsetExec) : List BoxedValue :=
  if type = .serial ∨ fixes ≠ [] then [] else stale

/-- The tests of a testset: the value list in the order of the file, looked up
as names.  There has to be at least one. -/
def evalTests (t : SymbolTable) (stale : List BoxedValue) (names : List String) :
    Option (List SymRef) :=
  ((identlistLookupFromBoxedKeys t
    ((names.map BoxedValue.string).reverse ++ stale)).map List.reverse).filter
      fun syms => !syms.isEmpty

/-- What an item adds to the table. -/
def Item.declare (env : Env) : Item → Option Env
  | .blank => some env
  | .globals lines => lines.foldlM GlobalLine.declare env
  | .param key values =>
      (values.eval env).bind fun r =>
        (insertEntry env.table { key := key, data := .param r.1 }).map fun t =>
          { table := t, stale := r.2 }
  | .pgroup key lines =>
      (lookupAll env.table lines.flatten).bind fun syms =>
        (insertEntry env.table { key := key, data := .pgroup syms }).map fun t =>
          { env with table := t }
  | .test key _ settings =>
      (SettingLine.evalAll env.table settings).bind fun ss =>
        (insertEntry env.table
          { key := key, data := .test { TestDef.empty with settings := ss } }).map
            fun t =>
              { table := t
                stale := if settings.any SettingLine.isFix then [] else env.stale }
  | .testset key fixes type names =>
      (SettingLine.evalAll env.table (fixes.map fun f => .fix f.1 f.2)).bind
        fun ss =>
          (evalTests env.table (staleInTestlist env.stale fixes type) names).bind
            fun tests =>
              (insertEntry env.table
                { key := key
                  data := .testset
                    { execType := type, settings := ss, tests := tests } }).map
                fun t => { table := t, stale := [] }

/-- What a list of items adds to the table. -/
def declareAll (env : Env) (items : List Item) : Option Env :=
  items.foldlM Item.declare env

end Blts.Config
