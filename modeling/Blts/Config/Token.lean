import Blts.Params.SymbolTable

/-!
# Tokens of the configuration language

The tokens that the scanner hands to the parser.  End of input is not one of
them: the parser reads it after the last token of a list.  Four of the five
kinds of section define one named symbol each and share their framing
(`[kind]`, `name ...`, contents, `[end_kind]`), so their markers are one token
with the kind as a parameter.
-/

namespace Blts.Config

open Blts.Params

/-- The sections that define a symbol. -/
inductive DefKind where
  | param
  | pgroup
  | test
  | testset
  deriving DecidableEq

/-- The terminals of `param-parser.y`. -/
inductive Token where
  | int (intVal : Int)
  | long (intVal : Int)
  | bool (intVal : Int)
  | float (floatVal : Double)
  | double (floatVal : Double)
  | string (strVal : String)
  | intspec
  | longspec
  | floatspec
  | doublespec
  | boolspec
  | stringspec
  /-- `GLOB_START` -/
  | globStart
  /-- `GLOB_END` -/
  | globEnd
  /-- `PARAM_START`, `PGROUP_START`, `TEST_START`, `TESTSET_START` -/
  | defStart (kind : DefKind)
  /-- `PARAM_END`, `PGROUP_END`, `TEST_END`, `TESTSET_END` -/
  | defEnd (kind : DefKind)
  | name
  | const
  | range
  | generate
  | params
  | pgroup
  | fix
  /-- `SERIAL`, `PARALLEL`, `THREADS` -/
  | exec (type : TestsetExec)
  | ident (strVal : String)
  | cr
  deriving DecidableEq

end Blts.Config
