import Blts.Config.Token

/-!
# Semantic actions

The actions of `param-parser.y` work on one shared context: the symbol being
built and three lists that are accumulated in reverse.  Each action is a
constructor of `Action`, named after the nonterminal it belongs to, and
`Action.run` says what it does to the context.

An action ends in one of three ways: it is done, it asks for error recovery
(`YYERROR`), or it follows a null pointer.  `yyerror` is called by actions and
by the parser; it counts the error and drops the whole context.
-/

namespace Blts.Config

open Blts.Params

/-- The static variables of the parser, and the symbol table it fills.
`parse_errors` is counted without a bound. -/
structure ParserState where
  table : SymbolTable
  currentSym : Option SymbolTableEntry
  valueList : List BoxedValue
  identList : List SymRef
  settingList : List TestSetting
  parseErrors : Nat
  deriving DecidableEq

/-- How an action ends. -/
inductive Outcome where
  | done (s : ParserState)
  | yyError (s : ParserState)
  | fault (f : Fault)
  deriving DecidableEq

/-- Run a second action once the first is done. -/
def Outcome.andThen (o : Outcome) (next : ParserState → Outcome) : Outcome :=
  match o with
  | .done s => next s
  | .yyError s => .yyError s
  | .fault f => .fault f

/-- `yyerror`: count the error and discard the context. -/
def yyerror (s : ParserState) : ParserState :=
  { s with
    parseErrors := s.parseErrors + 1
    currentSym := none
    valueList := []
    identList := []
    settingList := [] }

/-- `commit_current_symbol`: the result code and the state after it. -/
def commitCurrentSymbol (s : ParserState) : Except Fault (Int × ParserState) :=
  match s.currentSym with
  | none => .ok (-einval, s)
  | some sym =>
      match symbolTableInsert s.table sym with
      | .error f => .error f
      | .ok (ret, table) =>
          if ret ≠ 0 then .ok (ret, yyerror { s with table := table })
          else .ok (ret, { s with table := table })

/-- `ret = commit_current_symbol(); if (ret) YYERROR;` -/
def commit (s : ParserState) : Outcome :=
  match commitCurrentSymbol s with
  | .error f => .fault f
  | .ok (ret, s') => if ret ≠ 0 then .yyError s' else .done s'

/-- `yyerror(...); YYERROR;` -/
def reject (s : ParserState) : Outcome :=
  .yyError (yyerror s)

/-- A new current symbol. -/
def startSymbol (key : String) (data : SymbolData) (s : ParserState) :
    ParserState :=
  { s with currentSym := some { key := key, data := data } }

/-- Write through `current_sym`. -/
def updateSymbol (f : SymbolData → Except Fault SymbolData) (s : ParserState) :
    Outcome :=
  match s.currentSym with
  | none => .fault .nullDeref
  | some sym =>
      match f sym.data with
      | .error e => .fault e
      | .ok data => .done { s with currentSym := some { sym with data := data } }

/-- Write through `current_sym->param_definition`. -/
def updateParam (f : ParamDef → Except Fault ParamDef) : ParserState → Outcome :=
  updateSymbol fun
    | .param pd => (f pd).map .param
    | _ => .error .wrongMember

/-- Write through `current_sym->testset_definition`. -/
def updateTestset (f : TestsetDef → TestsetDef) : ParserState → Outcome :=
  updateSymbol fun
    | .testset td => .ok (.testset (f td))
    | _ => .error .wrongMember

/-! ## Values -/

/-- What every value action does with its value: a global keeps it, and falls
through to the value list like all the others. -/
def boxedValue (val : BoxedValue) (s : ParserState) : Outcome :=
  match s.currentSym with
  | none => .fault .nullDeref
  | some sym =>
      let s' := { s with valueList := val :: s.valueList }
      match sym.data with
      | .boxedValue _ =>
          .done { s' with
            currentSym := some { sym with data := .boxedValue (some val) } }
      | _ => .done s'

/-- `globalvalue`: a copy of the value of a global. -/
def globalvalue (name : String) (s : ParserState) : Outcome :=
  match lookupEntry s.table name with
  | some { data := .boxedValue (some val), .. } => boxedValue val s
  | some { data := .boxedValue none, .. } => .fault .nullDeref
  | _ => reject s

/-- The test in `globalnumericvalue`.  The type of a global being defined is
read as well, and then overwritten in the fall through. -/
def globalnumericvalue (s : ParserState) : Outcome :=
  match s.currentSym with
  | none => .fault .nullDeref
  | some { data := .boxedValue none, .. } => .fault .nullDeref
  | some _ =>
      match s.valueList with
      | [] => .fault .nullDeref
      | val :: _ =>
          if val.type ≠ .double ∧ val.type ≠ .long then reject s else .done s

/-! ## Lists -/

/-- `idlist IDENT`. -/
def idlist (name : String) (s : ParserState) : Outcome :=
  match symbolTableLookup s.table name with
  | none => reject s
  | some sym => .done { s with identList := sym :: s.identList }

/-- `ident_list_create_symbol_array`: an empty list leaves the array as it
was, any other one replaces it in the order of the file. -/
def identListCreateSymbolArray (idents : List SymRef) (array : List SymRef) :
    List SymRef :=
  if idents.isEmpty then array else idents.reverse

/-- `settinglist_create_setting_array`. -/
def settinglistCreateSettingArray (settings : List TestSetting)
    (array : List TestSetting) : List TestSetting :=
  if settings.isEmpty then array else settings.reverse

/-- `identlist_lookup_from_boxed_keys`, in the order of the list; null when a
value is no string or names no symbol. -/
def identlistLookupFromBoxedKeys (t : SymbolTable) :
    List BoxedValue → Option (List SymRef)
  | [] => some []
  | .string key :: values => do
      let sym ← symbolTableLookup t key
      let rest ← identlistLookupFromBoxedKeys t values
      pure (sym :: rest)
  | _ :: _ => none

/-! ## The actions -/

/-- The semantic actions of the grammar. -/
inductive Action where
  | valuedefStart (key : String)
  | paramdefStart (key : String)
  /-- the end of `valuedef` and of `paramdefinition` -/
  | commit
  | constStart
  | constEnd
  | rangeStart
  | numerictypespec (type : ConfigParam)
  | rangeEnd
  | generateStart (fn : String)
  | generateEnd
  | pgroupdefStart (key : String)
  | pgroupdefEnd
  | testdefStart (key : String)
  | testdefEnd
  | paramsStart
  | paramsEnd
  | pgroupSetting (name : String)
  | fixStart (name : String)
  | fixEnd
  | testsetdefStart (key : String)
  | testsetsettingsEnd
  | execType (type : TestsetExec)
  | testlistEnd
  | testsetdefEnd
  | boxedValue (val : BoxedValue)
  | globalvalue (name : String)
  | globalnumericvalue
  | idlist (name : String)
  deriving DecidableEq

namespace Action

/-- `constlist_args->values = reverse(current_value_list_head)`. -/
def constEndRun (s : ParserState) : Outcome :=
  (updateParam (fun pd =>
    match pd.args with
    | .constlist (some _) =>
        .ok { pd with args := .constlist (some s.valueList.reverse) }
    | .constlist none => .error .nullDeref
    | _ => .error .wrongMember) s).andThen fun s =>
      .done { s with valueList := [] }

/-- The second bound is the head of the list, the first one its successor. -/
def rangeEndRun (s : ParserState) : Outcome :=
  match s.valueList with
  | [] => .done s
  | high :: rest =>
      (updateParam (fun pd =>
        match pd.args with
        | .range _ _ => .ok { pd with args := .range rest.head? (some high) }
        | _ => .error .wrongMember) s).andThen fun s =>
          .done { s with valueList := [] }

/-- The array of generator arguments. -/
def generateEndRun (s : ParserState) : Outcome :=
  (updateParam (fun pd =>
    match pd.args with
    | .generated fn syms =>
        .ok { pd with
          args := .generated fn (identListCreateSymbolArray s.identList syms) }
    | _ => .error .wrongMember) s).andThen fun s =>
      .done { s with identList := [] }

/-- The array of group members, and the commit. -/
def pgroupdefEndRun (s : ParserState) : Outcome :=
  (updateSymbol (fun
    | .pgroup syms => .ok (.pgroup (identListCreateSymbolArray s.identList syms))
    | _ => .error .wrongMember) s).andThen fun s =>
      Config.commit { s with identList := [] }

/-- The array of settings when there are any, and the commit. -/
def testdefEndRun (s : ParserState) : Outcome :=
  if s.settingList.isEmpty then Config.commit s
  else (updateSymbol (fun
    | .test td =>
        .ok (.test { td with
          settings := settinglistCreateSettingArray s.settingList td.settings })
    | _ => .error .wrongMember) s).andThen fun s =>
      Config.commit { s with settingList := [] }

/-- The list of a `params` line, written through the head of the settings.  The
identifiers are freed and the head of their list is left dangling; nothing reads
it before the next list is started. -/
def paramsEndRun (s : ParserState) : Outcome :=
  match s.settingList with
  | [] => .fault .nullDeref
  | .paramlist syms :: rest =>
      .done { s with
        settingList :=
          .paramlist (identListCreateSymbolArray s.identList syms) :: rest
        identList := [] }
  | _ :: _ => .fault .wrongMember

/-- `testsettings PGROUP IDENT CR`. -/
def pgroupSettingRun (name : String) (s : ParserState) : Outcome :=
  match symbolTableLookup s.table name with
  | none => reject s
  | some sym => .done { s with settingList := .pgroup sym :: s.settingList }

/-- `testsettings FIX IDENT`, in tests and in testsets. -/
def fixStartRun (name : String) (s : ParserState) : Outcome :=
  match symbolTableLookup s.table name with
  | none => reject s
  | some sym =>
      .done { s with
        valueList := []
        settingList := .fix sym none :: s.settingList }

/-- The value of a `fix` line, written through the head of the settings. -/
def fixEndRun (s : ParserState) : Outcome :=
  match s.settingList with
  | [] => .fault .nullDeref
  | .fix param _ :: rest =>
      .done { s with
        settingList := .fix param s.valueList.head? :: rest
        valueList := [] }
  | _ :: _ => .fault .wrongMember

/-- The settings of a testset, empty or not. -/
def testsetsettingsEndRun (s : ParserState) : Outcome :=
  (updateTestset (fun td =>
    { td with
      settings := settinglistCreateSettingArray s.settingList td.settings })
    s).andThen fun s => .done { s with settingList := [], identList := [] }

/-- `SERIAL` drops the value list that is about to be filled; `PARALLEL` and
`THREADS` drop the identifier list instead. -/
def execTypeRun (type : TestsetExec) (s : ParserState) : Outcome :=
  (updateTestset (fun td => { td with execType := type }) s).andThen fun s =>
    match type with
    | .serial => .done { s with valueList := [] }
    | .parallel | .threads => .done { s with identList := [] }

/-- The end of the list of test names. -/
def testlistEndRun (s : ParserState) : Outcome :=
  .done { s with
    identList := (identlistLookupFromBoxedKeys s.table s.valueList).getD []
    valueList := [] }

/-- The array of tests, which must not be empty, and the commit. -/
def testsetdefEndRun (s : ParserState) : Outcome :=
  if s.identList.isEmpty then reject s
  else (updateTestset (fun td =>
    { td with tests := identListCreateSymbolArray s.identList td.tests })
    s).andThen fun s => Config.commit { s with identList := [] }

/-- What an action does. -/
def run : Action → ParserState → Outcome
  | valuedefStart key, s => .done (startSymbol key (.boxedValue none) s)
  | paramdefStart key, s =>
      .done (startSymbol key
        (.param { type := .int, args := .constlist none }) s)
  | commit, s => Config.commit s
  | constStart, s =>
      (updateParam (fun pd => .ok { pd with args := .constlist (some []) })
        s).andThen fun s => .done { s with valueList := [] }
  | constEnd, s => constEndRun s
  | rangeStart, s =>
      (updateParam (fun pd => .ok { pd with args := .range none none })
        s).andThen fun s => .done { s with valueList := [] }
  | numerictypespec type, s =>
      updateSymbol (fun
        | .param pd => .ok (.param { pd with type := type })
        | data => .ok data) s
  | rangeEnd, s => rangeEndRun s
  | generateStart fn, s =>
      (updateParam (fun pd => .ok { pd with args := .generated fn [] })
        s).andThen fun s => .done { s with identList := [] }
  | generateEnd, s => generateEndRun s
  | pgroupdefStart key, s =>
      .done { startSymbol key (.pgroup []) s with identList := [] }
  | pgroupdefEnd, s => pgroupdefEndRun s
  | testdefStart key, s =>
      .done { startSymbol key (.test .empty) s with settingList := [] }
  | testdefEnd, s => testdefEndRun s
  | paramsStart, s =>
      .done { s with
        settingList := .paramlist [] :: s.settingList
        identList := [] }
  | paramsEnd, s => paramsEndRun s
  | pgroupSetting name, s => pgroupSettingRun name s
  | fixStart name, s => fixStartRun name s
  | fixEnd, s => fixEndRun s
  | testsetdefStart key, s =>
      .done { startSymbol key
        (.testset { execType := .serial, settings := [], tests := [] }) s with
          settingList := [] }
  | testsetsettingsEnd, s => testsetsettingsEndRun s
  | execType type, s => execTypeRun type s
  | testlistEnd, s => testlistEndRun s
  | testsetdefEnd, s => testsetdefEndRun s
  | boxedValue val, s => Config.boxedValue val s
  | globalvalue name, s => Config.globalvalue name s
  | globalnumericvalue, s => Config.globalnumericvalue s
  | idlist name, s => Config.idlist name s

/-- Run several actions in a row. -/
def runAll : List Action → ParserState → Outcome
  | [], s => .done s
  | a :: as, s => (a.run s).andThen (runAll as)

end Action

end Blts.Config
