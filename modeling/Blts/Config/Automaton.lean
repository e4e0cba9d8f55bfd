import Blts.Config.Actions

/-!
# The grammar as an automaton

Sections do not nest and every list of the grammar is left recursive, so the
stack of the generated parser is determined by the place reached inside the
section being read.  `Pos` enumerates those places: the states of the LALR
automaton in which a lookahead token is needed, named by what has been read.
States that reduce without a lookahead are passed through at once; their
actions belong to the move that enters them.

`move` gives, for a position and a lookahead token (`none` at the end of
input), the entry of the parser's action table.  Three rules reduce by default,
whatever the token is: a list of constants, a list of generator arguments and
the settings of a test or testset end at any token that does not continue them,
and the error is found only after the actions of the reduction have run.
-/

namespace Blts.Config

open Blts.Params

/-- How far the section being read has been parsed. -/
inductive Pos where
  /-- `input .` -/
  | input
  /-- `input error . CR` -/
  | inputError
  /-- `GLOB_START . CR` -/
  | globStart
  | globaldefines
  /-- `IDENT @ . value CR` -/
  | valuedefValue
  | valuedefCr
  /-- `PARAM_START . CR` and its siblings -/
  | defStart (kind : DefKind)
  /-- `PARAM_START CR . paramdefinition` and its siblings -/
  | header (kind : DefKind)
  /-- `NAME . IDENT CR` or `NAME . STRING CR` -/
  | name (kind : DefKind)
  /-- `NAME IDENT . CR` or `NAME STRING . CR` -/
  | nameCr (kind : DefKind) (key : String)
  /-- `paramdefinition . PARAM_END` and its siblings -/
  | defEnd (kind : DefKind)
  | paramvalues
  /-- `CONST @ . value values` -/
  | constFirst
  /-- `CONST @ value values .` -/
  | constValues
  | rangeType
  | rangeLow
  | rangeHigh
  | generateName
  /-- `GENERATE IDENT @ idlist .` -/
  | generateArgs
  | paramvaluesCr
  /-- `NAME IDENT CR @ . pgroupcontents` -/
  | pgroupBody
  /-- `pgroupcontents .` -/
  | pgroupcontents
  /-- `pgroupcontents idlist . CR` -/
  | pgroupIdlist
  /-- `pgroupcontents: error . CR` -/
  | pgroupError
  /-- `NAME STRING CR @ . testsettings` -/
  | testBody
  /-- `testsettings .` -/
  | testsettings
  /-- `testsettings: error . CR` -/
  | testError
  /-- `testsettings PARAMS @ idlist . CR` -/
  | paramsIdlist
  | pgroupName
  | pgroupCr (name : String)
  | fixName
  | fixValue
  | fixCr
  /-- `testsetsettings .` -/
  | testsetsettings
  | testsetFixName
  | testsetFixValue
  | testsetFixCr
  /-- `testsetsettings @ . testsetcontents` -/
  | testsetBody
  /-- `SERIAL @ testlist . CR` and its siblings -/
  | testlist
  /-- `testsetcontents: error . CR` -/
  | testsetError
  deriving DecidableEq

/-- An entry of the action table.  A shift consumes the token, a reduction does
not; both run actions, and go to `recover` when one of them asks for error
recovery. -/
inductive Move where
  | shift (actions : List Action) (next recover : Pos)
  | reduce (actions : List Action) (next recover : Pos)
  | error
  | accept
  deriving DecidableEq

/-- Where error recovery ends: the innermost enclosing rule with an `error`
alternative. -/
def Pos.errorTarget : Pos → Pos
  | pgroupBody | pgroupcontents | pgroupIdlist | pgroupError => pgroupError
  | testBody | testsettings | testError | paramsIdlist | pgroupName
  | pgroupCr _ | fixName | fixValue | fixCr => testError
  | testsetBody | testlist | testsetError => testsetError
  | _ => inputError

/-- The name of a definition: an identifier for parameters and groups, a string
for tests and testsets. -/
def DefKind.keyOf : DefKind → Token → Option String
  | .param, .ident key | .pgroup, .ident key => some key
  | .test, .string key | .testset, .string key => some key
  | _, _ => none

/-- The action and the position after the header of a definition. -/
def DefKind.begin : DefKind → String → Action × Pos
  | .param, key => (.paramdefStart key, .paramvalues)
  | .pgroup, key => (.pgroupdefStart key, .pgroupBody)
  | .test, key => (.testdefStart key, .testBody)
  | .testset, key => (.testsetdefStart key, .testsetsettings)

/-- `value`. -/
def valueActions : Token → Option (List Action)
  | .int v => some [.boxedValue (bltsConfigBoxedValueNewInt v)]
  | .long v => some [.boxedValue (bltsConfigBoxedValueNewLong v)]
  | .bool v => some [.boxedValue (bltsConfigBoxedValueNewBool v)]
  | .float v => some [.boxedValue (bltsConfigBoxedValueNewFloat v)]
  | .double v => some [.boxedValue (bltsConfigBoxedValueNewDouble v)]
  | .string v => some [.boxedValue (bltsConfigBoxedValueNewString v)]
  | .ident name => some [.globalvalue name]
  | _ => none

/-- `numericvalue`. -/
def numericvalueActions : Token → Option (List Action)
  | .int v => some [.boxedValue (bltsConfigBoxedValueNewInt v)]
  | .long v => some [.boxedValue (bltsConfigBoxedValueNewLong v)]
  | .float v => some [.boxedValue (bltsConfigBoxedValueNewFloat v)]
  | .double v => some [.boxedValue (bltsConfigBoxedValueNewDouble v)]
  | .ident name => some [.globalvalue name, .globalnumericvalue]
  | _ => none

/-- `numerictypespec`. -/
def numerictypespecAction : Token → Option Action
  | .intspec | .longspec => some (.numerictypespec .long)
  | .floatspec | .doublespec => some (.numerictypespec .double)
  | _ => none

/-- Shift the token if it is a value of the right kind. -/
def shiftValue (actions : Option (List Action)) (next recover : Pos) : Move :=
  match actions with
  | some actions => .shift actions next recover
  | none => .error

/-- The action table. -/
def move : Pos → Option Token → Move
  | .input, tok =>
      match tok with
      | none => .accept
      | some .cr => .shift [] .input .inputError
      | some .globStart => .shift [] .globStart .inputError
      | some (.defStart kind) => .shift [] (.defStart kind) .inputError
      | _ => .error
  | .inputError, tok =>
      match tok with
      | some .cr => .shift [] .input .inputError
      | _ => .error
  | .globStart, tok =>
      match tok with
      | some .cr => .shift [] .globaldefines .inputError
      | _ => .error
  | .globaldefines, tok =>
      match tok with
      | some .cr => .shift [] .globaldefines .inputError
      | some .globEnd => .shift [] .input .inputError
      | some (.ident key) => .shift [.valuedefStart key] .valuedefValue .inputError
      | _ => .error
  | .valuedefValue, tok =>
      shiftValue (tok.bind valueActions) .valuedefCr .inputError
  | .valuedefCr, tok =>
      match tok with
      | some .cr => .shift [.commit] .globaldefines .inputError
      | _ => .error
  | .defStart kind, tok =>
      match tok with
      | some .cr => .shift [] (.header kind) .inputError
      | _ => .error
  | .header kind, tok =>
      match tok with
      | some .name => .shift [] (.name kind) .inputError
      | _ => .error
  | .name kind, tok =>
      match tok.bind kind.keyOf with
      | some key => .shift [] (.nameCr kind key) .inputError
      | none => .error
  | .nameCr kind key, tok =>
      match tok with
      | some .cr => .shift [(kind.begin key).1] (kind.begin key).2 .inputError
      | _ => .error
  | .defEnd kind, tok =>
      match tok with
      | some (.defEnd kind') =>
          if kind' = kind then .shift [] .input .inputError else .error
      | _ => .error
  | .paramvalues, tok =>
      match tok with
      | some .const => .shift [.constStart] .constFirst .inputError
      | some .range => .shift [.rangeStart] .rangeType .inputError
      | some .generate => .shift [] .generateName .inputError
      | _ => .error
  | .constFirst, tok =>
      shiftValue (tok.bind valueActions) .constValues .inputError
  | .constValues, tok =>
      match tok.bind valueActions with
      | some actions => .shift actions .constValues .inputError
      | none => .reduce [.constEnd] .paramvaluesCr .inputError
  | .rangeType, tok =>
      shiftValue ((tok.bind numerictypespecAction).map ([·])) .rangeLow .inputError
  | .rangeLow, tok =>
      shiftValue (tok.bind numericvalueActions) .rangeHigh .inputError
  | .rangeHigh, tok =>
      shiftValue ((tok.bind numericvalueActions).map (· ++ [.rangeEnd]))
        .paramvaluesCr .inputError
  | .generateName, tok =>
      match tok with
      | some (.ident fn) => .shift [.generateStart fn] .generateArgs .inputError
      | _ => .error
  | .generateArgs, tok =>
      match tok with
      | some (.ident name) => .shift [.idlist name] .generateArgs .inputError
      | _ => .reduce [.generateEnd] .paramvaluesCr .inputError
  | .paramvaluesCr, tok =>
      match tok with
      | some .cr => .shift [.commit] (.defEnd .param) .inputError
      | _ => .error
  | .pgroupBody, tok =>
      match tok with
      | some (.ident _) | some .cr | some (.defEnd .pgroup) =>
          .reduce [] .pgroupcontents .pgroupError
      | _ => .error
  | .pgroupcontents, tok =>
      match tok with
      | some (.defEnd .pgroup) =>
          .reduce [.pgroupdefEnd] (.defEnd .pgroup) .inputError
      | _ => .reduce [] .pgroupIdlist .pgroupError
  | .pgroupIdlist, tok =>
      match tok with
      | some (.ident name) => .shift [.idlist name] .pgroupIdlist .pgroupError
      | some .cr => .shift [] .pgroupcontents .pgroupError
      | _ => .error
  | .pgroupError, tok =>
      match tok with
      | some .cr => .shift [] .pgroupcontents .pgroupError
      | _ => .error
  | .testBody, tok =>
      match tok with
      | some .cr => .shift [] .testsettings .testError
      | some .params | some .pgroup | some .fix | some (.defEnd .test) =>
          .reduce [] .testsettings .testError
      | _ => .error
  | .testsettings, tok =>
      match tok with
      | some .params => .shift [.paramsStart] .paramsIdlist .testError
      | some .pgroup => .shift [] .pgroupName .testError
      | some .fix => .shift [] .fixName .testError
      | _ => .reduce [.testdefEnd] (.defEnd .test) .inputError
  | .testError, tok =>
      match tok with
      | some .cr => .shift [] .testsettings .testError
      | _ => .error
  | .paramsIdlist, tok =>
      match tok with
      | some (.ident name) => .shift [.idlist name] .paramsIdlist .testError
      | some .cr => .shift [.paramsEnd] .testsettings .testError
      | _ => .error
  | .pgroupName, tok =>
      match tok with
      | some (.ident name) => .shift [] (.pgroupCr name) .testError
      | _ => .error
  | .pgroupCr name, tok =>
      match tok with
      | some .cr => .shift [.pgroupSetting name] .testsettings .testError
      | _ => .error
  | .fixName, tok =>
      match tok with
      | some (.ident name) => .shift [.fixStart name] .fixValue .testError
      | _ => .error
  | .fixValue, tok => shiftValue (tok.bind valueActions) .fixCr .testError
  | .fixCr, tok =>
      match tok with
      | some .cr => .shift [.fixEnd] .testsettings .testError
      | _ => .error
  | .testsetsettings, tok =>
      match tok with
      | some .fix => .shift [] .testsetFixName .inputError
      | _ => .reduce [.testsetsettingsEnd] .testsetBody .inputError
  | .testsetFixName, tok =>
      match tok with
      | some (.ident name) => .shift [.fixStart name] .testsetFixValue .inputError
      | _ => .error
  | .testsetFixValue, tok =>
      shiftValue (tok.bind valueActions) .testsetFixCr .inputError
  | .testsetFixCr, tok =>
      match tok with
      | some .cr => .shift [.fixEnd] .testsetsettings .inputError
      | _ => .error
  | .testsetBody, tok =>
      match tok with
      | some (.exec type) => .shift [.execType type] .testlist .testsetError
      | _ => .error
  | .testlist, tok =>
      match tok with
      | some (.string v) =>
          .shift [.boxedValue (bltsConfigBoxedValueNewString v)] .testlist
            .testsetError
      | some .cr =>
          .shift [.testlistEnd, .testsetdefEnd] (.defEnd .testset) .inputError
      | _ => .error
  | .testsetError, tok =>
      match tok with
      | some .cr => .shift [.testsetdefEnd] (.defEnd .testset) .inputError
      | _ => .error

/-- The end of input is never shifted. -/
theorem move_none_ne_shift (pos : Pos) (actions : List Action)
    (next recover : Pos) : move pos none ≠ .shift actions next recover := by
  cases pos <;> simp [move, shiftValue]

/-!
## The parser loop

`yystep` is one turn of the loop of the generated parser on a lookahead token:
a shift, a reduction, or a turn of error recovery.  `yyerrstatus` counts down
from three as tokens are shifted after an error; while it is positive further
errors are not reported, and at three a token that cannot be shifted is thrown
away.

The token list is what the scanner returned before its first end of input.  A
scanner that fails calls `yyerror` itself, at the time its last token is
fetched, and then ends the input.
-/

/-- The parser between two turns of its loop. -/
structure Parser where
  pos : Pos
  errstatus : Nat
  state : ParserState
  deriving DecidableEq

/-- The outcome of a turn: the token is consumed, it is looked at again, the
parser returns, or the program stops. -/
inductive Turn where
  | next (p : Parser)
  | retry (p : Parser)
  | ret (code : Int) (s : ParserState)
  | fault (f : Fault)
  deriving DecidableEq

/-- One turn of the parser's loop. -/
def yystep (p : Parser) (tok : Option Token) : Turn :=
  match move p.pos tok with
  | .shift actions next recover =>
      match Action.runAll actions p.state with
      | .done s => .next { pos := next, errstatus := p.errstatus - 1, state := s }
      | .yyError s => .next { pos := recover, errstatus := 3, state := s }
      | .fault f => .fault f
  | .reduce actions next recover =>
      match Action.runAll actions p.state with
      | .done s => .retry { p with pos := next, state := s }
      | .yyError s => .retry { pos := recover, errstatus := 3, state := s }
      | .fault f => .fault f
  | .error =>
      if p.errstatus = 3 then
        match tok with
        | none => .ret 1 p.state
        | some _ =>
            .next { pos := p.pos.errorTarget, errstatus := 3, state := p.state }
      else
        let s := if p.errstatus = 0 then yyerror p.state else p.state
        .retry { pos := p.pos.errorTarget, errstatus := 3, state := s }
  | .accept => .ret 0 p.state

/-- What becomes of one token. -/
inductive Fed where
  | next (p : Parser)
  | ret (code : Int) (s : ParserState)
  | fault (f : Fault)
  deriving DecidableEq

/-- Turns of the loop until the token is consumed; three are always enough. -/
def feed : Nat → Parser → Option Token → Fed
  | 0, _, _ => .fault .stackOverflow
  | fuel + 1, p, tok =>
      match yystep p tok with
      | .next p' => .next p'
      | .retry p' => feed fuel p' tok
      | .ret code s => .ret code s
      | .fault f => .fault f

/-- The turns that one token can take. -/
def maxTurns : Nat := 3

/-- Feed a token to the parser. -/
def yytoken (p : Parser) (tok : Token) : Fed :=
  feed maxTurns p (some tok)

/-- Feed the end of input, which the parser does not shift. -/
def yyeof (p : Parser) : Except Fault (Int × ParserState) :=
  match feed maxTurns p none with
  | .ret code s => .ok (code, s)
  | .fault f => .error f
  | .next _ => .error .stackOverflow

/-- Feed tokens up to the end of input. -/
def yytokens (p : Parser) : List Token → Except Fault Parser
  | [] => .ok p
  | tok :: toks =>
      match yytoken p tok with
      | .next p' => yytokens p' toks
      | .fault f => .error f
      | .ret _ _ => .error .stackOverflow

/-- `yyparse`: its result code and the context it leaves. -/
def yyparse (p : Parser) (toks : List Token) (lexError : Bool) :
    Except Fault (Int × ParserState) := do
  let p' ← yytokens p toks
  if lexError then yyeof { p' with state := yyerror p'.state } else yyeof p'

/-- The parser at the start of `_blts_conf_parser_start`. -/
def Parser.initial (t : SymbolTable) : Parser where
  pos := .input
  errstatus := 0
  state :=
    { table := t
      currentSym := none
      valueList := []
      identList := []
      settingList := []
      parseErrors := 0 }

/-- `_blts_conf_parser_start`: the result, and the symbol table it fills. -/
def bltsConfParserStart (t : SymbolTable) (toks : List Token) (lexError : Bool) :
    Except Fault (Int × SymbolTable) := do
  let (ret, s) ← yyparse (.initial t) toks lexError
  if ret ≠ 0 then pure (ret, s.table) else pure (s.parseErrors, s.table)

end Blts.Config
