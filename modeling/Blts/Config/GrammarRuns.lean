import Blts.Config.Grammar

/-!
# The parser reads what the grammar says

`advances_item` evaluates the automaton on a written item: it comes back to
`input` exactly when the item can be declared, with the environment that the
declaration gives.  Each list of the grammar has a lemma that reads it at one
stroke.
-/

namespace Blts.Config

open Blts.Params

/-! ## Steps -/

section Steps

variable {pos next next' recover recover' : Pos} {s : ParserState} {tok : Token}
  {as as' : List Action}

theorem advance_shift (h : move pos (some tok) = .shift as next recover) :
    advance (pos, s) tok =
      (Action.runAll as s).done?.map fun s' => (next, s') := by
  simp only [advance, advanceFuel, maxTurns, h]

theorem advance_reduce (h : move pos (some tok) = .reduce as next recover)
    (h' : move next (some tok) = .shift as' next' recover') :
    advance (pos, s) tok =
      (Action.runAll as s).done?.bind fun s' =>
        (Action.runAll as' s').done?.map fun s'' => (next', s'') := by
  simp only [advance, advanceFuel, maxTurns, h, h']

end Steps

/-- A commit of a symbol that is there. -/
theorem done_commit {s : ParserState} {sym : SymbolTableEntry}
    (hsym : s.currentSym = some sym) :
    (commit s).done? =
      (insertEntry s.table sym).map fun t => { s with table := t } := by
  cases hins : symbolTableInsert s.table sym with
  | error f =>
      simp only [commit, commitCurrentSymbol, insertEntry, hsym, hins]
      rfl
  | ok r =>
      obtain ⟨ret, t⟩ := r
      simp only [commit, commitCurrentSymbol, insertEntry, hsym, hins]
      by_cases hret : ret = 0 <;> simp [hret, Outcome.done?]

/-- A value is done when it has one and there is a symbol for it. -/
theorem done_valueActions {tok : Token} {as : List Action} {s : ParserState}
    (htok : valueActions tok = some as) :
    (Action.runAll as s).done? =
      (valueOf s.table tok).bind fun val => (boxedValue val s).done? := by
  cases tok <;> cases htok <;> rw [runAll_singleton]
  case ident name =>
    simp only [Action.run, globalvalue, valueOf]
    cases hlookup : lookupEntry s.table name with
    | none => rfl
    | some e =>
        obtain ⟨key, data⟩ := e
        cases data with
        | boxedValue val => cases val <;> rfl
        | _ => rfl
  all_goals rfl

theorem valueActions_token (v : Value) :
    ∃ as, valueActions v.token = some as := by
  cases v <;> exact ⟨_, rfl⟩

/-- A value at a position that takes one. -/
theorem advance_value {pos next recover : Pos} {s : ParserState} {v : Value}
    (hmove : ∀ tok as, valueActions tok = some as →
      move pos (some tok) = .shift as next recover) :
    advance (pos, s) v.token =
      (v.eval s.table).bind fun val =>
        (boxedValue val s).done?.map fun s' => (next, s') := by
  obtain ⟨as, has⟩ := valueActions_token v
  rw [advance_shift (hmove _ _ has), done_valueActions has]
  unfold Value.eval
  cases valueOf s.table v.token <;> rfl

/-- What a value action does when the symbol is no global. -/
theorem done_boxedValue {s : ParserState} {sym : SymbolTableEntry}
    (hsym : s.currentSym = some sym) (hdata : ∀ v, sym.data ≠ .boxedValue v)
    (val : BoxedValue) :
    (boxedValue val s).done? = some { s with valueList := val :: s.valueList } := by
  obtain ⟨key, data⟩ := sym
  unfold boxedValue
  rw [hsym]
  cases data with
  | boxedValue v => exact absurd rfl (hdata v)
  | _ => rfl

/-! ## Lists -/

/-- A list of identifiers at a position that takes them. -/
theorem advances_idlist {pos recover : Pos} {rest : List Token}
    (hmove : ∀ name, move pos (some (.ident name)) =
      .shift [.idlist name] pos recover) (names : List String) :
    ∀ s : ParserState, advances (pos, s) (names.map .ident ++ rest) =
      (lookupAll s.table names).bind fun syms =>
        advances (pos, { s with identList := syms.reverse ++ s.identList })
          rest := by
  induction names with
  | nil => exact fun s => rfl
  | cons name names ih =>
      intro s
      simp only [List.map_cons, List.cons_append, advances_cons,
        advance_shift (hmove name), runAll_singleton, Action.run, idlist, lookupAll]
      cases symbolTableLookup s.table name with
      | none => rfl
      | some sym =>
          simp only [Outcome.done?, Option.map_some, Option.bind_some]
          rw [ih]
          cases lookupAll s.table names <;> simp

/-- The values after the first one in a list of constants. -/
theorem advances_constValues {rest : List Token} {key : String} {pd : ParamDef}
    (vals : List Value) :
    ∀ s : ParserState, s.currentSym = some ⟨key, .param pd⟩ →
      advances (.constValues, s) (vals.map Value.token ++ rest) =
        (Value.evalAll s.table vals).bind fun vs =>
          advances (.constValues,
            { s with valueList := vs.reverse ++ s.valueList }) rest := by
  have hmove : ∀ tok as, valueActions tok = some as →
      move .constValues (some tok) = .shift as .constValues .inputError := by
    intro tok as h
    simp only [move, Option.bind_some, h]
  induction vals with
  | nil => exact fun s _ => rfl
  | cons v vals ih =>
      intro s hsym
      simp only [List.map_cons, List.cons_append, advances_cons,
        advance_value hmove, Value.evalAll]
      cases v.eval s.table with
      | none => rfl
      | some val =>
          simp only [Option.bind_some, done_boxedValue hsym (by simp),
            Option.map_some]
          rw [ih { s with valueList := val :: s.valueList } hsym]
          cases Value.evalAll s.table vals <;> simp

/-! ## Items -/

/-- What can be seen of the automaton between items. -/
def observe (c : Pos × ParserState) : Pos × Env :=
  (c.1, c.2.env)

theorem observe_globals (lines : List GlobalLine) : ∀ s : ParserState,
    (advances (.globaldefines, s)
        (lines.flatMap GlobalLine.tokens ++ [.globEnd])).map observe =
      (lines.foldlM GlobalLine.declare s.env).map (Prod.mk .input) := by
  have hmove : ∀ tok as, valueActions tok = some as →
      move .valuedefValue (some tok) = .shift as .valuedefCr .inputError := by
    intro tok as h
    simp only [move, Option.bind_some, h, shiftValue]
  induction lines with
  | nil => exact fun s => rfl
  | cons line lines ih =>
      intro s
      rw [List.foldlM_cons]
      cases line with
      | blank => exact ih s
      | valuedef key val =>
          have hident : advance (.globaldefines, s) (.ident key) =
              some (.valuedefValue, startSymbol key (.boxedValue none) s) := rfl
          simp only [List.flatMap_cons, GlobalLine.tokens, List.cons_append,
            List.nil_append, advances_cons, hident, Option.bind_some,
            advance_value hmove]
          rw [show (startSymbol key (.boxedValue none) s).table = s.table from rfl]
          simp only [GlobalLine.declare, ParserState.env]
          cases val.eval s.table with
          | none => rfl
          | some v =>
              have hvalue : (boxedValue v
                  (startSymbol key (.boxedValue none) s)).done? =
                  some { startSymbol key (.boxedValue (some v)) s with
                    valueList := v :: s.valueList } := rfl
              have hcr (s' : ParserState) : advance (.valuedefCr, s') .cr =
                  (commit s').done?.map fun s'' => (.globaldefines, s'') := by
                rw [advance_shift rfl, runAll_singleton]
                rfl
              simp only [hvalue, Option.bind_some, Option.map_some, hcr]
              rw [done_commit rfl]
              simp only [startSymbol]
              cases insertEntry s.table ⟨key, .boxedValue (some v)⟩ with
              | none => rfl
              | some t => exact ih _

/-- A bound of a range, in the definition of a parameter. -/
theorem done_numericvalueActions {tok : Token} {as : List Action}
    {s : ParserState} {key : String} {pd : ParamDef}
    (htok : numericvalueActions tok = some as)
    (hsym : s.currentSym = some ⟨key, .param pd⟩) :
    (Action.runAll as s).done? =
      ((valueOf s.table tok).filter (numericOk tok)).map fun val =>
        { s with valueList := val :: s.valueList } := by
  have hvalue (val : BoxedValue) :
      boxedValue val s = .done { s with valueList := val :: s.valueList } :=
    boxedValue_param hsym val
  cases tok <;> cases htok
  case ident name =>
    simp only [Action.runAll, Action.run, globalvalue, valueOf]
    cases hlookup : lookupEntry s.table name with
    | none => rfl
    | some e =>
        obtain ⟨ekey, data⟩ := e
        cases data with
        | boxedValue val =>
            cases val with
            | none => rfl
            | some val =>
                simp only [hvalue, andThen_done, globalnumericvalue, hsym,
                  numericOk, Option.filter]
                cases val <;> rfl
        | _ => rfl
  all_goals
    rw [runAll_singleton]
    simp only [Action.run, hvalue]
    rfl

theorem numericvalueActions_token (v : NumericValue) :
    ∃ as, numericvalueActions v.token = some as := by
  cases v <;> exact ⟨_, rfl⟩

/-- The array of a list that was collected in reverse. -/
theorem identListCreateSymbolArray_reverse (syms : List SymRef) :
    identListCreateSymbolArray syms.reverse [] = syms := by
  cases syms <;> simp [identListCreateSymbolArray]

theorem done_andThen (o : Outcome) (f : ParserState → Outcome) :
    (o.andThen f).done? = o.done?.bind fun s => (f s).done? := by
  cases o <;> rfl

/-- The end marker of a definition that has been committed. -/
theorem observe_defEnd (kind : DefKind) (s : ParserState)
    (table : Option SymbolTable) :
    ((table.map fun t => (Pos.defEnd kind, { s with table := t })).bind fun c =>
        advances c [.defEnd kind]).map observe =
      (table.map fun t => { table := t, stale := s.valueList }).map
        (Prod.mk .input) := by
  cases table with
  | none => rfl
  | some t =>
      have hend (s' : ParserState) : advance (.defEnd kind, s') (.defEnd kind) =
          some (.input, s') := by
        simp [advance, advanceFuel, maxTurns, move, Action.runAll, Outcome.done?]
      simp only [Option.map_some, Option.bind_some, advances_cons, hend]
      rfl

/-- The end of a parameter whose values have been read. -/
theorem observe_paramEnd {s : ParserState} {key : String} {pd : ParamDef}
    (hsym : s.currentSym = some ⟨key, .param pd⟩) :
    ((((commit s).done?.map fun s' => (Pos.defEnd .param, s')).bind fun c =>
        advances c [.defEnd .param]).map observe) =
      ((insertEntry s.table ⟨key, .param pd⟩).map fun t =>
        { table := t, stale := s.valueList }).map (Prod.mk .input) := by
  rw [done_commit hsym, Option.map_map]
  exact observe_defEnd .param s _

/-- A list of values, read from the start of the second line of its parameter. -/
theorem observe_constvalues {s : ParserState} {key : String}
    (hsym : s.currentSym =
      some ⟨key, .param { type := .int, args := .constlist none }⟩)
    (first : Value) (rest : List Value) :
    (advances (.paramvalues, s)
        ((ParamValues.const first rest).tokens ++ [.cr, .defEnd .param])).map observe =
      (((ParamValues.const first rest).eval s.env).bind fun r =>
        (insertEntry s.table ⟨key, .param r.1⟩).map fun t =>
          { table := t, stale := r.2 : Env }).map (Prod.mk .input) := by
  let s₁ : ParserState := { s with
    currentSym :=
      some ⟨key, .param { type := .int, args := .constlist (some []) }⟩
    valueList := [] }
  have hconst : advance (.paramvalues, s) .const = some (.constFirst, s₁) := by
    rw [advance_shift rfl, runAll_singleton]
    simp only [Action.run, updateParam, updateSymbol, hsym, Except.map]
    rfl
  have hmove : ∀ tok as, valueActions tok = some as →
      move .constFirst (some tok) = .shift as .constValues .inputError := by
    intro tok as h
    simp only [move, Option.bind_some, h, shiftValue]
  have hend (vals : List BoxedValue) :
      advance (.constValues, { s₁ with valueList := vals }) .cr =
        (commit { s₁ with
          currentSym := some ⟨key, .param
            { type := .int, args := .constlist (some vals.reverse) }⟩
          valueList := [] }).done?.map fun s' => (.defEnd .param, s') := by
    rw [advance_reduce rfl rfl, runAll_singleton]
    simp only [runAll_singleton]
    rfl
  simp only [ParamValues.tokens, List.cons_append, advances_cons, hconst,
    Option.bind_some, advance_value hmove, ParamValues.eval, Value.evalAll]
  rw [show s₁.table = s.table from rfl, show s.env.table = s.table from rfl]
  cases first.eval s.table with
  | none => rfl
  | some val =>
      have hval : (boxedValue val s₁).done? =
          some { s₁ with valueList := [val] } := rfl
      simp only [hval, Option.bind_some, Option.map_some]
      rw [advances_constValues rest _ rfl]
      rw [show s₁.table = s.table from rfl]
      cases Value.evalAll s.table rest with
      | none => rfl
      | some vals =>
          simp only [Option.bind_some, Option.map_some, advances_cons]
          rw [hend]
          have hrev : (vals.reverse ++ [val]).reverse = val :: vals := by simp
          rw [hrev]
          exact observe_paramEnd rfl

/-- A range. -/
theorem observe_rangevalues {s : ParserState} {key : String}
    (hsym : s.currentSym =
      some ⟨key, .param { type := .int, args := .constlist none }⟩)
    (type : NumericTypespec) (low high : NumericValue) :
    (advances (.paramvalues, s)
        ((ParamValues.range type low high).tokens ++ [.cr, .defEnd .param])).map observe =
      (((ParamValues.range type low high).eval s.env).bind fun r =>
        (insertEntry s.table ⟨key, .param r.1⟩).map fun t =>
          { table := t, stale := r.2 : Env }).map (Prod.mk .input) := by
  let s₁ : ParserState := { s with
    currentSym :=
      some ⟨key, .param { type := .int, args := .range none none }⟩
    valueList := [] }
  have hrange : advance (.paramvalues, s) .range = some (.rangeType, s₁) := by
    rw [advance_shift rfl, runAll_singleton]
    simp only [Action.run, updateParam, updateSymbol, hsym, Except.map]
    rfl
  let s₂ : ParserState := { s₁ with
    currentSym :=
      some ⟨key, .param { type := type.type, args := .range none none }⟩ }
  have htype : advance (.rangeType, s₁) type.token = some (.rangeLow, s₂) := by
    cases type <;> rfl
  obtain ⟨lowActions, hlow⟩ := numericvalueActions_token low
  obtain ⟨highActions, hhigh⟩ := numericvalueActions_token high
  have hlowMove : move .rangeLow (some low.token) =
      .shift lowActions .rangeHigh .inputError := by
    simp only [move, Option.bind_some, hlow, shiftValue]
  have hhighMove : move .rangeHigh (some high.token) =
      .shift (highActions ++ [.rangeEnd]) .paramvaluesCr .inputError := by
    simp only [move, Option.bind_some, hhigh, Option.map_some, shiftValue]
  have hcr (s' : ParserState) : advance (.paramvaluesCr, s') .cr =
      (commit s').done?.map fun s'' => (.defEnd .param, s'') := by
    rw [advance_shift rfl, runAll_singleton]
    rfl
  simp only [ParamValues.tokens, List.cons_append, List.nil_append,
    advances_cons, hrange, htype, Option.bind_some, advance_shift hlowMove,
    done_numericvalueActions (s := s₂) hlow rfl, ParamValues.eval,
    NumericValue.eval]
  rw [show s₂.table = s.table from rfl, show s.env.table = s.table from rfl]
  cases (valueOf s.table low.token).filter (numericOk low.token) with
  | none => rfl
  | some lowBound =>
      simp only [Option.map_some, Option.bind_some, advance_shift hhighMove,
        runAll_append, done_andThen,
        done_numericvalueActions (s := { s₂ with
            table := s.table, valueList := lowBound :: s₂.valueList })
          hhigh rfl]
      cases (valueOf s.table high.token).filter (numericOk high.token) with
      | none => rfl
      | some highBound =>
          have hrangeEnd : (Action.runAll [.rangeEnd]
              { s₂ with
                table := s.table
                valueList := highBound :: lowBound :: s₂.valueList }).done? =
            some { s₂ with
              currentSym := some ⟨key, .param
                { type := type.type
                  args := .range (some lowBound) (some highBound) }⟩
              valueList := [] } := rfl
          simp only [Option.map_some, Option.bind_some, hrangeEnd, hcr]
          exact observe_paramEnd rfl

/-- Generated values. -/
theorem observe_generatevalues {s : ParserState} {key : String}
    (hsym : s.currentSym =
      some ⟨key, .param { type := .int, args := .constlist none }⟩)
    (fn : String) (args : List String) :
    (advances (.paramvalues, s)
        ((ParamValues.generate fn args).tokens ++ [.cr, .defEnd .param])).map observe =
      (((ParamValues.generate fn args).eval s.env).bind fun r =>
        (insertEntry s.table ⟨key, .param r.1⟩).map fun t =>
          { table := t, stale := r.2 : Env }).map (Prod.mk .input) := by
  let s₁ : ParserState := { s with
    currentSym :=
      some ⟨key, .param { type := .int, args := .generated fn [] }⟩
    identList := [] }
  have hgenerate : advance (.paramvalues, s) .generate =
      some (.generateName, s) := rfl
  have hname : advance (.generateName, s) (.ident fn) =
      some (.generateArgs, s₁) := by
    rw [advance_shift rfl, runAll_singleton]
    simp only [Action.run, updateParam, updateSymbol, hsym, Except.map]
    rfl
  have hend (idents : List SymRef) :
      advance (.generateArgs, { s₁ with identList := idents }) .cr =
        (commit { s₁ with
          currentSym := some ⟨key, .param
            { type := .int
              args := .generated fn
                (identListCreateSymbolArray idents []) }⟩
          identList := [] }).done?.map fun s' => (.defEnd .param, s') := by
    rw [advance_reduce rfl rfl, runAll_singleton]
    simp only [runAll_singleton]
    rfl
  simp only [ParamValues.tokens, List.cons_append, advances_cons, hgenerate,
    hname, Option.bind_some, ParamValues.eval]
  rw [advances_idlist (fun _ => rfl)]
  rw [show s₁.table = s.table from rfl, show s.env.table = s.table from rfl]
  cases lookupAll s.table args with
  | none => rfl
  | some syms =>
      simp only [Option.bind_some, Option.map_some, advances_cons]
      rw [show s₁.identList = [] from rfl, List.append_nil, hend,
        identListCreateSymbolArray_reverse]
      exact observe_paramEnd rfl

/-- The values of a parameter, read from the start of its second line. -/
theorem observe_paramvalues {s : ParserState} {key : String}
    (hsym : s.currentSym =
      some ⟨key, .param { type := .int, args := .constlist none }⟩)
    (values : ParamValues) :
    (advances (.paramvalues, s)
        (values.tokens ++ [.cr, .defEnd .param])).map observe =
      ((values.eval s.env).bind fun r =>
        (insertEntry s.table ⟨key, .param r.1⟩).map fun t =>
          { table := t, stale := r.2 : Env }).map (Prod.mk .input) := by
  cases values with
  | const first rest => exact observe_constvalues hsym first rest
  | range type low high => exact observe_rangevalues hsym type low high
  | generate fn args => exact observe_generatevalues hsym fn args

/-! ### Groups -/

theorem lookupAll_append (t : SymbolTable) (xs ys : List String) :
    lookupAll t (xs ++ ys) =
      (lookupAll t xs).bind fun a => (lookupAll t ys).map fun b => a ++ b := by
  induction xs with
  | nil =>
      simp only [List.nil_append, lookupAll, Option.bind_some]
      cases lookupAll t ys <;> rfl
  | cons x xs ih =>
      simp only [List.cons_append, lookupAll, ih]
      cases symbolTableLookup t x with
      | none => rfl
      | some sym =>
          cases lookupAll t xs with
          | none => rfl
          | some a => cases lookupAll t ys <;> rfl

/-- A line of a group. -/
theorem advances_pgroupLine (s : ParserState) (names : List String)
    (rest : List Token) :
    advances (.pgroupcontents, s) (idlistTokens names ++ rest) =
      (lookupAll s.table names).bind fun syms =>
        advances (.pgroupcontents,
          { s with identList := syms.reverse ++ s.identList }) rest := by
  have hidlist : advances (.pgroupcontents, s) (idlistTokens names ++ rest) =
      advances (.pgroupIdlist, s) (names.map .ident ++ (.cr :: rest)) := by
    cases names <;> simp only [idlistTokens, List.append_assoc] <;> rfl
  rw [hidlist, advances_idlist (fun _ => rfl)]
  rfl

theorem advances_pgroupLines {rest : List Token} (lines : List (List String)) :
    ∀ s : ParserState,
      advances (.pgroupcontents, s) (lines.flatMap idlistTokens ++ rest) =
        (lookupAll s.table lines.flatten).bind fun syms =>
          advances (.pgroupcontents,
            { s with identList := syms.reverse ++ s.identList }) rest := by
  induction lines with
  | nil => exact fun s => rfl
  | cons line lines ih =>
      intro s
      rw [List.flatMap_cons, List.append_assoc, advances_pgroupLine,
        List.flatten_cons, lookupAll_append]
      cases lookupAll s.table line with
      | none => rfl
      | some syms =>
          simp only [Option.bind_some, ih]
          cases lookupAll s.table lines.flatten <;> simp

/-- A group, read from the start of its second line. -/
theorem observe_pgroup {s : ParserState} {key : String}
    (hsym : s.currentSym = some ⟨key, .pgroup []⟩) (hident : s.identList = [])
    (lines : List (List String)) :
    (advances (.pgroupBody, s)
        (lines.flatMap idlistTokens ++ [.defEnd .pgroup])).map observe =
      ((lookupAll s.table lines.flatten).bind fun syms =>
        (insertEntry s.table ⟨key, .pgroup syms⟩).map fun t =>
          { s.env with table := t }).map (Prod.mk .input) := by
  have hbody : advances (.pgroupBody, s)
      (lines.flatMap idlistTokens ++ [.defEnd .pgroup]) =
      advances (.pgroupcontents, s)
        (lines.flatMap idlistTokens ++ [.defEnd .pgroup]) := by
    cases lines with
    | nil => rfl
    | cons line lines => cases line <;> rfl
  have hend (idents : List SymRef) :
      advance (.pgroupcontents, { s with identList := idents })
          (.defEnd .pgroup) =
        (commit { s with
          currentSym :=
            some ⟨key, .pgroup (identListCreateSymbolArray idents [])⟩
          identList := [] }).done?.map fun s' => (.input, s') := by
    rw [advance_reduce rfl rfl, runAll_singleton]
    simp only [Action.run, Action.pgroupdefEndRun, updateSymbol, hsym, andThen_done]
    cases (commit _).done? <;> rfl
  rw [hbody, advances_pgroupLines]
  cases lookupAll s.table lines.flatten with
  | none => rfl
  | some syms =>
      simp only [Option.bind_some, advances_cons, hident, List.append_nil, hend,
        identListCreateSymbolArray_reverse]
      rw [done_commit rfl]
      cases insertEntry s.table ⟨key, .pgroup syms⟩ <;> rfl

/-! ### Tests -/

/-- A `fix` line, in a test or in a testset: the value list holds its value and
is emptied at its end. -/
theorem advances_fix {body name value cr recover : Pos} {s : ParserState}
    {sym : SymbolTableEntry} (hsym : s.currentSym = some sym)
    (hdata : ∀ v, sym.data ≠ .boxedValue v)
    (hfix : move body (some .fix) = .shift [] name recover)
    (hname : ∀ n, move name (some (.ident n)) =
      .shift [.fixStart n] value recover)
    (hvalue : ∀ tok as, valueActions tok = some as →
      move value (some tok) = .shift as cr recover)
    (hcr : move cr (some .cr) = .shift [.fixEnd] body recover)
    (key : String) (val : Value) (rest : List Token) :
    advances (body, s) (fixTokens key val ++ rest) =
      (evalFix s.table key val).bind fun setting =>
        advances (body, { s with
          settingList := setting :: s.settingList
          valueList := [] }) rest := by
  have hstart : advance (body, s) .fix = some (name, s) := by
    rw [advance_shift hfix]
    rfl
  have hident : advance (name, s) (.ident key) =
      (symbolTableLookup s.table key).map fun param =>
        (value, { s with
          valueList := []
          settingList := .fix param none :: s.settingList }) := by
    rw [advance_shift (hname key), runAll_singleton]
    simp only [Action.run, Action.fixStartRun]
    cases symbolTableLookup s.table key <;> rfl
  simp only [fixTokens, List.cons_append, List.nil_append, advances_cons, hstart,
    Option.bind_some, hident, evalFix]
  cases symbolTableLookup s.table key with
  | none => rfl
  | some param =>
      simp only [Option.map_some, Option.bind_some, advance_value hvalue]
      cases val.eval s.table with
      | none => rfl
      | some v =>
          simp only [Option.bind_some, Option.map_some]
          rw [done_boxedValue (s := { s with
              valueList := [], settingList := .fix param none :: s.settingList })
            hsym hdata, Option.map_some, Option.bind_some, advance_shift hcr,
            runAll_singleton]
          rfl

/-- The identifiers left behind by the lines of a test. -/
def identsAfter (lines : List SettingLine) (idents : List SymRef) :
    List SymRef :=
  lines.foldl (fun idents line =>
    match line with
    | .params _ => []
    | _ => idents) idents

theorem advances_settingLine {s : ParserState} {key : String} {td : TestDef}
    (hsym : s.currentSym = some ⟨key, .test td⟩) (line : SettingLine)
    (rest : List Token) :
    advances (.testsettings, s) (line.tokens ++ rest) =
      (line.eval s.table).bind fun setting =>
        advances (.testsettings, { s with
          settingList := setting :: s.settingList
          identList := identsAfter [line] s.identList
          valueList := if line.isFix then [] else s.valueList }) rest := by
  cases line with
  | params names =>
      let s₁ : ParserState := { s with
        settingList := .paramlist [] :: s.settingList
        identList := [] }
      have hparams : advance (.testsettings, s) .params =
          some (.paramsIdlist, s₁) := rfl
      have hcr (idents : List SymRef) :
          advance (.paramsIdlist, { s₁ with identList := idents }) .cr =
            some (.testsettings, { s with
              settingList :=
                .paramlist (identListCreateSymbolArray idents []) ::
                  s.settingList
              identList := [] }) := rfl
      simp only [SettingLine.tokens, idlistTokens, List.cons_append,
        List.append_assoc, List.nil_append, advances_cons, hparams,
        Option.bind_some]
      rw [advances_idlist (fun _ => rfl)]
      rw [show s₁.table = s.table from rfl]
      simp only [SettingLine.eval]
      cases lookupAll s.table names with
      | none => rfl
      | some syms =>
          simp only [Option.bind_some, Option.map_some, advances_cons]
          rw [show s₁.identList = [] from rfl, List.append_nil, hcr,
            identListCreateSymbolArray_reverse]
          rfl
  | pgroup name =>
      have hcr : advance (.pgroupCr name, s) .cr =
          (symbolTableLookup s.table name).map fun sym =>
            (.testsettings, { s with
              settingList := .pgroup sym :: s.settingList }) := by
        rw [advance_shift rfl, runAll_singleton]
        simp only [Action.run, Action.pgroupSettingRun]
        cases symbolTableLookup s.table name <;> rfl
      have htokens : advances (.testsettings, s)
          ((SettingLine.pgroup name).tokens ++ rest) =
          (advance (.pgroupCr name, s) .cr).bind fun c => advances c rest := rfl
      rw [htokens, hcr]
      simp only [SettingLine.eval]
      cases symbolTableLookup s.table name <;> rfl
  | fix name val =>
      have hvalue : ∀ tok as, valueActions tok = some as →
          move .fixValue (some tok) = .shift as .fixCr .testError := by
        intro tok as h
        simp only [move, Option.bind_some, h, shiftValue]
      exact advances_fix hsym (by simp) rfl (fun _ => rfl) hvalue rfl name val rest

theorem advances_settingLines {key : String} {td : TestDef} {rest : List Token}
    (lines : List SettingLine) :
    ∀ s : ParserState, s.currentSym = some ⟨key, .test td⟩ →
      advances (.testsettings, s) (lines.flatMap SettingLine.tokens ++ rest) =
        (SettingLine.evalAll s.table lines).bind fun settings =>
          advances (.testsettings, { s with
            settingList := settings.reverse ++ s.settingList
            identList := identsAfter lines s.identList
            valueList :=
              if lines.any SettingLine.isFix then [] else s.valueList }) rest := by
  induction lines with
  | nil => exact fun s _ => rfl
  | cons line lines ih =>
      intro s hsym
      rw [List.flatMap_cons, List.append_assoc, advances_settingLine hsym]
      simp only [SettingLine.evalAll]
      cases line.eval s.table with
      | none => rfl
      | some setting =>
          simp only [Option.bind_some]
          rw [ih { s with
            settingList := setting :: s.settingList
            identList := identsAfter [line] s.identList
            valueList := if line.isFix then [] else s.valueList } hsym]
          cases SettingLine.evalAll s.table lines with
          | none => rfl
          | some settings =>
              simp only [Option.bind_some, Option.map_some, List.reverse_cons,
                List.append_assoc, List.cons_append, List.nil_append,
                List.any_cons, identsAfter, List.foldl_cons, List.foldl_nil]
              by_cases hfix : line.isFix = true <;> simp [hfix]

/-- A test, read from the start of its second line. -/
theorem observe_test {s : ParserState} {key : String}
    (hsym : s.currentSym = some ⟨key, .test .empty⟩) (hset : s.settingList = [])
    (gap : Bool) (lines : List SettingLine) :
    (advances (.testBody, s)
        ((if gap then [.cr] else []) ++
          (lines.flatMap SettingLine.tokens ++ [.defEnd .test]))).map observe =
      ((SettingLine.evalAll s.table lines).bind fun settings =>
        (insertEntry s.table
          ⟨key, .test { TestDef.empty with settings := settings }⟩).map fun t =>
            { table := t
              stale :=
                if lines.any SettingLine.isFix then [] else s.valueList : Env }).map
          (Prod.mk .input) := by
  have hbody : advances (.testBody, s)
      ((if gap then [.cr] else []) ++
        (lines.flatMap SettingLine.tokens ++ [.defEnd .test])) =
      advances (.testsettings, s)
        (lines.flatMap SettingLine.tokens ++ [.defEnd .test]) := by
    cases gap with
    | true => rfl
    | false =>
        cases lines with
        | nil => rfl
        | cons line lines => cases line <;> rfl
  have hend (s' : ParserState) (settings : List TestSetting)
      (hsym' : s'.currentSym = some ⟨key, .test .empty⟩)
      (hset' : s'.settingList = settings.reverse) :
      (advance (.testsettings, s') (.defEnd .test)).map observe =
        ((insertEntry s'.table
          ⟨key, .test { TestDef.empty with settings := settings }⟩).map fun t =>
            { table := t, stale := s'.valueList }).map (Prod.mk .input) := by
    rw [advance_reduce rfl rfl, runAll_singleton]
    simp only [Action.run, Action.testdefEndRun]
    cases settings with
    | nil =>
        rw [hset', List.reverse_nil, List.isEmpty_nil, if_pos rfl,
          done_commit hsym']
        simp only [show ({ TestDef.empty with settings := [] } : TestDef) =
          TestDef.empty from rfl]
        cases insertEntry s'.table ⟨key, .test .empty⟩ <;> rfl
    | cons setting settings =>
        have harray : settinglistCreateSettingArray s'.settingList [] =
            setting :: settings := by
          simp [settinglistCreateSettingArray, hset']
        rw [if_neg (by simp [hset'])]
        simp only [updateSymbol, hsym', andThen_done,
          show TestDef.empty.settings = [] from rfl, harray]
        rw [done_commit rfl]
        cases insertEntry s'.table _ <;> rfl
  rw [hbody, advances_settingLines _ _ hsym]
  cases SettingLine.evalAll s.table lines with
  | none => rfl
  | some settings =>
      have hlast (c : Pos × ParserState) (tok : Token) :
          advances c [tok] = advance c tok := by
        rw [advances_cons]
        cases advance c tok <;> rfl
      rw [Option.bind_some, hlast]
      exact hend _ settings hsym (by simp [hset])

/-! ### Testsets -/

theorem advances_testsetFixes {key : String} {td : TestsetDef}
    {rest : List Token} (fixes : List (String × Value)) :
    ∀ s : ParserState, s.currentSym = some ⟨key, .testset td⟩ →
      advances (.testsetsettings, s)
          (fixes.flatMap (fun f => fixTokens f.1 f.2) ++ rest) =
        (SettingLine.evalAll s.table (fixes.map fun f => .fix f.1 f.2)).bind
          fun settings =>
            advances (.testsetsettings, { s with
              settingList := settings.reverse ++ s.settingList
              valueList := if fixes = [] then s.valueList else [] }) rest := by
  have hvalue : ∀ tok as, valueActions tok = some as →
      move .testsetFixValue (some tok) = .shift as .testsetFixCr .inputError := by
    intro tok as h
    simp only [move, Option.bind_some, h, shiftValue]
  induction fixes with
  | nil => exact fun s _ => rfl
  | cons f fixes ih =>
      intro s hsym
      rw [List.flatMap_cons, List.append_assoc,
        advances_fix hsym (by simp) rfl (fun _ => rfl) hvalue rfl]
      simp only [List.map_cons, SettingLine.evalAll, SettingLine.eval]
      cases evalFix s.table f.1 f.2 with
      | none => rfl
      | some setting =>
          simp only [Option.bind_some]
          rw [ih { s with
            settingList := setting :: s.settingList, valueList := [] } hsym]
          cases SettingLine.evalAll s.table (fixes.map fun f => .fix f.1 f.2) with
          | none => rfl
          | some settings => simp

/-- The names of a testset are collected in front of what the value list holds
already. -/
theorem advances_testlist {key : String} {td : TestsetDef} {rest : List Token}
    (names : List String) :
    ∀ s : ParserState, s.currentSym = some ⟨key, .testset td⟩ →
      advances (.testlist, s) (names.map .string ++ rest) =
        advances (.testlist, { s with
          valueList :=
            (names.map BoxedValue.string).reverse ++ s.valueList }) rest := by
  induction names with
  | nil => exact fun s _ => rfl
  | cons name names ih =>
      intro s hsym
      have hname : advance (.testlist, s) (.string name) =
          some (.testlist, { s with
            valueList := .string name :: s.valueList }) := by
        rw [advance_shift rfl, runAll_singleton]
        exact congrArg (Option.map _)
          (done_boxedValue hsym (by simp) (.string name))
      simp only [List.map_cons, List.cons_append, advances_cons, hname,
        Option.bind_some]
      rw [ih { s with valueList := .string name :: s.valueList } hsym]
      simp

/-- The settings of a testset end at its keyword, which drops the value list or
keeps it. -/
theorem advance_exec {s : ParserState} {key : String}
    (hsym : s.currentSym =
      some ⟨key, .testset { execType := .serial, settings := [], tests := [] }⟩)
    (settings : List TestSetting) (hset : s.settingList = settings.reverse)
    (type : TestsetExec) :
    advance (.testsetsettings, s) (.exec type) =
      some (.testlist, { s with
        currentSym := some ⟨key, .testset
          { execType := type, settings := settings, tests := [] }⟩
        settingList := []
        identList := []
        valueList := if type = .serial then [] else s.valueList }) := by
  have harray : settinglistCreateSettingArray s.settingList [] = settings := by
    cases settings <;> simp [settinglistCreateSettingArray, hset]
  rw [advance_reduce rfl rfl, runAll_singleton]
  simp only [runAll_singleton, Action.run, Action.testsetsettingsEndRun,
    updateTestset, updateSymbol, hsym, andThen_done, harray]
  cases type <;> rfl

/-- The end of the list of names, where the tests are looked up. -/
theorem advance_testlistEnd {s : ParserState} {key : String} {td : TestsetDef}
    (hsym : s.currentSym = some ⟨key, .testset td⟩) :
    ((advance (.testlist, s) .cr).bind fun c =>
        advances c [.defEnd .testset]).map observe =
      ((((identlistLookupFromBoxedKeys s.table s.valueList).map
          List.reverse).filter fun syms => !syms.isEmpty).bind fun tests =>
        (insertEntry s.table ⟨key, .testset { td with tests := tests }⟩).map
          fun t => { table := t, stale := [] : Env }).map (Prod.mk .input) := by
  rw [advance_shift rfl]
  simp only [Action.runAll, Action.run, Action.testlistEndRun, andThen_done,
    Action.testsetdefEndRun]
  cases identlistLookupFromBoxedKeys s.table s.valueList with
  | none => rfl
  | some syms =>
      cases syms with
      | nil => rfl
      | cons sym syms =>
          have harray : identListCreateSymbolArray (sym :: syms) td.tests =
              (sym :: syms).reverse := rfl
          have hfilter : (some (sym :: syms).reverse).filter
              (fun syms => !syms.isEmpty) = some (sym :: syms).reverse := by
            simp [Option.filter]
          rw [if_neg (by simp)]
          simp only [updateTestset, updateSymbol, hsym, andThen_done,
            Option.getD_some, harray, Option.map_some, hfilter, Option.bind_some]
          rw [done_andThen, done_commit rfl]
          cases insertEntry s.table _ <;> rfl

/-- A testset, read from the start of its second line. -/
theorem observe_testset {s : ParserState} {key : String}
    (hsym : s.currentSym =
      some ⟨key, .testset { execType := .serial, settings := [], tests := [] }⟩)
    (hset : s.settingList = []) (fixes : List (String × Value))
    (type : TestsetExec) (names : List String) :
    (advances (.testsetsettings, s)
        (fixes.flatMap (fun f => fixTokens f.1 f.2) ++
          (.exec type :: (names.map .string ++ [.cr, .defEnd .testset])))).map
        observe =
      ((SettingLine.evalAll s.table (fixes.map fun f => .fix f.1 f.2)).bind
        fun settings =>
          (evalTests s.table (staleInTestlist s.valueList fixes type) names).bind
            fun tests =>
              (insertEntry s.table
                ⟨key, .testset
                  { execType := type, settings := settings, tests := tests }⟩).map
                fun t => { table := t, stale := [] : Env }).map
          (Prod.mk .input) := by
  rw [advances_testsetFixes fixes s hsym]
  cases SettingLine.evalAll s.table (fixes.map fun f => .fix f.1 f.2) with
  | none => rfl
  | some settings =>
      let s₁ : ParserState := { s with
        settingList := settings.reverse ++ s.settingList
        valueList := if fixes = [] then s.valueList else [] }
      have hexec := advance_exec (s := s₁) hsym settings
        (by simp [s₁, hset]) type
      have hstale : (if type = .serial then [] else s₁.valueList) =
          staleInTestlist s.valueList fixes type := by
        unfold staleInTestlist
        by_cases htype : type = .serial <;> by_cases hfixes : fixes = [] <;>
          simp [s₁, htype, hfixes]
      rw [Option.bind_some, advances_cons, hexec, Option.bind_some,
        advances_testlist names _ rfl, advances_cons, advance_testlistEnd rfl, hstale]
      rfl

/-! ## Configurations -/

/-- **One item.**  The parser reads a written item exactly when the item can be
declared, and is left with what the declaration gives. -/
theorem observe_item (item : Item) (s : ParserState) :
    (advances (.input, s) item.tokens).map observe =
      (item.declare s.env).map (Prod.mk .input) := by
  cases item with
  | blank => rfl
  | globals lines => exact observe_globals lines s
  | param key values => exact observe_paramvalues (s := startSymbol key _ s) rfl values
  | pgroup key lines =>
      exact observe_pgroup (s := { startSymbol key _ s with identList := [] }) rfl
        rfl lines
  | test key gap settings =>
      exact observe_test (s := { startSymbol key _ s with settingList := [] }) rfl
        rfl gap settings
  | testset key fixes type names =>
      exact observe_testset (s := { startSymbol key _ s with settingList := [] })
        rfl rfl fixes type names

/-- **A list of items** is read one after the other. -/
theorem observe_items (items : List Item) : ∀ s : ParserState,
    (advances (.input, s) (items.flatMap Item.tokens)).map observe =
      (declareAll s.env items).map (Prod.mk .input) := by
  induction items with
  | nil => exact fun s => rfl
  | cons item items ih =>
      intro s
      have hitem := observe_item item s
      rw [List.flatMap_cons, advances_append]
      unfold declareAll
      rw [List.foldlM_cons]
      cases hadv : advances (.input, s) item.tokens with
      | none =>
          rw [hadv] at hitem
          cases hdec : item.declare s.env with
          | none => rfl
          | some env =>
              rw [hdec] at hitem
              cases hitem
      | some c =>
          rw [hadv] at hitem
          cases hdec : item.declare s.env with
          | none =>
              rw [hdec] at hitem
              cases hitem
          | some env =>
              rw [hdec] at hitem
              obtain ⟨pos, s'⟩ := c
              simp only [observe, Option.map_some, Option.some.injEq,
                Prod.mk.injEq] at hitem
              obtain ⟨rfl, rfl⟩ := hitem
              exact ih s'

end Blts.Config
