import Blts.Config.Automaton
import Blts.Params.TableKept

/-!
# What parsing does to the symbol table

The actions touch the table in one place: the commit of the symbol being built.
Until then the identifiers in the lists lead to symbols that are in the table
already, and the arguments of a generator are copied from such a list, so that
a parameter that is committed refers to earlier entries.  This survives every
error, since recovery only drops what is being built.
-/

/-!
## Invariants of the semantic actions

A property of the context that every semantic action keeps, and that `yyerror`
keeps, holds wherever the parser is: the tables of the automaton and the error
recovery only choose which actions run.
-/

namespace Blts.Config

open Blts.Params

variable {I : ParserState → Prop} {F : Fault → Prop}

/-- The property holds after an action, or the fault is a tolerated one. -/
def OutcomeIn (I : ParserState → Prop) (F : Fault → Prop) : Outcome → Prop
  | .done s => I s
  | .yyError s => I s
  | .fault f => F f

/-- Every action keeps the property. -/
structure KeptByActions (I : ParserState → Prop) (F : Fault → Prop) : Prop where
  run : ∀ (a : Action) (s : ParserState), I s → OutcomeIn I F (a.run s)
  yyerror : ∀ s : ParserState, I s → I (yyerror s)
  stackOverflow : F .stackOverflow

/-- The property after a turn of the parser. -/
def TurnIn (I : ParserState → Prop) (F : Fault → Prop) : Turn → Prop
  | .next p => I p.state
  | .retry p => I p.state
  | .ret _ s => I s
  | .fault f => F f

/-- The property after a token. -/
def FedIn (I : ParserState → Prop) (F : Fault → Prop) : Fed → Prop
  | .next p => I p.state
  | .ret _ s => I s
  | .fault f => F f

namespace KeptByActions

variable (h : KeptByActions I F)
include h

theorem runAll (as : List Action) : ∀ {s : ParserState}, I s →
    OutcomeIn I F (Action.runAll as s) := by
  induction as with
  | nil => exact fun hs => hs
  | cons a as ih =>
      intro s hs
      have hrun := h.run a s hs
      unfold Action.runAll
      cases hout : a.run s <;> rw [hout] at hrun
      case done s' => exact ih hrun
      all_goals exact hrun

theorem yystep {p : Parser} (hp : I p.state) (tok : Option Token) :
    TurnIn I F (yystep p tok) := by
  unfold Config.yystep
  cases move p.pos tok with
  | shift as next recover =>
      have hrun := h.runAll as hp
      dsimp only
      cases hout : Action.runAll as p.state <;> rw [hout] at hrun <;> exact hrun
  | reduce as next recover =>
      have hrun := h.runAll as hp
      dsimp only
      cases hout : Action.runAll as p.state <;> rw [hout] at hrun <;> exact hrun
  | error =>
      by_cases hthree : p.errstatus = 3
      · simp only [if_pos hthree]
        cases tok <;> exact hp
      · simp only [if_neg hthree]
        by_cases hzero : p.errstatus = 0
        · rw [if_pos hzero]
          exact h.yyerror _ hp
        · rw [if_neg hzero]
          exact hp
  | accept => exact hp

theorem feed (n : Nat) : ∀ {p : Parser}, I p.state → ∀ tok : Option Token,
    FedIn I F (feed n p tok) := by
  induction n with
  | zero => exact fun _ _ => h.stackOverflow
  | succ n ih =>
      intro p hp tok
      have hturn := h.yystep hp tok
      unfold Config.feed
      cases hstep : Config.yystep p tok <;> rw [hstep] at hturn
      case retry p' => exact ih hturn tok
      all_goals exact hturn

theorem yytokens (toks : List Token) : ∀ {p : Parser}, I p.state →
    match yytokens p toks with
    | .ok p' => I p'.state
    | .error f => F f := by
  induction toks with
  | nil => exact fun hp => hp
  | cons tok toks ih =>
      intro p hp
      have hfed := h.feed maxTurns hp (some tok)
      unfold Config.yytokens yytoken
      cases hf : Config.feed maxTurns p (some tok) <;> rw [hf] at hfed
      case next p' => exact ih hfed
      case ret code s => exact h.stackOverflow
      case fault f => exact hfed

theorem yyeof {p : Parser} (hp : I p.state) :
    match yyeof p with
    | .ok (_, s) => I s
    | .error f => F f := by
  have hfed := h.feed maxTurns hp none
  unfold Config.yyeof
  cases hf : Config.feed maxTurns p none <;> rw [hf] at hfed
  case next p' => exact h.stackOverflow
  all_goals exact hfed

/-- **The invariant rule of the parser.** -/
theorem yyparse {p : Parser} (hp : I p.state) (toks : List Token)
    (lexError : Bool) :
    match yyparse p toks lexError with
    | .ok (_, s) => I s
    | .error f => F f := by
  have hrun := h.yytokens toks hp
  unfold Config.yyparse
  cases htoks : Config.yytokens p toks <;> rw [htoks] at hrun
  case error f => exact hrun
  case ok p' =>
    cases lexError with
    | true =>
        exact h.yyeof (p := { p' with state := Config.yyerror p'.state })
          (h.yyerror _ hrun)
    | false => exact h.yyeof hrun

theorem bltsConfParserStart {t : SymbolTable} (ht : I (Parser.initial t).state)
    (toks : List Token) (lexError : Bool) :
    match bltsConfParserStart t toks lexError with
    | .ok (_, t') => ∃ s, I s ∧ s.table = t'
    | .error f => F f := by
  have hrun := h.yyparse ht toks lexError
  unfold Config.bltsConfParserStart
  cases hparse : Config.yyparse (.initial t) toks lexError with
  | error f =>
      rw [hparse] at hrun
      exact hrun
  | ok r =>
      obtain ⟨ret, s⟩ := r
      rw [hparse] at hrun
      simp only [bind, Except.bind]
      by_cases hret : ret = 0
      · rw [if_neg (not_not_intro hret)]
        exact ⟨s, hrun, rfl⟩
      · rw [if_pos hret]
        exact ⟨s, hrun, rfl⟩

end KeptByActions

/-- The table is in order, and what is being built refers to its entries. -/
structure TableKept (s : ParserState) : Prop where
  table : TableOk s.table
  idents : ∀ ref ∈ s.identList, ref < s.table.top
  symbol : ∀ sym, s.currentSym = some sym →
    ∀ ref ∈ generatedRefs sym.data, ref < s.table.top

/-- Faults of the parser other than a write outside of the table. -/
def NotTableWrite (f : Fault) : Prop :=
  f ≠ .tableWrite

theorem notTableWrite_nullDeref : NotTableWrite .nullDeref := fun h => by cases h

theorem notTableWrite_wrongMember : NotTableWrite .wrongMember :=
  fun h => by cases h

/-- A write refers to nothing but what the symbol referred to before and what
is in the list of identifiers. -/
def RefersInside (s : ParserState) (data : SymbolData) :
    Except Fault SymbolData → Prop
  | .ok data' => ∀ ref ∈ generatedRefs data',
      ref ∈ generatedRefs data ∨ ref ∈ s.identList
  | .error f => NotTableWrite f

namespace TableKept

variable {s : ParserState}

/-- Lists of values and of settings are not looked at. -/
theorem of_eq {s' : ParserState} (h : TableKept s) (htable : s'.table = s.table)
    (hident : s'.identList = s.identList) (hsym : s'.currentSym = s.currentSym) :
    TableKept s' := by
  constructor
  · exact htable ▸ h.table
  · rw [htable, hident]
    exact h.idents
  · rw [htable, hsym]
    exact h.symbol

/-- An empty list of identifiers. -/
theorem clear (h : TableKept s) : TableKept { s with identList := [] } :=
  ⟨h.table, fun _ href => absurd href List.not_mem_nil, h.symbol⟩

theorem yyerror (h : TableKept s) : TableKept (yyerror s) :=
  ⟨h.table, fun _ href => absurd href List.not_mem_nil,
    fun sym hsym => by cases hsym⟩

theorem startSymbol (h : TableKept s) (key : String) {data : SymbolData}
    (hdata : generatedRefs data = []) : TableKept (startSymbol key data s) := by
  refine ⟨h.table, h.idents, ?_⟩
  intro sym hsym ref href
  cases hsym
  rw [hdata] at href
  exact absurd href List.not_mem_nil

/-- A write through the current symbol. -/
theorem updateSymbol (h : TableKept s) {f : SymbolData → Except Fault SymbolData}
    (hf : ∀ data, RefersInside s data (f data)) :
    OutcomeIn TableKept NotTableWrite (updateSymbol f s) := by
  unfold Config.updateSymbol
  cases hsym : s.currentSym with
  | none => exact notTableWrite_nullDeref
  | some sym =>
      have hdata := hf sym.data
      dsimp only
      cases hout : f sym.data <;> rw [hout] at hdata
      case error e => exact hdata
      case ok data =>
        refine ⟨h.table, h.idents, ?_⟩
        intro sym' hsym' ref href
        cases hsym'
        rcases hdata ref href with hold | hident
        · exact h.symbol sym hsym ref hold
        · exact h.idents ref hident

/-- A write to the definition of a parameter. -/
theorem updateParam (h : TableKept s) {f : ParamDef → Except Fault ParamDef}
    (hf : ∀ pd, RefersInside s (.param pd) ((f pd).map .param)) :
    OutcomeIn TableKept NotTableWrite (updateParam f s) := by
  apply h.updateSymbol
  intro data
  cases data with
  | param pd => exact hf pd
  | _ => exact notTableWrite_wrongMember

/-- A write to the definition of a testset. -/
theorem updateTestset (h : TableKept s) (f : TestsetDef → TestsetDef) :
    OutcomeIn TableKept NotTableWrite (updateTestset f s) := by
  apply h.updateSymbol
  intro data
  cases data with
  | testset td => exact fun ref href => absurd href List.not_mem_nil
  | _ => exact notTableWrite_wrongMember

/-- **Commit.**  The symbol goes to the top of the table, above everything it
refers to. -/
theorem commit (h : TableKept s) : OutcomeIn TableKept NotTableWrite (commit s) := by
  unfold Config.commit commitCurrentSymbol
  cases hsym : s.currentSym with
  | none => exact h
  | some sym =>
      rcases h.table.insert (h.symbol sym hsym) with
        ⟨ret, hret, hrun⟩ | ⟨t', hrun, ht', htop, _⟩
      · simp only [hrun, if_pos hret]
        exact h.yyerror
      · have hle : ∀ ref < s.table.top, ref < t'.top := by
          intro ref href
          rw [htop]
          exact Nat.lt_succ_of_lt href
        simp only [hrun]
        refine ⟨ht', fun ref href => hle ref (h.idents ref href), ?_⟩
        intro sym' hsym' ref href
        cases hsym'
        exact hle ref (h.symbol sym hsym ref href)

end TableKept

/-- Two actions in a row. -/
theorem outcomeIn_andThen {I J : ParserState → Prop} {F : Fault → Prop}
    {o : Outcome} {next : ParserState → Outcome} (ho : OutcomeIn I F o)
    (hIJ : ∀ s, I s → J s) (hnext : ∀ s, I s → OutcomeIn J F (next s)) :
    OutcomeIn J F (o.andThen next) := by
  cases o with
  | done s => exact hnext s ho
  | yyError s => exact hIJ s ho
  | fault f => exact ho

/-- The symbols that boxed names lead to. -/
theorem identlistLookup_lt_top {t : SymbolTable} (ht : TableOk t)
    (vals : List BoxedValue) : ∀ {syms : List SymRef},
      identlistLookupFromBoxedKeys t vals = some syms → ∀ ref ∈ syms, ref < t.top := by
  induction vals with
  | nil =>
      intro syms h ref href
      cases h
      exact absurd href List.not_mem_nil
  | cons val vals ih =>
      intro syms h ref href
      cases val with
      | string key =>
          obtain ⟨sym, hsym, h⟩ := Option.bind_eq_some_iff.mp h
          obtain ⟨rest, hrest, h⟩ := Option.bind_eq_some_iff.mp h
          cases h
          rcases List.mem_cons.mp href with rfl | href
          · exact ht.lt_top_of_lookup hsym
          · exact ih hrest ref href
      | _ => cases h

namespace TableKept

variable {s : ParserState}

/-- An update of a symbol and a change of the lists after it. -/
theorem done {o : Outcome} (ho : OutcomeIn TableKept NotTableWrite o)
    {f : ParserState → ParserState} (hf : ∀ s, TableKept s → TableKept (f s)) :
    OutcomeIn TableKept NotTableWrite (o.andThen fun s => .done (f s)) :=
  outcomeIn_andThen ho (fun _ h => h) hf

/-- Values refer to nothing. -/
theorem boxedValue (h : TableKept s) (val : BoxedValue) :
    OutcomeIn TableKept NotTableWrite (boxedValue val s) := by
  unfold Config.boxedValue
  cases hsym : s.currentSym with
  | none => exact notTableWrite_nullDeref
  | some sym =>
      obtain ⟨key, data⟩ := sym
      cases data with
      | boxedValue v =>
          refine ⟨h.table, h.idents, ?_⟩
          intro sym' hsym' ref href
          cases hsym'
          exact absurd href List.not_mem_nil
      | _ => exact h.of_eq rfl rfl hsym.symm

/-- **The actions keep the table in order.** -/
theorem run (a : Action) (s : ParserState) (h : TableKept s) :
    OutcomeIn TableKept NotTableWrite (a.run s) := by
  cases a with
  | valuedefStart key => exact h.startSymbol key rfl
  | paramdefStart key => exact h.startSymbol key rfl
  | commit => exact h.commit
  | constStart =>
      refine done (h.updateParam fun pd => ?_) fun s hs => hs.of_eq rfl rfl rfl
      exact fun ref href => absurd href List.not_mem_nil
  | constEnd =>
      refine done (h.updateParam fun pd => ?_) fun s hs => hs.of_eq rfl rfl rfl
      cases pd.args with
      | constlist values =>
          cases values with
          | none => exact notTableWrite_nullDeref
          | some values => exact fun ref href => absurd href List.not_mem_nil
      | _ => exact notTableWrite_wrongMember
  | rangeStart =>
      refine done (h.updateParam fun pd => ?_) fun s hs => hs.of_eq rfl rfl rfl
      exact fun ref href => absurd href List.not_mem_nil
  | numerictypespec type =>
      simp only [Action.run]
      refine h.updateSymbol fun data => ?_
      cases data with
      | param pd =>
          obtain ⟨_, args⟩ := pd
          cases args <;> exact fun ref href => .inl href
      | _ => exact fun ref href => .inl href
  | rangeEnd =>
      show OutcomeIn _ _ (Action.rangeEndRun s)
      unfold Action.rangeEndRun
      cases s.valueList with
      | nil => exact h
      | cons high rest =>
          refine done (h.updateParam fun pd => ?_) fun s hs => hs.of_eq rfl rfl rfl
          cases pd.args with
          | range low high => exact fun ref href => absurd href List.not_mem_nil
          | _ => exact notTableWrite_wrongMember
  | generateStart fn =>
      refine done (h.updateParam fun pd => ?_) fun s hs => hs.clear
      exact fun ref href => absurd href List.not_mem_nil
  | generateEnd =>
      refine done (h.updateParam fun pd => ?_) fun s hs => hs.clear
      obtain ⟨type, args⟩ := pd
      cases args with
      | generated fn syms =>
          intro ref href
          simp only [generatedRefs, identListCreateSymbolArray] at href
          split at href
          · exact .inl href
          · exact .inr (List.mem_reverse.mp href)
      | _ => exact notTableWrite_wrongMember
  | pgroupdefStart key => exact (h.startSymbol key rfl).clear
  | pgroupdefEnd =>
      refine outcomeIn_andThen (h.updateSymbol fun data => ?_) (fun _ hs => hs)
        fun s hs => hs.clear.commit
      cases data with
      | pgroup syms => exact fun ref href => absurd href List.not_mem_nil
      | _ => exact notTableWrite_wrongMember
  | testdefStart key => exact (h.startSymbol key rfl).of_eq rfl rfl rfl
  | testdefEnd =>
      show OutcomeIn _ _ (Action.testdefEndRun s)
      unfold Action.testdefEndRun
      split
      · exact h.commit
      · refine outcomeIn_andThen (h.updateSymbol fun data => ?_) (fun _ hs => hs)
          fun s hs => TableKept.commit (hs.of_eq rfl rfl rfl)
        cases data with
        | test td => exact fun ref href => absurd href List.not_mem_nil
        | _ => exact notTableWrite_wrongMember
  | paramsStart => exact h.clear.of_eq rfl rfl rfl
  | paramsEnd =>
      show OutcomeIn _ _ (Action.paramsEndRun s)
      unfold Action.paramsEndRun
      split
      next => exact notTableWrite_nullDeref
      next => exact h.clear.of_eq rfl rfl rfl
      next => exact notTableWrite_wrongMember
  | pgroupSetting name =>
      show OutcomeIn _ _ (Action.pgroupSettingRun name s)
      unfold Action.pgroupSettingRun
      split
      next => exact h.yyerror
      next => exact h.of_eq rfl rfl rfl
  | fixStart name =>
      show OutcomeIn _ _ (Action.fixStartRun name s)
      unfold Action.fixStartRun
      split
      next => exact h.yyerror
      next => exact h.of_eq rfl rfl rfl
  | fixEnd =>
      show OutcomeIn _ _ (Action.fixEndRun s)
      unfold Action.fixEndRun
      split
      next => exact notTableWrite_nullDeref
      next => exact h.of_eq rfl rfl rfl
      next => exact notTableWrite_wrongMember
  | testsetdefStart key => exact (h.startSymbol key rfl).of_eq rfl rfl rfl
  | testsetsettingsEnd =>
      exact done (h.updateTestset _) fun s hs => hs.clear.of_eq rfl rfl rfl
  | execType type =>
      refine outcomeIn_andThen (h.updateTestset _) (fun _ hs => hs) fun s hs => ?_
      cases type with
      | serial => exact hs.of_eq rfl rfl rfl
      | _ => exact hs.clear
  | testlistEnd =>
      refine ⟨h.table, ?_, h.symbol⟩
      intro ref href
      dsimp only at href
      cases hids : identlistLookupFromBoxedKeys s.table s.valueList with
      | none =>
          rw [hids] at href
          exact absurd href List.not_mem_nil
      | some syms =>
          rw [hids] at href
          exact identlistLookup_lt_top h.table s.valueList hids ref href
  | testsetdefEnd =>
      show OutcomeIn _ _ (Action.testsetdefEndRun s)
      unfold Action.testsetdefEndRun
      split
      · exact h.yyerror
      · exact outcomeIn_andThen (h.updateTestset _) (fun _ hs => hs)
          fun s hs => hs.clear.commit
  | boxedValue val => exact h.boxedValue val
  | globalvalue name =>
      show OutcomeIn _ _ (globalvalue name s)
      unfold globalvalue
      split
      next => exact h.boxedValue _
      next => exact notTableWrite_nullDeref
      next => exact h.yyerror
  | globalnumericvalue =>
      show OutcomeIn _ _ (globalnumericvalue s)
      unfold globalnumericvalue
      repeat' split
      all_goals first | exact notTableWrite_nullDeref | exact h.yyerror | exact h
  | idlist name =>
      show OutcomeIn _ _ (idlist name s)
      unfold Config.idlist
      split
      next => exact h.yyerror
      next sym hsym =>
        refine ⟨h.table, ?_, h.symbol⟩
        intro ref href
        rcases List.mem_cons.mp href with rfl | href
        · exact h.table.lt_top_of_lookup hsym
        · exact h.idents ref href

theorem keptByActions : KeptByActions TableKept NotTableWrite where
  run := TableKept.run
  yyerror _ h := h.yyerror
  stackOverflow := fun h => by cases h

end TableKept

/-- **Parsing** leaves an allocated table in order. -/
theorem keeps_bltsConfParserStart {t : SymbolTable} (ht : TableOk t)
    (toks : List Token) (lexError : Bool) :
    Keeps (fun r => TableOk r.2) (bltsConfParserStart t toks lexError) := by
  have hinit : TableKept (Parser.initial t).state :=
    ⟨ht, fun ref href => absurd href List.not_mem_nil, fun sym hsym => by cases hsym⟩
  have hrun := TableKept.keptByActions.bltsConfParserStart hinit toks lexError
  cases hparse : bltsConfParserStart t toks lexError with
  | error f =>
      rw [hparse] at hrun
      exact hrun
  | ok r =>
      rw [hparse] at hrun
      obtain ⟨s, hs, htable⟩ := hrun
      show TableOk r.2
      rw [← htable]
      exact hs.table

end Blts.Config
