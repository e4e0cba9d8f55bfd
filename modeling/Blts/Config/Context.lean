import Blts.Config.Automaton

/-!
# What the context holds at each position

The actions trust the context: the end of a list writes through `current_sym`
into the member of the union that the start of the list has set up.  `Ctx` says,
for every position of the automaton, what the context holds there.  The clauses
come in two strengths.  Where no error can have been recovered from, the symbol
being built is there; in the body of a group or a test, where recovery continues
inside the section, it is either there or has been discarded by `yyerror`.

The invariant is what separates the positions where an action can follow a null
pointer from those where none can.
-/

namespace Blts.Config

open Blts.Params

/-! ## Globals have values -/

/-- No global of the table is without a value. -/
def GlobalsValued (t : SymbolTable) : Prop :=
  ∀ e, some e ∈ t.block → e.data ≠ .boxedValue none

theorem globalsValued_unallocated : GlobalsValued .unallocated := by
  intro e he
  simp [SymbolTable.unallocated, SymbolTable.block] at he

/-- What a lookup finds stands in a cell of the block. -/
theorem mem_block_of_lookupEntry {t : SymbolTable} {key : String}
    {e : SymbolTableEntry} (h : lookupEntry t key = some e) :
    some e ∈ t.block := by
  obtain ⟨ref, _, href⟩ := Option.bind_eq_some_iff.mp h
  rw [SymbolTable.entry?, Option.join_eq_some_iff] at href
  exact List.mem_of_getElem? href

/-- A write keeps the other entries of a block, or drops one of them. -/
theorem mem_writeCell {cells : List (Option SymbolTableEntry)} {i : Nat}
    {e e' : SymbolTableEntry} (h : some e' ∈ writeCell cells i e) :
    e' = e ∨ some e' ∈ cells := by
  unfold writeCell at h
  split at h
  · rcases List.mem_or_eq_of_mem_set h with h | h
    · exact .inr h
    · exact .inl (Option.some.inj h)
  · simp only [List.mem_append, List.mem_replicate, List.mem_singleton] at h
    rcases h with (h | h) | h
    · exact .inr h
    · cases h.2
    · exact .inl (Option.some.inj h)

/-- The three ways an insertion ends. -/
theorem symbolTableInsert_cases (t : SymbolTable) (e : SymbolTableEntry) :
    (∃ ret, ret ≠ 0 ∧ symbolTableInsert t e = .ok (ret, t)) ∨
    (t.cells = none ∧ symbolTableInsert t e = .error .tableWrite) ∨
    ∃ cells, t.cells = some cells ∧ t.top < symbolTableMax ∧
      symbolTableLookup t e.key = none ∧
      symbolTableInsert t e =
        .ok (0, { cells := some (writeCell cells t.top e), top := t.top + 1 }) := by
  unfold symbolTableInsert
  by_cases htop : symbolTableMax ≤ t.top
  · exact .inl ⟨-enomem, by decide, if_pos htop⟩
  · rw [if_neg htop]
    cases hlookup : symbolTableLookup t e.key with
    | some ref => exact .inl ⟨-eexist, by decide, by simp⟩
    | none =>
        cases hcells : t.cells with
        | none => exact .inr (.inl ⟨rfl, by simp⟩)
        | some cells => exact .inr (.inr ⟨cells, rfl, by omega, rfl, by simp⟩)

/-- Inserting anything but a global without a value keeps globals valued. -/
theorem GlobalsValued.insert {t t' : SymbolTable} {e : SymbolTableEntry}
    {ret : Int} (h : GlobalsValued t) (he : e.data ≠ .boxedValue none)
    (hins : symbolTableInsert t e = .ok (ret, t')) : GlobalsValued t' := by
  rcases symbolTableInsert_cases t e with
    ⟨ret', _, hr⟩ | ⟨_, hr⟩ | ⟨cells, hcells, _, _, hr⟩
  · rw [hr] at hins
    cases hins
    exact h
  · rw [hr] at hins
    cases hins
  · rw [hr] at hins
    cases hins
    intro e' he'
    rcases mem_writeCell he' with rfl | he'
    · exact he
    · exact h e' (by simpa [SymbolTable.block, hcells] using he')

/-! ## The value of a token -/

/-- The value that a token stands for: a literal, or the value of a global. -/
def valueOf (t : SymbolTable) : Token → Option BoxedValue
  | .int v => some (bltsConfigBoxedValueNewInt v)
  | .long v => some (bltsConfigBoxedValueNewLong v)
  | .bool v => some (bltsConfigBoxedValueNewBool v)
  | .float v => some (bltsConfigBoxedValueNewFloat v)
  | .double v => some (bltsConfigBoxedValueNewDouble v)
  | .string v => some (bltsConfigBoxedValueNewString v)
  | .ident name =>
      match lookupEntry t name with
      | some { data := .boxedValue val, .. } => val
      | _ => none
  | _ => none

/-- What a value action does with the value of its token, if it has one. -/
def valueOutcome (val : Option BoxedValue) (s : ParserState) : Outcome :=
  match val with
  | some val => boxedValue val s
  | none => reject s

theorem runAll_singleton (a : Action) (s : ParserState) :
    Action.runAll [a] s = a.run s := by
  simp only [Action.runAll]
  cases a.run s <;> rfl

/-- A global either has a value, or the reference to it is rejected. -/
theorem globalvalue_eq {name : String} {s : ParserState}
    (hg : GlobalsValued s.table) :
    globalvalue name s = valueOutcome (valueOf s.table (.ident name)) s := by
  simp only [globalvalue, valueOf, valueOutcome]
  cases hlookup : lookupEntry s.table name with
  | none => rfl
  | some e =>
      obtain ⟨key, data⟩ := e
      cases data with
      | boxedValue val =>
          cases val with
          | some val => rfl
          | none => exact absurd rfl (hg _ (mem_block_of_lookupEntry hlookup))
      | _ => rfl

/-- `value`, literal or global. -/
theorem runAll_valueActions {tok : Token} {actions : List Action}
    {s : ParserState} (htok : valueActions tok = some actions)
    (hg : GlobalsValued s.table) :
    Action.runAll actions s = valueOutcome (valueOf s.table tok) s := by
  cases tok <;> cases htok <;> rw [runAll_singleton]
  case ident name => exact globalvalue_eq hg
  all_goals rfl

/-! ## The invariant -/

/-- `yyerror` has discarded the symbol being built. -/
def Lost (s : ParserState) : Prop :=
  s.currentSym = none ∧ 0 < s.parseErrors

/-- The symbol being built is a test. -/
def BuildsTest (s : ParserState) : Prop :=
  ∃ key td, s.currentSym = some ⟨key, .test td⟩

/-- The symbol being built is a group. -/
def BuildsPgroup (s : ParserState) : Prop :=
  ∃ key syms, s.currentSym = some ⟨key, .pgroup syms⟩

/-- The symbol being built is a testset. -/
def BuildsTestset (s : ParserState) : Prop :=
  ∃ key td, s.currentSym = some ⟨key, .testset td⟩

/-- The setting being read is a `fix`. -/
def ReadsFix (s : ParserState) : Prop :=
  ∃ param val rest, s.settingList = .fix param val :: rest

/-- What the context holds at a position. -/
def Ctx : Pos → ParserState → Prop
  | .valuedefValue, s => ∃ key val, s.currentSym = some ⟨key, .boxedValue val⟩
  | .valuedefCr, s => ∃ key val, s.currentSym = some ⟨key, .boxedValue (some val)⟩
  | .paramvalues, s | .generateName, s | .paramvaluesCr, s =>
      ∃ key pd, s.currentSym = some ⟨key, .param pd⟩
  | .constFirst, s | .constValues, s =>
      ∃ key type vals,
        s.currentSym = some ⟨key, .param ⟨type, .constlist (some vals)⟩⟩
  | .rangeType, s | .rangeLow, s | .rangeHigh, s =>
      ∃ key type low high, s.currentSym = some ⟨key, .param ⟨type, .range low high⟩⟩
  | .generateArgs, s =>
      ∃ key type fn syms,
        s.currentSym = some ⟨key, .param ⟨type, .generated fn syms⟩⟩
  | .pgroupBody, s => BuildsPgroup s
  | .pgroupcontents, s | .pgroupIdlist, s | .pgroupError, s =>
      Lost s ∨ BuildsPgroup s
  | .testBody, s => BuildsTest s ∧ s.settingList = []
  | .testsettings, s | .testError, s | .pgroupName, s | .pgroupCr _, s
  | .fixName, s => Lost s ∨ BuildsTest s
  | .paramsIdlist, s =>
      (Lost s ∨ BuildsTest s) ∧
        ∃ syms rest, s.settingList = .paramlist syms :: rest
  | .fixValue, s | .fixCr, s => (Lost s ∨ BuildsTest s) ∧ ReadsFix s
  | .testsetsettings, s | .testsetFixName, s => BuildsTestset s
  | .testsetFixValue, s | .testsetFixCr, s => BuildsTestset s ∧ ReadsFix s
  | .testsetBody, s | .testlist, s => BuildsTestset s ∧ s.identList = []
  | .testsetError, s => (Lost s ∨ BuildsTestset s) ∧ s.identList = []
  | _, _ => True

/-- The step that is about to follow a null pointer: the end of a group, a value
or the end of the settings of a test, after an error in the same section has
discarded the symbol. -/
def UsesLost (pos : Pos) (tok : Option Token) (s : ParserState) : Prop :=
  s.currentSym = none ∧
    match pos, tok with
    | .pgroupcontents, some (.defEnd .pgroup) => True
    | .testsettings, some .params | .testsettings, some .pgroup
    | .testsettings, some .fix => False
    | .testsettings, _ => s.settingList ≠ []
    | .fixValue, some tok => (valueOf s.table tok).isSome = true
    | _, _ => False

/-- What running the actions of a move at a position leads to: the context of
the next position with no new error, the context of the recovery position with
an error counted, or a fault.  A null pointer is followed exactly when `lost`. -/
def Leads (o : Outcome) (s : ParserState) (next recover : ParserState → Prop)
    (lost : Prop) : Prop :=
  match o with
  | .done s' =>
      next s' ∧ GlobalsValued s'.table ∧ s'.parseErrors = s.parseErrors ∧ ¬ lost
  | .yyError s' =>
      recover s' ∧ GlobalsValued s'.table ∧ s.parseErrors ≤ s'.parseErrors ∧
        0 < s'.parseErrors ∧ ¬ lost
  | .fault f =>
      (f = .nullDeref ∧ lost) ∨
        (f = .tableWrite ∧ s.table.cells = none ∧ ¬ lost)

section Leads

variable {s : ParserState} {next recover : ParserState → Prop} {lost : Prop}

/-- `yyerror` and `YYERROR` lead to recovery with an empty context. -/
theorem leads_reject (hg : GlobalsValued s.table) (hrec : recover (yyerror s))
    (hlost : ¬ lost) : Leads (reject s) s next recover lost :=
  ⟨hrec, hg, Nat.le_succ _, Nat.succ_pos _, hlost⟩

/-- A commit of a symbol that is there. -/
theorem leads_commit {s' : ParserState} {sym : SymbolTableEntry}
    (hg : GlobalsValued s'.table) (hsym : s'.currentSym = some sym)
    (hdata : sym.data ≠ .boxedValue none) (hcells : s'.table = s.table)
    (herrors : s'.parseErrors = s.parseErrors)
    (hnext : ∀ t, next { s' with table := t })
    (hrec : ∀ t, recover (yyerror { s' with table := t })) (hlost : ¬ lost) :
    Leads (commit s') s next recover lost := by
  unfold commit commitCurrentSymbol
  rw [hsym]
  rcases symbolTableInsert_cases s'.table sym with
    ⟨ret, hret, hins⟩ | ⟨hnone, hins⟩ | ⟨cells, _, _, _, hins⟩
  · simp only [hins, hret, ne_eq, not_false_eq_true, if_true]
    exact ⟨hrec _, hg, by simp [yyerror, herrors], Nat.succ_pos _, hlost⟩
  · simp only [hins]
    exact .inr ⟨rfl, hcells ▸ hnone, hlost⟩
  · simp only [hins, ne_eq, not_true_eq_false, if_false]
    exact ⟨hsym ▸ hnext _, hg.insert hdata hins, herrors, hlost⟩

/-- A value, when there is a symbol for it. -/
theorem leads_value {val : Option BoxedValue} {sym : SymbolTableEntry}
    (hg : GlobalsValued s.table) (hsym : s.currentSym = some sym)
    (hnext : ∀ val s', boxedValue val s = .done s' → next s')
    (hrec : recover (yyerror s)) (hlost : ¬ lost) :
    Leads (valueOutcome val s) s next recover lost := by
  cases val with
  | none => exact leads_reject hg hrec hlost
  | some val =>
      have hdone : ∃ s', boxedValue val s = .done s' ∧ s'.table = s.table ∧
          s'.parseErrors = s.parseErrors := by
        unfold boxedValue
        rw [hsym]
        split
        next => contradiction
        next =>
          dsimp only
          split <;> exact ⟨_, rfl, rfl, rfl⟩
      obtain ⟨s', hrun, htable, herrors⟩ := hdone
      unfold valueOutcome
      dsimp only
      rw [hrun]
      exact ⟨hnext val s' hrun, htable ▸ hg, herrors, hlost⟩

end Leads

end Blts.Config
