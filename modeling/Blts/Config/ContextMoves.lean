import Blts.Config.Context

/-!
# Every move keeps the context

One lemma for each position says what its moves lead to; together they are the
step lemma of the context, from which the run lemma follows for whole token
lists.
-/

namespace Blts.Config

open Blts.Params

-- what each position expects is read off by `simp` in this module
attribute [local simp] Ctx

/-- `Leads` for the actions of a move; a move without actions is no use of a
lost symbol. -/
def MoveLeads (s : ParserState) (lost : Prop) : Move → Prop
  | .shift actions next recover | .reduce actions next recover =>
      Leads (Action.runAll actions s) s (Ctx next) (Ctx recover) lost
  | .error | .accept => ¬ lost

section

variable {s : ParserState} {next recover : ParserState → Prop} {lost : Prop}

/-- A reference to a symbol, which is rejected when there is none. -/
theorem leads_lookup {key : String} {f : SymRef → ParserState}
    (hg : GlobalsValued s.table) (hnext : ∀ sym, next (f sym))
    (htable : ∀ sym, (f sym).table = s.table)
    (herrors : ∀ sym, (f sym).parseErrors = s.parseErrors)
    (hrec : recover (yyerror s)) (hlost : ¬ lost) :
    Leads (match symbolTableLookup s.table key with
      | none => reject s
      | some sym => .done (f sym)) s next recover lost := by
  cases symbolTableLookup s.table key with
  | none => exact leads_reject hg hrec hlost
  | some sym => exact ⟨hnext sym, (htable sym).symm ▸ hg, herrors sym, hlost⟩

end

theorem lost_yyerror (s : ParserState) : Lost (yyerror s) :=
  ⟨rfl, Nat.succ_pos _⟩

theorem not_usesLost {pos : Pos} {tok : Option Token} {s : ParserState}
    {sym : SymbolTableEntry} (h : s.currentSym = some sym) :
    ¬ UsesLost pos tok s := by
  intro hl
  rw [hl.1] at h
  cases h

theorem runAll_append (as bs : List Action) (s : ParserState) :
    Action.runAll (as ++ bs) s =
      (Action.runAll as s).andThen (Action.runAll bs) := by
  induction as generalizing s with
  | nil => rfl
  | cons a as ih =>
      simp only [List.cons_append, Action.runAll]
      cases a.run s with
      | done s' => exact ih s'
      | yyError s' => rfl
      | fault f => rfl

@[simp] theorem andThen_done (s : ParserState) (f : ParserState → Outcome) :
    (Outcome.done s).andThen f = f s := rfl

@[simp] theorem andThen_reject (s : ParserState) (f : ParserState → Outcome) :
    (reject s).andThen f = reject s := rfl

/-- A value, while anything but a global is built. -/
theorem boxedValue_param {s : ParserState} {key : String} {pd : ParamDef}
    (hsym : s.currentSym = some ⟨key, .param pd⟩) (val : BoxedValue) :
    boxedValue val s = .done { s with valueList := val :: s.valueList } := by
  simp [boxedValue, hsym]

/-- Whether a value may stand for a bound of a range: the types of literals are
not looked at. -/
def numericOk : Token → BoxedValue → Bool
  | .ident _, val => val.type == .double || val.type == .long
  | _, _ => true

/-- `numericvalue`, literal or global, in the definition of a parameter. -/
theorem runAll_numericvalueActions {tok : Token} {actions : List Action}
    {s : ParserState} {key : String} {pd : ParamDef}
    (htok : numericvalueActions tok = some actions)
    (hsym : s.currentSym = some ⟨key, .param pd⟩) (hg : GlobalsValued s.table) :
    Action.runAll actions s =
      match valueOf s.table tok with
      | none => reject s
      | some val =>
          let s' := { s with valueList := val :: s.valueList }
          if numericOk tok val then .done s' else reject s' := by
  cases tok <;> cases htok
  case ident name =>
    simp only [Action.runAll, Action.run, globalvalue_eq hg]
    cases valueOf s.table (.ident name) with
    | none => rfl
    | some val =>
        have hrun : valueOutcome (some val) s =
            .done { s with valueList := val :: s.valueList } :=
          boxedValue_param hsym val
        rw [hrun]
        simp only [andThen_done, globalnumericvalue, hsym, numericOk]
        cases htype : val.type <;> simp
  all_goals
    rw [runAll_singleton]
    exact boxedValue_param hsym _

section

variable {s : ParserState} {pos next recover : Pos} {tok : Option Token}

/-- A position that takes a value for the symbol being built. -/
theorem moveLeads_value {sym : SymbolTableEntry} (hg : GlobalsValued s.table)
    (hsym : s.currentSym = some sym)
    (hnext : ∀ val s', boxedValue val s = .done s' → Ctx next s')
    (hrec : Ctx recover (yyerror s)) :
    MoveLeads s (UsesLost pos tok s)
      (shiftValue (tok.bind valueActions) next recover) := by
  have hlost : ¬ UsesLost pos tok s := not_usesLost hsym
  cases hact : tok.bind valueActions with
  | none => exact hlost
  | some actions =>
      obtain ⟨t, rfl, ht⟩ := Option.bind_eq_some_iff.mp hact
      show Leads (Action.runAll actions s) s _ _ _
      rw [runAll_valueActions ht hg]
      exact leads_value hg hsym hnext hrec hlost

/-- A position that takes a bound of a range. -/
theorem moveLeads_numericvalue {key : String} {pd : ParamDef}
    (hg : GlobalsValued s.table) (hsym : s.currentSym = some ⟨key, .param pd⟩)
    (hnext : ∀ val, Ctx next { s with valueList := val :: s.valueList })
    (hrec : ∀ s, Ctx recover (yyerror s)) :
    MoveLeads s (UsesLost pos tok s)
      (shiftValue (tok.bind numericvalueActions) next recover) := by
  have hlost : ¬ UsesLost pos tok s := not_usesLost hsym
  cases hact : tok.bind numericvalueActions with
  | none => exact hlost
  | some actions =>
      obtain ⟨t, rfl, ht⟩ := Option.bind_eq_some_iff.mp hact
      show Leads (Action.runAll actions s) s _ _ _
      rw [runAll_numericvalueActions ht hsym hg]
      cases valueOf s.table t with
      | none => exact leads_reject hg (hrec s) hlost
      | some val =>
          dsimp only
          split
          · exact ⟨hnext val, hg, rfl, hlost⟩
          · exact ⟨hrec _, hg, Nat.le_succ _, Nat.succ_pos _, hlost⟩

end


section Moves

variable {s : ParserState} {tok : Option Token}

/-- A shift without actions. -/
theorem moveLeads_shift_nil {next recover : Pos} {lost : Prop}
    (hg : GlobalsValued s.table) (hnext : Ctx next s) (hlost : ¬ lost) :
    MoveLeads s lost (.shift [] next recover) :=
  ⟨hnext, hg, rfl, hlost⟩

/-- A reduction without actions. -/
theorem moveLeads_reduce_nil {next recover : Pos} {lost : Prop}
    (hg : GlobalsValued s.table) (hnext : Ctx next s) (hlost : ¬ lost) :
    MoveLeads s lost (.reduce [] next recover) :=
  ⟨hnext, hg, rfl, hlost⟩

/-- A shift with a single action. -/
theorem moveLeads_shift {a : Action} {next recover : Pos} {lost : Prop}
    (h : Leads (a.run s) s (Ctx next) (Ctx recover) lost) :
    MoveLeads s lost (.shift [a] next recover) := by
  rw [← runAll_singleton] at h
  exact h

/-- A reduction with a single action. -/
theorem moveLeads_reduce {a : Action} {next recover : Pos} {lost : Prop}
    (h : Leads (a.run s) s (Ctx next) (Ctx recover) lost) :
    MoveLeads s lost (.reduce [a] next recover) := by
  rw [← runAll_singleton] at h
  exact h

/-! ### Globals -/

theorem moveLeads_globaldefines (hg : GlobalsValued s.table) :
    MoveLeads s (UsesLost .globaldefines tok s) (move .globaldefines tok) := by
  have hlost : ¬ UsesLost .globaldefines tok s := fun h => h.2
  simp only [move]
  split
  · exact moveLeads_shift_nil hg trivial hlost
  · exact moveLeads_shift_nil hg trivial hlost
  · exact moveLeads_shift ⟨⟨_, _, rfl⟩, hg, rfl, hlost⟩
  · exact hlost

theorem moveLeads_valuedefValue (hctx : Ctx .valuedefValue s)
    (hg : GlobalsValued s.table) :
    MoveLeads s (UsesLost .valuedefValue tok s) (move .valuedefValue tok) := by
  obtain ⟨key, val, hsym⟩ := hctx
  refine moveLeads_value hg hsym ?_ (by exact trivial)
  intro v s' hrun
  simp only [boxedValue, hsym] at hrun
  cases hrun
  exact ⟨key, v, rfl⟩

theorem moveLeads_valuedefCr (hctx : Ctx .valuedefCr s)
    (hg : GlobalsValued s.table) :
    MoveLeads s (UsesLost .valuedefCr tok s) (move .valuedefCr tok) := by
  obtain ⟨key, val, hsym⟩ := hctx
  have hlost : ¬ UsesLost .valuedefCr tok s := not_usesLost hsym
  simp only [move]
  split
  · exact moveLeads_shift (leads_commit hg hsym (by simp) rfl rfl
      (fun _ => trivial) (fun _ => trivial) hlost)
  · exact hlost

/-! ### Parameters -/

theorem moveLeads_paramvalues (hctx : Ctx .paramvalues s)
    (hg : GlobalsValued s.table) :
    MoveLeads s (UsesLost .paramvalues tok s) (move .paramvalues tok) := by
  obtain ⟨key, pd, hsym⟩ := hctx
  have hlost : ¬ UsesLost .paramvalues tok s := not_usesLost hsym
  simp only [move]
  split
  · apply moveLeads_shift
    simp [Action.run, updateParam, updateSymbol, hsym, Except.map, Leads, hg,
      hlost]
  · apply moveLeads_shift
    simp [Action.run, updateParam, updateSymbol, hsym, Except.map, Leads, hg,
      hlost]
  · exact moveLeads_shift_nil hg ⟨key, pd, hsym⟩ hlost
  · exact hlost

/-- The value positions of a list of constants. -/
theorem moveLeads_constValue {pos : Pos} (hctx : Ctx .constFirst s)
    (hg : GlobalsValued s.table) :
    MoveLeads s (UsesLost pos tok s)
      (shiftValue (tok.bind valueActions) .constValues .inputError) := by
  obtain ⟨key, type, vals, hsym⟩ := hctx
  refine moveLeads_value hg hsym ?_ (by exact trivial)
  intro v s' hrun
  rw [boxedValue_param hsym] at hrun
  cases hrun
  exact ⟨key, type, vals, hsym⟩

theorem moveLeads_constValues (hctx : Ctx .constValues s)
    (hg : GlobalsValued s.table) :
    MoveLeads s (UsesLost .constValues tok s) (move .constValues tok) := by
  have hvalue : MoveLeads s (UsesLost .constValues tok s)
      (shiftValue (tok.bind valueActions) .constValues .inputError) :=
    moveLeads_constValue hctx hg
  obtain ⟨key, type, vals, hsym⟩ := hctx
  have hlost : ¬ UsesLost .constValues tok s := not_usesLost hsym
  simp only [move]
  split
  next actions hact => simpa only [shiftValue, hact] using hvalue
  next =>
    apply moveLeads_reduce
    simp [Action.run, Action.constEndRun, updateParam, updateSymbol, hsym,
      Except.map, Leads, hg, hlost]

theorem moveLeads_rangeType (hctx : Ctx .rangeType s)
    (hg : GlobalsValued s.table) :
    MoveLeads s (UsesLost .rangeType tok s) (move .rangeType tok) := by
  obtain ⟨key, type, low, high, hsym⟩ := hctx
  have hlost : ¬ UsesLost .rangeType tok s := not_usesLost hsym
  simp only [move]
  cases hact : tok.bind numerictypespecAction with
  | none => exact hlost
  | some action =>
      obtain ⟨t, rfl, ht⟩ := Option.bind_eq_some_iff.mp hact
      apply moveLeads_shift
      cases t <;> cases ht <;>
        simp [Action.run, updateSymbol, hsym, Leads, hg, hlost]

theorem moveLeads_rangeHigh (hctx : Ctx .rangeHigh s)
    (hg : GlobalsValued s.table) :
    MoveLeads s (UsesLost .rangeHigh tok s) (move .rangeHigh tok) := by
  obtain ⟨key, type, low, high, hsym⟩ := hctx
  have hlost : ¬ UsesLost .rangeHigh tok s := not_usesLost hsym
  simp only [move]
  cases hact : tok.bind numericvalueActions with
  | none => exact hlost
  | some actions =>
      obtain ⟨t, rfl, ht⟩ := Option.bind_eq_some_iff.mp hact
      show Leads (Action.runAll (actions ++ [.rangeEnd]) s) s _ _ _
      rw [runAll_append, runAll_numericvalueActions ht hsym hg]
      cases valueOf s.table t with
      | none => exact leads_reject hg trivial hlost
      | some val =>
          dsimp only
          split
          · simp [Action.runAll, Action.run, Action.rangeEndRun, updateParam,
              updateSymbol, hsym, Except.map, Leads, hg, hlost]
          · exact ⟨trivial, hg, Nat.le_succ _, Nat.succ_pos _, hlost⟩

theorem moveLeads_generateName (hctx : Ctx .generateName s)
    (hg : GlobalsValued s.table) :
    MoveLeads s (UsesLost .generateName tok s) (move .generateName tok) := by
  obtain ⟨key, pd, hsym⟩ := hctx
  have hlost : ¬ UsesLost .generateName tok s := not_usesLost hsym
  simp only [move]
  split
  · apply moveLeads_shift
    simp [Action.run, updateParam, updateSymbol, hsym, Except.map, Leads, hg,
      hlost]
  · exact hlost

theorem moveLeads_generateArgs (hctx : Ctx .generateArgs s)
    (hg : GlobalsValued s.table) :
    MoveLeads s (UsesLost .generateArgs tok s) (move .generateArgs tok) := by
  obtain ⟨key, type, fn, syms, hsym⟩ := hctx
  have hlost : ¬ UsesLost .generateArgs tok s := not_usesLost hsym
  simp only [move]
  split
  · exact moveLeads_shift (leads_lookup hg
      (fun _ => ⟨key, type, fn, syms, hsym⟩) (fun _ => rfl) (fun _ => rfl) trivial
      hlost)
  · apply moveLeads_reduce
    simp [Action.run, Action.generateEndRun, updateParam, updateSymbol, hsym,
      Except.map, Leads, hg, hlost]

theorem moveLeads_paramvaluesCr (hctx : Ctx .paramvaluesCr s)
    (hg : GlobalsValued s.table) :
    MoveLeads s (UsesLost .paramvaluesCr tok s) (move .paramvaluesCr tok) := by
  obtain ⟨key, pd, hsym⟩ := hctx
  have hlost : ¬ UsesLost .paramvaluesCr tok s := not_usesLost hsym
  simp only [move]
  split
  · exact moveLeads_shift (leads_commit hg hsym (by simp) rfl rfl
      (fun _ => trivial) (fun _ => trivial) hlost)
  · exact hlost

/-! ### Groups -/

theorem moveLeads_pgroupcontents (hctx : Ctx .pgroupcontents s)
    (hg : GlobalsValued s.table) :
    MoveLeads s (UsesLost .pgroupcontents tok s) (move .pgroupcontents tok) := by
  simp only [move]
  split
  · apply moveLeads_reduce
    rcases hctx with hl | ⟨key, syms, hsym⟩
    · simp [Action.run, Action.pgroupdefEndRun, updateSymbol, hl.1, Leads,
        Outcome.andThen, UsesLost]
    · have hlost : ¬ UsesLost .pgroupcontents (some (.defEnd .pgroup)) s :=
        not_usesLost hsym
      simp only [Action.run, Action.pgroupdefEndRun, updateSymbol, hsym,
        andThen_done]
      exact leads_commit hg rfl (by simp) rfl rfl (fun _ => trivial)
        (fun _ => trivial) hlost
  next hne =>
    have hlost : ¬ UsesLost .pgroupcontents tok s := by
      intro h
      simp only [UsesLost] at h
      obtain ⟨_, h⟩ := h
      split at h <;> simp_all
    exact moveLeads_reduce_nil hg hctx hlost

theorem moveLeads_pgroupIdlist (hctx : Ctx .pgroupIdlist s)
    (hg : GlobalsValued s.table) :
    MoveLeads s (UsesLost .pgroupIdlist tok s) (move .pgroupIdlist tok) := by
  have hlost : ¬ UsesLost .pgroupIdlist tok s := fun h => h.2
  simp only [move]
  split
  · exact moveLeads_shift (leads_lookup hg (fun _ => hctx) (fun _ => rfl)
      (fun _ => rfl) (.inl (lost_yyerror s)) hlost)
  · exact moveLeads_shift_nil hg hctx hlost
  · exact hlost

/-! ### Tests -/

/-- What `yyerror` leaves is a lost symbol, at every position of a test. -/
theorem ctx_testError_yyerror (s : ParserState) : Ctx .testError (yyerror s) :=
  .inl (lost_yyerror s)

theorem moveLeads_testBody (hctx : Ctx .testBody s) (hg : GlobalsValued s.table) :
    MoveLeads s (UsesLost .testBody tok s) (move .testBody tok) := by
  have hlost : ¬ UsesLost .testBody tok s := fun h => h.2
  simp only [move]
  split
  · exact moveLeads_shift_nil hg (.inr hctx.1) hlost
  · exact moveLeads_reduce_nil hg (.inr hctx.1) hlost
  · exact moveLeads_reduce_nil hg (.inr hctx.1) hlost
  · exact moveLeads_reduce_nil hg (.inr hctx.1) hlost
  · exact moveLeads_reduce_nil hg (.inr hctx.1) hlost
  · exact hlost

/-- The end of the settings: with a lost symbol the commit is refused, unless
there are settings to store. -/
theorem leads_testdefEnd {lost : Prop} (hctx : Ctx .testsettings s)
    (hg : GlobalsValued s.table)
    (hlost : lost ↔ s.currentSym = none ∧ s.settingList ≠ []) :
    Leads (Action.run .testdefEnd s) s (Ctx (.defEnd .test)) (Ctx .inputError)
      lost := by
  simp only [Action.run, Action.testdefEndRun]
  rcases hctx with hl | ⟨key, td, hsym⟩
  · by_cases hset : s.settingList = []
    · have hnot : ¬ lost := fun h => (hlost.mp h).2 hset
      have hrun : commit s = .yyError s := by
        simp [commit, commitCurrentSymbol, hl.1, einval]
      rw [hset, List.isEmpty_nil, if_pos rfl, hrun]
      exact ⟨trivial, hg, Nat.le_refl _, hl.2, hnot⟩
    · rw [if_neg (by simpa using hset)]
      simp only [updateSymbol, hl.1]
      exact .inl ⟨rfl, hlost.mpr ⟨hl.1, hset⟩⟩
  · have hnot : ¬ lost := fun h => by simp [hsym] at hlost; exact hlost h
    split
    · exact leads_commit hg hsym (by simp) rfl rfl (fun _ => trivial)
        (fun _ => trivial) hnot
    · simp only [updateSymbol, hsym, andThen_done]
      exact leads_commit hg rfl (by simp) rfl rfl (fun _ => trivial)
        (fun _ => trivial) hnot

theorem moveLeads_testsettings (hctx : Ctx .testsettings s)
    (hg : GlobalsValued s.table) :
    MoveLeads s (UsesLost .testsettings tok s) (move .testsettings tok) := by
  simp only [move]
  split
  · exact moveLeads_shift ⟨⟨hctx, [], s.settingList, rfl⟩, hg, rfl, fun h => h.2⟩
  · exact moveLeads_shift_nil hg hctx fun h => h.2
  · exact moveLeads_shift_nil hg hctx fun h => h.2
  next hparams hpgroup hfix =>
    apply moveLeads_reduce
    apply leads_testdefEnd hctx hg
    simp only [UsesLost]

theorem moveLeads_paramsIdlist (hctx : Ctx .paramsIdlist s)
    (hg : GlobalsValued s.table) :
    MoveLeads s (UsesLost .paramsIdlist tok s) (move .paramsIdlist tok) := by
  have hlost : ¬ UsesLost .paramsIdlist tok s := fun h => h.2
  simp only [move]
  split
  · exact moveLeads_shift (leads_lookup hg (fun _ => hctx) (fun _ => rfl)
      (fun _ => rfl) (ctx_testError_yyerror s) hlost)
  · obtain ⟨htest, syms, rest, hset⟩ := hctx
    apply moveLeads_shift
    simp only [Action.run, Action.paramsEndRun, hset]
    exact ⟨htest, hg, rfl, hlost⟩
  · exact hlost

theorem moveLeads_pgroupCr {name : String} (hctx : Ctx (.pgroupCr name) s)
    (hg : GlobalsValued s.table) :
    MoveLeads s (UsesLost (.pgroupCr name) tok s) (move (.pgroupCr name) tok) := by
  have hlost : ¬ UsesLost (.pgroupCr name) tok s := fun h => h.2
  simp only [move]
  split
  · exact moveLeads_shift (leads_lookup hg (fun _ => hctx) (fun _ => rfl)
      (fun _ => rfl) (ctx_testError_yyerror s) hlost)
  · exact hlost

theorem moveLeads_fixName (hctx : Ctx .fixName s) (hg : GlobalsValued s.table) :
    MoveLeads s (UsesLost .fixName tok s) (move .fixName tok) := by
  have hlost : ¬ UsesLost .fixName tok s := fun h => h.2
  simp only [move]
  split
  · exact moveLeads_shift (leads_lookup hg
      (fun sym => ⟨hctx, sym, none, s.settingList, rfl⟩) (fun _ => rfl)
      (fun _ => rfl) (ctx_testError_yyerror s) hlost)
  · exact hlost

theorem moveLeads_fixValue (hctx : Ctx .fixValue s) (hg : GlobalsValued s.table) :
    MoveLeads s (UsesLost .fixValue tok s) (move .fixValue tok) := by
  obtain ⟨hl | ⟨key, td, hsym⟩, hfix⟩ := hctx
  · simp only [move]
    cases hact : tok.bind valueActions with
    | none =>
        cases tok with
        | none => exact fun h => h.2
        | some t =>
            have hnone : valueOf s.table t = none := by cases t <;> simp_all [valueOf, valueActions]
            exact fun h => by simpa [hnone] using h.2
    | some actions =>
        obtain ⟨t, rfl, ht⟩ := Option.bind_eq_some_iff.mp hact
        show Leads (Action.runAll actions s) s _ _ _
        rw [runAll_valueActions ht hg]
        cases hval : valueOf s.table t with
        | none =>
            exact leads_reject hg (ctx_testError_yyerror s)
              fun h => by simpa [hval] using h.2
        | some val =>
            simp only [valueOutcome, boxedValue, hl.1]
            exact .inl ⟨rfl, hl.1, by simp [hval]⟩
  · refine moveLeads_value hg hsym ?_ (ctx_testError_yyerror s)
    intro v s' hrun
    simp only [boxedValue, hsym] at hrun
    cases hrun
    exact ⟨.inr ⟨key, td, rfl⟩, hfix⟩

/-- The end of a `fix` line, in tests and in testsets. -/
theorem leads_fixEnd {next recover : Pos} {lost : Prop} (hfix : ReadsFix s)
    (hg : GlobalsValued s.table)
    (hnext : ∀ settings, Ctx next { s with settingList := settings, valueList := [] })
    (hlost : ¬ lost) :
    Leads (Action.run .fixEnd s) s (Ctx next) (Ctx recover) lost := by
  obtain ⟨param, val, rest, hset⟩ := hfix
  simp only [Action.run, Action.fixEndRun, hset]
  exact ⟨hnext _, hg, rfl, hlost⟩

theorem moveLeads_fixCr (hctx : Ctx .fixCr s) (hg : GlobalsValued s.table) :
    MoveLeads s (UsesLost .fixCr tok s) (move .fixCr tok) := by
  have hlost : ¬ UsesLost .fixCr tok s := fun h => h.2
  simp only [move]
  split
  · exact moveLeads_shift (leads_fixEnd hctx.2 hg (fun _ => hctx.1) hlost)
  · exact hlost

/-! ### Testsets -/

theorem moveLeads_testsetsettings (hctx : Ctx .testsetsettings s)
    (hg : GlobalsValued s.table) :
    MoveLeads s (UsesLost .testsetsettings tok s) (move .testsetsettings tok) := by
  have hlost : ¬ UsesLost .testsetsettings tok s := fun h => h.2
  simp only [move]
  split
  · exact moveLeads_shift_nil hg hctx hlost
  · obtain ⟨key, td, hsym⟩ := hctx
    apply moveLeads_reduce
    simp [Action.run, Action.testsetsettingsEndRun, updateTestset, updateSymbol,
      hsym, Leads, BuildsTestset, hg, hlost]

theorem moveLeads_testsetFixName (hctx : Ctx .testsetFixName s)
    (hg : GlobalsValued s.table) :
    MoveLeads s (UsesLost .testsetFixName tok s) (move .testsetFixName tok) := by
  have hlost : ¬ UsesLost .testsetFixName tok s := fun h => h.2
  simp only [move]
  split
  · exact moveLeads_shift (leads_lookup hg
      (fun sym => ⟨hctx, sym, none, s.settingList, rfl⟩) (fun _ => rfl)
      (fun _ => rfl) trivial hlost)
  · exact hlost

theorem moveLeads_testsetFixValue (hctx : Ctx .testsetFixValue s)
    (hg : GlobalsValued s.table) :
    MoveLeads s (UsesLost .testsetFixValue tok s)
      (move .testsetFixValue tok) := by
  obtain ⟨⟨key, td, hsym⟩, hfix⟩ := hctx
  refine moveLeads_value hg hsym ?_ (by exact trivial)
  intro v s' hrun
  simp only [boxedValue, hsym] at hrun
  cases hrun
  exact ⟨⟨key, td, rfl⟩, hfix⟩

theorem moveLeads_testsetFixCr (hctx : Ctx .testsetFixCr s)
    (hg : GlobalsValued s.table) :
    MoveLeads s (UsesLost .testsetFixCr tok s) (move .testsetFixCr tok) := by
  have hlost : ¬ UsesLost .testsetFixCr tok s := fun h => h.2
  simp only [move]
  split
  · exact moveLeads_shift (leads_fixEnd hctx.2 hg (fun _ => hctx.1) hlost)
  · exact hlost

theorem moveLeads_testsetBody (hctx : Ctx .testsetBody s)
    (hg : GlobalsValued s.table) :
    MoveLeads s (UsesLost .testsetBody tok s) (move .testsetBody tok) := by
  have hlost : ¬ UsesLost .testsetBody tok s := fun h => h.2
  obtain ⟨⟨key, td, hsym⟩, hident⟩ := hctx
  simp only [move]
  split
  next type =>
    apply moveLeads_shift
    cases type <;>
      simp [Action.run, Action.execTypeRun, updateTestset, updateSymbol, hsym, Leads,
        BuildsTestset, hg, hident, hlost]
  · exact hlost

/-- The end of a testset whose list of tests is complete. -/
theorem leads_testsetdefEnd (s' : ParserState) {lost : Prop}
    (hs : BuildsTestset s') (htable : s'.table = s.table)
    (herrors : s'.parseErrors = s.parseErrors) (hg : GlobalsValued s.table)
    (hlost : ¬ lost) :
    Leads (Action.run .testsetdefEnd s') s (Ctx (.defEnd .testset))
      (Ctx .inputError) lost := by
  obtain ⟨key, td, hsym⟩ := hs
  simp only [Action.run, Action.testsetdefEndRun]
  split
  · exact ⟨trivial, htable ▸ hg, by simp [yyerror, herrors], Nat.succ_pos _, hlost⟩
  · simp only [updateTestset, updateSymbol, hsym, andThen_done]
    exact leads_commit (htable ▸ hg) rfl (by simp) htable herrors
      (fun _ => trivial) (fun _ => trivial) hlost

theorem moveLeads_testlist (hctx : Ctx .testlist s) (hg : GlobalsValued s.table) :
    MoveLeads s (UsesLost .testlist tok s) (move .testlist tok) := by
  have hlost : ¬ UsesLost .testlist tok s := fun h => h.2
  obtain ⟨⟨key, td, hsym⟩, hident⟩ := hctx
  simp only [move]
  split
  · apply moveLeads_shift
    simp [Action.run, boxedValue, hsym, Leads, BuildsTestset, hg, hident,
      hlost]
  · have h := leads_testsetdefEnd (s := s)
      { s with
        identList := (identlistLookupFromBoxedKeys s.table s.valueList).getD []
        valueList := [] }
      ⟨key, td, hsym⟩ rfl rfl hg hlost
    rw [← runAll_singleton] at h
    exact h
  · exact hlost

theorem moveLeads_testsetError (hctx : Ctx .testsetError s)
    (hg : GlobalsValued s.table) :
    MoveLeads s (UsesLost .testsetError tok s) (move .testsetError tok) := by
  have hlost : ¬ UsesLost .testsetError tok s := fun h => h.2
  simp only [move]
  split
  · apply moveLeads_shift
    simp only [Action.run, Action.testsetdefEndRun, hctx.2]
    exact leads_reject hg trivial hlost
  · exact hlost

/-- Between sections and in the framing of a definition no context is used. -/
theorem moveLeads_nameCr {kind : DefKind} {key : String}
    (hg : GlobalsValued s.table) :
    MoveLeads s (UsesLost (.nameCr kind key) tok s)
      (move (.nameCr kind key) tok) := by
  have hlost : ¬ UsesLost (.nameCr kind key) tok s := fun h => h.2
  simp only [move]
  split
  · apply moveLeads_shift
    cases kind <;>
      simp [Action.run, DefKind.begin, startSymbol, Leads, BuildsPgroup,
        BuildsTest, BuildsTestset, hg, hlost]
  · exact hlost

end Moves

/-- **The step lemma of the context.**  At a position whose context is intact,
every move leads to a position whose context is intact, and follows a null
pointer only where the symbol of the section has been lost. -/
theorem move_leads {pos : Pos} {tok : Option Token} {s : ParserState}
    (hctx : Ctx pos s) (hg : GlobalsValued s.table) :
    MoveLeads s (UsesLost pos tok s) (move pos tok) := by
  cases pos with
  | globaldefines => exact moveLeads_globaldefines hg
  | valuedefValue => exact moveLeads_valuedefValue hctx hg
  | valuedefCr => exact moveLeads_valuedefCr hctx hg
  | nameCr kind key => exact moveLeads_nameCr hg
  | paramvalues => exact moveLeads_paramvalues hctx hg
  | constFirst => exact moveLeads_constValue hctx hg
  | constValues => exact moveLeads_constValues hctx hg
  | rangeType => exact moveLeads_rangeType hctx hg
  | rangeLow =>
      obtain ⟨key, type, low, high, hsym⟩ := hctx
      exact moveLeads_numericvalue hg hsym
        (fun _ => ⟨key, type, low, high, hsym⟩) (fun _ => trivial)
  | rangeHigh => exact moveLeads_rangeHigh hctx hg
  | generateName => exact moveLeads_generateName hctx hg
  | generateArgs => exact moveLeads_generateArgs hctx hg
  | paramvaluesCr => exact moveLeads_paramvaluesCr hctx hg
  | pgroupcontents => exact moveLeads_pgroupcontents hctx hg
  | pgroupIdlist => exact moveLeads_pgroupIdlist hctx hg
  | testBody => exact moveLeads_testBody hctx hg
  | testsettings => exact moveLeads_testsettings hctx hg
  | paramsIdlist => exact moveLeads_paramsIdlist hctx hg
  | pgroupCr name => exact moveLeads_pgroupCr hctx hg
  | fixName => exact moveLeads_fixName hctx hg
  | fixValue => exact moveLeads_fixValue hctx hg
  | fixCr => exact moveLeads_fixCr hctx hg
  | testsetsettings => exact moveLeads_testsetsettings hctx hg
  | testsetFixName => exact moveLeads_testsetFixName hctx hg
  | testsetFixValue => exact moveLeads_testsetFixValue hctx hg
  | testsetFixCr => exact moveLeads_testsetFixCr hctx hg
  | testsetBody => exact moveLeads_testsetBody hctx hg
  | testlist => exact moveLeads_testlist hctx hg
  | testsetError => exact moveLeads_testsetError hctx hg
  -- the moves of the other positions run no action
  | pgroupBody =>
      have hlost : ¬ UsesLost .pgroupBody tok s := fun h => h.2
      simp only [move]
      split
      · exact moveLeads_reduce_nil hg (.inr hctx) hlost
      · exact moveLeads_reduce_nil hg (.inr hctx) hlost
      · exact moveLeads_reduce_nil hg (.inr hctx) hlost
      · exact hlost
  | input | inputError | globStart | defStart | header | name | defEnd =>
      simp only [move]
      repeat' split
      all_goals
        first
        | exact fun h => h.2
        | exact moveLeads_shift_nil hg trivial fun h => h.2
  | pgroupError | testError | pgroupName =>
      simp only [move]
      split
      · exact moveLeads_shift_nil hg hctx fun h => h.2
      · exact fun h => h.2

end Blts.Config
