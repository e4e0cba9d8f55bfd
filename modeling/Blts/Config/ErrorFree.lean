import Blts.Config.ContextRuns

/-!
# Parsing without errors

While nothing goes wrong the parser is a deterministic automaton: each token is
shifted after at most two reductions, every action is done, and the recovery
counter stays at zero.  `advance` is that automaton.  The parser agrees with it
for as long as it counts no error, so that a configuration loads with result
zero exactly when the automaton takes its tokens from `input` back to `input`.
-/

namespace Blts.Config

open Blts.Params

/-- The state that an action is done in, if it is. -/
def Outcome.done? : Outcome → Option ParserState
  | .done s => some s
  | _ => none

/-- Take a token without an error. -/
def advanceFuel : Nat → Pos → ParserState → Token → Option (Pos × ParserState)
  | 0, _, _, _ => none
  | fuel + 1, pos, s, tok =>
      match move pos (some tok) with
      | .shift actions next _ =>
          (Action.runAll actions s).done?.map fun s' => (next, s')
      | .reduce actions next _ =>
          (Action.runAll actions s).done?.bind fun s' =>
            advanceFuel fuel next s' tok
      | .error | .accept => none

/-- The position and the context after a token that causes no error. -/
def advance (c : Pos × ParserState) (tok : Token) : Option (Pos × ParserState) :=
  advanceFuel maxTurns c.1 c.2 tok

/-- The position and the context after tokens that cause no error. -/
def advances (c : Pos × ParserState) : List Token → Option (Pos × ParserState)
  | [] => some c
  | tok :: toks => (advance c tok).bind fun c' => advances c' toks

/-- What the automaton is started from. -/
def initialContext (t : SymbolTable) : Pos × ParserState :=
  (.input, (Parser.initial t).state)

theorem advances_cons (c : Pos × ParserState) (tok : Token) (toks : List Token) :
    advances c (tok :: toks) = (advance c tok).bind fun c' => advances c' toks :=
  rfl

theorem advances_append (c : Pos × ParserState) (xs ys : List Token) :
    advances c (xs ++ ys) = (advances c xs).bind fun c' => advances c' ys := by
  induction xs generalizing c with
  | nil => rfl
  | cons x xs ih =>
      simp only [List.cons_append, advances_cons]
      cases advance c x with
      | none => rfl
      | some c' => exact ih c'

/-! ## The parser follows the automaton -/

/-- A token that the automaton takes is taken by the parser. -/
theorem feed_of_advanceFuel {tok : Token} (n : Nat) : ∀ {p : Parser}
    {c : Pos × ParserState}, advanceFuel n p.pos p.state tok = some c →
      feed n p (some tok) =
        .next { pos := c.1, errstatus := p.errstatus - 1, state := c.2 } := by
  induction n with
  | zero => exact fun h => by cases h
  | succ n ih =>
      intro p c h
      unfold advanceFuel at h
      unfold feed yystep
      cases hm : move p.pos (some tok) <;> simp only [hm] at h ⊢
      case shift as next recover =>
        cases hrun : Action.runAll as p.state <;> rw [hrun] at h <;> cases h
        rfl
      case reduce as next recover =>
        cases hrun : Action.runAll as p.state <;> rw [hrun] at h
        case done s =>
          exact ih (p := { p with pos := next, state := s }) h
        all_goals cases h
      all_goals cases h

/-- The turns after a first one that has counted an error keep it counted. -/
theorem parseErrors_pos_of_feed {n : Nat} {p p' : Parser} {tok : Option Token}
    (hp : Intact p) (hpos : 0 < p.state.parseErrors)
    (h : feed n p tok = .next p') : 0 < p'.state.parseErrors := by
  induction n generalizing p with
  | zero => cases h
  | succ n ih =>
      have hturn := yystep_keeps hp tok
      unfold feed at h
      cases hstep : yystep p tok <;> rw [hstep] at h hturn
      case next p₁ =>
        cases h
        exact Nat.lt_of_lt_of_le hpos hturn.2.1
      case retry p₁ =>
        exact ih hturn.1 (Nat.lt_of_lt_of_le hpos hturn.2.1) h
      all_goals cases h

/-- A token is taken by the automaton, or the parser counts an error. -/
theorem advanceFuel_of_feed {tok : Token} (n : Nat) : ∀ {p p' : Parser},
    Intact p → feed n p (some tok) = .next p' → p.state.parseErrors = 0 →
      p'.state.parseErrors = 0 →
      advanceFuel n p.pos p.state tok = some (p'.pos, p'.state) := by
  induction n with
  | zero => exact fun _ h => by cases h
  | succ n ih =>
      intro p p' hp h hzero hzero'
      have hmove : MoveLeads _ _ (move p.pos (some tok)) :=
        move_leads hp.ctx hp.globals
      have hturn := yystep_keeps hp (some tok)
      have hstatus : p.errstatus = 0 := by
        by_contra hne
        exact absurd (hp.errors (by omega)) (by omega)
      unfold advanceFuel
      unfold feed at h
      cases hm : move p.pos (some tok) <;> rw [hm] at hmove <;>
        simp only [yystep, hm] at h hturn ⊢
      case shift as next recover =>
        change Leads (Action.runAll as p.state) p.state _ _ _ at hmove
        cases hrun : Action.runAll as p.state <;> rw [hrun] at h hmove
        case done s =>
          cases h
          rfl
        case yyError s =>
          cases h
          exact absurd hmove.2.2.2.1 (by dsimp only at hzero'; omega)
        case fault f => cases h
      case reduce as next recover =>
        change Leads (Action.runAll as p.state) p.state _ _ _ at hmove
        cases hrun : Action.runAll as p.state <;> rw [hrun] at h hmove hturn
        case done s =>
          exact ih hturn.1 h (hmove.2.2.1.trans hzero) hzero'
        case yyError s =>
          have hpos := parseErrors_pos_of_feed hturn.1 hmove.2.2.2.1 h
          omega
        case fault f => cases h
      case error =>
        rw [if_neg (by omega), if_pos hstatus] at h hturn
        have hpos := parseErrors_pos_of_feed hturn.1 (Nat.succ_pos _) h
        omega
      case accept => cases h

/-- The automaton keeps the context and counts no errors. -/
theorem advanceFuel_keeps {tok : Token} (n : Nat) : ∀ {pos : Pos}
    {s : ParserState} {c : Pos × ParserState}, Ctx pos s →
      GlobalsValued s.table → advanceFuel n pos s tok = some c →
      Ctx c.1 c.2 ∧ GlobalsValued c.2.table ∧ c.2.parseErrors = s.parseErrors := by
  induction n with
  | zero => exact fun _ _ h => by cases h
  | succ n ih =>
      intro pos s c hctx hg h
      have hmove : MoveLeads _ _ (move pos (some tok)) := move_leads hctx hg
      unfold advanceFuel at h
      cases hm : move pos (some tok) <;> rw [hm] at hmove <;>
        simp only [hm] at h
      case shift as next recover =>
        change Leads (Action.runAll as s) s _ _ _ at hmove
        cases hrun : Action.runAll as s <;> rw [hrun] at h hmove <;> cases h
        exact ⟨hmove.1, hmove.2.1, hmove.2.2.1⟩
      case reduce as next recover =>
        change Leads (Action.runAll as s) s _ _ _ at hmove
        cases hrun : Action.runAll as s <;> rw [hrun] at h hmove
        case done s' =>
          obtain ⟨hctx', hg', herr⟩ := ih hmove.1 hmove.2.1 h
          exact ⟨hctx', hg', herr.trans hmove.2.2.1⟩
        all_goals cases h
      all_goals cases h

/-- So do whole lists of tokens, from the start. -/
theorem advances_keeps {t : SymbolTable} (ht : GlobalsValued t)
    {toks : List Token} {pos : Pos} {s : ParserState}
    (h : advances (initialContext t) toks = some (pos, s)) :
    Ctx pos s ∧ GlobalsValued s.table := by
  have hrun : ∀ (toks : List Token) (c : Pos × ParserState), Ctx c.1 c.2 →
      GlobalsValued c.2.table → ∀ c', advances c toks = some c' →
        Ctx c'.1 c'.2 ∧ GlobalsValued c'.2.table := by
    intro toks
    induction toks with
    | nil =>
        intro c hctx hg c' h
        cases h
        exact ⟨hctx, hg⟩
    | cons tok toks ih =>
        intro c hctx hg c' h
        obtain ⟨c₁, hadv, h⟩ := Option.bind_eq_some_iff.mp h
        obtain ⟨hctx₁, hg₁, _⟩ := advanceFuel_keeps maxTurns hctx hg hadv
        exact ih c₁ hctx₁ hg₁ c' h
  exact hrun toks (initialContext t) trivial ht _ h

/-- The parser at a position and with a context of the automaton. -/
def Parser.at (c : Pos × ParserState) : Parser where
  pos := c.1
  errstatus := 0
  state := c.2

/-- A parser that has counted no error is not recovering from one. -/
theorem Intact.eq_at {p : Parser} (hp : Intact p)
    (hzero : p.state.parseErrors = 0) : p = .at (p.pos, p.state) := by
  have hstatus : p.errstatus = 0 := by
    by_contra hne
    exact absurd (hp.errors (by omega)) (by omega)
  obtain ⟨pos, errstatus, s⟩ := p
  cases hstatus
  rfl

/-- **The parser and the automaton.**  Over a list of tokens the parser counts
no error exactly when the automaton takes them all, and then both are at the
same position with the same context. -/
theorem advances_eq_some {toks : List Token} : ∀ {c c' : Pos × ParserState},
    Intact (.at c) → c.2.parseErrors = 0 →
      (advances c toks = some c' ↔
        yytokens (.at c) toks = .ok (.at c') ∧ c'.2.parseErrors = 0) := by
  induction toks with
  | nil =>
      intro c c' _ hzero
      constructor
      · intro h
        cases h
        exact ⟨rfl, hzero⟩
      · rintro ⟨h, _⟩
        obtain ⟨pos, s⟩ := c
        obtain ⟨pos', s'⟩ := c'
        cases h
        rfl
  | cons tok toks ih =>
      intro c c' hc hzero
      have hfed := feed_keeps hc (some tok)
      rw [advances_cons]
      unfold yytokens yytoken
      cases hadv : advance c tok with
      | some c₁ =>
          have hkeeps := advanceFuel_keeps maxTurns hc.ctx hc.globals hadv
          have hfeed : feed maxTurns (.at c) (some tok) = .next (.at c₁) :=
            feed_of_advanceFuel maxTurns hadv
          rw [hfeed] at hfed ⊢
          exact ih hfed.1 (hkeeps.2.2.trans hzero)
      | none =>
          constructor
          · intro h
            cases h
          · rintro ⟨hrun, hzero'⟩
            cases hf : feed maxTurns (.at c) (some tok) <;> rw [hf] at hfed hrun
            case next p₁ =>
              change yytokens p₁ toks = _ at hrun
              rcases yytokens_keeps toks hfed.1 with
                ⟨p', hrun', _, hle⟩ | hfault | hfault
              · rw [hrun'] at hrun
                cases hrun
                have hadv' := advanceFuel_of_feed maxTurns hc hf hzero
                  (by dsimp only [Parser.at] at hle; omega)
                rw [show advance c tok = some (p₁.pos, p₁.state) from hadv'] at hadv
                cases hadv
              · rw [hfault] at hrun
                cases hrun
              · rw [hfault] at hrun
                cases hrun
            all_goals cases hrun

/-- No reduction leads between sections. -/
theorem move_reduce_ne_input {pos next recover : Pos} {tok : Option Token}
    {as : List Action} (h : move pos tok = .reduce as next recover) :
    next ≠ .input := by
  cases pos <;> simp only [move, shiftValue] at h <;> repeat' split at h
  all_goals
    cases h
    try exact Pos.noConfusion

/-- The end of input is accepted between sections only. -/
theorem feed_none_eq_ret_zero {s : ParserState} (n : Nat) : ∀ {p : Parser},
    feed n p none = .ret 0 s → p.pos = .input ∧ s = p.state := by
  induction n with
  | zero => exact fun h => by cases h
  | succ n ih =>
      intro p h
      unfold feed at h
      cases hstep : yystep p none <;> rw [hstep] at h
      case retry p' =>
        obtain ⟨hinput, _⟩ := ih h
        rcases yystep_retry hstep with ⟨herr, _⟩ | ⟨as, recover, hm⟩
        · rw [hinput] at herr
          cases herr
        · exact absurd hinput (move_reduce_ne_input hm)
      case ret code s' =>
        cases h
        unfold yystep at hstep
        cases hm : move p.pos none <;> simp only [hm] at hstep
        case shift => split at hstep <;> cases hstep
        case reduce => split at hstep <;> cases hstep
        case error => split at hstep <;> cases hstep
        case accept =>
          cases hstep
          exact ⟨(move_eq_accept hm).1, rfl⟩
      all_goals cases h

theorem yyeof_eq_ok_zero {p : Parser} {s : ParserState} :
    yyeof p = .ok (0, s) ↔ p.pos = .input ∧ s = p.state := by
  constructor
  · intro h
    unfold yyeof at h
    cases hf : feed maxTurns p none <;> rw [hf] at h <;> cases h
    exact feed_none_eq_ret_zero maxTurns hf
  · rintro ⟨hpos, rfl⟩
    simp [yyeof, maxTurns, feed, yystep, hpos, move]

/-- A load with result zero is a parse that is accepted with no error. -/
theorem bltsConfParserStart_eq_ok_zero {t t' : SymbolTable} {toks : List Token}
    {lexError : Bool} :
    bltsConfParserStart t toks lexError = .ok (0, t') ↔
      ∃ s, yyparse (.initial t) toks lexError = .ok (0, s) ∧
        s.parseErrors = 0 ∧ s.table = t' := by
  unfold bltsConfParserStart
  cases hparse : yyparse (.initial t) toks lexError with
  | error f => simp [bind, Except.bind]
  | ok r =>
      obtain ⟨ret, s⟩ := r
      simp only [bind, Except.bind, pure, Except.pure]
      by_cases hret : ret = 0
      · simp [hret]
      · simp [hret]

/-- **Loading without an error.**  A configuration loads with result zero
exactly when the scanner does not fail and the automaton takes its tokens from
`input` to `input`; the table is then the automaton's. -/
theorem loads_iff {t t' : SymbolTable} (ht : GlobalsValued t)
    (toks : List Token) (lexError : Bool) :
    bltsConfParserStart t toks lexError = .ok (0, t') ↔
      lexError = false ∧
        ∃ s, advances (initialContext t) toks = some (.input, s) ∧
          s.table = t' := by
  have hinit : Intact (.at (initialContext t)) := intact_initial ht
  have hadv := @advances_eq_some toks (initialContext t)
  rw [bltsConfParserStart_eq_ok_zero]
  constructor
  · rintro ⟨s, hparse, hzero, htable⟩
    unfold yyparse at hparse
    rcases yytokens_keeps toks (intact_initial ht) with
      ⟨p', hrun, hp', _⟩ | hfault | hfault
    · rw [hrun] at hparse
      simp only [bind, Except.bind] at hparse
      cases lexError with
      | true =>
          obtain ⟨_, rfl⟩ := yyeof_eq_ok_zero.mp hparse
          cases hzero
      | false =>
          obtain ⟨hpos, rfl⟩ := yyeof_eq_ok_zero.mp hparse
          refine ⟨rfl, p'.state, ?_, htable⟩
          rw [← hpos, hadv hinit rfl]
          exact ⟨hp'.eq_at hzero ▸ hrun, hzero⟩
    · rw [hfault] at hparse
      cases hparse
    · rw [hfault] at hparse
      cases hparse
  · rintro ⟨rfl, s, hrun, htable⟩
    rw [hadv hinit rfl] at hrun
    refine ⟨s, ?_, hrun.2, htable⟩
    unfold yyparse
    rw [show Parser.initial t = .at (initialContext t) from rfl, hrun.1]
    show yyeof (.at (.input, s)) = .ok (0, s)
    exact yyeof_eq_ok_zero.mpr ⟨rfl, rfl⟩

end Blts.Config
