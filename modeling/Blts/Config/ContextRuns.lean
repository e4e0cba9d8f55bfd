import Blts.Config.ContextMoves

/-!
# The context along a run of the parser

The step lemma of the context lifted to turns of the loop, to tokens and to
token lists.  Two facts travel with it: errors are only ever added, and the
recovery counter is positive only after an error has been counted.
-/

namespace Blts.Config

open Blts.Params

/-- Error recovery keeps what is left of the context. -/
theorem ctx_errorTarget {pos : Pos} {s : ParserState} (h : Ctx pos s) :
    Ctx pos.errorTarget s := by
  cases pos
  case pgroupBody => exact .inr h
  case testBody => exact .inr h.1
  case paramsIdlist | fixValue | fixCr => exact h.1
  case testsetBody | testlist => exact ⟨.inr h.1, h.2⟩
  all_goals trivial

/-- After `yyerror` every position to recover at is as it should be. -/
theorem ctx_errorTarget_yyerror (pos : Pos) (s : ParserState) :
    Ctx pos.errorTarget (yyerror s) := by
  cases pos <;>
    first
    | trivial
    | exact .inl (lost_yyerror s)
    | exact ⟨.inl (lost_yyerror s), rfl⟩

/-- The parser with its context intact. -/
structure Intact (p : Parser) : Prop where
  ctx : Ctx p.pos p.state
  globals : GlobalsValued p.state.table
  errors : 0 < p.errstatus → 0 < p.state.parseErrors
  status : p.errstatus ≤ 3

theorem intact_initial {t : SymbolTable} (ht : GlobalsValued t) :
    Intact (.initial t) where
  ctx := trivial
  globals := ht
  errors := fun h => absurd h (Nat.lt_irrefl 0)
  status := Nat.zero_le 3

/-- A fault is the use of a lost symbol or the want of a table. -/
def FaultReason (f : Fault) (s : ParserState) (lost : Prop) : Prop :=
  (f = .nullDeref ∧ lost) ∨ (f = .tableWrite ∧ s.table.cells = none ∧ ¬ lost)

/-- What a turn keeps. -/
def TurnKeeps (p : Parser) (lost : Prop) : Turn → Prop
  | .next p' | .retry p' =>
      Intact p' ∧ p.state.parseErrors ≤ p'.state.parseErrors ∧ ¬ lost
  | .ret code s =>
      GlobalsValued s.table ∧ p.state.parseErrors ≤ s.parseErrors ∧
        (code = 0 → s = p.state ∧ p.pos = .input) ∧ ¬ lost
  | .fault f => FaultReason f p.state lost

/-- Only between sections does the parser accept. -/
theorem move_eq_accept {pos : Pos} {tok : Option Token}
    (h : move pos tok = .accept) : pos = .input ∧ tok = none := by
  cases pos <;> simp only [move, shiftValue] at h <;> repeat' split at h
  all_goals first | exact ⟨rfl, rfl⟩ | cases h

/-- A turn keeps the context. -/
theorem yystep_keeps {p : Parser} (hp : Intact p) (tok : Option Token) :
    TurnKeeps p (UsesLost p.pos tok p.state) (yystep p tok) := by
  have hmove : MoveLeads _ _ (move p.pos tok) := move_leads hp.ctx hp.globals
  unfold yystep
  cases hm : move p.pos tok with
  | shift actions next recover =>
      rw [hm] at hmove
      change Leads (Action.runAll actions p.state) p.state _ _ _ at hmove
      dsimp only
      cases hrun : Action.runAll actions p.state <;> rw [hrun] at hmove
      case done s =>
        obtain ⟨hctx, hg, herr, hlost⟩ := hmove
        refine ⟨⟨hctx, hg, fun h => ?_, ?_⟩, Nat.le_of_eq herr.symm, hlost⟩
        · rw [herr]
          exact hp.errors (by dsimp only at h; omega)
        · exact Nat.le_trans (Nat.sub_le _ _) hp.status
      case yyError s =>
        obtain ⟨hctx, hg, hle, hpos, hlost⟩ := hmove
        exact ⟨⟨hctx, hg, fun _ => hpos, Nat.le_refl 3⟩, hle, hlost⟩
      case fault f => exact hmove
  | reduce actions next recover =>
      rw [hm] at hmove
      change Leads (Action.runAll actions p.state) p.state _ _ _ at hmove
      dsimp only
      cases hrun : Action.runAll actions p.state <;> rw [hrun] at hmove
      case done s =>
        obtain ⟨hctx, hg, herr, hlost⟩ := hmove
        exact ⟨⟨hctx, hg, fun h => herr ▸ hp.errors h, hp.status⟩,
          Nat.le_of_eq herr.symm, hlost⟩
      case yyError s =>
        obtain ⟨hctx, hg, hle, hpos, hlost⟩ := hmove
        exact ⟨⟨hctx, hg, fun _ => hpos, Nat.le_refl 3⟩, hle, hlost⟩
      case fault f => exact hmove
  | error =>
      rw [hm] at hmove
      change ¬ UsesLost p.pos tok p.state at hmove
      dsimp only
      by_cases hthree : p.errstatus = 3
      · have hpos : 0 < p.state.parseErrors := hp.errors (by omega)
        rw [if_pos hthree]
        cases tok with
        | none =>
            exact ⟨hp.globals, Nat.le_refl _, fun h => by simp at h, hmove⟩
        | some t =>
            exact ⟨⟨ctx_errorTarget hp.ctx, hp.globals, fun _ => hpos,
              Nat.le_refl 3⟩, Nat.le_refl _, hmove⟩
      · rw [if_neg hthree]
        by_cases hzero : p.errstatus = 0
        · rw [if_pos hzero]
          exact ⟨⟨ctx_errorTarget_yyerror _ _, hp.globals,
            fun _ => Nat.succ_pos _, Nat.le_refl 3⟩, Nat.le_succ _, hmove⟩
        · rw [if_neg hzero]
          exact ⟨⟨ctx_errorTarget hp.ctx, hp.globals,
            fun _ => hp.errors (by omega), Nat.le_refl 3⟩, Nat.le_refl _, hmove⟩
  | accept =>
      rw [hm] at hmove
      exact ⟨hp.globals, Nat.le_refl _,
        fun _ => ⟨rfl, (move_eq_accept hm).1⟩, hmove⟩

/-- The positions that recovery ends at. -/
def Pos.isError : Pos → Bool
  | .inputError | .pgroupError | .testError | .testsetError => true
  | _ => false

theorem isError_errorTarget (pos : Pos) : pos.errorTarget.isError = true := by
  cases pos <;> rfl

/-- A move that does not leave the token for another turn. -/
def Move.consumes : Move → Bool
  | .shift _ _ _ | .accept => true
  | _ => false

/-- The positions that a reduction leads to from a single token: none of them
reduces, or two reductions are followed by a shift. -/
theorem move_reduce {pos next recover : Pos} {tok : Option Token}
    {as : List Action} (h : move pos tok = .reduce as next recover) :
    recover.isError = true ∧
      ∀ as' next' recover', move next tok = .reduce as' next' recover' →
        (move next' tok).consumes = true := by
  cases pos
  case constValues | generateArgs =>
    simp only [move] at h
    split at h <;> cases h
    exact ⟨rfl, fun as' next' recover' h' => by
      simp only [move] at h'
      split at h' <;> cases h'⟩
  case pgroupBody =>
    simp only [move] at h
    split at h <;> cases h <;>
      exact ⟨rfl, fun as' next' recover' h' => by
        cases h'
        rfl⟩
  case pgroupcontents =>
    simp only [move] at h
    split at h <;> cases h <;>
      exact ⟨rfl, fun as' next' recover' h' => by
        simp only [move] at h'
        repeat' split at h'
        all_goals cases h'⟩
  case testBody =>
    simp only [move] at h
    split at h <;> cases h <;>
      exact ⟨rfl, fun as' next' recover' h' => by cases h' <;> rfl⟩
  case testsettings =>
    simp only [move] at h
    split at h <;> cases h
    exact ⟨rfl, fun as' next' recover' h' => by
      simp only [move] at h'
      repeat' split at h'
      all_goals cases h'⟩
  case testsetsettings =>
    simp only [move] at h
    split at h <;> cases h
    exact ⟨rfl, fun as' next' recover' h' => by
      simp only [move] at h'
      split at h' <;> cases h'⟩
  all_goals
    simp only [move, shiftValue] at h
    repeat' split at h
    all_goals cases h

/-- At a position to recover at, with the counter at three, no turn leaves the
token. -/
theorem yystep_of_isError {p p' : Parser} {tok : Option Token}
    (hpos : p.pos.isError = true) (hthree : p.errstatus = 3) :
    yystep p tok ≠ .retry p' := by
  obtain ⟨pos, errstatus, s⟩ := p
  have hcr : move pos tok = .error ∨
      ∃ as next recover, move pos tok = .shift as next recover := by
    cases pos <;> cases hpos <;> simp only [move] <;> split <;>
      first
      | exact .inl rfl
      | exact .inr ⟨_, _, _, rfl⟩
  intro h
  unfold yystep at h
  rcases hcr with hm | ⟨as, next, recover, hm⟩ <;> simp only [hm] at h
  · rw [if_pos hthree] at h
    cases tok <;> cases h
  · split at h <;> cases h

/-- A turn that leaves the token is a reduction, or has recovered. -/
theorem yystep_retry {p p' : Parser} {tok : Option Token}
    (h : yystep p tok = .retry p') :
    (p'.pos.isError = true ∧ p'.errstatus = 3) ∨
      ∃ as recover, move p.pos tok = .reduce as p'.pos recover := by
  unfold yystep at h
  cases hm : move p.pos tok <;> simp only [hm] at h
  case shift => split at h <;> cases h
  case reduce as next recover =>
    split at h <;> cases h
    · exact .inr ⟨as, recover, rfl⟩
    · exact .inl ⟨(move_reduce hm).1, rfl⟩
  case error =>
    split at h
    · cases tok <;> cases h
    · cases h
      exact .inl ⟨isError_errorTarget _, rfl⟩
  case accept => cases h

/-- A turn that shifts or accepts does not leave the token. -/
theorem yystep_of_consumes {p p' : Parser} {tok : Option Token}
    (h : (move p.pos tok).consumes = true) : yystep p tok ≠ .retry p' := by
  intro hstep
  unfold yystep at hstep
  cases hm : move p.pos tok <;> simp only [hm] at hstep
  case shift => split at hstep <;> cases hstep
  case accept => cases hstep
  all_goals
    rw [hm] at h
    cases h

/-- Three turns are enough for any token. -/
theorem yystep_third {p p₁ p₂ p₃ : Parser} {tok : Option Token}
    (h₁ : yystep p tok = .retry p₁) (h₂ : yystep p₁ tok = .retry p₂) :
    yystep p₂ tok ≠ .retry p₃ := by
  rcases yystep_retry h₁ with ⟨hpos, hthree⟩ | ⟨as, recover, hm₁⟩
  · exact absurd h₂ (yystep_of_isError hpos hthree)
  · rcases yystep_retry h₂ with ⟨hpos, hthree⟩ | ⟨as', recover', hm₂⟩
    · exact yystep_of_isError hpos hthree
    · exact yystep_of_consumes ((move_reduce hm₁).2 as' _ recover' hm₂)

/-- What is kept by the turns that one token takes. -/
def FedKeeps (p : Parser) : Fed → Prop
  | .next p' => Intact p' ∧ p.state.parseErrors ≤ p'.state.parseErrors
  | .ret _ s => GlobalsValued s.table ∧ p.state.parseErrors ≤ s.parseErrors
  | .fault f => f = .nullDeref ∨ f = .tableWrite

/-- One turn, and the turns after it. -/
theorem feed_succ_keeps {p : Parser} {tok : Option Token} {n : Nat}
    (hp : Intact p)
    (hretry : ∀ p', yystep p tok = .retry p' → Intact p' →
      FedKeeps p' (feed n p' tok)) : FedKeeps p (feed (n + 1) p tok) := by
  have hturn := yystep_keeps hp tok
  unfold feed
  cases hstep : yystep p tok <;> rw [hstep] at hturn
  case next p' => exact ⟨hturn.1, hturn.2.1⟩
  case retry p' =>
    have hrest := hretry p' hstep hturn.1
    have hle := hturn.2.1
    dsimp only
    cases hfed : feed n p' tok <;> rw [hfed] at hrest
    case next p'' => exact ⟨hrest.1, Nat.le_trans hle hrest.2⟩
    case ret code s => exact ⟨hrest.1, Nat.le_trans hle hrest.2⟩
    case fault f => exact hrest
  case ret code s => exact ⟨hturn.1, hturn.2.1⟩
  case fault f => exact hturn.imp And.left And.left

/-- A token keeps the context, and takes no more turns than it is given. -/
theorem feed_keeps {p : Parser} (hp : Intact p) (tok : Option Token) :
    FedKeeps p (feed maxTurns p tok) := by
  apply feed_succ_keeps hp
  intro p₁ h₁ hp₁
  apply feed_succ_keeps hp₁
  intro p₂ h₂ hp₂
  apply feed_succ_keeps hp₂
  intro p₃ h₃ _
  exact absurd h₃ (yystep_third h₁ h₂)

/-- A token that is not the end of input is always consumed. -/
theorem yystep_some_ne_ret (p : Parser) (tok : Token) (code : Int)
    (s : ParserState) : yystep p (some tok) ≠ .ret code s := by
  intro h
  unfold yystep at h
  cases hm : move p.pos (some tok) <;> simp only [hm] at h
  case shift => split at h <;> cases h
  case reduce => split at h <;> cases h
  case error => split at h <;> cases h
  case accept => exact absurd (move_eq_accept hm).2 (Option.some_ne_none tok)

theorem feed_some_ne_ret (n : Nat) (p : Parser) (tok : Token) (code : Int)
    (s : ParserState) : feed n p (some tok) ≠ .ret code s := by
  induction n generalizing p with
  | zero => exact fun h => by cases h
  | succ n ih =>
      intro h
      unfold feed at h
      cases hstep : yystep p (some tok) <;> rw [hstep] at h
      case retry p' => exact ih p' h
      case ret => exact yystep_some_ne_ret p tok _ _ hstep
      all_goals cases h

/-- **The run lemma of the context.**  A list of tokens either stops the program
at a null pointer or for want of a table, or leaves the context intact with the
errors before it still counted. -/
theorem yytokens_keeps (toks : List Token) : ∀ {p : Parser}, Intact p →
    (∃ p', yytokens p toks = .ok p' ∧ Intact p' ∧
      p.state.parseErrors ≤ p'.state.parseErrors) ∨
    yytokens p toks = .error .nullDeref ∨ yytokens p toks = .error .tableWrite := by
  induction toks with
  | nil => exact fun hp => .inl ⟨_, rfl, hp, Nat.le_refl _⟩
  | cons tok toks ih =>
      intro p hp
      have hfed := feed_keeps hp (some tok)
      unfold yytokens yytoken
      cases hf : feed maxTurns p (some tok) <;> rw [hf] at hfed
      case next p₁ =>
        rcases ih hfed.1 with ⟨p', hrun, hp', hle⟩ | hfault
        · exact .inl ⟨p', hrun, hp', Nat.le_trans hfed.2 hle⟩
        · exact .inr hfault
      case ret code s => exact absurd hf (feed_some_ne_ret _ _ _ _ _)
      case fault f => exact .inr (hfed.imp (congrArg _) (congrArg _))

end Blts.Config
