import Blts.Config.ContextRuns

/-!
# Null pointers after error recovery

`yyerror` discards the context, and `bison` goes on reducing the section it has
recovered in.  The actions that run there see the null pointers: the end of a
group, the value of a `fix` line and the end of the settings of a test write
through them.  When it is the scanner that fails, `yyerror` is called while the
parser waits for a token, and the lists that are ended by default are ended
with the context gone.

These steps are all there are.  The parser follows a null pointer exactly when
it takes one of them.
-/

namespace Blts.Config

open Blts.Params

/-- The lists whose end writes through `current_sym` and is reached on any token
that does not continue them, also on the end of input. -/
def Pos.endsByDefault : Pos → Bool
  | .constValues | .generateArgs | .testsetsettings => true
  | _ => false

/-- No step of the parser on these tokens uses a lost symbol, and a failing
scanner does not fail inside a list that ends by default. -/
def KeepsContext : Parser → List Token → Bool → Prop
  | p, [], true => p.pos.endsByDefault = false
  | p, [], false => ¬ UsesLost p.pos none p.state
  | p, tok :: toks, lexError =>
      ¬ UsesLost p.pos (some tok) p.state ∧
        ∀ p', yytoken p tok = .next p' → KeepsContext p' toks lexError

/-- No symbol is used at a position to recover at. -/
theorem not_usesLost_of_isError {pos : Pos} (h : pos.isError = true)
    (tok : Option Token) (s : ParserState) : ¬ UsesLost pos tok s := by
  cases pos <;> cases h <;> exact fun hl => hl.2

/-- The positions where a symbol can be lost are reached by a reduction only
from the header of their section. -/
theorem move_reduce_next {pos next recover : Pos} {tok : Option Token}
    {as : List Action} (h : move pos tok = .reduce as next recover) :
    (as = [] ∧ (pos = .pgroupBody ∨ pos = .testBody)) ∨
      ∀ tok s, ¬ UsesLost next tok s := by
  cases pos
  case pgroupBody =>
    simp only [move] at h
    split at h <;> cases h <;> exact .inl ⟨rfl, .inl rfl⟩
  case testBody =>
    simp only [move] at h
    split at h <;> cases h <;> exact .inl ⟨rfl, .inr rfl⟩
  case constValues | generateArgs | pgroupcontents | testsettings
      | testsetsettings =>
    simp only [move] at h
    split at h <;> cases h <;> exact .inr fun _ _ hl => hl.2
  all_goals
    simp only [move, shiftValue] at h
    repeat' split at h
    all_goals cases h

/-- After a turn that leaves the token, the token uses no lost symbol. -/
theorem not_usesLost_of_retry {p p' : Parser} {tok : Option Token}
    (hp : Intact p) (h : yystep p tok = .retry p') :
    ¬ UsesLost p'.pos tok p'.state := by
  have hrun := h
  rcases yystep_retry h with ⟨hpos, _⟩ | ⟨as, recover, hm⟩
  · exact not_usesLost_of_isError hpos tok p'.state
  · rcases move_reduce_next hm with ⟨rfl, hpos⟩ | hnext
    · have hstate : p'.state = p.state := by
        unfold yystep at hrun
        rw [hm] at hrun
        exact (congrArg Parser.state (Turn.retry.inj hrun)).symm
      have hctx := hp.ctx
      rcases hpos with hpos | hpos <;> rw [hpos] at hctx
      · obtain ⟨key, syms, hsym⟩ := hctx
        exact not_usesLost (hstate ▸ hsym)
      · obtain ⟨⟨key, td, hsym⟩, _⟩ := hctx
        exact not_usesLost (hstate ▸ hsym)
    · exact hnext tok p'.state

/-- Later turns on the same token follow no null pointer. -/
theorem feed_ne_nullDeref {tok : Option Token} (n : Nat) :
    ∀ {p : Parser}, Intact p → ¬ UsesLost p.pos tok p.state →
      feed n p tok ≠ .fault .nullDeref := by
  induction n with
  | zero => exact fun _ _ h => by cases h
  | succ n ih =>
      intro p hp hlost h
      have hturn := yystep_keeps hp tok
      unfold feed at h
      cases hstep : yystep p tok <;> rw [hstep] at h hturn
      case retry p' => exact ih hturn.1 (not_usesLost_of_retry hp hstep) h
      case fault f =>
        cases h
        rcases hturn with ⟨_, hl⟩ | ⟨hf, _⟩
        · exact hlost hl
        · cases hf
      all_goals cases h

/-- **One token.**  A null pointer is followed exactly by the use of a lost
symbol. -/
theorem feed_eq_nullDeref {p : Parser} {tok : Option Token} (hp : Intact p) :
    feed maxTurns p tok = .fault .nullDeref ↔ UsesLost p.pos tok p.state := by
  constructor
  · intro h
    by_contra hlost
    exact feed_ne_nullDeref maxTurns hp hlost h
  · intro hlost
    have hturn := yystep_keeps hp tok
    show feed (2 + 1) p tok = .fault .nullDeref
    unfold feed
    cases hstep : yystep p tok <;> rw [hstep] at hturn
    case fault f =>
      rcases hturn with ⟨rfl, _⟩ | ⟨_, _, hnot⟩
      · rfl
      · exact absurd hlost hnot
    case next p' => exact absurd hlost hturn.2.2
    case retry p' => exact absurd hlost hturn.2.2
    case ret code s => exact absurd hlost hturn.2.2.2

/-- The end of input at a position without a reduction is an error, and ends the
parser. -/
theorem feed_none_of_error {p : Parser} (h : move p.pos none = .error) :
    ∃ s, feed maxTurns p none = .ret 1 s ∧ s.table = p.state.table := by
  have htarget : move p.pos.errorTarget none = .error := by
    cases p.pos <;> rfl
  show ∃ s, feed (1 + 1 + 1) p none = .ret 1 s ∧ _
  by_cases hthree : p.errstatus = 3
  · exact ⟨p.state, by simp [feed, yystep, h, hthree], rfl⟩
  · refine ⟨if p.errstatus = 0 then yyerror p.state else p.state,
      by simp [feed, yystep, h, hthree, htarget], ?_⟩
    split <;> rfl

/-- **A failing scanner.**  Its call of `yyerror` makes the parser follow a null
pointer exactly inside the lists that end by default. -/
theorem yyeof_yyerror {p : Parser} :
    yyeof { p with state := yyerror p.state } = .error .nullDeref ↔
      p.pos.endsByDefault = true := by
  obtain ⟨pos, errstatus, s⟩ := p
  by_cases herr : move pos none = .error
  · obtain ⟨s', hs', _⟩ := feed_none_of_error
      (p := { pos := pos, errstatus := errstatus, state := yyerror s }) herr
    have hpos : pos.endsByDefault = false := by
      cases pos <;> first | rfl | cases herr
    simp [yyeof, hs', hpos]
  · cases pos
    case input => simp [yyeof, feed, yystep, move, maxTurns, Pos.endsByDefault]
    case constValues =>
      simp [yyeof, feed, yystep, move, maxTurns, Pos.endsByDefault, Action.runAll,
        Action.run, Action.constEndRun, updateParam, updateSymbol, yyerror,
        Outcome.andThen]
    case generateArgs =>
      simp [yyeof, feed, yystep, move, maxTurns, Pos.endsByDefault, Action.runAll,
        Action.run, Action.generateEndRun, updateParam, updateSymbol, yyerror,
        Outcome.andThen]
    case testsetsettings =>
      simp [yyeof, feed, yystep, move, maxTurns, Pos.endsByDefault, Action.runAll,
        Action.run, Action.testsetsettingsEndRun, updateTestset, updateSymbol,
        yyerror, Outcome.andThen]
    case pgroupcontents =>
      by_cases hthree : errstatus = 3 <;>
        simp [yyeof, feed, yystep, move, maxTurns, Pos.endsByDefault,
          Action.runAll, hthree, Pos.errorTarget]
    case testsettings =>
      simp [yyeof, feed, yystep, move, maxTurns, Pos.endsByDefault, Action.runAll,
        Action.run, Action.testdefEndRun, commit, commitCurrentSymbol, yyerror,
        Outcome.andThen, einval]
    all_goals exact absurd rfl herr

/-- Nor does it touch the table, if it ends otherwise. -/
theorem table_yyeof_yyerror {p : Parser} {code : Int} {s : ParserState}
    (h : yyeof { p with state := yyerror p.state } = .ok (code, s)) :
    s.table = p.state.table := by
  obtain ⟨pos, errstatus, s₀⟩ := p
  by_cases herr : move pos none = .error
  · obtain ⟨s', hs', htable⟩ := feed_none_of_error
      (p := { pos := pos, errstatus := errstatus, state := yyerror s₀ }) herr
    unfold yyeof at h
    rw [hs'] at h
    cases h
    exact htable
  · cases pos
    case input =>
      cases h
      rfl
    case pgroupcontents =>
      by_cases hthree : errstatus = 3 <;>
        simp [yyeof, feed, yystep, move, maxTurns, Action.runAll, hthree,
          Pos.errorTarget] at h
      · rw [← h.2]
        rfl
      · rw [← h.2]
        split <;> rfl
    case testsettings =>
      simp [yyeof, feed, yystep, move, maxTurns, Action.runAll, Action.run,
        Action.testdefEndRun, commit, commitCurrentSymbol, yyerror,
        Outcome.andThen, einval] at h
      rw [← h.2]
    all_goals first | exact absurd rfl herr | cases h

/-- The end of input follows a null pointer exactly by the use of a lost
symbol. -/
theorem yyeof_eq_nullDeref {p : Parser} (hp : Intact p) :
    yyeof p = .error .nullDeref ↔ UsesLost p.pos none p.state := by
  rw [← feed_eq_nullDeref hp]
  unfold yyeof
  cases feed maxTurns p none <;> simp

/-- Parsing a list of tokens starts with its first token. -/
theorem yyparse_cons (p : Parser) (tok : Token) (toks : List Token)
    (lexError : Bool) :
    yyparse p (tok :: toks) lexError =
      match yytoken p tok with
      | .next p' => yyparse p' toks lexError
      | .fault f => .error f
      | .ret _ _ => .error .stackOverflow := by
  unfold yyparse
  rw [yytokens]
  cases yytoken p tok <;> rfl

/-- The parser follows no null pointer on the tokens exactly when it keeps the
context on them. -/
theorem yyparse_ne_nullDeref (lexError : Bool) (toks : List Token) :
    ∀ {p : Parser}, Intact p →
      (yyparse p toks lexError ≠ .error .nullDeref ↔
        KeepsContext p toks lexError) := by
  induction toks with
  | nil =>
      intro p hp
      cases lexError with
      | true =>
          show yyeof _ ≠ _ ↔ _
          rw [ne_eq, yyeof_yyerror, Bool.not_eq_true]
          rfl
      | false =>
          show yyeof p ≠ _ ↔ _
          rw [ne_eq, yyeof_eq_nullDeref hp]
          rfl
  | cons tok toks ih =>
      intro p hp
      have htoken : feed maxTurns p (some tok) = _ ↔ _ := feed_eq_nullDeref hp
      have hkeeps := feed_keeps hp (some tok)
      rw [yyparse_cons]
      unfold KeepsContext
      rw [← htoken, yytoken]
      cases hf : feed maxTurns p (some tok) <;> rw [hf] at hkeeps
      case next p' => simpa using ih hkeeps.1
      case ret code s => exact absurd hf (feed_some_ne_ret _ _ _ _ _)
      case fault f => simp

/--
**No null pointer is followed, exactly while the context is kept.**  For every
list of tokens, however it ends, the parser started on a table follows no null
pointer if and only if none of its steps uses a symbol that an error in the same
section has discarded, and the scanner does not fail inside a list that ends by
default.
-/
theorem parser_nullDeref_free (t : SymbolTable) (ht : GlobalsValued t)
    (toks : List Token) (lexError : Bool) :
    yyparse (.initial t) toks lexError ≠ .error .nullDeref ↔
      KeepsContext (.initial t) toks lexError :=
  yyparse_ne_nullDeref lexError toks (intact_initial ht)

/-- The table of a program that has loaded nothing yet. -/
def freshTable : SymbolTable :=
  symbolTableInit .unallocated

theorem globalsValued_freshTable : GlobalsValued freshTable := by
  intro e he
  simp [freshTable, symbolTableInit, SymbolTable.unallocated, SymbolTable.block]
    at he

/-- An unknown member in a `[pgroup]` section, which then ends. -/
def unknownMember : List Token :=
  [.defStart .pgroup, .cr, .name, .ident "g", .cr, .ident "p", .cr,
    .defEnd .pgroup, .cr]

/-- Recovery continues inside the group, whose end then writes through the
discarded symbol. -/
theorem unknownMember_nullDeref :
    yyparse (.initial freshTable) unknownMember false = .error .nullDeref := by
  decide +kernel

/-- The general result on a table that has just been allocated: there the
unknown member breaks the context. -/
theorem unknownMember_breaks_context :
    yyparse (.initial freshTable) unknownMember false ≠ .error .nullDeref ↔
      KeepsContext (.initial freshTable) unknownMember false :=
  parser_nullDeref_free freshTable globalsValued_freshTable unknownMember false

/-- The same happens to the value of a `fix` line after an error in a test, and
to a list of constants that ends in an unreadable string. -/
example : yyparse (.initial freshTable)
      [.defStart .param, .cr, .name, .ident "p", .cr, .const, .long 1, .cr,
        .defEnd .param, .cr, .defStart .test, .cr, .name, .string "t", .cr,
        .const, .cr, .fix, .ident "p", .long 1, .cr] false =
    .error .nullDeref := by decide +kernel

example : yyparse (.initial freshTable)
      [.defStart .param, .cr, .name, .ident "p", .cr, .const, .long 1] true =
    .error .nullDeref := by decide +kernel

end Blts.Config
