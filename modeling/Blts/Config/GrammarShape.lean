import Blts.Config.GrammarRuns
import Blts.Config.LostContext

/-!
# The parser reads nothing else

Every list of tokens that leads the automaton from `input` back to `input` is a
list of written items.  Only the positions matter here: `walk` forgets what the
actions do, and the lemmas below take apart what can still be read at each
position.  With the evaluation of written items this makes the grammar exact:
the parser accepts the written lists of items that can be declared, and builds
the table they declare.
-/

namespace Blts.Config

open Blts.Params

/-- The position after a token. -/
def nextPosFuel : Nat → Pos → Token → Option Pos
  | 0, _, _ => none
  | fuel + 1, pos, tok =>
      match move pos (some tok) with
      | .shift _ next _ => some next
      | .reduce _ next _ => nextPosFuel fuel next tok
      | .error | .accept => none

def nextPos (pos : Pos) (tok : Token) : Option Pos :=
  nextPosFuel maxTurns pos tok

/-- The tokens lead from the position to the end of a section. -/
def Reads : Pos → List Token → Prop
  | pos, [] => pos = .input
  | pos, tok :: toks => ∃ next, nextPos pos tok = some next ∧ Reads next toks

theorem nextPosFuel_of_advanceFuel {tok : Token} (n : Nat) : ∀ {pos : Pos}
    {s : ParserState} {c : Pos × ParserState},
      advanceFuel n pos s tok = some c → nextPosFuel n pos tok = some c.1 := by
  induction n with
  | zero => exact fun h => by cases h
  | succ n ih =>
      intro pos s c h
      unfold advanceFuel at h
      unfold nextPosFuel
      cases hm : move pos (some tok) <;> simp only [hm] at h ⊢
      case shift as next recover =>
        obtain ⟨s', _, rfl⟩ := Option.map_eq_some_iff.mp h
        rfl
      case reduce as next recover =>
        obtain ⟨s', _, h⟩ := Option.bind_eq_some_iff.mp h
        exact ih h
      all_goals cases h

theorem reads_of_advances {toks : List Token} : ∀ {c : Pos × ParserState}
    {s : ParserState}, advances c toks = some (.input, s) → Reads c.1 toks := by
  induction toks with
  | nil =>
      intro c s h
      cases h
      rfl
  | cons tok toks ih =>
      intro c s h
      obtain ⟨c', hadv, h⟩ := Option.bind_eq_some_iff.mp h
      exact ⟨c'.1, nextPosFuel_of_advanceFuel maxTurns hadv, ih h⟩

/-! ## One token -/

/-- A position that goes on with a single token. -/
theorem reads_token {pos : Pos} {toks : List Token} (next : Pos) (tok : Token)
    (hpos : pos ≠ .input)
    (hnext : ∀ tok' next', nextPos pos tok' = some next' →
      tok' = tok ∧ next' = next) (h : Reads pos toks) :
    ∃ rest, toks = tok :: rest ∧ Reads next rest := by
  cases toks with
  | nil => exact absurd h hpos
  | cons tok' rest =>
      obtain ⟨next', hstep, h⟩ := h
      obtain ⟨rfl, rfl⟩ := hnext tok' next' hstep
      exact ⟨rest, rfl, h⟩

theorem reads_cr {pos : Pos} {toks : List Token} (next : Pos)
    (hmove : (pos, next) ∈ [(.globStart, .globaldefines),
      (.valuedefCr, .globaldefines), (.paramvaluesCr, .defEnd .param),
      (.fixCr, .testsettings), (.testsetFixCr, .testsetsettings)])
    (h : Reads pos toks) : ∃ rest, toks = .cr :: rest ∧ Reads next rest := by
  simp only [List.mem_cons, Prod.mk.injEq, List.not_mem_nil, or_false] at hmove
  rcases hmove with ⟨rfl, rfl⟩ | ⟨rfl, rfl⟩ | ⟨rfl, rfl⟩ | ⟨rfl, rfl⟩ | ⟨rfl, rfl⟩ <;>
    refine reads_token _ _ (by simp) ?_ h <;> intro tok' next' hstep <;>
    cases tok' <;> cases hstep <;> exact ⟨rfl, rfl⟩

theorem reads_defEnd {kind : DefKind} {toks : List Token}
    (h : Reads (.defEnd kind) toks) :
    ∃ rest, toks = .defEnd kind :: rest ∧ Reads .input rest := by
  refine reads_token _ _ (by simp) ?_ h
  intro tok' next' hstep
  cases tok' <;> cases kind <;> try cases hstep
  all_goals
    rename_i kind'
    cases kind' <;> cases hstep
    exact ⟨rfl, rfl⟩

/-- The token that names a definition. -/
def DefKind.keyToken : DefKind → String → Token
  | .param, key | .pgroup, key => .ident key
  | .test, key | .testset, key => .string key

/-- The header of a definition. -/
theorem reads_header {kind : DefKind} {toks : List Token}
    (h : Reads (.defStart kind) toks) :
    ∃ key rest, .defStart kind :: toks =
        headerTokens kind (kind.keyToken key) ++ rest ∧
      Reads (kind.begin key).2 rest := by
  obtain ⟨rest₁, rfl, h₁⟩ := reads_token (.header kind) .cr
    (by simp) (by intro tok' next' hs; cases tok' <;> cases hs; exact ⟨rfl, rfl⟩) h
  obtain ⟨rest₂, rfl, h₂⟩ := reads_token (.name kind) .name
    (by simp) (by intro tok' next' hs; cases tok' <;> cases hs; exact ⟨rfl, rfl⟩) h₁
  have hname : ∃ key rest₃, rest₂ = kind.keyToken key :: rest₃ ∧
      Reads (.nameCr kind key) rest₃ := by
    cases rest₂ with
    | nil => cases h₂
    | cons tok rest₃ =>
        obtain ⟨next, hs, h₃⟩ := h₂
        cases kind <;> cases tok <;> cases hs <;> exact ⟨_, rest₃, rfl, h₃⟩
  obtain ⟨key, rest₃, rfl, h₃⟩ := hname
  obtain ⟨rest₄, rfl, h₄⟩ := reads_token ((kind.begin key).2) .cr
    (by simp) (by intro tok' next' hs; cases tok' <;> cases hs; exact ⟨rfl, rfl⟩) h₃
  exact ⟨key, rest₄, rfl, h₄⟩

/-- The positions that take a value. -/
theorem reads_value {pos : Pos} {toks : List Token} (next : Pos)
    (hmove : (pos, next) ∈ [(.valuedefValue, .valuedefCr),
      (.constFirst, .constValues), (.fixValue, .fixCr),
      (.testsetFixValue, .testsetFixCr)])
    (h : Reads pos toks) :
    ∃ (v : Value) (rest : List Token), toks = v.token :: rest ∧ Reads next rest := by
  have hvalue : pos ≠ .input ∧ ∀ tok next', nextPos pos tok = some next' →
      next' = next ∧ ∃ v : Value, tok = v.token := by
    simp only [List.mem_cons, Prod.mk.injEq, List.not_mem_nil, or_false] at hmove
    rcases hmove with ⟨rfl, rfl⟩ | ⟨rfl, rfl⟩ | ⟨rfl, rfl⟩ | ⟨rfl, rfl⟩ <;>
      refine ⟨by simp, ?_⟩ <;> intro tok next' hs <;> cases tok <;> cases hs
    all_goals
      refine ⟨rfl, ?_⟩
      first
      | exact ⟨.int _, rfl⟩
      | exact ⟨.long _, rfl⟩
      | exact ⟨.bool _, rfl⟩
      | exact ⟨.float _, rfl⟩
      | exact ⟨.double _, rfl⟩
      | exact ⟨.string _, rfl⟩
      | exact ⟨.global _, rfl⟩
  cases toks with
  | nil => exact absurd h hvalue.1
  | cons tok rest =>
      obtain ⟨next', hs, h⟩ := h
      obtain ⟨rfl, v, rfl⟩ := hvalue.2 tok next' hs
      exact ⟨v, rest, rfl, h⟩

/-! ## Lists of tokens -/

/-- The values after the first one, and the end of their line. -/
theorem reads_constValues {toks : List Token} (h : Reads .constValues toks) :
    ∃ (vals : List Value) (rest : List Token),
      toks = vals.map Value.token ++ .cr :: rest ∧ Reads (.defEnd .param) rest := by
  induction toks with
  | nil => cases h
  | cons tok toks ih =>
      obtain ⟨next, hs, h⟩ := h
      have hcases : (tok = .cr ∧ next = .defEnd .param) ∨
          (next = .constValues ∧ ∃ v : Value, tok = v.token) := by
        cases tok <;> cases hs
        case cr => exact .inl ⟨rfl, rfl⟩
        case int v => exact .inr ⟨rfl, .int v, rfl⟩
        case long v => exact .inr ⟨rfl, .long v, rfl⟩
        case bool v => exact .inr ⟨rfl, .bool v, rfl⟩
        case float v => exact .inr ⟨rfl, .float v, rfl⟩
        case double v => exact .inr ⟨rfl, .double v, rfl⟩
        case string v => exact .inr ⟨rfl, .string v, rfl⟩
        case ident name => exact .inr ⟨rfl, .global name, rfl⟩
      rcases hcases with ⟨rfl, rfl⟩ | ⟨rfl, v, rfl⟩
      · exact ⟨[], toks, rfl, h⟩
      · obtain ⟨vals, rest, rfl, hrest⟩ := ih h
        exact ⟨v :: vals, rest, rfl, hrest⟩

/-- A list of identifiers, and the end of its line. -/
theorem reads_idents {pos : Pos} {toks : List Token} (next : Pos)
    (hmove : (pos, next) ∈ [(.generateArgs, .defEnd .param),
      (.pgroupIdlist, .pgroupcontents), (.paramsIdlist, .testsettings)])
    (h : Reads pos toks) :
    ∃ names rest, toks = idlistTokens names ++ rest ∧ Reads next rest := by
  have hstep : pos ≠ .input ∧ ∀ tok next', nextPos pos tok = some next' →
      (tok = .cr ∧ next' = next) ∨ (next' = pos ∧ ∃ name, tok = .ident name) := by
    simp only [List.mem_cons, Prod.mk.injEq, List.not_mem_nil, or_false] at hmove
    rcases hmove with ⟨rfl, rfl⟩ | ⟨rfl, rfl⟩ | ⟨rfl, rfl⟩ <;>
      refine ⟨by simp, ?_⟩ <;> intro tok next' hs <;> cases tok <;> cases hs <;>
      first
      | exact .inl ⟨rfl, rfl⟩
      | exact .inr ⟨rfl, _, rfl⟩
  induction toks with
  | nil => exact absurd h hstep.1
  | cons tok toks ih =>
      obtain ⟨next', hs, h⟩ := h
      rcases hstep.2 tok next' hs with ⟨rfl, rfl⟩ | ⟨rfl, name, rfl⟩
      · exact ⟨[], toks, rfl, h⟩
      · obtain ⟨names, rest, rfl, hrest⟩ := ih h
        exact ⟨name :: names, rest, rfl, hrest⟩

/-- The names of a testset, and the end of their line. -/
theorem reads_testlist {toks : List Token} (h : Reads .testlist toks) :
    ∃ (names : List String) (rest : List Token),
      toks = names.map .string ++ .cr :: rest ∧
        Reads (.defEnd .testset) rest := by
  induction toks with
  | nil => cases h
  | cons tok toks ih =>
      obtain ⟨next, hs, h⟩ := h
      have hcases : (tok = .cr ∧ next = .defEnd .testset) ∨
          (next = .testlist ∧ ∃ name, tok = .string name) := by
        cases tok <;> cases hs
        case cr => exact .inl ⟨rfl, rfl⟩
        case string name => exact .inr ⟨rfl, name, rfl⟩
      rcases hcases with ⟨rfl, rfl⟩ | ⟨rfl, name, rfl⟩
      · exact ⟨[], toks, rfl, h⟩
      · obtain ⟨names, rest, rfl, hrest⟩ := ih h
        exact ⟨name :: names, rest, rfl, hrest⟩

/-- The bounds of a range. -/
theorem reads_range {toks : List Token} (h : Reads .rangeType toks) :
    ∃ (type : NumericTypespec) (low high : NumericValue) (rest : List Token),
      toks = type.token :: low.token :: high.token :: rest ∧
        Reads .paramvaluesCr rest := by
  have hbound : ∀ {pos : Pos} {toks : List Token} (next : Pos),
      (pos, next) ∈ [(.rangeLow, .rangeHigh), (.rangeHigh, .paramvaluesCr)] →
      Reads pos toks → ∃ (v : NumericValue) (rest : List Token),
        toks = v.token :: rest ∧ Reads next rest := by
    intro pos toks next hmove h
    simp only [List.mem_cons, Prod.mk.injEq, List.not_mem_nil, or_false] at hmove
    cases toks with
    | nil => rcases hmove with ⟨rfl, rfl⟩ | ⟨rfl, rfl⟩ <;> cases h
    | cons tok rest =>
        obtain ⟨next', hs, h⟩ := h
        rcases hmove with ⟨rfl, rfl⟩ | ⟨rfl, rfl⟩ <;> cases tok <;> cases hs <;>
          first
          | exact ⟨.int _, rest, rfl, h⟩
          | exact ⟨.long _, rest, rfl, h⟩
          | exact ⟨.float _, rest, rfl, h⟩
          | exact ⟨.double _, rest, rfl, h⟩
          | exact ⟨.global _, rest, rfl, h⟩
  cases toks with
  | nil => cases h
  | cons tok rest =>
      obtain ⟨next, hs, h⟩ := h
      have htype : next = .rangeLow ∧ ∃ type : NumericTypespec, tok = type.token := by
        cases tok <;> cases hs
        case intspec => exact ⟨rfl, .int, rfl⟩
        case longspec => exact ⟨rfl, .long, rfl⟩
        case floatspec => exact ⟨rfl, .float, rfl⟩
        case doublespec => exact ⟨rfl, .double, rfl⟩
      obtain ⟨rfl, type, rfl⟩ := htype
      obtain ⟨low, rest₁, rfl, h₁⟩ := hbound .rangeHigh (by simp) h
      obtain ⟨high, rest₂, rfl, h₂⟩ := hbound .paramvaluesCr (by simp) h₁
      exact ⟨type, low, high, rest₂, rfl, h₂⟩

/-! ## Sections -/

/-- The second line of a parameter and its end marker. -/
theorem reads_paramvalues {toks : List Token} (h : Reads .paramvalues toks) :
    ∃ (values : ParamValues) (rest : List Token),
      toks = values.tokens ++ [.cr, .defEnd .param] ++ rest ∧
        Reads .input rest := by
  cases toks with
  | nil => cases h
  | cons tok toks =>
      obtain ⟨next, hs, h⟩ := h
      cases tok <;> cases hs
      case const.refl =>
        obtain ⟨first, rest₁, rfl, h₁⟩ :=
          reads_value .constValues (by simp) h
        obtain ⟨vals, rest₂, rfl, h₂⟩ := reads_constValues h₁
        obtain ⟨rest, rfl, h₃⟩ := reads_defEnd h₂
        exact ⟨.const first vals, rest, by simp [ParamValues.tokens], h₃⟩
      case range.refl =>
        obtain ⟨type, low, high, rest₁, rfl, h₁⟩ := reads_range h
        obtain ⟨rest₂, rfl, h₂⟩ := reads_cr (.defEnd .param) (by simp) h₁
        obtain ⟨rest, rfl, h₃⟩ := reads_defEnd h₂
        exact ⟨.range type low high, rest, rfl, h₃⟩
      case generate.refl =>
        cases toks with
        | nil => cases h
        | cons tok toks =>
            obtain ⟨next, hs, h⟩ := h
            cases tok <;> cases hs
            case ident.refl fn =>
              obtain ⟨args, rest₁, rfl, h₁⟩ :=
                reads_idents (.defEnd .param) (by simp) h
              obtain ⟨rest, rfl, h₂⟩ := reads_defEnd h₁
              exact ⟨.generate fn args, rest,
                by simp [ParamValues.tokens, idlistTokens], h₂⟩

/-- The lines of a `[globals]` section and its end marker. -/
theorem reads_globaldefines (n : Nat) : ∀ {toks : List Token},
    toks.length = n → Reads .globaldefines toks →
      ∃ (lines : List GlobalLine) (rest : List Token),
        toks = lines.flatMap GlobalLine.tokens ++ .globEnd :: rest ∧
          Reads .input rest := by
  induction n using Nat.strongRecOn with
  | ind n ih =>
      intro toks hn h
      cases toks with
      | nil => cases h
      | cons tok toks =>
          obtain ⟨next, hs, h⟩ := h
          rw [List.length_cons] at hn
          cases tok <;> cases hs
          case globEnd.refl => exact ⟨[], toks, rfl, h⟩
          case ident.refl key =>
            obtain ⟨val, rest₁, rfl, h₁⟩ :=
              reads_value .valuedefCr (by simp) h
            obtain ⟨rest₂, rfl, h₂⟩ :=
              reads_cr .globaldefines (by simp) h₁
            simp only [List.length_cons] at hn
            obtain ⟨lines, rest, rfl, hrest⟩ := ih rest₂.length (by omega) rfl h₂
            exact ⟨.valuedef key val :: lines, rest, rfl, hrest⟩
          case cr.refl =>
            obtain ⟨lines, rest, rfl, hrest⟩ := ih toks.length (by omega) rfl h
            exact ⟨.blank :: lines, rest, rfl, hrest⟩

/-- The lines of a `[pgroup]` section and its end marker. -/
theorem reads_pgroupcontents (n : Nat) : ∀ {toks : List Token},
    toks.length = n → Reads .pgroupcontents toks →
      ∃ (lines : List (List String)) (rest : List Token), toks =
        lines.flatMap idlistTokens ++ .defEnd .pgroup :: rest ∧
          Reads .input rest := by
  induction n using Nat.strongRecOn with
  | ind n ih =>
      intro toks hn h
      cases toks with
      | nil => cases h
      | cons tok toks =>
          have hidlist : (tok = .defEnd .pgroup ∧ Reads .input toks) ∨
              Reads .pgroupIdlist (tok :: toks) := by
            obtain ⟨next, hs, h⟩ := h
            cases tok <;> try cases hs
            case defEnd kind =>
              cases kind <;> cases hs
              exact .inl ⟨rfl, h⟩
            case ident.refl name => exact .inr ⟨.pgroupIdlist, rfl, h⟩
            case cr.refl => exact .inr ⟨.pgroupcontents, rfl, h⟩
          rcases hidlist with ⟨rfl, h₀⟩ | h₀
          · exact ⟨[], toks, rfl, h₀⟩
          · obtain ⟨names, rest₁, heq, h₁⟩ :=
              reads_idents .pgroupcontents (by simp) h₀
            have hlen := congrArg List.length heq
            simp only [idlistTokens, List.length_append, List.length_cons,
              List.length_nil] at hlen
            rw [List.length_cons] at hn
            obtain ⟨lines, rest, rfl, hrest⟩ := ih rest₁.length (by omega) rfl h₁
            exact ⟨names :: lines, rest, by simp [heq], hrest⟩

/-- The lines of a `[test]` section and its end marker. -/
theorem reads_testsettings (n : Nat) : ∀ {toks : List Token},
    toks.length = n → Reads .testsettings toks →
      ∃ (lines : List SettingLine) (rest : List Token), toks =
        lines.flatMap SettingLine.tokens ++ .defEnd .test :: rest ∧
          Reads .input rest := by
  induction n using Nat.strongRecOn with
  | ind n ih =>
      intro toks hn h
      cases toks with
      | nil => cases h
      | cons tok toks =>
          obtain ⟨next, hs, h⟩ := h
          rw [List.length_cons] at hn
          cases tok <;> try cases hs
          case defEnd kind =>
            cases kind <;> cases hs
            exact ⟨[], toks, rfl, h⟩
          case params.refl =>
            obtain ⟨names, rest₁, rfl, h₁⟩ :=
              reads_idents .testsettings (by simp) h
            rw [List.length_append] at hn
            obtain ⟨lines, rest, rfl, hrest⟩ := ih rest₁.length (by omega) rfl h₁
            exact ⟨.params names :: lines, rest, by simp [SettingLine.tokens], hrest⟩
          case pgroup.refl =>
            cases toks with
            | nil => cases h
            | cons tok toks =>
                obtain ⟨next, hs, h⟩ := h
                cases tok <;> cases hs
                case ident.refl name =>
                  obtain ⟨rest₁, rfl, h₁⟩ := reads_token .testsettings
                    .cr (by simp) (by
                      intro tok' next' hs
                      cases tok' <;> cases hs
                      exact ⟨rfl, rfl⟩) h
                  simp only [List.length_cons] at hn
                  obtain ⟨lines, rest, rfl, hrest⟩ :=
                    ih rest₁.length (by omega) rfl h₁
                  exact ⟨.pgroup name :: lines, rest, rfl, hrest⟩
          case fix.refl =>
            cases toks with
            | nil => cases h
            | cons tok toks =>
                obtain ⟨next, hs, h⟩ := h
                cases tok <;> cases hs
                case ident.refl name =>
                  obtain ⟨val, rest₁, rfl, h₁⟩ :=
                    reads_value .fixCr (by simp) h
                  obtain ⟨rest₂, rfl, h₂⟩ :=
                    reads_cr .testsettings (by simp) h₁
                  simp only [List.length_cons] at hn
                  obtain ⟨lines, rest, rfl, hrest⟩ :=
                    ih rest₂.length (by omega) rfl h₂
                  exact ⟨.fix name val :: lines, rest, rfl, hrest⟩

/-- The contents of a `[test]` section, which may start with a blank line. -/
theorem reads_testBody {toks : List Token} (h : Reads .testBody toks) :
    ∃ (gap : Bool) (lines : List SettingLine) (rest : List Token), toks =
      (if gap then [.cr] else []) ++
        (lines.flatMap SettingLine.tokens ++ .defEnd .test :: rest) ∧
        Reads .input rest := by
  cases toks with
  | nil => cases h
  | cons tok toks =>
      have hsettings : (tok = .cr ∧ Reads .testsettings toks) ∨
          Reads .testsettings (tok :: toks) := by
        obtain ⟨next, hs, h⟩ := h
        cases tok <;> try cases hs
        case defEnd kind =>
          cases kind <;> cases hs
          exact .inr ⟨.input, rfl, h⟩
        case params.refl => exact .inr ⟨.paramsIdlist, rfl, h⟩
        case pgroup.refl => exact .inr ⟨.pgroupName, rfl, h⟩
        case fix.refl => exact .inr ⟨.fixName, rfl, h⟩
        case cr.refl => exact .inl ⟨rfl, h⟩
      rcases hsettings with ⟨rfl, h₁⟩ | h₁
      · obtain ⟨lines, rest, rfl, hrest⟩ := reads_testsettings _ rfl h₁
        exact ⟨true, lines, rest, rfl, hrest⟩
      · obtain ⟨lines, rest, heq, hrest⟩ := reads_testsettings _ rfl h₁
        exact ⟨false, lines, rest, heq, hrest⟩

/-- The contents of a `[testset]` section. -/
theorem reads_testsetsettings (n : Nat) : ∀ {toks : List Token},
    toks.length = n → Reads .testsetsettings toks →
      ∃ (fixes : List (String × Value)) (type : TestsetExec)
        (names : List String) (rest : List Token), toks =
          fixes.flatMap (fun f => fixTokens f.1 f.2) ++
            (.exec type :: (names.map .string ++
              .cr :: .defEnd .testset :: rest)) ∧
          Reads .input rest := by
  induction n using Nat.strongRecOn with
  | ind n ih =>
      intro toks hn h
      cases toks with
      | nil => cases h
      | cons tok toks =>
          obtain ⟨next, hs, h⟩ := h
          rw [List.length_cons] at hn
          cases tok <;> cases hs
          case fix.refl =>
            cases toks with
            | nil => cases h
            | cons tok toks =>
                obtain ⟨next, hs, h⟩ := h
                cases tok <;> cases hs
                case ident.refl name =>
                  obtain ⟨val, rest₁, rfl, h₁⟩ :=
                    reads_value .testsetFixCr (by simp) h
                  obtain ⟨rest₂, rfl, h₂⟩ :=
                    reads_cr .testsetsettings (by simp) h₁
                  simp only [List.length_cons] at hn
                  obtain ⟨fixes, type, names, rest, rfl, hrest⟩ :=
                    ih rest₂.length (by omega) rfl h₂
                  exact ⟨(name, val) :: fixes, type, names, rest, rfl, hrest⟩
          case exec.refl type =>
            obtain ⟨names, rest₁, rfl, h₁⟩ := reads_testlist h
            obtain ⟨rest, rfl, h₂⟩ := reads_defEnd h₁
            exact ⟨[], type, names, rest, rfl, h₂⟩

/-- **The shape of a configuration.**  Tokens that lead from `input` to `input`
are written items. -/
theorem reads_input (n : Nat) : ∀ {toks : List Token}, toks.length = n →
    Reads .input toks → ∃ items : List Item, toks = items.flatMap Item.tokens := by
  induction n using Nat.strongRecOn with
  | ind n ih =>
      intro toks hn h
      have hitem : toks = [] ∨ ∃ (item : Item) (rest : List Token),
          toks = item.tokens ++ rest ∧ item.tokens ≠ [] ∧ Reads .input rest := by
        cases toks with
        | nil => exact .inl rfl
        | cons tok toks =>
            obtain ⟨next, hs, h⟩ := h
            cases tok <;> cases hs
            case cr.refl => exact .inr ⟨.blank, toks, rfl, by simp [Item.tokens], h⟩
            case globStart.refl =>
              obtain ⟨rest₁, rfl, h₁⟩ :=
                reads_cr .globaldefines (by simp) h
              obtain ⟨lines, rest, rfl, h₂⟩ := reads_globaldefines _ rfl h₁
              exact .inr ⟨.globals lines, rest, by simp [Item.tokens],
                by simp [Item.tokens], h₂⟩
            case defStart.refl kind =>
              obtain ⟨key, rest₁, heq, h₁⟩ := reads_header h
              rw [heq]
              cases kind with
              | param =>
                  obtain ⟨values, rest, rfl, h₂⟩ := reads_paramvalues h₁
                  exact .inr ⟨.param key values, rest,
                    by simp [Item.tokens, DefKind.keyToken],
                    by simp [Item.tokens, headerTokens], h₂⟩
              | pgroup =>
                  have h₂ : Reads .pgroupcontents rest₁ := by
                    cases rest₁ with
                    | nil => cases h₁
                    | cons tok rest₁ =>
                        obtain ⟨next, hs, h⟩ := h₁
                        refine ⟨next, ?_, h⟩
                        cases tok <;> try cases hs
                        case defEnd kind =>
                          cases kind <;> cases hs
                          rfl
                        all_goals rfl
                  obtain ⟨lines, rest, rfl, h₃⟩ := reads_pgroupcontents _ rfl h₂
                  exact .inr ⟨.pgroup key lines, rest,
                    by simp [Item.tokens, DefKind.keyToken],
                    by simp [Item.tokens, headerTokens], h₃⟩
              | test =>
                  obtain ⟨gap, lines, rest, rfl, h₂⟩ := reads_testBody h₁
                  exact .inr ⟨.test key gap lines, rest,
                    by simp [Item.tokens, DefKind.keyToken],
                    by simp [Item.tokens, headerTokens], h₂⟩
              | testset =>
                  obtain ⟨fixes, type, names, rest, rfl, h₂⟩ :=
                    reads_testsetsettings _ rfl h₁
                  exact .inr ⟨.testset key fixes type names, rest,
                    by simp [Item.tokens, DefKind.keyToken],
                    by simp [Item.tokens, headerTokens], h₂⟩
      rcases hitem with rfl | ⟨item, rest, rfl, hne, hrest⟩
      · exact ⟨[], rfl⟩
      · have hpos := List.length_pos_iff.mpr hne
        rw [List.length_append] at hn
        obtain ⟨items, rfl⟩ := ih rest.length (by omega) rfl hrest
        exact ⟨item :: items, rfl⟩

/--
**The grammar is exact.**  Started on any table, the parser loads a list of
tokens with result zero if and only if the scanner has not failed and the tokens
are a written list of items that can be declared one after the other; and the
table it leaves is the one they declare.
-/
theorem loads_iff_declares {t t' : SymbolTable} (ht : GlobalsValued t)
    (toks : List Token) (lexError : Bool) :
    bltsConfParserStart t toks lexError = .ok (0, t') ↔
      lexError = false ∧ ∃ items : List Item,
        toks = items.flatMap Item.tokens ∧
          (declareAll { table := t, stale := [] } items).map Env.table =
            some t' := by
  rw [loads_iff ht]
  refine and_congr_right fun _ => ?_
  have hitems (items : List Item) :
      (advances (initialContext t) (items.flatMap Item.tokens)).map observe =
        (declareAll { table := t, stale := [] } items).map (Prod.mk .input) :=
    observe_items items (Parser.initial t).state
  constructor
  · rintro ⟨s, hadv, rfl⟩
    obtain ⟨items, rfl⟩ := reads_input _ rfl (reads_of_advances hadv)
    have h := hitems items
    rw [hadv] at h
    refine ⟨items, rfl, ?_⟩
    cases hdec : declareAll { table := t, stale := [] } items with
    | none =>
        rw [hdec] at h
        cases h
    | some env =>
        rw [hdec] at h
        cases h
        rfl
  · rintro ⟨items, rfl, htable⟩
    obtain ⟨env, hdec, rfl⟩ := Option.map_eq_some_iff.mp htable
    have h := hitems items
    rw [hdec] at h
    obtain ⟨⟨pos, s⟩, hadv, hobs⟩ := Option.map_eq_some_iff.mp h
    cases hobs
    exact ⟨s, hadv, rfl⟩

/-- A blank line declares nothing. -/
theorem loads_blank : bltsConfParserStart freshTable [.cr] false = .ok (0, freshTable) :=
  (loads_iff_declares globalsValued_freshTable [.cr] false).mpr ⟨rfl, [.blank], rfl, rfl⟩

end Blts.Config
