import Blts.Config.GrammarRuns
import Blts.Config.LostContext

/-!
# Globals in place of literals

A value can be written as a literal or as the name of a global.  Both reach the
same value action, so that the two ways of writing leave the parser in the same
context.  Only the bounds of a range make a difference: the name of a global
goes through `globalnumericvalue` there, which looks at the type code that the
value has been stored with.
-/

namespace Blts.Config

open Blts.Params

/-- The positions where a bound of a range is written. -/
def Pos.takesBound : Pos → Bool
  | .rangeLow | .rangeHigh => true
  | _ => false

/-- The positions where a value is written. -/
def Pos.takesValue : Pos → Bool
  | .valuedefValue | .constFirst | .constValues | .fixValue | .testsetFixValue =>
      true
  | pos => pos.takesBound

/-- The tokens that write a value down. -/
def Token.isLiteral : Token → Bool
  | .int _ | .long _ | .bool _ | .float _ | .double _ | .string _ => true
  | _ => false

/-! ## Values -/

theorem valueActions_of_isLiteral {tok : Token} (h : tok.isLiteral = true) :
    ∃ as, valueActions tok = some as := by
  cases tok <;> first | exact ⟨_, rfl⟩ | cases h

/-- Outside of ranges a value is shifted, whatever it is. -/
theorem move_value {pos : Pos} (hpos : pos.takesValue = true)
    (hbound : pos.takesBound = false) :
    ∃ next recover, ∀ tok as, valueActions tok = some as →
      move pos (some tok) = .shift as next recover := by
  have hshift : ∀ {next recover tok as}, valueActions tok = some as →
      shiftValue ((some tok).bind valueActions) next recover =
        .shift as next recover := by
    intro next recover tok as h
    rw [Option.bind_some, h]
    rfl
  cases pos <;> cases hpos <;> try cases hbound
  case valuedefValue => exact ⟨.valuedefCr, .inputError, fun _ _ => hshift⟩
  case constFirst => exact ⟨.constValues, .inputError, fun _ _ => hshift⟩
  case constValues =>
    refine ⟨.constValues, .inputError, fun tok as h => ?_⟩
    simp only [move, Option.bind_some, h]
  case fixValue => exact ⟨.fixCr, .testError, fun _ _ => hshift⟩
  case testsetFixValue => exact ⟨.testsetFixCr, .inputError, fun _ _ => hshift⟩

/-- Outside of ranges two values that are the same are read the same. -/
theorem advance_value_congr {pos : Pos} {s : ParserState} {tok tok' : Token}
    (hpos : pos.takesValue = true) (hbound : pos.takesBound = false)
    (htok : ∃ as, valueActions tok = some as)
    (htok' : ∃ as, valueActions tok' = some as)
    (hval : valueOf s.table tok = valueOf s.table tok') :
    advance (pos, s) tok = advance (pos, s) tok' := by
  obtain ⟨as, has⟩ := htok
  obtain ⟨as', has'⟩ := htok'
  obtain ⟨next, recover, hmove⟩ := move_value hpos hbound
  rw [advance_shift (hmove tok as has), advance_shift (hmove tok' as' has'),
    done_valueActions has, done_valueActions has', hval]

/-! ## Bounds -/

/-- A bound is shifted, if the token can be one. -/
theorem move_bound {pos : Pos} (hbound : pos.takesBound = true) :
    ∃ next recover tail, ∀ tok, move pos (some tok) =
      shiftValue ((numericvalueActions tok).map (· ++ tail)) next recover := by
  cases pos <;> cases hbound
  case rangeLow =>
    refine ⟨.rangeHigh, .inputError, [], fun tok => ?_⟩
    simp only [move, Option.bind_some, List.append_nil, Option.map_id']
  case rangeHigh => exact ⟨.paramvaluesCr, .inputError, [.rangeEnd], fun tok => rfl⟩

/-- What is left of a bound: the value, at the head of the value list. -/
theorem done_bound {tok : Token} {as : List Action} {s : ParserState}
    {key : String} {pd : ParamDef} {val : BoxedValue}
    (htok : numericvalueActions tok = some as)
    (hsym : s.currentSym = some ⟨key, .param pd⟩) (hg : GlobalsValued s.table)
    (hval : valueOf s.table tok = some val) (tail : List Action) :
    (Action.runAll (as ++ tail) s).done? =
      if numericOk tok val then
        (Action.runAll tail { s with valueList := val :: s.valueList }).done?
      else none := by
  rw [runAll_append, runAll_numericvalueActions htok hsym hg, hval]
  by_cases hok : numericOk tok val = true
  · simp only [hok, if_true, andThen_done]
  · simp only [hok]
    rfl

/-- The context of a bound. -/
theorem currentSym_of_takesBound {pos : Pos} {s : ParserState}
    (hbound : pos.takesBound = true) (hctx : Ctx pos s) :
    ∃ key pd, s.currentSym = some ⟨key, .param pd⟩ := by
  cases pos <;> cases hbound <;> obtain ⟨key, type, low, high, hsym⟩ := hctx <;>
    exact ⟨key, _, hsym⟩

/-- A literal that can be no bound is neither of the two types that are looked
for, and the other way round. -/
theorem numericvalueActions_of_type {t : SymbolTable} {lit : Token}
    {val : BoxedValue} (hlit : lit.isLiteral = true)
    (hval : valueOf t lit = some val)
    (htype : val.type = .double ∨ val.type = .long) :
    ∃ as, numericvalueActions lit = some as := by
  cases lit <;> first
    | exact ⟨_, rfl⟩
    | cases hlit
      done
    | cases hval
      rcases htype with h | h <;> cases h

theorem numericOk_of_isLiteral {lit : Token} (hlit : lit.isLiteral = true)
    (val : BoxedValue) : numericOk lit val = true := by
  cases lit <;> first | rfl | cases hlit

/-- The bounds of a range: the literal is read like the name, if the name is
read at all. -/
theorem advance_bound {pos : Pos} {s : ParserState} {name : String} {lit : Token}
    {val : BoxedValue} (hbound : pos.takesBound = true) (hctx : Ctx pos s)
    (hg : GlobalsValued s.table) (hlit : lit.isLiteral = true)
    (hglobal : valueOf s.table (.ident name) = some val)
    (hval : valueOf s.table lit = some val) :
    advance (pos, s) (.ident name) =
      if val.type = .double ∨ val.type = .long then advance (pos, s) lit
      else none := by
  obtain ⟨key, pd, hsym⟩ := currentSym_of_takesBound hbound hctx
  obtain ⟨next, recover, tail, hmove⟩ := move_bound hbound
  have hname : advance (pos, s) (.ident name) =
      (Action.runAll ([.globalvalue name, .globalnumericvalue] ++ tail)
        s).done?.map fun s' => (next, s') :=
    advance_shift (hmove (.ident name))
  rw [hname, done_bound rfl hsym hg hglobal]
  by_cases htype : val.type = .double ∨ val.type = .long
  · obtain ⟨as, has⟩ := numericvalueActions_of_type hlit hval htype
    have hmove' : move pos (some lit) = .shift (as ++ tail) next recover := by
      rw [hmove, has]
      rfl
    have hok : numericOk (.ident name) val = true := by
      rcases htype with h | h <;> simp [numericOk, h]
    rw [if_pos hok, if_pos htype, advance_shift hmove',
      done_bound has hsym hg hval, if_pos (numericOk_of_isLiteral hlit val)]
  · have hok : ¬ numericOk (.ident name) val = true := by
      simpa [numericOk] using htype
    rw [if_neg hok, if_neg htype]
    rfl

/-! ## Configurations -/

/--
**Substitution of globals.**  At every place of a configuration where a value is
written, let a global and a literal have the same value.  Where the name of the
global loads, the literal loads with the same table.  Where the literal loads,
the name of the global loads with the same table if and only if the place is no
bound of a range, or the value is stored as a double or as a long.
-/
theorem substitute_global {t : SymbolTable} (ht : GlobalsValued t)
    {pre : List Token} {pos : Pos} {s : ParserState}
    (hpre : advances (initialContext t) pre = some (pos, s))
    (hpos : pos.takesValue = true) {name : String} {lit : Token}
    {val : BoxedValue} (hglobal : valueOf s.table (.ident name) = some val)
    (hlit : lit.isLiteral = true) (hval : valueOf s.table lit = some val)
    (post : List Token) (lexError : Bool) (t' : SymbolTable) :
    (bltsConfParserStart t (pre ++ .ident name :: post) lexError = .ok (0, t') →
      bltsConfParserStart t (pre ++ lit :: post) lexError = .ok (0, t')) ∧
    (bltsConfParserStart t (pre ++ lit :: post) lexError = .ok (0, t') →
      (bltsConfParserStart t (pre ++ .ident name :: post) lexError = .ok (0, t') ↔
        pos.takesBound = false ∨ val.type = .double ∨ val.type = .long)) := by
  have hload (tok : Token) :
      bltsConfParserStart t (pre ++ tok :: post) lexError = .ok (0, t') ↔
        lexError = false ∧ ∃ s', (advance (pos, s) tok).bind (fun c =>
          advances c post) = some (.input, s') ∧ s'.table = t' := by
    rw [loads_iff ht, advances_append, hpre]
    rfl
  obtain ⟨hctx, hg⟩ := advances_keeps ht hpre
  rw [hload, hload]
  by_cases hbound : pos.takesBound = true
  · have hname := advance_bound hbound hctx hg hlit hglobal hval
    by_cases htype : val.type = .double ∨ val.type = .long
    · rw [hname, if_pos htype]
      exact ⟨id, fun h => ⟨fun _ => .inr htype, fun _ => h⟩⟩
    · rw [hname, if_neg htype]
      simp [hbound, htype]
  · have hbound' : pos.takesBound = false := by simpa using hbound
    have hname : advance (pos, s) (.ident name) = advance (pos, s) lit :=
      advance_value_congr hpos hbound' ⟨_, rfl⟩ (valueActions_of_isLiteral hlit)
        (hglobal.trans hval.symm)
    rw [hname]
    exact ⟨id, fun h => ⟨fun _ => .inl hbound', fun _ => h⟩⟩

/-- A global whose value is a number. -/
def doubleGlobal (key : String) (val : Double) : Item :=
  .globals [.valuedef key (.double val)]

/-- 1.5. -/
def oneAndAHalf : Double := ⟨0x3ff8000000000000#64⟩

/-- A parameter with a constant to come, after a global. -/
def beforeConst : List Token :=
  (doubleGlobal "g" oneAndAHalf).tokens ++
    headerTokens .param (.ident "p") ++ [.const]

/-- The context of that constant. -/
def constContext : ParserState where
  table :=
    { cells := some [some ⟨"g", .boxedValue (some (.float oneAndAHalf))⟩]
      top := 1 }
  currentSym := some ⟨"p", .param ⟨.int, .constlist (some [])⟩⟩
  valueList := []
  identList := []
  settingList := []
  parseErrors := 0

/-- A double can be written either way there. -/
theorem substitute_global_const :
    ∃ t',
      bltsConfParserStart freshTable
          (beforeConst ++ .ident "g" :: [.cr, .defEnd .param]) false = .ok (0, t') ∧
        bltsConfParserStart freshTable
          (beforeConst ++ .double oneAndAHalf :: [.cr, .defEnd .param]) false =
            .ok (0, t') := by
  have hpre : advances (initialContext freshTable) beforeConst =
      some (.constFirst, constContext) := by decide +kernel
  have hload : ∃ t', bltsConfParserStart freshTable
      (beforeConst ++ .double oneAndAHalf :: [.cr, .defEnd .param]) false =
        .ok (0, t') := by
    refine ⟨⟨some [some ⟨"g", .boxedValue (some (.float oneAndAHalf))⟩,
      some ⟨"p", .param ⟨.int, .constlist (some [.float oneAndAHalf])⟩⟩], 2⟩, ?_⟩
    decide +kernel
  obtain ⟨t', hload⟩ := hload
  obtain ⟨_, hname⟩ := substitute_global globalsValued_freshTable hpre rfl
    (show valueOf constContext.table (.ident "g") = some (.float oneAndAHalf) by
      decide +kernel)
    rfl (show valueOf _ (.double oneAndAHalf) = _ from rfl) [.cr, .defEnd .param] false t'
  exact ⟨t', (hname hload).mpr (.inl rfl), hload⟩

/-- A parameter with a range from a bound up to 2.5, after a global. -/
def rangeFrom (low : NumericValue) : List Item :=
  [doubleGlobal "g" oneAndAHalf,
    .param "p" (.range .double low (.double ⟨0x4004000000000000#64⟩))]

/-- With the literal 1.5 as its lower bound the range loads; with a global of
that value it does not. -/
theorem substitute_global_bound :
    (bltsConfParserStart freshTable
        ((rangeFrom (.double oneAndAHalf)).flatMap Item.tokens) false).toOption.map
          Prod.fst = some 0 ∧
      (bltsConfParserStart freshTable
        ((rangeFrom (.global "g")).flatMap Item.tokens) false).toOption.map
          Prod.fst = some 1 := by
  decide +kernel

end Blts.Config
