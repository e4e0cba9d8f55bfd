import Blts.Config.GrammarShape
import Blts.Config.LostContext

/-!
# The tests of a testset

The names after `serial`, `parallel` or `threads` are collected in the value
list of the file and looked up when the line ends.  `serial` drops the value
list before it collects; the other two keywords drop the identifier list, which
is empty already.  So the tests of a testset are the names written in it, with
the values that `[globals]` sections have left behind in front of them.
-/

namespace Blts.Config

open Blts.Params

/-- A lookup finds an entry with the key. -/
theorem key_of_lookup {t : SymbolTable} {key : String} {sym : SymRef}
    (h : symbolTableLookup t key = some sym) :
    (t.entry? sym).map SymbolTableEntry.key = some key := by
  obtain ⟨hlt, hcell, _⟩ := List.findIdx?_eq_some_iff_getElem.mp h
  rw [SymbolTable.entry?, List.getElem?_eq_getElem hlt, Option.join_some]
  cases hc : t.block[sym] with
  | none =>
      rw [hc] at hcell
      cases hcell
  | some e =>
      rw [hc] at hcell
      rw [Option.map_some, eq_of_beq hcell]

/-- The keys of the entries that an array of symbols points to. -/
def keysOf (t : SymbolTable) (syms : List SymRef) : List (Option String) :=
  syms.map fun sym => (t.entry? sym).map SymbolTableEntry.key

/-- Names that are all found were strings, and are the keys of what is found. -/
theorem identlistLookup_eq_some {t : SymbolTable} {vals : List BoxedValue} :
    ∀ {syms : List SymRef}, identlistLookupFromBoxedKeys t vals = some syms →
      ∃ keys : List String,
        vals = keys.map .string ∧ keysOf t syms = keys.map some := by
  induction vals with
  | nil =>
      intro syms h
      cases h
      exact ⟨[], rfl, rfl⟩
  | cons val vals ih =>
      intro syms h
      cases val with
      | string key =>
          obtain ⟨sym, hsym, h⟩ := Option.bind_eq_some_iff.mp h
          obtain ⟨rest, hrest, h⟩ := Option.bind_eq_some_iff.mp h
          cases h
          obtain ⟨keys, rfl, hkeys⟩ := ih hrest
          refine ⟨key :: keys, rfl, ?_⟩
          rw [keysOf, List.map_cons, key_of_lookup hsym]
          exact congrArg _ hkeys
      | _ => cases h

/-- The tests that a list of names evaluates to are the names, after the values
that were left over. -/
theorem evalTests_eq_some {t : SymbolTable} {stale : List BoxedValue}
    {names : List String} {tests : List SymRef}
    (h : evalTests t stale names = some tests) :
    ∃ keys : List String, stale = keys.map .string ∧
      keysOf t tests = (keys.reverse ++ names).map some := by
  obtain ⟨h, _⟩ := Option.filter_eq_some_iff.mp h
  obtain ⟨syms, hsyms, rfl⟩ := Option.map_eq_some_iff.mp h
  obtain ⟨all, hall, hkeys⟩ := identlistLookup_eq_some hsyms
  have hsplit := List.append_eq_map_iff.mp hall
  obtain ⟨front, keys, rfl, hfront, rfl⟩ := hsplit
  have hnames : front = names.reverse := by
    rw [← List.map_reverse] at hfront
    exact (List.map_injective_iff.mpr fun a b hab => by cases hab; rfl) hfront
  subst hnames
  refine ⟨keys, rfl, ?_⟩
  have hrev : keysOf t syms.reverse = (keysOf t syms).reverse :=
    List.map_reverse
  rw [hrev, hkeys, ← List.map_reverse, List.reverse_append, List.reverse_reverse]

/-- Tokens that the automaton takes are taken by the parser, whatever errors it
has counted before. -/
theorem yytokens_of_advances {toks : List Token} : ∀ {p : Parser}
    {c : Pos × ParserState}, advances (p.pos, p.state) toks = some c →
      yytokens p toks = .ok
        { pos := c.1, errstatus := p.errstatus - toks.length, state := c.2 } := by
  induction toks with
  | nil =>
      intro p c h
      cases h
      rfl
  | cons tok toks ih =>
      intro p c h
      obtain ⟨c', hadv, h⟩ := Option.bind_eq_some_iff.mp h
      have hfeed := feed_of_advanceFuel (p := p) maxTurns hadv
      unfold yytokens yytoken
      rw [hfeed]
      have hrest := ih
        (p := { pos := c'.1, errstatus := p.errstatus - 1, state := c'.2 }) h
      simpa only [List.length_cons, Nat.sub_sub, Nat.add_comm 1] using hrest

/-- Tokens read in two parts. -/
theorem yytokens_append {xs ys : List Token} : ∀ {p p' : Parser}
    {r : Except Fault Parser}, yytokens p xs = .ok p' → yytokens p' ys = r →
      yytokens p (xs ++ ys) = r := by
  induction xs with
  | nil =>
      intro p p' r hx hy
      cases hx
      exact hy
  | cons x xs ih =>
      intro p p' r hx hy
      unfold yytokens at hx
      rw [List.cons_append]
      unfold yytokens
      cases hfed : yytoken p x <;> rw [hfed] at hx
      case next q => exact ih hx hy
      all_goals cases hx

/-- When nothing is left over among the names of a testset. -/
theorem staleInTestlist_eq_nil {stale : List BoxedValue}
    {fixes : List (String × Value)} {type : TestsetExec} :
    staleInTestlist stale fixes type = [] ↔
      type = .serial ∨ fixes ≠ [] ∨ stale = [] := by
  unfold staleInTestlist
  rw [ite_eq_left_iff, or_assoc.symm]
  exact Decidable.or_iff_not_imp_left.symm

/--
**The tests of an accepted testset.**  Wherever in a configuration a testset
section is accepted, that is, whatever the parser has read and whatever errors
it has counted before, the testset is committed; and its tests are exactly the
names written in the section, in order, if and only if the keyword is `serial`,
or the section has a `fix` line, or no values were left over when it started.
-/
theorem testset_tests {t : SymbolTable} {pre : List Token} {p : Parser}
    (hpre : yytokens (.initial t) pre = .ok p) (hpos : p.pos = .input)
    (key : String) (fixes : List (String × Value)) (type : TestsetExec)
    (names : List String) {c : Pos × ParserState}
    (hacc : advances (p.pos, p.state)
      (Item.testset key fixes type names).tokens = some c) :
    ∃ p' td,
      yytokens (.initial t)
          (pre ++ (Item.testset key fixes type names).tokens) = .ok p' ∧
        p'.pos = .input ∧
        insertEntry p.state.table ⟨key, .testset td⟩ = some p'.state.table ∧
        (keysOf p.state.table td.tests = names.map some ↔
          type = .serial ∨ fixes ≠ [] ∨ p.state.valueList = []) := by
  have hparse := yytokens_of_advances hacc
  have hitem := observe_item (.testset key fixes type names) p.state
  rw [hpos] at hacc
  rw [hacc] at hitem
  obtain ⟨env, hdec, henv⟩ := Option.map_eq_some_iff.mp hitem.symm
  obtain ⟨settings, _, hdec⟩ := Option.bind_eq_some_iff.mp hdec
  obtain ⟨tests, htests, hdec⟩ := Option.bind_eq_some_iff.mp hdec
  obtain ⟨table, hins, rfl⟩ := Option.map_eq_some_iff.mp hdec
  simp only [observe, Prod.mk.injEq] at henv
  obtain ⟨hinput, henv⟩ := henv
  refine ⟨_, { execType := type, settings := settings, tests := tests },
    yytokens_append hpre hparse, hinput.symm, ?_, ?_⟩
  · have htable : table = c.2.table := congrArg Env.table henv
    rw [← htable]
    exact hins
  · obtain ⟨keys, hkeys, hall⟩ := evalTests_eq_some htests
    have hnil : keys = [] ↔ staleInTestlist p.state.valueList fixes type = [] := by
      show _ ↔ staleInTestlist p.state.env.stale fixes type = []
      rw [hkeys, List.map_eq_nil_iff]
    have hkeysOf : keysOf p.state.table tests = (keys.reverse ++ names).map some :=
      hall
    rw [hkeysOf, ← staleInTestlist_eq_nil, ← hnil, List.map_append]
    constructor
    · intro h
      have hlen := congrArg List.length h
      simp only [List.length_append, List.length_map, List.length_reverse] at hlen
      exact List.eq_nil_of_length_eq_zero (by omega)
    · rintro rfl
      rfl

/-- A test with a given name and nothing in it. -/
def emptyTest (key : String) : Item :=
  .test key false []

/-- A global whose value is a string. -/
def stringGlobal (key val : String) : Item :=
  .globals [.valuedef key (.string val)]

/-- The test `A`, and a global with the value `"A"`. -/
def staleGlobal : List Item :=
  [emptyTest "A", stringGlobal "g" "A"]

/-- A testset of the test `A`. -/
def testsetOfA (type : TestsetExec) : Item :=
  .testset "S" [] type ["A"]

/-- `parallel "A"` after the global commits the test twice. -/
theorem testset_tests_stale :
    ∃ t td,
      bltsConfParserStart freshTable
          ((staleGlobal ++ [testsetOfA .parallel]).flatMap Item.tokens) false =
        .ok (0, t) ∧
      lookupEntry t "S" = some ⟨"S", .testset td⟩ ∧
      keysOf t td.tests ≠ [some "A"] := by
  refine ⟨⟨some
      [some ⟨"A", .test .empty⟩, some ⟨"g", .boxedValue (some (.string "A"))⟩,
        some ⟨"S", .testset ⟨.parallel, [], [0, 0]⟩⟩], 3⟩,
    ⟨.parallel, [], [0, 0]⟩, ?_, ?_, ?_⟩ <;> decide +kernel

/-- The parser after the global. -/
def afterStaleGlobal : Parser where
  pos := .input
  errstatus := 0
  state :=
    { table :=
        { cells := some
            [some ⟨"A", .test .empty⟩,
              some ⟨"g", .boxedValue (some (.string "A"))⟩]
          top := 2 }
      currentSym := some ⟨"g", .boxedValue (some (.string "A"))⟩
      valueList := [.string "A"]
      identList := []
      settingList := []
      parseErrors := 0 }

/-- `serial "A"` in the same place commits it once. -/
theorem testset_tests_serial :
    ∃ p' td,
      yytokens (.initial freshTable)
          (staleGlobal.flatMap Item.tokens ++ (testsetOfA .serial).tokens) = .ok p' ∧
        p'.pos = .input ∧
        insertEntry afterStaleGlobal.state.table ⟨"S", .testset td⟩ =
          some p'.state.table ∧
        keysOf afterStaleGlobal.state.table td.tests = [some "A"] := by
  have hpre : yytokens (.initial freshTable) (staleGlobal.flatMap Item.tokens) =
      .ok afterStaleGlobal := by decide +kernel
  have hsome : (advances (afterStaleGlobal.pos, afterStaleGlobal.state)
      (testsetOfA .serial).tokens).isSome = true := by decide +kernel
  obtain ⟨p', td, hparse, hpos, hins, hiff⟩ :=
    testset_tests hpre rfl "S" [] .serial ["A"]
      (Option.some_get hsome).symm
  exact ⟨p', td, hparse, hpos, hins, hiff.mpr (.inl rfl)⟩

end Blts.Config
