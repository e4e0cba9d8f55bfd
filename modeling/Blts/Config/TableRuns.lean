import Blts.Config.Calls
import Blts.Config.Grammar
import Blts.Config.LostContext

/-!
# The table in every reachable state

The two properties that survive all calls: the table is in order (`TableOk`),
and its globals have values (`GlobalsValued`).  From the first follow that
entries with distinct keys fill the table up to `symbol_table_top`, and that
generated parameters refer backwards, so that generating their values ends.
-/

namespace Blts.Config

open Blts.Lib Blts.Params

theorem tableOk_keptByCalls : KeptByCalls TableOk where
  toKeptByDeclarations := tableOk_keptByDeclarations
  start := tableOk_init (.inl rfl)
  parse _ toks lexError h := keeps_bltsConfParserStart h toks lexError
  register _ _ _ h := keeps_insert h rfl

/-! ## Entries -/

/-- Entries with distinct keys fill the table from its start to its top. -/
structure TableInOrder (t : SymbolTable) : Prop where
  room : t.top ≤ symbolTableMax
  full : ∀ i, (t.entry? i).isSome = true ↔ i < t.top
  distinct : ∀ i j e e', t.entry? i = some e → t.entry? j = some e' →
    e.key = e'.key → i = j

/-- A table that holds a registry is in order. -/
theorem tableInOrder_of_holds {t : SymbolTable} {r : Symbols} (h : Holds t r) :
    TableInOrder t := by
  constructor
  · rw [h.top]
    exact r.bound
  · intro i
    rw [h.entry?, h.top, Option.isSome_iff_exists]
    constructor
    · rintro ⟨e, he⟩
      exact (List.getElem?_eq_some_iff.mp he).1
    · intro hi
      exact ⟨_, List.getElem?_eq_getElem hi⟩
  · intro i j e e' he he' hkey
    rw [h.entry?] at he he'
    have hi := Registry.find_eq_some_iff.mpr ⟨e, he, hkey⟩
    have hj := Registry.find_eq_some_iff.mpr ⟨e', he', rfl⟩
    exact Option.some.inj (hi.symm.trans hj)

theorem exists_holds {s : ConfigState} (hs : StateHas TableOk s) :
    ∃ r, Holds s.table r := by
  rcases hs with rfl | h
  · exact ⟨_, holds_unallocated⟩
  · exact h.holds

/-- The call writes nowhere but into the table, and a registration that returns
zero can be looked up. -/
def Registers (s : ConfigState) (c : Call) : Prop :=
  call s c ≠ .error .tableWrite ∧
    ∀ name func s', c = .register (some name) func → call s c = .ok (0, s') →
      lookupEntry s'.table name = some ⟨name, .generatorFn func⟩

/-- A registration that can be made. -/
theorem lookupEntry_register {s s' : ConfigState} (hs : StateHas TableOk s)
    {name : String} {func : FnRef}
    (hc : CanRegister s (.register (some name) func))
    (h : bltsConfigRegisterGeneratingFunc s (some name) func = .ok (0, s')) :
    lookupEntry s'.table name = some ⟨name, .generatorFn func⟩ := by
  unfold bltsConfigRegisterGeneratingFunc at h
  dsimp only at h
  split at h
  next => cases h
  next hnew =>
    rcases hc with hsome | ⟨halloc, hroom⟩
    · exact absurd hsome hnew
    have htable : TableOk s.table := by
      rcases hs with rfl | h
      · cases halloc
      · exact h
    rcases htable.insert (e := ⟨name, .generatorFn func⟩)
      (fun ref href => absurd href List.not_mem_nil) with
      ⟨ret, hret, hrun⟩ | ⟨t', hrun, _, _, hlookup, hentry⟩
    · unfold symbolTableInsert at hrun
      obtain ⟨cells, hcells⟩ := Option.isSome_iff_exists.mp halloc
      rw [if_neg (by omega), if_neg hnew, hcells] at hrun
      exact absurd (congrArg Prod.fst (Except.ok.inj hrun)).symm hret
    · rw [hrun] at h
      cases h
      rw [lookupEntry, hlookup, if_pos rfl, Option.bind_some, hentry, if_pos rfl]

/--
**The table invariant.**  In every state that a sequence of calls reaches,
entries with distinct keys fill the table from index zero to its top.  An
insertion into any table that is accepted writes to an allocated table, at an
index below `SYMBOL_TABLE_MAX`, and one that is rejected changes nothing.  And
the next call writes nowhere else, and can be looked up if it is a registration
that returns zero, if and only if it is not the registration of a new name with
no table or with a full one.
-/
theorem table_in_order {cs : List Call} {s : ConfigState}
    (hrun : calls.exec .initial cs = some s) :
    TableInOrder s.table ∧
      (∀ t e ret t', symbolTableInsert t e = .ok (ret, t') →
        if ret = 0 then t.cells.isSome = true ∧ t.top < symbolTableMax
        else t' = t) ∧
      ∀ c, Registers s c ↔ CanRegister s c := by
  have hs := tableOk_keptByCalls.reached hrun
  obtain ⟨r, hr⟩ := exists_holds hs
  refine ⟨tableInOrder_of_holds hr, ?_, ?_⟩
  · intro t e ret t' hins
    rcases symbolTableInsert_cases t e with
      ⟨ret', hret, hcase⟩ | ⟨_, hcase⟩ | ⟨cells, hcells, htop, _, hcase⟩
    · rw [hcase] at hins
      cases hins
      rw [if_neg hret]
    · rw [hcase] at hins
      cases hins
    · rw [hcase] at hins
      cases hins
      rw [if_pos rfl, hcells]
      exact ⟨rfl, htop⟩
  · intro c
    by_cases hc : CanRegister s c
    · refine iff_of_true ⟨?_, ?_⟩ hc
      · have hkeeps := tableOk_keptByCalls.call hs hc
        intro hfault
        rw [hfault] at hkeeps
        exact hkeeps rfl
      · rintro name func s' rfl hok
        exact lookupEntry_register hs hc hok
    · refine iff_of_false ?_ hc
      rintro ⟨hwrite, hlookup⟩
      obtain ⟨name, func, rfl, hnone, hfault | hok⟩ := register_of_not_canRegister hc
      · exact hwrite hfault
      · have hfound := hlookup name func s rfl hok
        rw [lookupEntry, hnone] at hfound
        cases hfound

/-- The default configuration file is missing, and a module registers a
generator. -/
theorem register_without_table :
    calls.exec .initial [.load (.error 2)] = some .initial ∧
      call .initial (.register (some "f") 0) = .error .tableWrite :=
  ⟨rfl, rfl⟩

/-- A configuration with the parameter `a`, and the parameter `b` generated from
it. -/
def generatedFromA : List Item :=
  [.param "a" (.const (.int 1) []), .param "b" (.generate "f" ["a"])]

/-- Load that configuration, register its generator, and declare a test. -/
def sampleCalls : List Call :=
  [.load (.ok (generatedFromA.flatMap Item.tokens, false)),
    .register (some "f") 0,
    .declare (some "T") none [{ paramTag := some "b", value := .int 0 }]]

/-- After these calls the table is in order and takes one more generator. -/
theorem table_in_order_sample :
    ∃ s, calls.exec .initial sampleCalls = some s ∧ TableInOrder s.table ∧
      s.table.top = 4 ∧ Registers s (.register (some "g") 1) := by
  have hsome : (calls.exec .initial sampleCalls).any (fun s =>
      s.table.top = 4 ∧ CanRegister s (.register (some "g") 1)) = true := by
    decide +kernel
  obtain ⟨s, hrun, hs⟩ := (Option.any_eq_true _ _).mp hsome
  obtain ⟨htop, hc⟩ := of_decide_eq_true hs
  obtain ⟨horder, _, hregisters⟩ := table_in_order hrun
  exact ⟨s, hrun, horder, htop, (hregisters _).mpr hc⟩

/-! ## Generated parameters -/

/--
**Generated parameters refer backwards.**  In every state that a sequence of
calls reaches, whatever the files and their errors, a generated parameter only
refers to symbols at smaller indices; and generating the values of any symbol
ends, for every style and whatever the generator functions return.
-/
theorem generated_below {cs : List Call} {s : ConfigState}
    (hrun : calls.exec .initial cs = some s) :
    (∀ i e, s.table.entry? i = some e → ∀ ref ∈ generatedRefs e.data, ref < i) ∧
      ∀ gen style sym, ∃ result, Ends result ∧
        ∀ fuel > sym, generateVariations s.table gen style fuel sym = result := by
  have hbelow : GeneratedBelow s.table := by
    rcases tableOk_keptByCalls.reached hrun with rfl | h
    · intro i e he
      cases he
    · exact h.below
  exact ⟨hbelow, fun gen style sym =>
    generateVariations_terminates hbelow gen style sym⟩

/-- In the sample table `b` is generated from `a`, and its values are what the
generator makes of those of `a`. -/
theorem generated_below_sample :
    ∃ s, calls.exec .initial sampleCalls = some s ∧
      (s.table.entry? 1).map (fun e => generatedRefs e.data) = some [0] ∧
      ∀ fuel > 1, generateVariations s.table (fun _ vs => vs.head?) .combinations
        fuel 1 = .ok [.int 1] := by
  have hsome : (calls.exec .initial sampleCalls).any (fun s =>
      (s.table.entry? 1).map (fun e => generatedRefs e.data) = some [0] ∧
        generateVariations s.table (fun _ vs => vs.head?) .combinations 2 1 =
          .ok [.int 1]) = true := by
    decide +kernel
  obtain ⟨s, hrun, hs⟩ := (Option.any_eq_true _ _).mp hsome
  obtain ⟨hrefs, hvalues⟩ := of_decide_eq_true hs
  obtain ⟨_, hends⟩ := generated_below hrun
  obtain ⟨result, _, hfuel⟩ := hends (fun _ vs => vs.head?) .combinations 1
  refine ⟨s, hrun, hrefs, fun fuel hlt => ?_⟩
  rw [hfuel fuel hlt, ← hfuel 2 (by decide), hvalues]

/-! ## Globals -/

/-- No entry that is inserted outside of the parser is a global. -/
theorem keeps_globals_insert {t : SymbolTable}
    (h : TableOk t ∧ GlobalsValued t) {e : SymbolTableEntry}
    (hrefs : generatedRefs e.data = []) (he : e.data ≠ .boxedValue none) :
    Keeps (fun t' => TableOk t' ∧ GlobalsValued t')
      ((symbolTableInsert t e).map Prod.snd) := by
  have hok := keeps_insert h.1 hrefs
  cases hins : symbolTableInsert t e with
  | error f =>
      rw [hins] at hok
      exact hok
  | ok r =>
      rw [hins] at hok
      exact ⟨hok, h.2.insert he hins⟩

/-- Writing to a test touches no global. -/
theorem GlobalsValued.modifyTest {t : SymbolTable} (h : GlobalsValued t)
    (test : SymRef) (f : TestDef → TestDef) : GlobalsValued (t.modifyTest test f) := by
  intro e he hdata
  unfold SymbolTable.block SymbolTable.modifyTest SymbolTable.modifyEntry at he
  cases hcells : t.cells with
  | none =>
      rw [hcells] at he
      cases he
  | some cells =>
      rw [hcells] at he
      obtain ⟨i, hi⟩ := List.mem_iff_getElem?.mp he
      simp only [Option.map_some, Option.getD_some, List.getElem?_modify] at hi
      obtain ⟨cell, hcell, hi⟩ := Option.map_eq_some_iff.mp hi
      have hmem : cell ∈ t.block := by
        rw [SymbolTable.block, hcells]
        exact List.mem_of_getElem? hcell
      by_cases hti : test = i
      · rw [if_pos hti] at hi
        obtain ⟨e₀, rfl, rfl⟩ := Option.map_eq_some_iff.mp hi
        refine h e₀ hmem ?_
        dsimp only at hdata
        split at hdata
        · cases hdata
        · exact hdata
      · rw [if_neg hti] at hi
        cases hi
        exact h e hmem hdata

/-- Parsing leaves no global without a value. -/
theorem globalsValued_of_parse {t : SymbolTable} (ht : GlobalsValued t)
    {toks : List Token} {lexError : Bool} {r : Int × SymbolTable}
    (h : bltsConfParserStart t toks lexError = .ok r) : GlobalsValued r.2 := by
  have hyyparse : ∀ ret s, yyparse (.initial t) toks lexError = .ok (ret, s) →
      GlobalsValued s.table := by
    intro ret s hparse
    unfold yyparse at hparse
    rcases yytokens_keeps toks (intact_initial ht) with
      ⟨p', hrun, hp', _⟩ | hfault | hfault
    · rw [hrun] at hparse
      cases lexError with
      | true =>
          rw [table_yyeof_yyerror hparse]
          exact hp'.globals
      | false =>
          have hfed := feed_keeps hp' none
          change yyeof p' = _ at hparse
          unfold yyeof at hparse
          cases hf : feed maxTurns p' none <;> rw [hf] at hfed hparse <;>
            cases hparse
          exact hfed.1
    · rw [hfault] at hparse
      cases hparse
    · rw [hfault] at hparse
      cases hparse
  unfold bltsConfParserStart at h
  cases hparse : yyparse (.initial t) toks lexError with
  | error f =>
      rw [hparse] at h
      cases h
  | ok r' =>
      obtain ⟨ret, s⟩ := r'
      rw [hparse] at h
      simp only [bind, Except.bind] at h
      split at h <;> cases h <;> exact hyyparse ret s hparse

/-- **Globals have values** in every table that the calls make. -/
theorem globals_keptByCalls :
    KeptByCalls fun t => TableOk t ∧ GlobalsValued t where
  start := ⟨tableOk_keptByCalls.start, globalsValued_freshTable⟩
  init t h := by
    refine ⟨tableOk_keptByCalls.init t h.1, ?_⟩
    obtain ⟨cells, hcells⟩ := Option.isSome_iff_exists.mp h.1.allocated
    simpa only [symbolTableInit, hcells] using h.2
  insert t e h he := by
    apply keeps_globals_insert h
    · unfold IsDeclared at he
      split at he
      next hdata => rw [hdata]; rfl
      next hdata => rw [hdata]; rfl
      next => exact he.elim
    · intro hdata
      rw [hdata] at he
      exact he
  modifyTest t test f h := ⟨h.1.modifyTest test f, h.2.modifyTest test f⟩
  parse t toks lexError h := by
    have hok := keeps_bltsConfParserStart h.1 toks lexError
    cases hparse : bltsConfParserStart t toks lexError with
    | error e =>
        rw [hparse] at hok
        exact hok
    | ok r =>
        rw [hparse] at hok
        exact ⟨hok, globalsValued_of_parse h.2 hparse⟩
  register t name func h := keeps_globals_insert h rfl fun hdata => by cases hdata

/-- So do those of every state that is reached. -/
theorem globalsValued_reached {cs : List Call} {s : ConfigState}
    (hrun : calls.exec .initial cs = some s) : GlobalsValued s.table := by
  rcases globals_keptByCalls.reached hrun with rfl | h
  · exact globalsValued_unallocated
  · exact h.2

/-- A blank file. -/
theorem globalsValued_loaded : ∃ s, calls.exec .initial [.load (.ok ([.cr], false))] = some s ∧
    GlobalsValued s.table :=
  (Option.isSome_iff_exists.mp rfl).imp fun _ hrun => ⟨hrun, globalsValued_reached hrun⟩

end Blts.Config
