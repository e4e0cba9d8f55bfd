import Mathlib.Data.Finset.Card
import Blts.Params.TestEntries

/-!
# Declarations that build their test

When a declaration finds no test in the configuration it builds one: every
parameter of the call becomes a setting, and every name that leads nowhere
becomes a parameter with its default.  `declareParams_defaults` runs the loop
over the parameters, for calls whose names lead to parameters or nowhere and
fit into the table.
-/

namespace Blts.Params

open Blts.Lib

variable {t t' : SymbolTable} {test : SymRef}

/-- Every name in the table is one of these. -/
def NamesIn (t : SymbolTable) (names : Finset String) : Prop :=
  ∀ key ref, symbolTableLookup t key = some ref → key ∈ names

/-- While a name is missing from a table, the table is not full. -/
theorem top_lt_of_namesIn (h : TableOk t) {names : Finset String}
    (hnames : NamesIn t names) (hcard : names.card ≤ symbolTableMax)
    {tag : String} (htag : tag ∈ names) (hnew : symbolTableLookup t tag = none) :
    t.top < symbolTableMax := by
  obtain ⟨r, hr⟩ := h.holds
  have hsubset : (r.entries.map SymbolTableEntry.key).toFinset ⊆ names.erase tag := by
    intro key hkey
    obtain ⟨e, he, rfl⟩ := List.mem_map.mp (List.mem_toFinset.mp hkey)
    obtain ⟨i, hi⟩ := List.mem_iff_getElem?.mp he
    have hfind : symbolTableLookup t e.key = some i := by
      rw [hr.lookup]
      exact Registry.find_eq_some_iff.mpr ⟨e, hi, rfl⟩
    refine Finset.mem_erase.mpr ⟨?_, hnames _ _ hfind⟩
    intro heq
    rw [heq, hnew] at hfind
    cases hfind
  have hle := Finset.card_le_card hsubset
  rw [List.toFinset_card_of_nodup r.nodup, List.length_map, ← hr.top,
    Finset.card_erase_of_mem htag] at hle
  have hpos : 0 < names.card := Finset.card_pos.mpr ⟨tag, htag⟩
  omega

/-- A declaration does not turn a parameter into something else. -/
theorem Grows.paramAt (hgrows : Grows test t t') (h : TableOk t) {td : TestDef}
    (htest : testAt t test = some td) {ref : SymRef} {pd : ParamDef}
    (hparam : paramAt t ref = some pd) : paramAt t' ref = some pd := by
  obtain ⟨key, hentry⟩ := paramAt_eq_some.mp hparam
  have hne : ref ≠ test := by
    rintro rfl
    obtain ⟨key', hentry'⟩ := testAt_eq_some.mp htest
    rw [hentry] at hentry'
    cases hentry'
  rw [hgrows.paramAt_eq (paramAt_lt_top h hparam) hne, hparam]

/-- The names of a table are as many as its entries. -/
theorem exists_namesIn (h : TableOk t) :
    ∃ names : Finset String, NamesIn t names ∧ names.card ≤ t.top := by
  obtain ⟨r, hr⟩ := h.holds
  refine ⟨(r.entries.map SymbolTableEntry.key).toFinset, ?_, ?_⟩
  · intro key ref hlookup
    rw [hr.lookup] at hlookup
    obtain ⟨e, he, rfl⟩ := Registry.find_eq_some_iff.mp hlookup
    exact List.mem_toFinset.mpr (List.mem_map_of_mem (List.mem_of_getElem? he))
  · rw [hr.top, ← List.length_map SymbolTableEntry.key]
    exact List.toFinset_card_le _

/-- A parameter that can be declared: a known type, and a name that leads to a
parameter or, without a configuration, nowhere. -/
def Declarable (loaded : Bool) (t : SymbolTable) (names : Finset String)
    (p : DeclaredParam) : Prop :=
  ∃ tag val, p.paramTag = some tag ∧ p.value.box = some val ∧ tag ∈ names ∧
    (symbolTableLookup t tag = none → loaded = false) ∧
    ∀ ref, symbolTableLookup t tag = some ref → (paramAt t ref).isSome = true

/-- The name of a parameter leads to a parameter. -/
def LeadsTo (t : SymbolTable) (p : DeclaredParam) (ref : SymRef) : Prop :=
  ∃ tag, p.paramTag = some tag ∧ symbolTableLookup t tag = some ref ∧
    (paramAt t ref).isSome = true

/-- Every name that is new in `t'` is that of a parameter of the call, and leads
to its default. -/
def NewDefaults (t t' : SymbolTable) (params : List DeclaredParam) : Prop :=
  ∀ key ref, symbolTableLookup t key = none → symbolTableLookup t' key = some ref →
    ∃ p ∈ params, ∃ val, p.paramTag = some key ∧ p.value.box = some val ∧
      paramAt t' ref = some (defaultParam val)

/-- One setting for every parameter. -/
def singleSettings (refs : List SymRef) : List TestSetting :=
  refs.map fun ref => .paramlist [ref]

/-- What the loop over the parameters of a declaration leaves. -/
structure Built (test : SymRef) (t t' : SymbolTable) (td : TestDef)
    (params : List DeclaredParam) (refs : List SymRef) : Prop where
  grows : Grows test t t'
  leads : List.Forall₂ (LeadsTo t') params refs
  added : NewDefaults t t' params
  settings : ∃ td', testAt t' test = some td' ∧
    td'.settings = td.settings ++ singleSettings refs

/-- What is declared stays declarable while other parameters are added. -/
theorem Declarable.of_inserted {loaded : Bool} {names : Finset String}
    {p : DeclaredParam} (hp : Declarable loaded t names p) (h : TableOk t)
    {td : TestDef} (htest : testAt t test = some td) {tag : String}
    {val : BoxedValue} {ref : SymRef} (hins : DefaultInserted test t t' tag val ref)
    (hparam : (paramAt t' ref).isSome = true) : Declarable loaded t' names p := by
  obtain ⟨tag', val', htag', hval', hmem, hnew, hold⟩ := hp
  refine ⟨tag', val', htag', hval', hmem, ?_, ?_⟩
  · intro hnone
    by_cases heq : tag' = tag
    · rw [heq, hins.lookup] at hnone
      cases hnone
    · rw [hins.old tag' heq] at hnone
      exact hnew hnone
  · intro ref' href'
    by_cases heq : tag' = tag
    · rw [heq, hins.lookup] at href'
      cases href'
      exact hparam
    · rw [hins.old tag' heq] at href'
      obtain ⟨pd, hpd⟩ := Option.isSome_iff_exists.mp (hold ref' href')
      rw [hins.grows.paramAt h htest hpd]
      rfl

/-- **The loop over the parameters** of a declaration that builds its test. -/
theorem declareParams_defaults {loaded : Bool} {key : String}
    {names : Finset String} (hcard : names.card ≤ symbolTableMax)
    (params : List DeclaredParam) : ∀ {t : SymbolTable} {td : TestDef}, TableOk t →
      testAt t test = some td → symbolTableLookup t key = some test →
      NamesIn t names → (∀ p ∈ params, Declarable loaded t names p) →
      ∃ t' refs, declareParams loaded true test key params t = .ok (0, t') ∧
        NamesIn t' names ∧ Built test t t' td params refs := by
  induction params with
  | nil =>
      intro t td h htest _ hnames _
      refine ⟨_, [], rfl, ?_, grows_modifyTest h test _, .nil, ?_,
        td.reverseParams, testAt_modifyTest h htest _, (List.append_nil _).symm⟩
      · intro key' ref href
        rw [lookup_modifyTest h] at href
        exact hnames key' ref href
      · intro key' ref hnew href
        rw [lookup_modifyTest h, hnew] at href
        cases href
  | cons p params ih =>
      intro t td h htest hkey hnames hparams
      have hp := hparams p (by simp)
      obtain ⟨tag, val, htag, hval, hmem, hnew, hold⟩ := hp
      have hready : ParamReady t tag := by
        unfold ParamReady
        cases hlookup : symbolTableLookup t tag with
        | some ref => exact hold ref hlookup
        | none => exact top_lt_of_namesIn h hnames hcard hmem hlookup
      obtain ⟨t₁, ref, hadd, hins, htest₁⟩ :=
        addDeclaredParam_spec h htest hkey hready val
      have hparam₁ : (paramAt t₁ ref).isSome = true := by
        rw [hins.param]
        cases hlookup : symbolTableLookup t tag with
        | none => rfl
        | some ref' =>
            have hsame := hins.grows.lookup tag ref' hlookup
            rw [hins.lookup] at hsame
            cases hsame
            exact hold ref hlookup
      have hnames₁ : NamesIn t₁ names := by
        intro key' ref' href'
        by_cases heq : key' = tag
        · exact heq ▸ hmem
        · rw [hins.old key' heq] at href'
          exact hnames key' ref' href'
      have hparams₁ : ∀ q ∈ params, Declarable loaded t₁ names q := by
        intro q hq
        exact (hparams q (by simp [hq])).of_inserted h htest hins hparam₁
      obtain ⟨t', refs, hrun, hnames', hbuilt⟩ := ih hins.grows.ok htest₁
        (hins.grows.lookup key test hkey) hnames₁ hparams₁
      refine ⟨t', ref :: refs, ?_, hnames', hins.grows.trans hbuilt.grows,
        .cons ?_ hbuilt.leads, ?_, ?_⟩
      · have hdefined : (loaded && (symbolTableLookup t tag).isNone) = false := by
          cases hlookup : symbolTableLookup t tag with
          | some ref' => simp
          | none => simp [hnew hlookup]
        unfold declareParams
        rw [htag, hval]
        simp only [undefinedTag, hdefined, bind, Except.bind, hadd]
        exact hrun
      · obtain ⟨pd, hpd⟩ := Option.isSome_iff_exists.mp hparam₁
        refine ⟨tag, htag, hbuilt.grows.lookup tag ref hins.lookup, ?_⟩
        rw [hbuilt.grows.paramAt hins.grows.ok htest₁ hpd]
        rfl
      · intro key' ref' hnew' href'
        by_cases heq : key' = tag
        · have hsame := hbuilt.grows.lookup tag ref hins.lookup
          rw [heq, hsame] at href'
          cases href'
          rw [heq] at hnew'
          have hpd := hins.param
          rw [if_pos hnew'] at hpd
          exact ⟨p, by simp, val, by rw [heq]; exact htag, hval,
            hbuilt.grows.paramAt hins.grows.ok htest₁ hpd⟩
        · obtain ⟨q, hq, hdefault⟩ := hbuilt.added key' ref'
            (by rw [hins.old key' heq, hnew']) href'
          exact ⟨q, by simp [hq], hdefault⟩
      · obtain ⟨td', htd', hsettings⟩ := hbuilt.settings
        refine ⟨td', htd', ?_⟩
        rw [hsettings]
        simp [TestDef.addSetting, TestDef.prependParam, singleSettings]

/-- A parameter of a known type whose name leads to a parameter. -/
def DefinedParam (t : SymbolTable) (p : DeclaredParam) : Prop :=
  p.value.box.isSome = true ∧ ∃ tag ref, p.paramTag = some tag ∧
    symbolTableLookup t tag = some ref ∧ (paramAt t ref).isSome = true

/-- What is defined after the default of a defined parameter was skipped was
defined before. -/
theorem DefinedParam.of_inserted {t t₁ : SymbolTable} {p : DeclaredParam}
    (hp : DefinedParam t₁ p) (h : TableOk t) {td : TestDef}
    (htest₁ : testAt t₁ test = some td) {tag : String} {val : BoxedValue}
    {ref ref₁ : SymRef} (hlookup : symbolTableLookup t tag = some ref)
    (hins : DefaultInserted test t t₁ tag val ref₁) : DefinedParam t p := by
  obtain ⟨hbox, tag', ref', htag', hlookup', hparam'⟩ := hp
  have hbefore : symbolTableLookup t tag' = some ref' := by
    by_cases heq : tag' = tag
    · have hsame := hins.grows.lookup tag ref hlookup
      rw [heq] at hlookup' ⊢
      rw [hlookup, ← hsame, hlookup']
    · rw [← hins.old tag' heq, hlookup']
  refine ⟨hbox, tag', ref', htag', hbefore, ?_⟩
  have hne : ref' ≠ test := by
    rintro rfl
    obtain ⟨key, hentry⟩ := testAt_eq_some.mp htest₁
    rw [paramAt, hentry] at hparam'
    cases hparam'
  rw [← hins.grows.paramAt_eq (h.lt_top_of_lookup hbefore) hne]
  exact hparam'

/-- **With a configuration** the loop succeeds only for parameters that are in
the table. -/
theorem defined_of_declareParams {key : String} (params : List DeclaredParam) :
    ∀ {t t' : SymbolTable} {td : TestDef}, TableOk t → testAt t test = some td →
      symbolTableLookup t key = some test →
      declareParams true true test key params t = .ok (0, t') →
      ∀ p ∈ params, DefinedParam t p := by
  induction params with
  | nil => exact fun _ _ _ _ p hp => absurd hp List.not_mem_nil
  | cons p params ih =>
      intro t t' td h htest hkey hrun
      unfold declareParams at hrun
      cases htag : p.paramTag with
      | none =>
          rw [htag] at hrun
          cases hrun
      | some tag =>
          rw [htag] at hrun
          cases hlookup : symbolTableLookup t tag with
          | none =>
              simp [undefinedTag, hlookup, bind, Except.bind, pure, Except.pure, einval]
                at hrun
          | some ref =>
              simp only [undefinedTag, hlookup, bind, Except.bind, Bool.true_and,
                Option.isNone_some, Bool.false_eq_true, if_false] at hrun
              cases hval : p.value.box with
              | none =>
                  simp [hval, pure, Except.pure, einval] at hrun
              | some val =>
                  simp only [hval] at hrun
                  cases hadd : addDeclaredParam true test key (some tag) val t with
                  | error f =>
                      rw [hadd] at hrun
                      cases hrun
                  | ok t₁ =>
                      rw [hadd] at hrun
                      obtain ⟨tag', htag', hready⟩ := ready_of_addDeclaredParam h hadd
                      cases htag'
                      obtain ⟨t₂, ref₂, hadd₂, hins, htest₂⟩ :=
                        addDeclaredParam_spec h htest hkey hready val
                      rw [hadd] at hadd₂
                      cases hadd₂
                      intro q hq
                      rcases List.mem_cons.mp hq with rfl | hq
                      · unfold ParamReady at hready
                        rw [hlookup] at hready
                        exact ⟨by rw [hval]; rfl, tag, ref, htag, hlookup, hready⟩
                      · exact (ih hins.grows.ok htest₂ (hins.grows.lookup key test hkey)
                          hrun q hq).of_inserted h htest₂ hlookup hins

/-! ## A test that is not in the table -/

/-- What a declaration of a new test leaves; the test stands above everything
that was in the table. -/
structure DeclaredNew (t t' : SymbolTable) (name : String)
    (params : List DeclaredParam) (refs : List SymRef) : Prop where
  grows : Grows t.top t t'
  leads : List.Forall₂ (LeadsTo t') params refs
  added : ∀ key ref, key ≠ name → symbolTableLookup t key = none →
    symbolTableLookup t' key = some ref →
      ∃ p ∈ params, ∃ val, p.paramTag = some key ∧ p.value.box = some val ∧
        paramAt t' ref = some (defaultParam val)
  lookup : symbolTableLookup t' name = some t.top
  test : ∃ td, testAt t' t.top = some td ∧ td.settings = singleSettings refs

/-- The table with a new test at its top, before its parameters are added. -/
structure NewTest (t t' : SymbolTable) (name : String) : Prop where
  grows : Grows t.top t t'
  test : ∃ td, testAt t' t.top = some td ∧ td.settings = [] ∧
    td.paramTags = [] ∧ td.paramDefaults = []
  lookup : ∀ key, symbolTableLookup t' key =
    if name = key then some t.top else symbolTableLookup t key
  param : ∀ ref, paramAt t' ref = paramAt t ref

theorem NewTest.modifyTest {name : String} (h : NewTest t t' name)
    {f : TestDef → TestDef} (hf : ∀ td, (f td).settings = td.settings ∧
      (f td).paramTags = td.paramTags ∧ (f td).paramDefaults = td.paramDefaults) :
    NewTest t (t'.modifyTest t.top f) name where
  grows := h.grows.trans (grows_modifyTest h.grows.ok t.top f)
  test := by
    obtain ⟨td, htest, hempty⟩ := h.test
    obtain ⟨hsettings, htags, hdefaults⟩ := hf td
    refine ⟨f td, testAt_modifyTest h.grows.ok htest f, ?_⟩
    rw [hsettings, htags, hdefaults]
    exact hempty
  lookup key := by rw [lookup_modifyTest h.grows.ok, h.lookup]
  param ref := by rw [paramAt_modifyTest h.grows.ok, h.param]

/-- The test is set up at the top of the table. -/
theorem setup_new (h : TableOk (symbolTableInit t)) {name : String}
    (hnew : symbolTableLookup (symbolTableInit t) name = none)
    (hroom : (symbolTableInit t).top < symbolTableMax) :
    ∃ t₁, setupSymbolTableNoConfig t name = .ok t₁ ∧
      NewTest (symbolTableInit t) t₁ name := by
  obtain ⟨t₁, hrun, ht₁, htop, hlookup, hentry⟩ :=
    insert_new h (e := ⟨name, .test .empty⟩) rfl hroom hnew
  refine ⟨t₁, ?_, grows_insert ht₁ htop hnew hlookup hentry _, ⟨.empty, ?_, rfl, rfl, rfl⟩,
    hlookup, ?_⟩
  · unfold setupSymbolTableNoConfig
    rw [hrun]
    rfl
  · unfold testAt
    rw [hentry, if_pos rfl]
  · intro ref
    unfold paramAt
    rw [hentry]
    by_cases href : ref = (symbolTableInit t).top
    · have hnone : SymbolTable.entry? (symbolTableInit t) (symbolTableInit t).top =
          none := by
        cases he : SymbolTable.entry? (symbolTableInit t) (symbolTableInit t).top with
        | none => rfl
        | some e => exact absurd (h.lt_top_of_entry? he) (Nat.lt_irrefl _)
      rw [if_pos href, href, hnone]
    · rw [if_neg href]

/-- What is left of a declaration once its test is found is the loop over its
parameters. -/
theorem declareTest_eq (s : ConfigState) (useDefaults : Bool) (name : String)
    (argHandler : Option FnRef) (params : List DeclaredParam) (test : SymRef)
    (t : SymbolTable) :
    declareTest s useDefaults name argHandler params test t =
      (declareParams s.configLoadComplete useDefaults test name params
        (t.modifyTest test fun td => { td with argHandler := argHandler })).map
          fun r => (r.1, { s with table := r.2 }) := by
  show (declareParams s.configLoadComplete useDefaults test name params
    (t.modifyTest test fun td => { td with argHandler := argHandler }) >>= _) = _
  cases declareParams s.configLoadComplete useDefaults test name params _ <;> rfl

/-- Declaring a test that is not in the table comes down to the loop over its
parameters. -/
theorem declare_eq_declareParams {s : ConfigState} (h : TableOk (symbolTableInit s.table))
    {name : String} (hnew : symbolTableLookup (symbolTableInit s.table) name = none)
    (hroom : (symbolTableInit s.table).top < symbolTableMax)
    (hloaded : s.configLoadComplete = true → symbolTableInit s.table = s.table)
    (argHandler : Option FnRef) (params : List DeclaredParam) :
    ∃ t₂, NewTest (symbolTableInit s.table) t₂ name ∧
      bltsConfigDeclareVariableTest s (some name) argHandler params =
        (declareParams s.configLoadComplete true (symbolTableInit s.table).top name
          params t₂).map fun r => (r.1, { s with table := r.2 }) := by
  obtain ⟨t₁, hsetup, hnewTest⟩ := setup_new h hnew hroom
  refine ⟨t₁.modifyTest (symbolTableInit s.table).top
    fun td => { td with argHandler := argHandler },
    hnewTest.modifyTest fun _ => ⟨rfl, rfl, rfl⟩, ?_⟩
  have hdeclare := declareTest_eq s true name argHandler params
    (symbolTableInit s.table).top t₁
  have hfound : symbolTableLookup t₁ name = some (symbolTableInit s.table).top := by
    rw [hnewTest.lookup, if_pos rfl]
  obtain ⟨td, htest, _⟩ := hnewTest.test
  obtain ⟨_, hentry⟩ := testAt_eq_some.mp htest
  unfold bltsConfigDeclareVariableTest declaredTable
  cases hload : s.configLoadComplete with
  | true =>
      have hnone : symbolTableLookup s.table name = none := hloaded hload ▸ hnew
      simp only [if_true, bind, Except.bind, hnone, hsetup, hfound]
      rw [hdeclare, hload]
  | false =>
      simp only [Bool.false_eq_true, if_false, bind, Except.bind, hsetup, hfound, hentry]
      rw [hload] at hdeclare
      exact hdeclare

/-- **Declaring a new test**, whose names lead to parameters or, without a
configuration, nowhere. -/
theorem declare_new {s : ConfigState} (h : TableOk (symbolTableInit s.table))
    {name : String} (hnew : symbolTableLookup (symbolTableInit s.table) name = none)
    {names : Finset String} (hcard : names.card ≤ symbolTableMax)
    (hnames : NamesIn (symbolTableInit s.table) names) (hname : name ∈ names)
    (hloaded : s.configLoadComplete = true → symbolTableInit s.table = s.table)
    (argHandler : Option FnRef) {params : List DeclaredParam}
    (hparams : ∀ p ∈ params, p.paramTag ≠ some name ∧
      Declarable s.configLoadComplete (symbolTableInit s.table) names p) :
    ∃ t' refs, bltsConfigDeclareVariableTest s (some name) argHandler params =
        .ok (0, { s with table := t' }) ∧ NamesIn t' names ∧
      DeclaredNew (symbolTableInit s.table) t' name params refs := by
  have hroom := top_lt_of_namesIn h hnames hcard hname hnew
  obtain ⟨t₂, hnewTest, hdeclare⟩ :=
    declare_eq_declareParams h hnew hroom hloaded argHandler params
  obtain ⟨td, htest, hempty, _⟩ := hnewTest.test
  have hkey : symbolTableLookup t₂ name = some (symbolTableInit s.table).top := by
    rw [hnewTest.lookup, if_pos rfl]
  have hnames₂ : NamesIn t₂ names := by
    intro key ref href
    rw [hnewTest.lookup] at href
    by_cases heq : name = key
    · exact heq ▸ hname
    · rw [if_neg heq] at href
      exact hnames key ref href
  have hparams₂ : ∀ p ∈ params, Declarable s.configLoadComplete t₂ names p := by
    intro p hp
    obtain ⟨hne, tag, val, htag, hval, hmem, hnone, hold⟩ := hparams p hp
    have htagne : name ≠ tag := by
      rintro rfl
      exact hne htag
    refine ⟨tag, val, htag, hval, hmem, ?_, ?_⟩
    · rw [hnewTest.lookup, if_neg htagne]
      exact hnone
    · intro ref href
      rw [hnewTest.lookup, if_neg htagne] at href
      rw [hnewTest.param]
      exact hold ref href
  obtain ⟨t', refs, hrun, hnames', hbuilt⟩ :=
    declareParams_defaults hcard params hnewTest.grows.ok htest hkey hnames₂ hparams₂
  obtain ⟨td', htd', hsettings⟩ := hbuilt.settings
  rw [hempty, List.nil_append] at hsettings
  refine ⟨t', refs, ?_, hnames', hnewTest.grows.trans hbuilt.grows, hbuilt.leads, ?_,
    hbuilt.grows.lookup name _ hkey, td', htd', hsettings⟩
  · rw [hdeclare, hrun]
    rfl
  · intro key ref hne hnone href
    apply hbuilt.added key ref _ href
    rw [hnewTest.lookup, if_neg (Ne.symm hne)]
    exact hnone

/-- **With a configuration** the declaration of a test that it does not define
succeeds only for a new name, while there is room, and for parameters that the
configuration defines. -/
theorem defined_of_declare {s s' : ConfigState} (h : TableOk s.table)
    (hload : s.configLoadComplete = true) {name : String}
    (hundefined : ∀ ref, symbolTableLookup s.table name = some ref →
      testAt s.table ref = none) {argHandler : Option FnRef}
    {params : List DeclaredParam}
    (hrun : bltsConfigDeclareVariableTest s (some name) argHandler params =
      .ok (0, s')) :
    symbolTableLookup s.table name = none ∧ s.table.top < symbolTableMax ∧
      ∀ p ∈ params, DefinedParam s.table p := by
  have hinit : symbolTableInit s.table = s.table := symbolTableInit_of_ok h
  have hnew : symbolTableLookup s.table name = none := by
    cases hlookup : symbolTableLookup s.table name with
    | none => rfl
    | some ref =>
        have hnone := hundefined ref hlookup
        simp only [bltsConfigDeclareVariableTest, declaredTable, hload, if_true, bind,
          Except.bind, hlookup] at hrun
        split at hrun
        next td hentry =>
          rw [testAt, hentry] at hnone
          cases hnone
        next => cases hrun
  have hroom : s.table.top < symbolTableMax := by
    by_contra hfull
    have hsetup : setupSymbolTableNoConfig s.table name = .ok s.table := by
      unfold setupSymbolTableNoConfig symbolTableInsert
      rw [hinit, if_pos (by omega)]
      rfl
    simp only [bltsConfigDeclareVariableTest, declaredTable, hload, if_true, bind,
      Except.bind, hnew, hsetup] at hrun
    cases hrun
  refine ⟨hnew, hroom, ?_⟩
  rw [← hinit] at h hnew hroom
  obtain ⟨t₂, hnewTest, hdeclare⟩ :=
    declare_eq_declareParams h hnew hroom (fun _ => hinit) argHandler params
  rw [hinit] at hnewTest hdeclare
  obtain ⟨td, htest, _⟩ := hnewTest.test
  rw [hdeclare, hload] at hrun
  cases hparams : declareParams true true s.table.top name params t₂ with
  | error f =>
      rw [hparams] at hrun
      cases hrun
  | ok r =>
      obtain ⟨ret, t'⟩ := r
      rw [hparams] at hrun
      cases hrun
      intro p hp
      obtain ⟨hbox, tag, ref, htag, hlookup, hparam⟩ :=
        defined_of_declareParams params hnewTest.grows.ok htest
          (by rw [hnewTest.lookup, if_pos rfl]) hparams p hp
      rw [hnewTest.param] at hparam
      refine ⟨hbox, tag, ref, htag, ?_, hparam⟩
      rw [hnewTest.lookup] at hlookup
      by_cases heq : name = tag
      · rw [if_pos heq] at hlookup
        cases hlookup
        obtain ⟨pd, hpd⟩ := Option.isSome_iff_exists.mp hparam
        have hlt := paramAt_lt_top (hinit ▸ h) hpd
        exact absurd hlt (Nat.lt_irrefl _)
      · rwa [if_neg heq] at hlookup

end Blts.Params
