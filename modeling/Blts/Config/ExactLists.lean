import Blts.Config.TableRuns
import Blts.Params.ParamLists

/-!
# Declaring a test more than once

The lists of tags and defaults are exact after a call if they are what they were
before or those of its parameters.  A call that finds the lists empty and all of
its parameters acceptable leaves them exact; a call that fails on a later
parameter leaves the earlier ones behind, and one that finds parameters of an
earlier call reverses them and adds its own.  `declarations_exact` says for
whole runs which calls leave the lists exact.
-/

namespace Blts.Config

open Blts.Lib Blts.Params

/-- The test that a name leads to. -/
def testNamed (t : SymbolTable) (name : String) : Option TestDef :=
  (symbolTableLookup t name).bind (testAt t)

/-- The lists of a test; there are none where there is no test. -/
def paramLists (t : SymbolTable) (name : String) : ParamLists :=
  ((testNamed t name).map TestDef.lists).getD .empty

/-- The test that a call declares. -/
def Call.target : Call → Option String
  | .declare name _ _ => name
  | .declareDynamic name _ => name
  | _ => none

/-- The groups of parameters of a call. -/
def callGroups (s : ConfigState) : Call → List ParamGroup
  | .declare (some name) _ params =>
      [params.map (declaredEntry s.configLoadComplete s.table name)]
  | .declareDynamic (some name) _ =>
      settingGroups s.table (((testNamed s.table name).map TestDef.settings).getD [])
  | _ => []

/-- A call that is set up a test if there is none: any without a configuration,
and with one those that have parameters of their own. -/
def SetsUp (s : ConfigState) : Call → Prop
  | .declare _ _ _ => True
  | .declareDynamic _ _ => s.configLoadComplete = false
  | _ => False

/-- The call has a test to declare: it is in the table, or it is new and there is
room for it. -/
def HasTest (s : ConfigState) (c : Call) (name : String) : Prop :=
  (testNamed s.table name).isSome = true ∨
    SetsUp s c ∧ symbolTableLookup s.table name = none ∧ s.table.top < symbolTableMax

instance (s : ConfigState) (c : Call) (name : String) : Decidable (HasTest s c name) := by
  unfold HasTest SetsUp
  split <;> infer_instance

/-- The lists of the test are what they were before the call, or those of its
parameters if it succeeds. -/
def ListsExact (s : ConfigState) (c : Call) : Prop :=
  ∀ name, c.target = some name → ∀ ret s', call s c = .ok (ret, s') →
    ExactlyDeclared (callGroups s c) ret (paramLists s.table name)
      (paramLists s'.table name)

/-- The parameters are recorded at most once. -/
def DeclaresOnce (s : ConfigState) (c : Call) : Prop :=
  ∀ name, c.target = some name → HasTest s c name →
    RecordsOnce (callGroups s c) (paramLists s.table name)

instance (s : ConfigState) (c : Call) : Decidable (DeclaresOnce s c) :=
  decidable_of_iff
    (∀ name ∈ c.target, HasTest s c name →
      RecordsOnce (callGroups s c) (paramLists s.table name))
    ⟨fun h name hname => h name hname, fun h name hname => h name hname⟩

/-! ## The table that a test is looked up in -/

/-- A table with at most a new, empty test of that name. -/
structure Prepared (t t' : SymbolTable) (name : String) : Prop where
  ok : TableOk t'
  lookup : ∀ key, key ≠ name → symbolTableLookup t' key = symbolTableLookup t key
  lists : paramLists t' name = paramLists t name
  groups : settingGroups t' (((testNamed t' name).map TestDef.settings).getD []) =
    settingGroups t (((testNamed t name).map TestDef.settings).getD [])

theorem testNamed_eq_some {t : SymbolTable} {name : String} {test : SymRef} {td : TestDef}
    (hlookup : symbolTableLookup t name = some test) (htest : testAt t test = some td) :
    testNamed t name = some td := by
  rw [testNamed, hlookup, Option.bind_some, htest]

theorem Prepared.of_init {t : SymbolTable} (ht : t = .unallocated ∨ TableOk t)
    (name : String) : Prepared t (symbolTableInit t) name := by
  have hok := tableOk_init ht
  rcases ht with rfl | h
  · exact ⟨hok, fun _ _ => rfl, rfl, rfl⟩
  · rw [symbolTableInit_of_ok h]
    exact ⟨h, fun _ _ => rfl, rfl, rfl⟩

theorem Prepared.of_newTest {t t₁ t' : SymbolTable} {name : String}
    (hprepared : Prepared t t₁ name) (hnone : symbolTableLookup t₁ name = none)
    (hnew : NewTest t₁ t' name) : Prepared t t' name := by
  obtain ⟨td, htest, hsettings, htags, hdefaults⟩ := hnew.test
  have hnamed : testNamed t' name = some td :=
    testNamed_eq_some (by rw [hnew.lookup, if_pos rfl]) htest
  have hnamed₁ : testNamed t₁ name = none := by
    rw [testNamed, hnone, Option.bind_none]
  refine ⟨hnew.grows.ok, ?_, ?_, ?_⟩
  · intro key hne
    rw [hnew.lookup, if_neg (Ne.symm hne), hprepared.lookup key hne]
  · rw [← hprepared.lists, paramLists, paramLists, hnamed, hnamed₁, Option.map_some,
      TestDef.lists, htags, hdefaults]
    rfl
  · rw [← hprepared.groups, hnamed, hnamed₁, Option.map_some, Option.getD_some, hsettings]
    rfl

/-- An initialised table has the same names. -/
theorem lookup_symbolTableInit (t : SymbolTable) (key : String) :
    symbolTableLookup (symbolTableInit t) key = symbolTableLookup t key := by
  unfold symbolTableInit symbolTableLookup SymbolTable.block
  cases hcells : t.cells <;> simp [hcells]

theorem testNamed_symbolTableInit (t : SymbolTable) (name : String) :
    testNamed (symbolTableInit t) name = testNamed t name := by
  unfold testNamed testAt
  rw [lookup_symbolTableInit]
  unfold symbolTableInit SymbolTable.entry? SymbolTable.block
  cases hcells : t.cells <;> simp [hcells]

theorem top_symbolTableInit {t : SymbolTable} (ht : t = .unallocated ∨ TableOk t) :
    (symbolTableInit t).top = t.top := by
  rcases ht with rfl | h
  · rfl
  · rw [symbolTableInit_of_ok h]

/-! ## What a call records -/

/-- What a call does to the lists of its test, if there is one. -/
def Records (s : ConfigState) (c : Call) (name : String) (ret : Int)
    (s' : ConfigState) : Prop :=
  if HasTest s c name then
    ret = groupsResult (callGroups s c) ∧
      paramLists s'.table name = (paramLists s.table name).declare (callGroups s c)
  else paramLists s'.table name = paramLists s.table name

/-- The loop over the parameters, on a table with the test. -/
theorem declareTest_test {s s' : ConfigState} {t : SymbolTable} {name : String}
    (hprepared : Prepared s.table t name) {test : SymRef} {td : TestDef}
    (hlookup : symbolTableLookup t name = some test) (htest : testAt t test = some td)
    {useDefaults : Bool} {argHandler : Option FnRef} {params : List DeclaredParam}
    {ret : Int} (hrun : declareTest s useDefaults name argHandler params test t =
      .ok (ret, s')) :
    TableOk s'.table ∧
      ret = groupsResult (callGroups s (.declare (some name) argHandler params)) ∧
      ∃ td', testNamed s'.table name = some td' ∧
        TestKept useDefaults { td with argHandler := argHandler } td' ∧
        td'.lists = td.lists.declare
          (callGroups s (.declare (some name) argHandler params)) := by
  rw [declareTest_eq] at hrun
  cases hparams : declareParams s.configLoadComplete useDefaults test name params
      (t.modifyTest test fun td => { td with argHandler := argHandler }) with
  | error f =>
      rw [hparams] at hrun
      cases hrun
  | ok r =>
      obtain ⟨ret', t'⟩ := r
      rw [hparams] at hrun
      cases hrun
      have hlookup' := lookup_modifyTest hprepared.ok test
        fun td => { td with argHandler := argHandler }
      obtain ⟨hgrows, hret, td', htest', hkept, hlists⟩ := declareParams_lists params
        (hprepared.ok.modifyTest test _) (testAt_modifyTest hprepared.ok htest _)
        (by rw [hlookup', hlookup]) hparams
      have hentry : declaredEntry s.configLoadComplete
          (t.modifyTest test fun td => { td with argHandler := argHandler }) name =
            declaredEntry s.configLoadComplete s.table name := by
        funext p
        have hsame : ∀ tag, (tag ≠ name ∧ symbolTableLookup
            (t.modifyTest test fun td => { td with argHandler := argHandler }) tag = none) ↔
              (tag ≠ name ∧ symbolTableLookup s.table tag = none) := by
          intro tag
          refine and_congr_right fun hne => ?_
          rw [hlookup', hprepared.lookup tag hne]
        simp only [declaredEntry, hsame]
      rw [hentry] at hret hlists
      exact ⟨hgrows.ok, hret, td',
        testNamed_eq_some (hgrows.lookup name test (by rw [hlookup', hlookup])) htest',
        hkept, hlists⟩

/-- What it leaves in the lists of the test. -/
theorem declareTest_lists {s s' : ConfigState} {t : SymbolTable} {name : String}
    (hprepared : Prepared s.table t name) {test : SymRef} {td : TestDef}
    (hlookup : symbolTableLookup t name = some test) (htest : testAt t test = some td)
    {useDefaults : Bool} {argHandler : Option FnRef} {params : List DeclaredParam}
    {ret : Int} (hrun : declareTest s useDefaults name argHandler params test t =
      .ok (ret, s')) :
    ret = groupsResult (callGroups s (.declare (some name) argHandler params)) ∧
      paramLists s'.table name = (paramLists s.table name).declare
        (callGroups s (.declare (some name) argHandler params)) := by
  obtain ⟨_, hret, td', hnamed, _, hlists⟩ :=
    declareTest_test hprepared hlookup htest hrun
  refine ⟨hret, ?_⟩
  have hbefore : paramLists s.table name = td.lists := by
    rw [← hprepared.lists, paramLists, testNamed_eq_some hlookup htest]
    rfl
  rw [hbefore, paramLists, hnamed]
  exact hlists

/-- The loop over the settings, on a table with the test. -/
theorem declareDynamic_lists {s s' : ConfigState} {t : SymbolTable} {name : String}
    (hprepared : Prepared s.table t name) (htable : declaredTable s name = .ok t)
    {test : SymRef} {td : TestDef} (hlookup : symbolTableLookup t name = some test)
    (htest : testAt t test = some td) {argHandler : Option FnRef} {ret : Int}
    (hrun : bltsConfigDeclareVariableTestDynamic s (some name) argHandler =
      .ok (ret, s')) :
    ret = groupsResult (callGroups s (.declareDynamic (some name) argHandler)) ∧
      paramLists s'.table name = (paramLists s.table name).declare
        (callGroups s (.declareDynamic (some name) argHandler)) := by
  have hok := hprepared.ok
  have hgroups : callGroups s (.declareDynamic (some name) argHandler) =
      settingGroups t td.settings := by
    show settingGroups s.table _ = _
    rw [← hprepared.groups, testNamed_eq_some hlookup htest]
    rfl
  have hbefore : paramLists s.table name = td.lists := by
    rw [← hprepared.lists, paramLists, testNamed_eq_some hlookup htest]
    rfl
  have hafter (f : TestDef → TestDef) :
      paramLists (t.modifyTest test f) name = (f td).lists := by
    rw [paramLists, testNamed_eq_some (by rw [lookup_modifyTest hok, hlookup])
      (testAt_modifyTest hok htest f)]
    rfl
  obtain ⟨key, hentry⟩ := testAt_eq_some.mp htest
  rw [hgroups, hbefore]
  simp only [bltsConfigDeclareVariableTestDynamic, htable, bind, Except.bind, hlookup,
    Option.map_some, hentry] at hrun
  cases hsettings : declareSettings s.configLoadComplete test td.settings 0
      (t.modifyTest test fun td => { td with argHandler2 := argHandler }) with
  | error f =>
      rw [hsettings] at hrun
      cases hrun
  | ok r =>
      have hr := declareSettings_eq td.settings (hok.modifyTest test _) hsettings
      rw [settingGroups, settingGroup_modifyTest hok, ← settingGroups,
        modifyTest_modifyTest] at hr
      rw [hsettings, hr] at hrun
      simp only at hrun
      unfold ParamLists.declare
      split at hrun
      next hzero =>
        cases hrun
        have hret : groupsResult (settingGroups t td.settings) = 0 := hzero
        refine ⟨rfl, ?_⟩
        rw [if_pos hret]
        show paramLists ((t.modifyTest test _).modifyTest test _) name = _
        rw [modifyTest_modifyTest, hafter]
        rfl
      next hne =>
        cases hrun
        have hret : groupsResult (settingGroups t td.settings) ≠ 0 := hne
        refine ⟨rfl, ?_⟩
        rw [if_neg hret]
        exact hafter _

/-! ## The table that a call looks its test up in -/

theorem Records.of_hasTest {s s' : ConfigState} {c : Call} {name : String} {ret : Int}
    (hhas : HasTest s c name) (h : ret = groupsResult (callGroups s c) ∧
      paramLists s'.table name = (paramLists s.table name).declare (callGroups s c)) :
    Records s c name ret s' := by
  rw [Records, if_pos hhas]
  exact h

/-- Without a test the table is only allocated. -/
theorem Records.of_not_hasTest {s : ConfigState} {c : Call} {name : String} {ret : Int}
    (hhas : ¬ HasTest s c name) :
    Records s c name ret { s with table := symbolTableInit s.table } := by
  rw [Records, if_neg hhas, paramLists, testNamed_symbolTableInit]
  rfl

/-- A full table stays as it is, and so does one with a symbol of the name. -/
theorem setup_unchanged {t : SymbolTable} (ht : t = .unallocated ∨ TableOk t)
    {name : String} (hnot : ¬ (symbolTableLookup t name = none ∧
      t.top < symbolTableMax)) :
    setupSymbolTableNoConfig t name = .ok (symbolTableInit t) := by
  unfold setupSymbolTableNoConfig symbolTableInsert
  rw [lookup_symbolTableInit, top_symbolTableInit ht]
  by_cases hfull : symbolTableMax ≤ t.top
  · rw [if_pos hfull]
    rfl
  · have hsome : (symbolTableLookup t name).isSome = true := by
      rw [Option.isSome_iff_ne_none]
      exact fun hnone => hnot ⟨hnone, by omega⟩
    rw [if_neg hfull, if_pos hsome]
    rfl

section

variable {s : ConfigState} (ht : s.table = .unallocated ∨ TableOk s.table)
  (hload : s.configLoadComplete = true → TableOk s.table)
include ht hload

theorem declaredTable_unchanged {name : String}
    (hnot : ¬ (symbolTableLookup s.table name = none ∧ s.table.top < symbolTableMax)) :
    declaredTable s name = .ok (symbolTableInit s.table) := by
  unfold declaredTable
  cases hl : s.configLoadComplete with
  | false => exact setup_unchanged ht hnot
  | true =>
      rw [symbolTableInit_of_ok (hload hl)]
      rfl

/-- **A declaration with arguments** comes down to the loop over its parameters,
if it has a test. -/
theorem declare_cases {name : String} {argHandler : Option FnRef}
    {params : List DeclaredParam} {ret : Int} {s' : ConfigState}
    (hrun : bltsConfigDeclareVariableTest s (some name) argHandler params =
      .ok (ret, s')) :
    (HasTest s (.declare (some name) argHandler params) name ∧
      ∃ t useDefaults test td, Prepared s.table t name ∧
        symbolTableLookup t name = some test ∧ testAt t test = some td ∧
        declareTest s useDefaults name argHandler params test t = .ok (ret, s') ∧
        ∀ td₀, testNamed s.table name = some td₀ →
          td = td₀ ∧ useDefaults = !s.configLoadComplete) ∨
    ¬ HasTest s (.declare (some name) argHandler params) name ∧ ret ≠ 0 ∧
      s' = { s with table := symbolTableInit s.table } := by
  have h := tableOk_init ht
  by_cases hnew : symbolTableLookup s.table name = none ∧ s.table.top < symbolTableMax
  · obtain ⟨t₁, hsetup, hnewTest⟩ := setup_new h
      (by rw [lookup_symbolTableInit]; exact hnew.1)
      (by rw [top_symbolTableInit ht]; exact hnew.2)
    have hprepared := (Prepared.of_init ht name).of_newTest
      (by rw [lookup_symbolTableInit]; exact hnew.1) hnewTest
    have hfound : symbolTableLookup t₁ name = some (symbolTableInit s.table).top := by
      rw [hnewTest.lookup, if_pos rfl]
    have hnone : ∀ td₀, testNamed s.table name ≠ some td₀ := by
      intro td₀ hnamed
      rw [testNamed, hnew.1] at hnamed
      cases hnamed
    obtain ⟨td, htest, _⟩ := hnewTest.test
    obtain ⟨key, hentry⟩ := testAt_eq_some.mp htest
    refine .inl ⟨.inr ⟨trivial, hnew⟩, t₁, true, _, td, hprepared, hfound, htest, ?_,
      fun td₀ hnamed => absurd hnamed (hnone td₀)⟩
    unfold bltsConfigDeclareVariableTest declaredTable at hrun
    cases hl : s.configLoadComplete with
    | false =>
        simpa only [hl, Bool.false_eq_true, if_false, bind, Except.bind, hsetup, hfound,
          hentry, Bool.not_false] using hrun
    | true =>
        simpa only [hl, if_true, bind, Except.bind, hnew.1, hsetup, hfound] using hrun
  · have htable := declaredTable_unchanged ht hload hnew
    unfold bltsConfigDeclareVariableTest at hrun
    simp only [htable, bind, Except.bind] at hrun
    cases hlookup : symbolTableLookup (symbolTableInit s.table) name with
    | none =>
        -- there is no room for the test
        have hsetup : setupSymbolTableNoConfig (symbolTableInit s.table) name = _ :=
          setup_unchanged (.inr h)
            (by rwa [lookup_symbolTableInit, top_symbolTableInit ht])
        rw [symbolTableInit_of_ok h] at hsetup
        simp only [hlookup, hsetup] at hrun
        cases hrun
        refine .inr ⟨?_, by decide, rfl⟩
        rintro (hsome | ⟨_, hroom⟩)
        · rw [← testNamed_symbolTableInit, testNamed, hlookup] at hsome
          cases hsome
        · exact hnew hroom
    | some test =>
        simp only [hlookup] at hrun
        split at hrun
        next key td hentry =>
          have htest := testAt_eq_some.mpr ⟨key, hentry⟩
          have hnamed := testNamed_eq_some hlookup htest
          rw [testNamed_symbolTableInit] at hnamed
          refine .inl ⟨.inl (by rw [hnamed]; rfl), _, _, test, td, .of_init ht name,
            hlookup, htest, hrun, fun td₀ hnamed₀ => ⟨?_, rfl⟩⟩
          exact Option.some.inj (hnamed.symm.trans hnamed₀)
        next hentry =>
          cases hrun
          refine .inr ⟨?_, by decide, rfl⟩
          rintro (hsome | ⟨_, hroom⟩)
          · obtain ⟨td, htd⟩ := Option.isSome_iff_exists.mp hsome
            rw [← testNamed_symbolTableInit, testNamed, hlookup, Option.bind_some] at htd
            obtain ⟨key, hkey⟩ := testAt_eq_some.mp htd
            exact hentry key td hkey
          · exact hnew hroom

/-- It records its parameters. -/
theorem records_declare {name : String} {argHandler : Option FnRef}
    {params : List DeclaredParam} {ret : Int} {s' : ConfigState}
    (hrun : bltsConfigDeclareVariableTest s (some name) argHandler params =
      .ok (ret, s')) :
    Records s (.declare (some name) argHandler params) name ret s' := by
  rcases declare_cases ht hload hrun with
    ⟨hhas, t, useDefaults, test, td, hprepared, hlookup, htest, hdeclare, _⟩ |
    ⟨hhas, _, rfl⟩
  · exact .of_hasTest hhas (declareTest_lists hprepared hlookup htest hdeclare)
  · exact .of_not_hasTest hhas

/-- **A declaration without arguments** records the parameters of the settings. -/
theorem records_declareDynamic {name : String} {argHandler : Option FnRef} {ret : Int}
    {s' : ConfigState}
    (hrun : bltsConfigDeclareVariableTestDynamic s (some name) argHandler =
      .ok (ret, s')) :
    Records s (.declareDynamic (some name) argHandler) name ret s' := by
  have h := tableOk_init ht
  by_cases hnew : s.configLoadComplete = false ∧
      symbolTableLookup s.table name = none ∧ s.table.top < symbolTableMax
  · obtain ⟨t₁, hsetup, hnewTest⟩ := setup_new h
      (by rw [lookup_symbolTableInit]; exact hnew.2.1)
      (by rw [top_symbolTableInit ht]; exact hnew.2.2)
    have hprepared := (Prepared.of_init ht name).of_newTest
      (by rw [lookup_symbolTableInit]; exact hnew.2.1) hnewTest
    obtain ⟨td, htest, _⟩ := hnewTest.test
    have htable : declaredTable s name = .ok t₁ := by
      unfold declaredTable
      rw [hnew.1]
      exact hsetup
    exact .of_hasTest (.inr hnew) (declareDynamic_lists hprepared htable
      (by rw [hnewTest.lookup, if_pos rfl]) htest hrun)
  · have htable : declaredTable s name = .ok (symbolTableInit s.table) := by
      cases hl : s.configLoadComplete with
      | false => exact declaredTable_unchanged ht hload fun hroom => hnew ⟨hl, hroom⟩
      | true =>
          unfold declaredTable
          rw [hl, symbolTableInit_of_ok (hload hl)]
          rfl
    cases hnamed : testNamed (symbolTableInit s.table) name with
    | some td =>
        obtain ⟨test, hlookup, htest⟩ := Option.bind_eq_some_iff.mp hnamed
        refine .of_hasTest (.inl ?_)
          (declareDynamic_lists (.of_init ht name) htable hlookup htest hrun)
        rw [← testNamed_symbolTableInit, hnamed]
        rfl
    | none =>
        have hnot : ¬ HasTest s (.declareDynamic (some name) argHandler) name := by
          rintro (hsome | hroom)
          · rw [← testNamed_symbolTableInit, hnamed] at hsome
            cases hsome
          · exact hnew hroom
        unfold bltsConfigDeclareVariableTestDynamic at hrun
        simp only [htable, bind, Except.bind] at hrun
        split at hrun
        next test key td hfound =>
          obtain ⟨test', hlookup, hpair⟩ := Option.map_eq_some_iff.mp hfound
          obtain ⟨rfl, hentry⟩ := Prod.ext_iff.mp hpair
          rw [testNamed_eq_some hlookup (testAt_eq_some.mpr ⟨key, hentry⟩)] at hnamed
          cases hnamed
        next =>
          cases hrun
          exact .of_not_hasTest hnot

end

/-- **One call** in a reachable state. -/
theorem listsExact_iff {s s' : ConfigState} {c : Call} (hs : StateHas TableOk s) {ret : Int}
    (hcall : call s c = .ok (ret, s')) : ListsExact s c ↔ DeclaresOnce s c := by
  have ht : s.table = .unallocated ∨ TableOk s.table := by
    rcases hs with rfl | h
    · exact .inl rfl
    · exact .inr h
  have hrecords : ∀ name, c.target = some name → Records s c name ret s' := by
    intro name hname
    cases c with
    | load file => cases hname
    | free => cases hname
    | register name' func => cases hname
    | declare name' argHandler params =>
        obtain rfl : name' = some name := hname
        exact records_declare ht hs.loaded hcall
    | declareDynamic name' argHandler =>
        obtain rfl : name' = some name := hname
        exact records_declareDynamic ht hs.loaded hcall
  refine forall₂_congr fun name hname => ?_
  have hrec := hrecords name hname
  have hdet : (∀ ret s', call s c = .ok (ret, s') → ExactlyDeclared (callGroups s c) ret
        (paramLists s.table name) (paramLists s'.table name)) ↔
      ExactlyDeclared (callGroups s c) ret (paramLists s.table name)
        (paramLists s'.table name) := by
    constructor
    · exact fun h => h ret s' hcall
    · intro h ret' s₂ hcall'
      rw [hcall] at hcall'
      cases hcall'
      exact h
  rw [hdet]
  unfold Records at hrec
  by_cases hhas : HasTest s c name
  · rw [if_pos hhas] at hrec
    rw [hrec.1, hrec.2, exactlyDeclared_iff]
    exact ⟨fun h _ => h, fun h => h hhas⟩
  · rw [if_neg hhas] at hrec
    exact iff_of_true (.inl hrec) fun hhas' => absurd hhas' hhas

/--
**Tags and defaults.**  In every sequence of calls, every declaration leaves the
lists of its test as they were, or with exactly its own parameters if it
succeeds, if and only if every declaration finds the lists empty and rejects
nothing, or records nothing and, if it comes to reversing the lists, finds them
the same backwards.
-/
theorem declarations_exact (cs : List Call) :
    calls.Meets ListsExact .initial cs ↔ calls.Meets DeclaresOnce .initial cs := by
  refine calls.meets_congr (StateHas TableOk) ?_ cs (.inl rfl)
  intro s c s' hs hstep
  obtain ⟨ret, hcall⟩ := calls_step_eq_some.mp hstep
  exact ⟨fun _ => tableOk_keptByCalls.step hs hcall, listsExact_iff hs hcall⟩

/-- A test that is declared twice, the second time with a type that is none. -/
def declaredTwice : List Call :=
  [.declare (some "T") none [⟨some "v", .int 1⟩, ⟨some "w", .int 2⟩],
    .declare (some "T") none [⟨some "v", .int 1⟩, ⟨some "w", .invalid⟩]]

/-- The failing call leaves the tag that it accepted in front of the others. -/
theorem declarations_twice :
    (∃ s, calls.exec .initial declaredTwice = some s ∧
      paramLists s.table "T" = ⟨["v", "v", "w"], [.int 1, .int 1, .int 2]⟩) ∧
      ¬ calls.Meets ListsExact .initial declaredTwice := by
  have hrun : (calls.exec .initial declaredTwice).any (fun s =>
      paramLists s.table "T" = ⟨["v", "v", "w"], [.int 1, .int 1, .int 2]⟩) = true := by
    decide +kernel
  obtain ⟨s, hs, hlists⟩ := (Option.any_eq_true _ _).mp hrun
  refine ⟨⟨s, hs, of_decide_eq_true hlists⟩, fun hmeets => ?_⟩
  have honce : ¬ calls.Meets DeclaresOnce .initial declaredTwice := by decide +kernel
  obtain ⟨s₁, hstep₁, hrest⟩ := calls.exec_cons_eq_some hs
  obtain ⟨s₂, hstep₂, _⟩ := calls.exec_cons_eq_some hrest
  obtain ⟨hexact₁, hmeets₁⟩ := hmeets s₁ hstep₁
  obtain ⟨hexact₂, _⟩ := hmeets₁ s₂ hstep₂
  obtain ⟨ret₁, hcall₁⟩ := calls_step_eq_some.mp hstep₁
  obtain ⟨ret₂, hcall₂⟩ := calls_step_eq_some.mp hstep₂
  have hs₁ := tableOk_keptByCalls.step (.inl rfl) hcall₁
  apply honce
  intro s' hstep
  rw [hstep₁] at hstep
  cases hstep
  refine ⟨(listsExact_iff (.inl rfl) hcall₁).mp hexact₁, fun _ _ => ⟨?_, trivial⟩⟩
  exact (listsExact_iff hs₁ hcall₂).mp hexact₂

end Blts.Config
