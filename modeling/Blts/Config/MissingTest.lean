import Blts.Config.NoConfig
import Blts.Config.ExactLists
import Blts.Params.VariantValues

/-!
# Declaring a test that the configuration does not define

A test module may declare more tests than the configuration has.  Such a test is
built from the declaration, as without a configuration, but the tags are checked
against the table first: a parameter that the configuration does not define is
refused (`-EINVAL`), and its default is never used.  So the declaration does
what it is for only if the configuration defines all of its parameters
(`missing_test`).
-/

namespace Blts.Config

open Blts.Lib Blts.Params

/-- The parameter that a name leads to, if it leads to one. -/
def paramNamed (t : SymbolTable) (tag : String) : Option SymRef :=
  (symbolTableLookup t tag).filter fun ref => (paramAt t ref).isSome

/-- The values that a declared parameter ranges over: those of the parameter of
that name, or else the one default. -/
def RangesOver (t : SymbolTable) (gen : GenFuncs) (p : DeclaredParam)
    (vs : List BoxedValue) : Prop :=
  ∃ tag, p.paramTag = some tag ∧
    match paramNamed t tag with
    | some ref => GeneratesValues t gen ref vs
    | none => ∃ val, declaredDefault p.value = some val ∧ vs = [val]

/-- Lists of values that have combinations, and for which there is room. -/
def Combinable (values : List (List BoxedValue)) : Prop :=
  (∀ vs ∈ values, vs ≠ []) ∧
    (values.map List.length).prod * values.length * sizeofUnsigned < 2 ^ 32

/-- The declaration succeeds, and the variants of the test are the combinations
of what its parameters range over. -/
def MixesDefaults (s : ConfigState) (name : String) (argHandler : Option FnRef)
    (params : List DeclaredParam) : Prop :=
  ∃ s', bltsConfigDeclareVariableTest s (some name) argHandler params = .ok (0, s') ∧
    ∀ gen values, List.Forall₂ (RangesOver s.table gen) params values →
      Combinable values →
      ∃ fuel variants, (∀ fuel' ≥ fuel, bltsConfigGenerateTestVariations s'.table gen
          fuel' name .combinations = .ok variants) ∧ AllCombinations values variants

/-- The name is new and there is room for the test, which has parameters, all of
known types and defined by the configuration. -/
def CanDeclare (t : SymbolTable) (name : String) (params : List DeclaredParam) : Prop :=
  symbolTableLookup t name = none ∧ t.top < symbolTableMax ∧ params ≠ [] ∧
    ∀ p ∈ params, p.value.box.isSome = true ∧
      ∃ tag, p.paramTag = some tag ∧ (paramNamed t tag).isSome = true

theorem paramNamed_eq_some {t : SymbolTable} {tag : String} {ref : SymRef} :
    paramNamed t tag = some ref ↔
      symbolTableLookup t tag = some ref ∧ (paramAt t ref).isSome = true := by
  unfold paramNamed
  rw [Option.filter_eq_some_iff]

theorem definedParam_iff {t : SymbolTable} {p : DeclaredParam} :
    DefinedParam t p ↔ p.value.box.isSome = true ∧
      ∃ tag, p.paramTag = some tag ∧ (paramNamed t tag).isSome = true := by
  unfold DefinedParam
  simp only [Option.isSome_iff_exists (x := paramNamed t _), paramNamed_eq_some]
  tauto

/-- A declaration of defined parameters, and what it leaves. -/
theorem declare_defined {s : ConfigState} (h : TableOk s.table) {name : String}
    (hnew : symbolTableLookup s.table name = none) (hroom : s.table.top < symbolTableMax)
    (argHandler : Option FnRef) {params : List DeclaredParam}
    (hparams : ∀ p ∈ params, DefinedParam s.table p) :
    ∃ t' refs, bltsConfigDeclareVariableTest s (some name) argHandler params =
        .ok (0, { s with table := t' }) ∧
      DeclaredNew s.table t' name params refs := by
  obtain ⟨names, hnames, hcard⟩ := exists_namesIn h
  have hinit := symbolTableInit_of_ok h
  have hinsert : NamesIn s.table (insert name names) := by
    intro key ref hlookup
    exact Finset.mem_insert_of_mem (hnames key ref hlookup)
  have hle : (insert name names).card ≤ symbolTableMax :=
    Nat.le_trans (Finset.card_insert_le _ _) (by omega)
  have hdeclarable : ∀ p ∈ params, p.paramTag ≠ some name ∧
      Declarable s.configLoadComplete s.table (insert name names) p := by
    intro p hp
    obtain ⟨hbox, tag, ref, htag, hlookup, hparam⟩ := hparams p hp
    obtain ⟨val, hval⟩ := Option.isSome_iff_exists.mp hbox
    refine ⟨?_, tag, val, htag, hval, hinsert tag ref hlookup, ?_, ?_⟩
    · intro hsame
      rw [hsame] at htag
      cases htag
      rw [hnew] at hlookup
      cases hlookup
    · intro hnone
      rw [hnone] at hlookup
      cases hlookup
    · intro ref' hlookup'
      rw [hlookup] at hlookup'
      cases hlookup'
      exact hparam
  obtain ⟨t', refs, hrun, _, hdeclared⟩ := declare_new (s := s) (hinit.symm ▸ h)
    (hinit.symm ▸ hnew) hle (hinit.symm ▸ hinsert) (Finset.mem_insert_self _ _)
    (fun _ => hinit) argHandler (hinit.symm ▸ hdeclarable)
  rw [hinit] at hdeclared
  exact ⟨t', refs, hrun, hdeclared⟩

/-- A declaration of defined parameters adds no name but that of the test. -/
theorem sameGenerators_of_defined {t t' : SymbolTable} {name : String}
    {params : List DeclaredParam} {refs : List SymRef}
    (hdeclared : DeclaredNew t t' name params refs)
    (hparams : ∀ p ∈ params, DefinedParam t p) : SameGenerators t t' := by
  intro key ref hnone href key' genFunc hentry
  by_cases heq : key = name
  · obtain ⟨td, htest, _⟩ := hdeclared.test
    rw [heq, hdeclared.lookup] at href
    cases href
    rw [testAt, hentry] at htest
    cases htest
  · obtain ⟨p, hp, val, htag, _⟩ := hdeclared.added key ref heq hnone href
    obtain ⟨_, tag, ref', htag', hlookup, _⟩ := hparams p hp
    rw [htag] at htag'
    cases htag'
    rw [hnone] at hlookup
    cases hlookup

/-- The parameters of the test are those of the configuration. -/
theorem generates_of_rangesOver {t t' : SymbolTable} (h : TableOk t) {gen : GenFuncs}
    {name : String} {params : List DeclaredParam} {refs : List SymRef}
    (hdeclared : DeclaredNew t t' name params refs)
    (hparams : ∀ p ∈ params, DefinedParam t p) {values : List (List BoxedValue)}
    (hvalues : List.Forall₂ (RangesOver t gen) params values) :
    List.Forall₂ (GeneratesValues t' gen) refs values := by
  have hsame := sameGenerators_of_defined hdeclared hparams
  have hleads := hdeclared.leads
  have hgrows := hdeclared.grows
  clear hdeclared
  induction hleads generalizing values with
  | nil =>
      cases hvalues
      exact .nil
  | @cons p ref params refs hp _ ih =>
      cases hvalues with
      | @cons _ vs _ values hvs hvalues =>
          refine .cons ?_ (ih (fun q hq => hparams q (by simp [hq])) hvalues)
          obtain ⟨tag, htag, hlookup, _⟩ := hp
          obtain ⟨_, tag', ref', htag', hbefore, hparam⟩ := hparams p (by simp)
          rw [htag] at htag'
          cases htag'
          have hafter := hgrows.lookup tag ref' hbefore
          rw [hlookup] at hafter
          cases hafter
          obtain ⟨tag', htag', hrange⟩ := hvs
          rw [htag] at htag'
          cases htag'
          rw [paramNamed_eq_some.mpr ⟨hbefore, hparam⟩] at hrange
          exact hrange.grows h hgrows hsame

/--
**Tests that are not in the configuration.**  In every state with a loaded
configuration, and for every test that is not in its table, the declaration
succeeds and the test ranges over the values of the configuration and the
defaults if and only if its name is new, there is room for it, and its
parameters, at least one and all of known types, are defined by the
configuration.
-/
theorem missing_test {cs : List Call} {s : ConfigState}
    (hrun : calls.exec .initial cs = some s) (hload : s.configLoadComplete = true)
    {name : String} (hundefined : ∀ ref, symbolTableLookup s.table name = some ref →
      testAt s.table ref = none) (argHandler : Option FnRef)
    (params : List DeclaredParam) :
    MixesDefaults s name argHandler params ↔ CanDeclare s.table name params := by
  have h : TableOk s.table := (tableOk_keptByCalls.reached hrun).loaded hload
  constructor
  · rintro ⟨s', hdeclare, hvariants⟩
    obtain ⟨hnew, hroom, hparams⟩ := defined_of_declare h hload hundefined hdeclare
    refine ⟨hnew, hroom, ?_, fun p hp => definedParam_iff.mp (hparams p hp)⟩
    -- without parameters there is no variant, where there should be one
    rintro rfl
    obtain ⟨t', refs, hrun', hdeclared⟩ :=
      declare_defined h hnew hroom argHandler hparams
    rw [hdeclare] at hrun'
    cases hrun'
    obtain ⟨fuel, variants, hgenerate, hall⟩ :=
      hvariants (fun _ _ => none) [] .nil ⟨by simp, by decide⟩
    have hgenerate := hgenerate fuel (Nat.le_refl _)
    obtain rfl : refs = [] := by
      cases hdeclared.leads
      rfl
    obtain ⟨td, htest, hsettings⟩ := hdeclared.test
    obtain ⟨key, hentry⟩ := testAt_eq_some.mp htest
    rw [show (variants = []) from by
      simp only [bltsConfigGenerateTestVariations, collectTestParams, lookupEntry,
        hdeclared.lookup, Option.bind_some, hentry, hsettings] at hgenerate
      simpa [singleSettings, bind, Except.bind, enoent, pure, Except.pure] using
        hgenerate.symm] at hall
    exact absurd hall.count (by decide)
  · rintro ⟨hnew, hroom, hne, hparams⟩
    have hdefined : ∀ p ∈ params, DefinedParam s.table p := fun p hp =>
      definedParam_iff.mpr (hparams p hp)
    obtain ⟨t', refs, hrun', hdeclared⟩ :=
      declare_defined h hnew hroom argHandler hdefined
    refine ⟨_, hrun', fun gen values hvalues hcombinable => ?_⟩
    obtain ⟨td, htest, hsettings⟩ := hdeclared.test
    have hrefs : refs ≠ [] := by
      rintro rfl
      exact hne (List.forall₂_nil_right_iff.mp hdeclared.leads)
    exact singleSettings_combinations hdeclared.grows.ok hdeclared.lookup htest
      hsettings hrefs (generates_of_rangesOver h hdeclared hdefined hvalues)
      hcombinable.1 hcombinable.2

/-- The sample configuration, without a test. -/
def loadSample : List Call :=
  [.load (.ok (generatedFromA.flatMap Item.tokens, false)), .register (some "f") 0]

/-- Its parameters can be declared for a test that it does not define. -/
theorem missing_test_defined :
    ∃ s, calls.exec .initial loadSample = some s ∧
      MixesDefaults s "T" none [⟨some "b", .int 0⟩, ⟨some "a", .int 5⟩] := by
  have hsome : (calls.exec .initial loadSample).any (fun s =>
      s.configLoadComplete = true ∧ symbolTableLookup s.table "T" = none ∧
        s.table.top < symbolTableMax ∧ (paramNamed s.table "b").isSome = true ∧
        (paramNamed s.table "a").isSome = true) = true := by
    decide +kernel
  obtain ⟨s, hrun, hs⟩ := (Option.any_eq_true _ _).mp hsome
  obtain ⟨hload, hnew, hroom, hb, ha⟩ := of_decide_eq_true hs
  refine ⟨s, hrun, (missing_test hrun hload ?_ none _).mpr ⟨hnew, hroom, by simp, ?_⟩⟩
  · intro ref href
    rw [hnew] at href
    cases href
  · intro p hp
    rcases List.mem_pair.mp hp with rfl | rfl
    · exact ⟨rfl, "b", rfl, hb⟩
    · exact ⟨rfl, "a", rfl, ha⟩

/-- With a parameter `c` that the configuration does not define the declaration
fails. -/
theorem missing_test_undefined :
    ∃ s, calls.exec .initial loadSample = some s ∧ s.configLoadComplete = true ∧
      symbolTableLookup s.table "T" = none ∧
      (∃ s', bltsConfigDeclareVariableTest s (some "T") none
        [⟨some "a", .int 0⟩, ⟨some "c", .int 5⟩] = .ok (-einval, s')) ∧
      ¬ MixesDefaults s "T" none [⟨some "a", .int 0⟩, ⟨some "c", .int 5⟩] := by
  have hsome : (calls.exec .initial loadSample).any (fun s =>
      s.configLoadComplete = true ∧ symbolTableLookup s.table "T" = none ∧
        (bltsConfigDeclareVariableTest s (some "T") none
          [⟨some "a", .int 0⟩, ⟨some "c", .int 5⟩]).toOption.map Prod.fst =
            some (-einval)) = true := by
    decide +kernel
  obtain ⟨s, hrun, hs⟩ := (Option.any_eq_true _ _).mp hsome
  obtain ⟨hload, hnew, hret⟩ := of_decide_eq_true hs
  cases hdeclare : bltsConfigDeclareVariableTest s (some "T") none
      [⟨some "a", .int 0⟩, ⟨some "c", .int 5⟩] with
  | error f =>
      rw [hdeclare] at hret
      cases hret
  | ok r =>
      rw [hdeclare] at hret
      obtain ⟨ret, s'⟩ := r
      obtain rfl : ret = -einval := Option.some.inj hret
      refine ⟨s, hrun, hload, hnew, ⟨s', hdeclare⟩, ?_⟩
      rintro ⟨_, hzero, _⟩
      rw [hdeclare] at hzero
      cases hzero

/-!
## Which values a handler is given

The parameters that a declaration lists and those that the `[test]` section
lists are never compared.  The values come in the order of the section, and the
declaration only decides where there is no section (`handler_values`).
-/

/-- The parameters of a declared test: those of its settings, if the
configuration has it, and those that its tags lead to otherwise. -/
def TakesParams (s s' : ConfigState) (name : String) (params : List DeclaredParam)
    (td : TestDef) : Prop :=
  match testNamed s.table name with
  | some td₀ => td.settings = td₀.settings
  | none => List.Forall₂ (LeadsTo s'.table) params (testParams s'.table td) ∧
      fixes td = []

/-- **A test after its declaration.** -/
theorem declared_test {s s' : ConfigState} (h : TableOk s.table)
    (hload : s.configLoadComplete = true) {name : String} {argHandler : Option FnRef}
    {params : List DeclaredParam}
    (hdeclare : bltsConfigDeclareVariableTest s (some name) argHandler params =
      .ok (0, s')) :
    TableOk s'.table ∧ ∃ td, testNamed s'.table name = some td ∧
      td.argHandler = argHandler ∧ TakesParams s s' name params td := by
  rcases declare_cases (.inr h) (fun _ => h) hdeclare with
    ⟨_, t, useDefaults, test, td, hprepared, hlookup, htest, hrun, hfound⟩ |
    ⟨_, hzero, _⟩
  · obtain ⟨hok, _, td', hnamed, hkept, _⟩ := declareTest_test hprepared hlookup htest hrun
    refine ⟨hok, td', hnamed, hkept.argHandler, ?_⟩
    unfold TakesParams
    cases hbefore : testNamed s.table name with
    | some td₀ =>
        obtain ⟨rfl, huse⟩ := hfound td₀ hbefore
        exact hkept.settings (by rw [huse, hload]; rfl)
    | none =>
        have hundefined : ∀ ref, symbolTableLookup s.table name = some ref →
            testAt s.table ref = none := by
          intro ref href
          rwa [testNamed, href, Option.bind_some] at hbefore
        obtain ⟨hnew, hroom, hdefined⟩ := defined_of_declare h hload hundefined hdeclare
        obtain ⟨t', refs, hrun', hdeclared⟩ :=
          declare_defined h hnew hroom argHandler hdefined
        rw [hdeclare] at hrun'
        cases hrun'
        obtain ⟨td₁, htest₁, hsettings⟩ := hdeclared.test
        rw [testNamed_eq_some hdeclared.lookup htest₁] at hnamed
        cases hnamed
        rw [testParams_singleSettings hsettings, fixes_singleSettings hsettings]
        exact ⟨hdeclared.leads, rfl⟩
  · exact absurd rfl hzero

/-- A configuration with the parameters `a` and `b`, and a test that takes them
in the other order. -/
def swappedSection : List Call :=
  [.load (.ok ([Item.param "a" (.const (.long 1) []), .param "b" (.const (.long 2) []),
    .test "T" false [.params ["b", "a"]]].flatMap Item.tokens, false))]

/-- The declaration of that test with `a` first. -/
def declareAB : List DeclaredParam :=
  [⟨some "a", .long 0⟩, ⟨some "b", .long 0⟩]

/-- The state with the configuration, and the one after the declaration. -/
theorem swapped_run :
    ∃ s s', calls.exec .initial swappedSection = some s ∧ s.configLoadComplete = true ∧
      bltsConfigDeclareVariableTest s (some "T") (some 7) declareAB = .ok (0, s') ∧
      (testNamed s'.table "T").map (testParams s'.table) = some [1, 0] ∧
      paramNamed s'.table "a" = some 0 ∧
      generateVariations s'.table (fun _ _ => none) .combinations 1 0 = .ok [.long 1] ∧
      bltsConfigGenerateTestVariations s'.table (fun _ _ => none) 1 "T" .combinations =
        .ok [[.long 2, .long 1]] ∧
      bltsConfigMutateUserParams s'.table "T" [.long 2, .long 1] =
        some (.argHandler 7 [.long 2, .long 1]) := by
  have hsome : (calls.exec .initial swappedSection).any (fun s =>
      s.configLoadComplete = true ∧
        (bltsConfigDeclareVariableTest s (some "T") (some 7) declareAB).toOption.any
          (fun r => r.1 = 0 ∧
            (testNamed r.2.table "T").map (testParams r.2.table) = some [1, 0] ∧
            paramNamed r.2.table "a" = some 0 ∧
            generateVariations r.2.table (fun _ _ => none) .combinations 1 0 =
              .ok [.long 1] ∧
            bltsConfigGenerateTestVariations r.2.table (fun _ _ => none) 1 "T"
              .combinations = .ok [[.long 2, .long 1]] ∧
            bltsConfigMutateUserParams r.2.table "T" [.long 2, .long 1] =
              some (.argHandler 7 [.long 2, .long 1])) = true) = true := by
    decide +kernel
  obtain ⟨s, hrun, hs⟩ := (Option.any_eq_true _ _).mp hsome
  obtain ⟨hload, hany⟩ := of_decide_eq_true hs
  obtain ⟨⟨ret, s'⟩, hok, hs'⟩ := (Option.any_eq_true _ _).mp hany
  obtain ⟨rfl, htest, hparam, hvalues, hgen, hmutate⟩ := of_decide_eq_true hs'
  refine ⟨s, s', hrun, hload, ?_, htest, hparam, hvalues, hgen, hmutate⟩
  cases hdeclare : bltsConfigDeclareVariableTest s (some "T") (some 7) declareAB with
  | error f =>
      rw [hdeclare] at hok
      cases hok
  | ok r =>
      rw [hdeclare] at hok
      cases hok
      rfl

end Blts.Config
