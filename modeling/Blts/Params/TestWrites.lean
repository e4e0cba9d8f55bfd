import Blts.Params.ParamLists
import Blts.Params.VariantValues

/-!
# Writing to a test

Variants are generated from the settings of a test, the parameters and the
generators.  Writing anything else to a test, as the declarations do, changes
none of them (`generateTestVariations_modifyTest`).
-/

namespace Blts.Params

section

variable {t : SymbolTable} (h : TableOk t) (test : SymRef) (f : TestDef → TestDef)
include h

theorem settingParams_modifyTest :
    settingParams (t.modifyTest test f) = settingParams t := by
  funext setting
  cases setting with
  | paramlist syms => rfl
  | fix param value => rfl
  | pgroup ref =>
      unfold settingParams
      simp only [entry?_modifyTest h]
      by_cases heq : test = ref
      · rw [if_pos heq]
        cases t.entry? ref with
        | none => rfl
        | some e =>
            obtain ⟨key, data⟩ := e
            cases data <;> rfl
      · rw [if_neg heq]

theorem testParams_modifyTest (td : TestDef) :
    testParams (t.modifyTest test f) td = testParams t td := by
  unfold testParams
  rw [settingParams_modifyTest h]

theorem lookupEntry_modifyTest (name : String) :
    lookupEntry (t.modifyTest test f) name = (lookupEntry t name).map fun e =>
      if symbolTableLookup t name = some test then writeTest f e else e := by
  unfold lookupEntry
  rw [lookup_modifyTest h]
  cases symbolTableLookup t name with
  | none => rfl
  | some ref =>
      rw [Option.bind_some, Option.bind_some, entry?_modifyTest h]
      by_cases heq : test = ref
      · simp only [heq, if_true]
      · have hne : some ref ≠ some test := fun h => heq (Option.some.inj h).symm
        simp only [heq, hne, if_false, Option.map_id']

theorem generateVariations_modifyTest (gen : GenFuncs) (style : VariationStyle)
    (fuel : Nat) :
    generateVariations (t.modifyTest test f) gen style fuel =
      generateVariations t gen style fuel := by
  induction fuel with
  | zero => rfl
  | succ fuel ih =>
      funext sym
      unfold generateVariations
      rw [ih, entry?_modifyTest h]
      have hgenerated (fnName : String) (syms : List SymRef) :
          generateGeneratedVariations (t.modifyTest test f) gen
              (generateVariations t gen style fuel) fnName syms =
            generateGeneratedVariations t gen
              (generateVariations t gen style fuel) fnName syms := by
        unfold generateGeneratedVariations
        rw [lookupEntry_modifyTest h]
        cases lookupEntry t fnName with
        | none => rfl
        | some e =>
            obtain ⟨key, data⟩ := e
            by_cases hfound : symbolTableLookup t fnName = some test
            · simp only [hfound, if_true]
              cases data <;> rfl
            · simp only [hfound, if_false, Option.map_id']
      simp only [hgenerated]
      by_cases heq : test = sym
      · rw [if_pos heq]
        cases t.entry? sym with
        | none => rfl
        | some e =>
            obtain ⟨key, data⟩ := e
            cases data <;> rfl
      · rw [if_neg heq]

/-- Fixed values are found by the keys of the parameters. -/
theorem getFixedParamValue_modifyTest (p : TestParam) (fixedParams : List TestParam)
    (fixedValues : List BoxedValue) :
    getFixedParamValue (t.modifyTest test f) p fixedParams fixedValues =
      getFixedParamValue t p fixedParams fixedValues := by
  have hkey (ref : SymRef) : (SymbolTable.entry? (t.modifyTest test f) ref).map SymbolTableEntry.key =
      (t.entry? ref).map SymbolTableEntry.key := by
    rw [entry?_modifyTest h]
    split
    next => rw [Option.map_map]; rfl
    next => rfl
  have hloop (key : String) : ∀ (fixedParams : List TestParam)
      (fixedValues : List BoxedValue),
      fixedValueForKey (t.modifyTest test f) key fixedParams fixedValues =
        fixedValueForKey t key fixedParams fixedValues := by
    intro fixedParams
    induction fixedParams with
    | nil => exact fun _ => rfl
    | cons q fixedParams ih =>
        intro fixedValues
        cases fixedValues with
        | nil => rfl
        | cons v fixedValues =>
            have hq := hkey q.param
            unfold fixedValueForKey
            cases he : t.entry? q.param with
            | none =>
                rw [he] at hq
                rw [Option.map_eq_none_iff.mp hq]
            | some e =>
                rw [he] at hq
                obtain ⟨e', he', hsame⟩ := Option.map_eq_some_iff.mp hq
                rw [he']
                simp only [hsame, ih]
  have hp := hkey p.param
  unfold getFixedParamValue
  cases he : t.entry? p.param with
  | none =>
      rw [he] at hp
      rw [Option.map_eq_none_iff.mp hp]
  | some e =>
      rw [he] at hp
      obtain ⟨e', he', hsame⟩ := Option.map_eq_some_iff.mp hp
      rw [he']
      simp only [hsame, hloop]

theorem generateParamValues_modifyTest (gen : GenFuncs) (style : VariationStyle)
    (fuel : Nat) (fixedParams : List TestParam) (fixedValues : List BoxedValue)
    (params : List TestParam) :
    generateParamValues (t.modifyTest test f) gen style fuel fixedParams fixedValues params =
      generateParamValues t gen style fuel fixedParams fixedValues params := by
  induction params with
  | nil => rfl
  | cons p params ih =>
      unfold generateParamValues
      rw [getFixedParamValue_modifyTest h, generateVariations_modifyTest h, ih]

theorem collectSettings_modifyTest (settings : List TestSetting) :
    ∀ c, collectSettings (t.modifyTest test f) settings c = collectSettings t settings c := by
  induction settings with
  | nil => exact fun _ => rfl
  | cons setting settings ih =>
      intro c
      unfold collectSettings
      cases setting with
      | paramlist syms => exact ih _
      | fix param value =>
          cases value with
          | none => rfl
          | some v => exact ih _
      | pgroup ref =>
          simp only [entry?_modifyTest h, ih]
          by_cases heq : test = ref
          · rw [if_pos heq]
            cases t.entry? ref with
            | none => rfl
            | some e =>
                obtain ⟨key, data⟩ := e
                cases data <;> rfl
          · rw [if_neg heq]

/-- **Variants** are generated from the settings alone. -/
theorem generateTestVariations_modifyTest (hf : ∀ td, (f td).settings = td.settings)
    (gen : GenFuncs) (fuel : Nat) (name : String) (style : VariationStyle) :
    bltsConfigGenerateTestVariations (t.modifyTest test f) gen fuel name style =
      bltsConfigGenerateTestVariations t gen fuel name style := by
  have hcollect : collectTestParams (t.modifyTest test f) name = collectTestParams t name := by
    unfold collectTestParams
    simp only [collectSettings_modifyTest h, lookupEntry_modifyTest h]
    cases lookupEntry t name with
    | none => rfl
    | some e =>
        obtain ⟨key, data⟩ := e
        by_cases hfound : symbolTableLookup t name = some test
        · simp only [hfound, if_true]
          cases data with
          | test td => simp only [Option.map_some, writeTest, hf]
          | boxedValue value => rfl
          | param pd => rfl
          | pgroup syms => rfl
          | testset ts => rfl
          | generatorFn func => rfl
        · simp only [hfound, if_false, Option.map_id']
  unfold bltsConfigGenerateTestVariations
  simp only [hcollect, generateParamValues_modifyTest h]

end

end Blts.Params
