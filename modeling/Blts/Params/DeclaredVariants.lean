import Blts.Params.DeclareSpec
import Blts.Params.GeneratedOrder
import Blts.Params.TestVariations

/-!
# The variants of a test that was built by its declaration

Such a test has one setting for every parameter and fixes no values, so that
its variants are the combinations of what `generate_variations` makes of the
parameters.  Where every parameter has one value, there is one variant.
-/

namespace Blts.Params

variable {t : SymbolTable} {gen : GenFuncs}

/-- `vs` are the values of a parameter. -/
def GeneratesValues (t : SymbolTable) (gen : GenFuncs) (ref : SymRef)
    (vs : List BoxedValue) : Prop :=
  (paramAt t ref).isSome = true ∧
    ∃ fuel, generateVariations t gen .combinations fuel ref = .ok vs

/-- A default is the one value of its parameter. -/
theorem generatesValues_default {ref : SymRef} {val : BoxedValue}
    (h : paramAt t ref = some (defaultParam val)) : GeneratesValues t gen ref [val] := by
  obtain ⟨key, hentry⟩ := paramAt_eq_some.mp h
  refine ⟨by rw [h]; rfl, 1, ?_⟩
  unfold generateVariations
  rw [hentry]
  rfl

@[simp] theorem fixes_singleSettings {td : TestDef} {refs : List SymRef}
    (h : td.settings = singleSettings refs) : fixes td = [] := by
  unfold fixes
  rw [h]
  simp [singleSettings, settingFix, Function.comp_def]

@[simp] theorem testParams_singleSettings {td : TestDef} {refs : List SymRef}
    (h : td.settings = singleSettings refs) : testParams t td = refs := by
  unfold testParams
  rw [h]
  simp [singleSettings, settingParams, List.flatMap_map]

/-- **The variants** of a test with one setting for every parameter. -/
theorem singleSettings_combinations (h : TableOk t) {name : String} {ref : SymRef}
    (hlookup : symbolTableLookup t name = some ref) {td : TestDef}
    (htest : testAt t ref = some td) {refs : List SymRef}
    (hsettings : td.settings = singleSettings refs) (hrefs : refs ≠ [])
    {values : List (List BoxedValue)}
    (hvalues : List.Forall₂ (GeneratesValues t gen) refs values)
    (hne : ∀ vs ∈ values, vs ≠ [])
    (hbound : (values.map List.length).prod * values.length * sizeofUnsigned < 2 ^ 32) :
    ∃ fuel variants, (∀ fuel', fuel ≤ fuel' →
        bltsConfigGenerateTestVariations t gen fuel' name .combinations = .ok variants) ∧
      AllCombinations values variants := by
  obtain ⟨key, hentry⟩ := testAt_eq_some.mp htest
  obtain ⟨e, he, hkey⟩ := h.entry?_of_lookup hlookup
  rw [hentry] at he
  cases he
  obtain rfl : key = name := hkey
  apply testVariations_combinations t gen key td values
  · rw [lookupEntry, hlookup, Option.bind_some, hentry]
  · rw [hsettings]
    simpa [singleSettings] using hrefs
  · rw [hsettings]
    intro s hs
    obtain ⟨ref', _, rfl⟩ := List.mem_map.mp hs
    trivial
  · rw [testParams_singleSettings hsettings, fixes_singleSettings hsettings]
    refine hvalues.imp ?_
    rintro ref' vs ⟨hparam, hfuel⟩
    obtain ⟨pd, hpd⟩ := Option.isSome_iff_exists.mp hparam
    obtain ⟨key', hentry'⟩ := paramAt_eq_some.mp hpd
    exact ⟨key', pd, hentry', hfuel⟩
  · exact hne
  · exact hbound

/-- The combinations of single values are one. -/
theorem AllCombinations.singletons {row : List BoxedValue}
    {variants : List (List BoxedValue)}
    (h : AllCombinations (row.map fun v => [v]) variants) : variants = [row] := by
  have hlength : variants.length = 1 := by
    rw [h.count]
    simp [Function.comp_def]
  obtain ⟨variant, rfl⟩ := List.length_eq_one_iff.mp hlength
  obtain ⟨_, hcells⟩ := h.row 0 variant rfl
  congr 1
  apply List.ext_getElem?
  intro j
  cases hj : row[j]? with
  | some v =>
      have hcell := hcells j [v] (by rw [List.getElem?_map, hj]; rfl)
      simpa using hcell
  | none =>
      obtain ⟨hlen, _⟩ := h.row 0 variant rfl
      rw [List.length_map] at hlen
      rw [List.getElem?_eq_none_iff] at hj ⊢
      omega

/-! ## Values that were there before -/

/-- Every generator that a name leads to was there before. -/
def SameGenerators (t t' : SymbolTable) : Prop :=
  ∀ key ref, symbolTableLookup t key = none → symbolTableLookup t' key = some ref →
    ∀ key' genFunc, t'.entry? ref ≠ some ⟨key', .generatorFn genFunc⟩

/-- Which generator a name leads to does not change. -/
theorem generateGeneratedVariations_grows {t' : SymbolTable} (h : TableOk t)
    (hgrows : Grows t.top t t') (hsame : SameGenerators t t')
    {f g : SymRef → Except Fault (List BoxedValue)} {syms : List SymRef}
    (hfg : ∀ sym ∈ syms, f sym = g sym) (fnName : String) :
    generateGeneratedVariations t' gen f fnName syms =
      generateGeneratedVariations t gen g fnName syms := by
  unfold generateGeneratedVariations lookupEntry
  cases hlookup : symbolTableLookup t fnName with
  | some ref =>
      have hlt := h.lt_top_of_lookup hlookup
      rw [hgrows.lookup fnName ref hlookup, Option.bind_some, Option.bind_some,
        hgrows.entry ref hlt (Nat.ne_of_lt hlt)]
      simp only [generatorParams_congr hfg]
  | none =>
      rw [Option.bind_none]
      split
      next key genFunc hentry =>
        obtain ⟨ref, href, hgen⟩ := Option.bind_eq_some_iff.mp hentry
        exact absurd hgen (hsame fnName ref hlookup href key genFunc)
      next => rfl

/-- **The values of what was in the table** are the same after a declaration. -/
theorem generateVariations_grows {t' : SymbolTable} (h : TableOk t)
    (hgrows : Grows t.top t t') (hsame : SameGenerators t t') (style : VariationStyle)
    (fuel : Nat) : ∀ sym < t.top, generateVariations t' gen style fuel sym =
      generateVariations t gen style fuel sym := by
  induction fuel with
  | zero => exact fun _ _ => rfl
  | succ fuel ih =>
      intro sym hsym
      rw [generateVariations, generateVariations,
        hgrows.entry sym hsym (Nat.ne_of_lt hsym)]
      split
      next key pd hentry =>
        split
        next => rfl
        next => rfl
        next fnName syms hargs =>
          apply generateGeneratedVariations_grows h hgrows hsame
          intro ref href
          exact ih ref (Nat.lt_trans (h.below.refs hentry hargs ref href) hsym)
      next => rfl

theorem GeneratesValues.grows {t' : SymbolTable} (h : TableOk t)
    (hgrows : Grows t.top t t') (hsame : SameGenerators t t') {ref : SymRef}
    {vs : List BoxedValue} (hvs : GeneratesValues t gen ref vs) :
    GeneratesValues t' gen ref vs := by
  obtain ⟨hparam, fuel, hrun⟩ := hvs
  obtain ⟨pd, hpd⟩ := Option.isSome_iff_exists.mp hparam
  have hlt := paramAt_lt_top h hpd
  refine ⟨?_, fuel, ?_⟩
  · rw [hgrows.paramAt_eq hlt (Nat.ne_of_lt hlt)]
    exact hparam
  · rw [generateVariations_grows h hgrows hsame .combinations fuel ref hlt, hrun]

end Blts.Params
