import Blts.Params.VariantIndexes

/-!
# All passes of a run

The passes that a run makes over lists of parameters, in their order and up to a fault:
first those over the arguments of generators, then the one over the parameters of the test.  No
index is out of bounds exactly if the symbol table tells a value for each of the parameters, in
every pass whose rows are read (`passes_inBounds_iff`).
-/

namespace Blts.Params

/-- A list of parameters with their values, and the values that are fixed for them. -/
structure Pass where
  fixedParams : List TestParam
  fixedValues : List BoxedValue
  params : List TestParam

/-- The number of values that the symbol table tells for a parameter. -/
def Pass.count (table : SymbolTable) (style : VariationStyle) (fuel : Nat) (pass : Pass)
    (p : TestParam) : Nat :=
  match getFixedParamValue table p pass.fixedParams pass.fixedValues with
  | .ok (some _) => 1
  | _ => valueCount table style fuel p.param

def Pass.counts (table : SymbolTable) (style : VariationStyle) (fuel : Nat) (pass : Pass) :
    List Nat :=
  pass.params.map (pass.count table style fuel)

section Passes

variable (table : SymbolTable) (gen : GenFuncs) (style : VariationStyle)

/-- The passes for the arguments of a generator, and the one over them. -/
def argPasses (generate : SymRef → Except Fault (List BoxedValue))
    (passes : SymRef → List Pass) : List SymRef → List TestParam → List Pass
  | [], params => [⟨[], [], params.reverse⟩]
  | sym :: syms, params =>
      passes sym ++
        match generate sym with
        | .error _ => []
        | .ok values => argPasses generate passes syms (⟨sym, values⟩ :: params)

/-- The passes of `generate_variations`. -/
def symPasses : Nat → SymRef → List Pass
  | 0, _ => []
  | fuel + 1, sym =>
      match table.entry? sym with
      | some { data := .param definition, .. } =>
          match definition.args with
          | .generated fnName syms =>
              match lookupEntry table fnName with
              | some { data := .generatorFn _, .. } =>
                  argPasses (generateVariations table gen style fuel) (symPasses fuel) syms []
              | _ => []
          | _ => []
      | _ => []

/-- The passes for the parameters of a test. -/
def paramPasses (fuel : Nat) (fixedParams : List TestParam) (fixedValues : List BoxedValue) :
    List TestParam → List Pass
  | [] => []
  | p :: params =>
      match getFixedParamValue table p fixedParams fixedValues with
      | .error _ => []
      | .ok (some _) => paramPasses fuel fixedParams fixedValues params
      | .ok none =>
          symPasses table gen style fuel p.param ++
            match generateVariations table gen style fuel p.param with
            | .error _ => []
            | .ok _ => paramPasses fuel fixedParams fixedValues params

/-- The pass over the parameters of the test; there is none for all pairs. -/
def lastPass (fuel : Nat) (c : CollectedParams) : List Pass :=
  if style = .allpairs then []
  else
    match generateParamValues table gen style fuel c.fixedParams c.fixedParamValues
        c.testParams with
    | .error _ => []
    | .ok params => [⟨c.fixedParams, c.fixedParamValues, params⟩]

/-- The passes of `blts_config_generate_test_variations`. -/
def testPasses (fuel : Nat) (testname : String) : List Pass :=
  match collectTestParams table testname with
  | .error _ => []
  | .ok (ret, c) =>
      if ret ≠ 0 then []
      else
        paramPasses table gen style fuel c.fixedParams c.fixedParamValues c.testParams ++
          lastPass table gen style fuel c

end Passes

variable {table : SymbolTable} {gen : GenFuncs} {style : VariationStyle}

/-! ## The values in a pass -/

/-- The values are one that is fixed, or those that `generate_variations` has returned. -/
def Pass.Made (table : SymbolTable) (gen : GenFuncs) (style : VariationStyle) (fuel : Nat)
    (pass : Pass) : Prop :=
  ∀ p ∈ pass.params,
    match getFixedParamValue table p pass.fixedParams pass.fixedValues with
    | .ok (some _) => p.values.length = 1
    | _ => ∃ m, m ≤ fuel ∧ generateVariations table gen style m p.param = .ok p.values

theorem Pass.Made.mono {fuel fuel' : Nat} {pass : Pass} (h : pass.Made table gen style fuel)
    (hle : fuel ≤ fuel') : pass.Made table gen style fuel' := by
  intro p hp
  have hmade := h p hp
  split
  next hfixed =>
    rw [hfixed] at hmade
    exact hmade
  next hfree =>
    split at hmade
    next hfixed => exact absurd hfixed (hfree _)
    next =>
      obtain ⟨m, hm, hvalues⟩ := hmade
      exact ⟨m, hm.trans hle, hvalues⟩

/-- The table tells how many values there are. -/
theorem Pass.Made.counts {fuel : Nat} {pass : Pass} (h : pass.Made table gen style fuel) :
    valueCounts pass.params = pass.counts table style fuel := by
  refine List.map_congr_left fun p hp => ?_
  have hmade := h p hp
  unfold Pass.count
  split
  next hfixed =>
    rw [hfixed] at hmade
    exact hmade
  next hfree =>
    split at hmade
    next hfixed => exact absurd hfixed (hfree _)
    next =>
      obtain ⟨m, hm, hvalues⟩ := hmade
      exact length_generateVariations fuel (generateVariations_mono hm hvalues)

theorem argPasses_made {fuel : Nat} {passes : SymRef → List Pass}
    (hpasses : ∀ sym, ∀ pass ∈ passes sym, pass.Made table gen style fuel)
    (syms : List SymRef) : ∀ {params : List TestParam},
      (∀ p ∈ params, generateVariations table gen style fuel p.param = .ok p.values) →
      ∀ pass ∈ argPasses (generateVariations table gen style fuel) passes syms params,
        pass.Made table gen style fuel := by
  induction syms with
  | nil =>
      intro params hparams pass hpass p hp
      rw [argPasses, List.mem_singleton] at hpass
      subst hpass
      have hfree : getFixedParamValue table p [] [] = .ok none := if_pos (.inl rfl)
      rw [hfree]
      exact ⟨fuel, le_refl _, hparams p (List.mem_reverse.mp hp)⟩
  | cons sym syms ih =>
      intro params hparams pass hpass
      rw [argPasses, List.mem_append] at hpass
      rcases hpass with hpass | hpass
      · exact hpasses sym pass hpass
      · cases hvalues : generateVariations table gen style fuel sym with
        | error f =>
            rw [hvalues] at hpass
            cases hpass
        | ok values =>
            rw [hvalues] at hpass
            refine ih (fun p hp => ?_) pass hpass
            rcases List.mem_cons.mp hp with rfl | hp
            · exact hvalues
            · exact hparams p hp

theorem symPasses_made (fuel : Nat) : ∀ sym, ∀ pass ∈ symPasses table gen style fuel sym,
    pass.Made table gen style fuel := by
  induction fuel with
  | zero => exact fun sym pass hpass => absurd hpass List.not_mem_nil
  | succ fuel ih =>
      intro sym pass hpass
      unfold symPasses at hpass
      split at hpass
      next =>
        split at hpass
        next syms _ =>
          split at hpass
          next =>
            exact (argPasses_made ih syms (fun p hp => absurd hp List.not_mem_nil) pass
              hpass).mono (Nat.le_succ fuel)
          next => cases hpass
        next => cases hpass
      next => cases hpass

theorem paramPasses_made {fuel : Nat} {fixedParams : List TestParam}
    {fixedValues : List BoxedValue} (params : List TestParam) :
    ∀ pass ∈ paramPasses table gen style fuel fixedParams fixedValues params,
      pass.Made table gen style fuel := by
  induction params with
  | nil => exact fun pass hpass => absurd hpass List.not_mem_nil
  | cons p params ih =>
      intro pass hpass
      unfold paramPasses at hpass
      split at hpass
      next => cases hpass
      next => exact ih pass hpass
      next =>
        rcases List.mem_append.mp hpass with hpass | hpass
        · exact symPasses_made fuel p.param pass hpass
        · split at hpass
          next => cases hpass
          next => exact ih pass hpass

/-- The values of the parameters of the test. -/
theorem generateParamValues_made {fuel : Nat} {fixedParams : List TestParam}
    {fixedValues : List BoxedValue} (params : List TestParam) :
    ∀ {nodes : List TestParam},
      generateParamValues table gen style fuel fixedParams fixedValues params = .ok nodes →
      Pass.Made table gen style fuel ⟨fixedParams, fixedValues, nodes⟩ := by
  induction params with
  | nil =>
      intro nodes h
      cases h
      exact fun p hp => absurd hp List.not_mem_nil
  | cons p params ih =>
      intro nodes h
      obtain ⟨fixed, hfixed, h⟩ := exists_of_bind_eq_ok h
      have hsame : ∀ values, getFixedParamValue table { p with values := values } fixedParams
          fixedValues = .ok fixed := fun _ => hfixed
      cases fixed with
      | some v =>
          obtain ⟨values, hvalues, h⟩ := exists_of_bind_eq_ok h
          obtain ⟨rest, hrest, h⟩ := exists_of_bind_eq_ok h
          cases h
          cases hvalues
          intro q hq
          rcases List.mem_cons.mp hq with rfl | hq
          · rw [hsame]
            rfl
          · exact ih hrest q hq
      | none =>
          obtain ⟨values, hvalues, h⟩ := exists_of_bind_eq_ok h
          obtain ⟨rest, hrest, h⟩ := exists_of_bind_eq_ok h
          cases h
          intro q hq
          rcases List.mem_cons.mp hq with rfl | hq
          · rw [hsame]
            exact ⟨fuel, le_refl _, hvalues⟩
          · exact ih hrest q hq

theorem testPasses_made {fuel : Nat} {testname : String} :
    ∀ pass ∈ testPasses table gen style fuel testname, pass.Made table gen style fuel := by
  intro pass hpass
  unfold testPasses at hpass
  split at hpass
  next => cases hpass
  next c _ =>
    split at hpass
    next => cases hpass
    next =>
      rcases List.mem_append.mp hpass with hpass | hpass
      · exact paramPasses_made _ pass hpass
      · unfold lastPass at hpass
        split at hpass
        next => cases hpass
        next =>
          split at hpass
          next => cases hpass
          next params hparams =>
            rw [List.mem_singleton] at hpass
            subst hpass
            exact generateParamValues_made _ hparams

/--
**No index is out of bounds** in a run exactly if every parameter of every pass has a value by
the symbol table, or the pass reads no row: their number wraps around to zero, or an array is
overrun before.
-/
theorem passes_inBounds_iff (table : SymbolTable) (gen : GenFuncs) (style : VariationStyle)
    (fuel : Nat) (testname : String) :
    (∀ pass ∈ testPasses table gen style fuel testname, IndexesInBounds pass.params) ↔
      ∀ pass ∈ testPasses table gen style fuel testname,
        Indexable (pass.counts table style fuel) := by
  refine forall₂_congr fun pass hpass => ?_
  rw [indexesInBounds_iff, (testPasses_made pass hpass).counts]

/-! ## What stops a run -/

/-- No block is read or written past its end. -/
def InBlocks {α : Type} (x : Except Fault α) : Prop := x ≠ .error .outOfBounds

theorem inBlocks_ok {α : Type} {a : α} : InBlocks (.ok a : Except Fault α) :=
  fun h => by cases h

theorem InBlocks.bind {α β : Type} {x : Except Fault α} {f : α → Except Fault β}
    (hx : InBlocks x) (hf : ∀ a, x = .ok a → InBlocks (f a)) : InBlocks (x >>= f) := by
  cases x with
  | error e =>
      intro h
      have herror : (.error e : Except Fault β) = .error .outOfBounds := h
      cases herror
      exact hx rfl
  | ok a => exact hf a rfl

theorem variantValues_ok {perms : VarPermuteTable} {values : List (List BoxedValue)} {i : Nat}
    (count : Nat) : ∀ {j : Nat} {work : List BoxedValue},
      (∀ k, j ≤ k → k < j + count → ∃ index,
        perms.permutations.read ((i * perms.nVariables + k) % uintMod) = .ok index ∧
          index < (values[k]?.getD []).length) →
      ∃ row, variantValues perms values i count j work = .ok row := by
  induction count with
  | zero => exact fun _ => ⟨_, rfl⟩
  | succ count ih =>
      intro j work h
      obtain ⟨index, hread, hlt⟩ := h j (le_refl j) (by omega)
      rw [variantValues, hread]
      simp only [bind, Except.bind, List.getElem?_eq_getElem hlt]
      exact ih fun k hjk hk => h k (by omega) (by omega)

theorem variantsFrom_ok {perms : VarPermuteTable} {values : List (List BoxedValue)}
    (count : Nat) : ∀ {i : Nat} {varlist : List (List BoxedValue)},
      (∀ k, i ≤ k → k < i + count →
        ∃ row, variantValues perms values k perms.nVariables 0 [] = .ok row) →
      ∃ rows, variantsFrom perms values count i varlist = .ok rows := by
  induction count with
  | zero => exact fun _ => ⟨_, rfl⟩
  | succ count ih =>
      intro i varlist h
      obtain ⟨row, hrow⟩ := h i (le_refl i) (by omega)
      rw [variantsFrom, hrow]
      exact ih fun k hik hk => h k (by omega) (by omega)

/-- A pass whose indices are in bounds makes the variants. -/
theorem permutationVariants_ok {params : List TestParam} (hover : ¬ Overruns (valueCounts params))
    (hbounds : IndexesInBounds params) : ∃ variants, permutationVariants params = .ok variants := by
  obtain ⟨perms, hperms, hvars, -⟩ := generatePermutationTable_ok params hover
  have hvalues : ∀ j n : Nat, (testParamListFlatten params).nValues[j]? = some n →
      ((testParamListFlatten params).values[j]?.getD []).length = n := by
    intro j n hn
    simp only [testParamListFlatten, List.getElem?_map] at hn ⊢
    cases hp : (params.take (params.length % uintMod))[j]? with
    | none =>
        rw [hp] at hn
        cases hn
    | some p =>
        rw [hp] at hn
        cases hn
        rw [Option.map_some, Option.getD_some, List.length_take,
          Nat.min_eq_left (Nat.mod_le _ _)]
  have hrows : ∃ rows, variantsFrom perms (testParamListFlatten params).values
      perms.nPermutations 0 [] = .ok rows := by
    refine variantsFrom_ok _ fun i _ hi => variantValues_ok _ fun j _ hj => ?_
    obtain ⟨index, n, hread, hn, hlt⟩ := hbounds perms hperms i j (by omega) (by omega)
    exact ⟨index, hread, by rw [hvalues j n hn]; exact hlt⟩
  obtain ⟨rows, hrows⟩ := hrows
  refine ⟨rows.reverse, ?_⟩
  rw [permutationVariants, hperms]
  simp only [bind, Except.bind, generatePermutationVariants, hrows]
  rfl

/-- Good passes. -/
def PassesInBounds (passes : List Pass) : Prop :=
  ∀ pass ∈ passes, IndexesInBounds pass.params ∧ ¬ Overruns (valueCounts pass.params)

theorem inBlocks_generateConstlistVariations {source : Option (List BoxedValue)} :
    InBlocks (generateConstlistVariations source style) := by
  cases source with
  | none => exact fun h => by cases h
  | some values => cases style <;> exact inBlocks_ok

theorem inBlocks_generateRangeVariations {low high : Option BoxedValue} :
    InBlocks (generateRangeVariations low high style) := by
  cases low with
  | none => cases style <;> exact fun h => by cases h
  | some low => cases style <;> exact inBlocks_ok

theorem inBlocks_callGenFunc {genFunc : List BoxedValue → Option BoxedValue}
    (variants : List (List BoxedValue)) :
    ∀ {list : List BoxedValue}, InBlocks (callGenFunc genFunc variants list) := by
  induction variants with
  | nil => exact inBlocks_ok
  | cons values variants ih =>
      intro list
      unfold callGenFunc
      split
      next => exact fun h => by cases h
      next => exact ih

theorem inBlocks_generatorParams {generate : SymRef → Except Fault (List BoxedValue)}
    {passes : SymRef → List Pass}
    (hgenerate : ∀ sym, PassesInBounds (passes sym) → InBlocks (generate sym))
    (syms : List SymRef) : ∀ {params : List TestParam},
      PassesInBounds (argPasses generate passes syms params) →
      InBlocks (generatorParams generate syms params) := by
  induction syms with
  | nil => exact fun _ => inBlocks_ok
  | cons sym syms ih =>
      intro params h
      rw [argPasses] at h
      refine (hgenerate sym fun pass hpass => h pass (List.mem_append_left _ hpass)).bind
        fun values hvalues => ih ?_
      rw [hvalues] at h
      exact fun pass hpass => h pass (List.mem_append_right _ hpass)

/-- The last pass for a generator is over its arguments. -/
theorem last_mem_argPasses {generate : SymRef → Except Fault (List BoxedValue)}
    {passes : SymRef → List Pass} (syms : List SymRef) :
    ∀ {acc params : List TestParam}, generatorParams generate syms acc = .ok params →
      ⟨[], [], params.reverse⟩ ∈ argPasses generate passes syms acc := by
  induction syms with
  | nil =>
      intro acc params h
      cases h
      exact List.mem_singleton_self _
  | cons sym syms ih =>
      intro acc params h
      obtain ⟨values, hvalues, h⟩ := exists_of_bind_eq_ok h
      rw [argPasses, hvalues]
      exact List.mem_append_right _ (ih h)

theorem inBlocks_generateVariations (fuel : Nat) : ∀ {sym : SymRef},
    PassesInBounds (symPasses table gen style fuel sym) →
      InBlocks (generateVariations table gen style fuel sym) := by
  induction fuel with
  | zero => exact fun _ h => by cases h
  | succ fuel ih =>
      intro sym h
      unfold generateVariations
      unfold symPasses at h
      split
      next key definition hentry =>
        rw [hentry] at h
        dsimp only at h
        split
        next => exact inBlocks_generateConstlistVariations
        next => exact inBlocks_generateRangeVariations
        next fnName syms hargs =>
          rw [hargs] at h
          unfold generateGeneratedVariations
          dsimp only at h
          split
          next hfn =>
            rw [hfn] at h
            refine (inBlocks_generatorParams (fun sym => ih) syms h).bind
              fun params hparams => ?_
            obtain ⟨hbounds, hover⟩ := h _ (last_mem_argPasses syms hparams)
            obtain ⟨variants, hvariants⟩ := permutationVariants_ok hover hbounds
            rw [hvariants]
            exact (inBlocks_callGenFunc variants).bind fun _ _ => inBlocks_ok
          next => exact inBlocks_ok
      next => exact inBlocks_ok

theorem inBlocks_fixedValueForKey {key : String} (fixedParams : List TestParam) :
    ∀ {fixedValues : List BoxedValue},
      InBlocks (fixedValueForKey table key fixedParams fixedValues) := by
  induction fixedParams with
  | nil => exact inBlocks_ok
  | cons p fixedParams ih =>
      intro fixedValues
      cases fixedValues with
      | nil => exact inBlocks_ok
      | cons v fixedValues =>
          unfold fixedValueForKey
          split
          next => exact fun h => by cases h
          next =>
            split
            · exact inBlocks_ok
            · exact ih

theorem inBlocks_getFixedParamValue {p : TestParam} {fixedParams : List TestParam}
    {fixedValues : List BoxedValue} :
    InBlocks (getFixedParamValue table p fixedParams fixedValues) := by
  unfold getFixedParamValue
  split
  next => exact inBlocks_ok
  next =>
    split
    next => exact fun h => by cases h
    next => exact inBlocks_fixedValueForKey fixedParams

theorem inBlocks_generateParamValues {fuel : Nat} {fixedParams : List TestParam}
    {fixedValues : List BoxedValue} (params : List TestParam)
    (h : PassesInBounds (paramPasses table gen style fuel fixedParams fixedValues params)) :
    InBlocks (generateParamValues table gen style fuel fixedParams fixedValues params) := by
  induction params with
  | nil => exact inBlocks_ok
  | cons p params ih =>
      unfold generateParamValues
      refine inBlocks_getFixedParamValue.bind fun fixed hfixed => ?_
      rw [paramPasses, hfixed] at h
      cases fixed with
      | some v => exact (ih h).bind fun _ _ => inBlocks_ok
      | none =>
          refine (inBlocks_generateVariations fuel fun pass hpass =>
            h pass (List.mem_append_left _ hpass)).bind fun values hvalues => ?_
          rw [hvalues] at h
          exact (ih fun pass hpass => h pass (List.mem_append_right _ hpass)).bind
            fun _ _ => inBlocks_ok

theorem inBlocks_collectSettings (settings : List TestSetting) :
    ∀ {c : CollectedParams}, InBlocks (collectSettings table settings c) := by
  induction settings with
  | nil => exact inBlocks_ok
  | cons s settings ih =>
      intro c
      cases s with
      | paramlist params => exact ih
      | pgroup ref =>
          unfold collectSettings
          split
          next => exact fun h => by cases h
          next => exact ih
          next => exact fun h => by cases h
      | fix param value =>
          cases value with
          | none => exact fun h => by cases h
          | some v => exact ih

theorem inBlocks_collectTestParams {testname : String} :
    InBlocks (collectTestParams table testname) := by
  unfold collectTestParams
  split
  next =>
    split
    next => exact inBlocks_ok
    next => exact (inBlocks_collectSettings _).bind fun _ _ => inBlocks_ok
  next => exact inBlocks_ok

/-- **The passes are where a run can leave a block.**  If the indices of all passes are in
bounds and no array is overrun, the run does not. -/
theorem inBlocks_generateTestVariations {fuel : Nat} {testname : String}
    (h : PassesInBounds (testPasses table gen style fuel testname)) :
    InBlocks (bltsConfigGenerateTestVariations table gen fuel testname style) := by
  unfold bltsConfigGenerateTestVariations
  refine inBlocks_collectTestParams.bind fun collected hcollected => ?_
  obtain ⟨ret, c⟩ := collected
  rw [testPasses, hcollected] at h
  dsimp only at h ⊢
  split
  next => exact inBlocks_ok
  next hret =>
    rw [if_neg hret] at h
    refine (inBlocks_generateParamValues _ fun pass hpass =>
      h pass (List.mem_append_left _ hpass)).bind fun params hparams => ?_
    by_cases hpairs : style = .allpairs
    · subst hpairs
      exact inBlocks_ok
    · have hlast : ⟨c.fixedParams, c.fixedParamValues, params⟩ ∈
          lastPass table gen style fuel c := by
        rw [lastPass, if_neg hpairs, hparams]
        exact List.mem_singleton_self _
      obtain ⟨hbounds, hover⟩ := h _ (List.mem_append_right _ hlast)
      obtain ⟨variants, hvariants⟩ := permutationVariants_ok hover hbounds
      cases style with
      | allpairs => exact absurd rfl hpairs
      | combinations | first | last =>
          show InBlocks (permutationVariants params)
          rw [hvariants]
          exact inBlocks_ok

/-- A test of one parameter, whose generator is not registered. -/
def unregistered : SymbolTable where
  cells := some (List.map some [
    { key := "p", data := .param { type := .int, args := .generated "g" [] } },
    { key := "T", data := .test { TestDef.empty with settings := [.paramlist [0]] } }])
  top := 2

/-- The one row has an index into a list without values. -/
theorem unregistered_index :
    ¬ (∀ pass ∈ testPasses unregistered (fun _ _ => none) .combinations 1 "T",
        IndexesInBounds pass.params) ∧
      bltsConfigGenerateTestVariations unregistered (fun _ _ => none) 1 "T" .combinations =
        .error .outOfBounds := by
  refine ⟨fun h => ?_, by decide +kernel⟩
  have hpass : ⟨[], [], [⟨0, []⟩]⟩ ∈
      testPasses unregistered (fun _ _ => none) .combinations 1 "T" := by
    have hpasses : testPasses unregistered (fun _ _ => none) .combinations 1 "T" =
        [⟨[], [], [⟨0, []⟩]⟩] := rfl
    rw [hpasses]
    exact List.mem_singleton_self _
  exact absurd (indexesInBounds_iff _ |>.mp (h _ hpass)) (by decide +kernel)

end Blts.Params
