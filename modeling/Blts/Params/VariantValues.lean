import Blts.Params.TestVariations

/-!
# Where the values of a variant come from

Whatever the lists of values, and however the table of permutations wraps
around: if variants are generated at all, each of them has one value for every
parameter of the test, in the order of the settings, and that is a value of the
parameter (`valueOf_generateTestVariations`).
-/

namespace Blts.Params

/-! ## From the table to variants -/

/-- The values of one variant. -/
theorem variantValues_mem {perms : VarPermuteTable} {values : List (List BoxedValue)}
    {i : Nat} (count : Nat) : ∀ {j : Nat} {work row : List BoxedValue},
      variantValues perms values i count j work = .ok row →
      ∃ new : List BoxedValue, row = new.reverse ++ work ∧ new.length = count ∧
        ∀ k v, new[k]? = some v → ∃ vs, values[j + k]? = some vs ∧ v ∈ vs := by
  induction count with
  | zero =>
      intro j work row h
      cases h
      exact ⟨[], rfl, rfl, fun k v hk => by cases hk⟩
  | succ count ih =>
      intro j work row h
      unfold variantValues at h
      cases hread : perms.permutations.read ((i * perms.nVariables + j) % uintMod) with
      | error f =>
          rw [hread] at h
          cases h
      | ok index =>
          rw [hread] at h
          simp only [bind, Except.bind] at h
          cases hcell : (values[j]?.getD [])[index]? with
          | none =>
              rw [hcell] at h
              cases h
          | some bv =>
              rw [hcell] at h
              obtain ⟨new, rfl, hlength, hnew⟩ := ih h
              refine ⟨bv :: new, by simp, by simp [hlength], ?_⟩
              intro k v hk
              cases k with
              | zero =>
                  obtain rfl : bv = v := by simpa using hk
                  cases hj : values[j]? with
                  | none =>
                      rw [hj] at hcell
                      cases hcell
                  | some vs =>
                      rw [hj] at hcell
                      exact ⟨vs, rfl, List.mem_of_getElem? hcell⟩
              | succ k =>
                  obtain ⟨vs, hvs, hv⟩ := hnew k v (by simpa using hk)
                  exact ⟨vs, by rw [← hvs]; congr 1; omega, hv⟩

/-- The values of all variants. -/
theorem variantsFrom_mem {perms : VarPermuteTable} {values : List (List BoxedValue)}
    (count : Nat) : ∀ {i : Nat} {varlist rows : List (List BoxedValue)},
      variantsFrom perms values count i varlist = .ok rows →
      ∀ row ∈ rows, row ∈ varlist ∨ row.length = perms.nVariables ∧
        ∀ (k : Nat) (v : BoxedValue), row[k]? = some v →
          ∃ vs, values[k]? = some vs ∧ v ∈ vs := by
  induction count with
  | zero =>
      intro i varlist rows h row hrow
      cases h
      exact .inl hrow
  | succ count ih =>
      intro i varlist rows h row hrow
      unfold variantsFrom at h
      cases hvalues : variantValues perms values i perms.nVariables 0 [] with
      | error f =>
          rw [hvalues] at h
          cases h
      | ok work =>
          rw [hvalues] at h
          rcases ih h row hrow with hmem | hnew
          · rcases List.mem_cons.mp hmem with rfl | hmem
            · obtain ⟨new, rfl, hlength, hnew⟩ := variantValues_mem _ hvalues
              refine .inr ⟨by simp [hlength], fun k v hk => ?_⟩
              have hk' : new[k]? = some v := by simpa using hk
              simpa using hnew k v hk'
            · exact .inl hmem
          · exact .inr hnew

/-- The table has one column for every parameter. -/
theorem nVariables_eq {arrs : VarParameterArrays} {perms : VarPermuteTable}
    (h : generatePermutationTable arrs = .ok perms) : perms.nVariables = arrs.nParams := by
  unfold generatePermutationTable at h
  simp only [bind, Except.bind] at h
  split at h
  next => cases h
  next =>
    split at h
    next => cases h
    next =>
      cases h
      rfl

/-- Every variant has one value of every parameter. -/
theorem permutationVariants_mem {params : List TestParam} (hcount : params.length < uintMod)
    {variants : List (List BoxedValue)} (h : permutationVariants params = .ok variants) :
    ∀ variant ∈ variants, List.Forall₂ (fun p v => v ∈ p.values) params variant := by
  intro variant hvariant
  obtain ⟨perms, hperms, h⟩ := exists_of_bind_eq_ok h
  obtain ⟨rows, hrows, h⟩ := exists_of_bind_eq_ok h
  cases h
  have hvars : perms.nVariables = params.length := by
    rw [nVariables_eq hperms]
    exact Nat.mod_eq_of_lt hcount
  rcases variantsFrom_mem _ hrows variant (List.mem_reverse.mp hvariant) with
    hnil | ⟨hlength, hcells⟩
  · cases hnil
  · rw [List.forall₂_iff_get]
    refine ⟨by rw [hlength, hvars], fun k hk hk' => ?_⟩
    obtain ⟨vs, hvs, hv⟩ := hcells k _ (List.getElem?_eq_getElem hk')
    rw [testParamListFlatten, Nat.mod_eq_of_lt hcount, List.take_length,
      List.getElem?_map, List.getElem?_eq_getElem hk] at hvs
    cases hvs
    exact List.mem_of_mem_take hv

/-! ## The values of the parameters -/

/-- `v` is the value of a parameter: the first value fixed for its key, or one of
those that are generated for it. -/
def ValueOf (t : SymbolTable) (gen : GenFuncs) (style : VariationStyle)
    (fixed : List (SymRef × BoxedValue)) (ref : SymRef) (v : BoxedValue) : Prop :=
  match (t.entry? ref).bind fun e => firstFix t e.key fixed with
  | some w => v = w
  | none => ∃ fuel vs, generateVariations t gen style fuel ref = .ok vs ∧ v ∈ vs

variable {t : SymbolTable} {gen : GenFuncs} {style : VariationStyle}

/-- The loop over the fixed values, where it comes to an end. -/
theorem firstFix_of_fixedValueForKey {key : String} (fixed : List (SymRef × BoxedValue)) :
    ∀ {r : Option BoxedValue}, fixedValueForKey t key (fixed.map fun f => paramNode f.1)
      (fixed.map Prod.snd) = .ok r → r = firstFix t key fixed := by
  induction fixed with
  | nil =>
      intro r h
      cases h
      rfl
  | cons f fixed ih =>
      intro r h
      simp only [List.map_cons, fixedValueForKey, paramNode] at h
      cases he : t.entry? f.1 with
      | none =>
          rw [he] at h
          cases h
      | some e =>
          rw [he] at h
          simp only at h
          split at h
          next heq =>
            cases h
            simp [firstFix, List.find?, he, heq]
          next hne =>
            rw [ih h]
            simp [firstFix, List.find?, he, hne]

/-- The fixed value of a parameter, where the search comes to an end. -/
theorem firstFix_of_getFixedParamValue {ref : SymRef} {fixed : List (SymRef × BoxedValue)}
    {r : Option BoxedValue}
    (h : getFixedParamValue t (paramNode ref) (fixed.map fun f => paramNode f.1)
      (fixed.map Prod.snd) = .ok r) :
    r = (t.entry? ref).bind fun e => firstFix t e.key fixed := by
  unfold getFixedParamValue at h
  split at h
  next hnil =>
    obtain rfl : fixed = [] := by simpa using hnil
    cases h
    cases t.entry? ref <;> rfl
  next =>
    simp only [paramNode] at h
    cases he : t.entry? ref with
    | none =>
        rw [he] at h
        cases h
    | some e =>
        rw [he] at h
        exact firstFix_of_fixedValueForKey fixed h

/-- Every parameter gets its values. -/
theorem valueOf_generateParamValues {fuel : Nat} {fixed : List (SymRef × BoxedValue)}
    (refs : List SymRef) : ∀ {nodes : List TestParam},
      generateParamValues t gen style fuel (fixed.map fun f => paramNode f.1)
        (fixed.map Prod.snd) (refs.map paramNode) = .ok nodes →
      List.Forall₂ (fun ref p => ∀ v ∈ p.values, ValueOf t gen style fixed ref v)
        refs nodes := by
  induction refs with
  | nil =>
      intro nodes h
      cases h
      exact .nil
  | cons ref refs ih =>
      intro nodes h
      rw [List.map_cons] at h
      obtain ⟨r, hfix, h⟩ := exists_of_bind_eq_ok h
      have hfirst := firstFix_of_getFixedParamValue hfix
      cases r with
      | some w =>
          obtain ⟨vs, hvalues, h⟩ := exists_of_bind_eq_ok h
          cases hvalues
          obtain ⟨rest, hrest, h⟩ := exists_of_bind_eq_ok h
          cases h
          refine .cons (fun v hv => ?_) (ih hrest)
          rw [ValueOf, ← hfirst]
          exact List.mem_singleton.mp hv
      | none =>
          obtain ⟨vs, hvalues, h⟩ := exists_of_bind_eq_ok h
          obtain ⟨rest, hrest, h⟩ := exists_of_bind_eq_ok h
          cases h
          refine .cons (fun v hv => ?_) (ih hrest)
          rw [ValueOf, ← hfirst]
          exact ⟨fuel, vs, hvalues, hv⟩

/-- The settings that are collected name what their kinds promise. -/
theorem collectSettings_of_ok (settings : List TestSetting) :
    ∀ {c c' : CollectedParams}, collectSettings t settings c = .ok c' →
      c' = {
        testParams := ((settings.flatMap (settingParams t)).map paramNode).reverse ++
          c.testParams
        fixedParams := ((settings.filterMap settingFix).map
          fun f => paramNode f.1).reverse ++ c.fixedParams
        fixedParamValues := ((settings.filterMap settingFix).map Prod.snd).reverse ++
          c.fixedParamValues } := by
  induction settings with
  | nil =>
      intro c c' h
      cases h
      rfl
  | cons s settings ih =>
      intro c c' h
      unfold collectSettings at h
      cases s with
      | paramlist params =>
          rw [ih h]
          simp [settingParams, List.filterMap_cons, settingFix]
      | pgroup ref =>
          simp only at h
          split at h
          next => cases h
          next key params href =>
            rw [ih h]
            simp [settingParams, List.filterMap_cons, settingFix, href]
          next => cases h
      | fix param value =>
          cases value with
          | none => cases h
          | some v =>
              rw [ih h]
              simp [settingParams, settingFix]

/-- A property of all values of the parameters holds of their values in a
variant. -/
theorem forall₂_of_values {R : SymRef → BoxedValue → Prop} {refs : List SymRef}
    {nodes : List TestParam} {variant : List BoxedValue}
    (hvalues : List.Forall₂ (fun ref p => ∀ v ∈ p.values, R ref v) refs nodes)
    (hmem : List.Forall₂ (fun p v => v ∈ p.values) nodes variant) :
    List.Forall₂ R refs variant := by
  induction hvalues generalizing variant with
  | nil =>
      cases hmem
      exact .nil
  | cons hp _ ih =>
      cases hmem with
      | cons hv hmem => exact .cons (hp _ hv) (ih hmem)

/--
**Variants are positional.**  Each variant of a test has as many values as the
settings of the test list parameters, and each value is one of the parameter in
its place.
-/
theorem valueOf_generateTestVariations {fuel : Nat} {name : String} {td : TestDef}
    (hlookup : lookupEntry t name = some ⟨name, .test td⟩)
    (hcount : (testParams t td).length < uintMod) {variants : List (List BoxedValue)}
    (h : bltsConfigGenerateTestVariations t gen fuel name style = .ok variants) :
    ∀ variant ∈ variants,
      List.Forall₂ (ValueOf t gen style (fixes td)) (testParams t td) variant := by
  intro variant hvariant
  obtain ⟨⟨ret, c⟩, hcollect, h⟩ := exists_of_bind_eq_ok h
  unfold collectTestParams at hcollect
  rw [hlookup] at hcollect
  simp only at hcollect h
  split at hcollect
  next =>
    cases hcollect
    cases h
    cases hvariant
  next =>
    obtain ⟨c', hsettings, hcollect⟩ := exists_of_bind_eq_ok hcollect
    cases hcollect
    obtain rfl := collectSettings_of_ok _ hsettings
    simp only [List.append_nil, List.reverse_reverse, ne_eq, not_true_eq_false, if_false]
      at h
    obtain ⟨nodes, hnodes, h⟩ := exists_of_bind_eq_ok h
    have hvalues := valueOf_generateParamValues _ hnodes
    have hperm : permutationVariants nodes = .ok variants := by
      cases style with
      | allpairs =>
          cases h
          cases hvariant
      | combinations => exact h
      | first => exact h
      | last => exact h
    have hlength : nodes.length < uintMod := by
      rw [← hvalues.length_eq]
      exact hcount
    exact forall₂_of_values hvalues
      (permutationVariants_mem hlength hperm variant hvariant)

end Blts.Params
