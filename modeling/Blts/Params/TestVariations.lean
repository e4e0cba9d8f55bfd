import Blts.Params.Combinations

/-!
# The variants of a test

`generate_test_variations` put together.  The settings of a test say which
parameters it takes (`testParams`) and which values are fixed (`fixes`); the
loops that collect them return exactly these lists (`collectSettings_eq`).  A
parameter then has one list of values (`HasValues`): its first fixed value, or
what `generate_variations` makes of it.  From there on the combinations of
`permutationVariants_eq` are the variants of the test
(`testVariations_combinations`).

`generate_variations` may recurse, so it is run with fuel; more fuel never
changes a result (`generateVariations_mono`).
-/

namespace Blts.Params

open Blts.Lib.MixedRadix

/-! ## More fuel, same values -/

theorem generatorParams_mono {f g : SymRef → Except Fault (List BoxedValue)}
    (hfg : ∀ s vs, f s = .ok vs → g s = .ok vs) (syms : List SymRef) :
    ∀ {acc params : List TestParam}, generatorParams f syms acc = .ok params →
      generatorParams g syms acc = .ok params := by
  induction syms with
  | nil => intro acc params h; exact h
  | cons s syms ih =>
      intro acc params h
      simp only [generatorParams, bind, Except.bind] at h ⊢
      cases hf : f s with
      | error e => rw [hf] at h; contradiction
      | ok vs =>
          rw [hf] at h
          rw [hfg s vs hf]
          exact ih h

theorem generateVariations_succ {table : SymbolTable} {gen : GenFuncs}
    {style : VariationStyle} (fuel : Nat) :
    ∀ {sym : SymRef} {vs : List BoxedValue},
      generateVariations table gen style fuel sym = .ok vs →
      generateVariations table gen style (fuel + 1) sym = .ok vs := by
  induction fuel with
  | zero => intro sym vs h; contradiction
  | succ fuel ih =>
      intro sym vs h
      rw [generateVariations] at h ⊢
      split
      next key pd hentry =>
        rw [hentry] at h
        simp only at h ⊢
        split
        next hargs => rw [hargs] at h; exact h
        next hargs => rw [hargs] at h; exact h
        next fnName syms hargs =>
          rw [hargs] at h
          simp only [generateGeneratedVariations] at h ⊢
          split
          next hfn =>
            rw [hfn] at h
            simp only [bind, Except.bind] at h ⊢
            cases hparams : generatorParams
                (generateVariations table gen style fuel) syms [] with
            | error e => rw [hparams] at h; contradiction
            | ok params =>
                rw [hparams] at h
                rw [generatorParams_mono (fun s vs => ih) syms hparams]
                exact h
          next hfn =>
            split at h
            next hfn' => exact absurd hfn' (hfn _ _)
            next => exact h
      next hentry =>
        split at h
        next hentry' => exact absurd hentry' (hentry _ _)
        next => exact h

/-- More fuel never changes the values of a parameter. -/
theorem generateVariations_mono {table : SymbolTable} {gen : GenFuncs}
    {style : VariationStyle} {fuel fuel' : Nat} (hle : fuel ≤ fuel')
    {sym : SymRef} {vs : List BoxedValue}
    (h : generateVariations table gen style fuel sym = .ok vs) :
    generateVariations table gen style fuel' sym = .ok vs := by
  induction hle with
  | refl => exact h
  | step _ ih => exact generateVariations_succ _ ih

/-! ## What the settings of a test say -/

/-- The parameters a setting adds to the test. -/
def settingParams (table : SymbolTable) : TestSetting → List SymRef
  | .paramlist params => params
  | .pgroup ref =>
      match table.entry? ref with
      | some { data := .pgroup params, .. } => params
      | _ => []
  | .fix _ _ => []

/-- The parameters of a test, in the order of its settings. -/
def testParams (table : SymbolTable) (test : TestDef) : List SymRef :=
  test.settings.flatMap (settingParams table)

/-- The value a setting fixes. -/
def settingFix : TestSetting → Option (SymRef × BoxedValue)
  | .fix param (some value) => some (param, value)
  | _ => none

/-- The values a test fixes, in the order of its settings. -/
def fixes (test : TestDef) : List (SymRef × BoxedValue) :=
  test.settings.filterMap settingFix

/-- The first value fixed for a key. -/
def firstFix (table : SymbolTable) (key : String)
    (fixed : List (SymRef × BoxedValue)) : Option BoxedValue :=
  (fixed.find? fun f => (table.entry? f.1).any fun e => key == e.key).map
    Prod.snd

/-- A setting that names what its kind promises: a `pgroup` line names a
parameter group, a `fix` line a symbol and a value. -/
def SettingNames (table : SymbolTable) : TestSetting → Prop
  | .paramlist _ => True
  | .pgroup ref => ∃ key params, table.entry? ref =
      some { key := key, data := .pgroup params }
  | .fix param value => (table.entry? param).isSome ∧ value.isSome

/-- `vs` is the list of values of parameter `p`: the first value fixed for its
key, or what `generate_variations` returns for it. -/
def HasValues (table : SymbolTable) (gen : GenFuncs)
    (fixed : List (SymRef × BoxedValue)) (p : SymRef)
    (vs : List BoxedValue) : Prop :=
  ∃ key definition, table.entry? p =
      some { key := key, data := .param definition } ∧
    match firstFix table key fixed with
    | some v => vs = [v]
    | none => ∃ fuel, generateVariations table gen .combinations fuel p = .ok vs

/-! ## The loops of the source compute these -/

/-- **Collecting the settings.**  Parameters and fixed values come out in the
order of the settings, last one first. -/
theorem collectSettings_eq {table : SymbolTable} (settings : List TestSetting)
    (hnames : ∀ s ∈ settings, SettingNames table s) :
    ∀ c : CollectedParams, collectSettings table settings c = .ok {
      testParams := ((settings.flatMap (settingParams table)).map
        paramNode).reverse ++ c.testParams
      fixedParams := ((settings.filterMap settingFix).map
        fun f => paramNode f.1).reverse ++ c.fixedParams
      fixedParamValues := ((settings.filterMap settingFix).map
        Prod.snd).reverse ++ c.fixedParamValues } := by
  induction settings with
  | nil => intro c; rfl
  | cons s settings ih =>
      intro c
      have hrest : ∀ s ∈ settings, SettingNames table s :=
        fun s hs => hnames s (by simp [hs])
      have hs := hnames s (by simp)
      cases s with
      | paramlist params =>
          simp [collectSettings, ih hrest, settingParams, List.filterMap_cons,
            settingFix]
      | pgroup ref =>
          obtain ⟨key, params, href⟩ := hs
          simp [collectSettings, ih hrest, settingParams, List.filterMap_cons,
            settingFix, href]
      | fix param value =>
          obtain ⟨v, rfl⟩ := Option.isSome_iff_exists.mp hs.2
          simp [collectSettings, ih hrest, settingParams, settingFix]

/-- The loop over the two parallel lists finds the first fixed value. -/
theorem fixedValueForKey_eq {table : SymbolTable} (key : String)
    (fixed : List (SymRef × BoxedValue))
    (hnames : ∀ f ∈ fixed, (table.entry? f.1).isSome) :
    fixedValueForKey table key (fixed.map fun f => paramNode f.1)
      (fixed.map Prod.snd) = .ok (firstFix table key fixed) := by
  induction fixed with
  | nil => rfl
  | cons f fixed ih =>
      obtain ⟨e, he⟩ := Option.isSome_iff_exists.mp (hnames f (by simp))
      have ih := ih fun f hf => hnames f (by simp [hf])
      simp only [List.map_cons, fixedValueForKey]
      simp only [paramNode, he] at ih ⊢
      split
      next heq => simp [firstFix, List.find?, he, heq]
      next hne =>
        rw [ih]
        simp [firstFix, List.find?, he, hne]

/-- Without fixed values the guard returns what the loop would. -/
theorem getFixedParamValue_eq {table : SymbolTable} {p : SymRef} {key : String}
    {data : SymbolData}
    (hentry : table.entry? p = some { key := key, data := data })
    (fixed : List (SymRef × BoxedValue))
    (hnames : ∀ f ∈ fixed, (table.entry? f.1).isSome) :
    getFixedParamValue table (paramNode p)
      (fixed.map fun f => paramNode f.1) (fixed.map Prod.snd) =
        .ok (firstFix table key fixed) := by
  simp only [getFixedParamValue]
  split
  next hnil =>
    obtain rfl : fixed = [] := by simpa using hnil
    rfl
  next =>
    simp only [paramNode, hentry]
    exact fixedValueForKey_eq key fixed hnames

/-- Every parameter gets its values, given enough fuel. -/
theorem generateParamValues_eq {table : SymbolTable} {gen : GenFuncs}
    {fixed : List (SymRef × BoxedValue)}
    (hnames : ∀ f ∈ fixed, (table.entry? f.1).isSome) {params : List SymRef}
    {values : List (List BoxedValue)}
    (h : List.Forall₂ (HasValues table gen fixed) params values) :
    ∃ fuel, ∀ fuel', fuel ≤ fuel' →
      ∃ nodes, generateParamValues table gen .combinations fuel'
          (fixed.map fun f => paramNode f.1) (fixed.map Prod.snd)
          (params.map paramNode) = .ok nodes ∧
        nodes.map TestParam.values = values := by
  induction h with
  | nil => exact ⟨0, fun _ _ => ⟨[], rfl, rfl⟩⟩
  | @cons p vs ps vss hp _ ih =>
      obtain ⟨fuel₀, ih⟩ := ih
      obtain ⟨key, definition, hentry, hvalues⟩ := hp
      have hfixed := getFixedParamValue_eq hentry fixed hnames
      cases hfix : firstFix table key fixed with
      | some v =>
          rw [hfix] at hvalues hfixed
          refine ⟨fuel₀, fun fuel' hle => ?_⟩
          obtain ⟨nodes, hnodes, hmap⟩ := ih fuel' hle
          refine ⟨{ paramNode p with values := vs } :: nodes, ?_,
            by rw [List.map_cons, hmap]⟩
          simp only [List.map_cons, generateParamValues, bind, Except.bind,
            hfixed, hnodes, hvalues]
          rfl
      | none =>
          rw [hfix] at hvalues hfixed
          obtain ⟨fuel₁, hvs⟩ := hvalues
          refine ⟨max fuel₀ fuel₁, fun fuel' hle => ?_⟩
          obtain ⟨nodes, hnodes, hmap⟩ := ih fuel' (by omega)
          have hle₁ : fuel₁ ≤ fuel' := by omega
          have hvs' := generateVariations_mono hle₁ hvs
          refine ⟨{ paramNode p with values := vs } :: nodes, ?_,
            by rw [List.map_cons, hmap]⟩
          simp only [List.map_cons, generateParamValues, bind, Except.bind,
            hfixed, hnodes]
          simp only [paramNode, hvs']
          rfl

/-! ## The variants -/

/-- `variants` are the combinations of `values`, first list fastest. -/
structure AllCombinations (values variants : List (List BoxedValue)) :
    Prop where
  count : variants.length = (values.map List.length).prod
  row : ∀ k variant, variants[k]? = some variant →
    variant.length = values.length ∧
    ∀ j vs, values[j]? = some vs → variant[j]? =
      vs[k / ((values.take j).map List.length).prod % vs.length]?
  once : ∀ choice, List.Forall₂ (fun i vs => i < vs.length) choice values →
    ∃! k, k < variants.length ∧ ∀ j vs, values[j]? = some vs →
      choice[j]? =
        some (k / ((values.take j).map List.length).prod % vs.length)

/-- Counting through the mixed radix system of the lengths gives all
combinations. -/
theorem allCombinations_range {values : List (List BoxedValue)}
    (hne : ∀ vs ∈ values, vs ≠ []) :
    AllCombinations values ((List.range (values.map List.length).prod).map
      (combination values)) := by
  have hPos : Positive (values.map List.length) := by
    intro l hl
    obtain ⟨vs, hvs, rfl⟩ := List.mem_map.mp hl
    exact List.length_pos_of_ne_nil (hne vs hvs)
  have hdigit (k j : Nat) : (digits (values.map List.length) k)[j]? =
      values[j]?.map fun vs =>
        k / ((values.take j).map List.length).prod % vs.length := by
    simp [getElem?_digits, List.map_take, Function.comp_def]
  constructor
  case count => simp
  case row =>
    intro k variant hk
    obtain rfl : combination values k = variant := by
      simp only [List.getElem?_map, Option.map_eq_some_iff] at hk
      obtain ⟨k', hk', rfl⟩ := hk
      obtain ⟨_, hkk⟩ := List.getElem?_eq_some_iff.mp hk'
      rw [← hkk, List.getElem_range]
    refine ⟨length_select (valid_digits hPos k), fun j vs hj => ?_⟩
    rw [combination, getElem?_select (valid_digits hPos k), hdigit, hj]
    rfl
  case once =>
    intro choice hchoice
    have hvalid : Valid (values.map List.length) choice :=
      List.forall₂_map_right_iff.mpr hchoice
    obtain ⟨k, ⟨hk, hdigits⟩, hunique⟩ := existsUnique_digits hvalid
    refine ⟨k, ⟨by simpa using hk, fun j vs hj => ?_⟩, ?_⟩
    · rw [← hdigits, hdigit, hj]
      rfl
    · rintro k' ⟨hk', hchoice'⟩
      refine hunique k' ⟨by simpa using hk', List.ext_getElem? fun j => ?_⟩
      rw [hdigit]
      cases hj : values[j]? with
      | some vs => exact (hchoice' j vs hj).symm
      | none =>
          have hlen := hchoice.length_eq
          rw [List.getElem?_eq_none_iff] at hj
          rw [List.getElem?_eq_none (by omega)]
          rfl

/--
**The variants of a test are the combinations of its parameter values.**  A
test with settings, whose parameters have nonempty lists of values and whose
index table takes less than `2 ^ 32` bytes, gets one variant for every
combination of the values, the first parameter varying fastest.
-/
theorem testVariations_combinations (table : SymbolTable) (gen : GenFuncs)
    (testname : String) (test : TestDef) (values : List (List BoxedValue))
    (hlookup : lookupEntry table testname =
      some { key := testname, data := .test test })
    (hsettings : test.settings ≠ [])
    (hnames : ∀ s ∈ test.settings, SettingNames table s)
    (hvalues : List.Forall₂ (HasValues table gen (fixes test))
      (testParams table test) values)
    (hne : ∀ vs ∈ values, vs ≠ [])
    (hbound : (values.map List.length).prod * values.length *
      sizeofUnsigned < 2 ^ 32) :
    ∃ fuel variants, (∀ fuel', fuel ≤ fuel' →
        bltsConfigGenerateTestVariations table gen fuel' testname
          .combinations = .ok variants) ∧
      AllCombinations values variants := by
  have hfixed : ∀ f ∈ fixes test, (table.entry? f.1).isSome := by
    intro f hf
    obtain ⟨s, hs, hsf⟩ := List.mem_filterMap.mp hf
    have hs' := hnames s hs
    unfold settingFix at hsf
    split at hsf
    next param value =>
      cases hsf
      exact hs'.1
    next => contradiction
  obtain ⟨fuel, hfuel⟩ := generateParamValues_eq hfixed hvalues
  refine ⟨fuel, _, fun fuel' hle => ?_, allCombinations_range hne⟩
  obtain ⟨nodes, hnodes, hmap⟩ := hfuel fuel' hle
  have hlengths : (nodes.map fun p => p.values.length) =
      values.map List.length := by
    rw [← hmap]
    simp [Function.comp_def]
  have hcombine := permutationVariants_eq nodes
    (fun p hp => hne _ (hmap ▸ List.mem_map.mpr ⟨p, hp, rfl⟩))
    (by
      rw [hlengths, show nodes.length = values.length by simp [← hmap]]
      exact hbound)
  rw [hmap, hlengths] at hcombine
  have hcollect := collectSettings_eq test.settings hnames ⟨[], [], []⟩
  simp only [bltsConfigGenerateTestVariations, collectTestParams, hlookup,
    hsettings, if_false, hcollect, List.append_nil, List.reverse_reverse, bind,
    Except.bind, pure, Except.pure, ne_eq, not_true_eq_false]
  simp only [fixes, testParams] at hnodes
  rw [hnodes]
  exact hcombine

/-- Parameters `a` and `b`, the latter in a group, and `c`, which the test
fixes. -/
def threeParams : SymbolTable where
  cells := some (List.map some [
    { key := "a", data := .param
        { type := .int, args := .constlist (some [.long 1, .long 2]) } },
    { key := "b", data := .param
        { type := .long, args := .range (some (.long 3)) (some (.long 5)) } },
    { key := "c", data := .param
        { type := .int, args := .constlist (some [.bool 0, .bool 1]) } },
    { key := "g", data := .pgroup [1, 2] },
    { key := "T", data := .test
        { TestDef.empty with settings :=
            [.paramlist [0], .fix 2 (some (.bool 1)), .pgroup 3] } }])
  top := 5

/-- The general result on a test with a parameter list, a group and a fixed
value. -/
theorem testVariations_threeParams :
    ∃ fuel variants, (∀ fuel', fuel ≤ fuel' →
        bltsConfigGenerateTestVariations threeParams (fun _ _ => none) fuel'
          "T" .combinations = .ok variants) ∧
      AllCombinations [[.long 1, .long 2], [.long 3, .long 5], [.bool 1]]
        variants :=
  testVariations_combinations threeParams (fun _ _ => none) "T"
    { TestDef.empty with settings :=
        [.paramlist [0], .fix 2 (some (.bool 1)), .pgroup 3] }
    [[.long 1, .long 2], [.long 3, .long 5], [.bool 1]]
    (by decide) (by decide)
    (List.forall_mem_cons.mpr ⟨trivial,
      List.forall_mem_cons.mpr ⟨⟨by decide, by decide⟩,
        List.forall_mem_singleton.mpr ⟨"g", [1, 2], by decide⟩⟩⟩)
    (.cons ⟨"a", _, rfl, 1, by decide⟩
      (.cons ⟨"b", _, rfl, 1, by decide⟩
        (.cons ⟨"c", _, rfl, rfl⟩ .nil)))
    (by decide) (by decide)

end Blts.Params
