import Blts.Config.ExactLists
import Blts.Params.TestWrites
import Blts.Params.VariantValues

/-!
# Tags, names and values of the parameters of a test

Three walks over the settings of a test list its parameters: the declaration
records their tags, `blts_config_get_test_param_names` their names, and every
variant has their values.  A parameter that the declaration rejects ends its
group, and the next group that is accepted hides the error; the other two walks
go on.  So the lists belong together only where nothing is rejected
(`listsAgree_iff`).
-/

namespace Blts.Config

open Blts.Lib Blts.Params

/-! ## The names -/

/-- The loop of `blts_config_get_test_param_names`. -/
def paramNames (t : SymbolTable) : List TestParam → List String → Except Fault (List String)
  | [], ret => .ok ret
  | p :: params, ret =>
      match t.entry? p.param with
      | none => .error .nullDeref
      | some e => paramNames t params (e.key :: ret)

/-- `blts_config_get_test_param_names`; a null result is the empty list. -/
def bltsConfigGetTestParamNames (t : SymbolTable) (variantTestName : String) :
    Except Fault (List String) := do
  let (err, c) ← collectTestParams t variantTestName
  if err ≠ 0 then
    return []
  let ret ← paramNames t c.testParams []
  return ret.reverse

/-- The symbol has this key. -/
def HasKey (t : SymbolTable) (ref : SymRef) (key : String) : Prop :=
  (t.entry? ref).map SymbolTableEntry.key = some key

theorem paramNames_eq {t : SymbolTable} {refs : List SymRef} {names : List String}
    (h : List.Forall₂ (HasKey t) refs names) :
    ∀ ret, paramNames t (refs.map paramNode) ret = .ok (names.reverse ++ ret) := by
  induction h with
  | nil => exact fun _ => rfl
  | @cons ref name refs names hkey _ ih =>
      intro ret
      obtain ⟨e, he, rfl⟩ := Option.map_eq_some_iff.mp hkey
      simp [paramNames, paramNode, he, ih]

/-- The loop goes over all parameters, if it comes to an end. -/
theorem length_paramNames {t : SymbolTable} (params : List TestParam) :
    ∀ {ret names : List String}, paramNames t params ret = .ok names →
      names.length = params.length + ret.length := by
  induction params with
  | nil =>
      intro ret names h
      cases h
      simp
  | cons p params ih =>
      intro ret names h
      unfold paramNames at h
      split at h
      next => cases h
      next e _ =>
        rw [ih h, List.length_cons, List.length_cons]
        omega

/-! ## Settings that can be collected -/

/-- A `fix` has its value. -/
def FixValued : TestSetting → Prop
  | .fix _ value => value.isSome = true
  | _ => True

instance (setting : TestSetting) : Decidable (FixValued setting) := by
  unfold FixValued
  split <;> infer_instance

/-- A `pgroup` names a group of parameters. -/
def NamesGroup (t : SymbolTable) : TestSetting → Prop
  | .pgroup ref => ∃ key syms, t.entry? ref = some ⟨key, .pgroup syms⟩
  | _ => True

/-- Collecting the settings comes to an end where all of them name what they
should. -/
theorem collectSettings_ok {t : SymbolTable} (settings : List TestSetting)
    (hgroups : ∀ setting ∈ settings, NamesGroup t setting)
    (hfixes : ∀ setting ∈ settings, FixValued setting) :
    ∀ c, ∃ c', collectSettings t settings c = .ok c' := by
  induction settings with
  | nil => exact fun c => ⟨c, rfl⟩
  | cons setting settings ih =>
      intro c
      have ih := ih (fun s hs => hgroups s (List.mem_cons_of_mem _ hs))
        (fun s hs => hfixes s (List.mem_cons_of_mem _ hs))
      have hgroup := hgroups setting List.mem_cons_self
      have hfix := hfixes setting List.mem_cons_self
      cases setting with
      | paramlist syms => exact ih _
      | pgroup ref =>
          obtain ⟨key, syms, href⟩ := hgroup
          unfold collectSettings
          rw [href]
          exact ih _
      | fix param value =>
          obtain ⟨v, rfl⟩ := Option.isSome_iff_exists.mp hfix
          exact ih _

/-- No `fix` without a value is collected. -/
theorem fixValued_of_collectSettings {t : SymbolTable} (settings : List TestSetting) :
    ∀ {c c' : CollectedParams}, collectSettings t settings c = .ok c' →
      ∀ setting ∈ settings, FixValued setting := by
  induction settings with
  | nil => intro c c' _ setting hmem; cases hmem
  | cons setting settings ih =>
      intro c c' h
      have hall : FixValued setting ∧ ∃ c₁, collectSettings t settings c₁ = .ok c' := by
        unfold collectSettings at h
        cases setting with
        | paramlist syms => exact ⟨trivial, _, h⟩
        | pgroup ref =>
            simp only at h
            split at h
            next => cases h
            next => exact ⟨trivial, _, h⟩
            next => cases h
        | fix param value =>
            cases value with
            | none => cases h
            | some v => exact ⟨rfl, _, h⟩
      obtain ⟨hfix, c₁, hrest⟩ := hall
      exact List.forall_mem_cons.mpr ⟨hfix, ih hrest⟩

/-- Writing to a test makes no group. -/
theorem NamesGroup.of_modifyTest {t : SymbolTable} (h : TableOk t) {test : SymRef}
    {f : TestDef → TestDef} {setting : TestSetting}
    (hnames : NamesGroup (t.modifyTest test f) setting) : NamesGroup t setting := by
  cases setting with
  | paramlist syms => trivial
  | fix param value => trivial
  | pgroup ref =>
      obtain ⟨key, syms, hentry⟩ := hnames
      rw [entry?_modifyTest h] at hentry
      split at hentry
      next =>
        obtain ⟨⟨key', data⟩, he, hwrite⟩ := Option.map_eq_some_iff.mp hentry
        cases data <;> cases hwrite
        exact ⟨_, _, he⟩
      next => exact ⟨_, _, hentry⟩

theorem NamesGroup.modifyTest {t : SymbolTable} {setting : TestSetting}
    (hnames : NamesGroup t setting) (h : TableOk t) (test : SymRef)
    (f : TestDef → TestDef) : NamesGroup (t.modifyTest test f) setting := by
  cases setting with
  | paramlist syms => trivial
  | fix param value => trivial
  | pgroup ref =>
      obtain ⟨key, syms, hentry⟩ := hnames
      refine ⟨key, syms, ?_⟩
      rw [entry?_modifyTest h, hentry]
      split <;> rfl

/-- A declaration that comes to an end has seen all groups. -/
theorem namesGroup_of_declareSettings {loaded : Bool} {test : SymRef}
    (settings : List TestSetting) :
    ∀ {t : SymbolTable} {ret : Int} {r : Int × SymbolTable}, TableOk t →
      declareSettings loaded test settings ret t = .ok r →
      ∀ setting ∈ settings, NamesGroup t setting := by
  induction settings with
  | nil => intro t ret r _ _ setting hmem; cases hmem
  | cons setting settings ih =>
      intro t ret r h hrun
      have hrest (syms : List SymRef) (hrun : (processPgroupParams loaded test syms t >>=
          fun r' => declareSettings loaded test settings r'.1 r'.2) = .ok r) :
          ∀ setting ∈ settings, NamesGroup t setting := by
        obtain ⟨r', hprocess, hrun⟩ := exists_of_bind_eq_ok hrun
        obtain rfl := processPgroupParams_eq syms h hprocess
        exact fun s hs => (ih (h.modifyTest test _) hrun s hs).of_modifyTest h
      unfold declareSettings at hrun
      cases setting with
      | paramlist syms => exact List.forall_mem_cons.mpr ⟨trivial, hrest syms hrun⟩
      | fix param value => exact List.forall_mem_cons.mpr ⟨trivial, ih h hrun⟩
      | pgroup ref =>
          simp only at hrun
          split at hrun
          next => cases hrun
          next key syms hentry =>
            exact List.forall_mem_cons.mpr ⟨⟨key, syms, hentry⟩, hrest syms hrun⟩
          next => cases hrun

/-! ## What is recorded of a group -/

theorem length_accepted_le (group : ParamGroup) : (accepted group).length ≤ group.length := by
  induction group with
  | nil => exact Nat.le_refl 0
  | cons p group ih =>
      cases p with
      | none => exact Nat.zero_le _
      | some p => exact Nat.succ_le_succ ih

/-- A group that rejects a parameter is cut short. -/
theorem length_accepted_lt {group : ParamGroup} (h : none ∈ group) :
    (accepted group).length < group.length := by
  induction group with
  | nil => cases h
  | cons p group ih =>
      cases p with
      | none => exact Nat.succ_pos _
      | some p =>
          rcases List.mem_cons.mp h with hnone | hmem
          · cases hnone
          · exact Nat.succ_lt_succ (ih hmem)

theorem length_flatMap_accepted_le (groups : List ParamGroup) :
    (groups.flatMap accepted).length ≤ groups.flatten.length := by
  induction groups with
  | nil => exact Nat.le_refl 0
  | cons group groups ih =>
      have hle := length_accepted_le group
      rw [List.flatMap_cons, List.flatten_cons, List.length_append, List.length_append]
      omega

theorem length_flatMap_accepted_lt {groups : List ParamGroup} (h : none ∈ groups.flatten) :
    (groups.flatMap accepted).length < groups.flatten.length := by
  induction groups with
  | nil => cases h
  | cons group groups ih =>
      have hle := length_accepted_le group
      have hrest := length_flatMap_accepted_le groups
      rw [List.flatMap_cons, List.flatten_cons, List.length_append, List.length_append]
      rw [List.flatten_cons] at h
      rcases List.mem_append.mp h with hmem | hmem
      · have hlt := length_accepted_lt hmem
        omega
      · have hlt := ih hmem
        omega

/-- The groups of the settings are the parameters of the test. -/
theorem flatten_settingGroups (t : SymbolTable) (td : TestDef) :
    (settingGroups t td.settings).flatten = (testParams t td).map (groupEntry t) := by
  unfold testParams settingGroups
  induction td.settings with
  | nil => rfl
  | cons setting settings ih =>
      rw [List.flatMap_cons, List.map_append, ← ih]
      cases setting with
      | paramlist syms => rfl
      | fix param value => rfl
      | pgroup ref =>
          rw [List.filterMap_cons, settingGroup, settingParams]
          cases t.entry? ref with
          | none => rfl
          | some e =>
              obtain ⟨key, data⟩ := e
              cases data <;> rfl

/-- What is recorded of a parameter has its key. -/
theorem hasKey_of_groupEntry {t : SymbolTable} {ref : SymRef} {p : ParamEntry}
    (h : groupEntry t ref = some p) : HasKey t ref p.1 := by
  obtain ⟨e, he, htype⟩ := Option.bind_eq_some_iff.mp h
  unfold HasKey
  rw [he]
  split at htype
  · cases htype
    rfl
  · cases htype

theorem forall₂_hasKey {t : SymbolTable} {refs : List SymRef} {ps : List ParamEntry}
    (h : refs.map (groupEntry t) = ps.map some) :
    List.Forall₂ (HasKey t) refs (ps.map Prod.fst) := by
  induction refs generalizing ps with
  | nil =>
      obtain rfl := List.map_eq_nil_iff.mp h.symm
      exact .nil
  | cons ref refs ih =>
      cases ps with
      | nil => cases h
      | cons p ps =>
          obtain ⟨hp, hps⟩ := List.cons.inj h
          exact .cons (hasKey_of_groupEntry hp) (ih hps)

theorem hasKey_modifyTest {t : SymbolTable} (h : TableOk t) (test : SymRef)
    (f : TestDef → TestDef) (ref : SymRef) (key : String) :
    HasKey (t.modifyTest test f) ref key ↔ HasKey t ref key := by
  unfold HasKey
  rw [entry?_modifyTest h]
  split
  next => rw [Option.map_map]; rfl
  next => exact Iff.rfl

/-! ## The lengths of names and variants -/

section

variable {t : SymbolTable} {name : String} {td : TestDef}
  (hlookup : lookupEntry t name = some ⟨name, .test td⟩)
include hlookup

/-- There is a name for every parameter, if there are names at all. -/
theorem names_of_ok {names : List String}
    (h : bltsConfigGetTestParamNames t name = .ok names) :
    names.length = (testParams t td).length ∧ ∀ setting ∈ td.settings, FixValued setting := by
  obtain ⟨⟨err, c⟩, hcollect, h⟩ := exists_of_bind_eq_ok h
  unfold collectTestParams at hcollect
  rw [hlookup] at hcollect
  simp only at hcollect h
  split at hcollect
  next hnil =>
    cases hcollect
    cases h
    rw [testParams, hnil]
    exact ⟨rfl, fun setting hmem => by cases hmem⟩
  next =>
    obtain ⟨c', hsettings, hcollect⟩ := exists_of_bind_eq_ok hcollect
    cases hcollect
    refine ⟨?_, fixValued_of_collectSettings _ hsettings⟩
    obtain rfl := collectSettings_of_ok _ hsettings
    obtain ⟨ret, hnames, h⟩ := exists_of_bind_eq_ok h
    cases h
    rw [List.length_reverse, length_paramNames _ hnames]
    simp [testParams]

/-- The names are the keys of the parameters. -/
theorem bltsConfigGetTestParamNames_eq
    (hgroups : ∀ setting ∈ td.settings, NamesGroup t setting)
    (hfixes : ∀ setting ∈ td.settings, FixValued setting) {names : List String}
    (hnames : List.Forall₂ (HasKey t) (testParams t td) names) :
    bltsConfigGetTestParamNames t name = .ok names := by
  unfold bltsConfigGetTestParamNames collectTestParams
  rw [hlookup]
  by_cases hnil : td.settings = []
  · rw [testParams, hnil] at hnames
    cases hnames
    simp only [hnil, if_true]
    rfl
  · obtain ⟨c, hc⟩ := collectSettings_ok td.settings hgroups hfixes ⟨[], [], []⟩
    have hparams := congrArg CollectedParams.testParams (collectSettings_of_ok _ hc)
    have hloop := paramNames_eq hnames []
    rw [List.append_nil] at hparams hloop
    simp only [hnil, if_false, hc, hparams, bind, Except.bind, pure, Except.pure, ne_eq,
      not_true_eq_false, List.reverse_reverse]
    rw [← testParams, hloop]
    exact congrArg Except.ok (List.reverse_reverse names)

/-- The number of values of a variant is an `unsigned` number. -/
theorem length_variant {gen : GenFuncs} {style : VariationStyle} {fuel : Nat}
    {variants : List (List BoxedValue)}
    (h : bltsConfigGenerateTestVariations t gen fuel name style = .ok variants) :
    ∀ variant ∈ variants, variant.length = (testParams t td).length % uintMod := by
  intro variant hvariant
  obtain ⟨⟨ret, c⟩, hcollect, h⟩ := exists_of_bind_eq_ok h
  unfold collectTestParams at hcollect
  rw [hlookup] at hcollect
  simp only at hcollect h
  split at hcollect
  next =>
    cases hcollect
    cases h
    cases hvariant
  next =>
    obtain ⟨c', hsettings, hcollect⟩ := exists_of_bind_eq_ok hcollect
    cases hcollect
    obtain rfl := collectSettings_of_ok _ hsettings
    simp only [List.append_nil, List.reverse_reverse, ne_eq, not_true_eq_false, if_false]
      at h
    obtain ⟨nodes, hnodes, h⟩ := exists_of_bind_eq_ok h
    have hlength : nodes.length = (testParams t td).length :=
      (valueOf_generateParamValues _ hnodes).length_eq.symm
    have hperm : permutationVariants nodes = .ok variants := by
      cases style with
      | allpairs =>
          cases h
          cases hvariant
      | combinations => exact h
      | first => exact h
      | last => exact h
    obtain ⟨perms, hperms, hrest⟩ := exists_of_bind_eq_ok hperm
    obtain ⟨rows, hrows, hrest⟩ := exists_of_bind_eq_ok hrest
    cases hrest
    rcases variantsFrom_mem _ hrows variant (List.mem_reverse.mp hvariant) with
      hnil | ⟨hvariables, _⟩
    · cases hnil
    · rw [hvariables, nVariables_eq hperms, testParamListFlatten, hlength]

end

/-! ## The declaration -/

/-- The lists of a test belong together: its tags, the names that the table has
for it, and the values of every variant are those of the same parameters, place
by place. -/
def ListsAgree (t : SymbolTable) (name : String) : Prop :=
  ∃ td names refs, testNamed t name = some td ∧
    bltsConfigGetTestParamNames t name = .ok names ∧
    List.Forall₂ (HasKey t) refs td.paramTags ∧ List.Forall₂ (HasKey t) refs names ∧
    ∀ gen style fuel variants,
      bltsConfigGenerateTestVariations t gen fuel name style = .ok variants →
      ∀ variant ∈ variants, List.Forall₂ (ValueOf t gen style (fixes td)) refs variant

/-- All symbols in the settings are accepted as parameters, all fixed values are
there, and an `unsigned` number can count the parameters, unless there is nothing
to count because no variants are made. -/
def RecordsAll (t : SymbolTable) (name : String) (td : TestDef) : Prop :=
  (∀ ref ∈ testParams t td, (groupEntry t ref).isSome = true) ∧
    (∀ setting ∈ td.settings, FixValued setting) ∧
    ((testParams t td).length < uintMod ∨ ∀ gen style fuel variants,
      bltsConfigGenerateTestVariations t gen fuel name style = .ok variants →
      variants = [])

/-- **The table after a declaration** of a test that is in it. -/
theorem declareDynamic_table {s s' : ConfigState} (h : TableOk s.table) {name : String}
    {td : TestDef} (hnamed : testNamed s.table name = some td)
    {argHandler : Option FnRef} {ret : Int}
    (hrun : bltsConfigDeclareVariableTestDynamic s (some name) argHandler =
      .ok (ret, s')) :
    ∃ test f, symbolTableLookup s.table name = some test ∧
      testAt s.table test = some td ∧ s'.table = s.table.modifyTest test f ∧
      (∀ td, (f td).settings = td.settings) ∧
      (ret = 0 → (f td).paramTags = ((((settingGroups s.table td.settings).flatMap
        accepted).map Prod.fst).reverse ++ td.paramTags).reverse) ∧
      ∀ setting ∈ td.settings, NamesGroup s.table setting := by
  obtain ⟨test, hlookup, htest⟩ := Option.bind_eq_some_iff.mp hnamed
  have htable : declaredTable s name = .ok s.table := by
    rw [← symbolTableInit_of_ok h]
    refine declaredTable_unchanged (.inr h) (fun _ => h) ?_
    rintro ⟨hnone, _⟩
    rw [hlookup] at hnone
    cases hnone
  obtain ⟨key, hentry⟩ := testAt_eq_some.mp htest
  simp only [bltsConfigDeclareVariableTestDynamic, htable, bind, Except.bind, hlookup,
    Option.map_some, hentry] at hrun
  cases hsettings : declareSettings s.configLoadComplete test td.settings 0
      (s.table.modifyTest test fun td => { td with argHandler2 := argHandler }) with
  | error f =>
      rw [hsettings] at hrun
      cases hrun
  | ok r =>
      have hgroups := namesGroup_of_declareSettings td.settings (h.modifyTest test _)
        hsettings
      have hr := declareSettings_eq td.settings (h.modifyTest test _) hsettings
      rw [settingGroups, settingGroup_modifyTest h, ← settingGroups,
        modifyTest_modifyTest] at hr
      rw [hsettings, hr] at hrun
      simp only at hrun
      have hback : ∀ setting ∈ td.settings, NamesGroup s.table setting :=
        fun setting hmem => (hgroups setting hmem).of_modifyTest h
      split at hrun
      next =>
        cases hrun
        refine ⟨test, _, hlookup, htest, modifyTest_modifyTest _ _ _ _, fun _ => rfl,
          fun _ => rfl, hback⟩
      next hne =>
        cases hrun
        exact ⟨test, _, hlookup, htest, rfl, fun _ => rfl, fun hzero => absurd hzero hne,
          hback⟩

/-- A test in the table is found under its name. -/
theorem lookupEntry_of_testNamed {t : SymbolTable} (h : TableOk t) {name : String}
    {td : TestDef} (hnamed : testNamed t name = some td) :
    lookupEntry t name = some ⟨name, .test td⟩ := by
  obtain ⟨test, hlookup, htest⟩ := Option.bind_eq_some_iff.mp hnamed
  obtain ⟨key, hentry⟩ := testAt_eq_some.mp htest
  obtain ⟨e, he, hkey⟩ := h.entry?_of_lookup hlookup
  rw [hentry] at he
  cases he
  obtain rfl : key = name := hkey
  rw [lookupEntry, hlookup, Option.bind_some, hentry]

/--
**When the lists belong together.**  A declaration without arguments that returns
zero leaves the tags, the names and the values of a test without tags in the same
places if and only if it accepts every symbol that the settings list, every fixed
value is there, and the parameters can be counted.
-/
theorem listsAgree_iff {cs : List Call} {s s' : ConfigState}
    (hrun : calls.exec .initial cs = some s) {name : String} {td : TestDef}
    (hnamed : testNamed s.table name = some td) (htags : td.paramTags = [])
    {argHandler : Option FnRef}
    (hdeclare : bltsConfigDeclareVariableTestDynamic s (some name) argHandler =
      .ok (0, s')) :
    ListsAgree s'.table name ↔ RecordsAll s.table name td := by
  have h : TableOk s.table := by
    rcases tableOk_keptByCalls.reached hrun with rfl | h
    · cases hnamed
    · exact h
  obtain ⟨test, f, hlookup, htest, htable, hsettings, htags', hgroups⟩ :=
    declareDynamic_table h hnamed hdeclare
  have h' : TableOk s'.table := htable ▸ h.modifyTest test f
  have hnamed' : testNamed s'.table name = some (f td) := by
    rw [htable]
    exact testNamed_eq_some (by rw [lookup_modifyTest h, hlookup])
      (testAt_modifyTest h htest f)
  have hentry' := lookupEntry_of_testNamed h' hnamed'
  have hvariants (gen : GenFuncs) (fuel : Nat) (style : VariationStyle) :
      bltsConfigGenerateTestVariations s'.table gen fuel name style =
        bltsConfigGenerateTestVariations s.table gen fuel name style := by
    rw [htable, generateTestVariations_modifyTest h test f hsettings]
  have hparams : testParams s'.table (f td) = testParams s.table td := by
    rw [htable, testParams_modifyTest h, testParams, hsettings, testParams]
  have hflat := flatten_settingGroups s.table td
  replace htags' := htags' rfl
  rw [htags, List.append_nil, List.reverse_reverse] at htags'
  constructor
  · rintro ⟨td', names, refs, htd', hnames, hreftags, hrefnames, hvalues⟩
    rw [hnamed'] at htd'
    cases htd'
    obtain ⟨hlength, hfixes⟩ := names_of_ok hentry' hnames
    rw [hparams] at hlength
    rw [hsettings] at hfixes
    have hcount : refs.length = (testParams s.table td).length := by
      rw [hrefnames.length_eq, hlength]
    refine ⟨fun ref href => ?_, hfixes, ?_⟩
    · -- a rejected parameter would be missing in the tags
      by_contra hnot
      have hnone : none ∈ (settingGroups s.table td.settings).flatten := by
        rw [hflat]
        exact List.mem_map.mpr ⟨ref, href, Option.not_isSome_iff_eq_none.mp hnot⟩
      have hlt := length_flatMap_accepted_lt hnone
      have htagcount := hreftags.length_eq
      rw [hflat, List.length_map] at hlt
      rw [htags', List.length_map, hcount] at htagcount
      omega
    · by_cases hsmall : (testParams s.table td).length < uintMod
      · exact .inl hsmall
      · refine .inr fun gen style fuel variants hgen => ?_
        rw [← hvariants] at hgen
        refine List.eq_nil_iff_forall_not_mem.mpr fun variant hvariant => ?_
        have hshort := length_variant hentry' hgen variant hvariant
        rw [hparams, ← (hvalues gen style fuel variants hgen variant hvariant).length_eq,
          hcount] at hshort
        have hlt := Nat.mod_lt (testParams s.table td).length (by decide : uintMod > 0)
        omega
  · rintro ⟨hall, hfixes, hcount⟩
    obtain ⟨ps, hps⟩ : ∃ ps : List ParamEntry,
        (settingGroups s.table td.settings).flatten = ps.map some := by
      rw [exists_entries_iff, hflat]
      intro hmem
      obtain ⟨ref, href, hnone⟩ := List.mem_map.mp hmem
      have hsome := hall ref href
      rw [hnone] at hsome
      cases hsome
    have hkeys : List.Forall₂ (HasKey s'.table) (testParams s.table td)
        (ps.map Prod.fst) := by
      rw [htable]
      refine (forall₂_hasKey (hflat.symm.trans hps)).imp fun ref key hkey => ?_
      exact (hasKey_modifyTest h test f ref key).mpr hkey
    refine ⟨f td, ps.map Prod.fst, testParams s.table td, hnamed', ?_, ?_, hkeys, ?_⟩
    · refine bltsConfigGetTestParamNames_eq hentry' ?_ ?_ (hparams ▸ hkeys)
      · rw [hsettings, htable]
        exact fun setting hmem => (hgroups setting hmem).modifyTest h test f
      · rw [hsettings]
        exact hfixes
    · rw [htags', flatMap_accepted_of_all hps]
      exact hkeys
    · intro gen style fuel variants hgen variant hvariant
      rcases hcount with hsmall | hnone
      · rw [← hparams] at hsmall ⊢
        exact valueOf_generateTestVariations hentry' hsmall hgen variant hvariant
      · rw [hvariants] at hgen
        rw [hnone gen style fuel variants hgen] at hvariant
        cases hvariant

/-- A configuration with a parameter and a group of it.  One test takes the group
with a fixed value, the other names the group among its parameters, and then the
parameter. -/
def groupAmongParams : List Call :=
  [.load (.ok ([Item.param "a" (.const (.int 1) [.int 2]), .pgroup "g" [["a"]],
    .test "U" false [.pgroup "g", .fix "a" (.int 5)],
    .test "T" false [.params ["g"], .params ["a"]]].flatMap Item.tokens, false))]

/-- The first test is declared with everything in its place. -/
theorem listsAgree_group :
    ∃ s s', calls.exec .initial groupAmongParams = some s ∧
      bltsConfigDeclareVariableTestDynamic s (some "U") (some 7) = .ok (0, s') ∧
      ListsAgree s'.table "U" := by
  have hsome : (calls.exec .initial groupAmongParams).any (fun s =>
      testNamed s.table "U" = some { TestDef.empty with
          settings := [.pgroup 1, .fix 0 (some (.int 5))] } ∧
        (bltsConfigDeclareVariableTestDynamic s (some "U") (some 7)).toOption.any
          (fun r => r.1 = 0) ∧
        testParams s.table { TestDef.empty with
          settings := [.pgroup 1, .fix 0 (some (.int 5))] } = [0] ∧
        (groupEntry s.table 0).isSome = true) = true := by
    decide +kernel
  obtain ⟨s, hrun, hs⟩ := (Option.any_eq_true _ _).mp hsome
  obtain ⟨hnamed, hany, hparams, hentry⟩ := of_decide_eq_true hs
  cases hdeclare : bltsConfigDeclareVariableTestDynamic s (some "U") (some 7) with
  | error f =>
      rw [hdeclare] at hany
      cases hany
  | ok r =>
      obtain ⟨ret, s'⟩ := r
      rw [hdeclare] at hany
      obtain rfl : ret = 0 := of_decide_eq_true hany
      refine ⟨s, s', hrun, hdeclare, (listsAgree_iff hrun hnamed rfl hdeclare).mpr ?_⟩
      unfold RecordsAll
      rw [hparams]
      exact ⟨List.forall_mem_singleton.mpr hentry, by decide, .inl (by decide)⟩

/-- The other is declared with one tag for two names. -/
theorem tag_missing :
    ∃ s td s', calls.exec .initial groupAmongParams = some s ∧
      testNamed s.table "T" = some td ∧ td.paramTags = [] ∧
      bltsConfigDeclareVariableTestDynamic s (some "T") (some 7) = .ok (0, s') ∧
      (testNamed s'.table "T").map TestDef.paramTags = some ["a"] ∧
      bltsConfigGetTestParamNames s'.table "T" = .ok ["g", "a"] ∧
      ¬ ListsAgree s'.table "T" := by
  have hsome : (calls.exec .initial groupAmongParams).any (fun s =>
      testNamed s.table "T" = some { TestDef.empty with
          settings := [.paramlist [1], .paramlist [0]] } ∧
        (bltsConfigDeclareVariableTestDynamic s (some "T") (some 7)).toOption.any
          (fun r => r.1 = 0 ∧
            (testNamed r.2.table "T").map TestDef.paramTags = some ["a"] ∧
            (bltsConfigGetTestParamNames r.2.table "T").toOption =
              some ["g", "a"])) = true := by
    decide +kernel
  obtain ⟨s, hrun, hs⟩ := (Option.any_eq_true _ _).mp hsome
  obtain ⟨hnamed, hany⟩ := of_decide_eq_true hs
  cases hdeclare : bltsConfigDeclareVariableTestDynamic s (some "T") (some 7) with
  | error f =>
      rw [hdeclare] at hany
      cases hany
  | ok r =>
      obtain ⟨ret, s'⟩ := r
      rw [hdeclare] at hany
      obtain ⟨rfl, htags, hnames⟩ := of_decide_eq_true hany
      have hnames : bltsConfigGetTestParamNames s'.table "T" = .ok ["g", "a"] := by
        cases h : bltsConfigGetTestParamNames s'.table "T" with
        | error f =>
            rw [h] at hnames
            cases hnames
        | ok names =>
            rw [h] at hnames
            exact congrArg Except.ok (Option.some.inj hnames)
      refine ⟨s, _, s', hrun, hnamed, rfl, hdeclare, htags, hnames, ?_⟩
      rintro ⟨td', names, refs, htd', hnames', hreftags, hrefnames, _⟩
      rw [htd'] at htags
      rw [hnames] at hnames'
      cases hnames'
      have htwo := hreftags.length_eq.symm.trans hrefnames.length_eq
      rw [Option.some.inj htags] at htwo
      cases htwo

end Blts.Config
