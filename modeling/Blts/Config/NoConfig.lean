import Blts.Config.TableRuns
import Blts.Params.DeclaredVariants

/-!
# Declarations without a configuration

While no configuration is loaded a declaration sets up its test with one
parameter for every tag, and the default becomes the one value of the parameter.
Parameters belong to no test: where a tag is in the table already the new
default is not used, whoever declared the first one.  So the tests run with
their own defaults as long as those who share a tag agree on its default
(`own_defaults`).
-/

namespace Blts.Config

open Blts.Lib Blts.Params

/-- A declaration of a test. -/
structure Declaration where
  name : String
  argHandler : Option FnRef
  params : List DeclaredParam
  deriving DecidableEq

def Declaration.call (d : Declaration) : Call :=
  .declare (some d.name) d.argHandler d.params

/-- The default of a parameter with the type that it is declared with. -/
def declaredDefault : ArgValue → Option BoxedValue
  | .double v => some (.double v)
  | value => value.box

/-- The names that declarations bring into the table. -/
def declaredNames (ds : List Declaration) : Finset String :=
  (ds.flatMap fun d => d.name :: d.params.filterMap DeclaredParam.paramTag).toFinset

/-- Declarations with parameters of known types that are stored as declared,
which agree on the defaults of the tags they share, use no tag for a test and
fit into the table. -/
structure DefaultsAgree (ds : List Declaration) : Prop where
  params : ∀ d ∈ ds, d.params ≠ [] ∧ d.params.length < 1073741824
  stored : ∀ d ∈ ds, ∀ p ∈ d.params, p.paramTag.isSome = true ∧
    p.value.box.isSome = true ∧ p.value.box = declaredDefault p.value
  tags : ∀ d ∈ ds, ∀ p ∈ d.params, ∀ d' ∈ ds, p.paramTag ≠ some d'.name
  agree : ∀ d ∈ ds, ∀ p ∈ d.params, ∀ d' ∈ ds, ∀ q ∈ d'.params,
    p.paramTag = q.paramTag → p.value.box = q.value.box
  room : (declaredNames ds).card ≤ symbolTableMax

instance (ds : List Declaration) : Decidable (DefaultsAgree ds) :=
  decidable_of_iff
    ((∀ d ∈ ds, d.params ≠ [] ∧ d.params.length < 1073741824) ∧
      (∀ d ∈ ds, ∀ p ∈ d.params, p.paramTag.isSome = true ∧
        p.value.box.isSome = true ∧ p.value.box = declaredDefault p.value) ∧
      (∀ d ∈ ds, ∀ p ∈ d.params, ∀ d' ∈ ds, p.paramTag ≠ some d'.name) ∧
      (∀ d ∈ ds, ∀ p ∈ d.params, ∀ d' ∈ ds, ∀ q ∈ d'.params,
        p.paramTag = q.paramTag → p.value.box = q.value.box) ∧
      (declaredNames ds).card ≤ symbolTableMax)
    ⟨fun ⟨hp, hs, ht, ha, hr⟩ => ⟨hp, hs, ht, ha, hr⟩,
      fun ⟨hp, hs, ht, ha, hr⟩ => ⟨hp, hs, ht, ha, hr⟩⟩

theorem mem_declaredNames {ds : List Declaration} {key : String} :
    key ∈ declaredNames ds ↔ ∃ d ∈ ds, key = d.name ∨
      ∃ p ∈ d.params, p.paramTag = some key := by
  simp [declaredNames]

/-- Fewer declarations agree as well. -/
theorem DefaultsAgree.prefix {ds ds' : List Declaration}
    (h : DefaultsAgree (ds ++ ds')) : DefaultsAgree ds where
  params d hd := h.params d (List.mem_append_left _ hd)
  stored d hd := h.stored d (List.mem_append_left _ hd)
  tags d hd p hp d' hd' :=
    h.tags d (List.mem_append_left _ hd) p hp d' (List.mem_append_left _ hd')
  agree d hd p hp d' hd' :=
    h.agree d (List.mem_append_left _ hd) p hp d' (List.mem_append_left _ hd')
  room := by
    refine Nat.le_trans (Finset.card_le_card ?_) h.room
    intro key hkey
    obtain ⟨d, hd, hname⟩ := mem_declaredNames.mp hkey
    exact mem_declaredNames.mpr ⟨d, List.mem_append_left _ hd, hname⟩

/-! ## What is in the table -/

/-- The parameter has the default as its value. -/
def HoldsDefault (t : SymbolTable) (p : DeclaredParam) (ref : SymRef) : Prop :=
  ∃ val, p.value.box = some val ∧ paramAt t ref = some (defaultParam val)

/-- What declarations leave in the table: their tests, with the parameters they
declare, and the defaults of their parameters. -/
structure Declared (ds : List Declaration) (t : SymbolTable) : Prop where
  ok : TableOk t
  keys : ∀ key ref, symbolTableLookup t key = some ref →
    (∃ d ∈ ds, d.name = key) ∨
      ∃ d ∈ ds, ∃ p ∈ d.params, p.paramTag = some key ∧ HoldsDefault t p ref
  tests : ∀ d ∈ ds, ∃ ref td refs, symbolTableLookup t d.name = some ref ∧
    testAt t ref = some td ∧ td.settings = singleSettings refs ∧
    List.Forall₂ (HoldsDefault t) d.params refs

theorem HoldsDefault.grows {t t' : SymbolTable} (h : TableOk t)
    (hgrows : Grows t.top t t') {p : DeclaredParam} {ref : SymRef}
    (hp : HoldsDefault t p ref) : HoldsDefault t' p ref := by
  obtain ⟨val, hval, hparam⟩ := hp
  have hlt := paramAt_lt_top h hparam
  exact ⟨val, hval, by rw [hgrows.paramAt_eq hlt (Nat.ne_of_lt hlt), hparam]⟩

/-- **One more declaration.** -/
theorem Declared.step {ds : List Declaration} {d : Declaration} {s : ConfigState}
    (hagree : DefaultsAgree (ds ++ [d])) (hname : ∀ d' ∈ ds, d'.name ≠ d.name)
    (hload : s.configLoadComplete = false)
    (h : Declared ds (symbolTableInit s.table)) :
    ∃ t', Config.call s d.call = .ok (0, { s with table := t' }) ∧
      Declared (ds ++ [d]) t' := by
  have hd : d ∈ ds ++ [d] := by simp
  have hold (d' : Declaration) (hd' : d' ∈ ds) : d' ∈ ds ++ [d] := by simp [hd']
  have hnew : symbolTableLookup (symbolTableInit s.table) d.name = none := by
    cases hlookup : symbolTableLookup (symbolTableInit s.table) d.name with
    | none => rfl
    | some ref =>
        rcases h.keys d.name ref hlookup with ⟨d', hd', heq⟩ | ⟨d', hd', p, hp, htag, _⟩
        · exact absurd heq (hname d' hd')
        · exact absurd htag (hagree.tags d' (hold d' hd') p hp d hd)
  have hnames : NamesIn (symbolTableInit s.table) (declaredNames (ds ++ [d])) := by
    intro key ref hlookup
    rcases h.keys key ref hlookup with ⟨d', hd', heq⟩ | ⟨d', hd', p, hp, htag, _⟩
    · exact mem_declaredNames.mpr ⟨d', hold d' hd', .inl heq.symm⟩
    · exact mem_declaredNames.mpr ⟨d', hold d' hd', .inr ⟨p, hp, htag⟩⟩
  -- a tag that is in the table is not the name of a test, so it is a parameter
  have hparam (p : DeclaredParam) (hp : p ∈ d.params) (tag : String)
      (htag : p.paramTag = some tag) (ref : SymRef)
      (hlookup : symbolTableLookup (symbolTableInit s.table) tag = some ref) :
      ∃ d' ∈ ds, ∃ q ∈ d'.params, q.paramTag = some tag ∧
        HoldsDefault (symbolTableInit s.table) q ref := by
    rcases h.keys tag ref hlookup with ⟨d', hd', heq⟩ | hq
    · exact absurd (heq ▸ htag) (hagree.tags d hd p hp d' (hold d' hd'))
    · exact hq
  have hparams : ∀ p ∈ d.params, p.paramTag ≠ some d.name ∧
      Declarable s.configLoadComplete (symbolTableInit s.table)
        (declaredNames (ds ++ [d])) p := by
    intro p hp
    obtain ⟨htag, hbox, _⟩ := hagree.stored d hd p hp
    obtain ⟨tag, htag⟩ := Option.isSome_iff_exists.mp htag
    obtain ⟨val, hval⟩ := Option.isSome_iff_exists.mp hbox
    refine ⟨hagree.tags d hd p hp d hd, tag, val, htag, hval,
      mem_declaredNames.mpr ⟨d, hd, .inr ⟨p, hp, htag⟩⟩, fun _ => hload, ?_⟩
    intro ref hlookup
    obtain ⟨_, _, q, _, _, val', _, hq⟩ := hparam p hp tag htag ref hlookup
    rw [hq]
    rfl
  obtain ⟨t', refs, hrun, _, hdeclared⟩ := declare_new h.ok hnew hagree.room hnames
    (mem_declaredNames.mpr ⟨d, hd, .inl rfl⟩) (fun hl => by rw [hload] at hl; cases hl)
    d.argHandler hparams
  have hkeys : ∀ key ref, symbolTableLookup t' key = some ref →
      (∃ d' ∈ ds ++ [d], d'.name = key) ∨ ∃ d' ∈ ds ++ [d], ∃ p ∈ d'.params,
        p.paramTag = some key ∧ HoldsDefault t' p ref := by
    intro key ref href
    by_cases heq : key = d.name
    · exact .inl ⟨d, hd, heq.symm⟩
    cases hlookup : symbolTableLookup (symbolTableInit s.table) key with
    | none =>
        obtain ⟨p, hp, val, htag, hval, hparam'⟩ :=
          hdeclared.added key ref heq hlookup href
        exact .inr ⟨d, hd, p, hp, htag, val, hval, hparam'⟩
    | some ref₀ =>
        have hsame := hdeclared.grows.lookup key ref₀ hlookup
        rw [href] at hsame
        cases hsame
        rcases h.keys key ref hlookup with ⟨d', hd', heq'⟩ | ⟨d', hd', p, hp, htag, hval⟩
        · exact .inl ⟨d', hold d' hd', heq'⟩
        · exact .inr ⟨d', hold d' hd', p, hp, htag, hval.grows h.ok hdeclared.grows⟩
  refine ⟨t', hrun, hdeclared.grows.ok, hkeys, ?_⟩
  intro d' hd'
  rcases List.mem_append.mp hd' with hd' | hd'
  · obtain ⟨ref, td, refs', hlookup, htest, hsettings, hleads⟩ := h.tests d' hd'
    have hlt := testAt_lt_top h.ok htest
    refine ⟨ref, td, refs', hdeclared.grows.lookup _ _ hlookup, ?_, hsettings, ?_⟩
    · rw [hdeclared.grows.testAt_eq hlt (Nat.ne_of_lt hlt), htest]
    · exact hleads.imp fun p ref' hp => hp.grows h.ok hdeclared.grows
  · obtain rfl : d' = d := by simpa using hd'
    obtain ⟨td, htest, hsettings⟩ := hdeclared.test
    refine ⟨_, td, refs, hdeclared.lookup, htest, hsettings, ?_⟩
    obtain ⟨hlength, hleads⟩ := List.forall₂_iff_zip.mp hdeclared.leads
    refine List.forall₂_iff_zip.mpr ⟨hlength, fun {p ref} hmem => ?_⟩
    have hp : p ∈ d'.params := (List.of_mem_zip hmem).1
    obtain ⟨tag, htag, hlookup, _⟩ := hleads hmem
    rcases hkeys tag ref hlookup with ⟨d₁, hd₁, heq⟩ | ⟨d₁, hd₁, q, hq, hqtag, val, hval, hparam'⟩
    · exact absurd (heq ▸ htag) (hagree.tags d' hd p hp d₁ hd₁)
    · refine ⟨val, ?_, hparam'⟩
      rw [hagree.agree d' hd p hp d₁ hd₁ q hq (htag.trans hqtag.symm), hval]

/-- **A sequence of declarations.** -/
theorem declared_run (ds : List Declaration) (hnames : (ds.map Declaration.name).Nodup)
    (hagree : DefaultsAgree ds) :
    ∃ s, calls.exec .initial (ds.map Declaration.call) = some s ∧
      s.configLoadComplete = false ∧ Declared ds (symbolTableInit s.table) ∧
      (ds ≠ [] → symbolTableInit s.table = s.table) := by
  induction ds using List.reverseRecOn with
  | nil =>
      refine ⟨.initial, rfl, rfl, ⟨tableOk_init (.inl rfl), ?_, ?_⟩,
        fun hne => absurd rfl hne⟩
      · intro key ref hlookup
        cases hlookup
      · intro d hd
        cases hd
  | append_singleton ds d ih =>
      rw [List.map_append, List.nodup_append] at hnames
      obtain ⟨hold, _, hdisjoint⟩ := hnames
      obtain ⟨s, hrun, hload, hdeclared, _⟩ := ih hold hagree.prefix
      have hname : ∀ d' ∈ ds, d'.name ≠ d.name := by
        intro d' hd'
        exact hdisjoint d'.name (List.mem_map_of_mem hd') d.name (by simp)
      obtain ⟨t', hcall, ht'⟩ := hdeclared.step hagree hname hload
      have hinit := symbolTableInit_of_ok ht'.ok
      refine ⟨{ s with table := t' }, ?_, hload, ?_, fun _ => hinit⟩
      · rw [List.map_append, calls.exec_append, hrun, Option.bind_some,
          List.map_singleton, calls.exec_cons, calls_step_eq_some.mpr ⟨0, hcall⟩]
        rfl
      · rw [hinit]
        exact ht'

/-! ## The variants -/

/-- The one variant of the test is that of its own defaults, with the types that
they are declared with. -/
def OwnDefaults (t : SymbolTable) (gen : GenFuncs) (d : Declaration) : Prop :=
  ∃ row fuel, (∀ fuel' ≥ fuel, bltsConfigGenerateTestVariations t gen fuel' d.name
      .combinations = .ok [row]) ∧
    List.Forall₂ (fun p v => declaredDefault p.value = some v) d.params row

/-- The parameters of a test generate its defaults. -/
theorem generates_row {t : SymbolTable} (gen : GenFuncs) {params : List DeclaredParam}
    {refs : List SymRef} (h : List.Forall₂ (HoldsDefault t) params refs)
    (hstored : ∀ p ∈ params, p.value.box = declaredDefault p.value) :
    ∃ row, List.Forall₂ (fun p v => declaredDefault p.value = some v) params row ∧
      List.Forall₂ (GeneratesValues t gen) refs (row.map fun v => [v]) := by
  induction h with
  | nil => exact ⟨[], .nil, .nil⟩
  | @cons p ref params refs hp _ ih =>
      obtain ⟨row, hrow, hvalues⟩ := ih fun q hq => hstored q (by simp [hq])
      obtain ⟨val, hval, hparam⟩ := hp
      rw [hstored p (by simp)] at hval
      exact ⟨val :: row, .cons hval hrow, .cons (generatesValues_default hparam) hvalues⟩

/-- The test of a declaration in the table has one variant. -/
theorem Declared.ownDefaults {ds : List Declaration} {t : SymbolTable}
    (h : Declared ds t) (hagree : DefaultsAgree ds) (gen : GenFuncs)
    {d : Declaration} (hd : d ∈ ds) : OwnDefaults t gen d := by
  obtain ⟨ref, td, refs, hlookup, htest, hsettings, hleads⟩ := h.tests d hd
  obtain ⟨hparams, hlength⟩ := hagree.params d hd
  obtain ⟨row, hrow, hvalues⟩ := generates_row gen hleads
    fun p hp => (hagree.stored d hd p hp).2.2
  have hrefs : refs ≠ [] := by
    rintro rfl
    exact hparams (List.forall₂_nil_right_iff.mp hleads)
  obtain ⟨fuel, variants, hrun, hall⟩ := singleSettings_combinations h.ok hlookup htest
    hsettings hrefs hvalues
    (fun vs hvs => by
      obtain ⟨v, _, rfl⟩ := List.mem_map.mp hvs
      exact List.cons_ne_nil v [])
    (by
      have hprod : ((row.map fun v => [v]).map List.length).prod = 1 := by
        simp [Function.comp_def]
      rw [hprod, List.length_map, ← hrow.length_eq]
      show 1 * _ * 4 < 4294967296
      omega)
  rw [hall.singletons] at hrun
  exact ⟨row, fuel, hrun, hrow⟩

/--
**The tests run with their own defaults** after every sequence of declarations
of distinct tests that agree on their defaults: there is one variant for each
test, its defaults in the order of the declaration, and with the declared types.
-/
theorem own_defaults {ds : List Declaration}
    (hnames : (ds.map Declaration.name).Nodup) (hagree : DefaultsAgree ds) :
    ∃ s, calls.exec .initial (ds.map Declaration.call) = some s ∧
      ∀ gen, ∀ d ∈ ds, OwnDefaults s.table gen d := by
  obtain ⟨s, hrun, _, hdeclared, hinit⟩ := declared_run ds hnames hagree
  refine ⟨s, hrun, fun gen d hd => ?_⟩
  have hne : ds ≠ [] := List.ne_nil_of_mem hd
  rw [← hinit hne]
  exact hdeclared.ownDefaults hagree gen hd

/-- Two tests that share the tag `v` and agree on it. -/
def sharedDefault : List Declaration :=
  [⟨"A", none, [⟨some "v", .int 1⟩, ⟨some "w", .string (some "x")⟩]⟩,
    ⟨"B", none, [⟨some "v", .int 1⟩]⟩]

theorem own_defaults_shared :
    ∃ s, calls.exec .initial (sharedDefault.map Declaration.call) = some s ∧
      ∀ gen, ∀ d ∈ sharedDefault, OwnDefaults s.table gen d :=
  own_defaults (by decide +kernel) (by decide +kernel)

/-- Test `B` declares 2 for the tag that test `A` declared 1 for. -/
def differentDefaults : List Declaration :=
  [⟨"A", none, [⟨some "v", .int 1⟩]⟩, ⟨"B", none, [⟨some "v", .int 2⟩]⟩]

/-- It runs with 1. -/
theorem own_defaults_different :
    (differentDefaults.map Declaration.name).Nodup ∧
      ∃ s, calls.exec .initial (differentDefaults.map Declaration.call) = some s ∧
        ∀ gen, (∃ fuel, ∀ fuel' ≥ fuel, bltsConfigGenerateTestVariations s.table gen
          fuel' "B" .combinations = .ok [[.int 1]]) ∧
          ¬ ∀ d ∈ differentDefaults, OwnDefaults s.table gen d := by
  refine ⟨by decide, ?_⟩
  have hsome : (calls.exec .initial (differentDefaults.map Declaration.call)).any
      (fun s => symbolTableLookup s.table "B" = some 2 ∧
        (testAt s.table 2).map TestDef.settings = some (singleSettings [1]) ∧
        paramAt s.table 1 = some (defaultParam (.int 1))) = true := by
    decide +kernel
  obtain ⟨s, hrun, hs⟩ := (Option.any_eq_true _ _).mp hsome
  obtain ⟨hlookup, htest, hparam⟩ := of_decide_eq_true hs
  obtain ⟨td, htd, hsettings⟩ := Option.map_eq_some_iff.mp htest
  have hok : TableOk s.table := by
    rcases tableOk_keptByCalls.reached hrun with rfl | h
    · cases hlookup
    · exact h
  refine ⟨s, hrun, fun gen => ?_⟩
  have hvalues : List.Forall₂ (GeneratesValues s.table gen) [1] [[.int 1]] :=
    .cons (generatesValues_default hparam) .nil
  obtain ⟨fuel, variants, hvariants, hall⟩ := singleSettings_combinations hok hlookup htd
    hsettings (by decide) hvalues (by decide) (by decide)
  have hone : variants = [[.int 1]] :=
    AllCombinations.singletons
      (show AllCombinations ([.int 1].map fun v => [v]) variants from hall)
  rw [hone] at hvariants
  refine ⟨⟨fuel, hvariants⟩, fun hown => ?_⟩
  obtain ⟨row, fuel', hrow, hdefaults⟩ :=
    hown ⟨"B", none, [⟨some "v", .int 2⟩]⟩ (by decide)
  have hsame := hrow (max fuel fuel') (Nat.le_max_right _ _)
  rw [hvariants (max fuel fuel') (Nat.le_max_left _ _)] at hsame
  cases hsame
  cases hdefaults with
  | cons hdefault _ => cases hdefault

end Blts.Config
