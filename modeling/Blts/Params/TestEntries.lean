import Blts.Params.TableKept

/-!
# One test, seen through the writes to the table

A declaration writes to the test it declares, and adds entries at the top of
the table.  `Grows` says that nothing else happens: the other entries stay as
they are, and names that lead somewhere go on leading there.  What happens to
the test itself is said by `testAt`.
-/

namespace Blts.Params

open Blts.Lib

/-- The test that a pointer leads to. -/
def testAt (t : SymbolTable) (ref : SymRef) : Option TestDef :=
  match t.entry? ref with
  | some { data := .test td, .. } => some td
  | _ => none

/-- The parameter that a pointer leads to. -/
def paramAt (t : SymbolTable) (ref : SymRef) : Option ParamDef :=
  match t.entry? ref with
  | some { data := .param pd, .. } => some pd
  | _ => none

theorem testAt_eq_some {t : SymbolTable} {ref : SymRef} {td : TestDef} :
    testAt t ref = some td ↔ ∃ key, t.entry? ref = some ⟨key, .test td⟩ := by
  unfold testAt
  constructor
  · intro h
    split at h
    next key td' hentry =>
      cases h
      exact ⟨key, hentry⟩
    next => cases h
  · rintro ⟨key, hentry⟩
    rw [hentry]

theorem paramAt_eq_some {t : SymbolTable} {ref : SymRef} {pd : ParamDef} :
    paramAt t ref = some pd ↔ ∃ key, t.entry? ref = some ⟨key, .param pd⟩ := by
  unfold paramAt
  constructor
  · intro h
    split at h
    next key pd' hentry =>
      cases h
      exact ⟨key, hentry⟩
    next => cases h
  · rintro ⟨key, hentry⟩
    rw [hentry]

/-- The table `t'` is `t` with writes to one test and new entries at the top. -/
structure Grows (test : SymRef) (t t' : SymbolTable) : Prop where
  ok : TableOk t'
  top : t.top ≤ t'.top
  entry : ∀ ref < t.top, ref ≠ test → t'.entry? ref = t.entry? ref
  lookup : ∀ key ref, symbolTableLookup t key = some ref →
    symbolTableLookup t' key = some ref

namespace Grows

variable {test : SymRef} {t t' t'' : SymbolTable}

theorem refl (h : TableOk t) : Grows test t t :=
  ⟨h, Nat.le_refl _, fun _ _ _ => rfl, fun _ _ hkey => hkey⟩

theorem trans (h : Grows test t t') (h' : Grows test t' t'') : Grows test t t'' where
  ok := h'.ok
  top := Nat.le_trans h.top h'.top
  entry ref hlt hne :=
    (h'.entry ref (Nat.lt_of_lt_of_le hlt h.top) hne).trans (h.entry ref hlt hne)
  lookup key ref hkey := h'.lookup key ref (h.lookup key ref hkey)

theorem paramAt_eq (h : Grows test t t') {ref : SymRef} (hlt : ref < t.top)
    (hne : ref ≠ test) : paramAt t' ref = paramAt t ref := by
  unfold paramAt
  rw [h.entry ref hlt hne]

theorem testAt_eq (h : Grows test t t') {ref : SymRef} (hlt : ref < t.top)
    (hne : ref ≠ test) : testAt t' ref = testAt t ref := by
  unfold testAt
  rw [h.entry ref hlt hne]

end Grows

/-- An allocated table is not initialised again. -/
theorem symbolTableInit_of_ok {t : SymbolTable} (h : TableOk t) :
    symbolTableInit t = t := by
  obtain ⟨cells, hcells⟩ := Option.isSome_iff_exists.mp h.allocated
  unfold symbolTableInit
  rw [hcells]

/-! ## Writing to a test -/

/-- An entry after a write to a test. -/
def writeTest (f : TestDef → TestDef) (e : SymbolTableEntry) : SymbolTableEntry :=
  { e with data :=
      match e.data with
      | .test td => .test (f td)
      | data => data }

variable {t t' : SymbolTable} {test : SymRef}

theorem entry?_modifyTest (h : TableOk t) (test : SymRef) (f : TestDef → TestDef)
    (ref : SymRef) :
    SymbolTable.entry? (t.modifyTest test f) ref =
      if test = ref then (t.entry? ref).map (writeTest f) else t.entry? ref := by
  obtain ⟨r, hr⟩ := h.holds
  have hr' := hr.modifyEntry test fun
    | .test td => .test (f td)
    | data => data
  rw [show SymbolTable.entry? (t.modifyTest test f) ref = _ from hr'.entry? ref,
    hr.entry?]
  simp only [modifySymbol, Registry.update, List.getElem?_modify]
  by_cases heq : test = ref
  · simp only [if_pos heq]
    rfl
  · simp only [if_neg heq]
    exact Option.map_id'

@[simp] theorem top_modifyTest (t : SymbolTable) (test : SymRef)
    (f : TestDef → TestDef) : (t.modifyTest test f).top = t.top := rfl

theorem lookup_modifyTest (h : TableOk t) (test : SymRef) (f : TestDef → TestDef)
    (key : String) :
    symbolTableLookup (t.modifyTest test f) key = symbolTableLookup t key := by
  obtain ⟨r, hr⟩ := h.holds
  rw [hr.lookup, show symbolTableLookup (t.modifyTest test f) key = _ from
    (hr.modifyEntry test _).lookup key]
  exact Registry.find_update r test _ _ key

theorem grows_modifyTest (h : TableOk t) (test : SymRef) (f : TestDef → TestDef) :
    Grows test t (t.modifyTest test f) where
  ok := h.modifyTest test f
  top := Nat.le_refl _
  entry ref _ hne := by rw [entry?_modifyTest h, if_neg (Ne.symm hne)]
  lookup key ref hkey := by rw [lookup_modifyTest h, hkey]

theorem testAt_modifyTest (h : TableOk t) {td : TestDef}
    (htest : testAt t test = some td) (f : TestDef → TestDef) :
    testAt (t.modifyTest test f) test = some (f td) := by
  obtain ⟨key, hentry⟩ := testAt_eq_some.mp htest
  apply testAt_eq_some.mpr
  refine ⟨key, ?_⟩
  rw [entry?_modifyTest h, if_pos rfl, hentry]
  rfl

/-- A parameter is not a test, and is not written to. -/
theorem paramAt_modifyTest (h : TableOk t) (test : SymRef) (f : TestDef → TestDef)
    (ref : SymRef) : paramAt (t.modifyTest test f) ref = paramAt t ref := by
  unfold paramAt
  rw [entry?_modifyTest h]
  by_cases heq : test = ref
  · rw [if_pos heq]
    cases t.entry? ref with
    | none => rfl
    | some e =>
        obtain ⟨key, data⟩ := e
        cases data <;> rfl
  · rw [if_neg heq]

theorem paramAt_lt_top (h : TableOk t) {ref : SymRef} {pd : ParamDef}
    (hparam : paramAt t ref = some pd) : ref < t.top := by
  obtain ⟨key, hentry⟩ := paramAt_eq_some.mp hparam
  exact h.lt_top_of_entry? hentry

theorem testAt_lt_top (h : TableOk t) {td : TestDef}
    (htest : testAt t test = some td) : test < t.top := by
  obtain ⟨key, hentry⟩ := testAt_eq_some.mp htest
  exact h.lt_top_of_entry? hentry

/-! ## Adding a parameter with a default -/

/-- A name that a default can be declared for: that of a parameter, or a new one
while there is room. -/
def ParamReady (t : SymbolTable) (tag : String) : Prop :=
  match symbolTableLookup t tag with
  | some ref => (paramAt t ref).isSome = true
  | none => t.top < symbolTableMax

/-- What `insertDefault` does to a table. -/
structure DefaultInserted (test : SymRef) (t t' : SymbolTable) (tag : String)
    (val : BoxedValue) (ref : SymRef) : Prop where
  grows : Grows test t t'
  lookup : symbolTableLookup t' tag = some ref
  old : ∀ key, key ≠ tag → symbolTableLookup t' key = symbolTableLookup t key
  param : paramAt t' ref =
    if symbolTableLookup t tag = none then some (defaultParam val) else paramAt t ref
  top : t'.top = if symbolTableLookup t tag = none then t.top + 1 else t.top

/-- An insertion of a new name into a table with room. -/
theorem insert_new (h : TableOk t) {e : SymbolTableEntry}
    (he : generatedRefs e.data = []) (hroom : t.top < symbolTableMax)
    (hnew : symbolTableLookup t e.key = none) :
    ∃ t', symbolTableInsert t e = .ok (0, t') ∧ TableOk t' ∧
      t'.top = t.top + 1 ∧
      (∀ key, symbolTableLookup t' key =
        if e.key = key then some t.top else symbolTableLookup t key) ∧
      ∀ ref, t'.entry? ref = if ref = t.top then some e else t.entry? ref := by
  have hrefs : ∀ ref ∈ generatedRefs e.data, ref < t.top := by
    rw [he]
    exact fun ref href => absurd href List.not_mem_nil
  rcases h.insert hrefs with ⟨ret, hret, hrun⟩ | hins
  · obtain ⟨cells, hcells⟩ := Option.isSome_iff_exists.mp h.allocated
    unfold symbolTableInsert at hrun
    rw [if_neg (by omega), hnew, hcells] at hrun
    exact absurd (congrArg Prod.fst (Except.ok.inj hrun)).symm hret
  · exact hins

/-- A new entry at the top leaves the test alone. -/
theorem grows_insert (ht' : TableOk t') {e : SymbolTableEntry}
    (htop : t'.top = t.top + 1)
    (hnew : symbolTableLookup t e.key = none)
    (hlookup : ∀ key, symbolTableLookup t' key =
      if e.key = key then some t.top else symbolTableLookup t key)
    (hentry : ∀ ref, t'.entry? ref = if ref = t.top then some e else t.entry? ref)
    (test : SymRef) : Grows test t t' where
  ok := ht'
  top := by omega
  entry ref hlt _ := by
    rw [hentry]
    exact if_neg (Nat.ne_of_lt hlt)
  lookup key ref hkey := by
    rw [hlookup]
    by_cases heq : e.key = key
    · rw [← heq, hnew] at hkey
      cases hkey
    · rw [if_neg heq, hkey]

/-- **A default** is inserted for a new name only, and the name then leads to a
parameter. -/
theorem insertDefault_spec (h : TableOk t) {td : TestDef}
    (htest : testAt t test = some td) {tag : String} (hready : ParamReady t tag)
    (val : BoxedValue) :
    ∃ t' ref, insertDefault t tag val = .ok t' ∧
      DefaultInserted test t t' tag val ref ∧ testAt t' test = some td := by
  unfold insertDefault
  unfold ParamReady at hready
  cases hlookup : symbolTableLookup t tag with
  | some ref =>
      exact ⟨t, ref, rfl, ⟨Grows.refl h, hlookup, fun _ _ => rfl,
        by simp [hlookup], by simp [hlookup]⟩, htest⟩
  | none =>
      rw [hlookup] at hready
      obtain ⟨t', hrun, ht', htop, hlook, hentry⟩ := insert_new h
        (e := ⟨tag, .param (defaultParam val)⟩) rfl hready hlookup
      have hlt := testAt_lt_top h htest
      refine ⟨t', t.top, ?_, ⟨grows_insert ht' htop hlookup hlook hentry test,
        ?_, ?_, ?_, ?_⟩, ?_⟩
      · rw [hrun]
        rfl
      · rw [hlook, if_pos rfl]
      · intro key hne
        rw [hlook, if_neg (Ne.symm hne)]
      · unfold paramAt
        rw [if_pos hlookup, hentry, if_pos rfl]
      · rw [if_pos hlookup, htop]
      · unfold testAt at htest ⊢
        rw [hentry, if_neg (Nat.ne_of_lt hlt), htest]

/-- The setting is added to the test, if both names lead to what they should. -/
theorem addParamForTest_spec {td : TestDef}
    (htest : testAt t test = some td) {tag key : String} {ref : SymRef}
    (htag : symbolTableLookup t tag = some ref) (hparam : (paramAt t ref).isSome = true)
    (hkey : symbolTableLookup t key = some test) :
    symbolTableAddParamForTest t tag key =
      .ok (t.modifyTest test (TestDef.addSetting ref)) := by
  obtain ⟨pd, hpd⟩ := Option.isSome_iff_exists.mp hparam
  obtain ⟨_, hentry⟩ := paramAt_eq_some.mp hpd
  obtain ⟨_, htestEntry⟩ := testAt_eq_some.mp htest
  unfold symbolTableAddParamForTest
  rw [htag, hkey]
  simp only [hentry, htestEntry]

/-- **One parameter** of a declaration that builds its test. -/
theorem addDeclaredParam_spec (h : TableOk t) {td : TestDef}
    (htest : testAt t test = some td) {key : String}
    (hkey : symbolTableLookup t key = some test) {tag : String}
    (hready : ParamReady t tag) (val : BoxedValue) :
    ∃ t' ref, addDeclaredParam true test key (some tag) val t = .ok t' ∧
      DefaultInserted test t t' tag val ref ∧
      testAt t' test = some ((td.prependParam tag val).addSetting ref) := by
  have h₁ := h.modifyTest test (TestDef.prependParam tag val)
  have htest₁ := testAt_modifyTest h htest (TestDef.prependParam tag val)
  have hready₁ : ParamReady (t.modifyTest test (TestDef.prependParam tag val)) tag := by
    unfold ParamReady at hready ⊢
    rw [lookup_modifyTest h]
    simp only [paramAt_modifyTest h]
    exact hready
  obtain ⟨t₂, ref, hrun, hins, htest₂⟩ := insertDefault_spec h₁ htest₁ hready₁ val
  have hkey₂ : symbolTableLookup t₂ key = some test := by
    apply hins.grows.lookup
    rw [lookup_modifyTest h, hkey]
  have hparam₂ : (paramAt t₂ ref).isSome = true := by
    rw [hins.param, lookup_modifyTest h, paramAt_modifyTest h]
    split
    · rfl
    next hold =>
      unfold ParamReady at hready
      obtain ⟨old, holdRef⟩ := Option.ne_none_iff_exists'.mp hold
      have hsame : old = ref := by
        have hgrown := hins.grows.lookup tag old (by rw [lookup_modifyTest h, holdRef])
        rw [hins.lookup] at hgrown
        exact (Option.some.inj hgrown).symm
      rw [holdRef, hsame] at hready
      exact hready
  obtain ⟨cells, hcells⟩ := Option.isSome_iff_exists.mp h₁.allocated
  have hset := grows_modifyTest hins.grows.ok test (TestDef.addSetting ref)
  refine ⟨t₂.modifyTest test (TestDef.addSetting ref), ref, ?_, ⟨?_, ?_, ?_, ?_, ?_⟩,
    testAt_modifyTest hins.grows.ok htest₂ _⟩
  · unfold addDeclaredParam
    rw [if_pos rfl]
    unfold symbolTableInsertParamWithDefault
    simp only [Option.getD_some, hcells, hrun]
    exact addParamForTest_spec htest₂ hins.lookup hparam₂ hkey₂
  · exact ((grows_modifyTest h test _).trans hins.grows).trans hset
  · rw [lookup_modifyTest hins.grows.ok, hins.lookup]
  · intro key' hne
    rw [lookup_modifyTest hins.grows.ok, hins.old key' hne, lookup_modifyTest h]
  · rw [paramAt_modifyTest hins.grows.ok, hins.param, lookup_modifyTest h,
      paramAt_modifyTest h]
  · rw [top_modifyTest, hins.top, lookup_modifyTest h, top_modifyTest]

/-- A setting is only ever added for a parameter. -/
theorem param_of_addParamForTest {tag key : String}
    (hrun : symbolTableAddParamForTest t tag key = .ok t') :
    ∃ ref, symbolTableLookup t tag = some ref ∧ (paramAt t ref).isSome = true := by
  unfold symbolTableAddParamForTest at hrun
  split at hrun
  next ref test htag _ =>
    split at hrun
    next hentry _ => exact ⟨ref, htag, by rw [paramAt, hentry]; rfl⟩
    next => cases hrun
  next => cases hrun

/-- Otherwise the program stops. -/
theorem ready_of_addDeclaredParam (h : TableOk t) {key : String}
    {paramTag : Option String} {val : BoxedValue}
    (hrun : addDeclaredParam true test key paramTag val t = .ok t') :
    ∃ tag, paramTag = some tag ∧ ParamReady t tag := by
  unfold addDeclaredParam at hrun
  rw [if_pos rfl] at hrun
  unfold symbolTableInsertParamWithDefault at hrun
  split at hrun
  next cells tag _ =>
    refine ⟨tag, rfl, ?_⟩
    generalize hf : TestDef.prependParam _ val = f at hrun
    have hlookup := lookup_modifyTest h test f tag
    unfold insertDefault at hrun
    unfold ParamReady
    cases htag : symbolTableLookup t tag with
    | some ref =>
        rw [hlookup, htag] at hrun
        have hadd : symbolTableAddParamForTest (t.modifyTest test f) tag key = .ok t' :=
          hrun
        obtain ⟨ref', hfound, hparam⟩ := param_of_addParamForTest hadd
        rw [hlookup, htag] at hfound
        cases hfound
        rwa [paramAt_modifyTest h] at hparam
    | none =>
        show t.top < symbolTableMax
        by_contra hfull
        have hins : symbolTableInsert (t.modifyTest test f)
            ⟨tag, .param (defaultParam val)⟩ = .ok (-enomem, t.modifyTest test f) :=
          if_pos (by rw [top_modifyTest]; omega)
        rw [hlookup, htag, hins] at hrun
        have hadd : symbolTableAddParamForTest (t.modifyTest test f) tag key = .ok t' :=
          hrun
        obtain ⟨ref', hfound, _⟩ := param_of_addParamForTest hadd
        rw [hlookup, htag] at hfound
        cases hfound
  next => cases hrun

end Blts.Params
