import Blts.Params.Declare
import Blts.Params.GeneratedOrder

/-!
# What declarations keep

Every function that is given an allocated table leaves it allocated, holding
entries with distinct keys from index zero up to `symbol_table_top`, and with
generated parameters that refer backwards (`TableOk`).  Entries are not removed
and their keys and references do not change, so that what a name leads to stays
where it is.
-/

namespace Blts.Params

open Blts.Lib

/-- The table is allocated and holds a registry, and generated parameters refer
backwards. -/
structure TableOk (t : SymbolTable) : Prop where
  holds : ∃ r, Holds t r
  allocated : t.cells.isSome = true
  below : GeneratedBelow t

namespace TableOk

variable {t : SymbolTable}

/-- An entry stands below the top of the table. -/
theorem lt_top_of_entry? (h : TableOk t) {ref : SymRef} {e : SymbolTableEntry}
    (he : t.entry? ref = some e) : ref < t.top := by
  obtain ⟨r, hr⟩ := h.holds
  rw [hr.entry?] at he
  rw [hr.top]
  exact (List.getElem?_eq_some_iff.mp he).1

/-- A lookup finds an entry with the key. -/
theorem entry?_of_lookup (h : TableOk t) {key : String} {ref : SymRef}
    (hkey : symbolTableLookup t key = some ref) :
    ∃ e, t.entry? ref = some e ∧ e.key = key := by
  obtain ⟨r, hr⟩ := h.holds
  rw [hr.lookup] at hkey
  obtain ⟨e, he, hk⟩ := Registry.find_eq_some_iff.mp hkey
  exact ⟨e, (hr.entry? ref).trans he, hk⟩

theorem lt_top_of_lookup (h : TableOk t) {key : String} {ref : SymRef}
    (hkey : symbolTableLookup t key = some ref) : ref < t.top := by
  obtain ⟨e, he, _⟩ := h.entry?_of_lookup hkey
  exact h.lt_top_of_entry? he

/-- **Insertion.**  A rejected insertion changes nothing; an accepted one puts
the entry at the top and leaves the others where they are. -/
theorem insert (h : TableOk t) {e : SymbolTableEntry}
    (he : ∀ ref ∈ generatedRefs e.data, ref < t.top) :
    (∃ ret, ret ≠ 0 ∧ symbolTableInsert t e = .ok (ret, t)) ∨
    ∃ t', symbolTableInsert t e = .ok (0, t') ∧ TableOk t' ∧
      t'.top = t.top + 1 ∧
      (∀ key, symbolTableLookup t' key =
        if e.key = key then some t.top else symbolTableLookup t key) ∧
      ∀ ref, t'.entry? ref = if ref = t.top then some e else t.entry? ref := by
  obtain ⟨r, hr⟩ := h.holds
  have hins := hr.insert h.allocated e
  cases hreg : r.insert e with
  | none =>
      rw [hreg] at hins
      exact .inl hins
  | some r' =>
      rw [hreg] at hins
      obtain ⟨t', hrun, hr', halloc⟩ := hins
      have hentries := Registry.entries_insert hreg
      have hentry (ref : Nat) :
          t'.entry? ref = if ref = t.top then some e else t.entry? ref := by
        rw [hr'.entry?, hr.entry?, hentries, hr.top]
        by_cases href : ref = r.entries.length
        · rw [if_pos href, href, List.getElem?_concat_length]
        · rw [if_neg href]
          by_cases hlt : ref < r.entries.length
          · rw [List.getElem?_append_left hlt]
          · rw [List.getElem?_eq_none (by simp; omega),
              List.getElem?_eq_none (by omega)]
      have htop : t'.top = t.top + 1 := by
        rw [hr'.top, hentries, List.length_append, hr.top]
        rfl
      have hbelow : GeneratedBelow t' := by
        intro i e' he' ref href
        rw [hentry] at he'
        by_cases hi : i = t.top
        · rw [if_pos hi] at he'
          cases he'
          exact hi ▸ he ref href
        · rw [if_neg hi] at he'
          exact h.below i e' he' ref href
      refine .inr ⟨t', hrun, ⟨⟨r', hr'⟩, halloc, hbelow⟩, htop, ?_, hentry⟩
      intro key
      rw [hr'.lookup, hr.lookup, hr.top]
      exact Registry.find_insert hreg key

/-- A write through a pointer that does not touch generators. -/
theorem modifyEntry (h : TableOk t) (ref : SymRef) {f : SymbolData → SymbolData}
    (hf : ∀ data, generatedRefs (f data) = generatedRefs data) :
    TableOk (t.modifyEntry ref f) := by
  obtain ⟨r, hr⟩ := h.holds
  have hr' := hr.modifyEntry ref f
  refine ⟨⟨_, hr'⟩, by simpa using h.allocated, ?_⟩
  intro i e he ref' href'
  rw [hr'.entry?] at he
  simp only [modifySymbol, Registry.update, List.getElem?_modify] at he
  obtain ⟨e', he', rfl⟩ := Option.map_eq_some_iff.mp he
  rw [← hr.entry?] at he'
  by_cases hi : ref = i
  · rw [if_pos hi, hf] at href'
    exact h.below i e' he' ref' href'
  · rw [if_neg hi] at href'
    exact h.below i e' he' ref' href'

/-- Writing to a test does not touch generators. -/
theorem modifyTest (h : TableOk t) (test : SymRef) (f : TestDef → TestDef) :
    TableOk (t.modifyTest test f) := by
  apply h.modifyEntry test
  intro data
  cases data <;> rfl

end TableOk

/-! ## Computations that keep something -/

/-- The computation ends with a result of this kind, or with a fault that is
not a write outside of the table. -/
def Keeps {α : Type} (I : α → Prop) : Except Fault α → Prop
  | .ok a => I a
  | .error f => f ≠ .tableWrite

theorem Keeps.bind {α β : Type} {I : α → Prop} {J : β → Prop}
    {x : Except Fault α} {f : α → Except Fault β} (hx : Keeps I x)
    (hf : ∀ a, I a → Keeps J (f a)) : Keeps J (x >>= f) := by
  cases x with
  | error e => exact hx
  | ok a => exact hf a hx

/-- The checks of a tag change nothing. -/
theorem keeps_undefinedTag (loaded : Bool) (t : SymbolTable)
    (tag : Option String) : Keeps (fun _ => True) (undefinedTag loaded t tag) := by
  cases tag with
  | some tag => trivial
  | none => cases loaded <;> first | trivial | exact fun hf => by cases hf

theorem keeps_pgroupParamType (t : SymbolTable) (e : SymbolTableEntry) :
    Keeps (fun _ => True) (pgroupParamType t e) := by
  unfold pgroupParamType
  repeat' split
  all_goals first | trivial | exact fun hf => by cases hf

/-- What declarations insert: tests, and parameters with one constant value. -/
def IsDeclared : SymbolData → Prop
  | .test _ => True
  | .param { args := .constlist (some [_]), .. } => True
  | _ => False

/-- A property of tables that survives what declarations do to them. -/
structure KeptByDeclarations (P : SymbolTable → Prop) : Prop where
  init : ∀ t, P t → P (symbolTableInit t)
  insert : ∀ t e, P t → IsDeclared e.data →
    Keeps P ((symbolTableInsert t e).map Prod.snd)
  modifyTest : ∀ t test f, P t → P (SymbolTable.modifyTest t test f)

/-! ## The functions -/

namespace KeptByDeclarations

variable {P : SymbolTable → Prop} (hP : KeptByDeclarations P)
include hP

theorem setup {t : SymbolTable} (h : P (symbolTableInit t))
    (testname : String) : Keeps P (setupSymbolTableNoConfig t testname) :=
  hP.insert _ _ h trivial

theorem addParamForTest {t : SymbolTable} (h : P t)
    (paramname testname : String) :
    Keeps P (symbolTableAddParamForTest t paramname testname) := by
  have hassert : Fault.assertFailed ≠ Fault.tableWrite := fun hf => by cases hf
  unfold symbolTableAddParamForTest
  split
  next param test _ _ =>
    split
    · exact hP.modifyTest _ test _ h
    · exact hassert
  next => exact hassert

theorem insertDefault {t : SymbolTable} (h : P t) (paramname : String)
    (value : BoxedValue) : Keeps P (insertDefault t paramname value) := by
  unfold Params.insertDefault
  split
  · exact h
  · exact hP.insert t _ h trivial

theorem insertParamWithDefault {t : SymbolTable} (h : P t)
    (paramname : Option String) (testname : String) (value : BoxedValue) :
    Keeps P
      (symbolTableInsertParamWithDefault t paramname testname value) := by
  unfold symbolTableInsertParamWithDefault
  split
  next paramname _ =>
    apply (hP.insertDefault h paramname value).bind
    intro t' ht'
    exact hP.addParamForTest ht' paramname testname
  next => exact fun hf => by cases hf

theorem addDeclaredParam (useDefaults : Bool) (test : SymRef) (key : String)
    (paramTag : Option String) (val : BoxedValue) {t : SymbolTable}
    (h : P t) :
    Keeps P (addDeclaredParam useDefaults test key paramTag val t) := by
  have h' := hP.modifyTest t test (TestDef.prependParam (paramTag.getD "") val) h
  cases useDefaults with
  | true => exact hP.insertParamWithDefault h' paramTag key val
  | false => exact h'

theorem declareParams (loaded useDefaults : Bool) (test : SymRef)
    (key : String) (params : List DeclaredParam) : ∀ {t : SymbolTable}, P t →
      Keeps (fun r => P r.2)
        (declareParams loaded useDefaults test key params t) := by
  induction params with
  | nil => exact fun h => hP.modifyTest _ test _ h
  | cons p params ih =>
      intro t h
      unfold Params.declareParams
      apply (keeps_undefinedTag loaded t p.paramTag).bind
      intro undefined _
      cases undefined with
      | true => exact h
      | false =>
          simp only [Bool.false_eq_true, if_false]
          split
          next => exact h
          next val _ =>
            apply (hP.addDeclaredParam useDefaults test key p.paramTag val h).bind
            exact fun t' ht' => ih ht'

theorem declareTest {s : ConfigState} (useDefaults : Bool) (name : String)
    (argHandler : Option FnRef) (params : List DeclaredParam) (test : SymRef)
    {t : SymbolTable} (h : P t) :
    Keeps (fun r => P r.2.table)
      (declareTest s useDefaults name argHandler params test t) := by
  apply (hP.declareParams _ useDefaults test name params
    (hP.modifyTest t test _ h)).bind
  exact fun r hr => hr

/-- The table that a declaration starts from. -/
theorem declaredTable {s : ConfigState}
    (h : P (symbolTableInit s.table))
    (hloaded : s.configLoadComplete = true → P s.table) (name : String) :
    Keeps P (declaredTable s name) := by
  unfold Params.declaredTable
  split
  next hload => exact hloaded hload
  next => exact hP.setup h name

/-- **Declarations** leave the table in order. -/
theorem declareVariableTest {s : ConfigState}
    (h : P (symbolTableInit s.table))
    (hloaded : s.configLoadComplete = true → P s.table)
    {name : String} (argHandler : Option FnRef) (params : List DeclaredParam) :
    Keeps (fun r => P r.2.table)
      (bltsConfigDeclareVariableTest s (some name) argHandler params) := by
  apply (hP.declaredTable h hloaded name).bind
  intro t ht
  split
  · split
    · exact hP.declareTest _ name argHandler params _ ht
    · exact ht
  · apply (hP.setup (hP.init t ht) name).bind
    intro t' ht'
    split
    · exact hP.declareTest _ name argHandler params _ ht'
    · exact ht'

theorem processPgroupParams (loaded : Bool) (test : SymRef)
    (syms : List SymRef) : ∀ {t : SymbolTable}, P t →
      Keeps (fun r => P r.2) (processPgroupParams loaded test syms t) := by
  induction syms with
  | nil => exact fun h => h
  | cons sym syms ih =>
      intro t h
      unfold Params.processPgroupParams
      split
      next => exact fun hf => by cases hf
      next e _ =>
        apply (keeps_pgroupParamType t e).bind
        intro type _
        apply (keeps_undefinedTag loaded t (some e.key)).bind
        intro undefined _
        cases undefined with
        | true => exact h
        | false =>
            simp only [Bool.false_eq_true, if_false]
            split
            next => exact h
            next type _ => exact ih (hP.modifyTest t test _ h)

theorem declareSettings (loaded : Bool) (test : SymRef)
    (settings : List TestSetting) : ∀ (ret : Int) {t : SymbolTable}, P t →
      Keeps (fun r => P r.2) (declareSettings loaded test settings ret t) := by
  induction settings with
  | nil => exact fun ret t h => h
  | cons setting settings ih =>
      intro ret t h
      cases setting with
      | paramlist syms =>
          apply (hP.processPgroupParams loaded test syms h).bind
          exact fun r hr => ih r.1 hr
      | pgroup ref =>
          unfold Params.declareSettings
          split
          next => exact fun hf => by cases hf
          next syms _ =>
            apply (hP.processPgroupParams loaded test syms h).bind
            exact fun r hr => ih r.1 hr
          next => exact fun hf => by cases hf
      | fix param value => exact ih ret h

theorem declareVariableTestDynamic {s : ConfigState}
    (h : P (symbolTableInit s.table))
    (hloaded : s.configLoadComplete = true → P s.table)
    {name : String} (argHandler : Option FnRef) :
    Keeps (fun r => P r.2.table)
      (bltsConfigDeclareVariableTestDynamic s (some name) argHandler) := by
  apply (hP.declaredTable h hloaded name).bind
  intro t ht
  dsimp only
  split
  next test key td _ =>
    apply (hP.declareSettings s.configLoadComplete test td.settings 0
      (hP.modifyTest t test _ ht)).bind
    intro r hr
    split
    · exact hP.modifyTest _ test _ hr
    · exact hr
  next => exact ht

end KeptByDeclarations

/-! ## The table stays in order -/

/-- An insertion of an entry without references. -/
theorem keeps_insert {t : SymbolTable} (h : TableOk t) {e : SymbolTableEntry}
    (he : generatedRefs e.data = []) :
    Keeps TableOk ((symbolTableInsert t e).map Prod.snd) := by
  have hrefs : ∀ ref ∈ generatedRefs e.data, ref < t.top := by
    rw [he]
    exact fun ref href => absurd href List.not_mem_nil
  rcases h.insert hrefs with ⟨ret, _, hrun⟩ | ⟨t', hrun, ht', _⟩
  · rw [hrun]
    exact h
  · rw [hrun]
    exact ht'

theorem tableOk_init {t : SymbolTable} (ht : t = .unallocated ∨ TableOk t) :
    TableOk (symbolTableInit t) := by
  rcases ht with rfl | h
  · refine ⟨⟨_, holds_unallocated.init⟩, rfl, ?_⟩
    intro i e he
    simp [symbolTableInit, SymbolTable.unallocated, SymbolTable.entry?,
      SymbolTable.block] at he
  · obtain ⟨cells, hcells⟩ := Option.isSome_iff_exists.mp h.allocated
    simpa only [symbolTableInit, hcells] using h

/-- **Declarations** leave the table in order. -/
theorem tableOk_keptByDeclarations : KeptByDeclarations TableOk where
  init _ h := tableOk_init (.inr h)
  insert t e h he := by
    apply keeps_insert h
    unfold IsDeclared at he
    split at he
    next hdata => rw [hdata]; rfl
    next hdata => rw [hdata]; rfl
    next => exact he.elim
  modifyTest _ test f h := h.modifyTest test f

end Blts.Params
