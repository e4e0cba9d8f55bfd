import Blts.Params.DeclareSpec

/-!
# The tags and defaults of a test

Both declarations prepend to the two lists of the test and reverse them at the
end, if they get there.  The parameters come in groups: one for a declaration
with arguments, one for every list of parameters in the settings of the test
otherwise.  A group ends at its first rejected parameter, and the result is that
of the last group.
-/

namespace Blts.Params

open Blts.Lib

/-! ## Groups -/

/-- What is recorded of a parameter: its tag and its default. -/
abbrev ParamEntry := String × BoxedValue

/-- The parameters of a group, `none` where one is rejected. -/
abbrev ParamGroup := List (Option ParamEntry)

/-- The parameters up to the first that is rejected. -/
def accepted : ParamGroup → List ParamEntry
  | some p :: group => p :: accepted group
  | _ => []

/-- The result of processing a group. -/
def groupResult (group : ParamGroup) : Int :=
  if none ∈ group then -einval else 0

/-- The result of processing the groups, that of the last one. -/
def groupsResult (groups : List ParamGroup) : Int :=
  (groups.getLast?.map groupResult).getD 0

/-- The two lists of a test. -/
structure ParamLists where
  paramTags : List String
  paramDefaults : List BoxedValue
  deriving DecidableEq

def TestDef.lists (td : TestDef) : ParamLists where
  paramTags := td.paramTags
  paramDefaults := td.paramDefaults

namespace ParamLists

def empty : ParamLists where
  paramTags := []
  paramDefaults := []

/-- The lists of these parameters, in order. -/
def ofEntries (ps : List ParamEntry) : ParamLists where
  paramTags := ps.map Prod.fst
  paramDefaults := ps.map Prod.snd

/-- Prepend parameters one by one. -/
def prependAll (ps : List ParamEntry) (l : ParamLists) : ParamLists where
  paramTags := (ps.map Prod.fst).reverse ++ l.paramTags
  paramDefaults := (ps.map Prod.snd).reverse ++ l.paramDefaults

def reverse (l : ParamLists) : ParamLists where
  paramTags := l.paramTags.reverse
  paramDefaults := l.paramDefaults.reverse

/-- The lists after a declaration. -/
def declare (groups : List ParamGroup) (l : ParamLists) : ParamLists :=
  if groupsResult groups = 0 then (l.prependAll (groups.flatMap accepted)).reverse
  else l.prependAll (groups.flatMap accepted)

@[simp] theorem prependAll_nil (l : ParamLists) : l.prependAll [] = l := rfl

theorem prependAll_append (ps qs : List ParamEntry) (l : ParamLists) :
    l.prependAll (ps ++ qs) = (l.prependAll ps).prependAll qs := by
  simp [prependAll]

/-- Prepending leaves the lists as they are only if there is nothing to
prepend. -/
theorem prependAll_eq_self {ps : List ParamEntry} {l : ParamLists} :
    l.prependAll ps = l ↔ ps = [] := by
  constructor
  · intro h
    have htags := congrArg (List.length ∘ paramTags) h
    simp only [prependAll, Function.comp_apply, List.length_append, List.length_reverse,
      List.length_map] at htags
    exact List.eq_nil_of_length_eq_zero (by omega)
  · rintro rfl
    rfl

theorem reverse_prependAll_eq_self {ps : List ParamEntry} {l : ParamLists} :
    (l.prependAll ps).reverse = l ↔ ps = [] ∧ l.reverse = l := by
  constructor
  · intro h
    have htags := congrArg (List.length ∘ paramTags) h
    simp only [prependAll, reverse, Function.comp_apply, List.length_append,
      List.length_reverse, List.length_map] at htags
    obtain rfl : ps = [] := List.eq_nil_of_length_eq_zero (by omega)
    exact ⟨rfl, h⟩
  · rintro ⟨rfl, h⟩
    exact h

theorem reverse_prependAll_eq_ofEntries {ps : List ParamEntry} {l : ParamLists} :
    (l.prependAll ps).reverse = ofEntries ps ↔ l = empty := by
  obtain ⟨tags, defaults⟩ := l
  simp [prependAll, reverse, ofEntries, empty]

end ParamLists

theorem accepted_of_all {ps : List ParamEntry} {group : ParamGroup}
    (h : group = ps.map some) : accepted group = ps := by
  subst h
  induction ps with
  | nil => rfl
  | cons p ps ih => rw [List.map_cons, accepted, ih]

/-- Where no group rejects a parameter all of them are recorded. -/
theorem flatMap_accepted_of_all {groups : List ParamGroup} :
    ∀ {ps : List ParamEntry}, groups.flatten = ps.map some →
      groups.flatMap accepted = ps := by
  induction groups with
  | nil =>
      intro ps h
      rw [List.flatten_nil, eq_comm, List.map_eq_nil_iff] at h
      rw [h, List.flatMap_nil]
  | cons group groups ih =>
      intro ps h
      rw [List.flatten_cons] at h
      obtain ⟨ps₁, ps₂, rfl, h₁, h₂⟩ := List.map_eq_append_iff.mp h.symm
      rw [List.flatMap_cons, accepted_of_all h₁.symm, ih h₂.symm]

theorem groupsResult_of_all {groups : List ParamGroup} {ps : List ParamEntry}
    (h : groups.flatten = ps.map some) : groupsResult groups = 0 := by
  unfold groupsResult
  cases hlast : groups.getLast? with
  | none => rfl
  | some group =>
      have hnone : none ∉ group := by
        intro hmem
        have hflat : none ∈ groups.flatten :=
          List.mem_flatten.mpr ⟨group, List.mem_of_getLast? hlast, hmem⟩
        rw [h] at hflat
        obtain ⟨_, _, hne⟩ := List.mem_map.mp hflat
        cases hne
      exact if_neg hnone

/-- After a declaration the lists are what they were before, or those of its
parameters. -/
def ExactlyDeclared (groups : List ParamGroup) (ret : Int) (l l' : ParamLists) : Prop :=
  l' = l ∨ ret = 0 ∧ ∃ ps, groups.flatten = ps.map some ∧ l' = .ofEntries ps

/-- Either nothing is rejected and the lists are empty, or nothing is recorded,
and reversing the lists, if it comes to that, changes nothing. -/
def RecordsOnce (groups : List ParamGroup) (l : ParamLists) : Prop :=
  none ∉ groups.flatten ∧ l = .empty ∨
    groups.flatMap accepted = [] ∧ (groupsResult groups = 0 → l.reverse = l)

instance (groups : List ParamGroup) (l : ParamLists) : Decidable (RecordsOnce groups l) := by
  unfold RecordsOnce
  infer_instance

theorem exists_entries_iff {groups : List ParamGroup} :
    (∃ ps : List ParamEntry, groups.flatten = ps.map some) ↔ none ∉ groups.flatten := by
  generalize groups.flatten = group
  constructor
  · rintro ⟨ps, rfl⟩ hmem
    obtain ⟨_, _, hne⟩ := List.mem_map.mp hmem
    cases hne
  · intro hnone
    induction group with
    | nil => exact ⟨[], rfl⟩
    | cons p group ih =>
        cases p with
        | none => exact absurd List.mem_cons_self hnone
        | some p =>
            obtain ⟨ps, hps⟩ := ih fun hmem => hnone (List.mem_cons_of_mem _ hmem)
            exact ⟨p :: ps, by rw [hps, List.map_cons]⟩

/-- **When the lists are exact.** -/
theorem exactlyDeclared_iff (groups : List ParamGroup) (l : ParamLists) :
    ExactlyDeclared groups (groupsResult groups) l (l.declare groups) ↔
      RecordsOnce groups l := by
  unfold ExactlyDeclared RecordsOnce ParamLists.declare
  by_cases hret : groupsResult groups = 0
  · simp only [hret, if_true, true_and, true_imp_iff,
      ParamLists.reverse_prependAll_eq_self]
    constructor
    · rintro (h | ⟨ps, hps, h⟩)
      · exact .inr h
      · rw [flatMap_accepted_of_all hps,
          ParamLists.reverse_prependAll_eq_ofEntries] at h
        exact .inl ⟨exists_entries_iff.mp ⟨ps, hps⟩, h⟩
    · rintro (⟨hnone, h⟩ | h)
      · obtain ⟨ps, hps⟩ := exists_entries_iff.mpr hnone
        refine .inr ⟨ps, hps, ?_⟩
        rw [flatMap_accepted_of_all hps]
        exact ParamLists.reverse_prependAll_eq_ofEntries.mpr h
      · exact .inl h
  · simp only [hret, if_false, false_and, or_false, false_imp_iff, and_true,
      ParamLists.prependAll_eq_self]
    constructor
    · exact .inr
    · rintro (⟨hnone, _⟩ | h)
      · obtain ⟨ps, hps⟩ := exists_entries_iff.mpr hnone
        exact absurd (groupsResult_of_all hps) hret
      · exact h

/-! ## The groups of a call -/

/-- What is recorded of a parameter of a declaration: with a configuration its
tag must be in the table, where that of the test itself is by then. -/
def declaredEntry (loaded : Bool) (t : SymbolTable) (name : String)
    (p : DeclaredParam) : Option ParamEntry :=
  if loaded && p.paramTag.any fun tag => tag ≠ name ∧ symbolTableLookup t tag = none then
    none
  else p.value.box.map fun val => (p.paramTag.getD "", val)

/-- What is recorded of a parameter of the settings. -/
def groupEntry (t : SymbolTable) (sym : SymRef) : Option ParamEntry :=
  (t.entry? sym).bind fun e =>
    match pgroupParamType t e with
    | .ok (some type) => some (e.key, zeroValue type)
    | _ => none

/-- The group of a setting, unless it is a `fix`. -/
def settingGroup (t : SymbolTable) : TestSetting → Option ParamGroup
  | .paramlist syms => some (syms.map (groupEntry t))
  | .pgroup ref =>
      match t.entry? ref with
      | some { data := .pgroup syms, .. } => some (syms.map (groupEntry t))
      | _ => none
  | .fix _ _ => none

/-- The groups of the settings of a test. -/
def settingGroups (t : SymbolTable) (settings : List TestSetting) : List ParamGroup :=
  settings.filterMap (settingGroup t)

/-! ## The declaration with arguments -/

variable {t t' : SymbolTable} {test : SymRef}

theorem ParamLists.declare_rejected (group : ParamGroup) (l : ParamLists) :
    l.declare [none :: group] = l := by
  simp [ParamLists.declare, groupsResult, groupResult, accepted, einval]

theorem ParamLists.declare_accepted (p : ParamEntry) (group : ParamGroup)
    (l : ParamLists) :
    l.declare [some p :: group] = (l.prependAll [p]).declare [group] := by
  simp [ParamLists.declare, groupsResult, groupResult, accepted,
    ← ParamLists.prependAll_append]

/-- What a declaration keeps of a test. -/
structure TestKept (useDefaults : Bool) (td td' : TestDef) : Prop where
  argHandler : td'.argHandler = td.argHandler
  settings : useDefaults = false → td'.settings = td.settings

/-- A parameter that is accepted is recorded in the lists, and no name but its
tag is new. -/
theorem addDeclaredParam_lists (h : TableOk t) {td : TestDef}
    (htest : testAt t test = some td) {key : String}
    (hkey : symbolTableLookup t key = some test) {useDefaults : Bool}
    {paramTag : Option String} {val : BoxedValue}
    (hrun : addDeclaredParam useDefaults test key paramTag val t = .ok t') :
    Grows test t t' ∧
      (∃ td', testAt t' test = some td' ∧ TestKept useDefaults td td' ∧
        td'.lists = td.lists.prependAll [(paramTag.getD "", val)]) ∧
      ∀ tag, paramTag ≠ some tag → symbolTableLookup t' tag = symbolTableLookup t tag := by
  cases useDefaults with
  | false =>
      cases hrun
      refine ⟨grows_modifyTest h test _,
        ⟨_, testAt_modifyTest h htest _, ⟨rfl, fun _ => rfl⟩, rfl⟩, ?_⟩
      exact fun tag _ => lookup_modifyTest h test _ tag
  | true =>
      obtain ⟨tag, rfl, hready⟩ := ready_of_addDeclaredParam h hrun
      obtain ⟨t₁, ref, hadd, hins, htest₁⟩ :=
        addDeclaredParam_spec h htest hkey hready val
      rw [hrun] at hadd
      cases hadd
      refine ⟨hins.grows, ⟨_, htest₁, ⟨rfl, fun hu => by cases hu⟩, rfl⟩,
        fun tag' hne => hins.old tag' ?_⟩
      rintro rfl
      exact hne rfl

/-- What is recorded of the other parameters stays the same. -/
theorem declaredEntry_grows {loaded : Bool} {key : String} {paramTag : Option String}
    (hgrows : Grows test t t')
    (hold : ∀ tag, paramTag ≠ some tag →
      symbolTableLookup t' tag = symbolTableLookup t tag)
    (hdefined : loaded = true → ∀ tag, paramTag = some tag →
      (symbolTableLookup t tag).isSome = true) :
    declaredEntry loaded t' key = declaredEntry loaded t key := by
  funext p
  unfold declaredEntry
  cases loaded with
  | false => rfl
  | true =>
      have hsame : ∀ tag, symbolTableLookup t' tag = none ↔
          symbolTableLookup t tag = none := by
        intro tag
        by_cases htag : paramTag = some tag
        · obtain ⟨ref, href⟩ := Option.isSome_iff_exists.mp (hdefined rfl tag htag)
          rw [hgrows.lookup tag ref href, href]
        · rw [hold tag htag]
      simp only [hsame]

/-- The check of a tag is that of `declaredEntry`. -/
theorem undefinedTag_eq {loaded undefined : Bool} {key : String} {paramTag : Option String}
    (hkey : symbolTableLookup t key = some test)
    (h : undefinedTag loaded t paramTag = .ok undefined) :
    undefined = (loaded && paramTag.any fun tag =>
      tag ≠ key ∧ symbolTableLookup t tag = none) := by
  cases paramTag with
  | none =>
      cases loaded with
      | true => cases h
      | false =>
          cases h
          rfl
  | some tag =>
      cases h
      by_cases htag : tag = key
      · rw [htag, hkey]
        simp
      · cases hlookup : symbolTableLookup t tag <;> simp [htag, hlookup]

/-- **The loop over the parameters** of a declaration, if it comes to an end. -/
theorem declareParams_lists {loaded useDefaults : Bool} {key : String}
    (params : List DeclaredParam) : ∀ {t t' : SymbolTable} {td : TestDef} {ret : Int},
      TableOk t → testAt t test = some td → symbolTableLookup t key = some test →
      declareParams loaded useDefaults test key params t = .ok (ret, t') →
      Grows test t t' ∧ ret = groupResult (params.map (declaredEntry loaded t key)) ∧
        ∃ td', testAt t' test = some td' ∧ TestKept useDefaults td td' ∧
          td'.lists = td.lists.declare [params.map (declaredEntry loaded t key)] := by
  induction params with
  | nil =>
      intro t t' td ret h htest _ hrun
      cases hrun
      exact ⟨grows_modifyTest h test _, rfl, _, testAt_modifyTest h htest _,
        ⟨rfl, fun _ => rfl⟩, rfl⟩
  | cons p params ih =>
      intro t t' td ret h htest hkey hrun
      unfold declareParams at hrun
      cases hundef : undefinedTag loaded t p.paramTag with
      | error f =>
          rw [hundef] at hrun
          cases hrun
      | ok undefined =>
          rw [hundef] at hrun
          have hcheck := undefinedTag_eq hkey hundef
          cases undefined with
          | true =>
              cases hrun
              have hrejected : declaredEntry loaded t key p = none := if_pos hcheck.symm
              rw [List.map_cons, hrejected, ParamLists.declare_rejected]
              exact ⟨Grows.refl h, by simp [groupResult], td, htest,
                ⟨rfl, fun _ => rfl⟩, rfl⟩
          | false =>
              have hentry : declaredEntry loaded t key p =
                  p.value.box.map fun val => (p.paramTag.getD "", val) :=
                if_neg (by rw [← hcheck]; exact Bool.false_ne_true)
              cases hval : p.value.box with
              | none =>
                  rw [hval] at hrun hentry
                  cases hrun
                  rw [List.map_cons, hentry, Option.map_none, ParamLists.declare_rejected]
                  exact ⟨Grows.refl h, by simp [groupResult], td, htest,
                ⟨rfl, fun _ => rfl⟩, rfl⟩
              | some val =>
                  rw [hval] at hrun hentry
                  simp only [bind, Except.bind, Bool.false_eq_true, if_false] at hrun
                  cases hadd : addDeclaredParam useDefaults test key p.paramTag val t with
                  | error f =>
                      rw [hadd] at hrun
                      cases hrun
                  | ok t₁ =>
                      rw [hadd] at hrun
                      obtain ⟨hgrows, ⟨td₁, htest₁, hkept₁, hlists₁⟩, hold⟩ :=
                        addDeclaredParam_lists h htest hkey hadd
                      have hdefined : loaded = true → ∀ tag, p.paramTag = some tag →
                          (symbolTableLookup t tag).isSome = true := by
                        rintro rfl tag htag
                        rw [htag] at hundef
                        simpa [undefinedTag] using hundef
                      have hsame : declaredEntry loaded t₁ key = declaredEntry loaded t key :=
                        declaredEntry_grows hgrows hold hdefined
                      obtain ⟨hgrows', hret, td', htest', hkept', hlists'⟩ :=
                        ih hgrows.ok htest₁ (hgrows.lookup key test hkey) hrun
                      rw [hsame] at hret hlists'
                      rw [List.map_cons, hentry, Option.map_some,
                        ParamLists.declare_accepted]
                      refine ⟨hgrows.trans hgrows', ?_, td', htest',
                        ⟨hkept'.argHandler.trans hkept₁.argHandler, fun hu =>
                          (hkept'.settings hu).trans (hkept₁.settings hu)⟩, ?_⟩
                      · rw [hret]
                        simp [groupResult]
                      · rw [hlists', hlists₁]

/-! ## The declaration without arguments -/

/-- Prepend parameters one by one. -/
def TestDef.prependAll (ps : List ParamEntry) (td : TestDef) : TestDef :=
  { td with
    paramTags := (ps.map Prod.fst).reverse ++ td.paramTags
    paramDefaults := (ps.map Prod.snd).reverse ++ td.paramDefaults }

theorem writeTest_id : writeTest id = id := by
  funext e
  obtain ⟨key, data⟩ := e
  cases data <;> rfl

theorem writeTest_comp (f g : TestDef → TestDef) :
    writeTest g ∘ writeTest f = writeTest (g ∘ f) := by
  funext e
  obtain ⟨key, data⟩ := e
  cases data <;> rfl

theorem modifyTest_eq (t : SymbolTable) (test : SymRef) (f : TestDef → TestDef) :
    t.modifyTest test f =
      { t with cells := t.cells.map fun cells =>
          cells.modify test (Option.map (writeTest f)) } := rfl

theorem modifyTest_modifyTest (t : SymbolTable) (test : SymRef)
    (f g : TestDef → TestDef) :
    (t.modifyTest test f).modifyTest test g = t.modifyTest test (g ∘ f) := by
  rw [modifyTest_eq, modifyTest_eq, modifyTest_eq]
  cases t.cells with
  | none => rfl
  | some cells =>
      simp only [Option.map_some, List.modify_modify_eq, Option.map_comp_map,
        writeTest_comp]

theorem modifyTest_id (t : SymbolTable) (test : SymRef) :
    t.modifyTest test id = t := by
  rw [modifyTest_eq, writeTest_id]
  simp

/-- The type of a parameter does not depend on tests. -/
theorem pgroupParamType_modifyTest (h : TableOk t) (test : SymRef)
    (f : TestDef → TestDef) (e : SymbolTableEntry) :
    pgroupParamType (t.modifyTest test f) e = pgroupParamType t e := by
  unfold pgroupParamType
  split <;> try rfl
  next sym _ hdata =>
    rw [entry?_modifyTest h]
    by_cases heq : test = sym
    · rw [if_pos heq]
      cases t.entry? sym with
      | none => rfl
      | some e' =>
          obtain ⟨key, data⟩ := e'
          cases data <;> rfl
    · rw [if_neg heq]

theorem pgroupParamType_writeTest (t : SymbolTable) (f : TestDef → TestDef)
    (e : SymbolTableEntry) : pgroupParamType t (writeTest f e) = pgroupParamType t e := by
  obtain ⟨key, data⟩ := e
  cases data <;> rfl

/-- Writing to a test changes no group. -/
theorem groupEntry_modifyTest (h : TableOk t) (test : SymRef) (f : TestDef → TestDef) :
    groupEntry (t.modifyTest test f) = groupEntry t := by
  funext sym
  unfold groupEntry
  simp only [pgroupParamType_modifyTest h, entry?_modifyTest h]
  by_cases heq : test = sym
  · rw [if_pos heq]
    cases t.entry? sym with
    | none => rfl
    | some e =>
        simp only [Option.map_some, Option.bind_some, pgroupParamType_writeTest]
        rfl
  · rw [if_neg heq]

theorem settingGroup_modifyTest (h : TableOk t) (test : SymRef) (f : TestDef → TestDef) :
    settingGroup (t.modifyTest test f) = settingGroup t := by
  funext setting
  unfold settingGroup
  rw [groupEntry_modifyTest h]
  cases setting with
  | paramlist syms => rfl
  | fix param value => rfl
  | pgroup ref =>
      simp only [entry?_modifyTest h]
      by_cases heq : test = ref
      · rw [if_pos heq]
        cases t.entry? ref with
        | none => rfl
        | some e =>
            obtain ⟨key, data⟩ := e
            cases data <;> rfl
      · rw [if_neg heq]

/-- The key of an entry is in the table. -/
theorem lookup_of_entry? (h : TableOk t) {sym : SymRef} {e : SymbolTableEntry}
    (he : t.entry? sym = some e) : symbolTableLookup t e.key = some sym := by
  obtain ⟨r, hr⟩ := h.holds
  rw [hr.entry?] at he
  rw [hr.lookup]
  exact Registry.find_eq_some_iff.mpr ⟨e, he, rfl⟩

/-- **The loop over one list of parameters**, if it comes to an end. -/
theorem processPgroupParams_eq {loaded : Bool} (syms : List SymRef) :
    ∀ {t : SymbolTable} {r : Int × SymbolTable}, TableOk t →
      processPgroupParams loaded test syms t = .ok r →
      r = (groupResult (syms.map (groupEntry t)),
        t.modifyTest test (TestDef.prependAll (accepted (syms.map (groupEntry t))))) := by
  induction syms with
  | nil =>
      intro t r _ hrun
      cases hrun
      exact Prod.ext rfl (modifyTest_id t test).symm
  | cons sym syms ih =>
      intro t r h hrun
      unfold processPgroupParams at hrun
      cases hentry : t.entry? sym with
      | none =>
          rw [hentry] at hrun
          cases hrun
      | some e =>
          have hdefined : undefinedTag loaded t (some e.key) = .ok false := by
            simp [undefinedTag, lookup_of_entry? h hentry]
          rw [hentry] at hrun
          simp only [bind, Except.bind, hdefined] at hrun
          cases htype : pgroupParamType t e with
          | error f =>
              rw [htype] at hrun
              cases hrun
          | ok type =>
              rw [htype] at hrun
              simp only [Bool.false_eq_true, if_false] at hrun
              have hgroup : groupEntry t sym =
                  type.map fun type => (e.key, zeroValue type) := by
                rw [groupEntry, hentry, Option.bind_some, htype]
                cases type <;> rfl
              cases type with
              | none =>
                  cases hrun
                  rw [List.map_cons, hgroup]
                  exact Prod.ext (by simp [groupResult]) (modifyTest_id t test).symm
              | some type =>
                  have hrest := ih (h.modifyTest test _) hrun
                  rw [groupEntry_modifyTest h, modifyTest_modifyTest] at hrest
                  rw [hrest, List.map_cons, hgroup]
                  refine Prod.ext (by simp [groupResult]) ?_
                  show t.modifyTest test _ = t.modifyTest test _
                  congr 1
                  funext td
                  simp [TestDef.prependAll, TestDef.prependParam, accepted]

/-- **The loop over the settings** of a test, if it comes to an end. -/
theorem declareSettings_eq {loaded : Bool} (settings : List TestSetting) :
    ∀ {t : SymbolTable} {ret : Int} {r : Int × SymbolTable}, TableOk t →
      declareSettings loaded test settings ret t = .ok r →
      r = (((settingGroups t settings).getLast?.map groupResult).getD ret,
        t.modifyTest test
          (TestDef.prependAll ((settingGroups t settings).flatMap accepted))) := by
  have hgroup {settings : List TestSetting} (syms : List SymRef)
      (ih : ∀ {t : SymbolTable} {ret : Int} {r : Int × SymbolTable}, TableOk t →
        declareSettings loaded test settings ret t = .ok r →
        r = (((settingGroups t settings).getLast?.map groupResult).getD ret,
          t.modifyTest test
            (TestDef.prependAll ((settingGroups t settings).flatMap accepted))))
      {t : SymbolTable} {r : Int × SymbolTable} (h : TableOk t)
      (hrun : (processPgroupParams loaded test syms t >>= fun r' =>
        declareSettings loaded test settings r'.1 r'.2) = .ok r) :
      r = ((((syms.map (groupEntry t)) :: settingGroups t settings).getLast?.map
          groupResult).getD 0,
        t.modifyTest test (TestDef.prependAll
          (((syms.map (groupEntry t)) :: settingGroups t settings).flatMap accepted))) := by
    cases hprocess : processPgroupParams loaded test syms t with
    | error f =>
        rw [hprocess] at hrun
        cases hrun
    | ok r' =>
        rw [hprocess] at hrun
        obtain rfl := processPgroupParams_eq syms h hprocess
        have hrest := ih (h.modifyTest test _) hrun
        rw [settingGroups, settingGroup_modifyTest h, ← settingGroups,
          modifyTest_modifyTest] at hrest
        rw [hrest]
        refine Prod.ext ?_ ?_
        · rw [List.getLast?_cons]
          cases (settingGroups t settings).getLast? <;> rfl
        · show t.modifyTest test _ = t.modifyTest test _
          congr 1
          funext td
          simp [TestDef.prependAll]
  induction settings with
  | nil =>
      intro t ret r _ hrun
      cases hrun
      exact Prod.ext rfl (modifyTest_id t test).symm
  | cons setting settings ih =>
      intro t ret r h hrun
      cases setting with
      | paramlist syms =>
          rw [hgroup syms ih h hrun]
          simp [settingGroups, settingGroup, List.getLast?_cons]
      | fix param value =>
          rw [ih h hrun]
          rfl
      | pgroup ref =>
          unfold declareSettings at hrun
          split at hrun
          next => cases hrun
          next key syms hentry =>
            rw [hgroup syms ih h hrun]
            simp [settingGroups, settingGroup, hentry, List.getLast?_cons]
          next => cases hrun

end Blts.Params
