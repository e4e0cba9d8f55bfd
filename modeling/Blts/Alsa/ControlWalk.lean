import Blts.Alsa.Capacities
import Blts.Alsa.TestcaseTables

/-!
# Applying the control settings of a test case

`setup_ctl_settings` is given an array of pointers and goes on to the first null
pointer.  The arrays of a configuration have `MAX_STREAMS` elements each, and the
parser fills all of them if there are so many sections: then no pointer in the array is
null.
-/

/-!
## The test cases of a file

What `alsa_read_config` accepts goes to `generate_pcm_testcase_list` as it is.
-/

namespace Blts.Alsa

/-- A configuration that has been read has no more streams in a testset than there is room
for. -/
theorem streamsFit_of_read {junk : Int} {contents : List Char} {conf : AlsaConfiguration}
    (h : alsaReadConfig junk (some contents) = .ok (.config conf)) : StreamsFit conf := by
  rw [alsaReadConfig_eq] at h
  split at h
  case isTrue hfit =>
    cases hread : readSections junk (cleanTail (textOf contents)) false
        (chunks fileTags (cleanLines (textOf contents))) .zero with
    | ok conf' =>
        have hpost := ((readSections_leads junk hfit.2).of_ok hread).2.2
        rw [hread] at h
        cases h
        exact hpost fun testset htestset => (by cases htestset)
    | error stop =>
        rw [hread] at h
        cases stop <;> cases h
  case isFalse => cases h

/-- **The test cases of a file** that is accepted: a list is made of them, with all counts
computed and all names within their bytes, exactly if every testset has a stream, every
stream that is played or recorded has a value in each of its lists, and the counts,
timeouts and names fit. -/
theorem generate_read_iff {junk : Int} {contents : List Char} {conf : AlsaConfiguration}
    (h : alsaReadConfig junk (some contents) = .ok (.config conf)) :
    (∃ tables, generatePcmTestcaseList conf = .ok tables) ↔ HasStreams conf ∧ CasesFit conf := by
  have hfit := streamsFit_of_read h
  constructor
  · rintro ⟨tables, htables⟩
    obtain ⟨hstreams, hcases, _⟩ := (generate_eq_ok hfit).mp htables
    exact ⟨hstreams, hcases⟩
  · rintro ⟨hstreams, hcases⟩
    exact ⟨tablesOf conf, (generate_eq_ok hfit).mpr ⟨hstreams, hcases, rfl⟩⟩

/-- A file with a testset that waits. -/
def waitFile : List Char := "[testset]\n[wait]\nduration 5\n[end_wait]\n[end_testset]\n".toList

/-- What it is read as. -/
def waitConf : AlsaConfiguration where
  testsets := [{ AlsaTestset.zero with
    pcms := [{ AlsaPcmSettings.zero with
      duration := 5, linkCard := -1, linkDevice := -1, periodSize := -1, volume := 100 }] }]
  defCtls := []

/-- The file is accepted. -/
theorem generate_read_wait :
    (∃ tables, generatePcmTestcaseList waitConf = .ok tables) ↔
      HasStreams waitConf ∧ CasesFit waitConf :=
  generate_read_iff (show alsaReadConfig 0 (some waitFile) = .ok (.config waitConf) by
    decide +kernel)

/-- A file with a testset without streams: a count is used that was never computed. -/
theorem emptyTestset_unset :
    ¬ ∀ junk contents conf, alsaReadConfig junk (some contents) = .ok (.config conf) →
      ∃ tables, generatePcmTestcaseList conf = .ok tables := by
  intro h
  obtain ⟨tables, htables⟩ := h 0 "[testset]\n[end_testset]\n".toList ⟨[.zero], []⟩
    (by decide +kernel)
  have hunset : generatePcmTestcaseList ⟨[.zero], []⟩ = .error .unset := by decide +kernel
  rw [hunset] at htables
  cases htables

/-- An array of pointers to `[control]` sections, as the parser leaves it. -/
def ctlTable (sections : List AlsaControlSettings) : List (Option AlsaControlSettings) :=
  sections.map some ++ List.replicate (maxStreams - sections.length) none

/-- What becomes of the array: the sections that are set up, and the value returned. -/
structure CtlWalk where
  visited : List AlsaControlSettings
  result : Except Fault Int
  deriving DecidableEq

/-- The loop of `setup_ctl_settings`.  The call for the element `index` of the array
returns `setup index`. -/
def walkSettings (setup : Nat → Int) (index : Nat) : List (Option AlsaControlSettings) → CtlWalk
  | [] => ⟨[], .error .outOfBounds⟩
  | none :: _ => ⟨[], .ok 0⟩
  | some settings :: rest =>
      if setup index ≠ 0 then ⟨[settings], .ok (setup index)⟩
      else
        let walk := walkSettings setup (index + 1) rest
        { walk with visited := settings :: walk.visited }

/-- `setup_ctl_settings`. -/
def setupCtlSettings (setup : Nat → Int) (table : List (Option AlsaControlSettings)) : CtlWalk :=
  walkSettings setup 0 table

/-- The sections of a table are visited one after the other up to one that cannot be set
up, and nothing behind the table is read. -/
structure VisitsSections (sections : List AlsaControlSettings) : Prop where
  inside : ∀ setup, (setupCtlSettings setup (ctlTable sections)).result ≠ .error .outOfBounds
  order : ∀ setup, ∃ rest,
    sections = (setupCtlSettings setup (ctlTable sections)).visited ++ rest
  all : ∀ setup, (∀ index < sections.length, setup index = 0) →
    setupCtlSettings setup (ctlTable sections) = ⟨sections, .ok 0⟩

section

variable {setup : Nat → Int} {sections : List AlsaControlSettings}
  {table : List (Option AlsaControlSettings)}

/-- What is visited stands in the table. -/
theorem walkSettings_order : ∀ (index : Nat), ∃ rest,
    sections = (walkSettings setup index (sections.map some ++ none :: table)).visited ++ rest := by
  induction sections with
  | nil => exact fun _ => ⟨[], rfl⟩
  | cons settings sections ih =>
      intro index
      obtain ⟨rest, hrest⟩ := ih (index + 1)
      rw [List.map_cons, List.cons_append, walkSettings]
      by_cases hsetup : setup index ≠ 0
      · rw [if_pos hsetup]
        exact ⟨sections, rfl⟩
      · rw [if_neg hsetup]
        exact ⟨rest, congrArg (settings :: ·) hrest⟩

/-- A null pointer ends the walk. -/
theorem walkSettings_inside : ∀ {index : Nat},
    (walkSettings setup index (sections.map some ++ none :: table)).result ≠
      .error .outOfBounds := by
  induction sections with
  | nil => exact fun {_} h => (by cases h)
  | cons settings sections ih =>
      intro index
      rw [List.map_cons, List.cons_append, walkSettings]
      by_cases hsetup : setup index ≠ 0
      · rw [if_pos hsetup]
        exact fun h => (by cases h)
      · rw [if_neg hsetup]
        exact ih

theorem walkSettings_all : ∀ {index : Nat},
    (∀ i < sections.length, setup (index + i) = 0) →
      walkSettings setup index (sections.map some ++ none :: table) = ⟨sections, .ok 0⟩ := by
  induction sections with
  | nil => exact fun _ => rfl
  | cons settings sections ih =>
      intro index hsetup
      have hfirst : setup index = 0 := hsetup 0 (Nat.zero_lt_succ _)
      have hrest : ∀ i < sections.length, setup (index + 1 + i) = 0 := by
        intro i hi
        rw [Nat.add_assoc, Nat.add_comm 1 i]
        exact hsetup (i + 1) (Nat.succ_lt_succ hi)
      rw [List.map_cons, List.cons_append, walkSettings,
        if_neg (not_not_intro hfirst), ih hrest]

/-- Without a null pointer the walk leaves the table. -/
theorem walkSettings_full (hsetup : ∀ i, setup i = 0) : ∀ {index : Nat},
    walkSettings setup index (sections.map some) = ⟨sections, .error .outOfBounds⟩ := by
  induction sections with
  | nil => exact fun {_} => rfl
  | cons settings sections ih =>
      intro index
      rw [List.map_cons, walkSettings, if_neg (not_not_intro (hsetup index)), ih]

theorem ctlTable_room (h : sections.length < maxStreams) : ∃ k,
    ctlTable sections = sections.map some ++ none :: List.replicate k none := by
  obtain ⟨k, hk⟩ : ∃ k, maxStreams - sections.length = k + 1 :=
    Nat.exists_eq_add_one.mpr (Nat.sub_pos_of_lt h)
  exact ⟨k, by rw [ctlTable, hk, List.replicate_succ]⟩

theorem ctlTable_full (h : maxStreams ≤ sections.length) :
    ctlTable sections = sections.map some := by
  rw [ctlTable, Nat.sub_eq_zero_of_le h, List.replicate_zero, List.append_nil]

end

/-- **`setup_ctl_settings`** on the sections of one table. -/
theorem visitsSections_iff (sections : List AlsaControlSettings) :
    VisitsSections sections ↔ sections.length < maxStreams := by
  constructor
  · intro h
    by_cases hroom : sections.length < maxStreams
    · exact hroom
    · have hwalk : setupCtlSettings (fun _ => 0) (ctlTable sections) =
          ⟨sections, .error .outOfBounds⟩ := by
        rw [ctlTable_full (Nat.not_lt.mp hroom)]
        exact walkSettings_full fun _ => rfl
      exact absurd (congrArg CtlWalk.result hwalk) (h.inside fun _ => 0)
  · intro hroom
    obtain ⟨k, htable⟩ := ctlTable_room hroom
    constructor
    case inside =>
      intro setup
      rw [htable]
      exact walkSettings_inside
    case order =>
      intro setup
      rw [htable]
      exact walkSettings_order 0
    case all =>
      intro setup hsetup
      rw [htable]
      refine walkSettings_all fun i hi => ?_
      rw [Nat.zero_add]
      exact hsetup i hi

/-! ## The references of a test case -/

/-- A test case refers to the defaults of the configuration and to the sections of one of
its testsets. -/
theorem refs_of_testcase {conf : AlsaConfiguration} (hstreams : StreamsFit conf)
    {tables : Tables} (h : generatePcmTestcaseList conf = .ok tables)
    {testcase : TestcaseParams} (htestcase : some testcase ∈ tables.testcases)
    {refs : TestcaseRefs} (hrefs : testcase.refs = some refs) :
    ∃ testset ∈ conf.testsets, refs = refsOf conf testset := by
  obtain ⟨_, _, rfl⟩ := (generate_eq_ok hstreams).mp h
  have hmem : some testcase ∈ List.replicate bltsAlsaCases.length none ++
      conf.testsets.flatMap fun testset =>
        (combinations testset.pcms).map fun c => some (paramsOf conf testset c) := htestcase
  rw [List.mem_append] at hmem
  cases hmem with
  | inl hstatic =>
      have hnone := List.eq_of_mem_replicate hstatic
      cases hnone
  | inr hcase =>
      obtain ⟨testset, htestset, hparams⟩ := List.mem_flatMap.mp hcase
      obtain ⟨c, _, hc⟩ := List.mem_map.mp hparams
      cases hc
      cases hrefs
      exact ⟨testset, htestset, rfl⟩

/-- The settings of a test case are those parsed for it, and both walks over them keep to
their tables. -/
def SetsUpControls (conf : AlsaConfiguration) (refs : TestcaseRefs) : Prop :=
  (∃ testset ∈ conf.testsets,
      refs.defControlRef = conf.defCtls ∧ refs.controlRef = testset.ctls) ∧
    VisitsSections refs.defControlRef ∧ VisitsSections refs.controlRef

/-- **The control settings of a test case**: exactly where the testset and the defaults
have fewer than `MAX_STREAMS` `[control]` sections each, all sections are visited and the
walks end at a null pointer of their table. -/
theorem setsUpControls_iff {junk : Int} {contents : List Char} {conf : AlsaConfiguration}
    (hread : alsaReadConfig junk (some contents) = .ok (.config conf)) {tables : Tables}
    (htables : generatePcmTestcaseList conf = .ok tables) {testcase : TestcaseParams}
    (htestcase : some testcase ∈ tables.testcases) {refs : TestcaseRefs}
    (hrefs : testcase.refs = some refs) :
    SetsUpControls conf refs ↔
      refs.defControlRef.length < maxStreams ∧ refs.controlRef.length < maxStreams := by
  obtain ⟨testset, htestset, heq⟩ :=
    refs_of_testcase (streamsFit_of_read hread) htables htestcase hrefs
  have hparsed : ∃ testset ∈ conf.testsets,
      refs.defControlRef = conf.defCtls ∧ refs.controlRef = testset.ctls :=
    ⟨testset, htestset, by rw [heq]; rfl, by rw [heq]; rfl⟩
  unfold SetsUpControls
  rw [visitsSections_iff, visitsSections_iff]
  exact and_iff_right hparsed

/-- The test case of the testset that waits. -/
theorem setsUpControls_wait :
    SetsUpControls waitConf (refsOf waitConf (waitConf.testsets.headD .zero)) ↔
      waitConf.defCtls.length < maxStreams ∧
        (waitConf.testsets.headD .zero).ctls.length < maxStreams := by
  have hread : alsaReadConfig 0 (some waitFile) = .ok (.config waitConf) := by decide +kernel
  obtain ⟨tables, htables⟩ : ∃ tables, generatePcmTestcaseList waitConf = .ok tables :=
    ⟨tablesOf waitConf, by decide +kernel⟩
  have hcase : some (paramsOf waitConf (waitConf.testsets.headD .zero)
      ((combinations (waitConf.testsets.headD .zero).pcms).headD [])) ∈ tables.testcases := by
    obtain ⟨_, _, rfl⟩ := (generate_eq_ok (streamsFit_of_read hread)).mp htables
    decide +kernel
  exact setsUpControls_iff hread htables hcase rfl

/-! ## A full table -/

/-- A file with a testset that waits and has `MAX_STREAMS` `[control]` sections. -/
def fullFile : List Char :=
  "[testset]\n[wait]\nduration 5\n[end_wait]\n".toList ++
    (List.replicate maxStreams "[control]\n[end_control]\n".toList).flatten ++
    "[end_testset]\n".toList

/-- What it is read as. -/
def fullConf : AlsaConfiguration :=
  { waitConf with
    testsets := waitConf.testsets.map fun testset =>
      { testset with ctls := List.replicate maxStreams .zero } }

/-- The file is accepted, and the walk reads behind the table. -/
theorem fullTable_leaves :
    ¬ ∀ junk contents conf, alsaReadConfig junk (some contents) = .ok (.config conf) →
      ∀ tables, generatePcmTestcaseList conf = .ok tables →
        ∀ testcase refs, some testcase ∈ tables.testcases → testcase.refs = some refs →
          SetsUpControls conf refs := by
  intro h
  have hread : alsaReadConfig 0 (some fullFile) = .ok (.config fullConf) := by decide +kernel
  have htables : generatePcmTestcaseList fullConf = .ok (tablesOf fullConf) := by decide +kernel
  have hcase : some (paramsOf fullConf (fullConf.testsets.headD .zero)
      ((combinations (fullConf.testsets.headD .zero).pcms).headD [])) ∈
        (tablesOf fullConf).testcases := by decide +kernel
  have hvisits := (h 0 fullFile fullConf hread _ htables _ _ hcase rfl).2.2
  exact absurd ((visitsSections_iff _).mp hvisits) (by decide)

end Blts.Alsa
