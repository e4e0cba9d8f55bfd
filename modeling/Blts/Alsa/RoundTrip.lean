import Blts.Alsa.ReadStatements

/-!
# Writing a configuration and reading it again

A text of the file format is read as the configuration that it describes.  Only the
values of controls may be others: the parser has an `int` for a number, and a control has
a `long long`.
-/

namespace Blts.Alsa

open WrittenWord

/-! ## Tags -/

theorem no_words : ∀ w ∈ ([] : List WrittenWord), w.WellFormed :=
  fun _ hw => (by cases hw)

/-- A line of a section, other than the tags of sections. -/
def IsPlain (line : List Char) : Prop := line.head? ≠ some '['

theorem isPlain_keyword {keyword : List Char} (h : keyword ≠ [] ∧ keyword.head? ≠ some '[')
    (words : List WrittenWord) : IsPlain (writeLine (bare keyword) words) := by
  cases hkeyword : keyword with
  | nil => exact absurd hkeyword h.1
  | cons c cs =>
      rw [hkeyword] at h
      exact h.2

theorem ControlStatement.isPlain (s : ControlStatement) : IsPlain s.line := by
  cases s with
  | card n => exact isPlain_keyword (by decide) _
  | set control value => exact isPlain_keyword (by decide) _

theorem PcmStatement.isPlain (s : PcmStatement) : IsPlain s.line := by
  cases s with
  | field f n => exact isPlain_keyword (by cases f <;> decide) _
  | list l values => exact isPlain_keyword (by cases l <;> decide) _
  | link card device => exact isPlain_keyword (by decide) _

theorem TunerStatement.isPlain (s : TunerStatement) : IsPlain s.line := by
  cases s with
  | device str => exact isPlain_keyword (by decide) _
  | freq n => exact isPlain_keyword (by decide) _
  | scanSelect n => exact isPlain_keyword (by decide) _

theorem BluetoothStatement.isPlain (s : BluetoothStatement) : IsPlain s.line := by
  cases s with
  | connect mac => exact isPlain_keyword (by decide) _
  | pin code => exact isPlain_keyword (by decide) _

theorem isPlain_map {S : Type} {line : S → List Char} (h : ∀ s, IsPlain (line s))
    (statements : List S) : ∀ l ∈ statements.map line, IsPlain l := by
  intro l hl
  obtain ⟨s, _, rfl⟩ := List.mem_map.mp hl
  exact h s

/-- A tag is not among plain lines. -/
theorem not_mem_plain {tag : List Char} (htag : tag.head? = some '[') {lines : List (List Char)}
    (h : ∀ l ∈ lines, IsPlain l) : tag ∉ lines :=
  fun hmem => h tag hmem htag

theorem sectionEnd_append {tag : String} {inner : List (List Char)} (h : tag.toList ∉ inner)
    (rest : List (List Char)) :
    sectionEnd tag (inner ++ tag.toList :: rest) = some (inner, tag.toList :: rest) := by
  induction inner with
  | nil => exact sectionEnd_cons_eq rest
  | cons line inner ih =>
      have hline : line ≠ tag.toList := fun heq => h (heq ▸ List.mem_cons_self)
      rw [List.cons_append, sectionEnd_cons_ne hline,
        ih fun hmem => h (List.mem_cons_of_mem line hmem)]
      rfl

/-- A section that is written is a part of the text, and its end tag is a line. -/
theorem chunks_section {S : Type} (tags : Tags S) (section_ : S) (tag : String)
    {inner : List (List Char)} (hstart : tags.start tag.toList = some section_)
    (hinner : (tags.stop section_).toList ∉ inner)
    (hstop : tags.start (tags.stop section_).toList = none) (rest : List (List Char)) :
    chunks tags (sectionLines tag (tags.stop section_) inner ++ rest) =
      .part section_ inner :: .line (tags.stop section_).toList :: chunks tags rest := by
  have hlines : sectionLines tag (tags.stop section_) inner ++ rest =
      tag.toList :: (inner ++ (tags.stop section_).toList :: rest) := by
    simp [sectionLines]
  rw [hlines, chunks_part hstart (sectionEnd_append hinner rest), chunks_line hstop]

/-! ## Testsets -/

theorem TestsetSection.tags (section_ : TestsetSection) :
    testsetTags.start section_.tag.toList = some section_ ∧
      testsetTags.start section_.endTag.toList = none ∧
      section_.endTag.toList.head? = some '[' := by
  cases section_ <;> decide

/-- An end tag is nothing to a testset. -/
theorem testsetWords_endTag (section_ : TestsetSection) (value : Int) (testset : AlsaTestset) :
    testsetWords (wordsOf section_.endTag.toList) value testset = .ok (value, testset) := by
  have hbare : IsBare section_.endTag.toList := by cases section_ <;> decide
  have hword : wordsOf section_.endTag.toList = [⟨.str, section_.endTag.toList⟩] := by
    have hwords := wordsOf_keyword _ hbare no_words
    rw [writeLine, List.flatMap_nil, List.append_nil] at hwords
    exact hwords
  have hother : beginsWith section_.endTag.toList "description" 11 = false := by
    cases section_ <;> decide
  rw [hword]
  simp only [testsetWords, hother, Bool.false_eq_true, and_false, if_false]
  rfl

/-- A section of a testset, where its lines are read. -/
theorem readTestset_section {junk : Int} {section_ : TestsetSection} {inner : List (List Char)}
    (hinner : ∀ l ∈ inner, IsPlain l) {testset testset' : AlsaTestset}
    (hpart : readPart junk inner testset section_ = .ok testset') (rest : List (List Char))
    (value : Int) : readTestset junk (chunks testsetTags (section_.lines inner ++ rest)) value
      testset = readTestset junk (chunks testsetTags rest) value testset' := by
  obtain ⟨hstart, hstop, hhead⟩ := section_.tags
  have hchunks := chunks_section testsetTags section_ section_.tag hstart
    (not_mem_plain hhead hinner) hstop rest
  have hlines : chunks testsetTags (section_.lines inner ++ rest) = _ := hchunks
  rw [hlines, readTestset, hpart, ok_bind, readTestset]
  show (testsetWords (wordsOf section_.endTag.toList) value testset' >>= _) = _
  rw [testsetWords_endTag, ok_bind]

theorem testsetStatement_fits (testset : AlsaTestset) (s : TestsetStatement)
    (h : (s.apply testset).Fits) : testset.Fits := by
  obtain ⟨hpcms, hctls, hpcm, hctl⟩ := h
  cases s with
  | description str => exact ⟨hpcms, hctls, hpcm, hctl⟩
  | stream dir statements =>
      have hlen : (testset.pcms ++ [_]).length ≤ maxStreams := hpcms
      rw [List.length_append] at hlen
      exact ⟨Nat.le_of_add_right_le hlen, hctls,
        fun params hparams => hpcm params (List.mem_append_left _ hparams), hctl⟩
  | control statements =>
      have hlen : (testset.ctls ++ [_]).length ≤ maxStreams := hctls
      rw [List.length_append] at hlen
      exact ⟨hpcms, Nat.le_of_add_right_le hlen, hpcm,
        fun config hconfig => hctl config (List.mem_append_left _ hconfig)⟩
  | tuner statements => exact ⟨hpcms, hctls, hpcm, hctl⟩
  | bluetooth statements => exact ⟨hpcms, hctls, hpcm, hctl⟩

theorem readPart_stream (junk : Int) (dir : StreamDir) (lines : List (List Char))
    (testset : AlsaTestset) :
    readPart junk lines testset dir.pcmSection = readStream junk dir lines testset := by
  cases dir <;> rfl

/-- A line or a section of a testset is read. -/
theorem testsetStatement_read (junk : Int) (testset : AlsaTestset) (s : TestsetStatement)
    (value : Int) (hvalid : s.Valid) (hfits : (s.apply testset).Fits)
    (rest : List (List Char)) :
    readTestset junk (chunks testsetTags (s.lines ++ rest)) value testset.asRead =
      readTestset junk (chunks testsetTags rest) value (s.apply testset).asRead := by
  cases s with
  | description str =>
      have hplain : testsetTags.start (writeLine (bare "description".toList) [quoted str]) =
          none := by
        have hhead : IsPlain (writeLine (bare "description".toList) [quoted str]) :=
          isPlain_keyword (by decide) _
        refine List.find?_eq_none.mpr fun section_ _ htag => hhead ?_
        rw [beq_iff_eq.mp htag]
        cases section_ <;> rfl
      show readTestset junk (chunks testsetTags (_ :: rest)) value testset.asRead = _
      rw [chunks_line hplain, readTestset, wordsOf_string _ (by decide) hvalid.1]
      show (stringWords maxLineLen _ value [⟨.str, str⟩] >>= _) = _
      rw [stringWords_fits hvalid.2, ok_bind]
      rfl
  | stream dir statements =>
      have hlen : (testset.pcms ++ [_]).length ≤ maxStreams := hfits.pcms
      rw [List.length_append] at hlen
      have hsettings := hfits.pcm (pcmSettings dir statements)
        (List.mem_append_right _ List.mem_cons_self)
      obtain ⟨params, hread, hparams⟩ := readLines_stream junk dir hvalid hsettings
      refine readTestset_section (isPlain_map PcmStatement.isPlain statements) ?_ rest value
      have hroom : ¬ testset.asRead.pcms.length ≥ maxStreams := Nat.not_le.mpr hlen
      rw [readPart_stream, readStream, if_neg hroom, hread, ok_bind, hparams]
      rfl
  | control statements =>
      have hlen : (testset.ctls ++ [_]).length ≤ maxStreams := hfits.ctls
      rw [List.length_append] at hlen
      have hsettings := hfits.ctl (controlSettings statements)
        (List.mem_append_right _ List.mem_cons_self)
      refine readTestset_section (isPlain_map ControlStatement.isPlain statements) ?_ rest value
      have hroom : ¬ testset.asRead.ctls.length ≥ maxStreams := by
        show ¬ (testset.ctls.map AlsaControlSettings.asRead).length ≥ maxStreams
        rw [List.length_map]
        exact Nat.not_le.mpr hlen
      rw [readPart, if_neg hroom, readLines_control junk hvalid hsettings, ok_bind]
      simp [AlsaTestset.asRead, TestsetStatement.apply]
  | tuner statements =>
      refine readTestset_section (isPlain_map TunerStatement.isPlain statements) ?_ rest value
      rw [readPart, readLines_tuner junk hvalid]
      rfl
  | bluetooth statements =>
      refine readTestset_section (isPlain_map BluetoothStatement.isPlain statements) ?_ rest value
      rw [readPart, readLines_bluetooth junk hvalid]
      rfl

/-- A testset is read. -/
theorem readTestset_statements (junk : Int) {statements : List TestsetStatement} :
    ∀ {testset : AlsaTestset} (value : Int), (∀ s ∈ statements, s.Valid) →
      (statements.foldl TestsetStatement.apply testset).Fits →
        readTestset junk (chunks testsetTags (statements.flatMap TestsetStatement.lines)) value
          testset.asRead = .ok (statements.foldl TestsetStatement.apply testset).asRead := by
  induction statements with
  | nil =>
      intro testset value _ _
      rw [List.flatMap_nil, chunks_nil]
      rfl
  | cons s statements ih =>
      intro testset value hvalid hfits
      rw [List.flatMap_cons, testsetStatement_read junk testset s value
        (hvalid s List.mem_cons_self) (foldl_fits testsetStatement_fits hfits)]
      exact ih value (fun s' hs' => hvalid s' (List.mem_cons_of_mem s hs')) hfits

/-! ## Files -/

/-- The lines of a testset do not end it. -/
theorem endTestset_not_mem (statements : List TestsetStatement) :
    "[end_testset]".toList ∉ statements.flatMap TestsetStatement.lines := by
  have hsection (section_ : TestsetSection) {inner : List (List Char)}
      (hinner : ∀ l ∈ inner, IsPlain l) : "[end_testset]".toList ∉ section_.lines inner := by
    intro hmem
    rw [TestsetSection.lines, sectionLines, List.mem_cons, List.mem_append,
      List.mem_singleton] at hmem
    obtain htag | hline | htag := hmem
    · exact absurd htag (by cases section_ <;> decide)
    · exact hinner _ hline rfl
    · exact absurd htag (by cases section_ <;> decide)
  intro hmem
  obtain ⟨s, _, hs⟩ := List.mem_flatMap.mp hmem
  cases s with
  | description str =>
      have hhead : IsPlain (writeLine (bare "description".toList) [quoted str]) :=
        isPlain_keyword (by decide) _
      rw [TestsetStatement.lines, List.mem_singleton] at hs
      rw [← hs] at hhead
      exact hhead rfl
  | stream dir statements => exact hsection _ (isPlain_map PcmStatement.isPlain statements) hs
  | control statements => exact hsection _ (isPlain_map ControlStatement.isPlain statements) hs
  | tuner statements => exact hsection _ (isPlain_map TunerStatement.isPlain statements) hs
  | bluetooth statements =>
      exact hsection _ (isPlain_map BluetoothStatement.isPlain statements) hs

/-- The `[control]` sections of the defaults. -/
def controlLines (controls : List (List ControlStatement)) : List (List Char) :=
  controls.flatMap fun statements =>
    TestsetSection.control.lines (statements.map ControlStatement.line)

theorem endDefaults_not_mem (controls : List (List ControlStatement)) :
    "[end_defaults]".toList ∉ controlLines controls := by
  intro hmem
  obtain ⟨statements, _, hs⟩ := List.mem_flatMap.mp hmem
  rw [TestsetSection.lines, sectionLines, List.mem_cons, List.mem_append,
    List.mem_singleton] at hs
  obtain htag | hline | htag := hs
  · exact absurd htag (by decide)
  · exact isPlain_map ControlStatement.isPlain statements _ hline rfl
  · exact absurd htag (by decide)

/-- The defaults are read. -/
theorem readDefaults_controls (junk : Int) {controls : List (List ControlStatement)} :
    ∀ {config : AlsaConfiguration}, (∀ statements ∈ controls, ∀ s ∈ statements, s.Valid) →
      config.defCtls.length + controls.length ≤ maxStreams →
      (∀ statements ∈ controls, (controlSettings statements).Fits) →
        readDefaults junk (chunks defaultsTags (controlLines controls)) config =
          .ok { config with
            defCtls := config.defCtls ++
              controls.map fun statements => (controlSettings statements).asRead } := by
  induction controls with
  | nil =>
      intro config _ _ _
      rw [controlLines, List.flatMap_nil, chunks_nil, List.map_nil, List.append_nil]
      rfl
  | cons statements controls ih =>
      intro config hvalid hlen hfits
      rw [List.length_cons] at hlen
      have hhead : "[end_control]".toList.head? = some '[' := rfl
      have hinner := not_mem_plain hhead (isPlain_map ControlStatement.isPlain statements)
      have hchunks : chunks defaultsTags (controlLines (statements :: controls)) = _ :=
        chunks_section defaultsTags () "[control]" (by decide) hinner (by decide)
          (controlLines controls)
      have hroom : ¬ config.defCtls.length ≥ maxStreams := by omega
      rw [hchunks, readDefaults, if_neg hroom, readLines_control junk
        (hvalid statements List.mem_cons_self) (hfits statements List.mem_cons_self), ok_bind,
        readDefaults, ih (fun c hc => hvalid c (List.mem_cons_of_mem statements hc))
          (by rw [List.length_append, List.length_singleton]; omega)
          fun c hc => hfits c (List.mem_cons_of_mem statements hc)]
      simp

theorem fileStatement_fits (config : AlsaConfiguration) (s : FileStatement)
    (h : (s.apply config).Fits) : config.Fits := by
  obtain ⟨htestsets, hdefCtls, htestset, hctl⟩ := h
  cases s with
  | testset statements =>
      have hlen : (config.testsets ++ [_]).length ≤ magicNumber := htestsets
      rw [List.length_append] at hlen
      exact ⟨Nat.le_of_add_right_le hlen, hdefCtls,
        fun testset hmem => htestset testset (List.mem_append_left _ hmem), hctl⟩
  | defaults controls =>
      have hlen : (config.defCtls ++ _).length ≤ maxStreams := hdefCtls
      rw [List.length_append] at hlen
      exact ⟨htestsets, Nat.le_of_add_right_le hlen, htestset,
        fun settings hmem => hctl settings (List.mem_append_left _ hmem)⟩

/-- A section of a file is read. -/
theorem fileStatement_read (junk : Int) (config : AlsaConfiguration) (s : FileStatement)
    (started : Bool) (hvalid : s.Valid) (hfits : (s.apply config).Fits)
    (rest : List (List Char)) :
    readSections junk [] started (chunks fileTags (s.lines ++ rest)) config.asRead =
      readSections junk [] true (chunks fileTags rest) (s.apply config).asRead := by
  cases s with
  | testset statements =>
      have hlen : (config.testsets ++ [_]).length ≤ magicNumber := hfits.testsets
      rw [List.length_append] at hlen
      have htestset := hfits.testset (statements.foldl TestsetStatement.apply .zero)
        (List.mem_append_right _ List.mem_cons_self)
      have hchunks := chunks_section fileTags .testset "[testset]" (by decide)
        (endTestset_not_mem statements) (by decide) rest
      have hroom : writeAt magicNumber config.asRead.testsets.length = .ok () := by
        refine if_pos ?_
        show (config.testsets.map AlsaTestset.asRead).length < magicNumber
        rw [List.length_map]
        exact hlen
      have hzero : AlsaTestset.zero = AlsaTestset.zero.asRead := rfl
      have hlines : chunks fileTags ((FileStatement.testset statements).lines ++ rest) = _ :=
        hchunks
      rw [hlines, readSections, readFileSection, readTestsetSection, hroom, ok_bind, hzero,
        readTestset_statements junk junk hvalid htestset, ok_bind, ok_bind, readSections]
      simp [AlsaConfiguration.asRead, FileStatement.apply]
  | defaults controls =>
      have hlen : (config.defCtls ++ controls.map controlSettings).length ≤ maxStreams :=
        hfits.defCtls
      rw [List.length_append, List.length_map] at hlen
      have hsettings : ∀ statements ∈ controls, (controlSettings statements).Fits :=
        fun statements hs => hfits.ctl _ (List.mem_append_right _ (List.mem_map_of_mem hs))
      have hchunks := chunks_section fileTags .defaults "[defaults]" (by decide)
        (endDefaults_not_mem controls) (by decide) rest
      have hroom : config.asRead.defCtls.length + controls.length ≤ maxStreams := by
        show (config.defCtls.map AlsaControlSettings.asRead).length + controls.length ≤ maxStreams
        rw [List.length_map]
        exact hlen
      have hlines : chunks fileTags ((FileStatement.defaults controls).lines ++ rest) = _ :=
        hchunks
      rw [hlines, readSections, readFileSection, readDefaults_controls junk hvalid hroom hsettings,
        ok_bind, readSections]
      simp [AlsaConfiguration.asRead, FileStatement.apply, Function.comp_def]

theorem readSections_document (junk : Int) {doc : Document} : ∀ {config : AlsaConfiguration}
    {started : Bool}, doc.Valid → (doc.foldl FileStatement.apply config).Fits →
      readSections junk [] started (chunks fileTags doc.lines) config.asRead =
        .ok (doc.foldl FileStatement.apply config).asRead := by
  induction doc with
  | nil =>
      intro config started _ _
      rw [Document.lines, List.flatMap_nil, chunks_nil]
      rfl
  | cons s doc ih =>
      intro config started hvalid hfits
      have hstep := fileStatement_read junk config s started (hvalid s List.mem_cons_self)
        (foldl_fits fileStatement_fits hfits) (Document.lines doc)
      exact hstep.trans (ih (fun s' hs' => hvalid s' (List.mem_cons_of_mem s hs')) hfits)

/-! ## The lines of a document -/

theorem isWritten_keyword {keyword : List Char} (h : IsBare keyword ∧ keyword.head? ≠ some '#')
    {words : List WrittenWord} (hwords : ∀ w ∈ words, w.WellFormed) :
    IsWritten (writeLine (bare keyword) words) :=
  isWritten_writeLine h.1 h.2 hwords

theorem number_wellFormed (n : Nat) : ∀ w ∈ [number n], w.WellFormed :=
  List.forall_mem_singleton.mpr trivial

theorem quoted_wellFormed {str : List Char} (h : IsQuotable str) :
    ∀ w ∈ [quoted str], w.WellFormed :=
  List.forall_mem_singleton.mpr h

theorem ControlStatement.isWritten {s : ControlStatement} (h : s.Valid) : IsWritten s.line := by
  cases s with
  | card n => exact isWritten_keyword (by decide) (number_wellFormed n)
  | set control value =>
      exact isWritten_keyword (by decide)
        (List.forall_mem_cons.mpr ⟨h.1, List.forall_mem_singleton.mpr h.2.1⟩)

theorem PcmStatement.isWritten {s : PcmStatement} (h : s.Valid) : IsWritten s.line := by
  cases s with
  | field f n => exact isWritten_keyword (by cases f <;> decide) (number_wellFormed n)
  | list l values =>
      refine isWritten_keyword (by cases l <;> decide) fun w hw => ?_
      obtain ⟨n, hn, rfl⟩ := List.mem_map.mp hw
      exact PcmList.write_wellFormed (h n hn)
  | link card device =>
      exact isWritten_keyword (by decide)
        (List.forall_mem_cons.mpr ⟨trivial, List.forall_mem_singleton.mpr trivial⟩)

theorem TunerStatement.isWritten {s : TunerStatement} (h : s.Valid) : IsWritten s.line := by
  cases s with
  | device str => exact isWritten_keyword (by decide) (quoted_wellFormed h.1)
  | freq n => exact isWritten_keyword (by decide) (number_wellFormed n)
  | scanSelect n => exact isWritten_keyword (by decide) (number_wellFormed n)

theorem BluetoothStatement.isWritten {s : BluetoothStatement} (h : s.Valid) :
    IsWritten s.line := by
  cases s with
  | connect mac => exact isWritten_keyword (by decide) (quoted_wellFormed h.1)
  | pin code => exact isWritten_keyword (by decide) (quoted_wellFormed h.1)

/-- A tag is a written line. -/
theorem isWritten_tag {tag : List Char} (h : IsBare tag ∧ tag.head? ≠ some '#') :
    IsWritten tag := by
  have hline := isWritten_keyword h no_words
  rw [writeLine, List.flatMap_nil, List.append_nil] at hline
  exact hline

theorem isWritten_section {tag endTag : String}
    (htag : IsBare tag.toList ∧ tag.toList.head? ≠ some '#')
    (hend : IsBare endTag.toList ∧ endTag.toList.head? ≠ some '#') {lines : List (List Char)}
    (hlines : ∀ l ∈ lines, IsWritten l) : ∀ l ∈ sectionLines tag endTag lines, IsWritten l := by
  intro l hl
  rw [sectionLines, List.mem_cons, List.mem_append, List.mem_singleton] at hl
  obtain rfl | hl | rfl := hl
  · exact isWritten_tag htag
  · exact hlines l hl
  · exact isWritten_tag hend

theorem isWritten_map {S : Type} {line : S → List Char} {Valid : S → Prop}
    (h : ∀ s, Valid s → IsWritten (line s)) {statements : List S}
    (hvalid : ∀ s ∈ statements, Valid s) : ∀ l ∈ statements.map line, IsWritten l := by
  intro l hl
  obtain ⟨s, hs, rfl⟩ := List.mem_map.mp hl
  exact h s (hvalid s hs)

theorem TestsetSection.isWritten (section_ : TestsetSection) {lines : List (List Char)}
    (hlines : ∀ l ∈ lines, IsWritten l) : ∀ l ∈ section_.lines lines, IsWritten l :=
  isWritten_section (by cases section_ <;> decide) (by cases section_ <;> decide) hlines

theorem TestsetStatement.isWritten {s : TestsetStatement} (h : s.Valid) :
    ∀ l ∈ s.lines, IsWritten l := by
  cases s with
  | description str =>
      exact List.forall_mem_singleton.mpr
        (isWritten_keyword (by decide) (quoted_wellFormed h.1))
  | stream dir statements =>
      exact TestsetSection.isWritten _ (isWritten_map (fun _ => PcmStatement.isWritten) h)
  | control statements =>
      exact TestsetSection.isWritten _ (isWritten_map (fun _ => ControlStatement.isWritten) h)
  | tuner statements =>
      exact TestsetSection.isWritten _ (isWritten_map (fun _ => TunerStatement.isWritten) h)
  | bluetooth statements =>
      exact TestsetSection.isWritten _ (isWritten_map (fun _ => BluetoothStatement.isWritten) h)

theorem FileStatement.isWritten {s : FileStatement} (h : s.Valid) :
    ∀ l ∈ s.lines, IsWritten l := by
  cases s with
  | testset statements =>
      refine isWritten_section (by decide) (by decide) fun l hl => ?_
      obtain ⟨s, hs, hl⟩ := List.mem_flatMap.mp hl
      exact TestsetStatement.isWritten (h s hs) l hl
  | defaults controls =>
      refine isWritten_section (by decide) (by decide) fun l hl => ?_
      obtain ⟨statements, hs, hl⟩ := List.mem_flatMap.mp hl
      exact TestsetSection.isWritten _
        (isWritten_map (fun _ => ControlStatement.isWritten) (h statements hs)) l hl

/-! ## The round trip -/

/-- **`alsa_read_config`** on a text of the file format. -/
theorem alsaReadConfig_written (junk : Int) {text : List Char} {config : AlsaConfiguration}
    (h : Writes text config) :
    alsaReadConfig junk (some text) = .ok (.config config.asRead) := by
  obtain ⟨doc, hvalid, rfl, hfits, htext, hlen⟩ := h
  have hwritten : ∀ l ∈ doc.lines, IsWritten l := by
    intro l hl
    obtain ⟨s, hs, hl⟩ := List.mem_flatMap.mp hl
    exact FileStatement.isWritten (hvalid s hs) l hl
  have hzero : AlsaConfiguration.zero = AlsaConfiguration.zero.asRead := rfl
  rw [alsaReadConfig_lines junk htext hwritten hlen, hzero,
    readSections_document junk hvalid hfits]
  rfl

/-- The values of all controls are numbers that an `int` can hold. -/
def ControlValuesFit (config : AlsaConfiguration) : Prop :=
  (∀ testset ∈ config.testsets, ∀ settings ∈ testset.ctls, ∀ value ∈ settings.values,
      0 ≤ value.value ∧ value.value < 2147483648) ∧
    ∀ settings ∈ config.defCtls, ∀ value ∈ settings.values,
      0 ≤ value.value ∧ value.value < 2147483648

theorem map_eq_self_iff {α : Type} {f : α → α} {l : List α} :
    l.map f = l ↔ ∀ a ∈ l, f a = a := by
  induction l with
  | nil => simp
  | cons a l ih => rw [List.map_cons, List.cons.injEq, ih, List.forall_mem_cons]

theorem AlsaControlSettings.asRead_eq_iff (config : AlsaControlSettings) :
    config.asRead = config ↔
      ∀ value ∈ config.values, 0 ≤ value.value ∧ value.value < 2147483648 := by
  have hvalue (value : AlsaControlValue) :
      value.asRead = value ↔ 0 ≤ value.value ∧ value.value < 2147483648 := by
    rw [← asInt_eq_iff]
    obtain ⟨name, id, number, str⟩ := value
    simp [AlsaControlValue.asRead]
  have hvalues : config.asRead = config ↔
      config.values.map AlsaControlValue.asRead = config.values := by
    obtain ⟨card, values⟩ := config
    simp [AlsaControlSettings.asRead]
  rw [hvalues, map_eq_self_iff]
  simp only [hvalue]

theorem AlsaTestset.asRead_eq_iff (testset : AlsaTestset) :
    testset.asRead = testset ↔ ∀ settings ∈ testset.ctls, ∀ value ∈ settings.values,
      0 ≤ value.value ∧ value.value < 2147483648 := by
  have hctls : testset.asRead = testset ↔
      testset.ctls.map AlsaControlSettings.asRead = testset.ctls := by
    obtain ⟨description, pcms, ctls, tuner, btaudio⟩ := testset
    simp [AlsaTestset.asRead]
  rw [hctls, map_eq_self_iff]
  simp only [AlsaControlSettings.asRead_eq_iff]

theorem AlsaConfiguration.asRead_eq_iff (config : AlsaConfiguration) :
    config.asRead = config ↔ ControlValuesFit config := by
  have hparts : config.asRead = config ↔
      config.testsets.map AlsaTestset.asRead = config.testsets ∧
        config.defCtls.map AlsaControlSettings.asRead = config.defCtls := by
    obtain ⟨testsets, defCtls⟩ := config
    simp [AlsaConfiguration.asRead]
  rw [hparts, map_eq_self_iff, map_eq_self_iff]
  simp only [AlsaTestset.asRead_eq_iff, AlsaControlSettings.asRead_eq_iff, ControlValuesFit]

/-- **The round trip**: a text that was written for a configuration is read as this
configuration exactly if the value of every control fits an `int`. -/
theorem alsaReadConfig_roundTrip_iff (junk : Int) {text : List Char}
    {config : AlsaConfiguration} (h : Writes text config) :
    alsaReadConfig junk (some text) = .ok (.config config) ↔ ControlValuesFit config := by
  rw [alsaReadConfig_written junk h, ← AlsaConfiguration.asRead_eq_iff]
  simp

/-- A playback on an internal speaker with its mixer settings. -/
def speakerDocument : Document :=
  [.testset [
    .description "internal speaker".toList,
    .control [.card 0, .set (quoted "Master Volume".toList) (number 50)],
    .stream .output [.field .card 0, .list .rates [44100, 48000], .list .formats [2]]]]

/-- The lines of a document as they are make a text of it. -/
theorem isTextOf_unlines {lines : List (List Char)} (h : ∀ l ∈ lines, l.length < maxLineLen) :
    IsTextOf lines (unlines lines) := by
  refine ⟨lines, ?_, rfl⟩
  induction lines with
  | nil => exact .nil
  | cons line lines ih =>
      exact .cons ⟨[], fun c hc => (by cases hc), rfl, h line List.mem_cons_self⟩
        (ih fun l hl => h l (List.mem_cons_of_mem line hl))

theorem alsaReadConfig_roundTrip_speaker :
    alsaReadConfig 0 (some (unlines speakerDocument.lines)) =
      .ok (.config speakerDocument.config) ↔ ControlValuesFit speakerDocument.config := by
  refine alsaReadConfig_roundTrip_iff 0 ⟨speakerDocument, by decide +kernel, rfl, ?_, ?_, ?_⟩
  · refine ⟨by decide, by decide, List.forall_mem_singleton.mpr ⟨by decide, by decide, ?_, ?_⟩,
      fun c hc => (by cases hc)⟩
    · refine List.forall_mem_singleton.mpr fun list => ?_
      cases list <;> decide
    · exact List.forall_mem_singleton.mpr (by decide)
  · exact isTextOf_unlines (by decide +kernel)
  · decide +kernel

/-- The value of a control is one more than an `int` can hold. -/
def largeDocument : Document :=
  [.defaults [[.set (number 0) (number 2147483648)]]]

/-- `INT_MIN` is read. -/
theorem largeValue_changes :
    ¬ ∀ junk text config, Writes text config →
      alsaReadConfig junk (some text) = .ok (.config config) := by
  intro h
  have hwrites : Writes (unlines largeDocument.lines) largeDocument.config := by
    refine ⟨largeDocument, by decide, rfl, ?_, isTextOf_unlines (by decide +kernel),
      by decide +kernel⟩
    exact ⟨by decide, by decide, fun c hc => (by cases hc),
      List.forall_mem_singleton.mpr (by decide)⟩
  have hread := h 0 _ _ hwrites
  rw [alsaReadConfig_written 0 hwrites] at hread
  have hsame : largeDocument.config.asRead = largeDocument.config := by simpa using hread
  have hfit := (AlsaConfiguration.asRead_eq_iff _).mp hsame
  have hvalue := hfit.2 _ List.mem_cons_self _ List.mem_cons_self
  exact absurd hvalue.2 (by decide)

end Blts.Alsa
