import Blts.Alsa.Lines

/-!
# The sections as lists of lines

The loops that look for sections, over lists of lines: a section is what stands before
its end tag, and the loop goes on with that tag.
-/

namespace Blts.Alsa

/-! ## Testsets -/

/-- What a stream has before its section is read. -/
def AlsaPcmSettings.start : AlsaPcmSettings :=
  { AlsaPcmSettings.zero with linkCard := -1, linkDevice := -1, periodSize := -1, volume := 100 }

/-- The lines of a section for a stream. -/
def readStream (junk : Int) (dir : StreamDir) (lines : List (List Char))
    (testset : AlsaTestset) : Except CnfStop AlsaTestset :=
  if testset.pcms.length ≥ maxStreams then .error .failed
  else do
    let pcm ← readLines pcmWords lines junk .start
    .ok { testset with pcms := testset.pcms ++ [{ pcm with dir := dir }] }

/-- The lines of a section in a testset. -/
def readPart (junk : Int) (lines : List (List Char)) (testset : AlsaTestset) :
    TestsetSection → Except CnfStop AlsaTestset
  | .playback => readStream junk .output lines testset
  | .recording => readStream junk .input lines testset
  | .control =>
      if testset.ctls.length ≥ maxStreams then .error .failed
      else do
        let ctl ← readLines controlWords lines junk .zero
        .ok { testset with ctls := testset.ctls ++ [ctl] }
  | .wait => readStream junk .none lines testset
  | .tuner => do
      let tuner ← readLines tunerWords lines junk { testset.tuner with scan := -1 }
      .ok { testset with tuner := tuner }
  | .bluetooth => do
      let btaudio ← readLines bluetoothWords lines junk testset.btaudio
      .ok { testset with btaudio := btaudio }

/-- The sections of a testset. -/
def testsetTags : Tags TestsetSection where
  start := sectionOf
  stop := TestsetSection.endTag

/-- What a testset is made of. -/
def readTestset (junk : Int) : List (Chunk TestsetSection) → Int → AlsaTestset →
    Except CnfStop AlsaTestset
  | [], _, testset => .ok testset
  | .line line :: cs, value, testset => do
      let r ← testsetWords (wordsOf line) value testset
      readTestset junk cs r.1 r.2
  | .part section_ inner :: cs, value, testset => do
      let testset ← readPart junk inner testset section_
      readTestset junk cs value testset
  | .noEnd _ _ :: _, _, _ => .error (.fault .nullDeref)

section

variable {junk : Int} {lines : List (List Char)} {testset : AlsaTestset}
  {section_ : TestsetSection}

theorem parseStream_eq (dir : StreamDir) (after : List Char) (hlines : ∀ l ∈ lines, IsLine l) :
    cnfparserParseConfigSection junk dir (unlines lines) after testset =
      readStream junk dir lines testset := by
  unfold cnfparserParseConfigSection readStream cnfparserParsePcm
  rw [parseSection_eq pcmLine_follows junk after _ hlines]
  rfl

theorem parseTestsetPart_eq (after : List Char) (hlines : ∀ l ∈ lines, IsLine l) :
    parseTestsetPart junk (unlines lines) after testset section_ =
      readPart junk lines testset section_ := by
  cases section_ with
  | playback => exact parseStream_eq .output after hlines
  | recording => exact parseStream_eq .input after hlines
  | control =>
      show (if testset.ctls.length ≥ maxStreams then _ else _) = _
      rw [cnfparserParseControl, parseSection_eq controlLine_follows junk after _ hlines]
      rfl
  | wait => exact parseStream_eq .none after hlines
  | tuner =>
      show cnfparserParseTuner junk (unlines lines) after testset = _
      rw [cnfparserParseTuner, parseSection_eq tunerLine_follows junk after _ hlines]
      rfl
  | bluetooth =>
      show cnfparserParseBluetooth junk (unlines lines) after testset = _
      rw [cnfparserParseBluetooth, parseSection_eq bluetoothLine_follows junk after _ hlines]
      rfl

end

/-- **The loop of `cnfparser_parse_testset_section`** over lines. -/
theorem parseTestset_eq {junk : Int} (after : List Char) : ∀ {fuel : Nat}
    {lines : List (List Char)} (line : Option (List Char)) (token : CnfToken)
    (testset : AlsaTestset), (∀ l ∈ lines, IsLine l) → lines.length ≤ fuel →
      parseTestset junk fuel (unlines lines) after line token testset =
        readTestset junk (chunks testsetTags lines) token.value testset := by
  intro fuel
  induction fuel with
  | zero =>
      intro lines line token testset _ hfuel
      rw [List.eq_nil_of_length_eq_zero (Nat.le_zero.mp hfuel), chunks_nil]
      rfl
  | succ fuel ih =>
      intro lines line token testset hlines hfuel
      cases lines with
      | nil =>
          rw [chunks_nil]
          rfl
      | cons l lines =>
          have hl := hlines l List.mem_cons_self
          have hrest : ∀ l' ∈ lines, IsLine l' :=
            fun l' hl' => hlines l' (List.mem_cons_of_mem l hl')
          rw [List.length_cons] at hfuel
          rw [parseTestset, if_neg (unlines_cons_ne_nil l lines), unlines_cons_append,
            readLine_line hl, ok_bind]
          dsimp only
          rw [unlines, drop_line]
          have htags : testsetTags.start l = sectionOf l := rfl
          cases hsection : sectionOf l with
          | some section_ =>
              have hseek := seekSectionEnd_eq section_.endTag [] after
                List.not_mem_nil (.inl rfl) hrest
              rw [List.append_nil, if_neg (fun h => h.2 rfl)] at hseek
              simp only [hseek]
              cases hend : sectionEnd section_.endTag lines with
              | none =>
                  rw [chunks_noEnd (htags.trans hsection) hend]
                  rfl
              | some r =>
                  obtain ⟨inner, rest⟩ := r
                  have hsplit := sectionEnd_length hend
                  rw [hsplit] at hrest hfuel
                  have hinner : ∀ l' ∈ inner, IsLine l' :=
                    fun l' hl' => hrest l' (List.mem_append_left rest hl')
                  have hafter : ∀ l' ∈ rest, IsLine l' :=
                    fun l' hl' => hrest l' (List.mem_append_right inner hl')
                  rw [List.length_append] at hfuel
                  rw [chunks_part (htags.trans hsection) hend, readTestset]
                  show (parseTestsetPart junk (unlines inner) (unlines rest ++ [] ++ after) testset
                    section_ >>= fun testset => parseTestset junk fuel (unlines rest ++ []) after
                      (some l) token testset) = _
                  rw [parseTestsetPart_eq _ hinner, List.append_nil]
                  cases readPart junk inner testset section_ with
                  | error stop => rfl
                  | ok testset' => exact ih (some l) token testset' hafter (by omega)
          | none =>
              rw [chunks_line (htags.trans hsection), readTestset,
                ← testsetLine_follows l token testset hl.2]
              dsimp only
              cases testsetLine l token testset with
              | error stop => rfl
              | ok r => exact ih (some l) r.1 r.2 hrest (by omega)

/-! ## Defaults -/

/-- The controls of a `[defaults]` section. -/
def defaultsTags : Tags Unit where
  start line := if line = "[control]".toList then some () else none
  stop _ := "[end_control]"

/-- What a `[defaults]` section is made of. -/
def readDefaults (junk : Int) : List (Chunk Unit) → AlsaConfiguration →
    Except CnfStop AlsaConfiguration
  | [], config => .ok config
  | .line _ :: cs, config => readDefaults junk cs config
  | .part _ inner :: cs, config =>
      if config.defCtls.length ≥ maxStreams then .error .failed
      else do
        let ctl ← readLines controlWords inner junk .zero
        readDefaults junk cs { config with defCtls := config.defCtls ++ [ctl] }
  | .noEnd _ _ :: _, _ => .error (.fault .nullDeref)

/-- **The loop of `cnfparser_parse_defaults_section`** over lines. -/
theorem parseDefaults_eq {junk : Int} (after : List Char) : ∀ {fuel : Nat}
    {lines : List (List Char)} (line : Option (List Char)) (config : AlsaConfiguration),
      (∀ l ∈ lines, IsLine l) → lines.length ≤ fuel →
        parseDefaults junk fuel (unlines lines) after line config =
          readDefaults junk (chunks defaultsTags lines) config := by
  intro fuel
  induction fuel with
  | zero =>
      intro lines line config _ hfuel
      rw [List.eq_nil_of_length_eq_zero (Nat.le_zero.mp hfuel), chunks_nil]
      rfl
  | succ fuel ih =>
      intro lines line config hlines hfuel
      cases lines with
      | nil =>
          rw [chunks_nil]
          rfl
      | cons l lines =>
          have hl := hlines l List.mem_cons_self
          have hrest : ∀ l' ∈ lines, IsLine l' :=
            fun l' hl' => hlines l' (List.mem_cons_of_mem l hl')
          rw [List.length_cons] at hfuel
          rw [parseDefaults, if_neg (unlines_cons_ne_nil l lines), unlines_cons_append,
            readLine_line hl, ok_bind]
          dsimp only
          rw [unlines, drop_line]
          by_cases hcontrol : l = "[control]".toList
          · subst hcontrol
            have hstart : defaultsTags.start "[control]".toList = some () := by decide
            have hseek := seekSectionEnd_eq "[end_control]" [] after
              List.not_mem_nil (.inl rfl) hrest
            rw [List.append_nil, if_neg (fun h => h.2 rfl)] at hseek
            rw [if_pos rfl, hseek]
            cases hend : sectionEnd "[end_control]" lines with
            | none =>
                rw [chunks_noEnd hstart hend]
                rfl
            | some r =>
                obtain ⟨inner, rest⟩ := r
                have hsplit := sectionEnd_length hend
                rw [hsplit] at hrest hfuel
                have hinner : ∀ l' ∈ inner, IsLine l' :=
                  fun l' hl' => hrest l' (List.mem_append_left rest hl')
                have hafter : ∀ l' ∈ rest, IsLine l' :=
                  fun l' hl' => hrest l' (List.mem_append_right inner hl')
                rw [List.length_append] at hfuel
                have hle : rest.length ≤ fuel := by omega
                rw [chunks_part hstart hend, readDefaults]
                show (if config.defCtls.length ≥ maxStreams then _ else _) = _
                by_cases hfull : config.defCtls.length ≥ maxStreams
                · rw [if_pos hfull, if_pos hfull]
                · rw [if_neg hfull, if_neg hfull, cnfparserParseControl,
                    parseSection_eq controlLine_follows junk _ _ hinner, List.append_nil]
                  cases readLines controlWords inner junk .zero with
                  | error stop => rfl
                  | ok ctl => exact ih _ _ hafter hle
          · have hstart : defaultsTags.start l = none := if_neg hcontrol
            rw [if_neg hcontrol, chunks_line hstart, readDefaults]
            exact ih (some l) config hrest (by omega)

/-! ## The whole text -/

/-- What a missing end of a section does. -/
def missingEnd (lines : List (List Char)) (tail : List Char) : CnfStop :=
  if lines = [] ∧ tail ≠ [] then .unset
  else if tail.length < intLimit then .fault .nullDeref
  else .astray

/-- A testset, the end of which has been found. -/
def readTestsetSection (junk : Int) (lines : List (List Char)) (config : AlsaConfiguration) :
    Except CnfStop AlsaConfiguration := do
  writeAt magicNumber config.testsets.length
  let testset ← readTestset junk (chunks testsetTags lines) junk .zero
  .ok { config with testsets := config.testsets ++ [testset] }

/-- The sections of a file. -/
inductive FileSection where
  | testset
  | defaults
  deriving DecidableEq

def fileTags : Tags FileSection where
  start line :=
    if line = "[testset]".toList then some .testset
    else if line = "[defaults]".toList then some .defaults
    else none
  stop
    | .testset => "[end_testset]"
    | .defaults => "[end_defaults]"

/-- The lines of a section of a file. -/
def readFileSection (junk : Int) (inner : List (List Char)) (config : AlsaConfiguration) :
    FileSection → Except CnfStop AlsaConfiguration
  | .testset => readTestsetSection junk inner config
  | .defaults => readDefaults junk (chunks defaultsTags inner) config

/-- What a file is made of, with an unterminated text after it.  That is not read: the
line before it is taken again, if there is one. -/
def readSections (junk : Int) (tail : List Char) (started : Bool) :
    List (Chunk FileSection) → AlsaConfiguration → Except CnfStop AlsaConfiguration
  | [], config =>
      if tail = [] then .ok config
      else if started = false then .error .unset
      else if tail.length < intLimit then .ok config
      else .error .astray
  | .line _ :: cs, config => readSections junk tail true cs config
  | .part section_ inner :: cs, config => do
      let config ← readFileSection junk inner config section_
      readSections junk tail true cs config
  | .noEnd _ rest :: _, _ => .error (missingEnd rest tail)

section

variable {junk : Int} {lines : List (List Char)} {config : AlsaConfiguration}

theorem parseTestsetSection_eq (after : List Char) (hlines : ∀ l ∈ lines, IsLine l) :
    cnfparserParseTestsetSection junk (unlines lines) after config =
      readTestsetSection junk lines config := by
  unfold cnfparserParseTestsetSection readTestsetSection
  rw [parseTestset_eq after none _ _ hlines (length_le_unlines lines)]

theorem parseDefaultsSection_eq (after : List Char) (hlines : ∀ l ∈ lines, IsLine l) :
    cnfparserParseDefaultsSection junk (unlines lines) after config =
      readDefaults junk (chunks defaultsTags lines) config :=
  parseDefaults_eq after none config hlines (length_le_unlines lines)

end

/-- A search for the end of a section, where there is none. -/
theorem deref_noEnd {tag : String} {tail : List Char} {lines : List (List Char)}
    (hend : sectionEnd tag lines = none) :
    ((if lines = [] ∧ tail ≠ [] then .error .unset
      else seekResult tail (sectionEnd tag lines)) >>= deref) =
        .error (missingEnd lines tail) := by
  rw [hend]
  unfold missingEnd seekResult
  by_cases hnil : lines = [] ∧ tail ≠ []
  · rw [if_pos hnil, if_pos hnil]
    rfl
  · rw [if_neg hnil, if_neg hnil]
    by_cases hlen : tail.length < intLimit
    · rw [if_pos hlen, if_pos hlen]
      rfl
    · rw [if_neg hlen, if_neg hlen]
      rfl

/-- A search for the end of a section that is there. -/
theorem deref_end {tag : String} {tail : List Char} {lines inner rest : List (List Char)}
    (hend : sectionEnd tag lines = some (inner, rest)) :
    ((if lines = [] ∧ tail ≠ [] then .error .unset
      else seekResult tail (sectionEnd tag lines)) >>= deref) =
        .ok (unlines inner, unlines rest ++ tail) := by
  have hne : ¬ (lines = [] ∧ tail ≠ []) := by
    rintro ⟨rfl, _⟩
    cases hend
  rw [if_neg hne, hend]
  rfl

/-- A section of a file, the tag of which has been read: its end is looked for, it is
parsed, and `next` goes on with the end tag. -/
theorem fileSection_eq {junk : Int} {tail : List Char} (htail : '\n' ∉ tail)
    {section_ : FileSection} {l : List Char} {lines : List (List Char)}
    {config : AlsaConfiguration} {started : Bool}
    (parse : List Char → List Char → AlsaConfiguration → Except CnfStop AlsaConfiguration)
    (next : List Char → AlsaConfiguration → Except CnfStop AlsaConfiguration)
    (hstart : fileTags.start l = some section_) (hlines : ∀ l' ∈ lines, IsLine l')
    (hparse : ∀ {inner : List (List Char)} (after : List Char), (∀ l' ∈ inner, IsLine l') →
      parse (unlines inner) after config = readFileSection junk inner config section_)
    (hnext : ∀ {inner rest : List (List Char)} (config' : AlsaConfiguration),
      sectionEnd (fileTags.stop section_) lines = some (inner, rest) →
        next (unlines rest ++ tail) config' =
          readSections junk tail true (chunks fileTags rest) config') :
    (do
      let found ← seekSectionEnd (fileTags.stop section_) (unlines lines ++ tail).length
        (unlines lines ++ tail) [] none
      let sectionEnd ← deref found
      let config' ← parse sectionEnd.1 sectionEnd.2 config
      next sectionEnd.2 config') =
        readSections junk tail started (chunks fileTags (l :: lines)) config := by
  have hseek := seekSectionEnd_eq (fileTags.stop section_) tail [] htail (.inr rfl) hlines
  rw [← bind_assoc, hseek]
  cases hend : sectionEnd (fileTags.stop section_) lines with
  | none =>
      rw [← hend, deref_noEnd hend, chunks_noEnd hstart hend]
      rfl
  | some r =>
      obtain ⟨inner, rest⟩ := r
      have hinner : ∀ l' ∈ inner, IsLine l' := fun l' hl' =>
        hlines l' (sectionEnd_length hend ▸ List.mem_append_left rest hl')
      rw [← hend, deref_end hend, chunks_part hstart hend, ok_bind, readSections]
      dsimp only
      rw [hparse _ hinner]
      cases readFileSection junk inner config section_ with
      | error stop => rfl
      | ok config' => exact hnext config' hend

/-- **The loop of `cnfparser_parse_sections`** over lines.  The line before an
unterminated text is no start tag: such a one would have been looked for its end. -/
theorem parseSections_eq {junk : Int} {tail : List Char} (htail : '\n' ∉ tail) :
    ∀ {fuel : Nat} {lines : List (List Char)} {line : Option (List Char)}
      (config : AlsaConfiguration), (∀ l ∈ lines, IsLine l) → lines.length + tail.length ≤ fuel →
        (∀ text, line = some text → lines = [] →
          text ≠ "[testset]".toList ∧ text ≠ "[defaults]".toList) →
        parseSections junk fuel (unlines lines ++ tail) line config =
          readSections junk tail line.isSome (chunks fileTags lines) config := by
  intro fuel
  induction fuel with
  | zero =>
      intro lines line config _ hfuel _
      have hlines : lines = [] := List.eq_nil_of_length_eq_zero (by omega)
      have hnil : tail = [] := List.eq_nil_of_length_eq_zero (by omega)
      rw [hlines, chunks_nil, readSections, if_pos hnil, hnil]
      rfl
  | succ fuel ih =>
      intro lines line config hlines hfuel hstale
      cases lines with
      | nil =>
          rw [chunks_nil, readSections]
          by_cases hnil : tail = []
          · rw [if_pos hnil, hnil]
            rfl
          · rw [if_neg hnil]
            show parseSections junk (fuel + 1) tail line config = _
            rw [parseSections, if_neg hnil]
            cases line with
            | none =>
                rw [readLine_tail_none htail]
                rfl
            | some text =>
                obtain ⟨htestset, hdefaults⟩ := hstale text rfl rfl
                rw [readLine_tail_some htail, if_neg (show ¬ (some text).isSome = false by simp)]
                by_cases hlen : tail.length < intLimit
                · rw [if_pos hlen, if_pos hlen, ok_bind]
                  dsimp only
                  rw [if_neg htestset, if_neg hdefaults, List.drop_eq_nil_of_le (Nat.le_succ _)]
                  cases fuel <;> rfl
                · rw [if_neg hlen, if_neg hlen]
                  rfl
      | cons l lines =>
          have hl := hlines l List.mem_cons_self
          have hrest : ∀ l' ∈ lines, IsLine l' :=
            fun l' hl' => hlines l' (List.mem_cons_of_mem l hl')
          have hne : unlines (l :: lines) ++ tail ≠ [] := by simp [unlines]
          rw [List.length_cons] at hfuel
          rw [parseSections, if_neg hne, unlines_cons_append, readLine_line hl, ok_bind]
          dsimp only
          rw [drop_line]
          have hnext {inner rest : List (List Char)} {tag : String} {text : List Char}
              (config' : AlsaConfiguration) (hend : sectionEnd tag lines = some (inner, rest)) :
              parseSections junk fuel (unlines rest ++ tail) (some text) config' =
                readSections junk tail true (chunks fileTags rest) config' := by
            obtain ⟨rest', hrest'⟩ := sectionEnd_rest hend
            have hsplit := sectionEnd_length hend
            rw [hsplit] at hrest hfuel
            rw [List.length_append] at hfuel
            have hnil : rest ≠ [] := hrest' ▸ List.cons_ne_nil _ _
            exact ih config' (fun l' hl' => hrest l' (List.mem_append_right inner hl'))
              (by omega) (fun _ _ hcontra => absurd hcontra hnil)
          by_cases htestset : l = "[testset]".toList
          · subst htestset
            have hstart : fileTags.start "[testset]".toList = some .testset := by decide
            rw [if_pos rfl]
            exact fileSection_eq htail (cnfparserParseTestsetSection junk)
              (fun rest config' => parseSections junk fuel rest (some "[testset]".toList) config')
              hstart hrest
              (fun after hinner => parseTestsetSection_eq after hinner) hnext
          by_cases hdefaults : l = "[defaults]".toList
          · subst hdefaults
            have hstart : fileTags.start "[defaults]".toList = some .defaults := by decide
            rw [if_neg htestset, if_pos rfl]
            exact fileSection_eq htail (cnfparserParseDefaultsSection junk)
              (fun rest config' => parseSections junk fuel rest (some "[defaults]".toList) config')
              hstart hrest
              (fun after hinner => parseDefaultsSection_eq after hinner) hnext
          have hstart : fileTags.start l = none :=
            (if_neg htestset).trans (if_neg hdefaults)
          rw [if_neg htestset, if_neg hdefaults, chunks_line hstart, readSections]
          refine ih config hrest (by omega) (fun text htext _ => ?_)
          cases htext
          exact ⟨htestset, hdefaults⟩

end Blts.Alsa
