import Blts.Alsa.Reached

/-!
# Reading any file

A file of any contents: whether `alsa_read_config` writes past an end, and whether it
notices what is missing.
-/

namespace Blts.Alsa

open Blts.Lib

/-- The text that is read of a file. -/
def textOf (contents : List Char) : List Char :=
  cString (contents.take (contents.length % uintLimit))

/-- The items of a file. -/
def itemsOf (contents : List Char) : List Item :=
  fileItems (cleanTail (textOf contents)) false (chunks fileTags (cleanLines (textOf contents)))
    0 0

/-- The length of the file and the lines fit, and so does what is stored of the items that
are looked at. -/
def WithinCapacities (contents : List Char) : Prop :=
  contents.length % uintLimit + 1 < uintLimit ∧ LinesFit (textOf contents) ∧
    ∀ item ∈ looked Item.stop (itemsOf contents), item.Fits

/-- What is returned for what has been read. -/
def resultOf : Except CnfStop AlsaConfiguration → Except CnfStop ReadResult
  | .ok config => .ok (.config config)
  | .error .failed => .ok (.error 1)
  | .error stop => .error stop

theorem readFile_eq (contents : List Char) : readFile contents =
    if contents.length % uintLimit + 1 < uintLimit then .ok (textOf contents)
    else .error (.fault .outOfBounds) := rfl

theorem alsaReadConfig_eq (junk : Int) (contents : List Char) :
    alsaReadConfig junk (some contents) =
      if contents.length % uintLimit + 1 < uintLimit ∧ LinesFit (textOf contents) then
        resultOf (readSections junk (cleanTail (textOf contents)) false
          (chunks fileTags (cleanLines (textOf contents))) .zero)
      else .error (.fault .outOfBounds) := by
  show (readFile contents >>= fun buf => cnfparserCleanup buf >>= fun cleanBuf =>
    resultOf (cnfparserParseSections junk cleanBuf)) = _
  rw [readFile_eq]
  by_cases hlen : contents.length % uintLimit + 1 < uintLimit
  · rw [if_pos hlen, ok_bind, cnfparserCleanup_eq]
    by_cases hfit : LinesFit (textOf contents)
    · rw [if_pos hfit, if_pos ⟨hlen, hfit⟩, ok_bind, cnfparserParseSections_eq junk hfit]
    · rw [if_neg hfit, if_neg fun h => hfit h.2]
      rfl
  · rw [if_neg hlen, if_neg fun h => hlen h.1]
    rfl

/-- The outcome of a reading. -/
def verdictOf (contents : List Char) : Verdict := firstStop Item.stop (itemsOf contents)

theorem readSections_leads (junk : Int) {contents : List Char}
    (hfit : LinesFit (textOf contents)) :
    Reads (itemsOf contents) (fun r => StreamsFit .zero → StreamsFit r)
      (readSections junk (cleanTail (textOf contents)) false
        (chunks fileTags (cleanLines (textOf contents))) .zero) :=
  readSections_reads .zero (chunks_isLines (cleanLines_isLine hfit))

section

variable {junk : Int} {contents : List Char}

theorem alsaReadConfig_over (h : ¬ WithinCapacities contents) :
    alsaReadConfig junk (some contents) = .error (.fault .outOfBounds) := by
  rw [alsaReadConfig_eq]
  by_cases hfit : contents.length % uintLimit + 1 < uintLimit ∧ LinesFit (textOf contents)
  · rw [if_pos hfit, (readSections_leads junk hfit.2).bad_of_not fun hs => h ⟨hfit.1, hfit.2, hs⟩]
    rfl
  · rw [if_neg hfit]

variable (junk) in
theorem alsaReadConfig_ok (h : WithinCapacities contents) (hstop : verdictOf contents = none) :
    ∃ config, alsaReadConfig junk (some contents) = .ok (.config config) := by
  obtain ⟨config, hconfig, _⟩ := (readSections_leads junk h.2.1).done h.2.2 hstop
  rw [alsaReadConfig_eq, if_pos ⟨h.1, h.2.1⟩, hconfig]
  exact ⟨config, rfl⟩

theorem alsaReadConfig_stop (h : WithinCapacities contents) {stop : CnfStop}
    (hstop : verdictOf contents = some stop) :
    alsaReadConfig junk (some contents) = resultOf (.error stop) := by
  rw [alsaReadConfig_eq, if_pos ⟨h.1, h.2.1⟩,
    (readSections_leads junk h.2.1).stop h.2.2 stop hstop]

end

/-- **`alsa_read_config`** writes past the end of a destination exactly for the files that
are not within its capacities: every line has to be shorter than the line buffer, and of
what is looked at, every list, every `[control]` section, the testsets and the strings of
the tuner and Bluetooth settings have to fit. -/
theorem alsaReadConfig_inside_iff (junk : Int) (contents : List Char) :
    alsaReadConfig junk (some contents) ≠ .error (.fault .outOfBounds) ↔
      WithinCapacities contents := by
  constructor
  · intro h
    by_cases hwithin : WithinCapacities contents
    · exact hwithin
    · exact absurd (alsaReadConfig_over hwithin) h
  · intro h hover
    cases hstop : verdictOf contents with
    | none =>
        obtain ⟨config, hconfig⟩ := alsaReadConfig_ok junk h hstop
        rw [hconfig] at hover
        cases hover
    | some stop =>
        have hother := (readSections_leads junk h.2.1).other h.2.2
        rw [alsaReadConfig_stop h hstop] at hover
        cases stop with
        | failed => cases hover
        | unset => cases hover
        | astray => cases hover
        | fault f =>
            cases hover
            exact hother hstop

/-- A line of the length of the line buffer. -/
theorem longLine_overflows :
    ¬ ∀ junk contents, alsaReadConfig junk (some contents) ≠ .error (.fault .outOfBounds) := by
  intro h
  apply h 0 (List.replicate 256 'a' ++ ['\n'])
  decide +kernel

end Blts.Alsa
