import Blts.Alsa.CleanLines
import Blts.Alsa.LineVerdicts

/-!
# What is reached in a file

A file is a list of items: lines, sections, and what is missing.  They are looked at in
order up to the first that ends the reading.  Whether anything is written past its end,
and how the reading ends, is said of these items alone.
-/

namespace Blts.Alsa

open Blts.Lib

/-- An item of a file. -/
inductive Item where
  /-- the start of a testset with so many before it -/
  | testset (index : Nat)
  /-- a line of a testset -/
  | line (words : List Word)
  | stream (lines : List (List Word))
  | control (lines : List (List Word))
  | tuner (lines : List (List Word))
  | bluetooth (lines : List (List Word))
  /-- a section that there is no room for -/
  | full
  /-- a start tag without an end in the lines and the text after it -/
  | noEnd (rest : List (List Char)) (text : List Char)
  /-- text that no newline ends, after lines or not -/
  | tail (started : Bool) (text : List Char)

/-- What reading an item ends with. -/
def Item.stop : Item → Verdict
  | .testset _ => none
  | .line ws => testsetVerdict ws
  | .stream lines => firstStop pcmVerdict lines
  | .control lines => firstStop controlVerdict lines
  | .tuner lines => firstStop tunerVerdict lines
  | .bluetooth lines => firstStop bluetoothVerdict lines
  | .full => some .failed
  | .noEnd rest text => some (missingEnd rest text)
  | .tail started text =>
      if started = false then some .unset
      else if text.length < intLimit then none
      else some .astray

/-- What is written for an item fits where it is written to. -/
def Item.Fits : Item → Prop
  | .testset index => index < magicNumber
  | .stream lines =>
      ∀ list : PcmList, ((looked pcmVerdict lines).map (pcmAdds list)).sum ≤ magicNumber
  | .control lines => ((looked controlVerdict lines).map controlAdds).sum ≤ magicNumber
  | .tuner lines => ∀ ws ∈ looked tunerVerdict lines, TunerShort ws
  | .bluetooth lines => ∀ ws ∈ looked bluetoothVerdict lines, BluetoothShort ws
  | .line _ | .full | .noEnd _ _ | .tail _ _ => True

/-! ## The items of a file -/

/-- How many streams and controls a section adds to its testset. -/
def TestsetSection.counts : TestsetSection → Nat × Nat
  | .playback | .recording | .wait => (1, 0)
  | .control => (0, 1)
  | .tuner | .bluetooth => (0, 0)

/-- A section of a testset with so many streams and controls. -/
def partItem (streams ctls : Nat) (lines : List (List Word)) : TestsetSection → Item
  | .playback | .recording | .wait => if streams ≥ maxStreams then .full else .stream lines
  | .control => if ctls ≥ maxStreams then .full else .control lines
  | .tuner => .tuner lines
  | .bluetooth => .bluetooth lines

def testsetItems : List (Chunk TestsetSection) → Nat → Nat → List Item
  | [], _, _ => []
  | .line line :: cs, streams, ctls => .line (wordsOf line) :: testsetItems cs streams ctls
  | .part section_ inner :: cs, streams, ctls =>
      partItem streams ctls (inner.map wordsOf) section_ ::
        testsetItems cs (streams + section_.counts.1) (ctls + section_.counts.2)
  | .noEnd _ rest :: _, _, _ => [.noEnd rest []]

/-- The items of a `[defaults]` section, after so many default controls. -/
def defaultsItems : List (Chunk Unit) → Nat → List Item
  | [], _ => []
  | .line _ :: cs, ctls => defaultsItems cs ctls
  | .part _ inner :: cs, ctls =>
      (if ctls ≥ maxStreams then .full else .control (inner.map wordsOf)) ::
        defaultsItems cs (ctls + 1)
  | .noEnd _ rest :: _, _ => [.noEnd rest []]

/-- How many controls a `[defaults]` section has. -/
def defaultsCount : List (Chunk Unit) → Nat
  | [] => 0
  | .line _ :: cs => defaultsCount cs
  | .part _ _ :: cs => defaultsCount cs + 1
  | .noEnd _ _ :: _ => 0

/-- The items of a section of a file, after so many testsets and default controls. -/
def sectionItems (testsets ctls : Nat) (inner : List (List Char)) : FileSection → List Item
  | .testset => .testset testsets :: testsetItems (chunks testsetTags inner) 0 0
  | .defaults => defaultsItems (chunks defaultsTags inner) ctls

/-- What it adds to them. -/
def FileSection.counts (inner : List (List Char)) : FileSection → Nat × Nat
  | .testset => (1, 0)
  | .defaults => (0, defaultsCount (chunks defaultsTags inner))

def fileItems (tail : List Char) : Bool → List (Chunk FileSection) → Nat → Nat → List Item
  | started, [], _, _ => if tail = [] then [] else [.tail started tail]
  | _, .line _ :: cs, testsets, ctls => fileItems tail true cs testsets ctls
  | _, .part section_ inner :: cs, testsets, ctls =>
      sectionItems testsets ctls inner section_ ++
        fileItems tail true cs (testsets + (section_.counts inner).1)
          (ctls + (section_.counts inner).2)
  | _, .noEnd _ rest :: _, _, _ => [.noEnd rest tail]

/-! ## Reading the items -/

/-- Reading some items writes where it may exactly if what is looked at fits, and ends as
they say. -/
abbrev Reads {α : Type} (items : List Item) (post : α → Prop) (run : Except CnfStop α) : Prop :=
  Leads (∀ item ∈ looked Item.stop items, item.Fits) (firstStop Item.stop items) post run

section

variable {α β : Type} {item : Item} {items items' : List Item} {post : α → Prop}
  {post' : β → Prop} {run : Except CnfStop α}

theorem reads_singleton (h : Leads item.Fits item.stop post run) : Reads [item] post run := by
  have hlooked : looked Item.stop [item] = [item] := by
    rw [looked]
    split <;> rfl
  unfold Reads
  rw [hlooked, List.forall_mem_singleton, firstStop, firstStop, Option.or_none]
  exact h

theorem Reads.append {f : α → Except CnfStop β} (h : Reads items post run)
    (hf : ∀ a, post a → Reads items' post' (f a)) : Reads (items ++ items') post' (run >>= f) := by
  unfold Reads
  rw [firstStop_append, looked_append]
  apply (Ends.bind h fun _ => hf).congr
  rw [List.forall_mem_append]
  by_cases hstop : firstStop Item.stop items = none
  · rw [if_pos hstop]
    exact and_congr_right fun _ => ⟨fun hs => hs hstop, fun hs _ => hs⟩
  · rw [if_neg hstop]
    exact and_congr_right fun _ => ⟨fun _ _ hitem => (by cases hitem),
      fun _ hs => absurd hs hstop⟩

theorem Reads.cons {f : α → Except CnfStop β} (h : Leads item.Fits item.stop post run)
    (hf : ∀ a, post a → Reads items' post' (f a)) :
    Reads (item :: items') post' (run >>= f) :=
  (reads_singleton h).append hf

/-- Nothing is read after a section that there is no room for. -/
theorem reads_full : Reads (.full :: items) post (.error .failed) := by
  have hlooked : looked Item.stop (.full :: items) = [.full] := rfl
  have hstop : firstStop Item.stop (.full :: items) = some .failed := rfl
  unfold Reads
  rw [hlooked, hstop, List.forall_mem_singleton]
  exact Ends.error (by decide)

theorem reads_nil {a : α} (ha : post a) : Reads [] post (.ok a) :=
  (Ends.ok ha).congr ⟨fun _ _ hitem => (by cases hitem), fun _ => trivial⟩

end

/-- A section that is not finished. -/
theorem missingEnd_inside (rest : List (List Char)) (tail : List Char) :
    missingEnd rest tail ≠ .fault .outOfBounds := by
  unfold missingEnd
  split
  · decide
  · split <;> decide

theorem missingEnd_nil (rest : List (List Char)) : missingEnd rest [] = .fault .nullDeref := by
  unfold missingEnd
  rw [if_neg fun h => h.2 rfl, if_pos (by decide)]

theorem AlsaPcmSettings.start_lists (list : PcmList) : list.get .start = [] := by
  cases list <;> rfl

section

variable {junk : Int} {inner : List (List Char)} {testset : AlsaTestset}

/-- No room for another section. -/
theorem full_leads {α : Type} {post : α → Prop} :
    Leads Item.full.Fits Item.full.stop post (.error .failed) :=
  Ends.error (by decide)

theorem stream_leads (hinner : ∀ l ∈ inner, IsLine l) :
    Leads (Item.stream (inner.map wordsOf)).Fits (Item.stream (inner.map wordsOf)).stop
      (fun _ => True) (readLines pcmWords inner junk .start) := by
  have hstart (list : PcmList) : (list.get AlsaPcmSettings.start).length = 0 := by
    rw [AlsaPcmSettings.start_lists]
    rfl
  apply (pcmWords_accounts.readLines junk hinner fun list => ?_).congr
  · simp only [hstart, Nat.zero_add]
    exact and_iff_right fun _ _ => trivial
  · rw [hstart]
    exact Nat.zero_le _

theorem control_leads (hinner : ∀ l ∈ inner, IsLine l) :
    Leads (Item.control (inner.map wordsOf)).Fits (Item.control (inner.map wordsOf)).stop
      (fun _ => True) (readLines controlWords inner junk .zero) := by
  apply (controlWords_accounts.readLines junk hinner fun _ => Nat.zero_le _).congr
  exact ⟨fun h => (Nat.zero_add _).symm.trans_le (h.2 ()),
    fun h => ⟨fun _ _ => trivial, fun _ => (Nat.zero_add _).trans_le h⟩⟩

theorem readStream_leads {dir : StreamDir} (hinner : ∀ l ∈ inner, IsLine l) :
    Leads (partItem testset.pcms.length testset.ctls.length (inner.map wordsOf) .wait).Fits
      (partItem testset.pcms.length testset.ctls.length (inner.map wordsOf) .wait).stop
      (fun r => r.pcms.length = testset.pcms.length + 1 ∧ r.ctls.length = testset.ctls.length ∧
        (testset.pcms.length ≤ maxStreams → r.pcms.length ≤ maxStreams))
      (readStream junk dir inner testset) := by
  unfold readStream partItem
  by_cases hfull : testset.pcms.length ≥ maxStreams
  · rw [if_pos hfull, if_pos hfull]
    exact full_leads
  · rw [if_neg hfull, if_neg hfull]
    exact (stream_leads hinner).map fun pcm _ => ⟨List.length_append, rfl, fun _ => by
      rw [List.length_append]
      exact Nat.not_le.mp hfull⟩

/-- **A section of a testset**. -/
theorem readPart_leads (hinner : ∀ l ∈ inner, IsLine l) (section_ : TestsetSection) :
    Leads (partItem testset.pcms.length testset.ctls.length (inner.map wordsOf) section_).Fits
      (partItem testset.pcms.length testset.ctls.length (inner.map wordsOf) section_).stop
      (fun r => r.pcms.length = testset.pcms.length + section_.counts.1 ∧
        r.ctls.length = testset.ctls.length + section_.counts.2 ∧
          (testset.pcms.length ≤ maxStreams → r.pcms.length ≤ maxStreams))
      (readPart junk inner testset section_) := by
  cases section_ with
  | playback => exact readStream_leads hinner
  | recording => exact readStream_leads hinner
  | control =>
      unfold readPart partItem
      by_cases hfull : testset.ctls.length ≥ maxStreams
      · rw [if_pos hfull, if_pos hfull]
        exact full_leads
      · rw [if_neg hfull, if_neg hfull]
        exact (control_leads hinner).map fun ctl _ => ⟨rfl, List.length_append, id⟩
  | wait => exact readStream_leads hinner
  | tuner =>
      exact ((tunerWords_accounts.readLines junk hinner fun i => (by cases i)).congr
        (and_iff_left fun i => (by cases i))).map fun tuner _ => ⟨rfl, rfl, id⟩
  | bluetooth =>
      exact ((bluetoothWords_accounts.readLines junk hinner fun i => (by cases i)).congr
        (and_iff_left fun i => (by cases i))).map fun btaudio _ => ⟨rfl, rfl, id⟩

end

/-- The lines of a chunk are lines. -/
def Chunk.IsLines {S : Type} : Chunk S → Prop
  | .line l => IsLine l
  | .part _ inner => ∀ l ∈ inner, IsLine l
  | .noEnd _ _ => True

theorem chunks_isLines {S : Type} {tags : Tags S} {lines : List (List Char)}
    (hlines : ∀ l ∈ lines, IsLine l) : ∀ c ∈ chunks tags lines, c.IsLines := by
  induction hn : lines.length using Nat.strongRecOn generalizing lines with
  | ind n ih =>
      cases lines with
      | nil =>
          rw [chunks_nil]
          exact fun c hc => (by cases hc)
      | cons line lines =>
          have hline := hlines line List.mem_cons_self
          have hrest : ∀ l ∈ lines, IsLine l := fun l hl => hlines l (List.mem_cons_of_mem line hl)
          rw [List.length_cons] at hn
          cases hstart : tags.start line with
          | none =>
              rw [chunks_line hstart, List.forall_mem_cons]
              exact ⟨hline, ih lines.length (by omega) hrest rfl⟩
          | some section_ =>
              cases hend : sectionEnd (tags.stop section_) lines with
              | none =>
                  rw [chunks_noEnd hstart hend, List.forall_mem_singleton]
                  trivial
              | some r =>
                  obtain ⟨inner, rest⟩ := r
                  have hsplit := sectionEnd_length hend
                  rw [hsplit, List.length_append] at hn
                  rw [hsplit, List.forall_mem_append] at hrest
                  rw [chunks_part hstart hend, List.forall_mem_cons]
                  exact ⟨hrest.1, ih rest.length (by omega) hrest.2 rfl⟩

/-- **A testset**. -/
theorem readTestset_reads {junk : Int} {cs : List (Chunk TestsetSection)} :
    ∀ (value : Int) (testset : AlsaTestset), (∀ c ∈ cs, c.IsLines) →
      Reads (testsetItems cs testset.pcms.length testset.ctls.length)
        (fun r => testset.pcms.length ≤ maxStreams → r.pcms.length ≤ maxStreams)
        (readTestset junk cs value testset) := by
  induction cs with
  | nil => exact fun value testset _ => reads_nil id
  | cons c cs ih =>
      intro value testset hcs
      obtain ⟨hc, hrest⟩ := List.forall_mem_cons.mp hcs
      cases c with
      | line line =>
          rw [readTestset, testsetItems]
          refine Reads.cons (testsetWords_leads (wordsFit_line hc) value testset) fun r hr => ?_
          rw [← hr.1, ← hr.2]
          exact ih r.1 r.2 hrest
      | part section_ inner =>
          rw [readTestset, testsetItems]
          refine Reads.cons (readPart_leads hc section_) fun r hr => ?_
          rw [← hr.1, ← hr.2.1]
          exact (ih value r hrest).weaken fun r' hr' h => hr' (hr.2.2 h)
      | noEnd section_ rest =>
          rw [readTestset, testsetItems, ← missingEnd_nil rest]
          exact reads_singleton (Ends.error (missingEnd_inside rest []))

/-- **A `[defaults]` section**. -/
theorem readDefaults_reads {junk : Int} {cs : List (Chunk Unit)} :
    ∀ (config : AlsaConfiguration), (∀ c ∈ cs, c.IsLines) →
      Reads (defaultsItems cs config.defCtls.length)
        (fun r => r.testsets = config.testsets ∧
          r.defCtls.length = config.defCtls.length + defaultsCount cs)
        (readDefaults junk cs config) := by
  induction cs with
  | nil => exact fun config _ => reads_nil ⟨rfl, rfl⟩
  | cons c cs ih =>
      intro config hcs
      obtain ⟨hc, hrest⟩ := List.forall_mem_cons.mp hcs
      cases c with
      | line line => exact ih config hrest
      | part section_ inner =>
          rw [readDefaults, defaultsItems, defaultsCount]
          by_cases hfull : config.defCtls.length ≥ maxStreams
          · rw [if_pos hfull, if_pos hfull]
            exact reads_full
          · rw [if_neg hfull, if_neg hfull]
            refine Reads.cons (control_leads hc) fun ctl _ => ?_
            have hih := ih { config with defCtls := config.defCtls ++ [ctl] } hrest
            rw [List.length_append, List.length_singleton] at hih
            refine hih.weaken fun r hr => ⟨hr.1, hr.2.trans ?_⟩
            omega
      | noEnd section_ rest =>
          rw [readDefaults, defaultsItems, ← missingEnd_nil rest]
          exact reads_singleton (Ends.error (missingEnd_inside rest []))

/-- **A section of a file**. -/
theorem readFileSection_reads {junk : Int} {inner : List (List Char)}
    (hinner : ∀ l ∈ inner, IsLine l) (config : AlsaConfiguration) (section_ : FileSection) :
    Reads (sectionItems config.testsets.length config.defCtls.length inner section_)
      (fun r => r.testsets.length = config.testsets.length + (section_.counts inner).1 ∧
        r.defCtls.length = config.defCtls.length + (section_.counts inner).2 ∧
          (StreamsFit config → StreamsFit r))
      (readFileSection junk inner config section_) := by
  cases section_ with
  | testset =>
      have hchunks : ∀ c ∈ chunks testsetTags inner, c.IsLines := chunks_isLines hinner
      have htestset := @readTestset_reads junk _ junk .zero hchunks
      refine Reads.cons (leads_writeAt magicNumber config.testsets.length) fun _ _ =>
        htestset.map fun testset htestset => ⟨List.length_append, rfl, fun hfit => ?_⟩
      have hroom : testset.pcms.length ≤ maxStreams := htestset (Nat.zero_le _)
      exact List.forall_mem_append.mpr ⟨hfit, List.forall_mem_singleton.mpr hroom⟩
  | defaults =>
      refine (readDefaults_reads config (chunks_isLines hinner)).weaken fun r hr =>
        ⟨congrArg List.length hr.1, hr.2, fun hfit => ?_⟩
      unfold StreamsFit
      rw [hr.1]
      exact hfit

/-- **A file**. -/
theorem readSections_reads {junk : Int} {tail : List Char} {cs : List (Chunk FileSection)} :
    ∀ {started : Bool} (config : AlsaConfiguration), (∀ c ∈ cs, c.IsLines) →
      Reads (fileItems tail started cs config.testsets.length config.defCtls.length)
        (fun r => StreamsFit config → StreamsFit r)
        (readSections junk tail started cs config) := by
  induction cs with
  | nil =>
      intro started config _
      rw [readSections, fileItems]
      by_cases htail : tail = []
      · rw [if_pos htail, if_pos htail]
        exact reads_nil id
      · rw [if_neg htail, if_neg htail]
        apply reads_singleton
        show Leads True (if started = false then some .unset
          else if tail.length < intLimit then none else some .astray) _ _
        by_cases hstarted : started = false
        · rw [if_pos hstarted, if_pos hstarted]
          exact Ends.error (by decide)
        rw [if_neg hstarted, if_neg hstarted]
        by_cases hlen : tail.length < intLimit
        · rw [if_pos hlen, if_pos hlen]
          exact Ends.ok id
        · rw [if_neg hlen, if_neg hlen]
          exact Ends.error (by decide)
  | cons c cs ih =>
      intro started config hcs
      obtain ⟨hc, hrest⟩ := List.forall_mem_cons.mp hcs
      cases c with
      | line line =>
          rw [readSections, fileItems]
          exact ih config hrest
      | part section_ inner =>
          rw [readSections, fileItems]
          refine Reads.append (readFileSection_reads hc config section_) fun r hr => ?_
          rw [← hr.1, ← hr.2.1]
          exact (ih r hrest).weaken fun r' hr' h => hr' (hr.2.2 h)
      | noEnd section_ rest =>
          rw [readSections, fileItems]
          exact reads_singleton (Ends.error (missingEnd_inside rest tail))

end Blts.Alsa
