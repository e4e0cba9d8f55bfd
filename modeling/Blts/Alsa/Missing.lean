import Blts.Alsa.Capacities

/-!
# Files that lack something

What a file may lack: the end of a section, the newline of its last line, the words
after a keyword.  Some of this is refused, some makes the reading go astray, and some is
taken silently: then a value of the token read before is used.
-/

namespace Blts.Alsa

open Blts.Lib

/-- The words after a keyword of some kind. -/
def wordsAfter (keyword : List Char → Bool) : List Word → Option (List Word)
  | [] => none
  | k :: ws => if k.type = .str ∧ keyword k.str then some ws else none

def isCard (str : List Char) : Bool := beginsWith str "card" 4

def isLink (str : List Char) : Bool := pcmKeyword str == some .link

def isList (str : List Char) : Bool :=
  [PcmList.channels, .rates, .formats, .access, .async].any fun list =>
    pcmKeyword str == some (.list list)

def isPcmKeyword (str : List Char) : Bool := (pcmKeyword str).isSome

def isTunerNumber (str : List Char) : Bool :=
  str == "freq".toList || str == "scan_select".toList

def isTunerKeyword (str : List Char) : Bool := str == "device".toList || isTunerNumber str

def isBluetoothKeyword (str : List Char) : Bool :=
  str == "connect".toList || str == "pin".toList

def isDescription (str : List Char) : Bool := beginsWith str "description" 11

/-! ## What is missing -/

/-- The keyword lacks a value; to set a control takes a name and a value, and a link takes
a card and a device. -/
def ControlLacks (ws : List Word) : Prop :=
  wordsAfter isCard ws = some [] ∨ ∃ rest, wordsAfter isSet ws = some rest ∧ rest.length < 2

def PcmLacks (ws : List Word) : Prop :=
  wordsAfter isPcmKeyword ws = some [] ∨ ∃ w, wordsAfter isLink ws = some [w]

/-- The item lacks something. -/
def Item.Lacks : Item → Prop
  | .line ws => wordsAfter isDescription ws = some []
  | .stream lines => ∃ ws ∈ lines, PcmLacks ws
  | .control lines => ∃ ws ∈ lines, ControlLacks ws
  | .tuner lines => ∃ ws ∈ lines, wordsAfter isTunerKeyword ws = some []
  | .bluetooth lines => ∃ ws ∈ lines, wordsAfter isBluetoothKeyword ws = some []
  | .noEnd _ _ | .tail _ _ => True
  | .testset _ | .full => False

/-- Reading the item follows a null pointer, reads a line that has not been written, or
leaves the text. -/
def Item.Crashes : Item → Prop
  | .stream lines => ∃ ws ∈ looked pcmVerdict lines, wordsAfter isLink ws = some []
  | .control lines => ∃ ws ∈ looked controlVerdict lines, wordsAfter isSet ws = some []
  | .noEnd _ _ => True
  | .tail started text => started = false ∨ intLimit ≤ text.length
  | .line _ | .tuner _ | .bluetooth _ | .testset _ | .full => False

/-- A line of a stream that is taken without a value it should have. -/
def PcmSilent (ws : List Word) : Prop :=
  wordsAfter isList ws = some [] ∨ ∃ w, w.type = .int ∧ wordsAfter isLink ws = some [w]

/-- The item is taken although something is missing. -/
def Item.Silent : Item → Prop
  | .stream lines => ∃ ws ∈ lines, PcmSilent ws
  | .control lines => ∃ ws ∈ lines, ∃ w, wordsAfter isSet ws = some [w]
  | .tuner lines => ∃ ws ∈ lines, wordsAfter isTunerNumber ws = some []
  | .tail _ _ => True
  | .line _ | .bluetooth _ | .noEnd _ _ | .testset _ | .full => False

/-! ## Lines -/

section

variable {keyword : List Char → Bool} {k : Word} {ws : List Word}

theorem wordsAfter_pos (htype : k.type = .str) (h : keyword k.str = true) :
    wordsAfter keyword (k :: ws) = some ws := if_pos ⟨htype, h⟩

theorem wordsAfter_neg (h : keyword k.str = false) : wordsAfter keyword (k :: ws) = none :=
  if_neg fun hk => by rw [h] at hk; exact Bool.false_ne_true hk.2

/-- There is a word after the keyword. -/
theorem wordsAfter_ne_nil {w : Word} : wordsAfter keyword (k :: w :: ws) ≠ some [] := by
  rw [wordsAfter]
  split <;> simp

theorem wordsAfter_type (h : k.type ≠ .str) : wordsAfter keyword (k :: ws) = none :=
  if_neg fun hk => h hk.1

end

theorem valueVerdict_some {ws : List Word} {stop : CnfStop} (h : valueVerdict ws = some stop) :
    stop = .failed := by
  cases ws with
  | nil => exact (Option.some.inj h).symm
  | cons w ws => cases h

theorem stringVerdict_some {ws : List Word} {stop : CnfStop} (h : stringVerdict ws = some stop) :
    stop = .failed := by
  cases ws with
  | nil => exact (Option.some.inj h).symm
  | cons w ws =>
      rw [stringVerdict] at h
      split at h
      · exact (Option.some.inj h).symm
      · cases h

theorem numberVerdict_some {ws : List Word} {stop : CnfStop} (h : numberVerdict ws = some stop) :
    stop = .failed := by
  cases ws with
  | nil => cases h
  | cons w ws =>
      rw [numberVerdict] at h
      split at h
      · exact (Option.some.inj h).symm
      · cases h

theorem listVerdict_some {codes : Option (List Char → Int)} {ws : List Word} {stop : CnfStop}
    (h : listVerdict codes ws = some stop) : stop = .failed := by
  induction ws with
  | nil => cases h
  | cons w ws ih =>
      cases htype : w.type with
      | int =>
          rw [listVerdict_int htype] at h
          exact ih h
      | str =>
          cases codes with
          | none =>
              rw [listVerdict_none htype] at h
              exact (Option.some.inj h).symm
          | some strToCode =>
              rw [listVerdict_code htype] at h
              split at h
              · exact (Option.some.inj h).symm
              · exact ih h

theorem linkVerdict_some {w : Word} {ws : List Word} {stop : CnfStop}
    (h : linkVerdict (w :: ws) = some stop) : stop = .failed := by
  cases ws with
  | nil =>
      rw [linkVerdict] at h
      split at h
      · exact (Option.some.inj h).symm
      · cases h
  | cons w' ws =>
      rw [linkVerdict] at h
      split at h
      · exact (Option.some.inj h).symm
      · split at h
        · exact (Option.some.inj h).symm
        · cases h

/-- A control is read through a null pointer where there is nothing to set. -/
theorem controlVerdict_crash {ws : List Word} {stop : CnfStop} (hstop : stop ≠ .failed) :
    controlVerdict ws = some stop ↔
      stop = .fault .nullDeref ∧ wordsAfter isSet ws = some [] := by
  cases ws with
  | nil => simp [controlVerdict, wordsAfter, hstop.symm]
  | cons k ws =>
      rw [controlVerdict]
      by_cases htype : k.type = .str
      · rw [if_neg (not_not_intro htype)]
        by_cases hcard : beginsWith k.str "card" 4 = true
        · have hset : isSet k.str = false := by simp [isSet, hcard]
          rw [if_pos hcard, wordsAfter_neg hset]
          exact ⟨fun h => absurd (valueVerdict_some h) hstop, fun h => (by cases h.2)⟩
        rw [if_neg hcard]
        by_cases hset : beginsWith k.str "set" 3 = true
        · have hset' : isSet k.str = true := by simp [isSet, hcard, hset]
          rw [if_pos hset, wordsAfter_pos htype hset']
          by_cases hws : ws = []
          · simp [hws, eq_comm]
          · simp [hws]
        · have hset' : isSet k.str = false := by simp [isSet, hset]
          rw [if_neg hset, wordsAfter_neg hset']
          exact ⟨fun h => absurd (Option.some.inj h).symm hstop, fun h => (by cases h.2)⟩
      · rw [if_pos htype, wordsAfter_type htype]
        exact ⟨fun h => absurd (Option.some.inj h).symm hstop, fun h => (by cases h.2)⟩

/-- What a control may lack. -/
theorem controlLacks_iff {ws : List Word} (h : controlVerdict ws = none) :
    ControlLacks ws ↔ ∃ w, wordsAfter isSet ws = some [w] := by
  cases ws with
  | nil => cases h
  | cons k ws =>
      rw [controlVerdict] at h
      unfold ControlLacks
      by_cases htype : k.type = .str
      · rw [if_neg (not_not_intro htype)] at h
        by_cases hcard : beginsWith k.str "card" 4 = true
        · have hset : isSet k.str = false := by simp [isSet, hcard]
          rw [if_pos hcard] at h
          rw [wordsAfter_neg hset, wordsAfter_pos htype hcard]
          cases ws with
          | nil => cases h
          | cons w ws => simp
        rw [if_neg hcard] at h
        by_cases hset : beginsWith k.str "set" 3 = true
        · have hset' : isSet k.str = true := by simp [isSet, hcard, hset]
          rw [if_pos hset] at h
          rw [wordsAfter_pos htype hset', wordsAfter_neg (Bool.eq_false_iff.mpr hcard)]
          cases ws with
          | nil => cases h
          | cons w ws => cases ws <;> simp
        · rw [if_neg hset] at h
          cases h
      · rw [if_pos htype] at h
        cases h

/-- A link is read through a null pointer where it has no words. -/
theorem pcmVerdict_crash {ws : List Word} {stop : CnfStop} (hstop : stop ≠ .failed) :
    pcmVerdict ws = some stop ↔
      stop = .fault .nullDeref ∧ wordsAfter isLink ws = some [] := by
  cases ws with
  | nil => simp [pcmVerdict, wordsAfter, hstop.symm]
  | cons k ws =>
      rw [pcmVerdict]
      by_cases htype : k.type = .str
      · rw [if_neg (not_not_intro htype)]
        cases hkeyword : pcmKeyword k.str with
        | none =>
            have hlink : isLink k.str = false := by simp [isLink, hkeyword]
            rw [wordsAfter_neg hlink]
            exact ⟨fun h => absurd (Option.some.inj h).symm hstop, fun h => (by cases h.2)⟩
        | some keyword =>
            cases keyword with
            | field field =>
                have hlink : isLink k.str = false := by simp [isLink, hkeyword]
                rw [wordsAfter_neg hlink]
                exact ⟨fun h => absurd (valueVerdict_some h) hstop, fun h => (by cases h.2)⟩
            | list list =>
                have hlink : isLink k.str = false := by simp [isLink, hkeyword]
                rw [wordsAfter_neg hlink]
                exact ⟨fun h => absurd (listVerdict_some h) hstop, fun h => (by cases h.2)⟩
            | link =>
                have hlink : isLink k.str = true := by simp [isLink, hkeyword]
                rw [wordsAfter_pos htype hlink]
                show linkVerdict ws = some stop ↔ _
                cases ws with
                | nil => simp [linkVerdict, eq_comm]
                | cons w ws =>
                    simp only [Option.some.injEq, reduceCtorEq, and_false, iff_false]
                    exact fun h => hstop (linkVerdict_some h)
      · rw [if_pos htype, wordsAfter_type htype]
        exact ⟨fun h => absurd (Option.some.inj h).symm hstop, fun h => (by cases h.2)⟩

/-- What a stream may lack. -/
theorem pcmLacks_iff {ws : List Word} (h : pcmVerdict ws = none) :
    PcmLacks ws ↔ PcmSilent ws := by
  cases ws with
  | nil => cases h
  | cons k ws =>
      rw [pcmVerdict] at h
      unfold PcmLacks PcmSilent
      by_cases htype : k.type = .str
      · rw [if_neg (not_not_intro htype)] at h
        cases hkeyword : pcmKeyword k.str with
        | none =>
            rw [hkeyword] at h
            cases h
        | some keyword =>
            have hpcm : isPcmKeyword k.str = true := by simp [isPcmKeyword, hkeyword]
            rw [hkeyword] at h
            rw [wordsAfter_pos htype hpcm]
            cases keyword with
            | field field =>
                have hlink : isLink k.str = false := by simp [isLink, hkeyword]
                have hlist : isList k.str = false := by simp [isList, hkeyword]
                rw [wordsAfter_neg hlink, wordsAfter_neg hlist]
                cases ws with
                | nil => cases h
                | cons w ws => simp
            | list list =>
                have hlink : isLink k.str = false := by simp [isLink, hkeyword]
                have hlist : isList k.str = true := by
                  cases list <;> simp [isList, hkeyword]
                rw [wordsAfter_neg hlink, wordsAfter_pos htype hlist]
                simp
            | link =>
                have hlink : isLink k.str = true := by simp [isLink, hkeyword]
                have hlist : isList k.str = false := by simp [isList, hkeyword]
                rw [wordsAfter_pos htype hlink, wordsAfter_neg hlist]
                change linkVerdict ws = none at h
                cases ws with
                | nil => cases h
                | cons w ws =>
                    cases ws with
                    | nil =>
                        have hw : w.type = .int := by
                          by_cases hw : w.type = .int
                          · exact hw
                          · rw [linkVerdict, if_pos hw] at h
                            cases h
                        simp [hw]
                    | cons w' ws => simp
      · rw [if_pos htype] at h
        cases h

/-- What a tuner may lack. -/
theorem tunerLacks_iff {ws : List Word} (h : tunerVerdict ws = none) :
    wordsAfter isTunerKeyword ws = some [] ↔ wordsAfter isTunerNumber ws = some [] := by
  cases ws with
  | nil => cases h
  | cons k ws =>
      rw [tunerVerdict] at h
      by_cases htype : k.type = .str
      · rw [if_neg (not_not_intro htype)] at h
        by_cases hdevice : k.str = "device".toList
        · have hnumber : isTunerNumber k.str = false := by rw [hdevice]; decide
          have hkeyword : isTunerKeyword k.str = true := by rw [hdevice]; decide
          rw [if_pos hdevice] at h
          rw [wordsAfter_neg hnumber, wordsAfter_pos htype hkeyword]
          cases ws with
          | nil => cases h
          | cons w ws => simp
        · have hkeyword : isTunerKeyword k.str = isTunerNumber k.str := by
            rw [isTunerKeyword, beq_false_of_ne hdevice, Bool.false_or]
          rw [wordsAfter, wordsAfter, hkeyword]
      · rw [if_pos htype] at h
        cases h

/-- Nothing is missing in a line of a `[bluetooth]` section that is taken. -/
theorem bluetoothVerdict_none {ws : List Word} (h : bluetoothVerdict ws = none) :
    wordsAfter isBluetoothKeyword ws ≠ some [] := by
  cases ws with
  | nil => cases h
  | cons k ws =>
      cases ws with
      | nil =>
          rw [bluetoothVerdict] at h
          split at h
          · cases h
          · split at h <;> cases h
      | cons w ws => exact wordsAfter_ne_nil

theorem testsetVerdict_none {ws : List Word} (h : testsetVerdict ws = none) :
    wordsAfter isDescription ws ≠ some [] := by
  cases ws with
  | nil => exact fun h => (by cases h)
  | cons k ws =>
      cases ws with
      | nil =>
          rw [testsetVerdict] at h
          split at h
          · cases h
          · rename_i hno
            rw [wordsAfter, isDescription, if_neg hno]
            exact fun h => (by cases h)
      | cons w ws => exact wordsAfter_ne_nil

/-! ## Items -/

/-- The errors of the lines of a section. -/
theorem firstStop_failed {verdict : List Word → Verdict}
    (h : ∀ ws stop, verdict ws = some stop → stop = .failed) {lines : List (List Word)}
    {stop : CnfStop} (hstop : firstStop verdict lines = some stop) : stop = .failed := by
  obtain ⟨ws, _, hws⟩ := (firstStop_eq_some_iff verdict).mp hstop
  exact h ws stop hws

theorem tunerVerdict_some (ws : List Word) (stop : CnfStop) (h : tunerVerdict ws = some stop) :
    stop = .failed := by
  cases ws with
  | nil => exact (Option.some.inj h).symm
  | cons k ws =>
      rw [tunerVerdict] at h
      split at h
      · exact (Option.some.inj h).symm
      · split at h
        · exact stringVerdict_some h
        · split at h
          · exact numberVerdict_some h
          · exact (Option.some.inj h).symm

theorem bluetoothVerdict_some (ws : List Word) (stop : CnfStop)
    (h : bluetoothVerdict ws = some stop) : stop = .failed := by
  cases ws with
  | nil => exact (Option.some.inj h).symm
  | cons k ws =>
      rw [bluetoothVerdict] at h
      split at h
      · exact (Option.some.inj h).symm
      · split at h
        · exact stringVerdict_some h
        · exact (Option.some.inj h).symm

theorem testsetVerdict_some (ws : List Word) (stop : CnfStop)
    (h : testsetVerdict ws = some stop) : stop = .failed := by
  cases ws with
  | nil => cases h
  | cons k ws =>
      rw [testsetVerdict] at h
      split at h
      · exact stringVerdict_some h
      · cases h

/-- The lines that go astray. -/
theorem firstStop_crash {verdict : List Word → Verdict} {keyword : List Char → Bool}
    (h : ∀ {ws} {stop : CnfStop}, stop ≠ .failed → (verdict ws = some stop ↔
      stop = .fault .nullDeref ∧ wordsAfter keyword ws = some [])) {lines : List (List Word)} :
    (∃ stop, firstStop verdict lines = some stop ∧ stop ≠ .failed) ↔
      ∃ ws ∈ looked verdict lines, wordsAfter keyword ws = some [] := by
  constructor
  · rintro ⟨stop, hstop, hne⟩
    obtain ⟨ws, hmem, hws⟩ := (firstStop_eq_some_iff verdict).mp hstop
    exact ⟨ws, hmem, ((h hne).mp hws).2⟩
  · rintro ⟨ws, hmem, hws⟩
    have hcrash : verdict ws = some (.fault .nullDeref) := (h (by decide)).mpr ⟨rfl, hws⟩
    exact ⟨.fault .nullDeref, (firstStop_eq_some_iff verdict).mpr ⟨ws, hmem, hcrash⟩, by decide⟩

/-- An item that is refused at worst. -/
theorem Item.crashes_iff_of_failed {item : Item} (hcrash : ¬ item.Crashes)
    (h : ∀ stop, item.stop = some stop → stop = .failed) :
    item.Crashes ↔ ∃ stop, item.stop = some stop ∧ stop ≠ .failed := by
  apply iff_of_false hcrash
  rintro ⟨stop, hstop, hne⟩
  exact hne (h stop hstop)

/-- **What goes astray**: the items that end the reading without an error code. -/
theorem Item.crashes_iff (item : Item) :
    item.Crashes ↔ ∃ stop, item.stop = some stop ∧ stop ≠ .failed := by
  cases item with
  | testset index => exact crashes_iff_of_failed id fun stop h => (by cases h)
  | line ws => exact crashes_iff_of_failed id (testsetVerdict_some ws)
  | stream lines => exact (firstStop_crash pcmVerdict_crash).symm
  | control lines => exact (firstStop_crash controlVerdict_crash).symm
  | tuner lines => exact crashes_iff_of_failed id fun _ => firstStop_failed tunerVerdict_some
  | bluetooth lines =>
      exact crashes_iff_of_failed id fun _ => firstStop_failed bluetoothVerdict_some
  | full => exact crashes_iff_of_failed id fun stop h => (Option.some.inj h).symm
  | noEnd rest text =>
      refine iff_of_true trivial ⟨missingEnd rest text, rfl, ?_⟩
      unfold missingEnd
      split
      · decide
      · split <;> decide
  | tail started text =>
      unfold Item.Crashes Item.stop
      dsimp only
      by_cases hstarted : started = false
      · rw [if_pos hstarted]
        exact iff_of_true (.inl hstarted) ⟨.unset, rfl, by decide⟩
      rw [if_neg hstarted]
      by_cases hlen : text.length < intLimit
      · rw [if_pos hlen]
        refine iff_of_false (fun h => ?_) fun h => ?_
        · exact absurd (h.resolve_left hstarted) (Nat.not_le.mpr hlen)
        · obtain ⟨stop, hstop, _⟩ := h
          cases hstop
      · rw [if_neg hlen]
        exact iff_of_true (.inr (Nat.not_lt.mp hlen)) ⟨.astray, rfl, by decide⟩

/-- What lines that are taken lack, line by line. -/
theorem exists_line_congr {verdict : List Word → Verdict} {p q : List Word → Prop}
    (hpq : ∀ {ws}, verdict ws = none → (p ws ↔ q ws)) {lines : List (List Word)}
    (h : firstStop verdict lines = none) : (∃ ws ∈ lines, p ws) ↔ ∃ ws ∈ lines, q ws :=
  exists_congr fun ws => and_congr_right fun hws => hpq (forall_of_firstStop verdict h ws hws)

/-- **What is taken** although it lacks something. -/
theorem Item.lacks_iff {item : Item} (h : item.stop = none) : item.Lacks ↔ item.Silent := by
  cases item with
  | testset index => exact Iff.rfl
  | line ws => exact iff_of_false (testsetVerdict_none h) id
  | stream lines => exact exists_line_congr pcmLacks_iff h
  | control lines => exact exists_line_congr controlLacks_iff h
  | tuner lines => exact exists_line_congr tunerLacks_iff h
  | bluetooth lines =>
      refine iff_of_false (fun hlacks => ?_) id
      obtain ⟨ws, hmem, hws⟩ := hlacks
      exact bluetoothVerdict_none (forall_of_firstStop bluetoothVerdict h ws hmem) hws
  | full => cases h
  | noEnd rest text => cases h
  | tail started text => exact Iff.rfl

/-! ## Files -/

/-- What is looked at of a file. -/
def reached (contents : List Char) : List Item := looked Item.stop (itemsOf contents)

theorem verdictOf_eq_some_iff {contents : List Char} {stop : CnfStop} :
    verdictOf contents = some stop ↔ ∃ item ∈ reached contents, item.stop = some stop :=
  firstStop_eq_some_iff Item.stop

/-- Something that goes astray is reached where the reading ends without an error code. -/
theorem exists_crashes_iff {contents : List Char} :
    (∃ item ∈ reached contents, item.Crashes) ↔
      ∃ stop, verdictOf contents = some stop ∧ stop ≠ .failed := by
  constructor
  · rintro ⟨item, hitem, hcrash⟩
    obtain ⟨stop, hstop, hne⟩ := item.crashes_iff.mp hcrash
    exact ⟨stop, verdictOf_eq_some_iff.mpr ⟨item, hitem, hstop⟩, hne⟩
  · rintro ⟨stop, hverdict, hne⟩
    obtain ⟨item, hitem, hstop⟩ := verdictOf_eq_some_iff.mp hverdict
    exact ⟨item, hitem, item.crashes_iff.mpr ⟨stop, hstop, hne⟩⟩

theorem resultOf_error {stop : CnfStop} (h : stop ≠ .failed) :
    resultOf (.error stop) = .error stop := by
  cases stop with
  | failed => exact absurd rfl h
  | fault f => rfl
  | unset => rfl
  | astray => rfl

/-- **`alsa_read_config`** comes to an end, and with an error wherever something is
missing, exactly if the file is within its capacities, nothing is reached that goes
astray, and either an item is reached that is refused or none that is taken silently. -/
theorem alsaReadConfig_notices_iff (junk : Int) (contents : List Char) :
    (∃ r, alsaReadConfig junk (some contents) = .ok r ∧
      ((∃ item ∈ itemsOf contents, item.Lacks) → ∃ err, r = .error err ∧ err ≠ 0)) ↔
      WithinCapacities contents ∧ (∀ item ∈ reached contents, ¬ item.Crashes) ∧
        ((∃ item ∈ reached contents, item.stop = some .failed) ∨
          ∀ item ∈ reached contents, ¬ item.Silent) := by
  constructor
  · rintro ⟨r, hr, hlacks⟩
    have hwithin : WithinCapacities contents := by
      by_cases hwithin : WithinCapacities contents
      · exact hwithin
      · rw [alsaReadConfig_over hwithin] at hr
        cases hr
    have hfailed {stop : CnfStop} (hverdict : verdictOf contents = some stop) :
        stop = .failed := by
      by_cases hne : stop = .failed
      · exact hne
      · rw [alsaReadConfig_stop hwithin hverdict, resultOf_error hne] at hr
        cases hr
    refine ⟨hwithin, fun item hitem hcrash => ?_, ?_⟩
    · obtain ⟨stop, hverdict, hne⟩ := exists_crashes_iff.mp ⟨item, hitem, hcrash⟩
      exact hne (hfailed hverdict)
    · cases hverdict : verdictOf contents with
      | some stop =>
          have hstop := hfailed hverdict
          rw [hstop] at hverdict
          exact .inl (verdictOf_eq_some_iff.mp hverdict)
      | none =>
          obtain ⟨config, hconfig⟩ := alsaReadConfig_ok junk hwithin hverdict
          rw [hconfig] at hr
          cases hr
          refine .inr fun item hitem hsilent => ?_
          have hall : reached contents = itemsOf contents := looked_eq Item.stop hverdict
          rw [hall] at hitem
          have hstop := forall_of_firstStop Item.stop hverdict item hitem
          obtain ⟨err, herr, _⟩ := hlacks ⟨item, hitem, (Item.lacks_iff hstop).mpr hsilent⟩
          cases herr
  · rintro ⟨hwithin, hcrashes, hrest⟩
    cases hverdict : verdictOf contents with
    | some stop =>
        have hstop : stop = .failed := by
          by_cases hne : stop = .failed
          · exact hne
          · obtain ⟨item, hitem, hcrash⟩ := exists_crashes_iff.mpr ⟨stop, hverdict, hne⟩
            exact absurd hcrash (hcrashes item hitem)
        refine ⟨.error 1, ?_, fun _ => ⟨1, rfl, by decide⟩⟩
        rw [alsaReadConfig_stop hwithin hverdict, hstop]
        rfl
    | none =>
        obtain ⟨config, hconfig⟩ := alsaReadConfig_ok junk hwithin hverdict
        refine ⟨.config config, hconfig, fun hlacks => ?_⟩
        obtain ⟨item, hitem, hlack⟩ := hlacks
        have hall : reached contents = itemsOf contents := looked_eq Item.stop hverdict
        have hstop := forall_of_firstStop Item.stop hverdict item hitem
        have hsilent : item.Silent := (Item.lacks_iff hstop).mp hlack
        rw [← hall] at hitem
        cases hrest with
        | inl hfailed =>
            have hno := verdictOf_eq_some_iff.mpr hfailed
            rw [hverdict] at hno
            cases hno
        | inr hsilents => exact absurd hsilent (hsilents item hitem)

/-- A testset that has no end: the search for it returns a null pointer, from which the
reading goes on. -/
theorem noEnd_crashes :
    ¬ ∀ junk contents, ∃ r, alsaReadConfig junk (some contents) = .ok r ∧
      ((∃ item ∈ itemsOf contents, item.Lacks) → ∃ err, r = .error err ∧ err ≠ 0) := by
  intro h
  obtain ⟨r, hr, _⟩ := h 0 "[testset]\n".toList
  have hcrash : alsaReadConfig 0 (some "[testset]\n".toList) = .error (.fault .nullDeref) := by
    decide +kernel
  rw [hcrash] at hr
  cases hr

end Blts.Alsa
