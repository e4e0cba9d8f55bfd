import Blts.Alsa.Verdicts

/-!
# The lines of every kind of section

For each kind of section: which lines are taken, what they add to its arrays, and
which of their strings have to be short.
-/

namespace Blts.Alsa

open Blts.Lib

/-! ## Values and strings -/

def valueVerdict : List Word → Verdict
  | [] => some .failed
  | _ :: _ => none

theorem valueWords_leads {σ : Type} (set : Int → σ) (value : Int) (ws : List Word) :
    Leads True (valueVerdict ws) (fun r => ∃ v, r.2 = set v) (valueWords set value ws) := by
  cases ws with
  | nil => exact Ends.error (by decide)
  | cons w ws => exact Ends.ok ⟨_, rfl⟩

def stringVerdict : List Word → Verdict
  | [] => some .failed
  | w :: _ => if w.type ≠ .str then some .failed else none

/-- The string that is copied is short. -/
def StringShort (size : Nat) : List Word → Prop
  | [] => True
  | w :: _ => w.type = .str → w.str.length < size

theorem stringWords_leads {σ : Type} (size : Nat) (set : List Char → σ) (value : Int)
    (ws : List Word) :
    Leads (StringShort size ws) (stringVerdict ws) (fun r => ∃ str, r.2 = set str)
      (stringWords size set value ws) := by
  cases ws with
  | nil => exact Ends.error (by decide)
  | cons w ws =>
      rw [stringWords, stringVerdict]
      by_cases hw : w.type = .str
      · rw [if_neg (not_not_intro hw), if_neg (not_not_intro hw)]
        have hcopy : Leads (w.str.length < size) none (fun r : Int × σ => ∃ str, r.2 = set str)
            (copyString size w.str >>= fun str => .ok (value, set str)) :=
          (leads_copyString size w.str).map fun str _ => ⟨str, rfl⟩
        exact hcopy.congr ⟨fun h _ => h, fun h => h hw⟩
      · rw [if_pos hw, if_pos hw]
        apply (Ends.error (by decide)).congr
        exact ⟨fun _ h => absurd h hw, fun _ => trivial⟩

theorem WordsFit.string {ws : List Word} (h : WordsFit ws) : StringShort maxLineLen ws := by
  cases ws with
  | nil => trivial
  | cons w ws => exact fun _ => h w List.mem_cons_self

def numberVerdict : List Word → Verdict
  | [] => none
  | w :: _ => if w.type ≠ .int then some .failed else none

theorem numberWords_leads {σ : Type} (set : Int → σ) (value : Int) (ws : List Word) :
    Leads True (numberVerdict ws) (fun r => ∃ v, r.2 = set v) (numberWords set value ws) := by
  cases ws with
  | nil => exact Ends.ok ⟨_, rfl⟩
  | cons w ws =>
      rw [numberWords, numberVerdict]
      by_cases hw : w.type = .int
      · rw [if_neg (not_not_intro hw), if_neg (not_not_intro hw)]
        exact Ends.ok ⟨_, rfl⟩
      · rw [if_pos hw, if_pos hw]
        exact Ends.error (by decide)

/-! ## Controls -/

/-- The keyword sets a control. -/
def isSet (str : List Char) : Bool :=
  !beginsWith str "card" 4 && beginsWith str "set" 3

def controlVerdict : List Word → Verdict
  | [] => some .failed
  | k :: ws =>
      if k.type ≠ .str then some .failed
      else if beginsWith k.str "card" 4 then valueVerdict ws
      else if beginsWith k.str "set" 3 then
        if ws = [] then some (.fault .nullDeref) else none
      else some .failed

/-- A line that sets a control takes a place, whatever follows. -/
def controlAdds : List Word → Nat
  | [] => 0
  | k :: _ => if k.type = .str ∧ isSet k.str then 1 else 0

theorem strField_fits {w : Word} {size : Nat} (h : w.str.length < size) :
    (strField w.type w.str).length < size := by
  unfold strField
  cases w.type with
  | str => exact h
  | int => exact Nat.zero_lt_of_lt h

theorem copyString_ok {size : Nat} {str : List Char} (h : str.length < size) :
    copyString size str = .ok str := if_pos h

theorem setWords_leads {config : AlsaControlSettings} (value : Int) {ws : List Word}
    (hws : WordsFit ws) :
    Leads True (if ws = [] then some (.fault .nullDeref) else none)
      (fun r => r.2.values.length = config.values.length + 1) (setWords config value ws) := by
  have hname {w : Word} (hw : w ∈ ws) :
      copyString magicNumber (strField w.type w.str) = .ok (strField w.type w.str) :=
    copyString_ok (strField_fits (hws w hw))
  have hstr {w : Word} (hw : w ∈ ws) :
      copyString maxLineLen (strField w.type w.str) = .ok (strField w.type w.str) :=
    copyString_ok (strField_fits (hws w hw))
  cases ws with
  | nil => exact Ends.error (by decide)
  | cons n ws =>
      rw [if_neg (List.cons_ne_nil n ws)]
      cases ws with
      | nil =>
          rw [setWords, hname List.mem_cons_self]
          exact Ends.ok List.length_append
      | cons w ws =>
          rw [setWords, hname List.mem_cons_self]
          dsimp only [ok_bind]
          rw [hstr (List.mem_cons_of_mem n List.mem_cons_self)]
          exact Ends.ok List.length_append

theorem controlWords_accounts :
    Accounts controlWords controlVerdict (fun config (_ : Unit) => config.values.length)
      (fun ws _ => controlAdds ws) fun _ => True := by
  intro ws value config hws hsize
  show Leads (True ∧ ∀ _ : Unit, config.values.length + controlAdds ws ≤ magicNumber)
    (controlVerdict ws)
    (fun r : Int × AlsaControlSettings =>
      ∀ _ : Unit, r.2.values.length = config.values.length + controlAdds ws) _
  cases ws with
  | nil =>
      apply (Ends.error (by decide)).congr
      exact ⟨fun _ => ⟨trivial, hsize⟩, fun _ => trivial⟩
  | cons k ws =>
      rw [controlWords, controlVerdict, controlAdds]
      by_cases htype : k.type = .str
      · rw [if_neg (not_not_intro htype), if_neg (not_not_intro htype)]
        by_cases hcard : beginsWith k.str "card" 4 = true
        · have hset : ¬ (k.type = .str ∧ isSet k.str = true) := by simp [isSet, hcard]
          rw [if_pos hcard, if_pos hcard, if_neg hset]
          have hvalue := valueWords_leads (fun card => { config with card := card }) value ws
          refine (hvalue.weaken fun r hr _ => ?_).congr
            ⟨fun _ => ⟨trivial, hsize⟩, fun _ => trivial⟩
          obtain ⟨v, hv⟩ := hr
          rw [hv]
          rfl
        rw [if_neg hcard, if_neg hcard]
        by_cases hset : beginsWith k.str "set" 3 = true
        · have hset' : k.type = .str ∧ isSet k.str = true := by simp [isSet, hcard, hset, htype]
          have hrest : WordsFit ws := fun w hw => hws w (List.mem_cons_of_mem k hw)
          rw [if_pos hset, if_pos hset, if_pos hset']
          apply ((leads_writeAt magicNumber config.values.length).guard fun _ _ _ =>
            (setWords_leads value hrest).weaken fun r hr _ => hr).congr
          exact ⟨fun h => ⟨trivial, fun _ => h.1⟩, fun h => ⟨h.2 (), trivial⟩⟩
        · have hset' : ¬ (k.type = .str ∧ isSet k.str = true) := by simp [isSet, hset]
          rw [if_neg hset, if_neg hset, if_neg hset']
          apply (Ends.error (by decide)).congr
          exact ⟨fun _ => ⟨trivial, hsize⟩, fun _ => trivial⟩
      · rw [if_pos htype, if_pos htype, if_neg fun h => htype h.1]
        apply (Ends.error (by decide)).congr
        exact ⟨fun _ => ⟨trivial, hsize⟩, fun _ => trivial⟩

/-! ## Streams -/

/-- Whether the words of a list are taken. -/
def listVerdict (codes : Option (List Char → Int)) : List Word → Verdict
  | [] => none
  | w :: ws =>
      match w.type with
      | .int => listVerdict codes ws
      | .str =>
          match codes with
          | none => some .failed
          | some strToCode => if strToCode w.str < 0 then some .failed else listVerdict codes ws

/-- How many values are stored for the words of a list.  An unknown name is stored
before it is refused. -/
def listAdds (codes : Option (List Char → Int)) : List Word → Nat
  | [] => 0
  | w :: ws =>
      match w.type with
      | .int => listAdds codes ws + 1
      | .str =>
          match codes with
          | none => 0
          | some strToCode => if strToCode w.str < 0 then 1 else listAdds codes ws + 1

section

variable {codes : Option (List Char → Int)} {strToCode : List Char → Int} {w : Word}
  {ws : List Word}

theorem listVerdict_int (hw : w.type = .int) :
    listVerdict codes (w :: ws) = listVerdict codes ws := by
  simp only [listVerdict, hw]

theorem listAdds_int (hw : w.type = .int) :
    listAdds codes (w :: ws) = listAdds codes ws + 1 := by
  simp only [listAdds, hw]

theorem listVerdict_none (hw : w.type = .str) :
    listVerdict none (w :: ws) = some .failed := by
  simp only [listVerdict, hw]

theorem listAdds_none (hw : w.type = .str) : listAdds none (w :: ws) = 0 := by
  simp only [listAdds, hw]

theorem listVerdict_code (hw : w.type = .str) : listVerdict (some strToCode) (w :: ws) =
    if strToCode w.str < 0 then some .failed else listVerdict (some strToCode) ws := by
  simp only [listVerdict, hw]

theorem listAdds_code (hw : w.type = .str) : listAdds (some strToCode) (w :: ws) =
    if strToCode w.str < 0 then 1 else listAdds (some strToCode) ws + 1 := by
  simp only [listAdds, hw]

end

theorem storeWords_leads {codes : Option (List Char → Int)} {ws : List Word} :
    ∀ (value : Int) (values : List Int), values.length ≤ magicNumber →
      Leads (values.length + listAdds codes ws ≤ magicNumber) (listVerdict codes ws)
        (fun r => r.2.length = values.length + listAdds codes ws)
        (storeWords codes ws value values) := by
  induction ws with
  | nil =>
      intro value values hlen
      have hdone : Leads True none (fun r : Int × List Int => r.2.length = values.length)
          (.ok (value, values)) := Ends.ok rfl
      exact hdone.congr ⟨fun _ => hlen, fun _ => trivial⟩
  | cons w ws ih =>
      intro value values hlen
      have hstored {values' : List Int} {a : Int} (h : values' = values ++ [a]) :
          values'.length = values.length + 1 := by
        rw [h, List.length_append, List.length_singleton]
      -- the rest, once a value has been stored
      have hrest {a : Int} (value' : Int) (hroom : values.length < magicNumber)
          (values' : List Int) (h : values' = values ++ [a]) :
          Leads (values.length + (listAdds codes ws + 1) ≤ magicNumber) (listVerdict codes ws)
            (fun r => r.2.length = values.length + (listAdds codes ws + 1))
            (storeWords codes ws value' values') := by
        have hih := ih value' values' (by rw [hstored h]; exact hroom)
        rw [hstored h, Nat.add_right_comm, Nat.add_assoc] at hih
        exact hih
      have hiff : (values.length < magicNumber ∧
          values.length + (listAdds codes ws + 1) ≤ magicNumber) ↔
            values.length + (listAdds codes ws + 1) ≤ magicNumber := by
        omega
      cases htype : w.type with
      | int =>
          rw [storeWords_int htype, listVerdict_int htype, listAdds_int htype]
          exact ((leads_store magicNumber values (atoi w.str)).guard (hrest _)).congr hiff
      | str =>
          cases codes with
          | none =>
              rw [storeWords_none htype, listVerdict_none htype, listAdds_none htype]
              exact (Ends.error (by decide)).congr ⟨fun _ => hlen, fun _ => trivial⟩
          | some strToCode =>
              rw [storeWords_code htype, listVerdict_code htype, listAdds_code htype]
              by_cases hcode : strToCode w.str < 0
              · simp only [if_pos hcode]
                have hstore := (leads_store magicNumber values (strToCode w.str)).guard
                  fun _ values' _ => (Ends.error (by decide) : Leads True (some .failed)
                    (fun r : Int × List Int => r.2.length = values.length + 1) _)
                exact hstore.congr (and_iff_left trivial)
              · simp only [if_neg hcode]
                exact ((leads_store magicNumber values (strToCode w.str)).guard
                  (hrest value)).congr hiff

/-- What becomes of the words of a link. -/
def linkVerdict : List Word → Verdict
  | [] => some (.fault .nullDeref)
  | [w] => if w.type ≠ .int then some .failed else none
  | w :: w' :: _ =>
      if w.type ≠ .int then some .failed
      else if w'.type ≠ .int then some .failed
      else none

theorem linkWords_leads {params : AlsaPcmSettings} (ws : List Word) :
    Leads True (linkVerdict ws) (fun r => ∀ list : PcmList, list.get r.2 = list.get params)
      (linkWords params ws) := by
  have hget (card device : Int) (list : PcmList) :
      list.get { params with linkCard := card, linkDevice := device } = list.get params := by
    cases list <;> rfl
  cases ws with
  | nil => exact Ends.error (by decide)
  | cons w ws =>
      cases ws with
      | nil =>
          rw [linkWords, linkVerdict]
          by_cases hw : w.type = .int
          · rw [if_neg (not_not_intro hw), if_neg (not_not_intro hw)]
            exact Ends.ok (hget _ _)
          · rw [if_pos hw, if_pos hw]
            exact Ends.error (by decide)
      | cons w' ws =>
          rw [linkWords, linkVerdict]
          by_cases hw : w.type = .int
          · rw [if_neg (not_not_intro hw), if_neg (not_not_intro hw)]
            by_cases hw' : w'.type = .int
            · rw [if_neg (not_not_intro hw'), if_neg (not_not_intro hw')]
              exact Ends.ok (hget _ _)
            · rw [if_pos hw', if_pos hw']
              exact Ends.error (by decide)
          · rw [if_pos hw, if_pos hw]
            exact Ends.error (by decide)

def keywordVerdict (ws : List Word) : PcmKeyword → Verdict
  | .field _ => valueVerdict ws
  | .list list => listVerdict list.codes ws
  | .link => linkVerdict ws

def pcmVerdict : List Word → Verdict
  | [] => some .failed
  | k :: ws =>
      if k.type ≠ .str then some .failed
      else (pcmKeyword k.str).elim (some .failed) (keywordVerdict ws)

/-- What a keyword adds to a list. -/
def keywordAdds (ws : List Word) (list : PcmList) (keyword : PcmKeyword) : Nat :=
  if keyword = .list list then listAdds list.codes ws else 0

def pcmAdds (list : PcmList) : List Word → Nat
  | [] => 0
  | k :: ws => if k.type ≠ .str then 0 else (pcmKeyword k.str).elim 0 (keywordAdds ws list)

theorem PcmList.get_set (list : PcmList) (params : AlsaPcmSettings) (values : List Int) :
    list.get (list.set params values) = values := by
  cases list <;> rfl

theorem PcmList.get_set_ne {list other : PcmList} (h : list ≠ other) (params : AlsaPcmSettings)
    (values : List Int) : other.get (list.set params values) = other.get params := by
  cases list <;> cases other <;> first | rfl | exact absurd rfl h

theorem pcmWords_accounts :
    Accounts pcmWords pcmVerdict (fun params list => (list.get params).length)
      (fun ws list => pcmAdds list ws) fun _ => True := by
  intro ws value params hws hsize
  show Leads (True ∧ ∀ list : PcmList, (list.get params).length + pcmAdds list ws ≤ magicNumber)
    (pcmVerdict ws)
    (fun r : Int × AlsaPcmSettings => ∀ list : PcmList, (list.get r.2).length =
      (list.get params).length + pcmAdds list ws) _
  cases ws with
  | nil => exact (Ends.error (by decide)).congr ⟨fun _ => ⟨trivial, hsize⟩, fun _ => trivial⟩
  | cons k ws =>
      rw [pcmWords, pcmVerdict]
      simp only [pcmAdds]
      by_cases htype : k.type = .str
      · simp only [if_neg (not_not_intro htype)]
        cases hkeyword : pcmKeyword k.str with
        | none =>
            exact (Ends.error (by decide)).congr ⟨fun _ => ⟨trivial, hsize⟩, fun _ => trivial⟩
        | some keyword =>
            cases keyword with
            | field field =>
                have hfield (v : Int) (list : PcmList) :
                    list.get (field.set params v) = list.get params := by
                  cases field <;> cases list <;> rfl
                refine ((valueWords_leads (field.set params) value ws).weaken
                  fun r hr list => ?_).congr ⟨fun _ => ⟨trivial, hsize⟩, fun _ => trivial⟩
                obtain ⟨v, hv⟩ := hr
                rw [hv, hfield]
                rfl
            | list list =>
                have hadds : (some (PcmKeyword.list list)).elim 0 (keywordAdds ws list) =
                    listAdds list.codes ws := if_pos rfl
                have hadds_ne {other : PcmList} (h : list ≠ other) :
                    (some (PcmKeyword.list list)).elim 0 (keywordAdds ws other) = 0 :=
                  if_neg fun heq => h (PcmKeyword.list.inj heq)
                refine ((storeWords_leads value (list.get params) (hsize list)).map
                  fun r hr other => ?_).congr ⟨fun hroom => ⟨trivial, fun other => ?_⟩, fun h => ?_⟩
                · by_cases hother : list = other
                  · subst hother
                    rw [hadds, list.get_set, hr]
                  · rw [hadds_ne hother, PcmList.get_set_ne hother]
                    rfl
                · by_cases hother : list = other
                  · subst hother
                    rw [hadds]
                    exact hroom
                  · rw [hadds_ne hother]
                    exact hsize other
                · have hlist := h.2 list
                  rw [hadds] at hlist
                  exact hlist
            | link =>
                refine ((linkWords_leads ws).weaken fun r hr list => ?_).congr
                  ⟨fun _ => ⟨trivial, hsize⟩, fun _ => trivial⟩
                rw [hr]
                rfl
      · simp only [if_pos htype]
        exact (Ends.error (by decide)).congr ⟨fun _ => ⟨trivial, hsize⟩, fun _ => trivial⟩

/-! ## Tuner, Bluetooth and descriptions -/

def tunerVerdict : List Word → Verdict
  | [] => some .failed
  | k :: ws =>
      if k.type ≠ .str then some .failed
      else if k.str = "device".toList then stringVerdict ws
      else if k.str = "freq".toList ∨ k.str = "scan_select".toList then numberVerdict ws
      else some .failed

/-- The name of a device is short. -/
def TunerShort : List Word → Prop
  | [] => True
  | k :: ws => k.type = .str ∧ k.str = "device".toList → StringShort settingLen ws

/-- A section without arrays: only its strings have to fit. -/
theorem accounts_short {σ : Type} {step : List Word → Int → σ → Except CnfStop (Int × σ)}
    {verdict : List Word → Verdict} {short : List Word → Prop}
    (h : ∀ ws value params, Leads (short ws) (verdict ws) (fun _ => True)
      (step ws value params)) :
    Accounts step verdict (fun _ (_ : Empty) => 0) (fun _ _ => 0) short := by
  intro ws value params _ _
  exact ((h ws value params).weaken fun r _ i => (by cases i)).congr
    (and_iff_left fun i => (by cases i)).symm

theorem tunerWords_accounts :
    Accounts tunerWords tunerVerdict (fun _ (_ : Empty) => 0) (fun _ _ => 0) TunerShort := by
  apply accounts_short
  intro ws value tuner
  cases ws with
  | nil => exact Ends.error (by decide)
  | cons k ws =>
      rw [tunerWords, tunerVerdict, TunerShort]
      by_cases htype : k.type = .str
      · rw [if_neg (not_not_intro htype), if_neg (not_not_intro htype)]
        by_cases hdevice : k.str = "device".toList
        · rw [if_pos hdevice, if_pos hdevice]
          refine ((stringWords_leads settingLen _ value ws).weaken fun _ _ => trivial).congr
            ⟨fun hs _ => hs, fun hs => hs ⟨htype, hdevice⟩⟩
        have hshort : True ↔ (k.type = .str ∧ k.str = "device".toList →
            StringShort settingLen ws) :=
          ⟨fun _ h => absurd h.2 hdevice, fun _ => trivial⟩
        rw [if_neg hdevice, if_neg hdevice]
        by_cases hfreq : k.str = "freq".toList
        · rw [if_pos hfreq, if_pos (.inl hfreq)]
          exact ((numberWords_leads _ value ws).weaken fun _ _ => trivial).congr hshort
        rw [if_neg hfreq]
        by_cases hscan : k.str = "scan_select".toList
        · rw [if_pos hscan, if_pos (.inr hscan)]
          exact ((numberWords_leads _ value ws).weaken fun _ _ => trivial).congr hshort
        · rw [if_neg hscan, if_neg (not_or_intro hfreq hscan)]
          exact (Ends.error (by decide)).congr hshort
      · rw [if_pos htype, if_pos htype]
        exact (Ends.error (by decide)).congr ⟨fun _ h => absurd h.1 htype, fun _ => trivial⟩

def bluetoothVerdict : List Word → Verdict
  | [] => some .failed
  | k :: ws =>
      if k.type ≠ .str then some .failed
      else if k.str = "connect".toList ∨ k.str = "pin".toList then stringVerdict ws
      else some .failed

/-- The address and the pin are short. -/
def BluetoothShort : List Word → Prop
  | [] => True
  | k :: ws => k.type = .str ∧ (k.str = "connect".toList ∨ k.str = "pin".toList) →
      StringShort settingLen ws

theorem bluetoothWords_accounts :
    Accounts bluetoothWords bluetoothVerdict (fun _ (_ : Empty) => 0) (fun _ _ => 0)
      BluetoothShort := by
  apply accounts_short
  intro ws value btaudio
  cases ws with
  | nil => exact Ends.error (by decide)
  | cons k ws =>
      rw [bluetoothWords, bluetoothVerdict, BluetoothShort]
      by_cases htype : k.type = .str
      · rw [if_neg (not_not_intro htype), if_neg (not_not_intro htype)]
        by_cases hconnect : k.str = "connect".toList
        · rw [if_pos hconnect, if_pos (.inl hconnect)]
          exact ((stringWords_leads settingLen _ value ws).weaken fun _ _ => trivial).congr
            ⟨fun hs _ => hs, fun hs => hs ⟨htype, .inl hconnect⟩⟩
        rw [if_neg hconnect]
        by_cases hpin : k.str = "pin".toList
        · rw [if_pos hpin, if_pos (.inr hpin)]
          exact ((stringWords_leads settingLen _ value ws).weaken fun _ _ => trivial).congr
            ⟨fun hs _ => hs, fun hs => hs ⟨htype, .inr hpin⟩⟩
        · have hno := not_or_intro hconnect hpin
          rw [if_neg hpin, if_neg hno]
          exact (Ends.error (by decide)).congr ⟨fun _ h => absurd h.2 hno, fun _ => trivial⟩
      · rw [if_pos htype, if_pos htype]
        exact (Ends.error (by decide)).congr ⟨fun _ h => absurd h.1 htype, fun _ => trivial⟩

/-- A line of a testset that begins no section. -/
def testsetVerdict : List Word → Verdict
  | [] => none
  | k :: ws =>
      if k.type = .str ∧ beginsWith k.str "description" 11 then stringVerdict ws else none

theorem testsetWords_leads {ws : List Word} (hws : WordsFit ws) (value : Int)
    (testset : AlsaTestset) :
    Leads True (testsetVerdict ws)
      (fun r => r.2.pcms = testset.pcms ∧ r.2.ctls = testset.ctls)
      (testsetWords ws value testset) := by
  cases ws with
  | nil => exact Ends.ok ⟨rfl, rfl⟩
  | cons k ws =>
      rw [testsetWords, testsetVerdict]
      by_cases h : k.type = .str ∧ beginsWith k.str "description" 11 = true
      · have hshort := WordsFit.string fun w hw => hws w (List.mem_cons_of_mem k hw)
        rw [if_pos h, if_pos h]
        refine ((stringWords_leads maxLineLen _ value ws).weaken fun r hr => ?_).congr
          (iff_true_intro hshort)
        obtain ⟨str, hstr⟩ := hr
        rw [hstr]
        exact ⟨rfl, rfl⟩
      · rw [if_neg h, if_neg h]
        exact Ends.ok ⟨rfl, rfl⟩

end Blts.Alsa
