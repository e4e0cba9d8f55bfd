import Mathlib.Data.List.Forall2
import Blts.Alsa.Config

/-!
# Setting the controls of a card

`setup_control_settings` looks up a control element for each setting, writes it and reads it
again.  A card is the list of its elements, each with what its driver does with a value:
stores it, stores another one, or refuses it.

Neither is compared: a name with the whole name of the element that is found, nor what has
been read again with what was written.
-/

namespace Blts.Alsa.Controls

/-- `snd_ctl_elem_type_t`. -/
inductive ElemType where
  | none | boolean | integer | enumerated | bytes | iec958 | integer64
  deriving DecidableEq

/-- A control element of a card.  The ioctls that ask for it may fail. -/
structure CtlElement where
  numid : Nat
  name : List Char
  type : ElemType
  /-- The channels of its value. -/
  count : Nat
  min : Int
  max : Int
  /-- The names of the enumerated values, where the ioctl gives them. -/
  items : List (Option (List Char))
  infoFails : Bool
  readFails : Bool
  value : List Int
  /-- What the driver stores when channels are written, if it does not refuse. -/
  store : List Int → Option (List Int)

/-- A card that has been opened. -/
structure CtlCard where
  elements : List CtlElement
  listFails : Bool

/-! ## The source -/

/-- The loop over the elements: the first that is looked for, and where it is. -/
def readLoop (wanted : CtlElement → Bool) : Nat → List CtlElement → Option (Nat × CtlElement)
  | _, [] => none
  | t, e :: es =>
      if e.infoFails = true ∨ e.readFails = true then none
      else if wanted e = true then some (t, e)
      else readLoop wanted (t + 1) es

/-- `control_read_by_id`. -/
def controlReadById (hw : CtlCard) (id : Int) : Option (Nat × CtlElement) :=
  if hw.listFails = true then none
  else readLoop (fun e => decide ((e.numid : Int) = id % 4294967296)) 0 hw.elements

/-- `control_read`: as many characters are compared as the name that is looked for has. -/
def controlRead (hw : CtlCard) (name : List Char) : Option (Nat × CtlElement) :=
  if hw.listFails = true then none
  else readLoop (fun e => name.isPrefixOf e.name) 0 hw.elements

/-- The value that `set_check_contol_value` puts into a channel. -/
def setCheckContolValue (e : CtlElement) (value : Int) : Option Int :=
  let clamp (value : Int) : Int :=
    let value := if value < e.min then e.min else value
    if e.max < value then e.max else value
  match e.type with
  | .boolean => some (clamp (if 0 < value then 1 else value))
  | .integer | .integer64 => some (clamp value)
  | .enumerated =>
      -- the number of items is unsigned
      if value < 0 ∨ ((e.items.length : Int) - 1) % 4294967296 < value then none
      else some value
  | .bytes => if value < 0 ∨ 255 < value then none else some value
  | .iec958 | .none => none

/-- The channels that `control_write` passes to the ioctl. -/
def channelValues (e : CtlElement) (value : Int) : Option (List Int) :=
  if e.count = 0 then some []
  else (setCheckContolValue e value).map (List.replicate e.count)

/-- The loop of `contol_value_by_name` over the enumerated values. -/
def itemLoop (name : List Char) : Int → List (Option (List Char)) → Option Int
  | _, [] => none
  | _, none :: _ => none
  | t, some item :: items => if item = name then some t else itemLoop name (t + 1) items

/-- `INT_MAX`. -/
def intMax : Int := 2147483647

/-- `contol_value_by_name`. -/
def contolValueByName (e : CtlElement) (name : List Char) : Option Int :=
  if e.type = .enumerated then itemLoop name 0 e.items
  else if name = "off".toList then some 0
  else if name = "on".toList then some intMax
  else if name = "max".toList then some intMax
  else if name = "min".toList then some 0
  else none

/-- The element of a setting. -/
def lookUp (hw : CtlCard) (setting : AlsaControlValue) : Option (Nat × CtlElement) :=
  if setting.controlName ≠ [] then controlRead hw setting.controlName
  else controlReadById hw setting.controlId

/-- The value of a setting. -/
def valueOf (e : CtlElement) (setting : AlsaControlValue) : Option Int :=
  if setting.strValue ≠ [] then contolValueByName e setting.strValue else some setting.value

/-- What has been done for a setting: the element written, the channels written and those
read again. -/
structure Applied where
  element : CtlElement
  written : List Int
  readBack : List Int

/-- `ioctl_ctl_elem_write` of channels to the element at `t`. -/
def elemWrite (hw : CtlCard) (t : Nat) (e : CtlElement) (channels : List Int) : Option CtlCard :=
  (e.store channels).map fun stored =>
    { hw with elements := hw.elements.set t { e with value := stored } }

/-- A turn of the loop of `setup_control_settings`, none if it goes to the clean-up. -/
def applySetting (hw : CtlCard) (setting : AlsaControlValue) : Option (Applied × CtlCard) := do
  let (t, e) ← lookUp hw setting
  let value ← valueOf e setting
  let channels ← channelValues e value
  let hw ← elemWrite hw t e channels
  let (_, e') ← lookUp hw setting
  return (⟨e, channels, e'.value⟩, hw)

def applySettings (hw : CtlCard) : List AlsaControlValue → Option (List Applied)
  | [] => some []
  | setting :: settings => do
      let (applied, hw) ← applySetting hw setting
      let rest ← applySettings hw settings
      return applied :: rest

/-- `setup_control_settings`, with what has been done if it succeeds.  `card` is what
`control_open` comes to. -/
def setupControlSettings (card : Option CtlCard) (settings : Option AlsaControlSettings) :
    Int × List Applied :=
  match settings with
  | none => (-22, [])
  | some settings =>
      if settings.values = [] then (0, [])
      else
        match card with
        | none => (-1, [])
        | some hw =>
            match applySettings hw settings.values with
            | none => (-1, [])
            | some applied => (0, applied)

/-! ## What a result of 0 should say -/

/-- The element is the one that the setting is for, and it has the value that was written. -/
structure IsApplied (setting : AlsaControlValue) (a : Applied) : Prop where
  element : if setting.controlName ≠ [] then a.element.name = setting.controlName
    else (a.element.numid : Int) = setting.controlId % 4294967296
  value : a.readBack = a.written

/-- `setup_control_settings` returns 0 only if all settings have been applied. -/
def ReportsApplied (card : Option CtlCard) (settings : Option AlsaControlSettings) : Prop :=
  (setupControlSettings card settings).1 = 0 →
    ∃ s, settings = some s ∧
      List.Forall₂ IsApplied s.values (setupControlSettings card settings).2

/-! ## Elements that are found -/

/-- The same element with another value. -/
def CtlElement.put (e : CtlElement) (stored : List Int) : CtlElement := { e with value := stored }

theorem readLoop_wanted {wanted : CtlElement → Bool} {es : List CtlElement} {k t : Nat}
    {e : CtlElement} (h : readLoop wanted k es = some (t, e)) : wanted e = true ∧ k ≤ t := by
  induction es generalizing k with
  | nil => cases h
  | cons e' es ih =>
      rw [readLoop] at h
      by_cases hfails : e'.infoFails = true ∨ e'.readFails = true
      · rw [if_pos hfails] at h
        cases h
      · rw [if_neg hfails] at h
        by_cases hwanted : wanted e' = true
        · rw [if_pos hwanted, Option.some.injEq, Prod.mk.injEq] at h
          obtain ⟨rfl, rfl⟩ := h
          exact ⟨hwanted, Nat.le_refl k⟩
        · rw [if_neg hwanted] at h
          obtain ⟨hwanted', hle⟩ := ih h
          exact ⟨hwanted', Nat.le_of_succ_le hle⟩

/-- An element that has been written is found again. -/
theorem readLoop_set {wanted : CtlElement → Bool} {es : List CtlElement} {k t : Nat}
    {e : CtlElement} {stored : List Int} (hput : ∀ e : CtlElement, wanted (e.put stored) = wanted e)
    (h : readLoop wanted k es = some (t, e)) :
    readLoop wanted k (es.set (t - k) (e.put stored)) = some (t, e.put stored) := by
  induction es generalizing k with
  | nil => cases h
  | cons e' es ih =>
      rw [readLoop] at h
      by_cases hfails : e'.infoFails = true ∨ e'.readFails = true
      · rw [if_pos hfails] at h
        cases h
      · rw [if_neg hfails] at h
        by_cases hwanted : wanted e' = true
        · rw [if_pos hwanted, Option.some.injEq, Prod.mk.injEq] at h
          obtain ⟨rfl, rfl⟩ := h
          have hfails' : ¬((e'.put stored).infoFails = true ∨ (e'.put stored).readFails = true) :=
            hfails
          rw [Nat.sub_self, List.set_cons_zero, readLoop, if_neg hfails', hput, if_pos hwanted]
        · rw [if_neg hwanted] at h
          have hle : k + 1 ≤ t := (readLoop_wanted h).2
          rw [show t - k = t - (k + 1) + 1 by omega, List.set_cons_succ, readLoop,
            if_neg hfails, if_neg hwanted]
          exact ih h

/-- The card after a write. -/
def CtlCard.after (hw : CtlCard) (t : Nat) (e : CtlElement) (stored : List Int) : CtlCard :=
  { hw with elements := hw.elements.set t (e.put stored) }

theorem lookUp_after {hw : CtlCard} {setting : AlsaControlValue} {t : Nat} {e : CtlElement}
    (stored : List Int) (h : lookUp hw setting = some (t, e)) :
    lookUp (hw.after t e stored) setting = some (t, e.put stored) := by
  unfold lookUp at h ⊢
  by_cases hname : setting.controlName ≠ []
  · rw [if_pos hname] at h ⊢
    unfold controlRead at h ⊢
    by_cases hlist : hw.listFails = true
    · rw [if_pos hlist] at h
      cases h
    · rw [if_neg hlist] at h
      rw [if_neg (show ¬(hw.after t e stored).listFails = true from hlist)]
      exact readLoop_set (fun _ => rfl) h
  · rw [if_neg hname] at h ⊢
    unfold controlReadById at h ⊢
    by_cases hlist : hw.listFails = true
    · rw [if_pos hlist] at h
      cases h
    · rw [if_neg hlist] at h
      rw [if_neg (show ¬(hw.after t e stored).listFails = true from hlist)]
      exact readLoop_set (fun _ => rfl) h

/-- The element that is found has the id, or a name that begins with the one looked for. -/
theorem lookUp_id {hw : CtlCard} {setting : AlsaControlValue} {t : Nat} {e : CtlElement}
    (hname : ¬setting.controlName ≠ []) (h : lookUp hw setting = some (t, e)) :
    (e.numid : Int) = setting.controlId % 4294967296 := by
  unfold lookUp at h
  rw [if_neg hname] at h
  unfold controlReadById at h
  by_cases hlist : hw.listFails = true
  · rw [if_pos hlist] at h
    cases h
  · rw [if_neg hlist] at h
    exact of_decide_eq_true (readLoop_wanted h).1

/-! ## Settings that are taken -/

/-- What a setting comes to if nothing refuses it: the element it finds and its place, the
channels that are written and those that the driver stores. -/
def taken (hw : CtlCard) (setting : AlsaControlValue) :
    Option ((Nat × CtlElement) × List Int × List Int) :=
  (lookUp hw setting).bind fun found =>
    (valueOf found.2 setting).bind fun value =>
      (channelValues found.2 value).bind fun channels =>
        (found.2.store channels).map fun stored => (found, channels, stored)

/-- The card or its driver refuses one of the settings. -/
def Refuses : CtlCard → List AlsaControlValue → Prop
  | _, [] => False
  | hw, setting :: settings =>
      match taken hw setting with
      | none => True
      | some (found, _, stored) => Refuses (hw.after found.1 found.2 stored) settings

/-- Each setting that gives a name gives the whole name of the first element that begins with
it, and each time the driver stores what it is passed. -/
def Faithful : CtlCard → List AlsaControlValue → Prop
  | _, [] => True
  | hw, setting :: settings =>
      match taken hw setting with
      | none => True
      | some (found, channels, stored) =>
          (setting.controlName ≠ [] → found.2.name = setting.controlName) ∧
            stored = channels ∧ Faithful (hw.after found.1 found.2 stored) settings

/-- A turn of the loop. -/
theorem applySetting_eq (hw : CtlCard) (setting : AlsaControlValue) :
    applySetting hw setting = (taken hw setting).map fun (found, channels, stored) =>
      (⟨found.2, channels, stored⟩, hw.after found.1 found.2 stored) := by
  unfold applySetting taken
  cases hfound : lookUp hw setting with
  | none => rfl
  | some found =>
      obtain ⟨t, e⟩ := found
      simp only [Option.bind_eq_bind, Option.bind_some]
      cases valueOf e setting with
      | none => rfl
      | some value =>
          simp only [Option.bind_some]
          cases channelValues e value with
          | none => rfl
          | some channels =>
              simp only [Option.bind_some, elemWrite]
              cases e.store channels with
              | none => rfl
              | some stored =>
                  have hagain := lookUp_after stored hfound
                  simp only [CtlCard.after, CtlElement.put] at hagain
                  simp only [Option.map_some, Option.bind_some, hagain]
                  rfl

theorem isApplied_iff {hw : CtlCard} {setting : AlsaControlValue}
    {found : Nat × CtlElement} {channels stored : List Int}
    (h : taken hw setting = some (found, channels, stored)) :
    IsApplied setting ⟨found.2, channels, stored⟩ ↔
      (setting.controlName ≠ [] → found.2.name = setting.controlName) ∧ stored = channels := by
  obtain ⟨found', hfound, hrest⟩ := Option.bind_eq_some_iff.mp h
  have hsame : found' = found := by
    obtain ⟨_, _, hrest⟩ := Option.bind_eq_some_iff.mp hrest
    obtain ⟨_, _, hrest⟩ := Option.bind_eq_some_iff.mp hrest
    obtain ⟨_, _, hrest⟩ := Option.map_eq_some_iff.mp hrest
    exact congrArg Prod.fst hrest
  subst hsame
  constructor
  · rintro ⟨helement, hvalue⟩
    exact ⟨fun hname => by rwa [if_pos hname] at helement, hvalue⟩
  · rintro ⟨hnamed, hvalue⟩
    refine ⟨?_, hvalue⟩
    by_cases hname : setting.controlName ≠ []
    · rw [if_pos hname]
      exact hnamed hname
    · rw [if_neg hname]
      exact lookUp_id hname hfound

theorem applySettings_none_iff (settings : List AlsaControlValue) : ∀ hw : CtlCard,
    applySettings hw settings = none ↔ Refuses hw settings := by
  induction settings with
  | nil => exact fun hw => iff_of_false (fun h => by cases h) id
  | cons setting settings ih =>
      intro hw
      rw [applySettings, applySetting_eq, Refuses]
      cases taken hw setting with
      | none => exact iff_of_true rfl trivial
      | some r =>
          obtain ⟨found, channels, stored⟩ := r
          simp only [Option.map_some, Option.bind_eq_bind, Option.bind_some]
          rw [← ih]
          cases applySettings (hw.after found.1 found.2 stored) settings with
          | none => exact iff_of_true rfl rfl
          | some applied => exact iff_of_false (fun h => by cases h) fun h => by cases h

/-- **The settings have been applied when the loop succeeds** exactly if they are faithful or
one of them is refused. -/
theorem applySettings_iff (settings : List AlsaControlValue) : ∀ hw : CtlCard,
    (∀ applied, applySettings hw settings = some applied →
      List.Forall₂ IsApplied settings applied) ↔ Refuses hw settings ∨ Faithful hw settings := by
  induction settings with
  | nil =>
      intro hw
      refine iff_of_true (fun applied h => ?_) (Or.inr trivial)
      cases h
      exact List.Forall₂.nil
  | cons setting settings ih =>
      intro hw
      rw [applySettings, applySetting_eq, Refuses, Faithful]
      cases htaken : taken hw setting with
      | none =>
          simp only [Option.map_none]
          exact iff_of_true (fun applied h => by cases h) (Or.inl trivial)
      | some r =>
          obtain ⟨found, channels, stored⟩ := r
          have hrest := ih (hw.after found.1 found.2 stored)
          have hrefuses := applySettings_none_iff settings (hw.after found.1 found.2 stored)
          simp only [Option.map_some, Option.bind_eq_bind, Option.bind_some]
          rw [← and_assoc, ← isApplied_iff htaken]
          cases happly : applySettings (hw.after found.1 found.2 stored) settings with
          | none => exact iff_of_true (fun applied h => by cases h) (Or.inl (hrefuses.mp happly))
          | some applied =>
              have hnot : ¬Refuses (hw.after found.1 found.2 stored) settings := by
                rw [← hrefuses, happly]
                exact fun h => by cases h
              rw [or_iff_right hnot, happly] at hrest
              rw [or_iff_right hnot, ← hrest]
              constructor
              · intro h
                obtain ⟨hfirst, hothers⟩ := List.forall₂_cons.mp (h _ rfl)
                exact ⟨hfirst, fun applied' h' => by cases h'; exact hothers⟩
              · rintro ⟨hfirst, hothers⟩ applied' h'
                cases h'
                exact List.Forall₂.cons hfirst (hothers applied rfl)

/-- **`setup_control_settings` returns 0 only if the settings have been applied** exactly if
they are faithful or one of them is refused, on a card that can be opened. -/
theorem reportsApplied_iff (card : Option CtlCard) (settings : Option AlsaControlSettings) :
    ReportsApplied card settings ↔ ∀ hw s, card = some hw → settings = some s →
      Refuses hw s.values ∨ Faithful hw s.values := by
  unfold ReportsApplied setupControlSettings
  cases settings with
  | none => exact iff_of_true (fun h => by cases h) fun hw s _ h => by cases h
  | some s =>
      dsimp only
      by_cases hempty : s.values = []
      · rw [if_pos hempty]
        refine iff_of_true (fun _ => ⟨s, rfl, ?_⟩) fun hw s' _ h => Or.inr ?_
        · rw [hempty]
          exact List.Forall₂.nil
        · cases h
          rw [hempty]
          trivial
      · rw [if_neg hempty]
        cases card with
        | none => exact iff_of_true (fun h => by cases h) fun hw s' h => by cases h
        | some hw =>
            dsimp only
            rw [show (∀ hw' s', some hw = some hw' → some s = some s' →
                Refuses hw' s'.values ∨ Faithful hw' s'.values) ↔
              Refuses hw s.values ∨ Faithful hw s.values from
                ⟨fun h => h hw s rfl rfl, fun h hw' s' hhw hs => by cases hhw; cases hs; exact h⟩,
              ← applySettings_iff]
            cases happly : applySettings hw s.values with
            | none => exact iff_of_true (fun h => by cases h) fun applied h => by cases h
            | some applied =>
                dsimp only
                constructor
                · intro h applied' h'
                  obtain ⟨s', hs, hall⟩ := h rfl
                  cases hs
                  cases h'
                  exact hall
                · intro h _
                  exact ⟨s, rfl, h applied rfl⟩

/-- A switch of the boost is listed before the volume of the microphone. -/
def boostCard : CtlCard where
  elements :=
    [{ numid := 1, name := "Mic Boost".toList, type := .boolean, count := 1, min := 0, max := 1,
       items := [], infoFails := false, readFails := false, value := [0], store := some },
     { numid := 2, name := "Mic".toList, type := .integer, count := 1, min := 0, max := 31,
       items := [], infoFails := false, readFails := false, value := [0], store := some }]
  listFails := false

def micSettings : AlsaControlSettings where
  card := 0
  values := [{ controlName := "Mic".toList, controlId := 0, value := 20, strValue := [] }]

/-- The boost is switched on, and the volume stays as it was. -/
theorem micSettings_misapplied : ¬∀ (card : Option CtlCard)
    (settings : Option AlsaControlSettings), ReportsApplied card settings := by
  intro h
  obtain ⟨s, hs, hall⟩ := h (some boostCard) (some micSettings) (by decide)
  cases hs
  obtain ⟨hfirst, -⟩ := List.forall₂_cons.mp hall
  have hname := hfirst.element
  revert hname
  decide

end Blts.Alsa.Controls
