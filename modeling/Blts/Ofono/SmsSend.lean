import Mathlib.Data.List.Basic

/-!
# Sending a message

The case asks the message manager to send a message and lets its main loop run.  The reply
names the message.  From then on the signals of that message are followed, until it is removed,
and the last of its states decides.

The signals and the reply come in any order.  A signal of the message that comes before the
reply is taken for one of another message.
-/

namespace Blts.Ofono

/-- What is emitted about messages, each with its path. -/
inductive SmsSignal where
  | added (path : String) (properties : List (String × String))
  | removed (path : String)
  | changed (path key value : String)
  deriving DecidableEq

def SmsSignal.path : SmsSignal → String
  | .added path _ => path
  | .removed path => path
  | .changed path _ _ => path

/-- The reply to the request, with whether a proxy for the message can be made. -/
inductive SendReply where
  | failed
  | sent (path : String) (proxy : Bool)
  deriving DecidableEq

inductive Delivery where
  | signal (s : SmsSignal)
  | reply (r : SendReply)
  deriving DecidableEq

/-- `struct sms_case_state`, with whether the main loop has been left. -/
structure SmsCase where
  messagePath : Option String
  /-- The path of the proxy whose signals are connected. -/
  messageProxy : Option String
  messageState : Option String
  result : Int
  ended : Bool
  deriving DecidableEq

namespace SmsCase

/-- When the request has been made.  The result is `0xdeadbeef`, as an `int`. -/
def requested : SmsCase := ⟨none, none, none, 0xdeadbeef - 0x100000000, false⟩

/-- `g_main_loop_quit` with a result. -/
def quit (s : SmsCase) (result : Int) : SmsCase := { s with result, ended := true }

/-- `sms_message_added_cb`. -/
def messageAdded (s : SmsCase) (path : String) (properties : List (String × String)) : SmsCase :=
  if s.messagePath ≠ some path then s
  else
    match properties.lookup "State" with
    | none => s.quit (-1)
    | some state => { s with messageState := some state }

/-- `sms_message_removed_cb`. -/
def messageRemoved (s : SmsCase) (path : String) : SmsCase :=
  if s.messagePath ≠ some path then s
  else { s with messageProxy := none }.quit (if s.messageState = some "sent" then 0 else -1)

/-- `sms_message_property_changed_cb`, called for a connected proxy alone. -/
def messagePropertyChanged (s : SmsCase) (path key value : String) : SmsCase :=
  if s.messageProxy ≠ some path then s
  else if key = "State" then { s with messageState := some value } else s

/-- `sms_send_complete`. -/
def sendComplete (s : SmsCase) : SendReply → SmsCase
  | .failed => { s with result := 1 }
  | .sent path true =>
      { s with result := 0, messagePath := some path, messageProxy := some path }
  | .sent path false => { s with messagePath := some path }.quit (-1)

/-- What the main loop does with a delivery. -/
def deliver (s : SmsCase) (d : Delivery) : SmsCase :=
  if s.ended then s
  else
    match d with
    | .signal (.added path properties) => s.messageAdded path properties
    | .signal (.removed path) => s.messageRemoved path
    | .signal (.changed path key value) => s.messagePropertyChanged path key value
    | .reply r => s.sendComplete r

def hear (s : SmsCase) (signals : List SmsSignal) : SmsCase :=
  signals.foldl (fun s signal => s.deliver (.signal signal)) s

end SmsCase

/-- `blts_ofono_send_sms_default`, from the request on: signals, the reply, and more signals. -/
def sendSmsDefault (before : List SmsSignal) (reply : SendReply) (after : List SmsSignal) :
    SmsCase :=
  ((SmsCase.requested.hear before).deliver (.reply reply)).hear after

/-! ## What the test is for -/

/-- The state that a signal announces for a message. -/
def SmsSignal.announces (path : String) : SmsSignal → Option String
  | .added p properties => if p = path then properties.lookup "State" else none
  | .removed _ => none
  | .changed p key value => if p = path ∧ key = "State" then some value else none

/-- The last state that signals announce, after an earlier one. -/
def lastState (path : String) (state : Option String) (signals : List SmsSignal) : Option String :=
  signals.foldl (fun state s => (s.announces path).or state) state

/-- The message is added, changed any number of times, and removed. -/
def Causal (path : String) (signals : List SmsSignal) : Prop :=
  ∃ (properties : List (String × String)) (changes : List (String × String)),
    signals.filter (fun s => s.path = path) =
      .added path properties :: changes.map (fun c => .changed path c.1 c.2) ++ [.removed path]

/-- A reply that names the message, if it names one. -/
def SendReply.Names (path : String) (reply : SendReply) : Prop :=
  ∀ p proxy, reply = .sent p proxy → p = path

/-- The case ends, with the right verdict. -/
def Judged (path : String) (before : List SmsSignal) (reply : SendReply)
    (after : List SmsSignal) : Prop :=
  (sendSmsDefault before reply after).ended = true ∧
    ((sendSmsDefault before reply after).result = 0 ↔
      lastState path none (before ++ after) = some "sent")

/-- The message is added without a state. -/
def SmsSignal.stateless (path : String) : SmsSignal → Bool
  | .added p properties => p = path ∧ properties.lookup "State" = none
  | .removed _ => false
  | .changed _ _ _ => false

/-- The reply comes before the removal, and either between them a state is announced, and the
message not added without one, or the last state is not the one that passes. -/
def HeardInTime (path : String) (before : List SmsSignal) (reply : SendReply)
    (after : List SmsSignal) : Prop :=
  match reply with
  | .failed => False
  | .sent _ proxy =>
      (lastState path none (before ++ after) ≠ some "sent" ∧
          (proxy = false ∨ .removed path ∈ after)) ∨
        (proxy = true ∧ .removed path ∈ after ∧ (∃ s ∈ after, s.announces path ≠ none) ∧
          ∀ s ∈ after, s.stateless path = false)

/-! ## States -/

theorem lastState_append (path : String) (state : Option String) (before after : List SmsSignal) :
    lastState path state (before ++ after) = lastState path (lastState path state before) after :=
  List.foldl_append

theorem lastState_silent {path : String} {signals : List SmsSignal}
    (h : ∀ s ∈ signals, s.announces path = none) (state : Option String) :
    lastState path state signals = state := by
  induction signals generalizing state with
  | nil => rfl
  | cons s signals ih =>
      obtain ⟨hs, hsignals⟩ := List.forall_mem_cons.mp h
      show lastState path ((s.announces path).or state) signals = state
      rw [hs, Option.none_or]
      exact ih hsignals state

/-- Once a state is announced, what was before does not count. -/
theorem lastState_announced {path : String} {signals : List SmsSignal}
    (h : ∃ s ∈ signals, s.announces path ≠ none) (state state' : Option String) :
    lastState path state signals = lastState path state' signals := by
  induction signals generalizing state state' with
  | nil =>
      obtain ⟨s, hs, _⟩ := h
      exact absurd hs List.not_mem_nil
  | cons s signals ih =>
      show lastState path ((s.announces path).or state) signals =
        lastState path ((s.announces path).or state') signals
      cases hs : s.announces path with
      | some value => rfl
      | none =>
          obtain ⟨s', hmem, hs'⟩ := h
          rcases List.mem_cons.mp hmem with rfl | hmem
          · exact absurd hs hs'
          · exact ih ⟨s', hmem, hs'⟩ _ _

/-! ## Signals in their order -/

theorem Causal.removed_mem {path : String} {signals : List SmsSignal} (h : Causal path signals) :
    .removed path ∈ signals := by
  obtain ⟨properties, changes, hfilter⟩ := h
  have hmem : SmsSignal.removed path ∈ signals.filter (fun s => s.path = path) := by
    rw [hfilter]
    exact List.mem_append_right _ List.mem_cons_self
  exact (List.mem_filter.mp hmem).1

/-- Nothing comes of the message after its removal. -/
theorem Causal.after_removed {path : String} {signals after : List SmsSignal}
    (h : Causal path (signals ++ .removed path :: after)) : ∀ s ∈ after, s.path ≠ path := by
  obtain ⟨properties, changes, hfilter⟩ := h
  have hcons : (SmsSignal.removed path :: after).filter (fun s => s.path = path) =
      .removed path :: after.filter (fun s => s.path = path) :=
    List.filter_cons_of_pos (decide_eq_true rfl)
  rw [List.filter_append, hcons] at hfilter
  intro s hs hpath
  have hne : after.filter (fun s => s.path = path) ≠ [] :=
    List.ne_nil_of_mem (List.mem_filter.mpr ⟨hs, decide_eq_true hpath⟩)
  -- the removal would stand before the last signal
  have hinit := congrArg List.dropLast hfilter
  rw [List.dropLast_concat, List.dropLast_append_of_ne_nil (List.cons_ne_nil _ _),
    List.dropLast_cons_of_ne_nil hne] at hinit
  have hmem : SmsSignal.removed path ∈
      SmsSignal.added path properties :: changes.map (fun c => .changed path c.1 c.2) := by
    rw [← hinit]
    exact List.mem_append_right _ List.mem_cons_self
  rcases List.mem_cons.mp hmem with hadded | hchanged
  · cases hadded
  · obtain ⟨c, _, hc⟩ := List.mem_map.mp hchanged
    cases hc

/-- What is added after something is removed later still. -/
theorem Causal.added_before_removed {path : String} {before after : List SmsSignal}
    (h : Causal path (before ++ after)) {s : SmsSignal} (hs : s ∈ after) (hpath : s.path = path) :
    .removed path ∈ after := by
  rcases List.mem_append.mp h.removed_mem with hmem | hmem
  · obtain ⟨front, rest, rfl⟩ := List.append_of_mem hmem
    rw [List.append_assoc, List.cons_append] at h
    exact absurd hpath (h.after_removed s (List.mem_append_right rest hs))
  · exact hmem

theorem announces_of_ne {path : String} {s : SmsSignal} (h : s.path ≠ path) :
    s.announces path = none := by
  cases s with
  | added p properties => exact if_neg h
  | removed p => rfl
  | changed p key value => exact if_neg fun hp => h hp.1

theorem stateless_path {path : String} {s : SmsSignal} (h : s.stateless path = true) :
    s.path = path := by
  cases s with
  | added p properties => exact (of_decide_eq_true h).1
  | removed p => cases h
  | changed p key value => cases h

/-! ## What the case hears -/

namespace SmsCase

theorem hear_append (s : SmsCase) (before after : List SmsSignal) :
    s.hear (before ++ after) = (s.hear before).hear after :=
  List.foldl_append

theorem hear_ended {s : SmsCase} (h : s.ended = true) (signals : List SmsSignal) :
    s.hear signals = s := by
  induction signals with
  | nil => rfl
  | cons signal signals ih =>
      have hsame : s.deliver (.signal signal) = s := if_pos h
      show (s.deliver (.signal signal)).hear signals = s
      rw [hsame, ih]

/-- As long as no message is known, nothing is heard. -/
theorem hear_unnamed {s : SmsCase} (hpath : s.messagePath = none) (hproxy : s.messageProxy = none)
    (signals : List SmsSignal) : s.hear signals = s := by
  have hnone : ∀ path, (none : Option String) ≠ some path := fun path h => (by cases h)
  induction signals with
  | nil => rfl
  | cons signal signals ih =>
      have hsame : s.deliver (.signal signal) = s := by
        unfold deliver
        split
        · rfl
        · cases signal with
          | added path properties => exact if_pos (hpath ▸ hnone path)
          | removed path => exact if_pos (hpath ▸ hnone path)
          | changed path key value => exact if_pos (hproxy ▸ hnone path)
      show (s.deliver (.signal signal)).hear signals = s
      rw [hsame, ih]

/-- The case that follows a message, with the last state that it has heard. -/
def following (path : String) (state : Option String) : SmsCase :=
  ⟨some path, some path, state, 0, false⟩

/-- Signals that end the case that follows a message. -/
def stops (path : String) : SmsSignal → Bool
  | .added p properties => p = path ∧ properties.lookup "State" = none
  | .removed p => p = path
  | .changed _ _ _ => false

theorem deliver_following {path : String} {signal : SmsSignal} (h : stops path signal = false)
    (state : Option String) : (following path state).deliver (.signal signal) =
      following path ((signal.announces path).or state) := by
  have hpath : ∀ p, (following path state).messagePath = some p ↔ p = path := fun p =>
    ⟨fun h => (Option.some.inj h).symm, fun h => congrArg some h.symm⟩
  have hproxy : ∀ p, (following path state).messageProxy = some p ↔ p = path := hpath
  cases signal with
  | added p properties =>
      show (following path state).messageAdded p properties = _
      unfold messageAdded SmsSignal.announces
      by_cases hp : p = path
      · rw [if_neg (not_not.mpr ((hpath p).mpr hp))]
        dsimp only
        rw [if_pos hp]
        cases hlookup : properties.lookup "State" with
        | none => exact absurd ⟨hp, hlookup⟩ (of_decide_eq_false h)
        | some value => rfl
      · rw [if_pos fun heq => hp ((hpath p).mp heq)]
        dsimp only
        rw [if_neg hp]
        rfl
  | removed p => exact if_pos fun heq => of_decide_eq_false h ((hpath p).mp heq)
  | changed p key value =>
      show (following path state).messagePropertyChanged p key value = _
      unfold messagePropertyChanged SmsSignal.announces
      by_cases hp : p = path
      · rw [if_neg (not_not.mpr ((hproxy p).mpr hp))]
        dsimp only
        by_cases hkey : key = "State"
        · rw [if_pos hkey, if_pos ⟨hp, hkey⟩]
          rfl
        · rw [if_neg hkey, if_neg fun hboth => hkey hboth.2]
          rfl
      · rw [if_pos fun heq => hp ((hproxy p).mp heq)]
        dsimp only
        rw [if_neg fun hboth => hp hboth.1]
        rfl

/-- The states of the message are followed. -/
theorem hear_following {path : String} {signals : List SmsSignal}
    (h : ∀ s ∈ signals, stops path s = false) (state : Option String) :
    (following path state).hear signals = following path (lastState path state signals) := by
  induction signals generalizing state with
  | nil => rfl
  | cons signal signals ih =>
      obtain ⟨hsignal, hsignals⟩ := List.forall_mem_cons.mp h
      show ((following path state).deliver (.signal signal)).hear signals = _
      rw [deliver_following hsignal, ih hsignals]
      rfl

theorem deliver_stateless {path : String} {properties : List (String × String)}
    (hlookup : properties.lookup "State" = none) (state : Option String) :
    (following path state).deliver (.signal (.added path properties)) =
      ⟨some path, some path, state, -1, true⟩ := by
  have hpath : (following path state).messagePath = some path := rfl
  show (following path state).messageAdded path properties = _
  unfold messageAdded
  rw [if_neg (not_not.mpr hpath), hlookup]
  rfl

theorem deliver_removed (path : String) (state : Option String) :
    (following path state).deliver (.signal (.removed path)) =
      ⟨some path, none, state, if state = some "sent" then 0 else -1, true⟩ :=
  have hpath : (following path state).messagePath = some path := rfl
  if_neg (not_not.mpr hpath)

/-- What the case that follows a message makes of signals that do not end it, and one that
does. -/
theorem hear_following_stop {path : String} {before after : List SmsSignal} {signal : SmsSignal}
    (h : ∀ s ∈ before, stops path s = false) {t : SmsCase} (hended : t.ended = true)
    (hstop : (following path (lastState path none before)).deliver (.signal signal) = t) :
    (following path none).hear (before ++ signal :: after) = t := by
  rw [hear_append, hear_following h]
  show ((following path _).deliver (.signal signal)).hear after = t
  rw [hstop, hear_ended hended]

end SmsCase

open SmsCase

theorem stateless_of_stops {path : String} {s : SmsSignal} (h : stops path s = false) :
    s.stateless path = false := by
  cases s with
  | added p properties => exact h
  | removed p => rfl
  | changed p key value => rfl

/-- A message that is removed after the reply. -/
theorem judged_removed {path : String} {before after rest : List SmsSignal}
    (hafter : ∀ s ∈ after, stops path s = false) (hrest : ∀ s ∈ rest, s.path ≠ path) :
    (lastState path none after = some "sent" ↔
        lastState path none (before ++ (after ++ .removed path :: rest)) = some "sent") ↔
      lastState path none (before ++ (after ++ .removed path :: rest)) ≠ some "sent" ∨
        (∃ s ∈ after ++ .removed path :: rest, s.announces path ≠ none) ∧
          ∀ s ∈ after ++ .removed path :: rest, s.stateless path = false := by
  have hstateless : ∀ s ∈ after ++ .removed path :: rest, s.stateless path = false := by
    intro s hs
    rcases List.mem_append.mp hs with hs | hs
    · exact stateless_of_stops (hafter s hs)
    · rcases List.mem_cons.mp hs with rfl | hs
      · rfl
      · exact Bool.eq_false_iff.mpr fun h => hrest s hs (stateless_path h)
  have hsilent : ∀ s ∈ SmsSignal.removed path :: rest, s.announces path = none :=
    List.forall_mem_cons.mpr ⟨rfl, fun s hs => announces_of_ne (hrest s hs)⟩
  have hlast : lastState path none (before ++ (after ++ .removed path :: rest)) =
      lastState path (lastState path none before) after := by
    rw [lastState_append, lastState_append, lastState_silent hsilent]
  by_cases hannounced : ∃ s ∈ after, s.announces path ≠ none
  · -- the case has heard the last state
    obtain ⟨s, hs, hstate⟩ := hannounced
    rw [hlast, lastState_announced ⟨s, hs, hstate⟩ none (lastState path none before)]
    exact iff_of_true Iff.rfl (.inr ⟨⟨s, List.mem_append_left _ hs, hstate⟩, hstateless⟩)
  · have hquiet : ∀ s ∈ after, s.announces path = none := fun s hs => by
      by_contra hstate
      exact hannounced ⟨s, hs, hstate⟩
    rw [lastState_silent hquiet]
    constructor
    · exact fun hiff => .inl fun hsent => (nomatch hiff.mpr hsent)
    · rintro (hsent | ⟨⟨s, hs, hstate⟩, _⟩)
      · exact ⟨fun h => (nomatch h), fun h => absurd h hsent⟩
      · rcases List.mem_append.mp hs with hs | hs
        · exact absurd (hquiet s hs) hstate
        · exact absurd (hsilent s hs) hstate

section

variable {p : String} {before after heard rest : List SmsSignal}

/-- Without a proxy for the message the test ends at once, with a failure. -/
theorem judged_noProxy :
    Judged p before (.sent p false) after ↔ HeardInTime p before (.sent p false) after := by
  have hbefore : SmsCase.requested.hear before = SmsCase.requested := hear_unnamed rfl rfl before
  have hquit : (SmsCase.requested.deliver (.reply (.sent p false))).hear after =
    ⟨some p, none, none, -1, true⟩ := hear_ended rfl after
  unfold Judged HeardInTime sendSmsDefault
  rw [hbefore, hquit]
  constructor
  · exact fun h => .inl ⟨fun hsent => (nomatch h.2.mpr hsent), .inl rfl⟩
  · rintro (⟨hsent, _⟩ | ⟨hproxy, _⟩)
    · exact ⟨rfl, fun h => (nomatch h), fun h => absurd h hsent⟩
    · cases hproxy

/-- What the case does once it has the proxy. -/
theorem sendSmsDefault_following :
    sendSmsDefault before (.sent p true) after = (following p none).hear after := by
  have hbefore : SmsCase.requested.hear before = SmsCase.requested := hear_unnamed rfl rfl before
  unfold sendSmsDefault
  rw [hbefore]
  rfl

/-- No signal ends the test: the message is not removed. -/
theorem judged_goesOn (hgoesOn : ∀ s ∈ after, stops p s = false) :
    Judged p before (.sent p true) after ↔ HeardInTime p before (.sent p true) after := by
  have hnever : .removed p ∉ after := fun hmem => of_decide_eq_false (hgoesOn _ hmem) rfl
  unfold Judged HeardInTime
  rw [sendSmsDefault_following, hear_following hgoesOn]
  constructor
  · exact fun h => (nomatch h.1)
  · rintro (⟨_, hproxy | hmem⟩ | ⟨_, hmem, _⟩)
    · cases hproxy
    · exact absurd hmem hnever
    · exact absurd hmem hnever

/-- The message is added without a state, which ends the test. -/
theorem judged_stateless {properties : List (String × String)}
    (hcausal : Causal p (before ++ (heard ++ .added p properties :: rest)))
    (hgoesOn : ∀ s ∈ heard, stops p s = false)
    (hstop : stops p (.added p properties) = true) :
    Judged p before (.sent p true) (heard ++ .added p properties :: rest) ↔
      HeardInTime p before (.sent p true) (heard ++ .added p properties :: rest) := by
  obtain ⟨-, hlookup⟩ := of_decide_eq_true hstop
  have hremoved := hcausal.added_before_removed (List.mem_append_right heard
    (List.mem_cons_self (a := .added p properties) (l := rest))) rfl
  unfold Judged HeardInTime
  rw [sendSmsDefault_following, hear_following_stop hgoesOn rfl (deliver_stateless hlookup _)]
  constructor
  · exact fun h => .inl ⟨fun hsent => (nomatch h.2.mpr hsent), .inr hremoved⟩
  · rintro (⟨hsent, _⟩ | ⟨_, _, _, hstateless⟩)
    · exact ⟨rfl, fun h => (nomatch h), fun h => absurd h hsent⟩
    · have hstate := hstateless _ (List.mem_append_right heard List.mem_cons_self)
      exact absurd (hstop.symm.trans hstate) Bool.noConfusion

/-- The message is removed: the last state that was heard decides. -/
theorem judged_atRemoval (hcausal : Causal p (before ++ (heard ++ .removed p :: rest)))
    (hgoesOn : ∀ s ∈ heard, stops p s = false) :
    Judged p before (.sent p true) (heard ++ .removed p :: rest) ↔
      HeardInTime p before (.sent p true) (heard ++ .removed p :: rest) := by
  have hrest : ∀ s ∈ rest, s.path ≠ p := by
    rw [← List.append_assoc] at hcausal
    exact hcausal.after_removed
  have hresult : (if lastState p none heard = some "sent" then (0 : Int) else -1) = 0 ↔
      lastState p none heard = some "sent" := by
    split
    next h => exact iff_of_true rfl h
    next h => exact iff_of_false (by decide) h
  have hmem : SmsSignal.removed p ∈ heard ++ .removed p :: rest :=
    List.mem_append_right heard List.mem_cons_self
  unfold Judged HeardInTime
  rw [sendSmsDefault_following, hear_following_stop hgoesOn rfl (deliver_removed _ _)]
  dsimp only
  rw [hresult, judged_removed hgoesOn hrest]
  constructor
  · rintro ⟨_, hsent | ⟨hannounced, hstateless⟩⟩
    · exact .inl ⟨hsent, .inr hmem⟩
    · exact .inr ⟨rfl, hmem, hannounced, hstateless⟩
  · rintro (⟨hsent, _⟩ | ⟨_, _, hannounced, hstateless⟩)
    · exact ⟨rfl, .inl hsent⟩
    · exact ⟨rfl, .inr ⟨hannounced, hstateless⟩⟩

end

/-- **Sending a message** ends with the right verdict exactly if the reply comes in time. -/
theorem judged_iff_heardInTime {path : String} {before after : List SmsSignal} {reply : SendReply}
    (hcausal : Causal path (before ++ after)) (hnames : reply.Names path) :
    Judged path before reply after ↔ HeardInTime path before reply after := by
  cases reply with
  | failed =>
      have hfailed : sendSmsDefault before .failed after = ⟨none, none, none, 1, false⟩ := by
        have hbefore : SmsCase.requested.hear before = SmsCase.requested :=
          hear_unnamed rfl rfl before
        unfold sendSmsDefault
        rw [hbefore]
        exact hear_unnamed rfl rfl after
      unfold Judged HeardInTime
      rw [hfailed]
      exact ⟨fun h => (nomatch h.1), False.elim⟩
  | sent p proxy =>
      obtain rfl : p = path := hnames p proxy rfl
      cases proxy with
      | false => exact judged_noProxy
      | true =>
          cases hfind : after.find? (stops p) with
          | none =>
              exact judged_goesOn fun s hs =>
                Bool.eq_false_iff.mpr (List.find?_eq_none.mp hfind s hs)
          | some signal =>
              obtain ⟨hstop, heard, rest, rfl, hheard⟩ := List.find?_eq_some_iff_append.mp hfind
              have hgoesOn : ∀ s ∈ heard, stops p s = false := fun s hs =>
                Bool.not_eq_true' _ ▸ hheard s hs
              cases signal with
              | changed q key value => cases hstop
              | added q properties =>
                  obtain rfl : q = p := (of_decide_eq_true hstop).1
                  exact judged_stateless hcausal hgoesOn hstop
              | removed q =>
                  obtain rfl : q = p := of_decide_eq_true hstop
                  exact judged_atRemoval hcausal hgoesOn

/-- The message is sent, and removed, before the reply comes: the case waits on. -/
theorem fastMessage_waits :
    Causal "/m/1" [.added "/m/1" [("State", "pending")], .changed "/m/1" "State" "sent",
      .removed "/m/1"] ∧
    ¬ Judged "/m/1" [.added "/m/1" [("State", "pending")], .changed "/m/1" "State" "sent",
      .removed "/m/1"] (.sent "/m/1" true) [] :=
  ⟨⟨[("State", "pending")], [("State", "sent")], by decide⟩, fun h => by
    exact absurd h.1 (by decide)⟩

theorem judged_slowMessage :
    Judged "/m/1" [.added "/m/2" []] (.sent "/m/1" true)
        [.added "/m/1" [("State", "pending")], .changed "/m/1" "State" "sent", .removed "/m/1"] ↔
      HeardInTime "/m/1" [.added "/m/2" []] (.sent "/m/1" true)
        [.added "/m/1" [("State", "pending")], .changed "/m/1" "State" "sent", .removed "/m/1"] :=
  judged_iff_heardInTime ⟨[("State", "pending")], [("State", "sent")], by decide⟩
    fun _ _ h => by cases h; rfl

end Blts.Ofono
