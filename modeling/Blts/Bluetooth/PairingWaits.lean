import Mathlib.Data.List.Basic
import Blts.Lib.Run

/-!
# Waiting for the events of a pairing

Both ends of a pairing send commands and wait for the events that come of them.  A wait sets a
filter for each packet that it reads, and sets the previous one again afterwards.  The socket
keeps an event if it passes the filter that is set when the event arrives.

The time that is left of a wait is rounded down to milliseconds, and with none of them left a
packet is read without a poll before.  Times here are in microseconds, and exact.
-/

namespace Blts.Bluetooth

open Blts.Lib

inductive HciCommand where
  | authRequested
  | linkKeyNegReply
  | pinCodeReply
  deriving DecidableEq

/-- The events that `set_default_event_filter` lets through, and all others. -/
inductive HciEvent where
  | cmdStatus
  | cmdComplete
  | pinCodeReq
  | linkKeyReq
  | linkKeyNotify
  | returnLinkKeys
  | ioCapabilityRequest
  | ioCapabilityResponse
  | userConfirmRequest
  | userPasskeyRequest
  | remoteOobDataRequest
  | userPasskeyNotify
  | keypressNotify
  | simplePairingComplete
  | authComplete
  | remoteNameReqComplete
  | readRemoteVersionComplete
  | readRemoteFeaturesComplete
  | remoteHostFeaturesNotify
  | inquiryComplete
  | inquiryResult
  | inquiryResultWithRssi
  | extendedInquiryResult
  | connRequest
  | connComplete
  | disconnComplete
  | other (code : Nat)
  deriving DecidableEq

/-- `set_default_event_filter`. -/
def defaultEventFilter : HciEvent → Bool
  | .other _ => false
  | _ => true

/-- What an end of a pairing does next: it sends a command, or waits for an event, with which it
can do without if that is not required. -/
inductive PairingOp where
  | send (command : HciCommand)
  | waitUntil (event : HciEvent) (required : Bool)
  deriving DecidableEq

/-- `do_pin_exchange`. -/
def doPinExchange : List PairingOp :=
  [.waitUntil .pinCodeReq true, .send .pinCodeReply, .waitUntil .linkKeyNotify true]

/-- `do_pairing_master`, with the connection made. -/
def doPairingMaster : List PairingOp :=
  .send .authRequested :: .waitUntil .linkKeyReq true :: .send .linkKeyNegReply ::
    doPinExchange ++ [.waitUntil .authComplete false]

/-- `do_pairing_slave`, with the device open. -/
def doPairingSlave : List PairingOp := .waitUntil .connComplete true :: doPinExchange

/-- A call of `wait_until_event`. -/
structure EventWait where
  event : HciEvent
  required : Bool
  /-- `t_end`. -/
  deadline : Nat
  deriving DecidableEq

inductive PairingPlace where
  /-- Before the next operation. -/
  | between
  /-- At the start of `wait_for_events`, with its timeout in milliseconds. -/
  | installing (w : EventWait) (timeout : Nat)
  | polling (w : EventWait) (timeout since : Nat)
  | reading (w : EventWait)
  /-- A packet has been read, or none has come. -/
  | restoring (w : EventWait) (packet : Option HciEvent)
  /-- Back in `wait_until_event`, before it looks at the time and at the packet. -/
  | looking (w : EventWait) (packet : HciEvent)
  | done
  | timedOut
  | failed
  deriving DecidableEq

structure Pairing where
  /-- The timeout of the waits, in milliseconds. -/
  timeout : Nat
  now : Nat
  filter : HciEvent → Bool
  /-- The filter that `wait_for_events` sets again. -/
  saved : HciEvent → Bool
  queue : List HciEvent
  ops : List PairingOp
  place : PairingPlace
  /-- The expected event has arrived in time. -/
  arrived : Bool
  /-- A wait has timed out although its event had arrived. -/
  missed : Bool

namespace Pairing

/-- At the start, with what the socket has been left with. -/
def start (timeout now : Nat) (filter : HciEvent → Bool) (queue : List HciEvent)
    (ops : List PairingOp) : Pairing where
  timeout := timeout
  now := now
  filter := filter
  saved := filter
  queue := queue
  ops := ops
  place := .between
  arrived := false
  missed := false

/-- The event of the wait that goes on, or that comes next. -/
def expects (s : Pairing) : Option EventWait :=
  match s.place with
  | .between =>
      match s.ops with
      | .waitUntil event required :: _ => some ⟨event, required, s.now + 1000 * s.timeout⟩
      | _ => none
  | .installing w _ | .polling w _ _ | .reading w | .looking w _ => some w
  | .restoring w packet => if packet.isSome then some w else none
  | .done | .timedOut | .failed => none

/-- The packet that has been read and not looked at. -/
def inHand (s : Pairing) : Option HciEvent :=
  match s.place with
  | .restoring _ packet => packet
  | .looking _ packet => some packet
  | _ => none

end Pairing

/-- The events that the sequence provokes. -/
def HciEvent.isProvoked : HciEvent → Bool
  | .linkKeyReq | .pinCodeReq | .linkKeyNotify => true
  | _ => false

inductive PairingEvent where
  | advance (time : Nat)
  | arrive (event : HciEvent)
  | proceed
  /-- A poll or read is interrupted, and made again. -/
  | interrupted
  | pollTimesOut
  /-- A call on the socket fails. -/
  | fails
  deriving DecidableEq

/-- The event is the one that the sequence expects, and comes before the end of the wait. -/
def Expected (s : Pairing) (event : HciEvent) : Prop :=
  event.isProvoked = true ∧ ∃ w ∈ s.expects, w.event = event ∧ s.now < w.deadline

instance (s : Pairing) (event : HciEvent) : Decidable (Expected s event) := by
  unfold Expected
  infer_instance

/-- The next step of the sequence. -/
def pairingProceed (s : Pairing) : Option Pairing :=
  match s.place with
  | .between =>
      match s.ops with
      | [] => some { s with place := .done }
      | .send _ :: ops => some { s with ops }
      | .waitUntil event required :: ops =>
          some { s with
            ops
            place := .installing ⟨event, required, s.now + 1000 * s.timeout⟩ s.timeout }
  | .installing w timeout =>
      some { s with
        saved := s.filter
        filter := defaultEventFilter
        place := if timeout = 0 then .reading w else .polling w timeout s.now }
  | .polling w _ _ => if s.queue = [] then none else some { s with place := .reading w }
  | .reading w =>
      match s.queue with
      | [] => none
      | packet :: queue => some { s with queue, place := .restoring w (some packet) }
  | .restoring w none =>
      some { s with filter := s.saved, place := if w.required then .timedOut else .between }
  | .restoring w (some packet) =>
      some { s with filter := s.saved, place := .looking w packet }
  | .looking w packet =>
      if w.deadline ≤ s.now then
        some { s with
          missed := s.missed || s.arrived
          arrived := false
          place := if w.required then .timedOut else .between }
      else if packet = w.event then some { s with arrived := false, place := .between }
      else some { s with place := .installing w ((w.deadline - s.now) / 1000) }
  | .done | .timedOut | .failed => none

def pairingStep (s : Pairing) : PairingEvent → Option Pairing
  | .advance time => some { s with now := s.now + time }
  | .arrive event =>
      some { s with
        queue := if s.filter event then s.queue ++ [event] else s.queue
        arrived := s.arrived || decide (Expected s event) }
  | .proceed => pairingProceed s
  | .interrupted =>
      match s.place with
      | .polling w timeout _ => some { s with place := .polling w timeout s.now }
      | .reading _ => some s
      | _ => none
  | .pollTimesOut =>
      match s.place with
      | .polling w timeout since =>
          if s.queue = [] ∧ since + 1000 * timeout ≤ s.now then
            some { s with
              missed := s.missed || s.arrived
              arrived := false
              place := .restoring w none }
          else none
      | _ => none
  | .fails =>
      match s.place with
      | .done | .timedOut | .failed => none
      | _ => some { s with arrived := false, place := .failed }

def pairings : System Pairing PairingEvent := ⟨pairingStep⟩

/-! ## What the waits are for -/

/-- The sequence is in a read, with nothing to read, and past the end of its wait. -/
def Overslept (s : Pairing) : Prop :=
  ∃ w, s.place = .reading w ∧ s.queue = [] ∧ w.deadline < s.now

/-- A wait polls, and looks at its packets before its end if its event has arrived. -/
def PairingPlace.inTime (now : Nat) (arrived : Bool) : PairingPlace → Bool
  | .installing _ timeout => timeout ≠ 0
  | .looking w _ => arrived → now < w.deadline
  | _ => true

/-- A wait polls, the expected event passes the filter that is set when it arrives, and once it
has arrived the wait looks at its packets before its end. -/
def Attentive (s : Pairing) : PairingEvent → Prop
  | .proceed => s.place.inTime s.now s.arrived = true
  | .arrive event => Expected s event → s.filter event = true
  | .advance _ => True
  | .interrupted => True
  | .pollTimesOut => True
  | .fails => True

instance : ∀ (s : Pairing) (e : PairingEvent), Decidable (Attentive s e)
  | _, .proceed => by unfold Attentive; infer_instance
  | _, .arrive _ => by unfold Attentive; infer_instance
  | _, .advance _ => .isTrue trivial
  | _, .interrupted => .isTrue trivial
  | _, .pollTimesOut => .isTrue trivial
  | _, .fails => .isTrue trivial

structure WaitInv (s : Pairing) : Prop where
  reads : ∀ w, s.place = .reading w → s.queue ≠ []
  arrived : s.arrived = true →
    ∃ w, s.expects = some w ∧ (w.event ∈ s.queue ∨ s.inHand = some w.event)
  missed : s.missed = false

theorem waitInv_start (timeout now : Nat) (filter : HciEvent → Bool) (queue : List HciEvent)
    (ops : List PairingOp) : WaitInv (.start timeout now filter queue ops) where
  reads := fun _ h => (nomatch h)
  arrived := fun h => (nomatch h)
  missed := rfl

/-! ## Steps -/

namespace WaitInv

variable {s s' : Pairing}

/-- A wait is over, and nothing is expected any more of what it has waited for. -/
theorem finish (h : WaitInv s) {filter : HciEvent → Bool} {place : PairingPlace}
    (hplace : ∀ w, place ≠ .reading w) :
    WaitInv { s with filter, arrived := false, place } :=
  ⟨fun w hw => absurd hw (hplace w), fun h => (nomatch h), h.missed⟩

theorem advance (h : WaitInv s) (time : Nat) : WaitInv { s with now := s.now + time } := by
  refine ⟨h.reads, fun harrived => ?_, h.missed⟩
  obtain ⟨w, hexpects, hthere⟩ := h.arrived harrived
  have hlater : ∃ w', ({ s with now := s.now + time } : Pairing).expects = some w' ∧
      w'.event = w.event := by
    unfold Pairing.expects at hexpects ⊢
    cases hplace : s.place with
    | between =>
        rw [hplace] at hexpects
        dsimp only at hexpects ⊢
        cases hops : s.ops with
        | nil =>
            rw [hops] at hexpects
            cases hexpects
        | cons op ops =>
            rw [hops] at hexpects
            cases op with
            | send command => cases hexpects
            | waitUntil event required =>
                cases hexpects
                exact ⟨_, rfl, rfl⟩
    | _ =>
        rw [hplace] at hexpects
        exact ⟨w, hexpects, rfl⟩
  obtain ⟨w', hexpects', hevent⟩ := hlater
  exact ⟨w', hexpects', hevent ▸ hthere⟩

theorem arrive (h : WaitInv s) {event : HciEvent}
    (hpasses : Expected s event → s.filter event = true) :
    WaitInv { s with
      queue := if s.filter event then s.queue ++ [event] else s.queue
      arrived := s.arrived || decide (Expected s event) } := by
  have hkept : ∀ e ∈ s.queue, e ∈ if s.filter event then s.queue ++ [event] else s.queue := by
    intro e he
    split
    · exact List.mem_append_left _ he
    · exact he
  refine ⟨fun w hw hnil => ?_, fun harrived => ?_, h.missed⟩
  · obtain ⟨e, he⟩ := List.exists_mem_of_ne_nil _ (h.reads w hw)
    have hmem := hkept e he
    rw [show (if s.filter event then s.queue ++ [event] else s.queue) = [] from hnil] at hmem
    exact absurd hmem List.not_mem_nil
  · rcases Bool.or_eq_true_iff.mp harrived with hold | hnew
    · obtain ⟨w, hexpects, hqueued | hhand⟩ := h.arrived hold
      · exact ⟨w, hexpects, .inl (hkept _ hqueued)⟩
      · exact ⟨w, hexpects, .inr hhand⟩
    · have hexpected := of_decide_eq_true hnew
      obtain ⟨_, w, hexpects, rfl, _⟩ := hexpected
      refine ⟨w, hexpects, .inl ?_⟩
      show w.event ∈ if s.filter w.event then s.queue ++ [w.event] else s.queue
      rw [if_pos (hpasses (of_decide_eq_true hnew))]
      exact List.mem_append_right _ List.mem_cons_self

/-- What is expected has arrived, and is still in the queue. -/
theorem queued (h : WaitInv s) (harrived : s.arrived = true) {w : EventWait}
    (hexpects : s.expects = some w) (hhand : s.inHand = none) : w.event ∈ s.queue := by
  obtain ⟨w', hw', hqueued | hin⟩ := h.arrived harrived
  · rw [hexpects] at hw'
    cases hw'
    exact hqueued
  · rw [hhand] at hin
    cases hin

/-- In a wait that has no packet in its hand. -/
theorem queued_of_place (h : WaitInv s) (harrived : s.arrived = true) {w : EventWait}
    (hplace : (∃ timeout, s.place = .installing w timeout) ∨
      (∃ timeout since, s.place = .polling w timeout since) ∨ s.place = .reading w) :
    w.event ∈ s.queue := by
  have hboth : s.expects = some w ∧ s.inHand = none := by
    unfold Pairing.expects Pairing.inHand
    rcases hplace with ⟨timeout, hplace⟩ | ⟨timeout, since, hplace⟩ | hplace
    all_goals
      rw [hplace]
      exact ⟨rfl, rfl⟩
  exact h.queued harrived hboth.1 hboth.2

theorem not_arrived (h : WaitInv s) (hexpects : s.expects = none) : s.arrived = false := by
  cases harrived : s.arrived with
  | false => rfl
  | true =>
      obtain ⟨w, hw, _⟩ := h.arrived harrived
      rw [hexpects] at hw
      cases hw

theorem between (h : WaitInv s) (hplace : s.place = .between)
    (hstep : pairingProceed s = some s') : WaitInv s' := by
  unfold pairingProceed at hstep
  rw [hplace] at hstep
  dsimp only at hstep
  have hexpects : ∀ ops, s.ops = ops → s.expects =
      match ops with
      | .waitUntil event required :: _ => some ⟨event, required, s.now + 1000 * s.timeout⟩
      | _ => none := by
    rintro _ rfl
    unfold Pairing.expects
    rw [hplace]
  have hhand : s.inHand = none := by
    unfold Pairing.inHand
    rw [hplace]
  cases hops : s.ops with
  | nil =>
      rw [hops] at hstep
      cases hstep
      have hnone := h.not_arrived (hexpects _ hops)
      exact ⟨fun w hw => (nomatch hw), fun harrived => absurd (hnone.symm.trans harrived)
        Bool.noConfusion, h.missed⟩
  | cons op ops =>
      rw [hops] at hstep
      cases op with
      | send command =>
          cases hstep
          have hnone := h.not_arrived (hexpects _ hops)
          exact ⟨fun w hw => (nomatch hw), fun harrived => absurd (hnone.symm.trans harrived)
            Bool.noConfusion, h.missed⟩
      | waitUntil event required =>
          cases hstep
          exact ⟨fun w hw => (nomatch hw), fun harrived =>
            ⟨_, rfl, .inl (h.queued harrived (hexpects _ hops) hhand)⟩, h.missed⟩

/-- A packet has been read, and the time is looked at, and then the packet. -/
theorem looking (h : WaitInv s) {w : EventWait} {packet : HciEvent}
    (hplace : s.place = .looking w packet) (hintime : s.arrived = true → s.now < w.deadline)
    (hstep : pairingProceed s = some s') : WaitInv s' := by
  unfold pairingProceed at hstep
  rw [hplace] at hstep
  dsimp only at hstep
  split at hstep
  next hlate =>
    cases hstep
    have hnone : s.arrived = false := Bool.eq_false_iff.mpr fun harrived =>
      absurd (hintime harrived) (Nat.not_lt.mpr hlate)
    refine ⟨fun w' hw' => ?_, fun h => (nomatch h), ?_⟩
    · dsimp only at hw'
      split at hw'
      · cases hw'
      · cases hw'
    · show (s.missed || s.arrived) = false
      rw [h.missed, hnone]
      rfl
  · split at hstep
    · cases hstep
      exact h.finish fun w' hw' => (nomatch hw')
    next hother =>
      cases hstep
      refine ⟨fun w' hw' => (nomatch hw'), fun harrived => ⟨w, rfl, .inl ?_⟩, h.missed⟩
      obtain ⟨w', hw', hthere⟩ := h.arrived harrived
      unfold Pairing.expects at hw'
      unfold Pairing.inHand at hthere
      rw [hplace] at hw' hthere
      cases hw'
      rcases hthere with hqueued | hhand
      · exact hqueued
      · exact absurd (Option.some.inj hhand) hother

/-- **The steps of the sequence.** -/
theorem proceed (h : WaitInv s) (hattentive : Attentive s .proceed)
    (hstep : pairingProceed s = some s') : WaitInv s' := by
  unfold Attentive at hattentive
  cases hplace : s.place with
  | between => exact h.between hplace hstep
  | looking w packet =>
      rw [hplace] at hattentive
      exact h.looking hplace (of_decide_eq_true hattentive) hstep
  | installing w timeout =>
      rw [hplace] at hattentive
      unfold pairingProceed at hstep
      rw [hplace] at hstep
      dsimp only at hstep
      rw [if_neg (of_decide_eq_true hattentive)] at hstep
      cases hstep
      exact ⟨fun w' hw' => (nomatch hw'),
        fun harrived => ⟨w, rfl, .inl (h.queued_of_place harrived (.inl ⟨timeout, hplace⟩))⟩, h.missed⟩
  | polling w timeout since =>
      unfold pairingProceed at hstep
      rw [hplace] at hstep
      dsimp only at hstep
      split at hstep
      · cases hstep
      next hqueue =>
        cases hstep
        exact ⟨fun _ _ => hqueue,
          fun harrived => ⟨w, rfl, .inl (h.queued_of_place harrived
            (.inr (.inl ⟨timeout, since, hplace⟩)))⟩, h.missed⟩
  | reading w =>
      unfold pairingProceed at hstep
      rw [hplace] at hstep
      dsimp only at hstep
      split at hstep
      · cases hstep
      next packet queue hqueue =>
        cases hstep
        refine ⟨fun w' hw' => (nomatch hw'), fun harrived => ⟨w, rfl, ?_⟩, h.missed⟩
        have hmem := h.queued_of_place harrived (.inr (.inr hplace))
        rw [hqueue] at hmem
        rcases List.mem_cons.mp hmem with hread | hleft
        · exact .inr (congrArg some hread.symm)
        · exact .inl hleft
  | restoring w packet =>
      unfold pairingProceed at hstep
      rw [hplace] at hstep
      cases packet with
      | none =>
          cases hstep
          have hexpects : s.expects = none := by
            unfold Pairing.expects
            rw [hplace]
            rfl
          have hnone := h.not_arrived hexpects
          refine ⟨fun w' hw' => ?_, fun harrived => absurd (hnone.symm.trans harrived)
            Bool.noConfusion, h.missed⟩
          dsimp only at hw'
          split at hw'
          · cases hw'
          · cases hw'
      | some packet =>
          cases hstep
          refine ⟨fun w' hw' => (nomatch hw'), fun harrived => ?_, h.missed⟩
          obtain ⟨w', hw', hthere⟩ := h.arrived harrived
          unfold Pairing.expects at hw'
          unfold Pairing.inHand at hthere
          rw [hplace] at hw' hthere
          exact ⟨w', hw', hthere⟩
  | done =>
      unfold pairingProceed at hstep
      rw [hplace] at hstep
      cases hstep
  | timedOut =>
      unfold pairingProceed at hstep
      rw [hplace] at hstep
      cases hstep
  | failed =>
      unfold pairingProceed at hstep
      rw [hplace] at hstep
      cases hstep

/-- **One step.** -/
theorem step (h : WaitInv s) {e : PairingEvent} (hattentive : Attentive s e)
    (hstep : pairingStep s e = some s') : WaitInv s' := by
  cases e with
  | advance time =>
      cases hstep
      exact h.advance time
  | arrive event =>
      cases hstep
      exact h.arrive hattentive
  | proceed => exact h.proceed hattentive hstep
  | interrupted =>
      unfold pairingStep at hstep
      dsimp only at hstep
      split at hstep
      next w timeout since hplace =>
        cases hstep
        exact ⟨fun w' hw' => (nomatch hw'), fun harrived => ⟨w, rfl, .inl (h.queued_of_place harrived
          (.inr (.inl ⟨timeout, since, hplace⟩)))⟩, h.missed⟩
      · cases hstep
        exact h
      · cases hstep
  | pollTimesOut =>
      unfold pairingStep at hstep
      dsimp only at hstep
      split at hstep
      next w timeout since hplace =>
        split at hstep
        next hempty =>
          cases hstep
          have hnone : s.arrived = false := Bool.eq_false_iff.mpr fun harrived => by
            have hmem := h.queued_of_place harrived (.inr (.inl ⟨timeout, since, hplace⟩))
            rw [hempty.1] at hmem
            exact absurd hmem List.not_mem_nil
          refine ⟨fun w' hw' => (nomatch hw'), fun h => (nomatch h), ?_⟩
          show (s.missed || s.arrived) = false
          rw [h.missed, hnone]
          rfl
        · cases hstep
      · cases hstep
  | fails =>
      unfold pairingStep at hstep
      dsimp only at hstep
      split at hstep
      · cases hstep
      · cases hstep
      · cases hstep
      · cases hstep
        exact h.finish fun w hw => (nomatch hw)

end WaitInv

/-- An event that comes while its wait polls, and what follows of the wait. -/
def promptly (event : HciEvent) : List PairingEvent :=
  [.proceed, .proceed, .arrive event, .proceed, .proceed, .proceed, .proceed]

/-- The master's end of a pairing that is made. -/
def pairedMaster : List PairingEvent :=
  .proceed :: promptly .linkKeyReq ++ .proceed :: promptly .pinCodeReq ++
    .proceed :: promptly .linkKeyNotify ++
    [.proceed, .proceed, .advance 1000000, .pollTimesOut, .proceed, .proceed]

end Blts.Bluetooth
