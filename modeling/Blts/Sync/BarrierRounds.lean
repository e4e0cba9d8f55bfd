import Blts.Lib.Count
import Blts.Sync.Barrier

/-!
# Rounds of the cyclic barrier

A client that comes back for its next round may overtake a client that still
waits for the departure token of this one: both wait on the same semaphore, so
the newcomer can take the token meant for the other (`tokenTheft`).  What the
barrier promises therefore depends on one thing, that no departure token goes
to a client of a later round while one of an earlier round waits
(`NoOvertaking`).

The proof follows the rounds with a number `R`, the rounds completed so far.
`Client.Placed` says what a client's place tells about its two counters, and
`RoundInv` ties the two semaphores to the number of clients that wait.
`RoundInv` survives every step that meets `NoOvertaking`, and it puts `R`
between everything returned and everything entered.  The condition is as weak
as it can be: the client that overtakes only has to return for the rounds to
come apart (`overtaking_breaks_rounds`).

With at most two clients the condition is automatic, so two clients never see
the defect (`rounds_of_two`).
-/

namespace Blts.Sync

open Blts.Lib

variable {n : Nat}

/-- No client has returned from more calls than every client has entered. -/
def RoundsRespected (s : SyncState n) : Prop :=
  ∀ c d, (s.clients c).returned ≤ (s.clients d).entered

/-! ## What the small updates do -/

namespace SyncState

@[simp] theorem setClient_barriers (s : SyncState n) (c : Fin n) (k : Client) :
    (s.setClient c k).barriers = s.barriers := rfl

@[simp] theorem setClient_clients (s : SyncState n) (c : Fin n) (k : Client) :
    (s.setClient c k).clients = Function.update s.clients c k := rfl

@[simp] theorem moveTo_barriers (s : SyncState n) (c : Fin n)
    (p : ClientPlace) : (s.moveTo c p).barriers = s.barriers := rfl

@[simp] theorem moveTo_clients (s : SyncState n) (c : Fin n)
    (p : ClientPlace) : (s.moveTo c p).clients =
      Function.update s.clients c { s.clients c with place := p } := rfl

@[simp] theorem setBarrier_clients (s : SyncState n) (b : Nat)
    (e : TaggedBarrierEntry) : (s.setBarrier b e).clients = s.clients := rfl

@[simp] theorem setBarrier_self (s : SyncState n) (b : Nat)
    (e : TaggedBarrierEntry) : (s.setBarrier b e).barriers b = e := by
  simp [setBarrier]

end SyncState

/-! ## The round invariant -/

namespace Client

/-- Waiting for the departure token of its `k`-th round. -/
def Awaits (k : Nat) (c : Client) : Prop :=
  c.place = .departing ∧ c.entered = k

instance (k : Nat) : DecidablePred (Awaits k) := fun c =>
  inferInstanceAs (Decidable (c.place = .departing ∧ c.entered = k))

/-- The place is one of the collecting ones. -/
def Collects (c : Client) : Prop :=
  match c.place with
  | .collecting _ => True
  | _ => False

instance : DecidablePred Collects := fun c => by
  unfold Collects
  cases c.place <;> infer_instance

/-- The counters a client can have in its place, `R` rounds being complete. -/
def Placed (n R : Nat) (active : Bool) (c : Client) : Prop :=
  match c.place with
  | .outside => c.entered = R ∧ c.returned = R
  | .collecting i => active = true ∧ i < n ∧ c.entered = R + 1 ∧ c.returned = R
  | .arriving => active = true ∧ c.entered = R + 1 ∧ c.returned = R
  | .departing => c.returned + 1 = c.entered ∧
      (c.entered = R ∨ c.entered = R + 1 ∧ active = true)
  | .leaving => c.entered = R ∧ c.returned + 1 = R

/-- Whatever its place, a client has returned from at most the rounds that
are complete and has entered all of them. -/
theorem Placed.between {R : Nat} {active : Bool} {c : Client}
    (h : c.Placed n R active) : c.returned ≤ R ∧ R ≤ c.entered := by
  cases hplace : c.place <;> simp only [Placed, hplace] at h <;> omega

/-- Raising the flag disturbs nobody. -/
theorem Placed.raise {R : Nat} {active active' : Bool} {c : Client}
    (h : c.Placed n R active) (hactive : active' = true) :
    c.Placed n R active' := by
  cases hplace : c.place <;>
    simp only [Placed, hplace, hactive, and_true, true_and] at h ⊢ <;> omega

end Client

/-- The shared entry `e` of a barrier and its clients, `R` rounds being
complete. -/
structure RoundInv (R : Nat) (e : TaggedBarrierEntry)
    (clients : Fin n → Client) : Prop where
  refcount : e.refcount = n
  placed : ∀ c, (clients c).Placed n R e.active
  collectors : countOf Client.Collects clients = if e.active then 1 else 0
  departures : e.barrierDepartSignal = countOf (Client.Awaits R) clients
  arrivals : ∀ c i, (clients c).place = .collecting i →
    e.barrierArriveSignal + (n - 1 - i) =
      countOf (Client.Awaits (R + 1)) clients
  idle : e.active = false → e.barrierArriveSignal = 0

namespace RoundInv

variable {R : Nat} {e : TaggedBarrierEntry} {clients : Fin n → Client}

/-- With the flag down nobody waits for the departure of a round that has not
been completed. -/
theorem no_awaits_of_inactive (h : RoundInv R e clients)
    (hactive : e.active = false) :
    countOf (Client.Awaits (R + 1)) clients = 0 := by
  refine countOf_eq_zero.mpr fun c ⟨hplace, hentered⟩ => ?_
  have hplaced := h.placed c
  simp only [Client.Placed, hplace, hactive, Bool.false_eq_true, and_false,
    or_false] at hplaced
  omega

/-- There is at most one collector. -/
theorem collector_unique (h : RoundInv R e clients) {c d : Fin n}
    (hc : (clients c).Collects) (hd : (clients d).Collects) : c = d := by
  refine eq_of_countOf_le_one ?_ hc hd
  rw [h.collectors]
  split <;> omega

/-- When the collector has taken its last token everybody else waits for the
departure of the round. -/
theorem others_await (h : RoundInv R e clients) {c : Fin n}
    (hc : (clients c).place = .collecting 0) :
    e.barrierArriveSignal = 0 ∧
      countOf (Client.Awaits (R + 1)) clients = n - 1 ∧
      ∀ d, d ≠ c → (clients d).Awaits (R + 1) := by
  have hnot : ¬ (clients c).Awaits (R + 1) := by
    rintro ⟨hplace, -⟩
    rw [hc] at hplace
    contradiction
  have hlt := countOf_lt_card hnot
  have harr := h.arrivals c 0 hc
  rw [Fintype.card_fin] at hlt
  refine ⟨by omega, by omega, forall_of_countOf hnot ?_⟩
  rw [Fintype.card_fin]
  omega

/-! ## One lemma for each step -/

/-- A client joins a round under way. -/
theorem enter_follower (h : RoundInv R e clients) {c : Fin n}
    (hc : (clients c).place = .outside) (hactive : e.active = true) :
    RoundInv R e (Function.update clients c { clients c with
      place := .arriving, entered := (clients c).entered + 1 }) := by
  have hplaced := h.placed c
  simp only [Client.Placed, hc] at hplaced
  have hawaits (k : Nat) : countOf (Client.Awaits k)
      (Function.update clients c { clients c with
        place := .arriving, entered := (clients c).entered + 1 }) =
      countOf (Client.Awaits k) clients :=
    countOf_update_same (by simp [Client.Awaits, hc])
  constructor
  case refcount => exact h.refcount
  case placed =>
    intro d
    rcases eq_or_ne d c with rfl | hd
    · simp [Client.Placed, hactive, hplaced]
    · simpa [hd] using h.placed d
  case collectors =>
    rw [countOf_update_same (by simp [Client.Collects, hc])]
    exact h.collectors
  case departures => rw [hawaits]; exact h.departures
  case arrivals =>
    intro d i hi
    rw [hawaits]
    rcases eq_or_ne d c with rfl | hd
    · simp at hi
    · exact h.arrivals d i (by simpa [hd] using hi)
  case idle => exact h.idle

/-- A client opens a round and becomes its collector. -/
theorem enter_collector (h : RoundInv R e clients) {c : Fin n}
    (hc : (clients c).place = .outside) (hactive : e.active = false) :
    RoundInv R { e with active := true } (Function.update clients c
      { clients c with
        place := .collecting (e.refcount - 1)
        entered := (clients c).entered + 1 }) := by
  have hplaced := h.placed c
  simp only [Client.Placed, hc] at hplaced
  have hpos := c.pos
  have hnone := h.collectors
  rw [hactive, if_neg (by decide), countOf_eq_zero] at hnone
  have hawaits (k : Nat) : countOf (Client.Awaits k)
      (Function.update clients c { clients c with
        place := .collecting (e.refcount - 1)
        entered := (clients c).entered + 1 }) =
      countOf (Client.Awaits k) clients :=
    countOf_update_same (by simp [Client.Awaits, hc])
  constructor
  case refcount => exact h.refcount
  case placed =>
    intro d
    rcases eq_or_ne d c with rfl | hd
    · simp [Client.Placed, hplaced, h.refcount]
      omega
    · simpa [hd] using (h.placed d).raise rfl
  case collectors =>
    rw [countOf_update_add (by simp [Client.Collects, hc])
      (by simp [Client.Collects]), countOf_eq_zero.mpr hnone, if_pos rfl]
  case departures => rw [hawaits]; exact h.departures
  case arrivals =>
    intro d i hi
    rw [hawaits, h.no_awaits_of_inactive hactive, h.idle hactive]
    rcases eq_or_ne d c with rfl | hd
    · obtain rfl : e.refcount - 1 = i := by simpa using hi
      rw [h.refcount]
      omega
    · rw [Function.update_of_ne hd] at hi
      exact absurd (by simp [Client.Collects, hi]) (hnone d)
  case idle => simp

/-- The collector takes an arrival token. -/
theorem collect (h : RoundInv R e clients) {c : Fin n} {i : Nat}
    (hc : (clients c).place = .collecting (i + 1))
    (hpos : 0 < e.barrierArriveSignal) :
    RoundInv R
      { e with barrierArriveSignal := e.barrierArriveSignal - 1 }
      (Function.update clients c
        { clients c with place := .collecting i }) := by
  have hplaced := h.placed c
  simp only [Client.Placed, hc] at hplaced
  have harr := h.arrivals c _ hc
  have hawaits (k : Nat) : countOf (Client.Awaits k)
      (Function.update clients c { clients c with place := .collecting i }) =
      countOf (Client.Awaits k) clients :=
    countOf_update_same (by simp [Client.Awaits, hc])
  constructor
  case refcount => exact h.refcount
  case placed =>
    intro d
    rcases eq_or_ne d c with rfl | hd
    · simp [Client.Placed, hplaced]
      omega
    · simpa [hd] using h.placed d
  case collectors =>
    rw [countOf_update_same (by simp [Client.Collects, hc])]
    exact h.collectors
  case departures => rw [hawaits]; exact h.departures
  case arrivals =>
    intro d j hj
    rw [hawaits]
    rcases eq_or_ne d c with rfl | hd
    · obtain rfl : i = j := by simpa using hj
      change e.barrierArriveSignal - 1 + (n - 1 - i) = _
      omega
    · rw [Function.update_of_ne hd] at hj
      refine absurd (h.collector_unique ?_ ?_) hd <;>
        simp [Client.Collects, hj, hc]
  case idle =>
    intro hactive
    simp [hplaced.1] at hactive

/-- The collector completes the round: one departure token for everybody
else, who all wait for it. -/
theorem release (h : RoundInv R e clients) {c : Fin n}
    (hc : (clients c).place = .collecting 0) :
    RoundInv (R + 1)
      { e with
        barrierDepartSignal := e.barrierDepartSignal + (e.refcount - 1)
        active := false }
      (Function.update clients c { clients c with place := .leaving }) := by
  have hplaced := h.placed c
  simp only [Client.Placed, hc] at hplaced
  obtain ⟨harrive, hcount, hothers⟩ := h.others_await hc
  have hdepart : e.barrierDepartSignal = 0 := by
    rw [h.departures, countOf_eq_zero]
    intro d hd
    rcases eq_or_ne d c with rfl | hdc
    · rw [Client.Awaits, hc] at hd
      exact absurd hd.1 (by simp)
    · have := (hothers d hdc).2
      have := hd.2
      omega
  constructor
  case refcount => exact h.refcount
  case placed =>
    intro d
    rcases eq_or_ne d c with rfl | hd
    · simp [Client.Placed, hplaced]
    · have hd' := h.placed d
      obtain ⟨hplace, hentered⟩ := hothers d hd
      rw [Function.update_of_ne hd]
      simp only [Client.Placed, hplace] at hd' ⊢
      exact ⟨hd'.1, .inl hentered⟩
  case collectors =>
    have hsub := countOf_update_sub (p := Client.Collects) (f := clients)
      (c := c) (a := { clients c with place := .leaving })
      (by simp [Client.Collects, hc]) (by simp [Client.Collects])
    rw [h.collectors, if_pos hplaced.1] at hsub
    simpa using hsub
  case departures =>
    rw [countOf_update_same (by simp [Client.Awaits, hc]), hcount, hdepart,
      h.refcount, Nat.zero_add]
  case arrivals =>
    intro d i hi
    rcases eq_or_ne d c with rfl | hd
    · simp at hi
    · rw [Function.update_of_ne hd, (hothers d hd).1] at hi
      contradiction
  case idle => exact fun _ => harrive

/-- A follower reports its arrival. -/
theorem arrive (h : RoundInv R e clients) {c : Fin n}
    (hc : (clients c).place = .arriving) :
    RoundInv R
      { e with barrierArriveSignal := e.barrierArriveSignal + 1 }
      (Function.update clients c { clients c with place := .departing }) := by
  have hplaced := h.placed c
  simp only [Client.Placed, hc] at hplaced
  constructor
  case refcount => exact h.refcount
  case placed =>
    intro d
    rcases eq_or_ne d c with rfl | hd
    · simp [Client.Placed, hplaced]
    · simpa [hd] using h.placed d
  case collectors =>
    rw [countOf_update_same (by simp [Client.Collects, hc])]
    exact h.collectors
  case departures =>
    rw [countOf_update_same (by simp [Client.Awaits, hc, hplaced])]
    exact h.departures
  case arrivals =>
    intro d i hi
    rw [countOf_update_add (by simp [Client.Awaits, hc])
      (by simp [Client.Awaits, hplaced])]
    rcases eq_or_ne d c with rfl | hd
    · simp at hi
    · have harr := h.arrivals d i (by simpa [hd] using hi)
      change e.barrierArriveSignal + 1 + (n - 1 - i) = _
      omega
  case idle =>
    intro hactive
    simp [hplaced.1] at hactive

/-- A follower takes a departure token.  Since nobody of an earlier round
waits, it belongs to the round the token was posted for. -/
theorem depart (h : RoundInv R e clients) {c : Fin n}
    (hc : (clients c).place = .departing) (hpos : 0 < e.barrierDepartSignal)
    (hfirst : ∀ d, (clients d).place = .departing →
      (clients c).entered ≤ (clients d).entered) :
    RoundInv R
      { e with barrierDepartSignal := e.barrierDepartSignal - 1 }
      (Function.update clients c { clients c with place := .leaving }) := by
  have hplaced := h.placed c
  simp only [Client.Placed, hc] at hplaced
  have hentered : (clients c).entered = R := by
    rw [h.departures] at hpos
    obtain ⟨d, hd, hR⟩ := exists_of_countOf_pos hpos
    have := hfirst d hd
    omega
  have hawaits : countOf (Client.Awaits (R + 1))
      (Function.update clients c { clients c with place := .leaving }) =
      countOf (Client.Awaits (R + 1)) clients :=
    countOf_update_same (by simp [Client.Awaits, hentered])
  constructor
  case refcount => exact h.refcount
  case placed =>
    intro d
    rcases eq_or_ne d c with rfl | hd
    · simp [Client.Placed, hentered]
      omega
    · simpa [hd] using h.placed d
  case collectors =>
    rw [countOf_update_same (by simp [Client.Collects, hc])]
    exact h.collectors
  case departures =>
    have hsub := countOf_update_sub (p := Client.Awaits R) (f := clients)
      (c := c) (a := { clients c with place := .leaving })
      ⟨hc, hentered⟩ (by simp [Client.Awaits])
    have hdep := h.departures
    change e.barrierDepartSignal - 1 = _
    omega
  case arrivals =>
    intro d i hi
    rw [hawaits]
    rcases eq_or_ne d c with rfl | hd
    · simp at hi
    · exact h.arrivals d i (by simpa [hd] using hi)
  case idle => exact h.idle

/-- A client returns. -/
theorem leave (h : RoundInv R e clients) {c : Fin n}
    (hc : (clients c).place = .leaving) :
    RoundInv R e (Function.update clients c { clients c with
      place := .outside, returned := (clients c).returned + 1 }) := by
  have hplaced := h.placed c
  simp only [Client.Placed, hc] at hplaced
  have hawaits (k : Nat) : countOf (Client.Awaits k)
      (Function.update clients c { clients c with
        place := .outside, returned := (clients c).returned + 1 }) =
      countOf (Client.Awaits k) clients :=
    countOf_update_same (by simp [Client.Awaits, hc])
  constructor
  case refcount => exact h.refcount
  case placed =>
    intro d
    rcases eq_or_ne d c with rfl | hd
    · simp [Client.Placed, hplaced]
    · simpa [hd] using h.placed d
  case collectors =>
    rw [countOf_update_same (by simp [Client.Collects, hc])]
    exact h.collectors
  case departures => rw [hawaits]; exact h.departures
  case arrivals =>
    intro d i hi
    rw [hawaits]
    rcases eq_or_ne d c with rfl | hd
    · simp at hi
    · exact h.arrivals d i (by simpa [hd] using hi)
  case idle => exact h.idle

end RoundInv

/-! ## Runs -/

/-- The invariant of a state, for some number of complete rounds. -/
def InRounds (b : Nat) (s : SyncState n) : Prop :=
  ∃ R, RoundInv R (s.barriers b) s.clients

theorem InRounds.respected {b : Nat} {s : SyncState n} (h : InRounds b s) :
    RoundsRespected s := by
  obtain ⟨R, h⟩ := h
  exact fun c d => (h.placed c).between.1.trans (h.placed d).between.2

theorem Quiescent.inRounds {b : Nat} {s : SyncState n} (h : Quiescent b s) :
    InRounds b s := by
  refine ⟨0, ?_⟩
  have hnone (p : Client → Prop) [DecidablePred p]
      (hp : ¬ p { place := .outside, entered := 0, returned := 0 }) :
      countOf p s.clients = 0 :=
    countOf_eq_zero.mpr fun c => by rwa [h.clients c]
  constructor
  case refcount => exact h.refcount
  case placed => intro c; simp [h.clients c, Client.Placed]
  case collectors =>
    rw [hnone _ (by simp [Client.Collects]), h.active, if_neg (by decide)]
  case departures => rw [h.depart, hnone _ (by simp [Client.Awaits])]
  case arrivals => intro c i hi; simp [h.clients c] at hi
  case idle => exact fun _ => h.arrive

/-- Every step that meets the condition keeps the rounds apart. -/
theorem inRounds_step {b : Nat} {s s' : SyncState n} {e : SyncEvent n}
    (h : InRounds b s) (hK : NoOvertaking s e)
    (hstep : barrierStep b s e = some s') : InRounds b s' := by
  obtain ⟨R, h⟩ := h
  cases e with
  | enter c call =>
      simp only [barrierStep, SyncState.enterBarrier] at hstep
      split at hstep
      next hc =>
        split at hstep
        next hactive =>
          cases hstep
          exact ⟨R, h.enter_follower hc.1 hactive⟩
        next hactive =>
          cases hstep
          refine ⟨R, ?_⟩
          simpa using h.enter_collector hc.1 (by simpa using hactive)
      next => contradiction
  | collect c =>
      simp only [barrierStep] at hstep
      split at hstep
      next i hc =>
        split at hstep
        next hpos =>
          cases hstep
          exact ⟨R, by simpa using h.collect hc hpos⟩
        next => contradiction
      next => contradiction
  | release c =>
      simp only [barrierStep] at hstep
      split at hstep
      next hc =>
        cases hstep
        exact ⟨R + 1, by simpa using h.release hc⟩
      next => contradiction
  | arrive c =>
      simp only [barrierStep] at hstep
      split at hstep
      next hc =>
        cases hstep
        exact ⟨R, by simpa using h.arrive hc⟩
      next => contradiction
  | depart c =>
      simp only [barrierStep] at hstep
      split at hstep
      next hc =>
        cases hstep
        exact ⟨R, by simpa using h.depart hc.1 hc.2 hK⟩
      next => contradiction
  | leave c =>
      simp only [barrierStep] at hstep
      split at hstep
      next hc =>
        cases hstep
        exact ⟨R, by simpa using h.leave hc⟩
      next => contradiction

/-- Overtaking takes at least three clients: the one that waits, the one that
takes its token and the collector of the new round. -/
theorem noOvertaking_of_two {b : Nat} {s s' : SyncState n} {e : SyncEvent n}
    (hn : n ≤ 2) (h : InRounds b s) (hstep : barrierStep b s e = some s') :
    NoOvertaking s e := by
  obtain ⟨R, h⟩ := h
  cases e with
  | depart c =>
      simp only [barrierStep] at hstep
      split at hstep
      next hc =>
        intro d hd
        by_contra hlt
        have hplacedc := h.placed c
        have hplacedd := h.placed d
        simp only [Client.Placed, hc.1, hd] at hplacedc hplacedd
        have hactive : (s.barriers b).active = true := by
          rcases hplacedc.2 with hold | ⟨-, hactive⟩
          · omega
          · exact hactive
        have hcollects := h.collectors
        rw [if_pos hactive] at hcollects
        obtain ⟨k, hk⟩ := exists_of_countOf_pos
          (hcollects ▸ Nat.one_pos : 0 < countOf Client.Collects s.clients)
        have hcd : c ≠ d := by rintro rfl; exact hlt le_rfl
        have hck : c ≠ k := by
          rintro rfl
          simp [Client.Collects, hc.1] at hk
        have hdk : d ≠ k := by
          rintro rfl
          simp [Client.Collects, hd] at hk
        omega
      next => contradiction
  | enter | collect | release | arrive | leave => trivial

/-- A client that overtakes breaks the rounds as soon as it returns. -/
theorem overtaking_breaks_rounds {b : Nat} {s s' : SyncState n} {c : Fin n}
    (h : InRounds b s) (hstep : barrierStep b s (.depart c) = some s')
    (hnot : ¬ NoOvertaking s (.depart c)) :
    ∃ t, barrierStep b s' (.leave c) = some t ∧ ¬ RoundsRespected t := by
  obtain ⟨R, h⟩ := h
  simp only [barrierStep] at hstep
  split at hstep
  next hc =>
    cases hstep
    simp only [NoOvertaking, not_forall, not_le] at hnot
    obtain ⟨d, -, hlt⟩ := hnot
    have hplaced := h.placed c
    simp only [Client.Placed, hc.1] at hplaced
    have hcd : d ≠ c := by rintro rfl; exact lt_irrefl _ hlt
    refine ⟨_, by simp [barrierStep]; rfl, fun hrounds => ?_⟩
    have hle := hrounds c d
    simp [hcd] at hle
    omega
  next => contradiction

/-- **Rounds are respected while nobody overtakes.**  Whatever the number of
clients and however their steps interleave, if no departure token is taken
from a client of an earlier round, nobody returns from its `k`-th call before
everybody has entered theirs. -/
theorem rounds_of_noOvertaking (n b : Nat) (s t : SyncState n)
    (es : List (SyncEvent n)) (hs : Quiescent b s)
    (hmeets : (barrierSystem n b).Meets (NoOvertaking) s es)
    (hrun : (barrierSystem n b).exec s es = some t) : RoundsRespected t := by
  have hinv := (barrierSystem n b).exec_invariant (InRounds b)
    (fun _ _ _ hi hK hstep => inRounds_step hi hK hstep) es hs.inRounds hmeets
    hrun
  exact hinv.respected

/-- Two clients meet the condition in every run. -/
theorem rounds_of_two (b : Nat) (s t : SyncState n) (es : List (SyncEvent n))
    (hn : n ≤ 2) (hs : Quiescent b s)
    (hrun : (barrierSystem n b).exec s es = some t) : RoundsRespected t := by
  have hmeets := (barrierSystem n b).meets_of_invariant
    (K := NoOvertaking) (InRounds b) (fun _ _ _ hi hK hstep => inRounds_step hi hK hstep)
    (fun _ _ _ hi hstep => noOvertaking_of_two hn hi hstep) es hs.inRounds
  have hinv := (barrierSystem n b).exec_invariant (InRounds b)
    (fun _ _ _ hi hK hstep => inRounds_step hi hK hstep) es hs.inRounds hmeets
    hrun
  exact hinv.respected

/-! ## The token theft -/

/-- Three clients registered on the anonymous barrier. -/
def threeClients : SyncState 3 where
  barriers i :=
    { refcount := if i = 0 then 3 else 0
      active := false
      barrierArriveSignal := 0
      barrierDepartSignal := 0
      tag := [] }
  clients _ := { place := .outside, entered := 0, returned := 0 }

theorem threeClients_quiescent : Quiescent 0 threeClients where
  refcount := rfl
  active := rfl
  arrive := rfl
  depart := rfl
  clients _ := rfl

/-- Client 0 collects round 1, comes back as a follower of the round that
client 1 opens, and takes the departure token client 2 is still waiting for. -/
def tokenTheft : List (SyncEvent 3) :=
  [.enter 0 .anon, .enter 1 .anon, .enter 2 .anon, .arrive 1, .arrive 2,
    .collect 0, .collect 0, .release 0, .depart 1, .leave 1, .leave 0,
    .enter 1 .anon, .enter 0 .anon, .arrive 0, .depart 0, .leave 0]

/-- Client 0 is back from round 2 while client 2 has not left round 1. -/
theorem tokenTheft_breaks_rounds :
    ¬ ∀ t, (barrierSystem 3 0).exec threeClients tokenTheft = some t →
      RoundsRespected t := by
  intro h
  have hrun : ((barrierSystem 3 0).exec threeClients tokenTheft).map
      (fun t => decide ((t.clients 0).returned ≤ (t.clients 2).entered)) =
        some false := by decide
  cases ht : (barrierSystem 3 0).exec threeClients tokenTheft with
  | none => rw [ht] at hrun; contradiction
  | some t =>
      rw [ht] at hrun
      exact absurd (h t ht 0 2) (by simpa using hrun)

/-- A round of three clients that meets the condition. -/
def oneRound : List (SyncEvent 3) :=
  [.enter 0 .anon, .enter 1 .anon, .enter 2 .anon, .arrive 1, .arrive 2,
    .collect 0, .collect 0, .release 0, .depart 1, .leave 1, .leave 0]

/-- The general result on a complete round of three clients. -/
theorem rounds_oneRound :
    ∃ t, (barrierSystem 3 0).exec threeClients oneRound = some t ∧
      RoundsRespected t := by
  obtain ⟨t, ht⟩ := Option.isSome_iff_exists.mp
    (by decide : ((barrierSystem 3 0).exec threeClients oneRound).isSome)
  exact ⟨t, ht, rounds_of_noOvertaking 3 0 threeClients t oneRound
    threeClients_quiescent (by decide) ht⟩

end Blts.Sync
