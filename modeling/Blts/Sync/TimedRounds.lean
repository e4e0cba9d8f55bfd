import Blts.Lib.Count
import Blts.Sync.LockSteps

/-!
# Timed rounds that fail

A client whose wait fails in `barrier_sync_to` takes `sync_mutex` again, empties
both signals of the barrier and clears `active`.  The others may still be on
their way through the round: one may collect the arrivals that were posted before
that, and then post a departure token for every client of the barrier, whether it
still waits or not.

Nothing is left behind where the tokens are posted for clients that wait
(`ReleasesWaiting`): as long as nobody is about to reset the barrier and nobody
collects, there are not more tokens than clients that wait for one.
-/

namespace Blts.Sync

open Blts.Lib

variable {n : Nat}

/-! ## The roles in a round -/

/-- What a client does in a round of a barrier. -/
inductive RoundRole where
  /-- It has not read `active`, or has left `barrier_sync_to`. -/
  | out
  /-- It has found the barrier active, and is to post its arrival. -/
  | coming
  /-- It is the first one, and is to wait for `i` arrivals. -/
  | collecting (i : Int)
  | departing
  | released
  /-- A wait has failed, and it is to reset the barrier. -/
  | failed
  deriving DecidableEq

/-- The role in the round of the barrier of `u` is none in those of another. -/
def BarrierCall.roleAt (u : BarrierCall) (b : Nat) (role : RoundRole) : RoundRole :=
  if u.barrier = b then role else .out

def ProcessPlace.role (b : Nat) : ProcessPlace → RoundRole
  | .mutexUnlock (.enter u none) | .syncRelease u none | .arriving u => u.roleAt b .coming
  | .mutexUnlock (.enter u (some i)) | .syncRelease u (some i) | .collecting u i =>
      u.roleAt b (.collecting i)
  | .mutexLock (.release u) | .mutexHeld (.release u) => u.roleAt b (.collecting 0)
  | .departing u => u.roleAt b .departing
  | .mutexUnlock (.release u) => u.roleAt b .released
  | .relock u ret | .leaving u ret => u.roleAt b (if ret = 0 then .released else .failed)
  | _ => .out

/-- The next step posts the departure tokens of barrier `b`. -/
def ProcessPlace.releases (b : Nat) : ProcessPlace → Bool
  | .mutexHeld (.release u) => u.barrier == b
  | _ => false

/-- The next step resets barrier `b`. -/
def ProcessPlace.clears (b : Nat) : ProcessPlace → Bool
  | .leaving u ret => u.barrier == b && ret != 0
  | _ => false

/-- The call under way is one of a timed barrier. -/
def ProcessPlace.timed : ProcessPlace → Bool
  | .outside | .syncUnlock _ => true
  | .syncLock (.sync _ timed) | .locked (.sync _ timed) => timed
  | .mutexLock (.enter u) | .mutexHeld (.enter u) | .mutexUnlock (.enter u _) => u.timed
  | .mutexLock (.release u) | .mutexHeld (.release u) | .mutexUnlock (.release u) => u.timed
  | .syncRelease u _ | .collecting u _ | .arriving u | .departing u => u.timed
  | .relock u _ | .leaving u _ => u.timed
  | _ => false

def Action.timed : Action → Bool
  | .call (.sync _ timed) => timed
  | .call (.tags _) => false
  | .proceed | .fail _ => true

def RoundRole.collects : RoundRole → Bool
  | .collecting _ => true
  | _ => false

def Process.Collects (b : Nat) (p : Process) : Prop :=
  (p.place.role b).collects = true

def Process.Departs (b : Nat) (p : Process) : Prop :=
  p.place.role b = .departing

def Process.Failed (b : Nat) (p : Process) : Prop :=
  p.place.role b = .failed

/-- The client has come to the barrier and has not been released. -/
def Process.Waits (b : Nat) (p : Process) : Prop :=
  p.place.role b = .departing ∨ p.place.role b = .failed

instance (b : Nat) : DecidablePred (Process.Collects b) :=
  fun p => inferInstanceAs (Decidable ((p.place.role b).collects = true))

instance (b : Nat) : DecidablePred (Process.Departs b) :=
  fun p => inferInstanceAs (Decidable (p.place.role b = .departing))

instance (b : Nat) : DecidablePred (Process.Failed b) :=
  fun p => inferInstanceAs (Decidable (p.place.role b = .failed))

instance (b : Nat) : DecidablePred (Process.Waits b) :=
  fun p => inferInstanceAs
    (Decidable (p.place.role b = .departing ∨ p.place.role b = .failed))

/-! ## What is claimed of a barrier -/

/-- The barrier is as before its first round. -/
def TaggedBarrierEntry.Quiescent (e : TaggedBarrierEntry) : Prop :=
  e.active = false ∧ e.barrierArriveSignal = 0 ∧ e.barrierDepartSignal = 0

/-- No client is in a call, and barrier `b` is quiescent. -/
structure SyncProcesses.AtRest (b : Nat) (s : SyncProcesses n) : Prop where
  outside : ∀ c, (s.processes c).place = .outside
  quiescent : (s.shared.barriers b).Quiescent

/-- Nobody has been released from barrier `b` or can be, and when a client is
about to post the departure tokens everybody else has arrived. -/
structure SyncProcesses.Holds (b : Nat) (s : SyncProcesses n) : Prop where
  tokens : (s.shared.barriers b).barrierDepartSignal = 0
  held : ∀ c, (s.processes c).place.role b ≠ .released
  complete : ∀ c, (s.processes c).place.releases b = true →
    ∀ d, d ≠ c → (s.processes d).Waits b

/-- The departure tokens are posted for clients that wait, unless somebody is
about to reset the barrier or another client collects the arrivals. -/
def ReleasesWaiting (b : Nat) (s : SyncProcesses n) (e : Fin n × Action) : Prop :=
  match e.2 with
  | .proceed => (s.processes e.1).place.releases b = true →
      0 < countOf (Process.Failed b) s.processes ∨
      1 < countOf (Process.Collects b) s.processes ∨
      (s.shared.barriers b).barrierArriveSignal + (s.shared.barriers b).barrierDepartSignal +
        ((s.shared.barriers b).refcount - 1) ≤ countOf (Process.Departs b) s.processes
  | _ => True

/-- The round of barrier `b` goes on: the step neither posts its departure tokens
nor resets it. -/
def RoundGoesOn (b : Nat) (s : SyncProcesses n) (e : Fin n × Action) : Prop :=
  match e.2 with
  | .proceed => (s.processes e.1).place.releases b = false ∧
      (s.processes e.1).place.clears b = false
  | _ => True

instance (b : Nat) (s : SyncProcesses n) (e : Fin n × Action) :
    Decidable (ReleasesWaiting b s e) := by
  unfold ReleasesWaiting
  cases e.2 <;> infer_instance

instance (b : Nat) (s : SyncProcesses n) (e : Fin n × Action) :
    Decidable (RoundGoesOn b s e) := by
  unfold RoundGoesOn
  cases e.2 <;> infer_instance

/-! ## What a step does to a round -/

/-- What a step of a client does to barrier `b` and to the role of the client. -/
inductive RoundEffect (b : Nat) (a : Action) (e e' : TaggedBarrierEntry)
    (place place' : ProcessPlace) : Prop
  | keep (entry : e' = e) (after : place'.role b = place.role b)
  | join (entry : e' = e) (up : e.active = true) (before : place.role b = .out)
      (after : place'.role b = .coming)
  | enter (entry : e' = { e with active := true }) (down : e.active = false)
      (before : place.role b = .out)
      (after : place'.role b = .collecting ((e.refcount : Int) - 1))
  | collect (i : Int) (positive : 0 < e.barrierArriveSignal)
      (entry : e' = { e with barrierArriveSignal := e.barrierArriveSignal - 1 })
      (before : place.role b = .collecting i) (after : place'.role b = .collecting (i - 1))
  | arrive (entry : e' = { e with barrierArriveSignal := e.barrierArriveSignal + 1 })
      (before : place.role b = .coming) (after : place'.role b = .departing)
  | depart (positive : 0 < e.barrierDepartSignal)
      (entry : e' = { e with barrierDepartSignal := e.barrierDepartSignal - 1 })
      (before : place.role b = .departing) (after : place'.role b = .released)
  | release (action : a = .proceed) (now : place.releases b = true)
      (entry : e' = { e with
        barrierDepartSignal := e.barrierDepartSignal + (e.refcount - 1)
        active := false })
      (before : place.role b = .collecting 0) (after : place'.role b = .released)
  | leave (entry : e' = e) (before : place.role b = .released)
      (after : place'.role b = .out)
  | reset (action : a = .proceed) (now : place.clears b = true)
      (entry : e' = { e with
        barrierArriveSignal := 0
        barrierDepartSignal := 0
        active := false })
      (before : place.role b = .failed) (after : place'.role b = .out)
  | fail (entry : e' = e)
      (before : place.role b = .out ∨ (place.role b).collects = true ∨
        place.role b = .departing)
      (after : place'.role b = .failed)

theorem BarrierCall.roleAt_self (u : BarrierCall) (role : RoundRole) :
    u.roleAt u.barrier role = role :=
  if_pos rfl

theorem BarrierCall.roleAt_other {u : BarrierCall} {b : Nat} (hb : u.barrier ≠ b)
    (role : RoundRole) : u.roleAt b role = .out :=
  if_neg hb

theorem setBarrier_self (m : SharedData) (b : Nat) (e : TaggedBarrierEntry) :
    (m.setBarrier b e).barriers b = e := by
  show Function.update m.barriers b e b = e
  rw [Function.update_self]

theorem setBarrier_other {m : SharedData} {a b : Nat} (hb : a ≠ b)
    (e : TaggedBarrierEntry) : (m.setBarrier a e).barriers b = m.barriers b := by
  show Function.update m.barriers a e b = m.barriers b
  rw [Function.update_of_ne (Ne.symm hb)]

/-- An API call that is no tag call goes on to the barrier, if there is one. -/
theorem dispatch_timed (m : SharedData) (call : SyncCall) (timed : Bool) (b : Nat) :
    (dispatch m (.sync call timed)).1 = m ∧
      (dispatch m (.sync call timed)).2.role b = .out ∧
      (timed = true → (dispatch m (.sync call timed)).2.timed = true) := by
  simp only [dispatch]
  split
  · exact ⟨rfl, rfl, fun h => h⟩
  · exact ⟨rfl, rfl, fun _ => rfl⟩

section

variable {m m' : SharedData} {p p' : Process} {b : Nat}

/-- A step that changes only the barrier of its call is looked at for that barrier. -/
theorem BarrierCall.round_own {u : BarrierCall} {a : Action} {e : TaggedBarrierEntry}
    {place place' : ProcessPlace} {role role' : RoundRole}
    (hrole : ∀ b, place.role b = u.roleAt b role) (hrole' : ∀ b, place'.role b = u.roleAt b role')
    (hown : RoundEffect u.barrier a (m.barriers u.barrier) e place place') :
    RoundEffect b a (m.barriers b) ((m.setBarrier u.barrier e).barriers b) place place' := by
  by_cases hb : u.barrier = b
  · subst hb
    rw [setBarrier_self]
    exact hown
  · refine .keep (setBarrier_other hb _) ?_
    rw [hrole, hrole', u.roleAt_other hb, u.roleAt_other hb]

/-- The sections under a barrier mutex. -/
theorem underMutex_round {use : MutexUse} {exit : MutexExit}
    (htimed : (ProcessPlace.mutexHeld use).timed = true)
    (h : underMutex m use = some (m', exit)) :
    (ProcessPlace.mutexUnlock exit).timed = true ∧
      RoundEffect b .proceed (m.barriers b) (m'.barriers b) (.mutexHeld use)
        (.mutexUnlock exit) := by
  cases use with
  | ref a => cases htimed
  | enter u =>
      simp only [underMutex] at h
      by_cases hb : u.barrier = b
      · subst hb
        split at h
        case isTrue hactive =>
          cases h
          exact ⟨htimed, .join rfl hactive rfl (u.roleAt_self _)⟩
        case isFalse hactive =>
          cases h
          exact ⟨htimed, .enter (setBarrier_self ..) (Bool.eq_false_iff.mpr hactive) rfl
            (u.roleAt_self _)⟩
      · split at h
        · cases h
          exact ⟨htimed, .keep rfl (u.roleAt_other hb _)⟩
        · cases h
          exact ⟨htimed, .keep (setBarrier_other hb _) (u.roleAt_other hb _)⟩
  | release u =>
      simp only [underMutex] at h
      split at h
      · cases h
      · cases h
        exact ⟨htimed, u.round_own (fun _ => rfl) (fun _ => rfl)
          (.release rfl (beq_self_eq_true u.barrier) rfl (u.roleAt_self _) (u.roleAt_self _))⟩

/-- A step without a failing wait. -/
theorem proceed_round (htimed : p.place.timed = true) (h : proceed m p = some (m', p')) :
    p'.place.timed = true ∧
      RoundEffect b .proceed (m.barriers b) (m'.barriers b) p.place p'.place := by
  cases hplace : p.place with
  | outside =>
      simp only [proceed, hplace] at h
      cases h
  | syncLock call =>
      simp only [proceed, hplace] at h
      rw [hplace] at htimed
      split at h
      · cases h
        cases call with
        | tags call => cases htimed
        | sync call timed => exact ⟨htimed, .keep rfl rfl⟩
      · cases h
  | locked call =>
      simp only [proceed, hplace] at h
      rw [hplace] at htimed
      cases h
      cases call with
      | tags call => cases htimed
      | sync call timed =>
          obtain ⟨hshared, hrole, hnext⟩ := dispatch_timed m call timed b
          exact ⟨hnext htimed, .keep (by rw [hshared]) hrole⟩
  | initialising a tag =>
      rw [hplace] at htimed
      cases htimed
  | mutexLock use =>
      simp only [proceed, hplace] at h
      rw [hplace] at htimed
      split at h
      · cases h
        cases use with
        | ref a => cases htimed
        | enter u => exact ⟨htimed, .keep rfl rfl⟩
        | release u => exact ⟨htimed, .keep rfl rfl⟩
      · cases h
  | mutexHeld use =>
      simp only [proceed, hplace] at h
      rw [hplace] at htimed
      obtain ⟨⟨m₁, exit⟩, hunder, h⟩ := Option.map_eq_some_iff.mp h
      cases h
      exact underMutex_round htimed hunder
  | mutexUnlock exit =>
      simp only [proceed, hplace] at h
      rw [hplace] at htimed
      cases h
      cases exit with
      | ref a => cases htimed
      | enter u first => cases first <;> exact ⟨htimed, .keep rfl rfl⟩
      | release u => exact ⟨htimed, .keep rfl rfl⟩
  | syncRelease u first =>
      simp only [proceed, hplace] at h
      rw [hplace] at htimed
      cases h
      cases first <;> exact ⟨htimed, .keep rfl rfl⟩
  | collecting u i =>
      simp only [proceed, hplace] at h
      rw [hplace] at htimed
      split at h
      case isTrue hi =>
        cases h
        exact ⟨htimed, .keep rfl (by rw [hi]; rfl)⟩
      case isFalse hi =>
        split at h
        case isTrue hpos =>
          cases h
          exact ⟨htimed, u.round_own (fun _ => rfl) (fun _ => rfl)
            (.collect i hpos rfl (u.roleAt_self _) (u.roleAt_self _))⟩
        case isFalse => cases h
  | arriving u =>
      simp only [proceed, hplace] at h
      rw [hplace] at htimed
      cases h
      exact ⟨htimed, u.round_own (fun _ => rfl) (fun _ => rfl)
        (.arrive rfl (u.roleAt_self _) (u.roleAt_self _))⟩
  | departing u =>
      simp only [proceed, hplace] at h
      rw [hplace] at htimed
      split at h
      case isTrue hpos =>
        cases h
        exact ⟨htimed, u.round_own (fun _ => rfl) (fun _ => rfl)
          (.depart hpos rfl (u.roleAt_self _) (u.roleAt_self _))⟩
      case isFalse => cases h
  | relock u ret =>
      simp only [proceed, hplace] at h
      rw [hplace] at htimed
      split at h
      · cases h
        exact ⟨htimed, .keep rfl rfl⟩
      · cases h
  | leaving u ret =>
      simp only [proceed, hplace] at h
      rw [hplace] at htimed
      have hu : u.timed = true := htimed
      cases h
      refine ⟨rfl, ?_⟩
      by_cases hb : u.barrier = b
      · subst hb
        by_cases hret : ret = 0
        · rw [if_neg (fun hreset => hreset.2 hret)]
          exact .leave rfl ((u.roleAt_self _).trans (if_pos hret)) rfl
        · rw [if_pos ⟨hu, hret⟩]
          have hnow : (ProcessPlace.leaving u ret).clears u.barrier = true := by
            simp [ProcessPlace.clears, hret]
          exact .reset rfl hnow (setBarrier_self ..)
            ((u.roleAt_self _).trans (if_neg hret)) rfl
      · refine .keep ?_ (u.roleAt_other hb _).symm
        split
        · exact setBarrier_other hb _
        · rfl
  | syncUnlock ret =>
      simp only [proceed, hplace] at h
      cases h
      exact ⟨rfl, .keep rfl rfl⟩

/-- The wait of a timed call fails: the client leaves the round it is in. -/
theorem fail_role {u : BarrierCall} {err : WaitError} {next place : ProcessPlace}
    (htimed : u.timed = true) (h : u.fail err next = some place) :
    place.timed = true ∧ place.role b = u.roleAt b .failed := by
  have herr : -err.errno ≠ 0 := by cases err <;> decide
  rw [u.fail_eq_some h, if_pos htimed]
  refine ⟨htimed, ?_⟩
  show u.roleAt b (if -err.errno = 0 then .released else .failed) = u.roleAt b .failed
  rw [if_neg herr]

/-- A failing wait. -/
theorem failWait_round {err : WaitError} (e : TaggedBarrierEntry)
    (htimed : p.place.timed = true) (h : failWait err p = some p') :
    p'.place.timed = true ∧ RoundEffect b (.fail err) e e p.place p'.place := by
  have hfail (u : BarrierCall) (next : ProcessPlace) {role : RoundRole}
      (hu : u.timed = true) (hplace : p.place.role b = u.roleAt b role)
      (hrole : role = .out ∨ role.collects = true ∨ role = .departing)
      (h : (u.fail err next).map p.moveTo = some p') :
      p'.place.timed = true ∧ RoundEffect b (.fail err) e e p.place p'.place := by
    obtain ⟨place, hnext, rfl⟩ := Option.map_eq_some_iff.mp h
    obtain ⟨hplaced, hfailed⟩ := fail_role (b := b) hu hnext
    refine ⟨hplaced, ?_⟩
    by_cases hb : u.barrier = b
    · subst hb
      rw [u.roleAt_self] at hplace hfailed
      exact .fail rfl (hplace ▸ hrole) hfailed
    · rw [u.roleAt_other hb] at hplace hfailed
      exact .keep rfl (hfailed.trans hplace.symm)
  unfold failWait at h
  split at h
  case h_1 call hplace =>
    rw [hplace] at htimed ⊢
    split at h <;> cases h
    cases call with
    | tags call => cases htimed
    | sync call timed => exact ⟨htimed, .keep rfl rfl⟩
  case h_2 u ret hplace =>
    rw [hplace] at htimed ⊢
    split at h <;> cases h
    exact ⟨htimed, .keep rfl rfl⟩
  case h_3 a hplace =>
    rw [hplace] at htimed
    cases htimed
  case h_4 u hplace =>
    have hout : u.roleAt b .out = .out := ite_self RoundRole.out
    rw [hplace] at htimed
    exact hfail u _ htimed (by rw [hplace, hout]; rfl) (.inl rfl) h
  case h_5 u hplace =>
    rw [hplace] at htimed
    exact hfail u _ htimed (by rw [hplace]; rfl) (.inr (.inl rfl)) h
  case h_6 u i hplace =>
    split at h
    · cases h
    · rw [hplace] at htimed
      exact hfail u _ htimed (by rw [hplace]; rfl) (.inr (.inl rfl)) h
  case h_7 u hplace =>
    rw [hplace] at htimed
    exact hfail u _ htimed (by rw [hplace]; rfl) (.inr (.inr rfl)) h
  case h_8 => cases h

/-- **What a step does to a round**, where all calls are timed. -/
theorem act_round {a : Action} (htimed : p.place.timed = true) (ha : a.timed = true)
    (h : act m p a = some (m', p')) :
    p'.place.timed = true ∧
      RoundEffect b a (m.barriers b) (m'.barriers b) p.place p'.place := by
  cases a with
  | call call =>
      simp only [act] at h
      split at h
      case h_1 hplace =>
        cases h
        rw [hplace]
        cases call with
        | tags call => cases ha
        | sync call timed => exact ⟨ha, .keep rfl rfl⟩
      case h_2 => cases h
  | proceed => exact proceed_round htimed h
  | fail err =>
      obtain ⟨q, hfail, hq⟩ := Option.map_eq_some_iff.mp h
      cases hq
      exact failWait_round (m.barriers b) htimed hfail

end

/-! ## Rounds that fail -/

/-- What is left of a round is reset, collected or waited for. -/
structure RoundsInv (b : Nat) (s : SyncProcesses n) : Prop where
  timed : ∀ c, (s.processes c).place.timed = true
  tokens : 0 < countOf (Process.Failed b) s.processes ∨
    0 < countOf (Process.Collects b) s.processes ∨
    (s.shared.barriers b).barrierArriveSignal + (s.shared.barriers b).barrierDepartSignal ≤
      countOf (Process.Departs b) s.processes
  active : (s.shared.barriers b).active = true →
    0 < countOf (Process.Failed b) s.processes ∨ 0 < countOf (Process.Collects b) s.processes

theorem SyncProcesses.AtRest.roundsInv {b : Nat} {s : SyncProcesses n} (h : s.AtRest b) :
    RoundsInv b s := by
  obtain ⟨hdown, harrive, hdepart⟩ := h.quiescent
  constructor
  case timed =>
    intro c
    rw [h.outside c]
    rfl
  case tokens =>
    rw [harrive, hdepart]
    exact .inr (.inr (Nat.zero_le _))
  case active =>
    rw [hdown]
    exact fun h => (by cases h)

/-- What a timed step of a client does. -/
theorem interleavings_round {s s' : SyncProcesses n} {c : Fin n} {a : Action} {b : Nat}
    (htimed : ∀ c, (s.processes c).place.timed = true) (ha : a.timed = true)
    (hstep : (interleavings n).step s (c, a) = some s') :
    (∀ d, (s'.processes d).place.timed = true) ∧
      ∃ p, s'.processes = Function.update s.processes c p ∧
        RoundEffect b a (s.shared.barriers b) (s'.shared.barriers b)
          (s.processes c).place p.place := by
  obtain ⟨m, p, hact, rfl⟩ := interleavings_step hstep
  obtain ⟨hp, heffect⟩ := act_round (b := b) (htimed c) ha hact
  refine ⟨fun d => ?_, p, rfl, heffect⟩
  show (Function.update s.processes c p d).place.timed = true
  by_cases hd : d = c
  · rw [hd, Function.update_self]
    exact hp
  · rw [Function.update_of_ne hd]
    exact htimed d

/-- **The step lemma** for rounds that fail. -/
theorem RoundsInv.step {b : Nat} {s s' : SyncProcesses n} {e : Fin n × Action}
    (h : RoundsInv b s) (ha : e.2.timed = true) (hwaiting : ReleasesWaiting b s e)
    (hstep : (interleavings n).step s e = some s') : RoundsInv b s' := by
  obtain ⟨c, a⟩ := e
  obtain ⟨htimed, p, hprocesses, heffect⟩ := interleavings_round (b := b) h.timed ha hstep
  have hfailed := countOf_update (Process.Failed b) s.processes c p
  have hcollects := countOf_update (Process.Collects b) s.processes c p
  have hdeparts := countOf_update (Process.Departs b) s.processes c p
  have htokens := h.tokens
  have hactive := h.active
  rw [← hprocesses] at hfailed hcollects hdeparts
  simp only [Process.Failed, Process.Collects, Process.Departs] at hfailed hcollects hdeparts
  suffices hkept : (0 < countOf (Process.Failed b) s'.processes ∨
        0 < countOf (Process.Collects b) s'.processes ∨
        (s'.shared.barriers b).barrierArriveSignal +
          (s'.shared.barriers b).barrierDepartSignal ≤
            countOf (Process.Departs b) s'.processes) ∧
      ((s'.shared.barriers b).active = true → 0 < countOf (Process.Failed b) s'.processes ∨
        0 < countOf (Process.Collects b) s'.processes) from
    ⟨htimed, hkept.1, hkept.2⟩
  cases heffect with
  | keep hentry hafter =>
      have hf : countOf (Process.Failed b) s'.processes =
          countOf (Process.Failed b) s.processes := by
        rw [hprocesses]
        exact countOf_update_same (by rw [Process.Failed, Process.Failed, hafter])
      have hc : countOf (Process.Collects b) s'.processes =
          countOf (Process.Collects b) s.processes := by
        rw [hprocesses]
        exact countOf_update_same (by rw [Process.Collects, Process.Collects, hafter])
      have hd : countOf (Process.Departs b) s'.processes =
          countOf (Process.Departs b) s.processes := by
        rw [hprocesses]
        exact countOf_update_same (by rw [Process.Departs, Process.Departs, hafter])
      rw [hentry, hf, hc, hd]
      exact ⟨htokens, hactive⟩
  | join hentry _ hbefore hafter =>
      simp only [hbefore, hafter, reduceCtorEq, RoundRole.collects, if_false]
        at hfailed hcollects hdeparts
      rw [hentry]
      refine ⟨by omega, fun hup => ?_⟩
      have hold := hactive hup
      omega
  | enter hentry _ hbefore hafter =>
      simp only [hbefore, hafter, reduceCtorEq, RoundRole.collects, if_false, if_true] at hcollects
      exact ⟨.inr (.inl (by omega)), fun _ => .inr (by omega)⟩
  | collect i hpos hentry hbefore hafter =>
      simp only [hbefore, hafter, reduceCtorEq, RoundRole.collects, if_false, if_true]
        at hfailed hcollects hdeparts
      rw [hentry]
      dsimp only
      refine ⟨by omega, fun hup => ?_⟩
      have hold := hactive hup
      omega
  | arrive hentry hbefore hafter =>
      simp only [hbefore, hafter, reduceCtorEq, RoundRole.collects, if_false, if_true]
        at hfailed hcollects hdeparts
      rw [hentry]
      dsimp only
      refine ⟨by omega, fun hup => ?_⟩
      have hold := hactive hup
      omega
  | depart hpos hentry hbefore hafter =>
      simp only [hbefore, hafter, reduceCtorEq, RoundRole.collects, if_false, if_true]
        at hfailed hcollects hdeparts
      rw [hentry]
      dsimp only
      refine ⟨by omega, fun hup => ?_⟩
      have hold := hactive hup
      omega
  | release ha' hnow hentry hbefore hafter =>
      subst ha'
      have hw := hwaiting hnow
      simp only [hbefore, hafter, reduceCtorEq, RoundRole.collects, if_false, if_true]
        at hfailed hcollects hdeparts
      rw [hentry]
      dsimp only
      exact ⟨by omega, fun h => (by cases h)⟩
  | leave hentry hbefore hafter =>
      simp only [hbefore, hafter, reduceCtorEq, RoundRole.collects, if_false]
        at hfailed hcollects hdeparts
      rw [hentry]
      refine ⟨by omega, fun hup => ?_⟩
      have hold := hactive hup
      omega
  | reset ha' hnow hentry hbefore hafter =>
      rw [hentry]
      exact ⟨.inr (.inr (Nat.zero_le _)), fun h => (by cases h)⟩
  | fail hentry hbefore hafter =>
      have hfail : 0 < countOf (Process.Failed b) s'.processes := by
        rw [hprocesses]
        exact countOf_pos (i := c) (by rw [Function.update_self]; exact hafter)
      exact ⟨.inl hfail, fun _ => .inl hfail⟩

/-! ## A round after them -/

/-- Barrier `b` in a round that began when it was quiescent: at most one client
collects, and the arrivals it does not wait for any more have come from clients
that have not gone on. -/
structure RoundUnderWay (b : Nat) (s : SyncProcesses n) : Prop where
  timed : ∀ c, (s.processes c).place.timed = true
  tokens : (s.shared.barriers b).barrierDepartSignal = 0
  held : ∀ c, (s.processes c).place.role b ≠ .released
  coming : ∀ c, (s.processes c).place.role b = .coming → (s.shared.barriers b).active = true
  idle : (s.shared.barriers b).active = false →
    countOf (Process.Collects b) s.processes = 0 ∧
      (s.shared.barriers b).barrierArriveSignal = 0
  collectors : countOf (Process.Collects b) s.processes ≤ 1
  arrivals : ∀ c i, (s.processes c).place.role b = .collecting i →
    ((s.shared.barriers b).barrierArriveSignal : Int) +
      ((s.shared.barriers b).refcount - 1 - i) ≤ countOf (Process.Waits b) s.processes

/-- Nobody collects in a quiescent barrier that nobody takes part in. -/
theorem RoundUnderWay.ofQuiescent {b : Nat} {s : SyncProcesses n}
    (htimed : ∀ c, (s.processes c).place.timed = true)
    (hreturned : ∀ c, (s.processes c).place.role b = .out)
    (hquiescent : (s.shared.barriers b).Quiescent) : RoundUnderWay b s := by
  obtain ⟨hdown, harrive, hdepart⟩ := hquiescent
  have hcollects : countOf (Process.Collects b) s.processes = 0 :=
    countOf_eq_zero.mpr fun c hc => by
      rw [Process.Collects, hreturned c] at hc
      cases hc
  constructor
  case timed => exact htimed
  case tokens => exact hdepart
  case held =>
    intro c hc
    rw [hreturned c] at hc
    cases hc
  case coming =>
    intro c hc
    rw [hreturned c] at hc
    cases hc
  case idle => exact fun _ => ⟨hcollects, harrive⟩
  case collectors => omega
  case arrivals =>
    intro c i hc
    rw [hreturned c] at hc
    cases hc

theorem RoundUnderWay.holds {b : Nat} {s : SyncProcesses n} (h : RoundUnderWay b s)
    (hcount : (s.shared.barriers b).refcount = n) : s.Holds b := by
  refine ⟨h.tokens, h.held, fun c hc => ?_⟩
  have hrole : (s.processes c).place.role b = .collecting 0 := by
    cases hplace : (s.processes c).place with
    | mutexHeld use =>
        rw [hplace] at hc
        cases use with
        | ref a => cases hc
        | enter u => cases hc
        | release u => exact if_pos (beq_iff_eq.mp hc)
    | _ =>
        rw [hplace] at hc
        cases hc
  have hnot : ¬ (s.processes c).Waits b := by
    rw [Process.Waits, hrole]
    exact fun h => h.elim (fun h => (by cases h)) (fun h => (by cases h))
  have harrivals := h.arrivals c 0 hrole
  rw [hcount] at harrivals
  apply forall_of_countOf hnot
  rw [Fintype.card_fin]
  omega

/-- What the step of client `c` is to keep of the round: the arrivals do not grow
by more than the clients that wait. -/
structure RoundKept (b : Nat) (s s' : SyncProcesses n) (p : Process) : Prop where
  refcount : (s'.shared.barriers b).refcount = (s.shared.barriers b).refcount
  tokens : (s'.shared.barriers b).barrierDepartSignal = 0
  held : p.place.role b ≠ .released
  up : (s.shared.barriers b).active = true → (s'.shared.barriers b).active = true
  coming : p.place.role b = .coming → (s'.shared.barriers b).active = true
  idle : (s'.shared.barriers b).active = false →
    countOf (Process.Collects b) s'.processes = 0 ∧
      (s'.shared.barriers b).barrierArriveSignal = 0
  collectors : countOf (Process.Collects b) s'.processes ≤ 1
  waits : (s'.shared.barriers b).barrierArriveSignal + countOf (Process.Waits b) s.processes ≤
    (s.shared.barriers b).barrierArriveSignal + countOf (Process.Waits b) s'.processes
  arrivals : ∀ i, p.place.role b = .collecting i →
    ((s'.shared.barriers b).barrierArriveSignal : Int) +
      ((s.shared.barriers b).refcount - 1 - i) ≤ countOf (Process.Waits b) s'.processes

theorem RoundKept.underWay {b : Nat} {s s' : SyncProcesses n} {c : Fin n} {p : Process}
    (h : RoundUnderWay b s) (hkept : RoundKept b s s' p)
    (hprocesses : s'.processes = Function.update s.processes c p)
    (htimed : ∀ d, (s'.processes d).place.timed = true) : RoundUnderWay b s' := by
  refine ⟨htimed, hkept.tokens, fun d => ?_, fun d hrole => ?_, hkept.idle, hkept.collectors,
    fun d i => ?_⟩
  · rw [hprocesses]
    by_cases hd : d = c
    · rw [hd, Function.update_self]
      exact hkept.held
    · rw [Function.update_of_ne hd]
      exact h.held d
  · by_cases hd : d = c
    · rw [hprocesses, hd, Function.update_self] at hrole
      exact hkept.coming hrole
    · rw [hprocesses, Function.update_of_ne hd] at hrole
      exact hkept.up (h.coming d hrole)
  · rw [hkept.refcount]
    intro hrole
    by_cases hd : d = c
    · rw [hprocesses, hd, Function.update_self] at hrole
      exact hkept.arrivals i hrole
    · rw [hprocesses, Function.update_of_ne hd] at hrole
      have hold := h.arrivals d i hrole
      have hwaits := hkept.waits
      omega

section

variable {b : Nat} {s s' : SyncProcesses n} {c : Fin n} {p : Process}

/-- The step of a client changes the counts by its own role only. -/
theorem countOf_roles (hprocesses : s'.processes = Function.update s.processes c p) :
    countOf (Process.Collects b) s'.processes +
        (if ((s.processes c).place.role b).collects = true then 1 else 0) =
      countOf (Process.Collects b) s.processes +
        (if (p.place.role b).collects = true then 1 else 0) ∧
    countOf (Process.Waits b) s'.processes +
        (if (s.processes c).place.role b = .departing ∨
          (s.processes c).place.role b = .failed then 1 else 0) =
      countOf (Process.Waits b) s.processes +
        (if p.place.role b = .departing ∨ p.place.role b = .failed then 1 else 0) := by
  have hcollects := countOf_update (Process.Collects b) s.processes c p
  have hwaits := countOf_update (Process.Waits b) s.processes c p
  rw [← hprocesses] at hcollects hwaits
  simp only [Process.Collects, Process.Waits] at hcollects hwaits
  exact ⟨hcollects, hwaits⟩

theorem RoundUnderWay.kept_keep (h : RoundUnderWay b s)
    (hprocesses : s'.processes = Function.update s.processes c p)
    (hentry : s'.shared.barriers b = s.shared.barriers b)
    (hafter : p.place.role b = (s.processes c).place.role b) : RoundKept b s s' p := by
  have hc : countOf (Process.Collects b) s'.processes =
      countOf (Process.Collects b) s.processes := by
    rw [hprocesses]
    exact countOf_update_same (by rw [Process.Collects, Process.Collects, hafter])
  have hw : countOf (Process.Waits b) s'.processes =
      countOf (Process.Waits b) s.processes := by
    rw [hprocesses]
    exact countOf_update_same (by rw [Process.Waits, Process.Waits, hafter])
  constructor
  case refcount => rw [hentry]
  case tokens => rw [hentry, h.tokens]
  case held =>
    rw [hafter]
    exact h.held c
  case up =>
    rw [hentry]
    exact fun hup => hup
  case coming =>
    rw [hentry, hafter]
    exact h.coming c
  case idle =>
    rw [hentry, hc]
    exact h.idle
  case collectors =>
    rw [hc]
    exact h.collectors
  case waits => rw [hentry, hw]
  case arrivals =>
    intro i hrole
    rw [hentry, hw]
    exact h.arrivals c i (hafter ▸ hrole)

theorem RoundUnderWay.kept_join (h : RoundUnderWay b s)
    (hprocesses : s'.processes = Function.update s.processes c p)
    (hentry : s'.shared.barriers b = s.shared.barriers b)
    (hup : (s.shared.barriers b).active = true) (hbefore : (s.processes c).place.role b = .out)
    (hafter : p.place.role b = .coming) : RoundKept b s s' p := by
  obtain ⟨hcollects, hwaits⟩ := countOf_roles (b := b) hprocesses
  simp only [hbefore, hafter, reduceCtorEq, RoundRole.collects, or_self, if_false]
    at hcollects hwaits
  have hone := h.collectors
  constructor
  case refcount => rw [hentry]
  case tokens => rw [hentry, h.tokens]
  case held => rw [hafter]; exact fun h => (by cases h)
  case up => rw [hentry]; exact fun hup => hup
  case coming => rw [hentry]; exact fun _ => hup
  case idle => rw [hentry, hup]; exact fun h => (by cases h)
  case collectors => omega
  case waits => rw [hentry]; omega
  case arrivals =>
    intro i hrole
    rw [hafter] at hrole
    cases hrole

theorem RoundUnderWay.kept_enter (h : RoundUnderWay b s)
    (hprocesses : s'.processes = Function.update s.processes c p)
    (hentry : s'.shared.barriers b = { s.shared.barriers b with active := true })
    (hdown : (s.shared.barriers b).active = false)
    (hbefore : (s.processes c).place.role b = .out)
    (hafter : p.place.role b = .collecting (((s.shared.barriers b).refcount : Int) - 1)) :
    RoundKept b s s' p := by
  obtain ⟨hcollects, hwaits⟩ := countOf_roles (b := b) hprocesses
  simp only [hbefore, hafter, reduceCtorEq, RoundRole.collects, or_self, if_false, if_true]
    at hcollects hwaits
  obtain ⟨hnone, harrive⟩ := h.idle hdown
  constructor
  case refcount => rw [hentry]
  case tokens => rw [hentry]; exact h.tokens
  case held => rw [hafter]; exact fun h => (by cases h)
  case up => rw [hentry]; exact fun _ => rfl
  case coming => rw [hentry]; exact fun _ => rfl
  case idle => rw [hentry]; exact fun h => (by cases h)
  case collectors => omega
  case waits => rw [hentry]; dsimp only; omega
  case arrivals =>
    intro i hrole
    rw [hafter] at hrole
    cases hrole
    rw [hentry]
    dsimp only
    omega

theorem RoundUnderWay.kept_collect (h : RoundUnderWay b s)
    (hprocesses : s'.processes = Function.update s.processes c p) (i : Int)
    (hpos : 0 < (s.shared.barriers b).barrierArriveSignal)
    (hentry : s'.shared.barriers b = { s.shared.barriers b with
      barrierArriveSignal := (s.shared.barriers b).barrierArriveSignal - 1 })
    (hbefore : (s.processes c).place.role b = .collecting i)
    (hafter : p.place.role b = .collecting (i - 1)) : RoundKept b s s' p := by
  obtain ⟨hcollects, hwaits⟩ := countOf_roles (b := b) hprocesses
  simp only [hbefore, hafter, reduceCtorEq, RoundRole.collects, or_self, if_false, if_true]
    at hcollects hwaits
  have hone := h.collectors
  constructor
  case refcount => rw [hentry]
  case tokens => rw [hentry]; exact h.tokens
  case held => rw [hafter]; exact fun h => (by cases h)
  case up => rw [hentry]; exact fun hup => hup
  case coming => rw [hafter]; exact fun h => (by cases h)
  case idle =>
    intro hdown
    rw [hentry] at hdown
    have hnone := (h.idle hdown).2
    omega
  case collectors => omega
  case waits => rw [hentry]; dsimp only; omega
  case arrivals =>
    intro j hrole
    have hold := h.arrivals c i hbefore
    rw [hafter] at hrole
    cases hrole
    rw [hentry]
    dsimp only
    omega

theorem RoundUnderWay.kept_arrive (h : RoundUnderWay b s)
    (hprocesses : s'.processes = Function.update s.processes c p)
    (hentry : s'.shared.barriers b = { s.shared.barriers b with
      barrierArriveSignal := (s.shared.barriers b).barrierArriveSignal + 1 })
    (hbefore : (s.processes c).place.role b = .coming)
    (hafter : p.place.role b = .departing) : RoundKept b s s' p := by
  obtain ⟨hcollects, hwaits⟩ := countOf_roles (b := b) hprocesses
  simp only [hbefore, hafter, reduceCtorEq, RoundRole.collects, or_self, or_false, if_false,
    if_true] at hcollects hwaits
  have hone := h.collectors
  have hup := h.coming c hbefore
  constructor
  case refcount => rw [hentry]
  case tokens => rw [hentry]; exact h.tokens
  case held => rw [hafter]; exact fun h => (by cases h)
  case up => rw [hentry]; exact fun hup => hup
  case coming => rw [hafter]; exact fun h => (by cases h)
  case idle => rw [hentry, hup]; exact fun h => (by cases h)
  case collectors => omega
  case waits => rw [hentry]; dsimp only; omega
  case arrivals =>
    intro i hrole
    rw [hafter] at hrole
    cases hrole

theorem RoundUnderWay.kept_fail (h : RoundUnderWay b s)
    (hprocesses : s'.processes = Function.update s.processes c p)
    (hentry : s'.shared.barriers b = s.shared.barriers b) (hafter : p.place.role b = .failed) :
    RoundKept b s s' p := by
  obtain ⟨hcollects, -⟩ := countOf_roles (b := b) hprocesses
  have hone := h.collectors
  have hc : countOf (Process.Collects b) s'.processes ≤
      countOf (Process.Collects b) s.processes := by
    simp only [hafter, RoundRole.collects, Bool.false_eq_true, if_false] at hcollects
    omega
  have hw : countOf (Process.Waits b) s.processes ≤
      countOf (Process.Waits b) s'.processes := by
    rw [hprocesses]
    exact countOf_le_update (.inr hafter)
  constructor
  case refcount => rw [hentry]
  case tokens => rw [hentry, h.tokens]
  case held => rw [hafter]; exact fun h => (by cases h)
  case up => rw [hentry]; exact fun hup => hup
  case coming => rw [hafter]; exact fun h => (by cases h)
  case idle =>
    intro hdown
    rw [hentry] at hdown ⊢
    have hold := h.idle hdown
    omega
  case collectors => omega
  case waits => rw [hentry]; omega
  case arrivals =>
    intro i hrole
    rw [hafter] at hrole
    cases hrole

end

/-- **The step lemma** for a round that goes on. -/
theorem RoundUnderWay.step {b : Nat} {s s' : SyncProcesses n} {e : Fin n × Action}
    (h : RoundUnderWay b s) (ha : e.2.timed = true) (hgoes : RoundGoesOn b s e)
    (hstep : (interleavings n).step s e = some s') :
    RoundUnderWay b s' ∧
      (s'.shared.barriers b).refcount = (s.shared.barriers b).refcount := by
  obtain ⟨c, a⟩ := e
  obtain ⟨htimed, p, hprocesses, heffect⟩ := interleavings_round (b := b) h.timed ha hstep
  suffices hkept : RoundKept b s s' p from ⟨hkept.underWay h hprocesses htimed, hkept.refcount⟩
  cases heffect with
  | keep hentry hafter => exact h.kept_keep hprocesses hentry hafter
  | join hentry hup hbefore hafter => exact h.kept_join hprocesses hentry hup hbefore hafter
  | enter hentry hdown hbefore hafter =>
      exact h.kept_enter hprocesses hentry hdown hbefore hafter
  | collect i hpos hentry hbefore hafter =>
      exact h.kept_collect hprocesses i hpos hentry hbefore hafter
  | arrive hentry hbefore hafter => exact h.kept_arrive hprocesses hentry hbefore hafter
  | depart hpos =>
      have htokens := h.tokens
      omega
  | release ha' hnow =>
      -- the tokens are not posted while the round goes on
      subst ha'
      rw [hgoes.1] at hnow
      cases hnow
  | leave hentry hbefore => exact absurd hbefore (h.held c)
  | reset ha' hnow =>
      subst ha'
      rw [hgoes.2] at hnow
      cases hnow
  | fail hentry hbefore hafter => exact h.kept_fail hprocesses hentry hafter

/-! ## Runs -/

/-- Client `c` begins a round of the anonymous barrier and fails to see anybody
arrive. -/
def lonelyRound (c : Fin n) : List (Fin n × Action) :=
  (c, .call (.sync .anon true)) :: List.replicate 6 (c, .proceed) ++
    (c, .fail .etimedout) :: List.replicate 3 (c, .proceed)

theorem start_atRest (clientCount : Nat) : (SyncProcesses.start n clientCount).AtRest 0 :=
  ⟨fun _ => rfl, rfl, rfl, rfl⟩

/-- No call is under way. -/
def ProcessPlace.isOutside : ProcessPlace → Bool
  | .outside => true
  | _ => false

theorem ProcessPlace.isOutside_iff {place : ProcessPlace} :
    place.isOutside = true ↔ place = .outside := by
  cases place <;> simp [ProcessPlace.isOutside]

/-- Client `c` begins a round of the anonymous barrier and collects the arrival of
`d`, which then fails and resets the barrier; `c` posts a departure token for it
afterwards. -/
def lateRelease (c d : Fin n) : List (Fin n × Action) :=
  (c, .call (.sync .anon true)) :: List.replicate 6 (c, .proceed) ++
    (d, .call (.sync .anon true)) :: List.replicate 7 (d, .proceed) ++
    List.replicate 2 (c, .proceed) ++
    (d, .fail .etimedout) :: List.replicate 3 (d, .proceed) ++
    List.replicate 6 (c, .proceed)

end Blts.Sync
