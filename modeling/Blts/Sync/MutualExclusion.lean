import Blts.Lib.Count
import Blts.Sync.LockSteps

/-!
# Mutual exclusion

The lock helpers take an interrupted wait for a lock.  The process then goes on
without having decremented the semaphore, but increments it when it unlocks.  If
no such wait is interrupted, `sync_mutex` and the number of processes between
`sync_mutex_lock` and `sync_mutex_unlock` make one.

The mutex of a barrier is lost in another way too: `blts_sync_add_tag` may take
the slot of a barrier that has been destroyed while a process was in a section
under its mutex, and sets the mutex up anew.
-/

namespace Blts.Sync

open Blts.Lib

variable {n : Nat}

/-- Between `sync_mutex_lock` and the matching `sync_mutex_unlock`. -/
def Process.Inside (p : Process) : Prop :=
  0 < p.entered

instance : DecidablePred Process.Inside :=
  fun p => inferInstanceAs (Decidable (0 < p.entered))

/-- Between the lock and the unlock of the mutex of barrier `b`. -/
def Process.InMutex (b : Nat) (p : Process) : Prop :=
  p.place.mutexOf = some b

instance (b : Nat) : DecidablePred (Process.InMutex b) :=
  fun p => inferInstanceAs (Decidable (p.place.mutexOf = some b))

/-- Each lock is at most 1, and at most one process is in its section. -/
structure MutuallyExclusive (s : SyncProcesses n) : Prop where
  syncMutex : s.shared.syncMutex ≤ 1
  inside : ∀ c d, (s.processes c).Inside → (s.processes d).Inside → c = d
  mutex : ∀ b, s.shared.mutex b ≤ 1
  inMutex : ∀ b c d, (s.processes c).InMutex b → (s.processes d).InMutex b → c = d

/-- No wait of `sync_mutex_lock` or `barrier_mutex_lock` fails, and no barrier is
set up while a process is in a section under its mutex. -/
def KeepsLocks (s : SyncProcesses n) : Fin n × Action → Prop
  | (c, .fail _) =>
      (s.processes c).place.syncWait = false ∧ (s.processes c).place.mutexWait = false
  | (c, .proceed) =>
      ∀ b ∈ (s.processes c).initialises s.shared, ∀ d, ¬ (s.processes d).InMutex b
  | (_, .call _) => True

instance (s : SyncProcesses n) : (e : Fin n × Action) → Decidable (KeepsLocks s e)
  | (c, .fail _) => inferInstanceAs (Decidable
      ((s.processes c).place.syncWait = false ∧ (s.processes c).place.mutexWait = false))
  | (c, .proceed) => inferInstanceAs (Decidable
      (∀ b ∈ (s.processes c).initialises s.shared, ∀ d, ¬ (s.processes d).InMutex b))
  | (_, .call _) => isTrue trivial

/-- A process has locked `sync_mutex` as often as it is to, or once more where
it is about to lock it. -/
def Process.Counted (p : Process) : Prop :=
  p.place.locks ≤ p.entered ∧ p.entered ≤ 1

/-- The locks and the processes in their sections make one. -/
structure LockInv (s : SyncProcesses n) : Prop where
  counted : ∀ c, (s.processes c).Counted
  sync : s.shared.syncMutex + countOf Process.Inside s.processes = 1
  mutexes : ∀ b, s.shared.mutex b + countOf (Process.InMutex b) s.processes ≤ 1

theorem LockInv.mutuallyExclusive {s : SyncProcesses n} (h : LockInv s) :
    MutuallyExclusive s where
  syncMutex := by
    have hsync := h.sync
    omega
  inside := by
    intro c d hc hd
    have hsync := h.sync
    exact eq_of_countOf_le_one (by omega) hc hd
  mutex := by
    intro b
    have hmutex := h.mutexes b
    omega
  inMutex := by
    intro b c d hc hd
    have hmutex := h.mutexes b
    exact eq_of_countOf_le_one (by omega) hc hd

theorem start_lockInv (clientCount : Nat) : LockInv (.start n clientCount) := by
  constructor
  case counted =>
    intro c
    exact ⟨Int.le_refl 0, Int.zero_le_ofNat 1⟩
  case sync =>
    have hcount : countOf Process.Inside (SyncProcesses.start n clientCount).processes = 0 :=
      countOf_eq_zero.mpr fun c => Int.lt_irrefl 0
    rw [hcount]
    rfl
  case mutexes =>
    intro b
    have hcount : countOf (Process.InMutex b)
        (SyncProcesses.start n clientCount).processes = 0 :=
      countOf_eq_zero.mpr fun c hc => nomatch hc
    rw [hcount]
    show Function.update (fun _ => 0) 0 1 b + 0 ≤ 1
    by_cases hb : b = 0
    · rw [hb, Function.update_self]
    · rw [Function.update_of_ne hb]
      exact Nat.zero_le 1

/-! ## `sync_mutex` -/

/-- What a step of one process does to the sum. -/
def SyncKept (m m' : SharedData) (p p' : Process) : Prop :=
  p'.Counted ∧ m'.syncMutex + (if p'.Inside then 1 else 0) =
    m.syncMutex + (if p.Inside then 1 else 0)

/-- A step without a failing wait: nobody is inside when `sync_mutex` can be
taken. -/
theorem proceed_syncKept {m m' : SharedData} {p p' : Process} (h : p.Counted)
    (hfree : 0 < m.syncMutex → ¬ p.Inside) (hrun : proceed m p = some (m', p')) :
    SyncKept m m' p p' := by
  obtain ⟨hlocks, hone⟩ := h
  cases proceed_sync hrun with
  | keep hshared hentered _ hplace =>
      have hiff : p'.Inside ↔ p.Inside := by rw [Process.Inside, Process.Inside, hentered]
      refine ⟨⟨by omega, by omega⟩, ?_⟩
      simp only [hshared, hiff]
  | take hshared hentered _ hbefore hafter =>
      have hout : ¬ p.Inside := hfree (by omega)
      have hzero : p.entered = 0 := by
        have hle : ¬ 0 < p.entered := hout
        omega
      have hin : p'.Inside := by
        show 0 < p'.entered
        omega
      refine ⟨⟨by omega, by omega⟩, ?_⟩
      rw [if_pos hin, if_neg hout]
      omega
  | post hshared hentered _ hbefore hafter =>
      have hin : p.Inside := by
        show 0 < p.entered
        omega
      have hout : ¬ p'.Inside := by
        show ¬ 0 < p'.entered
        omega
      refine ⟨⟨by omega, by omega⟩, ?_⟩
      rw [if_neg hout, if_pos hin]
      omega

/-- The start of a call. -/
theorem call_syncKept {m m' : SharedData} {p p' : Process} {call : ClientCall}
    (h : p.Counted) (hcall : act m p (.call call) = some (m', p')) :
    SyncKept m m' p p' := by
  obtain ⟨hlocks, hone⟩ := h
  simp only [act] at hcall
  split at hcall
  case h_1 hplace =>
    cases hcall
    rw [hplace] at hlocks
    exact ⟨⟨hlocks, hone⟩, rfl⟩
  case h_2 => cases hcall

/-- A failing wait that is not for `sync_mutex`. -/
theorem fail_syncKept {m : SharedData} {err : WaitError} {p p' : Process} (h : p.Counted)
    (hsync : p.place.syncWait = false) (hfail : failWait err p = some p') :
    SyncKept m m p p' := by
  obtain ⟨hlocks, hone⟩ := h
  have hkept (hentered : p'.entered = p.entered) (hplace : p'.place.locks ≤ p.place.locks) :
      SyncKept m m p p' := by
    have hiff : p'.Inside ↔ p.Inside := by rw [Process.Inside, Process.Inside, hentered]
    refine ⟨⟨by omega, by omega⟩, ?_⟩
    simp only [hiff]
  cases (failWait_sync hfail).1 with
  | keep _ _ hentered hplace => exact hkept hentered (Int.le_of_eq hplace)
  | pass hwait =>
      rw [hsync] at hwait
      cases hwait
  | skip _ hentered hbefore hafter => exact hkept hentered (by omega)

/-! ## The mutexes of the barriers -/

/-- A step that adds nothing to the lock of barrier `b`. -/
def MutexKept (b : Nat) (m m' : SharedData) (p p' : Process) : Prop :=
  m'.mutex b + (if p'.InMutex b then 1 else 0) ≤ m.mutex b + (if p.InMutex b then 1 else 0)

/-- A step without a failing wait, except for setting the barrier up. -/
theorem proceed_mutexKept {m m' : SharedData} {p p' : Process} {b : Nat}
    (hfresh : p.initialises m ≠ some b) (hrun : proceed m p = some (m', p')) :
    MutexKept b m m' p p' := by
  show m'.mutex b + (if p'.place.mutexOf = some b then 1 else 0) ≤
    m.mutex b + (if p.place.mutexOf = some b then 1 else 0)
  cases proceed_mutex hrun with
  | keep hshared hplace => rw [hshared, hplace]
  | destroy b' hshared hbefore hafter =>
      rw [hshared, hbefore, hafter]
      by_cases hb : b = b'
      · simp [hb]
      · simp [Function.update_of_ne hb]
  | init b' hinit hshared hbefore hafter =>
      have hb : b ≠ b' := fun hb => hfresh (hb ▸ hinit)
      rw [hshared, hbefore, hafter, Function.update_of_ne hb]
      simp [Ne.symm hb]
  | take b' hpos hshared hbefore hafter =>
      rw [hshared, hbefore, hafter]
      by_cases hb : b = b'
      · subst hb
        simp only [Function.update_self, reduceCtorEq, if_true, if_false]
        omega
      · simp [Function.update_of_ne hb, Ne.symm hb]
  | post b' hshared hbefore hafter =>
      rw [hshared, hbefore, hafter]
      by_cases hb : b = b'
      · subst hb
        simp
      · simp [Function.update_of_ne hb, Ne.symm hb]

/-- A barrier that is set up has its mutex at 0 first. -/
theorem proceed_init {m m' : SharedData} {p p' : Process} {b : Nat}
    (hfresh : p.initialises m = some b) (hrun : proceed m p = some (m', p')) :
    m'.mutex b = 0 := by
  unfold Process.initialises at hfresh
  split at hfresh
  case h_1 tag hplace =>
    split at hfresh
    case isTrue hfind =>
      simp only [proceed, hplace, dispatch, hfind, hfresh] at hrun
      cases hrun
      exact Function.update_self b 0 m.mutex
    case isFalse => cases hfresh
  case h_2 => cases hfresh

/-- The start of a call. -/
theorem call_mutexKept {m m' : SharedData} {p p' : Process} {call : ClientCall} (b : Nat)
    (hcall : act m p (.call call) = some (m', p')) : MutexKept b m m' p p' := by
  simp only [act] at hcall
  split at hcall
  case h_1 hplace =>
    cases hcall
    have hnone : ¬ p.InMutex b := by
      rw [Process.InMutex, hplace]
      exact fun h => nomatch h
    unfold MutexKept
    rw [if_neg hnone]
    exact Nat.le_refl _
  case h_2 => cases hcall

/-- A failing wait that is not the one of `barrier_mutex_lock`. -/
theorem fail_mutexKept {m : SharedData} {err : WaitError} {p p' : Process} (b : Nat)
    (hwait : p.place.mutexWait = false) (hfail : failWait err p = some p') :
    MutexKept b m m p p' := by
  have hplace := failWait_mutex hfail hwait
  show m.mutex b + (if p'.place.mutexOf = some b then 1 else 0) ≤
    m.mutex b + (if p.place.mutexOf = some b then 1 else 0)
  rw [hplace]

/-! ## Runs -/

/-- **The step lemma**: the locks and the processes in their sections still make
one. -/
theorem lockInv_step {s s' : SyncProcesses n} {e : Fin n × Action} (h : LockInv s)
    (hkeeps : KeepsLocks s e) (hstep : (interleavings n).step s e = some s') :
    LockInv s' := by
  obtain ⟨c, a⟩ := e
  obtain ⟨m, p, hact, rfl⟩ := interleavings_step hstep
  have hfree : 0 < s.shared.syncMutex → ¬ (s.processes c).Inside := by
    intro hpos hin
    have hsync := h.sync
    have hcount := countOf_pos hin
    omega
  have hsync : SyncKept s.shared m (s.processes c) p := by
    cases a with
    | call call => exact call_syncKept (h.counted c) hact
    | proceed => exact proceed_syncKept (h.counted c) hfree hact
    | fail err =>
        obtain ⟨p', hfail, hp⟩ := Option.map_eq_some_iff.mp hact
        cases hp
        exact fail_syncKept (h.counted c) hkeeps.1 hfail
  obtain ⟨hcounted, hsum⟩ := hsync
  constructor
  case counted =>
    intro d
    show (Function.update s.processes c p d).Counted
    by_cases hd : d = c
    · rw [hd, Function.update_self]
      exact hcounted
    · rw [Function.update_of_ne hd]
      exact h.counted d
  case sync =>
    have hold := h.sync
    have hupdate := countOf_update Process.Inside s.processes c p
    show m.syncMutex + countOf Process.Inside (Function.update s.processes c p) = 1
    omega
  case mutexes =>
    intro b
    have hold := h.mutexes b
    have hupdate := countOf_update (Process.InMutex b) s.processes c p
    show m.mutex b + countOf (Process.InMutex b) (Function.update s.processes c p) ≤ 1
    have hkept (hmutex : MutexKept b s.shared m (s.processes c) p) :
        m.mutex b + countOf (Process.InMutex b) (Function.update s.processes c p) ≤ 1 := by
      unfold MutexKept at hmutex
      omega
    cases a with
    | call call => exact hkept (call_mutexKept b hact)
    | fail err =>
        obtain ⟨p', hfail, hp⟩ := Option.map_eq_some_iff.mp hact
        cases hp
        exact hkept (fail_mutexKept b hkeeps.2 hfail)
    | proceed =>
        by_cases hinit : (s.processes c).initialises s.shared = some b
        · -- Nobody has the old mutex, and the new one is 0 until `barrier_init` posts it.
          have hnone := countOf_eq_zero.mpr (hkeeps b hinit)
          have hzero := proceed_init hinit hact
          have hone : (if p.InMutex b then 1 else 0) ≤ 1 := by split <;> omega
          omega
        · exact hkept (proceed_mutexKept hinit hact)

/--
**Mutual exclusion** over all interleavings of any number of processes.  If no
wait for a lock is interrupted where the lock helpers ignore it, and no barrier
is set up while a process is in a section under its mutex, then no lock exceeds
1 and no two processes are in its section.
-/
theorem mutualExclusion (n clientCount : Nat) (es : List (Fin n × Action))
    {s : SyncProcesses n}
    (hkeeps : (interleavings n).Meets KeepsLocks (.start n clientCount) es)
    (hrun : (interleavings n).exec (.start n clientCount) es = some s) :
    MutuallyExclusive s := by
  have hinv : LockInv s := (interleavings n).exec_invariant LockInv
    (fun _ _ _ h hK hstep => lockInv_step h hK hstep) es (start_lockInv clientCount)
    hkeeps hrun
  exact hinv.mutuallyExclusive

/-- Process `c` registers a tag, and `d` waits for `sync_mutex` meanwhile. -/
def addTagAlone (c d : Fin n) : List (Fin n × Action) :=
  [(c, .call (.tags (.addTag "a".toList))), (d, .call (.sync .anon false)),
    (c, .proceed), (c, .proceed), (c, .proceed)]

theorem mutualExclusion_addTag :
    ∃ s, (interleavings 2).exec (.start 2 2) (addTagAlone 0 1) = some s ∧ MutuallyExclusive s := by
  have hsome : ((interleavings 2).exec (.start 2 2) (addTagAlone 0 1)).isSome = true := by
    decide +kernel
  obtain ⟨s, hs⟩ := Option.isSome_iff_exists.mp hsome
  exact ⟨s, hs, mutualExclusion 2 2 (addTagAlone 0 1) (by decide +kernel) hs⟩

/-- The wait of process `d` is interrupted while `c` has `sync_mutex`. -/
def interruptedLock (c d : Fin n) : List (Fin n × Action) :=
  [(c, .call (.tags (.delTag "a".toList))), (c, .proceed),
    (d, .call (.tags (.delTag "a".toList))), (d, .fail .eintr)]

/-- Both processes are inside, and `sync_mutex` is 2 when they have left. -/
theorem interruptedLock_inside :
    (∃ s, (interleavings 2).exec (.start 2 2) (interruptedLock 0 1) = some s ∧
      ¬ MutuallyExclusive s) ∧
    ∃ s, (interleavings 2).exec (.start 2 2) (interruptedLock 0 1 ++
        List.replicate 2 (0, .proceed) ++ List.replicate 2 (1, .proceed)) = some s ∧
      s.shared.syncMutex = 2 := by
  have hrun : ((interleavings 2).exec (.start 2 2) (interruptedLock 0 1)).any (fun s =>
      (s.processes 0).Inside ∧ (s.processes 1).Inside) = true := by
    decide +kernel
  have hleft : ((interleavings 2).exec (.start 2 2) (interruptedLock 0 1 ++
      List.replicate 2 (0, .proceed) ++ List.replicate 2 (1, .proceed))).any
        (fun s => s.shared.syncMutex = 2) = true := by
    decide +kernel
  obtain ⟨s, hs, hinside⟩ := (Option.any_eq_true _ _).mp hrun
  obtain ⟨t, ht, htwo⟩ := (Option.any_eq_true _ _).mp hleft
  obtain ⟨hzero, hone⟩ := of_decide_eq_true hinside
  exact ⟨⟨s, hs, fun h => absurd (h.inside 0 1 hzero hone) (by decide)⟩,
    t, ht, of_decide_eq_true htwo⟩

end Blts.Sync
