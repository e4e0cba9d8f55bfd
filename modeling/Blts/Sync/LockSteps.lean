import Blts.Sync.Mutex

/-!
# What a step does to the locks

A step of a process takes or posts `sync_mutex`, or leaves it alone
(`SyncEffect`); it does one of the same to the mutex of a barrier, or sets it up
or destroys it (`MutexEffect`).
-/

namespace Blts.Sync

/-- How often `sync_mutex` is to be held: once in the sections that start with a
lock, also when `barrier_sync_to` returns; not at all where a process is about to
take it, nor where it waits for the others at a barrier. -/
def ProcessPlace.locks : ProcessPlace → Int
  | .locked _ | .initialising _ _ | .mutexLock (.ref _) | .mutexHeld (.ref _)
  | .mutexUnlock (.ref _) => 1
  | .mutexLock (.enter _) | .mutexHeld (.enter _) | .mutexUnlock (.enter _ _)
  | .syncRelease _ _ => 1
  | .leaving _ _ | .syncUnlock _ => 1
  | .outside | .syncLock _ | .collecting _ _ | .mutexLock (.release _)
  | .mutexHeld (.release _) | .mutexUnlock (.release _) | .arriving _ | .departing _
  | .relock _ _ => 0

/-- The barrier whose mutex the process is to unlock next. -/
def ProcessPlace.mutexOf : ProcessPlace → Option Nat
  | .initialising b _ => some b
  | .mutexHeld use => some use.barrier
  | .mutexUnlock exit => some exit.barrier
  | _ => none

/-- The wait is for `sync_mutex`. -/
def ProcessPlace.syncWait : ProcessPlace → Bool
  | .syncLock _ | .relock _ _ => true
  | _ => false

/-- The wait is the first one of `barrier_sync_to`. -/
def ProcessPlace.firstTimedWait : ProcessPlace → Bool
  | .mutexLock (.enter u) => u.timed
  | _ => false

/-- The wait is that of `barrier_mutex_lock`. -/
def ProcessPlace.mutexWait : ProcessPlace → Bool
  | .mutexLock (.ref _) => true
  | .mutexLock (.enter u) | .mutexLock (.release u) => !u.timed
  | _ => false

/-- The barrier that the next step sets up. -/
def Process.initialises (m : SharedData) (p : Process) : Option Nat :=
  match p.place with
  | .locked (.tags (.addTag tag)) =>
      if findTaggedBarrier m.barriers tag = none then freeBarrier m.barriers else none
  | _ => none

/-- What a step does to `sync_mutex`. -/
inductive SyncEffect (m m' : SharedData) (p p' : Process) : Prop
  | keep (shared : m'.syncMutex = m.syncMutex) (entered : p'.entered = p.entered)
      (held : p'.held = p.held) (place : p'.place.locks = p.place.locks)
  | take (shared : m'.syncMutex + 1 = m.syncMutex) (entered : p'.entered = p.entered + 1)
      (held : p'.held = p.held + 1) (before : p.place.locks = 0)
      (after : p'.place.locks = 1)
  | post (shared : m'.syncMutex = m.syncMutex + 1) (entered : p'.entered = p.entered - 1)
      (held : p'.held = p.held - 1) (before : p.place.locks = 1)
      (after : p'.place.locks = 0)

/-- What a step does to the mutexes of the barriers. -/
inductive MutexEffect (m m' : SharedData) (p p' : Process) : Prop
  | keep (shared : m'.mutex = m.mutex) (place : p'.place.mutexOf = p.place.mutexOf)
  | destroy (b : Nat) (shared : m'.mutex = Function.update m.mutex b 0)
      (before : p.place.mutexOf = none) (after : p'.place.mutexOf = none)
  | init (b : Nat) (fresh : p.initialises m = some b)
      (shared : m'.mutex = Function.update m.mutex b 0)
      (before : p.place.mutexOf = none) (after : p'.place.mutexOf = some b)
  | take (b : Nat) (positive : 0 < m.mutex b)
      (shared : m'.mutex = Function.update m.mutex b (m.mutex b - 1))
      (before : p.place.mutexOf = none) (after : p'.place.mutexOf = some b)
  | post (b : Nat) (shared : m'.mutex = Function.update m.mutex b (m.mutex b + 1))
      (before : p.place.mutexOf = some b) (after : p'.place.mutexOf = none)

/-! ## The code between two operations -/

theorem dispatch_sync (m : SharedData) (call : ClientCall) :
    (dispatch m call).1.syncMutex = m.syncMutex ∧ (dispatch m call).2.locks = 1 := by
  unfold dispatch
  split
  · split
    · exact ⟨rfl, rfl⟩
    · split <;> exact ⟨rfl, rfl⟩
  · dsimp only
    split
    · split <;> exact ⟨rfl, rfl⟩
    · exact ⟨rfl, rfl⟩
  · split <;> exact ⟨rfl, rfl⟩

theorem dispatch_mutex {m : SharedData} {p : Process} {call : ClientCall}
    (hplace : p.place = .locked call) :
    MutexEffect m (dispatch m call).1 p (p.moveTo (dispatch m call).2) := by
  have hnone : p.place.mutexOf = none := by rw [hplace]; rfl
  cases call with
  | tags call =>
      cases call with
      | addTag tag =>
          cases hfind : findTaggedBarrier m.barriers tag with
          | some i =>
              simp only [dispatch, hfind]
              exact .keep rfl hnone.symm
          | none =>
              cases hfree : freeBarrier m.barriers with
              | some i =>
                  have hfresh : p.initialises m = some i := by
                    simp only [Process.initialises, hplace, hfind, hfree, if_true]
                  simp only [dispatch, hfind, hfree]
                  exact .init i hfresh rfl hnone rfl
              | none =>
                  simp only [dispatch, hfind, hfree]
                  exact .keep rfl hnone.symm
      | delTag tag =>
          cases hfind : findTaggedBarrier m.barriers tag with
          | some i =>
              simp only [dispatch, hfind]
              split
              · exact .destroy i rfl hnone rfl
              · exact .keep rfl hnone.symm
          | none =>
              simp only [dispatch, hfind]
              exact .keep rfl hnone.symm
  | sync call timed =>
      simp only [dispatch]
      split <;> exact .keep rfl hnone.symm

/-- The code under a barrier mutex leaves the locks alone. -/
theorem underMutex_locks {m m' : SharedData} {use : MutexUse} {exit : MutexExit}
    (h : underMutex m use = some (m', exit)) :
    (m'.syncMutex = m.syncMutex ∧ m'.mutex = m.mutex) ∧
      (ProcessPlace.mutexUnlock exit).locks = (ProcessPlace.mutexHeld use).locks ∧
        exit.barrier = use.barrier := by
  cases use with
  | ref b =>
      cases h
      exact ⟨⟨rfl, rfl⟩, rfl, rfl⟩
  | enter u =>
      simp only [underMutex] at h
      split at h <;> cases h <;> exact ⟨⟨rfl, rfl⟩, rfl, rfl⟩
  | release u =>
      simp only [underMutex] at h
      split at h
      · cases h
      · cases h
        exact ⟨⟨rfl, rfl⟩, rfl, rfl⟩

theorem mutexLock_locks (use : MutexUse) :
    (ProcessPlace.mutexLock use).locks = (ProcessPlace.mutexHeld use).locks := by
  cases use <;> rfl

theorem MutexExit.next_locks (exit : MutexExit) :
    exit.next.locks = (ProcessPlace.mutexUnlock exit).locks := by
  cases exit <;> rfl

theorem MutexExit.next_mutexOf (exit : MutexExit) : exit.next.mutexOf = none := by
  cases exit <;> rfl

/-! ## The steps -/

section

variable {m m' : SharedData} {p p' : Process}

/-- **`sync_mutex`** in a step without a failing wait. -/
theorem proceed_sync (h : proceed m p = some (m', p')) : SyncEffect m m' p p' := by
  cases hplace : p.place with
  | outside =>
      simp only [proceed, hplace] at h
      cases h
  | syncLock call =>
      simp only [proceed, hplace] at h
      split at h
      case isTrue hpos =>
        cases h
        exact .take (Nat.sub_add_cancel hpos) rfl rfl (hplace ▸ rfl) rfl
      case isFalse => cases h
  | locked call =>
      simp only [proceed, hplace] at h
      cases h
      obtain ⟨hshared, hlocks⟩ := dispatch_sync m call
      exact .keep hshared rfl rfl (hlocks.trans (hplace ▸ rfl))
  | initialising b tag =>
      simp only [proceed, hplace] at h
      cases h
      exact .keep rfl rfl rfl (hplace ▸ rfl)
  | mutexLock use =>
      simp only [proceed, hplace] at h
      split at h
      · cases h
        exact .keep rfl rfl rfl (hplace ▸ (mutexLock_locks use).symm)
      · cases h
  | mutexHeld use =>
      simp only [proceed, hplace] at h
      obtain ⟨⟨m₁, exit⟩, hunder, h⟩ := Option.map_eq_some_iff.mp h
      cases h
      obtain ⟨hshared, hlocks, _⟩ := underMutex_locks hunder
      exact .keep hshared.1 rfl rfl (hplace ▸ hlocks)
  | mutexUnlock exit =>
      simp only [proceed, hplace] at h
      cases h
      exact .keep rfl rfl rfl (hplace ▸ exit.next_locks)
  | syncRelease u first =>
      simp only [proceed, hplace] at h
      cases h
      cases first <;> exact .post rfl rfl rfl (hplace ▸ rfl) rfl
  | collecting u i =>
      simp only [proceed, hplace] at h
      split at h
      · cases h
        exact .keep rfl rfl rfl (hplace ▸ rfl)
      · split at h
        · cases h
          exact .keep rfl rfl rfl (hplace ▸ rfl)
        · cases h
  | arriving u =>
      simp only [proceed, hplace] at h
      cases h
      exact .keep rfl rfl rfl (hplace ▸ rfl)
  | departing u =>
      simp only [proceed, hplace] at h
      split at h
      · cases h
        exact .keep rfl rfl rfl (hplace ▸ rfl)
      · cases h
  | relock u ret =>
      simp only [proceed, hplace] at h
      split at h
      case isTrue hpos =>
        cases h
        exact .take (Nat.sub_add_cancel hpos) rfl rfl (hplace ▸ rfl) rfl
      case isFalse => cases h
  | leaving u ret =>
      simp only [proceed, hplace] at h
      cases h
      refine .keep ?_ rfl rfl (hplace ▸ rfl)
      split <;> rfl
  | syncUnlock ret =>
      simp only [proceed, hplace] at h
      cases h
      exact .post rfl rfl rfl (hplace ▸ rfl) rfl

/-- **The mutexes of the barriers** in a step without a failing wait. -/
theorem proceed_mutex (h : proceed m p = some (m', p')) : MutexEffect m m' p p' := by
  cases hplace : p.place with
  | outside =>
      simp only [proceed, hplace] at h
      cases h
  | syncLock call =>
      simp only [proceed, hplace] at h
      split at h
      · cases h
        exact .keep rfl (hplace ▸ rfl)
      · cases h
  | locked call =>
      simp only [proceed, hplace] at h
      cases h
      exact dispatch_mutex hplace
  | initialising b tag =>
      simp only [proceed, hplace] at h
      cases h
      exact .post b rfl (hplace ▸ rfl) rfl
  | mutexLock use =>
      simp only [proceed, hplace] at h
      split at h
      case isTrue hpos =>
        cases h
        exact .take use.barrier hpos rfl (hplace ▸ rfl) rfl
      case isFalse => cases h
  | mutexHeld use =>
      simp only [proceed, hplace] at h
      obtain ⟨⟨m₁, exit⟩, hunder, h⟩ := Option.map_eq_some_iff.mp h
      cases h
      obtain ⟨hshared, _, hbarrier⟩ := underMutex_locks hunder
      exact .keep hshared.2 (hplace ▸ congrArg some hbarrier)
  | mutexUnlock exit =>
      simp only [proceed, hplace] at h
      cases h
      exact .post exit.barrier rfl (hplace ▸ rfl) exit.next_mutexOf
  | syncRelease u first =>
      simp only [proceed, hplace] at h
      cases h
      cases first <;> exact .keep rfl (hplace ▸ rfl)
  | collecting u i =>
      simp only [proceed, hplace] at h
      split at h
      · cases h
        exact .keep rfl (hplace ▸ rfl)
      · split at h
        · cases h
          exact .keep rfl (hplace ▸ rfl)
        · cases h
  | arriving u =>
      simp only [proceed, hplace] at h
      cases h
      exact .keep rfl (hplace ▸ rfl)
  | departing u =>
      simp only [proceed, hplace] at h
      split at h
      · cases h
        exact .keep rfl (hplace ▸ rfl)
      · cases h
  | relock u ret =>
      simp only [proceed, hplace] at h
      split at h
      · cases h
        exact .keep rfl (hplace ▸ rfl)
      · cases h
  | leaving u ret =>
      simp only [proceed, hplace] at h
      cases h
      refine .keep ?_ (hplace ▸ rfl)
      split <;> rfl
  | syncUnlock ret =>
      simp only [proceed, hplace] at h
      cases h
      exact .keep rfl (hplace ▸ rfl)

end

/-! ## Failing waits -/

theorem BarrierCall.fail_eq_some {u : BarrierCall} {err : WaitError}
    {next place : ProcessPlace} (h : u.fail err next = some place) :
    place = if u.timed then .relock u (-err.errno) else next := by
  unfold BarrierCall.fail at h
  split at h
  case isTrue htimed =>
    cases h
    rw [if_pos htimed]
  case isFalse htimed =>
    split at h
    · cases h
      rw [if_neg htimed]
    · cases h

/-- What a failing wait does to `sync_mutex`.  An interrupted wait for it counts
as a lock; the first wait of `barrier_sync_to` leads to a lock while the process
has not unlocked. -/
inductive FailEffect (p p' : Process) : Prop
  | keep (sync : p.place.syncWait = false) (first : p.place.firstTimedWait = false)
      (entered : p'.entered = p.entered) (place : p'.place.locks = p.place.locks)
  | pass (sync : p.place.syncWait = true) (entered : p'.entered = p.entered + 1)
      (before : p.place.locks = 0) (after : p'.place.locks = 1)
  | skip (first : p.place.firstTimedWait = true) (entered : p'.entered = p.entered)
      (before : p.place.locks = 1) (after : p'.place.locks = 0)

theorem failWait_sync {err : WaitError} {p p' : Process} (h : failWait err p = some p') :
    FailEffect p p' ∧ p'.held = p.held := by
  unfold failWait at h
  split at h
  case h_1 call hplace =>
    split at h <;> cases h
    exact ⟨.pass (hplace ▸ rfl) rfl (hplace ▸ rfl) rfl, rfl⟩
  case h_2 u ret hplace =>
    split at h <;> cases h
    exact ⟨.pass (hplace ▸ rfl) rfl (hplace ▸ rfl) rfl, rfl⟩
  case h_3 b hplace =>
    split at h <;> cases h
    exact ⟨.keep (hplace ▸ rfl) (hplace ▸ rfl) rfl (hplace ▸ rfl), rfl⟩
  case h_4 u hplace =>
    obtain ⟨place, hfail, rfl⟩ := Option.map_eq_some_iff.mp h
    refine ⟨?_, rfl⟩
    have hnext := u.fail_eq_some hfail
    by_cases htimed : u.timed = true
    · rw [if_pos htimed] at hnext
      exact .skip (by rw [hplace]; exact htimed) rfl (hplace ▸ rfl) (hnext ▸ rfl)
    · rw [if_neg htimed] at hnext
      exact .keep (hplace ▸ rfl) (by rw [hplace]; exact Bool.eq_false_iff.mpr htimed) rfl
        (hplace ▸ hnext ▸ rfl)
  case h_5 u hplace =>
    obtain ⟨place, hfail, rfl⟩ := Option.map_eq_some_iff.mp h
    refine ⟨.keep (hplace ▸ rfl) (hplace ▸ rfl) rfl ?_, rfl⟩
    rw [hplace]
    show place.locks = 0
    rw [u.fail_eq_some hfail]
    split <;> rfl
  case h_6 u i hplace =>
    split at h
    · cases h
    · obtain ⟨place, hfail, rfl⟩ := Option.map_eq_some_iff.mp h
      refine ⟨.keep (hplace ▸ rfl) (hplace ▸ rfl) rfl ?_, rfl⟩
      rw [hplace]
      show place.locks = 0
      rw [u.fail_eq_some hfail]
      split <;> rfl
  case h_7 u hplace =>
    obtain ⟨place, hfail, rfl⟩ := Option.map_eq_some_iff.mp h
    refine ⟨.keep (hplace ▸ rfl) (hplace ▸ rfl) rfl ?_, rfl⟩
    rw [hplace]
    show place.locks = 0
    rw [u.fail_eq_some hfail]
    split <;> rfl
  case h_8 => cases h

/-- No wait but an untimed one for a barrier mutex counts as a lock of it. -/
theorem failWait_mutex {err : WaitError} {p p' : Process} (h : failWait err p = some p')
    (hwait : p.place.mutexWait = false) : p'.place.mutexOf = p.place.mutexOf := by
  unfold failWait at h
  split at h
  case h_1 call hplace =>
    split at h <;> cases h
    exact hplace ▸ rfl
  case h_2 u ret hplace =>
    split at h <;> cases h
    exact hplace ▸ rfl
  case h_3 b hplace =>
    rw [hplace] at hwait
    cases hwait
  case h_4 u hplace =>
    obtain ⟨place, hfail, rfl⟩ := Option.map_eq_some_iff.mp h
    have htimed : u.timed = true := by simpa [hplace, ProcessPlace.mutexWait] using hwait
    rw [hplace]
    show place.mutexOf = none
    rw [u.fail_eq_some hfail, if_pos htimed]
    rfl
  case h_5 u hplace =>
    obtain ⟨place, hfail, rfl⟩ := Option.map_eq_some_iff.mp h
    have htimed : u.timed = true := by simpa [hplace, ProcessPlace.mutexWait] using hwait
    rw [hplace]
    show place.mutexOf = none
    rw [u.fail_eq_some hfail, if_pos htimed]
    rfl
  case h_6 u i hplace =>
    split at h
    · cases h
    · obtain ⟨place, hfail, rfl⟩ := Option.map_eq_some_iff.mp h
      rw [hplace]
      show place.mutexOf = none
      rw [u.fail_eq_some hfail]
      split <;> rfl
  case h_7 u hplace =>
    obtain ⟨place, hfail, rfl⟩ := Option.map_eq_some_iff.mp h
    rw [hplace]
    show place.mutexOf = none
    rw [u.fail_eq_some hfail]
    split <;> rfl
  case h_8 => cases h

end Blts.Sync
