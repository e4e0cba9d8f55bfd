import Blts.Sync.Tags

/-!
# The locks of `blts_sync.c`

Here every semaphore operation of a client call is a step of its own, and so is
the code between two of them.  A wait may also fail: `sync_mutex_lock` and
`barrier_mutex_lock` go on after an interrupted wait as if it had succeeded, and
so do the untimed waits of `barrier_sync` for its signals.  The timed waits of
`barrier_sync_to` go to its label `out`.

Two counters of a process are not part of the program.  `entered` is the number
of `sync_mutex_lock` calls that have returned, less the `sync_mutex_unlock`
calls; `held` is how often the process has taken `sync_mutex`, less the times it
has posted it.
-/

namespace Blts.Sync

open Blts.Lib

/-! ## Shared memory and processes -/

/-- `struct shared_data`: the barriers with their mutexes. -/
structure SharedData where
  syncMutex : Nat
  mutex : Nat → Nat
  barriers : Nat → TaggedBarrierEntry

/-- The errors of a wait that matter here. -/
inductive WaitError where
  | eintr
  | etimedout
  | einval
  deriving DecidableEq

def WaitError.errno : WaitError → Int
  | .eintr => 4
  | .etimedout => 110
  | .einval => 22

def einval : Int := 22

/-- The API calls of a client.  `timed` marks the `_to` versions. -/
inductive ClientCall where
  | tags (call : TagCall)
  | sync (call : SyncCall) (timed : Bool)

/-- A call of `barrier_sync` or, if it is timed, `barrier_sync_to`. -/
structure BarrierCall where
  barrier : Nat
  call : SyncCall
  timed : Bool

/-- The result of the API call, of which only `blts_sync_anon_to` hands on that
of `barrier_sync_to`. -/
def BarrierCall.result (u : BarrierCall) (ret : Int) : Int :=
  match u.call with
  | .anon => if u.timed then ret else 0
  | .tagged _ => 0

/-- What a barrier mutex is locked for: the new count in `tagged_barrier_ref`,
or the first or second section of `barrier_sync`. -/
inductive MutexUse where
  | ref (b : Nat)
  | enter (u : BarrierCall)
  | release (u : BarrierCall)

def MutexUse.barrier : MutexUse → Nat
  | .ref b => b
  | .enter u => u.barrier
  | .release u => u.barrier

/-- What has been done under a barrier mutex.  The first client of a round is to
wait `first` times. -/
inductive MutexExit where
  | ref (b : Nat)
  | enter (u : BarrierCall) (first : Option Int)
  | release (u : BarrierCall)

def MutexExit.barrier : MutexExit → Nat
  | .ref b => b
  | .enter u _ => u.barrier
  | .release u => u.barrier

/-- The next operation of a process. -/
inductive ProcessPlace where
  | outside
  /-- `sync_mutex_lock` at the start of the call. -/
  | syncLock (call : ClientCall)
  /-- The code up to the next semaphore operation. -/
  | locked (call : ClientCall)
  /-- The end of `barrier_init`. -/
  | initialising (b : Nat) (tag : List Char)
  | mutexLock (use : MutexUse)
  | mutexHeld (use : MutexUse)
  | mutexUnlock (exit : MutexExit)
  /-- `sync_mutex_unlock` in `barrier_sync`. -/
  | syncRelease (u : BarrierCall) (first : Option Int)
  | collecting (u : BarrierCall) (i : Int)
  | arriving (u : BarrierCall)
  | departing (u : BarrierCall)
  /-- `sync_mutex_lock` at the end of `barrier_sync`. -/
  | relock (u : BarrierCall) (ret : Int)
  | leaving (u : BarrierCall) (ret : Int)
  /-- `sync_mutex_unlock` at the end of the call. -/
  | syncUnlock (ret : Int)

structure Process where
  place : ProcessPlace
  entered : Int
  held : Int
  result : Int

/-! ## The steps of a process -/

namespace Process

def moveTo (p : Process) (place : ProcessPlace) : Process :=
  { p with place := place }

/-- `sync_mutex` has been taken. -/
def lockAt (p : Process) (place : ProcessPlace) : Process :=
  { p with place := place, entered := p.entered + 1, held := p.held + 1 }

/-- The wait for `sync_mutex` has been interrupted. -/
def passAt (p : Process) (place : ProcessPlace) : Process :=
  { p with place := place, entered := p.entered + 1 }

/-- `sync_mutex` has been posted. -/
def unlockAt (p : Process) (place : ProcessPlace) : Process :=
  { p with place := place, entered := p.entered - 1, held := p.held - 1 }

end Process

namespace SharedData

def setMutex (m : SharedData) (b value : Nat) : SharedData :=
  { m with mutex := Function.update m.mutex b value }

def setBarrier (m : SharedData) (b : Nat) (e : TaggedBarrierEntry) : SharedData :=
  { m with barriers := Function.update m.barriers b e }

end SharedData

/-- The code that runs after the first `sync_mutex_lock` of a call. -/
def dispatch (m : SharedData) : ClientCall → SharedData × ProcessPlace
  | .tags (.addTag tag) =>
      match findTaggedBarrier m.barriers tag with
      | some i => (m, .mutexLock (.ref i))
      | none =>
          match freeBarrier m.barriers with
          | some i => ((m.setMutex i 0).setBarrier i .zero, .initialising i tag)
          | none => (m, .syncUnlock (-enospc))
  | .tags (.delTag tag) =>
      let m' := { m with barriers := taggedBarrierUnref m.barriers tag }
      match findTaggedBarrier m.barriers tag with
      | some i =>
          if (m.barriers i).refcount - 1 = 0 then (m'.setMutex i 0, .syncUnlock 0)
          else (m', .syncUnlock 0)
      | none => (m', .syncUnlock 0)
  | .sync call timed =>
      match call.barrier m.barriers with
      | some b => (m, .mutexLock (.enter ⟨b, call, timed⟩))
      | none => (m, .syncUnlock (-einval))

/-- The code under a barrier mutex.  If the barrier is not in use when it is to
be released, the loop counter starts at -1 and overflows: there is no step. -/
def underMutex (m : SharedData) : MutexUse → Option (SharedData × MutexExit)
  | .ref b =>
      let e := m.barriers b
      some (m.setBarrier b { e with refcount := (e.refcount + 1) % uintMod }, .ref b)
  | .enter u =>
      let e := m.barriers u.barrier
      if e.active then some (m, .enter u none)
      else some (m.setBarrier u.barrier { e with active := true },
        .enter u (some ((e.refcount : Int) - 1)))
  | .release u =>
      let e := m.barriers u.barrier
      if e.refcount = 0 then none
      else some (m.setBarrier u.barrier { e with
        barrierDepartSignal := e.barrierDepartSignal + (e.refcount - 1)
        active := false }, .release u)

/-- Where a process goes on after it has posted a barrier mutex. -/
def MutexExit.next : MutexExit → ProcessPlace
  | .ref b => .syncUnlock b
  | .enter u first => .syncRelease u first
  | .release u => .relock u 0

/-- The next operation of a process, where it is no wait that fails. -/
def proceed (m : SharedData) (p : Process) : Option (SharedData × Process) :=
  match p.place with
  | .outside => none
  | .syncLock call =>
      if 0 < m.syncMutex then
        some ({ m with syncMutex := m.syncMutex - 1 }, p.lockAt (.locked call))
      else none
  | .locked call => some ((dispatch m call).1, p.moveTo (dispatch m call).2)
  | .initialising b tag =>
      some ((m.setBarrier b { m.barriers b with
          refcount := 1
          active := false
          tag := tag.take syncTagLen }).setMutex b (m.mutex b + 1),
        p.moveTo (.syncUnlock b))
  | .mutexLock use =>
      if 0 < m.mutex use.barrier then
        some (m.setMutex use.barrier (m.mutex use.barrier - 1), p.moveTo (.mutexHeld use))
      else none
  | .mutexHeld use => (underMutex m use).map fun r => (r.1, p.moveTo (.mutexUnlock r.2))
  | .mutexUnlock exit =>
      some (m.setMutex exit.barrier (m.mutex exit.barrier + 1), p.moveTo exit.next)
  | .syncRelease u first =>
      let place := match first with
        | some i => .collecting u i
        | none => .arriving u
      some ({ m with syncMutex := m.syncMutex + 1 }, p.unlockAt place)
  | .collecting u i =>
      let e := m.barriers u.barrier
      if i = 0 then some (m, p.moveTo (.mutexLock (.release u)))
      else if 0 < e.barrierArriveSignal then
        some (m.setBarrier u.barrier { e with
          barrierArriveSignal := e.barrierArriveSignal - 1 }, p.moveTo (.collecting u (i - 1)))
      else none
  | .arriving u =>
      let e := m.barriers u.barrier
      some (m.setBarrier u.barrier { e with
        barrierArriveSignal := e.barrierArriveSignal + 1 }, p.moveTo (.departing u))
  | .departing u =>
      let e := m.barriers u.barrier
      if 0 < e.barrierDepartSignal then
        some (m.setBarrier u.barrier { e with
          barrierDepartSignal := e.barrierDepartSignal - 1 }, p.moveTo (.relock u 0))
      else none
  | .relock u ret =>
      if 0 < m.syncMutex then
        some ({ m with syncMutex := m.syncMutex - 1 }, p.lockAt (.leaving u ret))
      else none
  | .leaving u ret =>
      let m' :=
        if u.timed ∧ ret ≠ 0 then
          m.setBarrier u.barrier { m.barriers u.barrier with
            barrierArriveSignal := 0
            barrierDepartSignal := 0
            active := false }
        else m
      some (m', p.moveTo (.syncUnlock (u.result ret)))
  | .syncUnlock ret =>
      some ({ m with syncMutex := m.syncMutex + 1 },
        { p.unlockAt .outside with result := ret })

/-- The wait of a barrier call fails.  A timed call ends, another one does not
look at the result. -/
def BarrierCall.fail (u : BarrierCall) (err : WaitError) (next : ProcessPlace) :
    Option ProcessPlace :=
  if u.timed then some (.relock u (-err.errno))
  else if err = .eintr then some next
  else none

/-- The wait that is the next operation of a process fails. -/
def failWait (err : WaitError) (p : Process) : Option Process :=
  match p.place with
  | .syncLock call => if err = .eintr then some (p.passAt (.locked call)) else none
  | .relock u ret => if err = .eintr then some (p.passAt (.leaving u ret)) else none
  | .mutexLock (.ref b) =>
      if err = .eintr then some (p.moveTo (.mutexHeld (.ref b))) else none
  | .mutexLock (.enter u) => (u.fail err (.mutexHeld (.enter u))).map p.moveTo
  | .mutexLock (.release u) => (u.fail err (.mutexHeld (.release u))).map p.moveTo
  | .collecting u i =>
      if i = 0 then none else (u.fail err (.collecting u (i - 1))).map p.moveTo
  | .departing u => (u.fail err (.relock u 0)).map p.moveTo
  | _ => none

/-- What a process can do next. -/
inductive Action where
  | call (call : ClientCall)
  | proceed
  | fail (err : WaitError)

def act (m : SharedData) (p : Process) : Action → Option (SharedData × Process)
  | .call call =>
      match p.place with
      | .outside => some (m, p.moveTo (.syncLock call))
      | _ => none
  | .proceed => proceed m p
  | .fail err => (failWait err p).map fun p' => (m, p')

/-! ## Any number of processes -/

structure SyncProcesses (n : Nat) where
  shared : SharedData
  processes : Fin n → Process

/-- The interleavings of the calls of all processes. -/
def interleavings (n : Nat) : System (SyncProcesses n) (Fin n × Action) where
  step s e := (act s.shared (s.processes e.1) e.2).map fun r => {
    shared := r.1
    processes := Function.update s.processes e.1 r.2 }

/-- The memory that `blts_sync_master_init` sets up, before any call. -/
def SyncProcesses.start (n clientCount : Nat) : SyncProcesses n where
  shared := {
    syncMutex := 1
    mutex := Function.update (fun _ => 0) 0 1
    barriers := masterBarriers clientCount }
  processes := fun _ => { place := .outside, entered := 0, held := 0, result := 0 }

/-- The step of a process is one of the system. -/
theorem interleavings_step {n : Nat} {s s' : SyncProcesses n} {c : Fin n} {a : Action}
    (h : (interleavings n).step s (c, a) = some s') :
    ∃ m p, act s.shared (s.processes c) a = some (m, p) ∧
      s' = { shared := m, processes := Function.update s.processes c p } := by
  obtain ⟨⟨m, p⟩, hact, hs⟩ := Option.map_eq_some_iff.mp h
  exact ⟨m, p, hact, hs.symm⟩

end Blts.Sync
