import Mathlib.Algebra.Group.Nat.Defs
import Mathlib.Logic.Function.Basic
import Blts.Lib.Run

/-!
# The request buffers of the gadget driver

A buffer of the gadget driver gets its request, with memory for it, in the first transfer
after it has been opened.  The memory has the transfer size that the endpoint is configured
for at that time, and is kept until the device is released or a request fails.  What is
transferred later is limited by the transfer size of that time, which may be another: the
gadget can be stopped, configured anew and started while its devices are open.

A transfer locks the driver from where it looks at the transfer size to where its request is
queued.  It is one step here; its end is another.
-/

namespace Blts.Usb

open Blts.Lib

/-- `N_GADGETDRV_DEVICES`. -/
def nGadgetDevices : Nat := 16

/-- The sizes in a `gadgetdrv_endpoint_config`. -/
structure EndpointSizes where
  maxPacketSize : UInt32
  transferSize : UInt32
  deriving DecidableEq

structure GadgetBuffers where
  started : Bool
  /-- The endpoints that are set up. -/
  ep : Nat → Bool
  sizes : Nat → EndpointSizes
  busy : Nat → Bool
  /-- The size of the memory of a request. -/
  req : Nat → Option Nat
  /-- The counts of the last call, each with the size of the memory it was used with. -/
  counts : List (Nat × Nat)

/-- `max_packet` as a `size_t`: it is an `int`, of a transfer size that is `unsigned`. -/
def maxPacket (size : UInt32) : Nat :=
  if size.toNat < 2 ^ 31 then size.toNat else size.toNat + (2 ^ 64 - 2 ^ 32)

def limitCount (count : Nat) (size : UInt32) : Nat :=
  if maxPacket size < count then maxPacket size else count

/-- The memory of a new request.  `kmalloc` never gives out 2 GiB. -/
def allocEpReq (len : UInt32) (memory : Bool) : Option Nat :=
  if len = 0 then none
  else if memory = true ∧ len.toNat < 2 ^ 31 then some len.toNat
  else none

/-- What a transfer meets before it waits for its request. -/
structure TransferResults where
  memory : Bool
  copied : Bool
  queued : Bool

/-- How the wait for a request ends. -/
inductive WaitEnd where
  | interrupted
  | completed
  | failed
  deriving DecidableEq

inductive BufferEvent where
  | opened (minor : Nat)
  | read (minor count : Nat) (r : TransferResults)
  | write (minor count : Nat) (r : TransferResults)
  /-- The transfer of a buffer ends. -/
  | finish (b : Nat) (e : WaitEnd)
  | release (minor : Nat)
  /-- `GADGETDRV_IOCSCONF`, with what the copy leaves in the configuration. -/
  | sconf (conf : Nat → EndpointSizes) (copied : Bool)
  | start (registered : Bool) (ep : Nat → Bool)
  | stop

/-- The request of a buffer, or a new one. -/
def requestOf (s : GadgetBuffers) (b : Nat) (size : UInt32) (memory : Bool) : Option Nat :=
  match s.req b with
  | some n => some n
  | none => allocEpReq size memory

/-- `usb_ep_queue_and_wait`, up to the wait. -/
def queueRequest (s : GadgetBuffers) (b n count : Nat) (counts : List (Nat × Nat))
    (queued : Bool) : GadgetBuffers :=
  { s with
    req := Function.update s.req b (some n)
    busy := Function.update s.busy b queued
    counts := counts ++ [(count % 2 ^ 32, n)] }

def gadgetdrvRead (s : GadgetBuffers) (minor count : Nat) (r : TransferResults) : GadgetBuffers :=
  let b := 2 * minor
  let size := (s.sizes minor).transferSize
  let count := limitCount count size
  match requestOf s b size r.memory with
  | none => { s with counts := [] }
  | some n => queueRequest s b n count [] r.queued

def gadgetdrvWrite (s : GadgetBuffers) (minor count : Nat) (r : TransferResults) :
    GadgetBuffers :=
  let b := 2 * minor + 1
  let size := (s.sizes minor).transferSize
  let count := limitCount count size
  match requestOf s b size r.memory with
  | none => { s with counts := [] }
  | some n =>
      if r.copied then queueRequest s b n count [(count, n)] r.queued
      else { s with req := Function.update s.req b (some n), counts := [(count, n)] }

/-- The configuration after a copy: only a whole copy is completed by the default sizes. -/
def copiedSizes (conf : Nat → EndpointSizes) (copied : Bool) (i : Nat) : EndpointSizes :=
  if copied = true ∧ (conf i).transferSize = 0 then
    { conf i with transferSize := (conf i).maxPacketSize }
  else conf i

/-- A transfer needs an endpoint, and a buffer that is not busy. -/
def GadgetBuffers.accepts (s : GadgetBuffers) (minor b : Nat) : Prop :=
  minor < nGadgetDevices ∧ s.ep minor = true ∧ s.busy b = false

instance (s : GadgetBuffers) (minor b : Nat) : Decidable (s.accepts minor b) :=
  inferInstanceAs (Decidable (_ ∧ _ ∧ _))

def bufferStep (s : GadgetBuffers) : BufferEvent → Option GadgetBuffers
  | .opened _ => some { s with counts := [] }
  | .read minor count r =>
      if s.accepts minor (2 * minor) then some (gadgetdrvRead s minor count r) else none
  | .write minor count r =>
      if s.accepts minor (2 * minor + 1) then some (gadgetdrvWrite s minor count r) else none
  | .finish b e =>
      if s.busy b then
        some { s with
          busy := Function.update s.busy b false
          req := if e = .failed then Function.update s.req b none else s.req
          counts := [] }
      else none
  | .release minor =>
      some { s with
        req := Function.update (Function.update s.req (2 * minor) none) (2 * minor + 1) none
        counts := [] }
  | .sconf conf copied =>
      if s.started then some { s with counts := [] }
      else some { s with sizes := copiedSizes conf copied, counts := [] }
  | .start registered ep =>
      if s.started then some { s with counts := [] }
      else some { s with ep := ep, started := registered, counts := [] }
  | .stop =>
      if s.started then some { s with ep := fun _ => false, started := false, counts := [] }
      else some { s with counts := [] }

def bufferSystem : System GadgetBuffers BufferEvent where
  step := bufferStep

def bufferStart : GadgetBuffers where
  started := false
  ep _ := false
  sizes _ := ⟨0, 0⟩
  busy _ := false
  req _ := none
  counts := []

/-- Every count of the last call fits the memory it was used with. -/
def CountsFit (s : GadgetBuffers) : Prop :=
  ∀ p ∈ s.counts, p.1 ≤ p.2

/-- A configuration that takes effect has no transfer size that is larger than the memory
of a request of the endpoint. -/
def KeepsSizes (s : GadgetBuffers) : BufferEvent → Prop
  | .sconf conf copied => s.started = false → ∀ b < 2 * nGadgetDevices,
      (s.req b).all (fun n => (copiedSizes conf copied (b / 2)).transferSize.toNat ≤ n) = true
  | .opened _ | .read _ _ _ | .write _ _ _ | .finish _ _ | .release _ | .start _ _ | .stop => True

instance (s : GadgetBuffers) : (e : BufferEvent) → Decidable (KeepsSizes s e)
  | .sconf _ _ => inferInstanceAs (Decidable (_ → ∀ _ < _, _ = true))
  | .opened _ | .read _ _ _ | .write _ _ _ | .finish _ _ | .release _ | .start _ _ | .stop =>
      isTrue trivial

/-- The memory of every request has room for the transfer size. -/
structure RoomInv (s : GadgetBuffers) : Prop where
  room : ∀ b < 2 * nGadgetDevices, ∀ n, s.req b = some n →
    (s.sizes (b / 2)).transferSize.toNat ≤ n ∧ n < 2 ^ 31

section

variable {s s' : GadgetBuffers}

theorem limitCount_le (count : Nat) {n : Nat} {size : UInt32} (hsize : size.toNat ≤ n)
    (hn : n < 2 ^ 31) : limitCount count size ≤ n := by
  unfold limitCount maxPacket
  rw [if_pos (by omega : size.toNat < 2 ^ 31)]
  by_cases hcount : size.toNat < count
  · rw [if_pos hcount]
    exact hsize
  · rw [if_neg hcount]
    omega

theorem allocEpReq_some {len : UInt32} {memory : Bool} {n : Nat}
    (h : allocEpReq len memory = some n) : len.toNat = n ∧ n < 2 ^ 31 := by
  unfold allocEpReq at h
  by_cases hzero : len = 0
  · rw [if_pos hzero] at h
    cases h
  · rw [if_neg hzero] at h
    obtain ⟨hmemory, h⟩ := Option.ite_none_right_eq_some.mp h
    cases h
    exact ⟨rfl, hmemory.2⟩

/-- A new request has the transfer size, and an old one has room for it. -/
theorem requestOf_some (hinv : RoomInv s) {b n : Nat} (hb : b < 2 * nGadgetDevices)
    {memory : Bool} (h : requestOf s b (s.sizes (b / 2)).transferSize memory = some n) :
    (s.sizes (b / 2)).transferSize.toNat ≤ n ∧ n < 2 ^ 31 := by
  unfold requestOf at h
  cases hreq : s.req b with
  | some m =>
      rw [hreq] at h
      cases h
      exact hinv.room b hb n hreq
  | none =>
      rw [hreq] at h
      obtain ⟨heq, hlt⟩ := allocEpReq_some h
      exact ⟨Nat.le_of_eq heq, hlt⟩

/-- The invariant is about the sizes and the requests. -/
theorem RoomInv.set_req (hinv : RoomInv s) (hsizes : s'.sizes = s.sizes) {b : Nat}
    {request : Option Nat} (hreq : s'.req = Function.update s.req b request)
    (hroom : ∀ n, request = some n →
      (s.sizes (b / 2)).transferSize.toNat ≤ n ∧ n < 2 ^ 31) : RoomInv s' := by
  refine ⟨fun d hd n hn => ?_⟩
  rw [hsizes]
  rw [hreq] at hn
  by_cases hdb : d = b
  · rw [hdb, Function.update_self] at hn
    rw [hdb]
    exact hroom n hn
  · rw [Function.update_of_ne hdb] at hn
    exact hinv.room d hd n hn

theorem RoomInv.same (hinv : RoomInv s) (hsizes : s'.sizes = s.sizes) (hreq : s'.req = s.req) :
    RoomInv s' := by
  refine ⟨fun d hd n hn => ?_⟩
  rw [hsizes]
  rw [hreq] at hn
  exact hinv.room d hd n hn

theorem gadgetdrvRead_room (hinv : RoomInv s) {minor : Nat} (hminor : minor < nGadgetDevices)
    (count : Nat) (r : TransferResults) :
    RoomInv (gadgetdrvRead s minor count r) ∧ CountsFit (gadgetdrvRead s minor count r) := by
  have hhalf : 2 * minor / 2 = minor := by omega
  unfold gadgetdrvRead
  dsimp only
  cases hrequest : requestOf s (2 * minor) (s.sizes minor).transferSize r.memory with
  | none => exact ⟨hinv.same rfl rfl, fun _ hp => absurd hp List.not_mem_nil⟩
  | some n =>
      have hroom := requestOf_some (b := 2 * minor) hinv (by omega) (by rw [hhalf]; exact hrequest)
      rw [hhalf] at hroom
      have hcount := limitCount_le count hroom.1 hroom.2
      refine ⟨hinv.set_req rfl rfl fun m hm => ?_, fun p hp => ?_⟩
      · cases hm
        rw [hhalf]
        exact hroom
      · rw [List.mem_singleton.mp hp]
        exact Nat.le_trans (Nat.mod_le _ _) hcount

theorem gadgetdrvWrite_room (hinv : RoomInv s) {minor : Nat} (hminor : minor < nGadgetDevices)
    (count : Nat) (r : TransferResults) :
    RoomInv (gadgetdrvWrite s minor count r) ∧ CountsFit (gadgetdrvWrite s minor count r) := by
  have hhalf : (2 * minor + 1) / 2 = minor := by omega
  unfold gadgetdrvWrite
  dsimp only
  cases hrequest : requestOf s (2 * minor + 1) (s.sizes minor).transferSize r.memory with
  | none => exact ⟨hinv.same rfl rfl, fun _ hp => absurd hp List.not_mem_nil⟩
  | some n =>
      have hroom := requestOf_some (b := 2 * minor + 1) hinv (by omega)
        (by rw [hhalf]; exact hrequest)
      rw [hhalf] at hroom
      have hcount := limitCount_le count hroom.1 hroom.2
      have hset : ∀ m, some n = some m →
          (s.sizes ((2 * minor + 1) / 2)).transferSize.toNat ≤ m ∧ m < 2 ^ 31 := by
        intro m hm
        cases hm
        rw [hhalf]
        exact hroom
      dsimp only
      by_cases hcopied : r.copied = true
      · rw [if_pos hcopied]
        refine ⟨hinv.set_req rfl rfl hset, List.forall_mem_cons.mpr ⟨hcount, fun p hp => ?_⟩⟩
        rw [List.mem_singleton.mp hp]
        exact Nat.le_trans (Nat.mod_le _ _) hcount
      · rw [if_neg hcopied]
        refine ⟨hinv.set_req rfl rfl hset, fun p hp => ?_⟩
        rw [List.mem_singleton.mp hp]
        exact hcount

/-- **A step** leaves room for the transfer size, if a configuration does. -/
theorem bufferStep_room {e : BufferEvent} (hinv : RoomInv s) (hkeeps : KeepsSizes s e)
    (hstep : bufferSystem.step s e = some s') : RoomInv s' ∧ CountsFit s' := by
  have hnone : ∀ p ∈ ([] : List (Nat × Nat)), p.1 ≤ p.2 := fun _ hp => absurd hp List.not_mem_nil
  cases e with
  | opened minor =>
      cases hstep
      exact ⟨hinv.same rfl rfl, hnone⟩
  | read minor count r =>
      replace hstep : (if _ then _ else _) = some s' := hstep
      obtain ⟨haccepts, hstep⟩ := Option.ite_none_right_eq_some.mp hstep
      cases hstep
      exact gadgetdrvRead_room hinv haccepts.1 count r
  | write minor count r =>
      replace hstep : (if _ then _ else _) = some s' := hstep
      obtain ⟨haccepts, hstep⟩ := Option.ite_none_right_eq_some.mp hstep
      cases hstep
      exact gadgetdrvWrite_room hinv haccepts.1 count r
  | finish b e =>
      replace hstep : (if _ then _ else _) = some s' := hstep
      obtain ⟨_, hstep⟩ := Option.ite_none_right_eq_some.mp hstep
      cases hstep
      refine ⟨?_, hnone⟩
      by_cases he : e = .failed
      · exact hinv.set_req rfl (if_pos he) fun n hn => (by cases hn)
      · exact hinv.same rfl (if_neg he)
  | release minor =>
      cases hstep
      have hread : RoomInv { s with req := Function.update s.req (2 * minor) none } :=
        hinv.set_req rfl rfl fun n hn => (by cases hn)
      exact ⟨hread.set_req rfl rfl fun n hn => (by cases hn), hnone⟩
  | sconf conf copied =>
      replace hstep : (if _ then _ else _) = some s' := hstep
      by_cases hstarted : s.started = true
      · rw [if_pos hstarted] at hstep
        cases hstep
        exact ⟨hinv.same rfl rfl, hnone⟩
      · rw [if_neg hstarted] at hstep
        cases hstep
        refine ⟨⟨fun b hb n hn => ⟨?_, (hinv.room b hb n hn).2⟩⟩, hnone⟩
        have hfits := hkeeps (Bool.not_eq_true _ ▸ hstarted) b hb
        rw [show s.req b = some n from hn] at hfits
        exact of_decide_eq_true hfits
  | start registered ep =>
      replace hstep : (if _ then _ else _) = some s' := hstep
      by_cases hstarted : s.started = true
      · rw [if_pos hstarted] at hstep
        cases hstep
        exact ⟨hinv.same rfl rfl, hnone⟩
      · rw [if_neg hstarted] at hstep
        cases hstep
        exact ⟨hinv.same rfl rfl, hnone⟩
  | stop =>
      replace hstep : (if _ then _ else _) = some s' := hstep
      by_cases hstarted : s.started = true
      · rw [if_pos hstarted] at hstep
        cases hstep
        exact ⟨hinv.same rfl rfl, hnone⟩
      · rw [if_neg hstarted] at hstep
        cases hstep
        exact ⟨hinv.same rfl rfl, hnone⟩

/-- A request that is used with a larger count than its memory. -/
theorem queueRequest_overflows {b n count : Nat} {counts : List (Nat × Nat)} {queued : Bool}
    (hcount : n < count) (hlt : count < 2 ^ 32) :
    ¬ CountsFit (queueRequest s b n count counts queued) := by
  intro hfit
  have hle : count % 2 ^ 32 ≤ n :=
    hfit (count % 2 ^ 32, n) (List.mem_append_right _ List.mem_cons_self)
  rw [Nat.mod_eq_of_lt hlt] at hle
  omega

/-- After a configuration that leaves too little room, the gadget can be started and the
memory of the request be overrun. -/
theorem reconfigured_overflows {b n : Nat} {conf : Nat → EndpointSizes}
    (hb : b < 2 * nGadgetDevices) (hreq : s.req b = some n) (hbusy : s.busy b = false)
    (hstarted : s.started = false)
    (hsize : n < (copiedSizes conf true (b / 2)).transferSize.toNat)
    (hlt : (copiedSizes conf true (b / 2)).transferSize.toNat < 2 ^ 31) :
    ∃ es s', bufferSystem.exec s (.sconf conf true :: es) = some s' ∧ ¬ CountsFit s' := by
  let size := (copiedSizes conf true (b / 2)).transferSize
  let r : TransferResults := ⟨true, true, true⟩
  let configured : GadgetBuffers := { s with sizes := copiedSizes conf true, counts := [] }
  let running : GadgetBuffers := { configured with ep := fun _ => true, started := true }
  have hsconf : bufferSystem.step s (.sconf conf true) = some configured :=
    if_neg (by rw [hstarted]; exact Bool.false_ne_true)
  have hstart : bufferSystem.step configured (.start true fun _ => true) = some running :=
    if_neg (by rw [show configured.started = s.started from rfl, hstarted]
               exact Bool.false_ne_true)
  have hlimit : limitCount size.toNat size = size.toNat := by
    unfold limitCount maxPacket
    rw [if_pos hlt, if_neg (Nat.lt_irrefl _)]
  have hminor : b / 2 < nGadgetDevices := by omega
  have hrequest : requestOf running b size true = some n := by
    unfold requestOf
    rw [show running.req b = some n from hreq]
  obtain hparity | hparity := Nat.mod_two_eq_zero_or_one b
  · have hbuffer : 2 * (b / 2) = b := by omega
    have haccepts : running.accepts (b / 2) (2 * (b / 2)) := by
      rw [hbuffer]
      exact ⟨hminor, rfl, hbusy⟩
    refine ⟨[.start true fun _ => true, .read (b / 2) size.toNat r],
      gadgetdrvRead running (b / 2) size.toNat r, ?_, ?_⟩
    · rw [System.exec_cons, hsconf, Option.bind_some, System.exec_cons, hstart, Option.bind_some,
        System.exec_cons]
      rw [show bufferSystem.step running (.read (b / 2) size.toNat r) = _ from if_pos haccepts]
      rfl
    · unfold gadgetdrvRead
      dsimp only
      rw [hbuffer, show (running.sizes (b / 2)).transferSize = size from rfl, hrequest, hlimit]
      exact queueRequest_overflows hsize (Nat.lt_trans hlt (by decide))
  · have hbuffer : 2 * (b / 2) + 1 = b := by omega
    have haccepts : running.accepts (b / 2) (2 * (b / 2) + 1) := by
      rw [hbuffer]
      exact ⟨hminor, rfl, hbusy⟩
    refine ⟨[.start true fun _ => true, .write (b / 2) size.toNat r],
      gadgetdrvWrite running (b / 2) size.toNat r, ?_, ?_⟩
    · rw [System.exec_cons, hsconf, Option.bind_some, System.exec_cons, hstart, Option.bind_some,
        System.exec_cons]
      rw [show bufferSystem.step running (.write (b / 2) size.toNat r) = _ from if_pos haccepts]
      rfl
    · unfold gadgetdrvWrite
      dsimp only
      rw [hbuffer, show (running.sizes (b / 2)).transferSize = size from rfl, hrequest, hlimit]
      exact queueRequest_overflows hsize (Nat.lt_trans hlt (by decide))

end

theorem roomInv_start : RoomInv bufferStart :=
  ⟨fun _ _ _ h => (by cases h)⟩

/-- **The counts** of all transfers fit the memory of their requests, in every run whose
configurations leave the requests that there are room for the new transfer sizes. -/
theorem countsFit_of_keepsSizes {es : List BufferEvent} {s : GadgetBuffers}
    (hmeets : bufferSystem.Meets KeepsSizes bufferStart es)
    (hrun : bufferSystem.exec bufferStart es = some s) : CountsFit s := by
  have hinv := bufferSystem.exec_invariant (fun s => RoomInv s ∧ CountsFit s)
    (fun _ _ _ h hkeeps hstep => bufferStep_room h.1 hkeeps hstep) es
    ⟨roomInv_start, fun _ hp => absurd hp List.not_mem_nil⟩ hmeets hrun
  exact hinv.2

/-- A write of 10 bytes, with memory for 64, after which the gadget is stopped. -/
def writeAndStop : List BufferEvent :=
  [.sconf (fun _ => ⟨64, 0⟩) true, .start true (fun _ => true), .write 1 10 ⟨true, true, true⟩,
    .finish 3 .completed, .stop]

/-- A write of 100 bytes after the gadget has been configured for them. -/
def writeMore : List BufferEvent :=
  [.sconf (fun _ => ⟨64, 128⟩) true, .start true (fun _ => true),
    .write 1 100 ⟨true, true, true⟩]

/-- The device is closed before. -/
theorem countsFit_closed : ∃ s,
    bufferSystem.exec bufferStart (writeAndStop ++ [.release 1] ++ writeMore) = some s ∧
      CountsFit s :=
  ⟨_, rfl, @countsFit_of_keepsSizes (writeAndStop ++ [.release 1] ++ writeMore) _ (by decide) rfl⟩

/-- It is left open. -/
theorem keptRequest_overflows : ¬ ∀ es s,
    bufferSystem.exec bufferStart es = some s → CountsFit s := by
  intro h
  have hfit := h (writeAndStop ++ writeMore) _ rfl
  exact absurd (hfit (100, 64) (List.mem_cons_self)) (by decide)

end Blts.Usb
