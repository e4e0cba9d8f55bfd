import Mathlib.Logic.Function.Basic
import Blts.Lib.Run

/-!
# The transfer sizes of the host driver

Every buffer of the host driver has `USB_IOBUF_DMA_SIZE` bytes for its transfers.  A read or
write is limited by the transfer size of its endpoint only, which is set in two places: by
`HOSTDRV_IOCSCONF`, which keeps to the size of the buffers, and in the probe of a device,
which takes the packet size out of the descriptor as it is.
-/

namespace Blts.Usb

open Blts.Lib

def usbIobufDmaSize : Nat := 16384

def minTransferBuffer : Nat := 32

/-- `N_HOSTDRV_DEVICES`. -/
def nHostDevices : Nat := 16

inductive XferType where
  | control
  | isoc
  | bulk
  | int
  deriving DecidableEq

/-- The fields of a `usb_endpoint_descriptor` that the driver uses. -/
structure EndpointDescriptor where
  dirIn : Bool
  xferType : XferType
  wMaxPacketSize : UInt16
  deriving DecidableEq

/-- A device: the packet size of endpoint 0, and the endpoints of the interface. -/
structure UsbDevice where
  ep0PacketSize : UInt16
  endpoints : List EndpointDescriptor
  deriving DecidableEq

/-- An endpoint has a buffer for reading and one for writing: 2 · ep and 2 · ep + 1. -/
structure HostBuffers where
  transferSize : Nat → Nat
  usbEp : Nat → EndpointDescriptor
  usbpipe : Nat → Bool
  /-- The buffer has a `current_urb`. -/
  urb : Nat → Bool
  /-- An interface is attached (`uintf`). -/
  attached : Bool
  dirty : Bool
  openCount : Nat
  /-- The byte counts of the last call, into or out of a buffer or in a USB transfer. -/
  counts : List Nat

/-! ## Probing -/

/-- What comes of the buffer of an endpoint. -/
inductive SetupResult where
  | ready
  | dmaFailed
  | urbFailed
  deriving DecidableEq

/-- The descriptor of a cleared buffer. -/
def clearedEp : EndpointDescriptor := ⟨false, .control, 0⟩

/-- The buffer that an endpoint works with. -/
def workBuffer (endpoint : EndpointDescriptor) (index : Nat) : Nat :=
  if endpoint.dirIn then 2 * index else 2 * index + 1

/-- The endpoint is set up, or not; `none` is the `BUG_ON` of a `current_urb` that is left. -/
def usbProbeNewEp (s : HostBuffers) (endpoint : EndpointDescriptor) (index : Nat)
    (r : SetupResult) : Option (HostBuffers × Bool) :=
  let usbEp := Function.update (Function.update s.usbEp (2 * index) endpoint) (2 * index + 1)
    endpoint
  let s := { s with
    usbEp := usbEp
    transferSize := Function.update s.transferSize index endpoint.wMaxPacketSize.toNat }
  match endpoint.xferType with
  | .control => some (s, true)
  | .isoc | .bulk | .int =>
      let b := workBuffer endpoint index
      let s := { s with usbpipe := Function.update s.usbpipe b true }
      match r with
      | .dmaFailed => some (s, false)
      | .urbFailed => if s.urb b then none else some (s, false)
      | .ready =>
          if s.urb b then none else some ({ s with urb := Function.update s.urb b true }, true)

/-- The endpoints from `index` on, up to one that cannot be set up. -/
def probeFrom (setup : Nat → SetupResult) (s : HostBuffers) (index : Nat) :
    List EndpointDescriptor → Option (HostBuffers × Bool)
  | [] => some (s, true)
  | endpoint :: endpoints =>
      (usbProbeNewEp s endpoint index (setup index)).bind fun (s, ok) =>
        if ok then probeFrom setup s (index + 1) endpoints else some (s, false)

/-- All endpoints that the driver looks at, with endpoint 0. -/
def UsbDevice.probed (device : UsbDevice) : List EndpointDescriptor :=
  ⟨false, .control, device.ep0PacketSize⟩ :: device.endpoints.take (nHostDevices - 1)

def hostdrvProbe (s : HostBuffers) (device : UsbDevice) (setup : Nat → SetupResult)
    (registered : Bool) : Option HostBuffers :=
  (probeFrom setup s 0 device.probed).map fun (s, ok) =>
    { s with attached := s.attached || (ok && registered), counts := [] }

def hostdrvDisconnect (s : HostBuffers) : HostBuffers :=
  { s with
    dirty := s.dirty || s.openCount ≠ 0
    transferSize := fun _ => 0
    usbEp := fun _ => clearedEp
    usbpipe := fun _ => false
    urb := fun _ => false
    attached := false
    counts := [] }

/-! ## Calls -/

def clamp (val min max : Nat) : Nat :=
  let val := if val < min then min else val
  if max < val then max else val

/-- The new transfer size of an endpoint. -/
def adjustEpMaxTransfer (s : HostBuffers) (endpoint new : Nat) : Nat :=
  if s.attached = false then s.transferSize endpoint
  else
    let bufIn := s.usbEp (2 * endpoint)
    let bufOut := s.usbEp (2 * endpoint + 1)
    let sizeMin :=
      if bufIn.dirIn then Nat.max bufIn.wMaxPacketSize.toNat minTransferBuffer
      else minTransferBuffer
    if bufIn.dirIn = true ∨ bufOut.dirIn = false then clamp new sizeMin usbIobufDmaSize
    else s.transferSize endpoint

/-- What comes of a transfer.  A USB transfer is never longer than it was asked for. -/
structure HostTransfer where
  copied : Bool
  succeeded : Bool
  actual : Nat
  relocked : Bool

/-- `count`, limited by the transfer size. -/
def hostCount (s : HostBuffers) (minor count : Nat) : Nat :=
  if s.transferSize minor < count then s.transferSize minor else count

def hostdrvRead (s : HostBuffers) (minor count : Nat) (r : HostTransfer) : HostBuffers :=
  let count := hostCount s minor count
  if r.succeeded && r.relocked then { s with counts := [count, r.actual] }
  else { s with counts := [count] }

def hostdrvWrite (s : HostBuffers) (minor count : Nat) (r : HostTransfer) : HostBuffers :=
  let count := hostCount s minor count
  if r.copied then { s with counts := [count, count] } else { s with counts := [count] }

inductive HostEvent where
  | probe (device : UsbDevice) (setup : Nat → SetupResult) (registered : Bool)
  | disconnect
  | opened (minor : Nat)
  | release
  | read (minor count : Nat) (r : HostTransfer)
  | write (minor count : Nat) (r : HostTransfer)
  | sconf (sizes : Nat → Nat) (copied : Bool)

/-- A transfer on a buffer gets as far as the buffer. -/
def HostBuffers.transfers (s : HostBuffers) (minor b : Nat) : Bool :=
  minor < nHostDevices && !s.dirty && s.usbpipe b

def hostStep (s : HostBuffers) : HostEvent → Option HostBuffers
  | .probe device setup registered => hostdrvProbe s device setup registered
  | .disconnect => some (hostdrvDisconnect s)
  | .opened _ =>
      if s.dirty then some { s with counts := [] }
      else some { s with openCount := s.openCount + 1, counts := [] }
  | .release =>
      some { s with
        openCount := s.openCount - 1
        dirty := if s.openCount - 1 = 0 then false else s.dirty
        counts := [] }
  | .read minor count r =>
      if s.transfers minor (2 * minor) then
        if r.actual ≤ hostCount s minor count then some (hostdrvRead s minor count r) else none
      else some { s with counts := [] }
  | .write minor count r =>
      if s.transfers minor (2 * minor + 1) then
        if r.actual ≤ hostCount s minor count then some (hostdrvWrite s minor count r) else none
      else some { s with counts := [] }
  | .sconf sizes copied =>
      if s.dirty || !copied then some { s with counts := [] }
      else
        some { s with
          transferSize := fun i =>
            if i < nHostDevices then adjustEpMaxTransfer s i (sizes i) else s.transferSize i
          counts := [] }

def hostSystem : System HostBuffers HostEvent where
  step := hostStep

def hostStart : HostBuffers where
  transferSize _ := 0
  usbEp _ := clearedEp
  usbpipe _ := false
  urb _ := false
  attached := false
  dirty := false
  openCount := 0
  counts := []

def CountsBounded (s : HostBuffers) : Prop :=
  ∀ n ∈ s.counts, n ≤ usbIobufDmaSize

/-- The packet sizes of the endpoints are at most the size of a buffer. -/
def UsbDevice.Fits (device : UsbDevice) : Prop :=
  ∀ endpoint ∈ device.endpoints.take (nHostDevices - 1),
    endpoint.wMaxPacketSize.toNat ≤ usbIobufDmaSize

instance (device : UsbDevice) : Decidable device.Fits := by
  unfold UsbDevice.Fits
  exact List.decidableBAll _ _

def ProbesFitting : HostEvent → Prop
  | .probe device _ _ => device.Fits
  | .disconnect | .opened _ | .release | .read _ _ _ | .write _ _ _ | .sconf _ _ => True

instance : DecidablePred ProbesFitting
  | .probe device _ _ => inferInstanceAs (Decidable device.Fits)
  | .disconnect | .opened _ | .release | .read _ _ _ | .write _ _ _ | .sconf _ _ => isTrue trivial

/-- The transfer sizes are bounded, and endpoint 0 is not transferred with. -/
structure SizesInv (s : HostBuffers) : Prop where
  sizes : ∀ i, i ≠ 0 → s.transferSize i ≤ usbIobufDmaSize
  pipes : s.usbpipe 0 = false ∧ s.usbpipe 1 = false

section

variable {s s' : HostBuffers}

theorem clamp_le (val min max : Nat) : clamp val min max ≤ max := by
  unfold clamp
  dsimp only
  by_cases h : max < if val < min then min else val
  · exact Nat.le_of_eq (if_pos h)
  · rw [if_neg h]
    exact Nat.not_lt.mp h

theorem SizesInv.counts (hinv : SizesInv s) (counts : List Nat) :
    SizesInv { s with counts := counts } :=
  ⟨hinv.sizes, hinv.pipes⟩

/-- The fields that the invariant is about, after an endpoint has been probed. -/
theorem usbProbeNewEp_sizes {endpoint : EndpointDescriptor} {index : Nat} {r : SetupResult}
    {ok : Bool} (h : usbProbeNewEp s endpoint index r = some (s', ok)) :
    s'.transferSize = Function.update s.transferSize index endpoint.wMaxPacketSize.toNat ∧
      (s'.usbpipe = s.usbpipe ∨ (endpoint.xferType ≠ .control ∧
        s'.usbpipe = Function.update s.usbpipe (workBuffer endpoint index) true)) := by
  unfold usbProbeNewEp at h
  dsimp only at h
  cases htype : endpoint.xferType with
  | control =>
      rw [htype] at h
      cases h
      exact ⟨rfl, .inl rfl⟩
  | isoc | bulk | int =>
      rw [htype] at h
      dsimp only at h
      refine ⟨?_, .inr ⟨by simp, ?_⟩⟩
      all_goals
        cases r with
        | dmaFailed =>
            cases h
            rfl
        | urbFailed | ready =>
            dsimp only at h
            by_cases hurb : s.urb (workBuffer endpoint index) = true
            · rw [if_pos hurb] at h
              cases h
            · rw [if_neg hurb] at h
              cases h
              rfl

theorem SizesInv.probeEp (hinv : SizesInv s) {endpoint : EndpointDescriptor} {index : Nat}
    {r : SetupResult} {ok : Bool} (h : usbProbeNewEp s endpoint index r = some (s', ok))
    (hzero : index = 0 → endpoint.xferType = .control)
    (hfits : index ≠ 0 → endpoint.wMaxPacketSize.toNat ≤ usbIobufDmaSize) : SizesInv s' := by
  obtain ⟨hsizes, hpipes⟩ := usbProbeNewEp_sizes h
  refine ⟨fun i hi => ?_, ?_⟩
  · rw [hsizes]
    by_cases hindex : i = index
    · rw [hindex, Function.update_self]
      exact hfits (hindex ▸ hi)
    · rw [Function.update_of_ne hindex]
      exact hinv.sizes i hi
  · obtain hsame | ⟨htype, hset⟩ := hpipes
    · rw [hsame]
      exact hinv.pipes
    · have hindex : index ≠ 0 := fun h0 => htype (hzero h0)
      have hwork : 2 ≤ workBuffer endpoint index := by
        unfold workBuffer
        split <;> omega
      rw [hset, Function.update_of_ne (by omega), Function.update_of_ne (by omega)]
      exact hinv.pipes

theorem SizesInv.probeFrom {setup : Nat → SetupResult} {endpoints : List EndpointDescriptor} :
    ∀ {s : HostBuffers} {index : Nat} {ok : Bool}, SizesInv s →
      probeFrom setup s (index + 1) endpoints = some (s', ok) →
      (∀ endpoint ∈ endpoints, endpoint.wMaxPacketSize.toNat ≤ usbIobufDmaSize) →
        SizesInv s' := by
  induction endpoints with
  | nil =>
      intro s index ok hinv h _
      cases h
      exact hinv
  | cons endpoint endpoints ih =>
      intro s index ok hinv h hfits
      obtain ⟨hfirst, hrest⟩ := List.forall_mem_cons.mp hfits
      obtain ⟨⟨s₁, ok₁⟩, hprobe, h⟩ := Option.bind_eq_some_iff.mp h
      have hinv₁ := hinv.probeEp hprobe (fun h0 => absurd h0 (Nat.succ_ne_zero index))
        fun _ => hfirst
      dsimp only at h
      by_cases hok : ok₁ = true
      · rw [if_pos hok] at h
        exact ih hinv₁ h hrest
      · rw [if_neg hok] at h
        cases h
        exact hinv₁

/-- **A probe** keeps the transfer sizes bounded, if the device fits. -/
theorem SizesInv.probe (hinv : SizesInv s) {device : UsbDevice} {setup : Nat → SetupResult}
    {registered : Bool} (hfits : device.Fits)
    (h : hostdrvProbe s device setup registered = some s') : SizesInv s' ∧ CountsBounded s' := by
  obtain ⟨⟨s₁, ok⟩, hprobe, rfl⟩ := Option.map_eq_some_iff.mp h
  refine ⟨?_, fun _ hn => absurd hn List.not_mem_nil⟩
  obtain ⟨⟨s₀, ok₀⟩, hep0, hrest⟩ := Option.bind_eq_some_iff.mp hprobe
  have hinv₀ := hinv.probeEp hep0 (fun _ => rfl) fun h0 => absurd rfl h0
  have hinv₁ : SizesInv s₁ := by
    dsimp only at hrest
    by_cases hok : ok₀ = true
    · rw [if_pos hok] at hrest
      exact hinv₀.probeFrom hrest hfits
    · rw [if_neg hok] at hrest
      cases hrest
      exact hinv₀
  exact ⟨hinv₁.sizes, hinv₁.pipes⟩

/-- A transfer that gets to its buffer is limited by its size. -/
theorem hostCount_le (hinv : SizesInv s) {minor b : Nat} (count : Nat)
    (hb : b = 2 * minor ∨ b = 2 * minor + 1) (h : s.transfers minor b = true) :
    hostCount s minor count ≤ usbIobufDmaSize := by
  have hminor : minor ≠ 0 := by
    rintro rfl
    have hpipe : s.usbpipe b = false := by
      obtain rfl | rfl := hb
      · exact hinv.pipes.1
      · exact hinv.pipes.2
    unfold HostBuffers.transfers at h
    rw [hpipe, Bool.and_false] at h
    cases h
  have hsize := hinv.sizes minor hminor
  unfold hostCount
  by_cases hlt : s.transferSize minor < count
  · rw [if_pos hlt]
    exact hsize
  · rw [if_neg hlt]
    omega

/-- **A step.** -/
theorem hostStep_bounded {e : HostEvent} (hinv : SizesInv s) (hprobes : ProbesFitting e)
    (hstep : hostSystem.step s e = some s') : SizesInv s' ∧ CountsBounded s' := by
  have hnone : ∀ n ∈ ([] : List Nat), n ≤ usbIobufDmaSize := fun _ hn => absurd hn List.not_mem_nil
  cases e with
  | probe device setup registered => exact hinv.probe hprobes hstep
  | disconnect =>
      cases hstep
      exact ⟨⟨fun _ _ => Nat.zero_le _, rfl, rfl⟩, hnone⟩
  | opened minor =>
      replace hstep : (if _ then _ else _) = some s' := hstep
      by_cases hdirty : s.dirty = true
      · rw [if_pos hdirty] at hstep
        cases hstep
        exact ⟨hinv.counts [], hnone⟩
      · rw [if_neg hdirty] at hstep
        cases hstep
        exact ⟨⟨hinv.sizes, hinv.pipes⟩, hnone⟩
  | release =>
      cases hstep
      exact ⟨⟨hinv.sizes, hinv.pipes⟩, hnone⟩
  | read minor count r =>
      replace hstep : (if _ then (if _ then _ else _) else _) = some s' := hstep
      by_cases htransfers : s.transfers minor (2 * minor) = true
      · rw [if_pos htransfers] at hstep
        obtain ⟨hactual, hstep⟩ := Option.ite_none_right_eq_some.mp hstep
        cases hstep
        have hcount := hostCount_le hinv count (.inl rfl) htransfers
        unfold hostdrvRead
        dsimp only
        by_cases hdone : (r.succeeded && r.relocked) = true
        · rw [if_pos hdone]
          refine ⟨hinv.counts _, List.forall_mem_cons.mpr ⟨hcount, fun n hn => ?_⟩⟩
          rw [List.mem_singleton.mp hn]
          exact Nat.le_trans hactual hcount
        · rw [if_neg hdone]
          refine ⟨hinv.counts _, fun n hn => ?_⟩
          rw [List.mem_singleton.mp hn]
          exact hcount
      · rw [if_neg htransfers] at hstep
        cases hstep
        exact ⟨hinv.counts [], hnone⟩
  | write minor count r =>
      replace hstep : (if _ then (if _ then _ else _) else _) = some s' := hstep
      by_cases htransfers : s.transfers minor (2 * minor + 1) = true
      · rw [if_pos htransfers] at hstep
        obtain ⟨_, hstep⟩ := Option.ite_none_right_eq_some.mp hstep
        cases hstep
        have hcount := hostCount_le hinv count (.inr rfl) htransfers
        unfold hostdrvWrite
        dsimp only
        by_cases hcopied : r.copied = true
        · rw [if_pos hcopied]
          refine ⟨hinv.counts _, List.forall_mem_cons.mpr ⟨hcount, fun n hn => ?_⟩⟩
          rw [List.mem_singleton.mp hn]
          exact hcount
        · rw [if_neg hcopied]
          refine ⟨hinv.counts _, fun n hn => ?_⟩
          rw [List.mem_singleton.mp hn]
          exact hcount
      · rw [if_neg htransfers] at hstep
        cases hstep
        exact ⟨hinv.counts [], hnone⟩
  | sconf sizes copied =>
      replace hstep : (if _ then _ else _) = some s' := hstep
      by_cases hskip : (s.dirty || !copied) = true
      · rw [if_pos hskip] at hstep
        cases hstep
        exact ⟨hinv.counts [], hnone⟩
      · rw [if_neg hskip] at hstep
        cases hstep
        refine ⟨⟨fun i hi => ?_, hinv.pipes⟩, hnone⟩
        show (if i < nHostDevices then adjustEpMaxTransfer s i (sizes i) else s.transferSize i) ≤ _
        by_cases hdevice : i < nHostDevices
        · rw [if_pos hdevice]
          unfold adjustEpMaxTransfer
          by_cases hattached : s.attached = false
          · rw [if_pos hattached]
            exact hinv.sizes i hi
          · rw [if_neg hattached]
            dsimp only
            split
            · exact clamp_le _ _ _
            · exact hinv.sizes i hi
        · rw [if_neg hdevice]
          exact hinv.sizes i hi

/-! ## Large endpoints -/

theorem workBuffer_bounds (endpoint : EndpointDescriptor) (index : Nat) :
    2 * index ≤ workBuffer endpoint index ∧ workBuffer endpoint index < 2 * (index + 1) := by
  unfold workBuffer
  split <;> omega

/-- An endpoint is set up if its buffers have no `current_urb`. -/
theorem usbProbeNewEp_ready (endpoint : EndpointDescriptor) {index : Nat}
    (hurb : ∀ b, 2 * index ≤ b → s.urb b = false) :
    ∃ s₁, usbProbeNewEp s endpoint index .ready = some (s₁, true) ∧ s₁.dirty = s.dirty ∧
      (∀ b, 2 * (index + 1) ≤ b → s₁.urb b = false) ∧
      (endpoint.xferType ≠ .control → s₁.usbpipe (workBuffer endpoint index) = true) := by
  obtain ⟨hle, hlt⟩ := workBuffer_bounds endpoint index
  unfold usbProbeNewEp
  dsimp only
  cases htype : endpoint.xferType with
  | control =>
      exact ⟨_, rfl, rfl, fun b hb => hurb b (by omega), fun h => absurd rfl h⟩
  | isoc | bulk | int =>
      dsimp only
      rw [hurb _ hle, if_neg Bool.false_ne_true]
      refine ⟨_, rfl, rfl, fun b hb => ?_, fun _ => Function.update_self _ _ _⟩
      show Function.update s.urb (workBuffer endpoint index) true b = false
      rw [Function.update_of_ne (by omega)]
      exact hurb b (by omega)

/-- What the probe leaves of an endpoint. -/
theorem probeFrom_ready {endpoints : List EndpointDescriptor} :
    ∀ {s : HostBuffers} {index : Nat}, (∀ b, 2 * index ≤ b → s.urb b = false) →
      ∃ s', probeFrom (fun _ => .ready) s index endpoints = some (s', true) ∧
        s'.dirty = s.dirty ∧
        (∀ i < index, s'.transferSize i = s.transferSize i) ∧
        (∀ b < 2 * index, s'.usbpipe b = s.usbpipe b) ∧
        ∀ j endpoint, endpoints[j]? = some endpoint →
          s'.transferSize (index + j) = endpoint.wMaxPacketSize.toNat ∧
          (endpoint.xferType ≠ .control →
            s'.usbpipe (workBuffer endpoint (index + j)) = true) := by
  induction endpoints with
  | nil =>
      intro s index _
      exact ⟨s, rfl, rfl, fun _ _ => rfl, fun _ _ => rfl, fun _ _ h => (by simp at h)⟩
  | cons first endpoints ih =>
      intro s index hurb
      obtain ⟨s₁, hfirst, hdirty, hurb₁, hpipe⟩ := usbProbeNewEp_ready first hurb
      obtain ⟨hsizes, hpipes⟩ := usbProbeNewEp_sizes hfirst
      obtain ⟨hle, hlt⟩ := workBuffer_bounds first index
      obtain ⟨s', hrest, hdirty', hsizes', hpipes', hlater⟩ := ih hurb₁
      refine ⟨s', ?_, hdirty'.trans hdirty, fun i hi => ?_, fun b hb => ?_, ?_⟩
      · unfold probeFrom
        rw [hfirst]
        exact hrest
      · rw [hsizes' i (by omega), hsizes, Function.update_of_ne (by omega)]
      · rw [hpipes' b (by omega)]
        obtain hsame | ⟨_, hset⟩ := hpipes
        · rw [hsame]
        · rw [hset, Function.update_of_ne (by omega)]
      · intro j endpoint hget
        cases j with
        | zero =>
            cases hget
            refine ⟨?_, fun htype => ?_⟩
            · rw [Nat.add_zero, hsizes' index (Nat.lt_succ_self index), hsizes,
                Function.update_self]
            · rw [Nat.add_zero, hpipes' _ hlt]
              exact hpipe htype
        | succ j =>
            have hnext := hlater j endpoint hget
            rw [show index + (j + 1) = index + 1 + j by omega]
            exact hnext

/-- Of a device with an endpoint that is larger than a buffer more can be read, or written,
than the buffer holds. -/
theorem largeEndpoint_overflows {device : UsbDevice} {i : Nat} {endpoint : EndpointDescriptor}
    (hi : i < nHostDevices - 1) (hget : device.endpoints[i]? = some endpoint)
    (htype : endpoint.xferType ≠ .control)
    (hlarge : usbIobufDmaSize < endpoint.wMaxPacketSize.toNat) :
    ∃ es s, hostSystem.exec hostStart es = some s ∧ ¬ CountsBounded s := by
  obtain ⟨s, hprobe, hdirty, _, _, hprobed⟩ :=
    @probeFrom_ready device.probed hostStart 0 fun _ _ => rfl
  let attached : HostBuffers := { s with attached := s.attached || (true && true), counts := [] }
  have hstep : hostSystem.step hostStart (.probe device (fun _ => .ready) true) =
      some attached := by
    show hostdrvProbe _ _ _ _ = _
    unfold hostdrvProbe
    rw [hprobe]
    rfl
  have hget' : device.probed[i + 1]? = some endpoint := by
    unfold UsbDevice.probed
    rw [List.getElem?_cons_succ, List.getElem?_take, if_pos hi]
    exact hget
  obtain ⟨hsize, hpipe⟩ := hprobed (i + 1) endpoint hget'
  rw [Nat.zero_add] at hsize hpipe
  let size := endpoint.wMaxPacketSize.toNat
  let r : HostTransfer := ⟨true, true, 0, true⟩
  have hcount : hostCount attached (i + 1) size = size := by
    unfold hostCount
    rw [show attached.transferSize (i + 1) = size from hsize, if_neg (Nat.lt_irrefl _)]
  have htransfers : ∀ b, b = workBuffer endpoint (i + 1) →
      attached.transfers (i + 1) b = true := by
    rintro b rfl
    unfold HostBuffers.transfers
    rw [show attached.dirty = false from hdirty,
      show attached.usbpipe (workBuffer endpoint (i + 1)) = true from hpipe htype,
      decide_eq_true (by omega : i + 1 < nHostDevices)]
    rfl
  have hactual : r.actual ≤ hostCount attached (i + 1) size := Nat.zero_le _
  cases hdir : endpoint.dirIn with
  | true =>
      have hwork : 2 * (i + 1) = workBuffer endpoint (i + 1) := by
        unfold workBuffer
        rw [hdir, if_pos rfl]
      refine ⟨[.probe device (fun _ => .ready) true, .read (i + 1) size r],
        hostdrvRead attached (i + 1) size r, ?_, fun hbounded => ?_⟩
      · rw [System.exec_cons, hstep, Option.bind_some, System.exec_cons]
        have hread : hostSystem.step attached (.read (i + 1) size r) =
            some (hostdrvRead attached (i + 1) size r) :=
          (if_pos (htransfers _ hwork)).trans (if_pos hactual)
        rw [hread]
        rfl
      · have hle : hostCount attached (i + 1) size ≤ usbIobufDmaSize :=
          hbounded _ List.mem_cons_self
        rw [hcount] at hle
        exact absurd hlarge (Nat.not_lt.mpr hle)
  | false =>
      have hwork : 2 * (i + 1) + 1 = workBuffer endpoint (i + 1) := by
        unfold workBuffer
        rw [hdir, if_neg Bool.false_ne_true]
      refine ⟨[.probe device (fun _ => .ready) true, .write (i + 1) size r],
        hostdrvWrite attached (i + 1) size r, ?_, fun hbounded => ?_⟩
      · rw [System.exec_cons, hstep, Option.bind_some, System.exec_cons]
        have hwrite : hostSystem.step attached (.write (i + 1) size r) =
            some (hostdrvWrite attached (i + 1) size r) :=
          (if_pos (htransfers _ hwork)).trans (if_pos hactual)
        rw [hwrite]
        rfl
      · have hle : hostCount attached (i + 1) size ≤ usbIobufDmaSize :=
          hbounded _ List.mem_cons_self
        rw [hcount] at hle
        exact absurd hlarge (Nat.not_lt.mpr hle)

end

/-- **The counts** of all transfers are at most the size of a buffer, in every run in which
only devices are probed whose endpoints fit. -/
theorem countsBounded_of_fits {es : List HostEvent} {s : HostBuffers}
    (hprobes : ∀ e ∈ es, ProbesFitting e) (hrun : hostSystem.exec hostStart es = some s) :
    CountsBounded s := by
  have hmeets : hostSystem.Meets (fun _ e => ProbesFitting e) hostStart es :=
    hostSystem.meets_of_forall es hprobes
  have hinv := hostSystem.exec_invariant (fun s => SizesInv s ∧ CountsBounded s)
    (fun _ _ _ h hprobe hstep => hostStep_bounded h.1 hprobe hstep) es
    ⟨⟨fun _ _ => Nat.zero_le _, rfl, rfl⟩, fun _ hn => absurd hn List.not_mem_nil⟩ hmeets hrun
  exact hinv.2

/-- A device with one endpoint for bulk transfers to the host is attached, and read. -/
def attachAndRead (size : UInt16) (count : Nat) : List HostEvent :=
  [.probe ⟨64, [⟨true, .bulk, size⟩]⟩ (fun _ => .ready) true,
    .read 1 count ⟨true, true, 64, true⟩]

theorem countsBounded_bulk : ∃ s,
    hostSystem.exec hostStart (attachAndRead 512 4096) = some s ∧ CountsBounded s :=
  ⟨_, rfl, @countsBounded_of_fits (attachAndRead 512 4096) _ (by decide) rfl⟩

theorem largePacket_overflows : ¬ ∀ es s,
    hostSystem.exec hostStart es = some s → CountsBounded s := by
  intro h
  have hbounded := h (attachAndRead 65535 65535) _ rfl
  exact absurd (hbounded 65535 List.mem_cons_self) (by decide)

end Blts.Usb
