import Blts.Usb.HostBuffers

/-!
# The frames of an isochronous transfer

An isochronous transfer is described by frames of one packet each.  The URB of an endpoint is
allocated when the device is probed, with frames enough for packets of `MIN_TRANSFER_BUFFER`
bytes; how many are filled for a transfer follows from the packet size, which is decoded from
the descriptor of the endpoint and is whatever the device says.
-/

namespace Blts.Usb

open Blts.Lib

/-- What is wrong with filling an URB. -/
inductive IsocFault where
  | divisionByZero
  | outOfBounds
  deriving DecidableEq

/-- `usb_iso_packet_descriptor`. -/
structure IsoFrame where
  offset : Nat
  length : Nat
  deriving DecidableEq

/-- `DIV_ROUND_UP`, where the divisor is not 0. -/
def divRoundUp (n d : Nat) : Nat := (n + d - 1) / d

/-- The frames that `usb_buffer_setup_urb` allocates. -/
def isocPackets : Nat := divRoundUp usbIobufDmaSize minTransferBuffer

/-- Bits 0-10 are the size of a packet, bits 11-12 the number of extra packets. -/
def EndpointDescriptor.maxpacket (desc : EndpointDescriptor) : Nat :=
  (0x7ff &&& desc.wMaxPacketSize.toNat) * (1 + (0x3 &&& desc.wMaxPacketSize.toNat >>> 11))

/-- The loop over `packets` frames from frame `i` on. -/
def fillFrames (allocated maxpacket : Nat) : Nat → Nat → Nat → Except IsocFault (List IsoFrame)
  | 0, _, _ => .ok []
  | packets + 1, i, bufferLength =>
      if i < allocated then
        match fillFrames allocated maxpacket packets (i + 1)
            (bufferLength - min bufferLength maxpacket) with
        | .ok frames => .ok (⟨maxpacket * i, min bufferLength maxpacket⟩ :: frames)
        | .error fault => .error fault
      else .error .outOfBounds

/-- `hostdrv_usb_fill_isoc_urb` with an URB of so many frames. -/
def hostdrvUsbFillIsocUrb (allocated : Nat) (desc : EndpointDescriptor) (bufferLength : Nat) :
    Except IsocFault (List IsoFrame) :=
  if desc.maxpacket = 0 then .error .divisionByZero
  else
    fillFrames allocated desc.maxpacket (divRoundUp bufferLength desc.maxpacket) 0 bufferLength

/-- The frames cover `length` bytes from `start` on, one after the other, with at most
`maxpacket` bytes each. -/
def TilesFrom (maxpacket : Nat) : Nat → Nat → List IsoFrame → Prop
  | _, length, [] => length = 0
  | start, length, frame :: frames =>
      frame.offset = start ∧ frame.length ≤ maxpacket ∧ frame.length ≤ length ∧
        TilesFrom maxpacket (start + frame.length) (length - frame.length) frames

/-- The URB of an endpoint can be filled for a transfer, and its frames are the buffer. -/
def FillsUrb (desc : EndpointDescriptor) (length : Nat) : Prop :=
  ∃ frames, hostdrvUsbFillIsocUrb isocPackets desc length = .ok frames ∧
    TilesFrom desc.maxpacket 0 length frames

/-! ## A transfer -/

theorem divRoundUp_zero {d : Nat} (hd : 0 < d) : divRoundUp 0 d = 0 := by
  unfold divRoundUp
  exact Nat.div_eq_of_lt (by omega)

theorem divRoundUp_le_iff {n d k : Nat} (hd : 0 < d) : divRoundUp n d ≤ k ↔ n ≤ k * d := by
  unfold divRoundUp
  rw [← Nat.lt_succ_iff, Nat.div_lt_iff_lt_mul hd, Nat.succ_mul]
  omega

/-- A packet less is a frame less. -/
theorem divRoundUp_sub {n d : Nat} (hd : 0 < d) (hn : 0 < n) :
    divRoundUp (n - min n d) d + 1 = divRoundUp n d := by
  rcases Nat.lt_or_ge d n with hlt | hle
  · unfold divRoundUp
    rw [Nat.min_eq_right (Nat.le_of_lt hlt), ← Nat.add_div_right _ hd]
    congr 1
    omega
  · rw [Nat.min_eq_left hle, Nat.sub_self, divRoundUp_zero hd]
    unfold divRoundUp
    exact (Nat.div_eq_of_lt_le (by omega) (by omega)).symm

/-- With frames enough the loop tiles what is left of the buffer. -/
theorem fillFrames_tiles {allocated maxpacket : Nat} (hmax : 0 < maxpacket) (packets : Nat) :
    ∀ {i start length : Nat}, packets = divRoundUp length maxpacket →
      (length = 0 ∨ start = maxpacket * i) → i + packets ≤ allocated →
      ∃ frames, fillFrames allocated maxpacket packets i length = .ok frames ∧
        TilesFrom maxpacket start length frames := by
  induction packets with
  | zero =>
      intro i start length hpackets _ _
      have hle := (divRoundUp_le_iff hmax).mp (Nat.le_of_eq hpackets.symm)
      rw [Nat.zero_mul] at hle
      exact ⟨[], rfl, Nat.le_zero.mp hle⟩
  | succ packets ih =>
      intro i start length hpackets hstart hfits
      have hpos : 0 < length := by
        by_contra h
        rw [Nat.eq_zero_of_not_pos h, divRoundUp_zero hmax] at hpackets
        omega
      have hrest := divRoundUp_sub hmax hpos
      have hnext : length - min length maxpacket = 0 ∨
          start + min length maxpacket = maxpacket * (i + 1) := by
        rw [Nat.mul_succ]
        omega
      obtain ⟨frames, hfill, htiles⟩ := ih (by omega) hnext (by omega : i + 1 + packets ≤ allocated)
      refine ⟨⟨maxpacket * i, min length maxpacket⟩ :: frames, ?_, ?_⟩
      · rw [fillFrames, if_pos (by omega), hfill]
      · exact ⟨(hstart.resolve_left (Nat.ne_of_gt hpos)).symm, Nat.min_le_right ..,
          Nat.min_le_left .., htiles⟩

/-- Without them it leaves the URB. -/
theorem fillFrames_outOfBounds {allocated maxpacket : Nat} (packets : Nat) :
    ∀ {i length : Nat}, i ≤ allocated → allocated < i + packets →
      fillFrames allocated maxpacket packets i length = .error .outOfBounds := by
  induction packets with
  | zero =>
      intro i length hi hlt
      omega
  | succ packets ih =>
      intro i length hi hlt
      rw [fillFrames]
      rcases Nat.lt_or_ge i allocated with h | h
      · rw [if_pos h, ih h (by omega)]
      · rw [if_neg (Nat.not_lt.mpr h)]

/-- A transfer of an endpoint is described right where the packets are not empty and there are
frames enough for its length. -/
theorem fillsUrb_iff (desc : EndpointDescriptor) (length : Nat) :
    FillsUrb desc length ↔ 0 < desc.maxpacket ∧ length ≤ isocPackets * desc.maxpacket := by
  unfold FillsUrb hostdrvUsbFillIsocUrb
  by_cases hzero : desc.maxpacket = 0
  · rw [if_pos hzero]
    refine iff_of_false ?_ fun h => by omega
    rintro ⟨_, h, -⟩
    cases h
  · have hmax : 0 < desc.maxpacket := Nat.pos_of_ne_zero hzero
    rw [if_neg hzero, ← divRoundUp_le_iff hmax]
    constructor
    · rintro ⟨frames, hfill, -⟩
      refine ⟨hmax, Nat.not_lt.mp fun hlt => ?_⟩
      rw [fillFrames_outOfBounds _ (Nat.zero_le _) (by omega)] at hfill
      cases hfill
    · rintro ⟨-, hle⟩
      exact fillFrames_tiles hmax _ rfl (.inr (Nat.mul_zero _).symm) (by omega)

/-! ## The transfers of a device -/

/-- Both buffers of an endpoint have its descriptor, and the transfer size is what the
descriptor or the size of the buffers allows. -/
def TransferSizes (s : HostBuffers) : Prop :=
  ∀ i, s.usbEp (2 * i) = s.usbEp (2 * i + 1) ∧
    s.transferSize i ≤ max (s.usbEp (2 * i)).wMaxPacketSize.toNat usbIobufDmaSize

section

variable {s s' : HostBuffers}

theorem usbProbeNewEp_usbEp {endpoint : EndpointDescriptor} {index : Nat} {r : SetupResult}
    {ok : Bool} (h : usbProbeNewEp s endpoint index r = some (s', ok)) :
    s'.usbEp = Function.update (Function.update s.usbEp (2 * index) endpoint) (2 * index + 1)
      endpoint := by
  unfold usbProbeNewEp at h
  dsimp only at h
  cases htype : endpoint.xferType with
  | control =>
      rw [htype] at h
      cases h
      rfl
  | isoc | bulk | int =>
      rw [htype] at h
      dsimp only at h
      cases r with
      | dmaFailed =>
          cases h
          rfl
      | urbFailed | ready =>
          dsimp only at h
          by_cases hurb : s.urb (workBuffer endpoint index) = true
          · rw [if_pos hurb] at h
            cases h
          · rw [if_neg hurb] at h
            cases h
            rfl

theorem TransferSizes.probeEp (hsizes : TransferSizes s) {endpoint : EndpointDescriptor}
    {index : Nat} {r : SetupResult} {ok : Bool}
    (h : usbProbeNewEp s endpoint index r = some (s', ok)) : TransferSizes s' := by
  intro i
  rw [usbProbeNewEp_usbEp h, (usbProbeNewEp_sizes h).1]
  by_cases hi : i = index
  · subst hi
    rw [Function.update_self, Function.update_self, Function.update_of_ne (by omega),
      Function.update_self]
    exact ⟨rfl, Nat.le_max_left ..⟩
  · rw [Function.update_of_ne hi, Function.update_of_ne (by omega),
      Function.update_of_ne (by omega), Function.update_of_ne (by omega),
      Function.update_of_ne (by omega)]
    exact hsizes i

theorem TransferSizes.probeFrom {setup : Nat → SetupResult} {endpoints : List EndpointDescriptor} :
    ∀ {s : HostBuffers} {index : Nat} {ok : Bool}, TransferSizes s →
      probeFrom setup s index endpoints = some (s', ok) → TransferSizes s' := by
  induction endpoints with
  | nil =>
      intro s index ok hsizes h
      cases h
      exact hsizes
  | cons endpoint endpoints ih =>
      intro s index ok hsizes h
      obtain ⟨⟨s₁, ok₁⟩, hprobe, h⟩ := Option.bind_eq_some_iff.mp h
      have hsizes₁ := hsizes.probeEp hprobe
      dsimp only at h
      by_cases hok : ok₁ = true
      · rw [if_pos hok] at h
        exact ih hsizes₁ h
      · rw [if_neg hok] at h
        cases h
        exact hsizes₁

theorem adjustEpMaxTransfer_le (s : HostBuffers) (endpoint new : Nat) :
    adjustEpMaxTransfer s endpoint new ≤ max (s.transferSize endpoint) usbIobufDmaSize := by
  unfold adjustEpMaxTransfer
  dsimp only
  by_cases hattached : s.attached = false
  · rw [if_pos hattached]
    exact Nat.le_max_left ..
  · rw [if_neg hattached]
    by_cases hdir : (s.usbEp (2 * endpoint)).dirIn = true ∨
        (s.usbEp (2 * endpoint + 1)).dirIn = false
    · rw [if_pos hdir]
      exact Nat.le_trans (clamp_le ..) (Nat.le_max_right ..)
    · rw [if_neg hdir]
      exact Nat.le_max_left ..

theorem TransferSizes.sconf (hsizes : TransferSizes s) (sizes : Nat → Nat) :
    TransferSizes { s with
      transferSize := fun i =>
        if i < nHostDevices then adjustEpMaxTransfer s i (sizes i) else s.transferSize i
      counts := [] } := by
  intro i
  refine ⟨(hsizes i).1, ?_⟩
  have hsize := (hsizes i).2
  show (if i < nHostDevices then adjustEpMaxTransfer s i (sizes i) else s.transferSize i) ≤
    max (s.usbEp (2 * i)).wMaxPacketSize.toNat usbIobufDmaSize
  by_cases hi : i < nHostDevices
  · rw [if_pos hi]
    exact Nat.le_trans (adjustEpMaxTransfer_le s i (sizes i))
      (Nat.max_le.mpr ⟨hsize, Nat.le_max_right ..⟩)
  · rw [if_neg hi]
    exact hsize

/-- **A step.** -/
theorem TransferSizes.step (hsizes : TransferSizes s) {e : HostEvent}
    (h : hostSystem.step s e = some s') : TransferSizes s' := by
  cases e with
  | probe device setup registered =>
      obtain ⟨⟨s₁, ok⟩, hprobe, rfl⟩ := Option.map_eq_some_iff.mp h
      have hsizes₁ := hsizes.probeFrom hprobe
      exact hsizes₁
  | disconnect =>
      cases h
      exact fun _ => ⟨rfl, Nat.zero_le _⟩
  | opened minor =>
      replace h : (if _ then _ else _) = some s' := h
      by_cases hdirty : s.dirty = true
      · rw [if_pos hdirty] at h
        cases h
        exact hsizes
      · rw [if_neg hdirty] at h
        cases h
        exact hsizes
  | release =>
      cases h
      exact hsizes
  | read minor count r =>
      replace h : (if _ then (if _ then _ else _) else _) = some s' := h
      by_cases htransfers : s.transfers minor (2 * minor) = true
      · rw [if_pos htransfers] at h
        obtain ⟨-, h⟩ := Option.ite_none_right_eq_some.mp h
        cases h
        unfold hostdrvRead
        dsimp only
        by_cases hdone : (r.succeeded && r.relocked) = true
        · rw [if_pos hdone]
          exact hsizes
        · rw [if_neg hdone]
          exact hsizes
      · rw [if_neg htransfers] at h
        cases h
        exact hsizes
  | write minor count r =>
      replace h : (if _ then (if _ then _ else _) else _) = some s' := h
      by_cases htransfers : s.transfers minor (2 * minor + 1) = true
      · rw [if_pos htransfers] at h
        obtain ⟨-, h⟩ := Option.ite_none_right_eq_some.mp h
        cases h
        unfold hostdrvWrite
        dsimp only
        by_cases hcopied : r.copied = true
        · rw [if_pos hcopied]
          exact hsizes
        · rw [if_neg hcopied]
          exact hsizes
      · rw [if_neg htransfers] at h
        cases h
        exact hsizes
  | sconf sizes copied =>
      replace h : (if _ then _ else _) = some s' := h
      by_cases hcopied : (s.dirty || !copied) = true
      · rw [if_pos hcopied] at h
        cases h
        exact hsizes
      · rw [if_neg hcopied] at h
        cases h
        exact hsizes.sconf sizes

end

/-- `desc` is the descriptor of an endpoint that a read or a write of `length` bytes gets to,
in some run. -/
def Transfers (desc : EndpointDescriptor) (length : Nat) : Prop :=
  ∃ es s minor b count, hostSystem.exec hostStart es = some s ∧
    (b = 2 * minor ∨ b = 2 * minor + 1) ∧ s.transfers minor b = true ∧ s.usbEp b = desc ∧
    hostCount s minor count = length

theorem hostCount_le_size (s : HostBuffers) (minor count : Nat) :
    hostCount s minor count ≤ s.transferSize minor := by
  unfold hostCount
  by_cases h : s.transferSize minor < count
  · exact Nat.le_of_eq (if_pos h)
  · rw [if_neg h]
    omega

/-- No transfer is longer than the packets of its endpoint and than the buffers. -/
theorem Transfers.le {desc : EndpointDescriptor} {length : Nat} (h : Transfers desc length) :
    length ≤ max desc.wMaxPacketSize.toNat usbIobufDmaSize := by
  obtain ⟨es, s, minor, b, count, hrun, hb, -, hdesc, rfl⟩ := h
  have hsizes : TransferSizes s :=
    hostSystem.exec_invariant TransferSizes (fun _ _ _ h _ hstep => h.step hstep) es
      (fun _ => ⟨rfl, Nat.zero_le _⟩)
      (hostSystem.meets_of_forall (q := fun _ => True) es fun _ _ => trivial) hrun
  obtain ⟨hsame, hle⟩ := hsizes minor
  have hep : s.usbEp (2 * minor) = desc := by
    rcases hb with rfl | rfl
    · exact hdesc
    · exact hsame.trans hdesc
  rw [hep] at hle
  exact Nat.le_trans (hostCount_le_size s minor count) hle

/-- A device with one endpoint is attached. -/
def attach (desc : EndpointDescriptor) : HostEvent :=
  .probe ⟨64, [desc]⟩ (fun _ => .ready) true

/-- The first transfers may be as long as the packets of the endpoint. -/
theorem transfers_packet {desc : EndpointDescriptor} (htype : desc.xferType = .isoc) :
    Transfers desc desc.wMaxPacketSize.toNat := by
  obtain ⟨dirIn, xferType, size⟩ := desc
  cases htype
  cases dirIn with
  | true =>
      exact ⟨[attach ⟨true, .isoc, size⟩], _, 1, 2, size.toNat, rfl, .inl rfl, rfl, rfl,
        if_neg (Nat.lt_irrefl _)⟩
  | false =>
      exact ⟨[attach ⟨false, .isoc, size⟩], _, 1, 3, size.toNat, rfl, .inr rfl, rfl, rfl,
        if_neg (Nat.lt_irrefl _)⟩

theorem clamp_max (min max : Nat) : clamp max min max = max := by
  unfold clamp
  dsimp only
  by_cases h : max < min
  · rw [if_pos h, if_pos h]
  · rw [if_neg h, if_neg (Nat.lt_irrefl _)]

/-- After `HOSTDRV_IOCSCONF` they may be as long as the buffers. -/
theorem transfers_buffer {desc : EndpointDescriptor} (htype : desc.xferType = .isoc) :
    Transfers desc usbIobufDmaSize := by
  obtain ⟨dirIn, xferType, size⟩ := desc
  cases htype
  cases dirIn with
  | true =>
      refine ⟨[attach ⟨true, .isoc, size⟩, .sconf (fun _ => usbIobufDmaSize) true], _, 1, 2,
        usbIobufDmaSize, rfl, .inl rfl, rfl, rfl, ?_⟩
      have hsize : clamp usbIobufDmaSize (Nat.max size.toNat minTransferBuffer) usbIobufDmaSize =
          usbIobufDmaSize := clamp_max ..
      exact if_neg (Nat.not_lt.mpr (Nat.le_of_eq hsize.symm))
  | false =>
      exact ⟨[attach ⟨false, .isoc, size⟩, .sconf (fun _ => usbIobufDmaSize) true], _, 1, 3,
        usbIobufDmaSize, rfl, .inr rfl, rfl, rfl, rfl⟩

end Blts.Usb
