import Blts.Bluetooth.AgentCommands

/-!
# The events that the Bluetooth agent prints

A packet with an event has its type at 0, the code of the event at 1, the declared length at
2, and the parameters from 3 on.  The code is looked up in a table of names before the switch.
Some events hold a count and then as many records, and their length is compared with nothing.
-/

namespace Blts.Bluetooth

open Blts.Lib

inductive EventCode where
  | inquiryComplete
  | inquiryResult
  | connComplete
  | connRequest
  | disconnComplete
  | authComplete
  | remoteNameReqComplete
  | encryptChange
  | changeConnLinkKeyComplete
  | masterLinkKeyComplete
  | readRemoteFeaturesComplete
  | readRemoteVersionComplete
  | qosSetupComplete
  | cmdComplete
  | cmdStatus
  | hardwareError
  | flushOccurred
  | roleChange
  | numCompPkts
  | modeChange
  | returnLinkKeys
  | pinCodeReq
  | linkKeyReq
  | linkKeyNotify
  | loopbackCommand
  | dataBufferOverflow
  | maxSlotsChange
  | readClockOffsetComplete
  | connPtypeChanged
  | qosViolation
  | pscanRepModeChange
  | flowSpecComplete
  | inquiryResultWithRssi
  | readRemoteExtFeaturesComplete
  | syncConnComplete
  | syncConnChanged
  | sniffSubrating
  | extendedInquiryResult
  | encryptionKeyRefreshComplete
  | ioCapabilityRequest
  | ioCapabilityResponse
  | userConfirmRequest
  | userPasskeyRequest
  | remoteOobDataRequest
  | simplePairingComplete
  | linkSupervisionTimeoutChanged
  | enhancedFlushComplete
  | userPasskeyNotify
  | keypressNotify
  | remoteHostFeaturesNotify
  | leMetaEvent
  | stackInternal
  | testing
  | vendor
  deriving DecidableEq

/-- The labels `EVT_…` of the switch. -/
def EventCode.ofCode (btle : Bool) : Nat → Option EventCode
  | 0x01 => some .inquiryComplete
  | 0x02 => some .inquiryResult
  | 0x03 => some .connComplete
  | 0x04 => some .connRequest
  | 0x05 => some .disconnComplete
  | 0x06 => some .authComplete
  | 0x07 => some .remoteNameReqComplete
  | 0x08 => some .encryptChange
  | 0x09 => some .changeConnLinkKeyComplete
  | 0x0a => some .masterLinkKeyComplete
  | 0x0b => some .readRemoteFeaturesComplete
  | 0x0c => some .readRemoteVersionComplete
  | 0x0d => some .qosSetupComplete
  | 0x0e => some .cmdComplete
  | 0x0f => some .cmdStatus
  | 0x10 => some .hardwareError
  | 0x11 => some .flushOccurred
  | 0x12 => some .roleChange
  | 0x13 => some .numCompPkts
  | 0x14 => some .modeChange
  | 0x15 => some .returnLinkKeys
  | 0x16 => some .pinCodeReq
  | 0x17 => some .linkKeyReq
  | 0x18 => some .linkKeyNotify
  | 0x19 => some .loopbackCommand
  | 0x1a => some .dataBufferOverflow
  | 0x1b => some .maxSlotsChange
  | 0x1c => some .readClockOffsetComplete
  | 0x1d => some .connPtypeChanged
  | 0x1e => some .qosViolation
  | 0x20 => some .pscanRepModeChange
  | 0x21 => some .flowSpecComplete
  | 0x22 => some .inquiryResultWithRssi
  | 0x23 => some .readRemoteExtFeaturesComplete
  | 0x2c => some .syncConnComplete
  | 0x2d => some .syncConnChanged
  | 0x2e => some .sniffSubrating
  | 0x2f => some .extendedInquiryResult
  | 0x30 => some .encryptionKeyRefreshComplete
  | 0x31 => some .ioCapabilityRequest
  | 0x32 => some .ioCapabilityResponse
  | 0x33 => some .userConfirmRequest
  | 0x34 => some .userPasskeyRequest
  | 0x35 => some .remoteOobDataRequest
  | 0x36 => some .simplePairingComplete
  | 0x38 => some .linkSupervisionTimeoutChanged
  | 0x39 => some .enhancedFlushComplete
  | 0x3b => some .userPasskeyNotify
  | 0x3c => some .keypressNotify
  | 0x3d => some .remoteHostFeaturesNotify
  | 0x3e => if btle then some .leMetaEvent else none
  | 0xfd => some .stackInternal
  | 0xfe => some .testing
  | 0xff => some .vendor
  | _ => none

/-- Print fields and the name of the status, which is the first byte of the parameters. -/
def statused (p : List UInt8) (fs : List Field) (tmp : Temp) : Except Misuse Done := do
  readFields .pastPacket p 3 fs
  errorAt p 3
  pure { tmp := tmp }

/-- Print as many records as the first byte of the parameters says. -/
def counted (p : List UInt8) (size : Nat) (fs : List Field) : Except Misuse Done := do
  let count ← byteAt .pastPacket p 3
  readRecords .pastPacket p 4 size fs count
  pure {}

/-- The name of a device, which is read when the message with it is written. -/
def deviceName (h : Host) (p : List UInt8) : Except Misuse Unit :=
  if h.debug then readString .pastPacket (p.drop 10) else .ok ()

/-- The status of a command; 0 has a name of its own. -/
def commandStatus (p : List UInt8) : Except Misuse Unit := do
  let status ← byteAt .pastPacket p 3
  if status = 0 then .ok () else errorAt p 3

/-- The size of a result, as the declared length and the count give it. -/
def inquirySize (p : List UInt8) : Int := Int.tdiv ((byte p 2 : Int) - 1) (byte p 3)

/-- The case `EVT_INQUIRY_RESULT_WITH_RSSI`, for the two structures that BlueZ has for it. -/
def inquiryResultWithRssi (p : List UInt8) : Except Misuse Done := do
  let count ← byteAt .pastPacket p 3
  if count = 0 then
    pure { ret := -1 }
  else do
    let _plen ← byteAt .pastPacket p 2
    if inquirySize p = 14 then do
      readRecords .pastPacket p 4 14 [bdaddr 0, u8 6, u8 7, octets 8 3, u16 11, u8 13] count
      pure {}
    else if inquirySize p = 15 then do
      readRecords .pastPacket p 4 15 [bdaddr 0, u8 6, u8 7, u8 8, octets 9 3, u16 12, u8 14] count
      pure {}
    else pure {}

/-- The cases of `bt_fute_agent_handle_hci_event`. -/
def eventCase (h : Host) (p : List UInt8) : EventCode → Except Misuse Done
  | .inquiryComplete => statused p [] .null
  | .inquiryResult => counted p 14 [bdaddr 0, u8 6, octets 9 3, u16 12]
  | .connComplete => sized p 2 11 (statused p [bdaddr 3, u16 1, u8 9, u8 10] .null)
  | .connRequest => sized p 2 10 (printed p 3 [bdaddr 0, octets 6 3, u8 9])
  | .disconnComplete => sized p 2 4 do
      errorAt p 6
      statused p [u16 1] .null
  | .authComplete => sized p 2 3 (statused p [u16 1] .null)
  | .remoteNameReqComplete => sized p 2 255 do
      deviceName h p
      statused p [bdaddr 1] .null
  | .encryptChange => sized p 2 4 (statused p [u16 1, u8 3] .null)
  | .changeConnLinkKeyComplete => sized p 2 3 (statused p [u16 1] .null)
  | .masterLinkKeyComplete => sized p 2 4 (statused p [u16 1, u8 3] .null)
  | .readRemoteFeaturesComplete => sized p 2 11 (statused p [octets 3 8, u16 1] .allocated)
  | .readRemoteVersionComplete =>
      sized p 2 8 (statused p [u8 3, u16 1, u16 4, u16 6] .allocated)
  | .qosSetupComplete => sized p 2 21 (pure {})
  | .cmdComplete => sized p 2 3 do
      let opcode ← h.u16At p 4
      opcodeToOcfStr h opcode
      printed p 3 [u8 0]
  | .cmdStatus => sized p 2 4 do
      commandStatus p
      let opcode ← h.u16At p 5
      opcodeToOcfStr h opcode
      printed p 3 [u8 1]
  | .hardwareError => sized p 2 1 (printed p 3 [u8 0])
  | .flushOccurred => sized p 2 2 (printed p 3 [u16 0])
  | .roleChange => sized p 2 8 do
      let role ← byteAt .pastPacket p 10
      let done ← statused p [bdaddr 1] .null
      pure { done with role := some role }
  | .numCompPkts => counted p 2 [u16 0]
  | .modeChange => sized p 2 6 (statused p [u16 1, u8 3, u16 4] .null)
  | .returnLinkKeys => counted p 22 [bdaddr 0, octets 6 16]
  | .pinCodeReq => sized p 2 6 (printed p 3 [bdaddr 0])
  | .linkKeyReq => sized p 2 6 (printed p 3 [bdaddr 0])
  | .linkKeyNotify => sized p 2 23 (printed p 3 [bdaddr 0, octets 6 16, u8 22])
  | .loopbackCommand => pure {}
  | .dataBufferOverflow => sized p 2 1 (printed p 3 [u8 0])
  | .maxSlotsChange => sized p 2 3 (printed p 3 [u16 0, u8 2])
  | .readClockOffsetComplete => sized p 2 5 (statused p [u16 1, u16 3] .null)
  | .connPtypeChanged => sized p 2 5 (statused p [u16 3, u16 1] .allocated)
  | .qosViolation => sized p 2 2 (printed p 3 [u16 0])
  | .pscanRepModeChange => sized p 2 7 (printed p 3 [bdaddr 0, u8 6])
  | .flowSpecComplete => sized p 2 22 (statused p [u16 1, u8 4] .null)
  | .inquiryResultWithRssi => inquiryResultWithRssi p
  | .readRemoteExtFeaturesComplete =>
      sized p 2 13 (statused p [octets 5 8, u16 1, u8 3, u8 4] .allocated)
  -- The link type is given as one of three constants, in the pointer that is freed.
  | .syncConnComplete => sized p 2 17
      (statused p [bdaddr 3, u8 9, u16 1, u8 10, u8 11, u16 12, u16 14, u8 16] .literal)
  | .syncConnChanged => sized p 2 9 (statused p [u16 1, u8 3, u8 4, u16 5, u16 7] .null)
  | .sniffSubrating => sized p 2 11 (statused p [u16 1, u16 3, u16 5, u16 7, u16 9] .null)
  | .extendedInquiryResult => printed p 3 [u8 0, bdaddr 1, u8 7, u8 8, octets 9 3, u8 14]
  | .encryptionKeyRefreshComplete => sized p 2 3 (statused p [u16 1] .null)
  | .ioCapabilityRequest => sized p 2 6 (printed p 3 [bdaddr 0])
  | .ioCapabilityResponse => sized p 2 9 (printed p 3 [bdaddr 0, u8 6, u8 7, u8 8])
  | .userConfirmRequest => sized p 2 10 (pure {})
  | .userPasskeyRequest => sized p 2 6 (pure {})
  | .remoteOobDataRequest => sized p 2 6 (pure {})
  | .simplePairingComplete => sized p 2 7 (pure {})
  | .linkSupervisionTimeoutChanged => sized p 2 4 (pure {})
  | .enhancedFlushComplete => sized p 2 2 (pure {})
  | .userPasskeyNotify => sized p 2 10 (pure {})
  | .keypressNotify => sized p 2 7 (pure {})
  | .remoteHostFeaturesNotify => sized p 2 14 (pure {})
  | .leMetaEvent => sized p 2 1 (pure {})
  | .testing | .vendor => pure {}
  | .stackInternal => sized p 2 2 (pure {})

/-- `bt_fute_agent_handle_hci_event`: what it returns, and the role that it leaves. -/
def handleHciEvent (h : Host) (role : Nat) (p : List UInt8) : Except Misuse (Int × Nat) := do
  let evt ← byteAt .pastPacket p 1
  entryAt futeEventStr evt
  let done ←
    match EventCode.ofCode h.btle evt with
    | some e => eventCase h p e
    | none => pure {}
  done.tmp.release
  pure (done.ret, done.role.getD role)

/-! ## What a packet needs -/

/-- A case that compares the length needs that, and for the right one what its body needs. -/
def Sized (p : List UInt8) (size : Nat) (body : Prop) : Prop :=
  3 ≤ p.length ∧ (byte p 2 = size → body)

/-- What the case of an event needs: the fields that it reads are in the packet, and what it
looks up has a name. -/
def EventCode.Fits (h : Host) (p : List UInt8) : EventCode → Prop
  | .inquiryComplete => 4 ≤ p.length ∧ byte p 3 < 0x39
  | .inquiryResult => 4 + byte p 3 * 14 ≤ p.length
  | .numCompPkts => 4 + byte p 3 * 2 ≤ p.length
  | .returnLinkKeys => 4 + byte p 3 * 22 ≤ p.length
  | .inquiryResultWithRssi => 4 ≤ p.length ∧
      (inquirySize p = 14 → 4 + byte p 3 * 14 ≤ p.length) ∧
      (inquirySize p = 15 → 4 + byte p 3 * 15 ≤ p.length)
  | .extendedInquiryResult => 18 ≤ p.length
  | .loopbackCommand | .testing | .vendor => True
  | .qosSetupComplete | .userConfirmRequest | .userPasskeyRequest | .remoteOobDataRequest
  | .simplePairingComplete | .linkSupervisionTimeoutChanged | .enhancedFlushComplete
  | .userPasskeyNotify | .keypressNotify | .remoteHostFeaturesNotify | .leMetaEvent
  | .stackInternal => 3 ≤ p.length
  | .syncConnComplete => Sized p 17 False
  | .hardwareError | .dataBufferOverflow => Sized p 1 (4 ≤ p.length)
  | .flushOccurred | .qosViolation => Sized p 2 (5 ≤ p.length)
  | .maxSlotsChange => Sized p 3 (6 ≤ p.length)
  | .pinCodeReq | .linkKeyReq | .ioCapabilityRequest => Sized p 6 (9 ≤ p.length)
  | .pscanRepModeChange => Sized p 7 (10 ≤ p.length)
  | .ioCapabilityResponse => Sized p 9 (12 ≤ p.length)
  | .connRequest => Sized p 10 (13 ≤ p.length)
  | .linkKeyNotify => Sized p 23 (26 ≤ p.length)
  | .authComplete | .changeConnLinkKeyComplete | .encryptionKeyRefreshComplete =>
      Sized p 3 (6 ≤ p.length ∧ byte p 3 < 0x39)
  | .encryptChange | .masterLinkKeyComplete => Sized p 4 (7 ≤ p.length ∧ byte p 3 < 0x39)
  | .disconnComplete => Sized p 4 (7 ≤ p.length ∧ byte p 3 < 0x39 ∧ byte p 6 < 0x39)
  | .readClockOffsetComplete | .connPtypeChanged =>
      Sized p 5 (8 ≤ p.length ∧ byte p 3 < 0x39)
  | .modeChange => Sized p 6 (9 ≤ p.length ∧ byte p 3 < 0x39)
  | .readRemoteVersionComplete | .roleChange => Sized p 8 (11 ≤ p.length ∧ byte p 3 < 0x39)
  | .syncConnChanged => Sized p 9 (12 ≤ p.length ∧ byte p 3 < 0x39)
  | .connComplete | .readRemoteFeaturesComplete | .sniffSubrating =>
      Sized p 11 (14 ≤ p.length ∧ byte p 3 < 0x39)
  | .readRemoteExtFeaturesComplete => Sized p 13 (16 ≤ p.length ∧ byte p 3 < 0x39)
  | .flowSpecComplete => Sized p 22 (8 ≤ p.length ∧ byte p 3 < 0x39)
  | .remoteNameReqComplete => Sized p 255
      (10 ≤ p.length ∧ byte p 3 < 0x39 ∧ (h.debug = true → 0 ∈ p.drop 10))
  | .cmdComplete => Sized p 3 (6 ≤ p.length ∧ h.HasName (h.u16 p 4))
  | .cmdStatus => Sized p 4 (7 ≤ p.length ∧ byte p 3 < 0x39 ∧ h.HasName (h.u16 p 5))

section

variable {p : List UInt8} {size : Nat} {fs : List Field} {tmp : Temp}

theorem returns_eventSized {body : Except Misuse Done} :
    Returns (sized p 2 size body) Done.Freeable ↔ Sized p size (Returns body Done.Freeable) := by
  by_cases ho : 2 < p.length
  · rw [returns_sized ho]
    exact ⟨fun h => ⟨ho, h⟩, fun h => h.2⟩
  · rw [sized, returns_bind, returns_byteAt]
    exact ⟨fun h => absurd h.1 ho, fun h => absurd h.1 ho⟩

theorem Sized.congr {body body' : Prop} (h : 3 ≤ p.length → (body ↔ body')) :
    Sized p size body ↔ Sized p size body' :=
  and_congr_right fun hlen => imp_congr_right fun _ => h hlen

theorem returns_statused : Returns (statused p fs tmp) Done.Freeable ↔
    fieldsEnd 3 fs ≤ p.length ∧ 3 < p.length ∧ byte p 3 < 0x39 ∧ tmp ≠ .literal := by
  simp [statused, Done.Freeable, futeHciErrors]

theorem returns_sized_fields :
    Returns (sized p 2 size (printed p 3 fs)) Done.Freeable ↔
      Sized p size (fieldsEnd 3 fs ≤ p.length) := by
  rw [returns_eventSized, returns_printed]

/-- A status is the first byte of its structure. -/
theorem returns_sized_status (hend : 4 ≤ fieldsEnd 3 fs) (htmp : tmp ≠ .literal) :
    Returns (sized p 2 size (statused p fs tmp)) Done.Freeable ↔
      Sized p size (fieldsEnd 3 fs ≤ p.length ∧ byte p 3 < 0x39) := by
  rw [returns_eventSized, returns_statused]
  refine Sized.congr fun _ => ?_
  constructor
  · rintro ⟨hin, -, hname, -⟩
    exact ⟨hin, hname⟩
  · rintro ⟨hin, hname⟩
    exact ⟨hin, by omega, hname, htmp⟩

theorem returns_sized_nothing :
    Returns (sized p 2 size (pure {})) Done.Freeable ↔ 3 ≤ p.length := by
  rw [returns_eventSized]
  exact ⟨fun h => h.1, fun h => ⟨h, fun _ => returns_pure.mpr Temp.noConfusion⟩⟩

theorem returns_results (hfs : fs ≠ []) (hfull : fieldsEnd 0 fs = size) (hlen : 4 ≤ p.length) :
    Returns (readRecords Misuse.pastPacket p 4 size fs (byte p 3))
      (fun _ => Returns (pure {} : Except Misuse Done) Done.Freeable) ↔
      4 + byte p 3 * size ≤ p.length := by
  rw [returns_readRecords_of_full hfs hfull hlen]
  exact and_iff_left (returns_pure.mpr Temp.noConfusion)

theorem returns_counted (hfs : fs ≠ []) (hfull : fieldsEnd 0 fs = size) :
    Returns (counted p size fs) Done.Freeable ↔ 4 + byte p 3 * size ≤ p.length := by
  simp only [counted, returns_bind, returns_byteAt]
  constructor
  · rintro ⟨hlen, hread⟩
    exact (returns_results hfs hfull hlen).mp hread
  · intro hcount
    have hlen : 4 ≤ p.length := by omega
    exact ⟨hlen, (returns_results hfs hfull hlen).mpr hcount⟩

end

theorem inquirySize_of_no_count {p : List UInt8} (h : byte p 3 = 0) : inquirySize p = 0 := by
  rw [inquirySize, h]
  exact Int.tdiv_zero _

theorem returns_deviceName {h : Host} {p : List UInt8} {post : Unit → Prop} :
    Returns (deviceName h p) post ↔ (h.debug = true → 0 ∈ p.drop 10) ∧ post () := by
  rw [deviceName, returns_ite, returns_readString, returns_ok]
  by_cases hdebug : h.debug = true
  · simp [hdebug]
  · simp [hdebug]

theorem returns_commandStatus {p : List UInt8} {post : Unit → Prop} :
    Returns (commandStatus p) post ↔ 3 < p.length ∧ byte p 3 < 0x39 ∧ post () := by
  rw [commandStatus, returns_bind, returns_byteAt, returns_ite, returns_ok, returns_errorAt,
    futeHciErrors]
  by_cases hstatus : byte p 3 = 0
  · simp [hstatus]
  · simp [hstatus]

theorem returns_inquiryResultWithRssi {p : List UInt8} :
    Returns (inquiryResultWithRssi p) Done.Freeable ↔ 4 ≤ p.length ∧
      (inquirySize p = 14 → 4 + byte p 3 * 14 ≤ p.length) ∧
      (inquirySize p = 15 → 4 + byte p 3 * 15 ≤ p.length) := by
  rw [inquiryResultWithRssi, returns_bind, returns_byteAt]
  refine and_congr_right fun hlen => ?_
  have hplen : 2 < p.length := Nat.lt_of_succ_lt hlen
  have hdone : Returns (pure {} : Except Misuse Done) Done.Freeable :=
    returns_pure.mpr Temp.noConfusion
  by_cases hcount : byte p 3 = 0
  · rw [if_pos hcount, inquirySize_of_no_count hcount]
    exact iff_of_true (returns_pure.mpr Temp.noConfusion) ⟨fun h => by omega, fun h => by omega⟩
  rw [if_neg hcount, returns_bind, returns_byteAt, and_iff_right hplen]
  by_cases h14 : inquirySize p = 14
  · rw [if_pos h14, returns_bind]
    refine (returns_results (List.cons_ne_nil _ _) (by rfl) hlen).trans ?_
    exact ⟨fun hin => ⟨fun _ => hin, fun h15 => by omega⟩, fun h => h.1 h14⟩
  rw [if_neg h14]
  by_cases h15 : inquirySize p = 15
  · rw [if_pos h15, returns_bind]
    refine (returns_results (List.cons_ne_nil _ _) (by rfl) hlen).trans ?_
    exact ⟨fun hin => ⟨fun h => absurd h h14, fun _ => hin⟩, fun h => h.2 h15⟩
  · rw [if_neg h15]
    exact iff_of_true hdone ⟨fun h => absurd h h14, fun h => absurd h h15⟩

theorem returns_eventCase {h : Host} {p : List UInt8} (e : EventCode) :
    Returns (eventCase h p e) Done.Freeable ↔ e.Fits h p := by
  cases e with
  | inquiryComplete =>
      show Returns (statused p [] .null) _ ↔ _
      rw [returns_statused]
      constructor
      · rintro ⟨-, hin, hname, -⟩
        exact ⟨hin, hname⟩
      · rintro ⟨hin, hname⟩
        exact ⟨Nat.zero_le _, hin, hname, by decide⟩
  | inquiryResult => exact returns_counted (List.cons_ne_nil _ _) rfl
  | connComplete => exact returns_sized_status (by decide) (by decide)
  | connRequest => exact returns_sized_fields
  | disconnComplete =>
      show Returns (sized p 2 4 _) _ ↔ Sized p 4 _
      rw [returns_eventSized, returns_bind, returns_errorAt, returns_statused]
      refine Sized.congr fun _ => ?_
      constructor
      · rintro ⟨hin, hreason, -, -, hstatus, -⟩
        exact ⟨hin, hstatus, hreason⟩
      · rintro ⟨hin, hstatus, hreason⟩
        exact ⟨hin, hreason, show 6 ≤ p.length by omega, by omega, hstatus, by decide⟩
  | authComplete => exact returns_sized_status (by decide) (by decide)
  | remoteNameReqComplete =>
      show Returns (sized p 2 255 _) _ ↔ Sized p 255 _
      rw [returns_eventSized, returns_bind, returns_deviceName, returns_statused]
      refine Sized.congr fun _ => ?_
      constructor
      · rintro ⟨hstring, hin, -, hstatus, -⟩
        exact ⟨hin, hstatus, hstring⟩
      · rintro ⟨hin, hstatus, hstring⟩
        exact ⟨hstring, hin, by omega, hstatus, by decide⟩
  | encryptChange => exact returns_sized_status (by decide) (by decide)
  | changeConnLinkKeyComplete => exact returns_sized_status (by decide) (by decide)
  | masterLinkKeyComplete => exact returns_sized_status (by decide) (by decide)
  | readRemoteFeaturesComplete => exact returns_sized_status (by decide) (by decide)
  | readRemoteVersionComplete => exact returns_sized_status (by decide) (by decide)
  | qosSetupComplete => exact returns_sized_nothing
  | cmdComplete =>
      show Returns (sized p 2 3 _) _ ↔ Sized p 3 _
      rw [returns_eventSized, returns_bind, Host.returns_u16At, returns_bind,
        returns_opcodeToOcfStr, returns_printed]
      refine Sized.congr fun _ => ?_
      constructor
      · rintro ⟨hin, hname, -⟩
        exact ⟨hin, hname⟩
      · rintro ⟨hin, hname⟩
        exact ⟨hin, hname, show 4 ≤ p.length by omega⟩
  | cmdStatus =>
      show Returns (sized p 2 4 _) _ ↔ Sized p 4 _
      rw [returns_eventSized, returns_bind, returns_commandStatus, returns_bind,
        Host.returns_u16At, returns_bind, returns_opcodeToOcfStr, returns_printed]
      refine Sized.congr fun _ => ?_
      constructor
      · rintro ⟨-, hstatus, hin, hname, -⟩
        exact ⟨hin, hstatus, hname⟩
      · rintro ⟨hin, hstatus, hname⟩
        exact ⟨by omega, hstatus, hin, hname, show 5 ≤ p.length by omega⟩
  | hardwareError => exact returns_sized_fields
  | flushOccurred => exact returns_sized_fields
  | roleChange =>
      show Returns (sized p 2 8 _) _ ↔ Sized p 8 _
      rw [returns_eventSized, returns_bind, returns_byteAt, returns_bind]
      simp only [returns_pure]
      rw [show (fun d : Done => Done.Freeable { d with role := some (byte p 10) }) =
        Done.Freeable from rfl, returns_statused]
      refine Sized.congr fun _ => ?_
      constructor
      · rintro ⟨hin, -, -, hstatus, -⟩
        exact ⟨hin, hstatus⟩
      · rintro ⟨hin, hstatus⟩
        exact ⟨hin, show 10 ≤ p.length by omega, by omega, hstatus, by decide⟩
  | numCompPkts => exact returns_counted (List.cons_ne_nil _ _) rfl
  | modeChange => exact returns_sized_status (by decide) (by decide)
  | returnLinkKeys => exact returns_counted (List.cons_ne_nil _ _) rfl
  | pinCodeReq => exact returns_sized_fields
  | linkKeyReq => exact returns_sized_fields
  | linkKeyNotify => exact returns_sized_fields
  | loopbackCommand => exact iff_of_true (returns_pure.mpr Temp.noConfusion) trivial
  | dataBufferOverflow => exact returns_sized_fields
  | maxSlotsChange => exact returns_sized_fields
  | readClockOffsetComplete => exact returns_sized_status (by decide) (by decide)
  | connPtypeChanged => exact returns_sized_status (by decide) (by decide)
  | qosViolation => exact returns_sized_fields
  | pscanRepModeChange => exact returns_sized_fields
  | flowSpecComplete => exact returns_sized_status (by decide) (by decide)
  | inquiryResultWithRssi => exact returns_inquiryResultWithRssi
  | readRemoteExtFeaturesComplete => exact returns_sized_status (by decide) (by decide)
  | syncConnComplete =>
      show Returns (sized p 2 17 (statused p _ .literal)) _ ↔ Sized p 17 False
      rw [returns_eventSized, returns_statused]
      exact Sized.congr fun _ => iff_false_intro fun h => h.2.2.2 rfl
  | syncConnChanged => exact returns_sized_status (by decide) (by decide)
  | sniffSubrating => exact returns_sized_status (by decide) (by decide)
  | extendedInquiryResult => exact returns_printed
  | encryptionKeyRefreshComplete => exact returns_sized_status (by decide) (by decide)
  | ioCapabilityRequest => exact returns_sized_fields
  | ioCapabilityResponse => exact returns_sized_fields
  | userConfirmRequest => exact returns_sized_nothing
  | userPasskeyRequest => exact returns_sized_nothing
  | remoteOobDataRequest => exact returns_sized_nothing
  | simplePairingComplete => exact returns_sized_nothing
  | linkSupervisionTimeoutChanged => exact returns_sized_nothing
  | enhancedFlushComplete => exact returns_sized_nothing
  | userPasskeyNotify => exact returns_sized_nothing
  | keypressNotify => exact returns_sized_nothing
  | remoteHostFeaturesNotify => exact returns_sized_nothing
  | leMetaEvent => exact returns_sized_nothing
  | stackInternal => exact returns_sized_nothing
  | testing => exact iff_of_true (returns_pure.mpr Temp.noConfusion) trivial
  | vendor => exact iff_of_true (returns_pure.mpr Temp.noConfusion) trivial

/-- What a packet with an event needs. -/
def EventFits (h : Host) (p : List UInt8) : Prop :=
  2 ≤ p.length ∧ byte p 1 < 0x3e ∧ ∀ e ∈ EventCode.ofCode h.btle (byte p 1), e.Fits h p

theorem returns_handleHciEvent (h : Host) (role : Nat) (p : List UInt8) :
    Returns (handleHciEvent h role p) (fun _ => True) ↔ EventFits h p := by
  unfold handleHciEvent EventFits
  rw [returns_bind, returns_byteAt, returns_bind, returns_entryAt, futeEventStr]
  refine and_congr_right fun _ => and_congr_right fun _ => ?_
  cases EventCode.ofCode h.btle (byte p 1) with
  | none => simp [returns_release]
  | some e =>
      simp only [returns_bind, returns_release, returns_pure, and_true, Option.mem_def,
        Option.some.injEq, forall_eq']
      exact returns_eventCase e

/-!
## Every packet of the Bluetooth agent

The agent's thread receives into a buffer of `HCI_MAX_FRAME_SIZE` bytes, copies what has come
to a block of that length, and handles it.  Only commands and events are looked into.  The
packets that are handled without misusing memory are those that hold the fields read from them
and the codes that have names.
-/

/-- `bt_fute_agent_read_data`: the payload that is left for a datagram of the socket.  Without
one the peer has disconnected. -/
def readData (datagram : List UInt8) : Except Misuse (Option (List UInt8)) := do
  let buffer : Temp := .allocated
  let ctrl : Temp := .allocated
  let payload := if datagram = [] then none else some (datagram.take hciMaxFrameSize)
  buffer.release
  ctrl.release
  pure payload

/-- `bt_fute_agent_handle_data`. -/
def handleData (h : Host) (role : Nat) (p : List UInt8) : Except Misuse (Int × Nat) := do
  let hciType ← byteAt .pastPacket p 0
  match hciType with
  | 0x01 => do
      let ret ← handleHciCommand h p
      pure (ret, role)
  | 0x04 => handleHciEvent h role p
  | _ => pure (0, role)

/-- The thread reads a packet and handles it. -/
def handlePacket (h : Host) (role : Nat) (datagram : List UInt8) : Except Misuse (Int × Nat) := do
  match ← readData datagram with
  | none => pure (-1, role)
  | some p => handleData h role p

/-- What a packet needs. -/
def PacketFits (h : Host) (p : List UInt8) : Prop :=
  (byte p 0 = 0x01 → CommandFits h p) ∧ (byte p 0 = 0x04 → EventFits h p)

theorem returns_handleData (h : Host) (role : Nat) {p : List UInt8} (hp : p ≠ []) :
    Returns (handleData h role p) (fun _ => True) ↔ PacketFits h p := by
  have hlen : 0 < p.length := List.length_pos_of_ne_nil hp
  unfold handleData PacketFits
  rw [returns_bind, returns_byteAt, and_iff_right hlen]
  split
  · rename_i htype
    rw [returns_bind]
    simp only [returns_pure, htype]
    simpa using returns_handleHciCommand h p
  · rename_i htype
    simpa [htype] using returns_handleHciEvent h role p
  · rename_i hcommand hevent
    exact iff_of_true (returns_pure.mpr trivial)
      ⟨fun htype => absurd htype hcommand, fun htype => absurd htype hevent⟩

/-- A host with the least byte first that writes its debug messages. -/
def ordinaryHost : Host := ⟨.little, true, true⟩

end Blts.Bluetooth
