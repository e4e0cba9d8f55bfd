import Blts.Bluetooth.HciDump
import Blts.Lib.Fields

/-!
# The commands that the Bluetooth agent prints

The agent prints each packet that its socket receives.  What a packet holds is cast to a
structure of BlueZ once the length that the packet declares has been compared with that of the
structure.  The length that has been received is not looked at.  The structures are packed, so
that the fields of one follow each other as `hci.h` of BlueZ declares them.

A packet with a command has its type at 0, the operation at 1, the declared length at 3, and
the parameters from 4 on.
-/

namespace Blts.Bluetooth

open Blts.Lib

/-! ## What can go wrong -/

/-- The ways to use memory wrongly. -/
inductive Misuse where
  /-- A byte is read that is not in the packet. -/
  | pastPacket
  /-- An entry is read that is not in a table. -/
  | pastTable
  /-- A pointer is followed that has not been set. -/
  | wildPointer
  /-- Memory is freed that was not allocated. -/
  | badFree
  deriving DecidableEq

/-- What the host and the build decide. -/
structure Host where
  order : ByteOrder
  /-- `HAVE_BTLE_API`. -/
  btle : Bool
  /-- Messages of `LEVEL_DEBUG` are written. -/
  debug : Bool

/-- What `tmp` points to at the end. -/
inductive Temp where
  | null
  /-- What a string function of BlueZ has returned: a block of its own, or nothing. -/
  | allocated
  /-- A constant of the program. -/
  | literal
  deriving DecidableEq

/-- `if (tmp) free (tmp)`. -/
def Temp.release : Temp → Except Misuse Unit
  | .null | .allocated => .ok ()
  | .literal => .error .badFree

/-- What a case of a switch leaves. -/
structure Done where
  ret : Int := 0
  tmp : Temp := .null
  /-- The role that is set. -/
  role : Option Nat := none

/-! ## Tables -/

/-- The entries of `FUTE_EVENT_STR`: the last is that of 0x3d. -/
def futeEventStr : Nat := 0x3e

/-- The entries of `FUTE_HCI_ERRORS`: the last is that of 0x38. -/
def futeHciErrors : Nat := 0x39

/-- `cmd_opcode_ogf` and `cmd_opcode_ocf`. -/
def cmdOpcodeOgf (opcode : Nat) : Nat := opcode / 1024

def cmdOpcodeOcf (opcode : Nat) : Nat := opcode % 1024

/-- The entries of the table of a group, if it has one: `FUTE_LINK_CTL_OCF`, `LINK_POLICY_OCF`,
`HOST_CTL_OCF`, `INFO_PARAM_OCF`, `STATUS_PARAM_OCF`, `TESTING_CMD_OCF` and `LE_CTL_OCF`. -/
def ocfEntries (btle : Bool) : Nat → Option Nat
  | 0x01 | 0x02 | 0x03 | 0x04 | 0x05 | 0x3e => some 0x35
  | 0x08 => if btle then some 0x35 else none
  | _ => none

/-- Read an entry of a table. -/
def entryAt (entries i : Nat) : Except Misuse Unit :=
  if i < entries then .ok () else .error .pastTable

@[simp] theorem returns_entryAt {entries i : Nat} {post : Unit → Prop} :
    Returns (entryAt entries i) post ↔ i < entries ∧ post () := by
  unfold entryAt
  by_cases h : i < entries
  · simp [h]
  · simp [h]

namespace Host

def btohs (h : Host) (n : Nat) : Nat := h.order.swap 2 n

/-- A number of 2 bytes, as the host takes it. -/
def u16 (h : Host) (p : List UInt8) (o : Nat) : Nat := h.order.load ((p.drop o).take 2)

def u16At (h : Host) (p : List UInt8) (o : Nat) : Except Misuse Nat := do
  let bytes ← bytesAt .pastPacket p o 2
  pure (h.order.load bytes)

@[simp] theorem returns_u16At {h : Host} {p : List UInt8} {o : Nat} {post : Nat → Prop} :
    Returns (h.u16At p o) post ↔ o + 2 ≤ p.length ∧ post (h.u16 p o) := by
  simp [u16At, u16]

/-- The operation has an entry in the table of its group, or the group has none. -/
def HasName (h : Host) (opcode : Nat) : Prop :=
  ∀ entries ∈ ocfEntries h.btle (cmdOpcodeOgf (h.btohs opcode)),
    cmdOpcodeOcf (h.btohs opcode) < entries

end Host

/-- `bt_fute_agent_opcode_to_ocf_str`. -/
def opcodeToOcfStr (h : Host) (opcode : Nat) : Except Misuse Unit :=
  let code := h.btohs opcode
  match ocfEntries h.btle (cmdOpcodeOgf code) with
  | some entries => entryAt entries (cmdOpcodeOcf code)
  | none => .ok ()

@[simp] theorem returns_opcodeToOcfStr {h : Host} {opcode : Nat} {post : Unit → Prop} :
    Returns (opcodeToOcfStr h opcode) post ↔ h.HasName opcode ∧ post () := by
  unfold opcodeToOcfStr Host.HasName
  dsimp only
  cases ocfEntries h.btle (cmdOpcodeOgf (h.btohs opcode)) with
  | none => simp
  | some entries => simp

/-- `FUTE_HCI_ERRORS[…]`, with a byte of the packet for an index. -/
def errorAt (p : List UInt8) (o : Nat) : Except Misuse Unit := do
  let code ← byteAt .pastPacket p o
  entryAt futeHciErrors code

@[simp] theorem returns_errorAt {p : List UInt8} {o : Nat} {post : Unit → Prop} :
    Returns (errorAt p o) post ↔
      o < p.length ∧ byte p o < futeHciErrors ∧ post () := by
  simp [errorAt]

/-! ## Fields -/

def u8 (o : Nat) : Field := ⟨o, 1⟩

def u16 (o : Nat) : Field := ⟨o, 2⟩

def u32 (o : Nat) : Field := ⟨o, 4⟩

def bdaddr (o : Nat) : Field := ⟨o, 6⟩

def octets (o n : Nat) : Field := ⟨o, n⟩

/-- Print fields of the structure at `start`. -/
def printed (p : List UInt8) (start : Nat) (fs : List Field) : Except Misuse Done := do
  readFields .pastPacket p start fs
  pure {}

/-- The same, with the name of the error that is the byte at `o`. -/
def printedError (p : List UInt8) (start : Nat) (fs : List Field) (o : Nat) :
    Except Misuse Done := do
  errorAt p (start + o)
  printed p start fs

/-- The case compares the length that is declared at `o` with that of its structure. -/
def sized (p : List UInt8) (o size : Nat) (body : Except Misuse Done) : Except Misuse Done := do
  let plen ← byteAt .pastPacket p o
  if plen ≠ size then pure { ret := -1 } else body

/-! ## The commands of the group link control -/

inductive LinkCtl where
  | inquiry
  | inquiryCancel
  | periodicInquiry
  | exitPeriodicInquiry
  | createConn
  | disconnect
  | addSco
  | createConnCancel
  | acceptConnReq
  | rejectConnReq
  | linkKeyReply
  | linkKeyNegReply
  | pinCodeReply
  | pinCodeNegReply
  | setConnPtype
  | authRequested
  | setConnEncrypt
  | changeConnLinkKey
  | masterLinkKey
  | remoteNameReq
  | remoteNameReqCancel
  | readRemoteFeatures
  | readRemoteExtFeatures
  | readRemoteVersion
  | readClockOffset
  | readLmpHandle
  | setupSyncConn
  | acceptSyncConnReq
  | rejectSyncConnReq
  | ioCapabilityReply
  | userConfirmReply
  | userConfirmNegReply
  | userPasskeyReply
  | userPasskeyNegReply
  | remoteOobDataReply
  | remoteOobDataNegReply
  | ioCapabilityNegReply
  deriving DecidableEq

/-- The labels `OCF_…` of the switch. -/
def LinkCtl.ofOcf : Nat → Option LinkCtl
  | 0x01 => some .inquiry
  | 0x02 => some .inquiryCancel
  | 0x03 => some .periodicInquiry
  | 0x04 => some .exitPeriodicInquiry
  | 0x05 => some .createConn
  | 0x06 => some .disconnect
  | 0x07 => some .addSco
  | 0x08 => some .createConnCancel
  | 0x09 => some .acceptConnReq
  | 0x0a => some .rejectConnReq
  | 0x0b => some .linkKeyReply
  | 0x0c => some .linkKeyNegReply
  | 0x0d => some .pinCodeReply
  | 0x0e => some .pinCodeNegReply
  | 0x0f => some .setConnPtype
  | 0x11 => some .authRequested
  | 0x13 => some .setConnEncrypt
  | 0x15 => some .changeConnLinkKey
  | 0x17 => some .masterLinkKey
  | 0x19 => some .remoteNameReq
  | 0x1a => some .remoteNameReqCancel
  | 0x1b => some .readRemoteFeatures
  | 0x1c => some .readRemoteExtFeatures
  | 0x1d => some .readRemoteVersion
  | 0x1f => some .readClockOffset
  | 0x20 => some .readLmpHandle
  | 0x28 => some .setupSyncConn
  | 0x29 => some .acceptSyncConnReq
  | 0x2a => some .rejectSyncConnReq
  | 0x2b => some .ioCapabilityReply
  | 0x2c => some .userConfirmReply
  | 0x2d => some .userConfirmNegReply
  | 0x2e => some .userPasskeyReply
  | 0x2f => some .userPasskeyNegReply
  | 0x30 => some .remoteOobDataReply
  | 0x33 => some .remoteOobDataNegReply
  | 0x34 => some .ioCapabilityNegReply
  | _ => none

/-- The cases of `bt_fute_agent_dump_link_ctl_cmd`. -/
def linkCtlCase (p : List UInt8) : LinkCtl → Except Misuse Done
  | .inquiry => sized p 3 5 (printed p 4 [octets 0 3, u8 3, u8 4])
  | .inquiryCancel | .exitPeriodicInquiry => do
      let plen ← byteAt .pastPacket p 3
      pure (if plen ≠ 0 then { ret := -1 } else {})
  -- The length and the number of responses are read through the pointer of another case.
  | .periodicInquiry => sized p 3 9 do
      readFields .pastPacket p 4 [u16 0, u16 2, octets 4 3]
      .error .wildPointer
  | .createConn => sized p 3 13 do
      readFields .pastPacket p 4 [bdaddr 0, u16 6, u8 8, u8 9, u16 10, u8 12]
      pure { tmp := .allocated }
  | .disconnect => sized p 3 3 (printedError p 4 [u16 0, u8 2] 2)
  | .addSco => sized p 3 4 do
      readFields .pastPacket p 4 [u16 2, u16 0]
      pure { tmp := .allocated }
  | .createConnCancel => sized p 3 6 (printed p 4 [bdaddr 0])
  | .acceptConnReq => sized p 3 7 (printed p 4 [bdaddr 0, u8 6])
  | .rejectConnReq => sized p 3 7 (printedError p 4 [bdaddr 0, u8 6] 6)
  | .linkKeyReply => sized p 3 22 (printed p 4 [bdaddr 0, octets 6 16])
  | .linkKeyNegReply | .pinCodeNegReply | .userConfirmNegReply | .userPasskeyNegReply
  | .remoteOobDataNegReply => printed p 4 [bdaddr 0]
  | .pinCodeReply => sized p 3 23 do
      readFields .pastPacket p 4 [bdaddr 0]
      let pinLen ← byteAt .pastPacket p 10
      readRecords .pastPacket p 11 1 [u8 0] pinLen
      pure {}
  | .setConnPtype => sized p 3 4 do
      readFields .pastPacket p 4 [u16 2, u16 0]
      pure { tmp := .allocated }
  | .authRequested => sized p 3 2 (printed p 4 [u16 0])
  | .setConnEncrypt => sized p 3 3 (printed p 4 [u16 0, u8 2])
  | .changeConnLinkKey => sized p 3 2 (printed p 4 [u16 0])
  | .masterLinkKey => sized p 3 1 (printed p 4 [u8 0])
  | .remoteNameReq => sized p 3 10 (printed p 4 [bdaddr 0, u8 6, u8 7, u16 8])
  | .remoteNameReqCancel => sized p 3 6 (printed p 4 [bdaddr 0])
  | .readRemoteFeatures => sized p 3 2 (printed p 4 [u16 0])
  | .readRemoteExtFeatures => sized p 3 3 (printed p 4 [u16 0, u8 2])
  | .readRemoteVersion => sized p 3 2 (printed p 4 [u16 0])
  | .readClockOffset => sized p 3 2 (printed p 4 [u16 0])
  | .readLmpHandle => printed p 4 [u16 0]
  | .setupSyncConn => sized p 3 17 do
      readFields .pastPacket p 4 [u16 15, u16 0, u32 2, u32 6, u16 10, u16 12, u8 14]
      pure { tmp := .allocated }
  | .acceptSyncConnReq => sized p 3 21 do
      readFields .pastPacket p 4 [bdaddr 0, u16 19, u32 6, u32 10, u16 14, u16 16, u8 18]
      pure { tmp := .allocated }
  | .rejectSyncConnReq => sized p 3 7 (printedError p 4 [bdaddr 0] 6)
  | .ioCapabilityReply => sized p 3 9 (printed p 4 [bdaddr 0, u8 6, u8 7, u8 8])
  | .userConfirmReply => sized p 3 6 (printed p 4 [bdaddr 0])
  | .userPasskeyReply => sized p 3 10 (printed p 4 [bdaddr 0, u32 6])
  | .remoteOobDataReply => sized p 3 38 (printed p 4 [bdaddr 0, octets 6 16, octets 22 16])
  | .ioCapabilityNegReply => sized p 3 7 (printedError p 4 [bdaddr 0] 6)

/-- `bt_fute_agent_dump_link_ctl_cmd`. -/
def dumpLinkCtlCmd (p : List UInt8) (ocf : Nat) : Except Misuse Int := do
  let done ←
    match LinkCtl.ofOcf ocf with
    | some c => linkCtlCase p c
    | none => pure {}
  done.tmp.release
  pure done.ret

/-- `bt_fute_agent_print_cmd_payload`, which takes the operation as the host does. -/
def printCmdPayload (p : List UInt8) (opcode : Nat) : Except Misuse Int :=
  if cmdOpcodeOgf opcode = 0x01 then dumpLinkCtlCmd p (cmdOpcodeOcf opcode) else pure 0

/-- `bt_fute_agent_handle_hci_command`. -/
def handleHciCommand (h : Host) (p : List UInt8) : Except Misuse Int := do
  let opcode ← h.u16At p 1
  opcodeToOcfStr h opcode
  let _plen ← byteAt .pastPacket p 3
  printCmdPayload p opcode

/-! ## What a packet needs -/

/-- What is left in `tmp` may be freed. -/
def Done.Freeable (d : Done) : Prop := d.tmp ≠ .literal

theorem returns_release {t : Temp} {post : Unit → Prop} :
    Returns t.release post ↔ t ≠ .literal ∧ post () := by
  cases t with
  | null => simp [Temp.release]
  | allocated => simp [Temp.release]
  | literal => simp [Temp.release]

section

variable {p : List UInt8} {start o size : Nat} {fs : List Field}

theorem returns_printed : Returns (printed p start fs) Done.Freeable ↔
    fieldsEnd start fs ≤ p.length := by
  simp [printed, Done.Freeable]

theorem returns_printedError : Returns (printedError p start fs o) Done.Freeable ↔
    start + o < p.length ∧ byte p (start + o) < futeHciErrors ∧
      fieldsEnd start fs ≤ p.length := by
  simp [printedError, returns_printed]

theorem returns_sized {body : Except Misuse Done} (ho : o < p.length) :
    Returns (sized p o size body) Done.Freeable ↔
      (byte p o = size → Returns body Done.Freeable) := by
  rw [sized, returns_bind, returns_byteAt, returns_ite, returns_pure]
  by_cases hsize : byte p o = size
  · simp [ho, hsize]
  · simp [ho, hsize, Done.Freeable]

theorem returns_sized_printed (ho : o < p.length) :
    Returns (sized p o size (printed p start fs)) Done.Freeable ↔
      (byte p o = size → fieldsEnd start fs ≤ p.length) := by
  rw [returns_sized ho, returns_printed]

/-- Where `tmp` is left with a string of BlueZ. -/
theorem returns_sized_tmp (ho : o < p.length) :
    Returns (sized p o size do
        readFields .pastPacket p start fs
        pure { tmp := .allocated }) Done.Freeable ↔
      (byte p o = size → fieldsEnd start fs ≤ p.length) := by
  rw [returns_sized ho]
  simp [Done.Freeable]

end

/-- What the case of a command needs: the fields that it reads are in the packet, and its
reason has a name. -/
def LinkCtl.Fits (p : List UInt8) : LinkCtl → Prop
  | .inquiryCancel | .exitPeriodicInquiry => True
  | .inquiry => byte p 3 = 5 → 9 ≤ p.length
  | .periodicInquiry => byte p 3 ≠ 9
  | .createConn => byte p 3 = 13 → 17 ≤ p.length
  | .disconnect => byte p 3 = 3 → 7 ≤ p.length ∧ byte p 6 < 0x39
  | .addSco | .setConnPtype => byte p 3 = 4 → 8 ≤ p.length
  | .createConnCancel | .remoteNameReqCancel | .userConfirmReply => byte p 3 = 6 → 10 ≤ p.length
  | .acceptConnReq => byte p 3 = 7 → 11 ≤ p.length
  | .rejectConnReq | .rejectSyncConnReq | .ioCapabilityNegReply =>
      byte p 3 = 7 → 11 ≤ p.length ∧ byte p 10 < 0x39
  | .linkKeyReply => byte p 3 = 22 → 26 ≤ p.length
  | .linkKeyNegReply | .pinCodeNegReply | .userConfirmNegReply | .userPasskeyNegReply
  | .remoteOobDataNegReply => 10 ≤ p.length
  | .pinCodeReply => byte p 3 = 23 → 11 + byte p 10 ≤ p.length
  | .authRequested | .changeConnLinkKey | .readRemoteFeatures | .readRemoteVersion
  | .readClockOffset => byte p 3 = 2 → 6 ≤ p.length
  | .setConnEncrypt | .readRemoteExtFeatures => byte p 3 = 3 → 7 ≤ p.length
  | .masterLinkKey => byte p 3 = 1 → 5 ≤ p.length
  | .remoteNameReq | .userPasskeyReply => byte p 3 = 10 → 14 ≤ p.length
  | .readLmpHandle => 6 ≤ p.length
  | .setupSyncConn => byte p 3 = 17 → 21 ≤ p.length
  | .acceptSyncConnReq => byte p 3 = 21 → 25 ≤ p.length
  | .ioCapabilityReply => byte p 3 = 9 → 13 ≤ p.length
  | .remoteOobDataReply => byte p 3 = 38 → 42 ≤ p.length

/-- A reason is the last byte of its structure. -/
theorem returns_sized_reason {p : List UInt8} {size o : Nat} {fs : List Field}
    (hlen : 4 ≤ p.length) (hend : fieldsEnd 4 fs ≤ 5 + o) :
    Returns (sized p 3 size (printedError p 4 fs o)) Done.Freeable ↔
      (byte p 3 = size → 5 + o ≤ p.length ∧ byte p (4 + o) < 0x39) := by
  rw [returns_sized (by omega), returns_printedError, futeHciErrors]
  constructor
  · intro h hsize
    obtain ⟨hin, hname, -⟩ := h hsize
    exact ⟨by omega, hname⟩
  · intro h hsize
    obtain ⟨hin, hname⟩ := h hsize
    exact ⟨by omega, hname, by omega⟩

/-- The digits of a PIN are read as far as its length says. -/
theorem returns_pin {p : List UInt8} :
    Returns (do
        readFields Misuse.pastPacket p 4 [bdaddr 0]
        let pinLen ← byteAt Misuse.pastPacket p 10
        readRecords Misuse.pastPacket p 11 1 [u8 0] pinLen
        pure {}) Done.Freeable ↔ 11 + byte p 10 ≤ p.length := by
  simp only [returns_bind, returns_readFields, returns_byteAt]
  constructor
  · rintro ⟨-, hlen, hpin⟩
    have hfull := (returns_readRecords_of_full (List.cons_ne_nil _ _) (by rfl) hlen).mp hpin
    rw [Nat.mul_one] at hfull
    exact hfull.1
  · intro hpin
    have hlen : 11 ≤ p.length := by omega
    refine ⟨show 10 ≤ p.length by omega, hlen,
      (returns_readRecords_of_full (List.cons_ne_nil _ _) (by rfl) hlen).mpr ?_⟩
    rw [Nat.mul_one]
    exact ⟨hpin, returns_pure.mpr Temp.noConfusion⟩

theorem returns_linkCtlCase {p : List UInt8} (hlen : 4 ≤ p.length) (c : LinkCtl) :
    Returns (linkCtlCase p c) Done.Freeable ↔ c.Fits p := by
  have ho : 3 < p.length := hlen
  have hcancel : Returns (do
      let plen ← byteAt Misuse.pastPacket p 3
      pure (if plen ≠ 0 then { ret := -1 } else {})) Done.Freeable ↔ True := by
    simp only [returns_bind, returns_byteAt, returns_pure, ho, true_and, iff_true]
    split <;> exact Temp.noConfusion
  cases c with
  | inquiry => exact returns_sized_printed ho
  | inquiryCancel => exact hcancel
  | periodicInquiry =>
      show Returns (sized p 3 9 _) _ ↔ byte p 3 ≠ 9
      rw [returns_sized ho]
      simp
  | exitPeriodicInquiry => exact hcancel
  | createConn => exact returns_sized_tmp ho
  | disconnect => exact returns_sized_reason hlen (by decide)
  | addSco => exact returns_sized_tmp ho
  | createConnCancel => exact returns_sized_printed ho
  | acceptConnReq => exact returns_sized_printed ho
  | rejectConnReq => exact returns_sized_reason hlen (by decide)
  | linkKeyReply => exact returns_sized_printed ho
  | linkKeyNegReply => exact returns_printed
  | pinCodeReply =>
      show Returns (sized p 3 23 _) _ ↔ (byte p 3 = 23 → 11 + byte p 10 ≤ p.length)
      rw [returns_sized ho]
      exact imp_congr_right fun _ => returns_pin
  | pinCodeNegReply => exact returns_printed
  | setConnPtype => exact returns_sized_tmp ho
  | authRequested => exact returns_sized_printed ho
  | setConnEncrypt => exact returns_sized_printed ho
  | changeConnLinkKey => exact returns_sized_printed ho
  | masterLinkKey => exact returns_sized_printed ho
  | remoteNameReq => exact returns_sized_printed ho
  | remoteNameReqCancel => exact returns_sized_printed ho
  | readRemoteFeatures => exact returns_sized_printed ho
  | readRemoteExtFeatures => exact returns_sized_printed ho
  | readRemoteVersion => exact returns_sized_printed ho
  | readClockOffset => exact returns_sized_printed ho
  | readLmpHandle => exact returns_printed
  | setupSyncConn => exact returns_sized_tmp ho
  | acceptSyncConnReq => exact returns_sized_tmp ho
  | rejectSyncConnReq => exact returns_sized_reason hlen (by decide)
  | ioCapabilityReply => exact returns_sized_printed ho
  | userConfirmReply => exact returns_sized_printed ho
  | userConfirmNegReply => exact returns_printed
  | userPasskeyReply => exact returns_sized_printed ho
  | userPasskeyNegReply => exact returns_printed
  | remoteOobDataReply => exact returns_sized_printed ho
  | remoteOobDataNegReply => exact returns_printed
  | ioCapabilityNegReply => exact returns_sized_reason hlen (by decide)

/-- The operation, as the host takes it. -/
def Host.opcode (h : Host) (p : List UInt8) : Nat := h.u16 p 1

/-- What a packet with a command needs. -/
def CommandFits (h : Host) (p : List UInt8) : Prop :=
  4 ≤ p.length ∧ h.HasName (h.opcode p) ∧
    (cmdOpcodeOgf (h.opcode p) = 0x01 →
      ∀ c ∈ LinkCtl.ofOcf (cmdOpcodeOcf (h.opcode p)), c.Fits p)

theorem returns_dumpLinkCtlCmd {p : List UInt8} (hlen : 4 ≤ p.length) (ocf : Nat) :
    Returns (dumpLinkCtlCmd p ocf) (fun _ => True) ↔ ∀ c ∈ LinkCtl.ofOcf ocf, c.Fits p := by
  unfold dumpLinkCtlCmd
  cases LinkCtl.ofOcf ocf with
  | none => simp [returns_release]
  | some c =>
      simp only [returns_bind, returns_release, returns_pure, and_true, Option.mem_def,
        Option.some.injEq, forall_eq']
      exact returns_linkCtlCase hlen c

theorem returns_handleHciCommand (h : Host) (p : List UInt8) :
    Returns (handleHciCommand h p) (fun _ => True) ↔ CommandFits h p := by
  unfold handleHciCommand CommandFits printCmdPayload
  simp only [returns_bind, Host.returns_u16At, returns_opcodeToOcfStr, returns_byteAt,
    returns_ite, returns_pure, implies_true, and_true]
  constructor
  · rintro ⟨-, hname, hlen, hdump⟩
    exact ⟨hlen, hname, fun hogf => (returns_dumpLinkCtlCmd hlen _).mp (hdump hogf)⟩
  · rintro ⟨hlen, hname, hfits⟩
    exact ⟨by omega, hname, hlen, fun hogf => (returns_dumpLinkCtlCmd hlen _).mpr (hfits hogf)⟩

end Blts.Bluetooth
