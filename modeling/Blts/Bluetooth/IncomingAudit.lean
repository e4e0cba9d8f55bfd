import Blts.Lib.InOrder
import Blts.Bluetooth.HciDumpRuns

/-!
# The audit of an incoming connection

The packets of some seconds are dumped to a file, the file is parsed, and a handler looks for
the four packets of an incoming connection.  The handler keeps the position of the packet that
it expects next in a `static` variable, which no audit resets; but `stop_hcidump` does not reset
`thread_id` either, so that no second capture starts in a process.

Of each packet the handler compares two bytes.  An event is known by them, a command is not:
its number has two bytes, of which the second one comes third.
-/

namespace Blts.Bluetooth

open Blts.Lib

/-- The table `sequence`: `low` and `high`. -/
def auditSequence : List (UInt8 × UInt8) :=
  [(0x04, 0x04), (0x01, 0x09), (0x04, 0x0f), (0x04, 0x03)]

/-- What the handler keeps: `next_expected`, and `audit_passed` of the caller. -/
structure AuditPosition where
  nextExpected : Nat
  auditPassed : Bool
  deriving DecidableEq

/-- A packet of the trace is the expected one. -/
def auditMatches (expected : UInt8 × UInt8) (traceEvent : HcidumpTrace) : Bool :=
  traceEvent.data.getD 0 0 = expected.1 && traceEvent.data.getD 1 0 = expected.2

/-- `audit_incoming_connection_trace`, which always returns 0. -/
def auditIncomingConnectionTrace (s : AuditPosition) (traceEvent : HcidumpTrace) :
    AuditPosition :=
  match auditSequence[s.nextExpected]? with
  | none => s
  | some expected =>
      if auditMatches expected traceEvent then
        ⟨s.nextExpected + 1, s.auditPassed || s.nextExpected + 1 = auditSequence.length⟩
      else s

/-- A capture: whether it can be started (the log file, the socket and the thread) and stopped,
the packets that it dumps, and how the file is written and read.  What is on the stack of
`parse_hcidump` before the first header is read may be anything. -/
structure Capture where
  started : Bool
  stopped : Bool
  packets : List HciPacket
  writes : List WriteResult
  reads : List ReadResult
  stack : List UInt8
  captured : ∀ p ∈ packets, p.Captured
  writes_short : ∀ w ∈ writes, w.Short
  reads_short : ∀ r ∈ reads, r.Short
  stack_length : stack.length = headerSize

/-- The static variables: `thread_id` has been set, and `next_expected`. -/
structure AuditState where
  threadId : Bool
  nextExpected : Nat
  deriving DecidableEq

def auditStart : AuditState := ⟨false, 0⟩

/-- The state after `hci_audit_incoming_connect`, and what it returns, on a host with the least
byte first. -/
def hciAuditIncomingConnect (s : AuditState) (c : Capture) : AuditState × Except Fault Int :=
  if s.threadId || !c.started then (s, .ok (-1))
  else if c.stopped then
    let parsed := parseHcidump .little (fun _ => true) c.reads
      (processSocketData .little c.writes c.packets) c.stack
    let position := parsed.calls.foldl auditIncomingConnectionTrace ⟨s.nextExpected, false⟩
    (⟨true, position.nextExpected⟩,
      parsed.result.map fun ret =>
        if ret ≠ 0 then ret else if position.auditPassed then 0 else 1)
  else (⟨true, s.nextExpected⟩, .ok (-1))

/-- The state after the audits before. -/
def auditAfter (earlier : List Capture) : AuditState :=
  earlier.foldl (fun s c => (hciAuditIncomingConnect s c).1) auditStart

/-! ## The packets of an incoming connection -/

/-- The bytes that the packets begin with: the kind, the number of the event or, with the low
byte first, of the command. -/
def incomingConnection : List (List UInt8) :=
  [ [0x04, 0x04]        -- connection request event
  , [0x01, 0x09, 0x04]  -- accept connection request command
  , [0x04, 0x0f]        -- command status event
  , [0x04, 0x03] ]      -- connect complete event

/-- Packets that begin like this are among the captured ones, in this order. -/
def ContainsInOrder (kinds : List (List UInt8)) (packets : List HciPacket) : Prop :=
  List.SublistForall₂ (fun kind p => kind <+: p.data) kinds packets

/-- The four packets by what the handler compares of them. -/
def comparedBytes : List (List UInt8) :=
  auditSequence.map fun expected => [expected.1, expected.2]

/-- An audit the capture of which is started and stopped says whether the packets of an incoming
connection have been captured. -/
def AuditsRight (s : AuditState) (c : Capture) : Prop :=
  s.threadId = false → c.started = true → c.stopped = true →
    ((hciAuditIncomingConnect s c).2 = .ok 0 ↔ ContainsInOrder incomingConnection c.packets)

/-! ## The handler -/

/-- The handler moves its position like a matcher. -/
theorem auditTrace_position (s : AuditPosition) (traceEvent : HcidumpTrace) :
    (auditIncomingConnectionTrace s traceEvent).nextExpected =
      matchNext auditMatches auditSequence s.nextExpected traceEvent := by
  unfold auditIncomingConnectionTrace
  cases hget : auditSequence[s.nextExpected]? with
  | none => rw [matchNext_of_none hget]
  | some expected =>
      by_cases hmatch : auditMatches expected traceEvent = true
      · rw [matchNext_of_match hget hmatch]
        exact congrArg AuditPosition.nextExpected (if_pos hmatch)
      · rw [matchNext_of_not_match hget hmatch]
        exact congrArg AuditPosition.nextExpected (if_neg hmatch)

/-- The audit has passed where the position is at the end. -/
def PassedAtEnd (s : AuditPosition) : Prop :=
  s.auditPassed = true ↔ s.nextExpected = auditSequence.length

theorem PassedAtEnd.step {s : AuditPosition} (hs : PassedAtEnd s) (traceEvent : HcidumpTrace) :
    PassedAtEnd (auditIncomingConnectionTrace s traceEvent) := by
  unfold auditIncomingConnectionTrace
  cases hget : auditSequence[s.nextExpected]? with
  | none => exact hs
  | some expected =>
      have hlt : s.nextExpected < auditSequence.length :=
        (List.getElem?_eq_some_iff.mp hget).1
      have hnot : s.auditPassed = false := by
        rw [← Bool.not_eq_true]
        exact fun h => Nat.ne_of_lt hlt (hs.mp h)
      by_cases hmatch : auditMatches expected traceEvent = true
      · simp only [hmatch, if_true, PassedAtEnd, hnot, Bool.false_or, decide_eq_true_eq]
      · simp only [hmatch, Bool.false_eq_true, if_false]
        exact hs

theorem foldl_auditTrace (calls : List HcidumpTrace) {s : AuditPosition} (hs : PassedAtEnd s) :
    (calls.foldl auditIncomingConnectionTrace s).auditPassed = true ↔
      calls.foldl (matchNext auditMatches auditSequence) s.nextExpected =
        auditSequence.length := by
  induction calls generalizing s with
  | nil => exact hs
  | cons t calls ih =>
      rw [List.foldl_cons, List.foldl_cons, ih (hs.step t), auditTrace_position]

/-! ## The trace -/

/-- The bytes of the table are not those that the buffer is filled with. -/
theorem auditSequence_ne_zero : ∀ expected ∈ auditSequence, expected.1 ≠ 0 ∧ expected.2 ≠ 0 := by
  have hall : (auditSequence.all fun expected => expected.1 != 0 && expected.2 != 0) = true := by
    decide
  intro expected hmem
  have hbytes := List.all_eq_true.mp hall expected hmem
  rw [Bool.and_eq_true, bne_iff_ne, bne_iff_ne] at hbytes
  exact hbytes

/-- Two bytes that are not 0 are the first ones of a buffer with zeros at its end exactly if the
data begins with them. -/
theorem auditMatches_packet {expected : UInt8 × UInt8} (hlow : expected.1 ≠ 0)
    (hhigh : expected.2 ≠ 0) (p : HciPacket) :
    auditMatches expected (packetTrace p) = true ↔ [expected.1, expected.2] <+: p.data := by
  have hzero : ∀ {i n : Nat}, (List.replicate n (0 : UInt8)).getD i 0 = 0 := by
    intro i n
    rw [List.getD_eq_getElem?_getD, List.getElem?_replicate]
    by_cases h : i < n
    · rw [if_pos h, Option.getD_some]
    · rw [if_neg h, Option.getD_none]
  unfold auditMatches packetTrace
  dsimp only
  rw [Bool.and_eq_true, decide_eq_true_eq, decide_eq_true_eq]
  match p.data with
  | [] =>
      rw [List.nil_append, hzero, hzero]
      refine iff_of_false (fun h => hlow h.1.symm) fun h => ?_
      exact absurd h (by simp)
  | [a] =>
      rw [List.singleton_append, List.getD_cons_zero, List.getD_cons_succ, hzero]
      refine iff_of_false (fun h => hhigh h.2.symm) fun h => ?_
      have hlen := h.length_le
      simp at hlen
  | a :: b :: rest =>
      rw [List.cons_append, List.cons_append, List.getD_cons_zero, List.getD_cons_succ,
        List.getD_cons_zero, List.cons_prefix_cons, List.cons_prefix_cons]
      exact ⟨fun h => ⟨h.1.symm, h.2.symm, List.nil_prefix⟩, fun h => ⟨h.1.symm, h.2.1.symm⟩⟩

/-- The call after the last packet matches nothing. -/
theorem matchNext_end (i : Nat) (hdr : List UInt8) :
    matchNext auditMatches auditSequence i (traceOf .little hdr []) = i := by
  cases hget : auditSequence[i]? with
  | none => exact matchNext_of_none hget
  | some expected =>
      refine matchNext_of_not_match hget fun h => ?_
      have hlow := (auditSequence_ne_zero expected (List.mem_of_getElem? hget)).1
      have hfirst : (0 : UInt8) = expected.1 := (Bool.and_eq_true_iff.mp h).1 |> of_decide_eq_true
      exact hlow hfirst.symm

theorem sequence_compared (packets : List HciPacket) :
    List.SublistForall₂ (fun a p => auditMatches a (packetTrace p) = true) auditSequence packets ↔
      ContainsInOrder comparedBytes packets := by
  unfold ContainsInOrder comparedBytes
  rw [List.sublistForall₂_map_left_iff]
  constructor
  · intro h
    refine sublistForall₂_imp h fun a ha p hmatch => ?_
    obtain ⟨hlow, hhigh⟩ := auditSequence_ne_zero a ha
    exact (auditMatches_packet hlow hhigh p).mp hmatch
  · intro h
    refine sublistForall₂_imp h fun a ha p hmatch => ?_
    obtain ⟨hlow, hhigh⟩ := auditSequence_ne_zero a ha
    exact (auditMatches_packet hlow hhigh p).mpr hmatch

/-- A first audit returns 0 exactly if the compared bytes have come in this order. -/
theorem hciAudit_zero_iff (c : Capture) (hstarted : c.started = true)
    (hstopped : c.stopped = true) :
    (hciAuditIncomingConnect auditStart c).2 = .ok 0 ↔
      ContainsInOrder comparedBytes c.packets := by
  let calls := c.packets.map packetTrace ++
    [traceOf .little (c.packets.foldl (fun _ p => header p) c.stack) []]
  have hparsed : parseHcidump .little (fun _ => true) c.reads
      (processSocketData .little c.writes c.packets) c.stack = ⟨calls, .ok 0⟩ := by
    rw [processSocketData_short .little c.packets c.writes c.writes_short]
    exact parseLoop_packets c.reads_short c.captured c.stack_length (Nat.lt_succ_self _)
  have hfold : calls.foldl (matchNext auditMatches auditSequence) 0 =
      (c.packets.map packetTrace).foldl (matchNext auditMatches auditSequence) 0 := by
    rw [List.foldl_append, List.foldl_cons, List.foldl_nil, matchNext_end]
  have hpassed := foldl_auditTrace calls (s := ⟨0, false⟩)
    (iff_of_false Bool.false_ne_true (by decide))
  rw [hfold, foldl_matchNext_eq_length_iff _ (Nat.zero_le _), List.drop_zero,
    List.sublistForall₂_map_right_iff] at hpassed
  rw [← sequence_compared c.packets, ← hpassed]
  simp only [hciAuditIncomingConnect, auditStart, hstarted, hstopped, hparsed, Bool.not_true,
    Bool.or_false, Bool.false_eq_true, if_false, if_true, Except.map, ne_eq, not_true,
    Except.ok.injEq]
  cases (calls.foldl auditIncomingConnectionTrace ⟨0, false⟩).auditPassed with
  | true => simp
  | false => simp

/-- The state before an audit the capture of which can start is the initial one. -/
theorem auditAfter_of_threadId (earlier : List Capture)
    (h : (auditAfter earlier).threadId = false) : auditAfter earlier = auditStart := by
  have hstep : ∀ (s : AuditState) (c : Capture), (s.threadId = false → s = auditStart) →
      ((hciAuditIncomingConnect s c).1.threadId = false →
        (hciAuditIncomingConnect s c).1 = auditStart) := by
    intro s c hs
    unfold hciAuditIncomingConnect
    by_cases hstart : (s.threadId || !c.started) = true
    · rw [if_pos hstart]
      exact hs
    · rw [if_neg hstart]
      by_cases hstop : c.stopped = true
      · rw [if_pos hstop]
        exact fun h => absurd h (by simp)
      · rw [if_neg hstop]
        exact fun h => absurd h (by simp)
  have hrun : ∀ (cs : List Capture) (s : AuditState), (s.threadId = false → s = auditStart) →
      (cs.foldl (fun s c => (hciAuditIncomingConnect s c).1) s).threadId = false →
        cs.foldl (fun s c => (hciAuditIncomingConnect s c).1) s = auditStart := by
    intro cs
    induction cs with
    | nil => exact fun _ hs => hs
    | cons c cs ih => exact fun s hs => ih _ (hstep s c hs)
  exact hrun earlier auditStart (fun _ => rfl) h

/-- The bytes compared come with the packets. -/
theorem compared_of_contains {packets : List HciPacket}
    (h : ContainsInOrder incomingConnection packets) : ContainsInOrder comparedBytes packets := by
  obtain ⟨found, hfound, hsub⟩ := List.sublistForall₂_iff.mp h
  obtain - | ⟨hrequest, hfound⟩ := hfound
  obtain - | ⟨haccept, hfound⟩ := hfound
  have hnumber : [0x01, 0x09] <+: ([0x01, 0x09, 0x04] : List UInt8) := ⟨[0x04], rfl⟩
  exact List.sublistForall₂_iff.mpr
    ⟨_, .cons hrequest (.cons (hnumber.trans haccept) hfound), hsub⟩

/--
**The verdict of an audit.**  After any audits before, an audit says whether the packets of an
incoming connection have been captured, exactly where the bytes compared come in this order only
with those packets.
-/
theorem auditsRight_iff (earlier : List Capture) (c : Capture) :
    AuditsRight (auditAfter earlier) c ↔
      ((auditAfter earlier).threadId = false → c.started = true → c.stopped = true →
        ContainsInOrder comparedBytes c.packets →
          ContainsInOrder incomingConnection c.packets) := by
  unfold AuditsRight
  constructor
  · intro h hthread hstarted hstopped hcompared
    have hiff := h hthread hstarted hstopped
    rw [auditAfter_of_threadId earlier hthread, hciAudit_zero_iff c hstarted hstopped] at hiff
    exact hiff.mp hcompared
  · intro h hthread hstarted hstopped
    rw [auditAfter_of_threadId earlier hthread, hciAudit_zero_iff c hstarted hstopped]
    exact ⟨h hthread hstarted hstopped, compared_of_contains⟩

/-- A connection is requested, the address of the device is read (command 0x1009), and a
connection is complete. -/
def addressReadPackets : List HciPacket :=
  [⟨1, 0, 0, [0x04, 0x04]⟩, ⟨0, 0, 0, [0x01, 0x09, 0x10]⟩, ⟨1, 0, 0, [0x04, 0x0f]⟩,
    ⟨1, 0, 0, [0x04, 0x03]⟩]

theorem addressReadPackets_captured : ∀ p ∈ addressReadPackets, p.Captured := by
  intro p hp
  have hlen : p.data.length = 2 ∨ p.data.length = 3 := by
    revert p
    decide
  unfold HciPacket.Captured hciMaxFrameSize
  omega

theorem noWrites_short : ∀ w ∈ ([] : List WriteResult), w.Short :=
  fun _ h => absurd h List.not_mem_nil

theorem noReads_short : ∀ r ∈ ([] : List ReadResult), r.Short :=
  fun _ h => absurd h List.not_mem_nil

def zeroStack : List UInt8 := List.replicate headerSize 0

theorem length_zeroStack : zeroStack.length = headerSize := List.length_replicate

/-- Every call of the capture and of the parser moves all bytes at once. -/
def addressRead : Capture where
  started := true
  stopped := true
  packets := addressReadPackets
  writes := []
  reads := []
  stack := zeroStack
  captured := addressReadPackets_captured
  writes_short := noWrites_short
  reads_short := noReads_short
  stack_length := length_zeroStack

/-- The audit passes, although no connection has been accepted. -/
theorem addressRead_passes : ¬∀ earlier c, AuditsRight (auditAfter earlier) c := by
  intro h
  have hright := h [] addressRead rfl rfl rfl
  have hcompared : ContainsInOrder comparedBytes addressRead.packets :=
    .cons ⟨[], rfl⟩ (.cons ⟨[0x10], rfl⟩ (.cons ⟨[], rfl⟩ (.cons ⟨[], rfl⟩ .nil)))
  have hcontains := hright.mp ((hciAudit_zero_iff addressRead rfl rfl).mpr hcompared)
  obtain ⟨found, hfound, hsub⟩ := List.sublistForall₂_iff.mp hcontains
  obtain - | ⟨-, hfound⟩ := hfound
  obtain - | ⟨haccept, -⟩ := hfound
  have hnone : ∀ p ∈ addressReadPackets, ¬[0x01, 0x09, 0x04] <+: p.data := by decide
  exact hnone _ (hsub.subset (List.mem_cons_of_mem _ List.mem_cons_self)) haccept

end Blts.Bluetooth
