import Mathlib.Data.List.Basic
import Blts.Fault
import Blts.Lib.Bytes

/-!
# The dump of the HCI traffic

One thread writes every captured packet to a file, with a packed header before it, and
`parse_hcidump` reads the file back and calls a handler for each packet.  Both sides transfer
their bytes in pieces.  The length is stored with the helper for 16 bits and loaded with that
for 32 bits.

At the end of the file there is nothing to read, and 0 is returned.  The parser takes that for
a header, and a length in the file for one that its buffer can hold.
-/

namespace Blts.Bluetooth

open Blts.Lib

/-- `HCI_MAX_FRAME_SIZE`: 1024 bytes of data and 4 before them. -/
def hciMaxFrameSize : Nat := 1028

/-- `sizeof (struct blts_hci_header)`. -/
def headerSize : Nat := 11

/-! ## Byte orders -/

/-- The byte order of the host. -/
inductive ByteOrder where
  | little
  | big
  deriving DecidableEq

/-- The bytes of a number of the host, and back. -/
def ByteOrder.store (order : ByteOrder) (w n : Nat) : List UInt8 :=
  match order with
  | .little => leBytes w n
  | .big => (leBytes w n).reverse

def ByteOrder.load (order : ByteOrder) (bytes : List UInt8) : Nat :=
  match order with
  | .little => leValue bytes
  | .big => leValue bytes.reverse

/-- `htobs` and `btohs` for 2 bytes, and `htobl` and `btohl` for 4. -/
def ByteOrder.swap (order : ByteOrder) (w n : Nat) : Nat :=
  match order with
  | .little => n % 256 ^ w
  | .big => leValue (leBytes w n).reverse

/-! ## Writing -/

/-- A captured packet with its direction and time stamp. -/
structure HciPacket where
  direction : UInt8
  tvSec : Nat
  tvUsec : Nat
  data : List UInt8
  deriving DecidableEq

/-- What a `write` does; one that moves bytes moves `n + 1`, or all that are left. -/
inductive WriteResult where
  | interrupted
  | wrote (n : Nat)
  | zero
  | failed
  deriving DecidableEq

/-- The header and the data of a packet, as they stand in the buffer. -/
def record (order : ByteOrder) (p : HciPacket) : List UInt8 :=
  order.store 2 (order.swap 2 p.data.length) ++ p.direction ::
    (order.store 4 (order.swap 4 p.tvSec) ++ (order.store 4 (order.swap 4 p.tvUsec) ++ p.data))

/-- The loop that writes a buffer: what it has written, whether the thread goes on, and the
results of later calls.  Calls without a result of their own write all that is left. -/
def writeLoop : List WriteResult → List UInt8 → List UInt8 × Bool × List WriteResult
  | [], buffer => (buffer, true, [])
  | .interrupted :: ws, buffer => writeLoop ws buffer
  | .zero :: ws, _ => ([], true, ws)
  | .failed :: ws, _ => ([], false, ws)
  | .wrote n :: ws, buffer =>
      if buffer.length ≤ n + 1 then (buffer, true, ws)
      else
        let (written, goesOn, ws) := writeLoop ws (buffer.drop (n + 1))
        (buffer.take (n + 1) ++ written, goesOn, ws)

/-- The file after `process_socket_data` has stored the packets. -/
def processSocketData (order : ByteOrder) : List WriteResult → List HciPacket → List UInt8
  | _, [] => []
  | ws, p :: ps =>
      let (written, goesOn, ws) := writeLoop ws (record order p)
      if goesOn then written ++ processSocketData order ws ps else written

/-! ## Reading -/

/-- What a `read` does; one that moves bytes moves `n + 1`, or all that are wanted and there. -/
inductive ReadResult where
  | interrupted
  | got (n : Nat)
  | failed
  deriving DecidableEq

/-- What `read_dump` returns, the bytes it has stored, and what is left. -/
structure ReadDump where
  ret : Int
  bytes : List UInt8
  file : List UInt8
  reads : List ReadResult

/-- `read_dump`, with the bytes that it has stored so far. -/
def readDump : List ReadResult → List UInt8 → Nat → List UInt8 → ReadDump
  | reads, file, 0, bytes => ⟨bytes.length, bytes, file, reads⟩
  | [], file, len + 1, bytes =>
      if file.length < len + 1 then ⟨0, bytes ++ file, [], []⟩
      else ⟨(bytes ++ file.take (len + 1)).length, bytes ++ file.take (len + 1),
        file.drop (len + 1), []⟩
  | .interrupted :: reads, file, len + 1, bytes => readDump reads file (len + 1) bytes
  | .failed :: reads, file, _ + 1, bytes => ⟨-1, bytes, file, reads⟩
  | .got n :: reads, file, len + 1, bytes =>
      let k := min (n + 1) (min (len + 1) file.length)
      if k = 0 then ⟨0, bytes, file, reads⟩
      else readDump reads (file.drop k) (len + 1 - k) (bytes ++ file.take k)

/-- What the handler is called with. -/
structure HcidumpTrace where
  tvSec : Nat
  tvUsec : Nat
  incoming : UInt8
  /-- The buffer, with zeros after what has been read. -/
  data : List UInt8
  dataLen : Nat
  deriving DecidableEq

/-- The length of the data, as `parse_hcidump` loads it out of a header. -/
def traceLen (order : ByteOrder) (hdr : List UInt8) : Nat :=
  order.swap 4 (order.load (hdr.take 2))

/-- The length, given to `read_dump` as an `int`. -/
def readLen (order : ByteOrder) (hdr : List UInt8) : Nat :=
  if traceLen order hdr < 2 ^ 31 then traceLen order hdr else 0

def traceOf (order : ByteOrder) (hdr bytes : List UInt8) : HcidumpTrace where
  tvSec := order.swap 4 (order.load ((hdr.drop 3).take 4))
  tvUsec := order.swap 4 (order.load ((hdr.drop 7).take 4))
  incoming := hdr.getD 2 0
  data := bytes ++ List.replicate (hciMaxFrameSize - bytes.length) 0
  dataLen := traceLen order hdr

/-- The calls of the handler, and what `parse_hcidump` returns or does instead. -/
structure Parsed where
  calls : List HcidumpTrace
  result : Except Fault Int

/-- The loop of `parse_hcidump`.  What a header is not read into keeps what it was. -/
def parseLoop (order : ByteOrder) (accepts : HcidumpTrace → Bool) :
    Nat → List ReadResult → List UInt8 → List UInt8 → Parsed
  | 0, _, _, _ => ⟨[], .error .stackOverflow⟩
  | fuel + 1, reads, file, hdr =>
      let h := readDump reads file headerSize []
      let hdr := h.bytes ++ hdr.drop h.bytes.length
      if h.ret < 0 then ⟨[], .ok (-1)⟩
      else
        let d := readDump h.reads h.file (readLen order hdr) []
        if hciMaxFrameSize < d.bytes.length then ⟨[], .error .outOfBounds⟩
        else if d.ret < 0 then ⟨[], .ok (-1)⟩
        else
          let trace := traceOf order hdr d.bytes
          if accepts trace = false then ⟨[trace], .ok (-1)⟩
          else if d.ret = 0 then ⟨[trace], .ok 0⟩
          else
            let p := parseLoop order accepts fuel d.reads d.file hdr
            ⟨trace :: p.calls, p.result⟩

/-- `parse_hcidump` of a file that can be opened, with what is on the stack for the header.
Every turn of the loop but the last reads a header and data. -/
def parseHcidump (order : ByteOrder) (accepts : HcidumpTrace → Bool) (reads : List ReadResult)
    (file stack : List UInt8) : Parsed :=
  parseLoop order accepts (file.length + 1) reads file stack

/-! ## What the dump is for -/

/-- The handler is called with the packet. -/
def Carries (trace : HcidumpTrace) (p : HciPacket) : Prop :=
  trace.dataLen = p.data.length ∧ trace.incoming = p.direction ∧ trace.tvSec = p.tvSec ∧
    trace.tvUsec = p.tvUsec ∧ trace.data.take trace.dataLen = p.data

def RoundTrips (parsed : Parsed) (packets : List HciPacket) : Prop :=
  List.Forall₂ Carries parsed.calls packets ∧ parsed.result = .ok 0

/-- A short or interrupted transfer. -/
def WriteResult.Short (w : WriteResult) : Prop := w ≠ .zero ∧ w ≠ .failed

def ReadResult.Short (r : ReadResult) : Prop := r ≠ .failed

/-- A packet has at least one byte, and at most as many as the buffer for it. -/
def HciPacket.Captured (p : HciPacket) : Prop :=
  1 ≤ p.data.length ∧ p.data.length ≤ hciMaxFrameSize

/-- The parser can come to read a header at the rest of a file. -/
inductive RecordAt (order : ByteOrder) (file : List UInt8) : List UInt8 → Prop where
  | start : RecordAt order file file
  | next {rest : List UInt8} (h : RecordAt order file rest)
      (hheader : headerSize ≤ rest.length) (hpos : readLen order (rest.take headerSize) ≠ 0)
      (hdata : headerSize + readLen order (rest.take headerSize) ≤ rest.length) :
      RecordAt order file (rest.drop (headerSize + readLen order (rest.take headerSize)))

/-- Of no header more data is declared, and there, than the buffer holds. -/
def RecordsFit (order : ByteOrder) (file : List UInt8) : Prop :=
  ∀ rest, RecordAt order file rest → headerSize ≤ rest.length →
    min (readLen order (rest.take headerSize)) (rest.length - headerSize) ≤ hciMaxFrameSize

/-! ## What the loops do -/

/-- What comes of a `read_dump`: a call fails, or all is there, or the file ends. -/
inductive Loads (reads : List ReadResult) (file : List UInt8) (len : Nat) (bytes : List UInt8) :
    ReadDump → Prop where
  | failed (d : ReadDump) (hret : d.ret = -1) (hmem : .failed ∈ reads)
      (hbytes : d.bytes.length ≤ bytes.length + min len file.length) : Loads reads file len bytes d
  | full (hlen : len ≤ file.length) (rest : List ReadResult) (hrest : ∀ r ∈ rest, r ∈ reads) :
      Loads reads file len bytes
        ⟨(bytes ++ file.take len).length, bytes ++ file.take len, file.drop len, rest⟩
  | ended (hlen : file.length < len) (rest : List ReadResult) (hrest : ∀ r ∈ rest, r ∈ reads) :
      Loads reads file len bytes ⟨0, bytes ++ file, [], rest⟩

theorem Loads.cons {reads : List ReadResult} {r : ReadResult} {file bytes : List UInt8}
    {len : Nat} {d : ReadDump} (h : Loads reads file len bytes d) :
    Loads (r :: reads) file len bytes d := by
  cases h with
  | failed d hret hmem hbytes => exact .failed d hret (List.mem_cons_of_mem r hmem) hbytes
  | full hlen rest hrest => exact .full hlen rest fun r' hr' => List.mem_cons_of_mem r (hrest r' hr')
  | ended hlen rest hrest =>
      exact .ended hlen rest fun r' hr' => List.mem_cons_of_mem r (hrest r' hr')

/-- After a piece of `k` bytes. -/
theorem Loads.piece {reads : List ReadResult} {file bytes : List UInt8} {len k : Nat}
    {d : ReadDump} (hlen : k ≤ len) (hfile : k ≤ file.length)
    (h : Loads reads (file.drop k) (len - k) (bytes ++ file.take k) d) :
    Loads reads file len bytes d := by
  have htake : bytes ++ file.take k ++ (file.drop k).take (len - k) = bytes ++ file.take len := by
    rw [List.append_assoc, ← List.take_add, Nat.add_sub_cancel' hlen]
  have hdrop : (file.drop k).drop (len - k) = file.drop len := by
    rw [List.drop_drop, Nat.add_sub_cancel' hlen]
  cases h with
  | failed d hret hmem hbytes =>
      refine .failed d hret hmem ?_
      rw [List.length_append, List.length_take, List.length_drop] at hbytes
      omega
  | full hle rest hrest =>
      rw [htake, hdrop]
      rw [List.length_drop] at hle
      exact .full (by omega) rest hrest
  | ended hlt rest hrest =>
      rw [List.append_assoc, List.take_append_drop]
      rw [List.length_drop] at hlt
      exact .ended (by omega) rest hrest

/-- **Reading in pieces.** -/
theorem readDump_loads (reads : List ReadResult) : ∀ (file : List UInt8) (len : Nat)
    (bytes : List UInt8), Loads reads file len bytes (readDump reads file len bytes) := by
  have hzero : ∀ (reads : List ReadResult) (file bytes : List UInt8),
      Loads reads file 0 bytes ⟨bytes.length, bytes, file, reads⟩ := by
    intro reads file bytes
    have h : Loads reads file 0 bytes _ := .full (Nat.zero_le file.length) reads fun _ h => h
    rw [List.take_zero, List.append_nil, List.drop_zero] at h
    exact h
  induction reads with
  | nil =>
      intro file len bytes
      cases len with
      | zero => exact hzero [] file bytes
      | succ len =>
          unfold readDump
          by_cases hlt : file.length < len + 1
          · rw [if_pos hlt]
            exact .ended hlt [] fun _ h => h
          · rw [if_neg hlt]
            exact .full (Nat.not_lt.mp hlt) [] fun _ h => h
  | cons r reads ih =>
      intro file len bytes
      cases len with
      | zero => exact hzero (r :: reads) file bytes
      | succ len =>
          cases r with
          | interrupted => exact (ih file (len + 1) bytes).cons
          | failed => exact .failed _ rfl List.mem_cons_self (Nat.le_add_right _ _)
          | got n =>
              unfold readDump
              dsimp only
              by_cases hk : min (n + 1) (min (len + 1) file.length) = 0
              · -- nothing is left of the file
                rw [if_pos hk]
                have hfile : file = [] := List.eq_nil_of_length_eq_zero (by omega)
                have h : Loads (.got n :: reads) file (len + 1) bytes _ :=
                  .ended (by rw [hfile]; exact Nat.succ_pos len) reads
                    fun _ h => List.mem_cons_of_mem _ h
                rw [hfile, List.append_nil] at h
                rw [hfile]
                exact h
              · rw [if_neg hk]
                exact (Loads.piece (by omega) (by omega) (ih _ _ _)).cons

/-- Short and interrupted writes write all of a buffer. -/
theorem writeLoop_short (ws : List WriteResult) : ∀ (buffer : List UInt8),
    (∀ w ∈ ws, w.Short) →
    ∃ rest, writeLoop ws buffer = (buffer, true, rest) ∧ ∀ w ∈ rest, w.Short := by
  induction ws with
  | nil => exact fun buffer _ => ⟨[], rfl, fun _ h => absurd h List.not_mem_nil⟩
  | cons w ws ih =>
      intro buffer hshort
      obtain ⟨hw, hws⟩ := List.forall_mem_cons.mp hshort
      cases w with
      | interrupted => exact ih buffer hws
      | zero => exact absurd rfl hw.1
      | failed => exact absurd rfl hw.2
      | wrote n =>
          unfold writeLoop
          by_cases hlen : buffer.length ≤ n + 1
          · exact ⟨ws, if_pos hlen, hws⟩
          · obtain ⟨rest, hrest, hshort⟩ := ih (buffer.drop (n + 1)) hws
            refine ⟨rest, ?_, hshort⟩
            rw [if_neg hlen, hrest]
            dsimp only
            rw [List.take_append_drop]

/-- The file that short and interrupted writes leave. -/
theorem processSocketData_short (order : ByteOrder) (packets : List HciPacket) :
    ∀ (ws : List WriteResult), (∀ w ∈ ws, w.Short) →
      processSocketData order ws packets = packets.flatMap (record order) := by
  induction packets with
  | nil => exact fun _ _ => rfl
  | cons p packets ih =>
      intro ws hshort
      obtain ⟨rest, hwrite, hrest⟩ := writeLoop_short ws (record order p) hshort
      unfold processSocketData
      rw [hwrite]
      dsimp only
      rw [if_pos rfl, ih rest hrest, List.flatMap_cons]

/-! ## The header -/

theorem store_swap (order : ByteOrder) (w n : Nat) :
    order.store w (order.swap w n) = leBytes w n := by
  have hback : ∀ bytes : List UInt8, bytes.length = w → leBytes w (leValue bytes) = bytes := by
    rintro bytes rfl
    exact leBytes_leValue bytes
  cases order with
  | little =>
      show leBytes w (n % 256 ^ w) = leBytes w n
      rw [← leValue_leBytes, hback _ (length_leBytes w n)]
  | big =>
      show (leBytes w (leValue (leBytes w n).reverse)).reverse = leBytes w n
      rw [hback _ ((List.length_reverse).trans (length_leBytes w n)), List.reverse_reverse]

/-- The bytes of a header do not depend on the host. -/
theorem record_eq (order : ByteOrder) (p : HciPacket) :
    record order p = leBytes 2 p.data.length ++ p.direction ::
      (leBytes 4 p.tvSec ++ (leBytes 4 p.tvUsec ++ p.data)) := by
  unfold record
  rw [store_swap, store_swap, store_swap]

def header (p : HciPacket) : List UInt8 :=
  leBytes 2 p.data.length ++ p.direction :: (leBytes 4 p.tvSec ++ leBytes 4 p.tvUsec)

theorem length_header (p : HciPacket) : (header p).length = headerSize := by
  unfold header headerSize
  rw [List.length_append, List.length_cons, List.length_append, length_leBytes, length_leBytes,
    length_leBytes]

theorem record_header (order : ByteOrder) (p : HciPacket) :
    record order p = header p ++ p.data := by
  rw [record_eq]
  unfold header
  rw [List.append_assoc, List.cons_append, List.append_assoc]

end Blts.Bluetooth
