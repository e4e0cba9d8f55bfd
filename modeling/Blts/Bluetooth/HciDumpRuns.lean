import Mathlib.Data.List.Forall2
import Blts.Bluetooth.HciDump

/-!
# Reading a dump back

On a host with the least byte first the handler is called with every packet, and once more at
the end of the file, with the header of the last packet and an empty buffer.  On other hosts
the first length is already wrong.  The buffer holds what is read exactly if no header that the
parser comes to declares more.
-/

namespace Blts.Bluetooth

open Blts.Lib

/-! ## One turn of the loop -/

section

variable {reads : List ReadResult}

theorem readDump_full (file : List UInt8) {len : Nat} (hshort : ∀ r ∈ reads, r.Short)
    (hlen : len ≤ file.length) :
    ∃ rest, readDump reads file len [] = ⟨len, file.take len, file.drop len, rest⟩ ∧
      ∀ r ∈ rest, r.Short := by
  have hloads := readDump_loads reads file len []
  generalize readDump reads file len [] = d at hloads
  cases hloads with
  | failed _ hret hmem hbytes => exact absurd rfl (hshort _ hmem)
  | full _ rest hrest =>
      refine ⟨rest, ?_, fun r hr => hshort r (hrest r hr)⟩
      rw [List.nil_append, List.length_take, Nat.min_eq_left hlen]
  | ended hlt => exact absurd hlen (Nat.not_le.mpr hlt)

/-- At the end of the file nothing is read, whatever is asked for. -/
theorem readDump_end (hshort : ∀ r ∈ reads, r.Short) (len : Nat) :
    ∃ rest, readDump reads [] len [] = ⟨0, [], [], rest⟩ ∧ ∀ r ∈ rest, r.Short := by
  have hloads := readDump_loads reads [] len []
  generalize readDump reads [] len [] = d at hloads
  cases hloads with
  | failed _ hret hmem hbytes => exact absurd rfl (hshort _ hmem)
  | full _ rest hrest =>
      refine ⟨rest, ?_, fun r hr => hshort r (hrest r hr)⟩
      rw [List.take_nil, List.drop_nil]
      rfl
  | ended _ rest hrest => exact ⟨rest, rfl, fun r hr => hshort r (hrest r hr)⟩

/-- **The end of the file**: the handler is called with what stands in the header. -/
theorem parseLoop_end (order : ByteOrder) {accepts : HcidumpTrace → Bool} (fuel : Nat)
    (hdr : List UInt8) (hshort : ∀ r ∈ reads, r.Short)
    (haccepts : accepts (traceOf order hdr []) = true) :
    parseLoop order accepts (fuel + 1) reads [] hdr = ⟨[traceOf order hdr []], .ok 0⟩ := by
  obtain ⟨reads₁, hheader, hshort₁⟩ := readDump_end hshort headerSize
  obtain ⟨reads₂, hdata, _⟩ := readDump_end hshort₁ (readLen order hdr)
  unfold parseLoop
  rw [hheader]
  simp only [List.length_nil, List.drop_zero, List.nil_append]
  rw [if_neg (by decide), hdata]
  dsimp only
  rw [if_neg (by decide), if_neg (by decide), haccepts, if_neg (by decide), if_pos rfl]

/-- A header has been read. -/
theorem parseLoop_header (order : ByteOrder) (accepts : HcidumpTrace → Bool) (fuel : Nat)
    (file : List UInt8) {hdr : List UInt8} (hhdr : hdr.length = headerSize)
    (hlen : headerSize ≤ file.length) (hshort : ∀ r ∈ reads, r.Short) :
    ∃ reads₁, (∀ r ∈ reads₁, r.Short) ∧ ∀ d : ReadDump,
      readDump reads₁ (file.drop headerSize) (readLen order (file.take headerSize)) [] = d →
      parseLoop order accepts (fuel + 1) reads file hdr =
        (if hciMaxFrameSize < d.bytes.length then ⟨[], .error .outOfBounds⟩
        else if d.ret < 0 then ⟨[], .ok (-1)⟩
        else if accepts (traceOf order (file.take headerSize) d.bytes) = false then
          ⟨[traceOf order (file.take headerSize) d.bytes], .ok (-1)⟩
        else if d.ret = 0 then ⟨[traceOf order (file.take headerSize) d.bytes], .ok 0⟩
        else
          let p := parseLoop order accepts fuel d.reads d.file (file.take headerSize)
          ⟨traceOf order (file.take headerSize) d.bytes :: p.calls, p.result⟩) := by
  obtain ⟨reads₁, hheader, hshort₁⟩ := readDump_full file hshort hlen
  refine ⟨reads₁, hshort₁, fun d hd => ?_⟩
  have hkept : hdr.drop (file.take headerSize).length = [] := by
    rw [List.length_take, Nat.min_eq_left hlen, ← hhdr, List.drop_length]
  rw [parseLoop]
  rw [hheader]
  dsimp only
  rw [hkept, List.append_nil, if_neg (by omega), hd]

end

/-! ## Round trips -/

/-- What the handler is called with for a packet. -/
def packetTrace (p : HciPacket) : HcidumpTrace where
  tvSec := p.tvSec % 256 ^ 4
  tvUsec := p.tvUsec % 256 ^ 4
  incoming := p.direction
  data := p.data ++ List.replicate (hciMaxFrameSize - p.data.length) 0
  dataLen := p.data.length

theorem header_take (p : HciPacket) : (header p).take 2 = leBytes 2 p.data.length :=
  List.take_left' (length_leBytes 2 _)

theorem traceLen_little {p : HciPacket} (h : p.Captured) :
    traceLen .little (header p) = p.data.length := by
  have hlen : p.data.length < 256 ^ 2 := Nat.lt_of_le_of_lt h.2 (by decide)
  show leValue ((header p).take 2) % 256 ^ 4 = p.data.length
  rw [header_take, leValue_leBytes, Nat.mod_eq_of_lt hlen,
    Nat.mod_eq_of_lt (Nat.lt_trans hlen (by decide))]

/-- The two bytes of the length come out as the two upper bytes of four. -/
theorem traceLen_big (p : HciPacket) :
    traceLen .big (header p) = 65536 * (p.data.length % 256 ^ 2) := by
  show leValue (leBytes 4 (leValue ((header p).take 2).reverse)).reverse = _
  have hlen : leValue (leBytes 2 p.data.length) = p.data.length % 256 ^ 2 := leValue_leBytes 2 _
  rw [header_take, ← hlen]
  show leValue (leBytes 4 (leValue [_, _])).reverse = 65536 * leValue [_, _]
  generalize UInt8.ofNat p.data.length = a
  generalize UInt8.ofNat (p.data.length / 256) = b
  have hzeros : leValue [b, a] = leValue [b, a, 0, 0] := rfl
  have hbytes : leBytes 4 (leValue [b, a, 0, 0]) = [b, a, 0, 0] := leBytes_leValue [b, a, 0, 0]
  rw [hzeros, hbytes]
  show 0 + 256 * (0 + 256 * leValue [a, b]) = 65536 * leValue [a, b]
  omega

theorem traceOf_header {p : HciPacket} (h : p.Captured) :
    traceOf .little (header p) p.data = packetTrace p := by
  have hsec : ((header p).drop 3).take 4 = leBytes 4 p.tvSec :=
    List.take_left' (length_leBytes 4 _)
  have husec : ((header p).drop 7).take 4 = leBytes 4 p.tvUsec :=
    List.take_of_length_le (Nat.le_of_eq (length_leBytes 4 _))
  unfold traceOf packetTrace
  rw [hsec, husec, traceLen_little h]
  show HcidumpTrace.mk (leValue (leBytes 4 p.tvSec) % 256 ^ 4)
    (leValue (leBytes 4 p.tvUsec) % 256 ^ 4) _ _ _ = _
  rw [leValue_leBytes, leValue_leBytes, Nat.mod_mod, Nat.mod_mod]
  rfl

theorem readLen_little {p : HciPacket} (h : p.Captured) :
    readLen .little (header p) = p.data.length := by
  unfold readLen
  rw [traceLen_little h, if_pos (Nat.lt_of_le_of_lt h.2 (by decide))]

theorem take_record (order : ByteOrder) (p : HciPacket) (rest : List UInt8) :
    (record order p ++ rest).take headerSize = header p ∧
      (record order p ++ rest).drop headerSize = p.data ++ rest := by
  rw [record_header, List.append_assoc]
  exact ⟨List.take_left' (length_header p), List.drop_left' (length_header p)⟩

theorem length_record (order : ByteOrder) (p : HciPacket) :
    (record order p).length = headerSize + p.data.length := by
  rw [record_header, List.length_append, length_header]

/-- **A whole dump**, on a host with the least byte first: one call for each packet, and one
more. -/
theorem parseLoop_packets {packets : List HciPacket} :
    ∀ {fuel : Nat} {reads : List ReadResult} {hdr : List UInt8}, (∀ r ∈ reads, r.Short) →
      (∀ p ∈ packets, p.Captured) → hdr.length = headerSize →
      (packets.flatMap (record .little)).length < fuel →
      parseLoop .little (fun _ => true) fuel reads (packets.flatMap (record .little)) hdr =
        ⟨packets.map packetTrace ++
          [traceOf .little (packets.foldl (fun _ p => header p) hdr) []], .ok 0⟩ := by
  induction packets with
  | nil =>
      intro fuel reads hdr hshort _ _ hfuel
      obtain ⟨fuel, rfl⟩ := Nat.exists_eq_add_one_of_ne_zero (Nat.ne_of_gt hfuel)
      exact parseLoop_end .little fuel hdr hshort rfl
  | cons p packets ih =>
      intro fuel reads hdr hshort hcaptured hhdr hfuel
      obtain ⟨hp, hps⟩ := List.forall_mem_cons.mp hcaptured
      obtain ⟨fuel, rfl⟩ := Nat.exists_eq_add_one_of_ne_zero (Nat.ne_zero_of_lt hfuel)
      rw [List.flatMap_cons] at hfuel ⊢
      have hlength := length_record .little p
      rw [List.length_append, hlength] at hfuel
      obtain ⟨htake, hdrop⟩ := take_record .little p (packets.flatMap (record .little))
      obtain ⟨reads₁, hshort₁, hturn⟩ := parseLoop_header .little (fun _ => true) fuel
        (record .little p ++ packets.flatMap (record .little)) hhdr
        (by rw [List.length_append, hlength]; omega) hshort
      rw [htake, hdrop, readLen_little hp] at hturn
      have hin : p.data.length ≤ (p.data ++ packets.flatMap (record .little)).length := by
        rw [List.length_append]
        exact Nat.le_add_right _ _
      obtain ⟨reads₂, hdata, hshort₂⟩ := readDump_full _ hshort₁ hin
      rw [List.take_left' rfl, List.drop_left' rfl] at hdata
      have hpos : (p.data.length : Int) ≠ 0 := by
        have := hp.1
        omega
      rw [hturn _ hdata]
      dsimp only
      rw [if_neg (Nat.not_lt.mpr hp.2), if_neg (by omega), if_neg (by decide), if_neg hpos,
        ih hshort₂ hps (length_header p) (by omega), traceOf_header hp]
      rfl

/-- On other hosts the first length is wrong. -/
theorem parseLoop_big {p : HciPacket} (hp : p.Captured) (packets : List HciPacket)
    {reads : List ReadResult} (hshort : ∀ r ∈ reads, r.Short) {hdr : List UInt8}
    (hhdr : hdr.length = headerSize) (fuel : Nat) (rest : List UInt8) :
    ¬ RoundTrips (parseLoop .big (fun _ => true) (fuel + 1) reads (record .big p ++ rest) hdr)
      (p :: packets) := by
  have hlength := length_record .big p
  obtain ⟨htake, hdrop⟩ := take_record .big p rest
  obtain ⟨reads₁, hshort₁, hturn⟩ := parseLoop_header .big (fun _ => true) fuel
    (record .big p ++ rest) hhdr
    (by rw [List.length_append, hlength]; omega) hshort
  rw [htake, hdrop] at hturn
  have hwrong : ∀ bytes, ¬ Carries (traceOf .big (header p) bytes) p := by
    rintro bytes ⟨hlen, _⟩
    have hbig : traceLen .big (header p) = p.data.length := hlen
    have hmod : p.data.length % 256 ^ 2 = p.data.length :=
      Nat.mod_eq_of_lt (Nat.lt_of_le_of_lt hp.2 (by decide))
    have hpos := hp.1
    rw [traceLen_big, hmod] at hbig
    omega
  rw [hturn _ rfl]
  rintro ⟨hcalls, hresult⟩
  split at hcalls
  · cases hcalls
  · split at hcalls
    · cases hcalls
    · rw [if_neg (by decide)] at hcalls
      split at hcalls
      · cases hcalls with
        | cons hcarries _ => exact hwrong _ hcarries
      · cases hcalls with
        | cons hcarries _ => exact hwrong _ hcarries

/-- **No dump** comes back as it was captured. -/
theorem parseHcidump_not_roundTrips (order : ByteOrder) {packets : List HciPacket}
    {ws : List WriteResult} {reads : List ReadResult} {stack : List UInt8}
    (hcaptured : ∀ p ∈ packets, p.Captured) (hws : ∀ w ∈ ws, w.Short)
    (hreads : ∀ r ∈ reads, r.Short) (hstack : stack.length = headerSize) :
    ¬ RoundTrips (parseHcidump order (fun _ => true) reads
      (processSocketData order ws packets) stack) packets := by
  rw [processSocketData_short order packets ws hws]
  unfold parseHcidump
  cases packets with
  | nil =>
      rw [List.flatMap_nil, parseLoop_end order _ _ hreads rfl]
      rintro ⟨hcalls, _⟩
      cases hcalls
  | cons p packets =>
      cases order with
      | little =>
          rw [parseLoop_packets hreads hcaptured hstack (Nat.lt_succ_self _)]
          rintro ⟨hcalls, _⟩
          have hlen := hcalls.length_eq
          rw [List.length_append, List.length_map, List.length_singleton] at hlen
          omega
      | big =>
          rw [List.flatMap_cons]
          exact parseLoop_big (hcaptured p List.mem_cons_self) packets hreads hstack _ _

/-! ## The bound of the buffer -/

theorem readDump_length (reads : List ReadResult) (file : List UInt8) (len : Nat) :
    (readDump reads file len []).bytes.length ≤ min len file.length := by
  have hloads := readDump_loads reads file len []
  generalize readDump reads file len [] = d at hloads
  cases hloads with
  | failed _ hret hmem hbytes =>
      rw [List.length_nil, Nat.zero_add] at hbytes
      exact hbytes
  | full hlen rest hrest =>
      show ([] ++ file.take len).length ≤ _
      exact Nat.le_of_eq (by rw [List.nil_append, List.length_take])
  | ended hlt rest hrest =>
      show ([] ++ file).length ≤ _
      rw [List.nil_append]
      omega

/-- A read of data after which the loop goes on. -/
theorem readDump_goesOn {reads : List ReadResult} {file : List UInt8} {len : Nat}
    (hret : ¬ (readDump reads file len []).ret < 0) (hne : (readDump reads file len []).ret ≠ 0) :
    len ≠ 0 ∧ len ≤ file.length ∧ (readDump reads file len []).file = file.drop len := by
  have hloads := readDump_loads reads file len []
  generalize readDump reads file len [] = d at hloads hret hne
  cases hloads with
  | failed _ hfailed hmem hbytes =>
      rw [hfailed] at hret
      exact absurd (by decide) hret
  | full hlen rest hrest =>
      refine ⟨?_, hlen, rfl⟩
      rintro rfl
      exact hne rfl
  | ended hlt rest hrest => exact absurd rfl hne

/-- **Headers that fit**: nothing is read past the buffer, and the loop comes to its end. -/
theorem parseLoop_fits {order : ByteOrder} {accepts : HcidumpTrace → Bool} {file : List UInt8}
    (hfits : RecordsFit order file) :
    ∀ {fuel : Nat} {reads : List ReadResult} {rest hdr : List UInt8}, RecordAt order file rest →
      hdr.length = headerSize → rest.length < fuel →
      ∃ n, (parseLoop order accepts fuel reads rest hdr).result = .ok n := by
  intro fuel
  induction fuel with
  | zero =>
      intro reads rest hdr _ _ hfuel
      exact absurd hfuel (Nat.not_lt_zero _)
  | succ fuel ih =>
      intro reads rest hdr hat hhdr hfuel
      unfold parseLoop
      dsimp only
      have hheader := readDump_loads reads rest headerSize []
      generalize readDump reads rest headerSize [] = h at hheader
      cases hheader with
      | failed _ hret hmem hbytes =>
          rw [if_pos (by rw [hret]; decide)]
          exact ⟨_, rfl⟩
      | full hlen reads₁ hrest =>
          rw [if_neg (Int.not_lt.mpr (Int.natCast_nonneg _))]
          have hkept : hdr.drop ([] ++ rest.take headerSize).length = [] := by
            rw [List.nil_append, List.length_take, Nat.min_eq_left hlen, ← hhdr, List.drop_length]
          rw [hkept, List.append_nil, List.nil_append]
          have hbytes := readDump_length reads₁ (rest.drop headerSize)
            (readLen order (rest.take headerSize))
          rw [List.length_drop] at hbytes
          rw [if_neg (Nat.not_lt.mpr (Nat.le_trans hbytes (hfits rest hat hlen)))]
          split
          · exact ⟨_, rfl⟩
          next hret =>
            split
            · exact ⟨_, rfl⟩
            · split
              · exact ⟨_, rfl⟩
              next hne =>
                obtain ⟨hpos, hdata, hfile⟩ := readDump_goesOn hret hne
                rw [List.length_drop] at hdata
                replace hdata :
                    readLen order (rest.take headerSize) ≤ rest.length - headerSize := hdata
                rw [hfile, List.drop_drop]
                refine ih (hat.next hlen hpos (by omega)) ?_ ?_
                · rw [List.length_take, Nat.min_eq_left hlen]
                · have hsize : headerSize = 11 := rfl
                  rw [List.length_drop]
                  omega
      | ended hlt reads₁ hrest =>
          rw [if_neg (Int.lt_irrefl 0)]
          -- there is nothing left to read
          have hbytes := readDump_length reads₁ []
            (readLen order ([] ++ rest ++ hdr.drop ([] ++ rest).length))
          rw [List.length_nil, Nat.min_zero] at hbytes
          rw [if_neg (Nat.not_lt.mpr (Nat.le_trans hbytes (Nat.zero_le _)))]
          split
          · exact ⟨_, rfl⟩
          next hret =>
            split
            · exact ⟨_, rfl⟩
            · split
              · exact ⟨_, rfl⟩
              next hne =>
                obtain ⟨hpos, hdata, _⟩ := readDump_goesOn hret hne
                exact absurd (Nat.le_zero.mp hdata) hpos

/-- Calls that do not fail load all that is asked for and there. -/
theorem readDump_short_length {reads : List ReadResult} (hshort : ∀ r ∈ reads, r.Short)
    (file : List UInt8) (len : Nat) :
    (readDump reads file len []).bytes.length = min len file.length := by
  have hloads := readDump_loads reads file len []
  generalize readDump reads file len [] = d at hloads
  cases hloads with
  | failed _ hret hmem hbytes => exact absurd rfl (hshort _ hmem)
  | full hlen rest hrest =>
      show ([] ++ file.take len).length = _
      rw [List.nil_append, List.length_take]
  | ended hlt rest hrest =>
      show ([] ++ file).length = _
      rw [List.nil_append]
      omega

/-- A turn that does not read past the buffer. -/
theorem fits_of_turn {order : ByteOrder} {fuel : Nat} {reads : List ReadResult}
    {rest hdr : List UInt8} (hshort : ∀ r ∈ reads, r.Short) (hhdr : hdr.length = headerSize)
    (hlen : headerSize ≤ rest.length)
    (hresult : (parseLoop order (fun _ => true) (fuel + 1) reads rest hdr).result ≠
      .error .outOfBounds) :
    min (readLen order (rest.take headerSize)) (rest.length - headerSize) ≤ hciMaxFrameSize := by
  obtain ⟨reads₁, hshort₁, hturn⟩ :=
    parseLoop_header order (fun _ => true) fuel rest hhdr hlen hshort
  have hbytes := readDump_short_length hshort₁ (rest.drop headerSize)
    (readLen order (rest.take headerSize))
  rw [List.length_drop] at hbytes
  rw [← hbytes]
  rw [hturn _ rfl] at hresult
  by_contra hlarge
  rw [if_pos (Nat.not_le.mp hlarge)] at hresult
  exact hresult rfl

/-- A parser that takes every trace comes to every header that it can come to. -/
theorem reaches_of_recordAt {order : ByteOrder} {file rest : List UInt8}
    (hat : RecordAt order file rest) {stack : List UInt8} (hstack : stack.length = headerSize)
    (hbounded : (parseHcidump order (fun _ => true) [] file stack).result ≠ .error .outOfBounds) :
    ∃ fuel reads hdr, (∀ r ∈ reads, r.Short) ∧ rest.length < fuel ∧ hdr.length = headerSize ∧
      (parseLoop order (fun _ => true) fuel reads rest hdr).result ≠ .error .outOfBounds := by
  induction hat with
  | start =>
      exact ⟨file.length + 1, [], stack, fun _ h => absurd h List.not_mem_nil,
        Nat.lt_succ_self _, hstack, hbounded⟩
  | @next rest hat hheader hpos hdata ih =>
      obtain ⟨fuel, reads, hdr, hshort, hfuel, hhdr, hresult⟩ := ih
      obtain ⟨fuel, rfl⟩ := Nat.exists_eq_add_one_of_ne_zero (Nat.ne_zero_of_lt hfuel)
      have hfits := fits_of_turn hshort hhdr hheader hresult
      obtain ⟨reads₁, hshort₁, hturn⟩ :=
        parseLoop_header order (fun _ => true) fuel rest hhdr hheader hshort
      have hlen : readLen order (rest.take headerSize) ≤ (rest.drop headerSize).length := by
        rw [List.length_drop]
        omega
      obtain ⟨reads₂, hread, hshort₂⟩ := readDump_full (rest.drop headerSize) hshort₁ hlen
      rw [hturn _ hread] at hresult
      dsimp only at hresult
      rw [List.drop_drop, if_neg (by rw [List.length_take]; omega), if_neg (by omega),
        if_neg (by decide), if_neg (by omega)] at hresult
      refine ⟨fuel, reads₂, rest.take headerSize, hshort₂, ?_, ?_, hresult⟩
      · rw [List.length_drop]
        omega
      · rw [List.length_take, Nat.min_eq_left hheader]

/-- Nothing is read past the buffer: whatever the handler, the calls of `read` and the stack,
the parser returns. -/
def Bounded (order : ByteOrder) (file : List UInt8) : Prop :=
  ∀ (accepts : HcidumpTrace → Bool) (reads : List ReadResult) (stack : List UInt8),
    stack.length = headerSize → ∃ n, (parseHcidump order accepts reads file stack).result = .ok n

/-- **The buffer holds what is read** exactly if the headers fit. -/
theorem bounded_iff_recordsFit (order : ByteOrder) (file : List UInt8) :
    Bounded order file ↔ RecordsFit order file := by
  constructor
  · intro hbounded rest hat hlen
    have hstack := List.length_replicate (n := headerSize) (a := (0 : UInt8))
    obtain ⟨n, hn⟩ := hbounded (fun _ => true) [] _ hstack
    obtain ⟨fuel, reads, hdr, hshort, hfuel, hhdr, hresult⟩ :=
      reaches_of_recordAt hat hstack (by rw [hn]; exact fun h => (by cases h))
    obtain ⟨fuel, rfl⟩ := Nat.exists_eq_add_one_of_ne_zero (Nat.ne_zero_of_lt hfuel)
    exact fits_of_turn hshort hhdr hlen hresult
  · intro hfits accepts reads stack hstack
    exact parseLoop_fits hfits .start hstack (Nat.lt_succ_self _)

/-- **What a dump gives back**: of no packets the captured ones, in whatever pieces the file is
transferred, and of no file more than the buffer holds exactly if its headers fit. -/
theorem never_roundTrips_bounded_iff (order : ByteOrder) :
    (∀ (packets : List HciPacket) (ws : List WriteResult) (reads : List ReadResult)
      (stack : List UInt8), (∀ p ∈ packets, p.Captured) → (∀ w ∈ ws, w.Short) →
      (∀ r ∈ reads, r.Short) → stack.length = headerSize →
      ¬ RoundTrips (parseHcidump order (fun _ => true) reads
        (processSocketData order ws packets) stack) packets) ∧
      ∀ file : List UInt8, Bounded order file ↔ RecordsFit order file :=
  ⟨fun _ _ _ _ hcaptured hws hreads hstack =>
    parseHcidump_not_roundTrips order hcaptured hws hreads hstack, bounded_iff_recordsFit order⟩

/-- One packet of one byte: two calls.  A header that declares 1029 bytes of data, with that many
zeros after it: all of them are read. -/
theorem onePacket_twice :
    (HciPacket.mk 1 0 0 [7]).Captured ∧
      ¬ RoundTrips (parseHcidump .little (fun _ => true) []
        (processSocketData .little [] [⟨1, 0, 0, [7]⟩]) (List.replicate 11 0)) [⟨1, 0, 0, [7]⟩] ∧
      ¬ Bounded .little (5 :: 4 :: List.replicate 1038 0) := by
  refine ⟨⟨by decide, by decide⟩, ?_, ?_⟩
  · rintro ⟨hcalls, _⟩
    exact absurd hcalls.length_eq (by decide)
  · rw [bounded_iff_recordsFit]
    intro hfits
    exact absurd (hfits _ .start (by decide +kernel)) (by decide +kernel)

end Blts.Bluetooth
