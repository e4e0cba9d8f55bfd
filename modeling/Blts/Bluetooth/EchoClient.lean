import Mathlib.Algebra.Order.Ring.Nat
import Blts.Lib.Loop

/-!
# The echo client and any peer

`generic_client_test_echo` sends the message and reads as many bytes back.  Both loops count
the bytes that are left, but each call is given the start of its buffer: what a send leaves over
is never sent, and each read overwrites what the reads before it stored.  A read of no bytes,
at the end of the stream, counts as any other.

So the client takes an answer for the message only if one read gives all of it
(`Blts.Bluetooth.Overlay.verdict_eq_zero_iff`), and never comes back from a peer that closes
early (`Peer.ends_iff_of_closed`).
-/

namespace Blts.Bluetooth

open Blts.Lib

/-- An error number. -/
abbrev SocketErrno := { errno : Nat // 0 < errno }

/-- `EIO`. -/
def echoEio : Int := 5

/-- `char outbuf[5] = "ping"`. -/
def outbuf : List UInt8 := [0x70, 0x69, 0x6e, 0x67, 0]

/-- The message: the first four bytes. -/
def ping : List UInt8 := outbuf.take 4

/-- `strncmp(s, t, n) == 0`. -/
def strncmpEqual : Nat → List UInt8 → List UInt8 → Bool
  | n + 1, a :: s, b :: t => a = b && (a = 0 || strncmpEqual n s t)
  | _, _, _ => true

/-- Where the client is. -/
inductive EchoPhase where
  | sending
  | receiving
  | returned (ret : Int)
  deriving DecidableEq

/-- The local variables of `generic_client_test_echo`. -/
structure EchoClient where
  phase : EchoPhase
  bytesLeft : Nat
  inbuf : List UInt8
  deriving DecidableEq

namespace EchoClient

/-- Before the first `send`. -/
def start : EchoClient := ⟨.sending, 4, [0, 0, 0, 0, 0]⟩

/-- What the client returns when it has read four bytes. -/
def verdict (inbuf : List UInt8) : Int :=
  if strncmpEqual 4 inbuf outbuf then 0 else -echoEio

/-- After `send(sock, outbuf, bytes_left, 0)`, which has sent so many bytes. -/
def sent (c : EchoClient) : Except SocketErrno Nat → EchoClient
  | .error errno => { c with phase := .returned (-errno) }
  | .ok bytesOut =>
      if 0 < c.bytesLeft - bytesOut then { c with bytesLeft := c.bytesLeft - bytesOut }
      else { c with phase := .receiving, bytesLeft := 4 }

/-- After `recv(sock, inbuf, bytes_left, 0)`, which has read these bytes. -/
def received (c : EchoClient) : Except SocketErrno (List UInt8) → EchoClient
  | .error errno => { c with phase := .returned (-errno) }
  | .ok bytes =>
      let inbuf := bytes ++ c.inbuf.drop bytes.length
      if 0 < c.bytesLeft - bytes.length then
        { c with bytesLeft := c.bytesLeft - bytes.length, inbuf := inbuf }
      else ⟨.returned (verdict inbuf), 0, inbuf⟩

end EchoClient

/-! ## What the reads leave in the buffer -/

/-- The buffer after reads that each store from its start. -/
def overlay (inbuf : List UInt8) (reads : List (List UInt8)) : List UInt8 :=
  reads.foldl (fun buf bytes => bytes ++ buf.drop bytes.length) inbuf

namespace Overlay

theorem overlay_cons (inbuf bytes : List UInt8) (reads : List (List UInt8)) :
    overlay inbuf (bytes :: reads) = overlay (bytes ++ inbuf.drop bytes.length) reads := rfl

theorem overlay_concat (inbuf bytes : List UInt8) (reads : List (List UInt8)) :
    overlay inbuf (reads ++ [bytes]) =
      bytes ++ (overlay inbuf reads).drop bytes.length := by
  rw [overlay, List.foldl_append]
  rfl

theorem length_overlay {reads : List (List UInt8)} {inbuf : List UInt8}
    (h : ∀ bytes ∈ reads, bytes.length ≤ inbuf.length) :
    (overlay inbuf reads).length = inbuf.length := by
  induction reads generalizing inbuf with
  | nil => rfl
  | cons bytes reads ih =>
      obtain ⟨hbytes, hreads⟩ := List.forall_mem_cons.mp h
      have hlen : (bytes ++ inbuf.drop bytes.length).length = inbuf.length := by
        rw [List.length_append, List.length_drop]
        omega
      rw [overlay_cons, ih (by rw [hlen]; exact hreads), hlen]

/-- Reads of no more than `i` bytes leave byte `i` alone. -/
theorem getElem?_overlay {i : Nat} {reads : List (List UInt8)}
    (h : ∀ bytes ∈ reads, bytes.length ≤ i) (inbuf : List UInt8) :
    (overlay inbuf reads)[i]? = inbuf[i]? := by
  induction reads generalizing inbuf with
  | nil => rfl
  | cons bytes reads ih =>
      obtain ⟨hbytes, hreads⟩ := List.forall_mem_cons.mp h
      rw [overlay_cons, ih hreads, List.getElem?_append_right hbytes, List.getElem?_drop,
        Nat.add_sub_cancel' hbytes]

/-- A buffer that passes begins with the message. -/
theorem take_of_verdict {inbuf : List UInt8} (hlen : inbuf.length = 5)
    (h : EchoClient.verdict inbuf = 0) : inbuf.take 4 = ping := by
  match inbuf, hlen with
  | [a, b, c, d, e], _ =>
      by_cases hsame : strncmpEqual 4 [a, b, c, d, e] outbuf
      · simp only [strncmpEqual, outbuf, Bool.and_eq_true, decide_eq_true_eq,
          Bool.or_eq_true] at hsame
        obtain ⟨rfl, ha⟩ := hsame
        obtain ⟨rfl, hb⟩ := ha.resolve_left (by decide)
        obtain ⟨rfl, hc⟩ := hb.resolve_left (by decide)
        obtain ⟨rfl, -⟩ := hc.resolve_left (by decide)
        rfl
      · rw [EchoClient.verdict, if_neg hsame] at h
        exact absurd h (by decide)

theorem length_le_of_mem {reads : List (List UInt8)} {bytes : List UInt8} (h : bytes ∈ reads) :
    bytes.length ≤ reads.flatten.length :=
  (List.sublist_flatten_of_mem h).length_le

/-- **The verdict** on four bytes: they are the message, and one read gave all of them. -/
theorem verdict_eq_zero_iff {reads : List (List UInt8)} (hne : ∀ bytes ∈ reads, bytes ≠ [])
    (hlen : reads.flatten.length = 4) :
    EchoClient.verdict (overlay EchoClient.start.inbuf reads) = 0 ↔ reads = [ping] := by
  constructor
  · intro h
    have hbytes : ∀ bytes ∈ reads, bytes.length ≤ EchoClient.start.inbuf.length := by
      intro bytes hmem
      have hle := length_le_of_mem hmem
      rw [hlen] at hle
      exact Nat.le_trans hle (by decide)
    have htake := take_of_verdict (length_overlay hbytes) h
    match reads, hne, hlen with
    | [bytes], _, hlen =>
        rw [List.flatten_singleton] at hlen
        rw [overlay_cons, overlay, List.foldl_nil, List.take_left' hlen] at htake
        rw [htake]
    | bytes :: bytes' :: reads, hne, hlen =>
        -- No read is long enough for the last byte.
        have hshort : ∀ b ∈ bytes :: bytes' :: reads, b.length ≤ 3 := by
          have h₁ := List.length_pos_iff.mpr (hne bytes (by simp))
          have h₂ := List.length_pos_iff.mpr (hne bytes' (by simp))
          simp only [List.flatten_cons, List.length_append] at hlen
          intro b hb
          rcases List.mem_cons.mp hb with rfl | hb
          · omega
          · rcases List.mem_cons.mp hb with rfl | hb
            · omega
            · have h₃ := length_le_of_mem hb
              omega
        have hlast := getElem?_overlay hshort EchoClient.start.inbuf
        rw [← List.getElem?_take_of_lt (show 3 < 4 by decide), htake] at hlast
        exact absurd hlast (by decide)
  · intro h
    rw [h]
    rfl

end Overlay

open Overlay

/-! ## A peer -/

/-- What the reads give after the last byte. -/
inductive StreamEnd where
  | closed
  | failed (errno : SocketErrno)
  | waits

/-- A peer, as the client's calls see it.  Each send takes some of the bytes that are left; if
they do not take the whole message, the next one fails, or waits for ever.  Each read gives some
of the bytes that the client still asks for. -/
structure Peer where
  sends : List Nat
  sendFails : Option SocketErrno
  reads : List (List UInt8)
  streamEnd : StreamEnd
  sends_pos : ∀ n ∈ sends, 0 < n
  sends_le : sends.sum ≤ 4
  reads_ne : ∀ bytes ∈ reads, bytes ≠ []
  reads_le : reads.flatten.length ≤ 4

/-- The client, and what the peer still takes and gives. -/
structure Talk where
  client : EchoClient
  sends : List Nat
  reads : List (List UInt8)

namespace Peer

/-- One call of the client; one that waits for ever changes nothing. -/
def lap (p : Peer) (s : Talk) : Lap Talk Int :=
  match s.client.phase with
  | .returned ret => .leave ret
  | .sending =>
      match s.sends, p.sendFails with
      | bytesOut :: sends, _ => .again ⟨s.client.sent (.ok bytesOut), sends, s.reads⟩
      | [], some errno => .again ⟨s.client.sent (.error errno), [], s.reads⟩
      | [], none => .again s
  | .receiving =>
      match s.reads, p.streamEnd with
      | bytes :: reads, _ => .again ⟨s.client.received (.ok bytes), s.sends, reads⟩
      | [], .closed => .again ⟨s.client.received (.ok []), s.sends, []⟩
      | [], .failed errno => .again ⟨s.client.received (.error errno), s.sends, []⟩
      | [], .waits => .again s

/-- `generic_client_test_echo` comes back with `ret`. -/
def Returns (p : Peer) (ret : Int) : Prop :=
  Lap.Ends p.lap ⟨EchoClient.start, p.sends, p.reads⟩ ret

/-- The bytes that the client receives: it reads none before it has sent four. -/
def receivedBytes (p : Peer) : List UInt8 := if p.sends.sum = 4 then p.reads.flatten else []

/-- The connection ends before the peer has given four bytes: it is closed, or a call fails. -/
def EndsEarly (p : Peer) : Prop :=
  if p.sends.sum = 4 then p.reads.flatten.length < 4 ∧ p.streamEnd ≠ .waits
  else p.sendFails ≠ none

variable {p : Peer} {ret : Int}

theorem ends_returned_iff {s : Talk} {r : Int} (h : s.client.phase = .returned r) :
    Lap.Ends p.lap s ret ↔ ret = r := by
  have hlap : p.lap s = .leave r := by
    rw [lap, h]
  exact Lap.ends_leave_iff hlap

/-- The loop that sends takes the sends of the peer one by one. -/
theorem ends_sending_iff {sends : List Nat} {reads : List (List UInt8)} {inbuf : List UInt8}
    (hpos : ∀ n ∈ sends, 0 < n) {left : Nat} (hleft : 0 < left) (hle : sends.sum ≤ left) :
    Lap.Ends p.lap ⟨⟨.sending, left, inbuf⟩, sends, reads⟩ ret ↔
      if sends.sum = left then Lap.Ends p.lap ⟨⟨.receiving, 4, inbuf⟩, [], reads⟩ ret
      else ∃ errno, p.sendFails = some errno ∧ ret = -errno := by
  induction sends generalizing left with
  | nil =>
      rw [List.sum_nil, if_neg (Nat.ne_of_lt hleft)]
      cases hfails : p.sendFails with
      | some errno =>
          have hlap : p.lap ⟨⟨.sending, left, inbuf⟩, [], reads⟩ =
              .again ⟨⟨.returned (-errno), left, inbuf⟩, [], reads⟩ := by
            simp only [lap, hfails, EchoClient.sent]
          rw [Lap.ends_again_iff hlap, ends_returned_iff rfl]
          constructor
          · exact fun h => ⟨errno, rfl, h⟩
          · rintro ⟨errno', herrno, h⟩
            cases herrno
            exact h
      | none =>
          have hlap : p.lap ⟨⟨.sending, left, inbuf⟩, [], reads⟩ =
              .again ⟨⟨.sending, left, inbuf⟩, [], reads⟩ := by
            simp only [lap, hfails]
          constructor
          · intro h
            exact absurd h (Lap.not_ends (· = ⟨⟨.sending, left, inbuf⟩, [], reads⟩)
              (fun s hs => ⟨s, by rw [hs, hlap], hs⟩) rfl)
          · rintro ⟨_, h, -⟩
            exact absurd h (by simp)
  | cons n sends ih =>
      obtain ⟨hn, hpos⟩ := List.forall_mem_cons.mp hpos
      rw [List.sum_cons] at hle ⊢
      by_cases hrest : 0 < left - n
      · have hlap : p.lap ⟨⟨.sending, left, inbuf⟩, n :: sends, reads⟩ =
            .again ⟨⟨.sending, left - n, inbuf⟩, sends, reads⟩ := by
          simp only [lap, EchoClient.sent, if_pos hrest]
        have hsum : n + sends.sum = left ↔ sends.sum = left - n := by omega
        rw [Lap.ends_again_iff hlap, ih hpos hrest (by omega), if_congr hsum rfl rfl]
      · have hlap : p.lap ⟨⟨.sending, left, inbuf⟩, n :: sends, reads⟩ =
            .again ⟨⟨.receiving, 4, inbuf⟩, sends, reads⟩ := by
          simp only [lap, EchoClient.sent, if_neg hrest]
        have hnil : sends = [] := by
          match sends, hpos with
          | [], _ => rfl
          | m :: sends, hpos =>
              have hm := hpos m List.mem_cons_self
              rw [List.sum_cons] at hle
              omega
        rw [Lap.ends_again_iff hlap, hnil, if_pos (by rw [hnil] at hle; simp at hle ⊢; omega)]

/-- What the reads come to after the last byte that the peer gives: a client that is told that
the peer has closed reads on. -/
theorem ends_short_iff {left : Nat} (hleft : 0 < left) {sends : List Nat} {inbuf : List UInt8} :
    Lap.Ends p.lap ⟨⟨.receiving, left, inbuf⟩, sends, []⟩ ret ↔
      ∃ errno, p.streamEnd = .failed errno ∧ ret = -errno := by
  by_cases hfailed : ∃ errno, p.streamEnd = .failed errno
  · obtain ⟨errno, herrno⟩ := hfailed
    have hlap : p.lap ⟨⟨.receiving, left, inbuf⟩, sends, []⟩ =
        .again ⟨⟨.returned (-errno), left, inbuf⟩, sends, []⟩ := by
      simp only [lap, herrno, EchoClient.received]
    rw [Lap.ends_again_iff hlap, ends_returned_iff rfl]
    constructor
    · exact fun h => ⟨errno, herrno, h⟩
    · rintro ⟨errno', herrno', h⟩
      cases herrno.symm.trans herrno'
      exact h
  · have hlap : p.lap ⟨⟨.receiving, left, inbuf⟩, sends, []⟩ =
        .again ⟨⟨.receiving, left, inbuf⟩, sends, []⟩ := by
      cases hend : p.streamEnd with
      | closed =>
          simp only [lap, hend, EchoClient.received, List.length_nil, Nat.sub_zero, if_pos hleft,
            List.drop_zero, List.nil_append]
      | failed errno => exact absurd ⟨errno, hend⟩ hfailed
      | waits => simp only [lap, hend]
    constructor
    · intro h
      exact absurd h (Lap.not_ends (· = ⟨⟨.receiving, left, inbuf⟩, sends, []⟩)
        (fun s hs => ⟨s, by rw [hs, hlap], hs⟩) rfl)
    · rintro ⟨errno, herrno, -⟩
      exact absurd ⟨errno, herrno⟩ hfailed

/-- The loop that receives takes the reads of the peer one by one. -/
theorem ends_receiving_iff {sends : List Nat} {reads : List (List UInt8)}
    (hne : ∀ bytes ∈ reads, bytes ≠ []) {left : Nat} (hleft : 0 < left)
    (hle : reads.flatten.length ≤ left) {inbuf : List UInt8} :
    Lap.Ends p.lap ⟨⟨.receiving, left, inbuf⟩, sends, reads⟩ ret ↔
      if reads.flatten.length = left then ret = EchoClient.verdict (overlay inbuf reads)
      else ∃ errno, p.streamEnd = .failed errno ∧ ret = -errno := by
  induction reads generalizing left inbuf with
  | nil =>
      rw [List.flatten_nil, List.length_nil, if_neg (Nat.ne_of_lt hleft)]
      exact ends_short_iff hleft
  | cons bytes reads ih =>
      obtain ⟨-, hne⟩ := List.forall_mem_cons.mp hne
      rw [List.flatten_cons, List.length_append] at hle ⊢
      rw [overlay_cons]
      by_cases hrest : 0 < left - bytes.length
      · have hlap : p.lap ⟨⟨.receiving, left, inbuf⟩, sends, bytes :: reads⟩ =
            .again ⟨⟨.receiving, left - bytes.length, bytes ++ inbuf.drop bytes.length⟩, sends,
              reads⟩ := by
          simp only [lap, EchoClient.received, if_pos hrest]
        have hsum : bytes.length + reads.flatten.length = left ↔
            reads.flatten.length = left - bytes.length := by omega
        rw [Lap.ends_again_iff hlap, ih hne hrest (by omega), if_congr hsum rfl rfl]
      · have hlap : p.lap ⟨⟨.receiving, left, inbuf⟩, sends, bytes :: reads⟩ =
            .again ⟨⟨.returned (EchoClient.verdict (bytes ++ inbuf.drop bytes.length)), 0,
              bytes ++ inbuf.drop bytes.length⟩, sends, reads⟩ := by
          simp only [lap, EchoClient.received, if_neg hrest]
        have hnil : reads = [] := by
          match reads, hne with
          | [], _ => rfl
          | bytes' :: reads, hne =>
              have hpos := List.length_pos_iff.mpr (hne bytes' List.mem_cons_self)
              rw [List.flatten_cons, List.length_append] at hle
              omega
        have hall : bytes.length + reads.flatten.length = left := by
          rw [hnil, List.flatten_nil, List.length_nil] at hle ⊢
          omega
        rw [Lap.ends_again_iff hlap, ends_returned_iff rfl, if_pos hall, hnil]
        rfl

/-- **What the client returns**, to any peer. -/
theorem returns_iff (p : Peer) (ret : Int) :
    p.Returns ret ↔
      if p.sends.sum = 4 then
        if p.reads.flatten.length = 4 then
          ret = EchoClient.verdict (overlay EchoClient.start.inbuf p.reads)
        else ∃ errno, p.streamEnd = .failed errno ∧ ret = -errno
      else ∃ errno, p.sendFails = some errno ∧ ret = -errno := by
  rw [Returns, EchoClient.start, ends_sending_iff p.sends_pos (by decide) p.sends_le,
    ends_receiving_iff p.reads_ne (by decide) p.reads_le]

/-- The peer closes before it has given four bytes, and the client reads on. -/
theorem not_returns_of_closed (hsent : p.sends.sum = 4) (hshort : p.reads.flatten.length < 4)
    (hclosed : p.streamEnd = .closed) : ¬p.Returns ret := by
  rw [returns_iff, if_pos hsent, if_neg (Nat.ne_of_lt hshort), hclosed]
  rintro ⟨_, h, -⟩
  exact absurd h (by simp)

/-- The client tells the peer's bytes from others: it returns 0 exactly if the first four bytes
that it receives are the message, and an error if the connection ends before. -/
def ToldRight (p : Peer) : Prop :=
  (p.Returns 0 ↔ p.receivedBytes = ping) ∧ (p.EndsEarly → ∃ ret < 0, p.Returns ret)

/-- The peer does not close early, and gives the message, if that is what it gives, to one
read. -/
def InOnePiece (p : Peer) : Prop :=
  p.sends.sum = 4 →
    (p.reads.flatten.length < 4 → p.streamEnd ≠ .closed) ∧
      (p.reads.flatten = ping → p.reads.length = 1)

theorem neg_errno_lt (errno : SocketErrno) : -(errno : Int) < 0 := by
  have h := errno.property
  omega

/-- A peer that gives four bytes is told right unless they are the message in pieces. -/
theorem toldRight_of_four (hsent : p.sends.sum = 4) (hall : p.reads.flatten.length = 4) :
    p.ToldRight ↔ (p.reads.flatten = ping → p.reads.length = 1) := by
  have hreturns : p.Returns 0 ↔ p.reads = [ping] := by
    rw [returns_iff, if_pos hsent, if_pos hall, eq_comm]
    exact verdict_eq_zero_iff p.reads_ne hall
  have hearly : ¬p.EndsEarly := by
    rw [EndsEarly, if_pos hsent]
    omega
  rw [ToldRight, hreturns, receivedBytes, if_pos hsent,
    and_iff_left fun h => absurd h hearly]
  constructor
  · intro h hping
    rw [h.mpr hping]
    rfl
  · intro h
    constructor
    · intro hreads
      rw [hreads]
      rfl
    · intro hping
      obtain ⟨bytes, hbytes⟩ := List.length_eq_one_iff.mp (h hping)
      rw [hbytes, List.flatten_singleton] at hping
      rw [hbytes, hping]

/-- A peer that gives fewer is told right unless it closes the connection. -/
theorem toldRight_of_short (hsent : p.sends.sum = 4) (hshort : p.reads.flatten.length < 4) :
    p.ToldRight ↔ p.streamEnd ≠ .closed := by
  have hreturns : ∀ ret, p.Returns ret ↔ ∃ errno, p.streamEnd = .failed errno ∧ ret = -errno := by
    intro ret
    rw [returns_iff, if_pos hsent, if_neg (Nat.ne_of_lt hshort)]
  have hzero : ¬p.Returns 0 := by
    rw [hreturns]
    rintro ⟨errno, -, h⟩
    have hneg := neg_errno_lt errno
    omega
  have hping : p.receivedBytes ≠ ping := by
    rw [receivedBytes, if_pos hsent]
    intro h
    rw [h] at hshort
    exact absurd hshort (by decide)
  rw [ToldRight, and_iff_right (iff_of_false hzero hping), EndsEarly, if_pos hsent,
    and_iff_right hshort]
  constructor
  · intro h hclosed
    obtain ⟨ret, -, hret⟩ := h (by rw [hclosed]; simp)
    exact not_returns_of_closed hsent hshort hclosed hret
  · intro hclosed hwaits
    cases hend : p.streamEnd with
    | closed => exact absurd hend hclosed
    | failed errno => exact ⟨-errno, neg_errno_lt errno, (hreturns _).mpr ⟨errno, hend, rfl⟩⟩
    | waits => exact absurd hend hwaits

/-- A peer that does not take the message is told right. -/
theorem toldRight_of_untaken (hsent : p.sends.sum ≠ 4) : p.ToldRight := by
  have hreturns : ∀ ret, p.Returns ret ↔ ∃ errno, p.sendFails = some errno ∧ ret = -errno := by
    intro ret
    rw [returns_iff, if_neg hsent]
  refine ⟨iff_of_false ?_ ?_, ?_⟩
  · rw [hreturns]
    rintro ⟨errno, -, h⟩
    have hneg := neg_errno_lt errno
    omega
  · rw [receivedBytes, if_neg hsent]
    decide
  · intro hearly
    rw [EndsEarly, if_neg hsent] at hearly
    obtain ⟨errno, herrno⟩ := Option.ne_none_iff_exists'.mp hearly
    exact ⟨-errno, neg_errno_lt errno, (hreturns _).mpr ⟨errno, herrno, rfl⟩⟩

/-- **The client and any peer.** -/
theorem toldRight_iff_inOnePiece (p : Peer) : p.ToldRight ↔ p.InOnePiece := by
  by_cases hsent : p.sends.sum = 4
  · rw [InOnePiece, imp_iff_right hsent]
    rcases Nat.lt_or_eq_of_le p.reads_le with hshort | hall
    · rw [toldRight_of_short hsent hshort, imp_iff_right hshort]
      refine (and_iff_left fun hping => ?_).symm
      rw [hping] at hshort
      exact absurd hshort (by decide)
    · rw [toldRight_of_four hsent hall, and_iff_right fun h => absurd hall (Nat.ne_of_lt h)]
  · exact iff_of_true (toldRight_of_untaken hsent) fun h => absurd h hsent

end Peer

end Blts.Bluetooth
