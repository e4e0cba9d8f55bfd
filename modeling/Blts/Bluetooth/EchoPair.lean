import Mathlib.Algebra.Order.BigOperators.Group.List
import Mathlib.Algebra.Order.Ring.Nat
import Blts.Lib.Run
import Blts.Bluetooth.EchoClient

/-!
# The echo client and the echo server

The two ends of a reliable stream: `generic_client_test_echo` at one, and
`generic_server_handle_echo` at the other.  Each call of either takes or gives as many of the
bytes as the transport lets it, at least one; a call for which there is nothing waits.

Whatever the transport does, the client comes back, and every byte that it has sent gets back to
it.  But it returns 0 only if one send has taken the message and one read has given it
(`EchoPair.returned_zero_iff`).
-/

namespace Blts.Bluetooth

open Blts.Lib

/-- `buf_len` of the server. -/
def echoBufLen : Nat := 65536

/-- Where the server is: a read gives it `buf`, of which it sends back the last `bytesLeft`
bytes. -/
inductive EchoServer where
  | receiving
  | sending (buf : List UInt8) (bytesLeft : Nat)
  | returned (ret : Int)
  deriving DecidableEq

namespace EchoServer

/-- The bytes that the server still sends back: from `buf + bytes_in - bytes_left`. -/
def pending : EchoServer → List UInt8
  | .sending buf bytesLeft => buf.drop (buf.length - bytesLeft)
  | _ => []

@[simp] theorem pending_receiving : pending .receiving = [] := rfl

@[simp] theorem pending_returned (ret : Int) : pending (.returned ret) = [] := rfl

theorem pending_sending (buf : List UInt8) (bytesLeft : Nat) :
    pending (.sending buf bytesLeft) = buf.drop (buf.length - bytesLeft) := rfl

/-- After `recv(sock, buf, buf_len, 0)`; the end of the stream ends the server. -/
def received (bytes : List UInt8) : EchoServer :=
  if 0 < bytes.length then .sending bytes bytes.length else .returned 0

/-- After a send of so many bytes. -/
def sent (buf : List UInt8) (bytesLeft bytesOut : Nat) : EchoServer :=
  if 0 < bytesLeft - bytesOut then .sending buf (bytesLeft - bytesOut) else .receiving

theorem pending_sent {buf : List UInt8} {bytesLeft bytesOut : Nat} (hbuf : bytesLeft ≤ buf.length)
    (hout : bytesOut ≤ bytesLeft) :
    (sent buf bytesLeft bytesOut).pending = (pending (.sending buf bytesLeft)).drop bytesOut := by
  rw [pending_sending, List.drop_drop]
  by_cases hrest : 0 < bytesLeft - bytesOut
  · have hdrop : buf.length - (bytesLeft - bytesOut) = buf.length - bytesLeft + bytesOut := by omega
    rw [sent, if_pos hrest, pending_sending, hdrop]
  · have hdrop : buf.length ≤ buf.length - bytesLeft + bytesOut := by omega
    rw [sent, if_neg hrest, pending_receiving, List.drop_eq_nil_of_le hdrop]

/-- The server still has to come back. -/
def running : EchoServer → Nat
  | .returned _ => 0
  | _ => 1

theorem running_sent (buf : List UInt8) (bytesLeft bytesOut : Nat) :
    (sent buf bytesLeft bytesOut).running = 1 := by
  rw [sent]
  split <;> rfl

end EchoServer

namespace EchoClient

/-- Where the client is when its calls have sent and read so much. -/
def After (c : EchoClient) (sends : List Nat) (reads : List (List UInt8)) : Prop :=
  match c.phase with
  | .sending => 0 < c.bytesLeft ∧ sends.sum + c.bytesLeft = 4 ∧ reads = [] ∧
      c.inbuf = start.inbuf
  | .receiving => sends.sum = 4 ∧ 0 < c.bytesLeft ∧ reads.flatten.length + c.bytesLeft = 4 ∧
      c.inbuf = overlay start.inbuf reads
  | .returned ret => sends.sum = 4 ∧ reads.flatten.length = 4 ∧
      ret = verdict (overlay start.inbuf reads)

variable {c : EchoClient} {sends : List Nat} {reads : List (List UInt8)}

theorem After.sent {n : Nat} (h : c.After sends reads) (hphase : c.phase = .sending)
    (hn : n ≤ c.bytesLeft) : (c.sent (.ok n)).After (sends ++ [n]) reads := by
  rw [After, hphase] at h
  obtain ⟨-, hsum, hreads, hinbuf⟩ := h
  have hsum' : (sends ++ [n]).sum = sends.sum + n := by
    rw [List.sum_append, List.sum_singleton]
  by_cases hrest : 0 < c.bytesLeft - n
  · have hsent : c.sent (.ok n) = { c with bytesLeft := c.bytesLeft - n } := by
      rw [EchoClient.sent, if_pos hrest]
    rw [hsent, After, hphase]
    have hleft : (sends ++ [n]).sum + (c.bytesLeft - n) = 4 := by omega
    exact ⟨hrest, hleft, hreads, hinbuf⟩
  · have hsent : c.sent (.ok n) = { c with phase := .receiving, bytesLeft := 4 } := by
      rw [EchoClient.sent, if_neg hrest]
    rw [hsent, After, hreads]
    exact ⟨by omega, Nat.zero_lt_succ 3, rfl, hinbuf⟩

theorem After.received {bytes : List UInt8} (h : c.After sends reads)
    (hphase : c.phase = .receiving) (hle : bytes.length ≤ c.bytesLeft) :
    (c.received (.ok bytes)).After sends (reads ++ [bytes]) := by
  rw [After, hphase] at h
  obtain ⟨hsends, -, hlen, hinbuf⟩ := h
  have hlen' : (reads ++ [bytes]).flatten.length = reads.flatten.length + bytes.length := by
    rw [List.flatten_append, List.flatten_singleton, List.length_append]
  by_cases hrest : 0 < c.bytesLeft - bytes.length
  · have hreceived : c.received (.ok bytes) = ⟨c.phase, c.bytesLeft - bytes.length,
        bytes ++ c.inbuf.drop bytes.length⟩ := by
      simp only [EchoClient.received, if_pos hrest]
    rw [hreceived, After, hphase, Overlay.overlay_concat, hinbuf]
    have hleft : (reads ++ [bytes]).flatten.length + (c.bytesLeft - bytes.length) = 4 := by omega
    exact ⟨hsends, hrest, hleft, rfl⟩
  · have hreceived : c.received (.ok bytes) = ⟨.returned (verdict
        (bytes ++ c.inbuf.drop bytes.length)), 0, bytes ++ c.inbuf.drop bytes.length⟩ := by
      simp only [EchoClient.received, if_neg hrest]
    rw [hreceived, After, Overlay.overlay_concat, hinbuf]
    exact ⟨hsends, by omega, rfl⟩

end EchoClient

/-- The two ends, and the bytes under way.  `sends` and `reads` are what the calls of the client
have sent and read so far. -/
structure EchoPair where
  client : EchoClient
  up : List UInt8
  server : EchoServer
  down : List UInt8
  sends : List Nat
  reads : List (List UInt8)
  deriving DecidableEq

/-- A call of one of the ends, with the number of bytes that the transport lets it move. -/
inductive EchoCall where
  | clientSend (n : Nat)
  | clientRecv (n : Nat)
  | serverRecv (n : Nat)
  | serverSend (n : Nat)
  /-- The client has come back and closed its socket. -/
  | serverEnd
  deriving DecidableEq

/-- How the transport splits what the client sends, in a run of calls. -/
def clientSends : List EchoCall → List Nat
  | [] => []
  | .clientSend n :: es => n :: clientSends es
  | _ :: es => clientSends es

/-- How it splits what the client reads. -/
def clientReads : List EchoCall → List Nat
  | [] => []
  | .clientRecv n :: es => n :: clientReads es
  | _ :: es => clientReads es

namespace EchoPair

def start : EchoPair := ⟨EchoClient.start, [], .receiving, [], [], []⟩

def clientSend (s : EchoPair) (n : Nat) : Option EchoPair :=
  if s.client.phase = .sending ∧ 0 < n ∧ n ≤ s.client.bytesLeft then
    some { s with
      client := s.client.sent (.ok n), up := s.up ++ outbuf.take n, sends := s.sends ++ [n] }
  else none

def clientRecv (s : EchoPair) (n : Nat) : Option EchoPair :=
  if s.client.phase = .receiving ∧ 0 < n ∧ n ≤ s.client.bytesLeft ∧ n ≤ s.down.length then
    some { s with
      client := s.client.received (.ok (s.down.take n))
      down := s.down.drop n
      reads := s.reads ++ [s.down.take n] }
  else none

def serverRecv (s : EchoPair) (n : Nat) : Option EchoPair :=
  if s.server = .receiving ∧ 0 < n ∧ n ≤ echoBufLen ∧ n ≤ s.up.length then
    some { s with server := EchoServer.received (s.up.take n), up := s.up.drop n }
  else none

def serverSend (s : EchoPair) (n : Nat) : Option EchoPair :=
  match s.server with
  | .sending buf bytesLeft =>
      if 0 < n ∧ n ≤ bytesLeft then
        some { s with
          server := EchoServer.sent buf bytesLeft n
          down := s.down ++ (buf.drop (buf.length - bytesLeft)).take n }
      else none
  | _ => none

def serverEnd (s : EchoPair) : Option EchoPair :=
  match s.client.phase with
  | .returned _ =>
      if s.server = .receiving ∧ s.up = [] then some { s with server := EchoServer.received [] }
      else none
  | _ => none

def step (s : EchoPair) : EchoCall → Option EchoPair
  | .clientSend n => s.clientSend n
  | .clientRecv n => s.clientRecv n
  | .serverRecv n => s.serverRecv n
  | .serverSend n => s.serverSend n
  | .serverEnd => s.serverEnd

end EchoPair

/-- The client and the server, with any transport between them. -/
def echoSystem : System EchoPair EchoCall := ⟨EchoPair.step⟩

namespace EchoPair

/-- What holds where the server is: it goes on at least as long as the client. -/
def AtServer (s : EchoPair) : Prop :=
  match s.server with
  | .receiving => True
  | .sending buf bytesLeft => 0 < bytesLeft ∧ bytesLeft ≤ buf.length
  | .returned _ => ∃ ret, s.client.phase = .returned ret

/-- The invariant.  No byte is lost and none gets ahead of another: what the sends have taken
is what the reads have given, and after it what is under way. -/
structure Ok (s : EchoPair) : Prop where
  sends_pos : ∀ n ∈ s.sends, 0 < n
  reads_ne : ∀ bytes ∈ s.reads, bytes ≠ []
  stream : s.sends.flatMap (outbuf.take ·) =
    s.reads.flatten ++ s.down ++ s.server.pending ++ s.up
  client : s.client.After s.sends s.reads
  server : s.AtServer

/-- What the two ends still have to do: each byte is moved four times. -/
def toDo (s : EchoPair) : Nat :=
  4 * (4 - s.sends.sum) + 3 * s.up.length + 2 * s.server.pending.length + s.down.length +
    s.server.running

theorem start_ok : start.Ok where
  sends_pos := fun _ h => absurd h List.not_mem_nil
  reads_ne := fun _ h => absurd h List.not_mem_nil
  stream := rfl
  client := ⟨by decide, rfl, rfl, rfl⟩
  server := trivial

variable {s s' : EchoPair} {n : Nat}

theorem forall_mem_concat {α : Type} {P : α → Prop} {l : List α} {a : α}
    (hl : ∀ b ∈ l, P b) (ha : P a) : ∀ b ∈ l ++ [a], P b := by
  intro b hb
  rcases List.mem_append.mp hb with hb | hb
  · exact hl b hb
  · rw [List.mem_singleton.mp hb]
    exact ha

/-- The client has not come back, so neither has the server. -/
theorem AtServer.client (h : s.AtServer) (hphase : ∀ ret, s.client.phase ≠ .returned ret)
    {c : EchoClient} {up down : List UInt8} {sends : List Nat} {reads : List (List UInt8)} :
    (EchoPair.mk c up s.server down sends reads).AtServer := by
  cases hserver : s.server with
  | receiving => trivial
  | sending buf left =>
      rw [AtServer, hserver] at h
      exact h
  | returned r =>
      rw [AtServer, hserver] at h
      obtain ⟨ret, hret⟩ := h
      exact absurd hret (hphase ret)

theorem clientSend_ok (h : s.Ok) (hstep : s.clientSend n = some s') :
    s'.Ok ∧ s'.toDo < s.toDo := by
  obtain ⟨⟨hphase, hn, hle⟩, hs'⟩ := Option.ite_none_right_eq_some.mp hstep
  cases hs'
  have hat := h.client
  rw [EchoClient.After, hphase] at hat
  obtain ⟨-, hsum, -, -⟩ := hat
  constructor
  · exact {
      sends_pos := forall_mem_concat h.sends_pos hn
      reads_ne := h.reads_ne
      stream := by
        rw [List.flatMap_append, h.stream, List.flatMap_singleton, List.append_assoc _ s.up]
      client := h.client.sent hphase hle
      server := h.server.client fun ret hret => by rw [hphase] at hret; cases hret }
  · have hlen : (outbuf.take n).length = n := by
      rw [List.length_take]
      have : outbuf.length = 5 := rfl
      omega
    simp only [toDo, List.sum_append, List.sum_singleton, List.length_append, hlen]
    omega

theorem clientRecv_ok (h : s.Ok) (hstep : s.clientRecv n = some s') :
    s'.Ok ∧ s'.toDo < s.toDo := by
  obtain ⟨⟨hphase, hn, hle, hdown⟩, hs'⟩ := Option.ite_none_right_eq_some.mp hstep
  cases hs'
  have hlen : (s.down.take n).length = n := by
    rw [List.length_take]
    omega
  constructor
  · exact {
      sends_pos := h.sends_pos
      reads_ne := forall_mem_concat h.reads_ne (List.length_pos_iff.mp (by rw [hlen]; exact hn))
      stream := by
        rw [h.stream, List.flatten_append, List.flatten_singleton, List.append_assoc _ (s.down.take n),
          List.take_append_drop]
      client := h.client.received hphase (by rw [hlen]; exact hle)
      server := h.server.client fun ret hret => by rw [hphase] at hret; cases hret }
  · simp only [toDo, List.length_drop]
    omega

theorem serverRecv_ok (h : s.Ok) (hstep : s.serverRecv n = some s') :
    s'.Ok ∧ s'.toDo < s.toDo := by
  obtain ⟨⟨hserver, hn, -, hup⟩, hs'⟩ := Option.ite_none_right_eq_some.mp hstep
  cases hs'
  have hlen : (s.up.take n).length = n := by
    rw [List.length_take]
    omega
  have hreceived : EchoServer.received (s.up.take n) = .sending (s.up.take n) n := by
    rw [EchoServer.received, hlen, if_pos hn]
  have hpending : (EchoServer.received (s.up.take n)).pending = s.up.take n := by
    rw [hreceived, EchoServer.pending, hlen, Nat.sub_self, List.drop_zero]
  constructor
  · exact {
      sends_pos := h.sends_pos
      reads_ne := h.reads_ne
      stream := by
        rw [h.stream, hserver, hpending, List.append_assoc _ (s.up.take n), List.take_append_drop,
          EchoServer.pending_receiving, List.append_nil]
      client := h.client
      server := by
        rw [AtServer, hreceived]
        exact ⟨hn, Nat.le_of_eq hlen.symm⟩ }
  · have hrunning : (EchoServer.received (s.up.take n)).running = s.server.running := by
      rw [hreceived, hserver]
      rfl
    simp only [toDo, hpending, hrunning, hlen, List.length_drop]
    omega

theorem serverSend_ok (h : s.Ok) (hstep : s.serverSend n = some s') :
    s'.Ok ∧ s'.toDo < s.toDo := by
  cases hserver : s.server with
  | receiving => simp [serverSend, hserver] at hstep
  | returned r => simp [serverSend, hserver] at hstep
  | sending buf left =>
      simp only [serverSend, hserver] at hstep
      obtain ⟨⟨hn, hle⟩, hs'⟩ := Option.ite_none_right_eq_some.mp hstep
      cases hs'
      have hat := h.server
      rw [AtServer, hserver] at hat
      obtain ⟨hleft, hbuf⟩ := hat
      have hpending : (EchoServer.sent buf left n).pending =
          (buf.drop (buf.length - left)).drop n := EchoServer.pending_sent hbuf hle
      constructor
      · exact {
          sends_pos := h.sends_pos
          reads_ne := h.reads_ne
          stream := by
            rw [h.stream, hserver, EchoServer.pending_sending, hpending, ← List.append_assoc,
              List.append_assoc _ (List.take _ _), List.take_append_drop]
          client := h.client
          server := by
            by_cases hrest : 0 < left - n
            · rw [AtServer, EchoServer.sent, if_pos hrest]
              exact ⟨hrest, by omega⟩
            · rw [AtServer, EchoServer.sent, if_neg hrest]
              trivial }
      · have hlen : (buf.drop (buf.length - left)).length = left := by
          rw [List.length_drop]
          omega
        have hlen' : ((buf.drop (buf.length - left)).drop n).length = left - n := by
          rw [List.length_drop, hlen]
        have hrunning : (EchoServer.sending buf left).running = 1 := rfl
        simp only [toDo, hpending, hserver, hrunning, EchoServer.pending_sending,
          EchoServer.running_sent, List.length_append, List.length_take, hlen, hlen']
        omega

theorem serverEnd_ok (h : s.Ok) (hstep : s.serverEnd = some s') :
    s'.Ok ∧ s'.toDo < s.toDo := by
  cases hphase : s.client.phase with
  | sending => simp [serverEnd, hphase] at hstep
  | receiving => simp [serverEnd, hphase] at hstep
  | returned ret =>
      simp only [serverEnd, hphase] at hstep
      obtain ⟨⟨hserver, -⟩, hs'⟩ := Option.ite_none_right_eq_some.mp hstep
      cases hs'
      constructor
      · exact {
          sends_pos := h.sends_pos
          reads_ne := h.reads_ne
          stream := by
            rw [h.stream, hserver]
            rfl
          client := h.client
          server := ⟨ret, hphase⟩ }
      · have hended : EchoServer.received [] = .returned 0 := rfl
        simp only [toDo, hended, hserver, EchoServer.pending_receiving,
          EchoServer.pending_returned]
        exact Nat.lt_succ_self _

/-- **Every call** keeps the invariant, and leaves less to do. -/
theorem step_ok (e : EchoCall) (h : s.Ok) (hstep : echoSystem.step s e = some s') :
    s'.Ok ∧ s'.toDo < s.toDo := by
  cases e with
  | clientSend n => exact clientSend_ok h hstep
  | clientRecv n => exact clientRecv_ok h hstep
  | serverRecv n => exact serverRecv_ok h hstep
  | serverSend n => exact serverSend_ok h hstep
  | serverEnd => exact serverEnd_ok h hstep

/-- Every state that a run of calls comes to has the invariant. -/
theorem exec_ok {es : List EchoCall} (hrun : echoSystem.exec start es = some s) : s.Ok :=
  echoSystem.exec_invariant (K := fun _ _ => True) Ok
    (fun _ e _ hs _ hstep => (step_ok e hs hstep).1) es start_ok
    (echoSystem.meets_of_forall es fun _ _ => trivial) hrun

/-- The calls of a run are those that the state remembers. -/
theorem exec_calls (es : List EchoCall) : ∀ {s t : EchoPair}, echoSystem.exec s es = some t →
    t.sends = s.sends ++ clientSends es ∧
      t.reads.length = s.reads.length + (clientReads es).length := by
  induction es with
  | nil =>
      intro s t hrun
      cases hrun
      exact ⟨(List.append_nil _).symm, rfl⟩
  | cons e es ih =>
      intro s t hrun
      obtain ⟨s', hstep, hrest⟩ := echoSystem.exec_cons_eq_some hrun
      obtain ⟨hsends, hreads⟩ := ih hrest
      rw [hsends, hreads]
      cases e with
      | clientSend n =>
          obtain ⟨-, hs'⟩ := Option.ite_none_right_eq_some.mp hstep
          cases hs'
          exact ⟨List.append_assoc s.sends [n] _, rfl⟩
      | clientRecv n =>
          obtain ⟨-, hs'⟩ := Option.ite_none_right_eq_some.mp hstep
          cases hs'
          refine ⟨rfl, ?_⟩
          simp only [List.length_append, clientReads, List.length_cons, List.length_nil]
          omega
      | serverRecv n =>
          obtain ⟨-, hs'⟩ := Option.ite_none_right_eq_some.mp hstep
          cases hs'
          exact ⟨rfl, rfl⟩
      | serverSend n =>
          cases hserver : s.server with
          | receiving => simp [echoSystem, step, serverSend, hserver] at hstep
          | returned r => simp [echoSystem, step, serverSend, hserver] at hstep
          | sending buf left =>
              simp only [echoSystem, step, serverSend, hserver] at hstep
              obtain ⟨-, hs'⟩ := Option.ite_none_right_eq_some.mp hstep
              cases hs'
              exact ⟨rfl, rfl⟩
      | serverEnd =>
          cases hphase : s.client.phase with
          | sending => simp [echoSystem, step, serverEnd, hphase] at hstep
          | receiving => simp [echoSystem, step, serverEnd, hphase] at hstep
          | returned ret =>
              simp only [echoSystem, step, serverEnd, hphase] at hstep
              obtain ⟨-, hs'⟩ := Option.ite_none_right_eq_some.mp hstep
              cases hs'
              exact ⟨rfl, rfl⟩

/-! ## The end of a run -/

theorem length_message {sends : List Nat} (h : ∀ n ∈ sends, n ≤ 5) :
    (sends.flatMap (outbuf.take ·)).length = sends.sum := by
  induction sends with
  | nil => rfl
  | cons n sends ih =>
      obtain ⟨hn, hsends⟩ := List.forall_mem_cons.mp h
      have hlen : (outbuf.take n).length = n := by
        rw [List.length_take]
        exact Nat.min_eq_left hn
      rw [List.flatMap_cons, List.length_append, ih hsends, hlen, List.sum_cons]

/-- The client has sent four bytes, and all of them have been read or are under way. -/
theorem Ok.length_under_way (h : s.Ok) (hsum : s.sends.sum = 4) :
    s.reads.flatten.length + s.down.length + s.server.pending.length + s.up.length = 4 := by
  have hle : ∀ n ∈ s.sends, n ≤ 5 := by
    intro n hn
    have hmem := List.le_sum_of_mem hn
    omega
  have hlen := congrArg List.length h.stream
  rw [length_message hle, hsum] at hlen
  simp only [List.length_append] at hlen
  exact hlen.symm

/-- **The two ends never wait for each other**: when no call can be made, the client has come
back. -/
theorem Ok.returned_of_stuck (h : s.Ok) (hstuck : ∀ e, echoSystem.step s e = none) :
    ∃ ret, s.client.phase = .returned ret := by
  have hat := h.client
  cases hphase : s.client.phase with
  | returned ret => exact ⟨ret, rfl⟩
  | sending =>
      rw [EchoClient.After, hphase] at hat
      have hnone : s.clientSend 1 = none := hstuck (.clientSend 1)
      rw [clientSend, if_pos ⟨hphase, Nat.one_pos, hat.1⟩] at hnone
      cases hnone
  | receiving =>
      rw [EchoClient.After, hphase] at hat
      obtain ⟨hsum, hleft, hreads, -⟩ := hat
      have hlen := h.length_under_way hsum
      have hrecv : s.clientRecv 1 = none := hstuck (.clientRecv 1)
      have hdown : s.down.length = 0 := by
        refine Nat.eq_zero_of_not_pos fun hdown => ?_
        rw [clientRecv, if_pos ⟨hphase, Nat.one_pos, hleft, hdown⟩] at hrecv
        cases hrecv
      have hserver := h.server
      cases hplace : s.server with
      | receiving =>
          have hnone : s.serverRecv 1 = none := hstuck (.serverRecv 1)
          have hup : 1 ≤ s.up.length := by
            rw [hplace, EchoServer.pending_receiving, List.length_nil] at hlen
            omega
          rw [serverRecv, if_pos ⟨hplace, Nat.one_pos, by decide, hup⟩] at hnone
          cases hnone
      | sending buf left =>
          have hnone : s.serverSend 1 = none := hstuck (.serverSend 1)
          rw [AtServer, hplace] at hserver
          simp only [serverSend, hplace] at hnone
          rw [if_pos ⟨Nat.one_pos, hserver.1⟩] at hnone
          cases hnone
      | returned r =>
          rw [AtServer, hplace] at hserver
          obtain ⟨ret, hret⟩ := hserver
          rw [hphase] at hret
          cases hret

/-- The sends are the message only if one of them is. -/
theorem message_eq_ping_iff {sends : List Nat} (hpos : ∀ n ∈ sends, 0 < n)
    (hsum : sends.sum = 4) : sends.flatMap (outbuf.take ·) = ping ↔ sends = [4] := by
  constructor
  · intro h
    match sends, hpos, hsum with
    | [n], _, hsum =>
        rw [List.sum_singleton] at hsum
        rw [hsum]
    | n :: m :: sends, hpos, hsum =>
        -- The second send begins the message again.
        have hn := hpos n (by simp)
        have hm := hpos m (by simp)
        rw [List.sum_cons, List.sum_cons] at hsum
        have hlen : (outbuf.take n).length = n := by
          rw [List.length_take]
          have : outbuf.length = 5 := rfl
          omega
        have hbyte : ping[n]? = outbuf[0]? := by
          rw [← h, List.flatMap_cons, List.flatMap_cons,
            List.getElem?_append_right (Nat.le_of_eq hlen), hlen, Nat.sub_self,
            List.getElem?_append_left (by rw [List.length_take]; exact Nat.lt_min.mpr ⟨hm, by decide⟩),
            List.getElem?_take_of_lt hm]
        have hlt : n < 4 := by omega
        match n, hn, hlt with
        | 1, _, _ => exact absurd hbyte (by decide)
        | 2, _, _ => exact absurd hbyte (by decide)
        | 3, _, _ => exact absurd hbyte (by decide)
  · intro h
    rw [h]
    rfl

/-- **What the client returns** to the server. -/
theorem Ok.returned_zero_iff (h : s.Ok) {ret : Int} (hphase : s.client.phase = .returned ret) :
    ret = 0 ↔ s.sends = [4] ∧ s.reads.length = 1 := by
  have hat := h.client
  rw [EchoClient.After, hphase] at hat
  obtain ⟨hsum, hreads, hret⟩ := hat
  have hlen := h.length_under_way hsum
  have hdown : s.down = [] := List.length_eq_zero_iff.mp (by omega)
  have hpending : s.server.pending = [] := List.length_eq_zero_iff.mp (by omega)
  have hup : s.up = [] := List.length_eq_zero_iff.mp (by omega)
  have hstream := h.stream
  rw [hdown, hpending, hup, List.append_nil, List.append_nil, List.append_nil] at hstream
  rw [hret, Overlay.verdict_eq_zero_iff h.reads_ne hreads,
    ← message_eq_ping_iff h.sends_pos hsum, hstream]
  constructor
  · intro h
    rw [h]
    exact ⟨rfl, rfl⟩
  · rintro ⟨hping, hone⟩
    obtain ⟨bytes, hbytes⟩ := List.length_eq_one_iff.mp hone
    rw [hbytes, List.flatten_singleton] at hping
    rw [hbytes, hping]

/-- A run to the end. -/
theorem returned_zero_iff_of_end {es : List EchoCall} {t : EchoPair}
    (hrun : echoSystem.exec start es = some t) (hstuck : ∀ e, echoSystem.step t e = none) :
    t.client.phase = .returned 0 ↔ clientSends es = [4] ∧ (clientReads es).length = 1 := by
  have hok := exec_ok hrun
  obtain ⟨hsends, hreads⟩ := exec_calls es hrun
  obtain ⟨ret, hret⟩ := hok.returned_of_stuck hstuck
  have hsends' : t.sends = clientSends es := hsends
  have hreads' : t.reads.length = (clientReads es).length := hreads.trans (Nat.zero_add _)
  rw [← hsends', ← hreads', ← hok.returned_zero_iff hret, hret]
  constructor
  · intro h
    cases h
    rfl
  · intro h
    rw [h]

/-- **The echo test.**  Every run of the client and the server comes to an end, where the client
has returned 0 exactly if one of its sends has taken the message and one of its reads has given
it; and any other peer is told right exactly if it does not close the connection early, nor
gives the message to more than one read. -/
theorem tells_iff (es : List EchoCall) (t : EchoPair) (p : Peer) :
    (echoSystem.exec start es = some t → es.length ≤ 17 ∧
      ((∀ e, echoSystem.step t e = none) →
        (t.client.phase = .returned 0 ↔
          clientSends es = [4] ∧ (clientReads es).length = 1))) ∧
      (p.ToldRight ↔ p.InOnePiece) := by
  refine ⟨fun hrun => ⟨?_, returned_zero_iff_of_end hrun⟩, p.toldRight_iff_inOnePiece⟩
  exact echoSystem.exec_length_le Ok toDo (fun _ e _ hs hstep => step_ok e hs hstep) es start_ok
    hrun

/-- The server sends the message back at once, and the client reads it in two pieces. -/
def twoReads : List EchoCall :=
  [.clientSend 4, .serverRecv 4, .serverSend 4, .clientRecv 2, .clientRecv 2, .serverEnd]

def twoReadsEnd : EchoPair where
  client := ⟨.returned (-echoEio), 0, [0x6e, 0x67, 0, 0, 0]⟩
  up := []
  server := .returned 0
  down := []
  sends := [4]
  reads := [[0x70, 0x69], [0x6e, 0x67]]

/-- A peer that closes the connection when it has taken the message. -/
def closingPeer : Peer where
  sends := [4]
  sendFails := none
  reads := []
  streamEnd := .closed
  sends_pos := by simp
  sends_le := by simp
  reads_ne := by simp
  reads_le := by simp

theorem twoReads_told_wrong :
    (echoSystem.exec start twoReads = some twoReadsEnd ∧
      (∀ e, echoSystem.step twoReadsEnd e = none) ∧ twoReadsEnd.client.phase ≠ .returned 0) ∧
    (closingPeer.EndsEarly ∧ ∀ ret, ¬closingPeer.Returns ret) := by
  refine ⟨⟨by decide, fun e => ?_, by decide⟩, ⟨?_, fun ret => ?_⟩⟩
  · cases e with
    | clientSend n =>
        have hnone : twoReadsEnd.clientSend n = none := by
          rw [clientSend]
          exact if_neg fun h => absurd h.1 (by decide)
        exact hnone
    | clientRecv n =>
        have hnone : twoReadsEnd.clientRecv n = none := by
          rw [clientRecv]
          exact if_neg fun h => absurd h.1 (by decide)
        exact hnone
    | serverRecv n =>
        have hnone : twoReadsEnd.serverRecv n = none := by
          rw [serverRecv]
          exact if_neg fun h => absurd h.1 (by decide)
        exact hnone
    | serverSend n => rfl
    | serverEnd => rfl
  · exact ⟨by decide, by simp [closingPeer]⟩
  · exact Peer.not_returns_of_closed rfl (by decide) rfl

end EchoPair

end Blts.Bluetooth
