import Blts.Lib.CharBuffer
import Blts.Lib.Run
import Mathlib.Logic.Function.Basic

/-!
# The entries of the log in sysfs

`sysfs_log_write` cuts a message off at the end of its entry, but the length it stores is that of
the whole message.  It describes what has been written just where the time and the message come to
at most 126 characters (`sound_iff`).
-/

namespace Blts.Usb

open Lib Lib.CharBuffer

/-- `TRACE_BUF_SIZE` -/
def traceBufSize : Nat := 128

/-- `struct sysfs_log_entry` -/
structure SysfsLogEntry where
  len : Int
  buf : CharBuffer

namespace SysfsLogEntry

/-- What has been written into the entry. -/
def storedText (e : SysfsLogEntry) : CharBuffer :=
  e.buf.takeWhile Option.isSome

/-- The length is one that an entry can have, and that of what has been written. -/
def Sound (e : SysfsLogEntry) : Prop :=
  0 ≤ e.len ∧ e.len ≤ traceBufSize ∧ e.buf.length = traceBufSize ∧
    e.buf.take e.len.toNat = e.storedText

end SysfsLogEntry

/-- `"[ %d.%03d ] "`, of the milliseconds since the start. -/
def timeText (msec : UInt32) : List Char :=
  "[ ".toList ++ decimal 0 (msec.toNat / 1000) ++ '.' :: decimal 3 (msec.toNat % 1000) ++ " ] ".toList

/-- A sum of `int`s, which wraps around in the kernel. -/
def wrapSum (x : Int) : Int :=
  Int.bmod x 4294967296

/-- The entry that `sysfs_log_write` commits, in a reserved one that nobody has written. -/
def sysfsLogWrite (msec : UInt32) (text : List Char) : Option SysfsLogEntry := do
  let buf : CharBuffer := List.replicate traceBufSize none
  let buf ← buf.sprintf 0 (timeText msec)
  let len ← buf.strlen
  let buf ← buf.snprintf len (traceBufSize - len - 1) text
  return { len := wrapSum (len + (text.length + 1)), buf := buf }

theorem wrapSum_eq {x : Int} (h : 0 ≤ x ∧ x < 2147483648) : wrapSum x = x :=
  Int.bmod_eq_of_le_mul_two (by omega) (by omega)

theorem noNul_timeText (msec : UInt32) : '\x00' ∉ timeText msec := by
  have hsec := noNul_decimal 0 (msec.toNat / 1000)
  have hmsec := noNul_decimal 3 (msec.toNat % 1000)
  simp [timeText, hsec, hmsec]

/-- A time is not longer than sixteen characters. -/
theorem length_timeText_le (msec : UInt32) : (timeText msec).length ≤ 16 := by
  have hsec : (decimal 0 (msec.toNat / 1000)).length ≤ 7 := by
    apply length_decimal_le (by decide) (by decide)
    have hlt := msec.toNat_lt
    exact Nat.lt_of_le_of_lt (Nat.div_le_div_right (Nat.le_of_lt hlt)) (by decide)
  have hmsec : (decimal 3 (msec.toNat % 1000)).length ≤ 3 := by
    apply length_decimal_le (by decide) (by decide)
    exact Nat.mod_lt _ (by decide)
  have hopen : "[ ".toList.length = 2 := rfl
  have hclose : " ] ".toList.length = 3 := rfl
  simp only [timeText, List.length_append, List.length_cons, hopen, hclose]
  omega

section

variable (msec : UInt32) (text : List Char)

/-- What there is room for of the time and the message. -/
def keptText : List Char :=
  timeText msec ++ text.take (126 - (timeText msec).length)

theorem length_keptText_le : (keptText msec text).length ≤ 126 := by
  have htime := length_timeText_le msec
  have hmessage : (text.take (126 - (timeText msec).length)).length ≤
      126 - (timeText msec).length := List.length_take_le _ _
  rw [keptText, List.length_append]
  omega

/-- Each message is written, and each has its NUL. -/
theorem sysfsLogWrite_eq : sysfsLogWrite msec text =
    some ⟨wrapSum ((timeText msec).length + (text.length + 1)),
      (keptText msec text ++ ['\x00']).map some ++
        List.replicate (127 - (keptText msec text).length) none⟩ := by
  have htime := length_timeText_le msec
  have hkept := length_keptText_le msec text
  have hend (s : List Char) : (s ++ ['\x00']).length = s.length + 1 := by
    rw [List.length_append, List.length_singleton]
  have hfirst : CharBuffer.sprintf (List.replicate traceBufSize none) 0 (timeText msec) =
      some ((timeText msec).map some ++
        (some '\x00' :: List.replicate (127 - (timeText msec).length) none)) := by
    have hwrite := write_append [] (List.replicate traceBufSize none) (timeText msec ++ ['\x00'])
      (by rw [hend, List.length_replicate, traceBufSize]; omega)
    rw [List.map_append, List.append_assoc, List.drop_replicate, hend, traceBufSize,
      show 128 - ((timeText msec).length + 1) = 127 - (timeText msec).length by omega] at hwrite
    exact hwrite
  have hlen : CharBuffer.strlen ((timeText msec).map some ++
      (some '\x00' :: List.replicate (127 - (timeText msec).length) none)) =
      some (timeText msec).length := by
    rw [CharBuffer.strlen, read_append (noNul_timeText msec), Option.map_some]
  have hsecond : CharBuffer.snprintf ((timeText msec).map some ++
      (some '\x00' :: List.replicate (127 - (timeText msec).length) none))
      (timeText msec).length (traceBufSize - (timeText msec).length - 1) text =
      some ((keptText msec text ++ ['\x00']).map some ++
        List.replicate (127 - (keptText msec text).length) none) := by
    have hsize : traceBufSize - (timeText msec).length - 1 - 1 =
        126 - (timeText msec).length := by
      rw [traceBufSize]
      omega
    have hwrite := write_append ((timeText msec).map some)
      (some '\x00' :: List.replicate (127 - (timeText msec).length) none)
      (text.take (126 - (timeText msec).length) ++ ['\x00'])
      (by rw [hend, List.length_cons, List.length_replicate, List.length_take]; omega)
    have hrest : 127 - (keptText msec text).length =
        127 - (timeText msec).length - (text.take (126 - (timeText msec).length)).length := by
      rw [keptText, List.length_append]
      omega
    rw [List.length_map, hend, List.drop_succ_cons, List.drop_replicate, ← hrest] at hwrite
    rw [CharBuffer.snprintf, if_neg (by rw [traceBufSize]; omega), CharBuffer.sprintf, hsize,
      hwrite, keptText, List.append_assoc, @List.map_append _ _ some (timeText msec),
      List.append_assoc]
  rw [sysfsLogWrite]
  simp only [Option.bind_eq_bind, hfirst, hlen, hsecond, Option.bind_some]
  rfl

/-- What is written is what there is room for, with its NUL. -/
theorem storedText_eq {e : SysfsLogEntry} (h : sysfsLogWrite msec text = some e) :
    e.storedText = (keptText msec text ++ ['\x00']).map some := by
  obtain rfl := Option.some.inj ((sysfsLogWrite_eq msec text).symm.trans h)
  have hwritten : ∀ c ∈ (keptText msec text ++ ['\x00']).map some, c.isSome = true := by
    intro c hc
    obtain ⟨_, -, rfl⟩ := List.mem_map.mp hc
    rfl
  rw [SysfsLogEntry.storedText, List.takeWhile_append_of_pos hwritten, List.takeWhile_replicate]
  exact List.append_nil _

/-- An entry describes what has been written just where the message has not been cut off. -/
theorem sound_iff {e : SysfsLogEntry} (h : sysfsLogWrite msec text = some e)
    (hint : (timeText msec).length + (text.length + 1) < 2 ^ 31) :
    e.Sound ↔ (timeText msec).length + text.length ≤ 126 := by
  have htime := length_timeText_le msec
  have hkept := length_keptText_le msec text
  have hstored := storedText_eq msec text h
  have heq := Option.some.inj ((sysfsLogWrite_eq msec text).symm.trans h)
  have hstoredLength : e.storedText.length = (keptText msec text).length + 1 := by
    rw [hstored, List.length_map, List.length_append, List.length_singleton]
  have hkeptLength : (keptText msec text).length =
      (timeText msec).length + min (126 - (timeText msec).length) text.length := by
    rw [keptText, List.length_append, List.length_take]
  have hlen : e.len = (timeText msec).length + (text.length + 1) := by
    rw [← heq]
    dsimp only
    rw [wrapSum_eq (by omega)]
  have hbuf : e.buf = e.storedText ++ List.replicate (127 - (keptText msec text).length) none := by
    rw [hstored, ← heq]
  have hbufLength : e.buf.length = 128 := by
    rw [hbuf, List.length_append, List.length_replicate]
    omega
  constructor
  · rintro ⟨-, hle, -, htake⟩
    have hboth := congrArg List.length htake
    rw [List.length_take, hstoredLength] at hboth
    rw [traceBufSize] at hle
    omega
  · intro hfits
    refine ⟨by omega, by rw [traceBufSize]; omega, hbufLength, ?_⟩
    have hall : e.len.toNat = e.storedText.length := by omega
    rw [hall, hbuf]
    exact List.take_left' rfl

end

/-!
## Writers and readers of the log in sysfs

The ring buffer keeps the entries of each CPU in order and may drop the oldest ones for new ones.
Any number of writers and readers take their steps in any order: a reader copies the oldest entry
to its page, and only then consumes an entry of the same CPU.  Where no message is cut off, a page
is made of whole entries (`logRun_sound`).
-/

/-- The entries of each present CPU with their times, the oldest first. -/
abbrev RingBuffer := List (List (Nat × SysfsLogEntry))

/-- The oldest entry of a CPU, where it is older than the one chosen so far. -/
def chooseEvent (next : Option (Nat × Nat × SysfsLogEntry))
    (queue : List (Nat × SysfsLogEntry) × Nat) : Option (Nat × Nat × SysfsLogEntry) :=
  match queue.1.head?, next with
  | none, next => next
  | some event, none => some (queue.2, event)
  | some event, some (cpu, chosen) =>
    if event.1 < chosen.1 then some (queue.2, event) else some (cpu, chosen)

/-- `get_next_rb_event`: the entry, and its CPU. -/
def getNextRbEvent (buffer : RingBuffer) : Option (Nat × Nat × SysfsLogEntry) :=
  buffer.zipIdx.foldl chooseEvent none

/-- Where a reader stands in `sysfs_log_show`, and what it has copied to its page. -/
inductive LogReader where
  | outside
  | looping (page : CharBuffer)
  /-- Before `ring_buffer_consume`, for this CPU. -/
  | consuming (page : CharBuffer) (cpu : Nat)
  | returned (page : CharBuffer)
  /-- `memcpy` has read past the entry. -/
  | overrun
  deriving DecidableEq

structure LogState where
  buffer : RingBuffer
  /-- All entries that were ever committed. -/
  stored : List SysfsLogEntry
  readers : Nat → LogReader

namespace LogState

def move (s : LogState) (r : Nat) (p : LogReader) : LogState :=
  { s with readers := Function.update s.readers r p }

theorem readers_move (s : LogState) (r : Nat) (p : LogReader) :
    (s.move r p).readers = Function.update s.readers r p :=
  rfl

/-- The log after `sysfs_log_add`. -/
def init (cpus : Nat) : LogState where
  buffer := List.replicate cpus []
  stored := []
  readers := fun _ => .outside

end LogState

inductive LogEvent where
  | write (cpu time : Nat) (msec : UInt32) (text : List Char)
  /-- The ring buffer drops its oldest entries. -/
  | overwrite (cpu count : Nat)
  | read (r : Nat)
  /-- The next step of a reader. -/
  | step (r : Nat)

/-- A round of the loop of `sysfs_log_show` up to `ring_buffer_consume`.  A sum below zero is a
large number beside `PAGE_SIZE`, and so is a length below zero for `memcpy`. -/
def sysfsLogShow (pageSize : Nat) (buffer : RingBuffer) (page : CharBuffer) : LogReader :=
  match getNextRbEvent buffer with
  | none => .returned page
  | some (cpu, _, entry) =>
    if entry.len + page.length < 0 ∨ pageSize ≤ entry.len + page.length then
      .returned page
    else if entry.len < 0 ∨ entry.buf.length < entry.len then
      .overrun
    else
      .consuming (page ++ entry.buf.take entry.len.toNat) cpu

def startReading (s : LogState) (r : Nat) : Option LogState :=
  match s.readers r with
  | .outside | .returned _ => some (s.move r (.looping []))
  | _ => none

def readerStep (pageSize : Nat) (s : LogState) (r : Nat) : Option LogState :=
  match s.readers r with
  | .looping page => some (s.move r (sysfsLogShow pageSize s.buffer page))
  | .consuming page cpu =>
    some { s.move r (.looping page) with buffer := s.buffer.modify cpu (·.drop 1) }
  | _ => none

def logStep (pageSize : Nat) (s : LogState) : LogEvent → Option LogState
  | .write cpu time msec text =>
    if cpu < s.buffer.length then
      (sysfsLogWrite msec text).map fun entry =>
        { s with
          buffer := s.buffer.modify cpu (· ++ [(time, entry)])
          stored := s.stored ++ [entry] }
    else none
  | .overwrite cpu count => some { s with buffer := s.buffer.modify cpu (·.drop count) }
  | .read r => startReading s r
  | .step r => readerStep pageSize s r

def sysfsLog (pageSize : Nat) : System LogState LogEvent where
  step := logStep pageSize

/-- The page is made of what was written into whole entries, one after the other. -/
def WholeEntries (stored : List SysfsLogEntry) (page : CharBuffer) : Prop :=
  ∃ entries : List SysfsLogEntry, (∀ e ∈ entries, e ∈ stored) ∧
    page = entries.flatMap SysfsLogEntry.storedText

/-- Each stored entry has a possible length, and no reader has anything but whole entries. -/
structure LogSound (pageSize : Nat) (s : LogState) : Prop where
  length : ∀ e ∈ s.stored, 0 ≤ e.len ∧ e.len ≤ traceBufSize
  page : ∀ r page, s.readers r = .returned page →
    page.length ≤ pageSize ∧ WholeEntries s.stored page
  inside : ∀ r, s.readers r ≠ .overrun

/-- The message is not cut off. -/
def LogEvent.Fits : LogEvent → Prop
  | .write _ _ msec text => (timeText msec).length + text.length ≤ 126
  | _ => True

/-- A reader has no more than a page, and whole entries only. -/
def ReaderSound (pageSize : Nat) (stored : List SysfsLogEntry) : LogReader → Prop
  | .outside => True
  | .looping page | .consuming page _ | .returned page =>
    page.length ≤ pageSize ∧ WholeEntries stored page
  | .overrun => False

structure LogInvariant (pageSize : Nat) (s : LogState) : Prop where
  sound : ∀ e ∈ s.stored, e.Sound
  queued : ∀ queue ∈ s.buffer, ∀ event ∈ queue, event.2 ∈ s.stored
  reader : ∀ r, ReaderSound pageSize s.stored (s.readers r)

theorem chooseEvent_eq_some {next : Option (Nat × Nat × SysfsLogEntry)}
    {queue : List (Nat × SysfsLogEntry) × Nat} {chosen : Nat × Nat × SysfsLogEntry}
    (h : chooseEvent next queue = some chosen) :
    next = some chosen ∨ chosen.2 ∈ queue.1 := by
  obtain ⟨events, cpu⟩ := queue
  cases events with
  | nil => exact .inl h
  | cons event events =>
    cases next with
    | none =>
      cases h
      exact .inr List.mem_cons_self
    | some next =>
      by_cases hlt : event.1 < next.2.1
      · cases (if_pos hlt).symm.trans h
        exact .inr List.mem_cons_self
      · exact .inl ((if_neg hlt).symm.trans h)

/-- What is chosen was chosen before, or is in one of the queues. -/
theorem foldl_chooseEvent {chosen : Nat × Nat × SysfsLogEntry}
    (queues : List (List (Nat × SysfsLogEntry) × Nat)) :
    ∀ {next}, queues.foldl chooseEvent next = some chosen →
      next = some chosen ∨ ∃ queue ∈ queues, chosen.2 ∈ queue.1 := by
  induction queues with
  | nil => exact fun h => .inl h
  | cons queue queues ih =>
    intro next h
    rcases ih h with hnext | ⟨other, hmem, hother⟩
    · rcases chooseEvent_eq_some hnext with hsame | hqueue
      · exact .inl hsame
      · exact .inr ⟨queue, List.mem_cons_self, hqueue⟩
    · exact .inr ⟨other, List.mem_cons_of_mem _ hmem, hother⟩

/-- What is chosen is in a queue. -/
theorem mem_of_getNextRbEvent {buffer : RingBuffer} {cpu : Nat} {event : Nat × SysfsLogEntry}
    (h : getNextRbEvent buffer = some (cpu, event)) : ∃ queue ∈ buffer, event ∈ queue := by
  rcases foldl_chooseEvent _ h with hnone | ⟨queue, hmem, hevent⟩
  · cases hnone
  · exact ⟨queue.1, List.fst_mem_of_mem_zipIdx hmem, hevent⟩

theorem WholeEntries.mono {stored stored' : List SysfsLogEntry} {page : CharBuffer}
    (h : WholeEntries stored page) (hsub : stored ⊆ stored') : WholeEntries stored' page := by
  obtain ⟨entries, hmem, hpage⟩ := h
  exact ⟨entries, fun e he => hsub (hmem e he), hpage⟩

theorem ReaderSound.mono {pageSize : Nat} {stored stored' : List SysfsLogEntry} {p : LogReader}
    (h : ReaderSound pageSize stored p) (hsub : stored ⊆ stored') :
    ReaderSound pageSize stored' p := by
  cases p with
  | outside => trivial
  | looping page => exact ⟨h.1, h.2.mono hsub⟩
  | consuming page cpu => exact ⟨h.1, h.2.mono hsub⟩
  | returned page => exact ⟨h.1, h.2.mono hsub⟩
  | overrun => exact h

/-- A round of the loop copies a whole entry, or none. -/
theorem sysfsLogShow_sound {pageSize : Nat} {stored : List SysfsLogEntry} {buffer : RingBuffer}
    {page : CharBuffer} (hsound : ∀ e ∈ stored, e.Sound)
    (hqueued : ∀ queue ∈ buffer, ∀ event ∈ queue, event.2 ∈ stored)
    (hpage : page.length ≤ pageSize) (hwhole : WholeEntries stored page) :
    ReaderSound pageSize stored (sysfsLogShow pageSize buffer page) := by
  unfold sysfsLogShow
  cases hnext : getNextRbEvent buffer with
  | none => exact ⟨hpage, hwhole⟩
  | some next =>
    obtain ⟨cpu, time, entry⟩ := next
    obtain ⟨queue, hqueue, hevent⟩ := mem_of_getNextRbEvent hnext
    have hstored : entry ∈ stored := hqueued queue hqueue _ hevent
    obtain ⟨hnonneg, hle, hbuf, htext⟩ := hsound entry hstored
    dsimp only
    by_cases hfull : entry.len + page.length < 0 ∨ pageSize ≤ entry.len + page.length
    · rw [if_pos hfull]
      exact ⟨hpage, hwhole⟩
    · have hinside : ¬(entry.len < 0 ∨ entry.buf.length < entry.len) := by omega
      have htake : (entry.buf.take entry.len.toNat).length = entry.len.toNat :=
        List.length_take_of_le (by omega)
      obtain ⟨entries, hmem, heq⟩ := hwhole
      rw [if_neg hfull, if_neg hinside]
      refine ⟨?_, entries ++ [entry], ?_, ?_⟩
      · rw [List.length_append, htake]
        omega
      · intro e he
        rcases List.mem_append.mp he with he | he
        · exact hmem e he
        · rw [List.mem_singleton.mp he]
          exact hstored
      · rw [List.flatMap_append, List.flatMap_singleton, ← heq, htext]

/-- Every queue of a changed buffer was there before, or is the changed one. -/
theorem mem_modify {α : Type} {f : α → α} {l : List α} {i : Nat} {a : α} (h : a ∈ l.modify i f) :
    a ∈ l ∨ ∃ b ∈ l, a = f b := by
  obtain ⟨j, hj⟩ := List.mem_iff_getElem?.mp h
  rw [List.getElem?_modify] at hj
  obtain ⟨b, hb, hchanged⟩ := Option.map_eq_some_iff.mp hj
  have hmem : b ∈ l := List.mem_of_getElem? hb
  by_cases hij : i = j
  · exact .inr ⟨b, hmem, ((if_pos hij).symm.trans hchanged).symm⟩
  · exact .inl (((if_neg hij).symm.trans hchanged) ▸ hmem)

namespace LogInvariant

variable {pageSize : Nat} {s : LogState}

/-- Entries may be dropped, by the ring buffer or by a reader. -/
theorem queued_drop (h : LogInvariant pageSize s) (cpu count : Nat) :
    ∀ queue ∈ s.buffer.modify cpu (·.drop count), ∀ event ∈ queue, event.2 ∈ s.stored := by
  intro queue hqueue event hevent
  rcases mem_modify hqueue with hsame | ⟨before, hbefore, rfl⟩
  · exact h.queued queue hsame event hevent
  · exact h.queued before hbefore event (List.mem_of_mem_drop hevent)

/-- One reader moves. -/
theorem reader_move (h : LogInvariant pageSize s) {r : Nat} {p : LogReader}
    (hp : ReaderSound pageSize s.stored p) (r' : Nat) :
    ReaderSound pageSize s.stored ((s.move r p).readers r') := by
  by_cases hr : r' = r
  · rw [hr, LogState.readers_move, Function.update_self]
    exact hp
  · rw [LogState.readers_move, Function.update_of_ne hr]
    exact h.reader r'

/-- A message that is not cut off is committed whole. -/
theorem write (h : LogInvariant pageSize s) {cpu time : Nat} {msec : UInt32} {text : List Char}
    {entry : SysfsLogEntry} (hentry : sysfsLogWrite msec text = some entry)
    (hfits : (timeText msec).length + text.length ≤ 126) :
    LogInvariant pageSize { s with
      buffer := s.buffer.modify cpu (· ++ [(time, entry)])
      stored := s.stored ++ [entry] } where
  sound := by
    intro e he
    rcases List.mem_append.mp he with hold | hnew
    · exact h.sound e hold
    · rw [List.mem_singleton.mp hnew]
      exact (sound_iff msec text hentry (by omega)).mpr hfits
  queued := by
    intro queue hqueue event hevent
    rcases mem_modify hqueue with hsame | ⟨before, hbefore, rfl⟩
    · exact List.mem_append_left _ (h.queued queue hsame event hevent)
    · rcases List.mem_append.mp hevent with hold | hnew
      · exact List.mem_append_left _ (h.queued before hbefore event hold)
      · rw [List.mem_singleton.mp hnew]
        exact List.mem_append_right _ (List.mem_singleton_self _)
  reader r := (h.reader r).mono (List.subset_append_left _ _)

/-- A reader begins with an empty page. -/
theorem startReading (h : LogInvariant pageSize s) {r : Nat} {s' : LogState}
    (hstep : Usb.startReading s r = some s') : LogInvariant pageSize s' := by
  have hempty : ReaderSound pageSize s.stored (.looping []) :=
    ⟨Nat.zero_le _, [], fun _ he => absurd he List.not_mem_nil, rfl⟩
  unfold Usb.startReading at hstep
  cases hplace : s.readers r with
  | outside =>
    rw [hplace] at hstep
    cases hstep
    exact ⟨h.sound, h.queued, h.reader_move hempty⟩
  | returned page =>
    rw [hplace] at hstep
    cases hstep
    exact ⟨h.sound, h.queued, h.reader_move hempty⟩
  | looping page => rw [hplace] at hstep; cases hstep
  | consuming page cpu => rw [hplace] at hstep; cases hstep
  | overrun => rw [hplace] at hstep; cases hstep

/-- A step of a reader. -/
theorem readerStep (h : LogInvariant pageSize s) {r : Nat} {s' : LogState}
    (hstep : Usb.readerStep pageSize s r = some s') : LogInvariant pageSize s' := by
  have hreader := h.reader r
  unfold Usb.readerStep at hstep
  cases hplace : s.readers r with
  | looping page =>
    rw [hplace] at hstep hreader
    cases hstep
    exact ⟨h.sound, h.queued,
      h.reader_move (sysfsLogShow_sound h.sound h.queued hreader.1 hreader.2)⟩
  | consuming page cpu =>
    rw [hplace] at hstep hreader
    cases hstep
    exact ⟨h.sound, h.queued_drop cpu 1, h.reader_move hreader⟩
  | outside => rw [hplace] at hstep; cases hstep
  | returned page => rw [hplace] at hstep; cases hstep
  | overrun => rw [hplace] at hstep; cases hstep

/-- The invariant survives every step but the write of a message that is cut off. -/
theorem step (h : LogInvariant pageSize s) {e : LogEvent} (hfits : e.Fits) {s' : LogState}
    (hstep : logStep pageSize s e = some s') : LogInvariant pageSize s' := by
  cases e with
  | write cpu time msec text =>
    by_cases hcpu : cpu < s.buffer.length
    · obtain ⟨entry, hentry, rfl⟩ := Option.map_eq_some_iff.mp ((if_pos hcpu).symm.trans hstep)
      exact h.write hentry hfits
    · cases (if_neg hcpu).symm.trans hstep
  | overwrite cpu count =>
    cases hstep
    exact ⟨h.sound, h.queued_drop cpu count, h.reader⟩
  | read r => exact h.startReading hstep
  | step r => exact h.readerStep hstep

theorem init (cpus : Nat) : LogInvariant pageSize (LogState.init cpus) where
  sound _ he := absurd he List.not_mem_nil
  queued queue hqueue event hevent := by
    rw [(List.mem_replicate.mp hqueue).2] at hevent
    exact absurd hevent List.not_mem_nil
  reader _ := trivial

theorem logSound (h : LogInvariant pageSize s) : LogSound pageSize s where
  length e he := ⟨(h.sound e he).1, (h.sound e he).2.1⟩
  page r page hpage := by
    have hreader := h.reader r
    rw [hpage] at hreader
    exact hreader
  inside r hover := by
    have hreader := h.reader r
    rw [hover] at hreader
    exact hreader

end LogInvariant

/-- In a run where no message is cut off, the log is sound in each state. -/
theorem logRun_sound (pageSize cpus : Nat) {events : List LogEvent} {s : LogState}
    (hfits : ∀ e ∈ events, e.Fits)
    (hrun : (sysfsLog pageSize).exec (LogState.init cpus) events = some s) :
    LogSound pageSize s := by
  have hmeets := (sysfsLog pageSize).meets_of_forall events (s := LogState.init cpus) hfits
  have hinv := (sysfsLog pageSize).exec_invariant (LogInvariant pageSize)
    (fun _ _ _ h hK hstep => h.step hK hstep) events (.init cpus) hmeets hrun
  exact hinv.logSound

/-- A message that fits, and a reader that copies it. -/
theorem logRun_sound_copy : ∃ s, (sysfsLog 4096).exec (LogState.init 1)
    [.write 0 7 1500 "probe\n".toList, .read 0, .step 0, .step 0, .step 0] = some s ∧
      LogSound 4096 s := by
  have hsome : ((sysfsLog 4096).exec (LogState.init 1)
      [.write 0 7 1500 "probe\n".toList, .read 0, .step 0, .step 0, .step 0]).isSome = true := by
    decide +kernel
  obtain ⟨s, hrun⟩ := Option.isSome_iff_exists.mp hsome
  have hfits : (timeText 1500).length + "probe\n".toList.length ≤ 126 := by decide +kernel
  refine ⟨s, hrun, logRun_sound 4096 1 ?_ hrun⟩
  exact List.forall_mem_cons.mpr ⟨hfits, List.forall_mem_cons.mpr ⟨trivial,
    List.forall_mem_cons.mpr ⟨trivial, List.forall_mem_cons.mpr ⟨trivial,
      List.forall_mem_singleton.mpr trivial⟩⟩⟩⟩

/-- A message of two hundred characters is cut off, and its reader reads past the entry. -/
theorem long_message_overrun : ∃ s, (sysfsLog 4096).exec (LogState.init 1)
    [.write 0 7 1500 (List.replicate 200 'x'), .read 0, .step 0] = some s ∧
      (∃ e ∈ s.stored, (traceBufSize : Int) < e.len) ∧ s.readers 0 = .overrun ∧
      ¬LogSound 4096 s := by
  have hlong : ((sysfsLog 4096).exec (LogState.init 1)
      [.write 0 7 1500 (List.replicate 200 'x'), .read 0, .step 0]).any (fun s =>
        (s.stored.any fun e => decide ((traceBufSize : Int) < e.len)) &&
          decide (s.readers 0 = .overrun)) = true := by
    decide +kernel
  obtain ⟨s, hrun, hboth⟩ := (Option.any_eq_true _ _).mp hlong
  obtain ⟨hany, hover⟩ := Bool.and_eq_true_iff.mp hboth
  obtain ⟨e, he, hlt⟩ := List.any_eq_true.mp hany
  exact ⟨s, hrun, ⟨e, he, of_decide_eq_true hlt⟩, of_decide_eq_true hover,
    fun h => h.inside 0 (of_decide_eq_true hover)⟩

end Blts.Usb
