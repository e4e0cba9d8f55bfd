import Blts.Cli.Options

/-!
# Writing into the mapped buffer

`pcm_mmap_writei` copies frames into the ring that a channel's buffer is.  The driver, the
hardware and the time that passes are what each turn of its loop finds: the answers of the
ioctls, the state of the stream and the hardware pointer.  Nothing else bounds how often the
loop turns.

The pointers count frames from the start of the stream and do not overflow.  The bytes that
are copied are looked at where a period is played.
-/

namespace Blts.Alsa.Mapped

open Blts.Cli (toInt)

/-- `snd_pcm_state_t`. -/
inductive PcmState where
  | opened | setup | prepared | running | xrun | draining | paused | suspended | disconnected
  deriving DecidableEq

/-- What an ioctl comes back with: zero, or the negative of an error number. -/
abbrev IoctlResult := { err : Int // err ≤ 0 }

theorem ioctlDone_nonpos : (0 : Int) ≤ 0 := Int.le_refl 0

/-- What the mapped path reads of a `pcm_device`.  `mmap_alloc_chan` has mapped the area of
a channel, the bytes of which an `int` counts. -/
structure MappedPcm where
  bufferSize : Nat
  periodSize : Nat
  framesize : Nat
  startThreshold : Nat
  /-- `mmap_control->avail_min`. -/
  availMin : Nat
  /-- `sync_ptr` is not null: status and control pass by an ioctl. -/
  syncPtr : Bool
  buffer_pos : 0 < bufferSize
  mapped : bufferSize * framesize < 2147483648

/-- What a turn of the loop finds, in the order in which it asks.  The answers of
`ioctl_pcm_sync_ptr` are looked at only where there is a `sync_ptr`. -/
structure Round where
  stateSync : IoctlResult
  state : PcmState
  hwsync : IoctlResult
  availSync : IoctlResult
  hwPtr : Nat
  stateSync' : IoctlResult
  state' : PcmState
  start : IoctlResult

/-- The frames that one `memcpy` for each channel copies: from a frame of the caller's
buffer to a frame of the area. -/
structure FrameCopy where
  target : Nat
  source : Nat
  frames : Nat
  deriving DecidableEq

/-! ## The source -/

/-- `read_hw_state`, `none` for an error, which is the number of no state. -/
def readHwState (hw : MappedPcm) (sync : IoctlResult) (state : PcmState) : Option PcmState :=
  if hw.syncPtr = true ∧ (sync : Int) < 0 then none else some state

/-- `play_buffer_avail`. -/
def playBufferAvail (hw : MappedPcm) (sync : IoctlResult) (hwPtr applPtr : Nat) : Int :=
  if hw.syncPtr = true ∧ (sync : Int) < 0 then sync
  else
    let avail := toInt (hwPtr + hw.bufferSize - applPtr)
    if avail < 0 then toInt (avail + hw.bufferSize)
    else if toInt hw.bufferSize ≤ avail then toInt (avail - hw.bufferSize)
    else avail

/-- The local variables of `pcm_mmap_writei`. -/
structure Writing where
  cOff : Nat
  offset : Nat
  size : Nat
  xfer : Nat
  err : Int

/-- The end of a turn: frames have been copied. -/
def Writing.count (w : Writing) (frames : Nat) (err : Int) : Writing where
  cOff := w.cOff + frames
  offset := w.offset + frames
  size := w.size - frames
  xfer := w.xfer + frames
  err := err

def Writing.result (w : Writing) : Int :=
  if 0 < w.xfer then w.xfer else w.err

/-- What a turn of the loop finds before it copies. -/
inductive Space where
  | failed (err : Int)
  | wait
  | free (avail : Int)

/-- A turn up to the waiting for free space. -/
def freeSpace (hw : MappedPcm) (applPtr : Nat) (r : Round) (size : Nat) : Space :=
  let state := readHwState hw r.stateSync r.state
  if state = some .running ∧ (r.hwsync : Int) < 0 then .failed r.hwsync
  else
    let avail := playBufferAvail hw r.availSync r.hwPtr applPtr
    let enough := if hw.syncPtr = true then hw.periodSize else hw.availMin
    if avail < 0 then .failed avail
    else if state = some .running ∧ avail < enough ∧ avail < size then .wait
    else .free avail

/-- `err` where frames are free. -/
def errAfter (hw : MappedPcm) (r : Round) (w : Writing) : Int :=
  if readHwState hw r.stateSync r.state = some .running then r.hwsync else w.err

/-- Playback is started after a copy. -/
def starts (hw : MappedPcm) (r : Round) (avail : Int) (frames : Nat) : Prop :=
  readHwState hw r.stateSync r.state = some .prepared ∧
    readHwState hw r.stateSync' r.state' = some .prepared ∧
    (hw.startThreshold : Int) ≤ hw.bufferSize - avail + frames

instance (hw : MappedPcm) (r : Round) (avail : Int) (frames : Nat) :
    Decidable (starts hw r avail frames) :=
  inferInstanceAs (Decidable (_ ∧ _ ∧ _))

/-- How a turn ends, and what it copied. -/
inductive Turn where
  | leave (copied : Option FrameCopy) (err : Int)
  | again (copied : Option FrameCopy) (next : Writing)

/-- A turn of the loop of `pcm_mmap_writei`. -/
def turn (hw : MappedPcm) (applPtr : Nat) (r : Round) (w : Writing) : Turn :=
  match freeSpace hw applPtr r w.size with
  | .failed err => .leave none err
  -- `poll_pcm_play_no_timer` returns 0 when it returns
  | .wait => .again none { w with err := 0 }
  | .free avail =>
      let frames := min w.size avail.toNat
      if frames = 0 then .leave none (errAfter hw r w)
      else
        let copied : FrameCopy := ⟨w.cOff % hw.bufferSize, w.offset, frames⟩
        if starts hw r avail frames then
          if (r.start : Int) < 0 then .leave (some copied) r.start
          else .again (some copied) (w.count frames r.start)
        else .again (some copied) (w.count frames (errAfter hw r w))

/-- A turn passes the application pointer to the driver, as every `ioctl_pcm_sync_ptr` does
that does not ask for the driver's one. -/
def Round.passes (r : Round) : Bool :=
  decide (0 ≤ (r.stateSync : Int) ∨ 0 ≤ (r.availSync : Int))

/-- What a call has done: the copies, whether the driver has been passed the application
pointer, and what the call returns if it has. -/
structure Written where
  copies : List FrameCopy
  passed : Bool
  result : Option Int

/-- The loop of `pcm_mmap_writei`, for as many turns as there are rounds. -/
def writeLoop (hw : MappedPcm) (applPtr : Nat) (rounds : List Round) (w : Writing) : Written :=
  if w.size = 0 then ⟨[], false, some w.result⟩
  else
    match rounds with
    | [] => ⟨[], false, none⟩
    | r :: rounds =>
        match turn hw applPtr r w with
        | .leave copied err => ⟨copied.toList, r.passes, some { w with err := err }.result⟩
        | .again copied next =>
            let rest := writeLoop hw applPtr rounds next
            ⟨copied.toList ++ rest.copies, r.passes || rest.passed, rest.result⟩

/-- A call of `pcm_mmap_writei`: the frames asked for, the answer of its first ioctl, and
what the turns of its loop find. -/
structure MmapCall where
  size : Nat
  sync : IoctlResult
  rounds : List Round

/-- The first ioctl has refused. -/
def MmapCall.refused (hw : MappedPcm) (call : MmapCall) : Prop :=
  hw.syncPtr = true ∧ (call.sync : Int) < 0

instance (hw : MappedPcm) (call : MmapCall) : Decidable (call.refused hw) :=
  inferInstanceAs (Decidable (_ ∧ _))

/-- `pcm_mmap_writei`, where the driver's application pointer is `applPtr`. -/
def pcmMmapWritei (hw : MappedPcm) (applPtr : Nat) (call : MmapCall) : Written :=
  if call.refused hw then ⟨[], false, some call.sync⟩
  else writeLoop hw (applPtr + call.size) call.rounds ⟨applPtr, 0, call.size, 0, 0⟩

/-! ## One turn -/

/-- A copy that a turn makes from the state of the local variables. -/
def Writing.copy (hw : MappedPcm) (w : Writing) (frames : Nat) : FrameCopy :=
  ⟨w.cOff % hw.bufferSize, w.offset, frames⟩

/-- A turn that copies frames, and where starting fails does not go on. -/
theorem turn_of_free {hw : MappedPcm} {applPtr : Nat} {r : Round} {w : Writing} {avail : Int}
    (hspace : freeSpace hw applPtr r w.size = .free avail) (hpos : min w.size avail.toNat ≠ 0) :
    turn hw applPtr r w =
      if starts hw r avail (min w.size avail.toNat) ∧ (r.start : Int) < 0 then
        .leave (some (w.copy hw (min w.size avail.toNat))) r.start
      else
        .again (some (w.copy hw (min w.size avail.toNat)))
          (w.count (min w.size avail.toNat)
            (if starts hw r avail (min w.size avail.toNat) then (r.start : Int)
              else errAfter hw r w)) := by
  simp only [turn, hspace]
  rw [if_neg hpos]
  by_cases hstart : starts hw r avail (min w.size avail.toNat)
  · rw [if_pos hstart, if_pos hstart]
    by_cases hrefused : (r.start : Int) < 0
    · rw [if_pos hrefused, if_pos ⟨hstart, hrefused⟩]
      rfl
    · rw [if_neg hrefused, if_neg fun h => hrefused h.2]
      rfl
  · rw [if_neg hstart, if_neg hstart, if_neg fun h => hstart h.1]
    rfl

/-- What a turn can do. -/
theorem turn_cases (hw : MappedPcm) (applPtr : Nat) (r : Round) (w : Writing) :
    (∃ err, turn hw applPtr r w = .leave none err) ∨
    turn hw applPtr r w = .again none { w with err := 0 } ∨
    ∃ frames, 0 < frames ∧ frames ≤ w.size ∧
      ((∃ err, turn hw applPtr r w = .leave (some (w.copy hw frames)) err) ∨
        ∃ err, turn hw applPtr r w = .again (some (w.copy hw frames)) (w.count frames err)) := by
  cases hspace : freeSpace hw applPtr r w.size with
  | failed err => exact Or.inl ⟨err, by simp only [turn, hspace]⟩
  | wait => exact Or.inr (Or.inl (by simp only [turn, hspace]))
  | free avail =>
      by_cases hzero : min w.size avail.toNat = 0
      · exact Or.inl ⟨errAfter hw r w, by simp only [turn, hspace, if_pos hzero]⟩
      · refine Or.inr (Or.inr ⟨min w.size avail.toNat, by omega, Nat.min_le_left _ _, ?_⟩)
        rw [turn_of_free hspace hzero]
        by_cases hrefused : starts hw r avail (min w.size avail.toNat) ∧ (r.start : Int) < 0
        · rw [if_pos hrefused]
          exact Or.inl ⟨_, rfl⟩
        · rw [if_neg hrefused]
          exact Or.inr ⟨_, rfl⟩

/-- What holds of every copy holds of those of the loop, where every turn that goes on keeps
what the copies rest on. -/
theorem writeLoop_copies {hw : MappedPcm} {applPtr : Nat} (Keeps : Writing → Prop)
    {Good : FrameCopy → Prop} (herr : ∀ w, Keeps w → Keeps { w with err := 0 })
    (hcopy : ∀ w frames, Keeps w → 0 < frames → frames ≤ w.size →
      Good (w.copy hw frames) ∧ ∀ err, Keeps (w.count frames err))
    (rounds : List Round) :
    ∀ w, Keeps w → ∀ c ∈ (writeLoop hw applPtr rounds w).copies, Good c := by
  induction rounds with
  | nil =>
      intro w _ c hc
      unfold writeLoop at hc
      by_cases hsize : w.size = 0
      · rw [if_pos hsize] at hc
        cases hc
      · rw [if_neg hsize] at hc
        cases hc
  | cons r rounds ih =>
      intro w hw' c hc
      unfold writeLoop at hc
      by_cases hsize : w.size = 0
      · rw [if_pos hsize] at hc
        cases hc
      · rw [if_neg hsize] at hc
        obtain ⟨err, hturn⟩ | hturn | ⟨frames, hpos, hle, hturn⟩ := turn_cases hw applPtr r w
        · simp only [hturn, Option.toList_none, List.not_mem_nil] at hc
        · simp only [hturn, Option.toList_none, List.nil_append] at hc
          exact ih _ (herr w hw') c hc
        · obtain ⟨hgood, hkeeps⟩ := hcopy w frames hw' hpos hle
          obtain ⟨err, hturn⟩ | ⟨err, hturn⟩ := hturn
          · simp only [hturn, Option.toList_some, List.mem_singleton] at hc
            rw [hc]
            exact hgood
          · simp only [hturn, Option.toList_some, List.cons_append, List.nil_append,
              List.mem_cons] at hc
            obtain rfl | hc := hc
            · exact hgood
            · exact ih _ (hkeeps err) c hc

/-! ## The area -/

/-- The bytes of a copy are inside the area of a channel and inside the caller's buffer. -/
def FrameCopy.Inside (hw : MappedPcm) (size : Nat) (c : FrameCopy) : Prop :=
  c.target * hw.framesize + c.frames * hw.framesize ≤ hw.bufferSize * hw.framesize ∧
    c.source * hw.framesize + c.frames * hw.framesize ≤ size * hw.framesize

instance (hw : MappedPcm) (size : Nat) (c : FrameCopy) : Decidable (c.Inside hw size) :=
  inferInstanceAs (Decidable (_ ∧ _))

/-- The copies of a call go from its frames, in their order, to the ring from the
application pointer on. -/
theorem copies_placed (hw : MappedPcm) (applPtr : Nat) (call : MmapCall) :
    ∀ c ∈ (pcmMmapWritei hw applPtr call).copies,
      c.target = (applPtr + c.source) % hw.bufferSize ∧ 0 < c.frames ∧
        c.source + c.frames ≤ call.size := by
  unfold pcmMmapWritei
  by_cases hrefused : call.refused hw
  · rw [if_pos hrefused]
    intro c hc
    cases hc
  · rw [if_neg hrefused]
    refine writeLoop_copies
      (fun w => w.cOff = applPtr + w.offset ∧ w.offset + w.size = call.size)
      (fun w h => h) ?_ call.rounds _ ⟨rfl, Nat.zero_add _⟩
    intro w frames ⟨hoff, hsize⟩ hpos hle
    refine ⟨⟨?_, hpos, ?_⟩, fun err => ⟨?_, ?_⟩⟩
    · show w.cOff % hw.bufferSize = (applPtr + w.offset) % hw.bufferSize
      rw [hoff]
    · show w.offset + frames ≤ call.size
      omega
    · show w.cOff + frames = applPtr + (w.offset + frames)
      omega
    · show w.offset + frames + (w.size - frames) = call.size
      omega

/-- A copy from frames that lie in the ring without passing its end is inside. -/
theorem FrameCopy.inside_of_le {hw : MappedPcm} {applPtr size : Nat} {c : FrameCopy}
    (hto : c.target = (applPtr + c.source) % hw.bufferSize) (hpos : 0 < c.frames)
    (hsource : c.source + c.frames ≤ size)
    (hend : applPtr % hw.bufferSize + size ≤ hw.bufferSize) : c.Inside hw size := by
  have hmod : (applPtr + c.source) % hw.bufferSize = applPtr % hw.bufferSize + c.source := by
    rw [← Nat.mod_add_mod]
    exact Nat.mod_eq_of_lt (by omega)
  constructor
  · rw [← Nat.add_mul]
    exact Nat.mul_le_mul_right _ (by omega)
  · rw [← Nat.add_mul]
    exact Nat.mul_le_mul_right _ hsource

/-- With frames of no bytes nothing is copied. -/
theorem FrameCopy.inside_of_framesize {hw : MappedPcm} {size : Nat} {c : FrameCopy}
    (hf : hw.framesize = 0) : c.Inside hw size := by
  simp [FrameCopy.Inside, hf]

/-- A copy that passes the end of the ring is outside. -/
theorem FrameCopy.not_inside {hw : MappedPcm} {size : Nat} {c : FrameCopy}
    (hf : 0 < hw.framesize) (hend : hw.bufferSize < c.target + c.frames) : ¬c.Inside hw size := by
  intro h
  have hbytes := h.1
  rw [← Nat.add_mul] at hbytes
  have hle : c.target + c.frames ≤ hw.bufferSize := Nat.le_of_mul_le_mul_right hbytes hf
  omega

/-! ## Free space that lets a copy pass the end -/

/-- The space where the hardware has left `k` frames. -/
theorem playBufferAvail_of_lt {hw : MappedPcm} {sync : IoctlResult} {hwPtr applPtr k : Nat}
    (hsync : 0 ≤ (sync : Int)) (hk : hwPtr + hw.bufferSize = applPtr + k)
    (hlt : k < hw.bufferSize) (hB : hw.bufferSize < 2147483648) :
    playBufferAvail hw sync hwPtr applPtr = k := by
  unfold playBufferAvail
  rw [if_neg (by omega)]
  have hraw : (hwPtr : Int) + hw.bufferSize - applPtr = k := by omega
  have havail : toInt (k : Int) = k := by
    unfold toInt
    omega
  have hsize : toInt (hw.bufferSize : Int) = hw.bufferSize := by
    unfold toInt
    omega
  simp only [hraw, havail, hsize]
  rw [if_neg (by omega), if_neg (by omega)]

/-- The space where the hardware is a whole buffer ahead. -/
theorem playBufferAvail_of_ahead {hw : MappedPcm} {sync : IoctlResult} {hwPtr applPtr : Nat}
    (hsync : 0 ≤ (sync : Int)) (hk : hwPtr = applPtr + hw.bufferSize)
    (hB : hw.bufferSize < 1073741824) :
    playBufferAvail hw sync hwPtr applPtr = hw.bufferSize := by
  unfold playBufferAvail
  rw [if_neg (by omega)]
  have hraw : (hwPtr : Int) + hw.bufferSize - applPtr = hw.bufferSize + hw.bufferSize := by
    omega
  have havail : toInt ((hw.bufferSize : Int) + hw.bufferSize) =
      hw.bufferSize + hw.bufferSize := by
    unfold toInt
    omega
  have hsize : toInt (hw.bufferSize : Int) = hw.bufferSize := by
    unfold toInt
    omega
  simp only [hraw, havail, hsize]
  rw [if_neg (by omega), if_pos (by omega), show (hw.bufferSize : Int) + hw.bufferSize -
    hw.bufferSize = hw.bufferSize by omega, hsize]

/-- A turn of a stream that is drained: it neither waits nor starts. -/
def Round.draining (hwPtr : Nat) : Round where
  stateSync := ⟨0, Int.le_refl 0⟩
  state := .draining
  hwsync := ⟨0, Int.le_refl 0⟩
  availSync := ⟨0, Int.le_refl 0⟩
  hwPtr := hwPtr
  stateSync' := ⟨0, Int.le_refl 0⟩
  state' := .draining
  start := ⟨0, Int.le_refl 0⟩

/-- What is free is copied. -/
theorem turn_draining {hw : MappedPcm} {applPtr hwPtr k : Nat} {w : Writing}
    (havail : playBufferAvail hw ⟨0, Int.le_refl 0⟩ hwPtr applPtr = k)
    (hpos : 0 < min w.size k) :
    turn hw applPtr (.draining hwPtr) w =
      .again (some (w.copy hw (min w.size k))) (w.count (min w.size k) w.err) := by
  have hstate : readHwState hw ⟨0, Int.le_refl 0⟩ .draining = some .draining :=
    if_neg fun h => Int.lt_irrefl 0 h.2
  have hspace : freeSpace hw applPtr (.draining hwPtr) w.size = .free k := by
    simp only [freeSpace, Round.draining, hstate, havail, Option.some.injEq, reduceCtorEq,
      false_and, if_false]
    rw [if_neg (by omega)]
  have hstart : ¬starts hw (.draining hwPtr) k (min w.size k) := by
    intro h
    have hprepared := h.1
    simp only [Round.draining, hstate, Option.some.injEq, reduceCtorEq] at hprepared
  have herr : errAfter hw (.draining hwPtr) w = w.err := by
    simp only [errAfter, Round.draining, hstate, Option.some.injEq, reduceCtorEq, if_false]
  simp only [turn, hspace, herr, Int.toNat_natCast]
  rw [if_neg (by omega), if_neg hstart]
  rfl

/-- The loop after such a turn. -/
theorem writeLoop_draining {hw : MappedPcm} {applPtr hwPtr k : Nat} {w : Writing}
    (havail : playBufferAvail hw ⟨0, Int.le_refl 0⟩ hwPtr applPtr = k)
    (hpos : 0 < min w.size k) (rounds : List Round) :
    (writeLoop hw applPtr (.draining hwPtr :: rounds) w).copies =
      w.copy hw (min w.size k) ::
        (writeLoop hw applPtr rounds (w.count (min w.size k) w.err)).copies := by
  rw [writeLoop, if_neg (by omega)]
  simp only [turn_draining havail hpos, Option.toList_some, List.cons_append, List.nil_append]

/-! ## Every run of a call -/

/-- The hardware pointer only advances. -/
def Advances (hwPtr : Nat) (rounds : List Round) : Prop :=
  (hwPtr :: rounds.map Round.hwPtr).Pairwise (· ≤ ·)

theorem Advances.single {hwPtr next : Nat} (h : hwPtr ≤ next) :
    Advances hwPtr [.draining next] :=
  List.pairwise_pair.mpr h

theorem Advances.pair {hwPtr next last : Nat} (h : hwPtr ≤ next) (h' : next ≤ last) :
    Advances hwPtr [.draining next, .draining last] := by
  refine List.Pairwise.cons ?_ (Advances.single h')
  intro p hp
  simp only [List.map_cons, List.map_nil, List.mem_cons, List.not_mem_nil, or_false] at hp
  obtain rfl | rfl := hp
  · exact h
  · exact Nat.le_trans h h'

section Crossing

variable (hw : MappedPcm) (applPtr hwPtr size : Nat)

/-- A call that copies past the end of the ring, when the hardware advances like that. -/
def Crosses : Prop :=
  ∃ rounds, Advances hwPtr rounds ∧
    ∃ c ∈ (pcmMmapWritei hw applPtr ⟨size, ⟨0, Int.le_refl 0⟩, rounds⟩).copies,
      hw.bufferSize < c.target + c.frames

variable {hw applPtr hwPtr size}

theorem pcmMmapWritei_accepted (rounds : List Round) :
    pcmMmapWritei hw applPtr ⟨size, ⟨0, Int.le_refl 0⟩, rounds⟩ =
      writeLoop hw (applPtr + size) rounds ⟨applPtr, 0, size, 0, 0⟩ :=
  if_neg fun h => Int.lt_irrefl 0 h.2

/-- One copy, where all of the buffer but a frame is free. -/
theorem crosses_of_one (hbehind : hwPtr ≤ applPtr) (hB : hw.bufferSize < 2147483648)
    (hsize : size ≤ hw.bufferSize) (hpast : hw.bufferSize < applPtr % hw.bufferSize + size)
    (hfree : 1 < applPtr % hw.bufferSize ∨ size < hw.bufferSize) :
    Crosses hw applPtr hwPtr size := by
  have hlt : applPtr % hw.bufferSize < hw.bufferSize := Nat.mod_lt _ hw.buffer_pos
  obtain ⟨k, hk⟩ : ∃ k, k + 1 = hw.bufferSize := ⟨hw.bufferSize - 1, by omega⟩
  obtain ⟨n, hn⟩ : ∃ n, n + 1 = size := ⟨size - 1, by omega⟩
  -- the hardware has played all frames but one
  have havail : playBufferAvail hw ⟨0, Int.le_refl 0⟩ (applPtr + n) (applPtr + size) = k :=
    playBufferAvail_of_lt (Int.le_refl 0) (by omega) (by omega) hB
  have hadv : hwPtr ≤ applPtr + n := by omega
  refine ⟨_, Advances.single hadv, ⟨applPtr % hw.bufferSize, 0, min size k⟩, ?_,
    by dsimp only; omega⟩
  rw [pcmMmapWritei_accepted, writeLoop_draining havail (by dsimp only; omega)]
  exact List.mem_cons.mpr (Or.inl rfl)

/-- A copy of one frame, and then one of the rest. -/
theorem crosses_of_two (hbehind : hwPtr ≤ applPtr) (hB : hw.bufferSize < 2147483648)
    (hlarge : 2 < hw.bufferSize) (hone : applPtr % hw.bufferSize = 1)
    (hsize : size = hw.bufferSize) : Crosses hw applPtr hwPtr size := by
  have hfirst : playBufferAvail hw ⟨0, Int.le_refl 0⟩ (applPtr + 1) (applPtr + size) =
      (1 : Nat) :=
    playBufferAvail_of_lt (Int.le_refl 0) (by omega) (by omega) hB
  obtain ⟨k, hk⟩ : ∃ k, k + 1 = size := ⟨size - 1, by omega⟩
  have hrest : playBufferAvail hw ⟨0, Int.le_refl 0⟩ (applPtr + k) (applPtr + size) = k :=
    playBufferAvail_of_lt (Int.le_refl 0) (by omega) (by omega) hB
  have hnext : hwPtr ≤ applPtr + 1 := by omega
  have hlast : applPtr + 1 ≤ applPtr + k := by omega
  refine ⟨_, Advances.pair hnext hlast, ⟨2, 1, k⟩, ?_, by dsimp only; omega⟩
  have hmin : min size 1 = 1 := by omega
  have hmin' : min (size - 1) k = k := by omega
  rw [pcmMmapWritei_accepted, writeLoop_draining hfirst (by dsimp only; omega),
    writeLoop_draining hrest (by simp only [Writing.count]; omega)]
  refine List.mem_cons.mpr (Or.inr (List.mem_cons.mpr (Or.inl ?_)))
  have hto : (applPtr + 1) % hw.bufferSize = 2 := by
    rw [← Nat.mod_add_mod, hone]
    exact Nat.mod_eq_of_lt hlarge
  simp only [Writing.copy, Writing.count, hmin, hmin', Nat.zero_add, hto]

/-- In a ring of two frames the hardware has to be a whole buffer ahead. -/
theorem crosses_of_ahead (hbehind : hwPtr ≤ applPtr) (hB : hw.bufferSize = 2)
    (hone : applPtr % hw.bufferSize = 1) (hsize : size = 2) :
    Crosses hw applPtr hwPtr size := by
  have havail : playBufferAvail hw ⟨0, Int.le_refl 0⟩ (applPtr + 4) (applPtr + size) =
      (hw.bufferSize : Int) :=
    playBufferAvail_of_ahead (Int.le_refl 0) (by omega) (by omega)
  have hadv : hwPtr ≤ applPtr + 4 := by omega
  refine ⟨_, Advances.single hadv, ⟨1, 0, 2⟩, ?_, by dsimp only; omega⟩
  have hmin : min size hw.bufferSize = 2 := by omega
  rw [pcmMmapWritei_accepted, writeLoop_draining havail (by dsimp only; omega)]
  refine List.mem_cons.mpr (Or.inl ?_)
  simp only [Writing.copy, hmin, hone]

theorem crosses_of_lt (hbehind : hwPtr ≤ applPtr) (hB : hw.bufferSize < 2147483648)
    (hsize : size ≤ hw.bufferSize) (hpast : hw.bufferSize < applPtr % hw.bufferSize + size) :
    Crosses hw applPtr hwPtr size := by
  by_cases hfree : 1 < applPtr % hw.bufferSize ∨ size < hw.bufferSize
  · exact crosses_of_one hbehind hB hsize hpast hfree
  · have hone : applPtr % hw.bufferSize = 1 := by omega
    have hlt : applPtr % hw.bufferSize < hw.bufferSize := Nat.mod_lt _ hw.buffer_pos
    by_cases hlarge : 2 < hw.bufferSize
    · exact crosses_of_two hbehind hB hlarge hone (by omega)
    · exact crosses_of_ahead hbehind (by omega) hone (by omega)

end Crossing

/-- **The copies of a call stay inside**, however the hardware advances, exactly if the
frames asked for do not reach past the end of the ring from the application pointer on. -/
theorem copies_inside_iff (hw : MappedPcm) (applPtr hwPtr size : Nat) (hbehind : hwPtr ≤ applPtr)
    (hsize : size ≤ hw.bufferSize) :
    (∀ call : MmapCall, call.size = size → Advances hwPtr call.rounds →
      ∀ c ∈ (pcmMmapWritei hw applPtr call).copies, c.Inside hw size) ↔
    hw.framesize = 0 ∨ applPtr % hw.bufferSize + size ≤ hw.bufferSize := by
  constructor
  · intro h
    by_cases hf : hw.framesize = 0
    · exact Or.inl hf
    · refine Or.inr (Nat.le_of_not_lt fun hpast => ?_)
      have hB : hw.bufferSize < 2147483648 :=
        Nat.lt_of_le_of_lt (Nat.le_mul_of_pos_right _ (by omega)) hw.mapped
      obtain ⟨rounds, hadv, c, hc, hend⟩ := crosses_of_lt hbehind hB hsize hpast
      exact FrameCopy.not_inside (by omega) hend (h ⟨size, _, rounds⟩ rfl hadv c hc)
  · rintro (hf | hend) call rfl hadv c hc
    · exact FrameCopy.inside_of_framesize hf
    · obtain ⟨hto, hpos, hsource⟩ := copies_placed hw applPtr call c hc
      exact FrameCopy.inside_of_le hto hpos hsource hend

/-- Ten frames of two channels with 16 bits, in periods of four. -/
def smallRing : MappedPcm where
  bufferSize := 10
  periodSize := 4
  framesize := 4
  startThreshold := 8
  availMin := 4
  syncPtr := false
  buffer_pos := by decide
  mapped := by decide

theorem secondPeriod_inside : (∀ call : MmapCall, call.size = 4 → Advances 0 call.rounds →
      ∀ c ∈ (pcmMmapWritei smallRing 4 call).copies, c.Inside smallRing 4) ↔
    smallRing.framesize = 0 ∨ 4 % smallRing.bufferSize + 4 ≤ smallRing.bufferSize :=
  copies_inside_iff smallRing 4 0 4 (by decide) (by decide)

/-- The third period while the first two are played: it is written when half of them are,
from the ninth frame of the ring to two frames behind the ring. -/
def thirdPeriod : MmapCall where
  size := 4
  sync := ⟨0, Int.le_refl 0⟩
  rounds := [{ Round.draining 8 with state := .running }]

theorem thirdPeriod_outside : ¬∀ (hw : MappedPcm) (applPtr hwPtr : Nat) (call : MmapCall),
    hwPtr ≤ applPtr → applPtr ≤ hwPtr + hw.bufferSize → call.size ≤ hw.bufferSize →
      Advances hwPtr call.rounds →
        ∀ c ∈ (pcmMmapWritei hw applPtr call).copies, c.Inside hw call.size := by
  intro h
  have hadv : Advances 4 thirdPeriod.rounds := List.pairwise_pair.mpr (by decide)
  have hinside : ∀ c ∈ (pcmMmapWritei smallRing 8 thirdPeriod).copies,
      c.Inside smallRing thirdPeriod.size :=
    h smallRing 8 4 thirdPeriod (by decide) (by decide) (by decide) hadv
  revert hinside
  decide

end Blts.Alsa.Mapped
