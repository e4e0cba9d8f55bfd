import Blts.Alsa.StreamResults
import Blts.Alsa.MappedArea

/-!
# The frames of a period

The loop of `pcm_play_sine` writes a period that `generate_sine` has made, with a write for
each access mode.  A sample is known by the byte of its channel's buffer that it begins at;
what the device has been handed is then a list of such bytes for each channel.

A device with read/write access takes the frames from the start of the buffer that a write
passes to it, and it knows nothing of frames where the buffers are not interleaved: the
samples of a channel follow each other.  One that is mapped takes what the area holds up to
the application pointer; its area is that of `SNDRV_PCM_IOCTL_CHANNEL_INFO`, with the
channels of a frame side by side or with the frames of a channel.
-/

namespace Blts.Alsa.Played

open Blts.Alsa.Mapped

/-- What `pcm_play_sine` reads of a device that is set up.  A frame has a sample of each
channel, and a sample the bits of its format and bits that are left over. -/
structure PlaybackPcm extends MappedPcm where
  access : PcmAccess
  channels : Nat
  frameBits : Nat
  /-- `bits_per_sample` of the format. -/
  bps : Nat
  /-- The bytes of a sample with those left over. -/
  sampleSize : Nat
  channels_pos : 0 < channels
  sample_pos : 0 < sampleSize
  bps_le : bps ≤ 8 * sampleSize
  bps_bytes : bps % 8 = 0
  frameBits_eq : frameBits = channels * (8 * sampleSize)
  framesize_eq : framesize = frameBits / 8
  period_le : periodSize ≤ bufferSize

/-- The access is one of those with a buffer for each channel. -/
def PlaybackPcm.noninterleaved (hw : PlaybackPcm) : Bool :=
  hw.access = .rwNoninterleaved || hw.access = .mmapNoninterleaved

/-! ## The source -/

/-- The byte where `generate_sine` puts the sample of a channel in a frame. -/
def sampleAt (channels frameBits bps frame channel : Nat) : Nat :=
  (frame * channels + channel) * (bps / 8 + (frameBits / channels - bps) / 8)

/-- The period as it is generated, in the buffer of each channel. -/
def generated (hw : PlaybackPcm) (channel : Nat) : List (Option Nat) :=
  (List.range hw.periodSize).map fun frame =>
    some (if hw.noninterleaved = true then sampleAt 1 hw.frameBits hw.bps frame 0
      else sampleAt hw.channels hw.frameBits hw.bps frame channel)

/-- What a write finds: an error or room for some frames, or for a mapped write its first
ioctl and the turns of its loop. -/
structure WriteAnswer where
  refusal : Option { err : Int // err < 0 }
  room : Nat
  sync : IoctlResult
  rounds : List Round

/-- `ioctl_pcm_writei` and `ioctl_pcm_writen`: the result that the driver leaves. -/
def ioctlPcmWrite (answer : WriteAnswer) (size : Nat) : Int :=
  match answer.refusal with
  | some err => err
  | none => (min answer.room size : Nat)

/-- The application pointers and the mapped area. -/
structure PlayState where
  pointers : Pointers
  area : Area

/-- What a write returns, what it hands to each channel and what it leaves. -/
structure WriteResult where
  err : Int
  handed : Nat → List (Option Nat)
  state : PlayState

/-- Samples that begin at equal distances. -/
def places (count start distance : Nat) : List (Option Nat) :=
  (List.range count).map fun i => some (start + i * distance)

/-- The byte of the area where the device looks for a channel of a frame. -/
def channelByte (hw : PlaybackPcm) (channel frame : Nat) : Nat :=
  if hw.access = .mmapNoninterleaved then (channel * hw.bufferSize + frame) * hw.sampleSize
  else frame * hw.framesize + channel * hw.sampleSize

/-- The write of `pcm_play_sine`, of `cptr` frames from `ptr` on. -/
def write (hw : PlaybackPcm) (s : PlayState) (answer : WriteAnswer) (ptr cptr : Nat) :
    Option WriteResult :=
  match hw.access with
  | .mmapInterleaved | .mmapNoninterleaved =>
      let call : MmapCall := ⟨cptr, answer.sync, answer.rounds⟩
      (mmapStep hw.toMappedPcm s.pointers call).map fun (pointers, err) =>
        let applPtr := s.pointers.applPtr hw.toMappedPcm
        let area := areaAfter hw.toMappedPcm ptr s.area
          (Mapped.pcmMmapWritei hw.toMappedPcm applPtr call).copies
        { err := err
          handed := fun channel => (List.range (pointers.driver - applPtr)).map fun i =>
            area (channelByte hw channel ((applPtr + i) % hw.bufferSize))
          state := ⟨pointers, area⟩ }
  | .rwNoninterleaved =>
      -- the array of the buffers is passed, whatever `ptr` is
      let err := ioctlPcmWrite answer cptr
      some ⟨err, fun _ => places err.toNat 0 hw.sampleSize, s⟩
  | .rwInterleaved | .mmapComplex =>
      let err := ioctlPcmWrite answer cptr
      some ⟨err, fun channel => places err.toNat (ptr + channel * hw.sampleSize) hw.framesize, s⟩

/-- What the device has been handed of a period, and whether all of it has been written. -/
structure Period where
  handed : Nat → List (Option Nat)
  finished : Bool

/-- The write loop of `pcm_play_sine`.  An error ends the period, and what it left in the
area is dropped when the stream is prepared again. -/
def writePeriod (hw : PlaybackPcm) : List WriteAnswer → PlayState → Nat → Nat → Period
  | [], _, _, cptr => ⟨fun _ => [], decide (cptr = 0)⟩
  | answer :: answers, s, ptr, cptr =>
      if cptr = 0 then ⟨fun _ => [], true⟩
      else
        match write hw s answer ptr cptr with
        | none => ⟨fun _ => [], false⟩
        | some w =>
            if w.err < 0 ∧ w.err ≠ -EAGAIN then ⟨fun _ => [], false⟩
            else
              let rest := writePeriod hw answers w.state (ptr + w.err.toNat * hw.framesize)
                (cptr - w.err.toNat)
              ⟨fun channel => w.handed channel ++ rest.handed channel, rest.finished⟩

/-- The device is handed expected samples in their order, and all of them if the period has
been written. -/
def Hands (hw : PlaybackPcm) (period : Period) (expected : Nat → List (Option Nat)) : Prop :=
  ∀ channel, channel < hw.channels → period.handed channel <+: expected channel ∧
    (period.finished = true → period.handed channel = expected channel)

/-- Of a period that is written from some state of the pointers on, the device is handed
what has been generated. -/
def HandsPeriod (hw : PlaybackPcm) (pointers : Pointers) (answers : List WriteAnswer) : Prop :=
  Hands hw (writePeriod hw answers ⟨pointers, fun _ => none⟩ 0 hw.periodSize) (generated hw)

/-! ## Samples at equal distances -/

theorem places_length (count start distance : Nat) :
    (places count start distance).length = count := by
  simp [places]

theorem places_drop (count start distance k : Nat) :
    (places count start distance).drop k =
      places (count - k) (start + k * distance) distance := by
  refine List.ext_getElem (by simp [places]) fun i hi hi' => ?_
  simp only [places, List.getElem_drop, List.getElem_map, List.getElem_range, Nat.add_mul,
    Nat.add_assoc]

theorem places_prefix_iff {count count' start start' distance distance' : Nat} :
    places count start distance <+: places count' start' distance' ↔
      count ≤ count' ∧ ∀ i, i < count → start + i * distance = start' + i * distance' := by
  rw [List.prefix_iff_getElem]
  simp only [places, List.length_map, List.length_range, List.getElem_map, List.getElem_range,
    Option.some.injEq, exists_prop]

/-- Something handed first, and then the rest. -/
theorem append_prefix_iff {α : Type} {first rest expected : List α} :
    first ++ rest <+: expected ↔ first <+: expected ∧ rest <+: expected.drop first.length := by
  constructor
  · rintro ⟨tail, rfl⟩
    refine ⟨⟨rest ++ tail, by rw [List.append_assoc]⟩, ?_⟩
    rw [List.append_assoc, List.drop_left]
    exact List.prefix_append rest tail
  · rintro ⟨⟨tail, rfl⟩, hrest⟩
    rw [List.drop_left] at hrest
    exact (List.prefix_append_right_inj first).mpr hrest

theorem append_eq_iff {α : Type} {first rest expected : List α} :
    first ++ rest = expected ↔ first <+: expected ∧ rest = expected.drop first.length := by
  constructor
  · rintro rfl
    exact ⟨List.prefix_append first rest, List.drop_left.symm⟩
  · rintro ⟨⟨tail, rfl⟩, hrest⟩
    rw [hrest, List.drop_left]

/-! ## The layout of a period -/

section Layout

variable (hw : PlaybackPcm)

theorem PlaybackPcm.framesize_channels : hw.framesize = hw.channels * hw.sampleSize := by
  rw [hw.framesize_eq, hw.frameBits_eq, Nat.mul_left_comm]
  exact Nat.mul_div_cancel_left _ (by decide)

theorem PlaybackPcm.framesize_pos : 0 < hw.framesize := by
  rw [hw.framesize_channels]
  exact Nat.mul_pos hw.channels_pos hw.sample_pos

/-- A channel of a frame is inside the frame. -/
theorem PlaybackPcm.channel_lt {channel : Nat} (h : channel < hw.channels) :
    channel * hw.sampleSize < hw.framesize := by
  rw [hw.framesize_channels]
  exact Nat.mul_lt_mul_of_pos_right h hw.sample_pos

/-- `generate_sine` lays out the samples as the interleaved modes expect them; for the
others it leaves a frame for a sample. -/
theorem generated_eq (channel : Nat) :
    generated hw channel = places hw.periodSize
      (if hw.noninterleaved = true then 0 else channel * hw.sampleSize) hw.framesize := by
  have hbps := hw.bps_le
  have hbytes := hw.bps_bytes
  refine List.map_congr_left fun frame _ => congrArg some ?_
  by_cases hnon : hw.noninterleaved = true
  · have hsize : hw.bps / 8 + (hw.frameBits / 1 - hw.bps) / 8 = hw.framesize := by
      have hle : 8 * hw.sampleSize ≤ hw.frameBits := by
        rw [hw.frameBits_eq]
        exact Nat.le_mul_of_pos_left _ hw.channels_pos
      rw [hw.framesize_eq]
      omega
    rw [if_pos hnon, if_pos hnon, sampleAt, hsize, Nat.mul_one, Nat.add_zero, Nat.zero_add]
  · have hsize : hw.bps / 8 + (hw.frameBits / hw.channels - hw.bps) / 8 = hw.sampleSize := by
      rw [hw.frameBits_eq, Nat.mul_div_cancel_left _ hw.channels_pos]
      omega
    rw [if_neg hnon, if_neg hnon, sampleAt, hsize, hw.framesize_channels, Nat.add_mul,
      Nat.mul_assoc, Nat.add_comm]

end Layout

/-! ## One write -/

section Writes

variable {hw : PlaybackPcm}

theorem hands_nil {expected : Nat → List (Option Nat)} : Hands hw ⟨fun _ => [], false⟩ expected :=
  fun _ _ => ⟨List.nil_prefix, fun h => by cases h⟩

theorem hands_finished {expected : Nat → List (Option Nat)}
    (hempty : ∀ channel, channel < hw.channels → expected channel = []) :
    Hands hw ⟨fun _ => [], true⟩ expected :=
  fun channel h => ⟨List.nil_prefix, fun _ => (hempty channel h).symm⟩

/-- A write that does not end the period. -/
theorem hands_append {first : Nat → List (Option Nat)} {rest : Period}
    {expected : Nat → List (Option Nat)} :
    Hands hw ⟨fun channel => first channel ++ rest.handed channel, rest.finished⟩ expected ↔
      (∀ channel, channel < hw.channels → first channel <+: expected channel) ∧
        Hands hw rest fun channel => (expected channel).drop (first channel).length := by
  unfold Hands
  constructor
  · intro h
    refine ⟨fun channel hc => (append_prefix_iff.mp (h channel hc).1).1, fun channel hc => ?_⟩
    exact ⟨(append_prefix_iff.mp (h channel hc).1).2,
      fun hfin => (append_eq_iff.mp ((h channel hc).2 hfin)).2⟩
  · rintro ⟨hfirst, hrest⟩ channel hc
    exact ⟨append_prefix_iff.mpr ⟨hfirst channel hc, (hrest channel hc).1⟩,
      fun hfin => append_eq_iff.mpr ⟨hfirst channel hc, (hrest channel hc).2 hfin⟩⟩

/-- The loop with one more write. -/
theorem hands_cons {answer : WriteAnswer} {answers : List WriteAnswer} {s : PlayState}
    {ptr cptr : Nat} {w : WriteResult} {expected : Nat → List (Option Nat)} (hcptr : cptr ≠ 0)
    (hw' : write hw s answer ptr cptr = some w) :
    Hands hw (writePeriod hw (answer :: answers) s ptr cptr) expected ↔
      w.err < 0 ∧ w.err ≠ -EAGAIN ∨
      (∀ channel, channel < hw.channels → w.handed channel <+: expected channel) ∧
        Hands hw (writePeriod hw answers w.state (ptr + w.err.toNat * hw.framesize)
          (cptr - w.err.toNat)) fun channel =>
            (expected channel).drop (w.handed channel).length := by
  rw [writePeriod, if_neg hcptr]
  simp only [hw']
  by_cases hend : w.err < 0 ∧ w.err ≠ -EAGAIN
  · rw [if_pos hend]
    exact iff_of_true hands_nil (Or.inl hend)
  · rw [if_neg hend, or_iff_right hend]
    exact hands_append

theorem hands_zero {answers : List WriteAnswer} {s : PlayState} {ptr : Nat}
    {expected : Nat → List (Option Nat)}
    (hempty : ∀ channel, channel < hw.channels → expected channel = []) :
    Hands hw (writePeriod hw answers s ptr 0) expected := by
  cases answers with
  | nil => exact hands_finished hempty
  | cons answer answers =>
      rw [writePeriod, if_pos rfl]
      exact hands_finished hempty

theorem ioctlPcmWrite_le (answer : WriteAnswer) (size : Nat) :
    (ioctlPcmWrite answer size).toNat ≤ size := by
  unfold ioctlPcmWrite
  cases answer.refusal with
  | none => exact Nat.min_le_right _ _
  | some err =>
      have := err.property
      dsimp only
      omega

/-! ## Interleaved writes -/

/-- Interleaved writes hand over the frames from `ptr` on, however short they are. -/
theorem hands_interleaved (haccess : hw.access = .rwInterleaved ∨ hw.access = .mmapComplex)
    (s : PlayState) (answers : List WriteAnswer) :
    ∀ ptr cptr, Hands hw (writePeriod hw answers s ptr cptr) fun channel =>
      places cptr (ptr + channel * hw.sampleSize) hw.framesize := by
  induction answers with
  | nil =>
      intro ptr cptr
      by_cases hcptr : cptr = 0
      · rw [hcptr]
        exact hands_zero fun _ _ => rfl
      · rw [writePeriod, decide_eq_false hcptr]
        exact hands_nil
  | cons answer answers ih =>
      intro ptr cptr
      by_cases hcptr : cptr = 0
      · rw [hcptr]
        exact hands_zero fun _ _ => rfl
      have hle := ioctlPcmWrite_le answer cptr
      have hwrite : write hw s answer ptr cptr = some ⟨ioctlPcmWrite answer cptr, fun channel =>
          places (ioctlPcmWrite answer cptr).toNat (ptr + channel * hw.sampleSize)
            hw.framesize, s⟩ := by
        unfold write
        obtain h | h := haccess
        · rw [h]
        · rw [h]
      rw [hands_cons hcptr hwrite]
      refine Or.inr ⟨fun channel _ => places_prefix_iff.mpr ⟨hle, fun _ _ => rfl⟩, ?_⟩
      have hrest := ih (ptr + (ioctlPcmWrite answer cptr).toNat * hw.framesize)
        (cptr - (ioctlPcmWrite answer cptr).toNat)
      simp only [places_length, places_drop]
      simp only [Nat.add_right_comm] at hrest ⊢
      exact hrest

/-! ## Non-interleaved writes -/

/-- One write takes frames, and a single frame if there are more channels: the buffers are
always passed from their beginning, and their samples lie a frame apart. -/
def OneWrite (hw : PlaybackPcm) : List WriteAnswer → Nat → Prop
  | [], _ => True
  | answer :: answers, cptr => cptr = 0 ∨
      let err := ioctlPcmWrite answer cptr
      err < 0 ∧ err ≠ -EAGAIN ∨
        (0 < err → cptr = hw.periodSize ∧ (err = 1 ∨ hw.channels = 1)) ∧
          OneWrite hw answers (cptr - err.toNat)

/-- Samples from the beginning of the buffers are those expected next. -/
theorem noninterleaved_prefix_iff {k done cptr : Nat} (hle : k ≤ cptr)
    (hsum : done + cptr = hw.periodSize) :
    places k 0 hw.sampleSize <+: places cptr (done * hw.framesize) hw.framesize ↔
      (0 < k → cptr = hw.periodSize ∧ (k = 1 ∨ hw.channels = 1)) := by
  have hsample := hw.sample_pos
  have hframe := hw.framesize_pos
  rw [places_prefix_iff, and_iff_right hle]
  constructor
  · intro h hk
    have hdone : done = 0 := by
      have hfirst := h 0 hk
      rw [Nat.zero_mul, Nat.zero_mul, Nat.add_zero] at hfirst
      exact (Nat.mul_eq_zero.mp hfirst.symm).resolve_right (by omega)
    refine ⟨by omega, ?_⟩
    by_cases hone : k = 1
    · exact Or.inl hone
    · have hsecond := h 1 (by omega)
      rw [hdone, Nat.zero_mul, Nat.one_mul, Nat.one_mul, Nat.zero_add, Nat.zero_add,
        hw.framesize_channels] at hsecond
      exact Or.inr (Nat.eq_of_mul_eq_mul_right hsample (by omega))
  · intro h i hi
    obtain ⟨hall, hone⟩ := h (by omega)
    rw [show done = 0 by omega, Nat.zero_mul, hw.framesize_channels]
    obtain hone | hone := hone
    · rw [show i = 0 by omega, Nat.zero_mul, Nat.zero_mul]
    · rw [hone, Nat.one_mul]

theorem hands_noninterleaved_iff (haccess : hw.access = .rwNoninterleaved) (s : PlayState)
    (answers : List WriteAnswer) :
    ∀ ptr cptr done, done + cptr = hw.periodSize →
      (Hands hw (writePeriod hw answers s ptr cptr) (fun _ =>
          places cptr (done * hw.framesize) hw.framesize) ↔
        OneWrite hw answers cptr) := by
  induction answers with
  | nil =>
      intro ptr cptr done hsum
      refine iff_of_true ?_ trivial
      by_cases hcptr : cptr = 0
      · rw [hcptr]
        exact hands_zero fun _ _ => rfl
      · rw [writePeriod, decide_eq_false hcptr]
        exact hands_nil
  | cons answer answers ih =>
      intro ptr cptr done hsum
      by_cases hcptr : cptr = 0
      · rw [hcptr]
        exact iff_of_true (hands_zero fun _ _ => rfl) (Or.inl rfl)
      have hle := ioctlPcmWrite_le answer cptr
      have hwrite : write hw s answer ptr cptr = some ⟨ioctlPcmWrite answer cptr,
          fun _ => places (ioctlPcmWrite answer cptr).toNat 0 hw.sampleSize, s⟩ := by
        unfold write
        rw [haccess]
      rw [hands_cons hcptr hwrite, OneWrite, or_iff_right hcptr]
      simp only [places_length, places_drop, ← Nat.add_mul]
      rw [ih _ _ (done + (ioctlPcmWrite answer cptr).toNat) (by omega)]
      refine or_congr_right (and_congr_left fun _ => ?_)
      have hprefix := noninterleaved_prefix_iff hle hsum
      constructor
      · intro h hpos
        have hfirst := hprefix.mp (h 0 hw.channels_pos) (by omega)
        exact ⟨hfirst.1, hfirst.2.imp_left fun hone => by omega⟩
      · intro h channel _
        refine hprefix.mpr fun hpos => ?_
        have hfirst := h (by omega)
        exact ⟨hfirst.1, hfirst.2.imp_left fun hone => by omega⟩

/-! ## Mapped writes -/

/-- A mapped stream is as expected: no call moves the driver's pointer before the one that
fills the places of the whole period, and none after it, except for one that fails with an
error that ends the period; and a channel has the frames of the area to itself or shares
them as `generate_sine` does. -/
def OneFill (hw : PlaybackPcm) : List WriteAnswer → Pointers → Nat → Bool → Prop
  | [], _, _, _ => True
  | answer :: answers, s, cptr, fresh => cptr = 0 ∨
      ∀ s' err, mmapStep hw.toMappedPcm s ⟨cptr, answer.sync, answer.rounds⟩ = some (s', err) →
        let applPtr := s.applPtr hw.toMappedPcm
        if s'.driver = applPtr then err = -EAGAIN → OneFill hw answers s' cptr fresh
        else
          err < 0 ∧ err ≠ -EAGAIN ∨
            fresh = true ∧ (hw.access = .mmapInterleaved ∨ hw.channels = 1) ∧
              Fills hw.toMappedPcm (applPtr + cptr) answer.rounds applPtr cptr ∧
              OneFill hw answers s' (cptr - err.toNat) false

theorem write_mapped (haccess : hw.access = .mmapInterleaved ∨ hw.access = .mmapNoninterleaved)
    (s : PlayState) (answer : WriteAnswer) (ptr cptr : Nat) :
    write hw s answer ptr cptr =
      (mmapStep hw.toMappedPcm s.pointers ⟨cptr, answer.sync, answer.rounds⟩).map fun r =>
        let applPtr := s.pointers.applPtr hw.toMappedPcm
        let area := areaAfter hw.toMappedPcm ptr s.area
          (Mapped.pcmMmapWritei hw.toMappedPcm applPtr
            ⟨cptr, answer.sync, answer.rounds⟩).copies
        { err := r.2
          handed := fun channel => (List.range (r.1.driver - applPtr)).map fun i =>
            area (channelByte hw channel ((applPtr + i) % hw.bufferSize))
          state := ⟨r.1, area⟩ } := by
  unfold write
  obtain h | h := haccess
  · rw [h]
  · rw [h]

/-- The copies of a call that begins at the frame `p`. -/
def PlaybackPcm.copiesFrom (hw : PlaybackPcm) (p size : Nat) (rounds : List Round) :
    List FrameCopy :=
  (writeLoop hw.toMappedPcm (p + size) rounds ⟨p, 0, size, 0, 0⟩).copies

theorem copiesFrom_placed (hw : PlaybackPcm) (p size : Nat) (rounds : List Round) :
    ∀ c ∈ hw.copiesFrom p size rounds, c.target = (p + c.source) % hw.bufferSize ∧ 0 < c.frames ∧
      c.source + c.frames ≤ size := by
  have h := copies_placed hw.toMappedPcm p ⟨size, ⟨0, Int.le_refl 0⟩, rounds⟩
  rw [pcmMmapWritei_accepted] at h
  exact h

/-- Some bytes of the area are samples at equal distances. -/
theorem area_prefix_iff {f : Nat → Option Nat} {count start distance : Nat} :
    (List.range count).map f <+: places count start distance ↔
      ∀ i, i < count → f i = some (start + i * distance) := by
  rw [List.prefix_iff_getElem]
  simp only [places, List.length_map, List.length_range, List.getElem_map, List.getElem_range,
    Nat.le_refl, exists_true_left]

/-- With several channels that are not interleaved the samples are in other places: the
first of the first channel is right only at the start of the ring, and that of the second
is not there then. -/
theorem not_filled_of_channels (haccess : hw.access = .mmapNoninterleaved)
    (hchannels : hw.channels ≠ 1) {copies : List FrameCopy} {p n : Nat}
    (hn : n ≤ hw.bufferSize)
    (hcopies : ∀ c ∈ copies, c.target = (p + c.source) % hw.bufferSize ∧ 0 < c.frames ∧
      c.source + c.frames ≤ n)
    (h : ∀ channel, channel < hw.channels →
      areaAfter hw.toMappedPcm 0 (fun _ => none) copies
        (channelByte hw channel (p % hw.bufferSize)) = some 0) : False := by
  have hpos := hw.channels_pos
  have hsample := hw.sample_pos
  have hlt : p % hw.bufferSize < hw.bufferSize := Nat.mod_lt _ hw.buffer_pos
  have hbuffer : 0 < hw.bufferSize * hw.sampleSize := Nat.mul_pos hw.buffer_pos hsample
  have hbyte : ∀ channel, channelByte hw channel (p % hw.bufferSize) =
      channel * (hw.bufferSize * hw.sampleSize) + p % hw.bufferSize * hw.sampleSize := by
    intro channel
    rw [channelByte, if_pos haccess, Nat.add_mul, Nat.mul_assoc]
  have hwide : 2 * (p % hw.bufferSize * hw.sampleSize) ≤ p % hw.bufferSize * hw.framesize := by
    rw [hw.framesize_channels, Nat.mul_left_comm]
    exact Nat.mul_le_mul_left _ (Nat.mul_le_mul_right _ (by omega))
  have hring : p % hw.bufferSize * hw.framesize < hw.bufferSize * hw.framesize :=
    Nat.mul_lt_mul_of_pos_right hlt hw.framesize_pos
  have hfirst := areaAfter_distance hn hcopies (h 0 hpos)
  have hsecond := areaAfter_distance hn hcopies (h 1 (by omega))
  rw [hbyte, Nat.zero_mul, Nat.zero_add, Nat.zero_add] at hfirst
  rw [hbyte, Nat.one_mul, Nat.zero_add] at hsecond
  omega

/-- **The whole period is in the area** exactly if the turns of the call fill it, where the
layout is the one that is generated. -/
theorem filled_iff (haccess : hw.access = .mmapInterleaved ∨ hw.access = .mmapNoninterleaved)
    (p : Nat) (rounds : List Round) (hperiod : hw.periodSize ≠ 0) :
    (∀ channel, channel < hw.channels →
      ((List.range hw.periodSize).map fun i =>
        areaAfter hw.toMappedPcm 0 (fun _ => none) (hw.copiesFrom p hw.periodSize rounds)
          (channelByte hw channel ((p + i) % hw.bufferSize))) <+: generated hw channel) ↔
    (hw.access = .mmapInterleaved ∨ hw.channels = 1) ∧
      Fills hw.toMappedPcm (p + hw.periodSize) rounds p hw.periodSize := by
  have hplaced := copiesFrom_placed hw p hw.periodSize rounds
  have hfills : ∀ channel, channel < hw.channels →
      ((∀ j, j < hw.periodSize → InPlace hw.toMappedPcm 0 p (channel * hw.sampleSize)
        (areaAfter hw.toMappedPcm 0 (fun _ => none) (hw.copiesFrom p hw.periodSize rounds)) j) ↔
      Fills hw.toMappedPcm (p + hw.periodSize) rounds p hw.periodSize) := by
    intro channel hc
    refine (inPlace_writeLoop (hw.channel_lt hc) hw.period_le rounds
      ⟨p, 0, hw.periodSize, 0, 0⟩ (fun _ => none) rfl (Nat.zero_add _) fun j _ _ => rfl).trans ?_
    exact and_iff_right fun j hj => absurd hj (Nat.not_lt_zero j)
  simp only [generated_eq, area_prefix_iff]
  by_cases hlayout : hw.access = .mmapInterleaved ∨ hw.channels = 1
  · rw [and_iff_right hlayout]
    -- the bytes that are looked at are those of the frames
    have hbyte : ∀ channel, channel < hw.channels → ∀ q,
        channelByte hw channel q = q * hw.framesize + channel * hw.sampleSize ∧
        (if hw.noninterleaved = true then 0 else channel * hw.sampleSize) =
          channel * hw.sampleSize := by
      intro channel hc q
      obtain h | h := haccess
      · simp [channelByte, PlaybackPcm.noninterleaved, h]
      · obtain h' | h' := hlayout
        · rw [h] at h'
          cases h'
        · have hzero : channel = 0 := by omega
          simp [channelByte, h, hzero, hw.framesize_channels, h']
    constructor
    · intro h
      refine (hfills 0 hw.channels_pos).mp fun j hj => ?_
      have hj' := h 0 hw.channels_pos j hj
      rw [(hbyte 0 hw.channels_pos _).1, (hbyte 0 hw.channels_pos 0).2] at hj'
      rw [InPlace, hj', Nat.zero_add, Nat.add_comm]
    · intro h channel hc j hj
      have hj' := (hfills channel hc).mpr h j hj
      rw [(hbyte channel hc _).1, (hbyte channel hc 0).2]
      rw [InPlace, Nat.zero_add, Nat.add_comm (j * _)] at hj'
      exact hj'
  · refine iff_of_false (fun h => ?_) fun h => hlayout h.1
    have hnon : hw.access = .mmapNoninterleaved := haccess.resolve_left fun h => hlayout (Or.inl h)
    refine not_filled_of_channels hnon (fun h => hlayout (Or.inr h)) hw.period_le hplaced ?_
    intro channel hc
    have hfirst := h channel hc 0 (by omega)
    simp [PlaybackPcm.noninterleaved, hnon] at hfirst
    exact hfirst

theorem forall_eq_some_pair {α β : Type} {P : α → β → Prop} {a : α} {b : β} :
    (∀ a' b', some (a, b) = some (a', b') → P a' b') ↔ P a b :=
  ⟨fun h => h a b rfl, fun h a' b' heq => by cases heq; exact h⟩

/-- Nothing more may be handed over when all samples have been. -/
theorem hands_filled_iff (haccess : hw.access = .mmapInterleaved ∨ hw.access = .mmapNoninterleaved)
    (answers : List WriteAnswer) :
    ∀ s ptr cptr, (Hands hw (writePeriod hw answers s ptr cptr) (fun _ => []) ↔
      OneFill hw answers s.pointers cptr false) := by
  induction answers with
  | nil =>
      intro s ptr cptr
      refine iff_of_true ?_ trivial
      by_cases hcptr : cptr = 0
      · rw [hcptr]
        exact hands_zero fun _ _ => rfl
      · rw [writePeriod, decide_eq_false hcptr]
        exact hands_nil
  | cons answer answers ih =>
      intro s ptr cptr
      rw [OneFill]
      by_cases hcptr : cptr = 0
      · rw [hcptr]
        exact iff_of_true (hands_zero fun _ _ => rfl) (Or.inl rfl)
      rw [or_iff_right hcptr]
      have hwrite := write_mapped haccess s answer ptr cptr
      cases hstep : mmapStep hw.toMappedPcm s.pointers ⟨cptr, answer.sync, answer.rounds⟩ with
      | none =>
          rw [hstep, Option.map_none] at hwrite
          rw [writePeriod, if_neg hcptr, hwrite]
          exact iff_of_true hands_nil fun s' err h => by cases h
      | some r =>
          obtain ⟨s', err⟩ := r
          rw [hstep, Option.map_some] at hwrite
          rw [hands_cons hcptr hwrite, forall_eq_some_pair]
          dsimp only
          simp only [List.drop_nil, ih]
          obtain ⟨hdriver, hneg, hcopies⟩ | ⟨hdriver, hcopies⟩ := mmapStep_cases hcptr hstep
          · have hzero : err.toNat = 0 := by omega
            rw [hdriver, if_pos rfl, Nat.sub_self, hzero, Nat.sub_zero, and_iff_right hneg]
            simp only [List.range_zero, List.map_nil]
            rw [and_iff_right fun channel _ => List.nil_prefix, or_iff_not_imp_left,
              Classical.not_not]
          · rw [hdriver, if_neg (by dsimp only; omega), Nat.add_sub_cancel_left]
            refine or_congr_right (iff_of_false (fun h => ?_) fun h => by cases h.1)
            have hempty := List.prefix_nil.mp (h.1 0 hw.channels_pos)
            rw [List.map_eq_nil_iff, List.range_eq_nil] at hempty
            exact hcptr hempty

/-- The period before any of it is in the area. -/
theorem hands_fresh_iff (haccess : hw.access = .mmapInterleaved ∨ hw.access = .mmapNoninterleaved)
    (answers : List WriteAnswer) :
    ∀ pointers, (Hands hw (writePeriod hw answers ⟨pointers, fun _ => none⟩ 0 hw.periodSize)
        (generated hw) ↔
      OneFill hw answers pointers hw.periodSize true) := by
  induction answers with
  | nil =>
      intro pointers
      refine iff_of_true ?_ trivial
      by_cases hperiod : hw.periodSize = 0
      · rw [hperiod]
        exact hands_zero fun channel _ => by rw [generated_eq, hperiod]; rfl
      · rw [writePeriod, decide_eq_false hperiod]
        exact hands_nil
  | cons answer answers ih =>
      intro pointers
      rw [OneFill]
      by_cases hperiod : hw.periodSize = 0
      · rw [hperiod]
        refine iff_of_true (hands_zero fun channel _ => ?_) (Or.inl rfl)
        rw [generated_eq, hperiod]
        rfl
      rw [or_iff_right hperiod]
      have hwrite := write_mapped haccess ⟨pointers, fun _ => none⟩ answer 0 hw.periodSize
      cases hstep : mmapStep hw.toMappedPcm pointers
          ⟨hw.periodSize, answer.sync, answer.rounds⟩ with
      | none =>
          rw [hstep, Option.map_none] at hwrite
          rw [writePeriod, if_neg hperiod, hwrite]
          exact iff_of_true hands_nil fun s' err h => by cases h
      | some r =>
          obtain ⟨s', err⟩ := r
          rw [hstep, Option.map_some] at hwrite
          rw [hands_cons hperiod hwrite, forall_eq_some_pair]
          dsimp only
          obtain ⟨hdriver, hneg, hcopies⟩ | ⟨hdriver, hcopies⟩ := mmapStep_cases hperiod hstep
          · have hzero : err.toNat = 0 := by omega
            rw [hdriver, if_pos rfl, Nat.sub_self, hzero, Nat.sub_zero, and_iff_right hneg,
              hcopies, Nat.zero_mul]
            simp only [List.range_zero, List.map_nil, List.length_nil, List.drop_zero]
            rw [and_iff_right fun channel _ => List.nil_prefix, or_iff_not_imp_left,
              Classical.not_not, ← ih]
            exact Iff.rfl
          · rw [hdriver, if_neg (by dsimp only; omega), Nat.add_sub_cancel_left, hcopies,
              and_iff_right rfl, ← and_assoc, ← filled_iff haccess _ _ hperiod]
            refine or_congr_right (and_congr_right fun _ => ?_)
            have hempty : ∀ channel : Nat, (generated hw channel).drop hw.periodSize = [] := by
              intro channel
              rw [generated_eq]
              exact List.drop_eq_nil_of_le (Nat.le_of_eq (places_length _ _ _))
            simp only [List.length_map, List.length_range, hempty]
            exact hands_filled_iff haccess answers _ _ _

end Writes

/-! ## The period -/

/-- What the device has to do for a period to arrive: nothing where frames are interleaved
and written, and not be interrupted anywhere else. -/
def Steady (hw : PlaybackPcm) (pointers : Pointers) (answers : List WriteAnswer) : Prop :=
  match hw.access with
  | .mmapInterleaved | .mmapNoninterleaved => OneFill hw answers pointers hw.periodSize true
  | .rwNoninterleaved => OneWrite hw answers hw.periodSize
  | .rwInterleaved | .mmapComplex => True

/-- **The frames that are handed over are those that were generated** exactly if the writes
are steady. -/
theorem handsPeriod_iff (hw : PlaybackPcm) (pointers : Pointers) (answers : List WriteAnswer) :
    HandsPeriod hw pointers answers ↔ Steady hw pointers answers := by
  unfold HandsPeriod Steady
  have hgenerated : hw.noninterleaved = false → ∀ channel, generated hw channel =
      places hw.periodSize (0 + channel * hw.sampleSize) hw.framesize := by
    intro hnon channel
    rw [generated_eq, hnon, if_neg Bool.false_ne_true, Nat.zero_add]
  cases haccess : hw.access with
  | mmapInterleaved => exact hands_fresh_iff (Or.inl haccess) answers pointers
  | mmapNoninterleaved => exact hands_fresh_iff (Or.inr haccess) answers pointers
  | rwNoninterleaved =>
      have hnon : hw.noninterleaved = true := by simp [PlaybackPcm.noninterleaved, haccess]
      rw [show generated hw = fun _ => places hw.periodSize (0 * hw.framesize) hw.framesize from
        funext fun channel => by rw [generated_eq, hnon, if_pos rfl, Nat.zero_mul]]
      exact hands_noninterleaved_iff haccess _ answers 0 hw.periodSize 0 (Nat.zero_add _)
  | rwInterleaved =>
      have hnon : hw.noninterleaved = false := by simp [PlaybackPcm.noninterleaved, haccess]
      rw [funext (hgenerated hnon)]
      exact iff_of_true (hands_interleaved (Or.inl haccess) _ answers 0 hw.periodSize) trivial
  | mmapComplex =>
      have hnon : hw.noninterleaved = false := by simp [PlaybackPcm.noninterleaved, haccess]
      rw [funext (hgenerated hnon)]
      exact iff_of_true (hands_interleaved (Or.inr haccess) _ answers 0 hw.periodSize) trivial

/-- A device with one channel of 16 bits that is not interleaved, in periods of four. -/
def monoDevice : PlaybackPcm where
  bufferSize := 8
  periodSize := 4
  framesize := 2
  startThreshold := 8
  availMin := 4
  syncPtr := false
  buffer_pos := by decide
  mapped := by decide
  access := .rwNoninterleaved
  channels := 1
  frameBits := 16
  bps := 16
  sampleSize := 2
  channels_pos := by decide
  sample_pos := by decide
  bps_le := by decide
  bps_bytes := by decide
  frameBits_eq := by decide
  framesize_eq := by decide
  period_le := by decide

/-- The device has room for three frames, and then for more. -/
def shortWrites : List WriteAnswer :=
  [⟨none, 3, ⟨0, ioctlDone_nonpos⟩, []⟩, ⟨none, 4, ⟨0, ioctlDone_nonpos⟩, []⟩]

/-- The last frame is not written, but the first a second time. -/
theorem shortWrites_repeat :
    ¬∀ (hw : PlaybackPcm) (pointers : Pointers) (answers : List WriteAnswer),
      HandsPeriod hw pointers answers := by
  intro h
  have hfirst := (h monoDevice ⟨0, 0⟩ shortWrites 0 (by decide)).2 (by decide)
  revert hfirst
  decide

end Blts.Alsa.Played
