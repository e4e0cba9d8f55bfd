import Blts.Alsa.MmapPointer

/-!
# What a mapped write leaves in the area

A byte of the area is known by the byte of the caller's buffer that was copied to it.  The
frames between the old and the new application pointer are all there exactly if every turn
of `pcm_mmap_writei` copies up to the end of the ring at most and no turn fails before the
last frame is copied.
-/

namespace Blts.Alsa.Mapped

/-- The byte of the caller's buffer that each byte of the mapped area holds, if it is one of
the period that is played. -/
abbrev Area := Nat → Option Nat

/-- `memcpy` of frames, from `ptr` on.  What is copied behind the area is lost. -/
def FrameCopy.into (hw : MappedPcm) (ptr : Nat) (area : Area) (c : FrameCopy) : Area :=
  fun byte =>
    if c.target * hw.framesize ≤ byte ∧ byte < (c.target + c.frames) * hw.framesize ∧
        byte < hw.bufferSize * hw.framesize then
      some (ptr + c.source * hw.framesize + (byte - c.target * hw.framesize))
    else area byte

/-- The area after the copies of a call. -/
def areaAfter (hw : MappedPcm) (ptr : Nat) (area : Area) (copies : List FrameCopy) : Area :=
  copies.foldl (FrameCopy.into hw ptr) area

/-! ## Positions in the ring -/

theorem ring_add {B x d : Nat} (hd : d < B) :
    (x + d) % B = if x % B + d < B then x % B + d else x % B + d - B := by
  have hx : x % B < B := Nat.mod_lt _ (by omega)
  rw [← Nat.mod_add_mod]
  by_cases hlt : x % B + d < B
  · rw [if_pos hlt]
    exact Nat.mod_eq_of_lt hlt
  · rw [if_neg hlt, Nat.mod_eq_sub_mod (by omega)]
    exact Nat.mod_eq_of_lt (by omega)

/-- A byte of a frame is behind the start of another one. -/
theorem mul_le_byte_iff {a q f byte : Nat} (h : byte < f) : a * f ≤ q * f + byte ↔ a ≤ q := by
  constructor
  · intro hle
    refine Nat.le_of_not_lt fun hlt => ?_
    have hmul : (q + 1) * f ≤ a * f := Nat.mul_le_mul_right f hlt
    rw [Nat.add_mul, Nat.one_mul] at hmul
    omega
  · intro hle
    exact Nat.le_trans (Nat.mul_le_mul_right f hle) (Nat.le_add_right _ _)

/-- A copy of the frames from `o` on changes just them, as far as they are before the end of
the ring. -/
theorem FrameCopy.into_frame {hw : MappedPcm} {ptr p o j k n byte : Nat} (area : Area)
    (hbyte : byte < hw.framesize) (hpos : 0 < k) (hk : o + k ≤ n) (hn : n ≤ hw.bufferSize) (hj : j < n) :
    FrameCopy.into hw ptr area ⟨(p + o) % hw.bufferSize, o, k⟩
        ((p + j) % hw.bufferSize * hw.framesize + byte) =
      if (o ≤ j ∧ j < o + k) ∧ (p + o) % hw.bufferSize + (j - o) < hw.bufferSize then
        some (ptr + j * hw.framesize + byte)
      else area ((p + j) % hw.bufferSize * hw.framesize + byte) := by
  have hq : (p + j) % hw.bufferSize < hw.bufferSize := Nat.mod_lt _ hw.buffer_pos
  have hto : (p + o) % hw.bufferSize < hw.bufferSize := Nat.mod_lt _ hw.buffer_pos
  have hcover : ((p + o) % hw.bufferSize * hw.framesize ≤
        (p + j) % hw.bufferSize * hw.framesize + byte ∧
      (p + j) % hw.bufferSize * hw.framesize + byte <
        ((p + o) % hw.bufferSize + k) * hw.framesize ∧
      (p + j) % hw.bufferSize * hw.framesize + byte < hw.bufferSize * hw.framesize) ↔
      (p + o) % hw.bufferSize ≤ (p + j) % hw.bufferSize ∧
        (p + j) % hw.bufferSize < (p + o) % hw.bufferSize + k := by
    rw [mul_le_byte_iff hbyte, ← Nat.not_le, mul_le_byte_iff hbyte, ← Nat.not_le,
      mul_le_byte_iff hbyte, Nat.not_le, Nat.not_le]
    exact ⟨fun h => ⟨h.1, h.2.1⟩, fun h => ⟨h.1, h.2, hq⟩⟩
  -- where the two frames are relative to each other
  have hplace : ((p + o) % hw.bufferSize ≤ (p + j) % hw.bufferSize ∧
        (p + j) % hw.bufferSize < (p + o) % hw.bufferSize + k) ↔
      (o ≤ j ∧ j < o + k) ∧ (p + o) % hw.bufferSize + (j - o) < hw.bufferSize := by
    by_cases hoj : o ≤ j
    · have hring := ring_add (x := p + o) (d := j - o) (B := hw.bufferSize) (by omega)
      rw [show p + o + (j - o) = p + j by omega] at hring
      by_cases hlt : (p + o) % hw.bufferSize + (j - o) < hw.bufferSize
      · rw [if_pos hlt] at hring
        omega
      · rw [if_neg hlt] at hring
        omega
    · have hring := ring_add (x := p + j) (d := o - j) (B := hw.bufferSize) (by omega)
      rw [show p + j + (o - j) = p + o by omega] at hring
      by_cases hlt : (p + j) % hw.bufferSize + (o - j) < hw.bufferSize
      · rw [if_pos hlt] at hring
        omega
      · rw [if_neg hlt] at hring
        omega
  unfold FrameCopy.into
  by_cases hcov : (o ≤ j ∧ j < o + k) ∧ (p + o) % hw.bufferSize + (j - o) < hw.bufferSize
  · rw [if_pos hcov, if_pos (hcover.mpr (hplace.mpr hcov))]
    have hring := ring_add (x := p + o) (d := j - o) (B := hw.bufferSize) (by omega)
    rw [if_pos hcov.2, show p + o + (j - o) = p + j by omega] at hring
    obtain ⟨d, rfl⟩ : ∃ d, j = o + d := ⟨j - o, by omega⟩
    rw [Nat.add_sub_cancel_left] at hring
    dsimp only
    rw [hring, Nat.add_mul _ d, Nat.add_mul o d]
    exact congrArg some (by omega)
  · rw [if_neg hcov, if_neg fun h => hcov (hplace.mp (hcover.mp h))]

/-! ## The frames of a call -/

/-- Every turn copies up to the end of the ring at most, and none fails before the last
frame is copied: `cOff` is where the next frame goes, `size` what is left. -/
def Fills (hw : MappedPcm) (applPtr : Nat) : List Round → Nat → Nat → Prop
  | [], _, size => size = 0
  | r :: rounds, cOff, size => size = 0 ∨
      match freeSpace hw applPtr r size with
      | .failed _ => False
      | .wait => Fills hw applPtr rounds cOff size
      | .free avail =>
          let frames := min size avail.toNat
          0 < frames ∧ cOff % hw.bufferSize + frames ≤ hw.bufferSize ∧
            if starts hw r avail frames ∧ (r.start : Int) < 0 then frames = size
            else Fills hw applPtr rounds (cOff + frames) (size - frames)

section Frames

variable {hw : MappedPcm} {ptr p n byte : Nat}

/-- A frame of the caller's buffer is in its place, as far as one byte tells. -/
def InPlace (hw : MappedPcm) (ptr p byte : Nat) (area : Area) (j : Nat) : Prop :=
  area ((p + j) % hw.bufferSize * hw.framesize + byte) = some (ptr + j * hw.framesize + byte)

/-- The places of the frames from the `o`th on hold nothing. -/
def FreeFrom (hw : MappedPcm) (p n byte o : Nat) (area : Area) : Prop :=
  ∀ j, o ≤ j → j < n → area ((p + j) % hw.bufferSize * hw.framesize + byte) = none

/-- The frames before a place that is free cannot all be there with it. -/
theorem FreeFrom.not_all {area : Area} {o : Nat} (h : FreeFrom hw p n byte o area) (ho : o < n) :
    ¬∀ j, j < n → InPlace hw ptr p byte area j := by
  intro hall
  have hplace := hall o ho
  unfold InPlace at hplace
  rw [h o (Nat.le_refl o) ho] at hplace
  cases hplace

/-- What one copy does to the frames of a call. -/
theorem FrameCopy.into_frames (ptr : Nat) {area : Area} {o k : Nat} (hbyte : byte < hw.framesize)
    (hpos : 0 < k) (hk : o + k ≤ n) (hn : n ≤ hw.bufferSize)
    (hfree : FreeFrom hw p n byte o area) :
    FreeFrom hw p n byte (o + k) (FrameCopy.into hw ptr area ⟨(p + o) % hw.bufferSize, o, k⟩) ∧
    ((∀ j, j < o + k → InPlace hw ptr p byte
        (FrameCopy.into hw ptr area ⟨(p + o) % hw.bufferSize, o, k⟩) j) ↔
      (∀ j, j < o → InPlace hw ptr p byte area j) ∧
        (p + o) % hw.bufferSize + k ≤ hw.bufferSize) := by
  have hframe : ∀ j, j < n → FrameCopy.into hw ptr area ⟨(p + o) % hw.bufferSize, o, k⟩
      ((p + j) % hw.bufferSize * hw.framesize + byte) = _ :=
    fun j hj => FrameCopy.into_frame area hbyte hpos hk hn hj
  refine ⟨fun j hoj hj => ?_, ?_⟩
  · rw [hframe j hj, if_neg fun h => by omega]
    exact hfree j (by omega) hj
  · unfold InPlace
    constructor
    · intro hall
      refine ⟨fun j hj => ?_, Nat.le_of_not_lt fun hend => ?_⟩
      · rw [← hall j (by omega), hframe j (by omega), if_neg fun h => by omega]
      · -- the last frame of the copy is lost
        have hlast := hall (o + k - 1) (by omega)
        rw [hframe _ (by omega), if_neg fun h => by omega, hfree _ (by omega) (by omega)] at hlast
        cases hlast
    · rintro ⟨hbefore, hend⟩ j hj
      rw [hframe j (by omega)]
      by_cases hoj : o ≤ j
      · rw [if_pos ⟨⟨hoj, hj⟩, by omega⟩]
      · rw [if_neg fun h => by omega]
        exact hbefore j (by omega)

/-- **The frames of a call are all in their places** after it exactly if its turns fill the
places from where the first of them goes. -/
theorem inPlace_writeLoop {applPtr : Nat} (hbyte : byte < hw.framesize)
    (hn : n ≤ hw.bufferSize) (rounds : List Round) :
    ∀ w area, w.cOff = p + w.offset → w.offset + w.size = n →
      FreeFrom hw p n byte w.offset area →
      ((∀ j, j < n → InPlace hw ptr p byte
          (areaAfter hw ptr area (writeLoop hw applPtr rounds w).copies) j) ↔
        (∀ j, j < w.offset → InPlace hw ptr p byte area j) ∧
          Fills hw applPtr rounds w.cOff w.size) := by
  induction rounds with
  | nil =>
      intro w area hoff hsum hfree
      have hcopies : (writeLoop hw applPtr [] w).copies = [] := by
        unfold writeLoop
        by_cases hsize : w.size = 0
        · rw [if_pos hsize]
        · rw [if_neg hsize]
      rw [hcopies, Fills]
      by_cases hsize : w.size = 0
      · rw [and_iff_left hsize, show w.offset = n by omega]
        exact Iff.rfl
      · exact iff_of_false (hfree.not_all (by omega)) fun h => hsize h.2
  | cons r rounds ih =>
      intro w area hoff hsum hfree
      rw [Fills, writeLoop]
      by_cases hsize : w.size = 0
      · rw [if_pos hsize, and_iff_left (Or.inl hsize), show w.offset = n by omega]
        exact Iff.rfl
      rw [if_neg hsize, or_iff_right hsize]
      cases hspace : freeSpace hw applPtr r w.size with
      | failed err =>
          simp only [turn, hspace]
          exact iff_of_false (hfree.not_all (by omega)) fun h => h.2
      | wait =>
          simp only [turn, hspace]
          exact ih { w with err := 0 } area hoff hsum hfree
      | free avail =>
          obtain ⟨frames, hframes⟩ : ∃ frames, frames = min w.size avail.toNat := ⟨_, rfl⟩
          by_cases hzero : min w.size avail.toNat = 0
          · simp only [turn, hspace, if_pos hzero]
            exact iff_of_false (hfree.not_all (by omega)) fun h => by omega
          rw [turn_of_free hspace hzero]
          dsimp only
          rw [← hframes] at hzero ⊢
          obtain ⟨hfree', hplaced⟩ := FrameCopy.into_frames ptr hbyte
            (Nat.pos_of_ne_zero hzero) (show w.offset + frames ≤ n by omega) hn hfree
          rw [← hoff] at hfree' hplaced
          rw [and_iff_right (Nat.pos_of_ne_zero hzero)]
          by_cases hrefused : starts hw r avail frames ∧ (r.start : Int) < 0
          · rw [if_pos hrefused, if_pos hrefused]
            -- the loop is left after this copy
            show (∀ j, j < n → InPlace hw ptr p byte
              (FrameCopy.into hw ptr area (w.copy hw frames)) j) ↔ _
            by_cases hall : frames = w.size
            · rw [and_iff_left hall, ← hplaced, show w.offset + frames = n by omega]
              exact Iff.rfl
            · exact iff_of_false (hfree'.not_all (by omega)) fun h => hall h.2.2
          · rw [if_neg hrefused, if_neg hrefused]
            have hnext := ih (w.count frames (if starts hw r avail frames then r.start
              else errAfter hw r w)) (FrameCopy.into hw ptr area (w.copy hw frames))
              (by simp only [Writing.count]; omega) (by simp only [Writing.count]; omega) hfree'
            rw [← and_assoc, ← hplaced]
            exact hnext

/-- What the area holds after some copies is from one of them or from before. -/
theorem areaAfter_some {copies : List FrameCopy} {area : Area} {at' from' : Nat}
    (h : areaAfter hw ptr area copies at' = some from') :
    area at' = some from' ∨ ∃ c ∈ copies, c.target * hw.framesize ≤ at' ∧
      from' = ptr + c.source * hw.framesize + (at' - c.target * hw.framesize) := by
  induction copies generalizing area with
  | nil => exact Or.inl h
  | cons c copies ih =>
      obtain h' | ⟨c', hc', hfrom⟩ := ih h
      · unfold FrameCopy.into at h'
        by_cases hcov : c.target * hw.framesize ≤ at' ∧ at' < (c.target + c.frames) * hw.framesize ∧
            at' < hw.bufferSize * hw.framesize
        · rw [if_pos hcov, Option.some.injEq] at h'
          exact Or.inr ⟨c, List.mem_cons_self, hcov.1, h'.symm⟩
        · rw [if_neg hcov] at h'
          exact Or.inl h'
      · exact Or.inr ⟨c', List.mem_cons_of_mem _ hc', hfrom⟩

/-- The frames of a call are apart from their sources by the place of the first, or by that
and the length of the ring. -/
theorem areaAfter_distance {copies : List FrameCopy} {at' from' : Nat}
    (hn : n ≤ hw.bufferSize)
    (hcopies : ∀ c ∈ copies, c.target = (p + c.source) % hw.bufferSize ∧ 0 < c.frames ∧
      c.source + c.frames ≤ n)
    (h : areaAfter hw 0 (fun _ => none) copies at' = some from') :
    from' + p % hw.bufferSize * hw.framesize = at' ∨
      from' + p % hw.bufferSize * hw.framesize = at' + hw.bufferSize * hw.framesize := by
  obtain h | ⟨c, hc, hle, hfrom⟩ := areaAfter_some h
  · cases h
  obtain ⟨hto, hpos, hsource⟩ := hcopies c hc
  have hring := ring_add (x := p) (d := c.source) (B := hw.bufferSize) (by omega)
  rw [← hto] at hring
  by_cases hlt : p % hw.bufferSize + c.source < hw.bufferSize
  · rw [if_pos hlt] at hring
    have hmul : c.target * hw.framesize =
        p % hw.bufferSize * hw.framesize + c.source * hw.framesize := by
      rw [hring, Nat.add_mul]
    exact Or.inl (by omega)
  · rw [if_neg hlt] at hring
    have hmul : c.target * hw.framesize + hw.bufferSize * hw.framesize =
        p % hw.bufferSize * hw.framesize + c.source * hw.framesize := by
      rw [← Nat.add_mul, ← Nat.add_mul]
      exact congrArg (· * hw.framesize) (by omega)
    exact Or.inr (by omega)

end Frames

end Blts.Alsa.Mapped
