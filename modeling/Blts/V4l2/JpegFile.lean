import Mathlib.Data.UInt
import Mathlib.Data.Nat.Find
import Blts.Fault

/-!
# Saving a picture that is JPEG already

`process_native_jpeg_file` writes a frame buffer word by word up to what it takes for the
End Of Image marker.  The only other end is a number of words, which comes from the
dimensions of the picture; the size of the buffer comes from them as well.
-/

namespace Blts.V4l2

/-! ## Picture and buffer -/

/-- The dimensions and sizes of a `v4l2_pix_format`. -/
structure PixFormat where
  width : UInt32
  height : UInt32
  bytesperline : UInt32
  sizeimage : UInt32
  deriving DecidableEq

/-- The end of `init_device`: sizes that are too small for the dimensions are corrected. -/
def PixFormat.fixUp (pix : PixFormat) : PixFormat :=
  let min := pix.width * 2
  let pix := if pix.bytesperline < min then { pix with bytesperline := min } else pix
  let min := pix.bytesperline * pix.height
  if pix.sizeimage < min then { pix with sizeimage := min } else pix

/-- A buffer for pictures of a format. -/
structure FrameBuffer (pix : PixFormat) where
  bytes : List UInt8
  size : pix.fixUp.sizeimage.toNat ≤ bytes.length

/-! ## `process_native_jpeg_file` -/

/-- The order of the bytes in a word of the host. -/
inductive ByteOrder where
  | little
  | big

/-- The `__u16` at two bytes. -/
def ByteOrder.word (order : ByteOrder) (a b : UInt8) : Nat :=
  match order with
  | .little => a.toNat + 256 * b.toNat
  | .big => 256 * a.toNat + b.toNat

/-- The loop, with the buffer from `word_to_write` on, and the word that is written after
it: what goes to the file. -/
def saveWords (order : ByteOrder) (limit : UInt32) (dataCounter : UInt32) :
    List UInt8 → Except Fault (List UInt8)
  | a :: b :: rest =>
      match rest with
      | c :: d :: _ =>
          if dataCounter + 1 > limit then .ok [a, b, c, d]
          else if order.word c d ≠ 0xFF9D then do
            let out ← saveWords order limit (dataCounter + 1) rest
            .ok (a :: b :: out)
          else .ok [a, b, c, d]
      | _ => .error .outOfBounds
  | _ => .error .outOfBounds

/-- The bytes of the file, if it could be opened. -/
def processNativeJpegFile (order : ByteOrder) (pix : PixFormat) (p : List UInt8)
    (outfile : Bool) : Except Fault (Option (List UInt8)) :=
  if outfile = false then .ok none
  else do
    let out ← saveWords order (pix.width * pix.height) 0 p
    .ok (some out)

/-! ## Where the loop ends -/

/-- A word of a buffer, if it is all inside. -/
def wordAt (bytes : List UInt8) (k : Nat) : List UInt8 :=
  (bytes.drop (2 * k)).take 2

/-- The bytes of the word that the loop looks for. -/
def ByteOrder.sought : ByteOrder → List UInt8
  | .little => [0x9D, 0xFF]
  | .big => [0xFF, 0x9D]

/-- The bytes of an End Of Image marker. -/
def endOfImage : List UInt8 := [0xFF, 0xD9]

theorem ByteOrder.word_eq_iff (order : ByteOrder) (a b : UInt8) :
    order.word a b = 0xFF9D ↔ [a, b] = order.sought := by
  have ha : a.toNat < 256 := UInt8.toNat_lt a
  have hb : b.toNat < 256 := UInt8.toNat_lt b
  have hbytes (x y : UInt8) : [a, b] = [x, y] ↔ a.toNat = x.toNat ∧ b.toNat = y.toNat := by
    simp only [List.cons.injEq, and_true, UInt8.toNat_inj]
  cases order with
  | little =>
      rw [word, sought, hbytes]
      show _ ↔ a.toNat = 0x9D ∧ b.toNat = 0xFF
      omega
  | big =>
      rw [word, sought, hbytes]
      show _ ↔ a.toNat = 0xFF ∧ b.toNat = 0x9D
      omega

/-- It is no End Of Image marker. -/
theorem ByteOrder.sought_ne (order : ByteOrder) : order.sought ≠ endOfImage := by
  cases order <;> decide

/-- The loop, after `counter` words, ends at the word `k` from where it is. -/
def EndsAt (order : ByteOrder) (limit : UInt32) (counter : UInt32) (bytes : List UInt8)
    (k : Nat) : Prop :=
  (limit.toNat + 1 < 4294967296 ∧ counter.toNat + k = limit.toNat + 1) ∨
    wordAt bytes k = order.sought

section

variable {order : ByteOrder} {limit counter : UInt32} {a b : UInt8} {rest : List UInt8}

theorem wordAt_succ (k : Nat) : wordAt (a :: b :: rest) (k + 1) = wordAt rest k := rfl

/-- The next word is the last. -/
theorem endsAt_one {c d : UInt8} (hcounter : counter ≤ limit) :
    EndsAt order limit counter (a :: b :: c :: d :: rest) 1 ↔
      counter + 1 > limit ∨ order.word c d = 0xFF9D := by
  have hle := UInt32.le_iff_toNat_le.mp hcounter
  have hadd : (counter + 1).toNat = (counter.toNat + 1) % 4294967296 := UInt32.toNat_add _ _
  have hlimit : limit.toNat < 4294967296 := UInt32.toNat_lt limit
  rw [order.word_eq_iff, gt_iff_lt, UInt32.lt_iff_toNat_lt, hadd]
  apply or_congr_left
  omega

/-- It is not, and the counter has not passed the limit. -/
theorem endsAt_succ {k : Nat} (hcounter : counter ≤ limit) (hnext : ¬ counter + 1 > limit) :
    EndsAt order limit (counter + 1) rest k ↔
      EndsAt order limit counter (a :: b :: rest) (k + 1) := by
  have hle := UInt32.le_iff_toNat_le.mp hcounter
  have hadd : (counter + 1).toNat = (counter.toNat + 1) % 4294967296 := UInt32.toNat_add _ _
  have hlimit : limit.toNat < 4294967296 := UInt32.toNat_lt limit
  have hnat := UInt32.le_iff_toNat_le.mp (UInt32.not_lt.mp hnext)
  rw [hadd] at hnat
  unfold EndsAt
  rw [wordAt_succ, hadd]
  apply or_congr_left
  omega

end

/-- The loop writes up to the first word at which it ends. -/
def SavesUpTo (order : ByteOrder) (limit counter : UInt32) (bytes : List UInt8) (k : Nat) :
    Prop :=
  0 < k ∧ 2 * k + 2 ≤ bytes.length ∧ EndsAt order limit counter bytes k ∧
    ∀ j, 0 < j → j < k → ¬ EndsAt order limit counter bytes j

theorem SavesUpTo.length {order : ByteOrder} {limit counter : UInt32} {bytes : List UInt8}
    {k : Nat} (h : SavesUpTo order limit counter bytes k) : 4 ≤ bytes.length := by
  have hpos := h.1
  have hlen := h.2.1
  omega

section

variable {order : ByteOrder} {limit counter : UInt32} {a b c d : UInt8} {rest : List UInt8}

theorem savesUpTo_one (h : EndsAt order limit counter (a :: b :: c :: d :: rest) 1) {k : Nat} :
    SavesUpTo order limit counter (a :: b :: c :: d :: rest) k ↔ k = 1 := by
  constructor
  · rintro ⟨hpos, _, _, hfirst⟩
    by_contra hk
    exact hfirst 1 Nat.one_pos (by omega) h
  · rintro rfl
    refine ⟨Nat.one_pos, by simp, h, fun j hj hj' => ?_⟩
    omega

theorem savesUpTo_succ (hcounter : counter ≤ limit) (hnext : ¬ counter + 1 > limit)
    (h : ¬ EndsAt order limit counter (a :: b :: c :: d :: rest) 1) {k : Nat} :
    SavesUpTo order limit counter (a :: b :: c :: d :: rest) k ↔
      ∃ k', k = k' + 1 ∧ SavesUpTo order limit (counter + 1) (c :: d :: rest) k' := by
  have hends (j : Nat) : EndsAt order limit (counter + 1) (c :: d :: rest) j ↔
      EndsAt order limit counter (a :: b :: c :: d :: rest) (j + 1) :=
    endsAt_succ hcounter hnext
  constructor
  · rintro ⟨hpos, hlen, hend, hfirst⟩
    obtain ⟨k', rfl⟩ := Nat.exists_eq_add_one.mpr hpos
    have hk' : k' ≠ 0 := by
      rintro rfl
      exact h hend
    refine ⟨k', rfl, Nat.pos_of_ne_zero hk', ?_, (hends k').mpr hend, fun j hj hj' hj'' => ?_⟩
    · simp only [List.length_cons] at hlen ⊢
      omega
    · exact hfirst (j + 1) (Nat.succ_pos j) (by omega) ((hends j).mp hj'')
  · rintro ⟨k', rfl, hpos, hlen, hend, hfirst⟩
    refine ⟨Nat.succ_pos k', ?_, (hends k').mp hend, fun j hj hj' hj'' => ?_⟩
    · simp only [List.length_cons] at hlen ⊢
      omega
    · obtain ⟨j, rfl⟩ := Nat.exists_eq_add_one.mpr hj
      have hne : j ≠ 0 := by
        rintro rfl
        exact h hj''
      exact hfirst j (Nat.pos_of_ne_zero hne) (by omega) ((hends j).mpr hj'')

end

/-- **The loop** and the word after it. -/
theorem saveWords_eq_ok_iff {order : ByteOrder} {limit : UInt32} : ∀ {counter : UInt32}
    {bytes out : List UInt8}, counter ≤ limit →
      (saveWords order limit counter bytes = .ok out ↔
        ∃ k, SavesUpTo order limit counter bytes k ∧ out = bytes.take (2 * k + 2))
  | _, [], _, _ | _, [_], _, _ | _, [_, _], _, _ | _, [_, _, _], _, _ => by
      refine iff_of_false (fun h => by cases h) ?_
      rintro ⟨k, hk, _⟩
      exact absurd hk.length (by simp)
  | counter, a :: b :: c :: d :: rest, out, hcounter => by
      have hone : EndsAt order limit counter (a :: b :: c :: d :: rest) 1 ↔
          counter + 1 > limit ∨ order.word c d = 0xFF9D := endsAt_one hcounter
      rw [saveWords]
      by_cases hend : EndsAt order limit counter (a :: b :: c :: d :: rest) 1
      · -- this round is the last
        have hlast : (if counter + 1 > limit then .ok [a, b, c, d]
            else if order.word c d ≠ 0xFF9D then
              saveWords order limit (counter + 1) (c :: d :: rest) >>= fun out =>
                .ok (a :: b :: out)
            else .ok [a, b, c, d]) = (Except.ok [a, b, c, d] : Except Fault _) := by
          by_cases hlimit : counter + 1 > limit
          · exact if_pos hlimit
          · rw [if_neg hlimit, if_neg (not_not_intro ((hone.mp hend).resolve_left hlimit))]
        rw [hlast]
        simp only [savesUpTo_one hend, exists_eq_left, Except.ok.injEq]
        exact eq_comm
      · have hnot := not_or.mp (fun h => hend (hone.mpr h))
        have hrest (out' : List UInt8) :
            saveWords order limit (counter + 1) (c :: d :: rest) = .ok out' ↔
              ∃ k, SavesUpTo order limit (counter + 1) (c :: d :: rest) k ∧
                out' = (c :: d :: rest).take (2 * k + 2) :=
          saveWords_eq_ok_iff (UInt32.not_lt.mp hnot.1)
        have htake (k : Nat) : (a :: b :: c :: d :: rest).take (2 * (k + 1) + 2) =
            a :: b :: (c :: d :: rest).take (2 * k + 2) := rfl
        rw [if_neg hnot.1, if_pos hnot.2]
        simp only [savesUpTo_succ hcounter hnot.1 hend]
        constructor
        · intro h
          obtain ⟨out', hout', heq⟩ := exists_of_bind_eq_ok h
          cases heq
          obtain ⟨k, hk, rfl⟩ := (hrest out').mp hout'
          exact ⟨k + 1, ⟨k, rfl, hk⟩, (htake k).symm⟩
        · rintro ⟨_, ⟨k, rfl, hk⟩, rfl⟩
          rw [(hrest _).mpr ⟨k, hk, rfl⟩, htake]
          rfl

/-! ## The pictures that are saved -/

/-- A stream that ends with its End Of Image marker, and is at the start of a buffer. -/
structure JpegIn (stream bytes : List UInt8) : Prop where
  ends : endOfImage <:+ stream
  inside : stream <+: bytes

section

variable {order : ByteOrder} {pix : PixFormat} {bytes stream : List UInt8}

theorem processNativeJpegFile_eq_iff : processNativeJpegFile order pix bytes true =
    .ok (some stream) ↔ saveWords order (pix.width * pix.height) 0 bytes = .ok stream := by
  unfold processNativeJpegFile
  rw [if_neg (by decide)]
  constructor
  · intro h
    obtain ⟨out, hout, heq⟩ := exists_of_bind_eq_ok h
    cases heq
    exact hout
  · intro h
    rw [h]
    rfl

/-- The words of a buffer and those of a stream that it begins with. -/
theorem wordAt_inside (h : stream <+: bytes) {k : Nat} (hk : 2 * k + 2 ≤ stream.length) :
    wordAt bytes k = wordAt stream k := by
  obtain ⟨rest, rfl⟩ := h
  unfold wordAt
  rw [List.drop_append_of_le_length (by omega), List.take_append_of_le_length]
  rw [List.length_drop]
  omega

/-- The last word of a stream. -/
theorem wordAt_end (h : endOfImage <:+ stream) {k : Nat} (hk : stream.length = 2 * k + 2) :
    wordAt stream k = endOfImage := by
  obtain ⟨body, rfl⟩ := h
  have hbody : body.length = 2 * k := by
    rw [List.length_append] at hk
    exact Nat.add_right_cancel hk
  unfold wordAt
  rw [← hbody, List.drop_left]
  rfl

/-- The stream goes to the end of the loop, which is at its number of words and no word
before. -/
def EndsWithLoop (order : ByteOrder) (pix : PixFormat) (stream : List UInt8) : Prop :=
  (pix.width * pix.height).toNat + 1 < 4294967296 ∧
    stream.length = 2 * (pix.width * pix.height).toNat + 4 ∧
    ∀ k, 0 < k → k ≤ (pix.width * pix.height).toNat → wordAt stream k ≠ order.sought

/-- The number of words is inside the buffer, or there is a word that ends the loop. -/
def LoopEndsInside (order : ByteOrder) (pix : PixFormat) (bytes : List UInt8) : Prop :=
  ((pix.width * pix.height).toNat + 1 < 4294967296 ∧
      2 * (pix.width * pix.height).toNat + 4 ≤ bytes.length) ∨
    ∃ k, 0 < k ∧ wordAt bytes k = order.sought

theorem saved_iff (h : JpegIn stream bytes) :
    processNativeJpegFile order pix bytes true = .ok (some stream) ↔
      EndsWithLoop order pix stream := by
  have hinside := h.inside.length_le
  rw [processNativeJpegFile_eq_iff, saveWords_eq_ok_iff UInt32.zero_le]
  constructor
  · rintro ⟨k, ⟨hpos, hlen, hend, hfirst⟩, heq⟩
    have hstream : stream.length = 2 * k + 2 := by
      rw [heq, List.length_take, Nat.min_eq_left hlen]
    -- the last word of the stream is not the one that is looked for
    have hlast := wordAt_end h.ends hstream
    rw [← wordAt_inside h.inside (Nat.le_of_eq hstream.symm)] at hlast
    obtain ⟨hlimit, hk⟩ := hend.resolve_right fun hword =>
      order.sought_ne (hword.symm.trans hlast)
    have hk' : k = (pix.width * pix.height).toNat + 1 := (Nat.zero_add k).symm.trans hk
    refine ⟨hlimit, by omega, fun j hj hj' hword => ?_⟩
    rw [← wordAt_inside h.inside (by omega)] at hword
    exact hfirst j hj (by omega) (.inr hword)
  · rintro ⟨hlimit, hlen, hwords⟩
    have htake : stream = bytes.take (2 * ((pix.width * pix.height).toNat + 1) + 2) := by
      have heq := List.prefix_iff_eq_take.mp h.inside
      rw [hlen] at heq
      exact heq
    refine ⟨_, ⟨Nat.succ_pos _, by omega, .inl ⟨hlimit, Nat.zero_add _⟩, ?_⟩, htake⟩
    intro j hj hj' hend
    rcases hend with ⟨_, hcount⟩ | hword
    · have hcount' : j = (pix.width * pix.height).toNat + 1 := (Nat.zero_add j).symm.trans hcount
      omega
    · rw [wordAt_inside h.inside (by omega)] at hword
      exact hwords j hj (by omega) hword

/-- A word that is looked for is inside the buffer. -/
theorem length_of_sought {k : Nat} (h : wordAt bytes k = order.sought) :
    2 * k + 2 ≤ bytes.length := by
  have hlen : (wordAt bytes k).length = 2 := by
    rw [h]
    cases order <;> rfl
  unfold wordAt at hlen
  rw [List.length_take, List.length_drop] at hlen
  omega

/-- The loop comes to an end inside the buffer where it could end at some word of it: it
does so at the first one. -/
theorem exists_savesUpTo_iff {limit counter : UInt32} :
    (∃ k, SavesUpTo order limit counter bytes k) ↔
      ∃ k, 0 < k ∧ 2 * k + 2 ≤ bytes.length ∧ EndsAt order limit counter bytes k := by
  classical
  constructor
  · rintro ⟨k, hpos, hlen, hend, _⟩
    exact ⟨k, hpos, hlen, hend⟩
  · intro h
    obtain ⟨hpos, hlen, hend⟩ := Nat.find_spec h
    refine ⟨Nat.find h, hpos, hlen, hend, fun j hj hj' hend' => ?_⟩
    exact Nat.find_min h hj' ⟨hj, by omega, hend'⟩

theorem readInside_iff : (∃ out, processNativeJpegFile order pix bytes true = .ok out) ↔
    LoopEndsInside order pix bytes := by
  have hsave : (∃ out, processNativeJpegFile order pix bytes true = .ok out) ↔
      ∃ k, SavesUpTo order (pix.width * pix.height) 0 bytes k := by
    constructor
    · rintro ⟨out, hout⟩
      unfold processNativeJpegFile at hout
      rw [if_neg (by decide)] at hout
      obtain ⟨file, hfile, _⟩ := exists_of_bind_eq_ok hout
      obtain ⟨k, hk, _⟩ := (saveWords_eq_ok_iff UInt32.zero_le).mp hfile
      exact ⟨k, hk⟩
    · rintro ⟨k, hk⟩
      exact ⟨_, processNativeJpegFile_eq_iff.mpr
        ((saveWords_eq_ok_iff UInt32.zero_le).mpr ⟨k, hk, rfl⟩)⟩
  rw [hsave, exists_savesUpTo_iff]
  constructor
  · rintro ⟨k, hpos, hlen, ⟨hlimit, hk⟩ | hword⟩
    · have hk' : k = (pix.width * pix.height).toNat + 1 := (Nat.zero_add k).symm.trans hk
      exact .inl ⟨hlimit, by omega⟩
    · exact .inr ⟨k, hpos, hword⟩
  · rintro (⟨hlimit, hlen⟩ | ⟨k, hpos, hword⟩)
    · exact ⟨(pix.width * pix.height).toNat + 1, Nat.succ_pos _, by omega,
        .inl ⟨hlimit, Nat.zero_add _⟩⟩
    · exact ⟨k, hpos, length_of_sought hword, .inr hword⟩

end

/-- **Saving a picture that is JPEG already**: its End Of Image marker never ends the loop,
so that it is saved as it is only where the number of words ends the loop there. -/
theorem processNativeJpegFile_spec (order : ByteOrder) (pix : PixFormat)
    (buffer : FrameBuffer pix) :
    (∀ stream, JpegIn stream buffer.bytes →
      (processNativeJpegFile order pix buffer.bytes true = .ok (some stream) ↔
        EndsWithLoop order pix stream)) ∧
    ((∃ out, processNativeJpegFile order pix buffer.bytes true = .ok out) ↔
      LoopEndsInside order pix buffer.bytes) :=
  ⟨fun _ h => saved_iff h, readInside_iff⟩

/-! ## A small picture -/

/-- Two pixels for which the driver asks for eight bytes. -/
def smallPix : PixFormat := ⟨2, 1, 4, 8⟩

/-- A stream of nothing but its markers, and four bytes after it. -/
def smallBuffer : FrameBuffer smallPix where
  bytes := [0xFF, 0xD8, 0xFF, 0xD9, 0, 0, 0, 0]
  size := by decide

/-- What is after the stream is saved with it. -/
theorem smallBuffer_saved : ¬ ∀ (order : ByteOrder) (pix : PixFormat)
    (buffer : FrameBuffer pix),
      (∀ stream, JpegIn stream buffer.bytes →
        processNativeJpegFile order pix buffer.bytes true = .ok (some stream)) ∧
      ∃ out, processNativeJpegFile order pix buffer.bytes true = .ok out := by
  intro hall
  have hstream : JpegIn [0xFF, 0xD8, 0xFF, 0xD9] smallBuffer.bytes :=
    ⟨⟨[0xFF, 0xD8], rfl⟩, ⟨[0, 0, 0, 0], rfl⟩⟩
  have hsaved := (hall .little smallPix smallBuffer).1 _ hstream
  have hfile : processNativeJpegFile .little smallPix smallBuffer.bytes true =
      .ok (some smallBuffer.bytes) := by
    rw [processNativeJpegFile_eq_iff]
    rfl
  rw [hfile] at hsaved
  exact absurd (Option.some.inj (Except.ok.inj hsaved)) (by decide)

end Blts.V4l2
