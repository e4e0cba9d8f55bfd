import Mathlib.Algebra.Order.Ring.Abs
import Blts.Lib.Bytes
import Blts.Lib.Fields
import Blts.Lib.FixedStep

/-!
# Reading a bitmap

`glesh_read_bitmap` reads the header of a bitmap and its data, and copies for every pixel of the
image, the top row first, the pixel of the bitmap that the 16.16 steps lead to.  It stays inside
its buffers, divides by no zero and computes with numbers that fit exactly for the requests of
`ReadFits` (`returns_readBitmap`).
-/

namespace Blts.Gles

open Blts.Lib (fixedStep leValue returns_foldlM_append sampleAt)

/-! ## Numbers -/

/-- What can go wrong. -/
inductive BitmapFault where
  /-- an `int` is computed that does not fit -/
  | overflow
  | divisionByZero
  | outOfBounds
  deriving DecidableEq

def FitsInt (n : Int) : Prop := -2147483648 ≤ n ∧ n < 2147483648

instance (n : Int) : Decidable (FitsInt n) :=
  inferInstanceAs (Decidable (-2147483648 ≤ n ∧ n < 2147483648))

/-- A number that is computed as an `int`. -/
def int (n : Int) : Except BitmapFault Int := if FitsInt n then .ok n else .error .overflow

/-- `/` -/
def divide (a b : Int) : Except BitmapFault Int :=
  if b = 0 then .error .divisionByZero else int (a.tdiv b)

/-- The byte at an index. -/
def bitmapByte (block : List UInt8) (i : Int) : Except BitmapFault UInt8 :=
  if i < 0 then .error .outOfBounds
  else
    match block[i.toNat]? with
    | some b => .ok b
    | none => .error .outOfBounds

/-! ## The header -/

/-- `glesh_bitmap_header`. -/
structure GleshBitmapHeader where
  biSize : Int
  biWidth : Int
  biHeight : Int
  biPlanes : Int
  biBitCount : Int
  biCompression : Int
  biSizeImage : Int
  biXPelsPerMeter : Int
  biYPelsPerMeter : Int
  biClrUsed : Int
  biClrImportant : Int
  deriving DecidableEq

/-- The `int` at a place of a block. -/
def intAt (block : List UInt8) (o : Nat) : Int :=
  Int.bmod (leValue ((block.drop o).take 4) : ℕ) 4294967296

def shortAt (block : List UInt8) (o : Nat) : Int :=
  Int.bmod (leValue ((block.drop o).take 2) : ℕ) 65536

def headerOf (block : List UInt8) : GleshBitmapHeader where
  biSize := intAt block 0
  biWidth := intAt block 4
  biHeight := intAt block 8
  biPlanes := shortAt block 12
  biBitCount := shortAt block 14
  biCompression := intAt block 16
  biSizeImage := intAt block 20
  biXPelsPerMeter := intAt block 24
  biYPelsPerMeter := intAt block 28
  biClrUsed := intAt block 32
  biClrImportant := intAt block 36

/-- The header, and where the file is read next: `fseek` fails if the offset is negative, and the
position stays after the header. -/
def readHeader (bytes : List UInt8) : Option (GleshBitmapHeader × Nat) :=
  let offset := (bytes.drop 10).take 4
  if offset.length ≠ 4 then none
  else
    let block := (bytes.drop 14).take 40
    if block.length ≠ 40 then none
    else some (headerOf block, if 0 ≤ intAt offset 0 then (intAt offset 0).toNat else 54)

/-- The bytes of a pixel in the file. -/
def pixelSize (biBitCount : Int) : Nat := if biBitCount = 32 then 4 else 3

/-! ## The pixels -/

/-- The next bytes of `p_data`: `k` is the number of those that are written. -/
def putPixel (size : Nat) (out pixel : List UInt8) : Except BitmapFault (List UInt8) :=
  if out.length + pixel.length ≤ size then .ok (out ++ pixel) else .error .outOfBounds

/-- The body of the loops; `source` is the number of the pixel in `p_temp`. -/
def copyPixel (bgr : Bool) (biBitCount : Int) (temp : List UInt8) (size : Nat) (source : Int)
    (out : List UInt8) : Except BitmapFault (List UInt8) :=
  if biBitCount = 32 then do
    let i ← int (4 * source)
    let b0 ← bitmapByte temp i
    let b1 ← bitmapByte temp (i + 1)
    let b2 ← bitmapByte temp (i + 2)
    let b3 ← bitmapByte temp (i + 3)
    putPixel size out (if bgr then [b2, b1, b0, b3] else [b0, b1, b2, b3])
  else do
    let i ← int (3 * source)
    let b0 ← bitmapByte temp i
    let b1 ← bitmapByte temp (i + 1)
    let b2 ← bitmapByte temp (i + 2)
    putPixel size out (if bgr then [b2, b1, b0, 0] else [b0, b1, b2, 0])

/-- The inner loop. -/
def copyRow (bgr : Bool) (biBitCount : Int) (temp : List UInt8) (size : Nat)
    (imageWidth sxinc ys : Int) (out : List UInt8) : Except BitmapFault (List UInt8) :=
  (List.range imageWidth.toNat).foldlM (fun out (x : Nat) => do
    let sx ← int (x * sxinc)
    let source ← int (sx.shiftRight 16 + ys)
    copyPixel bgr biBitCount temp size source out) out

/-- The outer loop, from the last row to the first. -/
def copyRows (bgr : Bool) (header : GleshBitmapHeader) (temp : List UInt8) (size : Nat)
    (imageWidth imageHeight sxinc syinc : Int) : Except BitmapFault (List UInt8) :=
  (List.range imageHeight.toNat).reverse.foldlM (fun out (y : Nat) => do
    let sy ← int (y * syinc)
    let ys ← int (sy.shiftRight 16 * header.biWidth)
    copyRow bgr header.biBitCount temp size imageWidth sxinc ys out) []

/-- The steps and the loops. -/
def copyImage (bgr : Bool) (header : GleshBitmapHeader) (temp : List UInt8) (size : Nat)
    (imageWidth imageHeight : Int) : Except BitmapFault (List UInt8) := do
  let width ← int (header.biWidth * 65536)
  let sxinc ← divide width imageWidth
  let height ← int (header.biHeight * 65536)
  let syinc ← divide height imageHeight
  let _last ← int (imageHeight - 1)
  copyRows bgr header temp size imageWidth imageHeight sxinc syinc

/-- The header and the bytes of `p_data` that are written. -/
structure Bitmap where
  header : GleshBitmapHeader
  pixels : List UInt8
  deriving DecidableEq

/-- Whether each `malloc` finds memory. -/
structure BitmapMemory where
  data : Bool
  temp : Bool
  deriving DecidableEq

/-- The size of the image in one direction. -/
def imageSize (scale size : Int) : Int := if scale ≠ 0 then scale else size

/-- `p_temp` is read from the file, and the image is copied from it. -/
def loadImage (memory : BitmapMemory) (bytes : List UInt8) (position filedatalen : Nat)
    (bgr : Bool) (header : GleshBitmapHeader) (size : Nat) (imageWidth imageHeight : Int) :
    Except BitmapFault (Option Bitmap) :=
  if memory.temp = false then .ok none
  else
    let temp := (bytes.drop position).take filedatalen
    if temp.length ≠ filedatalen then .ok none
    else do
      let pixels ← copyImage bgr header temp size imageWidth imageHeight
      .ok (some ⟨{ header with biWidth := imageWidth, biHeight := imageHeight }, pixels⟩)

/-- `glesh_read_bitmap`; there is no file if `fopen` fails.  Nothing is written to an image whose
size is negative. -/
def gleshReadBitmap (memory : BitmapMemory) (file : Option (List UInt8)) (bgr : Bool)
    (scaleW scaleH : Int) : Except BitmapFault (Option Bitmap) :=
  match file with
  | none => .ok none
  | some bytes =>
      match readHeader bytes with
      | none => .ok none
      | some (header, position) => do
          let imageWidth := imageSize scaleW header.biWidth
          let imageHeight := imageSize scaleH header.biHeight
          let area ← int (imageWidth * imageHeight)
          let size ← int (area * 4)
          if memory.data = false then .ok none
          else
            let area ← int (header.biWidth * header.biHeight)
            let len ← int (area * pixelSize header.biBitCount)
            -- `unsigned int filedatalen`
            loadImage memory bytes position (len % 4294967296).toNat bgr header size.toNat
              imageWidth imageHeight

/-! ## One pixel -/

@[simp] theorem returns_int {n : Int} {post : Int → Prop} :
    Lib.Returns (int n) post ↔ FitsInt n ∧ post n := by
  unfold int
  by_cases h : FitsInt n
  · simp [h]
  · simp [h]

@[simp] theorem returns_divide {a b : Int} {post : Int → Prop} :
    Lib.Returns (divide a b) post ↔ b ≠ 0 ∧ FitsInt (a.tdiv b) ∧ post (a.tdiv b) := by
  unfold divide
  by_cases h : b = 0
  · simp [h]
  · simp [h]

@[simp] theorem returns_bitmapByte {block : List UInt8} {i : Int} {post : UInt8 → Prop} :
    Lib.Returns (bitmapByte block i) post ↔
      0 ≤ i ∧ i < block.length ∧ post (block.getD i.toNat 0) := by
  unfold bitmapByte
  by_cases hneg : i < 0
  · rw [if_pos hneg]
    exact iff_of_false Lib.not_returns_error fun h => absurd h.1 (by omega)
  · rw [if_neg hneg, List.getD_eq_getElem?_getD]
    cases hget : block[i.toNat]? with
    | some b =>
        have hlt : i.toNat < block.length := (List.getElem?_eq_some_iff.mp hget).1
        rw [Lib.returns_ok, Option.getD_some]
        exact ⟨fun h => ⟨by omega, by omega, h⟩, fun h => h.2.2⟩
    | none =>
        have hle : block.length ≤ i.toNat := List.getElem?_eq_none_iff.mp hget
        exact iff_of_false Lib.not_returns_error fun h => absurd h.2.1 (by omega)

@[simp] theorem returns_putPixel {size : Nat} {out pixel : List UInt8}
    {post : List UInt8 → Prop} :
    Lib.Returns (putPixel size out pixel) post ↔
      out.length + pixel.length ≤ size ∧ post (out ++ pixel) := by
  unfold putPixel
  by_cases h : out.length + pixel.length ≤ size
  · simp [h]
  · simp [h]

/-- What is written of a pixel of the file. -/
def shown (bgr : Bool) (pixel : List UInt8) : List UInt8 :=
  if bgr then [pixel.getD 2 0, pixel.getD 1 0, pixel.getD 0 0, pixel.getD 3 0]
  else [pixel.getD 0 0, pixel.getD 1 0, pixel.getD 2 0, pixel.getD 3 0]

theorem length_shown (bgr : Bool) (pixel : List UInt8) : (shown bgr pixel).length = 4 := by
  cases bgr <;> rfl

/-- A pixel of `p_temp`, with an index that fits. -/
structure HasPixel (n len : Nat) (source : Int) : Prop where
  nonneg : 0 ≤ source
  fits : n * source < 2147483648
  inside : n * source + n ≤ len

def sourcePixel (n : Nat) (temp : List UInt8) (source : Int) : List UInt8 :=
  (temp.drop (n * source).toNat).take n

theorem getD_sourcePixel {n k : Nat} {temp : List UInt8} {source : Int} (hk : k < n)
    (hsource : 0 ≤ source) :
    (sourcePixel n temp source).getD k 0 = temp.getD (n * source + k).toNat 0 := by
  have hplace : (n * source + k).toNat = (n * source).toNat + k := by
    have hnonneg := Int.mul_nonneg (Int.natCast_nonneg n) hsource
    omega
  rw [sourcePixel, List.getD_eq_getElem?_getD, List.getElem?_take_of_lt hk, List.getElem?_drop,
    hplace, List.getD_eq_getElem?_getD]

theorem getD_sourcePixel_last {n : Nat} {temp : List UInt8} {source : Int} :
    (sourcePixel n temp source).getD n 0 = 0 := by
  rw [sourcePixel, List.getD_eq_getElem?_getD, List.getElem?_take_eq_none (Nat.le_refl n)]
  rfl

section

variable {bgr : Bool} {biBitCount : Int} {temp : List UInt8} {size : Nat}

theorem shown_four {source : Int} (hsource : 0 ≤ source) :
    (if bgr then
        [temp.getD (4 * source + 2).toNat 0, temp.getD (4 * source + 1).toNat 0,
          temp.getD (4 * source).toNat 0, temp.getD (4 * source + 3).toNat 0]
      else [temp.getD (4 * source).toNat 0, temp.getD (4 * source + 1).toNat 0,
        temp.getD (4 * source + 2).toNat 0, temp.getD (4 * source + 3).toNat 0]) =
      shown bgr (sourcePixel 4 temp source) := by
  have h0 : (sourcePixel 4 temp source).getD 0 0 = temp.getD (4 * source + (0 : ℕ)).toNat 0 :=
    getD_sourcePixel (by decide) hsource
  rw [Int.natCast_zero, Int.add_zero] at h0
  rw [shown, h0, getD_sourcePixel (by decide) hsource, getD_sourcePixel (by decide) hsource,
    getD_sourcePixel (by decide) hsource]
  rfl

theorem shown_three {source : Int} (hsource : 0 ≤ source) :
    (if bgr then
        [temp.getD (3 * source + 2).toNat 0, temp.getD (3 * source + 1).toNat 0,
          temp.getD (3 * source).toNat 0, 0]
      else [temp.getD (3 * source).toNat 0, temp.getD (3 * source + 1).toNat 0,
        temp.getD (3 * source + 2).toNat 0, 0]) =
      shown bgr (sourcePixel 3 temp source) := by
  have h0 : (sourcePixel 3 temp source).getD 0 0 = temp.getD (3 * source + (0 : ℕ)).toNat 0 :=
    getD_sourcePixel (by decide) hsource
  rw [Int.natCast_zero, Int.add_zero] at h0
  rw [shown, h0, getD_sourcePixel (by decide) hsource, getD_sourcePixel (by decide) hsource,
    getD_sourcePixel_last]
  rfl

/-- **One pixel.** -/
theorem returns_copyPixel {source : Int} {out : List UInt8} (hfit : out.length + 4 ≤ size)
    (post : List UInt8 → Prop) :
    Lib.Returns (copyPixel bgr biBitCount temp size source out) post ↔
      HasPixel (pixelSize biBitCount) temp.length source ∧
        post (out ++ shown bgr (sourcePixel (pixelSize biBitCount) temp source)) := by
  unfold copyPixel pixelSize
  by_cases hbits : biBitCount = 32
  · rw [if_pos hbits, if_pos hbits]
    simp only [Lib.returns_bind, returns_int, returns_bitmapByte, returns_putPixel]
    constructor
    · rintro ⟨⟨-, hfits⟩, h0, -, -, -, -, -, -, h3, -, hpost⟩
      have hsource : 0 ≤ source := by omega
      rw [shown_four hsource] at hpost
      exact ⟨⟨hsource, by omega, by omega⟩, hpost⟩
    · rintro ⟨⟨hsource, hfits, hinside⟩, hpost⟩
      rw [shown_four hsource, length_shown]
      exact ⟨⟨by omega, by omega⟩, by omega, by omega, by omega, by omega, by omega, by omega,
        by omega, by omega, hfit, hpost⟩
  · rw [if_neg hbits, if_neg hbits]
    simp only [Lib.returns_bind, returns_int, returns_bitmapByte, returns_putPixel]
    constructor
    · rintro ⟨⟨-, hfits⟩, h0, -, -, -, -, h2, -, hpost⟩
      have hsource : 0 ≤ source := by omega
      rw [shown_three hsource] at hpost
      exact ⟨⟨hsource, by omega, by omega⟩, hpost⟩
    · rintro ⟨⟨hsource, hfits, hinside⟩, hpost⟩
      rw [shown_three hsource, length_shown]
      exact ⟨⟨by omega, by omega⟩, by omega, by omega, by omega, by omega, by omega, by omega,
        hfit, hpost⟩

/-! ## The loops -/

theorem HasPixel.fitsInt {n len : Nat} {source : Int} (hn : 0 < n) (h : HasPixel n len source) :
    FitsInt source := by
  have hle : 1 * source ≤ n * source := Int.mul_le_mul_of_nonneg_right (by omega) h.nonneg
  have hfits := h.fits
  have hnonneg := h.nonneg
  exact ⟨by omega, by omega⟩

theorem pixelSize_pos (biBitCount : Int) : 0 < pixelSize biBitCount := by
  unfold pixelSize
  by_cases hbits : biBitCount = 32
  · rw [if_pos hbits]
    decide
  · rw [if_neg hbits]
    decide

theorem shiftRight_sixteen (step i : Int) :
    (i * step).shiftRight 16 = sampleAt 65536 step i :=
  Int.shiftRight_eq_div_pow (i * step) 16

/-- What is written of a row. -/
def rowOf (bgr : Bool) (n : Nat) (temp : List UInt8) (imageWidth sxinc ys : Int) : List UInt8 :=
  (List.range imageWidth.toNat).flatMap fun x : Nat =>
    shown bgr (sourcePixel n temp (sampleAt 65536 sxinc x + ys))

theorem length_rowOf (bgr : Bool) (n : Nat) (temp : List UInt8) (imageWidth sxinc ys : Int) :
    (rowOf bgr n temp imageWidth sxinc ys).length = 4 * imageWidth.toNat := by
  rw [rowOf, List.length_flatMap]
  simp only [length_shown, List.map_const', List.length_range, List.sum_replicate_nat]
  exact Nat.mul_comm _ _

/-- **One row.** -/
theorem returns_copyRow {imageWidth sxinc ys : Int} {out : List UInt8}
    (hsteps : ∀ x : ℕ, x < imageWidth.toNat → FitsInt (x * sxinc))
    (hfit : out.length + 4 * imageWidth.toNat ≤ size) (post : List UInt8 → Prop) :
    Lib.Returns (copyRow bgr biBitCount temp size imageWidth sxinc ys out) post ↔
      (∀ x ∈ List.range imageWidth.toNat, HasPixel (pixelSize biBitCount) temp.length
        (sampleAt 65536 sxinc x + ys)) ∧
      post (out ++ rowOf bgr (pixelSize biBitCount) temp imageWidth sxinc ys) := by
  have hfit' : out.length + 4 * (List.range imageWidth.toNat).length ≤ size := by
    rw [List.length_range]
    exact hfit
  refine returns_foldlM_append (fun x _ => length_shown _ _) (fun x hx out hout post => ?_)
    hfit' post
  rw [Lib.returns_bind, returns_int, and_iff_right (hsteps x (List.mem_range.mp hx)),
    shiftRight_sixteen, Lib.returns_bind, returns_int, returns_copyPixel hout, ← and_assoc,
    and_iff_right_of_imp (HasPixel.fitsInt (pixelSize_pos biBitCount))]

/-- What is written of all rows. -/
def rowsOf (bgr : Bool) (n : Nat) (temp : List UInt8) (width imageWidth imageHeight sxinc
    syinc : Int) : List UInt8 :=
  (List.range imageHeight.toNat).reverse.flatMap fun y : Nat =>
    rowOf bgr n temp imageWidth sxinc (sampleAt 65536 syinc y * width)

/-- **All rows.** -/
theorem returns_copyRows {header : GleshBitmapHeader} {imageWidth imageHeight sxinc syinc : Int}
    (hcolumns : ∀ x : ℕ, x < imageWidth.toNat → FitsInt (x * sxinc))
    (hrows : ∀ y : ℕ, y < imageHeight.toNat → FitsInt (y * syinc) ∧
      FitsInt (sampleAt 65536 syinc y * header.biWidth))
    (hfit : 4 * imageWidth.toNat * imageHeight.toNat ≤ size) (post : List UInt8 → Prop) :
    Lib.Returns (copyRows bgr header temp size imageWidth imageHeight sxinc syinc) post ↔
      (∀ y < imageHeight.toNat, ∀ x < imageWidth.toNat,
        HasPixel (pixelSize header.biBitCount) temp.length
          (sampleAt 65536 sxinc x + sampleAt 65536 syinc y * header.biWidth)) ∧
      post (rowsOf bgr (pixelSize header.biBitCount) temp header.biWidth imageWidth imageHeight
        sxinc syinc) := by
  have hfit' : ([] : List UInt8).length +
      4 * imageWidth.toNat * (List.range imageHeight.toNat).reverse.length ≤ size := by
    rw [List.length_reverse, List.length_range, List.length_nil, Nat.zero_add]
    exact hfit
  have hall := returns_foldlM_append
    (f := fun out (y : ℕ) => do
      let sy ← int (y * syinc)
      let ys ← int (sy.shiftRight 16 * header.biWidth)
      copyRow bgr header.biBitCount temp size imageWidth sxinc ys out)
    (fun y _ => length_rowOf bgr (pixelSize header.biBitCount) temp imageWidth sxinc
      (sampleAt 65536 syinc y * header.biWidth))
    (fun y hy out hout post => by
      obtain ⟨hstep, hrow⟩ := hrows y (List.mem_range.mp (List.mem_reverse.mp hy))
      rw [Lib.returns_bind, returns_int, and_iff_right hstep, shiftRight_sixteen,
        Lib.returns_bind, returns_int, and_iff_right hrow, returns_copyRow hcolumns hout])
    hfit' post
  rw [List.nil_append] at hall
  simp only [List.mem_reverse, List.mem_range] at hall
  exact hall

end

/-! ## What the steps lead to -/

/-- All `m` places of a row of `n` pixels get the first one. -/
def StaysFirst (n m : Int) : Prop := m = 1 ∨ n * 65536 < m

instance (n m : Int) : Decidable (StaysFirst n m) :=
  inferInstanceAs (Decidable (m = 1 ∨ n * 65536 < m))

/-- A bitmap of negative height that is scaled has its rows used upwards from the first; what
rounds off its step has to make up for the one that is missing. -/
def StaysAbove (n m : Int) : Prop := 65536 ≤ n * 65536 % m + n * 65536 / m

instance (n m : Int) : Decidable (StaysAbove n m) :=
  inferInstanceAs (Decidable (65536 ≤ n * 65536 % m + n * 65536 / m))

theorem unit_pos : (0 : Int) < 65536 := by decide

theorem staysFirst_iff {n m : Int} (hn : 0 < n) (hm : 0 < m) :
    StaysFirst n m ↔ 0 ≤ sampleAt 65536 (fixedStep 65536 (-n) m) (m - 1) :=
  (Lib.sampleAt_last_nonneg_iff unit_pos hn hm).symm

theorem staysAbove_iff {n m : Int} (hn : 0 < n) :
    StaysAbove n m ↔ -n < sampleAt 65536 (fixedStep 65536 (-n) m) (m - 1) :=
  (Lib.lt_sampleAt_last_iff unit_pos hn).symm

/-- A row of one pixel, or one whose places all get the first. -/
theorem one_or_staysFirst_iff {n m : Int} (hn : 0 < n) (hm : 0 < m) :
    n = 1 ∨ StaysFirst n m ↔ sampleAt 65536 (fixedStep 65536 n m) (m - 1) ≤ 0 :=
  (Lib.sampleAt_last_nonpos_iff unit_pos hn hm).symm

/-- What is copied is in the bitmap: nothing is, the bitmap has a positive width and height, or
one of them is negative, the image is scaled, and the steps do not leave the bitmap. -/
def StepsInside (width height imageWidth imageHeight : Int) : Prop :=
  imageWidth < 0 ∨ imageHeight < 0 ∨
    (0 < width ∧ (0 < height ∨ height < 0 ∧ StaysFirst (-height) imageHeight)) ∨
    (width < 0 ∧ StaysFirst (-width) imageWidth ∧
      (0 < height ∧ (height = 1 ∨ StaysFirst height imageHeight) ∨
        height < 0 ∧ StaysAbove (-height) imageHeight))

instance (width height imageWidth imageHeight : Int) :
    Decidable (StepsInside width height imageWidth imageHeight) :=
  inferInstanceAs (Decidable (imageWidth < 0 ∨ imageHeight < 0 ∨
    (0 < width ∧ (0 < height ∨ height < 0 ∧ StaysFirst (-height) imageHeight)) ∨
    (width < 0 ∧ StaysFirst (-width) imageWidth ∧
      (0 < height ∧ (height = 1 ∨ StaysFirst height imageHeight) ∨
        height < 0 ∧ StaysAbove (-height) imageHeight))))

/-- The pixels that the steps lead to are in `p_temp`. -/
def SourcesInside (n len : Nat) (width height imageWidth imageHeight : Int) : Prop :=
  ∀ y < imageHeight.toNat, ∀ x < imageWidth.toNat, HasPixel n len
    (sampleAt 65536 (fixedStep 65536 width imageWidth) x +
      sampleAt 65536 (fixedStep 65536 height imageHeight) y * width)

section

variable {n len : Nat} {width height imageWidth imageHeight : Int}

/-- The first pixel of the last row that is read. -/
theorem SourcesInside.lastRow (h : SourcesInside n len width height imageWidth imageHeight)
    (hcolumns : 0 < imageWidth) (hrows : 0 < imageHeight) : HasPixel n len
    (sampleAt 65536 (fixedStep 65536 height imageHeight) (imageHeight - 1) * width) := by
  have hlast : (((imageHeight - 1).toNat : ℕ) : Int) = imageHeight - 1 :=
    Int.toNat_of_nonneg (by omega)
  have hpixel := h (imageHeight - 1).toNat (by omega) 0 (by omega)
  rw [hlast, Int.natCast_zero, Lib.sampleAt_zero, Int.zero_add] at hpixel
  exact hpixel

/-- The last pixel of the first row. -/
theorem SourcesInside.lastColumn (h : SourcesInside n len width height imageWidth imageHeight)
    (hcolumns : 0 < imageWidth) (hrows : 0 < imageHeight) : HasPixel n len
    (sampleAt 65536 (fixedStep 65536 width imageWidth) (imageWidth - 1)) := by
  have hlast : (((imageWidth - 1).toNat : ℕ) : Int) = imageWidth - 1 :=
    Int.toNat_of_nonneg (by omega)
  have hpixel := h 0 (by omega) (imageWidth - 1).toNat (by omega)
  rw [hlast, Int.natCast_zero, Lib.sampleAt_zero, Int.zero_mul, Int.add_zero] at hpixel
  exact hpixel

theorem HasPixel.of_lt {source count : Int} (hn : 0 < n) (h0 : 0 ≤ source) (hlt : source < count)
    (hfits : n * count ≤ 2147483648) (hlen : n * count ≤ len) : HasPixel n len source := by
  have hle : (n : Int) * (source + 1) ≤ n * count :=
    Int.mul_le_mul_of_nonneg_left (by omega) (Int.natCast_nonneg n)
  rw [Int.mul_add, Int.mul_one] at hle
  exact ⟨h0, by omega, by omega⟩

/-- There is no pixel in no data. -/
theorem not_sourcesInside_zero (hn : 0 < n) (hcolumns : 0 < imageWidth) (hrows : 0 < imageHeight) :
    ¬SourcesInside n 0 width height imageWidth imageHeight := by
  intro h
  have hinside := (h.lastColumn hcolumns hrows).inside
  have hnonneg := (h.lastColumn hcolumns hrows).nonneg
  have hprod := Int.mul_nonneg (Int.natCast_nonneg n) hnonneg
  omega

/-- An upright bitmap has every pixel. -/
theorem sourcesInside_upright (hn : 0 < n) (hwidth : 0 < width) (hheight : 0 < height)
    (hdata : n * (height * width) ≤ 2147483648) (hlen : n * (height * width) ≤ len) :
    SourcesInside n len width height imageWidth imageHeight := by
  intro y hy x hx
  have hx' : (x : Int) < imageWidth := by omega
  have hy' : (y : Int) < imageHeight := by omega
  have hcolumn := Lib.sampleAt_lt unit_pos hwidth (Int.natCast_nonneg x) hx'
  have hcolumn0 := Lib.sampleAt_nonneg unit_pos (Int.le_of_lt hwidth) (Int.natCast_nonneg x) hx'
  have hrow := Lib.sampleAt_lt unit_pos hheight (Int.natCast_nonneg y) hy'
  have hrow0 := Lib.sampleAt_nonneg unit_pos (Int.le_of_lt hheight) (Int.natCast_nonneg y) hy'
  refine HasPixel.of_lt hn (Int.add_nonneg hcolumn0 (Int.mul_nonneg hrow0 (Int.le_of_lt hwidth)))
    ?_ hdata hlen
  calc
    _ < width + (height - 1) * width :=
      Int.add_lt_add_of_lt_of_le hcolumn
        (Int.mul_le_mul_of_nonneg_right (by omega) (Int.le_of_lt hwidth))
    _ = height * width := by rw [Int.sub_mul, Int.one_mul]; omega

/-- Where a bitmap goes down, the first row is the only one that is used. -/
theorem sourcesInside_oneRow_iff (hn : 0 < n) (hwidth : 0 < width) (hheight : 0 < height)
    (hcolumns : 0 < imageWidth) (hrows : 0 < imageHeight) (hdata : n * width ≤ 2147483648)
    (hlen : n * width ≤ len) :
    SourcesInside n len width (-height) imageWidth imageHeight ↔
      StaysFirst height imageHeight := by
  rw [staysFirst_iff hheight hrows]
  constructor
  · intro h
    exact Int.nonneg_of_mul_nonneg_left (h.lastRow hcolumns hrows).nonneg hwidth
  · intro h y hy x hx
    have hx' : (x : Int) < imageWidth := by omega
    have hy' : (y : Int) < imageHeight := by omega
    have hle := Lib.sampleAt_neg_nonpos unit_pos (Int.le_of_lt hheight) (Int.natCast_nonneg y) hy'
    have hge := Lib.sampleAt_neg_last_le unit_pos (Int.le_of_lt hheight) (Int.natCast_nonneg y) hy'
    have hcolumn := Lib.sampleAt_lt unit_pos hwidth (Int.natCast_nonneg x) hx'
    have hcolumn0 :=
      Lib.sampleAt_nonneg unit_pos (Int.le_of_lt hwidth) (Int.natCast_nonneg x) hx'
    rw [Int.le_antisymm hle (Int.le_trans h hge), Int.zero_mul, Int.add_zero]
    exact HasPixel.of_lt hn hcolumn0 hcolumn hdata hlen

/-- A bitmap of negative width has only its first column used. -/
theorem column_eq_zero (hwidth : 0 < width) (h : StaysFirst width imageWidth)
    (hcolumns : 0 < imageWidth) {x : ℕ} (hx : x < imageWidth.toNat) :
    sampleAt 65536 (fixedStep 65536 (-width) imageWidth) x = 0 := by
  have hx' : (x : Int) < imageWidth := by omega
  rw [staysFirst_iff hwidth hcolumns] at h
  exact Int.le_antisymm
    (Lib.sampleAt_neg_nonpos unit_pos (Int.le_of_lt hwidth) (Int.natCast_nonneg x) hx')
    (Int.le_trans h
      (Lib.sampleAt_neg_last_le unit_pos (Int.le_of_lt hwidth) (Int.natCast_nonneg x) hx'))

theorem SourcesInside.staysFirst (hwidth : 0 < width)
    (h : SourcesInside n len (-width) height imageWidth imageHeight) (hcolumns : 0 < imageWidth)
    (hrows : 0 < imageHeight) : StaysFirst width imageWidth := by
  rw [staysFirst_iff hwidth hcolumns]
  exact (h.lastColumn hcolumns hrows).nonneg

theorem sourcesInside_onePixel_iff (hn : 0 < n) (hwidth : 0 < width) (hheight : 0 < height)
    (hcolumns : 0 < imageWidth) (hrows : 0 < imageHeight) (hdata : n ≤ 2147483648)
    (hlen : n ≤ len) :
    SourcesInside n len (-width) height imageWidth imageHeight ↔
      StaysFirst width imageWidth ∧ (height = 1 ∨ StaysFirst height imageHeight) := by
  rw [one_or_staysFirst_iff hheight hrows]
  constructor
  · intro h
    refine ⟨h.staysFirst hwidth hcolumns hrows, ?_⟩
    have hnonneg := (h.lastRow hcolumns hrows).nonneg
    rw [Int.mul_neg, Int.neg_nonneg] at hnonneg
    exact Int.nonpos_of_mul_nonpos_left hnonneg hwidth
  · rintro ⟨hfirst, hlast⟩ y hy x hx
    have hy' : (y : Int) < imageHeight := by omega
    have hle := Lib.sampleAt_le_last unit_pos (Int.le_of_lt hheight)
      (Int.natCast_nonneg y) hy'
    have hge := Lib.sampleAt_nonneg unit_pos (Int.le_of_lt hheight)
      (Int.natCast_nonneg y) hy'
    rw [column_eq_zero hwidth hfirst hcolumns hx, Int.le_antisymm (Int.le_trans hle hlast) hge,
      Int.zero_mul, Int.add_zero]
    exact HasPixel.of_lt hn (Int.le_refl 0) Int.zero_lt_one (by omega) (by omega)

theorem sourcesInside_oneColumn_iff (hn : 0 < n) (hwidth : 0 < width) (hheight : 0 < height)
    (hcolumns : 0 < imageWidth) (hrows : 0 < imageHeight)
    (hdata : n * (height * width) ≤ 2147483648) (hlen : (len : Int) = n * (height * width)) :
    SourcesInside n len (-width) (-height) imageWidth imageHeight ↔
      StaysFirst width imageWidth ∧ StaysAbove height imageHeight := by
  rw [staysAbove_iff hheight]
  have hn' : (0 : Int) < n := by omega
  constructor
  · intro h
    refine ⟨h.staysFirst hwidth hcolumns hrows, ?_⟩
    have hinside := (h.lastRow hcolumns hrows).inside
    generalize sampleAt 65536 (fixedStep 65536 (-height) imageHeight) (imageHeight - 1) = row
      at hinside ⊢
    by_contra hnot
    have hmul : height * width ≤ row * -width := by
      have hle := Int.mul_le_mul_of_nonneg_right (show height ≤ -row by omega) (Int.le_of_lt hwidth)
      rw [Int.neg_mul] at hle
      rw [Int.mul_neg]
      exact hle
    have hscaled := Int.mul_le_mul_of_nonneg_left hmul (Int.le_of_lt hn')
    omega
  · rintro ⟨hfirst, hlast⟩ y hy x hx
    have hy' : (y : Int) < imageHeight := by omega
    have hle := Lib.sampleAt_neg_nonpos unit_pos (Int.le_of_lt hheight) (Int.natCast_nonneg y) hy'
    have hge := Lib.sampleAt_neg_last_le unit_pos (Int.le_of_lt hheight) (Int.natCast_nonneg y) hy'
    rw [column_eq_zero hwidth hfirst hcolumns hx, Int.zero_add]
    generalize sampleAt 65536 (fixedStep 65536 (-height) imageHeight) y = row at hle hge ⊢
    have hrow : row * -width = -row * width := by rw [Int.mul_neg, Int.neg_mul]
    rw [hrow]
    refine HasPixel.of_lt hn (Int.mul_nonneg (by omega) (Int.le_of_lt hwidth)) ?_ hdata
      (Int.le_of_eq hlen.symm)
    exact Int.mul_lt_mul_of_pos_right (by omega) hwidth

theorem sourcesInside_of_none (h : imageWidth ≤ 0 ∨ imageHeight ≤ 0) :
    SourcesInside n len width height imageWidth imageHeight := by
  intro y hy x hx
  omega

/-- `filedatalen` as it is computed. -/
theorem dataLength_eq {d : Int} (hdata : FitsInt d) :
    ((d % 4294967296).toNat : Int) = if 0 ≤ d then d else 4294967296 + d := by
  obtain ⟨hlow, hhigh⟩ := hdata
  by_cases h : 0 ≤ d
  · rw [if_pos h]
    omega
  · rw [if_neg h]
    omega

section

variable (hcolumns : 0 < imageWidth) (hrows : 0 < imageHeight)

include hcolumns hrows

theorem stepsInside_pos (hwidth : 0 < width) :
    StepsInside width height imageWidth imageHeight ↔
      0 < height ∨ height < 0 ∧ StaysFirst (-height) imageHeight := by
  have hneg : ¬width < 0 := Int.not_lt.mpr (Int.le_of_lt hwidth)
  rw [StepsInside, or_iff_right (Int.not_lt.mpr (Int.le_of_lt hcolumns)),
    or_iff_right (Int.not_lt.mpr (Int.le_of_lt hrows)), or_iff_left fun h => hneg h.1,
    and_iff_right hwidth]

theorem stepsInside_neg (hwidth : width < 0) :
    StepsInside width height imageWidth imageHeight ↔ StaysFirst (-width) imageWidth ∧
      (0 < height ∧ (height = 1 ∨ StaysFirst height imageHeight) ∨
        height < 0 ∧ StaysAbove (-height) imageHeight) := by
  have hpos : ¬0 < width := Int.not_lt.mpr (Int.le_of_lt hwidth)
  rw [StepsInside, or_iff_right (Int.not_lt.mpr (Int.le_of_lt hcolumns)),
    or_iff_right (Int.not_lt.mpr (Int.le_of_lt hrows)), or_iff_right fun h => hpos h.1,
    and_iff_right hwidth]

theorem not_stepsInside_zero : ¬StepsInside 0 height imageWidth imageHeight := by
  rw [StepsInside, or_iff_right (Int.not_lt.mpr (Int.le_of_lt hcolumns)),
    or_iff_right (Int.not_lt.mpr (Int.le_of_lt hrows))]
  exact fun h => h.elim (fun h => absurd h.1 (by decide)) fun h => absurd h.1 (by decide)

/-- A bitmap of positive width. -/
theorem sourcesInside_pos_iff (hn : 0 < n) (hwidth : 0 < width)
    (hdata : FitsInt (width * height * n)) :
    SourcesInside n (width * height * n % 4294967296).toNat width height imageWidth imageHeight ↔
      0 < height ∨ height < 0 ∧ StaysFirst (-height) imageHeight := by
  have hlen := dataLength_eq hdata
  obtain ⟨hlow, hhigh⟩ := hdata
  generalize (width * height * n % 4294967296).toNat = len at hlen ⊢
  rcases Int.lt_trichotomy height 0 with hheight | hheight | hheight
  · obtain ⟨b, rfl⟩ : ∃ b, height = -b := ⟨-height, (Int.neg_neg height).symm⟩
    have hb : 0 < b := by omega
    have hprod : width * -b * n = -(n * (b * width)) := by ring
    have hle : 1 * width ≤ b * width := Int.mul_le_mul_of_nonneg_right hb (Int.le_of_lt hwidth)
    have hscaled : n * (1 * width) ≤ n * (b * width) :=
      Int.mul_le_mul_of_nonneg_left hle (Int.natCast_nonneg n)
    have hpos : 0 < n * (1 * width) := Int.mul_pos (by omega) (by omega)
    rw [Int.one_mul] at hscaled hpos
    rw [hprod] at hlen hlow
    rw [if_neg (by omega)] at hlen
    rw [sourcesInside_oneRow_iff hn hwidth hb hcolumns hrows (by omega) (by omega), Int.neg_neg,
      or_iff_right (by omega), and_iff_right hheight]
  · subst hheight
    rw [Int.mul_zero, Int.zero_mul, if_pos (Int.le_refl 0)] at hlen
    rw [Int.natCast_eq_zero.mp hlen]
    exact iff_of_false (not_sourcesInside_zero hn hcolumns hrows)
      fun h => h.elim (fun h => absurd h (by decide)) fun h => absurd h.1 (by decide)
  · have hprod : width * height * n = n * (height * width) := by ring
    have hpos : 0 < n * (height * width) := Int.mul_pos (by omega) (Int.mul_pos hheight hwidth)
    rw [hprod] at hlen hhigh
    rw [if_pos (by omega)] at hlen
    exact iff_of_true (sourcesInside_upright hn hwidth hheight (by omega) (by omega)) (.inl hheight)

/-- A bitmap of negative width. -/
theorem sourcesInside_neg_iff (hn : 0 < n) (hwidth : 0 < width)
    (hdata : FitsInt (-width * height * n)) :
    SourcesInside n (-width * height * n % 4294967296).toNat (-width) height imageWidth
        imageHeight ↔
      StaysFirst width imageWidth ∧
        (0 < height ∧ (height = 1 ∨ StaysFirst height imageHeight) ∨
          height < 0 ∧ StaysAbove (-height) imageHeight) := by
  have hlen := dataLength_eq hdata
  obtain ⟨hlow, hhigh⟩ := hdata
  generalize (-width * height * n % 4294967296).toNat = len at hlen ⊢
  rcases Int.lt_trichotomy height 0 with hheight | hheight | hheight
  · obtain ⟨b, rfl⟩ : ∃ b, height = -b := ⟨-height, (Int.neg_neg height).symm⟩
    have hb : 0 < b := by omega
    have hprod : -width * -b * n = n * (b * width) := by ring
    have hpos : 0 < n * (b * width) := Int.mul_pos (by omega) (Int.mul_pos hb hwidth)
    rw [hprod] at hlen hhigh
    rw [if_pos (by omega)] at hlen
    rw [sourcesInside_oneColumn_iff hn hwidth hb hcolumns hrows (by omega) hlen, Int.neg_neg,
      or_iff_right (by omega), and_iff_right hheight]
  · subst hheight
    rw [Int.mul_zero, Int.zero_mul, if_pos (Int.le_refl 0)] at hlen
    rw [Int.natCast_eq_zero.mp hlen]
    refine iff_of_false (not_sourcesInside_zero hn hcolumns hrows) fun h => ?_
    exact h.2.elim (fun h => absurd h.1 (by decide)) fun h => absurd h.1 (by decide)
  · have hprod : -width * height * n = -(n * (height * width)) := by ring
    have hle : 1 ≤ height * width := Int.mul_pos hheight hwidth
    have hscaled : n * 1 ≤ n * (height * width) :=
      Int.mul_le_mul_of_nonneg_left hle (Int.natCast_nonneg n)
    have hneg : ¬(height < 0 ∧ StaysAbove (-height) imageHeight) :=
      fun h => absurd h.1 (by omega)
    rw [hprod] at hlen hlow
    rw [if_neg (by omega)] at hlen
    rw [sourcesInside_onePixel_iff hn hwidth hheight hcolumns hrows (by omega) (by omega),
      and_iff_right hheight, or_iff_left hneg]

end

/-- **What the steps lead to** is in the bitmap exactly as `StepsInside` says. -/
theorem sourcesInside_iff (hn : 0 < n) (hdata : FitsInt (width * height * n))
    (hcolumns : imageWidth ≠ 0) (hrows : imageHeight ≠ 0) :
    SourcesInside n (width * height * n % 4294967296).toNat width height imageWidth imageHeight ↔
      StepsInside width height imageWidth imageHeight := by
  by_cases hnone : imageWidth < 0 ∨ imageHeight < 0
  · refine iff_of_true (sourcesInside_of_none (by omega)) ?_
    exact hnone.elim .inl fun h => .inr (.inl h)
  · have hcolumns' : 0 < imageWidth := by omega
    have hrows' : 0 < imageHeight := by omega
    rcases Int.lt_trichotomy width 0 with hwidth | hwidth | hwidth
    · obtain ⟨a, rfl⟩ : ∃ a, width = -a := ⟨-width, (Int.neg_neg width).symm⟩
      rw [sourcesInside_neg_iff hcolumns' hrows' hn (by omega) hdata,
        stepsInside_neg hcolumns' hrows' hwidth, Int.neg_neg]
    · rw [hwidth, Int.zero_mul, Int.zero_mul]
      exact iff_of_false (not_sourcesInside_zero hn hcolumns' hrows')
        (not_stepsInside_zero hcolumns' hrows')
    · rw [sourcesInside_pos_iff hcolumns' hrows' hn hwidth hdata,
        stepsInside_pos hcolumns' hrows' hwidth]

end

/-! ## The image -/

/-- The steps are computed and stay in the bitmap. -/
structure CopyFits (width height imageWidth imageHeight : Int) : Prop where
  imageWidth_ne : imageWidth ≠ 0
  imageHeight_ne : imageHeight ≠ 0
  width_fits : FitsInt (width * 65536)
  height_fits : FitsInt (height * 65536)
  inside : StepsInside width height imageWidth imageHeight

section

variable {width height imageWidth imageHeight : Int}

/-- A step fits: it is zero at least for an image as large as the bitmap, which may be negative. -/
theorem fitsInt_fixedStep (hown : 0 < imageWidth ∨ imageWidth = width) (hne : imageWidth ≠ 0)
    (hfits : FitsInt (width * 65536)) : FitsInt ((width * 65536).tdiv imageWidth) := by
  rcases hown with hpos | rfl
  · obtain ⟨hlow, hhigh⟩ := Lib.fixedStep_bounds (n := width) (Int.le_of_lt unit_pos) hpos
    obtain ⟨hlow', hhigh'⟩ := hfits
    have hstep : (width * 65536).tdiv imageWidth = fixedStep 65536 width imageWidth := rfl
    rw [hstep]
    exact ⟨by omega, by omega⟩
  · have hstep : (imageWidth * 65536).tdiv imageWidth = 65536 := Lib.fixedStep_self 65536 hne
    rw [hstep]
    decide

theorem fitsInt_place (hfits : FitsInt (width * 65536)) {x : ℕ} (hx : x < imageWidth.toNat) :
    FitsInt (x * fixedStep 65536 width imageWidth) := by
  obtain ⟨hlow, hhigh⟩ := Lib.mul_fixedStep_bounds (n := width) (i := x) (m := imageWidth)
    (Int.le_of_lt unit_pos) (Int.natCast_nonneg x) (by omega)
  obtain ⟨hlow', hhigh'⟩ := hfits
  exact ⟨by omega, by omega⟩

/-- A number is no more than its multiples. -/
theorem abs_le_abs_mul {a b : Int} (ha : a ≠ 0) : |b| ≤ |a * b| := by
  have hle := Int.mul_le_mul_of_nonneg_right (Int.one_le_abs ha) (abs_nonneg b)
  rw [Int.one_mul, ← abs_mul] at hle
  exact hle

theorem fitsInt_last (hne : imageWidth ≠ 0) (hsize : FitsInt (imageWidth * imageHeight * 4)) :
    FitsInt (imageHeight - 1) := by
  have hle : |imageHeight| ≤ |imageWidth * imageHeight| := abs_le_abs_mul hne
  obtain ⟨hlow, hhigh⟩ := hsize
  have habs : |imageWidth * imageHeight| ≤ 536870912 := abs_le.mpr ⟨by omega, by omega⟩
  obtain ⟨hlow', hhigh'⟩ := abs_le.mp (Int.le_trans hle habs)
  exact ⟨by omega, by omega⟩

theorem fitsInt_rowStart {n : ℕ} (hn : 3 ≤ n) (hdata : FitsInt (width * height * n)) {y : ℕ}
    (hy : y < imageHeight.toNat) :
    FitsInt (sampleAt 65536 (fixedStep 65536 height imageHeight) y * width) := by
  obtain ⟨hlow, hhigh⟩ := Lib.sampleAt_bounds (n := height) (i := y) (m := imageHeight) unit_pos
    (Int.natCast_nonneg y) (by omega)
  have hrow : |sampleAt 65536 (fixedStep 65536 height imageHeight) y| ≤ |height| := by
    have hneg := neg_abs_le height
    have hpos := le_abs_self height
    exact abs_le.mpr ⟨by omega, by omega⟩
  have harea : |width * height| * 3 ≤ 2147483648 := by
    obtain ⟨hlow', hhigh'⟩ := hdata
    have hscaled : |width * height| * 3 ≤ |width * height| * n :=
      Int.mul_le_mul_of_nonneg_left (by omega) (abs_nonneg _)
    have habs : |width * height| * n = |width * height * n| := by
      rw [abs_mul (width * height), Nat.abs_cast]
    rw [habs] at hscaled
    exact Int.le_trans hscaled (abs_le.mpr ⟨by omega, by omega⟩)
  have hstart : |sampleAt 65536 (fixedStep 65536 height imageHeight) y * width| ≤
      |width * height| := by
    rw [abs_mul, abs_mul, Int.mul_comm |width|]
    exact Int.mul_le_mul_of_nonneg_right hrow (abs_nonneg width)
  obtain ⟨hlow', hhigh'⟩ := abs_le.mp hstart
  exact ⟨by omega, by omega⟩

theorem image_fits (imageWidth imageHeight : Int) :
    4 * imageWidth.toNat * imageHeight.toNat ≤ (imageWidth * imageHeight * 4).toNat := by
  rcases Int.le_total imageWidth 0 with h | h
  · rw [Int.toNat_of_nonpos h, Nat.mul_zero, Nat.zero_mul]
    exact Nat.zero_le _
  · rcases Int.le_total imageHeight 0 with h' | h'
    · rw [Int.toNat_of_nonpos h', Nat.mul_zero]
      exact Nat.zero_le _
    · obtain ⟨a, rfl⟩ := Int.eq_ofNat_of_zero_le h
      obtain ⟨b, rfl⟩ := Int.eq_ofNat_of_zero_le h'
      have hcast : (a : Int) * b * 4 = (4 * a * b : ℕ) := by
        push_cast
        ring
      rw [hcast, Int.toNat_natCast, Int.toNat_natCast, Int.toNat_natCast]

theorem three_le_pixelSize (biBitCount : Int) : 3 ≤ pixelSize biBitCount := by
  unfold pixelSize
  by_cases hbits : biBitCount = 32
  · rw [if_pos hbits]
    decide
  · rw [if_neg hbits]

/-- What is written of a bitmap. -/
def imageOf (bgr : Bool) (header : GleshBitmapHeader) (temp : List UInt8)
    (imageWidth imageHeight : Int) : List UInt8 :=
  rowsOf bgr (pixelSize header.biBitCount) temp header.biWidth imageWidth imageHeight
    (fixedStep 65536 header.biWidth imageWidth) (fixedStep 65536 header.biHeight imageHeight)

/-- **The image** is copied if the steps stay in the bitmap. -/
theorem returns_copyImage {bgr : Bool} {header : GleshBitmapHeader} {temp : List UInt8}
    (hown : 0 < imageWidth ∨ imageWidth = header.biWidth)
    (hown' : 0 < imageHeight ∨ imageHeight = header.biHeight)
    (hsize : FitsInt (imageWidth * imageHeight * 4))
    (hdata : FitsInt (header.biWidth * header.biHeight * pixelSize header.biBitCount))
    (hlen : temp.length = (header.biWidth * header.biHeight * pixelSize header.biBitCount %
      4294967296).toNat) (post : List UInt8 → Prop) :
    Lib.Returns (copyImage bgr header temp (imageWidth * imageHeight * 4).toNat imageWidth
        imageHeight) post ↔
      CopyFits header.biWidth header.biHeight imageWidth imageHeight ∧
        post (imageOf bgr header temp imageWidth imageHeight) := by
  have hrest : imageWidth ≠ 0 → imageHeight ≠ 0 → FitsInt (header.biWidth * 65536) →
      FitsInt (header.biHeight * 65536) → ∀ post : List UInt8 → Prop,
      (Lib.Returns (copyRows bgr header temp (imageWidth * imageHeight * 4).toNat imageWidth
          imageHeight (fixedStep 65536 header.biWidth imageWidth)
          (fixedStep 65536 header.biHeight imageHeight)) post ↔
        StepsInside header.biWidth header.biHeight imageWidth imageHeight ∧
          post (imageOf bgr header temp imageWidth imageHeight)) := by
    intro hne hne' hwidth hheight post
    rw [returns_copyRows (fun x hx => fitsInt_place hwidth hx)
      (fun y hy => ⟨fitsInt_place hheight hy,
        fitsInt_rowStart (three_le_pixelSize header.biBitCount) hdata hy⟩)
      (image_fits imageWidth imageHeight), hlen,
      ← sourcesInside_iff (pixelSize_pos header.biBitCount) hdata hne hne']
    rfl
  unfold copyImage
  simp only [Lib.returns_bind, returns_int, returns_divide]
  constructor
  · rintro ⟨hwidth, hne, -, hheight, hne', -, -, h⟩
    obtain ⟨hinside, hpost⟩ := (hrest hne hne' hwidth hheight post).mp h
    exact ⟨⟨hne, hne', hwidth, hheight, hinside⟩, hpost⟩
  · rintro ⟨hfits, hpost⟩
    exact ⟨hfits.width_fits, hfits.imageWidth_ne,
      fitsInt_fixedStep hown hfits.imageWidth_ne hfits.width_fits, hfits.height_fits,
      hfits.imageHeight_ne, fitsInt_fixedStep hown' hfits.imageHeight_ne hfits.height_fits,
      fitsInt_last hfits.imageWidth_ne hsize,
      (hrest hfits.imageWidth_ne hfits.imageHeight_ne hfits.width_fits hfits.height_fits post).mpr
        ⟨hfits.inside, hpost⟩⟩

end

/-! ## The whole function -/

/-- `filedatalen`. -/
def dataLength (header : GleshBitmapHeader) : Nat :=
  (header.biWidth * header.biHeight * pixelSize header.biBitCount % 4294967296).toNat

/-- There is memory, and the file has all the data that is asked for. -/
def Loaded (memory : BitmapMemory) (bytes : List UInt8) (header : GleshBitmapHeader)
    (position : Nat) : Prop :=
  memory.data = true ∧ memory.temp = true ∧ dataLength header ≤ (bytes.drop position).length

instance (memory : BitmapMemory) (bytes : List UInt8) (header : GleshBitmapHeader)
    (position : Nat) : Decidable (Loaded memory bytes header position) :=
  inferInstanceAs (Decidable (memory.data = true ∧ memory.temp = true ∧
    dataLength header ≤ (bytes.drop position).length))

/-- What has to fit until the function returns. -/
structure ReadFits (memory : BitmapMemory) (bytes : List UInt8) (header : GleshBitmapHeader)
    (position : Nat) (scaleW scaleH : Int) : Prop where
  image : FitsInt (imageSize scaleW header.biWidth * imageSize scaleH header.biHeight * 4)
  data : memory.data = true →
    FitsInt (header.biWidth * header.biHeight * pixelSize header.biBitCount)
  copy : Loaded memory bytes header position → CopyFits header.biWidth header.biHeight
    (imageSize scaleW header.biWidth) (imageSize scaleH header.biHeight)

/-- What is returned. -/
def bitmapOf (bgr : Bool) (bytes : List UInt8) (header : GleshBitmapHeader) (position : Nat)
    (scaleW scaleH : Int) : Bitmap where
  header :=
    { header with
      biWidth := imageSize scaleW header.biWidth
      biHeight := imageSize scaleH header.biHeight }
  pixels := imageOf bgr header ((bytes.drop position).take (dataLength header))
    (imageSize scaleW header.biWidth) (imageSize scaleH header.biHeight)

theorem imageSize_own {scale size : Int} (h : 0 ≤ scale) :
    0 < imageSize scale size ∨ imageSize scale size = size := by
  unfold imageSize
  by_cases hscale : scale ≠ 0
  · rw [if_pos hscale]
    exact .inl (by omega)
  · rw [if_neg hscale]
    exact .inr rfl

theorem fitsInt_of_scaled {a : Int} (biBitCount : Int) (h : FitsInt (a * pixelSize biBitCount)) :
    FitsInt a := by
  obtain ⟨hlow, hhigh⟩ := h
  unfold pixelSize at hlow hhigh
  by_cases hbits : biBitCount = 32
  · rw [if_pos hbits] at hlow hhigh
    exact ⟨by omega, by omega⟩
  · rw [if_neg hbits] at hlow hhigh
    exact ⟨by omega, by omega⟩

section

variable {memory : BitmapMemory} {bgr : Bool} {scaleW scaleH : Int}

variable {bytes : List UInt8} {header : GleshBitmapHeader} {position : Nat}

/-- The data is asked for once its length is known. -/
theorem returns_loadImage (hdata : memory.data = true) (hw : 0 ≤ scaleW) (hh : 0 ≤ scaleH)
    (himage : FitsInt (imageSize scaleW header.biWidth * imageSize scaleH header.biHeight * 4))
    (hlen : FitsInt (header.biWidth * header.biHeight * pixelSize header.biBitCount))
    (post : Option Bitmap → Prop) :
    Lib.Returns (loadImage memory bytes position (dataLength header) bgr header
        (imageSize scaleW header.biWidth * imageSize scaleH header.biHeight * 4).toNat
        (imageSize scaleW header.biWidth) (imageSize scaleH header.biHeight)) post ↔
      (Loaded memory bytes header position → CopyFits header.biWidth header.biHeight
        (imageSize scaleW header.biWidth) (imageSize scaleH header.biHeight)) ∧
      post (if Loaded memory bytes header position then
        some (bitmapOf bgr bytes header position scaleW scaleH) else none) := by
  have htaken : ((bytes.drop position).take (dataLength header)).length = dataLength header ↔
      dataLength header ≤ (bytes.drop position).length := by
    rw [List.length_take]
    omega
  unfold loadImage
  by_cases hloaded : Loaded memory bytes header position
  · obtain ⟨-, htemp, hbytes⟩ := hloaded
    have hlength := htaken.mpr hbytes
    rw [if_neg (by rw [htemp]; decide), if_neg fun h => h hlength, Lib.returns_bind,
      returns_copyImage (imageSize_own hw) (imageSize_own hh) himage hlen hlength,
      if_pos ⟨hdata, htemp, hbytes⟩, Lib.returns_ok]
    exact and_congr_left fun _ => ⟨fun h _ => h, fun h => h ⟨hdata, htemp, hbytes⟩⟩
  · rw [if_neg hloaded, and_iff_right fun h => absurd h hloaded]
    by_cases htemp : memory.temp = false
    · rw [if_pos htemp, Lib.returns_ok]
    · rw [Bool.not_eq_false] at htemp
      have hshort : ((bytes.drop position).take (dataLength header)).length ≠ dataLength header :=
        fun h => hloaded ⟨hdata, htemp, htaken.mp h⟩
      rw [if_neg (by rw [htemp]; decide), if_pos hshort, Lib.returns_ok]

/-- **Reading a bitmap** whose header is there. -/
theorem returns_readBitmap (hheader : readHeader bytes = some (header, position))
    (hw : 0 ≤ scaleW) (hh : 0 ≤ scaleH) (post : Option Bitmap → Prop) :
    Lib.Returns (gleshReadBitmap memory (some bytes) bgr scaleW scaleH) post ↔
      ReadFits memory bytes header position scaleW scaleH ∧
        post (if Loaded memory bytes header position then
          some (bitmapOf bgr bytes header position scaleW scaleH) else none) := by
  have hsize : ∀ {a : Int}, FitsInt (a * 4) → FitsInt a :=
    fun ⟨hlow, hhigh⟩ => ⟨by omega, by omega⟩
  simp only [gleshReadBitmap, hheader, Lib.returns_bind, returns_int]
  rw [← and_assoc, and_iff_right_of_imp hsize]
  cases hdata : memory.data with
  | false =>
      have hnot : ¬memory.data = true := fun h => absurd (hdata.symm.trans h) Bool.false_ne_true
      have hnotLoaded : ¬Loaded memory bytes header position := fun h => hnot h.1
      rw [if_pos rfl, Lib.returns_ok, if_neg hnotLoaded]
      refine and_congr_left fun _ => ⟨fun h => ?_, fun h => h.image⟩
      exact ⟨h, fun h' => absurd h' hnot, fun h' => absurd h' hnotLoaded⟩
  | true =>
      rw [if_neg (by decide), Lib.returns_bind, returns_int, Lib.returns_bind, returns_int]
      constructor
      · rintro ⟨himage, -, hlen, h⟩
        obtain ⟨hcopy, hpost⟩ := (returns_loadImage hdata hw hh himage hlen post).mp h
        exact ⟨⟨himage, fun _ => hlen, hcopy⟩, hpost⟩
      · rintro ⟨h, hpost⟩
        have hlen := h.data hdata
        exact ⟨h.image, fitsInt_of_scaled _ hlen, hlen,
          (returns_loadImage hdata hw hh h.image hlen post).mpr ⟨h.copy, hpost⟩⟩

end

end Blts.Gles
