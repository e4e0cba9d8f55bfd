import Blts.Gles.ReadBitmap

/-!
# Pictures in bitmaps

A bitmap that is not compressed has the rows of its picture from the last to the first, each
padded to a multiple of four bytes.  `glesh_read_bitmap` takes the rows one right after the other,
from the place where the file has been left: it returns the picture exactly if every byte of the
rows is found there (`readsBitmap_iff`), as it is where there is no padding
(`rowsFound_of_unpadded`).
-/

namespace Blts.Gles

open Blts.Lib (leValue)

/-! ## Pictures -/

structure Pixel where
  blue : UInt8
  green : UInt8
  red : UInt8
  alpha : UInt8

/-- A picture with 24 bits for a pixel, or with 32.  Rows count from the top. -/
structure Picture where
  width : Nat
  height : Nat
  hasAlpha : Bool
  pixel : Nat → Nat → Pixel

namespace Picture

def bitCount (p : Picture) : Int := if p.hasAlpha then 32 else 24

def pixelBytes (p : Picture) : Nat := if p.hasAlpha then 4 else 3

/-- The bytes of a pixel in the file. -/
def stored (p : Picture) (row col : Nat) : List UInt8 :=
  let x := p.pixel row col
  if p.hasAlpha then [x.blue, x.green, x.red, x.alpha] else [x.blue, x.green, x.red]

/-- The bytes of a pixel in memory, without transparency where there is none. -/
def texel (p : Picture) (bgr : Bool) (row col : Nat) : List UInt8 :=
  let x := p.pixel row col
  let alpha := if p.hasAlpha then x.alpha else 0
  if bgr then [x.red, x.green, x.blue, alpha] else [x.blue, x.green, x.red, alpha]

/-- The picture in memory, the top row first. -/
def texels (p : Picture) (bgr : Bool) : List UInt8 :=
  (List.range p.height).flatMap fun row => (List.range p.width).flatMap fun col =>
    p.texel bgr row col

/-- The bytes of a row in the file. -/
def stride (p : Picture) : Nat := (p.width * p.pixelBytes + 3) / 4 * 4

end Picture

/-- Where the file says that its data starts. -/
def dataOffset (bytes : List UInt8) : Nat := leValue ((bytes.drop 10).take 4)

/-- The bitmap of a picture: a header of a version that this one begins, and the rows at the
offset. -/
structure IsBitmap (bytes : List UInt8) (p : Picture) : Prop where
  signature : bytes.take 2 = [66, 77]
  header : 40 ≤ (headerOf ((bytes.drop 14).take 40)).biSize
  planes : (headerOf ((bytes.drop 14).take 40)).biPlanes = 1
  compression : (headerOf ((bytes.drop 14).take 40)).biCompression = 0
  bitCount : (headerOf ((bytes.drop 14).take 40)).biBitCount = p.bitCount
  width : (headerOf ((bytes.drop 14).take 40)).biWidth = p.width
  height : (headerOf ((bytes.drop 14).take 40)).biHeight = p.height
  width_pos : 0 < p.width
  height_pos : 0 < p.height
  offset : 14 + (headerOf ((bytes.drop 14).take 40)).biSize ≤ dataOffset bytes
  length : dataOffset bytes + p.stride * p.height ≤ bytes.length
  rows : ∀ row < p.height, ∀ col < p.width,
    (bytes.drop (dataOffset bytes + p.stride * (p.height - 1 - row) + p.pixelBytes * col)).take
      p.pixelBytes = p.stored row col

/-! ## Bytes of a pixel -/

section

variable {p : Picture} {bgr : Bool}

theorem pixelSize_bitCount (p : Picture) : pixelSize p.bitCount = p.pixelBytes := by
  unfold pixelSize Picture.bitCount Picture.pixelBytes
  cases p.hasAlpha <;> rfl

theorem texel_eq (p : Picture) (bgr : Bool) (row col : Nat) :
    p.texel bgr row col = shown bgr (p.stored row col) := by
  unfold Picture.texel Picture.stored
  cases p.hasAlpha <;> cases bgr <;> rfl

theorem length_stored (p : Picture) (row col : Nat) :
    (p.stored row col).length = p.pixelBytes := by
  unfold Picture.stored Picture.pixelBytes
  cases p.hasAlpha <;> rfl

theorem Picture.pixelBytes_pos (p : Picture) : 0 < p.pixelBytes := by
  unfold Picture.pixelBytes
  cases p.hasAlpha <;> decide

theorem pixelBytes_le (p : Picture) : p.pixelBytes ≤ 4 := by
  unfold Picture.pixelBytes
  cases p.hasAlpha <;> decide

/-- What is shown tells the bytes of a pixel. -/
theorem shown_injective {a b : List UInt8} (hlen : a.length = b.length) (hle : a.length ≤ 4)
    (h : shown bgr a = shown bgr b) : a = b := by
  have hget : ∀ k < 4, a.getD k 0 = b.getD k 0 := by
    intro k hk
    have hall : a.getD 0 0 = b.getD 0 0 ∧ a.getD 1 0 = b.getD 1 0 ∧ a.getD 2 0 = b.getD 2 0 ∧
        a.getD 3 0 = b.getD 3 0 := by
      cases bgr
      · simp only [shown, Bool.false_eq_true, if_false, List.cons.injEq] at h
        exact ⟨h.1, h.2.1, h.2.2.1, h.2.2.2.1⟩
      · simp only [shown, if_true, List.cons.injEq] at h
        exact ⟨h.2.2.1, h.2.1, h.1, h.2.2.2.1⟩
    obtain rfl | rfl | rfl | rfl : k = 0 ∨ k = 1 ∨ k = 2 ∨ k = 3 := by omega
    · exact hall.1
    · exact hall.2.1
    · exact hall.2.2.1
    · exact hall.2.2.2
  refine List.ext_getElem hlen fun k hk hk' => ?_
  have hbyte := hget k (Nat.lt_of_lt_of_le hk hle)
  rw [List.getD_eq_getElem?_getD, List.getD_eq_getElem?_getD, List.getElem?_eq_getElem hk,
    List.getElem?_eq_getElem hk'] at hbyte
  exact hbyte

/-- Blocks of equal lengths. -/
theorem flatMap_eq_flatMap_iff {α β : Type} {f g : α → List β} {l : List α}
    (h : ∀ a ∈ l, (f a).length = (g a).length) :
    l.flatMap f = l.flatMap g ↔ ∀ a ∈ l, f a = g a := by
  induction l with
  | nil => exact iff_of_true rfl (List.forall_mem_nil _)
  | cons a l ih =>
      obtain ⟨hhead, htail⟩ := List.forall_mem_cons.mp h
      rw [List.flatMap_cons, List.flatMap_cons, List.forall_mem_cons, ← ih htail]
      exact ⟨fun heq => List.append_inj heq hhead, fun heq => by rw [heq.1, heq.2]⟩

/-- Equal blocks of a file, byte by byte. -/
theorem take_drop_eq_iff {bytes : List UInt8} {a b n : Nat} :
    (bytes.drop a).take n = (bytes.drop b).take n ↔ ∀ j < n, bytes[a + j]? = bytes[b + j]? := by
  constructor
  · intro h j hj
    have hget := congrArg (fun l => l[j]?) h
    simp only [List.getElem?_take_of_lt hj, List.getElem?_drop] at hget
    exact hget
  · intro h
    refine List.ext_getElem? fun j => ?_
    by_cases hj : j < n
    · rw [List.getElem?_take_of_lt hj, List.getElem?_take_of_lt hj, List.getElem?_drop,
        List.getElem?_drop]
      exact h j hj
    · rw [List.getElem?_take_eq_none (Nat.not_lt.mp hj),
        List.getElem?_take_eq_none (Nat.not_lt.mp hj)]

end

/-! ## Where the rows are looked for -/

/-- Every byte of the rows is found where they follow one another from `position` on. -/
def RowsFound (bytes : List UInt8) (p : Picture) (position : Nat) : Prop :=
  ∀ y < p.height, ∀ i < p.pixelBytes * p.width,
    bytes[position + p.pixelBytes * p.width * y + i]? =
      bytes[dataOffset bytes + p.stride * y + i]?

section

variable {bytes : List UInt8} {p : Picture} {bgr : Bool} {position : Nat}

/-- The rows are found if their pixels are. -/
theorem rowsFound_iff : RowsFound bytes p position ↔ ∀ y < p.height, ∀ x < p.width,
    (bytes.drop (position + p.pixelBytes * (x + y * p.width))).take p.pixelBytes =
      (bytes.drop (dataOffset bytes + p.stride * y + p.pixelBytes * x)).take p.pixelBytes := by
  have hplace : ∀ x y j : ℕ, position + p.pixelBytes * (x + y * p.width) + j =
      position + p.pixelBytes * p.width * y + (p.pixelBytes * x + j) := fun x y j => by ring
  simp only [take_drop_eq_iff]
  constructor
  · intro h y hy x hx j hj
    have hlt : p.pixelBytes * x + j < p.pixelBytes * p.width := by
      have hle := Nat.mul_le_mul_left p.pixelBytes (Nat.succ_le_of_lt hx)
      rw [Nat.mul_succ] at hle
      omega
    rw [hplace, Nat.add_assoc _ (p.pixelBytes * x) j]
    exact h y hy _ hlt
  · intro h y hy i hi
    have hbyte := h y hy (i / p.pixelBytes) (Nat.div_lt_of_lt_mul hi) (i % p.pixelBytes)
      (Nat.mod_lt _ p.pixelBytes_pos)
    rw [hplace, Nat.add_assoc _ (p.pixelBytes * (i / p.pixelBytes)), Nat.div_add_mod] at hbyte
    exact hbyte

/-- The rows of a picture without padding are found at its offset. -/
theorem rowsFound_of_unpadded (h : p.stride = p.pixelBytes * p.width ∨ p.height = 1) :
    RowsFound bytes p (dataOffset bytes) := by
  intro y hy i hi
  rcases h with h | h
  · rw [h]
  · have hzero : y = 0 := by omega
    rw [hzero, Nat.mul_zero, Nat.mul_zero]

/-- The rows of an image as large as the bitmap. -/
theorem imageOf_unscaled {header : GleshBitmapHeader} {temp : List UInt8} {w h : ℕ}
    (hw : header.biWidth = w) (hh : header.biHeight = h) (hw0 : 0 < w) (hh0 : 0 < h) :
    imageOf bgr header temp header.biWidth header.biHeight =
      (List.range h).reverse.flatMap fun y => (List.range w).flatMap fun x =>
        shown bgr (sourcePixel (pixelSize header.biBitCount) temp ((x + y * w : ℕ) : Int)) := by
  have hplace : ∀ i : ℕ, Lib.sampleAt 65536 65536 i = i :=
    fun i => Int.mul_ediv_cancel i (by decide)
  rw [imageOf, hw, hh, rowsOf, Lib.fixedStep_self 65536 (by omega),
    Lib.fixedStep_self 65536 (by omega)]
  simp only [rowOf, hplace, Int.toNat_natCast, Int.natCast_add, Int.natCast_mul]

/-- From the last row to the first. -/
theorem texels_reverse (p : Picture) (bgr : Bool) :
    p.texels bgr = (List.range p.height).reverse.flatMap fun y =>
      (List.range p.width).flatMap fun x => p.texel bgr (p.height - 1 - y) x := by
  have hrange : (List.range p.height).reverse.map (fun y => p.height - 1 - y) =
      List.range p.height := by
    have hreverse := List.reverse_range' (s := 0) (n := p.height)
    rw [← List.range_eq_range', Nat.zero_add] at hreverse
    rw [List.map_reverse, ← hreverse, List.reverse_reverse]
  rw [Picture.texels]
  conv_lhs => rw [← hrange]
  exact List.flatMap_map ..

/-- A pixel of the data is one of the file. -/
theorem sourcePixel_take {n len k : ℕ} (h : n * k + n ≤ len) :
    sourcePixel n ((bytes.drop position).take len) (k : Int) =
      (bytes.drop (position + n * k)).take n := by
  have hplace : ((n : Int) * k).toNat = n * k := Int.toNat_natCast (n * k)
  rw [sourcePixel, hplace, List.drop_take, List.take_take, List.drop_drop,
    Nat.min_eq_left (by omega)]

/-- **The pixels** that are copied are those of the picture if its rows are found. -/
theorem imageOf_eq_texels_iff (bgr : Bool) {header : GleshBitmapHeader} (h : IsBitmap bytes p)
    (hheader : header = headerOf ((bytes.drop 14).take 40))
    (hlen : dataLength header = p.pixelBytes * (p.height * p.width))
    (hloaded : dataLength header ≤ (bytes.drop position).length) :
    imageOf bgr header ((bytes.drop position).take (dataLength header)) header.biWidth
        header.biHeight = p.texels bgr ↔ RowsFound bytes p position := by
  have hw : header.biWidth = p.width := by rw [hheader, h.width]
  have hh : header.biHeight = p.height := by rw [hheader, h.height]
  have hbits : pixelSize header.biBitCount = p.pixelBytes := by
    rw [hheader, h.bitCount, pixelSize_bitCount]
  rw [imageOf_unscaled hw hh h.width_pos h.height_pos, texels_reverse, hbits, rowsFound_iff,
    flatMap_eq_flatMap_iff (fun y _ => ?_)]
  · simp only [List.mem_reverse, List.mem_range]
    refine forall₂_congr fun y hy => ?_
    rw [flatMap_eq_flatMap_iff fun x _ => ?_]
    · simp only [List.mem_range]
      refine forall₂_congr fun x hx => ?_
      have hinside : p.pixelBytes * (x + y * p.width) + p.pixelBytes ≤ dataLength header := by
        have hrow : (y + 1) * p.width ≤ p.height * p.width := Nat.mul_le_mul_right _ hy
        have hpixel : x + y * p.width + 1 ≤ p.height * p.width := by
          rw [Nat.succ_mul] at hrow
          omega
        rw [hlen, ← Nat.mul_succ]
        exact Nat.mul_le_mul_left _ hpixel
      have hrow : p.height - 1 - (p.height - 1 - y) = y := by omega
      have hstored := h.rows (p.height - 1 - y) (by omega) x hx
      rw [hrow] at hstored
      rw [sourcePixel_take hinside, texel_eq, hstored]
      refine ⟨fun heq => ?_, congrArg (shown bgr)⟩
      have hlength : ((bytes.drop (position + p.pixelBytes * (x + y * p.width))).take
          p.pixelBytes).length = p.pixelBytes := by
        rw [List.length_drop] at hloaded
        rw [List.length_take, List.length_drop]
        omega
      exact shown_injective (hlength.trans (length_stored p _ _).symm)
        (Nat.le_trans (Nat.le_of_eq hlength) (pixelBytes_le p)) heq
    · rw [length_shown, texel_eq, length_shown]
  · simp only [List.length_flatMap, length_shown, texel_eq]

end

/-! ## What is read -/

/-- The function returns, and returns the picture of a bitmap that is not scaled. -/
def ReadsBitmap (memory : BitmapMemory) (file : Option (List UInt8)) (bgr : Bool)
    (scaleW scaleH : Int) : Prop :=
  Lib.Returns (gleshReadBitmap memory file bgr scaleW scaleH) (fun _ => True) ∧
    (memory.data = true → memory.temp = true → scaleW = 0 → scaleH = 0 →
      ∀ bytes p, file = some bytes → IsBitmap bytes p →
        Lib.Returns (gleshReadBitmap memory file bgr scaleW scaleH) fun r =>
          ∃ b, r = some b ∧ b.pixels = p.texels bgr ∧ b.header.biWidth = p.width ∧
            b.header.biHeight = p.height)

/-- What can be read: what is computed fits, the steps stay in the bitmap, and the rows of a bitmap
that is not scaled are found. -/
def Readable (memory : BitmapMemory) (file : Option (List UInt8)) (scaleW scaleH : Int) : Prop :=
  ∀ bytes header position, file = some bytes → readHeader bytes = some (header, position) →
    ReadFits memory bytes header position scaleW scaleH ∧
      (memory.data = true → memory.temp = true → scaleW = 0 → scaleH = 0 →
        ∀ p, IsBitmap bytes p → RowsFound bytes p position)

section

variable {memory : BitmapMemory} {file : Option (List UInt8)} {bgr : Bool} {scaleW scaleH : Int}
  {bytes : List UInt8} {p : Picture} {header : GleshBitmapHeader} {position : Nat}

/-- The header ends before the data does. -/
theorem IsBitmap.le_length (h : IsBitmap bytes p) :
    54 ≤ dataOffset bytes ∧
      dataOffset bytes + p.pixelBytes * p.width * p.height ≤ bytes.length := by
  have hheader := h.header
  have hoffset := h.offset
  have hlength := h.length
  have hstride : p.pixelBytes * p.width ≤ p.stride := by
    rw [Picture.stride, Nat.mul_comm]
    omega
  have hrows := Nat.mul_le_mul_right p.height hstride
  exact ⟨by omega, by omega⟩

/-- The offset, if `fseek` can go there. -/
theorem intAt_offset (bytes : List UInt8) (h : 0 ≤ intAt ((bytes.drop 10).take 4) 0) :
    (intAt ((bytes.drop 10).take 4) 0).toNat = dataOffset bytes := by
  have hlt := Lib.leValue_lt ((bytes.drop 10).take 4)
  have hpow : 256 ^ ((bytes.drop 10).take 4).length ≤ 256 ^ 4 :=
    Nat.pow_le_pow_right (by decide) (List.length_take_le 4 _)
  have htake : (((bytes.drop 10).take 4).drop 0).take 4 = (bytes.drop 10).take 4 := by
    rw [List.drop_zero, List.take_take, Nat.min_self]
  have hword : intAt ((bytes.drop 10).take 4) 0 = Int.bmod (dataOffset bytes) 4294967296 :=
    congrArg (fun word => Int.bmod (leValue word : ℕ) 4294967296) htake
  have hsmall : dataOffset bytes < 4294967296 := Nat.lt_of_lt_of_le hlt hpow
  have hmod : (dataOffset bytes : Int) % (4294967296 : ℕ) = dataOffset bytes :=
    Int.emod_eq_of_lt (Int.natCast_nonneg _) (by omega)
  rw [hword, Int.bmod_def, hmod] at h ⊢
  by_cases hhalf : (dataOffset bytes : Int) < ((4294967296 : ℕ) + 1) / 2
  · rw [if_pos hhalf]
    rfl
  · rw [if_neg hhalf] at h
    omega

/-- The header that is read, and where the file is left. -/
theorem readHeader_eq (h : 54 ≤ bytes.length) : readHeader bytes =
    some (headerOf ((bytes.drop 14).take 40),
      if 0 ≤ intAt ((bytes.drop 10).take 4) 0 then dataOffset bytes else 54) := by
  have hoffset : ((bytes.drop 10).take 4).length = 4 := by
    rw [List.length_take, List.length_drop]
    omega
  have hblock : ((bytes.drop 14).take 40).length = 40 := by
    rw [List.length_take, List.length_drop]
    omega
  simp only [readHeader, hoffset, hblock, ne_eq, not_true_eq_false, if_false]
  by_cases hseek : 0 ≤ intAt ((bytes.drop 10).take 4) 0
  · rw [if_pos hseek, if_pos hseek, intAt_offset bytes hseek]
  · rw [if_neg hseek, if_neg hseek]

/-- A bitmap has all its data. -/
theorem IsBitmap.loaded (h : IsBitmap bytes p)
    (hheader : readHeader bytes = some (header, position))
    (hdata : FitsInt (header.biWidth * header.biHeight * pixelSize header.biBitCount)) :
    header = headerOf ((bytes.drop 14).take 40) ∧
      dataLength header = p.pixelBytes * (p.height * p.width) ∧
      dataLength header ≤ (bytes.drop position).length := by
  obtain ⟨hoffset, hlength⟩ := h.le_length
  rw [readHeader_eq (by omega)] at hheader
  obtain ⟨rfl, rfl⟩ := Prod.mk.inj (Option.some.inj hheader)
  have hprod : (headerOf ((bytes.drop 14).take 40)).biWidth *
      (headerOf ((bytes.drop 14).take 40)).biHeight *
      pixelSize (headerOf ((bytes.drop 14).take 40)).biBitCount =
      (p.pixelBytes * (p.height * p.width) : ℕ) := by
    rw [h.width, h.height, h.bitCount, pixelSize_bitCount]
    push_cast
    ring
  have hlen : dataLength (headerOf ((bytes.drop 14).take 40)) =
      p.pixelBytes * (p.height * p.width) := by
    obtain ⟨-, hhigh⟩ := hdata
    rw [hprod] at hhigh
    rw [dataLength, hprod]
    omega
  have hposition : (if 0 ≤ intAt ((bytes.drop 10).take 4) 0 then dataOffset bytes else 54) ≤
      dataOffset bytes := by
    by_cases hseek : 0 ≤ intAt ((bytes.drop 10).take 4) 0
    · rw [if_pos hseek]
    · rw [if_neg hseek]
      exact hoffset
  have harea : p.pixelBytes * (p.height * p.width) = p.pixelBytes * p.width * p.height := by ring
  rw [List.length_drop]
  exact ⟨rfl, hlen, by omega⟩

/-- A bitmap that is not scaled is returned, with the picture if its rows are found. -/
theorem returns_picture_iff (h : IsBitmap bytes p)
    (hheader : readHeader bytes = some (header, position)) (hd : memory.data = true)
    (ht : memory.temp = true) (hfits : ReadFits memory bytes header position 0 0) :
    (Lib.Returns (gleshReadBitmap memory (some bytes) bgr 0 0) fun r =>
      ∃ b, r = some b ∧ b.pixels = p.texels bgr ∧ b.header.biWidth = p.width ∧
        b.header.biHeight = p.height) ↔ RowsFound bytes p position := by
  obtain ⟨heq, hlen, hbytes⟩ := h.loaded hheader (hfits.data hd)
  have hloaded : Loaded memory bytes header position := ⟨hd, ht, hbytes⟩
  rw [returns_readBitmap hheader (Int.le_refl 0) (Int.le_refl 0), and_iff_right hfits,
    if_pos hloaded, ← imageOf_eq_texels_iff bgr h heq hlen hbytes]
  constructor
  · rintro ⟨b, hb, hpixels, -⟩
    rw [← hpixels, ← Option.some.inj hb]
    rfl
  · intro himage
    refine ⟨_, rfl, himage, ?_, ?_⟩
    · rw [← h.width, ← heq]
      rfl
    · rw [← h.height, ← heq]
      rfl

/-- **What `glesh_read_bitmap` reads** as it should. -/
theorem readsBitmap_iff (hw : 0 ≤ scaleW) (hh : 0 ≤ scaleH) :
    ReadsBitmap memory file bgr scaleW scaleH ↔ Readable memory file scaleW scaleH := by
  constructor
  · rintro ⟨hreturns, hpicture⟩ bytes header position rfl hheader
    have hfits := ((returns_readBitmap hheader hw hh _).mp hreturns).1
    refine ⟨hfits, fun hd ht hsw hsh p hp => ?_⟩
    have hread := hpicture hd ht hsw hsh bytes p rfl hp
    subst hsw hsh
    exact (returns_picture_iff hp hheader hd ht hfits).mp hread
  · intro h
    constructor
    · cases file with
      | none => exact Lib.returns_ok.mpr trivial
      | some bytes =>
          cases hheader : readHeader bytes with
          | none =>
              simp only [gleshReadBitmap, hheader]
              exact Lib.returns_ok.mpr trivial
          | some r =>
              exact (returns_readBitmap hheader hw hh _).mpr
                ⟨(h bytes r.1 r.2 rfl hheader).1, trivial⟩
    · rintro hd ht rfl rfl bytes p rfl hp
      have hlength := hp.le_length
      have hheader := readHeader_eq (show 54 ≤ bytes.length by omega)
      obtain ⟨hfits, hrows⟩ := h bytes _ _ rfl hheader
      exact (returns_picture_iff hp hheader hd ht hfits).mpr (hrows hd ht rfl rfl p hp)

end

/-! ## Three files -/

/-- The headers of a small bitmap. -/
def smallHeader (width height bits : UInt8) : List UInt8 :=
  [66, 77] ++ List.replicate 8 0 ++ [54, 0, 0, 0] ++ [40, 0, 0, 0] ++ [width, 0, 0, 0] ++
    [height, 0, 0, 0] ++ [1, 0] ++ [bits, 0] ++ List.replicate 24 0

/-- A row of two pixels. -/
def rowBitmap : List UInt8 := smallHeader 2 1 24 ++ [1, 2, 3, 4, 5, 6, 0, 0]

/-- A column of two pixels: the rows are padded. -/
def columnBitmap : List UInt8 := smallHeader 1 2 24 ++ [4, 5, 6, 0, 1, 2, 3, 0]

def columnPicture : Picture where
  width := 1
  height := 2
  hasAlpha := false
  pixel row _ := if row = 0 then ⟨1, 2, 3, 0⟩ else ⟨4, 5, 6, 0⟩

/-- There the theorem applies. -/
theorem rowBitmap_read : ReadsBitmap ⟨true, true⟩ (some rowBitmap) true 0 0 := by
  refine (readsBitmap_iff (Int.le_refl 0) (Int.le_refl 0)).mpr ?_
  intro bytes header position hfile hheader
  obtain rfl := Option.some.inj hfile
  have hrow : readHeader rowBitmap = some (headerOf ((rowBitmap.drop 14).take 40), 54) := by
    decide +kernel
  rw [hrow] at hheader
  obtain ⟨rfl, rfl⟩ := Prod.mk.inj (Option.some.inj hheader)
  refine ⟨⟨by decide +kernel, fun _ => by decide +kernel, fun _ => ?_⟩, fun _ _ _ _ p hp => ?_⟩
  · exact ⟨by decide +kernel, by decide +kernel, by decide +kernel, by decide +kernel,
      by decide +kernel⟩
  · have hheight : (p.height : Int) = 1 :=
      hp.height.symm.trans (by decide +kernel)
    have hoffset : dataOffset rowBitmap = 54 := by decide +kernel
    rw [← hoffset]
    exact rowsFound_of_unpadded (.inr (by omega))

theorem columnBitmap_isBitmap : IsBitmap columnBitmap columnPicture where
  signature := by decide +kernel
  header := by decide +kernel
  planes := by decide +kernel
  compression := by decide +kernel
  bitCount := by decide +kernel
  width := by decide +kernel
  height := by decide +kernel
  width_pos := by decide
  height_pos := by decide
  offset := by decide +kernel
  length := by decide +kernel
  rows := by decide +kernel

/-- A bitmap without pixels stops the program, and the top pixel of a column is wrong. -/
theorem bitmaps_not_read : ¬ReadsBitmap ⟨true, true⟩ (some (smallHeader 0 0 24)) true 0 0 ∧
    ¬ReadsBitmap ⟨true, true⟩ (some columnBitmap) true 0 0 := by
  constructor
  · rintro ⟨⟨r, hr, -⟩, -⟩
    have hstop : gleshReadBitmap ⟨true, true⟩ (some (smallHeader 0 0 24)) true 0 0 =
        .error .divisionByZero := by decide +kernel
    rw [hstop] at hr
    cases hr
  · rintro ⟨-, hpicture⟩
    obtain ⟨r, hr, b, hb, hpixels, -⟩ :=
      hpicture rfl rfl rfl rfl columnBitmap columnPicture rfl columnBitmap_isBitmap
    have hread : (gleshReadBitmap ⟨true, true⟩ (some columnBitmap) true 0 0).map
        (Option.map Bitmap.pixels) = .ok (some [2, 1, 0, 0, 6, 5, 4, 0]) := by
      decide +kernel
    rw [hr, hb] at hread
    have hwrong : columnPicture.texels true = [2, 1, 0, 0, 6, 5, 4, 0] :=
      hpixels.symm.trans (Option.some.inj (Except.ok.inj hread))
    exact absurd hwrong (by decide +kernel)

end Blts.Gles
