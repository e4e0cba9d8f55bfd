import Mathlib.Algebra.BigOperators.Group.List.Basic
import Mathlib.Algebra.Order.Ring.Nat

/-!
# Pixel formats and their planes

`convert_buffer` maps the formats of V4L2 to those of libavcodec, finds the
planes of both frames with `setup_planes`, and lets libswscale convert one to the
other.  Addresses are offsets from the start of a frame.  An `int` that overflows
has no value, so what is computed from it has none.

What the formats are is in their comments in `pixfmt.h` (`planesOf`).
-/

namespace Blts.Pixel

/-! ## Formats -/

/-- The formats of libavcodec in the table, on a little-endian machine. -/
inductive PixFmt where
  | rgb8
  | rgb4
  | rgb555le
  | rgb565le
  | rgb24
  | bgr24
  | bgr32
  | rgb32
  | gray8
  | gray16le
  | yuyv422
  | uyvy422
  | uyyvyy411
  | yuv422p
  | yuv411p
  | nv12
  | yuv420p
  | yuv410p
  | yvu420p
  | yvu410p
  | sbggr8
  | sbggr16
  | sgrbg10
  | yuv444
  | yuv555
  | yuv565
  | yuv32
  | rgb555be
  | rgb565be
  deriving DecidableEq

/-- `v4l2_fourcc`. -/
def v4l2Fourcc (a b c d : Char) : Nat :=
  a.toNat + b.toNat * 256 + c.toNat * 65536 + d.toNat * 16777216

/-- `pixelformats`. -/
def pixelformats : List (Nat × PixFmt) :=
  [(v4l2Fourcc 'R' 'G' 'B' '1', .rgb8),
    (v4l2Fourcc 'R' '4' '4' '4', .rgb4),
    (v4l2Fourcc 'R' 'G' 'B' 'O', .rgb555le),
    (v4l2Fourcc 'R' 'G' 'B' 'P', .rgb565le),
    (v4l2Fourcc 'R' 'G' 'B' '3', .rgb24),
    (v4l2Fourcc 'B' 'G' 'R' '3', .bgr24),
    (v4l2Fourcc 'B' 'G' 'R' '4', .bgr32),
    (v4l2Fourcc 'R' 'G' 'B' '4', .rgb32),
    (v4l2Fourcc 'G' 'R' 'E' 'Y', .gray8),
    (v4l2Fourcc 'Y' '1' '6' ' ', .gray16le),
    (v4l2Fourcc 'Y' 'U' 'Y' 'V', .yuyv422),
    (v4l2Fourcc 'U' 'Y' 'V' 'Y', .uyvy422),
    (v4l2Fourcc 'Y' '4' '1' 'P', .uyyvyy411),
    (v4l2Fourcc '4' '2' '2' 'P', .yuv422p),
    (v4l2Fourcc '4' '1' '1' 'P', .yuv411p),
    (v4l2Fourcc 'N' 'V' '1' '2', .nv12),
    (v4l2Fourcc 'Y' 'U' '1' '2', .yuv420p),
    (v4l2Fourcc 'Y' 'U' 'V' '9', .yuv410p),
    (v4l2Fourcc 'Y' 'V' '1' '2', .yvu420p),
    (v4l2Fourcc 'Y' 'V' 'U' '9', .yvu410p),
    (v4l2Fourcc 'B' 'A' '8' '1', .sbggr8),
    (v4l2Fourcc 'B' 'Y' 'R' '2', .sbggr16),
    (v4l2Fourcc 'B' 'A' '1' '0', .sgrbg10),
    (v4l2Fourcc 'Y' '4' '4' '4', .yuv444),
    (v4l2Fourcc 'Y' 'U' 'V' 'O', .yuv555),
    (v4l2Fourcc 'Y' 'U' 'V' 'P', .yuv565),
    (v4l2Fourcc 'Y' 'U' 'V' '4', .yuv32),
    (v4l2Fourcc 'R' 'G' 'B' 'Q', .rgb555be),
    (v4l2Fourcc 'R' 'G' 'B' 'R', .rgb565be)]

/-- `v4l2fmt2pixfmt`; `none` is `PIX_FMT_NONE`. -/
def v4l2fmt2pixfmt (v4l2fmt : Nat) : Option PixFmt :=
  (pixelformats.find? fun f => f.1 == v4l2fmt).map Prod.snd

/-! ## Planes -/

/-- `INT_MAX`. -/
def intMax : Nat := 2147483647

/-- A value of type `int`, unless it overflows. -/
def int (n : Nat) : Option Nat :=
  if n ≤ intMax then some n else none

/-- `planeptrs` and `strides`; a null pointer is `none`. -/
structure Planes where
  planeptrs : List (Option Nat)
  strides : List Nat
  deriving DecidableEq

/-- A frame of one plane. -/
def packed (stride : Nat) : Planes where
  planeptrs := [some 0, none, none]
  strides := [stride, 0, 0]

/-- `setup_planes`. -/
def setupPlanes (pixfmt : PixFmt) (width height : Nat) : Option Planes :=
  match pixfmt with
  | .rgb24 | .bgr24 => do
      let stride ← int (3 * width)
      return packed stride
  | .yuv422p => do
      let size ← int (width * height)
      return {
        planeptrs := [some 0, some size, some (size + size >>> 1)]
        strides := [width, width >>> 1, width >>> 1] }
  | .yuyv422 | .uyvy422 => do
      let stride ← int (2 * width)
      return packed stride
  | .rgb8 | .gray8 | .sbggr8 => return packed width
  | .rgb4 | .rgb555le | .rgb555be | .rgb565le | .rgb565be | .gray16le | .yuv444 | .yuv555
  | .yuv565 | .sbggr16 | .sgrbg10 => do
      let stride ← int (2 * width)
      return packed stride
  | .bgr32 | .rgb32 | .yuv32 => do
      let stride ← int (4 * width)
      return packed stride
  | .yuv420p => do
      let size ← int (width * height)
      return {
        planeptrs := [some 0, some size, some (size + size >>> 2)]
        strides := [width, width >>> 1, width >>> 1] }
  | .yuv410p | .yuv411p => do
      let size ← int (width * height)
      return {
        planeptrs := [some 0, some size, some (size + size >>> 4)]
        strides := [width, width >>> 2, width >>> 2] }
  | .nv12 => do
      let size ← int (width * height)
      return {
        planeptrs := [some 0, some size, none]
        strides := [width, width >>> 4, 0] }
  | .uyyvyy411 => do
      let stride ← int (width + width >>> 1)
      return packed stride
  | .yvu420p => do
      let size ← int (width * height)
      return {
        planeptrs := [some 0, some (size + size >>> 2), some size]
        strides := [width, width >>> 1, width >>> 1] }
  | .yvu410p => do
      let size ← int (width * height)
      return {
        planeptrs := [some 0, some (size + size >>> 4), some size]
        strides := [width, width >>> 2, width >>> 2] }

/-! ## Conversion -/

/-- `avcodec_check_dimensions`. -/
def checkDimensions (w h : Nat) : Bool :=
  decide (0 < w ∧ 0 < h ∧ (w + 128) * (h + 128) < intMax / 4)

/-- The size of three planes with chroma shifts, in `ff_fill_linesize` and
`ff_fill_pointer`. -/
def planarSize (xChromaShift yChromaShift width height : Nat) : Nat :=
  let w2 := (width + (1 <<< xChromaShift) - 1) >>> xChromaShift
  let h2 := (height + (1 <<< yChromaShift) - 1) >>> yChromaShift
  width * height + 2 * (w2 * h2)

/-- `avpicture_get_size`; no `int` overflows after the check of the
dimensions. -/
def avpictureGetSize (pixfmt : PixFmt) (width height : Nat) : Option Nat :=
  if checkDimensions width height = false then none
  else
    match pixfmt with
    | .yuv420p => some (planarSize 1 1 width height)
    | .yuv422p => some (planarSize 1 0 width height)
    | .yuv410p => some (planarSize 2 2 width height)
    | .yuv411p => some (planarSize 2 0 width height)
    | .nv12 =>
        let w2 := (width + (1 <<< 1) - 1) >>> 1
        let h2 := (height + (1 <<< 1) - 1) >>> 1
        some (width * height + 2 * (w2 * h2 * 2))
    | .rgb24 | .bgr24 => some (width * 3 * height)
    | .rgb32 | .bgr32 | .yuv32 => some (width * 4 * height)
    | .gray16le | .rgb555be | .rgb555le | .rgb565be | .rgb565le | .yuyv422 | .yuv444 | .yuv555
    | .yuv565 | .uyvy422 | .sgrbg10 | .sbggr16 => some (width * 2 * height)
    | .uyyvyy411 => some ((width + width / 2) * height)
    | .rgb4 => some (width / 2 * height)
    | .rgb8 | .gray8 => some ((width * height + 3) / 4 * 4 + 256 * 4)
    | .sbggr8 => some (width * height)
    | .yvu420p | .yvu410p => none

/-- `YVU420P` and `YVU410P` are handled as the corresponding YUV formats. -/
def realPixfmt : PixFmt → PixFmt
  | .yvu420p => .yuv420p
  | .yvu410p => .yuv410p
  | pixfmt => pixfmt

/-- What `sws_scale` is given, with the size of the buffer that was allocated. -/
structure ScalerCall where
  realsrcpixfmt : PixFmt
  realdstpixfmt : PixFmt
  srcplanes : Planes
  dstplanes : Planes
  dstsize : Nat
  deriving DecidableEq

/-- `convert_buffer` up to the scaler: `none` inside is the result -1, which is
that of a failing `malloc` as well. -/
def convertBuffer (memory : Bool) (width height srcformat dstformat : Nat) :
    Option (Option ScalerCall) :=
  match v4l2fmt2pixfmt srcformat, v4l2fmt2pixfmt dstformat with
  | some srcpixfmt, some dstpixfmt => do
      let srcplanes ← setupPlanes srcpixfmt width height
      match avpictureGetSize (realPixfmt dstpixfmt) width height with
      | none => return none
      | some dstsize =>
          if memory = false then return none
          else do
            let dstplanes ← setupPlanes dstpixfmt width height
            return some {
              realsrcpixfmt := realPixfmt srcpixfmt
              realdstpixfmt := realPixfmt dstpixfmt
              srcplanes := srcplanes
              dstplanes := dstplanes
              dstsize := dstsize }
  | _, _ => some none

/-! ## What the formats are -/

/-- A plane of a format: the bytes of a row that are used, and the rows. -/
structure PlaneDef where
  rowBytes : Nat
  rows : Nat
  deriving DecidableEq

/-- The planes of a frame, by the definition of the format. -/
def planesOf (pixfmt : PixFmt) (width height : Nat) : List PlaneDef :=
  match pixfmt with
  -- 4 bits for a pixel
  | .rgb4 => [⟨(4 * width + 7) / 8, height⟩]
  -- 8, 16, 24 and 32 bits
  | .rgb8 | .gray8 | .sbggr8 => [⟨width, height⟩]
  | .rgb555le | .rgb555be | .rgb565le | .rgb565be | .gray16le | .yuv444 | .yuv555 | .yuv565
  | .sbggr16 | .sgrbg10 | .yuyv422 | .uyvy422 => [⟨2 * width, height⟩]
  | .rgb24 | .bgr24 => [⟨3 * width, height⟩]
  | .bgr32 | .rgb32 | .yuv32 => [⟨4 * width, height⟩]
  -- 12 bits, six bytes for four pixels
  | .uyyvyy411 => [⟨width / 4 * 6, height⟩]
  -- a plane for each component, the chroma planes with fewer samples
  | .yuv422p => [⟨width, height⟩, ⟨width / 2, height⟩, ⟨width / 2, height⟩]
  | .yuv420p | .yvu420p =>
      [⟨width, height⟩, ⟨width / 2, height / 2⟩, ⟨width / 2, height / 2⟩]
  | .yuv411p => [⟨width, height⟩, ⟨width / 4, height⟩, ⟨width / 4, height⟩]
  | .yuv410p | .yvu410p =>
      [⟨width, height⟩, ⟨width / 4, height / 4⟩, ⟨width / 4, height / 4⟩]
  -- one plane for both chroma components
  | .nv12 => [⟨width, height⟩, ⟨width, height / 2⟩]

/-- The chroma subsampling of a format. -/
def subsampling : PixFmt → Nat × Nat
  | .yuyv422 | .uyvy422 | .yuv422p => (2, 1)
  | .uyyvyy411 | .yuv411p => (4, 1)
  | .yuv420p | .yvu420p | .nv12 => (2, 2)
  | .yuv410p | .yvu410p => (4, 4)
  | _ => (1, 1)

/-- The bytes of a frame. -/
def frameBytes (pixfmt : PixFmt) (width height : Nat) : Nat :=
  ((planesOf pixfmt width height).map fun d => d.rowBytes * d.rows).sum

end Blts.Pixel
