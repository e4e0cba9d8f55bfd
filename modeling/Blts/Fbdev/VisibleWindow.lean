import Mathlib.Algebra.Order.Ring.Nat
import Mathlib.Data.List.Basic
import Blts.Lib.Blocks

/-!
# The visible window of a frame buffer

The tests of the frame buffer go to its visible pixels in three ways: one by one in a shuffled
order, with the offsets in a table (`fbdev_test_data_new`), and line by line between the frame
buffer and a frame in memory (`fbdev_grab_buf_clip_vis`, `fbdev_blit_buf_clip_vis`).  The numbers
of the screen are of 32 bits, and so are the products and sums of the code; with the virtual screen
inside the frame buffer none of them wraps.
-/

namespace Blts.Fbdev

open Lib

/-- The fields of `fb_fix_screeninfo` that are used. -/
structure FbFixScreeninfo where
  smemLen : UInt32
  lineLength : UInt32

/-- The fields of `fb_var_screeninfo` that are used or that say where the window is. -/
structure FbVarScreeninfo where
  xres : UInt32
  yres : UInt32
  xresVirtual : UInt32
  yresVirtual : UInt32
  xoffset : UInt32
  yoffset : UInt32
  bitsPerPixel : UInt32

/-- `blts_fbdev_device`, without its buffer. -/
structure FbdevDevice where
  fixedInfo : FbFixScreeninfo
  variantInfo : FbVarScreeninfo

/-- How wide a `size_t` is. -/
inductive Machine where
  | bits32
  | bits64

namespace Machine

/-- The number of values of a `size_t`. -/
def sizes : Machine → Nat
  | .bits32 => 2 ^ 32
  | .bits64 => 2 ^ 64

def sizeT (machine : Machine) (n : Nat) : Nat := n % machine.sizes

theorem sizes_ge (machine : Machine) : 2 ^ 32 ≤ machine.sizes := by
  cases machine with
  | bits32 => exact Nat.le_refl _
  | bits64 => decide

theorem sizeT_of_lt {machine : Machine} {n : Nat} (h : n < machine.sizes) :
    machine.sizeT n = n :=
  Nat.mod_eq_of_lt h

end Machine

/-! ## The code -/

namespace FbdevDevice

variable (machine : Machine) (dev : FbdevDevice)

/-- `bits_per_pixel >> 3`. -/
def bppBytes : UInt32 := dev.variantInfo.bitsPerPixel >>> 3

/-- `lut_sz`. -/
def lutSz : Nat := (dev.variantInfo.xres * dev.variantInfo.yres).toNat

/-- `line_sz`. -/
def lineSz : Nat := machine.sizeT (dev.variantInfo.xres * dev.bppBytes).toNat

/-- `lut[i++] = offset`, in a table with room for so many offsets. -/
def writeOffset (room : Nat) (lut : List UInt32) (offset : UInt32) : Option (List UInt32) :=
  if lut.length < room then some (lut ++ [offset]) else none

/-- The loop over the pixels of a line. -/
def writeLine (room : Nat) (lineStart : UInt32) :
    Nat → UInt32 → List UInt32 → Option (List UInt32)
  | 0, _, lut => some lut
  | x + 1, xOffset, lut => do
      let lut ← writeOffset room lut (lineStart + xOffset)
      writeLine room lineStart x (xOffset + dev.bppBytes) lut

/-- The loop over the lines. -/
def writeLines (room : Nat) : Nat → UInt32 → List UInt32 → Option (List UInt32)
  | 0, _, lut => some lut
  | y + 1, lineStart, lut => do
      let lut ← dev.writeLine room lineStart dev.variantInfo.xres.toNat 0 lut
      writeLines room y (lineStart + dev.fixedInfo.lineLength) lut

/-- The Knuth shuffle, with the results of `rand` from a call on. -/
def shuffle (rand : Nat → UInt32) : Nat → Nat → List UInt32 → Option (List UInt32)
  | 0, _, lut => some lut
  | n + 1, call, lut => do
      let k := (rand call).toNat % (n + 1)
      let tmp ← lut[n]?
      let other ← lut[k]?
      shuffle rand n (call + 1) ((lut.set n other).set k tmp)

/-- `fbdev_test_data_new`; it returns 0 if there is no memory for the table. -/
def fbdevTestDataNew (memory : Bool) (rand : Nat → UInt32) : Option (Option (List UInt32)) := do
  if memory = false then return none
  let room := machine.sizeT (dev.lutSz * 4) / 4
  let lineStart := dev.fixedInfo.lineLength * dev.variantInfo.yoffset +
    dev.bppBytes * dev.variantInfo.xoffset
  let lut ← dev.writeLines room dev.variantInfo.yres.toNat lineStart []
  let lut ← shuffle rand dev.lutSz 0 lut
  return some lut

/-- The start of the visible part, as an offset into the frame buffer. -/
def visibleStart : Nat :=
  (dev.fixedInfo.lineLength * dev.variantInfo.yoffset).toNat +
    (dev.bppBytes * dev.variantInfo.xoffset).toNat

/-- `fbdev_grab_buf_clip_vis`: the buffer afterwards. -/
def fbdevGrabBufClipVis (fb buffer : List UInt8) : Option (List UInt8) :=
  ((List.range dev.variantInfo.yres.toNat).foldlM
    (fun (state : Nat × List UInt8) (i : Nat) =>
      (copyBlock state.2 (machine.sizeT (i * dev.lineSz machine)) fb state.1
        (dev.lineSz machine)).map fun buffer =>
          (state.1 + dev.fixedInfo.lineLength.toNat, buffer))
    (dev.visibleStart, buffer)).map Prod.snd

/-- `fbdev_blit_buf_clip_vis`: the frame buffer afterwards. -/
def fbdevBlitBufClipVis (fb buffer : List UInt8) : Option (List UInt8) :=
  ((List.range dev.variantInfo.yres.toNat).foldlM
    (fun (state : Nat × List UInt8) (i : Nat) =>
      (copyBlock state.2 state.1 buffer (machine.sizeT (i * dev.lineSz machine))
        (dev.lineSz machine)).map fun fb =>
          (state.1 + dev.fixedInfo.lineLength.toNat, fb))
    (dev.visibleStart, fb)).map Prod.snd

/-! ## The window -/

def bytesPerPixel : Nat := dev.variantInfo.bitsPerPixel.toNat / 8

/-- Where a pixel of the window is in the frame buffer. -/
def pixelOffset (x y : Nat) : Nat :=
  dev.fixedInfo.lineLength.toNat * (dev.variantInfo.yoffset.toNat + y) +
    dev.bytesPerPixel * (dev.variantInfo.xoffset.toNat + x)

/-- The offsets of the visible pixels, line by line. -/
def visiblePixels : List Nat :=
  (List.range dev.variantInfo.yres.toNat).flatMap fun y =>
    (List.range dev.variantInfo.xres.toNat).map fun x => dev.pixelOffset x y

/-- A byte of the frame buffer belongs to a visible pixel. -/
def Visible (a : Nat) : Prop :=
  ∃ y < dev.variantInfo.yres.toNat, ∃ x < dev.variantInfo.xres.toNat,
    dev.pixelOffset x y ≤ a ∧ a < dev.pixelOffset x y + dev.bytesPerPixel

/-- The size of the visible pixels. -/
def frameSize : Nat :=
  dev.variantInfo.yres.toNat * (dev.variantInfo.xres.toNat * dev.bytesPerPixel)

/-- A screen mode: the window is inside the virtual screen, and that inside the frame buffer.  The
number of the pixels is one of 32 bits, and the size of the table is a `size_t`. -/
structure Valid : Prop where
  wholeBytes : 8 ∣ dev.variantInfo.bitsPerPixel.toNat
  columns : dev.variantInfo.xoffset.toNat + dev.variantInfo.xres.toNat ≤
    dev.variantInfo.xresVirtual.toNat
  lines : dev.variantInfo.yoffset.toNat + dev.variantInfo.yres.toNat ≤
    dev.variantInfo.yresVirtual.toNat
  line : dev.bytesPerPixel * dev.variantInfo.xresVirtual.toNat ≤ dev.fixedInfo.lineLength.toNat
  screen : dev.fixedInfo.lineLength.toNat * dev.variantInfo.yresVirtual.toNat ≤
    dev.fixedInfo.smemLen.toNat
  pixels : dev.variantInfo.xres.toNat * dev.variantInfo.yres.toNat < 2 ^ 32
  table : dev.variantInfo.xres.toNat * dev.variantInfo.yres.toNat * 4 < machine.sizes

/-! ## The numbers of the code -/

section

variable {machine : Machine} {dev : FbdevDevice}

theorem toNat_bppBytes : dev.bppBytes.toNat = dev.bytesPerPixel := by
  rw [bppBytes, bytesPerPixel, UInt32.toNat_shiftRight, Nat.shiftRight_eq_div_pow]
  rfl

namespace Valid

theorem lutSz_eq (h : dev.Valid machine) :
    dev.lutSz = dev.variantInfo.xres.toNat * dev.variantInfo.yres.toNat := by
  rw [lutSz, UInt32.toNat_mul, Nat.mod_eq_of_lt h.pixels]

/-- A line of the window is not longer than one of the frame buffer. -/
theorem window_le (h : dev.Valid machine) :
    dev.bytesPerPixel * (dev.variantInfo.xoffset.toNat + dev.variantInfo.xres.toNat) ≤
      dev.fixedInfo.lineLength.toNat :=
  Nat.le_trans (Nat.mul_le_mul_left _ h.columns) h.line

/-- The lines of the frame buffer down to one of the window are inside it. -/
theorem lines_le (h : dev.Valid machine) {y : Nat} (hy : y ≤ dev.variantInfo.yres.toNat) :
    dev.fixedInfo.lineLength.toNat * (dev.variantInfo.yoffset.toNat + y) ≤
      dev.fixedInfo.smemLen.toNat := by
  have hlines := h.lines
  exact Nat.le_trans (Nat.mul_le_mul_left _ (by omega)) h.screen

/-- **Every line of the window is inside the frame buffer.** -/
theorem line_le (h : dev.Valid machine) {y : Nat} (hy : y < dev.variantInfo.yres.toNat) :
    dev.pixelOffset 0 y + dev.variantInfo.xres.toNat * dev.bytesPerPixel ≤
      dev.fixedInfo.smemLen.toNat := by
  have hwindow := h.window_le
  have hlines : dev.fixedInfo.lineLength.toNat * (dev.variantInfo.yoffset.toNat + y) +
      dev.fixedInfo.lineLength.toNat ≤ dev.fixedInfo.smemLen.toNat := h.lines_le hy
  rw [Nat.mul_add, Nat.mul_comm _ dev.variantInfo.xres.toNat] at hwindow
  rw [pixelOffset, Nat.add_zero]
  omega

theorem lineSz_eq (h : dev.Valid machine) :
    dev.lineSz machine = dev.variantInfo.xres.toNat * dev.bytesPerPixel := by
  have hwindow := h.window_le
  have hlength := dev.fixedInfo.lineLength.toNat_lt
  have hsizes := machine.sizes_ge
  rw [Nat.mul_add, Nat.mul_comm _ dev.variantInfo.xres.toNat] at hwindow
  have hfits : dev.variantInfo.xres.toNat * dev.bytesPerPixel < 2 ^ 32 := by omega
  rw [lineSz, UInt32.toNat_mul, toNat_bppBytes, Nat.mod_eq_of_lt hfits]
  exact Machine.sizeT_of_lt (by omega)

/-- The lines of a frame in memory are counted in a `size_t`. -/
theorem sizeT_line (h : dev.Valid machine) {y : Nat} (hy : y < dev.variantInfo.yres.toNat) :
    machine.sizeT (y * dev.lineSz machine) =
      y * (dev.variantInfo.xres.toNat * dev.bytesPerPixel) := by
  have hwindow := h.window_le
  have hlines := h.lines_le (Nat.le_of_lt hy)
  have hmem := dev.fixedInfo.smemLen.toNat_lt
  have hsizes := machine.sizes_ge
  rw [Nat.mul_add, Nat.mul_comm _ dev.variantInfo.xres.toNat] at hwindow
  have hline : y * (dev.variantInfo.xres.toNat * dev.bytesPerPixel) ≤
      y * dev.fixedInfo.lineLength.toNat := Nat.mul_le_mul_left _ (by omega)
  rw [Nat.mul_add, Nat.mul_comm _ y] at hlines
  rw [h.lineSz_eq]
  exact Machine.sizeT_of_lt (by omega)

theorem visibleStart_eq (h : dev.Valid machine) : dev.visibleStart = dev.pixelOffset 0 0 := by
  have hwindow := h.window_le
  have hlines := h.lines_le (Nat.zero_le _)
  have hmem := dev.fixedInfo.smemLen.toNat_lt
  have hlength := dev.fixedInfo.lineLength.toNat_lt
  rw [Nat.mul_add] at hwindow
  rw [Nat.add_zero] at hlines
  rw [visibleStart, UInt32.toNat_mul, UInt32.toNat_mul, toNat_bppBytes,
    Nat.mod_eq_of_lt (by omega), Nat.mod_eq_of_lt (by omega)]
  rfl

/-- The lines of the window are apart. -/
theorem apart (h : dev.Valid machine) {y y' : Nat} (hlt : y < y') :
    dev.pixelOffset 0 y + dev.variantInfo.xres.toNat * dev.bytesPerPixel ≤
      dev.pixelOffset 0 y' := by
  have hwindow := h.window_le
  rw [Nat.mul_add, Nat.mul_comm _ dev.variantInfo.xres.toNat] at hwindow
  have hnext : dev.fixedInfo.lineLength.toNat * (dev.variantInfo.yoffset.toNat + y) +
      dev.fixedInfo.lineLength.toNat ≤
        dev.fixedInfo.lineLength.toNat * (dev.variantInfo.yoffset.toNat + y') :=
    Nat.mul_le_mul_left _ (show dev.variantInfo.yoffset.toNat + y + 1 ≤ _ by omega)
  rw [pixelOffset, pixelOffset, Nat.add_zero]
  omega

end Valid

theorem pixelOffset_line (y : Nat) :
    dev.pixelOffset 0 0 + y * dev.fixedInfo.lineLength.toNat = dev.pixelOffset 0 y := by
  have hline := Nat.mul_add dev.fixedInfo.lineLength.toNat dev.variantInfo.yoffset.toNat y
  rw [pixelOffset, pixelOffset, Nat.add_zero, Nat.add_zero, hline, Nat.mul_comm y]
  omega

theorem pixelOffset_pixel (x y : Nat) :
    dev.pixelOffset x y = dev.pixelOffset 0 y + x * dev.bytesPerPixel := by
  rw [pixelOffset, pixelOffset, Nat.add_zero, Nat.mul_add _ _ x, Nat.mul_comm x, Nat.add_assoc]

end

/-! ## The table -/

section

variable {machine : Machine} {dev : FbdevDevice} {room : Nat} {lut : List UInt32}

theorem writeOffset_eq (h : lut.length < room) (offset : UInt32) :
    writeOffset room lut offset = some (lut ++ [offset]) :=
  if_pos h

/-- The loop over a line appends the offsets of its pixels. -/
theorem writeLine_eq (dev : FbdevDevice) (lineStart : UInt32) (n : Nat) (xOffset : UInt32)
    (lut : List UInt32) (hroom : lut.length + n ≤ room)
    (hfits : lineStart.toNat + xOffset.toNat + n * dev.bytesPerPixel < 2 ^ 32) :
    ∃ offsets, dev.writeLine room lineStart n xOffset lut = some (lut ++ offsets) ∧
      offsets.map UInt32.toNat = (List.range n).map fun x =>
        lineStart.toNat + xOffset.toNat + x * dev.bytesPerPixel := by
  induction n generalizing xOffset lut with
  | zero => exact ⟨[], by rw [List.append_nil]; rfl, rfl⟩
  | succ n ih =>
      rw [Nat.succ_mul] at hfits
      have hpixel : (lineStart + xOffset).toNat = lineStart.toNat + xOffset.toNat := by
        rw [UInt32.toNat_add]
        exact Nat.mod_eq_of_lt (by omega)
      have hnext : (xOffset + dev.bppBytes).toNat = xOffset.toNat + dev.bytesPerPixel := by
        rw [UInt32.toNat_add, toNat_bppBytes]
        exact Nat.mod_eq_of_lt (by omega)
      have hlength : (lut ++ [lineStart + xOffset]).length + n ≤ room := by
        rw [List.length_append, List.length_singleton]
        omega
      obtain ⟨offsets, hrun, hoffsets⟩ :=
        ih (xOffset + dev.bppBytes) (lut ++ [lineStart + xOffset]) hlength (by omega)
      refine ⟨(lineStart + xOffset) :: offsets, ?_, ?_⟩
      · rw [writeLine, writeOffset_eq (by omega), Option.bind_eq_bind, Option.bind_some, hrun,
          List.append_assoc, List.singleton_append]
      · rw [List.map_cons, hoffsets, hpixel, hnext, List.range_succ_eq_map, List.map_cons,
          List.map_map, Nat.zero_mul, Nat.add_zero]
        congr 1
        apply List.map_congr_left
        intro x _
        simp only [Function.comp_apply, Nat.succ_mul]
        omega

/-- The loop over the lines appends the offsets of all their pixels, as long as the lines do not
leave the numbers of 32 bits. -/
theorem writeLines_eq (n : Nat) (lineStart : UInt32) (lut : List UInt32)
    (hroom : lut.length + n * dev.variantInfo.xres.toNat ≤ room)
    (hfits : ∀ y < n, lineStart.toNat + y * dev.fixedInfo.lineLength.toNat +
      dev.variantInfo.xres.toNat * dev.bytesPerPixel < 2 ^ 32) :
    ∃ offsets, dev.writeLines room n lineStart lut = some (lut ++ offsets) ∧
      offsets.map UInt32.toNat = (List.range n).flatMap fun y =>
        (List.range dev.variantInfo.xres.toNat).map fun x =>
          lineStart.toNat + y * dev.fixedInfo.lineLength.toNat + x * dev.bytesPerPixel := by
  induction n generalizing lineStart lut with
  | zero => exact ⟨[], by rw [List.append_nil]; rfl, rfl⟩
  | succ n ih =>
      rw [Nat.succ_mul] at hroom
      have hfirst := hfits 0 (Nat.zero_lt_succ n)
      rw [Nat.zero_mul, Nat.add_zero] at hfirst
      have hlineRoom : lut.length + dev.variantInfo.xres.toNat ≤ room := by omega
      obtain ⟨line, hline, hoffsets⟩ :=
        dev.writeLine_eq lineStart dev.variantInfo.xres.toNat 0 lut hlineRoom hfirst
      have hlength : line.length = dev.variantInfo.xres.toNat := by
        have hcount := congrArg List.length hoffsets
        rwa [List.length_map, List.length_map, List.length_range] at hcount
      have hnext : (lineStart + dev.fixedInfo.lineLength).toNat ≤
          lineStart.toNat + dev.fixedInfo.lineLength.toNat := by
        rw [UInt32.toNat_add]
        exact Nat.mod_le _ _
      obtain ⟨rest, hrest, hlines⟩ := ih (lineStart + dev.fixedInfo.lineLength) (lut ++ line)
        (by rw [List.length_append]; omega)
        (fun y hy => by
          have hy' := hfits (y + 1) (Nat.succ_lt_succ hy)
          rw [Nat.succ_mul] at hy'
          omega)
      refine ⟨line ++ rest, ?_, ?_⟩
      · rw [writeLines, hline, Option.bind_eq_bind, Option.bind_some, hrest, List.append_assoc]
      · rw [List.map_append, hoffsets, hlines, List.range_succ_eq_map, List.flatMap_cons,
          List.flatMap_map, Nat.zero_mul]
        congr 1
        apply List.flatMap_congr
        intro y hy
        -- the start of a line that exists has not wrapped
        have hexact : (lineStart + dev.fixedInfo.lineLength).toNat =
            lineStart.toNat + dev.fixedInfo.lineLength.toNat := by
          have hsecond := hfits 1 (by have := List.mem_range.mp hy; omega)
          rw [Nat.one_mul] at hsecond
          rw [UInt32.toNat_add]
          exact Nat.mod_eq_of_lt (by omega)
        rw [hexact, Nat.succ_mul]
        apply List.map_congr_left
        intro x _
        omega

/-- **The shuffle loses and repeats nothing**, whatever the random numbers are. -/
theorem shuffle_perm (rand : Nat → UInt32) (n call : Nat) (lut : List UInt32)
    (hn : n ≤ lut.length) :
    ∃ lut', shuffle rand n call lut = some lut' ∧ lut'.Perm lut := by
  induction n generalizing call lut with
  | zero => exact ⟨lut, rfl, .refl _⟩
  | succ n ih =>
      have hk : (rand call).toNat % (n + 1) < lut.length :=
        Nat.lt_of_lt_of_le (Nat.mod_lt _ (Nat.succ_pos n)) hn
      have hswap := List.set_set_perm (show n < lut.length from hn) hk
      obtain ⟨lut', hrun, hperm⟩ := ih (call + 1)
        ((lut.set n lut[(rand call).toNat % (n + 1)]).set ((rand call).toNat % (n + 1)) lut[n])
        (by rw [List.length_set, List.length_set]; omega)
      refine ⟨lut', ?_, hperm.trans hswap⟩
      rw [shuffle, List.getElem?_eq_getElem hn, List.getElem?_eq_getElem hk]
      exact hrun

theorem length_visiblePixels :
    dev.visiblePixels.length = dev.variantInfo.xres.toNat * dev.variantInfo.yres.toNat := by
  simp [visiblePixels, List.length_flatMap, Nat.mul_comm]

theorem mem_visiblePixels {o : Nat} :
    o ∈ dev.visiblePixels ↔ ∃ y < dev.variantInfo.yres.toNat,
      ∃ x < dev.variantInfo.xres.toNat, dev.pixelOffset x y = o := by
  simp [visiblePixels]

/-- The lines that are entered into the table are those of the window. -/
theorem Valid.writeLines_visible (h : dev.Valid machine) :
    ∃ offsets, dev.writeLines dev.lutSz dev.variantInfo.yres.toNat
        (dev.fixedInfo.lineLength * dev.variantInfo.yoffset +
          dev.bppBytes * dev.variantInfo.xoffset) [] = some offsets ∧
      offsets.map UInt32.toNat = dev.visiblePixels := by
  have hstart : (dev.fixedInfo.lineLength * dev.variantInfo.yoffset +
      dev.bppBytes * dev.variantInfo.xoffset).toNat = dev.pixelOffset 0 0 % 2 ^ 32 := by
    rw [UInt32.toNat_add, ← h.visibleStart_eq]
    rfl
  have hmem := dev.fixedInfo.smemLen.toNat_lt
  have hinside : ∀ y < dev.variantInfo.yres.toNat,
      dev.pixelOffset 0 0 + y * dev.fixedInfo.lineLength.toNat +
        dev.variantInfo.xres.toNat * dev.bytesPerPixel < 2 ^ 32 := by
    intro y hy
    rw [pixelOffset_line]
    exact Nat.lt_of_le_of_lt (h.line_le hy) hmem
  have hroom : ([] : List UInt32).length +
      dev.variantInfo.yres.toNat * dev.variantInfo.xres.toNat ≤ dev.lutSz := by
    have hcount := h.lutSz_eq
    rw [Nat.mul_comm] at hcount
    rw [List.length_nil, Nat.zero_add]
    exact Nat.le_of_eq hcount.symm
  obtain ⟨offsets, hrun, hoffsets⟩ := dev.writeLines_eq dev.variantInfo.yres.toNat
    (dev.fixedInfo.lineLength * dev.variantInfo.yoffset +
      dev.bppBytes * dev.variantInfo.xoffset) [] hroom fun y hy => by
        have hy' := hinside y hy
        have hle := Nat.mod_le (dev.pixelOffset 0 0) (2 ^ 32)
        omega
  refine ⟨offsets, hrun, ?_⟩
  rw [hoffsets, visiblePixels, hstart]
  apply List.flatMap_congr
  intro y hy
  apply List.map_congr_left
  intro x _
  have hy' := hinside y (List.mem_range.mp hy)
  rw [Nat.mod_eq_of_lt (by omega), pixelOffset_line, ← pixelOffset_pixel]

/-- The table has each visible pixel once. -/
theorem Valid.testData_perm (h : dev.Valid machine) (rand : Nat → UInt32) :
    ∃ lut, dev.fbdevTestDataNew machine true rand = some (some lut) ∧
      (lut.map UInt32.toNat).Perm dev.visiblePixels := by
  have hroom : machine.sizeT (dev.lutSz * 4) / 4 = dev.lutSz := by
    rw [h.lutSz_eq, Machine.sizeT_of_lt h.table, Nat.mul_div_cancel _ (by decide)]
  obtain ⟨offsets, hwrite, hoffsets⟩ := h.writeLines_visible
  have hlength : dev.lutSz ≤ offsets.length := by
    have hcount := congrArg List.length hoffsets
    rw [List.length_map, length_visiblePixels, ← h.lutSz_eq] at hcount
    exact Nat.le_of_eq hcount.symm
  obtain ⟨lut, hshuffle, hperm⟩ := shuffle_perm rand dev.lutSz 0 offsets hlength
  refine ⟨lut, ?_, hoffsets ▸ hperm.map _⟩
  rw [fbdevTestDataNew, hroom]
  simp only [Bool.true_eq_false, if_false, Option.bind_eq_bind, Option.bind_some, hwrite, hshuffle]
  rfl

end

/-! ## The frames -/

section

variable {machine : Machine} {dev : FbdevDevice} {fb buffer : List UInt8}

/-- A line of a frame in memory. -/
theorem frameLine_le {y : Nat} (hy : y < dev.variantInfo.yres.toNat) :
    y * (dev.variantInfo.xres.toNat * dev.bytesPerPixel) +
      dev.variantInfo.xres.toNat * dev.bytesPerPixel ≤ dev.frameSize := by
  rw [← Nat.succ_mul]
  exact Nat.mul_le_mul_right _ hy

/-- What a blit leaves in the frame buffer. -/
theorem Valid.blit_rows (h : dev.Valid machine) (hfb : fb.length = dev.fixedInfo.smemLen.toNat)
    (hbuffer : buffer.length = dev.frameSize) :
    ∃ fb', dev.fbdevBlitBufClipVis machine fb buffer = some fb' ∧
      RowsWritten (dev.pixelOffset 0) (dev.variantInfo.xres.toNat * dev.bytesPerPixel)
        dev.variantInfo.yres.toNat
        (fun y k => buffer[y * (dev.variantInfo.xres.toNat * dev.bytesPerPixel) + k]?) fb fb' := by
  have hstep : ∀ y < dev.variantInfo.yres.toNat, ∀ d : List UInt8,
      d.length = dev.fixedInfo.smemLen.toNat →
        ∃ d', copyBlock d (dev.visibleStart + y * dev.fixedInfo.lineLength.toNat) buffer
            (machine.sizeT (y * dev.lineSz machine)) (dev.lineSz machine) = some d' ∧
          CellsWritten (dev.pixelOffset 0 y) (dev.variantInfo.xres.toNat * dev.bytesPerPixel)
            (fun k => buffer[y * (dev.variantInfo.xres.toNat * dev.bytesPerPixel) + k]?) d d' := by
    intro y hy d hd
    rw [h.sizeT_line hy, h.lineSz_eq, h.visibleStart_eq, pixelOffset_line]
    exact copyBlock_written (hd ▸ h.line_le hy) (hbuffer ▸ frameLine_le hy)
  obtain ⟨fb', hrun, hrows⟩ :=
    rows_run _ hstep (fun _ _ _ hlt => .inl (h.apart hlt)) hfb
  refine ⟨fb', ?_, hrows⟩
  rw [fbdevBlitBufClipVis, foldlM_pointer (fun p d y =>
    copyBlock d p buffer (machine.sizeT (y * dev.lineSz machine)) (dev.lineSz machine)), hrun]
  rfl

/-- What a grab leaves in the buffer. -/
theorem Valid.grab_rows (h : dev.Valid machine) (hfb : fb.length = dev.fixedInfo.smemLen.toNat)
    (hbuffer : buffer.length = dev.frameSize) :
    ∃ buffer', dev.fbdevGrabBufClipVis machine fb buffer = some buffer' ∧
      RowsWritten (fun y => y * (dev.variantInfo.xres.toNat * dev.bytesPerPixel))
        (dev.variantInfo.xres.toNat * dev.bytesPerPixel) dev.variantInfo.yres.toNat
        (fun y k => fb[dev.pixelOffset 0 y + k]?) buffer buffer' := by
  have hstep : ∀ y < dev.variantInfo.yres.toNat, ∀ d : List UInt8, d.length = dev.frameSize →
      ∃ d', copyBlock d (machine.sizeT (y * dev.lineSz machine)) fb
          (dev.visibleStart + y * dev.fixedInfo.lineLength.toNat) (dev.lineSz machine) = some d' ∧
        CellsWritten (y * (dev.variantInfo.xres.toNat * dev.bytesPerPixel))
          (dev.variantInfo.xres.toNat * dev.bytesPerPixel)
          (fun k => fb[dev.pixelOffset 0 y + k]?) d d' := by
    intro y hy d hd
    rw [h.sizeT_line hy, h.lineSz_eq, h.visibleStart_eq, pixelOffset_line]
    exact copyBlock_written (hd ▸ frameLine_le hy) (hfb ▸ h.line_le hy)
  have hapart : ∀ y' < dev.variantInfo.yres.toNat, ∀ y < y',
      y * (dev.variantInfo.xres.toNat * dev.bytesPerPixel) +
          dev.variantInfo.xres.toNat * dev.bytesPerPixel ≤
        y' * (dev.variantInfo.xres.toNat * dev.bytesPerPixel) ∨
      y' * (dev.variantInfo.xres.toNat * dev.bytesPerPixel) +
          dev.variantInfo.xres.toNat * dev.bytesPerPixel ≤
        y * (dev.variantInfo.xres.toNat * dev.bytesPerPixel) := by
    intro y' _ y hlt
    rw [← Nat.succ_mul]
    exact .inl (Nat.mul_le_mul_right _ hlt)
  obtain ⟨buffer', hrun, hrows⟩ := rows_run _ hstep hapart hbuffer
  refine ⟨buffer', ?_, hrows⟩
  rw [fbdevGrabBufClipVis, foldlM_pointer (fun p d y =>
    copyBlock d (machine.sizeT (y * dev.lineSz machine)) fb p (dev.lineSz machine)), hrun]
  rfl

/-- What is outside the window is outside its lines. -/
theorem outside_lines {a : Nat} (ha : ¬dev.Visible a) :
    ∀ y < dev.variantInfo.yres.toNat, a < dev.pixelOffset 0 y ∨
      dev.pixelOffset 0 y + dev.variantInfo.xres.toNat * dev.bytesPerPixel ≤ a := by
  intro y hy
  by_contra hin
  rw [not_or, Nat.not_lt, Nat.not_le] at hin
  obtain ⟨c, rfl⟩ := Nat.exists_eq_add_of_le hin.1
  have hc : c < dev.variantInfo.xres.toNat * dev.bytesPerPixel := Nat.lt_of_add_lt_add_left hin.2
  have hbytes : 0 < dev.bytesPerPixel :=
    Nat.pos_of_ne_zero fun h0 => by
      rw [h0, Nat.mul_zero] at hc
      exact Nat.not_lt_zero c hc
  have hdiv := Nat.div_add_mod c dev.bytesPerPixel
  have hmod := Nat.mod_lt c hbytes
  refine ha ⟨y, hy, c / dev.bytesPerPixel, Nat.div_lt_of_lt_mul (Nat.mul_comm _ _ ▸ hc), ?_, ?_⟩
  · rw [pixelOffset_pixel (c / dev.bytesPerPixel), Nat.mul_comm]
    omega
  · rw [pixelOffset_pixel (c / dev.bytesPerPixel), Nat.mul_comm (c / dev.bytesPerPixel)]
    omega

/-- A pixel of the window in a frame and in the frame buffer. -/
theorem pixel_of_rows {fb' : List UInt8}
    (hrows : RowsWritten (dev.pixelOffset 0) (dev.variantInfo.xres.toNat * dev.bytesPerPixel)
      dev.variantInfo.yres.toNat
      (fun y k => buffer[y * (dev.variantInfo.xres.toNat * dev.bytesPerPixel) + k]?) fb fb')
    {x y c : Nat} (hx : x < dev.variantInfo.xres.toNat) (hy : y < dev.variantInfo.yres.toNat)
    (hc : c < dev.bytesPerPixel) :
    fb'[dev.pixelOffset x y + c]? =
      buffer[(y * dev.variantInfo.xres.toNat + x) * dev.bytesPerPixel + c]? := by
  have hlast : (x + 1) * dev.bytesPerPixel ≤ dev.variantInfo.xres.toNat * dev.bytesPerPixel :=
    Nat.mul_le_mul_right _ hx
  rw [Nat.succ_mul] at hlast
  rw [pixelOffset_pixel, Nat.add_assoc, hrows.inside y hy _ (by omega), Nat.add_mul,
    Nat.mul_assoc, Nat.add_assoc]

/-- **The table and the two copies agree on the visible window.**  The table is a permutation of
the offsets of its pixels, all of which are inside the frame buffer; a frame that is written to
the window is there pixel by pixel, is read back as it was, and is nowhere else. -/
theorem visibleWindow (h : dev.Valid machine) (rand : Nat → UInt32) {frame : List UInt8}
    (hfb : fb.length = dev.fixedInfo.smemLen.toNat) (hframe : frame.length = dev.frameSize)
    (hbuffer : buffer.length = dev.frameSize) :
    (∃ lut, dev.fbdevTestDataNew machine true rand = some (some lut) ∧
      (lut.map UInt32.toNat).Perm dev.visiblePixels) ∧
    (∀ o ∈ dev.visiblePixels, o + dev.bytesPerPixel ≤ fb.length) ∧
    ∃ fb', dev.fbdevBlitBufClipVis machine fb frame = some fb' ∧
      dev.fbdevGrabBufClipVis machine fb' buffer = some frame ∧
      fb'.length = fb.length ∧ (∀ a, ¬dev.Visible a → fb'[a]? = fb[a]?) ∧
      ∀ y < dev.variantInfo.yres.toNat, ∀ x < dev.variantInfo.xres.toNat,
        ∀ c < dev.bytesPerPixel, fb'[dev.pixelOffset x y + c]? =
          frame[(y * dev.variantInfo.xres.toNat + x) * dev.bytesPerPixel + c]? := by
  refine ⟨h.testData_perm rand, ?_, ?_⟩
  · intro o ho
    obtain ⟨y, hy, x, hx, rfl⟩ := mem_visiblePixels.mp ho
    have hline := h.line_le hy
    have hlast : (x + 1) * dev.bytesPerPixel ≤ dev.variantInfo.xres.toNat * dev.bytesPerPixel :=
      Nat.mul_le_mul_right _ hx
    rw [Nat.succ_mul] at hlast
    rw [hfb, pixelOffset_pixel]
    omega
  · obtain ⟨fb', hblit, hrows⟩ := h.blit_rows hfb hframe
    obtain ⟨out, hgrab, hout⟩ := h.grab_rows (hrows.length_eq.trans hfb) hbuffer
    have hback : out = frame := by
      apply ext_rows (hout.length_eq.trans hbuffer) hframe
      intro y hy k hk
      rw [hout.inside y hy k hk]
      exact hrows.inside y hy k hk
    refine ⟨fb', hblit, hback ▸ hgrab, hrows.length_eq, ?_, ?_⟩
    · intro a ha
      exact hrows.outside a (outside_lines ha)
    · intro y hy x hx c hc
      exact pixel_of_rows hrows hx hy hc

/-- A window of two by two pixels, off the corner of a screen with longer lines. -/
def smallDevice : FbdevDevice where
  fixedInfo := ⟨32, 8⟩
  variantInfo := ⟨2, 2, 3, 4, 1, 1, 16⟩

theorem smallDevice_valid : smallDevice.Valid .bits64 where
  wholeBytes := by decide
  columns := by decide
  lines := by decide
  line := by decide
  screen := by decide
  pixels := by decide
  table := by decide

theorem visibleWindow_small :
    (∃ lut, smallDevice.fbdevTestDataNew .bits64 true (fun call => UInt32.ofNat call) =
        some (some lut) ∧ (lut.map UInt32.toNat).Perm smallDevice.visiblePixels) ∧
      ∃ fb', smallDevice.fbdevBlitBufClipVis .bits64 (List.replicate 32 0)
          [1, 2, 3, 4, 5, 6, 7, 8] = some fb' ∧
        smallDevice.fbdevGrabBufClipVis .bits64 fb' (List.replicate 8 0) =
          some [1, 2, 3, 4, 5, 6, 7, 8] := by
  obtain ⟨htable, -, fb', hblit, hgrab, -⟩ :=
    visibleWindow smallDevice_valid (fun call => UInt32.ofNat call)
      (show (List.replicate 32 (0 : UInt8)).length = _ from rfl)
      (show [1, 2, 3, 4, 5, 6, 7, (8 : UInt8)].length = _ from rfl)
      (show (List.replicate 8 (0 : UInt8)).length = _ from rfl)
  exact ⟨htable, fb', hblit, hgrab⟩

end

end FbdevDevice

end Blts.Fbdev
