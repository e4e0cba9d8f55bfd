import Mathlib.Data.List.Basic
import Blts.Lib.Blocks
import Blts.Lib.CNumbers

/-!
# The scrolling images of the XVideo benchmark

In each frame of a scrolling benchmark the rows of the second image are copied into the first,
rotated right by an offset that grows from frame to frame (`xv_scroll_buf`).  In an image of one
plane the offset goes through the row itself; in one of several planes it goes through the width of
the image, and a product and two divisions make of it the offset of each plane.  The product is an
`int`, and neither division keeps the result below the pitch of the plane.  What is needed is
said by `XvImage.Fits`, of the last position only.
-/

namespace Blts.Xvideo

open Lib

/-! ## Numbers -/

/-- An `int` as an `unsigned`. -/
def cUnsigned (x : Int) : Nat := (x % 4294967296).toNat

/-- An `unsigned` as an `int`. -/
def cSigned (n : Nat) : Int :=
  if n < 2147483648 then (n : Int) else (n : Int) - 4294967296

/-- Sums and differences of `unsigned`s. -/
def uAdd (a b : Nat) : Nat := (a + b) % 4294967296

def uSub (a b : Nat) : Nat := (a + (4294967296 - b)) % 4294967296

theorem cUnsigned_of {x : Int} (h : 0 ≤ x) (hlt : x < 4294967296) : (cUnsigned x : Int) = x := by
  rw [cUnsigned]
  omega

theorem uAdd_of_lt {a b : Nat} (h : a + b < 4294967296) : uAdd a b = a + b := Nat.mod_eq_of_lt h

theorem uSub_of_le {a b : Nat} (h : b ≤ a) (hlt : a < 4294967296) : uSub a b = a - b := by
  rw [uSub]
  omega

/-! ## The code -/

/-- The entries of `fmt_table` with a fourcc and the bits of a macropixel. -/
structure XvPixFmt where
  fourcc : String
  mpixBpp : Nat
  deriving DecidableEq

/-- `fmt_table`, without its last entry. -/
def fmtTable : List XvPixFmt :=
  [⟨"YUY2", 32⟩, ⟨"YUYV", 32⟩, ⟨"YUNV", 32⟩, ⟨"V422", 32⟩, ⟨"YV12", 0⟩, ⟨"UYVY", 32⟩,
    ⟨"I420", 0⟩, ⟨"IYUV", 0⟩]

/-- `xv_get_format`. -/
def xvGetFormat (fourcc : String) : Option XvPixFmt :=
  fmtTable.find? fun fmt => fmt.fourcc = fourcc

/-- `pitches[t]` and `offsets[t]`. -/
structure XvPlane where
  pitch : Nat
  offset : Nat

/-- The geometry of an `XvImage`, the same for all images of a benchmark. -/
structure XvImage where
  width : Nat
  height : Nat
  dataSize : Nat
  planes : List XvPlane

/-- A part of an image: where it starts, its size and its pitch. -/
structure Area where
  base : Nat
  size : Int
  pitch : Nat

/-- Where a plane ends: at the next one, or at the end of the data. -/
def planeEnd (dataSize : Nat) : List XvPlane → Nat
  | [] => dataSize
  | next :: _ => next.offset

/-- The planes of an image of several, each with its `plane_size`. -/
def planeAreas (dataSize : Nat) : List XvPlane → List Area
  | [] => []
  | plane :: planes =>
      ⟨plane.offset, (planeEnd dataSize planes : Int) - plane.offset, plane.pitch⟩ ::
        planeAreas dataSize planes

/-- The loop of `xv_scroll_buf` over the rows; `none` if it leaves an image, or if it does not come
to an end. -/
def scrollRows (orig : List UInt8) (base size pitch xOff : Nat) :
    Nat → Nat → List UInt8 → Option (List UInt8)
  | 0, _, _ => none
  | fuel + 1, i, img =>
      if i < size then do
        let img ← copyBlock img (base + i) orig (base + uSub (uAdd i pitch) xOff) xOff
        let img ← copyBlock img (base + uAdd i xOff) orig (base + i) (uSub pitch xOff)
        scrollRows orig base size pitch xOff fuel (uAdd i pitch) img
      else some img

/-- `xv_scroll_buf`, with the same place in both images.  A loop that ends has at most a row for
each byte. -/
def xvScrollBuf (orig : List UInt8) (base : Nat) (img : List UInt8) (size pitch xOff : Nat) :
    Option (List UInt8) :=
  scrollRows orig base size pitch xOff (size + 1) 0 img

/-- `offset * plane_size / height / pitch`. -/
def XvImage.planeOffset (x : XvImage) (offset : Int) (area : Area) : Option Int := do
  let product ← cInt (offset * area.size)
  if x.height = 0 ∨ area.pitch = 0 then none
  else some ((product.tdiv x.height).tdiv area.pitch)

/-- The loop over the planes of an image of several. -/
def scrollPlanes (x : XvImage) (offset : Int) (src : List UInt8) :
    List Area → List UInt8 → Option (List UInt8)
  | [], dst => some dst
  | area :: areas, dst => do
      let xOff ← x.planeOffset offset area
      let dst ← xvScrollBuf src area.base dst (cUnsigned area.size) area.pitch (cUnsigned xOff)
      scrollPlanes x offset src areas dst

/-- `offset` and the data of the image that is shown. -/
structure ScrollState where
  offset : Int
  dst : List UInt8

/-- A frame. -/
def scrollFrame (x : XvImage) (fmt : XvPixFmt) (src : List UInt8) (s : ScrollState) :
    Option ScrollState :=
  match x.planes with
  | [] => none
  | [plane] => do
      let dst ← xvScrollBuf src 0 s.dst x.dataSize plane.pitch (cUnsigned s.offset)
      let offset := cSigned (uAdd (cUnsigned s.offset) (fmt.mpixBpp / 8))
      return ⟨if (plane.pitch : Int) ≤ offset then 0 else offset, dst⟩
  | planes => do
      let dst ← scrollPlanes x s.offset src (planeAreas x.dataSize planes) s.dst
      let offset ← cInt (s.offset + 1)
      return ⟨if (x.width : Int) ≤ offset then 0 else offset, dst⟩

/-- The frames of a run, one after the other. -/
def scrollRun (x : XvImage) (fmt : XvPixFmt) (src dst : List UInt8) : Nat → Option ScrollState
  | 0 => some ⟨0, dst⟩
  | n + 1 => (scrollRun x fmt src dst n).bind (scrollFrame x fmt src)

/-! ## What it is for -/

/-- The parts of an image that are scrolled: its planes, or all the data of the only one. -/
def XvImage.areas (x : XvImage) : List Area :=
  match x.planes with
  | [plane] => [⟨0, x.dataSize, plane.pitch⟩]
  | planes => planeAreas x.dataSize planes

/-- The offset that is passed for a part. -/
def XvImage.passed (x : XvImage) (offset : Int) (area : Area) : Option Int :=
  match x.planes with
  | [_] => some offset
  | _ => x.planeOffset offset area

/-- Each row is the row of the source, rotated right. -/
def Area.Rotated (area : Area) (xOff : Nat) (src dst : List UInt8) : Prop :=
  ∀ row : Nat, ((row + 1) * area.pitch : Nat) ≤ area.size → ∀ k < area.pitch,
    dst[area.base + row * area.pitch + k]? =
      src[area.base + row * area.pitch + (k + (area.pitch - xOff)) % area.pitch]?

/-- A frame at an offset shows the source, scrolled. -/
def XvImage.FrameRight (x : XvImage) (src : List UInt8) (offset : Int) (dst : List UInt8) : Prop :=
  ∀ area ∈ x.areas, ∃ xOff, x.passed offset area = some xOff ∧ cUnsigned xOff ≤ area.pitch ∧
    area.Rotated (cUnsigned xOff) src dst

/-- Every frame of every run is right. -/
def XvImage.ScrollRight (x : XvImage) (fmt : XvPixFmt) : Prop :=
  ∀ src dst : List UInt8, src.length = x.dataSize → dst.length = x.dataSize → ∀ n, ∃ s s',
    scrollRun x fmt src dst n = some s ∧ scrollFrame x fmt src s = some s' ∧
      x.FrameRight src s.offset s'.dst

/-- A geometry: its numbers are `int`s, and each plane is made of rows. -/
structure XvImage.Valid (x : XvImage) : Prop where
  planes_ne_nil : x.planes ≠ []
  dataSize_lt : x.dataSize < 2147483648
  width_lt : x.width < 2147483648
  pitch_lt : ∀ area ∈ x.areas, area.pitch < 2147483648
  rows : ∀ area ∈ x.areas, ∃ rows : Nat, area.size = (rows * area.pitch : Nat)

/-- At the last position, the product of each plane is an `int` and what is made of it is not more
than the pitch.  In an image of one plane, a row leaves room for one more macropixel. -/
def XvImage.Fits (x : XvImage) (fmt : XvPixFmt) : Prop :=
  match x.planes with
  | [plane] => fmt.mpixBpp / 8 = 0 ∨ plane.pitch ≤ 2147483644
  | _ => x.height ≠ 0 ∧ ∀ area ∈ x.areas, area.pitch ≠ 0 ∧
      ((x.width - 1 : Nat) : Int) * area.size ≤ 2147483647 ∧
        ((x.width - 1 : Nat) : Int) * area.size / x.height / area.pitch ≤ area.pitch

/-! ## The rows -/

section

variable {orig img img₀ : List UInt8} {base pitch xOff rows : Nat}

/-- A row of the source, rotated right. -/
def rotatedRow (orig : List UInt8) (base pitch xOff row k : Nat) : Option UInt8 :=
  orig[base + row * pitch + (k + (pitch - xOff)) % pitch]?

/-- The two copies of a lap write a row. -/
theorem copyRow {row : Nat} (hx : xOff ≤ pitch)
    (horig : base + (row + 1) * pitch ≤ orig.length)
    (himg : base + (row + 1) * pitch ≤ img.length) :
    ∃ img' img'', copyBlock img (base + row * pitch) orig
        (base + (row * pitch + pitch - xOff)) xOff = some img' ∧
      copyBlock img' (base + (row * pitch + xOff)) orig (base + row * pitch) (pitch - xOff) =
        some img'' ∧
      CellsWritten (base + row * pitch) pitch (rotatedRow orig base pitch xOff row) img img'' := by
  rw [Nat.succ_mul] at horig himg
  obtain ⟨img', hfirst, hhead⟩ := @copyBlock_written UInt8 img orig (base + row * pitch)
    (base + (row * pitch + pitch - xOff)) xOff (by omega) (by omega)
  have hlength := hhead.length_eq
  obtain ⟨img'', hsecond, htail⟩ := @copyBlock_written UInt8 img' orig
    (base + row * pitch + xOff) (base + row * pitch) (pitch - xOff) (by omega) (by omega)
  have hboth := hhead.append htail
  rw [Nat.add_sub_cancel' hx] at hboth
  rw [Nat.add_assoc] at hsecond
  refine ⟨img', img'', hfirst, hsecond, hboth.congr fun k hk => ?_⟩
  unfold rotatedRow
  by_cases hkx : k < xOff
  · have hmod : (k + (pitch - xOff)) % pitch = k + (pitch - xOff) := Nat.mod_eq_of_lt (by omega)
    rw [if_pos hkx, hmod]
    congr 1
    omega
  · have hmod : (k + (pitch - xOff)) % pitch = k - xOff := by
      have hwrap : k + (pitch - xOff) = k - xOff + pitch := by omega
      rw [hwrap, Nat.add_mod_right]
      exact Nat.mod_eq_of_lt (by omega)
    rw [if_neg hkx, hmod]

/-- The rest of the loop, from a row on. -/
theorem scrollRows_written (hx : xOff ≤ pitch) (hpitch : 0 < pitch)
    (hsize : rows * pitch < 2147483648) (hpitchLt : pitch < 2147483648)
    (horig : base + rows * pitch ≤ orig.length) (left : Nat) :
    ∀ {fuel row : Nat} {img : List UInt8}, row + left = rows → left < fuel →
      base + rows * pitch ≤ img.length →
        RowsWritten (fun row => base + row * pitch) pitch row
          (rotatedRow orig base pitch xOff) img₀ img →
        ∃ img', scrollRows orig base (rows * pitch) pitch xOff fuel (row * pitch) img =
            some img' ∧
          RowsWritten (fun row => base + row * pitch) pitch rows
            (rotatedRow orig base pitch xOff) img₀ img' := by
  induction left with
  | zero =>
      intro fuel row img hrow hfuel himg hdone
      obtain ⟨fuel, rfl⟩ := Nat.exists_eq_succ_of_ne_zero (Nat.ne_of_gt hfuel)
      rw [Nat.add_zero] at hrow
      rw [← hrow]
      exact ⟨img, if_neg (Nat.lt_irrefl _), hdone⟩
  | succ left ih =>
      intro fuel row img hrow hfuel himg hdone
      obtain ⟨fuel, rfl⟩ := Nat.exists_eq_succ_of_ne_zero (show fuel ≠ 0 by omega)
      have hend : (row + 1) * pitch ≤ rows * pitch := Nat.mul_le_mul_right _ (by omega)
      obtain ⟨img', img'', hfirst, hsecond, hcells⟩ := @copyRow orig img base pitch xOff row hx
        (by omega) (by omega)
      have hstep := hdone.step hcells fun earlier hlt => by
        have hle : (earlier + 1) * pitch ≤ row * pitch := Nat.mul_le_mul_right _ hlt
        rw [Nat.succ_mul] at hle
        exact .inl (by omega)
      obtain ⟨last, hrun, hrows⟩ := @ih fuel (row + 1) img'' (by omega) (by omega)
        (by rw [hcells.length_eq]; exact himg) hstep
      refine ⟨last, ?_, hrows⟩
      rw [Nat.succ_mul] at hend hrun
      rw [scrollRows, if_pos (by omega), uAdd_of_lt (by omega), uAdd_of_lt (by omega),
        uSub_of_le (by omega) (by omega), uSub_of_le hx (by omega), hfirst,
        Option.bind_eq_bind, Option.bind_some, hsecond, Option.bind_some]
      exact hrun

/-- **`xv_scroll_buf`** writes all the rows, each of them rotated. -/
theorem xvScrollBuf_written (hx : xOff ≤ pitch) (hsize : rows * pitch < 2147483648)
    (horig : base + rows * pitch ≤ orig.length) (himg : base + rows * pitch ≤ img.length) :
    ∃ img', xvScrollBuf orig base img (rows * pitch) pitch xOff = some img' ∧
      RowsWritten (fun row => base + row * pitch) pitch rows
        (rotatedRow orig base pitch xOff) img img' := by
  by_cases hnone : rows = 0 ∨ pitch = 0
  · have hzero : rows * pitch = 0 := Nat.mul_eq_zero.mpr hnone
    rw [hzero]
    refine ⟨img, rfl, rfl, fun row hrow k hk => ?_, fun _ _ => rfl⟩
    omega
  · rw [not_or] at hnone
    have hpitch : 0 < pitch := Nat.pos_of_ne_zero hnone.2
    have hrows : 0 < rows := Nat.pos_of_ne_zero hnone.1
    have hrowsLe : rows ≤ rows * pitch := Nat.le_mul_of_pos_right _ hpitch
    have hpitchLe : pitch ≤ rows * pitch := Nat.le_mul_of_pos_left _ hrows
    obtain ⟨img', hrun, hwritten⟩ := @scrollRows_written orig img base pitch xOff rows hx hpitch
      hsize (by omega) horig rows (rows * pitch + 1) 0 img (Nat.zero_add _) (by omega) himg .refl
    rw [Nat.zero_mul] at hrun
    exact ⟨img', hrun, hwritten⟩

end

/-! ## The planes -/

section

variable {x : XvImage} {src dst : List UInt8} {offset : Int}

/-- The planes are inside the data and one behind the other. -/
theorem planeAreas_inside {dataSize : Nat} (planes : List XvPlane)
    (h : ∀ area ∈ planeAreas dataSize planes, 0 ≤ area.size) :
    planeEnd dataSize planes ≤ dataSize ∧ ∀ area ∈ planeAreas dataSize planes,
      planeEnd dataSize planes ≤ area.base ∧ (area.base : Int) + area.size ≤ dataSize := by
  induction planes with
  | nil => exact ⟨Nat.le_refl _, fun _ hmem => absurd hmem List.not_mem_nil⟩
  | cons plane planes ih =>
      obtain ⟨hplane, hplanes⟩ := List.forall_mem_cons.mp h
      obtain ⟨hend, hareas⟩ := ih hplanes
      dsimp only at hplane
      have hstart : plane.offset ≤ planeEnd dataSize planes := by omega
      refine ⟨Nat.le_trans hstart hend, List.forall_mem_cons.mpr ⟨⟨Nat.le_refl _, ?_⟩, ?_⟩⟩
      · dsimp only
        omega
      · intro area harea
        exact ⟨Nat.le_trans hstart (hareas area harea).1, (hareas area harea).2⟩

theorem planeAreas_apart {dataSize : Nat} (planes : List XvPlane)
    (h : ∀ area ∈ planeAreas dataSize planes, 0 ≤ area.size) :
    (planeAreas dataSize planes).Pairwise fun a b => (a.base : Int) + a.size ≤ b.base := by
  induction planes with
  | nil => exact .nil
  | cons plane planes ih =>
      obtain ⟨-, hplanes⟩ := List.forall_mem_cons.mp h
      refine List.pairwise_cons.mpr ⟨fun area harea => ?_, ih hplanes⟩
      have hnext := ((planeAreas_inside planes hplanes).2 area harea).1
      dsimp only
      omega

/-- A plane can be scrolled: it is made of rows, it is inside the data, and its offset is at most
its pitch. -/
structure Area.Ready (area : Area) (dataSize : Nat) (xOff : Option Int) : Prop where
  rows : ∃ rows : Nat, area.size = (rows * area.pitch : Nat)
  inside : (area.base : Int) + area.size ≤ dataSize
  offset : ∃ o, xOff = some o ∧ cUnsigned o ≤ area.pitch

/-- A scrolled area: its rows are rotated, and nothing else has changed. -/
theorem scrollArea {area : Area} {xOff : Nat} (hrows : ∃ rows : Nat,
      area.size = (rows * area.pitch : Nat)) (hx : xOff ≤ area.pitch)
    (hinside : (area.base : Int) + area.size ≤ x.dataSize) (hlt : x.dataSize < 2147483648)
    (hsrc : src.length = x.dataSize) (hdst : dst.length = x.dataSize) :
    ∃ dst', xvScrollBuf src area.base dst (cUnsigned area.size) area.pitch xOff = some dst' ∧
      dst'.length = x.dataSize ∧ area.Rotated xOff src dst' ∧
      ∀ i : Nat, (i : Int) < area.base ∨ (area.base : Int) + area.size ≤ i →
        dst'[i]? = dst[i]? := by
  obtain ⟨rows, hsize⟩ := hrows
  rw [hsize] at hinside
  have hunsigned : cUnsigned area.size = rows * area.pitch := by
    have hnum := @cUnsigned_of area.size (by omega) (by omega)
    omega
  obtain ⟨dst', hrun, hwritten⟩ := @xvScrollBuf_written src dst area.base area.pitch xOff rows hx
    (by omega) (by omega) (by omega)
  rw [hunsigned]
  refine ⟨dst', hrun, hwritten.length_eq.trans hdst, ?_, ?_⟩
  · intro row hrow k hk
    rw [hsize] at hrow
    have hlast : row + 1 ≤ rows :=
      Nat.le_of_mul_le_mul_right (Int.ofNat_le.mp hrow) (Nat.zero_lt_of_lt hk)
    exact hwritten.inside row hlast k hk
  · intro i hi
    apply hwritten.outside
    intro row hrow
    have hlast : (row + 1) * area.pitch ≤ rows * area.pitch := Nat.mul_le_mul_right _ hrow
    rw [Nat.succ_mul] at hlast
    omega

/-- **The loop over the planes.** -/
theorem scrollPlanes_rotated (hlt : x.dataSize < 2147483648) (hsrc : src.length = x.dataSize)
    (areas : List Area)
    (hready : ∀ area ∈ areas, area.Ready x.dataSize (x.planeOffset offset area))
    (hapart : areas.Pairwise fun a b => (a.base : Int) + a.size ≤ b.base)
    (dst : List UInt8) (hdst : dst.length = x.dataSize) :
    ∃ dst', scrollPlanes x offset src areas dst = some dst' ∧ dst'.length = x.dataSize ∧
      (∀ area ∈ areas, ∃ xOff, x.planeOffset offset area = some xOff ∧
        cUnsigned xOff ≤ area.pitch ∧ area.Rotated (cUnsigned xOff) src dst') ∧
      ∀ i : Nat, (∀ area ∈ areas, (i : Int) < area.base ∨ (area.base : Int) + area.size ≤ i) →
        dst'[i]? = dst[i]? := by
  induction areas generalizing dst with
  | nil =>
      exact ⟨dst, rfl, hdst, fun _ hmem => absurd hmem List.not_mem_nil, fun _ _ => rfl⟩
  | cons area areas ih =>
      obtain ⟨hfirst, hrest⟩ := List.forall_mem_cons.mp hready
      obtain ⟨hbefore, hpairs⟩ := List.pairwise_cons.mp hapart
      obtain ⟨xOff, hoff, hle⟩ := hfirst.offset
      obtain ⟨img, hscroll, himg, hrotated, hsame⟩ :=
        scrollArea hfirst.rows hle hfirst.inside hlt hsrc hdst
      obtain ⟨dst', hrun, hlength, hall, hother⟩ := ih hrest hpairs img himg
      refine ⟨dst', ?_, hlength, List.forall_mem_cons.mpr ⟨⟨xOff, hoff, hle, ?_⟩, hall⟩, ?_⟩
      · rw [scrollPlanes, hoff, Option.bind_eq_bind, Option.bind_some, hscroll]
        exact hrun
      · -- the planes behind this one leave its rows alone
        intro row hrow k hk
        rw [← hrotated row hrow k hk]
        apply hother
        intro later hlater
        have hbase := hbefore later hlater
        rw [Nat.succ_mul] at hrow
        exact .inl (by omega)
      · intro i hi
        obtain ⟨hhere, hlater⟩ := List.forall_mem_cons.mp hi
        exact (hother i hlater).trans (hsame i hhere)

end

/-! ## The frames -/

section

variable {x : XvImage} {fmt : XvPixFmt} {src dst : List UInt8} {s s' : ScrollState}

/-- What every frame keeps makes every run right. -/
theorem scrollRight_of_frame (inv : Int → Prop) (hstart : inv 0)
    (hframe : ∀ src : List UInt8, src.length = x.dataSize → ∀ s, s.dst.length = x.dataSize →
      inv s.offset → ∃ s', scrollFrame x fmt src s = some s' ∧ s'.dst.length = x.dataSize ∧
        inv s'.offset ∧ x.FrameRight src s.offset s'.dst) :
    x.ScrollRight fmt := by
  intro src dst hsrc hdst n
  have hrun : ∃ s, scrollRun x fmt src dst n = some s ∧ s.dst.length = x.dataSize ∧
      inv s.offset := by
    induction n with
    | zero => exact ⟨⟨0, dst⟩, rfl, hdst, hstart⟩
    | succ n ih =>
        obtain ⟨s, hs, hlength, hinv⟩ := ih
        obtain ⟨s', hs', hlength', hinv', -⟩ := hframe src hsrc s hlength hinv
        refine ⟨s', ?_, hlength', hinv'⟩
        rw [scrollRun, hs]
        exact hs'
  obtain ⟨s, hs, hlength, hinv⟩ := hrun
  obtain ⟨s', hs', -, -, hright⟩ := hframe src hsrc s hlength hinv
  exact ⟨s, s', hs, hs', hright⟩

/-- The offsets of the first frames, where each frame adds a step. -/
theorem scrollRun_offset {step : Int} {m : Nat}
    (hframe : ∀ k < m, ∀ s s', s.offset = step * k → scrollFrame x fmt src s = some s' →
      s'.offset = step * (k + 1)) :
    ∀ k ≤ m, ∀ s, scrollRun x fmt src dst k = some s → s.offset = step * k := by
  intro k
  induction k with
  | zero =>
      intro _ s hs
      rw [← Option.some.inj hs]
      exact (Int.mul_zero step).symm
  | succ k ih =>
      intro hk s' hs'
      obtain ⟨s, hs, hlast⟩ := Option.bind_eq_some_iff.mp hs'
      exact hframe k hk s s' (ih (Nat.le_of_lt hk) s hs) hlast

theorem mpixBpp_of_get {fourcc : String} (h : xvGetFormat fourcc = some fmt) :
    fmt.mpixBpp / 8 = 0 ∨ fmt.mpixBpp / 8 = 4 := by
  have hmem : fmt ∈ fmtTable := List.mem_of_find?_eq_some h
  have hall : fmtTable.all fun fmt => fmt.mpixBpp / 8 = 0 ∨ fmt.mpixBpp / 8 = 4 := by decide
  exact of_decide_eq_true (List.all_eq_true.mp hall fmt hmem)

/-! ## One plane -/

section

variable {plane : XvPlane}

theorem areas_single (hplanes : x.planes = [plane]) :
    x.areas = [⟨0, x.dataSize, plane.pitch⟩] := by
  simp only [XvImage.areas, hplanes]

theorem passed_single (hplanes : x.planes = [plane]) (offset : Int) (area : Area) :
    x.passed offset area = some offset := by
  simp only [XvImage.passed, hplanes]

theorem scrollFrame_single_eq_some_iff (hplanes : x.planes = [plane]) :
    scrollFrame x fmt src s = some s' ↔
      ∃ dst, xvScrollBuf src 0 s.dst x.dataSize plane.pitch (cUnsigned s.offset) = some dst ∧
        ⟨if (plane.pitch : Int) ≤ cSigned (uAdd (cUnsigned s.offset) (fmt.mpixBpp / 8))
          then 0 else cSigned (uAdd (cUnsigned s.offset) (fmt.mpixBpp / 8)), dst⟩ = s' := by
  simp only [scrollFrame, hplanes, Option.bind_eq_bind, Option.bind_eq_some_iff,
    Option.some.injEq, Option.pure_def]

/-- The next offset, as long as it is an `int`. -/
theorem cSigned_uAdd {offset : Int} {step : Nat} (h : 0 ≤ offset)
    (hlt : offset + step < 2147483648) :
    cSigned (uAdd (cUnsigned offset) step) = offset + step := by
  have hnum := cUnsigned_of h (by omega)
  rw [uAdd_of_lt (by omega), cSigned, if_pos (by omega)]
  omega

/-- A frame of an image of one plane. -/
theorem frame_single (hv : x.Valid) (hplanes : x.planes = [plane])
    (hstep : fmt.mpixBpp / 8 = 0 ∨ fmt.mpixBpp / 8 = 4)
    (hfits : fmt.mpixBpp / 8 = 0 ∨ plane.pitch ≤ 2147483644) (hsrc : src.length = x.dataSize)
    (hdst : s.dst.length = x.dataSize)
    (hoffset : 0 ≤ s.offset ∧ (s.offset < plane.pitch ∨ s.offset = 0)) :
    ∃ s', scrollFrame x fmt src s = some s' ∧ s'.dst.length = x.dataSize ∧
      (0 ≤ s'.offset ∧ (s'.offset < plane.pitch ∨ s'.offset = 0)) ∧
      x.FrameRight src s.offset s'.dst := by
  have hareas := areas_single hplanes
  have hmem : (⟨0, x.dataSize, plane.pitch⟩ : Area) ∈ x.areas := by
    rw [hareas]
    exact List.mem_singleton_self _
  have hpitch : plane.pitch < 2147483648 := hv.pitch_lt _ hmem
  have hlt := hv.dataSize_lt
  have hnum := cUnsigned_of hoffset.1 (by omega)
  have hx : cUnsigned s.offset ≤ plane.pitch := by omega
  obtain ⟨dst', hscroll, hlength, hrotated, -⟩ :=
    @scrollArea x src s.dst ⟨0, x.dataSize, plane.pitch⟩ (cUnsigned s.offset) (hv.rows _ hmem) hx
      (by dsimp only; omega) hlt hsrc hdst
  have hsize : cUnsigned (x.dataSize : Int) = x.dataSize := by
    have hdata := @cUnsigned_of (x.dataSize : Int) (by omega) (by omega)
    omega
  dsimp only at hscroll
  rw [hsize] at hscroll
  have hnext : cSigned (uAdd (cUnsigned s.offset) (fmt.mpixBpp / 8)) =
      s.offset + (fmt.mpixBpp / 8 : Nat) := cSigned_uAdd hoffset.1 (by omega)
  refine ⟨_, (scrollFrame_single_eq_some_iff hplanes).mpr ⟨dst', hscroll, rfl⟩, hlength, ?_, ?_⟩
  · dsimp only
    rw [hnext]
    by_cases hend : (plane.pitch : Int) ≤ s.offset + (fmt.mpixBpp / 8 : Nat)
    · rw [if_pos hend]
      exact ⟨Int.le_refl _, .inr rfl⟩
    · rw [if_neg hend]
      omega
  · intro area harea
    rw [hareas, List.mem_singleton] at harea
    subst harea
    exact ⟨s.offset, passed_single hplanes _ _, hx, hrotated⟩

/-- A row that leaves no room is run out of: the offset becomes a number of 2 GiB. -/
theorem not_scrollRight_single (hv : x.Valid) (hplanes : x.planes = [plane])
    (hstep : fmt.mpixBpp / 8 = 4) (hpitch : 2147483644 < plane.pitch) : ¬x.ScrollRight fmt := by
  intro hright
  have hareas := areas_single hplanes
  have hmem : (⟨0, x.dataSize, plane.pitch⟩ : Area) ∈ x.areas := by
    rw [hareas]
    exact List.mem_singleton_self _
  have hlt : plane.pitch < 2147483648 := hv.pitch_lt _ hmem
  have hlength : (List.replicate x.dataSize (0 : UInt8)).length = x.dataSize :=
    List.length_replicate
  obtain ⟨n, hn⟩ : ∃ n : Nat, n = 536870911 := ⟨_, rfl⟩
  have hframe : ∀ k : Nat, k < n → ∀ s s', s.offset = 4 * (k : Int) →
      scrollFrame x fmt (List.replicate x.dataSize 0) s = some s' →
        s'.offset = 4 * ((k : Int) + 1) := by
    intro k hk s s' hs hs'
    obtain ⟨dst, -, rfl⟩ := (scrollFrame_single_eq_some_iff hplanes).mp hs'
    have hnext := @cSigned_uAdd s.offset (fmt.mpixBpp / 8) (by omega) (by omega)
    dsimp only
    rw [hnext, if_neg (by omega)]
    omega
  obtain ⟨s, s', hs, hs', -⟩ := hright _ _ hlength hlength n
  have hoffset := scrollRun_offset hframe n (Nat.le_refl _) s hs
  have hrun : scrollRun x fmt (List.replicate x.dataSize 0) (List.replicate x.dataSize 0)
      (n + 1) = some s' := by
    rw [scrollRun, hs]
    exact hs'
  obtain ⟨t, t', ht, -, hlast⟩ := hright _ _ hlength hlength (n + 1)
  obtain rfl := Option.some.inj (hrun.symm.trans ht)
  obtain ⟨xOff, hpassed, hle, -⟩ := hlast _ hmem
  rw [passed_single hplanes] at hpassed
  obtain rfl := Option.some.inj hpassed
  obtain ⟨dst, -, rfl⟩ := (scrollFrame_single_eq_some_iff hplanes).mp hs'
  have hunsigned : cUnsigned s.offset = 2147483644 := by
    have hnum := @cUnsigned_of s.offset (by omega) (by omega)
    omega
  have hwrapped : cSigned (uAdd (cUnsigned s.offset) (fmt.mpixBpp / 8)) = -2147483648 := by
    rw [hunsigned, hstep]
    rfl
  dsimp only at hle
  rw [hwrapped, if_neg (by omega)] at hle
  have hfar : cUnsigned (-2147483648) = 2147483648 := rfl
  omega

end

/-! ## Several planes -/

section

variable {plane next : XvPlane} {planes : List XvPlane}

theorem areas_several (hplanes : x.planes = plane :: next :: planes) :
    x.areas = planeAreas x.dataSize x.planes := by
  simp only [XvImage.areas, hplanes]

theorem passed_several (hplanes : x.planes = plane :: next :: planes) (offset : Int)
    (area : Area) : x.passed offset area = x.planeOffset offset area := by
  simp only [XvImage.passed, hplanes]

theorem planeOffset_eq_some_iff {offset xOff : Int} {area : Area} :
    x.planeOffset offset area = some xOff ↔ IsInt (offset * area.size) ∧
      (x.height ≠ 0 ∧ area.pitch ≠ 0) ∧
        ((offset * area.size).tdiv x.height).tdiv area.pitch = xOff := by
  rw [XvImage.planeOffset, Option.bind_eq_bind, cInt_bind_eq_some]
  refine and_congr_right fun _ => ?_
  by_cases hzero : x.height = 0 ∨ area.pitch = 0
  · rw [if_pos hzero]
    refine iff_of_false (fun h => by cases h) fun h => ?_
    exact hzero.elim h.1.1 h.1.2
  · rw [if_neg hzero, Option.some.injEq]
    exact (and_iff_right (not_or.mp hzero)).symm

theorem scrollFrame_several_eq_some_iff (hplanes : x.planes = plane :: next :: planes) :
    scrollFrame x fmt src s = some s' ↔
      ∃ dst, scrollPlanes x s.offset src x.areas s.dst = some dst ∧ IsInt (s.offset + 1) ∧
        ⟨if (x.width : Int) ≤ s.offset + 1 then 0 else s.offset + 1, dst⟩ = s' := by
  rw [areas_several hplanes]
  simp only [scrollFrame, hplanes, Option.bind_eq_bind, Option.bind_eq_some_iff,
    Option.some.injEq, Option.pure_def, cInt_eq_some_iff]
  constructor
  · rintro ⟨dst, hdst, _, ⟨hint, rfl⟩, hs'⟩
    exact ⟨dst, hdst, hint, hs'⟩
  · rintro ⟨dst, hdst, hint, hs'⟩
    exact ⟨dst, hdst, _, ⟨hint, rfl⟩, hs'⟩

/-- Up to the last position, the offset of a plane grows with the position. -/
theorem planeOffset_of_le {area : Area} {offset : Int} {last : Nat} (hsize : 0 ≤ area.size)
    (hheight : x.height ≠ 0) (hpitch : area.pitch ≠ 0) (hlt : area.pitch < 2147483648)
    (hproduct : (last : Int) * area.size ≤ 2147483647)
    (hle : (last : Int) * area.size / x.height / area.pitch ≤ area.pitch)
    (h0 : 0 ≤ offset) (hlast : offset ≤ last) :
    ∃ xOff, x.planeOffset offset area = some xOff ∧ cUnsigned xOff ≤ area.pitch := by
  have hpos := Int.mul_nonneg h0 hsize
  have hmul : offset * area.size ≤ last * area.size := Int.mul_le_mul_of_nonneg_right hlast hsize
  have hheight' : (0 : Int) < x.height := by omega
  have hpitch' : (0 : Int) < area.pitch := by omega
  have hdiv : offset * area.size / x.height / area.pitch ≤
      last * area.size / x.height / area.pitch :=
    Int.ediv_le_ediv hpitch' (Int.ediv_le_ediv hheight' hmul)
  have hquotient := Int.ediv_nonneg hpos (Int.le_of_lt hheight')
  have hnonneg := Int.ediv_nonneg hquotient (Int.le_of_lt hpitch')
  refine ⟨offset * area.size / x.height / area.pitch,
    planeOffset_eq_some_iff.mpr ⟨⟨by omega, by omega⟩, ⟨hheight, hpitch⟩, ?_⟩, ?_⟩
  · rw [Int.tdiv_eq_ediv_of_nonneg hpos, Int.tdiv_eq_ediv_of_nonneg hquotient]
  · have hnum := cUnsigned_of hnonneg (by omega)
    omega

/-- A frame of an image of several planes. -/
theorem frame_several (hv : x.Valid) (hplanes : x.planes = plane :: next :: planes)
    (hheight : x.height ≠ 0)
    (hfits : ∀ area ∈ x.areas, area.pitch ≠ 0 ∧
      ((x.width - 1 : Nat) : Int) * area.size ≤ 2147483647 ∧
        ((x.width - 1 : Nat) : Int) * area.size / x.height / area.pitch ≤ area.pitch)
    (hsrc : src.length = x.dataSize) (hdst : s.dst.length = x.dataSize)
    (hoffset : 0 ≤ s.offset ∧ s.offset ≤ (x.width - 1 : Nat)) :
    ∃ s', scrollFrame x fmt src s = some s' ∧ s'.dst.length = x.dataSize ∧
      (0 ≤ s'.offset ∧ s'.offset ≤ (x.width - 1 : Nat)) ∧
      x.FrameRight src s.offset s'.dst := by
  have hsize : ∀ area ∈ x.areas, 0 ≤ area.size := by
    intro area harea
    obtain ⟨rows, hrows⟩ := hv.rows area harea
    omega
  have hplaneSize := hsize
  rw [areas_several hplanes] at hplaneSize
  have hinside := (planeAreas_inside x.planes hplaneSize).2
  have hapart := planeAreas_apart x.planes hplaneSize
  rw [← areas_several hplanes] at hinside hapart
  have hready : ∀ area ∈ x.areas, area.Ready x.dataSize (x.planeOffset s.offset area) := by
    intro area harea
    obtain ⟨hpitch, hproduct, hle⟩ := hfits area harea
    exact ⟨hv.rows area harea, (hinside area harea).2, planeOffset_of_le (hsize area harea) hheight
      hpitch (hv.pitch_lt area harea) hproduct hle hoffset.1 hoffset.2⟩
  obtain ⟨dst', hrun, hlength, hrotated, -⟩ :=
    scrollPlanes_rotated hv.dataSize_lt hsrc x.areas hready hapart s.dst hdst
  have hwidth := hv.width_lt
  have hint : IsInt (s.offset + 1) := ⟨by omega, by omega⟩
  refine ⟨_, (scrollFrame_several_eq_some_iff hplanes).mpr ⟨dst', hrun, hint, rfl⟩, hlength, ?_, ?_⟩
  · dsimp only
    by_cases hend : (x.width : Int) ≤ s.offset + 1
    · rw [if_pos hend]
      exact ⟨Int.le_refl _, by omega⟩
    · rw [if_neg hend]
      omega
  · intro area harea
    obtain ⟨xOff, hoff, hle, hrows⟩ := hrotated area harea
    exact ⟨xOff, (passed_several hplanes _ _).trans hoff, hle, hrows⟩

/-- A run that comes to the last position needs its products and offsets. -/
theorem fits_of_scrollRight_several (hv : x.Valid)
    (hplanes : x.planes = plane :: next :: planes) (hright : x.ScrollRight fmt) {area : Area}
    (harea : area ∈ x.areas) :
    (x.height ≠ 0 ∧ area.pitch ≠ 0) ∧ ((x.width - 1 : Nat) : Int) * area.size ≤ 2147483647 ∧
      ((x.width - 1 : Nat) : Int) * area.size / x.height / area.pitch ≤ area.pitch := by
  have hlength : (List.replicate x.dataSize (0 : UInt8)).length = x.dataSize :=
    List.length_replicate
  have hframe : ∀ k : Nat, k < x.width - 1 → ∀ s s', s.offset = 1 * (k : Int) →
      scrollFrame x fmt (List.replicate x.dataSize 0) s = some s' →
        s'.offset = 1 * ((k : Int) + 1) := by
    intro k hk s s' hs hs'
    obtain ⟨dst, -, -, rfl⟩ := (scrollFrame_several_eq_some_iff hplanes).mp hs'
    dsimp only
    rw [if_neg (by omega)]
    omega
  obtain ⟨s, s', hs, -, hlast⟩ := hright _ _ hlength hlength (x.width - 1)
  have hoffset := scrollRun_offset hframe (x.width - 1) (Nat.le_refl _) s hs
  rw [Int.one_mul] at hoffset
  obtain ⟨rows, hrows⟩ := hv.rows area harea
  obtain ⟨xOff, hpassed, hle, -⟩ := hlast area harea
  rw [passed_several hplanes, hoffset] at hpassed
  obtain ⟨hint, hnonzero, hquotient⟩ := planeOffset_eq_some_iff.mp hpassed
  have hpos : 0 ≤ ((x.width - 1 : Nat) : Int) * area.size := Int.mul_nonneg (by omega) (by omega)
  have hdiv := Int.ediv_nonneg hpos (show (0 : Int) ≤ x.height by omega)
  rw [Int.tdiv_eq_ediv_of_nonneg hpos, Int.tdiv_eq_ediv_of_nonneg hdiv] at hquotient
  have hnonneg := Int.ediv_nonneg hdiv (show (0 : Int) ≤ area.pitch by omega)
  have hsmall : xOff < 4294967296 := by
    have hfirst := Int.ediv_le_self (x.height : Int) hpos
    have hsecond := Int.ediv_le_self (area.pitch : Int) hdiv
    have hbound := hint.2
    omega
  have hnum := cUnsigned_of (show 0 ≤ xOff by omega) hsmall
  refine ⟨hnonzero, hint.2, ?_⟩
  rw [hquotient]
  omega

end

/-- Every frame of every run is right if and only if the last position of each plane fits, and in an
image of one plane the row. -/
theorem scrollRight_iff {fourcc : String} (hv : x.Valid) (hfmt : xvGetFormat fourcc = some fmt) :
    x.ScrollRight fmt ↔ x.Fits fmt := by
  have hstep := mpixBpp_of_get hfmt
  cases hplanes : x.planes with
  | nil => exact absurd hplanes hv.planes_ne_nil
  | cons plane others =>
      cases others with
      | nil =>
          have hfits : x.Fits fmt ↔ fmt.mpixBpp / 8 = 0 ∨ plane.pitch ≤ 2147483644 := by
            simp only [XvImage.Fits, hplanes]
          rw [hfits]
          constructor
          · intro hright
            by_contra hnot
            rw [not_or, Nat.not_le] at hnot
            exact not_scrollRight_single hv hplanes (hstep.resolve_left hnot.1) hnot.2 hright
          · intro hfit
            refine scrollRight_of_frame
              (fun offset => 0 ≤ offset ∧ (offset < plane.pitch ∨ offset = 0))
              ⟨Int.le_refl _, .inr rfl⟩ fun src hsrc s hs hoffset => ?_
            exact frame_single hv hplanes hstep hfit hsrc hs hoffset
      | cons next planes =>
          have hfits : x.Fits fmt ↔ x.height ≠ 0 ∧ ∀ area ∈ x.areas, area.pitch ≠ 0 ∧
              ((x.width - 1 : Nat) : Int) * area.size ≤ 2147483647 ∧
                ((x.width - 1 : Nat) : Int) * area.size / x.height / area.pitch ≤
                  area.pitch := by
            simp only [XvImage.Fits, hplanes]
          rw [hfits]
          constructor
          · intro hright
            have hfirst : ∃ area, area ∈ x.areas := by
              rw [areas_several hplanes, hplanes]
              exact ⟨_, List.mem_cons_self⟩
            obtain ⟨area, harea⟩ := hfirst
            have hall := fun area harea => @fits_of_scrollRight_several x fmt plane next planes
              hv hplanes hright area harea
            exact ⟨(hall area harea).1.1, fun area harea =>
              ⟨(hall area harea).1.2, (hall area harea).2⟩⟩
          · rintro ⟨hheight, hall⟩
            refine scrollRight_of_frame
              (fun offset => 0 ≤ offset ∧ offset ≤ (x.width - 1 : Nat))
              ⟨Int.le_refl _, by omega⟩ fun src hsrc s hs hoffset => ?_
            exact frame_several hv hplanes hheight hall hsrc hs hoffset

end

/-- A planar image with half the resolution for its colours. -/
def planarImage (width height : Nat) : XvImage where
  width := width
  height := height
  dataSize := width * height + 2 * (width / 2 * (height / 2))
  planes := [⟨width, 0⟩, ⟨width / 2, width * height⟩,
    ⟨width / 2, width * height + width / 2 * (height / 2)⟩]

theorem areas_planarImage (width height : Nat) : (planarImage width height).areas =
    [⟨0, (height * width : Nat), width⟩,
      ⟨width * height, (height / 2 * (width / 2) : Nat), width / 2⟩,
      ⟨width * height + width / 2 * (height / 2), (height / 2 * (width / 2) : Nat),
        width / 2⟩] := by
  have hlast : width * height + 2 * (width / 2 * (height / 2)) =
      width * height + width / 2 * (height / 2) + width / 2 * (height / 2) := by omega
  simp only [XvImage.areas, planarImage, planeAreas, planeEnd, hlast, Nat.mul_comm height,
    Nat.mul_comm (height / 2), Int.natCast_add, Int.natCast_zero, Int.sub_zero]
  congr 3
  · omega
  · congr 2
    omega

theorem planarImage_valid {width height : Nat} (hwidth : width < 2147483648)
    (hsize : (planarImage width height).dataSize < 2147483648) :
    (planarImage width height).Valid where
  planes_ne_nil := List.cons_ne_nil _ _
  dataSize_lt := hsize
  width_lt := hwidth
  pitch_lt := by
    rw [areas_planarImage]
    simp only [List.forall_mem_cons]
    exact ⟨hwidth, by omega, by omega, fun _ h => absurd h List.not_mem_nil⟩
  rows := by
    rw [areas_planarImage]
    simp only [List.forall_mem_cons]
    exact ⟨⟨height, rfl⟩, ⟨height / 2, rfl⟩, ⟨height / 2, rfl⟩,
      fun _ h => absurd h List.not_mem_nil⟩

/-- A small image is scrolled. -/
theorem scrollRight_small :
    (planarImage 4 2).ScrollRight ⟨"I420", 0⟩ ↔ (planarImage 4 2).Fits ⟨"I420", 0⟩ :=
  scrollRight_iff (planarImage_valid (by decide) (by decide))
    (show xvGetFormat "I420" = some ⟨"I420", 0⟩ from by decide)

/-- In an image of 1920 by 1080 pixels, a product overflows before the last position. -/
theorem fullHd_overflow :
    (planarImage 1920 1080).Valid ∧ xvGetFormat "I420" = some ⟨"I420", 0⟩ ∧
      ¬(planarImage 1920 1080).ScrollRight ⟨"I420", 0⟩ := by
  have hv := @planarImage_valid 1920 1080 (by decide) (by decide)
  refine ⟨hv, by decide, fun hright => ?_⟩
  have hmem : (⟨0, (1080 * 1920 : Nat), 1920⟩ : Area) ∈ (planarImage 1920 1080).areas := by
    rw [areas_planarImage]
    exact List.mem_cons_self
  obtain ⟨-, hproduct, -⟩ := fits_of_scrollRight_several hv rfl hright hmem
  exact absurd hproduct (by decide)

end Blts.Xvideo
