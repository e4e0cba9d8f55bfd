import Blts.Pixel.Planes

/-!
# Where the planes are

In a frame whose width and height are multiples of the chroma subsampling, the
planes that `setup_planes` finds have rows as long as the format needs, are apart
and inside the frame, unless an `int` overflows, or the format is one of three:
`YUV411P`, whose chroma planes overlap, `NV12`, whose rows of chroma are too
short, and `RGB4`, which is laid out with two bytes for a pixel
(`lays_iff`).  Then the scaler only sees addresses inside the frames
(`conversion_iff`).
-/

namespace Blts.Pixel

/-! ## Regions -/

/-- Rows of a plane in a frame. -/
structure Region where
  start : Nat
  stride : Nat
  rowBytes : Nat
  rows : Nat
  deriving DecidableEq

/-- The end of the last row. -/
def Region.stop (r : Region) : Nat :=
  r.start + r.stride * r.rows

/-- The bytes of the rows are inside a frame. -/
def Region.Within (r : Region) (size : Nat) : Prop :=
  ∀ i < r.rows, r.start + r.stride * i + r.rowBytes ≤ size

/-- The regions have no byte in common. -/
def Region.Apart (r r' : Region) : Prop :=
  r.stop ≤ r'.start ∨ r'.stop ≤ r.start

/-- The regions of the planes, if all of them have an address. -/
def regions : List PlaneDef → List (Option Nat) → List Nat → Option (List Region)
  | [], _, _ => some []
  | d :: defs, some ptr :: ptrs, stride :: strides =>
      (regions defs ptrs strides).map fun rs =>
        { start := ptr, stride := stride, rowBytes := d.rowBytes, rows := d.rows } :: rs
  | _, _, _ => none

/-- Every plane has an address and rows that are long enough, and the planes are
apart and inside the frame. -/
def LaidOut (defs : List PlaneDef) (size : Nat) (p : Planes) : Prop :=
  ∃ rs, regions defs p.planeptrs p.strides = some rs ∧ (∀ r ∈ rs, r.rowBytes ≤ r.stride) ∧
    rs.Pairwise Region.Apart ∧ ∀ r ∈ rs, r.stop ≤ size

/-- The planes are at their places in a frame of the format. -/
def Lays (pixfmt : PixFmt) (width height : Nat) : Prop :=
  ∃ p, setupPlanes pixfmt width height = some p ∧
    LaidOut (planesOf pixfmt width height) (frameBytes pixfmt width height) p

/-- The bytes of the planes are inside a frame. -/
def PlanesWithin (pixfmt : PixFmt) (width height : Nat) (p : Planes) (size : Nat) : Prop :=
  ∃ rs, regions (planesOf pixfmt width height) p.planeptrs p.strides = some rs ∧
    ∀ r ∈ rs, r.Within size

/-- The scaler is given addresses inside the source frame and inside the buffer
that was allocated, if it comes to that. -/
def ScalesInside (memory : Bool) (width height srcformat dstformat : Nat) : Prop :=
  ∀ c, convertBuffer memory width height srcformat dstformat = some (some c) →
    PlanesWithin c.realsrcpixfmt width height c.srcplanes
      (frameBytes c.realsrcpixfmt width height) ∧
    PlanesWithin c.realdstpixfmt width height c.dstplanes c.dstsize

/-- A size in whole chroma samples. -/
structure SizedFor (pixfmt : PixFmt) (width height : Nat) : Prop where
  width_pos : 0 < width
  height_pos : 0 < height
  width_dvd : (subsampling pixfmt).1 ∣ width
  height_dvd : (subsampling pixfmt).2 ∣ height

/-- The numbers that are computed for the planes fit in an `int`. -/
def IntsFit (pixfmt : PixFmt) (width height : Nat) : Prop :=
  match pixfmt with
  | .rgb8 | .gray8 | .sbggr8 => True
  | .rgb4 | .rgb555le | .rgb555be | .rgb565le | .rgb565be | .gray16le | .yuv444 | .yuv555
  | .yuv565 | .sbggr16 | .sgrbg10 | .yuyv422 | .uyvy422 => 2 * width ≤ intMax
  | .rgb24 | .bgr24 => 3 * width ≤ intMax
  | .bgr32 | .rgb32 | .yuv32 => 4 * width ≤ intMax
  | .uyyvyy411 => width + width / 2 ≤ intMax
  | .yuv422p | .yuv420p | .yvu420p | .yuv411p | .yuv410p | .yvu410p | .nv12 =>
      width * height ≤ intMax

/-- The numbers fit, and the format is none of the three that are laid out in
another way than it is defined. -/
def LaidAsDefined (pixfmt : PixFmt) (width height : Nat) : Prop :=
  pixfmt ∉ [PixFmt.yuv411p, .nv12, .rgb4] ∧ IntsFit pixfmt width height

instance (pixfmt : PixFmt) (width height : Nat) : Decidable (IntsFit pixfmt width height) := by
  unfold IntsFit
  split <;> infer_instance

instance (pixfmt : PixFmt) (width height : Nat) :
    Decidable (LaidAsDefined pixfmt width height) := by
  unfold LaidAsDefined
  infer_instance

/-! ## Frames of one plane -/

variable {pixfmt : PixFmt} {width height n : Nat}

theorem int_eq_some {n m : Nat} : int n = some m ↔ n ≤ intMax ∧ m = n := by
  unfold int
  by_cases h : n ≤ intMax <;> simp [h, eq_comm]

theorem laidOut_packed (rowBytes stride rows : Nat) :
    LaidOut [⟨rowBytes, rows⟩] (rowBytes * rows) (packed stride) ↔
      rowBytes ≤ stride ∧ stride * rows ≤ rowBytes * rows := by
  unfold LaidOut
  simp [regions, packed, Region.stop]

theorem frameBytes_single (hdef : planesOf pixfmt width height = [⟨n, height⟩]) :
    frameBytes pixfmt width height = n * height := by
  simp [frameBytes, hdef]

/-- A plane with the rows of the format fills the frame. -/
theorem lays_single (hset : setupPlanes pixfmt width height =
      (int n).bind fun stride => some (packed stride))
    (hdef : planesOf pixfmt width height = [⟨n, height⟩]) :
    Lays pixfmt width height ↔ n ≤ intMax := by
  unfold Lays
  rw [hset, frameBytes_single hdef, hdef]
  constructor
  · rintro ⟨p, hp, _⟩
    obtain ⟨m, hm, _⟩ := Option.bind_eq_some_iff.mp hp
    exact (int_eq_some.mp hm).1
  · intro hn
    refine ⟨packed n, ?_, (laidOut_packed n n height).mpr ⟨Nat.le_refl n, Nat.le_refl _⟩⟩
    rw [int_eq_some.mpr ⟨hn, rfl⟩]
    rfl

theorem lays_bytes (hset : setupPlanes pixfmt width height = some (packed n))
    (hdef : planesOf pixfmt width height = [⟨n, height⟩]) : Lays pixfmt width height := by
  unfold Lays
  rw [frameBytes_single hdef, hdef]
  exact ⟨_, hset, (laidOut_packed n n height).mpr ⟨Nat.le_refl n, Nat.le_refl _⟩⟩

/-! ## Frames of three planes -/

/-- Planes in this order, or with the last two swapped. -/
theorem laidOut_planar {s r q : Nat} (hq : s * r = q) (first second : Nat)
    (horder : first = width * height ∧ second = width * height + q ∨
      first = width * height + q ∧ second = width * height) :
    LaidOut [⟨width, height⟩, ⟨s, r⟩, ⟨s, r⟩] (width * height + 2 * (s * r))
      { planeptrs := [some 0, some first, some second], strides := [width, s, s] } := by
  refine ⟨_, rfl, ?_, ?_, ?_⟩
  · simp
  · simp only [List.pairwise_cons, List.mem_cons, List.not_mem_nil, or_false,
      forall_eq_or_imp, forall_eq, Region.Apart, Region.stop, hq]
    refine ⟨⟨?_, ?_⟩, ?_, fun _ h => h.elim, List.Pairwise.nil⟩
    · omega
    · omega
    · omega
  · simp only [List.mem_cons, List.not_mem_nil, or_false, forall_eq_or_imp, forall_eq,
      Region.stop, hq]
    omega

theorem frameBytes_planar {s r : Nat}
    (hdef : planesOf pixfmt width height = [⟨width, height⟩, ⟨s, r⟩, ⟨s, r⟩]) :
    frameBytes pixfmt width height = width * height + 2 * (s * r) := by
  simp only [frameBytes, hdef, List.map_cons, List.map_nil, List.sum_cons, List.sum_nil]
  omega

/-- Planes with the rows of the format fill the frame. -/
theorem lays_planar {s r : Nat} {f g : Nat → Nat}
    (hset : setupPlanes pixfmt width height = (int (width * height)).bind fun size =>
      some { planeptrs := [some 0, some (f size), some (g size)], strides := [width, s, s] })
    (hdef : planesOf pixfmt width height = [⟨width, height⟩, ⟨s, r⟩, ⟨s, r⟩])
    (horder : f (width * height) = width * height ∧
        g (width * height) = width * height + s * r ∨
      f (width * height) = width * height + s * r ∧
        g (width * height) = width * height) :
    Lays pixfmt width height ↔ width * height ≤ intMax := by
  unfold Lays
  rw [hset, frameBytes_planar hdef, hdef]
  constructor
  · rintro ⟨p, hp, _⟩
    obtain ⟨m, hm, _⟩ := Option.bind_eq_some_iff.mp hp
    exact (int_eq_some.mp hm).1
  · intro hn
    refine ⟨_, ?_, laidOut_planar rfl _ _ horder⟩
    rw [int_eq_some.mpr ⟨hn, rfl⟩]
    rfl

/-- The chroma samples of a plane with both dimensions divided. -/
theorem chroma_eq (i j : Nat) (hw : 2 ^ i ∣ width) (hh : 2 ^ j ∣ height) :
    width >>> i * (height / 2 ^ j) = (width * height) >>> (i + j) := by
  obtain ⟨k, rfl⟩ := hw
  obtain ⟨l, rfl⟩ := hh
  have hi : 0 < 2 ^ i := Nat.two_pow_pos i
  have hj : 0 < 2 ^ j := Nat.two_pow_pos j
  rw [Nat.shiftRight_eq_div_pow, Nat.shiftRight_eq_div_pow, Nat.mul_div_cancel_left _ hi,
    Nat.mul_div_cancel_left _ hj, Nat.mul_mul_mul_comm, Nat.pow_add,
    Nat.mul_div_cancel_left _ (Nat.mul_pos hi hj)]

/-! ## The three formats -/

/-- The planes of a frame are found only by computing its size. -/
theorem setupPlanes_size {f : Nat → Planes} {p : Planes}
    (hset : setupPlanes pixfmt width height =
      (int (width * height)).bind fun size => some (f size))
    (hp : setupPlanes pixfmt width height = some p) : p = f (width * height) := by
  rw [hset] at hp
  obtain ⟨size, hsize, hplanes⟩ := Option.bind_eq_some_iff.mp hp
  obtain ⟨_, rfl⟩ := int_eq_some.mp hsize
  exact (Option.some.inj hplanes).symm

/-- The chroma planes of `YUV411P` have a quarter of the bytes, and a sixteenth is
left for the first. -/
theorem not_lays_yuv411p (hsize : SizedFor .yuv411p width height) :
    ¬ Lays .yuv411p width height := by
  rintro ⟨p, hp, hlaid⟩
  obtain rfl := setupPlanes_size (f := fun size =>
    { planeptrs := [some 0, some size, some (size + size >>> 4)]
      strides := [width, width >>> 2, width >>> 2] }) rfl hp
  obtain ⟨rs, hrs, _, hapart, _⟩ := hlaid
  cases hrs
  obtain ⟨_, hchroma⟩ := List.pairwise_cons.mp hapart
  have hbetween := (List.pairwise_cons.mp hchroma).1 _ List.mem_cons_self
  obtain ⟨k, hk⟩ := hsize.width_dvd
  obtain rfl : width = 4 * k := hk
  have hh := hsize.height_pos
  have hk₀ : 0 < k := by
    have := hsize.width_pos
    omega
  have hpos : 0 < k * height := Nat.mul_pos hk₀ hh
  simp only [Region.Apart, Region.stop, Nat.shiftRight_eq_div_pow] at hbetween
  have hstride : 4 * k / 2 ^ 2 * height = k * height := by
    rw [show 4 * k / 2 ^ 2 = k by omega]
  rw [hstride, Nat.mul_assoc] at hbetween
  omega

/-- The chroma rows of `NV12` have a sixteenth of the bytes. -/
theorem not_lays_nv12 (hsize : SizedFor .nv12 width height) : ¬ Lays .nv12 width height := by
  rintro ⟨p, hp, hlaid⟩
  obtain rfl := setupPlanes_size (f := fun size =>
    { planeptrs := [some 0, some size, none], strides := [width, width >>> 4, 0] }) rfl hp
  obtain ⟨rs, hrs, hrows, _, _⟩ := hlaid
  cases hrs
  have hchroma := hrows _ (List.mem_cons_of_mem _ List.mem_cons_self)
  have hw := hsize.width_pos
  simp only [Nat.shiftRight_eq_div_pow] at hchroma
  omega

/-- Two bytes for a pixel of `RGB4` do not fit in a frame of half a byte for
each. -/
theorem not_lays_rgb4 (hsize : SizedFor .rgb4 width height) : ¬ Lays .rgb4 width height := by
  rintro ⟨p, hp, hlaid⟩
  obtain ⟨stride, hstride, hplanes⟩ := Option.bind_eq_some_iff.mp hp
  obtain ⟨_, rfl⟩ := int_eq_some.mp hstride
  cases hplanes
  rw [frameBytes_single (n := (4 * width + 7) / 8) rfl] at hlaid
  have hle := ((laidOut_packed _ _ _).mp hlaid).2
  have hw := hsize.width_pos
  have hrow : 2 * width ≤ (4 * width + 7) / 8 := Nat.le_of_mul_le_mul_right hle hsize.height_pos
  omega

/-! ## All formats -/

/--
**The planes of a frame.**  In a size in whole chroma samples, every plane of a
format has rows as long as the format needs, the planes are apart and inside the
frame, if and only if the format is laid out as it is defined and the numbers fit
in an `int`.
-/
theorem lays_iff (hsize : SizedFor pixfmt width height) :
    Lays pixfmt width height ↔ LaidAsDefined pixfmt width height := by
  have hplain (hfmt : pixfmt ∉ [PixFmt.yuv411p, .nv12, .rgb4]) {fits : Prop}
      (hlays : Lays pixfmt width height ↔ fits) (heq : IntsFit pixfmt width height = fits) :
      Lays pixfmt width height ↔ LaidAsDefined pixfmt width height := by
    rw [hlays, LaidAsDefined, heq]
    exact (and_iff_right hfmt).symm
  have hnever (hfmt : pixfmt ∈ [PixFmt.yuv411p, .nv12, .rgb4])
      (hnot : ¬ Lays pixfmt width height) :
      Lays pixfmt width height ↔ LaidAsDefined pixfmt width height :=
    iff_of_false hnot fun h => h.1 hfmt
  have hw := hsize.width_dvd
  have hh := hsize.height_dvd
  cases pixfmt with
  | rgb8 => exact hplain (by decide) (iff_true_intro (lays_bytes rfl rfl)) rfl
  | gray8 => exact hplain (by decide) (iff_true_intro (lays_bytes rfl rfl)) rfl
  | sbggr8 => exact hplain (by decide) (iff_true_intro (lays_bytes rfl rfl)) rfl
  | rgb555le => exact hplain (by decide) (lays_single rfl rfl) rfl
  | rgb565le => exact hplain (by decide) (lays_single rfl rfl) rfl
  | rgb555be => exact hplain (by decide) (lays_single rfl rfl) rfl
  | rgb565be => exact hplain (by decide) (lays_single rfl rfl) rfl
  | gray16le => exact hplain (by decide) (lays_single rfl rfl) rfl
  | yuv444 => exact hplain (by decide) (lays_single rfl rfl) rfl
  | yuv555 => exact hplain (by decide) (lays_single rfl rfl) rfl
  | yuv565 => exact hplain (by decide) (lays_single rfl rfl) rfl
  | sbggr16 => exact hplain (by decide) (lays_single rfl rfl) rfl
  | sgrbg10 => exact hplain (by decide) (lays_single rfl rfl) rfl
  | yuyv422 => exact hplain (by decide) (lays_single rfl rfl) rfl
  | uyvy422 => exact hplain (by decide) (lays_single rfl rfl) rfl
  | rgb24 => exact hplain (by decide) (lays_single rfl rfl) rfl
  | bgr24 => exact hplain (by decide) (lays_single rfl rfl) rfl
  | bgr32 => exact hplain (by decide) (lays_single rfl rfl) rfl
  | rgb32 => exact hplain (by decide) (lays_single rfl rfl) rfl
  | yuv32 => exact hplain (by decide) (lays_single rfl rfl) rfl
  | uyyvyy411 =>
      obtain ⟨k, hk⟩ := hw
      obtain rfl : width = 4 * k := hk
      have hrow : 4 * k + 4 * k / 2 = 4 * k / 4 * 6 := by omega
      refine hplain (by decide) (lays_single (n := 4 * k + 4 * k / 2) rfl ?_) rfl
      rw [hrow]
      rfl
  | yuv422p =>
      have hchroma : width >>> 1 * height = (width * height) >>> 1 := by
        have h := chroma_eq 1 0 hw (Nat.one_dvd height)
        rwa [Nat.pow_zero, Nat.div_one] at h
      refine hplain (by decide)
        (lays_planar (s := width >>> 1) (r := height)
          (f := fun size => size)
          (g := fun size => size + size >>> 1) rfl rfl (.inl ⟨rfl, ?_⟩)) rfl
      rw [hchroma]
  | yuv420p =>
      have hchroma : width >>> 1 * (height / 2) = (width * height) >>> 2 :=
        chroma_eq 1 1 hw hh
      refine hplain (by decide)
        (lays_planar (s := width >>> 1) (r := height / 2)
          (f := fun size => size)
          (g := fun size => size + size >>> 2) rfl rfl (.inl ⟨rfl, ?_⟩)) rfl
      rw [hchroma]
  | yvu420p =>
      have hchroma : width >>> 1 * (height / 2) = (width * height) >>> 2 :=
        chroma_eq 1 1 hw hh
      refine hplain (by decide)
        (lays_planar (s := width >>> 1) (r := height / 2)
          (f := fun size => size + size >>> 2)
          (g := fun size => size) rfl rfl (.inr ⟨?_, rfl⟩)) rfl
      rw [hchroma]
  | yuv410p =>
      have hchroma : width >>> 2 * (height / 4) = (width * height) >>> 4 :=
        chroma_eq 2 2 hw hh
      refine hplain (by decide)
        (lays_planar (s := width >>> 2) (r := height / 4)
          (f := fun size => size)
          (g := fun size => size + size >>> 4) rfl ?_ (.inl ⟨rfl, ?_⟩)) rfl
      · rw [Nat.shiftRight_eq_div_pow]
        rfl
      · rw [hchroma]
  | yvu410p =>
      have hchroma : width >>> 2 * (height / 4) = (width * height) >>> 4 :=
        chroma_eq 2 2 hw hh
      refine hplain (by decide)
        (lays_planar (s := width >>> 2) (r := height / 4)
          (f := fun size => size + size >>> 4)
          (g := fun size => size) rfl ?_ (.inr ⟨?_, rfl⟩)) rfl
      · rw [Nat.shiftRight_eq_div_pow]
        rfl
      · rw [hchroma]
  | yuv411p => exact hnever (by decide) (not_lays_yuv411p hsize)
  | nv12 => exact hnever (by decide) (not_lays_nv12 hsize)
  | rgb4 => exact hnever (by decide) (not_lays_rgb4 hsize)

/-! ## Conversion -/

/-- The bytes of planes that are laid out are inside the frame. -/
theorem LaidOut.within {defs : List PlaneDef} {size : Nat} {p : Planes}
    (hlaid : LaidOut defs size p) :
    ∃ rs, regions defs p.planeptrs p.strides = some rs ∧ ∀ r ∈ rs, r.Within size := by
  obtain ⟨rs, hrs, hrows, _, hstop⟩ := hlaid
  refine ⟨rs, hrs, fun r hr i hi => ?_⟩
  calc r.start + r.stride * i + r.rowBytes
      ≤ r.start + r.stride * i + r.stride := Nat.add_le_add_left (hrows r hr) _
    _ = r.start + r.stride * (i + 1) := by rw [Nat.mul_succ, Nat.add_assoc]
    _ ≤ r.start + r.stride * r.rows := Nat.add_le_add_left (Nat.mul_le_mul_left _ hi) _
    _ ≤ size := hstop r hr

theorem Region.Within.mono {r : Region} {size size' : Nat} (hle : size ≤ size')
    (hr : r.Within size) : r.Within size' :=
  fun i hi => Nat.le_trans (hr i hi) hle

@[simp] theorem planesOf_realPixfmt (pixfmt : PixFmt) (width height : Nat) :
    planesOf (realPixfmt pixfmt) width height = planesOf pixfmt width height := by
  cases pixfmt <;> rfl

@[simp] theorem frameBytes_realPixfmt (pixfmt : PixFmt) (width height : Nat) :
    frameBytes (realPixfmt pixfmt) width height = frameBytes pixfmt width height := by
  simp [frameBytes]

/-- The rounded size of a chroma plane is not less than what is defined. -/
theorem frameBytes_le_planarSize (i j : Nat)
    (hdef : planesOf pixfmt width height = [⟨width, height⟩,
      ⟨width / 2 ^ i, height / 2 ^ j⟩, ⟨width / 2 ^ i, height / 2 ^ j⟩]) :
    frameBytes pixfmt width height ≤ planarSize i j width height := by
  have hceil (k n : Nat) : n / 2 ^ k ≤ (n + (1 <<< k) - 1) >>> k := by
    rw [Nat.shiftRight_eq_div_pow, Nat.one_shiftLeft]
    have hpos : 0 < 2 ^ k := Nat.two_pow_pos k
    exact Nat.div_le_div_right (by omega)
  rw [frameBytes_planar hdef]
  exact Nat.add_le_add_left (Nat.mul_le_mul_left 2 (Nat.mul_le_mul (hceil i width)
    (hceil j height))) _

/-- The size that is allocated holds a frame. -/
theorem frameBytes_le_size {size : Nat} (hfmt : pixfmt ∉ [PixFmt.yuv411p, .nv12, .rgb4])
    (hget : avpictureGetSize (realPixfmt pixfmt) width height = some size) :
    frameBytes pixfmt width height ≤ size := by
  have hchecked : checkDimensions width height = true := by
    cases hcheck : checkDimensions width height with
    | true => rfl
    | false => simp [avpictureGetSize, hcheck] at hget
  have hsingle {n : Nat} (hdef : planesOf pixfmt width height = [⟨n, height⟩])
      (hle : n * height ≤ size) : frameBytes pixfmt width height ≤ size :=
    Nat.le_trans (Nat.le_of_eq (frameBytes_single hdef)) hle
  simp only [avpictureGetSize, hchecked, Bool.true_eq_false, if_false] at hget
  cases pixfmt <;> simp only [realPixfmt, Option.some.injEq] at hget <;> subst hget
  case yuv411p | nv12 | rgb4 => exact absurd (by decide) hfmt
  case yuv420p => exact frameBytes_le_planarSize 1 1 rfl
  case yvu420p => exact frameBytes_le_planarSize 1 1 rfl
  case yuv410p => exact frameBytes_le_planarSize 2 2 rfl
  case yvu410p => exact frameBytes_le_planarSize 2 2 rfl
  case yuv422p => exact frameBytes_le_planarSize 1 0 (by simp [planesOf])
  case uyyvyy411 => exact hsingle rfl (Nat.mul_le_mul_right _ (by omega))
  case rgb8 | gray8 => exact hsingle rfl (by omega)
  case sbggr8 => exact hsingle rfl (Nat.le_refl _)
  all_goals exact hsingle rfl (Nat.mul_le_mul_right _ (by omega))

/-- The places of the planes are those of the real format. -/
theorem Lays.within (hlays : Lays pixfmt width height) {p : Planes}
    (hset : setupPlanes pixfmt width height = some p) :
    PlanesWithin (realPixfmt pixfmt) width height p (frameBytes pixfmt width height) := by
  obtain ⟨p', hp', hlaid⟩ := hlays
  obtain rfl : p' = p := Option.some.inj (hp'.symm.trans hset)
  rw [PlanesWithin, planesOf_realPixfmt]
  exact hlaid.within

theorem PlanesWithin.mono {p : Planes} {size size' : Nat} (hle : size ≤ size')
    (hp : PlanesWithin pixfmt width height p size) :
    PlanesWithin pixfmt width height p size' := by
  obtain ⟨rs, hrs, hwithin⟩ := hp
  exact ⟨rs, hrs, fun r hr => (hwithin r hr).mono hle⟩

/-- What the scaler is given comes from `setup_planes` and `avpicture_get_size`. -/
theorem convertBuffer_cases {memory : Bool} {srcformat dstformat : Nat} {src dst : PixFmt}
    {c : ScalerCall} (hsrc : v4l2fmt2pixfmt srcformat = some src)
    (hdst : v4l2fmt2pixfmt dstformat = some dst)
    (hc : convertBuffer memory width height srcformat dstformat = some (some c)) :
    c.realsrcpixfmt = realPixfmt src ∧ c.realdstpixfmt = realPixfmt dst ∧
      setupPlanes src width height = some c.srcplanes ∧
      setupPlanes dst width height = some c.dstplanes ∧
      avpictureGetSize (realPixfmt dst) width height = some c.dstsize := by
  simp only [convertBuffer, hsrc, hdst] at hc
  obtain ⟨srcplanes, hsrcplanes, hc⟩ := Option.bind_eq_some_iff.mp hc
  cases hsize : avpictureGetSize (realPixfmt dst) width height with
  | none => simp [hsize] at hc
  | some dstsize =>
      simp only [hsize] at hc
      cases memory with
      | false => simp at hc
      | true =>
          simp only [Bool.true_eq_false, if_false] at hc
          obtain ⟨dstplanes, hdstplanes, hc⟩ := Option.bind_eq_some_iff.mp hc
          obtain rfl := Option.some.inj (Option.some.inj hc)
          exact ⟨rfl, rfl, hsrcplanes, hdstplanes, rfl⟩

/--
**Conversion.**  For two formats of the table and a size in whole chroma samples of
both, the planes of both frames are at their places and the scaler is given addresses
inside the source frame and the buffer only, if and only if both formats are laid
out as they are defined and the numbers fit in an `int`.
-/
theorem conversion_iff {srcformat dstformat : Nat} {src dst : PixFmt} (memory : Bool)
    (hsrc : v4l2fmt2pixfmt srcformat = some src) (hdst : v4l2fmt2pixfmt dstformat = some dst)
    (hsrcsize : SizedFor src width height) (hdstsize : SizedFor dst width height) :
    (Lays src width height ∧ Lays dst width height ∧
        ScalesInside memory width height srcformat dstformat) ↔
      LaidAsDefined src width height ∧ LaidAsDefined dst width height := by
  constructor
  · rintro ⟨hlays, hlays', _⟩
    exact ⟨(lays_iff hsrcsize).mp hlays, (lays_iff hdstsize).mp hlays'⟩
  · rintro ⟨hdefined, hdefined'⟩
    have hlays := (lays_iff hsrcsize).mpr hdefined
    have hlays' := (lays_iff hdstsize).mpr hdefined'
    refine ⟨hlays, hlays', fun c hc => ?_⟩
    obtain ⟨hreal, hreal', hset, hset', hget⟩ := convertBuffer_cases hsrc hdst hc
    rw [hreal, hreal', frameBytes_realPixfmt]
    exact ⟨hlays.within hset, (hlays'.within hset').mono (frameBytes_le_size hdefined'.1 hget)⟩

/-- A webcam's `YUYV` as `RGB24` in the size 640x480. -/
theorem conversion_yuyv_rgb24 :
    (Lays .yuyv422 640 480 ∧ Lays .rgb24 640 480 ∧
        ScalesInside true 640 480 (v4l2Fourcc 'Y' 'U' 'Y' 'V') (v4l2Fourcc 'R' 'G' 'B' '3')) ↔
      LaidAsDefined .yuyv422 640 480 ∧ LaidAsDefined .rgb24 640 480 :=
  conversion_iff true (by decide) (by decide)
    ⟨by decide, by decide, by decide, by decide⟩ ⟨by decide, by decide, by decide, by decide⟩

/-- The chroma planes of a `YUV411P` frame overlap, and a frame that is converted to
`RGB4` is written behind its buffer. -/
theorem yuv411p_overlaps :
    v4l2fmt2pixfmt (v4l2Fourcc '4' '1' '1' 'P') = some .yuv411p ∧ SizedFor .yuv411p 640 480 ∧
      ¬ Lays .yuv411p 640 480 ∧
      ¬ ScalesInside true 640 480 (v4l2Fourcc 'Y' 'U' 'Y' 'V') (v4l2Fourcc 'R' '4' '4' '4') := by
  have hsize : SizedFor .yuv411p 640 480 := ⟨by decide, by decide, by decide, by decide⟩
  have hcall : convertBuffer true 640 480 (v4l2Fourcc 'Y' 'U' 'Y' 'V')
      (v4l2Fourcc 'R' '4' '4' '4') = some (some ⟨.yuyv422, .rgb4, packed 1280, packed 1280,
        153600⟩) := by
    decide
  refine ⟨by decide, hsize, not_lays_yuv411p hsize, fun hinside => ?_⟩
  obtain ⟨_, rs, hrs, hwithin⟩ := hinside _ hcall
  cases hrs
  have hlast : 0 + 1280 * 479 + 320 ≤ 153600 := hwithin _ List.mem_cons_self 479 (by simp)
  omega

end Blts.Pixel
