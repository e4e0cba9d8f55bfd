import Mathlib.Data.Nat.Sqrt
import Mathlib.Tactic.Linarith
import Blts.Gles.ConfigFile

/-!
# The convolution filter

`build_convolution_filter` makes the text of a shader from the matrix of the
configuration: one line for every element that is not zero, in a square whose side is
odd.  Every buffer has its size, and the matrix its number of elements.

The side is the root of that number where the root is odd, and else one more: then more
elements are read than there are (`filter_inside_iff`).
-/

namespace Blts.Gles

variable {F : Type}

/-! ## Building the text -/

/-- `max_line_len`. -/
def maxFilterLine : Nat := 128

/-- The size of `x_str` and `y_str`. -/
def offsetSize : Nat := 64

/-- Coordinates from `-(n/2)` to `n/2`. -/
def offsets (n : Nat) : List Int :=
  (List.range (2 * (n / 2) + 1)).map fun k : Nat => (k : Int) - (n / 2 : Nat)

/-- The rounds of the two loops: `y` and `x`. -/
def rounds (n : Nat) : List (Int × Int) :=
  (offsets n).flatMap fun y => (offsets n).map fun x => (y, x)

/-- What is written to `x_str` or `y_str`. -/
def offsetText (x : Int) : List Char :=
  if x = 0 then []
  else if x = 1 then " + blur_size".toList
  else if x = -1 then " - blur_size".toList
  else " + blur_size * ".toList ++ (toString x).toList ++ ".0".toList

/-- What is written to `line` for an element. -/
def lineText (lib : Floats F) (v : F) (xStr yStr : List Char) : List Char :=
  if lib.isOne v then
    "\tsum += texture2D(s_texture, vec2(v_texCoord.x".toList ++ xStr ++ ", v_texCoord.y".toList ++
      yStr ++ "));\n".toList
  else if lib.isMinusOne v then
    "\tsum -= texture2D(s_texture, vec2(v_texCoord.x".toList ++ xStr ++ ", v_texCoord.y".toList ++
      yStr ++ "));\n".toList
  else
    "\tsum += texture2D(s_texture, vec2(v_texCoord.x".toList ++ xStr ++ ", v_texCoord.y".toList ++
      yStr ++ ")) * ".toList ++ lib.fixed2 v ++ ";\n".toList

/-- `convolution_template` around its `%s` and `%.2f`. -/
def templateStart : List Char :=
  ("uniform mediump float u_tex_size;\n" ++
    "varying mediump vec2 v_texCoord;\n" ++
    "uniform sampler2D s_texture;\n" ++
    "uniform lowp float u_opacity;\n" ++
    "void main()\n" ++
    "\x7b\n" ++
    "\tmediump float blur_size = 1.0 / u_tex_size;\n" ++
    "\tmediump vec4 sum = vec4(0.0, 0.0, 0.0, 0.0);\n").toList

def templateMiddle : List Char :=
  "\tgl_FragColor = sum / ".toList

def templateEnd : List Char :=
  (" * u_opacity;\n" ++ "\x7d\n").toList

/-- `sizeof(convolution_template)`. -/
def templateSize : Nat :=
  templateStart.length + "%s".length + templateMiddle.length + "%.2f".length +
    templateEnd.length + 1

/-- `mat[i]` of a matrix with `size` elements. -/
def readElement (mat : Vector F maxConvMatSize) (size i : Nat) : Except Fault F :=
  if h : i < size ∧ i < maxConvMatSize then .ok (mat.get ⟨i, h.2⟩) else .error .outOfBounds

/-- A string and its end are written to a buffer. -/
def writeText (text : List Char) (size : Nat) : Except Fault (List Char) :=
  if text.length < size then .ok text else .error .outOfBounds

/-- A line that is appended to `tex2d_sums`. -/
def appendLine (lib : Floats F) (size : Nat) (y x : Int) (v : F) (sums : List Char) :
    Except Fault (List Char) := do
  let xStr ← writeText (offsetText x) offsetSize
  let yStr ← writeText (offsetText y) offsetSize
  let line ← writeText (lineText lib v xStr yStr) maxFilterLine
  writeText (sums ++ line) (size * maxFilterLine)

/-- The loops: `tex2d_sums` and `sum_weight`. -/
def filterLoop (lib : Floats F) (mat : Vector F maxConvMatSize) (size : Nat) :
    List (Int × Int) → Nat → List Char → Nat → Except Fault (List Char × Nat)
  | [], _, sums, sumWeight => .ok (sums, sumWeight)
  | (y, x) :: rest, i, sums, sumWeight => do
      let v ← readElement mat size i
      if lib.isZero v then filterLoop lib mat size rest (i + 1) sums sumWeight
      else
        let sums ← appendLine lib size y x v sums
        filterLoop lib mat size rest (i + 1) sums (sumWeight + 1)

/-- What is written for the `%.2f` of the template. -/
def quotientText (lib : Floats F) (divisor : F) (sumWeight : Nat) : List Char :=
  if lib.isZero divisor then lib.fixed2 (lib.ofInt sumWeight) else lib.fixed2 divisor

/-- The shader of the loops' `tex2d_sums` and `sum_weight`. -/
def formatShader (lib : Floats F) (size : Nat) (divisor : F) (r : List Char × Nat) :
    Except Fault (List Char) :=
  writeText
    (templateStart ++ r.1 ++ templateMiddle ++ quotientText lib divisor r.2 ++ templateEnd)
    (templateSize + size * maxFilterLine)

/-- `build_convolution_filter`: the shader, or nothing if there is no memory. -/
def buildConvolutionFilter (lib : Floats F) (memory : Bool) (mat : Vector F maxConvMatSize)
    (size : Nat) (divisor : F) : Except Fault (Option (List Char)) :=
  if memory = false then .ok none
  else do
    let sums ← filterLoop lib mat size (rounds (Nat.sqrt size)) 0 [] 0
    let shader ← formatShader lib size divisor sums
    .ok (some shader)

/-! ## The lengths of the texts -/

/-- The length of an offset of at most nine. -/
def offsetWidth (x : Int) : Nat :=
  if x = 0 then 0 else if x = 1 ∨ x = -1 then 12 else if 0 < x then 18 else 19

/-- The length of the line of an element. -/
def lineWidth (lib : Floats F) (y x : Int) (v : F) : Nat :=
  if lib.isOne v ∨ lib.isMinusOne v then 64 + offsetWidth x + offsetWidth y
  else 67 + offsetWidth x + offsetWidth y + (lib.fixed2 v).length

theorem length_offsetText_range :
    ∀ k ∈ List.range 19, (offsetText ((k : Int) - 9)).length = offsetWidth ((k : Int) - 9) := by
  decide

theorem length_offsetText {x : Int} (hx : -9 ≤ x ∧ x ≤ 9) :
    (offsetText x).length = offsetWidth x := by
  have h := length_offsetText_range (x + 9).toNat (List.mem_range.mpr (by omega))
  rwa [show (((x + 9).toNat : Nat) : Int) - 9 = x by omega] at h

theorem offsetWidth_lt (x : Int) : offsetWidth x < offsetSize := by
  unfold offsetWidth offsetSize
  split
  · decide
  · split
    · decide
    · split <;> decide

theorem length_lineText (lib : Floats F) (v : F) {y x : Int} (hy : -9 ≤ y ∧ y ≤ 9)
    (hx : -9 ≤ x ∧ x ≤ 9) :
    (lineText lib v (offsetText x) (offsetText y)).length = lineWidth lib y x v := by
  have hadd : ("\tsum += texture2D(s_texture, vec2(v_texCoord.x".toList).length = 46 := by decide
  have hsub : ("\tsum -= texture2D(s_texture, vec2(v_texCoord.x".toList).length = 46 := by decide
  have hmiddle : (", v_texCoord.y".toList).length = 14 := by decide
  have hend : ("));\n".toList).length = 4 := by decide
  have htimes : (")) * ".toList).length = 5 := by decide
  have hlast : (";\n".toList).length = 2 := by decide
  unfold lineText lineWidth
  by_cases hone : lib.isOne v
  · rw [if_pos hone, if_pos (.inl hone)]
    simp only [List.length_append, hadd, hmiddle, hend, length_offsetText hx,
      length_offsetText hy]
    omega
  · by_cases hminus : lib.isMinusOne v
    · rw [if_neg hone, if_pos hminus, if_pos (.inr hminus)]
      simp only [List.length_append, hsub, hmiddle, hend, length_offsetText hx,
        length_offsetText hy]
      omega
    · rw [if_neg hone, if_neg hminus, if_neg (not_or.mpr ⟨hone, hminus⟩)]
      simp only [List.length_append, hadd, hmiddle, htimes, hlast, length_offsetText hx,
        length_offsetText hy]
      omega

/-! ## The loops -/

/-- A square that a text of a matrix can have. -/
def Near (p : Int × Int) : Prop :=
  (-9 ≤ p.1 ∧ p.1 ≤ 9) ∧ -9 ≤ p.2 ∧ p.2 ≤ 9

/-- The lengths of the lines for the elements from an index on. -/
def lineWidths (lib : Floats F) (mat : Vector F maxConvMatSize) (size : Nat) :
    List (Int × Int) → Nat → List Nat
  | [], _ => []
  | (y, x) :: rest, i =>
      match readElement mat size i with
      | .error _ => []
      | .ok v =>
          if lib.isZero v then lineWidths lib mat size rest (i + 1)
          else lineWidth lib y x v :: lineWidths lib mat size rest (i + 1)

section

variable (lib : Floats F) {mat : Vector F maxConvMatSize} {size : Nat}

theorem writeText_ok_iff {text r : List Char} {n : Nat} :
    writeText text n = .ok r ↔ text.length < n ∧ r = text := by
  unfold writeText
  by_cases h : text.length < n <;> simp [h, eq_comm]

/-- A line is appended if it fits `line`, where the lines before leave enough room. -/
theorem appendLine_ok_iff {y x : Int} (hnear : Near (y, x)) (v : F) {sums r : List Char}
    (hroom : sums.length + maxFilterLine ≤ size * maxFilterLine) :
    appendLine lib size y x v sums = .ok r ↔
      lineWidth lib y x v < maxFilterLine ∧
        r = sums ++ lineText lib v (offsetText x) (offsetText y) := by
  have hx : (offsetText x).length < offsetSize := by
    rw [length_offsetText hnear.2]
    exact offsetWidth_lt x
  have hy : (offsetText y).length < offsetSize := by
    rw [length_offsetText hnear.1]
    exact offsetWidth_lt y
  have hline : (lineText lib v (offsetText x) (offsetText y)).length = lineWidth lib y x v :=
    length_lineText lib v hnear.1 hnear.2
  have hwrite {text : List Char} {n : Nat} (h : text.length < n) : writeText text n = .ok text :=
    if_pos h
  unfold appendLine
  rw [hwrite hx, hwrite hy]
  show (writeText (lineText lib v (offsetText x) (offsetText y)) maxFilterLine >>= _) = _ ↔ _
  by_cases hfit : lineWidth lib y x v < maxFilterLine
  · rw [hwrite (by rw [hline]; exact hfit)]
    show writeText (sums ++ _) _ = _ ↔ _
    rw [hwrite (by rw [List.length_append, hline]; omega)]
    simp [hfit, eq_comm]
  · have hlong : writeText (lineText lib v (offsetText x) (offsetText y)) maxFilterLine =
        .error .outOfBounds := if_neg (by rw [hline]; exact hfit)
    rw [hlong]
    exact iff_of_false (fun h => by cases h) fun h => hfit h.1

/-- **The loops** stay inside where there are enough elements and every line fits. -/
theorem filterLoop_ok_iff : ∀ (ps : List (Int × Int)) {i sumWeight : Nat} {sums : List Char},
    (∀ p ∈ ps, Near p) → size ≤ maxConvMatSize → sums.length ≤ i * maxFilterLine →
      ((∃ r, filterLoop lib mat size ps i sums sumWeight = .ok r) ↔
        i + ps.length ≤ max i size ∧ ∀ w ∈ lineWidths lib mat size ps i, w < maxFilterLine) ∧
      ∀ r, filterLoop lib mat size ps i sums sumWeight = .ok r →
        r.1.length = sums.length + (lineWidths lib mat size ps i).sum ∧
          r.2 = sumWeight + (lineWidths lib mat size ps i).length := by
  intro ps
  induction ps with
  | nil =>
      intro i sumWeight sums _ _ _
      refine ⟨iff_of_true ⟨_, rfl⟩ ⟨by simp, fun w hw => by cases hw⟩, ?_⟩
      rintro r h
      cases h
      exact ⟨rfl, rfl⟩
  | cons p ps ih =>
      obtain ⟨y, x⟩ := p
      intro i sumWeight sums hnear hsize hsums
      have hnear' := fun p hp => hnear p (List.mem_cons_of_mem _ hp)
      by_cases hi : i < size
      · have hread : readElement mat size i = .ok (mat.get ⟨i, Nat.lt_of_lt_of_le hi hsize⟩) :=
          dif_pos ⟨hi, Nat.lt_of_lt_of_le hi hsize⟩
        generalize mat.get ⟨i, Nat.lt_of_lt_of_le hi hsize⟩ = v at hread
        have hlen : i + ((y, x) :: ps).length ≤ max i size ↔
            i + 1 + ps.length ≤ max (i + 1) size := by
          rw [List.length_cons]
          omega
        have hroom : sums.length + maxFilterLine ≤ size * maxFilterLine := by
          unfold maxFilterLine at *
          omega
        rw [filterLoop, hread, lineWidths, hread, hlen]
        by_cases hzero : lib.isZero v
        · simp only [bind, Except.bind, if_pos hzero]
          exact ih hnear' hsize (by unfold maxFilterLine at *; omega)
        · simp only [bind, Except.bind, if_neg hzero, List.forall_mem_cons, List.sum_cons,
            List.length_cons]
          by_cases hfit : lineWidth lib y x v < maxFilterLine
          · have happend := (appendLine_ok_iff lib (hnear _ List.mem_cons_self) v hroom).mpr
              ⟨hfit, rfl⟩
            have hlength : (sums ++ lineText lib v (offsetText x) (offsetText y)).length =
                sums.length + lineWidth lib y x v := by
              rw [List.length_append, length_lineText lib v (hnear _ List.mem_cons_self).1
                (hnear _ List.mem_cons_self).2]
            have hsums' : (sums ++ lineText lib v (offsetText x) (offsetText y)).length ≤
                (i + 1) * maxFilterLine := by
              rw [hlength]
              unfold maxFilterLine at *
              omega
            obtain ⟨hiff, hvalues⟩ := @ih (i + 1) (sumWeight + 1) _ hnear' hsize hsums'
            simp only [happend, hiff, hfit, true_and]
            refine fun r h => ?_
            obtain ⟨hsum, hweight⟩ := hvalues r h
            rw [hsum, hweight, hlength]
            omega
          · cases happend : appendLine lib size y x v sums with
            | ok r =>
                exact absurd ((appendLine_ok_iff lib (hnear _ List.mem_cons_self) v hroom).mp
                  happend).1 hfit
            | error fault =>
                refine ⟨iff_of_false ?_ fun h => hfit h.2.1, fun r h => by cases h⟩
                rintro ⟨r, h⟩
                cases h
      · have hread : readElement mat size i = .error .outOfBounds := dif_neg fun h => hi h.1
        rw [filterLoop, hread]
        refine ⟨iff_of_false ?_ ?_, fun r h => by cases h⟩
        · rintro ⟨r, h⟩
          cases h
        · rintro ⟨hlen, _⟩
          rw [List.length_cons] at hlen
          omega

end

/-! ## The square -/

theorem length_rounds (n : Nat) : (rounds n).length = (2 * (n / 2) + 1) * (2 * (n / 2) + 1) := by
  simp only [rounds, offsets, List.length_flatMap, List.map_map, List.length_map,
    List.length_range, Function.comp_def, List.map_const', List.sum_replicate_nat]

theorem near_rounds {n : Nat} (hn : n < 20) : ∀ p ∈ rounds n, Near p := by
  intro p hp
  simp only [rounds, offsets, List.mem_flatMap, List.mem_map, List.mem_range] at hp
  obtain ⟨y, ⟨k, hk, rfl⟩, x, ⟨l, hl, rfl⟩, rfl⟩ := hp
  unfold Near
  dsimp only
  omega

/-- There are as many rounds as elements at most if the root is odd. -/
theorem length_rounds_le_iff (size : Nat) :
    (rounds (Nat.sqrt size)).length ≤ size ↔ Nat.sqrt size % 2 = 1 := by
  rw [length_rounds]
  constructor
  · intro h
    by_contra heven
    have hside : 2 * (Nat.sqrt size / 2) + 1 = Nat.sqrt size + 1 := by omega
    rw [hside] at h
    exact absurd (Nat.le_sqrt.mpr h) (Nat.not_succ_le_self _)
  · intro hodd
    have hside : 2 * (Nat.sqrt size / 2) + 1 = Nat.sqrt size := by omega
    rw [hside]
    exact Nat.sqrt_le size

/-! ## The filter -/

/-- The lengths of all lines of the filter. -/
def filterWidths (lib : Floats F) (mat : Vector F maxConvMatSize) (size : Nat) : List Nat :=
  lineWidths lib mat size (rounds (Nat.sqrt size)) 0

/-- What the filter can be built of: the root of the number of elements is odd, every line
fits its buffer, and all of them fit the shader with the divisor, for whose `%s` and `%.2f`
there are six bytes. -/
structure FilterFits (lib : Floats F) (mat : Vector F maxConvMatSize) (size : Nat)
    (divisor : F) : Prop where
  odd : Nat.sqrt size % 2 = 1
  lines : ∀ w ∈ filterWidths lib mat size, w < maxFilterLine
  shader : (filterWidths lib mat size).sum +
    (quotientText lib divisor (filterWidths lib mat size).length).length ≤
      size * maxFilterLine + 6

theorem templateSize_eq : templateSize =
    templateStart.length + 2 + templateMiddle.length + 4 + templateEnd.length + 1 := by
  have hformat : "%s".length = 2 ∧ "%.2f".length = 4 := ⟨rfl, rfl⟩
  rw [templateSize, hformat.1, hformat.2]

theorem formatShader_ok_iff (lib : Floats F) (size : Nat) (divisor : F)
    (r : List Char × Nat) :
    (∃ shader, formatShader lib size divisor r = .ok shader) ↔
      r.1.length + (quotientText lib divisor r.2).length ≤ size * maxFilterLine + 6 := by
  unfold formatShader
  simp only [writeText_ok_iff, exists_and_left, exists_eq, and_true, templateSize_eq,
    List.length_append]
  -- The texts of the template are on both sides.
  generalize templateStart.length = a
  generalize templateMiddle.length = b
  generalize templateEnd.length = c
  omega

/-- With memory there is a shader. -/
theorem buildConvolutionFilter_ne_none {lib : Floats F} {mat : Vector F maxConvMatSize}
    {size : Nat} {divisor : F} :
    buildConvolutionFilter lib true mat size divisor ≠ .ok none := by
  intro h
  obtain ⟨_, _, h⟩ := exists_of_bind_eq_ok h
  obtain ⟨_, _, h⟩ := exists_of_bind_eq_ok h
  cases h

/-- **`build_convolution_filter`** reads only elements of the matrix and writes only inside
its buffers exactly for what it can be built of. -/
theorem filter_inside_iff (lib : Floats F) {mat : Vector F maxConvMatSize} {size : Nat}
    (hsize : size ≤ maxConvMatSize) (divisor : F) :
    (∃ r, buildConvolutionFilter lib true mat size divisor = .ok r) ↔
      FilterFits lib mat size divisor := by
  have hroot : Nat.sqrt size < 20 := Nat.sqrt_lt.mpr (Nat.lt_of_le_of_lt hsize (by decide))
  obtain ⟨hiff, hvalues⟩ := @filterLoop_ok_iff F lib mat size (rounds (Nat.sqrt size)) 0 0 []
    (near_rounds hroot) hsize (Nat.zero_le _)
  rw [Nat.zero_add, Nat.max_eq_right (Nat.zero_le size), length_rounds_le_iff] at hiff
  unfold buildConvolutionFilter
  rw [if_neg (by decide)]
  cases hloop : filterLoop lib mat size (rounds (Nat.sqrt size)) 0 [] 0 with
  | error fault =>
      refine iff_of_false ?_ fun h => ?_
      · rintro ⟨r, h⟩
        cases h
      · obtain ⟨r, hr⟩ := hiff.mpr ⟨h.odd, h.lines⟩
        rw [hloop] at hr
        cases hr
  | ok r =>
      obtain ⟨hodd, hlines⟩ := hiff.mp ⟨r, hloop⟩
      obtain ⟨hsum, hweight⟩ := hvalues r hloop
      have hsum' : r.1.length = (filterWidths lib mat size).sum := by
        rw [hsum, List.length_nil, Nat.zero_add]
        rfl
      have hweight' : r.2 = (filterWidths lib mat size).length := by
        rw [hweight, Nat.zero_add]
        rfl
      constructor
      · rintro ⟨shader, h⟩
        obtain ⟨r', hr', h⟩ := exists_of_bind_eq_ok h
        cases hr'
        obtain ⟨text, htext, _⟩ := exists_of_bind_eq_ok h
        have hlen := (formatShader_ok_iff lib size divisor r).mp ⟨text, htext⟩
        rw [hsum', hweight'] at hlen
        exact ⟨hodd, hlines, hlen⟩
      · intro h
        have hlen := h.shader
        rw [← hsum', ← hweight'] at hlen
        obtain ⟨text, htext⟩ := (formatShader_ok_iff lib size divisor r).mpr hlen
        refine ⟨some text, ?_⟩
        rw [ok_bind, htext, ok_bind]

end Blts.Gles
