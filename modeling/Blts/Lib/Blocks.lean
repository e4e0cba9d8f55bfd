import Mathlib.Data.List.Basic

/-!
# Blocks of memory

A block is a list of cells, and a copy that leaves one of its blocks has no result.  What a
copy leaves behind is said of each cell (`CellsWritten`): those of one row hold what has been
written, all others what they held before.  Rows that are written one after the other, each
apart from the ones before it, add up (`RowsWritten.step`, `rows_run`).
-/

namespace Blts.Lib

variable {α : Type*}

/-- `memcpy`: `n` cells of `src`, from `j` on, over those of `dst` from `i` on. -/
def copyBlock (dst : List α) (i : Nat) (src : List α) (j n : Nat) : Option (List α) :=
  if i + n ≤ dst.length ∧ j + n ≤ src.length then
    some (dst.take i ++ ((src.drop j).take n ++ dst.drop (i + n)))
  else none

/-- The `w` cells from `i` on have been written. -/
structure CellsWritten (i w : Nat) (row : Nat → Option α) (d d' : List α) : Prop where
  length_eq : d'.length = d.length
  inside : ∀ k < w, d'[i + k]? = row k
  outside : ∀ a, a < i ∨ i + w ≤ a → d'[a]? = d[a]?

/-- `n` rows of `w` cells have been written. -/
structure RowsWritten (start : Nat → Nat) (w n : Nat) (row : Nat → Nat → Option α)
    (d d' : List α) : Prop where
  length_eq : d'.length = d.length
  inside : ∀ r < n, ∀ k < w, d'[start r + k]? = row r k
  outside : ∀ a, (∀ r < n, a < start r ∨ start r + w ≤ a) → d'[a]? = d[a]?

section

variable {dst src d d' d'' : List α} {i j m n w : Nat} {f g : Nat → Option α}

/-- A copy inside both blocks. -/
theorem copyBlock_written (hi : i + n ≤ dst.length) (hj : j + n ≤ src.length) :
    ∃ d', copyBlock dst i src j n = some d' ∧ CellsWritten i n (fun k => src[j + k]?) dst d' := by
  have hhead : (dst.take i).length = i := by
    rw [List.length_take]
    omega
  have hmiddle : ((src.drop j).take n).length = n := by
    rw [List.length_take, List.length_drop]
    omega
  refine ⟨_, if_pos ⟨hi, hj⟩, ?_, ?_, ?_⟩
  · rw [List.length_append, List.length_append, hhead, hmiddle, List.length_drop]
    omega
  · intro k hk
    rw [List.getElem?_append_right (by omega), hhead, Nat.add_sub_cancel_left,
      List.getElem?_append_left (by omega), List.getElem?_take_of_lt hk, List.getElem?_drop]
  · rintro a (ha | ha)
    · rw [List.getElem?_append_left (by omega), List.getElem?_take_of_lt ha]
    · rw [List.getElem?_append_right (by omega), hhead,
        List.getElem?_append_right (by omega), hmiddle, List.getElem?_drop]
      congr 1
      omega

theorem CellsWritten.congr (h : CellsWritten i w f d d') (hrow : ∀ k < w, f k = g k) :
    CellsWritten i w g d d' where
  length_eq := h.length_eq
  inside k hk := (h.inside k hk).trans (hrow k hk)
  outside := h.outside

/-- Two pieces of one row. -/
theorem CellsWritten.append (h : CellsWritten i m f d d') (h' : CellsWritten (i + m) n g d' d'') :
    CellsWritten i (m + n) (fun k => if k < m then f k else g (k - m)) d d'' where
  length_eq := h'.length_eq.trans h.length_eq
  inside k hk := by
    by_cases hkm : k < m
    · rw [if_pos hkm, h'.outside _ (by omega)]
      exact h.inside k hkm
    · have hat : i + k = i + m + (k - m) := by omega
      rw [if_neg hkm, hat]
      exact h'.inside _ (by omega)
  outside a ha := (h'.outside a (by omega)).trans (h.outside a (by omega))

end

section

variable {d d' d'' : List α} {start : Nat → Nat} {w n size : Nat} {row : Nat → Nat → Option α}

theorem RowsWritten.refl : RowsWritten start w 0 row d d where
  length_eq := rfl
  inside r hr := absurd hr (Nat.not_lt_zero r)
  outside _ _ := rfl

/-- One more row, apart from the others. -/
theorem RowsWritten.step (h : RowsWritten start w n row d d')
    (h' : CellsWritten (start n) w (row n) d' d'')
    (hapart : ∀ r < n, start r + w ≤ start n ∨ start n + w ≤ start r) :
    RowsWritten start w (n + 1) row d d'' where
  length_eq := h'.length_eq.trans h.length_eq
  inside r hr k hk := by
    rcases Nat.lt_succ_iff_lt_or_eq.mp hr with hlt | rfl
    · have hrow := hapart r hlt
      rw [h'.outside _ (by omega)]
      exact h.inside r hlt k hk
    · exact h'.inside k hk
  outside a ha :=
    (h'.outside a (ha n (Nat.lt_succ_self n))).trans
      (h.outside a fun r hr => ha r (Nat.lt_succ_of_lt hr))

/-- **The rule of rows.**  A loop that writes a row in each step writes them all. -/
theorem rows_run {step : List α → Nat → Option (List α)} (n : Nat)
    (hstep : ∀ r < n, ∀ d : List α, d.length = size →
      ∃ d', step d r = some d' ∧ CellsWritten (start r) w (row r) d d')
    (hapart : ∀ r' < n, ∀ r < r', start r + w ≤ start r' ∨ start r' + w ≤ start r)
    (hd : d.length = size) :
    ∃ d', (List.range n).foldlM step d = some d' ∧ RowsWritten start w n row d d' := by
  induction n with
  | zero => exact ⟨d, rfl, .refl⟩
  | succ n ih =>
      obtain ⟨d', hrun, hrows⟩ := ih (fun r hr => hstep r (Nat.lt_succ_of_lt hr))
        fun r' hr' => hapart r' (Nat.lt_succ_of_lt hr')
      obtain ⟨d'', hlast, hrow⟩ :=
        hstep n (Nat.lt_succ_self n) d' (hrows.length_eq.trans hd)
      refine ⟨d'', ?_, hrows.step hrow (hapart n (Nat.lt_succ_self n))⟩
      rw [List.range_succ, List.foldlM_append, hrun, Option.bind_eq_bind, Option.bind_some,
        List.foldlM_cons, hlast]
      rfl

/-- A pointer that goes on by a fixed step in each lap of a loop. -/
theorem foldlM_pointer (f : Nat → List α → Nat → Option (List α)) (p s n : Nat) (d : List α) :
    (List.range n).foldlM (fun (state : Nat × List α) (r : Nat) =>
        (f state.1 state.2 r).map fun d' => (state.1 + s, d')) (p, d) =
      ((List.range n).foldlM (fun d r => f (p + r * s) d r) d).map fun d' =>
        (p + n * s, d') := by
  induction n with
  | zero =>
      rw [Nat.zero_mul]
      rfl
  | succ n ih =>
      rw [List.range_succ, List.foldlM_append, List.foldlM_append, ih]
      cases (List.range n).foldlM (fun d r => f (p + r * s) d r) d with
      | none => rfl
      | some d' =>
          simp only [Option.map_some, Option.bind_eq_bind, Option.bind_some, List.foldlM_cons]
          cases f (p + n * s) d' n with
          | none => rfl
          | some d'' =>
              rw [Nat.succ_mul, ← Nat.add_assoc]
              rfl

/-- Rows without a gap are all there is of a block. -/
theorem ext_rows (hlength : d.length = n * w) (hlength' : d'.length = n * w)
    (h : ∀ r < n, ∀ k < w, d[r * w + k]? = d'[r * w + k]?) : d = d' := by
  apply List.ext_getElem?
  intro a
  by_cases ha : a < n * w
  · have hw : 0 < w := Nat.pos_of_ne_zero fun h0 => by
      rw [h0, Nat.mul_zero] at ha
      exact Nat.not_lt_zero a ha
    have hrow : a / w < n := Nat.div_lt_of_lt_mul (Nat.mul_comm n w ▸ ha)
    have hcell := h (a / w) hrow (a % w) (Nat.mod_lt a hw)
    rwa [Nat.mul_comm, Nat.div_add_mod] at hcell
  · rw [List.getElem?_eq_none (by omega), List.getElem?_eq_none (by omega)]

end

end Blts.Lib
