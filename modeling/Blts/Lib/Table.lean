import Mathlib.Data.Nat.Basic

/-!
# Tables that are filled from the front

A table has a number of cells and a count of those in use.  The next cell is filled by a
function of what it holds, and counted; a full table is an error.  Cells that are not in
use hold what they held in the beginning (`Fresh`).
-/

namespace Blts.Lib

/-- Cells and how many of them are in use. -/
structure Table (α : Type) (n : Nat) where
  count : Nat
  cells : Vector α n

namespace Table

variable {α σ ε : Type} {n : Nat}

/-- A table with the same in all cells, none of them in use. -/
def empty (blank : α) : Table α n where
  count := 0
  cells := .replicate n blank

/-- Fill the next cell and count it. -/
def extend (full : ε) (t : Table α n) (fill : α → Except ε (α × σ)) :
    Except ε (Table α n × σ) :=
  if h : t.count < n then do
    let r ← fill t.cells[t.count]
    .ok ({ count := t.count + 1, cells := t.cells.set t.count r.1 h }, r.2)
  else .error full

/-- The cells that are not in use are blank. -/
def Fresh (blank : α) (t : Table α n) : Prop :=
  ∀ j (h : j < n), t.count ≤ j → t.cells[j] = blank

variable {blank : α} {full : ε} {t : Table α n} {fill : α → Except ε (α × σ)}

@[simp] theorem count_empty : (empty blank : Table α n).count = 0 := rfl

theorem fresh_empty : Fresh blank (empty blank : Table α n) :=
  fun _ h _ => Vector.getElem_replicate h

/-- A cell is filled if there is one and it can be. -/
theorem extend_ok_iff (hfresh : Fresh blank t) {r : Table α n × σ} :
    t.extend full fill = .ok r ↔
      ∃ h : t.count < n, ∃ a s, fill blank = .ok (a, s) ∧
        r = ({ count := t.count + 1, cells := t.cells.set t.count a h }, s) := by
  unfold extend
  by_cases h : t.count < n
  · rw [dif_pos h, hfresh t.count h (Nat.le_refl _)]
    cases hfill : fill blank with
    | error e =>
        refine iff_of_false (fun heq => by cases heq) ?_
        rintro ⟨_, a, s, heq, _⟩
        cases heq
    | ok p =>
        constructor
        · intro heq
          cases heq
          exact ⟨h, p.1, p.2, rfl, rfl⟩
        · rintro ⟨_, a, s, heq, rfl⟩
          cases heq
          rfl
  · rw [dif_neg h]
    refine iff_of_false (fun heq => by cases heq) ?_
    rintro ⟨hlt, _⟩
    exact h hlt

theorem extend_ok (hfresh : Fresh blank t) (h : t.count < n) {a : α} {s : σ}
    (hfill : fill blank = .ok (a, s)) :
    t.extend full fill =
      .ok ({ count := t.count + 1, cells := t.cells.set t.count a h }, s) :=
  (extend_ok_iff hfresh).mpr ⟨h, a, s, hfill, rfl⟩

/-- The cells behind the new one are as they were. -/
theorem fresh_set (hfresh : Fresh blank t) (h : t.count < n) (a : α) :
    Fresh blank { count := t.count + 1, cells := t.cells.set t.count a h } := by
  intro j hj hle
  have hne : t.count ≠ j := Nat.ne_of_lt hle
  exact (Vector.getElem_set_ne h hj hne).trans (hfresh j hj (Nat.le_of_succ_le hle))

end Table

end Blts.Lib
