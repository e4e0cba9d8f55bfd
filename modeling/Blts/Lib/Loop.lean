import Mathlib.Order.Basic

/-!
# Loops without a bound

The body of a `while (1)` loop takes the state of the loop and either goes on with another
state or leaves the loop with a result.  The loop comes to an end with a result where some
number of laps is enough for it; a loop that goes on for ever has no result.

A property that each lap keeps is kept by the whole loop (`Ends.invariant`); and a loop whose
laps all go on within a property never comes to an end (`not_ends`).
-/

namespace Blts.Lib

/-- The end of a lap of a loop. -/
inductive Lap (σ ρ : Type*) where
  | again (s : σ)
  | leave (r : ρ)

namespace Lap

variable {σ ρ : Type*} {body : σ → Lap σ ρ} {s s' : σ} {r r' : ρ}

/-- The result of a loop that ends within `n` laps. -/
def run (body : σ → Lap σ ρ) : Nat → σ → Option ρ
  | 0, _ => none
  | n + 1, s =>
      match body s with
      | .again s' => run body n s'
      | .leave r => some r

/-- The loop comes to an end with the result `r`. -/
def Ends (body : σ → Lap σ ρ) (s : σ) (r : ρ) : Prop := ∃ n, run body n s = some r

theorem run_again (h : body s = .again s') (n : Nat) : run body (n + 1) s = run body n s' := by
  simp only [run, h]

theorem run_leave (h : body s = .leave r) (n : Nat) : run body (n + 1) s = some r := by
  simp only [run, h]

theorem ends_of_leave (h : body s = .leave r) : Ends body s r := ⟨1, run_leave h 0⟩

theorem ends_again_iff (h : body s = .again s') : Ends body s r ↔ Ends body s' r := by
  constructor
  · rintro ⟨n, hn⟩
    cases n with
    | zero => exact absurd hn (by simp [run])
    | succ n => exact ⟨n, (run_again h n).symm.trans hn⟩
  · rintro ⟨n, hn⟩
    exact ⟨n + 1, (run_again h n).trans hn⟩

theorem ends_leave_iff (h : body s = .leave r) : Ends body s r' ↔ r' = r := by
  constructor
  · rintro ⟨n, hn⟩
    cases n with
    | zero => exact absurd hn (by simp [run])
    | succ n => exact Option.some.inj (hn.symm.trans (run_leave h n))
  · rintro rfl
    exact ends_of_leave h

/-- **The run rule.**  What every lap keeps holds where the loop is left. -/
theorem Ends.invariant (Inv : σ → Prop) (post : ρ → Prop)
    (hagain : ∀ s s', Inv s → body s = .again s' → Inv s')
    (hleave : ∀ s r, Inv s → body s = .leave r → post r) :
    Inv s → Ends body s r → post r := by
  rintro hs ⟨n, hn⟩
  induction n generalizing s with
  | zero => exact absurd hn (by simp [run])
  | succ n ih =>
      cases hb : body s with
      | again s' => exact ih (hagain s s' hs hb) ((run_again hb n).symm.trans hn)
      | leave r' =>
          cases Option.some.inj (hn.symm.trans (run_leave hb n))
          exact hleave s r hs hb

/-- A loop whose laps all go on has no result. -/
theorem not_ends (Inv : σ → Prop) (h : ∀ s, Inv s → ∃ s', body s = .again s' ∧ Inv s')
    (hs : Inv s) : ¬Ends body s r := by
  intro hends
  refine Ends.invariant Inv (fun _ => False) (fun t t' ht ht' => ?_) (fun t u ht hu => ?_) hs hends
  · obtain ⟨u, hu, hinv⟩ := h t ht
    cases ht'.symm.trans hu
    exact hinv
  · obtain ⟨u', hu', -⟩ := h t ht
    cases hu.symm.trans hu'

end Lap

end Blts.Lib
