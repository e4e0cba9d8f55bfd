import Mathlib.Logic.Function.Basic

/-!
# Locks that do not know their owner

A mutex is a flag.  Who holds it is only known from where the threads are, so that an
unlock by another thread sets the flag back under the feet of the holder.  The threads and
the flag agree as long as the lock is taken when it is free and given back by its holder.
-/

namespace Blts.Lib

/-- The threads at a place in `held` hold the lock, which is then not free, and there is at
most one of them. -/
structure LockHeld {ι π : Type*} (held : π → Prop) (locked : Bool) (place : ι → π) : Prop where
  locked : ∀ c, held (place c) → locked = true
  unique : ∀ c d, held (place c) → held (place d) → c = d

namespace LockHeld

variable {ι π : Type*} [DecidableEq ι] {held : π → Prop} {locked : Bool} {place : ι → π}
  {c : ι} {p : π}

/-- A thread moves and keeps the lock, if it has it, or stays without. -/
theorem move (h : LockHeld held locked place) (hp : held p → held (place c)) :
    LockHeld held locked (Function.update place c p) := by
  have hback : ∀ d, held (Function.update place c p d) → held (place d) := by
    intro d hd
    by_cases hdc : d = c
    · rw [hdc, Function.update_self] at hd
      rw [hdc]
      exact hp hd
    · rw [Function.update_of_ne hdc] at hd
      exact hd
  exact ⟨fun d hd => h.locked d (hback d hd),
    fun d d' hd hd' => h.unique d d' (hback d hd) (hback d' hd')⟩

/-- A free lock is taken. -/
theorem take (h : LockHeld held false place) (c : ι) (p : π) :
    LockHeld held true (Function.update place c p) := by
  have hnone : ∀ d, ¬ held (place d) := fun d hd => Bool.false_ne_true (h.locked d hd)
  have honly : ∀ d, held (Function.update place c p d) → d = c := by
    intro d hd
    by_contra hdc
    rw [Function.update_of_ne hdc] at hd
    exact hnone d hd
  exact ⟨fun _ _ => rfl, fun d d' hd hd' => (honly d hd).trans (honly d' hd').symm⟩

/-- The holder gives the lock back. -/
theorem drop (h : LockHeld held locked place) (hc : held (place c)) (hp : ¬ held p) :
    LockHeld held false (Function.update place c p) := by
  have hnone : ∀ d, ¬ held (Function.update place c p d) := by
    intro d hd
    by_cases hdc : d = c
    · rw [hdc, Function.update_self] at hd
      exact hp hd
    · rw [Function.update_of_ne hdc] at hd
      exact hdc (h.unique d c hd hc)
  exact ⟨fun d hd => absurd hd (hnone d), fun d _ hd => absurd hd (hnone d)⟩

end LockHeld

/-- Somebody holds the lock whenever it is not free. -/
def Owned {ι π : Type*} (held : π → Prop) (locked : Bool) (place : ι → π) : Prop :=
  locked = true → ∃ c, held (place c)

theorem owned_free {ι π : Type*} (held : π → Prop) (place : ι → π) : Owned held false place :=
  fun h => (nomatch h)

namespace Owned

variable {ι π : Type*} [DecidableEq ι] {held : π → Prop} {locked : Bool} {place : ι → π}
  {c : ι} {p : π}

/-- A thread that has the lock takes it along. -/
theorem move (h : Owned held locked place) (hp : held (place c) → held p) :
    Owned held locked (Function.update place c p) := by
  intro hlocked
  obtain ⟨d, hd⟩ := h hlocked
  by_cases hdc : d = c
  · exact ⟨c, by rw [Function.update_self]; exact hp (hdc ▸ hd)⟩
  · exact ⟨d, by rw [Function.update_of_ne hdc]; exact hd⟩

theorem take (place : ι → π) (c : ι) (hp : held p) :
    Owned held true (Function.update place c p) :=
  fun _ => ⟨c, by rw [Function.update_self]; exact hp⟩

end Owned

end Blts.Lib
