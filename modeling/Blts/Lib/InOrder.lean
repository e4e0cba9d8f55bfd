import Mathlib.Data.List.Forall2

/-!
# Finding a sequence among other things

A matcher goes once through a list and looks for the members of a pattern, one after the other:
it keeps the position of the member that it expects next, and moves on when it sees it.  It gets
to the end of the pattern exactly if the list has the pattern in it in this order, with anything
in between (`foldl_matchNext_eq_length_iff`); taking each member as early as possible loses
nothing.
-/

namespace Blts.Lib

variable {α β : Type*} (R : α → β → Bool) (pattern : List α)

/-- The position after one element of the list. -/
def matchNext (i : Nat) (b : β) : Nat :=
  match pattern[i]? with
  | some a => if R a b then i + 1 else i
  | none => i

variable {R pattern} {i : Nat}

theorem matchNext_of_match {a : α} {b : β} (ha : pattern[i]? = some a) (h : R a b = true) :
    matchNext R pattern i b = i + 1 := by
  simp only [matchNext, ha, h, if_true]

theorem matchNext_of_not_match {a : α} {b : β} (ha : pattern[i]? = some a) (h : ¬R a b = true) :
    matchNext R pattern i b = i := by
  simp only [matchNext, ha, h, Bool.false_eq_true, if_false]

theorem matchNext_of_none {b : β} (ha : pattern[i]? = none) : matchNext R pattern i b = i := by
  simp only [matchNext, ha]

theorem sublistForall₂_cons_iff {S : α → β → Prop} {a : α} {l : List α} {b : β} {l' : List β} :
    List.SublistForall₂ S (a :: l) (b :: l') ↔
      (S a b ∧ List.SublistForall₂ S l l') ∨ List.SublistForall₂ S (a :: l) l' := by
  constructor
  · intro h
    cases h with
    | cons hab hrest => exact .inl ⟨hab, hrest⟩
    | cons_right hrest => exact .inr hrest
  · rintro (⟨hab, hrest⟩ | hrest)
    · exact .cons hab hrest
    · exact .cons_right hrest

theorem sublistForall₂_tail {S : α → β → Prop} {a : α} {l : List α} {l' : List β}
    (h : List.SublistForall₂ S (a :: l) l') : List.SublistForall₂ S l l' := by
  induction l' with
  | nil => cases h
  | cons b l' ih =>
      rcases sublistForall₂_cons_iff.mp h with ⟨-, hrest⟩ | hrest
      · exact .cons_right hrest
      · exact .cons_right (ih hrest)

theorem sublistForall₂_imp {S T : α → β → Prop} {l : List α} {l' : List β}
    (h : List.SublistForall₂ S l l') (hST : ∀ a ∈ l, ∀ b, S a b → T a b) :
    List.SublistForall₂ T l l' := by
  induction h with
  | nil => exact .nil
  | cons hab _ ih =>
      obtain ⟨ha, hl⟩ := List.forall_mem_cons.mp hST
      exact .cons (ha _ hab) (ih hl)
  | cons_right _ ih => exact .cons_right (ih hST)

/-- **The matcher** gets to the end of the pattern exactly if what is left of the pattern is in
the list. -/
theorem foldl_matchNext_eq_length_iff (l : List β) : i ≤ pattern.length →
    (l.foldl (matchNext R pattern) i = pattern.length ↔
      List.SublistForall₂ (fun a b => R a b = true) (pattern.drop i) l) := by
  induction l generalizing i with
  | nil =>
      intro hi
      rw [List.foldl_nil]
      constructor
      · intro h
        rw [h, List.drop_length]
        exact .nil
      · intro h
        by_contra hne
        obtain ⟨a, rest, hdrop⟩ := List.exists_cons_of_length_pos
          (by rw [List.length_drop]; omega : 0 < (pattern.drop i).length)
        rw [hdrop] at h
        cases h
  | cons b l ih =>
      intro hi
      rw [List.foldl_cons]
      rcases Nat.lt_or_ge i pattern.length with hlt | hge
      · have hget : pattern[i]? = some pattern[i] := List.getElem?_eq_getElem hlt
        rw [List.drop_eq_getElem_cons hlt, sublistForall₂_cons_iff]
        by_cases hmatch : R pattern[i] b = true
        · rw [matchNext_of_match hget hmatch, ih hlt]
          exact ⟨fun h => .inl ⟨hmatch, h⟩, fun h => h.elim (·.2) sublistForall₂_tail⟩
        · rw [matchNext_of_not_match hget hmatch, ih hi, List.drop_eq_getElem_cons hlt]
          exact ⟨.inr, fun h => h.resolve_left fun h' => hmatch h'.1⟩
      · rw [matchNext_of_none (List.getElem?_eq_none hge), ih hi, List.drop_eq_nil_of_le hge]
        exact iff_of_true .nil .nil

end Blts.Lib
