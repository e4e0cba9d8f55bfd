import Mathlib.Data.List.Basic

/-!
# Runs of guarded step functions

A system is an executable step function: `step s e` is `some s'` when event
`e` can happen in state `s`, and `none` when it cannot.  A run is a list of
events.  Two questions are asked of a run here, and both are settled by one
induction each: which states it reaches (`exec`), and whether every one of its
steps meets a side condition in the state it starts from (`Meets`).

The side condition is what makes conditional safety statements compositional:
an invariant only has to survive the steps that meet it.
-/

namespace Blts.Lib

/-- A guarded executable transition system. -/
structure System (σ ε : Type*) where
  step : σ → ε → Option σ

namespace System

variable {σ ε : Type*} (sys : System σ ε)

/-- The state after the events of a run, if each of them was enabled. -/
def exec (s : σ) : List ε → Option σ
  | [] => some s
  | e :: es => (sys.step s e).bind fun s' => exec s' es

/-- Every step of the run meets `K` in the state before it. -/
def Meets (K : σ → ε → Prop) (s : σ) : List ε → Prop
  | [] => True
  | e :: es => ∀ s', sys.step s e = some s' → K s e ∧ Meets K s' es

/-- Whether a concrete run meets a decidable condition is computed by running
it. -/
def decidableMeets (K : σ → ε → Prop) [∀ s e, Decidable (K s e)] :
    (es : List ε) → (s : σ) → Decidable (sys.Meets K s es)
  | [], _ => isTrue trivial
  | e :: es, s =>
    match h : sys.step s e with
    | none => isTrue fun s' h' => by rw [h] at h'; contradiction
    | some t =>
        have : Decidable (sys.Meets K t es) := decidableMeets K es t
        decidable_of_iff (K s e ∧ sys.Meets K t es)
          ⟨fun hm s' h' => Option.some.inj (h ▸ h') ▸ hm, fun hm => hm t h⟩

instance (K : σ → ε → Prop) [∀ s e, Decidable (K s e)] (s : σ) (es : List ε) :
    Decidable (sys.Meets K s es) :=
  sys.decidableMeets K es s

@[simp] theorem exec_nil (s : σ) : sys.exec s [] = some s := rfl

theorem exec_cons (s : σ) (e : ε) (es : List ε) :
    sys.exec s (e :: es) = (sys.step s e).bind fun s' => sys.exec s' es := rfl

/-- A nonempty run splits into its first step and the rest. -/
theorem exec_cons_eq_some {s t : σ} {e : ε} {es : List ε}
    (h : sys.exec s (e :: es) = some t) :
    ∃ s', sys.step s e = some s' ∧ sys.exec s' es = some t := by
  rw [exec_cons] at h
  cases hs : sys.step s e with
  | none => rw [hs] at h; contradiction
  | some s' =>
      rw [hs] at h
      exact ⟨s', rfl, h⟩

/-- Running two lists of events in a row. -/
theorem exec_append (s : σ) (es fs : List ε) :
    sys.exec s (es ++ fs) = (sys.exec s es).bind fun t => sys.exec t fs := by
  induction es generalizing s with
  | nil => rfl
  | cons e es ih =>
      simp only [List.cons_append, exec_cons]
      cases sys.step s e with
      | none => rfl
      | some s' => simpa only [Option.bind_some] using ih s'

/--
**The run rule.**  A property that survives every step meeting `K` holds at
the end of every run whose steps all meet `K`.
-/
theorem exec_invariant {K : σ → ε → Prop} (Inv : σ → Prop)
    (hstep : ∀ s e s', Inv s → K s e → sys.step s e = some s' → Inv s')
    (es : List ε) : ∀ {s t : σ}, Inv s → sys.Meets K s es →
      sys.exec s es = some t → Inv t := by
  induction es with
  | nil =>
      intro s t hs _ hrun
      cases hrun
      exact hs
  | cons e es ih =>
      intro s t hs hmeets hrun
      obtain ⟨s', hs', hrest⟩ := sys.exec_cons_eq_some hrun
      obtain ⟨hK, hmeets'⟩ := hmeets s' hs'
      exact ih (hstep s e s' hs hK hs') hmeets' hrest

/-- A condition on the events alone. -/
theorem meets_of_forall {q : ε → Prop} (es : List ε) : ∀ {s : σ}, (∀ e ∈ es, q e) →
    sys.Meets (fun _ e => q e) s es := by
  induction es with
  | nil => exact fun _ => trivial
  | cons e es ih =>
      intro s hq s' hs'
      obtain ⟨he, hes⟩ := List.forall_mem_cons.mp hq
      exact ⟨he, ih hes⟩

/--
**The measure rule.**  Where every step of a kind lowers a measure, a run of such steps
comes to a state where none of them can be taken.
-/
theorem exists_exec_stuck {q : ε → Prop} (Inv : σ → Prop) (measure : σ → Nat)
    (hstep : ∀ s e s', Inv s → q e → sys.step s e = some s' → Inv s' ∧ measure s' < measure s)
    {s : σ} (hs : Inv s) : ∃ es t, sys.exec s es = some t ∧ (∀ e ∈ es, q e) ∧ Inv t ∧
      ∀ e, q e → sys.step t e = none := by
  induction hm : measure s using Nat.strongRecOn generalizing s with
  | ind m ih =>
      by_cases hstuck : ∀ e, q e → sys.step s e = none
      · exact ⟨[], s, rfl, fun e he => absurd he List.not_mem_nil, hs, hstuck⟩
      · obtain ⟨e, hstuck⟩ := not_forall.mp hstuck
        obtain ⟨he, hsome⟩ := Classical.not_imp.mp hstuck
        obtain ⟨s', hs'⟩ := Option.ne_none_iff_exists'.mp hsome
        obtain ⟨hinv, hlt⟩ := hstep s e s' hs he hs'
        obtain ⟨es, t, hrun, hes, ht, hnone⟩ := ih (measure s') (hm ▸ hlt) hinv rfl
        refine ⟨e :: es, t, ?_, List.forall_mem_cons.mpr ⟨he, hes⟩, ht, hnone⟩
        rw [exec_cons, hs']
        exact hrun

/-- A run whose steps all lower a measure has no more steps than the measure. -/
theorem exec_length_le (Inv : σ → Prop) (measure : σ → Nat)
    (hstep : ∀ s e s', Inv s → sys.step s e = some s' → Inv s' ∧ measure s' < measure s)
    (es : List ε) : ∀ {s t : σ}, Inv s → sys.exec s es = some t → es.length ≤ measure s := by
  induction es with
  | nil => exact fun _ _ => Nat.zero_le _
  | cons e es ih =>
      intro s t hs hrun
      obtain ⟨s', hs', hrest⟩ := sys.exec_cons_eq_some hrun
      obtain ⟨hinv, hlt⟩ := hstep s e s' hs hs'
      exact Nat.lt_of_le_of_lt (ih hinv hrest) hlt

/-- A condition that the invariant implies is met by every step, and may be
used to preserve the invariant. -/
theorem meets_of_invariant {K : σ → ε → Prop} (Inv : σ → Prop)
    (hstep : ∀ s e s', Inv s → K s e → sys.step s e = some s' → Inv s')
    (hK : ∀ s e s', Inv s → sys.step s e = some s' → K s e) (es : List ε) :
    ∀ {s : σ}, Inv s → sys.Meets K s es := by
  induction es with
  | nil => intro s _; trivial
  | cons e es ih =>
      intro s hs s' hs'
      have hKs := hK s e s' hs hs'
      exact ⟨hKs, ih (hstep s e s' hs hKs hs')⟩

/-- A condition that implies another one on the steps taken from an invariant, and
preserves the invariant, implies it on whole runs. -/
theorem meets_imp {K L : σ → ε → Prop} (Inv : σ → Prop)
    (hstep : ∀ s e s', Inv s → K s e → sys.step s e = some s' → Inv s' ∧ L s e)
    (es : List ε) : ∀ {s : σ}, Inv s → sys.Meets K s es → sys.Meets L s es := by
  induction es with
  | nil => exact fun _ _ => trivial
  | cons e es ih =>
      intro s hs hmeets s' hs'
      obtain ⟨hK, hrest⟩ := hmeets s' hs'
      obtain ⟨hinv, hL⟩ := hstep s e s' hs hK hs'
      exact ⟨hL, ih hinv hrest⟩

/-- A condition on the events alone may be added to one on the steps. -/
theorem Meets.and_forall {K : σ → ε → Prop} {q : ε → Prop} (es : List ε) : ∀ {s : σ},
    sys.Meets K s es → (∀ e ∈ es, q e) → sys.Meets (fun s e => q e ∧ K s e) s es := by
  induction es with
  | nil => exact fun _ _ => trivial
  | cons e es ih =>
      intro s hmeets hq s' hs'
      obtain ⟨hK, hrest⟩ := hmeets s' hs'
      obtain ⟨he, hes⟩ := List.forall_mem_cons.mp hq
      exact ⟨⟨he, hK⟩, ih hrest hes⟩

/-- A run that meets a condition meets it at its last step. -/
theorem Meets.last {K : σ → ε → Prop} {e : ε} (es : List ε) : ∀ {s t t' : σ},
    sys.Meets K s (es ++ [e]) → sys.exec s es = some t → sys.step t e = some t' → K t e := by
  induction es with
  | nil =>
      intro s t t' hmeets hrun hstep
      cases hrun
      exact (hmeets t' hstep).1
  | cons e' es ih =>
      intro s t t' hmeets hrun hstep
      obtain ⟨s', hs', hrest⟩ := sys.exec_cons_eq_some hrun
      exact ih (hmeets s' hs').2 hrest hstep

/-- Two conditions that agree on the steps taken from an invariant, which the
steps that meet them preserve, are met by the same runs. -/
theorem meets_congr {K L : σ → ε → Prop} (Inv : σ → Prop)
    (hstep : ∀ s e s', Inv s → sys.step s e = some s' →
      (K s e → Inv s') ∧ (K s e ↔ L s e))
    (es : List ε) : ∀ {s : σ}, Inv s → (sys.Meets K s es ↔ sys.Meets L s es) := by
  induction es with
  | nil => exact fun _ => Iff.rfl
  | cons e es ih =>
      intro s hs
      refine forall₂_congr fun s' hs' => ?_
      obtain ⟨hinv, hiff⟩ := hstep s e s' hs hs'
      rw [← hiff]
      exact and_congr_right fun hK => ih (hinv hK)

end System

end Blts.Lib
