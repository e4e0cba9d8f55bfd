import Mathlib.Data.List.Basic

/-!
# How a computation ends

One error of a computation stands for what must not happen.  It happens exactly if
the computation is not `safe`; a safe one ends as its verdict says, with a result that
meets a postcondition or with another error.  Two computations in a row are safe if the
first is, and the second wherever the first has a result.
-/

namespace Blts.Lib

variable {ε α β : Type} {bad : ε}

/-- `run` ends with `bad` unless it is `safe`, and with its verdict otherwise. -/
structure Ends (bad : ε) (safe : Prop) (verdict : Option ε) (post : α → Prop)
    (run : Except ε α) : Prop where
  bad_of_not : ¬ safe → run = .error bad
  done : safe → verdict = none → ∃ a, run = .ok a ∧ post a
  stop : safe → ∀ e, verdict = some e → run = .error e
  other : safe → verdict ≠ some bad

namespace Ends

variable {safe safe' : Prop} {verdict verdict' : Option ε} {post : α → Prop}
  {post' : β → Prop} {run : Except ε α}

/-- **What must not happen** does not, exactly if the computation is safe. -/
theorem ne_bad_iff (h : Ends bad safe verdict post run) : run ≠ .error bad ↔ safe := by
  constructor
  · intro hne
    by_cases hsafe : safe
    · exact hsafe
    · exact absurd (h.bad_of_not hsafe) hne
  · intro hsafe hbad
    cases hverdict : verdict with
    | none =>
        obtain ⟨a, ha, _⟩ := h.done hsafe hverdict
        rw [ha] at hbad
        cases hbad
    | some e =>
        rw [h.stop hsafe e hverdict] at hbad
        cases hbad
        exact h.other hsafe hverdict

/-- A result is what a safe computation with no other error has. -/
theorem of_ok (h : Ends bad safe verdict post run) {a : α} (ha : run = .ok a) :
    safe ∧ verdict = none ∧ post a := by
  have hsafe : safe := h.ne_bad_iff.mp (by rw [ha]; exact fun h => (by cases h))
  refine ⟨hsafe, ?_⟩
  cases hverdict : verdict with
  | none =>
      obtain ⟨a', ha', hpost⟩ := h.done hsafe hverdict
      rw [ha] at ha'
      cases ha'
      exact ⟨rfl, hpost⟩
  | some e =>
      rw [h.stop hsafe e hverdict] at ha
      cases ha

theorem congr (h : Ends bad safe verdict post run) (hiff : safe ↔ safe') :
    Ends bad safe' verdict post run where
  bad_of_not hsafe := h.bad_of_not fun hs => hsafe (hiff.mp hs)
  done hsafe := h.done (hiff.mpr hsafe)
  stop hsafe := h.stop (hiff.mpr hsafe)
  other hsafe := h.other (hiff.mpr hsafe)

/-- Less is said of the result. -/
theorem weaken {weak : α → Prop} (h : Ends bad safe verdict post run)
    (hpost : ∀ a, post a → weak a) : Ends bad safe verdict weak run where
  bad_of_not := h.bad_of_not
  done hsafe hverdict := by
    obtain ⟨a, ha, hp⟩ := h.done hsafe hverdict
    exact ⟨a, ha, hpost a hp⟩
  stop := h.stop
  other := h.other

theorem ok {a : α} (ha : post a) : Ends bad True none post (.ok a) where
  bad_of_not h := absurd trivial h
  done _ _ := ⟨a, rfl, ha⟩
  stop _ _ h := (by cases h)
  other _ h := (by cases h)

theorem error {e : ε} (he : e ≠ bad) : Ends bad True (some e) post (.error e) where
  bad_of_not h := absurd trivial h
  done _ h := (by cases h)
  stop _ e' h := by rw [Option.some.inj h]
  other _ h := he (Option.some.inj h)

/-- A check. -/
theorem check [Decidable safe] {a : α} (ha : post a) :
    Ends bad safe none post (if safe then .ok a else .error bad) where
  bad_of_not h := if_neg h
  done h _ := ⟨a, if_pos h, ha⟩
  stop _ _ h := (by cases h)
  other _ h := (by cases h)

/-- **Two computations in a row**. -/
theorem bind {f : α → Except ε β} (h : Ends bad safe verdict post run)
    (hf : safe → ∀ a, post a → Ends bad safe' verdict' post' (f a)) :
    Ends bad (safe ∧ (verdict = none → safe')) (verdict.or verdict') post' (run >>= f) := by
  by_cases hsafe : safe
  · cases hverdict : verdict with
    | none =>
        obtain ⟨a, ha, hpost⟩ := h.done hsafe hverdict
        have hrest := hf hsafe a hpost
        have hrun : (run >>= f) = f a := by
          rw [ha]
          rfl
        rw [hrun, Option.none_or]
        exact hrest.congr ⟨fun hs => ⟨hsafe, fun _ => hs⟩, fun hs => hs.2 rfl⟩
    | some e =>
        have hrun : (run >>= f) = .error e := by
          rw [h.stop hsafe e hverdict]
          rfl
        have hbad : e ≠ bad := fun he => h.other hsafe (he ▸ hverdict)
        rw [hrun]
        exact (error hbad).congr ⟨fun _ => ⟨hsafe, fun h => (by cases h)⟩, fun _ => trivial⟩
  · have hrun : (run >>= f) = .error bad := by
      rw [h.bad_of_not hsafe]
      rfl
    exact ⟨fun _ => hrun, fun hs => absurd hs.1 hsafe, fun hs => absurd hs.1 hsafe,
      fun hs => absurd hs.1 hsafe⟩

/-- A result is used. -/
theorem map {f : α → β} (h : Ends bad safe verdict post run)
    (hpost : ∀ a, post a → post' (f a)) :
    Ends bad safe verdict post' (run >>= fun a => .ok (f a)) := by
  have hb := h.bind fun _ a ha => ok (hpost a ha)
  rw [Option.or_none] at hb
  exact hb.congr (and_iff_left fun _ => trivial)

/-- A check before the rest. -/
theorem guard {f : α → Except ε β} (h : Ends bad safe none post run)
    (hf : safe → ∀ a, post a → Ends bad safe' verdict' post' (f a)) :
    Ends bad (safe ∧ safe') verdict' post' (run >>= f) := by
  have hb := h.bind hf
  rw [Option.none_or] at hb
  exact hb.congr (and_congr_right fun _ => ⟨fun hs => hs rfl, fun hs _ => hs⟩)

end Ends

end Blts.Lib
