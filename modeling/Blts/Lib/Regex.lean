import Mathlib.Computability.Language

/-!
# Longest matches of regular expressions

The expressions have a character class as their leaf, so that the alphabet may be any type.  A
match is found with derivatives: the rest of the expression after each character, until the
text ends or nothing can follow.  `longest` is the length of the longest prefix in the
language, and `munch` selects from a list of rules the one with the longest match, the first
of them where several match as much.
-/

namespace Blts.Lib

open Computability

/-- Regular expressions over classes of characters. -/
inductive Regex (α : Type) where
  | never
  | empty
  | one (class_ : α → Bool)
  | seq (r s : Regex α)
  | or (r s : Regex α)
  | star (r : Regex α)

namespace Regex

variable {α β : Type}

/-- The words that an expression stands for. -/
def lang : Regex α → Language α
  | never => 0
  | empty => 1
  | one class_ => {w | ∃ a, class_ a = true ∧ w = [a]}
  | seq r s => r.lang * s.lang
  | or r s => r.lang + s.lang
  | star r => r.lang∗

/-- `r+` -/
def plus (r : Regex α) : Regex α := seq r (star r)

/-- `r?` -/
def opt (r : Regex α) : Regex α := or r empty

/-- `r{n}` -/
def times (r : Regex α) : Nat → Regex α
  | 0 => empty
  | n + 1 => seq r (r.times n)

/-- Any of the expressions. -/
def any (rs : List (Regex α)) : Regex α := rs.foldr or never

/-- The characters of a word, one after the other. -/
def word [BEq α] (w : List α) : Regex α := w.foldr (fun a r => seq (one (· == a)) r) empty

/-- The empty word is in the language. -/
def nullable : Regex α → Bool
  | never => false
  | empty => true
  | one _ => false
  | seq r s => r.nullable && s.nullable
  | or r s => r.nullable || s.nullable
  | star _ => true

/-- Concatenation, where nothing follows an expression without words. -/
def seq' : Regex α → Regex α → Regex α
  | never, _ => never
  | empty, s => s
  | r, s => seq r s

/-- Union without an expression that has no words. -/
def or' : Regex α → Regex α → Regex α
  | never, s => s
  | r, never => r
  | r, s => or r s

/-- What may follow the character `a`. -/
def deriv (a : α) : Regex α → Regex α
  | never => never
  | empty => never
  | one class_ => if class_ a then empty else never
  | seq r s =>
      if r.nullable then or' (seq' (r.deriv a) s) (s.deriv a) else seq' (r.deriv a) s
  | or r s => or' (r.deriv a) (s.deriv a)
  | star r => seq' (r.deriv a) (star r)

/-- The expression without words. -/
def isNever : Regex α → Bool
  | never => true
  | _ => false

theorem eq_never_of_isNever {r : Regex α} (h : r.isNever = true) : r = never := by
  cases r with
  | never => rfl
  | _ => cases h

/-! ## Derivatives -/

theorem deriv_seq_one (class_ : α → Bool) (r : Regex α) (a : α) :
    (seq (one class_) r).deriv a = if class_ a then r else never := by
  cases ha : class_ a <;> simp [deriv, nullable, ha, seq']

theorem nil_mem_lang_iff {r : Regex α} : [] ∈ r.lang ↔ r.nullable = true := by
  induction r with
  | never => simp [lang, nullable]
  | empty => simp [lang, nullable]
  | one class_ =>
      constructor
      · rintro ⟨a, _, h⟩
        cases h
      · exact fun h => absurd h Bool.false_ne_true
  | seq r s ihr ihs =>
      simp only [lang, nullable, Language.mem_mul, Bool.and_eq_true, ← ihr, ← ihs]
      constructor
      · rintro ⟨u, hu, v, hv, huv⟩
        obtain ⟨rfl, rfl⟩ := List.append_eq_nil_iff.mp huv
        exact ⟨hu, hv⟩
      · exact fun h => ⟨[], h.1, [], h.2, rfl⟩
  | or r s ihr ihs => rw [lang, Language.mem_add, ihr, ihs, nullable, Bool.or_eq_true]
  | star r _ => simp [lang, nullable, Language.nil_mem_kstar]

theorem lang_seq' (r s : Regex α) : (seq' r s).lang = r.lang * s.lang := by
  cases r with
  | never => exact (zero_mul s.lang).symm
  | empty => exact (one_mul s.lang).symm
  | _ => rfl

theorem lang_or' (r s : Regex α) : (or' r s).lang = r.lang + s.lang := by
  cases r with
  | never => exact (zero_add s.lang).symm
  | _ =>
      cases s with
      | never => exact (add_zero _).symm
      | _ => rfl

/-- A word of a concatenation that begins with `a`. -/
theorem cons_mem_mul {l m : Language α} {a : α} {w : List α} :
    a :: w ∈ l * m ↔
      (∃ u v, u ++ v = w ∧ a :: u ∈ l ∧ v ∈ m) ∨ [] ∈ l ∧ a :: w ∈ m := by
  rw [Language.mem_mul]
  constructor
  · rintro ⟨u, hu, v, hv, huv⟩
    cases u with
    | nil =>
        obtain rfl : v = a :: w := huv
        exact .inr ⟨hu, hv⟩
    | cons b u =>
        obtain ⟨rfl, rfl⟩ := List.cons.inj huv
        exact .inl ⟨u, v, rfl, hu, hv⟩
  · rintro (⟨u, v, rfl, hu, hv⟩ | ⟨hnil, hw⟩)
    · exact ⟨a :: u, hu, v, hv, rfl⟩
    · exact ⟨[], hnil, a :: w, hw, rfl⟩

/-- A word of a repetition that begins with `a`. -/
theorem cons_mem_kstar {l : Language α} {a : α} {w : List α} :
    a :: w ∈ l∗ ↔ ∃ u v, u ++ v = w ∧ a :: u ∈ l ∧ v ∈ l∗ := by
  constructor
  · intro h
    obtain ⟨ws, hws, hl⟩ := Language.mem_kstar_iff_exists_nonempty.mp h
    cases ws with
    | nil => cases hws
    | cons u ws =>
        obtain ⟨hu, hne⟩ := hl u (by simp)
        cases u with
        | nil => exact absurd rfl hne
        | cons b u =>
            rw [List.flatten_cons, List.cons_append] at hws
            obtain ⟨rfl, rfl⟩ := List.cons.inj hws
            exact ⟨u, ws.flatten, rfl, hu,
              Language.join_mem_kstar fun y hy => (hl y (by simp [hy])).1⟩
  · rintro ⟨u, v, rfl, hu, hv⟩
    obtain ⟨ws, rfl, hl⟩ := Language.mem_kstar.mp hv
    refine Language.mem_kstar.mpr ⟨(a :: u) :: ws, rfl, fun y hy => ?_⟩
    rcases List.mem_cons.mp hy with rfl | hy
    · exact hu
    · exact hl y hy

/-- **The derivative** stands for what follows `a` in the words. -/
theorem mem_lang_deriv {r : Regex α} {a : α} {w : List α} :
    w ∈ (r.deriv a).lang ↔ a :: w ∈ r.lang := by
  induction r generalizing w with
  | never => exact Iff.rfl
  | empty => simp [deriv, lang]
  | one class_ =>
      have hright : a :: w ∈ (one class_).lang ↔ class_ a = true ∧ w = [] := by
        constructor
        · rintro ⟨b, hb, h⟩
          obtain ⟨rfl, rfl⟩ := List.cons.inj h
          exact ⟨hb, rfl⟩
        · rintro ⟨ha, rfl⟩
          exact ⟨a, ha, rfl⟩
      rw [hright]
      cases ha : class_ a <;> simp [deriv, ha, lang]
  | seq r s ihr ihs =>
      have hleft : w ∈ (seq' (r.deriv a) s).lang ↔
          ∃ u v, u ++ v = w ∧ a :: u ∈ r.lang ∧ v ∈ s.lang := by
        rw [lang_seq', Language.mem_mul]
        constructor
        · rintro ⟨u, hu, v, hv, rfl⟩
          exact ⟨u, v, rfl, ihr.mp hu, hv⟩
        · rintro ⟨u, v, rfl, hu, hv⟩
          exact ⟨u, ihr.mpr hu, v, hv, rfl⟩
      rw [lang, cons_mem_mul, ← hleft, nil_mem_lang_iff, deriv]
      cases hr : r.nullable
      · simp
      · rw [if_pos rfl, lang_or', Language.mem_add, ihs]
        simp
  | or r s ihr ihs =>
      rw [deriv, lang_or', Language.mem_add, ihr, ihs, lang, Language.mem_add]
  | star r ih =>
      rw [deriv, lang_seq', Language.mem_mul, lang, cons_mem_kstar]
      constructor
      · rintro ⟨u, hu, v, hv, rfl⟩
        exact ⟨u, v, rfl, ih.mp hu, hv⟩
      · rintro ⟨u, v, rfl, hu, hv⟩
        exact ⟨u, ih.mpr hu, v, hv, rfl⟩

/-! ## Longest matches -/

/-- The length of the longest prefix of a text that is in the language. -/
def longest (r : Regex α) : List α → Option Nat
  | [] => if r.nullable then some 0 else none
  | a :: w =>
      match (r.deriv a).longest w with
      | some n => some (n + 1)
      | none => if r.nullable then some 0 else none

theorem longest_eq_none {r : Regex α} {w : List α} :
    r.longest w = none ↔ ∀ p, p <+: w → p ∉ r.lang := by
  induction w generalizing r with
  | nil =>
      rw [longest]
      constructor
      · intro h p hp
        rw [List.prefix_nil.mp hp, nil_mem_lang_iff]
        exact fun hnull => by simp [hnull] at h
      · intro h
        rw [if_neg (fun hnull => h [] (List.prefix_refl _) (nil_mem_lang_iff.mpr hnull))]
  | cons a w ih =>
      have hnone : r.longest (a :: w) = none ↔
          (r.deriv a).longest w = none ∧ ¬ r.nullable = true := by
        rw [longest]
        cases (r.deriv a).longest w <;> simp
      rw [hnone, ih]
      constructor
      · rintro ⟨hderiv, hnull⟩ p hp
        cases p with
        | nil => rwa [nil_mem_lang_iff]
        | cons b p =>
            obtain ⟨rfl, htail⟩ := List.cons_prefix_cons.mp hp
            exact fun hmem => hderiv p htail (mem_lang_deriv.mpr hmem)
      · intro h
        refine ⟨fun p hp hmem => ?_, fun hnull => ?_⟩
        · exact h (a :: p) (List.cons_prefix_cons.mpr ⟨rfl, hp⟩) (mem_lang_deriv.mp hmem)
        · exact h [] (List.nil_prefix) (nil_mem_lang_iff.mpr hnull)

/-- The match is a word, and no longer prefix is one. -/
theorem longest_eq_some {r : Regex α} {w : List α} {n : Nat} (h : r.longest w = some n) :
    n ≤ w.length ∧ w.take n ∈ r.lang ∧ ∀ p, p <+: w → p ∈ r.lang → p.length ≤ n := by
  induction w generalizing r n with
  | nil =>
      rw [longest] at h
      cases hnull : r.nullable
      · simp [hnull] at h
      · simp only [hnull, if_true, Option.some.injEq] at h
        subst h
        refine ⟨le_refl 0, nil_mem_lang_iff.mpr hnull, fun p hp _ => ?_⟩
        rw [List.prefix_nil.mp hp]
        exact le_refl 0
  | cons a w ih =>
      rw [longest] at h
      cases hderiv : (r.deriv a).longest w with
      | some m =>
          simp only [hderiv, Option.some.injEq] at h
          subst h
          obtain ⟨hle, hmem, hmax⟩ := ih hderiv
          refine ⟨Nat.succ_le_succ hle, mem_lang_deriv.mp hmem, fun p hp hpmem => ?_⟩
          cases p with
          | nil => exact Nat.zero_le _
          | cons b p =>
              obtain ⟨rfl, htail⟩ := List.cons_prefix_cons.mp hp
              exact Nat.succ_le_succ (hmax p htail (mem_lang_deriv.mpr hpmem))
      | none =>
          rw [hderiv] at h
          cases hnull : r.nullable
          · simp [hnull] at h
          · simp only [hnull, if_true, Option.some.injEq] at h
            subst h
            refine ⟨Nat.zero_le _, nil_mem_lang_iff.mpr hnull, fun p hp hpmem => ?_⟩
            cases p with
            | nil => exact le_refl 0
            | cons b p =>
                obtain ⟨rfl, htail⟩ := List.cons_prefix_cons.mp hp
                exact absurd (mem_lang_deriv.mpr hpmem) (longest_eq_none.mp hderiv p htail)

@[simp] theorem longest_never (w : List α) : (never : Regex α).longest w = none := by
  induction w with
  | nil => rfl
  | cons a w ih => simp [longest, deriv, ih, nullable]

@[simp] theorem longest_empty (w : List α) : (empty : Regex α).longest w = some 0 := by
  cases w with
  | nil => rfl
  | cons a w => simp [longest, deriv, nullable]

theorem longest_cons {r : Regex α} (h : r.nullable = false) (a : α) (w : List α) :
    r.longest (a :: w) = ((r.deriv a).longest w).map (· + 1) := by
  rw [longest]
  cases (r.deriv a).longest w <;> simp [h]

/-- A repeated class matches as long as its characters follow. -/
theorem longest_star_one {class_ : α → Bool} (w : List α) :
    (star (one class_)).longest w = some (w.takeWhile class_).length := by
  induction w with
  | nil => rfl
  | cons a w ih =>
      cases ha : class_ a
      · simp [longest, deriv, ha, seq', nullable]
      · simp [longest, deriv, ha, seq', ih]

/-! ## Rules -/

/-- The rule with the longest match of a text that begins with `a`, and how many characters it
takes besides that one.  The first rule is taken where several match as much. -/
def munch (a : α) (w : List α) : List (Regex α × β) → Option (β × Nat)
  | [] => none
  | (r, b) :: rules =>
      match (r.deriv a).longest w, munch a w rules with
      | none, later => later
      | some n, none => some (b, n)
      | some n, some (b', n') => if n < n' then some (b', n') else some (b, n)

/-- What is selected comes from the list, and the match is a word of its rule. -/
theorem munch_eq_some {a : α} {w : List α} {rules : List (Regex α × β)} {b : β} {n : Nat}
    (h : munch a w rules = some (b, n)) :
    n ≤ w.length ∧ ∃ r, (r, b) ∈ rules ∧ (r.deriv a).longest w = some n := by
  induction rules with
  | nil => cases h
  | cons rule rules ih =>
      obtain ⟨r, b'⟩ := rule
      rw [munch] at h
      have hlater : munch a w rules = some (b, n) →
          n ≤ w.length ∧ ∃ r', (r', b) ∈ (r, b') :: rules ∧
            (r'.deriv a).longest w = some n := by
        intro hrest
        obtain ⟨hle, r', hmem, hr'⟩ := ih hrest
        exact ⟨hle, r', List.mem_cons_of_mem _ hmem, hr'⟩
      have hfirst : ∀ m, (r.deriv a).longest w = some m → some (b', m) = some (b, n) →
          n ≤ w.length ∧ ∃ r', (r', b) ∈ (r, b') :: rules ∧
            (r'.deriv a).longest w = some n := by
        intro m hm heq
        cases heq
        exact ⟨(longest_eq_some hm).1, r, List.mem_cons_self, hm⟩
      cases hr : (r.deriv a).longest w with
      | none =>
          simp only [hr] at h
          exact hlater h
      | some m =>
          cases hrest : munch a w rules with
          | none =>
              simp only [hr, hrest] at h
              exact hfirst m hr h
          | some later =>
              simp only [hr, hrest] at h
              split at h
              · exact hlater (hrest.trans h)
              · exact hfirst m hr h

/-- A last rule that matches one character is taken only if no other rule matches. -/
theorem munch_concat {a : α} {w : List α} {rules : List (Regex α × β)} {class_ : α → Bool}
    {b : β} :
    munch a w (rules ++ [(one class_, b)]) =
      match munch a w rules with
      | some selected => some selected
      | none => if class_ a then some (b, 0) else none := by
  have hlast : ((one class_ : Regex α).deriv a).longest w =
      if class_ a then some 0 else none := by
    cases ha : class_ a
    · simp [deriv, ha]
    · simp [deriv, ha]
  induction rules with
  | nil =>
      rw [List.nil_append, munch, munch, munch, hlast]
      cases class_ a <;> rfl
  | cons rule rules ih =>
      obtain ⟨r, b'⟩ := rule
      rw [List.cons_append, munch, munch, ih]
      cases (r.deriv a).longest w with
      | none => rfl
      | some n =>
          cases munch a w rules with
          | none => cases class_ a <;> simp
          | some later =>
              obtain ⟨b'', n'⟩ := later
              by_cases hlt : n < n'
              · simp [hlt]
              · simp [hlt]

/-- A rule is selected if the rules before it match less, and those after it no more. -/
theorem munch_select {a : α} {w : List α} {r : Regex α} {b : β} {n : Nat}
    {before after : List (Regex α × β)}
    (hbefore : ∀ rule ∈ before, ∀ m, (rule.1.deriv a).longest w = some m → m < n)
    (hr : (r.deriv a).longest w = some n)
    (hafter : ∀ rule ∈ after, ∀ m, (rule.1.deriv a).longest w = some m → m ≤ n) :
    munch a w (before ++ (r, b) :: after) = some (b, n) := by
  induction before with
  | nil =>
      rw [List.nil_append, munch, hr]
      cases hrest : munch a w after with
      | none => rfl
      | some later =>
          obtain ⟨b', n'⟩ := later
          obtain ⟨_, r', hmem, hlong⟩ := munch_eq_some hrest
          have hle : n' ≤ n := hafter (r', b') hmem n' hlong
          simp [Nat.not_lt.mpr hle]
  | cons rule before ih =>
      have hlater := ih fun rule' hmem => hbefore rule' (List.mem_cons_of_mem _ hmem)
      rw [List.cons_append, munch, hlater]
      cases hlong : (rule.1.deriv a).longest w with
      | none => rfl
      | some m => simp [hbefore rule List.mem_cons_self m hlong]

/-! ## What the words are made of -/

/-- Every character of every word has the property. -/
def All (P : α → Prop) : Regex α → Prop
  | never => True
  | empty => True
  | one class_ => ∀ a, class_ a = true → P a
  | seq r s => r.All P ∧ s.All P
  | or r s => r.All P ∧ s.All P
  | star r => r.All P

/-- Every word has a character with the property. -/
def Has (P : α → Prop) : Regex α → Prop
  | never => True
  | empty => False
  | one class_ => ∀ a, class_ a = true → P a
  | seq r s => r.Has P ∨ s.Has P
  | or r s => r.Has P ∧ s.Has P
  | star _ => False

theorem All.of_mem_lang {P : α → Prop} {r : Regex α} (h : r.All P) {w : List α}
    (hw : w ∈ r.lang) : ∀ a ∈ w, P a := by
  induction r generalizing w with
  | never => cases hw
  | empty =>
      obtain rfl : w = [] := hw
      exact fun a ha => absurd ha List.not_mem_nil
  | one class_ =>
      obtain ⟨b, hb, rfl⟩ := hw
      intro a ha
      rw [List.mem_singleton.mp ha]
      exact h b hb
  | seq r s ihr ihs =>
      obtain ⟨u, hu, v, hv, rfl⟩ := Language.mem_mul.mp hw
      intro a ha
      rcases List.mem_append.mp ha with ha | ha
      · exact ihr h.1 hu a ha
      · exact ihs h.2 hv a ha
  | or r s ihr ihs =>
      rcases (Language.mem_add _ _ _).mp hw with hw | hw
      · exact ihr h.1 hw
      · exact ihs h.2 hw
  | star r ih =>
      obtain ⟨ws, rfl, hws⟩ := Language.mem_kstar.mp hw
      intro a ha
      obtain ⟨u, hu, hau⟩ := List.mem_flatten.mp ha
      exact ih h (hws u hu) a hau

theorem Has.of_mem_lang {P : α → Prop} {r : Regex α} (h : r.Has P) {w : List α}
    (hw : w ∈ r.lang) : ∃ a ∈ w, P a := by
  induction r generalizing w with
  | never => cases hw
  | empty => exact absurd h not_false
  | one class_ =>
      obtain ⟨b, hb, rfl⟩ := hw
      exact ⟨b, List.mem_singleton_self b, h b hb⟩
  | seq r s ihr ihs =>
      obtain ⟨u, hu, v, hv, rfl⟩ := Language.mem_mul.mp hw
      rcases h with h | h
      · obtain ⟨a, ha, hP⟩ := ihr h hu
        exact ⟨a, List.mem_append_left _ ha, hP⟩
      · obtain ⟨a, ha, hP⟩ := ihs h hv
        exact ⟨a, List.mem_append_right _ ha, hP⟩
  | or r s ihr ihs =>
      rcases (Language.mem_add _ _ _).mp hw with hw | hw
      · exact ihr h.1 hw
      · exact ihs h.2 hw
  | star r _ => exact absurd h not_false

end Regex

end Blts.Lib
