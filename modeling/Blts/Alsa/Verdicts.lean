import Mathlib.Algebra.BigOperators.Group.List.Basic
import Mathlib.Algebra.Order.Ring.Nat
import Blts.Lib.Ends
import Blts.Alsa.Lines

/-!
# What a line leads to

The words of a line alone decide whether the line is taken (`Verdict`), and what it
adds to the arrays of its section.  The reading of a section stops at the first line
that is not taken; the lines up to there are looked at.
-/

namespace Blts.Alsa

open Blts.Lib

/-- How a line ends the reading of its section, if it does. -/
abbrev Verdict := Option CnfStop

/-- A function that writes within its arrays exactly if it `fits`, and then ends as the
verdict says. -/
abbrev Leads {α : Type} (fits : Prop) (verdict : Verdict) (post : α → Prop)
    (run : Except CnfStop α) : Prop :=
  Ends (.fault .outOfBounds) fits verdict post run

theorem leads_copyString (size : Nat) (str : List Char) :
    Leads (str.length < size) none (fun r => r = str) (copyString size str) :=
  Ends.check rfl

theorem leads_writeAt (size index : Nat) :
    Leads (index < size) none (fun _ => True) (writeAt size index) :=
  Ends.check trivial

theorem leads_store {α : Type} (size : Nat) (values : List α) (a : α) :
    Leads (values.length < size) none (fun r => r = values ++ [a]) (store size values a) :=
  (leads_writeAt size values.length).map fun _ _ => rfl

/-! ## Words that fit -/

/-- The words fit the buffer of a token with their terminator. -/
def WordsFit (ws : List Word) : Prop :=
  ∀ w ∈ ws, w.str.length < maxLineLen

/-- A word has no more characters than are read for it. -/
theorem scanWord_str {s : List Char} : ∀ {start inStr : Bool} {w w' : Word} {rest : List Char},
    scanWord start inStr w s = some (w', rest) →
      w'.str.length + rest.length ≤ w.str.length + s.length := by
  induction s with
  | nil =>
      intro start inStr w w' rest h
      rw [scanWord] at h
      cases start with
      | true =>
          cases h
          exact Nat.le_refl _
      | false => cases h
  | cons c cs ih =>
      intro start inStr w w' rest h
      rw [List.length_cons]
      rw [scanWord] at h
      by_cases hend : tokenEnds start inStr c = true
      · rw [if_pos hend] at h
        cases h
        exact Nat.le_refl _
      rw [if_neg hend] at h
      by_cases hstart : tokenStarted start inStr c = true
      · rw [if_pos hstart] at h
        have hrest := ih h
        have hpush : (w.push c).str.length ≤ w.str.length + 1 := by
          show (if c == '"' then w.str else w.str ++ [c]).length ≤ w.str.length + 1
          split
          · exact Nat.le_succ _
          · exact Nat.le_of_eq List.length_append
        omega
      · rw [if_neg hstart] at h
        have hrest := ih h
        omega

theorem wordsOf_str (s : List Char) : ∀ w ∈ wordsOf s, w.str.length ≤ s.length := by
  induction hn : s.length using Nat.strongRecOn generalizing s with
  | ind n ih =>
      intro w hw
      cases hscan : scanWord false false ⟨.int, []⟩ s with
      | none =>
          rw [wordsOf_none hscan] at hw
          cases hw
      | some r =>
          obtain ⟨w', rest⟩ := r
          rw [wordsOf_some hscan] at hw
          have hstr : w'.str.length + rest.length ≤ 0 + s.length := scanWord_str hscan
          have hlt := scanWord_lt hscan
          cases hw with
          | head => omega
          | tail _ hw =>
              have hrest := ih rest.length (by omega) rest rfl w hw
              omega

/-- The words of a line fit. -/
theorem wordsFit_line {line : List Char} (h : IsLine line) : WordsFit (wordsOf line) :=
  fun w hw => Nat.lt_of_le_of_lt (wordsOf_str line w hw) h.2

/-! ## The lines of a section -/

section

variable {α : Type} (verdict : α → Verdict)

/-- What is looked at: all up to the first that is not taken, and that one. -/
def looked : List α → List α
  | [] => []
  | a :: as => a :: if verdict a = none then looked as else []

/-- The verdict on the first that is not taken. -/
def firstStop : List α → Verdict
  | [] => none
  | a :: as => (verdict a).or (firstStop as)

theorem firstStop_append (as bs : List α) :
    firstStop verdict (as ++ bs) = (firstStop verdict as).or (firstStop verdict bs) := by
  induction as with
  | nil => exact (Option.none_or).symm
  | cons a as ih => rw [List.cons_append, firstStop, firstStop, ih, Option.or_assoc]

theorem looked_append (as bs : List α) :
    looked verdict (as ++ bs) =
      looked verdict as ++ if firstStop verdict as = none then looked verdict bs else [] := by
  induction as with
  | nil => rfl
  | cons a as ih =>
      rw [List.cons_append, looked, looked, firstStop, ih]
      cases hverdict : verdict a with
      | none => rw [if_pos rfl, if_pos rfl, Option.none_or, List.cons_append]
      | some stop => rfl

/-- All is looked at where all is taken. -/
theorem looked_eq {as : List α} (h : firstStop verdict as = none) : looked verdict as = as := by
  induction as with
  | nil => rfl
  | cons a as ih =>
      obtain ⟨ha, has⟩ := Option.or_eq_none_iff.mp h
      rw [looked, if_pos ha, ih has]

theorem forall_of_firstStop {as : List α} (h : firstStop verdict as = none) :
    ∀ a ∈ as, verdict a = none := by
  induction as with
  | nil => exact fun a ha => (by cases ha)
  | cons a as ih =>
      obtain ⟨ha, has⟩ := Option.or_eq_none_iff.mp h
      rw [List.forall_mem_cons]
      exact ⟨ha, ih has⟩

/-- The first that is not taken is the only one that is looked at. -/
theorem firstStop_eq_some_iff {as : List α} {stop : CnfStop} :
    firstStop verdict as = some stop ↔ ∃ a ∈ looked verdict as, verdict a = some stop := by
  induction as with
  | nil => simp [firstStop, looked]
  | cons a as ih =>
      rw [firstStop, looked]
      cases hverdict : verdict a with
      | none => simp [hverdict, ih]
      | some stop' => simp [hverdict]

end

/-- `step` writes within its arrays exactly if the strings of the line are `short` and
what the line `adds` to the arrays fits; then it ends as the verdict says. -/
def Accounts {σ ι : Type} (step : List Word → Int → σ → Except CnfStop (Int × σ))
    (verdict : List Word → Verdict) (size : σ → ι → Nat) (adds : List Word → ι → Nat)
    (short : List Word → Prop) : Prop :=
  ∀ ws value params, WordsFit ws → (∀ i, size params i ≤ magicNumber) →
    Leads (short ws ∧ ∀ i, size params i + adds ws i ≤ magicNumber) (verdict ws)
      (fun r => ∀ i, size r.2 i = size params i + adds ws i) (step ws value params)

/-- What the lines of a section add. -/
def addsAll {ι : Type} (adds : List Word → ι → Nat) (lines : List (List Word)) (i : ι) : Nat :=
  (lines.map fun ws => adds ws i).sum

/-- **A section** is read within its arrays exactly if all the strings that are looked
at are short and the arrays hold what is stored. -/
theorem Accounts.readLines {σ ι : Type}
    {step : List Word → Int → σ → Except CnfStop (Int × σ)} {verdict : List Word → Verdict}
    {size : σ → ι → Nat} {adds : List Word → ι → Nat} {short : List Word → Prop}
    (h : Accounts step verdict size adds short) {lines : List (List Char)} :
    ∀ (value : Int) {params : σ}, (∀ line ∈ lines, IsLine line) →
      (∀ i, size params i ≤ magicNumber) →
        Leads ((∀ ws ∈ looked verdict (lines.map wordsOf), short ws) ∧
            ∀ i, size params i + addsAll adds (looked verdict (lines.map wordsOf)) i ≤
              magicNumber)
          (firstStop verdict (lines.map wordsOf)) (fun _ => True)
          (Alsa.readLines step lines value params) := by
  induction lines with
  | nil =>
      intro value params _ hsize
      exact (Ends.ok trivial).congr ⟨fun _ => ⟨fun ws hws => (by cases hws), hsize⟩,
        fun _ => trivial⟩
  | cons line lines ih =>
      intro value params hlines hsize
      have hline := wordsFit_line (hlines line List.mem_cons_self)
      have hrest : ∀ l ∈ lines, IsLine l := fun l hl => hlines l (List.mem_cons_of_mem line hl)
      rw [List.map_cons, Alsa.readLines, looked, firstStop]
      have hadds (i : ι) : addsAll adds (wordsOf line :: looked verdict (lines.map wordsOf)) i =
          adds (wordsOf line) i + addsAll adds (looked verdict (lines.map wordsOf)) i := rfl
      have hlead := (h (wordsOf line) value params hline hsize).bind fun hfit r hr =>
        (ih r.1 hrest fun i => (hr i).trans_le (hfit.2 i)).congr
          (show _ ↔ (∀ ws ∈ looked verdict (lines.map wordsOf), short ws) ∧
              ∀ i, size params i + addsAll adds (wordsOf line ::
                looked verdict (lines.map wordsOf)) i ≤ magicNumber by
            simp only [hr, hadds, Nat.add_assoc])
      apply hlead.congr
      cases hverdict : verdict (wordsOf line) with
      | none =>
          rw [if_pos rfl, List.forall_mem_cons]
          constructor
          · rintro ⟨⟨hshort, _⟩, hall⟩
            exact ⟨⟨hshort, (hall rfl).1⟩, (hall rfl).2⟩
          · rintro ⟨⟨hshort, hall⟩, hfits⟩
            refine ⟨⟨hshort, fun i => ?_⟩, fun _ => ⟨hall, hfits⟩⟩
            have hi := hfits i
            rw [hadds] at hi
            omega
      | some stop =>
          have hone (i : ι) : addsAll adds [wordsOf line] i = adds (wordsOf line) i :=
            Nat.add_zero _
          rw [if_neg (by simp), List.forall_mem_singleton]
          simp only [hone]
          exact and_iff_left fun hnone => (by cases hnone)

end Blts.Alsa
