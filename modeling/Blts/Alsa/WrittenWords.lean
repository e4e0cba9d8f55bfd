import Blts.Alsa.CleanLines

/-!
# Writing words

How words are written to a line, so that `next_token` takes the same words from it: a
string in quotes, a string without blanks that is no number, or a number.
-/

namespace Blts.Alsa

/-! ## Numbers -/

theorem digitValue_digit {c : Char} (h : c.isDigit = true) :
    Cli.digitValue c = some (c.toNat - 48) ∧ c.toNat - 48 < 10 := by
  rw [Char.isDigit, Bool.and_eq_true, decide_eq_true_eq, decide_eq_true_eq] at h
  obtain ⟨hlow, hhigh⟩ := h
  refine ⟨if_pos ⟨hlow, hhigh⟩, ?_⟩
  have h57 : c.toNat ≤ 57 := hhigh
  omega

/-- A string of digits is read as a number to its end. -/
theorem readDigits_digits {str : List Char} : ∀ {n : Nat}, (∀ c ∈ str, c.isDigit = true) →
    Cli.readDigits 10 str n = Nat.ofDigitChars 10 str n := by
  induction str with
  | nil =>
      intro n _
      exact (Nat.ofDigitChars_nil).symm
  | cons c str ih =>
      intro n h
      obtain ⟨hvalue, hlt⟩ := digitValue_digit (h c List.mem_cons_self)
      rw [Cli.readDigits, hvalue]
      dsimp only
      rw [if_pos hlt, ih fun c' hc' => h c' (List.mem_cons_of_mem c hc'),
        Nat.ofDigitChars_cons, Nat.mul_comm]
      rfl

/-- `%d`. -/
def digits (n : Nat) : List Char := Nat.toDigits 10 n

theorem digits_isDigit {n : Nat} {c : Char} (h : c ∈ digits n) : c.isDigit = true :=
  Nat.isDigit_of_mem_toDigits (by decide) (by decide) h

theorem digits_ne_nil (n : Nat) : digits n ≠ [] := Nat.toDigits_ne_nil

/-- What a written number is read as. -/
def asInt (n : Int) : Int :=
  Cli.toInt (min n.toNat 9223372036854775807 : Nat)

theorem atoi_digits (n : Nat) : atoi (digits n) = asInt n := by
  unfold atoi asInt
  rw [readDigits_digits fun c hc => digits_isDigit hc, digits,
    Nat.ofDigitChars_toDigits (by decide) (by decide), Int.toNat_natCast]

theorem asInt_eq_iff (n : Int) : asInt n = n ↔ 0 ≤ n ∧ n < 2147483648 := by
  unfold asInt Cli.toInt
  omega

/-! ## Words -/

/-- A word as it is written. -/
inductive WrittenWord where
  | bare (str : List Char)
  | quoted (str : List Char)
  | number (n : Nat)
  deriving DecidableEq

namespace WrittenWord

def text : WrittenWord → List Char
  | bare str => str
  | quoted str => '"' :: str ++ ['"']
  | number n => digits n

def word : WrittenWord → Word
  | bare str => ⟨.str, str⟩
  | quoted str => ⟨.str, str⟩
  | number n => ⟨.int, digits n⟩

/-- What can be written without quotes: nothing that the clean-up or `next_token` looks
for, and not digits only. -/
def IsBare (str : List Char) : Prop :=
  (∀ c ∈ str, c ∉ ['"', ' ', '\n', '\t', '\r', '\x00']) ∧ ∃ c ∈ str, c.isDigit = false

/-- What can be written in quotes. -/
def IsQuotable (str : List Char) : Prop :=
  ∀ c ∈ str, c ∉ ['"', '\n', '\x00']

instance (str : List Char) : Decidable (IsBare str) :=
  @instDecidableAnd _ _ (List.decidableBAll _ str) (List.decidableBEx _ str)

instance (str : List Char) : Decidable (IsQuotable str) :=
  List.decidableBAll _ str

def WellFormed : WrittenWord → Prop
  | bare str => IsBare str
  | quoted str => IsQuotable str
  | number _ => True

instance : (w : WrittenWord) → Decidable w.WellFormed
  | bare str => inferInstanceAs (Decidable (IsBare str))
  | quoted str => inferInstanceAs (Decidable (IsQuotable str))
  | number _ => inferInstanceAs (Decidable True)

end WrittenWord

open WrittenWord

/-- A line of words, with a space between them. -/
def writeLine (keyword : WrittenWord) (words : List WrittenWord) : List Char :=
  keyword.text ++ words.flatMap fun w => ' ' :: w.text

/-! ## Reading them again -/

/-- Characters that end neither a word nor a string. -/
theorem scanWord_append {inStr : Bool} {s rest : List Char} : ∀ {w : Word},
    (∀ c ∈ s, c ≠ '"' ∧ (inStr = true ∨ c ≠ ' ' ∧ c ≠ '\n')) →
      scanWord true inStr w (s ++ rest) = scanWord true inStr (s.foldl Word.push w) rest := by
  induction s with
  | nil => exact fun _ => rfl
  | cons c s ih =>
      intro w h
      obtain ⟨hquote, hblank⟩ := h c List.mem_cons_self
      have hafter : quoteAfter inStr c = inStr := by simp [quoteAfter, hquote]
      have hends : tokenEnds true inStr c = false := by
        unfold tokenEnds
        rw [hafter]
        cases hblank with
        | inl hin => simp [hin]
        | inr hblank => simp [hblank.1, hblank.2]
      rw [List.cons_append, scanWord, hends, hafter]
      exact ih fun c' hc' => h c' (List.mem_cons_of_mem c hc')

theorem push_all {s : List Char} : ∀ {w : Word}, (∀ c ∈ s, c ≠ '"') →
    s.foldl Word.push w = ⟨if s.all Char.isDigit then w.type else .str, w.str ++ s⟩ := by
  induction s with
  | nil =>
      intro w _
      rw [List.append_nil]
      rfl
  | cons c s ih =>
      intro w h
      have hquote := h c List.mem_cons_self
      have hpush : w.push c = ⟨if c.isDigit then w.type else .str, w.str ++ [c]⟩ := by
        simp [Word.push, hquote]
      rw [List.foldl_cons, ih fun c' hc' => h c' (List.mem_cons_of_mem c hc'), hpush,
        List.all_cons, List.append_assoc]
      by_cases hdigit : c.isDigit = true
      · simp [hdigit]
      · simp [hdigit]

/-- A word ends where the text does, or at a space. -/
def EndsWord (rest : List Char) : Prop := rest = [] ∨ ∃ rest', rest = ' ' :: rest'

theorem scanWord_ends {rest : List Char} (h : EndsWord rest) (w : Word) :
    scanWord true false w rest = some (w, rest) := by
  cases h with
  | inl h =>
      subst h
      rfl
  | inr h =>
      obtain ⟨rest', rfl⟩ := h
      rfl

/-- A word without quotes. -/
theorem scanWord_plain {s rest : List Char} (hs : s ≠ [])
    (hplain : ∀ c ∈ s, c ≠ '"' ∧ c ≠ ' ' ∧ c ≠ '\n') (hrest : EndsWord rest) :
    scanWord false false ⟨.int, []⟩ (s ++ rest) =
      some (⟨if s.all Char.isDigit then .int else .str, s⟩, rest) := by
  have hstart : scanWord false false ⟨.int, []⟩ (s ++ rest) =
      scanWord true false ⟨.int, []⟩ (s ++ rest) := by
    cases s with
    | nil => exact absurd rfl hs
    | cons c s =>
        obtain ⟨hquote, hspace, hnewline⟩ := hplain c List.mem_cons_self
        rw [List.cons_append, scanWord, scanWord]
        simp [tokenEnds, tokenStarted, quoteAfter, hquote, hspace, hnewline]
  rw [hstart, scanWord_append fun c hc => ⟨(hplain c hc).1, .inr (hplain c hc).2⟩,
    push_all fun c hc => (hplain c hc).1, scanWord_ends hrest]
  rfl

/-- A word in quotes. -/
theorem scanWord_quoted {s rest : List Char} (hquotes : ∀ c ∈ s, c ≠ '"')
    (hrest : EndsWord rest) :
    scanWord false false ⟨.int, []⟩ ('"' :: s ++ ['"'] ++ rest) = some (⟨.str, s⟩, rest) := by
  have hopen : scanWord false false ⟨.int, []⟩ ('"' :: s ++ ['"'] ++ rest) =
      scanWord true true ⟨.str, []⟩ (s ++ ('"' :: rest)) := by
    rw [List.append_assoc]
    rfl
  have hclose : scanWord true true ⟨.str, s⟩ ('"' :: rest) = scanWord true false ⟨.str, s⟩ rest :=
    rfl
  have hword : s.foldl Word.push ⟨.str, []⟩ = ⟨.str, s⟩ := by
    rw [push_all hquotes]
    split
    · rfl
    · rfl
  rw [hopen, scanWord_append fun c hc => ⟨hquotes c hc, .inl rfl⟩, hword, hclose,
    scanWord_ends hrest]

theorem IsBare.plain {str : List Char} (h : IsBare str) :
    str ≠ [] ∧ (∀ c ∈ str, c ≠ '"' ∧ c ≠ ' ' ∧ c ≠ '\n') ∧ str.all Char.isDigit = false := by
  obtain ⟨hchars, c, hc, hdigit⟩ := h
  refine ⟨List.ne_nil_of_mem hc, fun c' hc' => ?_, ?_⟩
  · have hnot := hchars c' hc'
    simp only [List.mem_cons, not_or] at hnot
    exact ⟨hnot.1, hnot.2.1, hnot.2.2.1⟩
  · rw [List.all_eq_false]
    exact ⟨c, hc, by simp [hdigit]⟩

theorem digits_plain (n : Nat) : ∀ c ∈ digits n, c ≠ '"' ∧ c ≠ ' ' ∧ c ≠ '\n' := by
  intro c hc
  have hdigit := digits_isDigit hc
  refine ⟨?_, ?_, ?_⟩
  · intro h
    rw [h] at hdigit
    exact absurd hdigit (by decide)
  · intro h
    rw [h] at hdigit
    exact absurd hdigit (by decide)
  · intro h
    rw [h] at hdigit
    exact absurd hdigit (by decide)

/-- A written word is read. -/
theorem scanWord_written {w : WrittenWord} (h : w.WellFormed) {rest : List Char}
    (hrest : EndsWord rest) :
    scanWord false false ⟨.int, []⟩ (w.text ++ rest) = some (w.word, rest) := by
  cases w with
  | bare str =>
      obtain ⟨hnil, hplain, hdigits⟩ := IsBare.plain h
      rw [WrittenWord.text, scanWord_plain hnil hplain hrest, hdigits]
      rfl
  | quoted str =>
      refine scanWord_quoted (fun c hc => ?_) hrest
      have hnot := h c hc
      simp only [List.mem_cons, not_or] at hnot
      exact hnot.1
  | number n =>
      have hdigits : (digits n).all Char.isDigit = true :=
        List.all_eq_true.mpr fun c hc => digits_isDigit hc
      rw [WrittenWord.text, scanWord_plain (digits_ne_nil n) (digits_plain n) hrest, hdigits]
      rfl

theorem wordsOf_space (s : List Char) : wordsOf (' ' :: s) = wordsOf s := by
  have hskip : scanWord false false ⟨.int, []⟩ (' ' :: s) = scanWord false false ⟨.int, []⟩ s :=
    rfl
  cases hscan : scanWord false false ⟨.int, []⟩ s with
  | none => rw [wordsOf_none hscan, wordsOf_none (hskip.trans hscan)]
  | some r =>
      obtain ⟨w, rest⟩ := r
      rw [wordsOf_some hscan, wordsOf_some (hskip.trans hscan)]

theorem endsWord_words (words : List WrittenWord) :
    EndsWord (words.flatMap fun w => ' ' :: w.text) := by
  cases words with
  | nil => exact .inl rfl
  | cons w words => exact .inr ⟨_, rfl⟩

/-- The words of a written line are those that were written. -/
theorem wordsOf_writeLine {words : List WrittenWord} : ∀ {keyword : WrittenWord},
    keyword.WellFormed → (∀ w ∈ words, w.WellFormed) →
      wordsOf (writeLine keyword words) = (keyword :: words).map WrittenWord.word := by
  induction words with
  | nil =>
      intro keyword hkeyword _
      have hscan := scanWord_written hkeyword (endsWord_words [])
      exact (wordsOf_some hscan).trans (congrArg _ (wordsOf_none rfl))
  | cons w words ih =>
      intro keyword hkeyword hwords
      have hscan := scanWord_written hkeyword (endsWord_words (w :: words))
      have hrest : wordsOf ((w :: words).flatMap fun w => ' ' :: w.text) =
          (w :: words).map WrittenWord.word := by
        rw [List.flatMap_cons, List.cons_append, wordsOf_space]
        exact ih (hwords w List.mem_cons_self) fun w' hw' => hwords w' (List.mem_cons_of_mem w hw')
      exact (wordsOf_some hscan).trans (congrArg _ hrest)

end Blts.Alsa
