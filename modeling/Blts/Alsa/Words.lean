import Blts.Alsa.Sections

/-!
# The words of a line

A line that fits its buffer is a list of words.  `next_token` takes the first of them
and stays where it ends, so that a pointer into a line stands for the words after it;
of a token only its value is seen by the next one.
-/

namespace Blts.Alsa

@[simp] theorem ok_bind {α β : Type} (a : α) (f : α → Except CnfStop β) :
    ((Except.ok a : Except CnfStop α) >>= f) = f a := rfl

/-! ## Words -/

/-- A token without its value. -/
structure Word where
  type : CnfTokenType
  str : List Char
  deriving DecidableEq

/-- The value of a word, where `old` is that of the token before it. -/
def Word.valueAfter (w : Word) (old : Int) : Int :=
  match w.type with
  | .int => atoi w.str
  | .str => old

/-- The word with one more character. -/
def Word.push (w : Word) (c : Char) : Word where
  type := if c.isDigit then w.type else .str
  str := if c == '"' then w.str else w.str ++ [c]

/-- The token that is read as a word. -/
def CnfToken.read (token : CnfToken) (w : Word) : CnfToken :=
  { type := w.type, value := w.valueAfter token.value, str := w.str }

/-- The first word of a text, and the rest. -/
def scanWord (start inStr : Bool) (w : Word) : List Char → Option (Word × List Char)
  | [] => if start then some (w, []) else none
  | c :: cs =>
      if tokenEnds start inStr c then some (w, c :: cs)
      else if tokenStarted start inStr c then scanWord true (quoteAfter inStr c) (w.push c) cs
      else scanWord false (quoteAfter inStr c) w cs

theorem scanWord_length {s : List Char} : ∀ {start inStr : Bool} {w w' : Word}
    {rest : List Char}, scanWord start inStr w s = some (w', rest) →
      rest.length ≤ s.length := by
  induction s with
  | nil =>
      intro start inStr w w' rest h
      simp only [scanWord] at h
      split at h
      · cases h
        exact Nat.le_refl _
      · cases h
  | cons c cs ih =>
      intro start inStr w w' rest h
      simp only [scanWord] at h
      split at h
      · cases h
        exact Nat.le_refl _
      · split at h
        · exact Nat.le_succ_of_le (ih h)
        · exact Nat.le_succ_of_le (ih h)

/-- A word has a character at least. -/
theorem scanWord_lt {s : List Char} : ∀ {inStr : Bool} {w w' : Word} {rest : List Char},
    scanWord false inStr w s = some (w', rest) → rest.length < s.length := by
  induction s with
  | nil =>
      intro inStr w w' rest h
      cases h
  | cons c cs ih =>
      intro inStr w w' rest h
      simp only [scanWord, tokenEnds, Bool.false_and, Bool.false_eq_true, if_false] at h
      split at h
      · exact Nat.lt_succ_of_le (scanWord_length h)
      · exact Nat.lt_succ_of_lt (ih h)

/-- A word that has started ends. -/
theorem scanWord_started (s : List Char) : ∀ {inStr : Bool} {w : Word},
    scanWord true inStr w s ≠ none := by
  induction s with
  | nil => exact fun h => (by cases h)
  | cons c cs ih =>
      intro inStr w h
      have hstart : tokenStarted true inStr c = true := rfl
      rw [scanWord, if_pos hstart] at h
      split at h
      · cases h
      · exact ih h

/-- The words of a text. -/
def wordsOf (s : List Char) : List Word :=
  match _h : scanWord false false ⟨.int, []⟩ s with
  | none => []
  | some (w, rest) => w :: wordsOf rest
termination_by s.length
decreasing_by exact scanWord_lt ‹_›

theorem wordsOf_none {s : List Char} (h : scanWord false false ⟨.int, []⟩ s = none) :
    wordsOf s = [] := by
  rw [wordsOf]
  split
  case h_1 => rfl
  case h_2 w rest hw =>
    rw [h] at hw
    cases hw

theorem wordsOf_some {s rest : List Char} {w : Word}
    (h : scanWord false false ⟨.int, []⟩ s = some (w, rest)) :
    wordsOf s = w :: wordsOf rest := by
  rw [wordsOf]
  split
  case h_1 hw =>
    rw [h] at hw
    cases hw
  case h_2 w' rest' hw =>
    rw [h] at hw
    cases hw
    rfl

theorem wordsOf_length (s : List Char) : (wordsOf s).length ≤ s.length := by
  induction hn : s.length using Nat.strongRecOn generalizing s with
  | ind n ih =>
      cases hscan : scanWord false false ⟨.int, []⟩ s with
      | none =>
          rw [wordsOf_none hscan]
          exact Nat.zero_le _
      | some r =>
          obtain ⟨w, rest⟩ := r
          have hlt := scanWord_lt hscan
          have hrest := ih rest.length (by omega) rest rfl
          rw [wordsOf_some hscan, List.length_cons]
          omega

/-! ## `next_token` -/

/-- Reading characters into a token and into a word. -/
theorem CnfToken.push_eq {token : CnfToken} {w : Word} (hw : token.type = w.type ∧
    token.str = w.str) (hlen : token.str.length < maxLineLen) (c : Char) :
    ∃ token', token.push c = .ok token' ∧ token'.value = token.value ∧
      token'.type = (w.push c).type ∧ token'.str = (w.push c).str := by
  obtain ⟨htype, hstr⟩ := hw
  by_cases hd : c.isDigit = true
  · by_cases hq : (c == '"') = true
    · exact ⟨token, by simp [CnfToken.push, hd, hq], rfl, by simp [Word.push, hd, htype],
        by simp [Word.push, hq, hstr]⟩
    · exact ⟨{ token with str := token.str ++ [c] }, by simp [CnfToken.push, hd, hq, hlen],
        rfl, by simp [Word.push, hd, htype], by simp [Word.push, hq, hstr]⟩
  · by_cases hq : (c == '"') = true
    · exact ⟨{ token with type := .str }, by simp [CnfToken.push, hd, hq], rfl,
        by simp [Word.push, hd], by simp [Word.push, hq, hstr]⟩
    · exact ⟨{ token with type := .str, str := token.str ++ [c] },
        by simp [CnfToken.push, hd, hq, hlen], rfl, by simp [Word.push, hd],
        by simp [Word.push, hq, hstr]⟩

theorem CnfToken.close_eq {token : CnfToken} {w : Word} (hw : token.type = w.type ∧
    token.str = w.str) : token.close = token.read w := by
  obtain ⟨htype, hstr⟩ := hw
  obtain ⟨type, value, str⟩ := token
  subst htype hstr
  unfold CnfToken.close CnfToken.read Word.valueAfter
  cases w.type <;> rfl

/-- The loop of `next_token` reads the first word, or nothing. -/
theorem scanToken_eq {s : List Char} : ∀ {start inStr : Bool} {token : CnfToken} {w : Word},
    token.type = w.type ∧ token.str = w.str → token.str.length + s.length ≤ maxLineLen →
      scanToken start inStr token s = .ok ((scanWord start inStr w s).elim (none, token)
        fun r => (some r.2, token.read r.1)) := by
  induction s with
  | nil =>
      intro start inStr token w hw _
      cases start with
      | true => simp only [scanToken, scanWord, if_true, CnfToken.close_eq hw, Option.elim]
      | false => rfl
  | cons c cs ih =>
      intro start inStr token w hw hlen
      rw [List.length_cons] at hlen
      simp only [scanToken, scanWord]
      by_cases hend : tokenEnds start inStr c = true
      · simp only [if_pos hend, CnfToken.close_eq hw, Option.elim]
      · rw [if_neg hend, if_neg hend]
        by_cases hstart : tokenStarted start inStr c = true
        · obtain ⟨token', hpush, hvalue, hw'⟩ := CnfToken.push_eq hw (by omega) c
          have hstr : token'.str.length ≤ token.str.length + 1 := by
            rw [hw'.2, hw.2]
            show (if c == '"' then w.str else w.str ++ [c]).length ≤ w.str.length + 1
            split
            · exact Nat.le_succ _
            · exact Nat.le_of_eq List.length_append
          rw [if_pos hstart, if_pos hstart, hpush, ok_bind, ih hw' (by omega)]
          have hread (r : Word) : token'.read r = token.read r := by
            unfold CnfToken.read
            rw [hvalue]
          cases hscan : scanWord true (quoteAfter inStr c) (w.push c) cs with
          | none => exact absurd hscan (scanWord_started cs)
          | some r => simp only [hread, Option.elim]
        · rw [if_neg hstart, if_neg hstart]
          exact ih hw (by omega)

/-- A pointer into a line, and the words it stands for. -/
def PointsTo (ptr : Option (List Char)) (words : List Word) : Prop :=
  ∃ s, ptr = some s ∧ s.length < maxLineLen ∧ wordsOf s = words

/-- **`next_token`** at the end of the words of a line. -/
theorem nextToken_nil {ptr : Option (List Char)} (h : PointsTo ptr []) (token : CnfToken) :
    nextToken ptr token = .ok (none, { token with type := .int, str := [] }) := by
  obtain ⟨s, rfl, hlen, hwords⟩ := h
  unfold nextToken deref
  rw [ok_bind, scanToken_eq (w := ⟨.int, []⟩) ⟨rfl, rfl⟩ (by simpa using Nat.le_of_lt hlen)]
  cases hscan : scanWord false false ⟨.int, []⟩ s with
  | none => rfl
  | some r =>
      obtain ⟨w, rest⟩ := r
      rw [wordsOf_some hscan] at hwords
      cases hwords

/-- **`next_token`** where there is a word. -/
theorem nextToken_cons {ptr : Option (List Char)} {w : Word} {words : List Word}
    (h : PointsTo ptr (w :: words)) (token : CnfToken) :
    ∃ ptr', nextToken ptr token = .ok (some ptr', token.read w) ∧
      PointsTo (some ptr') words := by
  obtain ⟨s, rfl, hlen, hwords⟩ := h
  unfold nextToken deref
  rw [ok_bind, scanToken_eq (w := ⟨.int, []⟩) ⟨rfl, rfl⟩ (by simpa using Nat.le_of_lt hlen)]
  cases hscan : scanWord false false ⟨.int, []⟩ s with
  | none =>
      rw [wordsOf_none hscan] at hwords
      cases hwords
  | some r =>
      obtain ⟨w', rest⟩ := r
      rw [wordsOf_some hscan] at hwords
      cases hwords
      have hrest := scanWord_lt hscan
      exact ⟨rest, rfl, rest, rfl, by omega, rfl⟩

end Blts.Alsa
