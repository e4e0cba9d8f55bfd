import Mathlib.Data.List.TakeWhile
import Mathlib.Tactic.IntervalCases
import Blts.Config.Scanner

/-!
# Integer constants in a configuration

The values of a configuration are documented as C constants.  An integer constant is one match
of the rule for its base, and `strtol` gives its value.  The class of octal digits ends at 6:
where a digit string begins with 0, a match stops before the first 7, and the digits from there
on are a second number, as they are for a string with an 8 or 9, which is no constant.
-/

namespace Blts.Config

open Blts.Lib

/-- What holds of all characters of a string is decided along the string. -/
local instance (priority := high) decidableAllChars {P : Char → Prop} [DecidablePred P]
    (str : List Char) : Decidable (∀ c ∈ str, P c) :=
  List.decidableBAll P str

/-! ## C constants -/

/-- The value of a digit. -/
def digitOf (c : Char) : Nat :=
  if c.isDigit then c.toNat - 48
  else if 'a' ≤ c then c.toNat - 87
  else c.toNat - 55

/-- The value of digits. -/
def valueOfDigits (base : Nat) (ds : List Char) : Nat :=
  ds.foldl (fun acc c => acc * base + digitOf c) 0

/-- The octal digits of C. -/
def cOctDigits : List Char := ['0', '1', '2', '3', '4', '5', '6', '7']

/-- The integer constants of C without a suffix, and their values. -/
inductive IntConstant : List Char → Nat → Prop
  | decimal {d : Char} {ds : List Char} : d ≠ '0' → (∀ c ∈ d :: ds, c.isDigit = true) →
      IntConstant (d :: ds) (valueOfDigits 10 (d :: ds))
  | octal {ds : List Char} : (∀ c ∈ ds, c ∈ cOctDigits) →
      IntConstant ('0' :: ds) (valueOfDigits 8 ds)
  | hexadecimal {x : Char} {ds : List Char} : x = 'x' ∨ x = 'X' → ds ≠ [] →
      (∀ c ∈ ds, isXDigit c = true) → IntConstant ('0' :: x :: ds) (valueOfDigits 16 ds)

/-- Digits only. -/
def IsDigits (w : List Char) : Prop := w ≠ [] ∧ ∀ c ∈ w, c.isDigit = true

/-- A constant in the range of `long`, or digits that are no constant. -/
def IsNumeral (w : List Char) : Prop :=
  (∃ v, IntConstant w v ∧ (v : Int) ≤ longMax) ∨ IsDigits w ∧ ∀ v, ¬ IntConstant w v

/-- White space follows, or the end of the file. -/
def Separates (rest : List Char) : Prop := ∀ c ∈ rest.head?, c = ' ' ∨ c = '\t' ∨ c = '\n'

/-- A number token. -/
def IsNumber : Token → Prop
  | .long _ | .double _ => True
  | _ => False

/-- A constant is one token with its value, and digits that are no constant are not read as
two numbers or more. -/
def ScannedWhole (world : World) (w rest : List Char) : Prop :=
  (∀ v, IntConstant w v → ∀ s : Scanner, s.start = .initial → s.buffer = w ++ rest →
    turn world s = .token (.long v) { s with buffer := rest }) ∧
  (IsDigits w → (∀ v, ¬ IntConstant w v) → ∀ s : Scanner, s.start = .initial →
    s.buffer = w ++ rest → ∀ toks, 2 ≤ toks.length → (∀ tok ∈ toks, IsNumber tok) →
      ¬ Scans world s toks { s with buffer := rest })

/-- Digits that begin with 0 and have a digit that is not in the class of octal digits. -/
def LeavesOctal (w : List Char) : Prop :=
  w.head? = some '0' ∧ (∀ c ∈ w, c.isDigit = true) ∧ ∃ c ∈ w, isOctDigit c = false

/-! ## Digits -/

theorem isDigit_cases {c : Char} (h : c.isDigit = true) :
    c ∈ ['0', '1', '2', '3', '4', '5', '6', '7', '8', '9'] := by
  have hbounds : 48 ≤ c.toNat ∧ c.toNat ≤ 57 := by
    simpa [Char.isDigit, UInt32.le_iff_toNat_le] using h
  rw [← Char.ofNat_toNat c]
  obtain ⟨hlo, hhi⟩ := hbounds
  interval_cases c.toNat <;> decide

theorem isXDigit_cases {c : Char} (h : isXDigit c = true) :
    c.isDigit = true ∨ c ∈ ['a', 'b', 'c', 'd', 'e', 'f'] ∨
      c ∈ ['A', 'B', 'C', 'D', 'E', 'F'] := by
  simp only [isXDigit, Bool.or_eq_true, Bool.and_eq_true, decide_eq_true_eq] at h
  rcases h with (h | ⟨hlo, hhi⟩) | ⟨hlo, hhi⟩
  · exact .inl h
  · right; left
    have hlo : 97 ≤ c.toNat := hlo
    have hhi : c.toNat ≤ 102 := hhi
    rw [← Char.ofNat_toNat c]
    interval_cases c.toNat <;> decide
  · right; right
    have hlo : 65 ≤ c.toNat := hlo
    have hhi : c.toNat ≤ 70 := hhi
    rw [← Char.ofNat_toNat c]
    interval_cases c.toNat <;> decide

/-- A property of all hexadecimal digits. -/
theorem forall_xdigit {P : Char → Prop} [DecidablePred P]
    (h : ∀ c ∈ "0123456789abcdefABCDEF".toList, P c) {c : Char} (hc : isXDigit c = true) :
    P c := by
  apply h
  rcases isXDigit_cases hc with hc | hc | hc
  · exact List.mem_append_left ['a', 'b', 'c', 'd', 'e', 'f', 'A', 'B', 'C', 'D', 'E', 'F']
      (isDigit_cases hc)
  · exact List.mem_append_right ['0', '1', '2', '3', '4', '5', '6', '7', '8', '9']
      (List.mem_append_left ['A', 'B', 'C', 'D', 'E', 'F'] hc)
  · exact List.mem_append_right
      ['0', '1', '2', '3', '4', '5', '6', '7', '8', '9', 'a', 'b', 'c', 'd', 'e', 'f'] hc

/-- A property of all decimal digits. -/
theorem forall_digit {P : Char → Prop} [DecidablePred P]
    (h : ∀ c ∈ "0123456789".toList, P c) {c : Char} (hc : c.isDigit = true) : P c :=
  h c (isDigit_cases hc)

theorem isXDigit_of_isDigit {c : Char} (h : c.isDigit = true) : isXDigit c = true := by
  simp [isXDigit, h]

/-- A digit is in the class of octal digits, or one of those that are left out. -/
theorem isDigit_of_octal {c : Char} (h : c ∈ cOctDigits) : c.isDigit = true :=
  (by decide : ∀ c ∈ cOctDigits, c.isDigit = true) c h

/-! ## The value of a match -/

/-- The digits have the values of their base. -/
def DigitsOf (base : Nat) (ds : List Char) : Prop :=
  ∀ c ∈ ds, Cli.digitValue c = some (digitOf c) ∧ digitOf c < base

theorem readDigits_eq {base : Nat} {ds : List Char} (h : DigitsOf base ds) (acc : Nat) :
    Cli.readDigits base ds acc = ds.foldl (fun acc c => acc * base + digitOf c) acc := by
  induction ds generalizing acc with
  | nil => rfl
  | cons c ds ih =>
      obtain ⟨hvalue, hlt⟩ := h c List.mem_cons_self
      rw [Cli.readDigits, hvalue]
      simp only [hlt, if_true]
      exact ih (fun d hd => h d (List.mem_cons_of_mem _ hd)) _

theorem digitsOf_decimal {ds : List Char} (h : ∀ c ∈ ds, c.isDigit = true) :
    DigitsOf 10 ds :=
  fun c hc => forall_digit
    (P := fun c => Cli.digitValue c = some (digitOf c) ∧ digitOf c < 10) (by decide) (h c hc)

theorem digitsOf_octal {ds : List Char} (h : ∀ c ∈ ds, c ∈ cOctDigits) : DigitsOf 8 ds :=
  fun c hc => (by decide : ∀ c ∈ cOctDigits,
    Cli.digitValue c = some (digitOf c) ∧ digitOf c < 8) c (h c hc)

theorem digitsOf_hex {ds : List Char} (h : ∀ c ∈ ds, isXDigit c = true) : DigitsOf 16 ds :=
  fun c hc => forall_xdigit
    (P := fun c => Cli.digitValue c = some (digitOf c) ∧ digitOf c < 16) (by decide) (h c hc)

/-- The number that `strtol` reads, before it is limited. -/
def numeralOf (digits : List Char) : Int :=
  match digits with
  | '0' :: x :: c :: cs =>
      if (x = 'x' ∨ x = 'X') ∧ (Cli.digitValue c).isSome then Cli.readDigits 16 (c :: cs) 0
      else Cli.readDigits 8 digits 0
  | '0' :: cs => Cli.readDigits 8 cs 0
  | cs => Cli.readDigits 10 cs 0

theorem longValue_of_numeral {w : List Char} {d : Char} (hd : d ∈ w.head?)
    (hdigit : d.isDigit = true) {v : Nat} (hv : numeralOf w = v) (hle : (v : Int) ≤ longMax) :
    longValue w = v := by
  cases w with
  | nil => cases hd
  | cons d' w =>
      obtain rfl : d' = d := by simpa using hd
      have hspace : Cli.isSpace d' = false :=
        forall_digit (P := fun c => Cli.isSpace c = false) (by decide) hdigit
      have hminus : d' ≠ '-' := forall_digit (P := fun c => c ≠ '-') (by decide) hdigit
      have hplus : d' ≠ '+' := forall_digit (P := fun c => c ≠ '+') (by decide) hdigit
      have hsign : Cli.readSign (d' :: w) = (1, d' :: w) := by
        unfold Cli.readSign
        split
        next heq => exact absurd (List.cons.inj heq).1 hminus
        next heq => exact absurd (List.cons.inj heq).1 hplus
        next => rfl
      have hstrtol : Cli.strtol (d' :: w) =
          if -9223372036854775808 ≤ 1 * numeralOf (d' :: w) ∧
            1 * numeralOf (d' :: w) < 9223372036854775808
          then some (1 * numeralOf (d' :: w)) else none := by
        unfold Cli.strtol numeralOf
        have hread : Cli.readSign ((d' :: w).dropWhile Cli.isSpace) = (1, d' :: w) := by
          rw [List.dropWhile_cons_of_neg (by simp [hspace]), hsign]
        generalize Cli.readSign ((d' :: w).dropWhile Cli.isSpace) = r at hread ⊢
        subst hread
        rfl
      rw [longValue, hstrtol, hv, if_pos (by unfold longMax at hle; omega)]
      simp

/-- `strtol` reads the value of a constant. -/
theorem numeralOf_constant {w : List Char} {v : Nat} (h : IntConstant w v) :
    numeralOf w = v := by
  cases h with
  | @decimal d ds hd hdigits =>
      unfold numeralOf
      split
      next heq => exact absurd (List.cons.inj heq).1 hd
      next heq => exact absurd (List.cons.inj heq).1 hd
      next => exact congrArg Nat.cast (readDigits_eq (digitsOf_decimal hdigits) 0)
  | @octal ds hdigits =>
      have hzero : ∀ c ∈ '0' :: ds, c ∈ cOctDigits := by
        intro c hc
        rcases List.mem_cons.mp hc with rfl | hc
        · decide
        · exact hdigits c hc
      unfold numeralOf
      split
      next x c cs heq =>
        obtain ⟨-, rfl⟩ := List.cons.inj heq
        have hx : ¬ ((x = 'x' ∨ x = 'X') ∧ (Cli.digitValue c).isSome = true) := by
          rintro ⟨rfl | rfl, -⟩
          · exact absurd (hdigits 'x' List.mem_cons_self) (by decide)
          · exact absurd (hdigits 'X' List.mem_cons_self) (by decide)
        rw [if_neg hx, readDigits_eq (digitsOf_octal hzero)]
        rfl
      next cs _ heq =>
        obtain ⟨-, rfl⟩ := List.cons.inj heq
        exact congrArg Nat.cast (readDigits_eq (digitsOf_octal hdigits) 0)
      next hne => exact absurd rfl (hne ds)
  | @hexadecimal x ds hx hne hdigits =>
      cases ds with
      | nil => exact absurd rfl hne
      | cons c ds =>
          have hc := (digitsOf_hex hdigits c List.mem_cons_self).1
          show (if (x = 'x' ∨ x = 'X') ∧ (Cli.digitValue c).isSome then
            ((Cli.readDigits 16 (c :: ds) 0 : Nat) : Int) else _) = _
          rw [if_pos ⟨hx, by rw [hc]; rfl⟩]
          exact congrArg Nat.cast (readDigits_eq (digitsOf_hex hdigits) 0)

/-- A constant begins with a digit. -/
theorem IntConstant.head {w : List Char} {v : Nat} (h : IntConstant w v) :
    ∃ d ∈ w.head?, d.isDigit = true := by
  cases h with
  | @decimal d ds hd hdigits => exact ⟨d, rfl, hdigits d List.mem_cons_self⟩
  | octal _ => exact ⟨'0', rfl, by decide⟩
  | hexadecimal _ _ _ => exact ⟨'0', rfl, by decide⟩

theorem longValue_constant {w : List Char} {v : Nat} (h : IntConstant w v)
    (hle : (v : Int) ≤ longMax) : longValue w = v := by
  obtain ⟨d, hd, hdigit⟩ := h.head
  exact longValue_of_numeral hd hdigit (numeralOf_constant h) hle

/-! ## Which rule matches -/

section

variable {P : Char → Prop}

theorem all_chr {c : Char} : (chr c).All P ↔ P c := by
  simp [chr, Regex.All]

theorem all_oneOf {cs : List Char} : (oneOf cs).All P ↔ ∀ c ∈ cs, P c := by
  simp [oneOf, Regex.All]

theorem has_chr {c : Char} : (chr c).Has P ↔ P c := by
  simp [chr, Regex.Has]

theorem has_oneOf {cs : List Char} : (oneOf cs).Has P ↔ ∀ c ∈ cs, P c := by
  simp [oneOf, Regex.Has]

theorem all_digit [DecidablePred P] (h : ∀ c ∈ "0123456789".toList, P c) : digit.All P :=
  fun _ hc => forall_digit h hc

theorem all_xdigit [DecidablePred P] (h : ∀ c ∈ "0123456789abcdefABCDEF".toList, P c) :
    xdigit.All P :=
  fun _ hc => forall_xdigit h hc

end

/-- What a decimal floating point constant is made of. -/
theorem dfc_all : dfc.All (· ∈ "0123456789.eE+-flFL".toList) := by
  have hdigit : digit.All (· ∈ "0123456789.eE+-flFL".toList) := all_digit (by decide)
  simp only [dfc, frac, dseq, dseqOpt, exp, expOpt, fsuff, fsuffOpt, Regex.plus, Regex.opt,
    Regex.All, all_chr, all_oneOf, hdigit]
  decide

/-- It has a point or an exponent. -/
theorem dfc_has : dfc.Has (· ∈ ['.', 'e', 'E']) := by
  simp only [dfc, frac, dseq, exp, Regex.plus, Regex.opt, Regex.Has, has_chr, has_oneOf]
  simp

theorem hfc_all : hfc.All (· ∈ "0123456789abcdefABCDEFxX.pP+-lL".toList) := by
  have hdigit : digit.All (· ∈ "0123456789abcdefABCDEFxX.pP+-lL".toList) :=
    all_digit (by decide)
  have hxdigit : xdigit.All (· ∈ "0123456789abcdefABCDEFxX.pP+-lL".toList) :=
    all_xdigit (by decide)
  simp only [hfc, hpref, hfrac, hdseq, hdseqOpt, bexp, dseq, fsuff, fsuffOpt, Regex.plus,
    Regex.opt, Regex.All, all_chr, all_oneOf, hdigit, hxdigit]
  decide

/-- A hexadecimal floating point constant has an exponent. -/
theorem hfc_has : hfc.Has (· ∈ ['p', 'P']) := by
  simp only [hfc, bexp, Regex.Has, has_oneOf]
  simp

/-- A word without white space ends where white space follows. -/
theorem prefix_of_separates {p w rest : List Char} (hrest : Separates rest)
    (hp : p <+: w ++ rest) (hspace : ∀ c ∈ p, c ≠ ' ' ∧ c ≠ '\t' ∧ c ≠ '\n') : p <+: w := by
  rcases List.prefix_or_prefix_of_prefix hp (List.prefix_append w rest) with h | ⟨q, rfl⟩
  · exact h
  · cases q with
    | nil => rw [List.append_nil]
    | cons c q =>
        obtain ⟨tail, htail⟩ := (List.prefix_append_right_inj w).mp hp
        have hc := hspace c (by simp)
        have hhead := hrest c (by rw [← htail]; rfl)
        rcases hhead with rfl | rfl | rfl
        · exact absurd rfl hc.1
        · exact absurd rfl hc.2.1
        · exact absurd rfl hc.2.2

/-- Digits are no floating point constant. -/
theorem digits_not_float {w rest : List Char} (hw : ∀ c ∈ w, c.isDigit = true)
    (hrest : Separates rest) {p : List Char} (hp : p <+: w ++ rest) :
    p ∉ c99FloatingPointConstant.lang := by
  intro hmem
  rcases (Language.mem_add _ _ _).mp hmem with hdfc | hhfc
  · have hpre := prefix_of_separates hrest hp fun c hc =>
      (by decide : ∀ c ∈ "0123456789.eE+-flFL".toList, c ≠ ' ' ∧ c ≠ '\t' ∧ c ≠ '\n') c
        (dfc_all.of_mem_lang hdfc c hc)
    obtain ⟨c, hc, hmark⟩ := dfc_has.of_mem_lang hdfc
    have hdigit := hw c (hpre.subset hc)
    rw [(by decide : ∀ c ∈ ['.', 'e', 'E'], c.isDigit = false) c hmark] at hdigit
    cases hdigit
  · have hpre := prefix_of_separates hrest hp fun c hc =>
      (by decide : ∀ c ∈ "0123456789abcdefABCDEFxX.pP+-lL".toList,
        c ≠ ' ' ∧ c ≠ '\t' ∧ c ≠ '\n') c (hfc_all.of_mem_lang hhfc c hc)
    obtain ⟨c, hc, hmark⟩ := hfc_has.of_mem_lang hhfc
    have hdigit := hw c (hpre.subset hc)
    rw [(by decide : ∀ c ∈ ['p', 'P'], c.isDigit = false) c hmark] at hdigit
    cases hdigit

/-- Nor is a hexadecimal constant. -/
theorem hex_not_float {x : Char} {ds rest : List Char} (hx : x = 'x' ∨ x = 'X')
    (hds : ∀ c ∈ ds, isXDigit c = true) (hrest : Separates rest) {p : List Char}
    (hp : p <+: '0' :: x :: ds ++ rest) : p ∉ c99FloatingPointConstant.lang := by
  intro hmem
  rcases (Language.mem_add _ _ _).mp hmem with hdfc | hhfc
  · have hall := dfc_all.of_mem_lang hdfc
    obtain ⟨c, hc, hmark⟩ := dfc_has.of_mem_lang hdfc
    -- the constant has no `x`, so nothing but the first digit is left
    cases p with
    | nil => exact absurd hc List.not_mem_nil
    | cons a p =>
        obtain ⟨rfl, htail⟩ := List.cons_prefix_cons.mp hp
        cases p with
        | nil =>
            rw [List.mem_singleton.mp hc] at hmark
            exact absurd hmark (by decide)
        | cons b p =>
            obtain ⟨rfl, -⟩ := List.cons_prefix_cons.mp htail
            have hb := hall b (by simp)
            rcases hx with rfl | rfl
            · exact absurd hb (by decide)
            · exact absurd hb (by decide)
  · have hpre := prefix_of_separates hrest hp fun c hc =>
      (by decide : ∀ c ∈ "0123456789abcdefABCDEFxX.pP+-lL".toList,
        c ≠ ' ' ∧ c ≠ '\t' ∧ c ≠ '\n') c (hfc_all.of_mem_lang hhfc c hc)
    obtain ⟨c, hc, hmark⟩ := hfc_has.of_mem_lang hhfc
    rcases List.mem_cons.mp (hpre.subset hc) with rfl | hc
    · exact absurd hmark (by decide)
    rcases List.mem_cons.mp hc with rfl | hc
    · rcases hx with rfl | rfl
      · exact absurd hmark (by decide)
      · exact absurd hmark (by decide)
    have hdigit := hds c hc
    rw [(by decide : ∀ c ∈ ['p', 'P'], isXDigit c = false) c hmark] at hdigit
    cases hdigit

/-- No rule after those for numbers begins with a digit. -/
theorem others_deriv {d : Char} (hd : d.isDigit = true) :
    ∀ rule ∈ initialRules.drop 4, rule.1.deriv d = .never := by
  intro rule hrule
  exact Regex.eq_never_of_isNever (forall_digit
    (P := fun d => ∀ rule ∈ initialRules.drop 4, (rule.1.deriv d).isNever = true)
    (by decide +kernel) hd rule hrule)

/-- A number rule is selected if it matches more than those before it, and no less than those
after it. -/
theorem munch_number (before after : List (Regex Char × RuleAction)) {d : Char}
    (hd : d.isDigit = true) {t : List Char} {r : Regex Char} {n : Nat}
    (hrules : [(hex, RuleAction.long), (octal, .long), (decimal, .long)] =
      before ++ (r, .long) :: after)
    (hfloat : ∀ p, p <+: d :: t → p ∉ c99FloatingPointConstant.lang)
    (hbefore : ∀ rule ∈ before, ∀ m, (rule.1.deriv d).longest t = some m → m < n)
    (hr : (r.deriv d).longest t = some n)
    (hafter : ∀ rule ∈ after, ∀ m, (rule.1.deriv d).longest t = some m → m ≤ n) :
    Regex.munch d t initialRules = some (.long, n) := by
  have hsplit : initialRules = before ++ (r, .long) ::
      (after ++ (c99FloatingPointConstant, .double) :: initialRules.drop 4) := by
    calc initialRules = [(hex, .long), (octal, .long), (decimal, .long)] ++
          (c99FloatingPointConstant, .double) :: initialRules.drop 4 := rfl
      _ = _ := by rw [hrules, List.append_assoc, List.cons_append]
  rw [hsplit]
  refine Regex.munch_select hbefore hr fun rule hrule m hm => ?_
  rcases List.mem_append.mp hrule with hrule | hrule
  · exact hafter rule hrule m hm
  rcases List.mem_cons.mp hrule with rfl | hrule
  · have hnone : (c99FloatingPointConstant.deriv d).longest t = none := by
      refine Regex.longest_eq_none.mpr fun p hp hmem => ?_
      exact hfloat (d :: p) (List.cons_prefix_cons.mpr ⟨rfl, hp⟩) (Regex.mem_lang_deriv.mp hmem)
    rw [hnone] at hm
    cases hm
  · rw [others_deriv hd rule hrule, Regex.longest_never] at hm
    cases hm

/-! ## The tokens of a number -/

theorem hex_deriv (d : Char) :
    hex.deriv d = if d == '0' then .seq (oneOf ['x', 'X']) (.plus xdigit) else .never :=
  Regex.deriv_seq_one _ _ _

theorem octal_deriv (d : Char) :
    octal.deriv d = if d == '0' then .star (.one isOctDigit) else .never :=
  Regex.deriv_seq_one _ _ _

theorem decimal_deriv (d : Char) :
    decimal.deriv d = if isNonzeroDigit d then .star digit else .never :=
  Regex.deriv_seq_one _ _ _

/-- Without an `x` there is no hexadecimal constant. -/
theorem hex_longest_none {d : Char} {t : List Char}
    (hx : ∀ c ∈ t.head?, c ≠ 'x' ∧ c ≠ 'X') : (hex.deriv d).longest t = none := by
  rw [hex_deriv]
  cases d == '0' with
  | false => exact Regex.longest_never t
  | true =>
      cases t with
      | nil => rfl
      | cons c t =>
          obtain ⟨hx, hX⟩ := hx c rfl
          rw [if_pos rfl, Regex.longest_cons rfl, oneOf, Regex.deriv_seq_one]
          have hclass : (['x', 'X'].contains c) = false := by simp [hx, hX]
          rw [if_neg (by rw [hclass]; exact Bool.false_ne_true), Regex.longest_never]
          rfl

/-- The text after an `x` and its first digit. -/
theorem hex_longest {x c : Char} {t : List Char} (hx : x = 'x' ∨ x = 'X')
    (hc : isXDigit c = true) :
    (hex.deriv '0').longest (x :: c :: t) = some ((t.takeWhile isXDigit).length + 1 + 1) := by
  have hclass : (['x', 'X'].contains x) = true := by
    rcases hx with rfl | rfl <;> rfl
  rw [hex_deriv, if_pos (by rfl), Regex.longest_cons rfl, oneOf, Regex.deriv_seq_one, if_pos hclass,
    Regex.longest_cons rfl, Regex.plus, xdigit, Regex.deriv_seq_one, if_pos hc,
    Regex.longest_star_one]
  rfl

theorem octal_longest (t : List Char) :
    (octal.deriv '0').longest t = some (t.takeWhile isOctDigit).length := by
  rw [octal_deriv, if_pos (by rfl), Regex.longest_star_one]

theorem octal_longest_none {d : Char} (hd : d ≠ '0') (t : List Char) :
    (octal.deriv d).longest t = none := by
  rw [octal_deriv, if_neg (by simpa using hd), Regex.longest_never]

theorem decimal_longest {d : Char} (hd : isNonzeroDigit d = true) (t : List Char) :
    (decimal.deriv d).longest t = some (t.takeWhile Char.isDigit).length := by
  rw [decimal_deriv, if_pos hd, digit, Regex.longest_star_one]

theorem decimal_longest_none (t : List Char) : (decimal.deriv '0').longest t = none := by
  rw [decimal_deriv, if_neg (by decide), Regex.longest_never]

/-- The turn after a number rule has been selected. -/
theorem turn_long (world : World) {s : Scanner} {d : Char} {u rest : List Char}
    (hstart : s.start = .initial) (hbuffer : s.buffer = d :: (u ++ rest))
    (hmunch : Regex.munch d (u ++ rest) initialRules = some (.long, u.length)) :
    turn world s = .token (.long (longValue (d :: u))) { s with buffer := rest } := by
  unfold turn
  rw [hbuffer, hstart]
  simp only [StartCondition.rules, dot, Regex.munch_concat, hmunch, List.take_left,
    List.drop_left]
  rfl

/-- Characters of a class, up to one that is not of the class. -/
theorem takeWhile_of_all {p : Char → Bool} {u rest : List Char} (hu : ∀ c ∈ u, p c = true)
    (hrest : ∀ c ∈ rest.head?, p c = false) : (u ++ rest).takeWhile p = u := by
  rw [List.takeWhile_append_of_pos hu]
  cases rest with
  | nil => simp
  | cons c rest => simp [hrest c rfl]

/-- White space is no digit. -/
theorem Separates.not_digit {rest : List Char} (h : Separates rest) :
    ∀ c ∈ rest.head?, isXDigit c = false := by
  intro c hc
  rcases h c hc with rfl | rfl | rfl <;> decide

theorem Separates.not_x {rest : List Char} (h : Separates rest) :
    ∀ c ∈ rest.head?, c ≠ 'x' ∧ c ≠ 'X' := by
  intro c hc
  rcases h c hc with rfl | rfl | rfl <;> decide

/-- What a class of hexadecimal digits leaves out. -/
theorem Separates.not_class {rest : List Char} (h : Separates rest) {p : Char → Bool}
    (hp : ∀ c, p c = true → isXDigit c = true) : ∀ c ∈ rest.head?, p c = false := by
  intro c hc
  rw [Bool.eq_false_iff]
  intro hpc
  exact absurd (hp c hpc) (by simp [h.not_digit c hc])

section

variable (world : World) {s : Scanner} {rest : List Char} (hstart : s.start = .initial)
  (hrest : Separates rest)
include hstart hrest

theorem turn_decimal {d : Char} {ds : List Char} (hd : d ≠ '0')
    (hdigits : ∀ c ∈ d :: ds, c.isDigit = true) (hbuffer : s.buffer = d :: ds ++ rest) :
    turn world s = .token (.long (longValue (d :: ds))) { s with buffer := rest } := by
  have hdigit := hdigits d List.mem_cons_self
  have hds : ∀ c ∈ ds, c.isDigit = true := fun c hc => hdigits c (List.mem_cons_of_mem _ hc)
  have hnonzero : isNonzeroDigit d = true := by simp [isNonzeroDigit, hdigit, hd]
  have htake : (ds ++ rest).takeWhile Char.isDigit = ds :=
    takeWhile_of_all hds (hrest.not_class fun _ => isXDigit_of_isDigit)
  have hmunch : Regex.munch d (ds ++ rest) initialRules = some (.long, ds.length) := by
    refine munch_number [(hex, .long), (octal, .long)] [] hdigit rfl
      (fun p hp => digits_not_float hdigits hrest hp) ?_ ?_ ?_
    · intro rule hrule m hm
      rcases List.mem_cons.mp hrule with rfl | hrule
      · have hx : ∀ c ∈ (ds ++ rest).head?, c ≠ 'x' ∧ c ≠ 'X' := by
          cases ds with
          | nil => exact hrest.not_x
          | cons c ds =>
              intro c' hc'
              obtain rfl : c = c' := by simpa using hc'
              exact forall_digit (P := fun c => c ≠ 'x' ∧ c ≠ 'X') (by decide)
                (hds c List.mem_cons_self)
        rw [hex_longest_none hx] at hm
        cases hm
      · rw [List.mem_singleton.mp hrule, octal_longest_none hd] at hm
        cases hm
    · rw [decimal_longest hnonzero, htake]
    · exact fun rule hrule => absurd hrule List.not_mem_nil
  exact turn_long world hstart hbuffer hmunch

/-- Digits that begin with 0 are read up to the first that is not in the class. -/
theorem turn_octal {os ds : List Char} (hos : ∀ c ∈ os, isOctDigit c = true)
    (hds : ∀ c ∈ ds, c.isDigit = true) (hhead : ∀ c ∈ ds.head?, isOctDigit c = false)
    (hbuffer : s.buffer = '0' :: os ++ (ds ++ rest)) :
    turn world s = .token (.long (longValue ('0' :: os))) { s with buffer := ds ++ rest } := by
  have hoct : ∀ c, isOctDigit c = true → c.isDigit = true := by
    intro c hc
    exact (by decide : ∀ c ∈ ['0', '1', '2', '3', '4', '5', '6'], c.isDigit = true) c
      (List.contains_iff_mem.mp hc)
  have hdigits : ∀ c ∈ '0' :: os ++ ds, c.isDigit = true := by
    intro c hc
    rcases List.mem_append.mp hc with hc | hc
    · rcases List.mem_cons.mp hc with rfl | hc
      · decide
      · exact hoct c (hos c hc)
    · exact hds c hc
  have hstop : ∀ c ∈ (ds ++ rest).head?, isOctDigit c = false := by
    cases ds with
    | nil => exact hrest.not_class fun c hc => isXDigit_of_isDigit (hoct c hc)
    | cons c ds => exact hhead
  have htake : (os ++ (ds ++ rest)).takeWhile isOctDigit = os := takeWhile_of_all hos hstop
  have hx : ∀ c ∈ (os ++ (ds ++ rest)).head?, c ≠ 'x' ∧ c ≠ 'X' := by
    rw [← List.append_assoc]
    cases hod : os ++ ds with
    | nil => exact hrest.not_x
    | cons c ods =>
        intro c' hc'
        obtain rfl : c = c' := by simpa using hc'
        refine forall_digit (P := fun c => c ≠ 'x' ∧ c ≠ 'X') (by decide) (hdigits c ?_)
        rw [List.cons_append, hod]
        simp
  have hmunch : Regex.munch '0' (os ++ (ds ++ rest)) initialRules =
      some (.long, os.length) := by
    refine munch_number [(hex, .long)] [(decimal, .long)] (by decide) rfl
      (fun p hp => digits_not_float hdigits hrest (by simpa using hp)) ?_ ?_ ?_
    · intro rule hrule m hm
      rw [List.mem_singleton.mp hrule, hex_longest_none hx] at hm
      cases hm
    · rw [octal_longest, htake]
    · intro rule hrule m hm
      rw [List.mem_singleton.mp hrule, decimal_longest_none] at hm
      cases hm
  exact turn_long world hstart hbuffer hmunch

theorem turn_hex {x : Char} {ds : List Char} (hx : x = 'x' ∨ x = 'X') (hne : ds ≠ [])
    (hds : ∀ c ∈ ds, isXDigit c = true) (hbuffer : s.buffer = '0' :: x :: ds ++ rest) :
    turn world s = .token (.long (longValue ('0' :: x :: ds))) { s with buffer := rest } := by
  cases ds with
  | nil => exact absurd rfl hne
  | cons c ds =>
      have htake : (ds ++ rest).takeWhile isXDigit = ds :=
        takeWhile_of_all (fun c hc => hds c (List.mem_cons_of_mem _ hc)) hrest.not_digit
      have hlong : (hex.deriv '0').longest (x :: c :: ds ++ rest) =
          some (x :: c :: ds).length := by
        rw [List.cons_append, List.cons_append,
          hex_longest hx (hds c List.mem_cons_self), htake]
        rfl
      have hmunch : Regex.munch '0' (x :: c :: ds ++ rest) initialRules =
          some (.long, (x :: c :: ds).length) := by
        refine munch_number [] [(octal, .long), (decimal, .long)] (by decide) rfl
          (fun p hp => hex_not_float hx hds hrest hp) ?_ hlong ?_
        · exact fun rule hrule => absurd hrule List.not_mem_nil
        · intro rule hrule m hm
          rcases List.mem_cons.mp hrule with rfl | hrule
          · -- the octal rule takes the 0 alone
            have hzero : (x :: c :: ds ++ rest).takeWhile isOctDigit = [] := by
              rcases hx with rfl | rfl <;> rfl
            rw [octal_longest, hzero] at hm
            cases hm
            exact Nat.zero_le _
          · rw [List.mem_singleton.mp hrule, decimal_longest_none] at hm
            cases hm
      exact turn_long world hstart hbuffer hmunch

end

/-- A constant has one value. -/
theorem IntConstant.unique {w : List Char} {v v' : Nat} (h : IntConstant w v)
    (h' : IntConstant w v') : v = v' :=
  Int.ofNat.inj ((numeralOf_constant h).symm.trans (numeralOf_constant h'))

/-- Digits that are no constant begin with 0 and have an 8 or 9. -/
theorem leavesOctal_of_not_constant {w : List Char} (hw : IsDigits w)
    (hnot : ∀ v, ¬ IntConstant w v) : LeavesOctal w := by
  obtain ⟨hne, hdigits⟩ := hw
  cases w with
  | nil => exact absurd rfl hne
  | cons d t =>
      by_cases hd : d = '0'
      · subst hd
        refine ⟨rfl, hdigits, ?_⟩
        by_contra hall
        push Not at hall
        refine hnot _ (.octal fun c hc => ?_)
        have hoct := hall c (List.mem_cons_of_mem _ hc)
        rw [ne_eq, Bool.not_eq_false] at hoct
        exact (by decide : ∀ c ∈ ['0', '1', '2', '3', '4', '5', '6'], c ∈ cOctDigits) c
          (List.contains_iff_mem.mp hoct)
      · exact absurd (.decimal hd hdigits) (hnot _)

/-- Where the octal rule stops short there is a second number. -/
theorem LeavesOctal.split {w : List Char} (h : LeavesOctal w) :
    ∃ os e ds, w = '0' :: os ++ e :: ds ∧ (∀ c ∈ os, isOctDigit c = true) ∧
      isOctDigit e = false ∧ ∀ c ∈ e :: ds, c.isDigit = true := by
  obtain ⟨hhead, hdigits, c, hc, hclass⟩ := h
  cases w with
  | nil => cases hhead
  | cons d t =>
      obtain rfl : d = '0' := by simpa using hhead
      have hct : c ∈ t := by
        rcases List.mem_cons.mp hc with rfl | hc
        · exact absurd hclass (by decide)
        · exact hc
      cases hrest : t.dropWhile isOctDigit with
      | nil =>
          have hall := List.dropWhile_eq_nil_iff.mp hrest c hct
          rw [hclass] at hall
          cases hall
      | cons e ds =>
          have ht : t = t.takeWhile isOctDigit ++ e :: ds := by
            rw [← hrest, List.takeWhile_append_dropWhile]
          have hne : t.dropWhile isOctDigit ≠ [] := by simp [hrest]
          refine ⟨t.takeWhile isOctDigit, e, ds, congrArg ('0' :: ·) ht,
            fun c hc => List.mem_takeWhile_imp hc, ?_, fun c hc => hdigits c ?_⟩
          · have hhead := List.head_dropWhile_not isOctDigit hne
            simpa [hrest] using hhead
          · refine List.mem_cons_of_mem _ ?_
            rw [ht]
            exact List.mem_append_right _ hc

/--
**A numeral is one token exactly if the octal rule does not leave a part of it.**  That is, it is
hexadecimal, or does not begin with 0, or has no digit above 6.
-/
theorem scannedWhole_iff (world : World) {w rest : List Char} (hw : IsNumeral w)
    (hrest : Separates rest) : ScannedWhole world w rest ↔ ¬ LeavesOctal w := by
  constructor
  · intro hwhole hleaves
    obtain ⟨os, e, ds, rfl, hos, he, hdigits⟩ := hleaves.split
    have he0 : e ≠ '0' := by
      rintro rfl
      exact absurd he (by decide)
    let s : Scanner := ⟨.initial, '0' :: os ++ e :: ds ++ rest, [], 0⟩
    have hfirst : turn world s = .token (.long (longValue ('0' :: os)))
        { s with buffer := e :: ds ++ rest } :=
      turn_octal world rfl hrest hos hdigits (by simpa using he) (by simp [s])
    rcases hw with ⟨v, hconst, -⟩ | ⟨hdigitsw, hnot⟩
    · have hone := hwhole.1 v hconst s rfl rfl
      rw [hfirst] at hone
      have hbuffer := congrArg List.length
        (congrArg Scanner.buffer (ScanTurn.token.inj hone).2)
      simp only [List.length_append, List.length_cons] at hbuffer
      omega
    · have hsecond : turn world { s with buffer := e :: ds ++ rest } =
          .token (.long (longValue (e :: ds))) { s with buffer := rest } :=
        turn_decimal world rfl hrest he0 hdigits rfl
      refine hwhole.2 hdigitsw hnot s rfl rfl
        [.long (longValue ('0' :: os)), .long (longValue (e :: ds))] (le_refl 2) ?_
        (.token hfirst (.token hsecond (.refl _)))
      intro tok htok
      rcases List.mem_cons.mp htok with rfl | htok
      · trivial
      · rw [List.mem_singleton.mp htok]
        trivial
  · intro hleaves
    refine ⟨fun v hconst s hstart hbuffer => ?_, fun hdigits hnot => ?_⟩
    · have hle : (v : Int) ≤ longMax := by
        rcases hw with ⟨v', hconst', hle⟩ | ⟨_, hnot⟩
        · rw [hconst.unique hconst']
          exact hle
        · exact absurd hconst (hnot v)
      rw [← longValue_constant hconst hle]
      cases hconst with
      | decimal hd hdigits => exact turn_decimal world hstart hrest hd hdigits hbuffer
      | @octal ds hds =>
          have hos : ∀ c ∈ ds, isOctDigit c = true := by
            intro c hc
            by_contra hclass
            refine hleaves ⟨rfl, ?_, c, List.mem_cons_of_mem _ hc, by simpa using hclass⟩
            intro c' hc'
            rcases List.mem_cons.mp hc' with rfl | hc'
            · decide
            · exact isDigit_of_octal (hds c' hc')
          have hnone : ∀ c ∈ ([] : List Char), c.isDigit = true := fun c hc => by cases hc
          exact turn_octal world hstart hrest hos hnone (fun c hc => by cases hc) hbuffer
      | hexadecimal hx hne hds => exact turn_hex world hstart hrest hx hne hds hbuffer
    · exact absurd (leavesOctal_of_not_constant hdigits hnot) hleaves

/-- Surroundings without files, where every floating point constant is 0. -/
def bareWorld : World where
  strtod := fun _ => ⟨0⟩
  contents := fun _ => none

/-- A hexadecimal constant before a tab. -/
theorem scannedWhole_hex :
    ScannedWhole bareWorld "0x1F".toList "\t2".toList ↔ ¬ LeavesOctal "0x1F".toList :=
  scannedWhole_iff bareWorld
    (.inl ⟨31, .hexadecimal (.inl rfl) (by decide) (by decide), by decide⟩)
    (by intro c hc; exact .inr (.inl (by simpa using hc.symm)))

/-- The constant 07 is read as 0 and 7. -/
theorem octal_splits :
    IntConstant "07".toList 7 ∧ ¬ ScannedWhole bareWorld "07".toList "\n".toList := by
  refine ⟨.octal (by decide), fun h => ?_⟩
  have hone := h.1 7 (.octal (by decide)) ⟨.initial, "07\n".toList, [], 0⟩ rfl rfl
  have hfirst : turn bareWorld ⟨.initial, "07\n".toList, [], 0⟩ =
      .token (.long 0) ⟨.initial, "7\n".toList, [], 0⟩ := by
    have hmunch : Regex.munch '0' "7\n".toList initialRules = some (.long, 0) := by
      decide +kernel
    exact turn_long bareWorld (u := []) rfl rfl hmunch
  rw [hfirst] at hone
  cases (ScanTurn.token.inj hone).1

end Blts.Config
