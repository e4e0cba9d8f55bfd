import Blts.Cli.Options
import Blts.Config.Token
import Blts.Lib.Regex
import Mathlib.Data.List.TakeWhile

/-!
# The scanner

`param-scanner.l`: the rules in the order of the file, what their actions do, and one turn of
`yylex`.  A text is a list of bytes.  The scanner keeps a stack of the files it is reading: the
`include` directive pushes one, and the end of a file pops it and returns `CR`.

A file that is opened stays open, so there is a number of files that can still be opened, and a
scan comes to an end even where a file includes itself.
-/

namespace Blts.Config

open Blts.Lib Blts.Params

/-! ## Definitions -/

section Definitions

open Regex

/-- A single character. -/
def chr (c : Char) : Regex Char := one (· == c)

/-- `[...]` -/
def oneOf (cs : List Char) : Regex Char := one (cs.contains ·)

/-- A word of the language. -/
def lit (s : String) : Regex Char := word s.toList

/-- `[[:xdigit:]]` -/
def isXDigit (c : Char) : Bool :=
  c.isDigit || ('a' ≤ c && c ≤ 'f') || ('A' ≤ c && c ≤ 'F')

def digit : Regex Char := one Char.isDigit

def xdigit : Regex Char := one isXDigit

def dseq : Regex Char := plus digit
def dseqOpt : Regex Char := star digit
def frac : Regex Char := or (seq dseqOpt (seq (chr '.') dseq)) (seq dseq (chr '.'))
def exp : Regex Char := seq (oneOf ['e', 'E']) (seq (opt (oneOf ['+', '-'])) dseq)
def expOpt : Regex Char := opt exp
def fsuff : Regex Char := oneOf ['f', 'l', 'F', 'L']
def fsuffOpt : Regex Char := opt fsuff
def hpref : Regex Char := seq (chr '0') (oneOf ['x', 'X'])
def hdseq : Regex Char := plus xdigit
def hdseqOpt : Regex Char := star xdigit
def hfrac : Regex Char := or (seq hdseqOpt (seq (chr '.') hdseq)) (seq hdseq (chr '.'))
def bexp : Regex Char := seq (oneOf ['p', 'P']) (seq (opt (oneOf ['+', '-'])) dseq)
def dfc : Regex Char := or (seq frac (seq expOpt fsuffOpt)) (seq dseq (seq exp fsuffOpt))
def hfc : Regex Char :=
  or (seq hpref (seq hfrac (seq bexp fsuffOpt))) (seq hpref (seq hdseq (seq bexp fsuffOpt)))

def c99FloatingPointConstant : Regex Char := or dfc hfc

/-- `[0123456]` -/
def isOctDigit (c : Char) : Bool := ['0', '1', '2', '3', '4', '5', '6'].contains c

/-- `[[:digit:]]{-}[0]` -/
def isNonzeroDigit (c : Char) : Bool := c.isDigit && c != '0'

def decimal : Regex Char := seq (one isNonzeroDigit) (star digit)
def hex : Regex Char := seq (chr '0') (seq (oneOf ['x', 'X']) (plus xdigit))
def octal : Regex Char := seq (chr '0') (star (one isOctDigit))

/-- What stands between the quotes of a literal, one character or escape at a time. -/
def litchar : Regex Char :=
  any [one (fun c => c != '"' && c != '\\' && c != '\n'),
    seq (chr '\\') (oneOf ['\'', '"', '?', '\\', 'a', 'b', 'f', 'n', 'r', 't', 'v']),
    seq (chr '\\') (any [times (one isOctDigit) 1, times (one isOctDigit) 2,
      times (one isOctDigit) 3]),
    seq (chr '\\') (seq (chr 'x') (plus xdigit)),
    seq (chr '\\') (seq (chr 'u') (times xdigit 4)),
    seq (chr '\\') (seq (chr 'U') (times xdigit 8))]

def litstring : Regex Char :=
  seq (opt (chr 'L')) (seq (chr '"') (seq (star litchar) (chr '"')))

def ucn : Regex Char :=
  or (seq (chr '\\') (seq (chr 'u') (times xdigit 4)))
    (seq (chr '\\') (seq (chr 'U') (times xdigit 8)))

def nondigit : Regex Char := one (fun c => c == '_' || c.isAlpha)

def c99Id : Regex Char :=
  seq (or nondigit ucn) (star (or (one (fun c => c == '_' || c.isAlphanum)) ucn))

def bool : Regex Char :=
  any [lit "true", lit "false", lit "TRUE", lit "FALSE", lit "on", lit "ON", lit "off",
    lit "OFF"]

def ws : Regex Char := plus (oneOf [' ', '\t'])
def cr : Regex Char := plus (chr '\n')

/-- `.` -/
def dot : Regex Char := one (· != '\n')

def comment : Regex Char := seq (chr '#') (seq (star dot) (chr '\n'))

end Definitions

/-! ## Rules -/

/-- What the rules do with `yytext`. -/
inductive RuleAction where
  /-- `return TOKEN;` -/
  | returns (tok : Token)
  | long
  | double
  | string
  | bool
  | ident
  /-- `BEGIN(incl)` -/
  | beginIncl
  /-- the file named after `include` -/
  | includeFile
  | skip
  /-- `return 0;` -/
  | zero
  deriving DecidableEq

/-- The rules of the `INITIAL` state but for the last one. -/
def initialRules : List (Regex Char × RuleAction) :=
  [(hex, .long), (octal, .long), (decimal, .long),
    (c99FloatingPointConstant, .double),
    (litstring, .string),
    (lit "[globals]", .returns .globStart),
    (lit "[end_globals]", .returns .globEnd),
    (lit "[parameter]", .returns (.defStart .param)),
    (lit "[end_parameter]", .returns (.defEnd .param)),
    (lit "[pgroup]", .returns (.defStart .pgroup)),
    (lit "[end_pgroup]", .returns (.defEnd .pgroup)),
    (lit "[test]", .returns (.defStart .test)),
    (lit "[end_test]", .returns (.defEnd .test)),
    (lit "[testset]", .returns (.defStart .testset)),
    (lit "[end_testset]", .returns (.defEnd .testset)),
    (lit "name", .returns .name),
    (lit "const", .returns .const),
    (lit "range", .returns .range),
    (lit "generate", .returns .generate),
    (lit "params", .returns .params),
    (lit "pgroup", .returns .pgroup),
    (lit "fix", .returns .fix),
    (lit "serial", .returns (.exec .serial)),
    (lit "parallel", .returns (.exec .parallel)),
    (lit "threads", .returns (.exec .threads)),
    (lit "include", .beginIncl),
    (lit "int", .returns .intspec),
    (lit "long", .returns .longspec),
    (lit "float", .returns .floatspec),
    (lit "double", .returns .doublespec),
    (lit "boolean", .returns .boolspec),
    (lit "string", .returns .stringspec),
    (bool, .bool),
    (c99Id, .ident),
    (ws, .skip),
    (comment, .returns .cr),
    (cr, .returns .cr)]

/-- The rules of the `incl` state, which is exclusive. -/
def inclRules : List (Regex Char × RuleAction) :=
  [(ws, .skip), (.seq litstring (chr '\n'), .includeFile)]

/-! ## The values of tokens -/

/-- A text up to its first null character. -/
def cString (text : List Char) : List Char := text.takeWhile (· != '\x00')

/-- `strrchr`, as an index. -/
def strrchr (c : Char) : List Char → Option Nat
  | [] => none
  | a :: str =>
      match strrchr c str with
      | some i => some (i + 1)
      | none => if a = c then some 0 else none

/-- The values of an `unsigned` variable. -/
def unsignedMod : Nat := 4294967296

/-- `_blts_conf_unquote_string_lit`; `none` is a null result.  The pool has room. -/
def bltsConfUnquoteStringLit (text : List Char) : Option (List Char) :=
  let str := cString text
  if str.head? ≠ some '"' then none
  else
    match strrchr '"' str with
    | none => none
    | some tail =>
        let len := tail % unsignedMod
        if len = 0 then none
        -- `strncpy(p, &str[1], len); p[len-1] = '\0';`
        else some ((str.drop 1).take (len - 1))

/-- `LONG_MAX` -/
def longMax : Int := 9223372036854775807

/-- `strtol(yytext, 0, 0)`: no rule matches a sign, so what is out of range is too large. -/
def longValue (yytext : List Char) : Int := (Cli.strtol yytext).getD longMax

/-- The value of a `BOOL`. -/
def boolValue (yytext : List Char) : Int :=
  if ["true", "TRUE", "on", "ON"].any fun s => s.toList.isPrefixOf yytext then 1 else 0

/-! ## Turns -/

/-- What the scanner takes from its surroundings: the conversion of floating point constants,
and the contents of files. -/
structure World where
  strtod : List Char → Double
  contents : List Char → Option (List Char)

inductive StartCondition where
  | initial
  | incl
  deriving DecidableEq

/-- The state of the scanner between two matches. -/
structure Scanner where
  start : StartCondition
  /-- What is left of the current buffer. -/
  buffer : List Char
  /-- What is left of the buffers below it on the stack. -/
  outer : List (List Char)
  /-- How many more files can be opened. -/
  files : Nat
  deriving DecidableEq

/-- Where the tokens end. -/
inductive Ending where
  /-- the end of the first file -/
  | eof
  /-- a character without a rule, and what follows it -/
  | zero (rest : List Char)
  /-- `yyerror` and `yyterminate` -/
  | failed
  deriving DecidableEq

/-- What comes of one match. -/
inductive ScanTurn where
  | token (tok : Token) (s : Scanner)
  | skip (s : Scanner)
  /-- the default rule, which prints a character -/
  | echo (c : Char) (s : Scanner)
  | stop (how : Ending)

/-- `yypush_buffer_state` of the file, and `BEGIN(INITIAL)`. -/
def pushFile (world : World) (filename : List Char) (s : Scanner) : ScanTurn :=
  match s.files, world.contents filename with
  | files + 1, some text =>
      .skip { start := .initial, buffer := text, outer := s.buffer :: s.outer, files := files }
  | _, _ => .stop .failed

/-- The action of a rule; `s` is behind the match. -/
def RuleAction.run (world : World) (yytext : List Char) (s : Scanner) :
    RuleAction → ScanTurn
  | .returns tok => .token tok s
  | .long => .token (.long (longValue yytext)) s
  | .double => .token (.double (world.strtod yytext)) s
  | .string =>
      if (cString yytext).length < 2 then .stop .failed
      else
        match bltsConfUnquoteStringLit yytext with
        | none => .stop .failed
        | some str => .token (.string (String.ofList str)) s
  | .bool => .token (.bool (boolValue yytext)) s
  | .ident => .token (.ident (String.ofList yytext)) s
  | .beginIncl => .skip { s with start := .incl }
  | .includeFile =>
      if (cString yytext).length < 2 then .stop .failed
      else
        match bltsConfUnquoteStringLit yytext with
        | none => .stop .failed
        | some filename => pushFile world filename s
  | .skip => .skip s
  | .zero => .stop (.zero s.buffer)

/-- The rules of a state. -/
def StartCondition.rules : StartCondition → List (Regex Char × RuleAction)
  | .initial => initialRules ++ [(dot, .zero)]
  | .incl => inclRules

/-- One match of `yylex` and its action, or the `<<EOF>>` rule. -/
def turn (world : World) (s : Scanner) : ScanTurn :=
  match s.buffer with
  | [] =>
      match s.outer with
      | [] => .stop .eof
      | buffer :: outer => .token .cr { s with buffer := buffer, outer := outer }
  | c :: cs =>
      match Regex.munch c cs s.start.rules with
      | none => .echo c { s with buffer := cs }
      | some (action, n) =>
          action.run world (c :: cs.take n) { s with buffer := cs.drop n }

/-- The tokens that are read from one state of the scanner to another. -/
inductive Scans (world : World) : Scanner → List Token → Scanner → Prop
  | refl (s : Scanner) : Scans world s [] s
  | token {s s' s'' : Scanner} {tok : Token} {toks : List Token} :
      turn world s = .token tok s' → Scans world s' toks s'' →
      Scans world s (tok :: toks) s''
  | skip {s s' s'' : Scanner} {toks : List Token} :
      turn world s = .skip s' → Scans world s' toks s'' → Scans world s toks s''
  | echo {s s' s'' : Scanner} {c : Char} {toks : List Token} :
      turn world s = .echo c s' → Scans world s' toks s'' → Scans world s toks s''

/-!
## String literals

The rule for string literals takes the prefix `L` and any character but a few between the
quotes.  The routine that removes the quotes wants the first quote at the start, and works on a
null-terminated string.
-/

/-! ## Literals -/

/-- A literal, or a literal and its newline after `include`. -/
def IsLiteral (text : List Char) : Prop :=
  text ∈ litstring.lang ∨ text ∈ (Regex.seq litstring (chr '\n')).lang

/-- The routine returns what stands between the first and the last quote. -/
def Unquotes (text : List Char) : Prop :=
  ∃ before mid after, text = before ++ '"' :: (mid ++ '"' :: after) ∧ '"' ∉ before ∧
    '"' ∉ after ∧ bltsConfUnquoteStringLit text = some mid

/-- No prefix, no null character, and an index of the last quote that an `unsigned` holds. -/
def Plain (text : List Char) : Prop :=
  text.head? = some '"' ∧ '\x00' ∉ text ∧ ∀ i ∈ strrchr '"' text, i < unsignedMod

instance (text : List Char) : Decidable (Plain text) :=
  inferInstanceAs (Decidable (_ ∧ _ ∧ _))

/-- The only word of a single character. -/
theorem mem_lang_chr {c : Char} {w : List Char} : w ∈ (chr c).lang ↔ w = [c] := by
  constructor
  · rintro ⟨a, ha, rfl⟩
    rw [beq_iff_eq] at ha
    rw [ha]
  · rintro rfl
    exact ⟨c, by simp, rfl⟩

/-- The parts of a literal. -/
theorem litstring_parts {text : List Char} (h : text ∈ litstring.lang) :
    ∃ pre body, (pre = [] ∨ pre = ['L']) ∧ text = pre ++ '"' :: (body ++ ['"']) := by
  obtain ⟨pre, hpre, rest₁, hrest₁, rfl⟩ := Language.mem_mul.mp h
  obtain ⟨quote, hquote, rest₂, hrest₂, rfl⟩ := Language.mem_mul.mp hrest₁
  obtain ⟨body, _, quote', hquote', rfl⟩ := Language.mem_mul.mp hrest₂
  rw [mem_lang_chr] at hquote hquote'
  subst hquote hquote'
  refine ⟨pre, body, ?_, rfl⟩
  rcases (Language.mem_add _ _ _).mp hpre with hpre | hpre
  · exact .inr (mem_lang_chr.mp hpre)
  · exact .inl hpre

theorem IsLiteral.parts {text : List Char} (h : IsLiteral text) :
    ∃ pre body tail, (pre = [] ∨ pre = ['L']) ∧ (tail = [] ∨ tail = ['\n']) ∧
      text = pre ++ '"' :: (body ++ '"' :: tail) := by
  rcases h with h | h
  · obtain ⟨pre, body, hpre, rfl⟩ := litstring_parts h
    exact ⟨pre, body, [], hpre, .inl rfl, rfl⟩
  · obtain ⟨literal, hliteral, newline, hnewline, rfl⟩ := Language.mem_mul.mp h
    obtain ⟨pre, body, hpre, rfl⟩ := litstring_parts hliteral
    rw [mem_lang_chr] at hnewline
    subst hnewline
    exact ⟨pre, body, ['\n'], hpre, .inr rfl, by simp⟩

/-! ## The last quote -/

theorem strrchr_eq_none {c : Char} {str : List Char} (h : c ∉ str) : strrchr c str = none := by
  induction str with
  | nil => rfl
  | cons a str ih =>
      rw [List.mem_cons, not_or] at h
      rw [strrchr, ih h.2]
      exact if_neg (Ne.symm h.1)

theorem strrchr_append {c : Char} {u v : List Char} (h : c ∉ v) :
    strrchr c (u ++ c :: v) = some u.length := by
  induction u with
  | nil =>
      rw [List.nil_append, strrchr, strrchr_eq_none h]
      exact if_pos rfl
  | cons a u ih =>
      rw [List.cons_append, strrchr, ih]
      rfl

/-- There is one last occurrence. -/
theorem append_last_inj {c : Char} {u v u' v' : List Char} (hv : c ∉ v) (hv' : c ∉ v')
    (h : u ++ c :: v = u' ++ c :: v') : u = u' := by
  have hlen : u.length = u'.length := by
    have hrchr := strrchr_append (u := u) hv
    rw [h, strrchr_append hv'] at hrchr
    exact (Option.some.inj hrchr).symm
  exact (List.append_inj h hlen).1

/-! ## The routine -/

theorem cString_eq {text : List Char} (h : '\x00' ∉ text) : cString text = text := by
  unfold cString
  rw [List.takeWhile_eq_self_iff]
  intro c hc
  rw [bne_iff_ne]
  rintro rfl
  exact h hc

theorem not_mem_cString (text : List Char) : '\x00' ∉ cString text := by
  intro h
  have hne := List.mem_takeWhile_imp h
  exact absurd hne (by decide)

/-- What the routine returns is not empty memory, and has no null character. -/
theorem unquote_eq_some {text str : List Char} (h : bltsConfUnquoteStringLit text = some str) :
    text.head? = some '"' ∧ '\x00' ∉ str := by
  unfold bltsConfUnquoteStringLit at h
  dsimp only at h
  split at h
  next => cases h
  next hhead =>
    rw [ne_eq, not_not] at hhead
    split at h
    next => cases h
    next tail _ =>
      split at h
      next => cases h
      next =>
        cases h
        refine ⟨?_, fun hmem => ?_⟩
        · cases text with
          | nil => cases hhead
          | cons a text =>
              by_cases ha : a = '\x00'
              · subst ha
                cases hhead
              · rw [cString, List.takeWhile_cons_of_pos (by simpa using ha)] at hhead
                exact hhead
        · exact not_mem_cString text (List.mem_of_mem_drop (List.mem_of_mem_take hmem))

/-- Between two quotes, where nothing is cut off. -/
theorem unquote_plain {body tail : List Char} (htail : '"' ∉ tail)
    (hnul : '\x00' ∉ '"' :: (body ++ '"' :: tail)) :
    bltsConfUnquoteStringLit ('"' :: (body ++ '"' :: tail)) =
      if (body.length + 1) % unsignedMod = 0 then none
      else some ((body ++ '"' :: tail).take ((body.length + 1) % unsignedMod - 1)) := by
  unfold bltsConfUnquoteStringLit
  rw [cString_eq hnul]
  have hlast : strrchr '"' ('"' :: (body ++ '"' :: tail)) = some (body.length + 1) :=
    strrchr_append (u := '"' :: body) htail
  simp only [hlast, List.head?_cons, ne_eq, not_true_eq_false, if_false, List.drop_succ_cons,
    List.drop_zero]

/--
**Exactly the plain literals are unquoted.**
-/
theorem unquotes_iff {text : List Char} (h : IsLiteral text) : Unquotes text ↔ Plain text := by
  obtain ⟨pre, body, tail, hpre, htail, rfl⟩ := h.parts
  have hquote : '"' ∉ tail := by
    rcases htail with rfl | rfl <;> decide
  have htailnul : '\x00' ∉ tail := by
    rcases htail with rfl | rfl <;> decide
  constructor
  · rintro ⟨before, mid, after, htext, hbefore, hafter, hunquote⟩
    obtain ⟨hhead, hnulmid⟩ := unquote_eq_some hunquote
    have hpre : pre = [] := by
      rcases hpre with rfl | rfl
      · rfl
      · exact absurd hhead (by simp)
    subst hpre
    cases before with
    | cons a before =>
        obtain ⟨rfl, -⟩ := List.cons.inj htext
        exact absurd List.mem_cons_self hbefore
    | nil =>
        obtain rfl := append_last_inj hquote hafter (List.cons.inj htext).2
        have hnul : '\x00' ∉ '"' :: (body ++ '"' :: tail) := by
          simp [hnulmid, htailnul]
        refine ⟨rfl, hnul, fun i hi => ?_⟩
        have hlast : strrchr '"' ('"' :: (body ++ '"' :: tail)) = some (body.length + 1) :=
          strrchr_append (u := '"' :: body) hquote
        rw [List.nil_append, hlast, Option.mem_some_iff] at hi
        subst hi
        rw [List.nil_append, unquote_plain hquote hnul] at hunquote
        split at hunquote
        next => cases hunquote
        next hlen =>
          have hle := congrArg List.length (Option.some.inj hunquote)
          rw [List.length_take] at hle
          have hmod := Nat.mod_lt (body.length + 1) (by decide : 0 < unsignedMod)
          omega
  · rintro ⟨hhead, hnul, hlen⟩
    have hpre : pre = [] := by
      rcases hpre with rfl | rfl
      · rfl
      · exact absurd hhead (by simp)
    subst hpre
    have hlast : strrchr '"' ('"' :: (body ++ '"' :: tail)) = some (body.length + 1) :=
      strrchr_append (u := '"' :: body) hquote
    have hmod : (body.length + 1) % unsignedMod = body.length + 1 :=
      Nat.mod_eq_of_lt (hlen _ hlast)
    refine ⟨[], body, tail, rfl, List.not_mem_nil, hquote, ?_⟩
    rw [List.nil_append, unquote_plain hquote hnul, hmod, if_neg (Nat.succ_ne_zero _),
      Nat.add_sub_cancel, List.take_left]

/-- A literal with an escaped quote, before the newline of an `include` line. -/
theorem unquotes_escaped :
    Unquotes "\"a\\\"b\"\n".toList ↔ Plain "\"a\\\"b\"\n".toList :=
  unquotes_iff (.inr (Regex.longest_eq_some (r := .seq litstring (chr '\n'))
    (w := "\"a\\\"b\"\n".toList) (n := 7) (by decide +kernel)).2.1)

/-- The rule takes a literal with the prefix `L`, and the routine refuses it. -/
theorem prefix_refused :
    IsLiteral "L\"a\"".toList ∧ ¬ Unquotes "L\"a\"".toList := by
  constructor
  · exact .inl (Regex.longest_eq_some (r := litstring) (w := "L\"a\"".toList) (n := 4)
      (by decide +kernel)).2.1
  · rintro ⟨_, mid, _, _, _, _, hunquote⟩
    have hnull : bltsConfUnquoteStringLit "L\"a\"".toList = none := by decide
    rw [hnull] at hunquote
    cases hunquote

end Blts.Config
