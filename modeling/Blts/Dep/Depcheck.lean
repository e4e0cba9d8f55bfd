import Mathlib.Data.List.TakeWhile
import Blts.Dep.Checks

/-!
# The rules of `depcheck`

A rule is a line `required bin perl`: a kind, a type and an argument, which `strsep` takes
apart at single blanks.  A line that does not come apart this way is skipped, whatever
its kind.

The checks of a line are looked up in a file system; memory is always there.
-/

namespace Blts.Dep

/-! ## Rules -/

/-- A character of `delims`. -/
def isDelim (c : Char) : Bool :=
  c == ' ' || c == '\t'

/-- `strsep`: what is before the first delimiter, and the string after it, if there is
one. -/
def strsep : Option (List Char) → Option (List Char) × Option (List Char)
  | none => (none, none)
  | some s =>
      (some (s.takeWhile fun c => !isDelim c),
        match s.dropWhile fun c => !isDelim c with
        | [] => none
        | _ :: rest => some rest)

/-- The types of rules. -/
inductive RuleType where
  | kmod
  | bin
  | lib
  | file
  deriving DecidableEq

def RuleType.word : RuleType → List Char
  | .kmod => "kmod".toList
  | .bin => "bin".toList
  | .lib => "lib".toList
  | .file => "file".toList

/-- The comparisons of `rule_type`. -/
def ruleType (word : List Char) : Option RuleType :=
  if word = RuleType.kmod.word then some .kmod
  else if word = RuleType.bin.word then some .bin
  else if word = RuleType.lib.word then some .lib
  else if word = RuleType.file.word then some .file
  else none

/-- `rule_kind`, `rule_type` and `rule_arg` of a line that is not malformed. -/
def ruleFields (line : List Char) : Option (List Char × List Char × List Char) :=
  let (kind, work) := strsep (some (line.takeWhile (· ≠ '\n')))
  let (type, work) := strsep work
  match kind, type, work with
  | some kind, some type, some arg => some (kind, type, arg)
  | _, _, _ => none

/-- A rule whose dependency is looked up. -/
structure Rule where
  kind : List Char
  type : RuleType
  arg : List Char

/-- The rule of a line, if the line is not skipped. -/
def ruleOf (line : List Char) : Option Rule :=
  if line.head? = some '#' ∨ line.head? = some '\n' then none
  else
    match ruleFields line with
    | none => none
    | some (kind, type, arg) => (ruleType type).map fun type => ⟨kind, type, arg⟩

/-- The dispatch on the type. -/
def check (fs : Filesystem) (rule : Rule) : Except Fault Int :=
  match rule.type with
  | .kmod => checkKmod fs rule.arg
  | .bin => .ok (checkBin fs rule.arg)
  | .lib => .ok (checkLib fs rule.arg)
  | .file => .ok (checkFile fs rule.arg)

/-- The loop over the lines, with `retval`. -/
def ruleLoop (fs : Filesystem) : List (List Char) → Int → Except Fault Int
  | [], retval => .ok retval
  | line :: lines, retval =>
      match ruleOf line with
      | none => ruleLoop fs lines retval
      | some rule => do
          let res ← check fs rule
          ruleLoop fs lines (if res ≠ 0 ∧ rule.kind = "required".toList then -1 else retval)

/-- `depcheck` on the text of a file, if it can be opened. -/
def depcheck (fs : Filesystem) (text : Option (List Char)) : Except Fault Int :=
  match text with
  | none => .ok (-1)
  | some text => ruleLoop fs (lines text) 0

/-! ## What is asked of it -/

/-- The line without the newline starts with the word `required`. -/
def StartsRequired (line : List Char) : Prop :=
  (line.takeWhile (· ≠ '\n')).takeWhile (fun c => !isDelim c) = "required".toList

/-- Only blanks. -/
def Blank (s : List Char) : Prop :=
  ∀ c ∈ s, isDelim c = true

/-- A name has no blanks around it. -/
structure IsName (name : List Char) : Prop where
  head : ∃ c, name.head? = some c ∧ isDelim c = false
  last : ∃ c, name.getLast? = some c ∧ isDelim c = false

/-- A required line names a dependency, whatever blanks are between and after its fields. -/
def NamesDependency (line : List Char) (type : RuleType) (name : List Char) : Prop :=
  IsName name ∧ ∃ b₁ b₂ b₃, line.takeWhile (· ≠ '\n') =
    "required".toList ++ b₁ ++ type.word ++ b₂ ++ name ++ b₃ ∧
      b₁ ≠ [] ∧ b₂ ≠ [] ∧ Blank b₁ ∧ Blank b₂ ∧ Blank b₃

/-- `depcheck` returns 0 only if every line that starts with `required` names a dependency
that has been looked up for the line and found. -/
def ChecksRequired (text : List Char) : Prop :=
  ∀ fs, depcheck fs (some text) = .ok 0 → ∀ line ∈ lines text, StartsRequired line →
    ∃ rule, ruleOf line = some rule ∧ NamesDependency line rule.type rule.arg ∧
      check fs rule = .ok 0

/-- A required line with single blanks between its fields, a known type and a name. -/
def CleanRule (line : List Char) : Prop :=
  ∃ (type : RuleType) (name : List Char) (d₁ d₂ : Char), IsName name ∧
    isDelim d₁ = true ∧ isDelim d₂ = true ∧
      line.takeWhile (· ≠ '\n') = "required".toList ++ d₁ :: (type.word ++ d₂ :: name)

/-! ## Fields -/

/-- What `strsep` takes off. -/
theorem strsep_some_iff {s a rest : List Char} :
    strsep (some s) = (some a, some rest) ↔
      ∃ d, isDelim d = true ∧ (∀ c ∈ a, isDelim c = false) ∧ s = a ++ d :: rest := by
  constructor
  · intro h
    obtain ⟨ha, hrest⟩ := Prod.mk.inj h
    cases ha
    have hsplit := List.takeWhile_append_dropWhile (p := fun c => !isDelim c) (l := s)
    cases hdrop : s.dropWhile fun c => !isDelim c with
    | nil =>
        rw [hdrop] at hrest
        cases hrest
    | cons d rest' =>
        rw [hdrop] at hrest hsplit
        cases hrest
        have hd := List.head_dropWhile_not (fun c => !isDelim c) (l := s) (by rw [hdrop]; simp)
        simp only [hdrop, List.head_cons, Bool.not_eq_false'] at hd
        refine ⟨d, hd, fun c hc => ?_, hsplit.symm⟩
        simpa using List.mem_takeWhile_imp hc
  · rintro ⟨d, hd, ha, rfl⟩
    have hall : ∀ c ∈ a, (!isDelim c) = true := by
      intro c hc
      rw [ha c hc]
      rfl
    have hstop : ¬ (!isDelim d) = true := by
      rw [hd]
      decide
    have htake : (a ++ d :: rest).takeWhile (fun c => !isDelim c) = a := by
      rw [List.takeWhile_append_of_pos hall,
        List.takeWhile_cons_of_neg (p := fun c => !isDelim c) hstop, List.append_nil]
    have hdrop : (a ++ d :: rest).dropWhile (fun c => !isDelim c) = d :: rest := by
      rw [List.dropWhile_append_of_pos hall,
        List.dropWhile_cons_of_neg (p := fun c => !isDelim c) hstop]
    unfold strsep
    dsimp only
    rw [htake, hdrop]

/-- **The fields** of a line that is not malformed. -/
theorem ruleFields_eq_some {line kind type arg : List Char} :
    ruleFields line = some (kind, type, arg) ↔
      ∃ d₁ d₂, isDelim d₁ = true ∧ isDelim d₂ = true ∧ (∀ c ∈ kind, isDelim c = false) ∧
        (∀ c ∈ type, isDelim c = false) ∧
          line.takeWhile (· ≠ '\n') = kind ++ d₁ :: (type ++ d₂ :: arg) := by
  constructor
  · intro h
    unfold ruleFields at h
    cases hfirst : strsep (some (line.takeWhile (· ≠ '\n'))) with
    | mk kind' work =>
        cases work with
        | none =>
            rw [hfirst] at h
            cases kind' <;> cases h
        | some work =>
            cases hsecond : strsep (some work) with
            | mk type' arg' =>
                rw [hfirst] at h
                dsimp only at h
                rw [hsecond] at h
                cases kind' with
                | none => cases h
                | some kind' =>
                    cases type' with
                    | none => cases h
                    | some type' =>
                        cases arg' with
                        | none => cases h
                        | some arg' =>
                            cases h
                            obtain ⟨d₁, hd₁, hkind, hline⟩ := strsep_some_iff.mp hfirst
                            obtain ⟨d₂, hd₂, htype, hwork⟩ := strsep_some_iff.mp hsecond
                            exact ⟨d₁, d₂, hd₁, hd₂, hkind, htype, by rw [hline, hwork]⟩
  · rintro ⟨d₁, d₂, hd₁, hd₂, hkind, htype, hline⟩
    have hfirst := strsep_some_iff.mpr ⟨d₁, hd₁, hkind, hline⟩
    have hsecond : strsep (some (type ++ d₂ :: arg)) = (some type, some arg) :=
      strsep_some_iff.mpr ⟨d₂, hd₂, htype, rfl⟩
    unfold ruleFields
    rw [hfirst]
    dsimp only
    rw [hsecond]

theorem ruleType_eq_some {word : List Char} {type : RuleType} :
    ruleType word = some type ↔ word = type.word := by
  constructor
  · intro h
    unfold ruleType at h
    by_cases hkmod : word = RuleType.kmod.word
    · rw [if_pos hkmod] at h
      cases h
      exact hkmod
    · rw [if_neg hkmod] at h
      by_cases hbin : word = RuleType.bin.word
      · rw [if_pos hbin] at h
        cases h
        exact hbin
      · rw [if_neg hbin] at h
        by_cases hlib : word = RuleType.lib.word
        · rw [if_pos hlib] at h
          cases h
          exact hlib
        · rw [if_neg hlib] at h
          by_cases hfile : word = RuleType.file.word
          · rw [if_pos hfile] at h
            cases h
            exact hfile
          · rw [if_neg hfile] at h
            cases h
  · rintro rfl
    cases type <;> decide

/-- The kind is the first word. -/
theorem kind_eq_takeWhile {line kind type arg : List Char}
    (h : ruleFields line = some (kind, type, arg)) :
    (line.takeWhile (· ≠ '\n')).takeWhile (fun c => !isDelim c) = kind := by
  obtain ⟨d₁, d₂, hd₁, _, hkind, _, hline⟩ := ruleFields_eq_some.mp h
  have hsep := strsep_some_iff.mpr ⟨d₁, hd₁, hkind, hline⟩
  exact Option.some.inj (Prod.mk.inj hsep).1

/-- The argument is part of the line. -/
theorem arg_length_lt {line kind type arg : List Char}
    (h : ruleFields line = some (kind, type, arg)) : arg.length < line.length := by
  obtain ⟨d₁, d₂, _, _, _, _, hline⟩ := ruleFields_eq_some.mp h
  have hle := (List.takeWhile_prefix (· ≠ '\n') (l := line)).length_le
  rw [hline] at hle
  simp only [List.length_append, List.length_cons] at hle
  omega

/-- A line with a rule is not skipped at any of the three places. -/
theorem ruleOf_eq_some {line : List Char} {rule : Rule} : ruleOf line = some rule ↔
    ¬ (line.head? = some '#' ∨ line.head? = some '\n') ∧
      ruleFields line = some (rule.kind, rule.type.word, rule.arg) := by
  unfold ruleOf
  by_cases hskip : line.head? = some '#' ∨ line.head? = some '\n'
  · rw [if_pos hskip]
    constructor
    · rintro ⟨⟩
    · rintro ⟨h, _⟩
      exact absurd hskip h
  · rw [if_neg hskip]
    cases hfields : ruleFields line with
    | none =>
        constructor
        · rintro ⟨⟩
        · rintro ⟨_, ⟨⟩⟩
    | some fields =>
        obtain ⟨kind, word, arg⟩ := fields
        constructor
        · intro h
          obtain ⟨type, htype, hrule⟩ := Option.map_eq_some_iff.mp h
          subst hrule
          rw [ruleType_eq_some.mp htype]
          exact ⟨hskip, rfl⟩
        · rintro ⟨_, h⟩
          cases h
          dsimp only
          rw [ruleType_eq_some.mpr rfl, Option.map_some]

/-! ## The run over the lines -/

/-- Nothing resets `retval`: it is 0 at the end if it was at first and every required
rule has been found. -/
theorem ruleLoop_ok_zero {fs : Filesystem} {lines : List (List Char)} {retval : Int}
    (h : ruleLoop fs lines retval = .ok 0) : retval = 0 ∧
      ∀ line ∈ lines, ∀ rule, ruleOf line = some rule → rule.kind = "required".toList →
        check fs rule = .ok 0 := by
  induction lines generalizing retval with
  | nil =>
      cases h
      exact ⟨rfl, fun _ hline => absurd hline List.not_mem_nil⟩
  | cons line lines ih =>
      unfold ruleLoop at h
      cases hrule : ruleOf line with
      | none =>
          rw [hrule] at h
          obtain ⟨hretval, hrest⟩ := ih h
          refine ⟨hretval, fun l hl rule hl_rule => ?_⟩
          rcases List.mem_cons.mp hl with rfl | hl
          · rw [hrule] at hl_rule
            cases hl_rule
          · exact hrest l hl rule hl_rule
      | some rule =>
          rw [hrule] at h
          dsimp only at h
          cases hcheck : check fs rule with
          | error fault =>
              rw [hcheck] at h
              cases h
          | ok res =>
              rw [hcheck, ok_bind] at h
              obtain ⟨hretval, hrest⟩ := ih h
              by_cases hmissing : res ≠ 0 ∧ rule.kind = "required".toList
              · rw [if_pos hmissing] at hretval
                cases hretval
              · rw [if_neg hmissing] at hretval
                refine ⟨hretval, fun l hl rule' hrule' hkind => ?_⟩
                rcases List.mem_cons.mp hl with rfl | hl
                · rw [hrule] at hrule'
                  cases hrule'
                  have hres : res = 0 := by
                    by_contra hres
                    exact hmissing ⟨hres, hkind⟩
                  rw [hcheck, hres]
                · exact hrest l hl rule' hrule' hkind

/-- Where every check finds its dependency, `retval` stays as it is. -/
theorem ruleLoop_of_found {fs : Filesystem} {lines : List (List Char)} {retval : Int}
    (h : ∀ line ∈ lines, ∀ rule, ruleOf line = some rule → check fs rule = .ok 0) :
    ruleLoop fs lines retval = .ok retval := by
  induction lines generalizing retval with
  | nil => rfl
  | cons line lines ih =>
      have hrest : ruleLoop fs lines retval = .ok retval :=
        ih fun l hl rule => h l (List.mem_cons_of_mem _ hl) rule
      unfold ruleLoop
      cases hrule : ruleOf line with
      | none => exact hrest
      | some rule =>
          dsimp only
          rw [h line List.mem_cons_self rule hrule, ok_bind,
            if_neg (fun hmissing => hmissing.1 rfl)]
          exact hrest

/-! ## Required lines -/

/-- A file system with everything that is asked for, and no `modules.dep`. -/
def everything (release : List Char) : Filesystem where
  access := fun name =>
    if name = "/lib/modules/".toList ++ release ++ "/modules.dep".toList then enoent else 0
  executable := fun _ => true
  glob := fun _ => some 1
  release := release
  modulesDep := none

/-- Every file but `modules.dep` is there. -/
theorem everything_checkFile {release name : List Char}
    (h : name ≠ "/lib/modules/".toList ++ release ++ "/modules.dep".toList) :
    checkFile (everything release) name = 0 := by
  have haccess : (everything release).access name = 0 := if_neg h
  unfold checkFile
  rw [if_pos haccess]

/-- A module is looked for at its place in the older layout. -/
theorem everything_checkKmod (release name : List Char) :
    checkKmod (everything release) name = .ok 0 := by
  have hmoddep : (everything release).access
      ("/lib/modules/".toList ++ release ++ "/modules.dep".toList) = enoent := if_pos rfl
  have hko : "/lib/modules/".toList ++ release ++ "/".toList ++ name ++ ".ko".toList ≠
      "/lib/modules/".toList ++ release ++ "/modules.dep".toList := by
    intro heq
    have hlast := congrArg List.getLast? heq
    have hleft (l : List Char) : (l ++ ".ko".toList).getLast? = some 'o' := by
      rw [List.getLast?_append]
      rfl
    have hright (l : List Char) : (l ++ "/modules.dep".toList).getLast? = some 'p' := by
      rw [List.getLast?_append]
      rfl
    rw [hleft, hright] at hlast
    exact absurd hlast (by decide)
  unfold checkKmod
  dsimp only
  rw [show (everything release).release = release from rfl, hmoddep, if_pos (by decide),
    if_neg (by decide), everything_checkFile hko]

theorem everything_found {release : List Char} {rule : Rule}
    (h : rule.arg.length ≤ release.length) : check (everything release) rule = .ok 0 := by
  unfold check
  cases rule.type with
  | kmod => exact everything_checkKmod release rule.arg
  | bin =>
      have hall : ((validExeDirs.map fun dirname => exePath dirname rule.arg).countP
          (everything release).executable) = 6 := by
        exact List.countP_eq_length.mpr fun _ _ => rfl
      dsimp only
      rw [checkBin, hall]
      rfl
  | lib => rfl
  | file =>
      have hname : rule.arg ≠
          "/lib/modules/".toList ++ release ++ "/modules.dep".toList := by
        intro heq
        have hlength := congrArg List.length heq
        rw [List.length_append, List.length_append,
          show "/lib/modules/".toList.length = 13 by decide] at hlength
        omega
      dsimp only
      rw [everything_checkFile hname]

/-- A clean line is the rule that it looks like. -/
theorem CleanRule.rule {line : List Char} (h : CleanRule line) :
    ∃ rule, ruleOf line = some rule ∧ rule.kind = "required".toList ∧
      NamesDependency line rule.type rule.arg := by
  obtain ⟨type, name, d₁, d₂, hname, hd₁, hd₂, hline⟩ := h
  have hfields : ruleFields line = some ("required".toList, type.word, name) := by
    have hword (word : List Char) (h : (word.all fun c => !isDelim c) = true) :
        ∀ c ∈ word, isDelim c = false := by
      intro c hc
      simpa using List.all_eq_true.mp h c hc
    refine ruleFields_eq_some.mpr ⟨d₁, d₂, hd₁, hd₂, hword _ (by decide), hword _ ?_, hline⟩
    cases type <;> decide
  have hskip : ¬ (line.head? = some '#' ∨ line.head? = some '\n') := by
    cases line with
    | nil => simp
    | cons c cs =>
        have hc : c = 'r' := by
          by_cases hc : c = '\n'
          · subst hc
            cases hline
          · rw [List.takeWhile_cons_of_pos (by simpa using hc)] at hline
            exact (List.cons.inj hline).1
        subst hc
        simp
  refine ⟨⟨_, type, name⟩, ruleOf_eq_some.mpr ⟨hskip, hfields⟩, rfl, hname,
    [d₁], [d₂], [], ?_, by simp, by simp, ?_, ?_, ?_⟩
  · simpa using hline
  · simpa [Blank] using hd₁
  · simpa [Blank] using hd₂
  · simp [Blank]

/--
**The required lines.**  For every text of a rules file, that `depcheck` returns 0 means, in
every file system, that each line that starts with `required` names a dependency that has
been looked up and found, if and only if each such line is a clean one.
-/
theorem checksRequired_iff (text : List Char) : ChecksRequired text ↔
    ∀ line ∈ lines text, StartsRequired line → CleanRule line := by
  constructor
  · intro h line hline hstarts
    have hrun : depcheck (everything text) (some text) = .ok 0 := by
      refine ruleLoop_of_found fun l hl rule hrule => everything_found ?_
      have harg := arg_length_lt (ruleOf_eq_some.mp hrule).2
      exact harg.le.trans (length_le_of_mem_lines hl)
    obtain ⟨rule, hrule, ⟨hname, _⟩, _⟩ := h _ hrun line hline hstarts
    have hfields := (ruleOf_eq_some.mp hrule).2
    obtain ⟨d₁, d₂, hd₁, hd₂, _, _, hfirst⟩ := ruleFields_eq_some.mp hfields
    rw [← kind_eq_takeWhile hfields, hstarts] at hfirst
    exact ⟨rule.type, rule.arg, d₁, d₂, hname, hd₁, hd₂, hfirst⟩
  · intro h fs hrun line hline hstarts
    obtain ⟨rule, hrule, hkind, hnames⟩ := (h line hline hstarts).rule
    exact ⟨rule, hrule, hnames, (ruleLoop_ok_zero hrun).2 line hline rule hrule hkind⟩

/-- With two blanks after `required` the type is empty, and the line is skipped. -/
theorem twoBlanks_skipped : ¬ ChecksRequired "required  bin perl\n".toList := by
  intro h
  have hlines : lines "required  bin perl\n".toList = ["required  bin perl\n".toList] := by
    decide
  have hrun : depcheck (everything []) (some "required  bin perl\n".toList) = .ok 0 := by
    decide
  obtain ⟨rule, hrule, _⟩ := h _ hrun "required  bin perl\n".toList
    (by rw [hlines]; exact List.mem_singleton_self _) (by unfold StartsRequired; decide)
  have hnone : ruleOf "required  bin perl\n".toList = none := by decide
  rw [hnone] at hrule
  cases hrule

end Blts.Dep
