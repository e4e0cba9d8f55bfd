import Blts.Fault
import Mathlib.Data.List.Infix

/-!
# The checks of `blts_dep_check.c`

A dependency is a kernel module, an executable, a library or a file.  What the file
system holds is in `Filesystem`: the results of `access`, of `glob`, and `modules.dep`.

`grep_line` takes the first line that contains the name of the module anywhere, and
`check_kmod` subtracts the start of the line from the position of a colon also where it
has just found that there is none.
-/

namespace Blts.Dep

/-! ## The system -/

/-- What the checks see of the system they run on. -/
structure Filesystem where
  /-- `access(name, R_OK)`: 0, or `errno` -/
  access : List Char → Nat
  /-- `access(name, X_OK)` succeeds -/
  executable : List Char → Bool
  /-- the number of paths that `glob` finds, if it succeeds -/
  glob : List Char → Option Nat
  /-- `release` of `uname` -/
  release : List Char
  /-- what `fopen` of `modules.dep` opens -/
  modulesDep : Option (List Char)

/-- `ENOENT`. -/
def enoent : Nat := 2

/-! ## Lines -/

/-- The lines that `getline` reads, each with the newline that ends it. -/
def getlines : List Char → List (List Char)
  | [] => []
  | c :: cs =>
      if c = '\n' then [c] :: getlines cs
      else
        match getlines cs with
        | [] => [[c]]
        | line :: lines => (c :: line) :: lines

/-- A line as a C string. -/
def cString (line : List Char) : List Char :=
  line.takeWhile (· ≠ '\x00')

/-- The lines that `asprintf` copies. -/
def lines (text : List Char) : List (List Char) :=
  (getlines text).map cString

/-- `grep_line`: the first line in which `strstr` finds the string. -/
def grepLine (text name : List Char) : Option (List Char) :=
  (lines text).find? fun line => name <:+: line

/-- What the lines are made of. -/
theorem getlines_flatten (text : List Char) : (getlines text).flatten = text := by
  induction text with
  | nil => rfl
  | cons c cs ih =>
      unfold getlines
      by_cases hc : c = '\n'
      · rw [if_pos hc, List.flatten_cons, ih, List.singleton_append]
      · rw [if_neg hc]
        cases hlines : getlines cs with
        | nil =>
            rw [hlines] at ih
            rw [← ih]
            rfl
        | cons line rest =>
            rw [hlines] at ih
            rw [← ih]
            rfl

/-- No line is longer than the text. -/
theorem length_le_of_mem_lines {text line : List Char} (h : line ∈ lines text) :
    line.length ≤ text.length := by
  obtain ⟨whole, hwhole, rfl⟩ := List.mem_map.mp h
  have hsub := (List.sublist_flatten_of_mem hwhole).length_le
  rw [getlines_flatten] at hsub
  exact (List.takeWhile_prefix _).length_le.trans hsub

/-! ## The four checks -/

/-- `check_file`. -/
def checkFile (fs : Filesystem) (name : List Char) : Int :=
  if fs.access name = 0 then 0 else -(fs.access name : Int)

/-- `path_len` in `check_kmod`; there is none without a colon. -/
def pathLen (line : List Char) : Option Nat :=
  line.findIdx? (· == ':')

/-- The path of a module in a line of `modules.dep`. -/
def modFullPath (fs : Filesystem) (line : List Char) : Except Fault (List Char) :=
  match pathLen line with
  | none => .error .nullDeref
  | some len =>
      if "/lib/modules".toList.isPrefixOf line then .ok (line.take len)
      else .ok ("/lib/modules/".toList ++ fs.release ++ "/".toList ++ line.take len)

/-- `check_kmod`. -/
def checkKmod (fs : Filesystem) (name : List Char) : Except Fault Int :=
  let moddep := "/lib/modules/".toList ++ fs.release ++ "/modules.dep".toList
  if fs.access moddep ≠ 0 then
    if fs.access moddep ≠ enoent then .ok (-1)
    else
      .ok (checkFile fs
        ("/lib/modules/".toList ++ fs.release ++ "/".toList ++ name ++ ".ko".toList))
  else
    match fs.modulesDep with
    | none => .ok (-1)
    | some text =>
        match grepLine text name with
        | none => .ok (-1)
        | some line => (modFullPath fs line).map (checkFile fs)

/-- `valid_dirs` of `check_lib`. -/
def validDirs : List String := ["/lib", "/usr/lib"]

/-- `check_lib`. -/
def checkLib (fs : Filesystem) (name : List Char) : Int :=
  let found := validDirs.foldl (fun found dirname =>
    found + (fs.glob (dirname.toList ++ "/".toList ++ name ++ "*".toList)).getD 0) 0
  if 0 < found then 0 else -1

/-- `valid_exe_dirs` of `check_bin`. -/
def validExeDirs : List String := ["", "/bin", "/sbin", "/usr/bin", "/usr/sbin", "/usr/X11/bin"]

/-- The path of an executable; a directory is put before a name that is no absolute path. -/
def exePath (dirname : String) (name : List Char) : List Char :=
  if name.head? ≠ some '/' then dirname.toList ++ "/".toList ++ name else name

/-- `check_bin`. -/
def checkBin (fs : Filesystem) (name : List Char) : Int :=
  let found := (validExeDirs.map fun dirname => exePath dirname name).countP fs.executable
  if 0 < found then 0 else -1

/-!
## The line of a module

A line of `modules.dep` is the path of a module, a colon, and the paths of the modules it
needs.  The line that `check_kmod` selects is the first one with the name of the module in
it, which may be that of a module with a longer name, or of one that needs the module.
-/

/-- What follows the last slash. -/
def basename (path : List Char) : List Char :=
  (path.reverse.takeWhile (· ≠ '/')).reverse

/-- The line describes the module: the basename before the first colon is `name.ko`. -/
def Describes (line name : List Char) : Prop :=
  ∃ path rest, line = path ++ ':' :: rest ∧ ':' ∉ path ∧ basename path = name ++ ".ko".toList

/-- The line that is selected describes the module, and as much of it is copied as there
is. -/
def SelectsModule (text name : List Char) : Prop :=
  ∀ line, grepLine text name = some line →
    Describes line name ∧ ∃ len, pathLen line = some len ∧ len ≤ line.length

theorem Describes.isInfix {line name : List Char} (h : Describes line name) :
    name <:+: line := by
  obtain ⟨path, rest, rfl, _, hbase⟩ := h
  have hsuffix : basename path <:+ path := by
    have hprefix := List.takeWhile_prefix (· ≠ '/') (l := path.reverse)
    unfold basename
    rw [← List.reverse_suffix] at hprefix
    rwa [List.reverse_reverse] at hprefix
  have hname : name <:+: basename path := by
    rw [hbase]
    exact (List.prefix_append name _).isInfix
  exact (hname.trans hsuffix.isInfix).trans (List.prefix_append path _).isInfix

/-- The path of a line that describes a module is all of it before the colon. -/
theorem Describes.basename_eq {line name : List Char} (h : Describes line name) :
    basename (line.takeWhile (· ≠ ':')) = name ++ ".ko".toList := by
  obtain ⟨path, rest, rfl, hpath, hbase⟩ := h
  have hall : ∀ c ∈ path, decide (c ≠ ':') = true := by
    intro c hc
    rw [decide_eq_true_eq]
    rintro rfl
    exact hpath hc
  rw [List.takeWhile_append_of_pos hall, List.takeWhile_cons_of_neg (by decide),
    List.append_nil]
  exact hbase

/-- A line that describes a module has a colon. -/
theorem Describes.pathLen {line name : List Char} (h : Describes line name) :
    ∃ len, pathLen line = some len ∧ len ≤ line.length := by
  obtain ⟨path, rest, rfl, _, _⟩ := h
  have hcolon : Dep.pathLen (path ++ ':' :: rest) ≠ none := by
    intro hnone
    have hall := List.findIdx?_eq_none_iff.mp hnone ':' (by simp)
    cases hall
  obtain ⟨len, hlen⟩ := Option.ne_none_iff_exists'.mp hcolon
  obtain ⟨hlt, _⟩ := List.findIdx?_eq_some_iff_getElem.mp hlen
  exact ⟨len, hlen, Nat.le_of_lt hlt⟩

/--
**The line that is selected.**  For every content of `modules.dep` and every name, it is
one that describes the module, and the path that is copied is inside it, if and only if
every line that contains the name without describing the module comes after one that
describes it.
-/
theorem selectsModule_iff (text name : List Char) : SelectsModule text name ↔
    ∀ before line after, lines text = before ++ line :: after → name <:+: line →
      ¬ Describes line name → ∃ l ∈ before, Describes l name := by
  constructor
  · intro h before line after hlines hname hnot
    cases hfirst : before.find? fun line => name <:+: line with
    | some l =>
        have hline : grepLine text name = some l := by
          rw [grepLine, hlines, List.find?_append, hfirst, Option.some_or]
        exact ⟨l, List.mem_of_find?_eq_some hfirst, (h l hline).1⟩
    | none =>
        have hline : grepLine text name = some line := by
          rw [grepLine, hlines, List.find?_append, hfirst, Option.none_or, List.find?_cons,
            decide_eq_true hname]
        exact absurd (h line hline).1 hnot
  · intro h line hline
    obtain ⟨hname, before, after, hlines, hbefore⟩ := List.find?_eq_some_iff_append.mp hline
    have hdescribes : Describes line name := by
      by_contra hnot
      obtain ⟨l, hl, hdescribes⟩ := h before line after hlines (of_decide_eq_true hname) hnot
      have hmissing := hbefore l hl
      rw [decide_eq_true hdescribes.isInfix] at hmissing
      cases hmissing
    exact ⟨hdescribes, hdescribes.pathLen⟩

/-- With `modules.dep` of one line for `foobar.ko` the check of `foo` finds it; a line
without a colon has no path. -/
theorem longerName_selected :
    ¬ SelectsModule "kernel/foobar.ko:\n".toList "foo".toList ∧
      ¬ SelectsModule "foo.ko\n".toList "foo".toList := by
  constructor
  · intro h
    have hline : grepLine "kernel/foobar.ko:\n".toList "foo".toList =
        some "kernel/foobar.ko:\n".toList := by decide
    exact absurd (h _ hline).1.basename_eq (by decide)
  · intro h
    have hline : grepLine "foo.ko\n".toList "foo".toList = some "foo.ko\n".toList := by decide
    obtain ⟨_, len, hlen, _⟩ := h _ hline
    have hnone : pathLen "foo.ko\n".toList = none := by decide
    rw [hnone] at hlen
    cases hlen

end Blts.Dep
