import Mathlib.Data.List.Basic
import Blts.Cli.Options

/-!
# What `parse_test_list` writes

The list is meant to be the numbers between the commas.  The function writes them
to `test_list` and ends them with a zero, and stops in front of the last cell; an
entry that does not fit into its buffer of eight characters writes past it.
-/

namespace Blts.Cli

/-- The entries of a list of tests; `cur` is the beginning of the first one.
Nothing follows a comma at the end. -/
def entriesFrom (cur : List Char) : List Char → List (List Char)
  | [] => if cur = [] then [] else [cur]
  | c :: cs => if c = ',' then cur :: entriesFrom [] cs else entriesFrom (cur ++ [c]) cs

def entries (list : String) : List (List Char) :=
  entriesFrom [] list.toList

/-- The numbers that a list of tests selects. -/
def testNumbers (list : String) : List Int :=
  (entries list).map atoi

/-- The numbers that fit into `test_list` with the zero after them. -/
def listCap : Nat := maxArgs - 1

/-- None of the entries that are read is too long for the buffer. -/
def EntriesFit (es : List (List Char)) : Prop :=
  ∀ e ∈ es, e.length < tmpSize

/-- Cells `p` on hold the entries and a zero; the cells before are as they were.
Nothing is said of empty entries. -/
structure Written (p : Nat) (es : List (List Char)) (out out' : TestList) : Prop where
  before : ∀ q < p, out' q = out q
  cells : ∀ j e, p + j < listCap → es[j]? = some e → e ≠ [] → out' (p + j) = atoi e
  last : out' (min listCap (p + es.length)) = 0

/-- The beginning of the first entry stays its beginning. -/
theorem entriesFrom_head (cs : List Char) : ∀ cur : List Char, cur ≠ [] →
    ∃ e es, entriesFrom cur cs = e :: es ∧ cur.length ≤ e.length := by
  induction cs with
  | nil =>
      intro cur hcur
      exact ⟨cur, [], by rw [entriesFrom, if_neg hcur], Nat.le_refl _⟩
  | cons c cs ih =>
      intro cur hcur
      by_cases hc : c = ','
      · exact ⟨cur, entriesFrom [] cs, by rw [entriesFrom, if_pos hc], Nat.le_refl _⟩
      · obtain ⟨e, es, hes, hle⟩ := ih (cur ++ [c]) (by simp)
        refine ⟨e, es, by rw [entriesFrom, if_neg hc, hes], ?_⟩
        simp only [List.length_append, List.length_singleton] at hle
        omega

theorem setTest_eq_ok (list : TestList) {i : Nat} (num : Int) (hi : i < maxArgs) :
    setTest list i num = .ok (Function.update list i num) :=
  if_pos hi

/-- The end of `parse_test_list`. -/
def finishTestList (out : TestList) :
    Option (Nat × Nat × List Char × TestList) → Except Fault (Nat × TestList)
  | none => .ok (0, out)
  | some (p, i, tmp, out) =>
      if i ≠ 0 then do
        let out ← setTest out p (atoi tmp)
        let out ← setTest out (p + 1) 0
        return (p + 1, out)
      else do
        let out ← setTest out p 0
        return (p, out)

theorem parseTestList_eq (list tmp : List Char) (out : TestList) :
    parseTestList list tmp out =
      parseTestListLoop list 0 0 tmp out >>= finishTestList out := by
  rfl

theorem maxArgs_eq : maxArgs = 256 := rfl

theorem listCap_eq : listCap = 255 := rfl

theorem tmpSize_eq : tmpSize = 8 := rfl

section

variable {p : Nat} {out : TestList} (hp : p < listCap)
include hp

theorem written_nil : Written p [] out (Function.update out p 0) := by
  constructor
  case before => exact fun q hq => Function.update_of_ne (Nat.ne_of_lt hq) _ _
  case cells =>
    intro j e _ he
    cases he
  case last =>
    have hmin : min listCap (p + ([] : List (List Char)).length) = p := by
      simp only [List.length_nil]
      omega
    rw [hmin]
    exact Function.update_self p 0 out

/-- The last entry, or the last one that fits. -/
theorem written_one {e : List Char} {es : List (List Char)} {num : Int}
    (hlast : p + 1 = listCap ∨ es = []) (hnum : e ≠ [] → num = atoi e) :
    Written p (e :: es) out (Function.update (Function.update out p num) (p + 1) 0) := by
  constructor
  case before =>
    intro q hq
    rw [Function.update_of_ne (by omega), Function.update_of_ne (by omega)]
  case cells =>
    intro j e' hj he' hne
    cases j with
    | zero =>
        cases he'
        rw [Function.update_of_ne (by omega), Nat.add_zero, Function.update_self]
        exact hnum hne
    | succ j =>
        cases hlast with
        | inl hcap => omega
        | inr hnil =>
            rw [hnil] at he'
            cases he'
  case last =>
    have hmin : min listCap (p + (e :: es).length) = p + 1 := by
      rw [List.length_cons]
      cases hlast with
      | inl hcap => omega
      | inr hnil =>
          rw [hnil, List.length_nil]
          omega
    rw [hmin]
    exact Function.update_self _ _ _

omit hp in
/-- One entry, and then the rest. -/
theorem written_cons {e : List Char} {es : List (List Char)} {num : Int} {out' : TestList}
    (h : Written (p + 1) es (Function.update out p num) out')
    (hnum : e ≠ [] → num = atoi e) : Written p (e :: es) out out' := by
  constructor
  case before =>
    intro q hq
    rw [h.before q (by omega), Function.update_of_ne (Nat.ne_of_lt hq)]
  case cells =>
    intro j e' hj he' hne
    cases j with
    | zero =>
        cases he'
        rw [Nat.add_zero, h.before p (Nat.lt_succ_self p), Function.update_self]
        exact hnum hne
    | succ j =>
        have hcell := h.cells j e' (by omega) he' hne
        rwa [Nat.add_right_comm] at hcell
  case last =>
    have hlast := h.last
    rw [List.length_cons, ← Nat.add_assoc, Nat.add_right_comm]
    exact hlast

end

/-- The loop reads the rest of the string, with `i` characters of an entry in `tmp`: it stops
at an entry that is too long, or writes the entries from cell `p` on. -/
def ReadsRest (out₀ : TestList) (cs : List Char) (p i : Nat) (tmp : List Char)
    (out : TestList) : Prop :=
  (¬ EntriesFit ((entriesFrom (tmp.take i) cs).take (listCap - p)) →
    parseTestListLoop cs p i tmp out >>= finishTestList out₀ = .error .outOfBounds) ∧
  (EntriesFit ((entriesFrom (tmp.take i) cs).take (listCap - p)) →
    ∃ out', parseTestListLoop cs p i tmp out >>= finishTestList out₀ =
        .ok (min listCap (p + (entriesFrom (tmp.take i) cs).length), out') ∧
      Written p (entriesFrom (tmp.take i) cs) out out')

section

variable {out₀ : TestList} {cs : List Char} {p i : Nat} {tmp : List Char} {out : TestList}

/-- At the end of the string a last entry is written. -/
theorem readsRest_nil (hp : p < listCap) (hi : i < tmpSize) (hle : i ≤ tmp.length)
    (hlength : i ≠ 0 → tmp.length = i) : ReadsRest out₀ [] p i tmp out := by
  have hcap := listCap_eq
  have hargs := maxArgs_eq
  unfold ReadsRest
  by_cases hzero : i = 0
  · have hes : entriesFrom (tmp.take i) [] = [] := by rw [hzero]; rfl
    rw [hes]
    refine ⟨fun hnot => absurd (fun e he => by simp at he) hnot, fun _ => ?_⟩
    refine ⟨Function.update out p 0, ?_, written_nil hp⟩
    show finishTestList out₀ (some (p, i, tmp, out)) = _
    have hmin : min listCap (p + ([] : List (List Char)).length) = p := by
      simp only [List.length_nil]
      omega
    rw [hmin, hzero]
    simp only [finishTestList, setTest_eq_ok _ 0 (show p < maxArgs by omega)]
    rfl
  · have hwhole : tmp.take i = tmp := List.take_of_length_le (by
      have hlen := hlength hzero
      omega)
    have hne : tmp ≠ [] := by
      intro hnil
      rw [hnil] at hle
      exact hzero (Nat.le_zero.mp hle)
    have hes : entriesFrom (tmp.take i) [] = [tmp] := by
      rw [hwhole, entriesFrom, if_neg hne]
    rw [hes]
    constructor
    · intro hnot
      refine absurd (fun e he => ?_) hnot
      have hmem := List.mem_of_mem_take he
      rw [List.mem_singleton.mp hmem, hlength hzero]
      exact hi
    · intro _
      refine ⟨Function.update (Function.update out p (atoi tmp)) (p + 1) 0, ?_,
        written_one hp (.inr rfl) fun _ => rfl⟩
      show finishTestList out₀ (some (p, i, tmp, out)) = _
      have hmin : min listCap (p + [tmp].length) = p + 1 := by
        rw [List.length_singleton]
        omega
      rw [hmin]
      simp only [finishTestList, ne_eq, hzero, not_false_eq_true, if_true,
        setTest_eq_ok _ (atoi tmp) (show p < maxArgs by omega),
        setTest_eq_ok _ 0 (show p + 1 < maxArgs by omega)]
      rfl

/-- At a comma the entry is written, and the next one begins. -/
theorem readsRest_comma (hp : p < listCap) (hi : i < tmpSize) (hle : i ≤ tmp.length)
    (hlength : i ≠ 0 → tmp.length = i)
    (ih : p + 1 < listCap →
      ReadsRest out₀ cs (p + 1) 0 tmp (Function.update out p (atoi tmp))) :
    ReadsRest out₀ (',' :: cs) p i tmp out := by
  have hcap := listCap_eq
  have hargs := maxArgs_eq
  have htake : (tmp.take i).length = i := List.length_take_of_le hle
  unfold ReadsRest
  have hes : entriesFrom (tmp.take i) (',' :: cs) = tmp.take i :: entriesFrom [] cs := by
    rw [entriesFrom, if_pos rfl]
  have hnum : tmp.take i ≠ [] → atoi tmp = atoi (tmp.take i) := by
    intro hne
    have hzero : i ≠ 0 := by
      intro hzero
      exact hne (by rw [hzero]; rfl)
    rw [List.take_of_length_le (Nat.le_of_eq (hlength hzero))]
  have hset := setTest_eq_ok out (atoi tmp) (show p < maxArgs by omega)
  rw [hes]
  by_cases hstop : p + 1 ≥ maxArgs - 1
  · have hone : listCap - p = 1 := by omega
    have hmin : min listCap (p + (tmp.take i :: entriesFrom [] cs).length) = p + 1 := by
      rw [List.length_cons]
      omega
    have hloop : parseTestListLoop (',' :: cs) p i tmp out =
        .ok (some (p + 1, 0, tmp, Function.update out p (atoi tmp))) := by
      simp only [parseTestListLoop, if_true, hset, if_pos hstop]
    rw [hone, hloop, hmin]
    constructor
    · intro hnot
      refine absurd (fun e he => ?_) hnot
      rw [List.mem_singleton.mp he, htake]
      exact hi
    · intro _
      refine ⟨Function.update (Function.update out p (atoi tmp)) (p + 1) 0, ?_,
        written_one hp (.inl (by omega)) hnum⟩
      show finishTestList out₀ (some (p + 1, 0, tmp, Function.update out p (atoi tmp))) = _
      simp only [finishTestList, setTest_eq_ok _ 0 (show p + 1 < maxArgs by omega)]
      rfl
  · have hrest : listCap - p = listCap - (p + 1) + 1 := by omega
    have hcount : p + (tmp.take i :: entriesFrom [] cs).length =
        p + 1 + (entriesFrom [] cs).length := by
      rw [List.length_cons]
      omega
    have hfit : EntriesFit ((tmp.take i :: entriesFrom [] cs).take (listCap - p)) ↔
        EntriesFit ((entriesFrom [] cs).take (listCap - (p + 1))) := by
      rw [hrest, List.take_succ_cons]
      refine ⟨fun h e he => h e (List.mem_cons_of_mem _ he), fun h e he => ?_⟩
      cases List.mem_cons.mp he with
      | inl heq =>
          rw [heq, htake]
          exact hi
      | inr hmem => exact h e hmem
    have hloop : parseTestListLoop (',' :: cs) p i tmp out =
        parseTestListLoop cs (p + 1) 0 tmp (Function.update out p (atoi tmp)) := by
      simp only [parseTestListLoop, if_true, hset, if_neg hstop]
    obtain ⟨hfault, hok⟩ := ih (by omega)
    rw [hfit, hloop, hcount]
    refine ⟨hfault, fun hentries => ?_⟩
    obtain ⟨out', hrun, hwritten⟩ := hok hentries
    exact ⟨out', hrun, written_cons hwritten hnum⟩

/-- Any other character belongs to the entry, which must have room for it. -/
theorem readsRest_char {c : Char} (hc : c ≠ ',') (hp : p < listCap) (hi : i < tmpSize)
    (hle : i ≤ tmp.length)
    (ih : i + 1 < tmpSize → ReadsRest out₀ cs p (i + 1) (tmp.take i ++ [c]) out) :
    ReadsRest out₀ (c :: cs) p i tmp out := by
  have hsize := tmpSize_eq
  have htake : (tmp.take i).length = i := List.length_take_of_le hle
  unfold ReadsRest
  have hes : entriesFrom (tmp.take i) (c :: cs) =
      entriesFrom (tmp.take i ++ [c]) cs := by
    rw [entriesFrom, if_neg hc]
  have hlen : (tmp.take i ++ [c]).length = i + 1 := by
    rw [List.length_append, htake, List.length_singleton]
  have hnot : ¬ i ≥ tmpSize := by omega
  rw [hes]
  by_cases hroom : i + 1 < tmpSize
  · have hloop : parseTestListLoop (c :: cs) p i tmp out =
        parseTestListLoop cs p (i + 1) (tmp.take i ++ [c]) out := by
      simp only [parseTestListLoop, if_neg hc, if_neg hnot, if_pos hroom]
    have hrest := ih hroom
    rw [ReadsRest, List.take_of_length_le (Nat.le_of_eq hlen)] at hrest
    rw [hloop]
    exact hrest
  · have hloop : parseTestListLoop (c :: cs) p i tmp out = .error .outOfBounds := by
      simp only [parseTestListLoop, if_neg hc, if_neg hnot, if_neg hroom]
    obtain ⟨e, es, hhead, hle'⟩ := entriesFrom_head cs
      (tmp.take i ++ [c]) (by simp)
    rw [hloop, hhead]
    refine ⟨fun _ => rfl, fun hfit => ?_⟩
    have hshort := hfit e (by
      rw [show listCap - p = listCap - p - 1 + 1 by omega, List.take_succ_cons]
      exact List.mem_cons_self)
    omega

end

/-- **The loop of `parse_test_list`** reads the rest of the string. -/
theorem parseTestList_from (out₀ : TestList) (cs : List Char) :
    ∀ (p i : Nat) (tmp : List Char) (out : TestList), p < listCap → i < tmpSize →
      i ≤ tmp.length → (i ≠ 0 → tmp.length = i) → ReadsRest out₀ cs p i tmp out := by
  induction cs with
  | nil => exact fun p i tmp out => readsRest_nil
  | cons c cs ih =>
      intro p i tmp out hp hi hle hlength
      by_cases hc : c = ','
      · subst hc
        refine readsRest_comma hp hi hle hlength fun hnext => ?_
        exact ih (p + 1) 0 tmp _ hnext (by decide) (Nat.zero_le _) fun h => absurd rfl h
      · refine readsRest_char hc hp hi hle fun hroom => ?_
        have hlen : (tmp.take i ++ [c]).length = i + 1 := by
          rw [List.length_append, List.length_take_of_le hle, List.length_singleton]
        exact ih p (i + 1) (tmp.take i ++ [c]) out hp hroom (Nat.le_of_eq hlen.symm)
          fun _ => hlen

/-- **`parse_test_list`**: it writes past its buffer if an entry that it reads is
too long, and otherwise writes the entries that fit into the list. -/
theorem parseTestList_spec (list : String) (tmp : List Char) (out : TestList) :
    (¬ EntriesFit ((entries list).take listCap) →
      parseTestList list.toList tmp out = .error .outOfBounds) ∧
    (EntriesFit ((entries list).take listCap) →
      ∃ out', parseTestList list.toList tmp out =
          .ok (min listCap (entries list).length, out') ∧
        Written 0 (entries list) out out') := by
  have hspec := parseTestList_from out list.toList 0 0 tmp out (by decide) (by decide)
    (Nat.zero_le _) (fun h => absurd rfl h)
  rw [ReadsRest, Nat.sub_zero, Nat.zero_add] at hspec
  exact hspec

end Blts.Cli
