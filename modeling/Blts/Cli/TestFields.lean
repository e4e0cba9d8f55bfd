import Blts.Cli.TestLists

/-!
# The fields of a list of tests

The buffer of `parse_test_list` is filled character by character and given to `atoi`
where a field ends.  It is not emptied in between: an empty field is given the
characters of the one before it, and an empty first field those of memory that nobody
has written.  `AtoiCall` records what `atoi` is given, with the number of characters
that have been written since the field began.
-/

namespace Blts.Cli

/-! ## What `atoi` is given -/

/-- A call of `atoi`: the value of `i` and the string in `tmp`. -/
structure AtoiCall where
  i : Nat
  tmp : List Char

/-- The string and its end have been written since the field began. -/
def AtoiCall.Own (call : AtoiCall) : Prop :=
  call.i ≠ 0 ∧ call.tmp.length = call.i

/-- The calls of `atoi` in `parse_test_list`. -/
def atoiCalls : List Char → Nat → Nat → List Char → List AtoiCall
  | [], _, i, tmp => if i ≠ 0 then [⟨i, tmp⟩] else []
  | c :: cs, p, i, tmp =>
      if c = ',' then
        if p + 1 ≥ maxArgs - 1 then [⟨i, tmp⟩] else ⟨i, tmp⟩ :: atoiCalls cs (p + 1) 0 tmp
      else if i + 1 < tmpSize then atoiCalls cs p (i + 1) (tmp.take i ++ [c])
      else []

/-! ## What is asked of it -/

/-- The non-empty fields of a list. -/
def nonEmptyFields (list : String) : List (List Char) :=
  (list.toList.splitOn ',').filter fun field => field ≠ []

/-- The list of tests holds the numbers of the fields, at most 255, and a zero. -/
structure Filled (fields : List (List Char)) (n : Nat) (out : TestList) : Prop where
  count : n = min listCap fields.length
  cells : ∀ j field, j < listCap → fields[j]? = some field → out j = atoi field
  last : out n = 0

/-- The list is read without a write outside `tmp` or `out`, its fields are in `out`
unless the result is 0, and every number is made of characters of its own field. -/
structure ReadsFields (list : String) (tmp : List Char) (out : TestList) : Prop where
  result : ∃ n out', parseTestList list.toList tmp out = .ok (n, out') ∧
    (n = 0 ∨ Filled (nonEmptyFields list) n out')
  own : ∀ call ∈ atoiCalls list.toList 0 0 tmp, call.Own

/-! ## Fields and entries -/

theorem modifyHead_nil_append (fields : List (List Char)) :
    fields.modifyHead ([] ++ ·) = fields := by
  cases fields <;> rfl

theorem entriesFrom_filter (cs : List Char) : ∀ cur : List Char,
    (entriesFrom cur cs).filter (fun e => e ≠ []) =
      ((cs.splitOn ',').modifyHead (cur ++ ·)).filter fun e => e ≠ [] := by
  simp only [List.splitOn_eq_splitOnP]
  induction cs with
  | nil =>
      intro cur
      rw [List.splitOnP_nil, entriesFrom]
      by_cases hcur : cur = []
      · simp [hcur]
      · simp [hcur]
  | cons c cs ih =>
      intro cur
      rw [List.splitOnP_cons_eq_if_modifyHead, entriesFrom]
      by_cases hc : c = ','
      · have hrest := ih []
        rw [modifyHead_nil_append] at hrest
        rw [if_pos hc, if_pos (beq_iff_eq.mpr hc), List.modifyHead_cons, List.append_nil,
          List.filter_cons, List.filter_cons, hrest]
      · rw [if_neg hc, if_neg fun h => hc (beq_iff_eq.mp h), ih, List.modifyHead_modifyHead]
        simp only [Function.comp_def, List.append_assoc, List.singleton_append]

/-- The fields that are not empty are the entries that are not. -/
theorem nonEmptyFields_eq (list : String) :
    nonEmptyFields list = (entries list).filter fun e => e ≠ [] := by
  have h := entriesFrom_filter list.toList []
  rw [modifyHead_nil_append] at h
  exact h.symm

/-- Where the entries that are read are not empty, they are the first fields. -/
theorem take_nonEmptyFields {list : String}
    (hfields : ∀ e ∈ (entries list).take listCap, e ≠ []) :
    (nonEmptyFields list).take listCap = (entries list).take listCap := by
  rw [nonEmptyFields_eq]
  have hread : ((entries list).take listCap).filter (fun e => e ≠ []) =
      (entries list).take listCap := List.filter_eq_self.mpr fun e he => by simp [hfields e he]
  have hsplit := congrArg (List.filter fun e => decide (e ≠ []))
    (List.take_append_drop listCap (entries list))
  rw [List.filter_append, hread] at hsplit
  rw [← hsplit]
  by_cases hlen : (entries list).length ≤ listCap
  · rw [List.drop_of_length_le hlen, List.filter_nil, List.append_nil, List.take_take,
      Nat.min_self]
  · have hcap : ((entries list).take listCap).length = listCap :=
      List.length_take_of_le (Nat.le_of_not_le hlen)
    rw [List.take_append_of_le_length (Nat.le_of_eq hcap.symm), List.take_take, Nat.min_self]

/-! ## The calls of `atoi` -/

/-- What is in the buffer from the beginning of the field on. -/
structure Buffered (i : Nat) (tmp : List Char) : Prop where
  room : i < tmpSize
  le : i ≤ tmp.length
  whole : i ≠ 0 → tmp.length = i

theorem Buffered.own_iff {i : Nat} {tmp : List Char} (h : Buffered i tmp) :
    AtoiCall.Own ⟨i, tmp⟩ ↔ tmp.take i ≠ [] := by
  have hlen : (tmp.take i).length = i := List.length_take_of_le h.le
  constructor
  · rintro ⟨hi, _⟩ hnil
    rw [hnil] at hlen
    exact hi hlen.symm
  · intro hne
    have hi : i ≠ 0 := by
      intro hzero
      exact hne (by rw [hzero]; rfl)
    exact ⟨hi, h.whole hi⟩

theorem Buffered.push {i : Nat} {tmp : List Char} (h : Buffered i tmp) (hroom : i + 1 < tmpSize)
    (c : Char) : Buffered (i + 1) (tmp.take i ++ [c]) ∧
      (tmp.take i ++ [c]).take (i + 1) = tmp.take i ++ [c] := by
  have hlen : (tmp.take i ++ [c]).length = i + 1 := by
    rw [List.length_append, List.length_take_of_le h.le, List.length_singleton]
  exact ⟨⟨hroom, Nat.le_of_eq hlen.symm, fun _ => hlen⟩,
    List.take_of_length_le (Nat.le_of_eq hlen)⟩

theorem Buffered.zero (tmp : List Char) : Buffered 0 tmp :=
  ⟨by decide, Nat.zero_le _, fun h => absurd rfl h⟩

/-- **The calls of `atoi`** are made with characters of the field if and only if the
entries that are read are not empty. -/
theorem atoiCalls_own_iff (cs : List Char) : ∀ {p i : Nat} {tmp : List Char},
    p < listCap → Buffered i tmp →
      EntriesFit ((entriesFrom (tmp.take i) cs).take (listCap - p)) →
      ((∀ call ∈ atoiCalls cs p i tmp, call.Own) ↔
        ∀ e ∈ (entriesFrom (tmp.take i) cs).take (listCap - p), e ≠ []) := by
  have hcap := listCap_eq
  have hargs := maxArgs_eq
  induction cs with
  | nil =>
      intro p i tmp hp hbuf _
      have hown := hbuf.own_iff
      rw [atoiCalls, entriesFrom]
      by_cases hnil : tmp.take i = []
      · have hi : i = 0 := by
          by_contra hne
          exact hown.mp ⟨hne, hbuf.whole hne⟩ hnil
        simp [hi]
      · have hi : i ≠ 0 := (hown.mpr hnil).1
        have htake : listCap - p = listCap - p - 1 + 1 := by omega
        rw [if_pos hi, if_neg hnil, htake, List.take_succ_cons, List.take_nil,
          List.forall_mem_singleton, List.forall_mem_singleton]
        exact hown
  | cons c cs ih =>
      intro p i tmp hp hbuf hfit
      have htake : listCap - p = listCap - (p + 1) + 1 := by omega
      rw [atoiCalls]
      rw [entriesFrom] at hfit ⊢
      by_cases hc : c = ','
      · rw [if_pos hc] at hfit ⊢
        rw [if_pos hc]
        rw [htake, List.take_succ_cons] at hfit ⊢
        rw [List.forall_mem_cons]
        by_cases hstop : p + 1 ≥ maxArgs - 1
        · have hzero : listCap - (p + 1) = 0 := by omega
          rw [if_pos hstop, List.forall_mem_singleton, hzero, List.take_zero, hbuf.own_iff]
          simp
        · rw [if_neg hstop, List.forall_mem_cons, hbuf.own_iff]
          exact and_congr_right fun _ => ih (by omega) (.zero tmp)
            fun e he => hfit e (List.mem_cons_of_mem _ he)
      · rw [if_neg hc] at hfit ⊢
        rw [if_neg hc]
        by_cases hroom : i + 1 < tmpSize
        · obtain ⟨hbuf', hwhole⟩ := hbuf.push hroom c
          have hrest := ih hp hbuf'
          rw [hwhole] at hrest
          rw [if_pos hroom]
          exact hrest hfit
        · obtain ⟨e, es, hhead, hle⟩ := entriesFrom_head cs (tmp.take i ++ [c]) (by simp)
          have hshort := hfit e (by
            rw [hhead, htake, List.take_succ_cons]
            exact List.mem_cons_self)
          rw [List.length_append, List.length_take_of_le hbuf.le, List.length_singleton] at hle
          omega

/-- One number and the zero after it. -/
theorem written_last (p i : Nat) (tmp : List Char) (out : TestList) :
    p + 1 = p + [AtoiCall.mk i tmp].length ∧
      (∀ q < p, Function.update (Function.update out p (atoi tmp)) (p + 1) 0 q = out q) ∧
      ∀ j call, [AtoiCall.mk i tmp][j]? = some call →
        Function.update (Function.update out p (atoi tmp)) (p + 1) 0 (p + j) =
          atoi call.tmp := by
  refine ⟨rfl, fun q hq => ?_, fun j call hcall => ?_⟩
  · rw [Function.update_of_ne (by omega), Function.update_of_ne (by omega)]
  · cases j with
    | zero =>
        cases hcall
        rw [Function.update_of_ne (by omega), Nat.add_zero, Function.update_self]
    | succ j => cases hcall

/-- **What `atoi` returns** is what is written. -/
theorem parseTestListLoop_written (out₀ : TestList) (cs : List Char) : ∀ {p i : Nat}
    {tmp : List Char} {out out' : TestList} {n : Nat}, p < listCap → i < tmpSize →
      parseTestListLoop cs p i tmp out >>= finishTestList out₀ = .ok (n, out') →
        n = p + (atoiCalls cs p i tmp).length ∧ (∀ q < p, out' q = out q) ∧
          ∀ j call, (atoiCalls cs p i tmp)[j]? = some call → out' (p + j) = atoi call.tmp := by
  have hcap := listCap_eq
  have hargs := maxArgs_eq
  induction cs with
  | nil =>
      intro p i tmp out out' n hp hi h
      have h' : finishTestList out₀ (some (p, i, tmp, out)) = .ok (n, out') := h
      rw [atoiCalls]
      by_cases hzero : i = 0
      · simp only [finishTestList, hzero, setTest_eq_ok _ 0 (show p < maxArgs by omega)] at h'
        cases h'
        rw [if_neg (not_not_intro hzero)]
        exact ⟨rfl, fun q hq => Function.update_of_ne (Nat.ne_of_lt hq) _ _,
          fun j call hcall => by cases hcall⟩
      · simp only [finishTestList, ne_eq, hzero, not_false_eq_true, if_true,
          setTest_eq_ok _ (atoi tmp) (show p < maxArgs by omega),
          setTest_eq_ok _ 0 (show p + 1 < maxArgs by omega)] at h'
        cases h'
        rw [if_pos hzero]
        exact written_last p i tmp out
  | cons c cs ih =>
      intro p i tmp out out' n hp hi h
      rw [atoiCalls]
      by_cases hc : c = ','
      · have hset := setTest_eq_ok out (atoi tmp) (show p < maxArgs by omega)
        simp only [parseTestListLoop, if_pos hc, hset] at h
        rw [if_pos hc]
        by_cases hstop : p + 1 ≥ maxArgs - 1
        · rw [if_pos hstop] at h
          have h' : finishTestList out₀ (some (p + 1, 0, tmp,
            Function.update out p (atoi tmp))) = .ok (n, out') := h
          simp only [finishTestList, setTest_eq_ok _ 0 (show p + 1 < maxArgs by omega)] at h'
          cases h'
          rw [if_pos hstop]
          exact written_last p i tmp out
        · rw [if_neg hstop] at h
          obtain ⟨hcount, hbefore, hcells⟩ := ih (by omega) (by decide) h
          rw [if_neg hstop]
          refine ⟨?_, fun q hq => ?_, fun j call hcall => ?_⟩
          · rw [hcount, List.length_cons]
            omega
          · rw [hbefore q (by omega), Function.update_of_ne (by omega)]
          · cases j with
            | zero =>
                cases hcall
                rw [Nat.add_zero, hbefore p (Nat.lt_succ_self p), Function.update_self]
            | succ j =>
                have hcell := hcells j call hcall
                rwa [Nat.add_right_comm] at hcell
      · have hnot : ¬ i ≥ tmpSize := Nat.not_le_of_lt hi
        rw [if_neg hc]
        by_cases hroom : i + 1 < tmpSize
        · simp only [parseTestListLoop, if_neg hc, if_neg hnot, if_pos hroom] at h
          rw [if_pos hroom]
          exact ih hp hroom h
        · simp only [parseTestListLoop, if_neg hc, if_neg hnot, if_neg hroom] at h
          cases h

/-- Each number in the list is that of a call, in order. -/
theorem parseTestList_written {list tmp : List Char} {out out' : TestList} {n : Nat}
    (h : parseTestList list tmp out = .ok (n, out')) :
    n = (atoiCalls list 0 0 tmp).length ∧
      ∀ j call, (atoiCalls list 0 0 tmp)[j]? = some call → out' j = atoi call.tmp := by
  rw [parseTestList_eq] at h
  obtain ⟨hcount, _, hcells⟩ := parseTestListLoop_written out list (by decide) (by decide) h
  rw [Nat.zero_add] at hcount
  refine ⟨hcount, fun j call hcall => ?_⟩
  have hcell := hcells j call hcall
  rwa [Nat.zero_add] at hcell

theorem parseTestList_two : ∃ r, parseTestList "7,12".toList (List.replicate 8 'x')
    (fun _ => 0) = .ok r ∧ r.1 = 2 ∧ r.2 1 = 12 := by
  obtain ⟨r, hr⟩ : ∃ r, parseTestList "7,12".toList (List.replicate 8 'x') (fun _ => 0) = .ok r :=
    ⟨_, rfl⟩
  obtain ⟨hcount, hcells⟩ := parseTestList_written hr
  exact ⟨r, hr, hcount, hcells 1 _ rfl⟩

/-! ## The fields -/

/--
**The fields of a list of tests.**  For every list and whatever memory holds, the list
is read as it is meant to be if and only if each of the first 255 fields, an empty one
at the end aside, has between one and seven characters.
-/
theorem readsFields_iff (list : String) (tmp : List Char) (out : TestList) :
    ReadsFields list tmp out ↔
      ∀ e ∈ (entries list).take listCap, e ≠ [] ∧ e.length < tmpSize := by
  obtain ⟨hlong, hshort⟩ := parseTestList_spec list tmp out
  have howns := @atoiCalls_own_iff list.toList 0 0 tmp (by decide) (.zero tmp)
  rw [Nat.sub_zero] at howns
  constructor
  · rintro ⟨⟨n, out', hrun, _⟩, hown⟩
    have hfit : EntriesFit ((entries list).take listCap) := by
      by_contra hnot
      rw [hlong hnot] at hrun
      cases hrun
    exact fun e he => ⟨(howns hfit).mp hown e he, hfit e he⟩
  · intro hentries
    have hfit : EntriesFit ((entries list).take listCap) := fun e he => (hentries e he).2
    have hne : ∀ e ∈ (entries list).take listCap, e ≠ [] := fun e he => (hentries e he).1
    obtain ⟨out', hrun, hwritten⟩ := hshort hfit
    have htake := take_nonEmptyFields hne
    have hcount : min listCap (nonEmptyFields list).length =
        min listCap (entries list).length := by
      have hlen := congrArg List.length htake
      rwa [List.length_take, List.length_take] at hlen
    refine ⟨⟨_, out', hrun, .inr ⟨hcount.symm, fun j field hj hfield => ?_, ?_⟩⟩,
      (howns hfit).mpr hne⟩
    · have hentry : (entries list)[j]? = some field := by
        rw [← List.getElem?_take_of_lt hj, ← htake, List.getElem?_take_of_lt hj, hfield]
      have hmem : field ∈ (entries list).take listCap := by
        rw [← List.getElem?_take_of_lt hj] at hentry
        exact List.mem_of_getElem? hentry
      have hcell := hwritten.cells j field (by omega) hentry (hne field hmem)
      rwa [Nat.zero_add] at hcell
    · have hlast := hwritten.last
      rwa [Nat.zero_add] at hlast

/-- The first field of `",7"` is empty: `atoi` is given what was in memory.  A field of
eight characters ends outside the buffer. -/
theorem emptyField_left_over :
    ¬ ReadsFields ",7" ['5'] (fun _ => 0) ∧ ¬ ReadsFields "12345678" [] (fun _ => 0) := by
  constructor
  · rintro ⟨_, hown⟩
    exact (hown ⟨0, ['5']⟩ List.mem_cons_self).1 rfl
  · rintro ⟨⟨n, out', hrun, _⟩, _⟩
    have hfault : parseTestList "12345678".toList [] (fun _ => 0) = .error .outOfBounds := by
      rfl
    rw [hfault] at hrun
    cases hrun

end Blts.Cli
