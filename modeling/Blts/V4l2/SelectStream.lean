import Mathlib.Data.List.Count
import Blts.Lib.Loop

/-!
# Selecting the inputs and outputs of a video device

Two test cases go through the outputs and the inputs of a device, select each of them, and
stream from the inputs.  The loop has no bound of its own.  It ends where the device has no
output of the loop's index; but the index is also where `get_output` puts the current
selection of the device, and that is the loop's index only if the device has taken it.

A device that rejects an index is asked for the same index again, and a device that rejects
index 0 with another output selected is not asked for those up to the selected one.
-/

namespace Blts.V4l2

open Blts.Lib

/-! ## The two loops -/

inductive IoctlErrno where
  | einval
  | other
  deriving DecidableEq

/-- A device with inputs or outputs, as the calls of the loops see it. -/
structure SelectorDriver (σ : Type*) where
  openDevice : σ → Bool
  has : σ → Nat → Except IoctlErrno Unit
  select : σ → Nat → σ × Except IoctlErrno Unit
  get : σ → Except IoctlErrno Nat
  runStream : σ → σ × Bool

section Loops

variable {σ : Type*} (dev : SelectorDriver σ)

/-- `force_testing`: index 0 of a device that has none. -/
def forceTesting (s : σ) : Int × σ :=
  match dev.select s 0 with
  | (s', .error .other) => (-1, s')
  | (s', _) =>
      match dev.get s' with
      | .error .other => (-1, s')
      | _ => (0, s')

/-- A lap of the loop over the outputs. -/
def selectOutputLap : σ × Nat → Lap (σ × Nat) (Int × σ)
  | (s, i) =>
      match dev.has s i with
      | .error e =>
          if i = 0 then .leave (forceTesting dev s)
          else
            match e with
            | .einval => .leave (0, s)
            | .other => .leave (-1, s)
      | .ok () =>
          match dev.select s i with
          | (s', .error .other) => .leave (-1, s')
          | (s', _) =>
              match dev.get s' with
              | .ok index => .again (s', index + 1)
              | .error .einval => .again (s', i + 1)
              | .error .other => .leave (-1, s')

/-- What is left to do in a lap over the inputs when the input has been tried. -/
def getInputLap (s : σ) : Lap (σ × Nat) (Int × σ) :=
  match dev.get s with
  | .ok index => .again (s, index + 1)
  | .error _ => .leave (-1, s)

/-- A lap of the loop over the inputs.  A selected input is streamed from, with the device
closed and opened again. -/
def selectInputLap : σ × Nat → Lap (σ × Nat) (Int × σ)
  | (s, i) =>
      match dev.has s i with
      | .error e =>
          if i = 0 then .leave (forceTesting dev s)
          else
            match e with
            | .einval => .leave (0, s)
            | .other => .leave (-1, s)
      | .ok () =>
          match dev.select s i with
          | (s', .error _) => getInputLap dev s'
          | (s', .ok ()) =>
              match dev.runStream s' with
              | (s'', false) => .leave (-1, s'')
              | (s'', true) =>
                  if dev.openDevice s'' then getInputLap dev s'' else .leave (-1, s'')

/-- What `v4l2_select_output_stream` returns within so many laps. -/
def v4l2SelectOutputStream (laps : Nat) (s : σ) : Option (Int × σ) :=
  if dev.openDevice s then Lap.run (selectOutputLap dev) laps (s, 0) else some (-1, s)

/-- What `v4l2_select_input_stream` returns within so many laps. -/
def v4l2SelectInputStream (laps : Nat) (s : σ) : Option (Int × σ) :=
  if dev.openDevice s then Lap.run (selectInputLap dev) laps (s, 0) else some (-1, s)

end Loops

/-! ## Devices that accept or reject a selection -/

/-- A device with `count` inputs or outputs.  Whether it takes a selection, and whether it
streams from the selected input, may depend on all the selections tried before. -/
structure SelectingDevice where
  count : Nat
  accepts : List Nat → Nat → Bool
  streams : List Nat → Nat → Bool
  selected : Nat
  selected_lt : 0 < count → selected < count

/-- The current selection, and the selections that have been tried. -/
structure Selection where
  selected : Nat
  tried : List Nat

namespace SelectingDevice

variable (d : SelectingDevice)

def select (s : Selection) (i : Nat) : Selection × Except IoctlErrno Unit :=
  if i < d.count ∧ d.accepts s.tried i then (⟨i, s.tried ++ [i]⟩, .ok ())
  else (⟨s.selected, s.tried ++ [i]⟩, .error .einval)

def driver : SelectorDriver Selection where
  openDevice _ := true
  has _ i := if i < d.count then .ok () else .error .einval
  select := d.select
  get s := if s.selected < d.count then .ok s.selected else .error .einval
  runStream s := (s, d.streams s.tried s.selected)

def start : Selection := ⟨d.selected, []⟩

/-- The selections tried hold each index once. -/
def EachOnce (s : Selection) : Prop := ∀ i < d.count, s.tried.count i = 1

/-- The loop over the outputs returns, and has tried each of them once. -/
def OutputsTried : Prop :=
  ∃ laps ret s, v4l2SelectOutputStream d.driver laps d.start = some (ret, s) ∧ d.EachOnce s

/-- The loop over the inputs returns, and has tried each of them once. -/
def InputsTried : Prop :=
  ∃ laps ret s, v4l2SelectInputStream d.driver laps d.start = some (ret, s) ∧ d.EachOnce s

/-- In the order of the indices each one is taken.  Index 0 need not be, if it is the one
that is selected. -/
def TakesInOrder : Prop :=
  ∀ i < d.count, d.accepts (List.range i) i ∨ (i = 0 ∧ d.selected = 0)

/-- Each input that is taken in this order can be streamed from, the last one apart. -/
def StreamsInOrder : Prop :=
  ∀ i, i + 1 < d.count → d.accepts (List.range i) i → d.streams (List.range (i + 1)) i

/-! ## A lap on such a device -/

/-- The laps of a loop over the indices, on a device with at least one.  A selection that is
taken and then found bad (`ok`) is the last one. -/
structure Walk (body : Selection × Nat → Lap (Selection × Nat) (Int × Selection))
    (ok : List Nat → Nat → Bool) : Prop where
  past : ∀ s i, s.selected < d.count → d.count ≤ i → body (s, i) = .leave (0, s)
  taken : ∀ s i, i < d.count → d.accepts s.tried i → ok (s.tried ++ [i]) i →
    body (s, i) = .again (⟨i, s.tried ++ [i]⟩, i + 1)
  bad : ∀ s i, i < d.count → d.accepts s.tried i → ¬ok (s.tried ++ [i]) i →
    body (s, i) = .leave (-1, ⟨i, s.tried ++ [i]⟩)
  rejected : ∀ s i, s.selected < d.count → i < d.count → ¬d.accepts s.tried i →
    body (s, i) = .again (⟨s.selected, s.tried ++ [i]⟩, s.selected + 1)

theorem select_accepted {s : Selection} {i : Nat} (hi : i < d.count) (ha : d.accepts s.tried i) :
    d.driver.select s i = (⟨i, s.tried ++ [i]⟩, .ok ()) := by
  simp only [driver, select, hi, ha, and_self, if_true]

theorem select_rejected {s : Selection} {i : Nat} (ha : ¬d.accepts s.tried i) :
    d.driver.select s i = (⟨s.selected, s.tried ++ [i]⟩, .error .einval) := by
  simp only [driver, select, ha, and_false, if_false, Bool.false_eq_true]

theorem has_of_lt {s : Selection} {i : Nat} (hi : i < d.count) : d.driver.has s i = .ok () := by
  simp only [driver, hi, if_true]

theorem has_of_le {s : Selection} {i : Nat} (hi : d.count ≤ i) :
    d.driver.has s i = .error .einval := by
  simp only [driver, Nat.not_lt.mpr hi, if_false]

theorem get_of_lt {s : Selection} (hs : s.selected < d.count) :
    d.driver.get s = .ok s.selected := by
  simp only [driver, hs, if_true]

theorem outputWalk : d.Walk (selectOutputLap d.driver) (fun _ _ => true) where
  past s i hs hi := by
    have h0 : i ≠ 0 := by omega
    simp only [selectOutputLap, d.has_of_le hi, h0, if_false]
  taken s i hi ha _ := by
    simp only [selectOutputLap, d.has_of_lt hi, d.select_accepted hi ha,
      d.get_of_lt (s := ⟨i, s.tried ++ [i]⟩) hi]
  bad s i _ _ hok := absurd rfl hok
  rejected s i hs hi ha := by
    simp only [selectOutputLap, d.has_of_lt hi, d.select_rejected ha,
      d.get_of_lt (s := ⟨s.selected, s.tried ++ [i]⟩) hs]

theorem inputWalk : d.Walk (selectInputLap d.driver) d.streams where
  past s i hs hi := by
    have h0 : i ≠ 0 := by omega
    simp only [selectInputLap, d.has_of_le hi, h0, if_false]
  taken s i hi ha hok := by
    have hrun : d.driver.runStream ⟨i, s.tried ++ [i]⟩ = (⟨i, s.tried ++ [i]⟩, true) := by
      simp only [driver, hok]
    have hopen : d.driver.openDevice ⟨i, s.tried ++ [i]⟩ = true := rfl
    simp only [selectInputLap, d.has_of_lt hi, d.select_accepted hi ha, hrun, hopen, if_true,
      getInputLap, d.get_of_lt (s := ⟨i, s.tried ++ [i]⟩) hi]
  bad s i hi ha hok := by
    have hrun : d.driver.runStream ⟨i, s.tried ++ [i]⟩ = (⟨i, s.tried ++ [i]⟩, false) := by
      simp only [driver, Bool.not_eq_true _ ▸ hok]
    simp only [selectInputLap, d.has_of_lt hi, d.select_accepted hi ha, hrun]
  rejected s i hs hi ha := by
    simp only [selectInputLap, d.has_of_lt hi, d.select_rejected ha, getInputLap,
      d.get_of_lt (s := ⟨s.selected, s.tried ++ [i]⟩) hs]

/-! ## The whole loop -/

namespace Walk

variable {d} {body : Selection × Nat → Lap (Selection × Nat) (Int × Selection)}
  {ok : List Nat → Nat → Bool} {s t : Selection} {i j : Nat} {ret : Int}

/-- A lap tries its index, and the selection after it is the index or the one before. -/
theorem lap_cases (w : d.Walk body ok) (hs : s.selected < d.count) (i : Nat) :
    (d.count ≤ i ∧ body (s, i) = .leave (0, s)) ∨
      ∃ sel < d.count, (sel = i ∨ sel = s.selected) ∧
        (body (s, i) = .again (⟨sel, s.tried ++ [i]⟩, sel + 1) ∨
          body (s, i) = .leave (-1, ⟨sel, s.tried ++ [i]⟩)) := by
  rcases Nat.lt_or_ge i d.count with hi | hi
  · right
    by_cases ha : d.accepts s.tried i
    · refine ⟨i, hi, .inl rfl, ?_⟩
      by_cases hok : ok (s.tried ++ [i]) i
      · exact .inl (w.taken s i hi ha hok)
      · exact .inr (w.bad s i hi ha hok)
    · exact ⟨s.selected, hs, .inr rfl, .inl (w.rejected s i hs hi ha)⟩
  · exact .inl ⟨hi, w.past s i hs hi⟩

/-- What a lap keeps, whichever way it goes, holds in the end. -/
theorem ends_invariant (w : d.Walk body ok) (Inv : Selection → Nat → Prop)
    (post : Selection → Prop) (hpost : ∀ s i, Inv s i → post s)
    (hlap : ∀ s i sel, Inv s i → s.selected < d.count → sel < d.count →
      sel = i ∨ sel = s.selected → Inv ⟨sel, s.tried ++ [i]⟩ (sel + 1))
    (hs : s.selected < d.count) (hinv : Inv s i) (hends : Lap.Ends body (s, i) (ret, t)) :
    post t := by
  refine Lap.Ends.invariant (fun p => p.1.selected < d.count ∧ Inv p.1 p.2)
    (fun r => post r.2) ?_ ?_ ⟨hs, hinv⟩ hends
  · rintro ⟨s, i⟩ p ⟨hs, hinv⟩ hb
    rcases w.lap_cases hs i with ⟨-, hl⟩ | ⟨sel, hsel, hor, hl | hl⟩
    · cases hl.symm.trans hb
    · cases hl.symm.trans hb
      exact ⟨hsel, hlap s i sel hinv hs hsel hor⟩
    · cases hl.symm.trans hb
  · rintro ⟨s, i⟩ r ⟨hs, hinv⟩ hb
    rcases w.lap_cases hs i with ⟨-, hl⟩ | ⟨sel, hsel, hor, hl | hl⟩
    · cases hl.symm.trans hb
      exact hpost s i hinv
    · cases hl.symm.trans hb
    · cases hl.symm.trans hb
      exact hpost _ _ (hlap s i sel hinv hs hsel hor)

/-- The selections tried are never taken back. -/
theorem tried_prefix (w : d.Walk body ok) (hs : s.selected < d.count)
    (hends : Lap.Ends body (s, i) (ret, t)) : s.tried <+: t.tried :=
  w.ends_invariant (fun u _ => s.tried <+: u.tried) (fun u => s.tried <+: u.tried)
    (fun _ _ h => h) (fun u _ _ h _ _ _ => h.trans (List.prefix_append u.tried _)) hs
    (List.prefix_refl _) hends

/-- Past index 1, with another selection than index 0, the loop does not come back to it. -/
theorem one_not_mem (w : d.Walk body ok) (hs : s.selected < d.count) (hpos : 0 < s.selected)
    (hi : 1 < i) (hmem : 1 ∉ s.tried) (hends : Lap.Ends body (s, i) (ret, t)) : 1 ∉ t.tried := by
  refine w.ends_invariant (fun u i => 0 < u.selected ∧ 1 < i ∧ 1 ∉ u.tried)
    (fun u => 1 ∉ u.tried) (fun _ _ h => h.2.2) ?_ hs ⟨hpos, hi, hmem⟩ hends
  rintro u i sel ⟨hu, hi, hmem⟩ - - hsel
  have hpos : 0 < sel := by
    rcases hsel with rfl | rfl
    · exact Nat.zero_lt_of_lt hi
    · exact hu
  refine ⟨hpos, Nat.succ_lt_succ hpos, ?_⟩
  rw [List.mem_append, List.mem_singleton]
  rintro (h | h)
  · exact hmem h
  · omega

/-- A rejected index whose predecessor is selected is tried again. -/
theorem two_le_count (w : d.Walk body ok) (hi : j + 1 < d.count)
    (ha : ¬d.accepts s.tried (j + 1)) (hsel : s.selected = j)
    (hends : Lap.Ends body (s, j + 1) (ret, t)) : 2 ≤ t.tried.count (j + 1) := by
  have hs : s.selected < d.count := by omega
  have hnext := (Lap.ends_again_iff (w.rejected s (j + 1) hs hi ha)).mp hends
  rw [hsel] at hnext
  have hj : j < d.count := by omega
  have htwice : (s.tried ++ [j + 1]) ++ [j + 1] <+: t.tried := by
    rcases w.lap_cases (s := ⟨j, s.tried ++ [j + 1]⟩) hj (j + 1) with
      ⟨hle, -⟩ | ⟨sel, hlt, -, hl | hl⟩
    · omega
    · exact w.tried_prefix (s := ⟨sel, _⟩) hlt ((Lap.ends_again_iff hl).mp hnext)
    · cases (Lap.ends_leave_iff hl).mp hnext
      exact List.prefix_refl _
  refine Nat.le_trans ?_ (htwice.sublist.count_le (j + 1))
  rw [List.count_append, List.count_append, List.count_singleton_self]
  omega

/-- A device that never takes an index keeps the loop at it for ever. -/
theorem not_ends_of_rejected (w : d.Walk body ok) (hi : j + 1 < d.count)
    (ha : ∀ tried, ¬d.accepts tried (j + 1)) (hsel : s.selected = j) :
    ¬Lap.Ends body (s, j + 1) (ret, t) := by
  refine Lap.not_ends (fun p => p.1.selected = j ∧ p.2 = j + 1) ?_ ⟨hsel, rfl⟩
  rintro ⟨u, _⟩ ⟨hu, rfl⟩
  have hlt : u.selected < d.count := by rw [hu]; omega
  refine ⟨_, w.rejected u (j + 1) hlt hi (ha _), hu, ?_⟩
  rw [hu]

/-- An index taken in order: the loop goes on with the next one, where there is one. -/
theorem taken_step (w : d.Walk body ok) (hi : i + 1 < d.count)
    (ha : d.accepts (List.range i) i) (htried : s.tried = List.range i) (honce : d.EachOnce t)
    (hends : Lap.Ends body (s, i) (ret, t)) :
    ok (List.range (i + 1)) i ∧ Lap.Ends body (⟨i, List.range (i + 1)⟩, i + 1) (ret, t) := by
  have hlt : i < d.count := by omega
  rw [← htried] at ha
  rw [List.range_succ, ← htried]
  by_cases hok : ok (s.tried ++ [i]) i
  · exact ⟨hok, (Lap.ends_again_iff (w.taken s i hlt ha hok)).mp hends⟩
  · cases (Lap.ends_leave_iff (w.bad s i hlt ha hok)).mp hends
    have hmem : i + 1 ∈ s.tried ++ [i] :=
      List.count_pos_iff.mp ((honce (i + 1) hi).symm ▸ Nat.one_pos)
    rw [htried, ← List.range_succ, List.mem_range] at hmem
    omega

/-- From each index on, in order. -/
theorem takes_of_ends (w : d.Walk body ok) (honce : d.EachOnce t)
    (hends : Lap.Ends body (d.start, 0) (ret, t)) : ∀ i < d.count,
      (d.accepts (List.range i) i ∨ (i = 0 ∧ d.selected = 0)) ∧
        (i + 1 < d.count → (d.accepts (List.range i) i → ok (List.range (i + 1)) i) ∧
          Lap.Ends body (⟨i, List.range (i + 1)⟩, i + 1) (ret, t)) := by
  intro i
  induction i with
  | zero =>
      intro hi
      have hsel : d.start.selected < d.count := d.selected_lt hi
      by_cases ha : d.accepts [] 0
      · refine ⟨.inl ha, fun hnext => ?_⟩
        obtain ⟨hok, hrest⟩ := w.taken_step hnext ha rfl honce hends
        exact ⟨fun _ => hok, hrest⟩
      · have hrest := (Lap.ends_again_iff (w.rejected d.start 0 hsel hi ha)).mp hends
        have hzero : d.selected = 0 := by
          by_contra hne
          have hpos : 0 < d.selected := Nat.pos_of_ne_zero hne
          have hone := honce 1 (by have := d.selected_lt hi; omega)
          have hmem : 1 ∉ t.tried := w.one_not_mem (s := ⟨d.selected, [] ++ [0]⟩) hsel hpos
            (Nat.succ_lt_succ hpos) (List.not_mem_cons_of_ne_of_not_mem Nat.one_ne_zero
              List.not_mem_nil) hrest
          rw [List.count_eq_zero_of_not_mem hmem] at hone
          omega
        refine ⟨.inr ⟨rfl, hzero⟩, fun _ => ⟨fun h => absurd h ha, ?_⟩⟩
        have hstart : d.start.selected = 0 := hzero
        rw [hstart] at hrest
        exact hrest
  | succ i ih =>
      intro hi
      obtain ⟨-, hrest⟩ := ih (by omega)
      obtain ⟨-, hends'⟩ := hrest hi
      by_cases ha : d.accepts (List.range (i + 1)) (i + 1)
      · refine ⟨.inl ha, fun hnext => ?_⟩
        obtain ⟨hok, hnext'⟩ := w.taken_step hnext ha rfl honce hends'
        exact ⟨fun _ => hok, hnext'⟩
      · have htwo := w.two_le_count (s := ⟨i, List.range (i + 1)⟩) hi ha rfl hends'
        have hone := honce (i + 1) hi
        omega

/-- With every index taken in order the loop tries the rest of them, from index `j + 1`. -/
theorem ends_of_takes (w : d.Walk body ok) (htakes : d.TakesInOrder)
    (hok : ∀ i, i + 1 < d.count → d.accepts (List.range i) i → ok (List.range (i + 1)) i) :
    ∀ k j, j + 1 + k = d.count → ∃ ret t,
      Lap.Ends body (⟨j, List.range (j + 1)⟩, j + 1) (ret, t) ∧ t.tried = List.range d.count := by
  intro k
  induction k with
  | zero =>
      intro j hj
      have hsel : j < d.count := by omega
      refine ⟨0, _, Lap.ends_of_leave (w.past ⟨j, _⟩ (j + 1) hsel (by omega)), ?_⟩
      rw [← hj]
  | succ k ih =>
      intro j hj
      have hi : j + 1 < d.count := by omega
      have ha : d.accepts (List.range (j + 1)) (j + 1) := by
        rcases htakes (j + 1) hi with ha | ⟨h, -⟩
        · exact ha
        · omega
      have hrange : List.range (j + 1) ++ [j + 1] = List.range (j + 1 + 1) :=
        List.range_succ.symm
      by_cases hb : ok (List.range (j + 1) ++ [j + 1]) (j + 1)
      · obtain ⟨ret, t, hends, ht⟩ := ih (j + 1) (by omega)
        have hlap := w.taken ⟨j, List.range (j + 1)⟩ (j + 1) hi ha hb
        rw [hrange] at hlap
        exact ⟨ret, t, (Lap.ends_again_iff hlap).mpr hends, ht⟩
      · have hlap := w.bad ⟨j, List.range (j + 1)⟩ (j + 1) hi ha hb
        rw [hrange] at hlap hb
        have hlast : ¬j + 1 + 1 < d.count := fun h => hb (hok (j + 1) h ha)
        refine ⟨-1, _, Lap.ends_of_leave hlap, ?_⟩
        rw [show d.count = j + 1 + 1 by omega]

theorem eachOnce_of_tried (h : t.tried = List.range d.count) : d.EachOnce t := by
  intro i hi
  rw [h]
  exact (List.nodup_range.count).trans (if_pos (List.mem_range.mpr hi))

/-- The loop ends with every index tried once exactly where each one is taken in order. -/
theorem eachOnce_iff (w : d.Walk body ok) (hpos : 0 < d.count) :
    (∃ ret t, Lap.Ends body (d.start, 0) (ret, t) ∧ d.EachOnce t) ↔
      d.TakesInOrder ∧
        ∀ i, i + 1 < d.count → d.accepts (List.range i) i → ok (List.range (i + 1)) i := by
  constructor
  · rintro ⟨ret, t, hends, honce⟩
    have hall := w.takes_of_ends honce hends
    exact ⟨fun i hi => (hall i hi).1, fun i hi => ((hall i (by omega)).2 hi).1⟩
  · rintro ⟨htakes, hok⟩
    obtain ⟨k, hk⟩ := Nat.exists_eq_add_of_le (Nat.succ_le_of_lt hpos)
    obtain ⟨ret, t, hends, ht⟩ := w.ends_of_takes htakes hok k 0 (by omega)
    by_cases ha : d.accepts [] 0
    · by_cases hb : ok [0] 0
      · have hlap := w.taken d.start 0 hpos ha hb
        exact ⟨ret, t, (Lap.ends_again_iff hlap).mpr hends, eachOnce_of_tried ht⟩
      · have hone : ¬1 < d.count := fun h => hb (hok 0 h ha)
        refine ⟨-1, _, Lap.ends_of_leave (w.bad d.start 0 hpos ha hb), eachOnce_of_tried ?_⟩
        rw [show d.count = 1 by omega]
        rfl
    · have hzero : d.start.selected = 0 := by
        rcases htakes 0 hpos with h | ⟨-, h⟩
        · exact absurd h ha
        · exact h
      have hlap := w.rejected d.start 0 (d.selected_lt hpos) hpos ha
      rw [hzero] at hlap
      exact ⟨ret, t, (Lap.ends_again_iff hlap).mpr hends, eachOnce_of_tried ht⟩

end Walk

/-- A loop that leaves at once tries each of no indices once. -/
theorem outputsTried_iff_ends :
    d.OutputsTried ↔
      ∃ ret t, Lap.Ends (selectOutputLap d.driver) (d.start, 0) (ret, t) ∧ d.EachOnce t := by
  constructor
  · rintro ⟨laps, ret, t, hrun, honce⟩
    exact ⟨ret, t, ⟨laps, hrun⟩, honce⟩
  · rintro ⟨ret, t, ⟨laps, hrun⟩, honce⟩
    exact ⟨laps, ret, t, hrun, honce⟩

theorem inputsTried_iff_ends :
    d.InputsTried ↔
      ∃ ret t, Lap.Ends (selectInputLap d.driver) (d.start, 0) (ret, t) ∧ d.EachOnce t := by
  constructor
  · rintro ⟨laps, ret, t, hrun, honce⟩
    exact ⟨ret, t, ⟨laps, hrun⟩, honce⟩
  · rintro ⟨ret, t, ⟨laps, hrun⟩, honce⟩
    exact ⟨laps, ret, t, hrun, honce⟩

/-- A device that has none is left after index 0 has been tried. -/
theorem eachOnce_of_none (h : d.count = 0) (t : Selection) : d.EachOnce t := by
  intro i hi
  omega

/--
**Each input and output once.**  The loops over the outputs and over the inputs come to an
end with each index tried once, exactly where the device takes every index in order (index 0
may be rejected if it is selected already) and, for the inputs, streams from each of them but
the last.
-/
theorem eachTried_iff :
    (d.OutputsTried ↔ d.TakesInOrder) ∧ (d.InputsTried ↔ d.TakesInOrder ∧ d.StreamsInOrder) := by
  rw [outputsTried_iff_ends, inputsTried_iff_ends]
  rcases Nat.eq_zero_or_pos d.count with hzero | hpos
  · have htakes : d.TakesInOrder := fun i hi => by omega
    have hstreams : d.StreamsInOrder := fun i hi => by omega
    have hhas : d.driver.has d.start 0 = .error .einval := d.has_of_le (by omega)
    have hout : selectOutputLap d.driver (d.start, 0) =
        .leave (forceTesting d.driver d.start) := by
      simp only [selectOutputLap, hhas, if_true]
    have hin : selectInputLap d.driver (d.start, 0) =
        .leave (forceTesting d.driver d.start) := by
      simp only [selectInputLap, hhas, if_true]
    exact ⟨iff_of_true ⟨_, _, Lap.ends_of_leave hout, d.eachOnce_of_none hzero _⟩ htakes,
      iff_of_true ⟨_, _, Lap.ends_of_leave hin, d.eachOnce_of_none hzero _⟩
        ⟨htakes, hstreams⟩⟩
  · refine ⟨?_, d.inputWalk.eachOnce_iff hpos⟩
    rw [d.outputWalk.eachOnce_iff hpos]
    exact and_iff_left fun _ _ _ => rfl

/-- Two outputs, of which the second one is in use elsewhere. -/
def secondBusy : SelectingDevice where
  count := 2
  accepts _ i := i == 0
  streams _ _ := true
  selected := 0
  selected_lt h := h

/-- The loops do not come to an end: index 1 is tried again and again. -/
theorem not_tried_secondBusy : ¬secondBusy.OutputsTried ∧ ¬secondBusy.InputsTried := by
  have hbusy : ∀ tried, ¬secondBusy.accepts tried (0 + 1) := fun _ => Bool.false_ne_true
  rw [outputsTried_iff_ends, inputsTried_iff_ends]
  constructor
  · rintro ⟨ret, t, hends, -⟩
    have hfirst := secondBusy.outputWalk.taken secondBusy.start 0 (by decide) rfl rfl
    exact secondBusy.outputWalk.not_ends_of_rejected (by decide) hbusy rfl
      ((Lap.ends_again_iff hfirst).mp hends)
  · rintro ⟨ret, t, hends, -⟩
    have hfirst := secondBusy.inputWalk.taken secondBusy.start 0 (by decide) rfl rfl
    exact secondBusy.inputWalk.not_ends_of_rejected (by decide) hbusy rfl
      ((Lap.ends_again_iff hfirst).mp hends)

end SelectingDevice

end Blts.V4l2
