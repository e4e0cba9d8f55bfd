import Mathlib.Data.List.Basic
import Blts.Input.TouchEvents

/-!
# The test of two touches

`input_multi_touch_test` collects the contacts of a report in a table of 64 entries and looks at the
table when it has read a chunk of events, if the last report in it has two or more contacts.  What
else the chunk has is in the table by then, nothing keeps the index below 64, and the verdict
counts the contacts in the two areas without telling them apart.  Where a report of two or more
contacts is the last thing that is read, the test is right if and only if no report has more
contacts than the table, and two contacts in the areas are never in the same one
(`multiTouchRight_iff`).
-/

namespace Blts.Input

open Lib

/-! ## The code -/

/-- `struct mt_touchpoint` -/
structure MtTouchpoint where
  id : Int
  x : Int
  y : Int
  deriving DecidableEq

structure MtState where
  tps : List MtTouchpoint
  numTps : Nat
  currentTp : Nat
  gotX : Bool
  gotY : Bool
  x : Int
  y : Int

def MtState.initial : MtState where
  tps := List.replicate 64 ⟨0, 0, 0⟩
  numTps := 0
  currentTp := 0
  gotX := false
  gotY := false
  x := -1
  y := -1

section

variable (swapXy : Bool) (axisX axisY : InputAbsinfo)

/-- The axis across the screen, and the one down the screen. -/
def screenAxes : InputAbsinfo × InputAbsinfo :=
  if swapXy then (axisY, axisX) else (axisX, axisY)

/-- An entry of the table. -/
def touchpoint (id : Nat) (x y : Int) : Option MtTouchpoint := do
  let distX ← axisDistance axisX x
  let distY ← axisDistance axisY y
  return if swapXy then { id := id, x := distY, y := distX } else { id := id, x := distX, y := distY }

/-- The entry at `current_tp` is written.  There is no test of the index; an entry behind the table
is not one of it. -/
def storeTouchpoint (s : MtState) (tp : MtTouchpoint) : Option MtState :=
  if s.currentTp < s.tps.length then
    some { s with
      tps := s.tps.set s.currentTp tp
      currentTp := s.currentTp + 1
      gotX := false
      gotY := false }
  else
    none

/-- A round of the loop over the events of a chunk. -/
def mtEvent (s : MtState) (e : InputEvent) : Option MtState :=
  if e.is evAbs absMtPositionX then
    some { s with x := e.value, gotX := true }
  else if e.is evAbs absMtPositionY then
    some { s with y := e.value, gotY := true }
  else if e.is evSyn synMtReport then
    if s.gotX && s.gotY then do
      let tp ← touchpoint swapXy axisX axisY s.currentTp s.x s.y
      storeTouchpoint s tp
    else some s
  else if e.is evSyn synReport then
    some { s with numTps := s.currentTp, currentTp := 0 }
  else
    some s

/-- The loop over the reads within thirty seconds: each returns an error, or events, or none. -/
def mtLoop (s : MtState) : List (Except Int (List InputEvent)) → Option (Except Int MtState)
  | [] => some (.ok s)
  | .error rb :: _ => some (.error rb)
  | .ok [] :: reads => mtLoop s reads
  | .ok (e :: chunk) :: reads => do
    let s ← (e :: chunk).foldlM (mtEvent swapXy axisX axisY) s
    if 2 ≤ s.numTps then some (.ok s) else mtLoop s reads

end

/-- Strictly inside the upper left area. -/
def inUpperLeft (w h x y : Int) : Bool :=
  0 < x && 0 < y && x < w.tdiv 2 && y < h.tdiv 2

/-- Strictly inside the lower right area. -/
def inLowerRight (w h x y : Int) : Bool :=
  w.tdiv 2 < x && h.tdiv 2 < y && x < w && y < h

/-- The verdict on the table. -/
def mtVerdict (w h : Int) (s : MtState) : Int :=
  if s.numTps < 2 then
    -1
  else
    (s.tps.take s.numTps).foldl (fun ret tp =>
      if inUpperLeft w h tp.x tp.y then ret + 1
      else if inLowerRight w h tp.x tp.y then ret + 1
      else ret) (-2)

/-- `ENODEV` -/
def enodev : Int := 19

/-- `input_multi_touch_test`, on a device that can be opened and grabbed. -/
def inputMultiTouchTest (dev : TouchDevice) (swapXy : Bool)
    (reads : List (Except Int (List InputEvent))) : Option Int := do
  match ← getAbsoluteLimits dev with
  | .error ret => return ret
  | .ok (axisX, axisY, mt) =>
    if !mt then
      return -enodev
    let w ← cInt (screenAxes swapXy axisX axisY).1.range
    let h ← cInt (screenAxes swapXy axisX axisY).2.range
    match ← mtLoop swapXy axisX axisY .initial reads with
    | .error rb => return rb
    | .ok s => return mtVerdict w h s

/-! ## Contacts and reports -/

/-- The coordinates of a contact on their axes. -/
structure Contact where
  x : Int
  y : Int
  deriving DecidableEq

/-- What the events say: complete reports, and the contacts of the next one. -/
structure Scan where
  x : Int
  y : Int
  gotX : Bool
  gotY : Bool
  pending : List Contact
  reports : List (List Contact)

namespace Scan

def initial : Scan where
  x := -1
  y := -1
  gotX := false
  gotY := false
  pending := []
  reports := []

def addContact (c : Scan) : Scan :=
  { c with pending := c.pending ++ [⟨c.x, c.y⟩], gotX := false, gotY := false }

def addReport (c : Scan) : Scan :=
  { c with reports := c.reports ++ [c.pending], pending := [] }

/-- A contact is complete at a `SYN_MT_REPORT` after both coordinates, and a report at a
`SYN_REPORT`. -/
def event (c : Scan) (e : InputEvent) : Scan :=
  if e.is evAbs absMtPositionX then
    { c with x := e.value, gotX := true }
  else if e.is evAbs absMtPositionY then
    { c with y := e.value, gotY := true }
  else if e.is evSyn synMtReport then
    if c.gotX && c.gotY then
      c.addContact
    else c
  else if e.is evSyn synReport then
    c.addReport
  else
    c

/-- The last complete report, if there is one. -/
def lastReport (c : Scan) : List Contact :=
  c.reports.getLast?.getD []

/-- All contacts in their order. -/
def contacts (c : Scan) : List Contact :=
  c.reports.flatten ++ c.pending

/-- What is read: until an error, or until a chunk ends after a report of two or more contacts. -/
def read (c : Scan) : List (Except Int (List InputEvent)) → Scan
  | [] => c
  | .error _ :: _ => c
  | .ok chunk :: reads =>
    let c := chunk.foldl event c
    if 2 ≤ c.lastReport.length then c else c.read reads

/-- A report, or what there is of the next one, has more contacts than the table has entries. -/
def Overfull (c : Scan) : Prop :=
  64 < c.pending.length ∨ ∃ report ∈ c.reports, 64 < report.length

/-- A report of two or more contacts is the last thing that is complete. -/
def EndsWithReport (c : Scan) : Prop :=
  ∀ before report after, c.reports = before ++ report :: after → 2 ≤ report.length →
    after = [] ∧ c.pending = []

end Scan

section

variable (swapXy : Bool) (axisX axisY : InputAbsinfo)

/-- The distances of a contact on the screen. -/
def Contact.place (a : Contact) : Int × Int :=
  if swapXy then (a.y - axisY.minimum, a.x - axisX.minimum)
  else (a.x - axisX.minimum, a.y - axisY.minimum)

def Contact.UpperLeft (a : Contact) : Prop :=
  inUpperLeft (screenAxes swapXy axisX axisY).1.range (screenAxes swapXy axisX axisY).2.range
    (a.place swapXy axisX axisY).1 (a.place swapXy axisX axisY).2 = true

def Contact.LowerRight (a : Contact) : Prop :=
  inLowerRight (screenAxes swapXy axisX axisY).1.range (screenAxes swapXy axisX axisY).2.range
    (a.place swapXy axisX axisY).1 (a.place swapXy axisX axisY).2 = true

instance (a : Contact) : Decidable (a.UpperLeft swapXy axisX axisY) :=
  inferInstanceAs (Decidable (_ = _))

instance (a : Contact) : Decidable (a.LowerRight swapXy axisX axisY) :=
  inferInstanceAs (Decidable (_ = _))

/-- A report has a contact in each of the areas. -/
def InBoth (report : List Contact) : Prop :=
  (∃ a ∈ report, a.UpperLeft swapXy axisX axisY) ∧ ∃ a ∈ report, a.LowerRight swapXy axisX axisY

/-- How many contacts of a report are in the areas. -/
def inAreas (report : List Contact) : Nat :=
  report.countP fun a => decide (a.UpperLeft swapXy axisX axisY ∨ a.LowerRight swapXy axisX axisY)

/-- No entry behind the table is written; the test succeeds only if some report has a contact in
each area; and it succeeds if the first report of two or more contacts is one of a contact in
each. -/
def MultiTouchRight (dev : TouchDevice) (reads : List (Except Int (List InputEvent))) : Prop :=
  ∃ ret, inputMultiTouchTest dev swapXy reads = some ret ∧
    (ret = 0 → ∃ report ∈ (Scan.initial.read reads).reports, InBoth swapXy axisX axisY report) ∧
    (∀ a b, (Scan.initial.read reads).reports.find? (fun report => 2 ≤ report.length) =
      some [a, b] → InBoth swapXy axisX axisY [a, b] → ret = 0)

/-- The coordinates of the contact are distances that a `float` has. -/
def Contact.Exact (a : Contact) : Prop :=
  ExactDistance axisX a.x ∧ ExactDistance axisY a.y

end

namespace Scan

variable {c : Scan}

/-- An event completes a contact, or a report, or nothing. -/
theorem event_cases (c : Scan) (e : InputEvent) :
    ((c.event e).reports = c.reports ∧ (c.event e).pending = c.pending) ∨
      ((c.event e).reports = c.reports ∧ (c.event e).pending = c.pending ++ [⟨c.x, c.y⟩]) ∨
      ((c.event e).reports = c.reports ++ [c.pending] ∧ (c.event e).pending = []) := by
  unfold event
  by_cases hx : e.is evAbs absMtPositionX = true
  · rw [if_pos hx]
    exact .inl ⟨rfl, rfl⟩
  · rw [if_neg hx]
    by_cases hy : e.is evAbs absMtPositionY = true
    · rw [if_pos hy]
      exact .inl ⟨rfl, rfl⟩
    · rw [if_neg hy]
      by_cases hmt : e.is evSyn synMtReport = true
      · rw [if_pos hmt]
        by_cases hgot : (c.gotX && c.gotY) = true
        · rw [if_pos hgot]
          exact .inr (.inl ⟨rfl, rfl⟩)
        · rw [if_neg hgot]
          exact .inl ⟨rfl, rfl⟩
      · rw [if_neg hmt]
        by_cases hsyn : e.is evSyn synReport = true
        · rw [if_pos hsyn]
          exact .inr (.inr ⟨rfl, rfl⟩)
        · rw [if_neg hsyn]
          exact .inl ⟨rfl, rfl⟩

theorem contacts_event (c : Scan) (e : InputEvent) : c.contacts <+: (c.event e).contacts := by
  unfold contacts
  rcases c.event_cases e with ⟨hr, hp⟩ | ⟨hr, hp⟩ | ⟨hr, hp⟩
  · exact ⟨[], by rw [hr, hp, List.append_nil]⟩
  · rw [hr, hp, ← List.append_assoc]
    exact List.prefix_append _ _
  · exact ⟨[], by rw [hr, hp, List.flatten_append, List.flatten_singleton]⟩

theorem Overfull.event (h : c.Overfull) (e : InputEvent) : (c.event e).Overfull := by
  unfold Overfull at h ⊢
  rcases c.event_cases e with ⟨hr, hp⟩ | ⟨hr, hp⟩ | ⟨hr, hp⟩
  · rw [hr, hp]
    exact h
  · rw [hr, hp, List.length_append]
    exact h.imp_left fun hlt => Nat.lt_add_right _ hlt
  · rw [hr]
    refine .inr ?_
    rcases h with hpending | ⟨report, hmem, hlt⟩
    · exact ⟨c.pending, List.mem_append_right _ (List.mem_singleton_self _), hpending⟩
    · exact ⟨report, List.mem_append_left _ hmem, hlt⟩

theorem contacts_foldl (chunk : List InputEvent) : ∀ c : Scan,
    c.contacts <+: (chunk.foldl event c).contacts := by
  induction chunk with
  | nil => exact fun c => List.prefix_rfl
  | cons e chunk ih => exact fun c => (contacts_event c e).trans (ih (c.event e))

theorem Overfull.foldl (chunk : List InputEvent) : ∀ {c : Scan}, c.Overfull →
    (chunk.foldl Scan.event c).Overfull := by
  induction chunk with
  | nil => exact fun h => h
  | cons e chunk ih => exact fun h => ih (h.event e)

theorem contacts_read (reads : List (Except Int (List InputEvent))) : ∀ c : Scan,
    c.contacts <+: (c.read reads).contacts := by
  induction reads with
  | nil => exact fun c => List.prefix_rfl
  | cons read reads ih =>
    intro c
    cases read with
    | error rb => exact List.prefix_rfl
    | ok chunk =>
      rw [Scan.read]
      split
      · exact contacts_foldl chunk c
      · exact (contacts_foldl chunk c).trans (ih _)

theorem Overfull.read (reads : List (Except Int (List InputEvent))) : ∀ {c : Scan}, c.Overfull →
    (c.read reads).Overfull := by
  induction reads with
  | nil => exact fun h => h
  | cons read reads ih =>
    intro c h
    cases read with
    | error rb => exact h
    | ok chunk =>
      rw [Scan.read]
      split
      · exact h.foldl chunk
      · exact ih (h.foldl chunk)

end Scan

section

variable {swapXy : Bool} {axisX axisY : InputAbsinfo} {s : MtState} {c : Scan}

/-- The state of the loop as what the events say: the table has the contacts of the next report,
and those of the last one as long as none of them is overwritten. -/
structure Tracks (swapXy : Bool) (axisX axisY : InputAbsinfo) (s : MtState) (c : Scan) : Prop where
  x : s.x = c.x
  y : s.y = c.y
  gotX : s.gotX = c.gotX
  gotY : s.gotY = c.gotY
  current : s.currentTp = c.pending.length
  num : s.numTps = c.lastReport.length
  length : s.tps.length = 64
  written : (s.tps.take s.currentTp).map (fun tp => (tp.x, tp.y)) =
    c.pending.map (Contact.place swapXy axisX axisY)
  kept : c.pending = [] → (s.tps.take s.numTps).map (fun tp => (tp.x, tp.y)) =
    c.lastReport.map (Contact.place swapXy axisX axisY)
  within : ¬c.Overfull

theorem Tracks.initial : Tracks swapXy axisX axisY .initial .initial where
  x := rfl
  y := rfl
  gotX := rfl
  gotY := rfl
  current := rfl
  num := rfl
  length := List.length_replicate
  written := rfl
  kept _ := rfl
  within h := by
    rcases h with h | ⟨_, hmem, -⟩
    · exact absurd h (by decide)
    · exact absurd hmem List.not_mem_nil

/-- A contact with exact distances is entered with them. -/
theorem touchpoint_eq (swapXy : Bool) (id : Nat) {a : Contact} (ha : a.Exact axisX axisY) :
    ∃ tp, touchpoint swapXy axisX axisY id a.x a.y = some tp ∧
      (tp.x, tp.y) = a.place swapXy axisX axisY := by
  rw [touchpoint, axisDistance_eq ha.1, axisDistance_eq ha.2]
  cases swapXy with
  | true => exact ⟨_, rfl, rfl⟩
  | false => exact ⟨_, rfl, rfl⟩

/-- A contact is entered into the table, or there is no entry for it. -/
theorem Tracks.store (h : Tracks swapXy axisX axisY s c) {tp : MtTouchpoint}
    (htp : (tp.x, tp.y) = (Contact.mk c.x c.y).place swapXy axisX axisY) :
    (∃ s', storeTouchpoint s tp = some s' ∧ Tracks swapXy axisX axisY s' c.addContact) ∨
      (storeTouchpoint s tp = none ∧ c.addContact.Overfull) := by
  have hpending : c.addContact.pending.length = c.pending.length + 1 := by
    rw [Scan.addContact, List.length_append, List.length_singleton]
  unfold storeTouchpoint
  by_cases hlt : s.currentTp < s.tps.length
  · rw [if_pos hlt]
    refine .inl ⟨_, rfl, h.x, h.y, rfl, rfl, ?_, h.num, ?_, ?_, ?_, ?_⟩
    · rw [hpending, ← h.current]
    · rw [List.length_set, h.length]
    · have hentry : (s.tps.set s.currentTp tp)[s.currentTp]? = some tp := by
        rw [List.getElem?_set_self hlt]
      rw [List.take_add_one, hentry, List.take_set_of_le (Nat.le_refl _), List.map_append,
        h.written, Scan.addContact, List.map_append]
      exact congrArg _ (congrArg (fun p => [p]) htp)
    · intro hnil
      rw [hnil] at hpending
      cases hpending
    · rintro (hover | hreport)
      · rw [hpending, ← h.current] at hover
        have hlength := h.length
        omega
      · exact h.within (.inr hreport)
  · rw [if_neg hlt]
    refine .inr ⟨rfl, .inl ?_⟩
    have hlength := h.length
    have hcurrent := h.current
    omega

/-- A report is complete. -/
theorem Tracks.report (h : Tracks swapXy axisX axisY s c) :
    Tracks swapXy axisX axisY { s with numTps := s.currentTp, currentTp := 0 } c.addReport where
  x := h.x
  y := h.y
  gotX := h.gotX
  gotY := h.gotY
  current := rfl
  num := by
    rw [Scan.lastReport, Scan.addReport, List.getLast?_concat]
    exact h.current
  length := h.length
  written := rfl
  kept _ := by
    rw [Scan.lastReport, Scan.addReport, List.getLast?_concat]
    exact h.written
  within := by
    rintro (hover | ⟨report, hmem, hlt⟩)
    · exact absurd hover (Nat.not_lt_zero _)
    · rcases List.mem_append.mp hmem with hold | hnew
      · exact h.within (.inr ⟨report, hold, hlt⟩)
      · rw [List.mem_singleton.mp hnew] at hlt
        exact h.within (.inl hlt)

/-- An event, of which the code and the reading of the events make the same. -/
theorem Tracks.event (h : Tracks swapXy axisX axisY s c) (e : InputEvent)
    (hexact : ∀ a ∈ (c.event e).contacts, a.Exact axisX axisY) :
    (∃ s', mtEvent swapXy axisX axisY s e = some s' ∧
        Tracks swapXy axisX axisY s' (c.event e)) ∨
      (mtEvent swapXy axisX axisY s e = none ∧ (c.event e).Overfull) := by
  unfold mtEvent Scan.event at *
  by_cases hx : e.is evAbs absMtPositionX = true
  · rw [if_pos hx, if_pos hx]
    exact .inl ⟨_, rfl, { h with x := rfl, gotX := rfl }⟩
  · rw [if_neg hx] at hexact ⊢
    rw [if_neg hx]
    by_cases hy : e.is evAbs absMtPositionY = true
    · rw [if_pos hy, if_pos hy]
      exact .inl ⟨_, rfl, { h with y := rfl, gotY := rfl }⟩
    · rw [if_neg hy] at hexact ⊢
      rw [if_neg hy]
      by_cases hmt : e.is evSyn synMtReport = true
      · rw [if_pos hmt] at hexact ⊢
        rw [if_pos hmt, h.gotX, h.gotY]
        by_cases hgot : (c.gotX && c.gotY) = true
        · rw [if_pos hgot] at hexact ⊢
          rw [if_pos hgot]
          have ha : (Contact.mk c.x c.y).Exact axisX axisY := by
            refine hexact _ (List.mem_append_right _ ?_)
            exact List.mem_append_right _ (List.mem_singleton_self _)
          obtain ⟨tp, htp, hplace⟩ := touchpoint_eq swapXy s.currentTp ha
          rw [h.x, h.y, htp]
          exact h.store hplace
        · rw [if_neg hgot, if_neg hgot]
          exact .inl ⟨s, rfl, h⟩
      · rw [if_neg hmt] at hexact ⊢
        rw [if_neg hmt]
        by_cases hsyn : e.is evSyn synReport = true
        · rw [if_pos hsyn, if_pos hsyn]
          exact .inl ⟨_, rfl, h.report⟩
        · rw [if_neg hsyn, if_neg hsyn]
          exact .inl ⟨s, rfl, h⟩

/-- A chunk of events. -/
theorem Tracks.chunk (chunk : List InputEvent) : ∀ {s : MtState} {c : Scan},
    Tracks swapXy axisX axisY s c →
      (∀ a ∈ (chunk.foldl Scan.event c).contacts, a.Exact axisX axisY) →
        (∃ s', chunk.foldlM (mtEvent swapXy axisX axisY) s = some s' ∧
            Tracks swapXy axisX axisY s' (chunk.foldl Scan.event c)) ∨
          (chunk.foldlM (mtEvent swapXy axisX axisY) s = none ∧
            (chunk.foldl Scan.event c).Overfull) := by
  induction chunk with
  | nil => exact fun h _ => .inl ⟨_, rfl, h⟩
  | cons e chunk ih =>
    intro s c h hexact
    have hevent : ∀ a ∈ (c.event e).contacts, a.Exact axisX axisY := fun a ha =>
      hexact a ((Scan.contacts_foldl chunk (c.event e)).subset ha)
    rw [List.foldlM_cons, List.foldl_cons]
    rcases h.event e hevent with ⟨s', hs', htracks⟩ | ⟨hnone, hover⟩
    · rw [hs']
      exact ih htracks hexact
    · rw [hnone]
      exact .inr ⟨rfl, hover.foldl chunk⟩

/-- How the loop ends: behind the table, with an error before any report of two contacts, or with
a table to look at. -/
inductive LoopEnds (swapXy : Bool) (axisX axisY : InputAbsinfo)
    (reads : List (Except Int (List InputEvent))) (c : Scan) :
    Option (Except Int MtState) → Prop where
  | behind (h : c.Overfull) : LoopEnds swapXy axisX axisY reads c none
  | error {rb : Int} (hmem : .error rb ∈ reads) (hfew : c.lastReport.length < 2)
      (hwithin : ¬c.Overfull) : LoopEnds swapXy axisX axisY reads c (some (.error rb))
  | table {s : MtState} (h : Tracks swapXy axisX axisY s c) :
      LoopEnds swapXy axisX axisY reads c (some (.ok s))

theorem LoopEnds.cons {reads : List (Except Int (List InputEvent))} {c : Scan}
    {result : Option (Except Int MtState)} (h : LoopEnds swapXy axisX axisY reads c result)
    (read : Except Int (List InputEvent)) :
    LoopEnds swapXy axisX axisY (read :: reads) c result := by
  cases h with
  | behind h => exact .behind h
  | error hmem hfew hwithin => exact .error (List.mem_cons_of_mem _ hmem) hfew hwithin
  | table h => exact .table h

/-- The loop ends in step with the reading of the events. -/
theorem mtLoop_ends (reads : List (Except Int (List InputEvent))) : ∀ {s : MtState} {c : Scan},
    Tracks swapXy axisX axisY s c → c.lastReport.length < 2 →
      (∀ a ∈ (c.read reads).contacts, a.Exact axisX axisY) →
        LoopEnds swapXy axisX axisY reads (c.read reads)
          (mtLoop swapXy axisX axisY s reads) := by
  induction reads with
  | nil => exact fun h _ _ => .table h
  | cons read reads ih =>
    intro s c h hfew hexact
    cases read with
    | error rb => exact .error List.mem_cons_self hfew h.within
    | ok chunk =>
      cases chunk with
      | nil =>
        have hread : c.read (.ok [] :: reads) = c.read reads := if_neg (Nat.not_le.mpr hfew)
        rw [hread] at hexact ⊢
        exact (ih h hfew hexact).cons _
      | cons e chunk =>
        have hchunk : ∀ a ∈ ((e :: chunk).foldl Scan.event c).contacts, a.Exact axisX axisY := by
          intro a ha
          refine hexact a ?_
          rw [Scan.read]
          split
          · exact ha
          · exact (Scan.contacts_read reads _).subset ha
        rw [mtLoop]
        rcases h.chunk (e :: chunk) hchunk with ⟨s', hs', htracks⟩ | ⟨hnone, hover⟩
        · rw [hs', Option.bind_eq_bind, Option.bind_some]
          rw [Scan.read] at hexact ⊢
          by_cases hmany : 2 ≤ ((e :: chunk).foldl Scan.event c).lastReport.length
          · rw [if_pos hmany, if_pos (htracks.num ▸ hmany)]
            exact .table htracks
          · rw [if_neg hmany] at hexact ⊢
            rw [if_neg (htracks.num ▸ hmany)]
            exact (ih htracks (Nat.not_le.mp hmany) hexact).cons _
        · rw [hnone]
          refine .behind ?_
          rw [Scan.read]
          split
          · exact hover
          · exact hover.read reads

/-- The verdict on a table that nothing is overwritten in. -/
theorem Tracks.verdict (h : Tracks swapXy axisX axisY s c) (hpending : c.pending = [])
    (hmany : 2 ≤ c.lastReport.length) :
    mtVerdict (screenAxes swapXy axisX axisY).1.range (screenAxes swapXy axisX axisY).2.range s =
      inAreas swapXy axisX axisY c.lastReport - 2 := by
  let next (ret : Int) (p : Int × Int) : Int :=
    if inUpperLeft (screenAxes swapXy axisX axisY).1.range (screenAxes swapXy axisX axisY).2.range
        p.1 p.2 then ret + 1
    else if inLowerRight (screenAxes swapXy axisX axisY).1.range
        (screenAxes swapXy axisX axisY).2.range p.1 p.2 then ret + 1
    else ret
  have hcount (report : List Contact) : ∀ ret : Int,
      (report.map (Contact.place swapXy axisX axisY)).foldl next ret =
        ret + inAreas swapXy axisX axisY report := by
    induction report with
    | nil => exact fun ret => (Int.add_zero ret).symm
    | cons a report ih =>
      intro ret
      rw [List.map_cons, List.foldl_cons, ih, inAreas, inAreas, List.countP_cons]
      by_cases hul : a.UpperLeft swapXy axisX axisY
      · have hnext : next ret (a.place swapXy axisX axisY) = ret + 1 := if_pos hul
        rw [hnext, if_pos (decide_eq_true (.inl hul))]
        omega
      · by_cases hlr : a.LowerRight swapXy axisX axisY
        · have hnext : next ret (a.place swapXy axisX axisY) = ret + 1 :=
            (if_neg hul).trans (if_pos hlr)
          rw [hnext, if_pos (decide_eq_true (.inr hlr))]
          omega
        · have hnext : next ret (a.place swapXy axisX axisY) = ret :=
            (if_neg hul).trans (if_neg hlr)
          have hneither : ¬decide (a.UpperLeft swapXy axisX axisY ∨
              a.LowerRight swapXy axisX axisY) = true := by
            rw [decide_eq_true_eq, not_or]
            exact ⟨hul, hlr⟩
          rw [hnext, if_neg hneither, Nat.add_zero]
  have htable : (s.tps.take s.numTps).foldl (fun ret tp => next ret (tp.x, tp.y)) (-2) =
      -2 + inAreas swapXy axisX axisY c.lastReport := by
    rw [← hcount, ← h.kept hpending, List.foldl_map]
  rw [mtVerdict, if_neg (by rw [h.num]; omega)]
  refine htable.trans ?_
  omega

/-- No contact is in both areas. -/
theorem Contact.UpperLeft.not_lowerRight {a : Contact} (h : a.UpperLeft swapXy axisX axisY) :
    ¬a.LowerRight swapXy axisX axisY := by
  unfold Contact.UpperLeft inUpperLeft at h
  unfold Contact.LowerRight inLowerRight
  simp only [Bool.and_eq_true, decide_eq_true_eq] at h ⊢
  omega

/-- A report with a contact in each area has two. -/
theorem InBoth.length {report : List Contact} (h : InBoth swapXy axisX axisY report) :
    2 ≤ report.length := by
  obtain ⟨⟨a, ha, hul⟩, b, hb, hlr⟩ := h
  have hne : a ≠ b := fun heq => hul.not_lowerRight (heq ▸ hlr)
  cases report with
  | nil => exact absurd ha List.not_mem_nil
  | cons c report =>
    cases report with
    | nil => exact absurd ((List.mem_singleton.mp ha).trans (List.mem_singleton.mp hb).symm) hne
    | cons d report => exact Nat.le_add_left 2 _

/-- Two contacts, one in each area. -/
theorem inAreas_pair {a b : Contact} (h : InBoth swapXy axisX axisY [a, b]) :
    inAreas swapXy axisX axisY [a, b] = 2 := by
  obtain ⟨⟨a', ha, hul⟩, b', hb, hlr⟩ := h
  have hne : a' ≠ b' := fun heq => hul.not_lowerRight (heq ▸ hlr)
  refine List.countP_eq_length.mpr fun d hd => decide_eq_true ?_
  rw [List.mem_pair] at ha hb hd
  rcases ha with rfl | rfl <;> rcases hb with rfl | rfl
  · exact absurd rfl hne
  · exact hd.elim (fun heq => .inl (heq ▸ hul)) fun heq => .inr (heq ▸ hlr)
  · exact hd.elim (fun heq => .inr (heq ▸ hlr)) fun heq => .inl (heq ▸ hul)
  · exact absurd rfl hne

/-- The test is the loop with what it comes to. -/
theorem inputMultiTouchTest_eq {dev : TouchDevice}
    (hlimits : getAbsoluteLimits dev = some (.ok (axisX, axisY, true)))
    (reads : List (Except Int (List InputEvent))) :
    inputMultiTouchTest dev swapXy reads =
      (mtLoop swapXy axisX axisY .initial reads).bind fun result =>
        match result with
        | .error rb => some rb
        | .ok s => some (mtVerdict (screenAxes swapXy axisX axisY).1.range
            (screenAxes swapXy axisX axisY).2.range s) := by
  obtain ⟨hX, hY⟩ := ranges_of_getAbsoluteLimits hlimits
  have hranges : (screenAxes swapXy axisX axisY).1.Ranges ∧
      (screenAxes swapXy axisX axisY).2.Ranges := by
    cases swapXy with
    | true => exact ⟨hY, hX⟩
    | false => exact ⟨hX, hY⟩
  rw [inputMultiTouchTest, hlimits]
  simp only [Option.bind_eq_bind, Option.bind_some, Bool.not_true, Bool.false_eq_true, if_false,
    cInt_of hranges.1.isInt, cInt_of hranges.2.isInt]
  rfl

/-- The last report is the only one of two or more contacts. -/
theorem Scan.EndsWithReport.eq_lastReport {c : Scan} (h : c.EndsWithReport)
    {report : List Contact} (hmem : report ∈ c.reports) (hmany : 2 ≤ report.length) :
    c.lastReport = report ∧ c.pending = [] := by
  obtain ⟨before, after, hsplit⟩ := List.append_of_mem hmem
  obtain ⟨rfl, hpending⟩ := h before report after hsplit hmany
  refine ⟨?_, hpending⟩
  rw [Scan.lastReport, hsplit, List.getLast?_concat]
  rfl

/-- Where the last report has one contact at most, so have all. -/
theorem Scan.EndsWithReport.few {c : Scan} (h : c.EndsWithReport)
    (hfew : c.lastReport.length < 2) : ∀ report ∈ c.reports, report.length < 2 := by
  intro report hmem
  refine Nat.not_le.mp fun hmany => ?_
  rw [(h.eq_lastReport hmem hmany).1] at hfew
  omega

/-- A last report of two or more contacts is one of the reports. -/
theorem Scan.lastReport_mem {c : Scan} (hmany : 2 ≤ c.lastReport.length) :
    c.lastReport ∈ c.reports := by
  unfold Scan.lastReport at hmany ⊢
  cases hlast : c.reports.getLast? with
  | none =>
    rw [hlast] at hmany
    exact absurd hmany (by decide)
  | some report => exact List.mem_of_getLast? hlast

/-- Where a report of two or more contacts is the last thing that is read, the test is right just
where the table is large enough and no two contacts in the areas are in the same one. -/
theorem multiTouchRight_iff {dev : TouchDevice} {reads : List (Except Int (List InputEvent))}
    (hlimits : getAbsoluteLimits dev = some (.ok (axisX, axisY, true)))
    (hreads : ∀ rb, .error rb ∈ reads → rb < 0)
    (hexact : ∀ a ∈ (Scan.initial.read reads).contacts, a.Exact axisX axisY)
    (hlast : (Scan.initial.read reads).EndsWithReport) :
    MultiTouchRight swapXy axisX axisY dev reads ↔
      ¬(Scan.initial.read reads).Overfull ∧
        ∀ report ∈ (Scan.initial.read reads).reports, 2 ≤ report.length →
          inAreas swapXy axisX axisY report = 2 → InBoth swapXy axisX axisY report := by
  have hends := @mtLoop_ends swapXy _ _ reads _ _ Tracks.initial (by decide) hexact
  rw [MultiTouchRight, inputMultiTouchTest_eq hlimits]
  generalize Scan.initial.read reads = c at *
  generalize mtLoop swapXy axisX axisY .initial reads = result at *
  cases hends with
  | behind hover =>
    refine iff_of_false ?_ fun h => h.1 hover
    rintro ⟨ret, hret, -⟩
    cases hret
  | error hmem hfew hwithin =>
    have hnone := hlast.few hfew
    refine iff_of_true ⟨_, rfl, fun hzero => ?_, fun a b hfind _ => ?_⟩
      ⟨hwithin, fun report hreport hmany => absurd (hnone report hreport) (Nat.not_lt.mpr hmany)⟩
    · have hneg := hreads _ hmem
      omega
    · exact absurd (hnone _ (List.mem_of_find?_eq_some hfind)) (Nat.lt_irrefl 2)
  | table htracks =>
    by_cases hfew : c.lastReport.length < 2
    · have hnone := hlast.few hfew
      have hverdict (w h : Int) : mtVerdict w h _ = -1 := if_pos (htracks.num ▸ hfew)
      refine iff_of_true ⟨_, rfl, fun hzero => ?_, fun a b hfind _ => ?_⟩
        ⟨htracks.within, fun report hreport hmany =>
          absurd (hnone report hreport) (Nat.not_lt.mpr hmany)⟩
      · rw [hverdict] at hzero
        cases hzero
      · exact absurd (hnone _ (List.mem_of_find?_eq_some hfind)) (Nat.lt_irrefl 2)
    · have hmany := Nat.not_lt.mp hfew
      have hpending := (hlast.eq_lastReport (Scan.lastReport_mem hmany) hmany).2
      have hverdict := htracks.verdict hpending hmany
      constructor
      · rintro ⟨ret, hret, hboth, -⟩
        refine ⟨htracks.within, fun report hreport htwo hareas => ?_⟩
        have heq := (hlast.eq_lastReport hreport htwo).1
        have hzero : ret = 0 := by
          rw [← Option.some.inj hret, hverdict, heq, hareas]
          rfl
        obtain ⟨other, hother, hin⟩ := hboth hzero
        rwa [← heq, (hlast.eq_lastReport hother hin.length).1]
      · rintro ⟨-, hright⟩
        refine ⟨_, rfl, fun hzero => ?_, fun a b hfind hpair => ?_⟩
        · rw [hverdict] at hzero
          have hareas : inAreas swapXy axisX axisY c.lastReport = 2 := by omega
          exact ⟨_, Scan.lastReport_mem hmany,
            hright _ (Scan.lastReport_mem hmany) hmany hareas⟩
        · have heq := (hlast.eq_lastReport (List.mem_of_find?_eq_some hfind) (Nat.le_refl 2)).1
          rw [hverdict, heq, inAreas_pair hpair]
          rfl

end

/-- A device whose axes go from zero to a thousand. -/
def mtPanel : TouchDevice where
  mtPositionX := .ok ⟨0, 1000⟩
  mtPositionY := .ok ⟨0, 1000⟩
  x := .ok ⟨0, 1000⟩
  y := .ok ⟨0, 1000⟩

/-- The events of a contact. -/
def contactEvents (a : Contact) : List InputEvent :=
  [⟨evAbs, absMtPositionX, a.x⟩, ⟨evAbs, absMtPositionY, a.y⟩, ⟨evSyn, synMtReport, 0⟩]

/-- The events of a report. -/
def reportEvents (report : List Contact) : List InputEvent :=
  report.flatMap contactEvents ++ [⟨evSyn, synReport, 0⟩]

/-- A contact in each area. -/
theorem multiTouchRight_pair :
    MultiTouchRight false ⟨0, 1000⟩ ⟨0, 1000⟩ mtPanel
        [.ok [], .ok (reportEvents [⟨100, 100⟩, ⟨900, 800⟩])] ↔
      ¬(Scan.initial.read [.ok [], .ok (reportEvents [⟨100, 100⟩, ⟨900, 800⟩])]).Overfull ∧
        ∀ report ∈ (Scan.initial.read
            [.ok [], .ok (reportEvents [⟨100, 100⟩, ⟨900, 800⟩])]).reports, 2 ≤ report.length →
          inAreas false ⟨0, 1000⟩ ⟨0, 1000⟩ report = 2 →
            InBoth false ⟨0, 1000⟩ ⟨0, 1000⟩ report := by
  apply multiTouchRight_iff rfl
  · intro rb hmem
    rcases List.mem_pair.mp hmem with h | h <;> cases h
  · intro a ha
    have hpair : a ∈ [Contact.mk 100 100, ⟨900, 800⟩] := ha
    rcases List.mem_pair.mp hpair with rfl | rfl <;> exact ⟨by decide, by decide⟩
  · intro before report after hsplit _
    have hone : 1 = (before ++ report :: after).length := congrArg List.length hsplit
    rw [List.length_append, List.length_cons] at hone
    exact ⟨List.length_eq_zero_iff.mp (by omega), rfl⟩

/-- Both contacts are in the upper left area, and the test succeeds. -/
theorem same_area_passes :
    inputMultiTouchTest mtPanel false [.ok (reportEvents [⟨100, 100⟩, ⟨200, 300⟩])] = some 0 ∧
      ¬MultiTouchRight false ⟨0, 1000⟩ ⟨0, 1000⟩ mtPanel
        [.ok (reportEvents [⟨100, 100⟩, ⟨200, 300⟩])] := by
  have hzero : inputMultiTouchTest mtPanel false [.ok (reportEvents [⟨100, 100⟩, ⟨200, 300⟩])] =
      some 0 := by decide
  refine ⟨hzero, ?_⟩
  rintro ⟨ret, hret, hboth, -⟩
  obtain ⟨report, hreport, -, b, hb, hlr⟩ := hboth (Option.some.inj (hret.symm.trans hzero))
  have hone : report ∈ [[Contact.mk 100 100, ⟨200, 300⟩]] := hreport
  rw [List.mem_singleton.mp hone] at hb
  rcases List.mem_pair.mp hb with rfl | rfl
  · exact absurd hlr (by decide)
  · exact absurd hlr (by decide)

end Blts.Input
