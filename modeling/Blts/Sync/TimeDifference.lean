import Mathlib.Data.Nat.Basic

/-!
# The difference of two times

`ts_diff` takes whole seconds out of the nanoseconds of the subtrahend where they are more than
those of the minuend, and puts them back where the difference is more than a second.  The
difference is a valid `timespec`, unless the nanoseconds of the two times are whole seconds
apart: then a second is left in them, or a `long` overflows (`diffExact_iff`).
-/

/-!
## The deadline of `barrier_sync_to`

The timeout is added to the current time in two parts, whole seconds to `tv_sec` and the
rest to `tv_nsec`, and nothing is carried from one to the other.  The sum has the right
value; it is no valid `timespec` where the nanoseconds come to a second or more, and
`sem_timedwait` then fails at once with `EINVAL`.
-/

namespace Blts.Sync

/-- `struct timespec`. -/
structure Timespec where
  tvSec : Int
  tvNsec : Int

namespace Timespec

/-- The nanoseconds are a part of a second. -/
def Valid (t : Timespec) : Prop :=
  0 ≤ t.tvNsec ∧ t.tvNsec < 1000000000

def nanoseconds (t : Timespec) : Int :=
  t.tvSec * 1000000000 + t.tvNsec

end Timespec

/-- A value of a `long`, or of a `time_t`, whose largest number is `longMax`; one that
overflows has none. -/
def long (longMax x : Int) : Option Int :=
  if -longMax - 1 ≤ x ∧ x ≤ longMax then some x else none

/-- `abs_timeout` in `barrier_sync_to`, from what `clock_gettime` has stored. -/
def absTimeout (longMax : Int) (now : Timespec) (maxTimeoutMsec : Int) : Option Timespec := do
  let tvSec ← long longMax (now.tvSec + maxTimeoutMsec.tdiv 1000)
  let nsec ← long longMax (maxTimeoutMsec.tmod 1000 * 1000000)
  let tvNsec ← long longMax (now.tvNsec + nsec)
  return { tvSec := tvSec, tvNsec := tvNsec }

/-- The deadline is a valid time, so many milliseconds from now. -/
def MeetsDeadline (longMax : Int) (now : Timespec) (msec : Int) : Prop :=
  ∃ t, absTimeout longMax now msec = some t ∧ t.Valid ∧
    t.nanoseconds = now.nanoseconds + msec * 1000000

theorem long_eq_some {longMax x : Int} (h : -longMax - 1 ≤ x ∧ x ≤ longMax) :
    long longMax x = some x :=
  if_pos h

theorem long_eq_none {longMax x : Int} (h : longMax < x) : long longMax x = none :=
  if_neg fun hle => by omega

section

variable {longMax : Int} (hlong : 2147483647 ≤ longMax) {now : Timespec} (hnow : now.Valid)
  (hsec : -longMax - 1 ≤ now.tvSec ∧ now.tvSec ≤ longMax) {msec : Int}
  (hmsec : 0 ≤ msec ∧ msec ≤ longMax)
include hlong hnow hsec hmsec

/-- The two parts of the sum, if the seconds do not overflow. -/
theorem absTimeout_eq : absTimeout longMax now msec =
    if now.tvSec + msec / 1000 ≤ longMax then
      some ⟨now.tvSec + msec / 1000, now.tvNsec + msec % 1000 * 1000000⟩
    else none := by
  obtain ⟨hnsec, hnsec'⟩ := hnow
  have hdiv : msec.tdiv 1000 = msec / 1000 := Int.tdiv_eq_ediv_of_nonneg hmsec.1
  have hmod : msec.tmod 1000 = msec % 1000 := Int.tmod_eq_emod_of_nonneg hmsec.1
  have hrest : long longMax (msec % 1000 * 1000000) = some (msec % 1000 * 1000000) :=
    long_eq_some (by omega)
  have hsum : long longMax (now.tvNsec + msec % 1000 * 1000000) =
      some (now.tvNsec + msec % 1000 * 1000000) := long_eq_some (by omega)
  unfold absTimeout
  rw [hdiv, hmod, hrest]
  by_cases hfit : now.tvSec + msec / 1000 ≤ longMax
  · rw [if_pos hfit, long_eq_some ⟨by omega, hfit⟩]
    show (long longMax (now.tvNsec + msec % 1000 * 1000000)).bind _ = _
    rw [hsum]
    rfl
  · rw [if_neg hfit, long_eq_none (by omega)]
    rfl

/--
**The deadline.**  For every current time and every timeout it is a valid time with the
right value if and only if the nanoseconds stay below a second, and the seconds are in the
range of their type.
-/
theorem meetsDeadline_iff : MeetsDeadline longMax now msec ↔
    now.tvNsec + msec % 1000 * 1000000 < 1000000000 ∧ now.tvSec + msec / 1000 ≤ longMax := by
  unfold MeetsDeadline
  rw [absTimeout_eq hlong hnow hsec hmsec]
  by_cases hfit : now.tvSec + msec / 1000 ≤ longMax
  · rw [if_pos hfit, and_iff_left hfit]
    constructor
    · rintro ⟨t, ht, hvalid, _⟩
      cases ht
      exact hvalid.2
    · intro hlt
      refine ⟨_, rfl, ⟨?_, hlt⟩, ?_⟩
      · have hpos := hnow.1
        show 0 ≤ now.tvNsec + msec % 1000 * 1000000
        omega
      · unfold Timespec.nanoseconds
        dsimp only
        omega
  · rw [if_neg hfit]
    refine iff_of_false ?_ fun h => hfit h.2
    rintro ⟨t, ht, _⟩
    cases ht

end

/-- Half a second from the beginning of a second. -/
theorem meetsDeadline_half : MeetsDeadline 9223372036854775807 ⟨1, 0⟩ 500 ↔
    (0 : Int) + 500 % 1000 * 1000000 < 1000000000 ∧ (1 : Int) + 500 / 1000 ≤ 9223372036854775807 :=
  meetsDeadline_iff (by decide) (by unfold Timespec.Valid; decide) (by decide) (by decide)

/-- Half a second from the middle of a second: the deadline has 1000000000 nanoseconds. -/
theorem halfSecond_invalid :
    absTimeout 9223372036854775807 ⟨1, 500000000⟩ 500 = some ⟨1, 1000000000⟩ ∧
      ¬ MeetsDeadline 9223372036854775807 ⟨1, 500000000⟩ 500 := by
  have hsum : absTimeout 9223372036854775807 ⟨1, 500000000⟩ 500 = some ⟨1, 1000000000⟩ := rfl
  refine ⟨hsum, ?_⟩
  rintro ⟨t, ht, hvalid, _⟩
  rw [hsum] at ht
  cases ht
  exact absurd hvalid.2 (by decide)

/-- The nanoseconds of a second. -/
def nsecPerSec : Int := 1000000000

/-- `b` with so many seconds less in its nanoseconds that `a` has more. -/
def carryDown (longMax : Int) (a b : Timespec) : Option Timespec :=
  if a.tvNsec < b.tvNsec then do
    let behind ← long longMax (b.tvNsec - a.tvNsec)
    let tmpSec ← long longMax (behind.tdiv nsecPerSec + 1)
    let tmpNsec ← long longMax (nsecPerSec * tmpSec)
    let tvNsec ← long longMax (b.tvNsec - tmpNsec)
    let tvSec ← long longMax (b.tvSec + tmpSec)
    return { tvSec := tvSec, tvNsec := tvNsec }
  else some b

/-- `b` with so many seconds more in its nanoseconds that `a` has less than one more. -/
def carryUp (longMax : Int) (a b : Timespec) : Option Timespec := do
  let ahead ← long longMax (a.tvNsec - b.tvNsec)
  if ahead > nsecPerSec then
    let tmpSec := ahead.tdiv nsecPerSec
    let tmpNsec ← long longMax (nsecPerSec * tmpSec)
    let tvNsec ← long longMax (b.tvNsec + tmpNsec)
    let tvSec ← long longMax (b.tvSec - tmpSec)
    return { tvSec := tvSec, tvNsec := tvNsec }
  else
    return b

/-- `ts_diff`: the result, and what is returned. -/
def tsDiff (longMax : Int) (left right : Timespec) : Option (Timespec × Int) := do
  let b ← carryDown longMax left right
  let b ← carryUp longMax left b
  let tvSec ← long longMax (left.tvSec - b.tvSec)
  let tvNsec ← long longMax (left.tvNsec - b.tvNsec)
  return ({ tvSec := tvSec, tvNsec := tvNsec }, if left.tvSec < b.tvSec then 1 else 0)

/-- The difference is exact and valid, and what is returned says whether it is negative. -/
def DiffExact (longMax : Int) (left right : Timespec) : Prop :=
  ∃ r ret, tsDiff longMax left right = some (r, ret) ∧ r.Valid ∧
    r.nanoseconds = left.nanoseconds - right.nanoseconds ∧
    (ret ≠ 0 ↔ left.nanoseconds - right.nanoseconds < 0)

/-- A value that a `long` has. -/
def FitsLong (longMax x : Int) : Prop := -longMax - 1 ≤ x ∧ x ≤ longMax

theorem long_bind_eq_some {α : Type} {longMax x : Int} {f : Int → Option α} {r : α} :
    (long longMax x).bind f = some r ↔ FitsLong longMax x ∧ f x = some r := by
  unfold long
  by_cases h : -longMax - 1 ≤ x ∧ x ≤ longMax
  · rw [if_pos h, Option.bind_some]
    exact (and_iff_right h).symm
  · rw [if_neg h, Option.bind_none]
    exact iff_of_false (fun h' => by cases h') fun h' => h h'.1

/-- The whole seconds that the nanoseconds differ by, rounded down. -/
def wholeSeconds (left right : Timespec) : Int := (left.tvNsec - right.tvNsec) / nsecPerSec

/-- The same time with so many seconds moved into its nanoseconds. -/
def Timespec.moved (t : Timespec) (seconds : Int) : Timespec :=
  { tvSec := t.tvSec - seconds, tvNsec := t.tvNsec + seconds * nsecPerSec }

@[simp] theorem Timespec.tvSec_moved (t : Timespec) (seconds : Int) :
    (t.moved seconds).tvSec = t.tvSec - seconds :=
  rfl

@[simp] theorem Timespec.tvNsec_moved (t : Timespec) (seconds : Int) :
    (t.moved seconds).tvNsec = t.tvNsec + seconds * nsecPerSec :=
  rfl

/-- No whole second is left in the nanoseconds, and no `long` overflows. -/
structure DiffFits (longMax : Int) (left right : Timespec) : Prop where
  notSecond : left.tvNsec - right.tvNsec ≠ nsecPerSec
  notSeconds : left.tvNsec < right.tvNsec → (left.tvNsec - right.tvNsec) % nsecPerSec ≠ 0
  carried : -wholeSeconds left right * nsecPerSec ≤ longMax
  moved : FitsLong longMax (right.tvSec - wholeSeconds left right)
  difference : FitsLong longMax (left.tvSec - (right.tvSec - wholeSeconds left right))

section

variable {longMax : Int} {a b r : Timespec}

/-- The nanoseconds that `b` has more come to whole seconds, or to less than one more. -/
theorem carryDown_eq_some_iff (hlong : 2147483647 ≤ longMax) (ha : 0 ≤ a.tvNsec)
    (hb : b.tvNsec ≤ longMax) (hlt : a.tvNsec < b.tvNsec) {k : Int}
    (hk : (b.tvNsec - a.tvNsec) / nsecPerSec + 1 = -k) :
    carryDown longMax a b = some r ↔
      -k * nsecPerSec ≤ longMax ∧ FitsLong longMax (b.tvSec - k) ∧ r = b.moved k := by
  have hdiv : (b.tvNsec - a.tvNsec).tdiv nsecPerSec = (b.tvNsec - a.tvNsec) / nsecPerSec :=
    Int.tdiv_eq_ediv_of_nonneg (by omega)
  rw [carryDown, if_pos hlt]
  simp only [Option.bind_eq_bind, long_bind_eq_some, hdiv, hk, Option.pure_def, Option.some.injEq,
    Int.mul_comm nsecPerSec]
  rw [Timespec.moved, Int.neg_mul, Int.sub_neg, ← Int.sub_eq_add_neg, eq_comm (b := r)]
  rw [nsecPerSec] at hk ⊢
  constructor
  · rintro ⟨-, -, ⟨-, hmul⟩, -, hsec, heq⟩
    exact ⟨hmul, hsec, heq⟩
  · rintro ⟨hmul, hsec, heq⟩
    exact ⟨⟨by omega, by omega⟩, ⟨by omega, by omega⟩, ⟨by omega, hmul⟩, ⟨by omega, by omega⟩, hsec,
      heq⟩

/-- Where `b` has at most a second less, nothing is put back. -/
theorem carryUp_of_le (hlong : 2147483647 ≤ longMax) (hge : 0 ≤ a.tvNsec - b.tvNsec)
    (hle : a.tvNsec - b.tvNsec ≤ nsecPerSec) :
    carryUp longMax a b = some b := by
  have hfits : FitsLong longMax (a.tvNsec - b.tvNsec) := by
    rw [nsecPerSec] at hle
    exact ⟨by omega, by omega⟩
  rw [carryUp, Option.bind_eq_bind, long_bind_eq_some, if_neg (Int.not_lt.mpr hle)]
  exact ⟨hfits, rfl⟩

/-- Whole seconds are put back where there is more than one. -/
theorem carryUp_eq_some_iff (ha : 0 ≤ a.tvNsec ∧ a.tvNsec ≤ longMax)
    (hb : 0 ≤ b.tvNsec ∧ b.tvNsec ≤ longMax) (hlt : nsecPerSec < a.tvNsec - b.tvNsec) {k : Int}
    (hk : (a.tvNsec - b.tvNsec) / nsecPerSec = k) :
    carryUp longMax a b = some r ↔ FitsLong longMax (b.tvSec - k) ∧ r = b.moved k := by
  have hpos : 0 ≤ a.tvNsec - b.tvNsec := by
    rw [nsecPerSec] at hlt
    omega
  have hdiv : (a.tvNsec - b.tvNsec).tdiv nsecPerSec = (a.tvNsec - b.tvNsec) / nsecPerSec :=
    Int.tdiv_eq_ediv_of_nonneg hpos
  rw [carryUp, Option.bind_eq_bind, long_bind_eq_some, if_pos hlt]
  simp only [long_bind_eq_some, hdiv, hk, Option.pure_def, Option.some.injEq,
    Int.mul_comm nsecPerSec]
  rw [Timespec.moved, eq_comm (b := r)]
  rw [nsecPerSec] at hk hlt ⊢
  constructor
  · rintro ⟨-, -, -, hsec, heq⟩
    exact ⟨hsec, heq⟩
  · rintro ⟨hsec, heq⟩
    exact ⟨⟨by omega, by omega⟩, ⟨by omega, by omega⟩, ⟨by omega, by omega⟩, hsec, heq⟩

end

section

variable {longMax : Int} {left right b r : Timespec} {ret : Int}

/-- The subtraction of the two fields. -/
theorem tsDiff_of_moved (h : (carryDown longMax left right).bind (carryUp longMax left) = some b)
    (hfits : FitsLong longMax (left.tvNsec - b.tvNsec)) :
    tsDiff longMax left right = some (r, ret) ↔
      FitsLong longMax (left.tvSec - b.tvSec) ∧
        r = ⟨left.tvSec - b.tvSec, left.tvNsec - b.tvNsec⟩ ∧
        ret = if left.tvSec < b.tvSec then 1 else 0 := by
  have hdiff : tsDiff longMax left right =
      (long longMax (left.tvSec - b.tvSec)).bind fun tvSec =>
        (long longMax (left.tvNsec - b.tvNsec)).bind fun tvNsec =>
          some (⟨tvSec, tvNsec⟩, if left.tvSec < b.tvSec then 1 else 0) := by
    unfold tsDiff
    rw [Option.bind_eq_bind, Option.bind_eq_bind, ← Option.bind_assoc, h, Option.bind_some]
    rfl
  rw [hdiff, long_bind_eq_some, long_bind_eq_some, and_iff_right hfits, Option.some.injEq,
    Prod.mk.injEq, eq_comm (b := r), eq_comm (b := ret)]

/-- Nothing comes of a subtraction without what is subtracted. -/
theorem tsDiff_of_none (h : (carryDown longMax left right).bind (carryUp longMax left) = none) :
    tsDiff longMax left right = none := by
  unfold tsDiff
  rw [Option.bind_eq_bind, Option.bind_eq_bind, ← Option.bind_assoc, h, Option.bind_none]

/-- Both carries together move the whole seconds that the nanoseconds differ by. -/
theorem carried_eq_some_iff (hlong : 2147483647 ≤ longMax)
    (hl : 0 ≤ left.tvNsec ∧ left.tvNsec ≤ longMax) (hr : 0 ≤ right.tvNsec ∧ right.tvNsec ≤ longMax)
    (hsec : FitsLong longMax right.tvSec) (hone : left.tvNsec - right.tvNsec ≠ nsecPerSec)
    (hwhole : left.tvNsec < right.tvNsec → (left.tvNsec - right.tvNsec) % nsecPerSec ≠ 0) :
    (carryDown longMax left right).bind (carryUp longMax left) = some b ↔
      -wholeSeconds left right * nsecPerSec ≤ longMax ∧
        FitsLong longMax (right.tvSec - wholeSeconds left right) ∧
        b = right.moved (wholeSeconds left right) := by
  rw [Option.bind_eq_some_iff]
  by_cases hlt : left.tvNsec < right.tvNsec
  · have hdown : (right.tvNsec - left.tvNsec) / nsecPerSec + 1 = -wholeSeconds left right := by
      have hne := hwhole hlt
      rw [wholeSeconds]
      rw [nsecPerSec] at hne ⊢
      omega
    have hup : carryUp longMax left (right.moved (wholeSeconds left right)) =
        some (right.moved (wholeSeconds left right)) := by
      apply carryUp_of_le hlong <;> rw [Timespec.tvNsec_moved, wholeSeconds, nsecPerSec] <;> omega
    simp only [carryDown_eq_some_iff hlong hl.1 hr.2 hlt hdown]
    constructor
    · rintro ⟨_, ⟨hcarried, hmoved, rfl⟩, heq⟩
      exact ⟨hcarried, hmoved, (Option.some.inj (hup.symm.trans heq)).symm⟩
    · rintro ⟨hcarried, hmoved, rfl⟩
      exact ⟨_, ⟨hcarried, hmoved, rfl⟩, hup⟩
  · have hcarried : -wholeSeconds left right * nsecPerSec ≤ longMax := by
      rw [wholeSeconds, nsecPerSec]
      omega
    rw [carryDown, if_neg hlt, and_iff_right hcarried]
    simp only [Option.some.injEq, exists_eq_left']
    by_cases hmore : nsecPerSec < left.tvNsec - right.tvNsec
    · exact carryUp_eq_some_iff hl hr hmore rfl
    · have hzero : wholeSeconds left right = 0 := by
        rw [wholeSeconds]
        rw [nsecPerSec] at hone hmore ⊢
        omega
      have hsame : right.moved 0 = right := by
        rw [Timespec.moved, Int.sub_zero, Int.zero_mul, Int.add_zero]
      rw [carryUp_of_le hlong (by omega) (Int.not_lt.mp hmore), hzero, Int.sub_zero, hsame,
        and_iff_right hsec, Option.some.injEq, eq_comm]

/-- Where the nanoseconds are whole seconds apart, one of them is left. -/
theorem second_of_carried (hlong : 2147483647 ≤ longMax) (hl : 0 ≤ left.tvNsec)
    (hr : right.tvNsec ≤ longMax)
    (hwhole : left.tvNsec - right.tvNsec = nsecPerSec ∨
      left.tvNsec < right.tvNsec ∧ (left.tvNsec - right.tvNsec) % nsecPerSec = 0)
    (hb : (carryDown longMax left right).bind (carryUp longMax left) = some b) :
    left.tvNsec - b.tvNsec = nsecPerSec := by
  obtain ⟨c, hdown, hup⟩ := Option.bind_eq_some_iff.mp hb
  have hc : left.tvNsec - c.tvNsec = nsecPerSec := by
    rcases hwhole with hone | ⟨hlt, hmod⟩
    · rw [carryDown, if_neg (by rw [nsecPerSec] at hone; omega)] at hdown
      cases hdown
      exact hone
    · obtain ⟨-, -, rfl⟩ :=
        (carryDown_eq_some_iff hlong hl hr hlt (Int.neg_neg _).symm).mp hdown
      rw [Timespec.tvNsec_moved]
      rw [nsecPerSec] at hmod ⊢
      omega
  have hsame := carryUp_of_le (a := left) (b := c) hlong (by rw [hc]; decide) (Int.le_of_eq hc)
  cases hup.symm.trans hsame
  exact hc

/-- The difference is exact and valid just where no whole second is left in the nanoseconds and
nothing overflows. -/
theorem diffExact_iff (hlong : 2147483647 ≤ longMax)
    (hl : 0 ≤ left.tvNsec ∧ left.tvNsec ≤ longMax) (hr : 0 ≤ right.tvNsec ∧ right.tvNsec ≤ longMax)
    (hsec : FitsLong longMax right.tvSec) :
    DiffExact longMax left right ↔ DiffFits longMax left right := by
  by_cases hwhole : left.tvNsec - right.tvNsec = nsecPerSec ∨
      left.tvNsec < right.tvNsec ∧ (left.tvNsec - right.tvNsec) % nsecPerSec = 0
  · -- A second is left in the nanoseconds of the result, where there is one.
    refine iff_of_false ?_ fun h => hwhole.elim h.notSecond fun ⟨hlt, hmod⟩ => h.notSeconds hlt hmod
    rintro ⟨r, ret, hdiff, ⟨-, hvalid⟩, -⟩
    cases hb : (carryDown longMax left right).bind (carryUp longMax left) with
    | none =>
      rw [tsDiff_of_none hb] at hdiff
      cases hdiff
    | some b =>
      have hone := second_of_carried hlong hl.1 hr.2 hwhole hb
      have hfits : FitsLong longMax (left.tvNsec - b.tvNsec) := by
        rw [hone, nsecPerSec]
        exact ⟨by omega, by omega⟩
      obtain ⟨-, rfl, -⟩ := (tsDiff_of_moved hb hfits).mp hdiff
      have hlast : left.tvNsec - b.tvNsec < 1000000000 := hvalid
      rw [nsecPerSec] at hone
      omega
  · rw [not_or, not_and] at hwhole
    have hpart : 0 ≤ left.tvNsec - (right.tvNsec + wholeSeconds left right * nsecPerSec) ∧
        left.tvNsec - (right.tvNsec + wholeSeconds left right * nsecPerSec) < 1000000000 := by
      rw [wholeSeconds, nsecPerSec]
      omega
    have hcarried := carried_eq_some_iff (b := right.moved (wholeSeconds left right)) hlong hl hr
      hsec hwhole.1 hwhole.2
    have hfits : FitsLong longMax
        (left.tvNsec - (right.moved (wholeSeconds left right)).tvNsec) := by
      rw [Timespec.tvNsec_moved]
      exact ⟨by omega, by omega⟩
    constructor
    · rintro ⟨r, ret, hdiff, -⟩
      cases hb : (carryDown longMax left right).bind (carryUp longMax left) with
      | none =>
        rw [tsDiff_of_none hb] at hdiff
        cases hdiff
      | some b =>
        obtain ⟨hc, hm, rfl⟩ := (carried_eq_some_iff hlong hl hr hsec hwhole.1 hwhole.2).mp hb
        obtain ⟨hd, -, -⟩ := (tsDiff_of_moved hb hfits).mp hdiff
        exact ⟨hwhole.1, hwhole.2, hc, hm, hd⟩
    · rintro ⟨-, -, hc, hm, hd⟩
      have hb := hcarried.mpr ⟨hc, hm, rfl⟩
      refine ⟨_, _, (tsDiff_of_moved hb hfits).mpr ⟨hd, rfl, rfl⟩, hpart, ?_, ?_⟩
      · simp only [Timespec.nanoseconds, Timespec.tvSec_moved, Timespec.tvNsec_moved, nsecPerSec]
        omega
      · rw [Timespec.nanoseconds, Timespec.nanoseconds, Timespec.tvSec_moved]
        rw [nsecPerSec] at hpart
        split <;> omega

end

/-- Half a second less than two seconds and a quarter. -/
theorem diffExact_quarter :
    DiffExact 9223372036854775807 ⟨2, 250000000⟩ ⟨0, 500000000⟩ ↔
      DiffFits 9223372036854775807 ⟨2, 250000000⟩ ⟨0, 500000000⟩ :=
  diffExact_iff (by decide) (by decide) (by decide) ⟨by decide, by decide⟩

/-- Two equal times, one with its second in the nanoseconds: the difference is a second less than
none and a second of nanoseconds, and is said to be negative. -/
theorem second_left :
    tsDiff 9223372036854775807 ⟨1, 0⟩ ⟨0, 1000000000⟩ = some (⟨-1, 1000000000⟩, 1) ∧
      ¬DiffExact 9223372036854775807 ⟨1, 0⟩ ⟨0, 1000000000⟩ := by
  have hdiff : tsDiff 9223372036854775807 ⟨1, 0⟩ ⟨0, 1000000000⟩ = some (⟨-1, 1000000000⟩, 1) := rfl
  refine ⟨hdiff, ?_⟩
  rintro ⟨r, ret, heq, ⟨-, hvalid⟩, -⟩
  cases hdiff.symm.trans heq
  exact absurd hvalid (by decide)

end Blts.Sync
