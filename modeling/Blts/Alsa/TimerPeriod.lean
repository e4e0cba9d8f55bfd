import Mathlib.Algebra.Order.Ring.Nat
import Mathlib.Tactic.Ring

/-!
# The period of the playback timer

Asynchronous playback in timer mode asks a timer for the duration of a period.
`async_playback_init` computes it in nanoseconds and `timer_set_period` computes ticks of
the timer from that, each with a division before a multiplication.  What goes wrong is one
step in each: the nanoseconds are those of a sample and not of a frame, and they are
multiplied by the ticks per second.
-/

namespace Blts.Alsa

/-- The width of a `long`. -/
inductive LongWidth where
  | ilp32
  | lp64

/-- `LONG_MAX + 1`. -/
def LongWidth.longLimit : LongWidth → Nat
  | .ilp32 => 2147483648
  | .lp64 => 9223372036854775808

/-- The limit of the product of a `long long` and an `unsigned long`. -/
def LongWidth.productLimit : LongWidth → Nat
  | .ilp32 => 9223372036854775808
  | .lp64 => 18446744073709551616

/-- `LLONG_MAX + 1`. -/
def longLongLimit : Nat := 9223372036854775808

/-- A value that is not negative, in a type with a limit.  What becomes of one that does
not fit is not looked at. -/
def fitsIn (limit value : Nat) : Option Nat :=
  if value < limit then some value else none

theorem fitsIn_eq_some_iff {limit value r : Nat} :
    fitsIn limit value = some r ↔ value < limit ∧ value = r := by
  unfold fitsIn
  by_cases h : value < limit
  · rw [if_pos h]
    simp [h]
  · rw [if_neg h]
    simp [h]

/-! ## The source -/

/-- The flag `SNDRV_TIMER_FLG_SLAVE` and the resolution of a timer in nanoseconds. -/
structure TimerInfo where
  slave : Bool
  resolution : Nat

/-- `timer_set_period`: the ticks that are programmed. -/
def timerSetPeriod (width : LongWidth) (info : TimerInfo) (periodNs : Nat) : Option Nat :=
  if info.slave = true then some 1
  else do
    let ticks ← fitsIn width.productLimit (1000000000 / info.resolution * periodNs)
    fitsIn 4294967296 ticks

/-- `timer_period_ns` of `async_playback_init`. -/
def timerPeriodNs (width : LongWidth) (rate channels periodSize : Nat) : Option Nat := do
  let samples ← fitsIn width.longLimit (rate * channels)
  let ns ← fitsIn longLongLimit (1000000000 / samples * periodSize)
  fitsIn width.longLimit ns

/-- `async_playback_init` in timer mode. -/
def asyncPlaybackTicks (width : LongWidth) (info : TimerInfo)
    (rate channels periodSize : Nat) : Option Nat := do
  let periodNs ← timerPeriodNs width rate channels periodSize
  timerSetPeriod width info periodNs

/-! ## One period -/

/-- At least one tick is programmed, and the ticks are a period up to one tick; nothing
overflows. -/
def TimesPeriod (width : LongWidth) (info : TimerInfo) (rate channels periodSize : Nat) : Prop :=
  ∃ ticks, asyncPlaybackTicks width info rate channels periodSize = some ticks ∧ 1 ≤ ticks ∧
    ticks * info.resolution * rate ≤ periodSize * 1000000000 + info.resolution * rate ∧
    periodSize * 1000000000 ≤ ticks * info.resolution * rate + info.resolution * rate

/-- One nanosecond for a sample, which is right for rates up to 3. -/
def OneNanosecond (width : LongWidth) (resolution rate channels periodSize : Nat) : Prop :=
  500000000 < rate * channels ∧ rate * channels ≤ 1000000000 ∧
    resolution ≤ 1000000000 ∧ periodSize < width.longLimit ∧
    1000000000 / resolution * periodSize < 4294967296 ∧
    ((rate = 1 ∧ periodSize * (1000000000 % resolution) ≤ resolution) ∨
      ((rate = 2 ∨ rate = 3) ∧ 1000000000 / resolution * periodSize * resolution * rate ≤
        periodSize * 1000000000 + resolution * rate))

/-- Two nanoseconds for a sample and one tick in a second. -/
def TwoNanoseconds (resolution rate channels periodSize : Nat) : Prop :=
  rate = 1 ∧ 333333333 < channels ∧ channels ≤ 500000000 ∧ 500000000 < resolution ∧
    resolution ≤ 1000000000 ∧ 2 * periodSize * resolution ≤ periodSize * 1000000000 + resolution

section

variable {width : LongWidth} {info : TimerInfo} {rate channels periodSize ticks : Nat}

theorem asyncPlaybackTicks_eq_some_iff (hslave : info.slave = false) :
    asyncPlaybackTicks width info rate channels periodSize = some ticks ↔
      rate * channels < width.longLimit ∧
      1000000000 / (rate * channels) * periodSize < longLongLimit ∧
      1000000000 / (rate * channels) * periodSize < width.longLimit ∧
      ticks < width.productLimit ∧ ticks < 4294967296 ∧
      ticks = 1000000000 / info.resolution * (1000000000 / (rate * channels) * periodSize) := by
  unfold asyncPlaybackTicks timerPeriodNs timerSetPeriod
  simp only [hslave, Bool.false_eq_true, if_false, Option.bind_eq_bind,
    Option.bind_eq_some_iff, fitsIn_eq_some_iff]
  constructor
  · rintro ⟨_, ⟨_, ⟨hsamples, rfl⟩, _, ⟨hns, rfl⟩, hlong, rfl⟩, _, ⟨hproduct, rfl⟩, hticks, rfl⟩
    exact ⟨hsamples, hns, hlong, hproduct, hticks, rfl⟩
  · rintro ⟨hsamples, hns, hlong, hproduct, hticks, rfl⟩
    exact ⟨_, ⟨_, ⟨hsamples, rfl⟩, _, ⟨hns, rfl⟩, hlong, rfl⟩, _, ⟨hproduct, rfl⟩, hticks, rfl⟩

end

/-- A timer of at most a second ticks for more than half a second in every second. -/
theorem half_lt_div_mul {q : Nat} (hq : 0 < q) (h : 0 < 1000000000 / q) :
    500000000 < 1000000000 / q * q := by
  have hle : q ≤ 1000000000 / q * q := Nat.le_mul_of_pos_left q h
  have hdiv := Nat.div_add_mod 1000000000 q
  have hmod := Nat.mod_lt 1000000000 hq
  rw [Nat.mul_comm] at hdiv
  omega

/-- The rates that there can be. -/
theorem rate_le_three {q r p ns : Nat} (hp : 0 < p) (hq : 0 < q) (hA : 0 < 1000000000 / q)
    (hdomain : q * r ≤ p * 1000000000)
    (hupper : 1000000000 / q * (ns * p) * q * r ≤ p * 1000000000 + q * r) : ns * r ≤ 3 := by
  have hhalf := half_lt_div_mul hq hA
  have hproduct : ns * r * (1000000000 / q * q) * p ≤ 2000000000 * p := by
    calc ns * r * (1000000000 / q * q) * p
        = 1000000000 / q * (ns * p) * q * r := by ring
      _ ≤ p * 1000000000 + q * r := hupper
      _ ≤ 2000000000 * p := by omega
  have hle := Nat.le_of_mul_le_mul_right hproduct hp
  by_contra hcontra
  have hfour : 4 * 500000001 ≤ ns * r * (1000000000 / q * q) :=
    Nat.mul_le_mul (by omega) hhalf
  omega

/-- What is too much in a number of periods is too much in each. -/
theorem second_le {q p ns : Nat} (hp : 0 < p)
    (hupper : 1000000000 / q * (ns * p) * q * 1 ≤ p * 1000000000 + q * 1) :
    ns * (1000000000 / q * q) ≤ 1000000000 + q := by
  apply Nat.le_of_mul_le_mul_right _ hp
  calc ns * (1000000000 / q * q) * p = 1000000000 / q * (ns * p) * q * 1 := by ring
    _ ≤ p * 1000000000 + q * 1 := hupper
    _ ≤ p * 1000000000 + q * p := Nat.add_le_add_left (Nat.mul_le_mul_left _ hp) _
    _ = (1000000000 + q) * p := by ring

/-- The quotient of a billion is 1. -/
theorem billion_div_eq_one_iff (n : Nat) :
    1000000000 / n = 1 ↔ 500000000 < n ∧ n ≤ 1000000000 := by
  rcases Nat.eq_zero_or_pos n with rfl | hn
  · simp
  · have hone := Nat.le_div_iff_mul_le (k := n) (x := 1) (y := 1000000000) hn
    have htwo := Nat.div_lt_iff_lt_mul (k := n) (x := 1000000000) (y := 2) hn
    omega

theorem billion_div_eq_two_iff (n : Nat) :
    1000000000 / n = 2 ↔ 333333333 < n ∧ n ≤ 500000000 := by
  rcases Nat.eq_zero_or_pos n with rfl | hn
  · simp
  · have htwo := Nat.le_div_iff_mul_le (k := n) (x := 2) (y := 1000000000) hn
    have hthree := Nat.div_lt_iff_lt_mul (k := n) (x := 1000000000) (y := 3) hn
    omega

section

variable {width : LongWidth} {info : TimerInfo} {rate channels periodSize : Nat}

/-- What is programmed, in terms of the nanoseconds for a sample. -/
theorem timesPeriod_eq (hslave : info.slave = false) {ns ticksPerSecond : Nat}
    (hns : 1000000000 / (rate * channels) = ns)
    (hticks : 1000000000 / info.resolution = ticksPerSecond) :
    TimesPeriod width info rate channels periodSize ↔
      (rate * channels < width.longLimit ∧ ns * periodSize < longLongLimit ∧
        ns * periodSize < width.longLimit ∧
        ticksPerSecond * (ns * periodSize) < width.productLimit ∧
        ticksPerSecond * (ns * periodSize) < 4294967296) ∧
      1 ≤ ticksPerSecond * (ns * periodSize) ∧
      ticksPerSecond * (ns * periodSize) * info.resolution * rate ≤
        periodSize * 1000000000 + info.resolution * rate ∧
      periodSize * 1000000000 ≤
        ticksPerSecond * (ns * periodSize) * info.resolution * rate + info.resolution * rate := by
  subst hns hticks
  unfold TimesPeriod
  simp only [asyncPlaybackTicks_eq_some_iff hslave]
  constructor
  · rintro ⟨ticks, ⟨hsamples, hll, hlong, hproduct, hfits, rfl⟩, h⟩
    exact ⟨⟨hsamples, hll, hlong, hproduct, hfits⟩, h⟩
  · rintro ⟨⟨hsamples, hll, hlong, hproduct, hfits⟩, h⟩
    exact ⟨_, ⟨hsamples, hll, hlong, hproduct, hfits, rfl⟩, h⟩

theorem LongWidth.limits (width : LongWidth) : 2147483648 ≤ width.longLimit ∧
    width.longLimit ≤ longLongLimit ∧ 9223372036854775808 ≤ width.productLimit := by
  cases width <;> decide

/-- The ticks of a number of seconds, in nanoseconds. -/
theorem seconds_eq {q : Nat} (hq : 0 < q) (p : Nat) :
    p * 1000000000 = 1000000000 / q * p * q + p * (1000000000 % q) ∧
      (0 < 1000000000 / q → 500000000 * p ≤ 1000000000 / q * p * q) := by
  have hdiv := Nat.div_add_mod 1000000000 q
  constructor
  · calc p * 1000000000 = p * (q * (1000000000 / q) + 1000000000 % q) := by rw [hdiv]
      _ = 1000000000 / q * p * q + p * (1000000000 % q) := by ring
  · intro hA
    calc 500000000 * p ≤ 1000000000 / q * q * p :=
          Nat.mul_le_mul_right p (Nat.le_of_lt (half_lt_div_mul hq hA))
      _ = 1000000000 / q * p * q := by ring

theorem billion_div_pos {q : Nat} : 0 < 1000000000 / q ↔ 0 < q ∧ q ≤ 1000000000 := by
  rw [Nat.div_pos_iff]

section

variable (hslave : info.slave = false) (hrate : 0 < rate) (hp : 0 < periodSize)
  (hq : 0 < info.resolution)
  (hdomain : info.resolution * rate ≤ periodSize * 1000000000)

include hslave hrate hp hq hdomain

theorem timesPeriod_one (hns : 1000000000 / (rate * channels) = 1) :
    TimesPeriod width info rate channels periodSize ↔
      OneNanosecond width info.resolution rate channels periodSize := by
  obtain ⟨hlong, hlonglong, hproduct⟩ := width.limits
  obtain ⟨hscale, hhalf⟩ := seconds_eq hq periodSize
  have hsamples := (billion_div_eq_one_iff _).mp hns
  rw [timesPeriod_eq hslave hns rfl, Nat.one_mul]
  constructor
  · rintro ⟨⟨_, _, hfits, _, hticks⟩, hone, hupper, hlower⟩
    have hA : 0 < 1000000000 / info.resolution := Nat.pos_of_mul_pos_right hone
    have hupper' : 1000000000 / info.resolution * (1 * periodSize) * info.resolution * rate ≤
        periodSize * 1000000000 + info.resolution * rate := by
      rw [Nat.one_mul]
      exact hupper
    have hthree := rate_le_three hp hq hA hdomain hupper'
    refine ⟨hsamples.1, hsamples.2, (billion_div_pos.mp hA).2, hfits, hticks, ?_⟩
    have hcases : rate = 1 ∨ rate = 2 ∨ rate = 3 := by omega
    rcases hcases with rfl | hcases
    · left
      refine ⟨rfl, ?_⟩
      omega
    · exact .inr ⟨hcases, hupper⟩
  · rintro ⟨_, _, hsecond, hfits, hticks, hcases⟩
    have hA := billion_div_pos.mpr ⟨hq, hsecond⟩
    have hX := hhalf hA
    have hone := Nat.mul_pos hA hp
    refine ⟨⟨by omega, by omega, hfits, by omega, hticks⟩, hone, ?_⟩
    rcases hcases with ⟨rfl, hrest⟩ | ⟨rfl | rfl, hupper⟩
    · omega
    · omega
    · omega

theorem timesPeriod_two (hns : 1000000000 / (rate * channels) = 2) :
    TimesPeriod width info rate channels periodSize ↔
      TwoNanoseconds info.resolution rate channels periodSize := by
  obtain ⟨hlong, hlonglong, hproduct⟩ := width.limits
  obtain ⟨hscale, hhalf⟩ := seconds_eq hq periodSize
  have hsamples := (billion_div_eq_two_iff _).mp hns
  rw [timesPeriod_eq hslave hns rfl]
  constructor
  · rintro ⟨_, hone, hupper, hlower⟩
    have hA : 0 < 1000000000 / info.resolution := Nat.pos_of_mul_pos_right hone
    have hthree := rate_le_three hp hq hA hdomain hupper
    have hrate' : rate = 1 := by omega
    subst hrate'
    -- the timer ticks once in a second
    have hdouble := second_le hp hupper
    have hticks : 1000000000 / info.resolution = 1 := by
      have hlast := Nat.lt_div_mul_add (a := 1000000000) hq
      have htwo : 1000000000 / info.resolution < 2 := by
        apply Nat.lt_of_mul_lt_mul_right (a := info.resolution)
        omega
      omega
    obtain ⟨hlow, hhigh⟩ := (billion_div_eq_one_iff _).mp hticks
    rw [hticks, Nat.one_mul] at hupper
    refine ⟨rfl, ?_, ?_, hlow, hhigh, ?_⟩
    · omega
    · omega
    · omega
  · rintro ⟨rfl, hlow, hhigh, hhalf', hsecond, hupper⟩
    have hticks := (billion_div_eq_one_iff _).mpr ⟨hhalf', hsecond⟩
    have hsmall : 2 * periodSize ≤ info.resolution := by
      obtain ⟨d, hd⟩ := Nat.exists_eq_add_of_lt hhalf'
      have hproduct : 2 * periodSize * info.resolution =
          periodSize * 1000000000 + 2 * periodSize * (d + 1) := by
        rw [hd]
        ring
      have hle : 2 * periodSize ≤ 2 * periodSize * (d + 1) :=
        Nat.le_mul_of_pos_right _ (Nat.succ_pos d)
      omega
    have hlower : 500000000 * (2 * periodSize) ≤ info.resolution * (2 * periodSize) :=
      Nat.mul_le_mul_right _ (Nat.le_of_lt hhalf')
    rw [Nat.mul_comm info.resolution] at hlower
    simp only [hticks, Nat.one_mul, Nat.mul_one]
    refine ⟨⟨by omega, by omega, by omega, by omega, by omega⟩, by omega, by omega, by omega⟩

end

/-- **The timer of asynchronous playback** is set to one period only for rates of up to
three samples a second and hundreds of millions of channels. -/
theorem timesPeriod_iff (hslave : info.slave = false) (hrate : 0 < rate)
    (hp : 0 < periodSize) (hq : 0 < info.resolution)
    (hdomain : info.resolution * rate ≤ periodSize * 1000000000) :
    TimesPeriod width info rate channels periodSize ↔
      OneNanosecond width info.resolution rate channels periodSize ∨
        TwoNanoseconds info.resolution rate channels periodSize := by
  by_cases hone : 1000000000 / (rate * channels) = 1
  · rw [timesPeriod_one hslave hrate hp hq hdomain hone]
    refine (or_iff_left ?_).symm
    rintro ⟨rfl, _, hhigh, _⟩
    have hsamples := (billion_div_eq_one_iff _).mp hone
    omega
  have hnot_one : ¬ OneNanosecond width info.resolution rate channels periodSize :=
    fun h => hone ((billion_div_eq_one_iff _).mpr ⟨h.1, h.2.1⟩)
  by_cases htwo : 1000000000 / (rate * channels) = 2
  · rw [timesPeriod_two hslave hrate hp hq hdomain htwo]
    exact (or_iff_right hnot_one).symm
  · have hnot_two : ¬ TwoNanoseconds info.resolution rate channels periodSize := by
      rintro ⟨rfl, hlow, hhigh, _⟩
      rw [Nat.one_mul] at htwo
      exact htwo ((billion_div_eq_two_iff _).mpr ⟨hlow, hhigh⟩)
    refine iff_of_false ?_ (not_or_intro hnot_one hnot_two)
    intro h
    rw [timesPeriod_eq hslave rfl rfl] at h
    obtain ⟨_, hpos, hupper, _⟩ := h
    have hticks : 0 < 1000000000 / info.resolution := Nat.pos_of_mul_pos_right hpos
    have hns : 0 < 1000000000 / (rate * channels) :=
      Nat.pos_of_mul_pos_right (Nat.pos_of_mul_pos_left hpos)
    have hthree := rate_le_three hp hq hticks hdomain hupper
    have hns_le : 1000000000 / (rate * channels) * 1 ≤ 1000000000 / (rate * channels) * rate :=
      Nat.mul_le_mul_left _ hrate
    have hns_eq : 1000000000 / (rate * channels) = 3 := by omega
    rw [hns_eq] at hthree
    have hrate_eq : rate = 1 := by omega
    subst hrate_eq
    rw [hns_eq] at hupper
    have htriple := second_le hp hupper
    have hlast := Nat.lt_div_mul_add (a := 1000000000) hq
    have hwhole : info.resolution ≤ 1000000000 / info.resolution * info.resolution :=
      Nat.le_mul_of_pos_left _ hticks
    omega

/-- With fewer than `MAX_CHANNELS` channels, which `check_pcm_params` asks for, it is never
set to one period. -/
theorem not_timesPeriod (hslave : info.slave = false) (hrate : 0 < rate)
    (hchannels : channels < 10) (hp : 0 < periodSize) (hq : 0 < info.resolution)
    (hdomain : info.resolution * rate ≤ periodSize * 1000000000) :
    ¬ TimesPeriod width info rate channels periodSize := by
  have hsamples : rate ≤ 3 → rate * channels ≤ 3 * 10 :=
    fun h => Nat.mul_le_mul h (Nat.le_of_lt hchannels)
  intro h
  rw [timesPeriod_eq hslave rfl rfl] at h
  obtain ⟨_, hpos, hupper, _⟩ := h
  have hticks : 0 < 1000000000 / info.resolution := Nat.pos_of_mul_pos_right hpos
  have hthree := rate_le_three hp hq hticks hdomain hupper
  have hns : 0 < 1000000000 / (rate * channels) :=
    Nat.pos_of_mul_pos_right (Nat.pos_of_mul_pos_left hpos)
  have hrate_le : 1 * rate ≤ 1000000000 / (rate * channels) * rate :=
    Nat.mul_le_mul_right _ hns
  have hmany : 1000000000 / 30 ≤ 1000000000 / (rate * channels) :=
    Nat.div_le_div_left (hsamples (by omega)) (billion_div_pos.mp hns).1
  have hthree' : 1000000000 / (rate * channels) * 1 ≤ 1000000000 / (rate * channels) * rate :=
    Nat.mul_le_mul_left _ hrate
  omega

end

/-- A timer of a millisecond. -/
def millisecondTimer : TimerInfo := ⟨false, 1000000⟩

/-- A period of a millisecond, 8 frames at 8000 Hz, takes a billion ticks of a
millisecond. -/
theorem millisecond_off : ¬ ∀ (width : LongWidth) (info : TimerInfo)
    (rate channels periodSize : Nat), info.slave = false → 0 < rate → 0 < channels →
      0 < periodSize → 0 < info.resolution →
      info.resolution * rate ≤ periodSize * 1000000000 →
      TimesPeriod width info rate channels periodSize := by
  intro hall
  obtain ⟨ticks, hticks, _, hupper, _⟩ := hall .lp64 millisecondTimer 8000 1 8 rfl (by decide)
    (by decide) (by decide) (by decide) (by decide)
  have hbillion : asyncPlaybackTicks .lp64 millisecondTimer 8000 1 8 = some 1000000000 := by
    decide
  rw [hbillion] at hticks
  cases hticks
  exact absurd hupper (by decide)

/-- A frame a second, with more channels than there are. -/
theorem manyChannels_timed : TimesPeriod .lp64 ⟨false, 1000000000⟩ 1 600000000 1 :=
  (timesPeriod_iff rfl (by decide) (by decide) (by decide) (by decide)).mpr
    (.inl ⟨by decide, by decide, by decide, by decide, by decide, .inl ⟨rfl, by decide⟩⟩)

theorem millisecondTimer_not_timesPeriod : ¬ TimesPeriod .lp64 millisecondTimer 44100 2 1024 :=
  not_timesPeriod rfl (by decide) (by decide) (by decide) (by decide) (by decide)

end Blts.Alsa
