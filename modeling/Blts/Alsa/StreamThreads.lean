import Mathlib.Data.List.TakeWhile
import Mathlib.Logic.Function.Basic
import Blts.Alsa.Config
import Blts.Lib.Run

/-!
# The threads of a test and their parameters

`alsa_play_rec_pcm` starts a thread for each section of a test case and gives it a pointer
to its entry in an array.  If all of them are started they are joined before the array is
freed.  If one of them is not, those before it are cancelled, the array is freed and the
function returns.

A cancelled thread goes on to its next cancellation point, and may do without one for any
number of steps: a cancellation ends a thread only in the middle of its stream, and it does
not have to.
-/

namespace Blts.Alsa

open Blts.Lib

/-- A section of a test case, with what `check_pcm_params` and `pthread_create` return for
it. -/
structure StreamSection where
  dir : StreamDir
  accepted : Bool
  created : Bool
  deriving DecidableEq

/-- The thread of the section is started.  The parameters of a wait are not checked. -/
def StreamSection.starts (s : StreamSection) : Bool :=
  (s.dir = .none || s.accepted) && s.created

/-- Where a thread stands in `pcm_thread_function`. -/
inductive StreamPlace where
  | absent
  /-- `params->pcm` is read. -/
  | reading
  /-- The stream is played or recorded, or the thread sleeps. -/
  | streaming
  /-- `params->ret` is written. -/
  | storing
  | finished
  deriving DecidableEq

structure StreamThread where
  place : StreamPlace
  cancelled : Bool
  deriving DecidableEq

def StreamThread.IsRunning (t : StreamThread) : Prop :=
  t.place = .reading ∨ t.place = .streaming ∨ t.place = .storing

/-- Where `alsa_play_rec_pcm` stands. -/
inductive MainPlace where
  /-- The settings are applied and the array is allocated. -/
  | preparing
  | starting (t : Nat)
  | joining (t : Nat)
  | cleanup
  /-- The threads that are left have been cancelled. -/
  | cancelled
  | freed
  | returned
  deriving DecidableEq

structure StreamState where
  main : MainPlace
  threads : Nat → StreamThread
  /-- An entry of the array has been read or written after `free`. -/
  usedFreed : Bool

inductive StreamEvent where
  /-- The next step of `alsa_play_rec_pcm`. -/
  | main
  /-- A thread reads its entry, and perhaps again. -/
  | read (t : Nat) (again : Bool)
  /-- A cancelled thread comes to a cancellation point. -/
  | cancel (t : Nat)
  | stop (t : Nat)
  | store (t : Nat)
  deriving DecidableEq

namespace StreamState

/-- The array is freed. -/
def isFreed (s : StreamState) : Bool := s.main = .freed || s.main = .returned

def moveTo (s : StreamState) (t : Nat) (place : StreamPlace) : StreamState :=
  { s with threads := Function.update s.threads t { s.threads t with place := place } }

/-- An entry of the array is used. -/
def use (s : StreamState) : StreamState := { s with usedFreed := s.usedFreed || s.isFreed }

/-- Every thread that is running is cancelled. -/
def cancelAll (s : StreamState) : StreamState :=
  { s with threads := fun t => { s.threads t with cancelled := true } }

end StreamState

/-- The next step of `alsa_play_rec_pcm`: `prepared` says whether the settings could be
applied and the array could be allocated.  Without an array nothing is freed. -/
def mainStep (prepared : Bool) (sections : List StreamSection) (s : StreamState) :
    Option StreamState :=
  match s.main with
  | .preparing =>
      if prepared then some { s with main := .starting 0 } else some { s with main := .freed }
  | .starting t =>
      match sections[t]? with
      | none => some { s with main := .joining 0 }
      | some section_ =>
          if section_.starts then some { s.moveTo t .reading with main := .starting (t + 1) }
          else some { s with main := .cleanup }
  | .joining t =>
      if t < sections.length then
        if (s.threads t).place = .finished then some { s with main := .joining (t + 1) } else none
      else some { s with main := .cleanup }
  | .cleanup => some { s.cancelAll with main := .cancelled }
  | .cancelled => some { s with main := .freed }
  | .freed => some { s with main := .returned }
  | .returned => none

def streamStep (prepared : Bool) (sections : List StreamSection) (s : StreamState) :
    StreamEvent → Option StreamState
  | .main => mainStep prepared sections s
  | .read t again =>
      if (s.threads t).place = .reading then
        some (s.use.moveTo t (if again then .reading else .streaming))
      else none
  | .cancel t =>
      if (s.threads t).place = .streaming ∧ (s.threads t).cancelled = true then
        some (s.moveTo t .finished)
      else none
  | .stop t =>
      if (s.threads t).place = .streaming then
        match sections[t]?.map StreamSection.dir with
        | some .none => some (s.moveTo t .finished)
        | _ => some (s.moveTo t .storing)
      else none
  | .store t =>
      if (s.threads t).place = .storing then some (s.use.moveTo t .finished) else none

def streamSystem (prepared : Bool) (sections : List StreamSection) :
    System StreamState StreamEvent where
  step := streamStep prepared sections

def streamStart : StreamState where
  main := .preparing
  threads _ := { place := .absent, cancelled := false }
  usedFreed := false

/-- No entry of the array is used once it is freed, and no thread runs once the function
has returned. -/
def KeepsThreads (s : StreamState) : Prop :=
  s.usedFreed = false ∧ (s.main = .returned → ∀ t, ¬ (s.threads t).IsRunning)

/-! ## Starting all threads or none -/

/-- The sections whose threads are started. -/
def startedSections (sections : List StreamSection) : List StreamSection :=
  sections.takeWhile StreamSection.starts

/-- Either no thread is started or all of them are. -/
def StartsAllOrNone (prepared : Bool) (sections : List StreamSection) : Prop :=
  prepared = false ∨ startedSections sections = [] ∨ startedSections sections = sections

/-- What is known at each place of `alsa_play_rec_pcm`. -/
def MainInv (prepared : Bool) (sections : List StreamSection) (s : StreamState) : Prop :=
  match s.main with
  | .preparing => ∀ u, (s.threads u).place = .absent
  | .starting t =>
      prepared = true ∧ t ≤ sections.length ∧
        (∀ i < t, ∀ x, sections[i]? = some x → x.starts = true) ∧
        ∀ u, t ≤ u → (s.threads u).place = .absent
  | .joining t => ∀ u, ¬ (t ≤ u ∧ u < sections.length) → ¬ (s.threads u).IsRunning
  | .cleanup | .cancelled | .freed | .returned => ∀ u, ¬ (s.threads u).IsRunning

structure StreamInv (prepared : Bool) (sections : List StreamSection) (s : StreamState) :
    Prop where
  unused : s.usedFreed = false
  main : MainInv prepared sections s

section

variable {prepared : Bool} {sections : List StreamSection} {s s' : StreamState}

theorem not_running_absent {t : StreamThread} (h : t.place = .absent) : ¬ t.IsRunning := by
  unfold StreamThread.IsRunning
  rw [h]
  decide

theorem not_running_finished {t : StreamThread} (h : t.place = .finished) : ¬ t.IsRunning := by
  unfold StreamThread.IsRunning
  rw [h]
  decide

theorem moveTo_self (s : StreamState) (t : Nat) (place : StreamPlace) :
    ((s.moveTo t place).threads t).place = place := by
  simp [StreamState.moveTo]

theorem moveTo_ne (s : StreamState) {t u : Nat} (h : u ≠ t) (place : StreamPlace) :
    (s.moveTo t place).threads u = s.threads u := by
  simp [StreamState.moveTo, h]

/-- The first section that is not started ends the list of those that are. -/
theorem startedSections_nil_of {t : Nat} {x : StreamSection}
    (hbefore : ∀ i < t, ∀ y, sections[i]? = some y → y.starts = true)
    (hx : sections[t]? = some x) (hstarts : ¬ x.starts = true)
    (h : startedSections sections = [] ∨ startedSections sections = sections) : t = 0 := by
  cases hsections : sections with
  | nil =>
      rw [hsections] at hx
      cases hx
  | cons y rest =>
      cases t with
      | zero => rfl
      | succ t =>
          exfalso
          rw [hsections] at hbefore hx h
          have hy : y.starts = true := hbefore 0 (Nat.zero_lt_succ t) y rfl
          have hne : startedSections (y :: rest) ≠ [] := by
            unfold startedSections
            rw [List.takeWhile_cons_of_pos hy]
            exact List.cons_ne_nil _ _
          have hall := List.takeWhile_eq_self_iff.mp (h.resolve_left hne)
          exact hstarts (hall x (List.mem_of_getElem? hx))

/-- **A step of `alsa_play_rec_pcm`** keeps the invariant where all threads are started or
none. -/
theorem streamInv_main (hstart : StartsAllOrNone prepared sections)
    (h : StreamInv prepared sections s) (hstep : mainStep prepared sections s = some s') :
    StreamInv prepared sections s' := by
  obtain ⟨hunused, hmain⟩ := h
  unfold mainStep at hstep
  unfold MainInv at hmain
  cases hplace : s.main with
  | preparing =>
      rw [hplace] at hstep hmain
      dsimp only at hstep hmain
      by_cases hprepared : prepared = true
      · rw [if_pos hprepared] at hstep
        cases hstep
        exact ⟨hunused, hprepared, Nat.zero_le _, fun i hi => absurd hi (Nat.not_lt_zero i),
          fun u _ => hmain u⟩
      · rw [if_neg hprepared] at hstep
        cases hstep
        exact ⟨hunused, fun u => not_running_absent (hmain u)⟩
  | starting t =>
      rw [hplace] at hstep hmain
      dsimp only at hstep hmain
      obtain ⟨hprepared, hle, hbefore, habsent⟩ := hmain
      cases hx : sections[t]? with
      | none =>
          rw [hx] at hstep
          cases hstep
          refine ⟨hunused, fun u hu => not_running_absent (habsent u ?_)⟩
          omega
      | some x =>
          rw [hx] at hstep
          dsimp only at hstep
          by_cases hstarts : x.starts = true
          · rw [if_pos hstarts] at hstep
            cases hstep
            have hlt : t < sections.length := by
              by_contra hlt
              rw [List.getElem?_eq_none (Nat.not_lt.mp hlt)] at hx
              cases hx
            refine ⟨hunused, hprepared, hlt, ?_, ?_⟩
            · intro i hi y hy
              by_cases hit : i = t
              · rw [hit, hx] at hy
                cases hy
                exact hstarts
              · exact hbefore i (by omega) y hy
            · intro u hu
              show ((s.moveTo t .reading).threads u).place = .absent
              rw [moveTo_ne s (by omega)]
              exact habsent u (by omega)
          · rw [if_neg hstarts] at hstep
            cases hstep
            have hnone : startedSections sections = [] ∨ startedSections sections = sections := by
              refine hstart.resolve_left ?_
              rw [hprepared]
              decide
            have hzero := startedSections_nil_of hbefore hx hstarts hnone
            exact ⟨hunused, fun u => not_running_absent (habsent u (hzero ▸ Nat.zero_le u))⟩
  | joining t =>
      rw [hplace] at hstep hmain
      dsimp only at hstep hmain
      by_cases hlt : t < sections.length
      · rw [if_pos hlt] at hstep
        obtain ⟨hfinished, hstep⟩ := Option.ite_none_right_eq_some.mp hstep
        cases hstep
        refine ⟨hunused, fun u hu => ?_⟩
        by_cases hut : u = t
        · rw [hut]
          exact not_running_finished hfinished
        · exact hmain u (by omega)
      · rw [if_neg hlt] at hstep
        cases hstep
        exact ⟨hunused, fun u => hmain u (by omega)⟩
  | cleanup =>
      rw [hplace] at hstep hmain
      cases hstep
      exact ⟨hunused, hmain⟩
  | cancelled =>
      rw [hplace] at hstep hmain
      cases hstep
      exact ⟨hunused, hmain⟩
  | freed =>
      rw [hplace] at hstep hmain
      cases hstep
      exact ⟨hunused, hmain⟩
  | returned =>
      rw [hplace] at hstep
      cases hstep

/-- What a step of a thread is. -/
theorem threadStep_cases {e : StreamEvent}
    (hstep : (streamSystem prepared sections).step s e = some s') (he : e ≠ .main) :
    ∃ t place, (s.threads t).IsRunning ∧
      (s' = s.moveTo t place ∨ s' = s.use.moveTo t place) := by
  cases e with
  | main => exact absurd rfl he
  | read t again =>
      replace hstep : (if _ then _ else _) = some s' := hstep
      obtain ⟨hplace, hstep⟩ := Option.ite_none_right_eq_some.mp hstep
      cases hstep
      exact ⟨t, _, .inl hplace, .inr rfl⟩
  | cancel t =>
      replace hstep : (if _ then _ else _) = some s' := hstep
      obtain ⟨hplace, hstep⟩ := Option.ite_none_right_eq_some.mp hstep
      cases hstep
      exact ⟨t, _, .inr (.inl hplace.1), .inl rfl⟩
  | stop t =>
      replace hstep : (if _ then _ else _) = some s' := hstep
      by_cases hplace : (s.threads t).place = .streaming
      · rw [if_pos hplace] at hstep
        split at hstep
        · cases hstep
          exact ⟨t, _, .inr (.inl hplace), .inl rfl⟩
        · cases hstep
          exact ⟨t, _, .inr (.inl hplace), .inl rfl⟩
      · rw [if_neg hplace] at hstep
        cases hstep
  | store t =>
      replace hstep : (if _ then _ else _) = some s' := hstep
      obtain ⟨hplace, hstep⟩ := Option.ite_none_right_eq_some.mp hstep
      cases hstep
      exact ⟨t, _, .inr (.inr hplace), .inr rfl⟩

/-- A thread that runs does not, where all threads have ended, and there is an array where
it runs. -/
theorem StreamInv.running (h : StreamInv prepared sections s) {t : Nat}
    (hrunning : (s.threads t).IsRunning) : s.isFreed = false ∧
      ((∃ u, s.main = .starting u ∧ t < u) ∨
        ∃ u, s.main = .joining u ∧ u ≤ t ∧ t < sections.length) := by
  have hmain := h.main
  unfold MainInv at hmain
  cases hplace : s.main with
  | preparing =>
      rw [hplace] at hmain
      exact absurd hrunning (not_running_absent (hmain t))
  | starting u =>
      rw [hplace] at hmain
      refine ⟨by simp [StreamState.isFreed, hplace], .inl ⟨u, rfl, ?_⟩⟩
      by_contra htu
      exact not_running_absent (hmain.2.2.2 t (Nat.not_lt.mp htu)) hrunning
  | joining u =>
      rw [hplace] at hmain
      refine ⟨by simp [StreamState.isFreed, hplace], .inr ⟨u, rfl, ?_⟩⟩
      by_contra htu
      exact hmain t htu hrunning
  | cleanup =>
      rw [hplace] at hmain
      exact absurd hrunning (hmain t)
  | cancelled =>
      rw [hplace] at hmain
      exact absurd hrunning (hmain t)
  | freed =>
      rw [hplace] at hmain
      exact absurd hrunning (hmain t)
  | returned =>
      rw [hplace] at hmain
      exact absurd hrunning (hmain t)

/-- **A step of a thread** keeps the invariant. -/
theorem streamInv_thread (h : StreamInv prepared sections s) {t : Nat} {place : StreamPlace}
    (hrunning : (s.threads t).IsRunning) : StreamInv prepared sections (s.moveTo t place) := by
  refine ⟨h.unused, ?_⟩
  have hmain := h.main
  obtain ⟨_, ⟨u, hplace, htu⟩ | ⟨u, hplace, hut, hlt⟩⟩ := h.running hrunning
  · have hplace' : (s.moveTo t place).main = .starting u := hplace
    unfold MainInv at hmain ⊢
    rw [hplace] at hmain
    rw [hplace']
    obtain ⟨hprepared, hle, hbefore, habsent⟩ := hmain
    refine ⟨hprepared, hle, hbefore, fun v hv => ?_⟩
    rw [moveTo_ne s (by omega)]
    exact habsent v hv
  · have hplace' : (s.moveTo t place).main = .joining u := hplace
    unfold MainInv at hmain ⊢
    rw [hplace] at hmain
    rw [hplace']
    intro v hv
    rw [moveTo_ne s (by omega)]
    exact hmain v hv

theorem streamInv_step (hstart : StartsAllOrNone prepared sections) {e : StreamEvent}
    (h : StreamInv prepared sections s)
    (hstep : (streamSystem prepared sections).step s e = some s') :
    StreamInv prepared sections s' := by
  by_cases he : e = .main
  · subst he
    exact streamInv_main hstart h hstep
  · obtain ⟨t, place, hrunning, rfl | rfl⟩ := threadStep_cases hstep he
    · exact streamInv_thread h hrunning
    · have huse : s.use = s := by
        unfold StreamState.use
        rw [(h.running hrunning).1, Bool.or_false]
      rw [huse]
      exact streamInv_thread h hrunning

theorem streamInv_start (prepared : Bool) (sections : List StreamSection) :
    StreamInv prepared sections streamStart :=
  ⟨rfl, fun _ => rfl⟩

theorem StreamInv.keeps (h : StreamInv prepared sections s) : KeepsThreads s := by
  refine ⟨h.unused, fun hreturned => ?_⟩
  have hmain := h.main
  unfold MainInv at hmain
  rw [hreturned] at hmain
  exact hmain

/-! ## Starting some -/

/-- The threads of the first sections are started. -/
theorem exec_starting {k : Nat} : ∀ {t : Nat} {s : StreamState}, s.main = .starting t →
    (∀ i < k, ∃ x, sections[t + i]? = some x ∧ x.starts = true) →
      ∃ s', (streamSystem prepared sections).exec s (List.replicate k .main) = some s' ∧
        s'.main = .starting (t + k) ∧ (∀ i < k, (s'.threads (t + i)).place = .reading) ∧
        ∀ u < t, s'.threads u = s.threads u := by
  induction k with
  | zero =>
      intro t s hmain _
      exact ⟨s, rfl, hmain, fun i hi => absurd hi (Nat.not_lt_zero i), fun _ _ => rfl⟩
  | succ k ih =>
      intro t s hmain hstarts
      obtain ⟨x, hx, hxstarts⟩ := hstarts 0 (Nat.zero_lt_succ k)
      have hstep : (streamSystem prepared sections).step s .main =
          some { s.moveTo t .reading with main := .starting (t + 1) } := by
        show mainStep prepared sections s = _
        unfold mainStep
        rw [hmain]
        dsimp only
        rw [show sections[t]? = some x from hx]
        exact if_pos hxstarts
      have hrest : ∀ i < k, ∃ x, sections[t + 1 + i]? = some x ∧ x.starts = true := by
        intro i hi
        obtain ⟨y, hy, hystarts⟩ := hstarts (i + 1) (Nat.succ_lt_succ hi)
        exact ⟨y, by rw [Nat.add_assoc, Nat.add_comm 1 i]; exact hy, hystarts⟩
      obtain ⟨s', hrun, hmain', hreading, hsame⟩ :=
        ih (s := { s.moveTo t .reading with main := .starting (t + 1) }) rfl hrest
      refine ⟨s', ?_, ?_, ?_, ?_⟩
      · rw [List.replicate_succ, System.exec_cons, hstep]
        exact hrun
      · rw [hmain', Nat.add_assoc, Nat.add_comm 1 k]
      · intro i hi
        cases i with
        | zero =>
            rw [Nat.add_zero, hsame t (Nat.lt_succ_self t)]
            exact moveTo_self s t .reading
        | succ i =>
            have hnext := hreading i (Nat.lt_of_succ_lt_succ hi)
            rw [Nat.add_assoc, Nat.add_comm 1 i] at hnext
            exact hnext
      · intro u hu
        rw [hsame u (Nat.lt_succ_of_lt hu)]
        exact moveTo_ne s (Nat.ne_of_lt hu) .reading

theorem startedSections_get : ∀ {i : Nat}, i < (startedSections sections).length →
    ∃ x, sections[i]? = some x ∧ x.starts = true := by
  induction sections with
  | nil => exact fun hi => absurd hi (Nat.not_lt_zero _)
  | cons y rest ih =>
      intro i hi
      unfold startedSections at hi
      by_cases hy : y.starts = true
      · rw [List.takeWhile_cons_of_pos hy] at hi
        cases i with
        | zero => exact ⟨y, rfl, hy⟩
        | succ i => exact ih (Nat.lt_of_succ_lt_succ hi)
      · rw [List.takeWhile_cons_of_neg hy] at hi
        exact absurd hi (Nat.not_lt_zero i)

/-- The section that ends the list of those that are started. -/
theorem startedSections_stop (h : startedSections sections ≠ sections) :
    ∃ x, sections[(startedSections sections).length]? = some x ∧ ¬ x.starts = true := by
  induction sections with
  | nil => exact absurd rfl h
  | cons y rest ih =>
      unfold startedSections at h ⊢
      by_cases hy : y.starts = true
      · rw [List.takeWhile_cons_of_pos hy] at h ⊢
        obtain ⟨x, hx, hstarts⟩ := ih fun heq => h (congrArg (y :: ·) heq)
        exact ⟨x, hx, hstarts⟩
      · rw [List.takeWhile_cons_of_neg hy]
        exact ⟨y, rfl, hy⟩

/-- If only some of the threads are started, the first of them can read its entry when it
has been freed. -/
theorem some_started_uses_freed (h : ¬ StartsAllOrNone prepared sections) :
    ∃ es s, (streamSystem prepared sections).exec streamStart es = some s ∧
      ¬ KeepsThreads s := by
  unfold StartsAllOrNone at h
  simp only [not_or, Bool.not_eq_false] at h
  obtain ⟨hprepared, hsome, hnotAll⟩ := h
  obtain ⟨x, hx, hstarts⟩ := startedSections_stop hnotAll
  have hpos : 0 < (startedSections sections).length := List.length_pos_iff.mpr hsome
  have hget : ∀ i < (startedSections sections).length,
      ∃ x, sections[0 + i]? = some x ∧ x.starts = true := by
    intro i hi
    rw [Nat.zero_add]
    exact startedSections_get hi
  obtain ⟨s, hrun, hmain, hreading, _⟩ :=
    exec_starting (s := { streamStart with main := .starting 0 }) rfl hget
  rw [Nat.zero_add] at hmain
  have hplace : (s.threads 0).place = .reading := hreading 0 hpos
  -- the section that is not started: the threads are cancelled and the array is freed
  let sys := streamSystem prepared sections
  have hprepare : sys.step streamStart .main =
      some { streamStart with main := .starting 0 } := if_pos hprepared
  have hfail : sys.step s .main = some { s with main := .cleanup } := by
    show mainStep prepared sections s = _
    unfold mainStep
    rw [hmain]
    dsimp only
    rw [hx]
    exact if_neg hstarts
  let freed : StreamState := { s.cancelAll with main := .freed }
  have hfree : sys.exec s [.main, .main, .main] = some freed := by
    rw [System.exec_cons, hfail]
    rfl
  have hread : sys.step freed (.read 0 false) = some (freed.use.moveTo 0 .streaming) :=
    if_pos hplace
  refine ⟨.main :: (List.replicate (startedSections sections).length .main ++
    ([.main, .main, .main] ++ [.read 0 false])), freed.use.moveTo 0 .streaming, ?_, fun h => ?_⟩
  · rw [System.exec_cons]
    show (sys.step streamStart .main).bind _ = _
    rw [hprepare, Option.bind_some, System.exec_append]
    show (Option.bind (sys.exec _ _) _) = _
    rw [hrun, Option.bind_some, System.exec_append]
    show (Option.bind (sys.exec s _) _) = _
    rw [hfree, Option.bind_some, System.exec_cons]
    show (sys.step freed _).bind _ = _
    rw [hread]
    rfl
  · have hunused : (s.usedFreed || true) = false := h.1
    rw [Bool.or_true] at hunused
    cases hunused

end

/-- **The thread parameters**: in every interleaving no entry is used after the array is
freed and no thread runs when `alsa_play_rec_pcm` has returned, exactly if the threads of
all sections can be started or none is. -/
theorem keepsThreads_iff (prepared : Bool) (sections : List StreamSection) :
    (∀ es s, (streamSystem prepared sections).exec streamStart es = some s → KeepsThreads s) ↔
      StartsAllOrNone prepared sections := by
  constructor
  · intro h
    by_contra hstart
    obtain ⟨es, s, hrun, hbad⟩ := some_started_uses_freed hstart
    exact hbad (h es s hrun)
  · intro hstart es s hrun
    let sys := streamSystem prepared sections
    have hmeets : sys.Meets (fun _ _ => True) streamStart es :=
      sys.meets_of_forall es fun _ _ => trivial
    have hinv := sys.exec_invariant (StreamInv prepared sections)
      (fun _ _ _ h _ hstep => streamInv_step hstart h hstep) es
      (streamInv_start prepared sections) hmeets hrun
    exact hinv.keeps

/-- Two sections, the second of them rejected. -/
theorem rejectedSection_frees :
    ¬ ∀ prepared sections es s,
      (streamSystem prepared sections).exec streamStart es = some s → KeepsThreads s := by
  intro h
  have hkeeps := h true [⟨.output, true, true⟩, ⟨.input, false, true⟩]
    [.main, .main, .main, .main, .main, .read 0 false] _ rfl
  exact absurd hkeeps.1 (by decide)

end Blts.Alsa
