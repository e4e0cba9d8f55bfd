import Blts.Lib.LinkedList
import Blts.Lib.Run
import Mathlib.Data.List.Perm.Basic
import Mathlib.Data.List.Range

/-!
# The event loop of `wlan-core-eloop.c`

Timeouts stand in a linked list, earliest first.  They are registered and cancelled from
outside of the loop and from the handlers that it calls, between any two of its turns; one
turn calls the handler of at most one of them.

## Main results

* `timeouts_conserved` — a timeout that was registered is pending, was cancelled or has been
  called once, and not before its time.
* `timeouts_inOrder` — they are called in the order of their times, if the clock goes forward.
-/

namespace Blts.Wlan

open Blts.Lib

/-! ## Times -/

/-- `struct timeval`. -/
@[ext]
structure Timeval where
  sec : Nat
  usec : Nat
  deriving DecidableEq

/-- `timercmp(a, b, <)`. -/
def Timeval.before (a b : Timeval) : Bool :=
  if a.sec = b.sec then a.usec < b.usec else a.sec < b.sec

/-- The loop `while (timeout->time.tv_usec >= 1000000)`. -/
def carryUsecs : Nat → Timeval → Timeval
  | 0, t => t
  | rounds + 1, t =>
      if 1000000 ≤ t.usec then carryUsecs rounds ⟨t.sec + 1, t.usec - 1000000⟩ else t

/-- The time of a timeout: a round of the loop for each microsecond would be enough. -/
def deadline (now : Timeval) (secs usecs : Nat) : Timeval :=
  carryUsecs (now.usec + usecs) ⟨now.sec + secs, now.usec + usecs⟩

theorem Timeval.before_iff {a b : Timeval} :
    a.before b = true ↔ a.sec < b.sec ∨ a.sec = b.sec ∧ a.usec < b.usec := by
  unfold Timeval.before
  split_ifs with h
  · simp [h]
  · simp [h]

/-! ## Timeouts -/

/-- `struct eloop_timeout`, with the pointers as numbers. -/
structure EloopTimeout where
  time : Timeval
  handler : Nat
  eloopData : Int
  userData : Int
  deriving DecidableEq

/-- `ELOOP_ALL_CTX`. -/
def eloopAllCtx : Int := -1

/-- `eloop_register_timeout`: the walk stops at the first timeout that is later. -/
def eloopRegisterTimeout (l : LinkedList EloopTimeout) (timeout : EloopTimeout) :
    Option (LinkedList EloopTimeout) :=
  (l.find fun tmp => timeout.time.before tmp.time).bind fun (link, _) => l.insert link timeout

/-- The timeouts that `eloop_cancel_timeout` removes. -/
def EloopTimeout.cancelledBy (handler : Nat) (eloopData userData : Int)
    (timeout : EloopTimeout) : Bool :=
  timeout.handler = handler ∧ (timeout.eloopData = eloopData ∨ eloopData = eloopAllCtx) ∧
    (timeout.userData = userData ∨ userData = eloopAllCtx)

/-- The loop of `eloop_cancel_timeout`, with how many it has removed. -/
def cancelLoop (p : EloopTimeout → Bool) : Nat → Link → Option Nat → LinkedList EloopTimeout →
    Option (LinkedList EloopTimeout × Nat)
  | _, _, none, l => some (l, 0)
  | 0, _, some _, _ => none
  | rounds + 1, link, some a, l =>
      (l.node a).bind fun timeout =>
        if p timeout.val then
          (l.remove link a).bind fun l =>
            (cancelLoop p rounds link timeout.next l).map fun (l, removed) => (l, removed + 1)
        else cancelLoop p rounds (.after a) timeout.next l

/-- `eloop_cancel_timeout`. -/
def eloopCancelTimeout (l : LinkedList EloopTimeout) (handler : Nat) (eloopData userData : Int) :
    Option (LinkedList EloopTimeout × Nat) :=
  cancelLoop (EloopTimeout.cancelledBy handler eloopData userData) l.cells.length .head l.head l

/-! ## Turns -/

/-- A call of a handler: the cell of the timeout, and the time that was read. -/
structure TimeoutCall where
  cell : Nat × EloopTimeout
  now : Timeval

/-- The timeouts, and what has become of those that are gone. -/
structure EloopTimeouts where
  timeout : LinkedList EloopTimeout
  /-- What `gettimeofday` returned last. -/
  clock : Timeval
  called : List TimeoutCall
  cancelled : List (Nat × EloopTimeout)

/-- What can happen to the timeouts; a handler may do it as well. -/
inductive TimeoutEvent where
  | register (now : Timeval) (secs usecs handler : Nat) (eloopData userData : Int)
  | cancel (handler : Nat) (eloopData userData : Int)
  /-- The check of a turn of `eloop_run`. -/
  | turn (now : Timeval)

/-- The check if some registered timeouts have occurred: the first is called, and freed. -/
def EloopTimeouts.turn (s : EloopTimeouts) (now : Timeval) : Option EloopTimeouts :=
  match s.timeout.head with
  | none => some s
  | some a =>
      (s.timeout.node a).bind fun tmp =>
        if now.before tmp.val.time then some { s with clock := now }
        else (s.timeout.remove .head a).map fun l =>
          { s with timeout := l, clock := now, called := s.called ++ [⟨(a, tmp.val), now⟩] }

/-- Calls and turns; a step fails where a pointer leads nowhere. -/
def timeoutStep (s : EloopTimeouts) : TimeoutEvent → Option EloopTimeouts
  | .register now secs usecs handler eloopData userData =>
      (eloopRegisterTimeout s.timeout
        ⟨deadline now secs usecs, handler, eloopData, userData⟩).map fun l =>
          { s with timeout := l, clock := now }
  | .cancel handler eloopData userData =>
      (eloopCancelTimeout s.timeout handler eloopData userData).map fun (l, _) =>
        { s with
          timeout := l
          cancelled := s.cancelled ++ s.timeout.contents.filter
            fun x => x.2.cancelledBy handler eloopData userData }
  | .turn now => s.turn now

def timeoutSystem : System EloopTimeouts TimeoutEvent := ⟨timeoutStep⟩

/-- After `eloop_init`. -/
def timeoutStart (now : Timeval) : EloopTimeouts := ⟨.empty, now, [], []⟩

/-! ## The order of timeouts -/

/-- A timeout is called before another: it is earlier, or was registered before. -/
def Precedes (x y : Nat × EloopTimeout) : Prop :=
  x.2.time.before y.2.time = true ∨ x.2.time = y.2.time ∧ x.1 < y.1

theorem Precedes.of_not_before {x y : Nat × EloopTimeout}
    (h : y.2.time.before x.2.time = false) (hlt : x.1 < y.1) : Precedes x y := by
  have hnot := Bool.eq_false_iff.mp h
  rw [ne_eq, Timeval.before_iff] at hnot
  unfold Precedes
  rw [Timeval.before_iff, Timeval.ext_iff]
  omega

/-- What is before the time of a timeout is before those of the timeouts after it. -/
theorem Precedes.before {x y : Nat × EloopTimeout} {t : Timeval} (h : t.before x.2.time = true)
    (hxy : Precedes x y) : t.before y.2.time = true := by
  rcases hxy with hxy | ⟨heq, _⟩
  · rw [Timeval.before_iff] at h hxy ⊢
    omega
  · rwa [← heq]

/-! ## The calls -/

/-- **`eloop_register_timeout`** puts the timeout behind those that are not later. -/
theorem eloopRegisterTimeout_spec {l : LinkedList EloopTimeout} {xs : List (Nat × EloopTimeout)}
    (h : l.Holds xs) (timeout : EloopTimeout) : ∃ l' pre post,
      eloopRegisterTimeout l timeout = some l' ∧
        LinkedList.FoundAt (fun tmp => timeout.time.before tmp.time) xs pre post ∧
          l'.Holds (pre ++ (l.cells.length, timeout) :: post) ∧
            l'.cells.length = l.cells.length + 1 := by
  obtain ⟨pre, post, hfound, hfind⟩ := LinkedList.find_spec h
    fun tmp => timeout.time.before tmp.time
  rw [hfound.eq] at h
  obtain ⟨l', hinsert, hholds, hlength⟩ := LinkedList.insert_spec h timeout
  refine ⟨l', pre, post, ?_, hfound, hholds, hlength⟩
  rw [eloopRegisterTimeout, hfind]
  exact hinsert

theorem cancelLoop_spec (p : EloopTimeout → Bool) (post : List (Nat × EloopTimeout)) :
    ∀ {rounds : Nat} {pre : List (Nat × EloopTimeout)} {l : LinkedList EloopTimeout},
      post.length ≤ rounds → l.Holds (pre ++ post) → ∃ l',
        cancelLoop p rounds (LinkedList.linkAt pre) (post.head?.map Prod.fst) l =
          some (l', post.countP fun x => p x.2) ∧
            l'.Holds (pre ++ post.filter fun x => !p x.2) ∧
              l'.cells.length = l.cells.length := by
  induction post with
  | nil =>
      intro rounds pre l _ h
      refine ⟨l, ?_, h, rfl⟩
      cases rounds <;> rfl
  | cons x post ih =>
      intro rounds pre l hle h
      obtain ⟨q, _, hpost⟩ := LinkedList.Segment.split h
      obtain _ | @⟨a, n, _, _, hnode, hrest⟩ := hpost
      cases rounds with
      | zero => cases hle
      | succ rounds =>
          have hle' := Nat.le_of_succ_le_succ hle
          simp only [List.head?_cons, Option.map_some, cancelLoop, hnode, Option.bind_some,
            hrest.start_eq]
          by_cases hp : p n.val = true
          · obtain ⟨l₁, hremove, hholds, hlength⟩ := LinkedList.remove_spec h
            obtain ⟨l', hloop, hholds', hlength'⟩ := ih hle' hholds
            refine ⟨l', ?_, ?_, hlength'.trans hlength⟩
            · rw [if_pos hp, hremove, Option.bind_some, hloop,
                List.countP_cons_of_pos (p := fun x : Nat × EloopTimeout => p x.2) hp]
              rfl
            · rwa [List.filter_cons_of_neg (by simp [hp])]
          · have hwhole : l.Holds ((pre ++ [(a, n.val)]) ++ post) := by
              rwa [List.append_assoc]
            obtain ⟨l', hloop, hholds', hlength'⟩ := ih hle' hwhole
            rw [LinkedList.linkAt_append_singleton] at hloop
            refine ⟨l', ?_, ?_, hlength'⟩
            · rw [if_neg hp, hloop,
                List.countP_cons_of_neg (p := fun x : Nat × EloopTimeout => p x.2) hp]
            · rw [List.filter_cons_of_pos (by simp [hp])]
              rwa [List.append_assoc] at hholds'

/-- **`eloop_cancel_timeout`** removes the timeouts that match, and counts them. -/
theorem eloopCancelTimeout_spec {l : LinkedList EloopTimeout} {xs : List (Nat × EloopTimeout)}
    (h : l.Holds xs) (handler : Nat) (eloopData userData : Int) : ∃ l',
      eloopCancelTimeout l handler eloopData userData =
        some (l', xs.countP fun x => x.2.cancelledBy handler eloopData userData) ∧
          l'.Holds (xs.filter fun x => !x.2.cancelledBy handler eloopData userData) ∧
            l'.cells.length = l.cells.length := by
  have hspec := @cancelLoop_spec (EloopTimeout.cancelledBy handler eloopData userData) xs
    l.cells.length [] l h.length_le h
  rwa [← LinkedList.Segment.start_eq h] at hspec

/-! ## Moves -/

/-- What a call or a turn does to the list of pending timeouts. -/
inductive TimeoutMove (s : EloopTimeouts) (xs : List (Nat × EloopTimeout)) :
    TimeoutEvent → EloopTimeouts → List (Nat × EloopTimeout) → Prop
  | register {now : Timeval} {secs usecs handler : Nat} {eloopData userData : Int}
      {timeout : EloopTimeout} {l : LinkedList EloopTimeout} {pre post : List (Nat × EloopTimeout)}
      (time : timeout.time = deadline now secs usecs)
      (found : LinkedList.FoundAt (fun tmp => timeout.time.before tmp.time) xs pre post)
      (length : l.cells.length = s.timeout.cells.length + 1) :
      TimeoutMove s xs (.register now secs usecs handler eloopData userData)
        { s with timeout := l, clock := now } (pre ++ (s.timeout.cells.length, timeout) :: post)
  | cancel {handler : Nat} {eloopData userData : Int} {l : LinkedList EloopTimeout}
      (p : Nat × EloopTimeout → Bool) (length : l.cells.length = s.timeout.cells.length) :
      TimeoutMove s xs (.cancel handler eloopData userData)
        { s with timeout := l, cancelled := s.cancelled ++ xs.filter p } (xs.filter fun x => !p x)
  | idle {now : Timeval} (none : xs = []) : TimeoutMove s xs (.turn now) s xs
  | early {now : Timeval} : TimeoutMove s xs (.turn now) { s with clock := now } xs
  | call {now : Timeval} {x : Nat × EloopTimeout} {rest : List (Nat × EloopTimeout)}
      {l : LinkedList EloopTimeout} (first : xs = x :: rest)
      (due : now.before x.2.time = false) (length : l.cells.length = s.timeout.cells.length) :
      TimeoutMove s xs (.turn now)
        { s with timeout := l, clock := now, called := s.called ++ [⟨x, now⟩] } rest

/-- **One step**: no pointer leads astray, and the list is what the move makes of it. -/
theorem timeoutStep_moves {s : EloopTimeouts} {xs : List (Nat × EloopTimeout)}
    (h : s.timeout.Holds xs) (e : TimeoutEvent) : ∃ s' xs', timeoutStep s e = some s' ∧
      s'.timeout.Holds xs' ∧ TimeoutMove s xs e s' xs' := by
  cases e with
  | register now secs usecs handler eloopData userData =>
      obtain ⟨l, pre, post, hregister, hfound, hholds, hlength⟩ :=
        eloopRegisterTimeout_spec h ⟨deadline now secs usecs, handler, eloopData, userData⟩
      refine ⟨_, _, ?_, hholds, .register rfl hfound hlength⟩
      rw [timeoutStep, hregister, Option.map_some]
  | cancel handler eloopData userData =>
      obtain ⟨l, hcancel, hholds, hlength⟩ := eloopCancelTimeout_spec h handler eloopData userData
      refine ⟨_, _, ?_, hholds, .cancel _ hlength⟩
      rw [timeoutStep, hcancel, Option.map_some, LinkedList.contents_eq h]
  | turn now =>
      cases xs with
      | nil =>
          have hhead : s.timeout.head = none := LinkedList.Segment.start_eq h
          refine ⟨s, [], ?_, h, .idle rfl⟩
          simp only [timeoutStep, EloopTimeouts.turn, hhead]
      | cons x rest =>
          obtain ⟨a, tmp⟩ := x
          have hhead : s.timeout.head = some a := LinkedList.Segment.start_eq h
          obtain ⟨l, hremove, hholds, hlength⟩ := @LinkedList.remove_spec _ _ [] _ _ _ h
          rw [LinkedList.linkAt_nil] at hremove
          have hfirst : LinkedList.Segment s.timeout (some a) ((a, tmp) :: rest) none := by
            rw [← hhead]
            exact h
          obtain _ | @⟨_, n, _, _, hnode, _⟩ := hfirst
          by_cases hnow : now.before n.val.time = true
          · refine ⟨{ s with clock := now }, _, ?_, h, .early⟩
            simp only [timeoutStep, EloopTimeouts.turn, hhead, hnode, Option.bind_some, hnow]
            rfl
          · refine ⟨_, _, ?_, hholds, .call rfl (Bool.eq_false_iff.mpr hnow) hlength⟩
            simp only [timeoutStep, EloopTimeouts.turn, hhead, hnode, Option.bind_some, hnow,
              hremove, Option.map_some]
            rfl

/-! ## Runs -/

/-- The timeouts of a state: those that are pending stand in order, and each that was
registered is pending, was called, not before its time, or was cancelled. -/
structure TimeoutInv (s : EloopTimeouts) (xs : List (Nat × EloopTimeout)) : Prop where
  sorted : xs.Pairwise Precedes
  due : ∀ call ∈ s.called, call.now.before call.cell.2.time = false
  conserved : (s.called.map (fun call => call.cell.1) ++ s.cancelled.map Prod.fst ++
    xs.map Prod.fst).Perm (List.range s.timeout.cells.length)

/-- Every timeout has a cell that has been allocated. -/
theorem TimeoutInv.cell_lt {s : EloopTimeouts} {xs : List (Nat × EloopTimeout)}
    (h : TimeoutInv s xs) : ∀ x ∈ s.called.map TimeoutCall.cell ++ xs,
      x.1 < s.timeout.cells.length := by
  intro x hx
  refine List.mem_range.mp (h.conserved.subset ?_)
  simp only [List.mem_append, List.mem_map] at hx ⊢
  rcases hx with ⟨call, hcall, rfl⟩ | hx
  · exact .inl (.inl ⟨call, hcall, rfl⟩)
  · exact .inr ⟨x, hx, rfl⟩

/-- A timeout keeps its list in order where the walk stops. -/
theorem sorted_insert {ys xs pre post : List (Nat × EloopTimeout)} {id : Nat}
    {timeout : EloopTimeout}
    (hfound : LinkedList.FoundAt (fun tmp => timeout.time.before tmp.time) xs pre post)
    (hids : ∀ x ∈ xs, x.1 < id) (hys : ∀ y ∈ ys, Precedes y (id, timeout))
    (hsorted : (ys ++ xs).Pairwise Precedes) :
    (ys ++ (pre ++ (id, timeout) :: post)).Pairwise Precedes := by
  have hpre : ∀ x ∈ pre, Precedes x (id, timeout) := fun x hx =>
    .of_not_before (hfound.before x hx) (hids x (hfound.eq ▸ List.mem_append_left post hx))
  have hpost : ∀ x ∈ post, Precedes (id, timeout) x := by
    intro x hx
    rw [hfound.eq, ← List.append_assoc] at hsorted
    obtain ⟨_, hpostsorted, _⟩ := List.pairwise_append.mp hsorted
    cases post with
    | nil => cases hx
    | cons first post =>
        have hfirst := hfound.first first rfl
        rcases List.mem_cons.mp hx with rfl | hx
        · exact .inl hfirst
        · exact .inl (Precedes.before hfirst (List.rel_of_pairwise_cons hpostsorted hx))
  rw [hfound.eq, ← List.append_assoc] at hsorted
  obtain ⟨hfront, hback, hacross⟩ := List.pairwise_append.mp hsorted
  rw [← List.append_assoc]
  refine List.pairwise_append.mpr ⟨hfront, List.pairwise_cons.mpr ⟨hpost, hback⟩, ?_⟩
  intro x hx y hy
  rcases List.mem_cons.mp hy with rfl | hy
  · rcases List.mem_append.mp hx with hx | hx
    · exact hys x hx
    · exact hpre x hx
  · exact hacross x hx y hy

theorem TimeoutInv.move {s s' : EloopTimeouts} {xs xs' : List (Nat × EloopTimeout)}
    {e : TimeoutEvent} (h : TimeoutInv s xs) (hmove : TimeoutMove s xs e s' xs') :
    TimeoutInv s' xs' := by
  cases hmove with
  | @register _ _ _ _ _ _ timeout _ pre post _ found length =>
      refine ⟨@sorted_insert [] _ _ _ _ _ found
        (fun x hx => h.cell_lt x (List.mem_append_right _ hx))
        (fun _ hy => absurd hy List.not_mem_nil) h.sorted, h.due, ?_⟩
      have hconserved := h.conserved
      rw [found.eq] at hconserved
      simp only [length, List.range_succ, List.map_append, List.map_cons]
      refine List.Perm.trans ?_ (hconserved.append_right [s.timeout.cells.length])
      simp only [List.map_append, List.append_assoc]
      refine List.Perm.append_left _ (List.Perm.append_left _ (List.Perm.append_left _ ?_))
      exact @List.perm_append_comm _ [s.timeout.cells.length] _
  | cancel p length =>
      refine ⟨h.sorted.filter _, h.due, ?_⟩
      rw [length]
      refine List.Perm.trans ?_ h.conserved
      simp only [List.map_append, List.append_assoc]
      refine List.Perm.append_left _ (List.Perm.append_left _ ?_)
      rw [← List.map_append]
      exact (List.filter_append_perm p xs).map Prod.fst
  | idle none => exact h
  | early => exact ⟨h.sorted, h.due, h.conserved⟩
  | @call now x rest _ first due length =>
      subst first
      refine ⟨h.sorted.of_cons, fun call hcall => ?_, ?_⟩
      · rcases List.mem_append.mp hcall with hcall | hcall
        · exact h.due call hcall
        · rw [List.mem_singleton.mp hcall]
          exact due
      · rw [length]
        refine List.Perm.trans ?_ h.conserved
        simp only [List.map_append, List.map_cons, List.map_nil, List.append_assoc]
        exact List.Perm.append_left _ (List.perm_append_comm_assoc [x.1] _ _)

theorem timeoutInv_start (now : Timeval) : TimeoutInv (timeoutStart now) [] :=
  ⟨List.Pairwise.nil, fun _ h => absurd h List.not_mem_nil, List.Perm.refl _⟩

/-- **Timeouts are conserved**: whatever is registered, cancelled and called, in whatever
order and with whatever clock, no step fails, the pending timeouts stand in order, and each
timeout that was registered is pending, was cancelled or was called once, not before its
time. -/
theorem timeouts_conserved (now : Timeval) (es : List TimeoutEvent) :
    ∃ s xs, timeoutSystem.exec (timeoutStart now) es = some s ∧ s.timeout.contents = xs ∧
      TimeoutInv s xs := by
  have hrun : ∀ (es : List TimeoutEvent) {s : EloopTimeouts} {xs : List (Nat × EloopTimeout)},
      s.timeout.Holds xs → TimeoutInv s xs → ∃ s' xs', timeoutSystem.exec s es = some s' ∧
        s'.timeout.contents = xs' ∧ TimeoutInv s' xs' := by
    intro es
    induction es with
    | nil => exact fun hholds hinv => ⟨_, _, rfl, LinkedList.contents_eq hholds, hinv⟩
    | cons e es ih =>
        intro s xs hholds hinv
        obtain ⟨s', xs', hstep, hholds', hmove⟩ := timeoutStep_moves hholds e
        rw [System.exec_cons, show timeoutSystem.step s e = some s' from hstep]
        exact ih hholds' (hinv.move hmove)
  exact hrun es LinkedList.holds_empty (timeoutInv_start now)

/-! ## The order of the calls -/

/-- The clock does not go back. -/
def ClockForward (s : EloopTimeouts) : TimeoutEvent → Prop
  | .register now _ _ _ _ _ | .turn now => now.before s.clock = false
  | .cancel _ _ _ => True

instance (s : EloopTimeouts) : ∀ e, Decidable (ClockForward s e)
  | .register now _ _ _ _ _ | .turn now => inferInstanceAs (Decidable (now.before s.clock = false))
  | .cancel _ _ _ => isTrue trivial

/-- The handlers that were called, and then those that are pending, are in order, and the
clock is not behind the time of a call. -/
structure CallsInOrder (s : EloopTimeouts) (xs : List (Nat × EloopTimeout)) : Prop where
  inv : TimeoutInv s xs
  sorted : (s.called.map TimeoutCall.cell ++ xs).Pairwise Precedes
  past : ∀ call ∈ s.called, s.clock.before call.cell.2.time = false

theorem not_before_trans {a b c : Timeval} (hab : b.before a = false)
    (hbc : c.before b = false) : c.before a = false := by
  rw [Bool.eq_false_iff, ne_eq, Timeval.before_iff] at *
  omega

/-- The time of a timeout is not before that of its registration. -/
theorem deadline_not_before (now : Timeval) (secs usecs : Nat) :
    (deadline now secs usecs).before now = false := by
  have hcarry (rounds : Nat) : ∀ {t : Timeval}, t.before now = false →
      (carryUsecs rounds t).before now = false := by
    induction rounds with
    | zero => exact fun h => h
    | succ rounds ih =>
        intro t h
        rw [carryUsecs]
        split_ifs
        · refine ih ?_
          rw [Bool.eq_false_iff, ne_eq, Timeval.before_iff] at h ⊢
          dsimp only
          omega
        · exact h
  refine hcarry _ ?_
  rw [Bool.eq_false_iff, ne_eq, Timeval.before_iff]
  dsimp only
  omega

theorem CallsInOrder.move {s s' : EloopTimeouts} {xs xs' : List (Nat × EloopTimeout)}
    {e : TimeoutEvent} (h : CallsInOrder s xs) (hclock : ClockForward s e)
    (hmove : TimeoutMove s xs e s' xs') : CallsInOrder s' xs' := by
  have hpast {now : Timeval} (hnow : now.before s.clock = false) : ∀ call ∈ s.called,
      now.before call.cell.2.time = false := fun call hcall =>
    not_before_trans (h.past call hcall) hnow
  have hinv := h.inv.move hmove
  cases hmove with
  | @register now secs usecs _ _ _ timeout _ pre post time found length =>
      refine ⟨hinv, sorted_insert found (fun x hx => h.inv.cell_lt x (List.mem_append_right _ hx))
        (fun y hy => ?_) h.sorted, hpast hclock⟩
      obtain ⟨call, hcall, rfl⟩ := List.mem_map.mp hy
      refine .of_not_before ?_ (h.inv.cell_lt _ (List.mem_append_left _ hy))
      dsimp only
      rw [time]
      exact not_before_trans (hpast hclock call hcall) (deadline_not_before now secs usecs)
  | cancel p length =>
      exact ⟨hinv, h.sorted.sublist (List.filter_sublist.append_left _), h.past⟩
  | idle none => exact h
  | early => exact ⟨hinv, h.sorted, hpast hclock⟩
  | @call now x _ _ first due length =>
      subst first
      refine ⟨hinv, ?_, fun call hcall => ?_⟩
      · rw [List.map_append, List.append_assoc]
        exact h.sorted
      · rcases List.mem_append.mp hcall with hcall | hcall
        · exact hpast hclock call hcall
        · rw [List.mem_singleton.mp hcall]
          exact due

/-- **The handlers are called in the order of their times**, and of their registration where
the times are equal, in every run in which the clock does not go back. -/
theorem timeouts_inOrder {now : Timeval} {es : List TimeoutEvent} {s : EloopTimeouts}
    (hclock : timeoutSystem.Meets ClockForward (timeoutStart now) es)
    (hrun : timeoutSystem.exec (timeoutStart now) es = some s) :
    (s.called.map TimeoutCall.cell ++ s.timeout.contents).Pairwise Precedes := by
  obtain ⟨xs, hholds, hinv⟩ := timeoutSystem.exec_invariant
    (fun s => ∃ xs, s.timeout.Holds xs ∧ CallsInOrder s xs) (fun s e s' h hforward hstep => by
      obtain ⟨xs, hholds, hinv⟩ := h
      obtain ⟨s₁, xs', hstep₁, hholds', hmove⟩ := timeoutStep_moves hholds e
      obtain rfl := Option.some.inj (hstep₁.symm.trans hstep)
      exact ⟨xs', hholds', hinv.move hforward hmove⟩) es
    ⟨[], LinkedList.holds_empty, timeoutInv_start now, List.Pairwise.nil,
      fun _ h => absurd h List.not_mem_nil⟩ hclock hrun
  rw [LinkedList.contents_eq hholds]
  exact hinv.sorted

/-- Two timeouts of one time, and two turns after it. -/
theorem timeouts_inOrder_two : ∃ s, timeoutSystem.exec (timeoutStart ⟨5, 0⟩)
    [.register ⟨5, 0⟩ 0 1500000 1 0 0, .register ⟨5, 500000⟩ 1 0 2 0 0, .turn ⟨7, 0⟩,
      .turn ⟨7, 0⟩] = some s ∧
    (s.called.map TimeoutCall.cell ++ s.timeout.contents).Pairwise Precedes :=
  (Option.isSome_iff_exists.mp (by decide)).imp fun _ hrun =>
    ⟨hrun, timeouts_inOrder (by decide) hrun⟩

end Blts.Wlan
