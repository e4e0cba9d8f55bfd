import Blts.Gles.Compositor

/-!
# The window list over a run

Every step leads from a list without freed entries to another (`linked` in the
lemmas below): windows are only taken out where the walk found them, and before
they are freed.  What the compositor does not look at is whether a window that is
added is in the list already, and whether there is room in the paint list.  So
the list is as it should be after every step of a run if and only if no step
adds a window that is there, and no painting has more than 100 windows to paint
(`compositor_sound_iff`).
-/

namespace Blts.Gles

open Blts.Lib

/-! ## Windows in the list -/

/-- The ids of the windows in the list. -/
def ids (list : LinkedList XWindow) : List WindowId :=
  list.contents.map fun x => x.2.id

/-- Following the pointers of the list leads to its end, and to no freed entry. -/
def Linked (list : LinkedList XWindow) : Prop :=
  list.Holds list.contents

/-- The list still has the same windows. -/
structure Kept (list list' : LinkedList XWindow) : Prop where
  linked : Linked list'
  ids : ids list' = ids list

variable {list list' : LinkedList XWindow} {s : Compositor}

theorem linked_of_holds {xs : List (Nat × XWindow)} (h : list.Holds xs) : Linked list := by
  rw [Linked, LinkedList.contents_eq h]
  exact h

theorem ids_of_holds {xs : List (Nat × XWindow)} (h : list.Holds xs) :
    ids list = xs.map fun x => x.2.id := by
  rw [ids, LinkedList.contents_eq h]

theorem Kept.refl (h : Linked list) : Kept list list := ⟨h, rfl⟩

theorem Kept.trans {list'' : LinkedList XWindow} (h : Kept list list')
    (h' : Kept list' list'') : Kept list list'' :=
  ⟨h'.linked, h'.ids.trans h.ids⟩

/-- What `find_win` finds. -/
theorem findWin_spec (h : Linked list) (id : WindowId) :
    ∃ pre post, LinkedList.FoundAt (fun w => w.id == id) list.contents pre post ∧
      findWin list id = .ok (LinkedList.linkAt pre, post.head?.map Prod.fst) := by
  obtain ⟨pre, post, hfound, hfind⟩ := LinkedList.find_spec h fun w => w.id == id
  exact ⟨pre, post, hfound, by rw [findWin, hfind, follow]⟩

/-- Changing a window that is found. -/
theorem modifyWin_found (h : Linked list) {id : WindowId} (f : XWindow → XWindow)
    {pre post : List (Nat × XWindow)} {a : Nat} {v : XWindow}
    (hfound : list.contents = pre ++ (a, v) :: post)
    (hfind : findWin list id = .ok (LinkedList.linkAt pre, some a)) :
    ∃ list', modifyWin list id f = .ok (some list') ∧
      list'.Holds (pre ++ (a, f v) :: post) := by
  have hholds : list.Holds (pre ++ (a, v) :: post) := hfound ▸ h
  obtain ⟨list', hmodify, hholds', _⟩ := LinkedList.modify_spec hholds f
  refine ⟨list', ?_, hholds'⟩
  simp only [modifyWin, hfind, bind, Except.bind, hmodify, follow]
  rfl

/-- **Changing a window**, whether or not it is there. -/
theorem modifyWin_kept (h : Linked list) (id : WindowId) {f : XWindow → XWindow}
    (hf : ∀ w, (f w).id = w.id) :
    ∃ r, modifyWin list id f = .ok r ∧ ∀ list' ∈ r, Kept list list' := by
  obtain ⟨pre, post, hfound, hfind⟩ := findWin_spec h id
  cases post with
  | nil =>
      refine ⟨none, ?_, fun _ hr => by cases hr⟩
      simp only [modifyWin, hfind, bind, Except.bind]
      rfl
  | cons x post =>
      obtain ⟨a, v⟩ := x
      obtain ⟨list', hmodify, hholds⟩ := modifyWin_found h f hfound.eq hfind
      refine ⟨some list', hmodify, fun l hl => ?_⟩
      cases hl
      refine ⟨linked_of_holds hholds, ?_⟩
      rw [ids_of_holds hholds, ids, hfound.eq]
      simp [hf]

theorem mapWin_kept (h : Linked s.list) (id : WindowId) :
    ∃ s', mapWin s id = .ok s' ∧ Kept s.list s'.list := by
  obtain ⟨r, hr, hkept⟩ := modifyWin_kept h id (f := fun w =>
    { w with a := { w.a with mapState := .isViewable }, damaged := true }) fun _ => rfl
  unfold mapWin
  simp only [hr, bind, Except.bind]
  cases r with
  | none => exact ⟨s, rfl, .refl h⟩
  | some list' => exact ⟨_, rfl, hkept list' rfl⟩

theorem unmapWin_kept (h : Linked s.list) (id : WindowId) :
    ∃ s', unmapWin s id = .ok s' ∧ Kept s.list s'.list := by
  obtain ⟨r, hr, hkept⟩ := modifyWin_kept h id (f := fun w => clearWindowTexture
    { w with a := { w.a with mapState := .isUnmapped }, damaged := false }) fun _ => rfl
  unfold unmapWin
  simp only [hr, bind, Except.bind]
  cases r with
  | none => exact ⟨s, rfl, .refl h⟩
  | some list' => exact ⟨_, rfl, hkept list' rfl⟩

theorem configure_id (ce : XConfigureEvent) (w : XWindow) : (configure ce w).id = w.id := by
  unfold configure
  dsimp only
  split <;> rfl

theorem configureWin_kept (h : Linked s.list) (ce : XConfigureEvent) :
    ∃ s', configureWin s ce = .ok s' ∧ Kept s.list s'.list := by
  obtain ⟨r, hr, hkept⟩ := modifyWin_kept h ce.window (configure_id ce)
  unfold configureWin
  simp only [hr, bind, Except.bind]
  cases r with
  | none => exact ⟨s, rfl, .refl h⟩
  | some list' => exact ⟨_, rfl, hkept list' rfl⟩

theorem damageWin_kept (h : Linked s.list) (drawable : WindowId) :
    ∃ s', damageWin s drawable = .ok s' ∧ Kept s.list s'.list := by
  obtain ⟨r, hr, hkept⟩ := modifyWin_kept h drawable
    (f := fun w => { w with damaged := true }) fun _ => rfl
  unfold damageWin
  simp only [hr, bind, Except.bind]
  cases r with
  | none => exact ⟨s, rfl, .refl h⟩
  | some list' => exact ⟨_, rfl, hkept list' rfl⟩

/-! ## Adding and destroying -/

/-- The window is put in the list. -/
def Adds (screen : Screen) (id : WindowId) (reply : AddReply) : Prop :=
  id ≠ screen.x11Window ∧ id ≠ screen.xoverlay ∧ reply.memory = true ∧
    reply.attributes.isSome = true

instance (screen : Screen) (id : WindowId) (reply : AddReply) :
    Decidable (Adds screen id reply) := by
  unfold Adds
  infer_instance

/-- **Adding a window** puts it somewhere in the list. -/
theorem addWin_spec (h : Linked s.list) (screen : Screen) (id prev : WindowId)
    (reply : AddReply) :
    ∃ s', addWin screen s id prev reply = .ok s' ∧ Linked s'.list ∧
      (ids s'.list).Perm
        (if Adds screen id reply then id :: ids s.list else ids s.list) := by
  unfold addWin
  by_cases hown : id = screen.x11Window ∨ id = screen.xoverlay
  · have hnot : ¬ Adds screen id reply := fun hadds => hown.elim hadds.1 hadds.2.1
    rw [if_pos hown, if_neg hnot]
    exact ⟨s, rfl, h, List.Perm.refl _⟩
  rw [if_neg hown]
  cases hmemory : reply.memory with
  | false =>
      have hnot : ¬ Adds screen id reply := fun hadds => by
        rw [Adds, hmemory] at hadds
        exact Bool.false_ne_true hadds.2.2.1
      rw [if_pos rfl, if_neg hnot]
      exact ⟨s, rfl, h, List.Perm.refl _⟩
  | true =>
      rw [if_neg (by decide)]
      obtain ⟨pre, post, hcontents, hlink⟩ : ∃ pre post, s.list.contents = pre ++ post ∧
          placeOf s.list prev = .ok (LinkedList.linkAt pre) := by
        unfold placeOf
        by_cases hprev : prev ≠ 0
        · obtain ⟨pre, post, hfound, hfind⟩ := findWin_spec h prev
          refine ⟨pre, post, hfound.eq, ?_⟩
          rw [if_pos hprev, hfind]
          rfl
        · exact ⟨[], s.list.contents, rfl, if_neg hprev⟩
      rw [hlink]
      simp only [bind, Except.bind]
      cases hattributes : reply.attributes with
      | none =>
          have hnot : ¬ Adds screen id reply := fun hadds => by
            rw [Adds, hattributes] at hadds
            exact Bool.false_ne_true hadds.2.2.2
          rw [if_neg hnot]
          exact ⟨s, rfl, h, List.Perm.refl _⟩
      | some a =>
          have hadds : Adds screen id reply := by
            refine ⟨fun heq => hown (.inl heq), fun heq => hown (.inr heq), hmemory, ?_⟩
            rw [hattributes]
            rfl
          have hparts : s.list.Holds (pre ++ post) := by
            rw [← hcontents]
            exact h
          obtain ⟨list, hinsert, hholds, _⟩ :=
            LinkedList.insert_spec hparts (newWindow id a reply.damage)
          have hperm : (ids list).Perm (id :: ids s.list) := by
            rw [ids_of_holds hholds, ids, hcontents, List.map_append, List.map_cons,
              List.map_append]
            exact List.perm_middle
          simp only [hinsert, follow, if_pos hadds]
          by_cases hviewable : a.mapState = .isViewable
          · rw [if_pos hviewable]
            obtain ⟨s', hmap, hkept⟩ := mapWin_kept (s := ⟨list, true⟩)
              (linked_of_holds hholds) id
            exact ⟨s', hmap, hkept.linked, hkept.ids ▸ hperm⟩
          · rw [if_neg hviewable]
            exact ⟨_, rfl, linked_of_holds hholds, hperm⟩

/-- **Destroying a window** takes its first entry out of the list. -/
theorem destroyWin_spec (h : Linked s.list) (id : WindowId) (gone : Bool) :
    ∃ s', destroyWin s id gone = .ok s' ∧ Linked s'.list ∧
      ids s'.list = (ids s.list).erase id := by
  obtain ⟨pre, post, hfound, hfind⟩ := findWin_spec h id
  have hpre : id ∉ pre.map fun x => x.2.id := by
    intro hmem
    obtain ⟨x, hx, hid⟩ := List.mem_map.mp hmem
    have := hfound.before x hx
    rw [hid, beq_self_eq_true] at this
    cases this
  have hids : ids s.list = (pre ++ post).map fun x => x.2.id := by rw [ids, hfound.eq]
  unfold destroyWin
  rw [hfind]
  cases post with
  | nil =>
      refine ⟨s, rfl, h, ?_⟩
      rw [hids, List.append_nil, List.erase_of_not_mem hpre]
  | cons x post =>
      obtain ⟨a, v⟩ := x
      have hid : v.id = id := eq_of_beq (hfound.first _ rfl)
      -- the entry is at the same place after it is unmapped
      obtain ⟨s₁, v', hs₁, hholds₁⟩ : ∃ s₁ v',
          unmapGone s id gone = .ok s₁ ∧
            s₁.list.Holds (pre ++ (a, v') :: post) := by
        cases gone with
        | false => exact ⟨s, v, rfl, hfound.eq ▸ h⟩
        | true =>
            obtain ⟨list', hmodify, hholds'⟩ := modifyWin_found h (fun w => clearWindowTexture
              { w with a := { w.a with mapState := .isUnmapped }, damaged := false })
              hfound.eq hfind
            refine ⟨{ s with list := list' }, _, ?_, hholds'⟩
            simp only [unmapGone, if_true, unmapWin, hmodify, bind, Except.bind]
            rfl
      obtain ⟨list, hremove, hholds, _⟩ := LinkedList.remove_spec hholds₁
      refine ⟨{ s₁ with list := list }, ?_, linked_of_holds hholds, ?_⟩
      · simp only [bind, Except.bind, List.head?_cons, Option.map_some, hs₁, hremove, follow]
        rfl
      · rw [ids_of_holds hholds, hids, List.map_append, List.map_append, List.map_cons,
          List.erase_append_right _ hpre, hid, List.erase_cons_head]

/-! ## Painting -/

/-- The windows that are painted. -/
def visibleWindows (screen : Screen) (list : LinkedList XWindow) : List (Nat × XWindow) :=
  list.contents.filter fun x => isVisible screen x.2

/-- **The paint list** has room for the windows, or is left. -/
theorem generatePaintList_eq (h : Linked list) (screen : Screen) :
    generatePaintList screen list =
      if (visibleWindows screen list).length ≤ paintListSize then
        .ok ((visibleWindows screen list).map Prod.fst).reverse
      else .error .outOfBounds := by
  have hfrom : ∀ {xs : List (Nat × XWindow)} {ptr : Option Nat} {fuel t : Nat}
      {wList : List Nat}, LinkedList.Segment list ptr xs none → xs.length ≤ fuel →
      paintListFrom screen list fuel ptr t wList =
        if (xs.filter fun x => isVisible screen x.2).length ≤ t then
          .ok (((xs.filter fun x => isVisible screen x.2).map Prod.fst).reverse ++ wList)
        else .error .outOfBounds := by
    intro xs
    induction xs with
    | nil =>
        intro ptr fuel t wList hseg _
        cases hseg
        cases fuel <;> rfl
    | cons x xs ih =>
        intro ptr fuel t wList hseg hle
        obtain _ | @⟨a, n, _, _, hnode, hrest⟩ := hseg
        cases fuel with
        | zero => cases hle
        | succ fuel =>
            have ih {t : Nat} {wList : List Nat} := @ih n.next fuel t wList hrest
              (Nat.le_of_succ_le_succ hle)
            simp only [paintListFrom, hnode, follow, bind, Except.bind]
            cases hvisible : isVisible screen n.val with
            | false => simp [hvisible, ih]
            | true =>
                cases t with
                | zero => simp [hvisible]
                | succ t => simp [hvisible, ih]
  rw [generatePaintList, hfrom h h.length_le, List.append_nil]
  rfl

theorem paintWindow_id (screen : Screen) (reply : PaintReply) (w : XWindow) :
    (paintWindow screen reply w).id = w.id := by
  have hgenerate (w : XWindow) : (generateWindowObject screen w reply).id = w.id := by
    unfold generateWindowObject
    split <;> rfl
  have hupdate (w : XWindow) : (updateDamaged screen reply w).id = w.id := by
    unfold updateDamaged
    dsimp only
    split <;> rfl
  have hobj : (if w.obj.isNone then generateWindowObject screen w reply else w).id = w.id := by
    split
    · exact hgenerate w
    · rfl
  unfold paintWindow
  generalize (if w.obj.isNone then generateWindowObject screen w reply else w) = w' at hobj ⊢
  dsimp only
  split
  · rw [hupdate, hobj]
  · exact hobj

/-- Painting follows only pointers to windows in the list. -/
theorem paintAll_kept (screen : Screen) (replies : Nat → PaintReply) (wList : List Nat) :
    ∀ {list : LinkedList XWindow}, Linked list →
      (∀ a ∈ wList, a ∈ list.contents.map Prod.fst) →
      ∃ list', paintAll screen replies wList list = .ok list' ∧ Kept list list' := by
  induction wList with
  | nil => exact fun h _ => ⟨_, rfl, .refl h⟩
  | cons a wList ih =>
      intro list h hmem
      obtain ⟨ha, hrest⟩ := List.forall_mem_cons.mp hmem
      obtain ⟨⟨a', v⟩, hx, haddr⟩ := List.mem_map.mp ha
      obtain rfl : a' = a := haddr
      obtain ⟨pre, post, heq⟩ := List.append_of_mem hx
      have hparts : list.Holds (pre ++ (a', v) :: post) := by
        rw [← heq]
        exact h
      obtain ⟨list₁, hmodify, hholds, _⟩ := LinkedList.modify_spec hparts
        (paintWindow screen (replies a'))
      have hcontents := LinkedList.contents_eq hholds
      have hkept : Kept list list₁ := by
        refine ⟨linked_of_holds hholds, ?_⟩
        rw [ids_of_holds hholds, ids, heq]
        simp [paintWindow_id]
      obtain ⟨list', hpaint, hkept'⟩ := ih hkept.linked fun b hb => by
        have := hrest b hb
        rw [heq] at this
        rw [hcontents]
        simpa using this
      refine ⟨list', ?_, hkept.trans hkept'⟩
      simp only [paintAll, hmodify, follow, bind, Except.bind]
      exact hpaint

/-- **Painting** comes to an end if there is room for the windows. -/
theorem paintWindows_kept (h : Linked s.list) (screen : Screen) (replies : Nat → PaintReply)
    (hroom : (visibleWindows screen s.list).length ≤ paintListSize) :
    ∃ s', paintWindows screen s replies = .ok s' ∧ Kept s.list s'.list := by
  obtain ⟨list', hpaint, hkept⟩ := paintAll_kept screen replies
    ((visibleWindows screen s.list).map Prod.fst).reverse h fun a ha => by
      obtain ⟨x, hx, rfl⟩ := List.mem_map.mp (List.mem_reverse.mp ha)
      exact List.mem_map_of_mem (List.mem_of_mem_filter hx)
  refine ⟨{ s with list := list' }, ?_, hkept⟩
  simp only [paintWindows, generatePaintList_eq h, if_pos hroom, bind, Except.bind, hpaint]
  rfl

/-- Otherwise a pointer is stored in front of the array. -/
theorem paintWindows_fault (h : Linked s.list) (screen : Screen) (replies : Nat → PaintReply)
    (hfull : ¬ (visibleWindows screen s.list).length ≤ paintListSize) :
    paintWindows screen s replies = .error .outOfBounds := by
  simp only [paintWindows, generatePaintList_eq h, if_neg hfull, bind, Except.bind]

/-! ## Runs -/

/-- The compositor, and the windows that were added and not destroyed or
reparented away since. -/
structure Observed where
  compositor : Compositor
  known : List WindowId

/-- The window that the step adds. -/
def Input.adds (screen : Screen) : Input → Option WindowId
  | .child id _ reply => if Adds screen id reply then some id else none
  | .event (.createNotify window) reply => if Adds screen window reply then some window else none
  | .event (.reparentNotify window parent) reply =>
      if parent = screen.root ∧ Adds screen window reply then some window else none
  | _ => none

/-- The window that is destroyed or reparented away. -/
def Input.removes (screen : Screen) : Input → Option WindowId
  | .event (.destroyNotify window) _ => some window
  | .event (.reparentNotify window parent) _ =>
      if parent = screen.root then none else some window
  | _ => none

/-- The step paints the windows. -/
def Input.paints (s : Compositor) : Input → Bool
  | .loopStarts _ => true
  | .queueEmpty _ => s.dpyDamaged
  | _ => false

/-- The windows that are known after a step. -/
def Input.known (screen : Screen) (e : Input) (known : List WindowId) : List WindowId :=
  match e.adds screen, e.removes screen with
  | some id, _ => id :: known
  | none, some id => known.filter fun id' => id' ≠ id
  | none, none => known

/-- One step, with what is known. -/
def Observed.step (screen : Screen) (o : Observed) (e : Input) : Except Fault Observed := do
  let s ← o.compositor.step screen e
  return { compositor := s, known := e.known screen o.known }

/-- Runs of the compositor; after a fault there is nothing but the fault. -/
def compositor (screen : Screen) : System (Except Fault Observed) Input where
  step x e := some (x.bind fun o => o.step screen e)

/-- No window is known before the first step. -/
def observedStart : Except Fault Observed :=
  .ok { compositor := .start, known := [] }

/-- The list is as it should be: it leads to no freed entry, no window is in it
twice, and each is known. -/
structure Sound (o : Observed) : Prop where
  linked : Linked o.compositor.list
  once : (ids o.compositor.list).Nodup
  known : ∀ id ∈ ids o.compositor.list, id ∈ o.known

/-- The step ends without a fault, and the list is as it should be after it. -/
def StepsSoundly (screen : Screen) (x : Except Fault Observed) (e : Input) : Prop :=
  ∃ o o', x = .ok o ∧ o.step screen e = .ok o' ∧ Sound o'

/-- The step adds no window that is in the list, and paints no more windows than
the paint list has room for. -/
def HasRoom (screen : Screen) (x : Except Fault Observed) (e : Input) : Prop :=
  ∀ o, x = .ok o →
    (∀ id, e.adds screen = some id → id ∉ ids o.compositor.list) ∧
    (e.paints o.compositor = true →
      (visibleWindows screen o.compositor.list).length ≤ paintListSize)

/-- A step that neither adds, removes nor paints. -/
theorem steps_kept {screen : Screen} {o : Observed} {e : Input} {s' : Compositor}
    (hsound : Sound o) (hstep : o.compositor.step screen e = .ok s')
    (hadds : e.adds screen = none) (hremoves : e.removes screen = none)
    (hkept : Kept o.compositor.list s'.list) :
    ∃ o', o.step screen e = .ok o' ∧ Sound o' := by
  refine ⟨_, by rw [Observed.step, hstep]; rfl, hkept.linked, ?_, ?_⟩
  · rw [hkept.ids]
    exact hsound.once
  · rw [hkept.ids]
    simp only [Input.known, hadds, hremoves]
    exact hsound.known

/-- A step that adds a window, or tries to. -/
theorem steps_add {screen : Screen} {o : Observed} {e : Input} {s' : Compositor}
    {id : WindowId} {reply : AddReply} (hsound : Sound o)
    (hstep : o.compositor.step screen e = .ok s') (hlinked : Linked s'.list)
    (hperm : (ids s'.list).Perm (if Adds screen id reply then id :: ids o.compositor.list
      else ids o.compositor.list))
    (hadds : e.adds screen = if Adds screen id reply then some id else none)
    (hremoves : e.removes screen = none) :
    (∃ o', o.step screen e = .ok o' ∧ Sound o') ↔
      ∀ id, e.adds screen = some id → id ∉ ids o.compositor.list := by
  have hrun : o.step screen e = .ok ⟨s', e.known screen o.known⟩ := by
    rw [Observed.step, hstep]
    rfl
  by_cases h : Adds screen id reply
  · rw [if_pos h] at hperm hadds
    simp only [hadds, Option.some.injEq, forall_eq']
    constructor
    · rintro ⟨o', ho', hsound'⟩
      rw [hrun] at ho'
      cases ho'
      exact (List.nodup_cons.mp (hperm.nodup_iff.mp hsound'.once)).1
    · intro hnew
      refine ⟨_, hrun, hlinked, hperm.nodup_iff.mpr (List.nodup_cons.mpr ⟨hnew, hsound.once⟩),
        fun id' hid' => ?_⟩
      simp only [Input.known, hadds]
      rcases List.mem_cons.mp (hperm.mem_iff.mp hid') with rfl | hmem
      · exact List.mem_cons_self
      · exact List.mem_cons_of_mem _ (hsound.known id' hmem)
  · rw [if_neg h] at hperm hadds
    refine iff_of_true ⟨_, hrun, hlinked, hperm.nodup_iff.mpr hsound.once, fun id' hid' => ?_⟩
      fun id' hid' => by rw [hadds] at hid'; cases hid'
    simp only [Input.known, hadds, hremoves]
    exact hsound.known id' (hperm.mem_iff.mp hid')

/-- A step that takes a window away. -/
theorem steps_remove {screen : Screen} {o : Observed} {e : Input} {s' : Compositor}
    {id : WindowId} (hsound : Sound o) (hstep : o.compositor.step screen e = .ok s')
    (hlinked : Linked s'.list) (hids : ids s'.list = (ids o.compositor.list).erase id)
    (hadds : e.adds screen = none) (hremoves : e.removes screen = some id) :
    ∃ o', o.step screen e = .ok o' ∧ Sound o' := by
  refine ⟨_, by rw [Observed.step, hstep]; rfl, hlinked, ?_, fun id' hid' => ?_⟩
  · rw [hids]
    exact hsound.once.erase id
  · rw [hids] at hid'
    obtain ⟨hne, hmem⟩ := hsound.once.mem_erase_iff.mp hid'
    simp only [Input.known, hadds, hremoves]
    exact List.mem_filter.mpr ⟨hsound.known id' hmem, decide_eq_true hne⟩

/-- A step that paints. -/
theorem steps_paint {screen : Screen} {o : Observed} {e : Input} (hsound : Sound o)
    {replies : Nat → PaintReply} {finish : Compositor → Compositor}
    (hstep : o.compositor.step screen e =
      (paintWindows screen o.compositor replies).map finish)
    (hfinish : ∀ s, (finish s).list = s.list)
    (hadds : e.adds screen = none) (hremoves : e.removes screen = none) :
    (∃ o', o.step screen e = .ok o' ∧ Sound o') ↔
      (visibleWindows screen o.compositor.list).length ≤ paintListSize := by
  by_cases hroom : (visibleWindows screen o.compositor.list).length ≤ paintListSize
  · refine iff_of_true ?_ hroom
    obtain ⟨s', hpaint, hkept⟩ := paintWindows_kept hsound.linked screen replies hroom
    rw [hpaint] at hstep
    exact steps_kept hsound hstep hadds hremoves (by rw [hfinish]; exact hkept)
  · refine iff_of_false ?_ hroom
    rintro ⟨o', ho', _⟩
    rw [paintWindows_fault hsound.linked screen replies hroom] at hstep
    rw [Observed.step, hstep] at ho'
    cases ho'

/-- A step that cannot go wrong has room. -/
theorem hasRoom_of_none {screen : Screen} {o : Observed} {e : Input}
    (hadds : e.adds screen = none) (hpaints : e.paints o.compositor = false) :
    HasRoom screen (.ok o) e := by
  intro o' ho'
  cases ho'
  rw [hadds, hpaints]
  exact ⟨fun id hid => (Option.some_ne_none id hid.symm).elim,
    fun h => (Bool.false_ne_true h).elim⟩

/-- Where the step does not paint, only the window that it adds matters. -/
theorem hasRoom_iff_adds {screen : Screen} {o : Observed} {e : Input}
    (hpaints : e.paints o.compositor = false) :
    HasRoom screen (.ok o) e ↔
      ∀ id, e.adds screen = some id → id ∉ ids o.compositor.list := by
  constructor
  · exact fun h => (h o rfl).1
  · intro h o' ho'
    cases ho'
    rw [hpaints]
    exact ⟨h, fun h => (Bool.false_ne_true h).elim⟩

/-- Where it paints, only the visible windows matter. -/
theorem hasRoom_iff_paints {screen : Screen} {o : Observed} {e : Input}
    (hadds : e.adds screen = none) (hpaints : e.paints o.compositor = true) :
    HasRoom screen (.ok o) e ↔
      (visibleWindows screen o.compositor.list).length ≤ paintListSize := by
  constructor
  · exact fun h => (h o rfl).2 hpaints
  · intro h o' ho'
    cases ho'
    rw [hadds]
    exact ⟨fun id hid => (Option.some_ne_none id hid.symm).elim, fun _ => h⟩

/-- **One event.** -/
theorem event_iff (screen : Screen) {o : Observed} (hsound : Sound o) (ev : XEvent)
    (reply : AddReply) :
    (∃ o', o.step screen (.event ev reply) = .ok o' ∧ Sound o') ↔
      HasRoom screen (.ok o) (.event ev reply) := by
  have hkept {s' : Compositor} {ev : XEvent}
      (hstep : o.compositor.step screen (.event ev reply) = .ok s')
      (hadds : Input.adds screen (.event ev reply) = none)
      (hremoves : Input.removes screen (.event ev reply) = none)
      (hkept : Kept o.compositor.list s'.list) :
      (∃ o', o.step screen (.event ev reply) = .ok o' ∧ Sound o') ↔
        HasRoom screen (.ok o) (.event ev reply) :=
    iff_of_true (steps_kept hsound hstep hadds hremoves hkept) (hasRoom_of_none hadds rfl)
  have hremove {id : WindowId} {ev : XEvent} {gone : Bool}
      (hstep : o.compositor.step screen (.event ev reply) = destroyWin o.compositor id gone)
      (hadds : Input.adds screen (.event ev reply) = none)
      (hremoves : Input.removes screen (.event ev reply) = some id) :
      (∃ o', o.step screen (.event ev reply) = .ok o' ∧ Sound o') ↔
        HasRoom screen (.ok o) (.event ev reply) := by
    obtain ⟨s', hrun, hlinked, hids⟩ := destroyWin_spec hsound.linked id gone
    exact iff_of_true (steps_remove hsound (hstep.trans hrun) hlinked hids hadds hremoves)
      (hasRoom_of_none hadds rfl)
  cases ev with
  | createNotify window =>
      obtain ⟨s', hrun, hlinked, hperm⟩ := addWin_spec hsound.linked screen window 0 reply
      have hstep : o.compositor.step screen (.event (.createNotify window) reply) = .ok s' := hrun
      rw [steps_add hsound hstep hlinked hperm rfl rfl, hasRoom_iff_adds rfl]
  | configureNotify ce =>
      obtain ⟨s', hrun, hsame⟩ := configureWin_kept hsound.linked ce
      exact hkept hrun rfl rfl hsame
  | destroyNotify window => exact hremove rfl rfl rfl
  | mapNotify window =>
      obtain ⟨s', hrun, hsame⟩ := mapWin_kept hsound.linked window
      exact hkept hrun rfl rfl hsame
  | unmapNotify window =>
      obtain ⟨s', hrun, hsame⟩ := unmapWin_kept hsound.linked window
      exact hkept hrun rfl rfl hsame
  | reparentNotify window parent =>
      by_cases hroot : parent = screen.root
      · obtain ⟨s', hrun, hlinked, hperm⟩ := addWin_spec hsound.linked screen window 0 reply
        have hstep : o.compositor.step screen (.event (.reparentNotify window parent) reply) =
            .ok s' := (if_pos hroot).trans hrun
        rw [steps_add hsound hstep hlinked hperm (by simp [Input.adds, hroot]) (if_pos hroot),
          hasRoom_iff_adds rfl]
      · exact hremove (if_neg hroot) (if_neg fun h => hroot h.1) (if_neg hroot)
  | circulateNotify => exact hkept rfl rfl rfl (.refl hsound.linked)
  | expose => exact hkept rfl rfl rfl (.refl hsound.linked)
  | propertyNotify => exact hkept rfl rfl rfl (.refl hsound.linked)
  | damageNotify drawable =>
      obtain ⟨s', hrun, hsame⟩ := damageWin_kept hsound.linked drawable
      exact hkept hrun rfl rfl hsame
  | other => exact hkept rfl rfl rfl (.refl hsound.linked)

/-- **One step** from a list that is as it should be. -/
theorem stepsSoundly_iff (screen : Screen) {o : Observed} (hsound : Sound o) (e : Input) :
    StepsSoundly screen (.ok o) e ↔ HasRoom screen (.ok o) e := by
  have hself : StepsSoundly screen (.ok o) e ↔ ∃ o', o.step screen e = .ok o' ∧ Sound o' := by
    constructor
    · rintro ⟨o₁, o', ho, hstep⟩
      cases ho
      exact ⟨o', hstep⟩
    · rintro ⟨o', hstep⟩
      exact ⟨o, o', rfl, hstep⟩
  rw [hself]
  cases e with
  | child id prev reply =>
      obtain ⟨s', hrun, hlinked, hperm⟩ := addWin_spec hsound.linked screen id prev reply
      have hstep : o.compositor.step screen (.child id prev reply) = .ok s' := hrun
      rw [steps_add hsound hstep hlinked hperm rfl rfl, hasRoom_iff_adds rfl]
  | loopStarts replies =>
      have hstep : o.compositor.step screen (.loopStarts replies) =
          (paintWindows screen o.compositor replies).map id := by
        show paintWindows screen o.compositor replies = _
        cases paintWindows screen o.compositor replies <;> rfl
      rw [steps_paint hsound hstep (fun _ => rfl) rfl rfl, hasRoom_iff_paints rfl rfl]
  | event ev reply => exact event_iff screen hsound ev reply
  | queueEmpty replies =>
      cases hdamaged : o.compositor.dpyDamaged with
      | false =>
          have hstep : o.compositor.step screen (.queueEmpty replies) = .ok o.compositor := by
            simp [Compositor.step, hdamaged]
          exact iff_of_true (steps_kept hsound hstep rfl rfl (.refl hsound.linked))
            (hasRoom_of_none rfl hdamaged)
      | true =>
          have hstep : o.compositor.step screen (.queueEmpty replies) =
              (paintWindows screen o.compositor replies).map fun s =>
                { s with dpyDamaged := false } := by
            rw [Compositor.step, hdamaged]
            cases paintWindows screen o.compositor replies <;> rfl
          have hpaints : Input.paints o.compositor (.queueEmpty replies) = true := hdamaged
          rw [hasRoom_iff_paints rfl hpaints]
          exact steps_paint hsound hstep (fun _ => rfl) rfl rfl

/--
**The list of windows.**  In every run, every step ends without following a
pointer to a freed entry or storing one outside of the paint list, and leaves
each window in the list once, and only windows that were added and not destroyed
or reparented away since, if and only if no step adds a window that is in the
list, or paints more windows than the paint list has room for.
-/
theorem compositor_sound_iff (screen : Screen) (es : List Input) :
    (compositor screen).Meets (StepsSoundly screen) observedStart es ↔
      (compositor screen).Meets (HasRoom screen) observedStart es := by
  refine (compositor screen).meets_congr (fun x => ∃ o, x = .ok o ∧ Sound o) ?_ es
    ⟨_, rfl, ?_⟩
  · rintro x e x' ⟨o, rfl, hsound⟩ hstep
    refine ⟨?_, stepsSoundly_iff screen hsound e⟩
    rintro ⟨o₁, o', ho, hrun, hsound'⟩
    cases ho
    cases hstep
    exact ⟨o', hrun, hsound'⟩
  · have hids : ids (LinkedList.empty : LinkedList XWindow) = [] := rfl
    refine ⟨linked_of_holds LinkedList.holds_empty, ?_, ?_⟩
    · show (ids LinkedList.empty).Nodup
      rw [hids]
      exact List.nodup_nil
    · intro id hid
      cases hid

/-- A window, as large as the screen. -/
def shownWindow : AddReply where
  memory := true
  attributes := some
    { x := 0, y := 0, width := 480, height := 640, borderWidth := 0, inputOnly := false,
      mapState := .isViewable, overrideRedirect := false }
  damage := 1

def smallScreen : Screen where
  width := 480
  height := 640
  x11Window := 1
  xoverlay := 2
  root := 3
  customTfp := true

/-- A window that its client reparents from the root window to the root window,
and then destroys. -/
def reparentedToRoot : List Input :=
  [.event (.createNotify 5) shownWindow, .event (.reparentNotify 5 3) shownWindow,
    .event (.destroyNotify 5) shownWindow]

/-- It is still in the list after it is destroyed. -/
theorem reparentedToRoot_twice :
    (∃ o, (compositor smallScreen).exec observedStart reparentedToRoot = some (.ok o) ∧
      ids o.compositor.list = [5] ∧ o.known = []) ∧
      ¬ (compositor smallScreen).Meets (StepsSoundly smallScreen) observedStart
        reparentedToRoot := by
  refine ⟨⟨_, rfl, by decide +kernel, by decide +kernel⟩, fun hmeets => ?_⟩
  obtain ⟨o, o', ho, hstep, hsound⟩ := ((hmeets _ rfl).2 _ rfl).1
  cases ho
  cases hstep
  have honce := hsound.once
  revert honce
  decide +kernel

end Blts.Gles
