import Blts.Ofono.DualCall

/-!
# When two calls pass

While something is pending that will use the proxy of a call, the proxy is there, if calls end
only when nothing of the kind is pending.  And the case passes only after the operation that it
tests, if from the user's timeout to the end of that operation the calls are not all removed.
-/

namespace Blts.Ofono

open Blts.Lib

/-- What a callback will need: the proxies that it, or what comes of it, makes a request
through, and the operations that have been done before. -/
def DualCallback.Founded (s : DualCall) : DualCallback → Prop
  | .answerableReply => s.firstCall = true
  | .answerReply => s.firstCall = true
  | .answerableTimer => s.firstCall = true
  | .heldReply =>
      s.firstCall = true ∧ (s.callHandleMethod = .swap → s.secondCall = true) ∧
        .holdAndAnswer ∈ s.succeeded
  | .heldTimer =>
      s.firstCall = true ∧ (s.callHandleMethod = .swap → s.secondCall = true) ∧
        .holdAndAnswer ∈ s.succeeded
  | .activeReply => s.callHandleMethod = .swap ∧ s.secondCall = true
  | .activeTimer => s.callHandleMethod = .swap ∧ s.secondCall = true
  | .userTimeout =>
      (s.callHandleMethod ≠ .releaseAndAnswer → s.firstCall = true) ∧
        (s.callHandleMethod = .swap → s.secondCall = true)
  | .operationReply o =>
      o ∈ s.requested ∧
        (o = .holdAndAnswer →
          s.firstCall = true ∧ (s.callHandleMethod = .swap → s.secondCall = true)) ∧
        (o ≠ .holdAndAnswer → o = s.callHandleMethod)

/-- The callbacks that need the proxy of the first call. -/
def DualCallback.usesFirst (method : Operation) : DualCallback → Bool
  | .answerableReply => true
  | .answerReply => true
  | .answerableTimer => true
  | .heldReply => true
  | .heldTimer => true
  | .activeReply => false
  | .activeTimer => false
  | .userTimeout => method ≠ .releaseAndAnswer
  | .operationReply o => o = .holdAndAnswer

/-- The callbacks that need the proxy of the second call. -/
def DualCallback.usesSecond (method : Operation) : DualCallback → Bool
  | .answerableReply => false
  | .answerReply => false
  | .answerableTimer => false
  | .heldReply => method = .swap
  | .heldTimer => method = .swap
  | .activeReply => true
  | .activeTimer => true
  | .userTimeout => method = .swap
  | .operationReply o => o = .holdAndAnswer ∧ method = .swap

structure DualInv (method : Operation) (s : DualCall) : Prop where
  method : s.callHandleMethod = method
  notDropped : s.usedDropped = false
  pending : ∀ c ∈ s.pending, c.Founded s
  requested : ∀ o ∈ s.succeeded, o ∈ s.requested
  passes : s.loop.PassesOnly (s.callHandleMethod ∈ s.succeeded)

/-- What the calls do in a step that keeps the case right. -/
def LastsLong (s : DualCall) : DualEvent → Prop
  | .firstChanged key value =>
      DualCall.Disconnects key value → ∀ c ∈ s.pending, c.usesFirst s.callHandleMethod = false
  | .secondChanged key value =>
      DualCall.Disconnects key value → ∀ c ∈ s.pending, c.usesSecond s.callHandleMethod = false
  | .callRemoved => s.CallsGone → s.loop.result = 0 → s.callHandleMethod ∈ s.succeeded
  | .fire c _ _ => c = .userTimeout → s.loop.quitting = false
  | .callAdded _ _ _ => True
  | .masterTimeout => True
  | .leave => True

instance : ∀ (s : DualCall) (e : DualEvent), Decidable (LastsLong s e)
  | _, .firstChanged _ _ => by unfold LastsLong; infer_instance
  | _, .secondChanged _ _ => by unfold LastsLong; infer_instance
  | _, .callRemoved => by unfold LastsLong; infer_instance
  | _, .fire _ _ _ => by unfold LastsLong; infer_instance
  | _, .callAdded _ _ _ => .isTrue trivial
  | _, .masterTimeout => .isTrue trivial
  | _, .leave => .isTrue trivial

theorem dualInv_start (method : Operation) (removedCalls : Nat) :
    DualInv method (.start method removedCalls) where
  method := rfl
  notDropped := rfl
  pending := fun _ h => absurd h List.not_mem_nil
  requested := fun _ h => absurd h List.not_mem_nil
  passes := MainLoop.passesOnly_running

/-! ## What keeps the invariant -/

/-- More calls and operations. -/
theorem DualCallback.Founded.mono {s t : DualCall} {c : DualCallback} (h : c.Founded s)
    (hmethod : t.callHandleMethod = s.callHandleMethod)
    (hfirst : s.firstCall = true → t.firstCall = true)
    (hsecond : s.secondCall = true → t.secondCall = true)
    (hrequested : ∀ o ∈ s.requested, o ∈ t.requested)
    (hsucceeded : ∀ o ∈ s.succeeded, o ∈ t.succeeded) : c.Founded t := by
  have hswap : (s.callHandleMethod = .swap → s.secondCall = true) →
      t.callHandleMethod = .swap → t.secondCall = true :=
    fun h ht => hsecond (h (hmethod ▸ ht))
  cases c with
  | answerableReply => exact hfirst h
  | answerReply => exact hfirst h
  | answerableTimer => exact hfirst h
  | heldReply => exact ⟨hfirst h.1, hswap h.2.1, hsucceeded _ h.2.2⟩
  | heldTimer => exact ⟨hfirst h.1, hswap h.2.1, hsucceeded _ h.2.2⟩
  | activeReply => exact ⟨hmethod.trans h.1, hsecond h.2⟩
  | activeTimer => exact ⟨hmethod.trans h.1, hsecond h.2⟩
  | userTimeout => exact ⟨fun ht => hfirst (h.1 (hmethod ▸ ht)), hswap h.2⟩
  | operationReply o =>
      obtain ⟨hreq, hhold, hother⟩ := h
      exact ⟨hrequested o hreq, fun ho => ⟨hfirst (hhold ho).1, hswap (hhold ho).2⟩,
        fun ho => (hother ho).trans hmethod.symm⟩

namespace DualInv

variable {method : Operation} {s : DualCall}

theorem quit (h : DualInv method s) {result : Int}
    (hresult : result = 0 → s.callHandleMethod ∈ s.succeeded) : DualInv method (s.quit result) :=
  ⟨h.method, h.notDropped, h.pending, h.requested, h.passes.quit hresult⟩

theorem wait (h : DualInv method s) {c : DualCallback} (hc : c.Founded s) :
    DualInv method (s.wait c) :=
  ⟨h.method, h.notDropped, List.forall_mem_cons.mpr ⟨hc, h.pending⟩, h.requested, h.passes⟩

theorem requestFirst (h : DualInv method s) {c : DualCallback} (hfirst : s.firstCall = true)
    (hc : c.Founded s) : DualInv method (s.requestFirst c) := by
  unfold DualCall.requestFirst
  rw [if_pos hfirst]
  exact h.wait hc

theorem requestSecond (h : DualInv method s) {c : DualCallback} (hsecond : s.secondCall = true)
    (hc : c.Founded s) : DualInv method (s.requestSecond c) := by
  unfold DualCall.requestSecond
  rw [if_pos hsecond]
  exact h.wait hc

theorem retries (h : DualInv method s) (retries : Nat) : DualInv method { s with retries } :=
  ⟨h.method, h.notDropped, h.pending, h.requested, h.passes⟩

theorem requestOperation (h : DualInv method s) {o : Operation}
    (hhold : o = .holdAndAnswer →
      s.firstCall = true ∧ (s.callHandleMethod = .swap → s.secondCall = true))
    (hother : o ≠ .holdAndAnswer → o = s.callHandleMethod) :
    DualInv method (s.requestOperation o) := by
  have hinv : DualInv method { s with requested := o :: s.requested } :=
    ⟨h.method, h.notDropped, fun c hc => (h.pending c hc).mono rfl id id
      (fun _ ho => List.mem_cons_of_mem o ho) (fun _ ho => ho),
      fun o' ho' => List.mem_cons_of_mem o (h.requested o' ho'), h.passes⟩
  exact hinv.wait ⟨List.mem_cons_self, hhold, hother⟩

theorem hangupAllCalls (h : DualInv method s) (hdone : s.callHandleMethod ∈ s.succeeded)
    (hungUp : Bool) : DualInv method (s.hangupAllCalls hungUp) := by
  unfold DualCall.hangupAllCalls
  split
  · exact ⟨h.method, h.notDropped, h.pending, h.requested, h.passes.setResult fun _ _ => hdone⟩
  · exact h.quit fun h => (nomatch h)

/-- The operation of the case, once the calls are held. -/
theorem callHandle (h : DualInv method s)
    (hhold : s.callHandleMethod ≠ .releaseAndAnswer → s.firstCall = true)
    (hswap : s.callHandleMethod = .swap → s.secondCall = true) :
    DualInv method (s.callHandle s.callHandleMethod) := by
  cases hmethod : s.callHandleMethod with
  | transfer => exact h.requestOperation (fun h => (nomatch h)) fun _ => hmethod.symm
  | swap => exact (h.retries 5).requestSecond (hswap hmethod) ⟨hmethod, hswap hmethod⟩
  | releaseAndAnswer => exact h.requestOperation (fun h => (nomatch h)) fun _ => hmethod.symm
  | holdAndAnswer =>
      exact h.requestOperation (fun _ => ⟨hhold (by rw [hmethod]; decide), hswap⟩)
        fun h => absurd rfl h

/-- An operation has been done. -/
theorem succeed (h : DualInv method s) {o : Operation} (ho : o ∈ s.requested) :
    DualInv method { s with succeeded := o :: s.succeeded } :=
  ⟨h.method, h.notDropped, fun c hc => (h.pending c hc).mono rfl id id (fun _ ho => ho)
    (fun _ ho => List.mem_cons_of_mem o ho), List.forall_mem_cons.mpr ⟨ho, h.requested⟩,
    h.passes.mono (List.mem_cons_of_mem o)⟩

/-- **The handlers** keep the invariant. -/
theorem handle (h : DualInv method s) {c : DualCallback} (hc : c.Founded s)
    (hquitting : c = .userTimeout → s.loop.quitting = false) (reply : Option Properties)
    (hungUp : Bool) : DualInv method (s.handle reply hungUp c) := by
  have hfails : ∀ {result : Int}, result ≠ 0 → DualInv method (s.quit result) :=
    fun hresult => h.quit fun h => absurd h hresult
  cases c with
  | answerableReply =>
      show DualInv method (s.answerableCheckComplete reply)
      cases reply with
      | none => exact hfails (by decide)
      | some properties =>
          unfold DualCall.answerableCheckComplete
          dsimp only
          split
          · exact h.requestFirst hc hc
          · exact h.wait hc
  | answerReply =>
      show DualInv method (s.answerComplete reply)
      cases reply with
      | none =>
          unfold DualCall.answerComplete
          dsimp only
          split
          · exact hfails (by decide)
          · exact (h.retries _).wait hc
      | some properties => exact h
  | answerableTimer => exact h.requestFirst hc hc
  | heldReply =>
      show DualInv method (s.stateCheckComplete hungUp reply)
      cases reply with
      | none => exact hfails (by decide)
      | some properties =>
          unfold DualCall.stateCheckComplete
          dsimp only
          split
          · split
            next hmethod => exact h.hangupAllCalls (hmethod ▸ hc.2.2) hungUp
            · exact h.callHandle (fun _ => hc.1) hc.2.1
          · exact h.wait hc
  | heldTimer => exact h.requestFirst hc.1 hc
  | activeReply =>
      show DualInv method (s.secondCallStateCheckComplete reply)
      cases reply with
      | none => exact hfails (by decide)
      | some properties =>
          unfold DualCall.secondCallStateCheckComplete
          dsimp only
          split
          · exact h.requestOperation (fun h => (nomatch h)) fun _ => hc.1.symm
          · split
            · exact hfails (by decide)
            · exact (h.retries _).wait hc
  | activeTimer => exact h.requestSecond hc.2 hc
  | userTimeout =>
      show DualInv method s.callUserTimeout
      have hinv : DualInv method { s with loop := { s.loop with result := 0 } } :=
        ⟨h.method, h.notDropped, h.pending, h.requested, h.passes.setResult fun hq =>
          absurd (hq.symm.trans (hquitting rfl)) Bool.noConfusion⟩
      unfold DualCall.callUserTimeout
      dsimp only
      split
      next hmethod => exact hinv.requestOperation (fun h => (nomatch h)) fun _ => hmethod.symm
      next hmethod =>
        exact hinv.requestOperation (fun _ => ⟨hc.1 hmethod, hc.2⟩) fun h => absurd rfl h
  | operationReply o =>
      show DualInv method (s.operationComplete o hungUp reply)
      cases reply with
      | none => exact hfails (by decide)
      | some properties =>
          have hinv := h.succeed hc.1
          unfold DualCall.operationComplete
          dsimp only
          split
          next ho =>
            obtain ⟨hfirst, hswap⟩ := hc.2.1 ho
            exact (hinv.retries 10).requestFirst hfirst
              ⟨hfirst, hswap, ho ▸ List.mem_cons_self⟩
          next ho =>
            exact hinv.hangupAllCalls (hc.2.2 ho ▸ List.mem_cons_self) hungUp

end DualInv

/-! ## Calls that end -/

theorem DualCallback.Founded.dropFirst {s : DualCall} {c : DualCallback} (h : c.Founded s)
    (hunused : c.usesFirst s.callHandleMethod = false) :
    c.Founded { s with firstCall := false } := by
  cases c with
  | answerableReply => cases hunused
  | answerReply => cases hunused
  | answerableTimer => cases hunused
  | heldReply => cases hunused
  | heldTimer => cases hunused
  | activeReply => exact h
  | activeTimer => exact h
  | userTimeout => exact ⟨fun hne => absurd hne (of_decide_eq_false hunused), h.2⟩
  | operationReply o => exact ⟨h.1, fun ho => absurd ho (of_decide_eq_false hunused), h.2.2⟩

theorem DualCallback.Founded.dropSecond {s : DualCall} {c : DualCallback} (h : c.Founded s)
    (hunused : c.usesSecond s.callHandleMethod = false) :
    c.Founded { s with secondCall := false } := by
  cases c with
  | answerableReply => exact h
  | answerReply => exact h
  | answerableTimer => exact h
  | heldReply => exact ⟨h.1, fun hswap => absurd hswap (of_decide_eq_false hunused), h.2.2⟩
  | heldTimer => exact ⟨h.1, fun hswap => absurd hswap (of_decide_eq_false hunused), h.2.2⟩
  | activeReply => cases hunused
  | activeTimer => cases hunused
  | userTimeout => exact ⟨h.1, fun hswap => absurd hswap (of_decide_eq_false hunused)⟩
  | operationReply o =>
      exact ⟨h.1, fun ho => ⟨(h.2.1 ho).1, fun hswap =>
        absurd ⟨ho, hswap⟩ (of_decide_eq_false hunused)⟩, h.2.2⟩

namespace DualInv

variable {method : Operation} {s : DualCall}

theorem firstPropertyChanged (h : DualInv method s) {key value : String}
    (hunused : DualCall.Disconnects key value →
      ∀ c ∈ s.pending, c.usesFirst s.callHandleMethod = false) :
    DualInv method (s.firstPropertyChanged key value) := by
  unfold DualCall.firstPropertyChanged
  split
  next hends =>
    exact ⟨h.method, h.notDropped, fun c hc => (h.pending c hc).dropFirst (hunused hends c hc),
      h.requested, h.passes⟩
  · exact h

theorem secondPropertyChanged (h : DualInv method s) {key value : String}
    (hunused : DualCall.Disconnects key value →
      ∀ c ∈ s.pending, c.usesSecond s.callHandleMethod = false) :
    DualInv method (s.secondPropertyChanged key value) := by
  unfold DualCall.secondPropertyChanged
  split
  next hends =>
    exact ⟨h.method, h.notDropped, fun c hc => (h.pending c hc).dropSecond (hunused hends c hc),
      h.requested, h.passes⟩
  · exact h

/-- New calls. -/
theorem calls (h : DualInv method s) {firstCall secondCall : Bool}
    (hfirst : s.firstCall = true → firstCall = true)
    (hsecond : s.secondCall = true → secondCall = true) (firstPath secondPath : Option String)
    (retries : Nat) :
    DualInv method { s with firstCall, secondCall, firstPath, secondPath, retries } :=
  ⟨h.method, h.notDropped, fun c hc => (h.pending c hc).mono rfl hfirst hsecond
    (fun _ ho => ho) (fun _ ho => ho), h.requested, h.passes⟩

theorem callAdded (h : DualInv method s) (path : String) (properties : Properties) (proxy : Bool) :
    DualInv method (s.callAdded path properties proxy) := by
  have hfails : ∀ {t : DualCall}, DualInv method t → DualInv method (t.quit (-1)) :=
    fun ht => ht.quit fun h => (nomatch h)
  unfold DualCall.callAdded
  split
  · unfold DualCall.handleFirstCall
    dsimp only
    split
    · exact hfails h
    · split
      · exact (h.calls (fun _ => rfl) id (some path) s.secondPath 10).requestFirst rfl rfl
      · exact hfails (h.calls (fun _ => rfl) id s.firstPath s.secondPath s.retries)
  next hfirst =>
    have hthere : s.firstCall = true := Bool.not_eq_false _ ▸ hfirst
    split
    · unfold DualCall.handleSecondCall
      dsimp only
      split
      · exact h
      · split
        · exact hfails h
        · split
          · exact (h.calls id (fun _ => rfl) s.firstPath (some path) s.retries).wait
              ⟨fun _ => hthere, fun _ => rfl⟩
          · exact hfails (h.calls id (fun _ => rfl) s.firstPath s.secondPath s.retries)
    · exact h

theorem callRemoved (h : DualInv method s)
    (hlasts : s.CallsGone → s.loop.result = 0 → s.callHandleMethod ∈ s.succeeded) :
    DualInv method s.callRemoved := by
  have hinv : DualInv method { s with removedCalls := s.removedCalls + 1 } :=
    ⟨h.method, h.notDropped, h.pending, h.requested, h.passes⟩
  unfold DualCall.callRemoved
  dsimp only
  split
  next hgone => exact hinv.quit (hlasts hgone)
  · exact hinv

/-- **One step** of calls that last long enough. -/
theorem step (h : DualInv method s) {e : DualEvent} (hlasts : LastsLong s e) {s' : DualCall}
    (hstep : dualCallStep s e = some s') : DualInv method s' := by
  unfold dualCallStep at hstep
  split at hstep
  · cases hstep
  · cases e with
    | callAdded path properties proxy =>
        cases hstep
        exact h.callAdded path properties proxy
    | callRemoved =>
        cases hstep
        exact h.callRemoved hlasts
    | firstChanged key value =>
        cases hstep
        exact h.firstPropertyChanged hlasts
    | secondChanged key value =>
        cases hstep
        exact h.secondPropertyChanged hlasts
    | fire c reply hungUp =>
        dsimp only at hstep
        split at hstep
        next hmem =>
          cases hstep
          have hinv : DualInv method { s with pending := s.pending.erase c } :=
            ⟨h.method, h.notDropped, fun c' hc' => h.pending c' (List.mem_of_mem_erase hc'),
              h.requested, h.passes⟩
          exact hinv.handle (h.pending c hmem) hlasts reply hungUp
        · cases hstep
    | masterTimeout =>
        cases hstep
        exact h.quit fun h => (nomatch h)
    | leave =>
        obtain ⟨loop, hleave, rfl⟩ := Option.map_eq_some_iff.mp hstep
        exact ⟨h.method, h.notDropped, h.pending, h.requested, h.passes.leave hleave⟩

end DualInv

/-- **Two calls**: as long as calls end only when nothing pending will use their proxies, and not
all of them between the user's timeout and the end of the tested operation, no dropped proxy is
used, and the case passes only after the operation has been asked for and done. -/
theorem passes_of_lastsLong (method : Operation) (removedCalls : Nat) {es : List DualEvent}
    (hlasts : dualCalls.Meets LastsLong (.start method removedCalls) es) {s : DualCall}
    (hexec : dualCalls.exec (.start method removedCalls) es = some s) :
    s.usedDropped = false ∧
      (s.loop.returned = some 0 → method ∈ s.requested ∧ method ∈ s.succeeded) := by
  have hinv : DualInv method s :=
    dualCalls.exec_invariant (DualInv method) (fun _ _ _ h hlasts hstep => h.step hlasts hstep) es
      (dualInv_start method removedCalls) hlasts hexec
  refine ⟨hinv.notDropped, fun hreturned => ?_⟩
  have hdone := hinv.passes.returned hreturned
  rw [hinv.method] at hdone
  exact ⟨hinv.requested method hdone, hdone⟩

/-- Two calls that are transferred, and hung up. -/
def transferredCalls : List DualEvent :=
  [.callAdded "/voicecall1" [("State", "incoming")] true,
    .fire .answerableReply (some [("State", "incoming")]) true, .fire .answerReply (some []) true,
    .callAdded "/voicecall2" [("State", "waiting")] true, .fire .userTimeout none true,
    .fire (.operationReply .holdAndAnswer) (some []) true,
    .fire .heldReply (some [("State", "held")]) true,
    .fire (.operationReply .transfer) (some []) true, .firstChanged "State" "disconnected",
    .secondChanged "State" "disconnected", .callRemoved, .callRemoved, .leave]

theorem passes_transferredCalls :
    ∃ s, dualCalls.exec (.start .transfer 0) transferredCalls = some s ∧
      s.usedDropped = false ∧ .transfer ∈ s.requested ∧ .transfer ∈ s.succeeded := by
  have hrun : (dualCalls.exec (.start .transfer 0) transferredCalls).map (·.loop.returned) =
      some (some 0) := by decide +kernel
  obtain ⟨s, hs, hreturned⟩ := Option.map_eq_some_iff.mp hrun
  have hpasses := passes_of_lastsLong .transfer 0 (by decide +kernel) hs
  exact ⟨s, hs, hpasses.1, hpasses.2 hreturned⟩

/-- The other party hangs up after the user's timeout: the case passes, and nothing has been
transferred.  It hangs up before the call can be answered: the next check has no proxy. -/
theorem hungUp_passes :
    (dualCalls.exec (.start .transfer 0)
      [.callAdded "/voicecall1" [("State", "incoming")] true,
        .fire .answerableReply (some [("State", "incoming")]) true,
        .fire .answerReply (some []) true,
        .callAdded "/voicecall2" [("State", "waiting")] true, .fire .userTimeout none true,
        .firstChanged "State" "disconnected", .secondChanged "State" "disconnected",
        .callRemoved, .callRemoved, .leave]).map
      (fun s => (s.loop.returned, s.requested)) = some (some 0, [.holdAndAnswer]) ∧
    (dualCalls.exec (.start .transfer 0)
      [.callAdded "/voicecall1" [("State", "incoming")] true,
        .fire .answerableReply (some [("State", "alerting")]) true,
        .firstChanged "State" "disconnected", .fire .answerableTimer none true]).map
      (·.usedDropped) = some true := by
  decide +kernel

end Blts.Ofono
