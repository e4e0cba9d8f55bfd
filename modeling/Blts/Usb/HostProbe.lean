import Mathlib.Logic.Function.Basic
import Blts.Lib.Run
import Blts.Usb.HostBuffers

/-!
# Failed probes of the host driver

A probe sets up one endpoint after the other: its bits in `endpoint_state`, its pipe, two
buffers and a URB.  Where one of these cannot be had, or the device cannot be registered, the
probe gives the lock back and fails.  It undoes nothing.

The next probe then finds a URB that it asserts not to be there.
-/

namespace Blts.Usb

open Blts.Lib

/-- Where the set-up of an endpoint ends: the four allocations, in their order. -/
inductive AllocResult where
  | iobufFailed
  | crFailed
  | urbFailed
  | ready
  deriving DecidableEq

def AllocResult.setup : AllocResult → SetupResult
  | .iobufFailed | .crFailed => .dmaFailed
  | .urbFailed => .urbFailed
  | .ready => .ready

/-- The bits `USBDRV_EP_IN` and `USBDRV_EP_OUT`. -/
structure EndpointState where
  epIn : Bool
  epOut : Bool
  deriving DecidableEq

def noEndpoint : EndpointState := ⟨false, false⟩

/-- The driver with what a probe allocates. -/
structure HostEndpoints extends HostBuffers where
  endpointState : Nat → EndpointState
  iobuf : Nat → Bool
  cr : Nat → Bool
  /-- The `BUG_ON` of a `current_urb` has stopped the system. -/
  bug : Bool

/-- The bits of an endpoint, set in addition to those that are there. -/
def EndpointDescriptor.addTo (endpoint : EndpointDescriptor) (state : EndpointState) :
    EndpointState :=
  match endpoint.xferType with
  | .control => ⟨true, true⟩
  | .isoc | .bulk | .int =>
      if endpoint.dirIn then { state with epIn := true } else { state with epOut := true }

namespace HostEndpoints

/-- `usb_probe_new_ep`. -/
def probeNewEp (s : HostEndpoints) (endpoint : EndpointDescriptor) (index : Nat)
    (r : AllocResult) : Option (HostEndpoints × Bool) :=
  (usbProbeNewEp s.toHostBuffers endpoint index r.setup).map fun (buffers, ok) =>
    let s := { s with
      toHostBuffers := buffers
      endpointState :=
        Function.update s.endpointState index (endpoint.addTo (s.endpointState index)) }
    match endpoint.xferType with
    | .control => (s, ok)
    | .isoc | .bulk | .int =>
        let b := workBuffer endpoint index
        ({ s with
          iobuf := Function.update s.iobuf b (r ≠ .iobufFailed)
          cr := Function.update s.cr b (r ≠ .iobufFailed ∧ r ≠ .crFailed) }, ok)

def probeEndpoints (setup : Nat → AllocResult) (s : HostEndpoints) (index : Nat) :
    List EndpointDescriptor → Option (HostEndpoints × Bool)
  | [] => some (s, true)
  | endpoint :: endpoints =>
      (s.probeNewEp endpoint index (setup index)).bind fun (s, ok) =>
        if ok then probeEndpoints setup s (index + 1) endpoints else some (s, false)

/-- `hostdrv_probe`, and whether it succeeds; `none` is the `BUG_ON`. -/
def probe (s : HostEndpoints) (locked : Bool) (device : UsbDevice) (setup : Nat → AllocResult)
    (registered : Bool) : Option (HostEndpoints × Bool) :=
  if locked = false then some (s, false)
  else
    (probeEndpoints setup s 0 device.probed).map fun (s, ok) =>
      ({ s with attached := s.attached || (ok && registered) }, ok && registered)

/-- `hostdrv_disconnect`. -/
def disconnect (s : HostEndpoints) : HostEndpoints :=
  { s with
    toHostBuffers := hostdrvDisconnect s.toHostBuffers
    endpointState := fun _ => noEndpoint
    iobuf := fun _ => false
    cr := fun _ => false }

end HostEndpoints

inductive HostProbeEvent where
  | probe (locked : Bool) (device : UsbDevice) (setup : Nat → AllocResult) (registered : Bool)
  | disconnect

/-- Only an attached device is disconnected. -/
def hostProbeStep (s : HostEndpoints) : HostProbeEvent → Option HostEndpoints
  | .probe locked device setup registered =>
      if s.bug then none
      else
        match s.probe locked device setup registered with
        | some (s', _) => some s'
        | none => some { s with bug := true }
  | .disconnect => if s.bug = false ∧ s.attached = true then some s.disconnect else none

def hostProbeSystem : System HostEndpoints HostProbeEvent where
  step := hostProbeStep

def hostProbeStart : HostEndpoints where
  toHostBuffers := hostStart
  endpointState _ := noEndpoint
  iobuf _ := false
  cr _ := false
  bug := false

/-! ## What a probe must do -/

/-- Nothing has come to what the driver has. -/
def LeavesNothing (s s' : HostEndpoints) : Prop :=
  s'.endpointState = s.endpointState ∧ s'.usbpipe = s.usbpipe ∧ s'.urb = s.urb ∧
    s'.iobuf = s.iobuf ∧ s'.cr = s.cr

/-- The bits that the endpoints of a device have on their own. -/
def UsbDevice.endpointState (device : UsbDevice) (i : Nat) : EndpointState :=
  match device.probed[i]? with
  | some endpoint => endpoint.addTo noEndpoint
  | none => noEndpoint

/-- A probe does not come to the `BUG_ON`.  It leaves nothing behind if it fails, and otherwise
the bits of its own endpoints. -/
def ProbesCleanly (s : HostEndpoints) : HostProbeEvent → Prop
  | .probe locked device setup registered =>
      ∃ s' ok, s.probe locked device setup registered = some (s', ok) ∧
        (ok = false → LeavesNothing s s') ∧ (ok = true → s'.endpointState = device.endpointState)
  | .disconnect => True

/-- All that the probe of a device needs can be had. -/
def UsbDevice.SetsUp (device : UsbDevice) (setup : Nat → AllocResult) (registered : Bool) : Prop :=
  registered = true ∧ ∀ i < device.probed.length,
    (device.probed[i]?).map EndpointDescriptor.xferType = some .control ∨ setup i = .ready

instance (device : UsbDevice) (setup : Nat → AllocResult) (registered : Bool) :
    Decidable (device.SetsUp setup registered) :=
  inferInstanceAs (Decidable (_ ∧ _))

/-- A probe does not get the lock, or it is made with no device attached, and succeeds. -/
def ProbesOnce (s : HostEndpoints) : HostProbeEvent → Prop
  | .probe locked device setup registered =>
      locked = false ∨ (s.attached = false ∧ device.SetsUp setup registered)
  | .disconnect => True

instance (s : HostEndpoints) : DecidablePred (ProbesOnce s)
  | .probe _ _ _ _ => inferInstanceAs (Decidable (_ ∨ _))
  | .disconnect => isTrue trivial

/-- A driver without a device has nothing. -/
structure ProbeInv (s : HostEndpoints) : Prop where
  urbs : s.attached = false → ∀ b, s.urb b = false
  states : s.attached = false → ∀ i, s.endpointState i = noEndpoint

section

variable {s s' : HostEndpoints}

/-- An endpoint is set up whose buffer has no URB. -/
theorem probeNewEp_ready (s : HostEndpoints) {endpoint : EndpointDescriptor} {index : Nat}
    {r : AllocResult} (hr : endpoint.xferType = .control ∨ r = .ready)
    (hurb : ∀ b, 2 * index ≤ b → s.urb b = false) :
    ∃ s₁, s.probeNewEp endpoint index r = some (s₁, true) ∧
      (∀ b, 2 * (index + 1) ≤ b → s₁.urb b = false) ∧
      s₁.endpointState =
        Function.update s.endpointState index (endpoint.addTo (s.endpointState index)) := by
  obtain ⟨hle, hlt⟩ := workBuffer_bounds endpoint index
  have hbuffer : s.urb (workBuffer endpoint index) = false := hurb _ hle
  unfold HostEndpoints.probeNewEp usbProbeNewEp
  cases htype : endpoint.xferType with
  | control => exact ⟨_, rfl, fun b hb => hurb b (by omega), rfl⟩
  | isoc | bulk | int =>
      have hready : r = .ready := by
        rw [htype] at hr
        exact hr.resolve_left (by decide)
      rw [hready]
      dsimp only [AllocResult.setup]
      rw [if_neg (by rw [hbuffer]; exact Bool.false_ne_true)]
      refine ⟨_, rfl, fun b hb => ?_, rfl⟩
      show Function.update s.urb (workBuffer endpoint index) true b = false
      rw [Function.update_of_ne (by omega)]
      exact hurb b (by omega)

/-- The bits after the endpoints from `index` on have been set up. -/
theorem probeEndpoints_ready {setup : Nat → AllocResult} {endpoints : List EndpointDescriptor} :
    ∀ {s : HostEndpoints} {index : Nat}, (∀ b, 2 * index ≤ b → s.urb b = false) →
      (∀ i, index ≤ i → s.endpointState i = noEndpoint) →
      (∀ j < endpoints.length, (endpoints[j]?).map EndpointDescriptor.xferType = some .control ∨
        setup (index + j) = .ready) →
      ∃ s', s.probeEndpoints setup index endpoints = some (s', true) ∧
        (∀ i < index, s'.endpointState i = s.endpointState i) ∧
        ∀ j, s'.endpointState (index + j) =
          match endpoints[j]? with
          | some endpoint => endpoint.addTo noEndpoint
          | none => noEndpoint := by
  induction endpoints with
  | nil =>
      intro s index _ hstates _
      exact ⟨s, rfl, fun _ _ => rfl, fun j => hstates _ (Nat.le_add_right index j)⟩
  | cons endpoint endpoints ih =>
      intro s index hurb hstates hready
      have hindex : endpoint.xferType = .control ∨ setup index = .ready := by
        obtain h | h := hready 0 (Nat.succ_pos _)
        · exact .inl (Option.some.inj h)
        · exact .inr h
      obtain ⟨s₁, hfirst, hurb₁, hstates₁⟩ := probeNewEp_ready s hindex hurb
      have hlater : ∀ i, index + 1 ≤ i → s₁.endpointState i = noEndpoint := by
        intro i hi
        rw [hstates₁, Function.update_of_ne (by omega)]
        exact hstates i (by omega)
      have hready₁ : ∀ j < endpoints.length,
          (endpoints[j]?).map EndpointDescriptor.xferType = some .control ∨
            setup (index + 1 + j) = .ready := by
        intro j hj
        rw [show index + 1 + j = index + (j + 1) by omega]
        exact hready (j + 1) (Nat.succ_lt_succ hj)
      obtain ⟨s', hrest, hbefore, hafter⟩ := ih hurb₁ hlater hready₁
      refine ⟨s', ?_, fun i hi => ?_, fun j => ?_⟩
      · unfold HostEndpoints.probeEndpoints
        rw [hfirst]
        exact hrest
      · rw [hbefore i (by omega), hstates₁, Function.update_of_ne (by omega)]
      · cases j with
        | zero =>
            rw [Nat.add_zero, hbefore index (Nat.lt_succ_self index), hstates₁,
              Function.update_self, hstates index (Nat.le_refl index)]
            rfl
        | succ j =>
            rw [show index + (j + 1) = index + 1 + j by omega]
            exact hafter j

/-- **A probe** of a driver that has nothing, with all that it needs. -/
theorem probe_ready {device : UsbDevice} {setup : Nat → AllocResult} {registered : Bool}
    (hinv : ProbeInv s) (hfree : s.attached = false) (hsets : device.SetsUp setup registered) :
    ∃ s', s.probe true device setup registered = some (s', true) ∧ s'.attached = true ∧
      s'.endpointState = device.endpointState := by
  obtain ⟨rfl, hready⟩ := hsets
  have hready₀ : ∀ j < device.probed.length,
      (device.probed[j]?).map EndpointDescriptor.xferType = some .control ∨
        setup (0 + j) = .ready := by
    intro j hj
    rw [Nat.zero_add]
    exact hready j hj
  obtain ⟨s₁, hprobe, _, hstates⟩ := @probeEndpoints_ready setup device.probed s 0
    (fun b _ => hinv.urbs hfree b) (fun i _ => hinv.states hfree i) hready₀
  refine ⟨{ s₁ with attached := s₁.attached || (true && true) }, ?_, Bool.or_true _, ?_⟩
  · unfold HostEndpoints.probe
    rw [if_neg (by decide), hprobe]
    rfl
  · funext i
    have hi := hstates i
    rw [Nat.zero_add] at hi
    exact hi

/-- **A step.** -/
theorem hostProbeStep_clean {e : HostProbeEvent} (hinv : ProbeInv s) (honce : ProbesOnce s e)
    (hstep : hostProbeSystem.step s e = some s') : ProbeInv s' ∧ ProbesCleanly s e := by
  cases e with
  | probe locked device setup registered =>
      replace hstep : (if _ then _ else _) = some s' := hstep
      by_cases hbug : s.bug = true
      · rw [if_pos hbug] at hstep
        cases hstep
      · rw [if_neg hbug] at hstep
        cases locked with
        | false =>
            have hprobe : s.probe false device setup registered = some (s, false) := rfl
            rw [hprobe] at hstep
            cases hstep
            exact ⟨hinv, s, false, hprobe, fun _ => ⟨rfl, rfl, rfl, rfl, rfl⟩,
              fun h => absurd h Bool.false_ne_true⟩
        | true =>
            obtain h | ⟨hfree, hsets⟩ := honce
            · cases h
            · obtain ⟨s₁, hprobe, hattached, hstates⟩ := probe_ready hinv hfree hsets
              rw [hprobe] at hstep
              cases hstep
              refine ⟨⟨fun h => ?_, fun h => ?_⟩, s', true, hprobe,
                fun h => absurd h.symm Bool.false_ne_true, fun _ => hstates⟩
              all_goals
                rw [hattached] at h
                cases h
  | disconnect =>
      replace hstep : (if _ then _ else _) = some s' := hstep
      obtain ⟨_, hstep⟩ := Option.ite_none_right_eq_some.mp hstep
      cases hstep
      exact ⟨⟨fun _ _ => rfl, fun _ _ => rfl⟩, trivial⟩

/-! ## Probes that fail -/

theorem probeNewEp_states {endpoint : EndpointDescriptor} {index : Nat} {r : AllocResult}
    {ok : Bool} (h : s.probeNewEp endpoint index r = some (s', ok)) :
    s'.endpointState =
      Function.update s.endpointState index (endpoint.addTo (s.endpointState index)) := by
  obtain ⟨⟨buffers, ok₁⟩, _, h⟩ := Option.map_eq_some_iff.mp h
  cases htype : endpoint.xferType with
  | control | isoc | bulk | int =>
      rw [htype] at h
      cases h
      rfl

/-- The bits of an endpoint are not touched any more by the endpoints after it. -/
theorem probeEndpoints_before {setup : Nat → AllocResult} {endpoints : List EndpointDescriptor} :
    ∀ {s : HostEndpoints} {index : Nat} {ok : Bool},
      s.probeEndpoints setup index endpoints = some (s', ok) →
      ∀ i < index, s'.endpointState i = s.endpointState i := by
  induction endpoints with
  | nil =>
      intro s index ok h i _
      cases h
      rfl
  | cons endpoint endpoints ih =>
      intro s index ok h i hi
      obtain ⟨⟨s₁, ok₁⟩, hfirst, h⟩ := Option.bind_eq_some_iff.mp h
      have hstates : s₁.endpointState i = s.endpointState i := by
        rw [probeNewEp_states hfirst, Function.update_of_ne (Nat.ne_of_lt hi)]
      cases ok₁ with
      | true => exact (ih h i (Nat.lt_succ_of_lt hi)).trans hstates
      | false =>
          cases h
          exact hstates

/-- **Failed probes** leave the bits of endpoint 0 behind, once they have the lock. -/
theorem failedProbe_leaves {device : UsbDevice} {setup : Nat → AllocResult} {registered : Bool}
    (hstates : s.endpointState 0 = noEndpoint)
    (h : s.probe true device setup registered = some (s', false)) : ¬ LeavesNothing s s' := by
  rintro ⟨hsame, _⟩
  unfold HostEndpoints.probe at h
  rw [if_neg (by decide)] at h
  obtain ⟨⟨s₁, ok⟩, hprobe, h⟩ := Option.map_eq_some_iff.mp h
  have hafter : s₁.endpointState 0 = ⟨true, true⟩ := by
    obtain ⟨⟨s₀, ok₀⟩, hep0, hrest⟩ := Option.bind_eq_some_iff.mp hprobe
    have hset : s₀.endpointState 0 = ⟨true, true⟩ := by
      rw [probeNewEp_states hep0, Function.update_self]
      rfl
    cases ok₀ with
    | true => rw [probeEndpoints_before hrest 0 (Nat.succ_pos 0), hset]
    | false =>
        cases hrest
        exact hset
  have hs : { s₁ with attached := s₁.attached || (ok && registered) } = s' := (Prod.mk.inj h).1
  rw [← hs] at hsame
  rw [show s₁.endpointState = s.endpointState from hsame, hstates] at hafter
  cases hafter

end

/-- **Probes** are clean in every run in which each probe either does not get the lock, or is
made with no device attached and gets all that it needs. -/
theorem probesCleanly_of_once {es : List HostProbeEvent}
    (honce : hostProbeSystem.Meets ProbesOnce hostProbeStart es) :
    hostProbeSystem.Meets ProbesCleanly hostProbeStart es :=
  hostProbeSystem.meets_imp ProbeInv
    (fun _ _ _ hinv h hstep => hostProbeStep_clean hinv h hstep) es
    ⟨fun _ _ => rfl, fun _ _ => rfl⟩ honce

/-- A device with an endpoint in each direction. -/
def twoEndpoints : UsbDevice :=
  ⟨64, [⟨true, .bulk, 512⟩, ⟨false, .bulk, 512⟩]⟩

/-- A probe of a busy driver, one that attaches a device, and one after its disconnect. -/
theorem probesCleanly_attached : hostProbeSystem.Meets ProbesCleanly hostProbeStart
    [.probe false twoEndpoints (fun _ => .ready) true,
      .probe true twoEndpoints (fun _ => .ready) true, .disconnect,
      .probe true ⟨64, [⟨true, .int, 8⟩]⟩ (fun _ => .ready) true] :=
  probesCleanly_of_once (by decide)

/-- A device that cannot be registered is probed twice. -/
def probedTwice : List HostProbeEvent :=
  [.probe true twoEndpoints (fun _ => .ready) false] ++
    [.probe true twoEndpoints (fun _ => .ready) true]

/-- The first probe leaves a URB behind, and the second one stops the system. -/
theorem unregistered_bugs : ¬ ∀ es, hostProbeSystem.Meets ProbesCleanly hostProbeStart es := by
  intro h
  obtain ⟨_, _, hprobe, _⟩ := (h probedTwice).last _ _ rfl rfl
  cases hprobe

end Blts.Usb
