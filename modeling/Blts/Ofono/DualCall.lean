import Blts.Lib.Run
import Blts.Ofono.MainLoop

/-!
# Two calls

A case waits for a call, answers it, waits for a second one, and after the user's timeout asks
for an operation on both.  For a transfer and a swap the calls are first held and answered, and
the state of a call is asked for until it is the wanted one.

A call that has ended takes its proxy with it.  What waits for a reply or a timer does not
know, and once the user's timeout has set the result to 0 the end of both calls passes the case.
-/

namespace Blts.Ofono

open Blts.Lib

inductive Operation where
  | transfer
  | swap
  | releaseAndAnswer
  | holdAndAnswer
  deriving DecidableEq

/-- What the main loop will call: the handler of a reply, or of a timer. -/
inductive DualCallback where
  | answerableReply
  | answerReply
  | answerableTimer
  | heldReply
  | heldTimer
  | activeReply
  | activeTimer
  | userTimeout
  | operationReply (o : Operation)
  deriving DecidableEq

/-- `struct dual_call_case_state`, with the operations that have been asked for and that have
been done. -/
structure DualCall where
  callHandleMethod : Operation
  /-- Whether there are proxies for the calls. -/
  firstCall : Bool
  secondCall : Bool
  firstPath : Option String
  secondPath : Option String
  retries : Nat
  /-- The counter is static: it counts the removed calls of earlier cases as well. -/
  removedCalls : Nat
  loop : MainLoop
  pending : List DualCallback
  requested : List Operation
  succeeded : List Operation
  /-- A request has been made through a proxy that is not there any more. -/
  usedDropped : Bool
  deriving DecidableEq

inductive DualEvent where
  | callAdded (path : String) (properties : Properties) (proxy : Bool)
  | callRemoved
  | firstChanged (key value : String)
  | secondChanged (key value : String)
  /-- A handler is called: with an error, or the properties that a reply carries.  Where it hangs
  up, `hungUp` says whether that is done. -/
  | fire (c : DualCallback) (reply : Option Properties) (hungUp : Bool)
  | masterTimeout
  | leave
  deriving DecidableEq

namespace DualCall

def start (method : Operation) (removedCalls : Nat) : DualCall where
  callHandleMethod := method
  firstCall := false
  secondCall := false
  firstPath := none
  secondPath := none
  retries := 0
  removedCalls := removedCalls
  loop := .running
  pending := []
  requested := []
  succeeded := []
  usedDropped := false

def quit (s : DualCall) (result : Int) : DualCall := { s with loop := s.loop.quit result }

def wait (s : DualCall) (c : DualCallback) : DualCall := { s with pending := c :: s.pending }

/-- A request through the proxy of the first call, or of the second. -/
def requestFirst (s : DualCall) (c : DualCallback) : DualCall :=
  if s.firstCall then s.wait c else { s with usedDropped := true }

def requestSecond (s : DualCall) (c : DualCallback) : DualCall :=
  if s.secondCall then s.wait c else { s with usedDropped := true }

/-- A request to the voice call manager. -/
def requestOperation (s : DualCall) (o : Operation) : DualCall :=
  { s with requested := o :: s.requested }.wait (.operationReply o)

def hangupAllCalls (s : DualCall) (hungUp : Bool) : DualCall :=
  if hungUp then { s with loop := { s.loop with result := 0 } } else s.quit (-1)

/-- `do_transfer`, `do_swap`, `do_hold_and_answer` and `do_release_and_answer`. -/
def callHandle (s : DualCall) : Operation → DualCall
  | .transfer => s.requestOperation .transfer
  | .swap => { s with retries := 5 }.requestSecond .activeReply
  | .holdAndAnswer => s.requestOperation .holdAndAnswer
  | .releaseAndAnswer => s.requestOperation .releaseAndAnswer

/-- `pending_call_answer_complete`. -/
def answerComplete (s : DualCall) : Option Properties → DualCall
  | none =>
      if s.retries = 0 then s.quit (-1)
      else { s with retries := s.retries - 1 }.wait .answerableTimer
  | some _ => s

/-- `pending_call_answerable_check_complete`. -/
def answerableCheckComplete (s : DualCall) : Option Properties → DualCall
  | none => s.quit (-1)
  | some properties =>
      if checkState properties "incoming" then s.requestFirst .answerReply
      else s.wait .answerableTimer

/-- `pending_call_state_check_complete`. -/
def stateCheckComplete (s : DualCall) (hungUp : Bool) : Option Properties → DualCall
  | none => s.quit (-1)
  | some properties =>
      if checkState properties "held" then
        if s.callHandleMethod = .holdAndAnswer then s.hangupAllCalls hungUp
        else s.callHandle s.callHandleMethod
      else s.wait .heldTimer

/-- `pending_second_call_state_check_complete`. -/
def secondCallStateCheckComplete (s : DualCall) : Option Properties → DualCall
  | none => s.quit (-1)
  | some properties =>
      if checkState properties "active" then s.requestOperation .swap
      else if s.retries = 0 then s.quit (-1)
      else { s with retries := s.retries - 1 }.wait .activeTimer

/-- `transfer_complete`, `swap_complete`, `release_and_answer_complete` and
`hold_and_answer_complete`. -/
def operationComplete (s : DualCall) (o : Operation) (hungUp : Bool) :
    Option Properties → DualCall
  | none => s.quit 1
  | some _ =>
      let s := { s with succeeded := o :: s.succeeded }
      if o = .holdAndAnswer then { s with retries := 10 }.requestFirst .heldReply
      else s.hangupAllCalls hungUp

/-- `call_user_timeout`. -/
def callUserTimeout (s : DualCall) : DualCall :=
  let s := { s with loop := { s.loop with result := 0 } }
  if s.callHandleMethod = .releaseAndAnswer then s.callHandle .releaseAndAnswer
  else s.callHandle .holdAndAnswer

def handle (s : DualCall) (reply : Option Properties) (hungUp : Bool) : DualCallback → DualCall
  | .answerableReply => s.answerableCheckComplete reply
  | .answerReply => s.answerComplete reply
  | .answerableTimer => s.requestFirst .answerableReply
  | .heldReply => s.stateCheckComplete hungUp reply
  | .heldTimer => s.requestFirst .heldReply
  | .activeReply => s.secondCallStateCheckComplete reply
  | .activeTimer => s.requestSecond .activeReply
  | .userTimeout => s.callUserTimeout
  | .operationReply o => s.operationComplete o hungUp reply

def handleFirstCall (s : DualCall) (path : String) (properties : Properties) (proxy : Bool) :
    DualCall :=
  if proxy = false then s.quit (-1)
  else
    let s := { s with firstCall := true }
    if checkState properties "incoming" then
      { s with firstPath := some path, retries := 10 }.requestFirst .answerableReply
    else s.quit (-1)

def handleSecondCall (s : DualCall) (path : String) (properties : Properties) (proxy : Bool) :
    DualCall :=
  if s.firstPath = some path then s
  else if proxy = false then s.quit (-1)
  else
    let s := { s with secondCall := true }
    if checkState properties "waiting" then
      { s with secondPath := some path }.wait .userTimeout
    else s.quit (-1)

/-- `on_voice_call_manager_call_added`. -/
def callAdded (s : DualCall) (path : String) (properties : Properties) (proxy : Bool) : DualCall :=
  if s.firstCall = false then s.handleFirstCall path properties proxy
  else if s.secondCall = false then s.handleSecondCall path properties proxy
  else s

/-- One more removed call ends the case. -/
def CallsGone (s : DualCall) : Prop :=
  (s.firstPath.isSome ∧ s.secondPath.isSome ∧ 2 ≤ s.removedCalls + 1) ∧
    s.firstCall = false ∧ s.secondCall = false

instance (s : DualCall) : Decidable s.CallsGone := by
  unfold CallsGone
  infer_instance

/-- `on_voice_call_manager_call_removed`. -/
def callRemoved (s : DualCall) : DualCall :=
  let s' := { s with removedCalls := s.removedCalls + 1 }
  if s.CallsGone then s'.quit s'.loop.result else s'

/-- A changed property with which a call ends. -/
def Disconnects (key value : String) : Prop := key = "State" ∧ value = "disconnected"

instance (key value : String) : Decidable (Disconnects key value) := by
  unfold Disconnects
  infer_instance

/-- `on_first_voice_call_property_changed`. -/
def firstPropertyChanged (s : DualCall) (key value : String) : DualCall :=
  if Disconnects key value then { s with firstCall := false } else s

/-- `on_second_voice_call_property_changed`. -/
def secondPropertyChanged (s : DualCall) (key value : String) : DualCall :=
  if Disconnects key value then { s with secondCall := false } else s

end DualCall

def dualCallStep (s : DualCall) (e : DualEvent) : Option DualCall :=
  if s.loop.returned.isSome then none
  else
    match e with
    | .callAdded path properties proxy => some (s.callAdded path properties proxy)
    | .callRemoved => some s.callRemoved
    | .firstChanged key value => some (s.firstPropertyChanged key value)
    | .secondChanged key value => some (s.secondPropertyChanged key value)
    | .fire c reply hungUp =>
        if c ∈ s.pending then
          some ({ s with pending := s.pending.erase c }.handle reply hungUp c)
        else none
    | .masterTimeout => some (s.quit (-1))
    | .leave => s.loop.leave.map fun loop => { s with loop }

def dualCalls : System DualCall DualEvent := ⟨dualCallStep⟩

end Blts.Ofono
