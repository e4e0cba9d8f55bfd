import Mathlib.Data.List.Basic

/-!
# The main loop of a case

The handlers of a case set its result and tell the loop to quit.  The loop is left after the
handlers of one more turn at most, with the result that stands then.
-/

namespace Blts.Ofono

/-- The strings among the properties of a call. -/
abbrev Properties := List (String × String)

/-- `check_state`, for one of the properties. -/
def checkState (properties : Properties) (expected : String) : Bool :=
  properties.lookup "State" = some expected

structure MainLoop where
  result : Int
  quitting : Bool
  /-- What `g_main_loop_run` has been left with. -/
  returned : Option Int
  deriving DecidableEq

namespace MainLoop

def running : MainLoop := ⟨-1, false, none⟩

/-- `g_main_loop_quit`, after the result has been set. -/
def quit (l : MainLoop) (result : Int) : MainLoop := { l with result, quitting := true }

def leave (l : MainLoop) : Option MainLoop :=
  if l.quitting then some { l with returned := some l.result } else none

/-- The case passes only if `P` holds. -/
structure PassesOnly (P : Prop) (l : MainLoop) : Prop where
  quitting : l.quitting = true → l.result = 0 → P
  returned : l.returned = some 0 → P

variable {P Q : Prop} {l : MainLoop}

theorem passesOnly_running : PassesOnly P running := ⟨fun h => (nomatch h), fun h => (nomatch h)⟩

theorem PassesOnly.mono (h : PassesOnly P l) (hPQ : P → Q) : PassesOnly Q l :=
  ⟨fun hquitting hresult => hPQ (h.quitting hquitting hresult), fun hret => hPQ (h.returned hret)⟩

theorem PassesOnly.quit (h : PassesOnly P l) {result : Int} (hresult : result = 0 → P) :
    PassesOnly P (l.quit result) :=
  ⟨fun _ => hresult, h.returned⟩

/-- A result that is set while the loop goes on. -/
theorem PassesOnly.setResult (h : PassesOnly P l) {result : Int}
    (hresult : l.quitting = true → result = 0 → P) : PassesOnly P { l with result } :=
  ⟨hresult, h.returned⟩

theorem PassesOnly.leave (h : PassesOnly P l) {l' : MainLoop} (hleave : l.leave = some l') :
    PassesOnly P l' := by
  unfold MainLoop.leave at hleave
  split at hleave
  next hquitting =>
    cases hleave
    exact ⟨h.quitting, fun hret => h.quitting hquitting (Option.some.inj hret)⟩
  · cases hleave

end MainLoop

end Blts.Ofono
