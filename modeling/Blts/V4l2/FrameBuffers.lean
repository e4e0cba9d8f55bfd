import Mathlib.Logic.Function.Basic
import Blts.Lib.Run

/-!
# The frame buffers of a camera

The buffers of a capture are queued to the driver, which fills them and hands them out one
at a time; a reader looks at the picture and queues the buffer again.  `buffers[i].queued`
is the program's own record of the buffers that the driver has.

The two readers differ: `read_frame` checks the buffer that it has been given and returns
without queueing it again if it does not like it, `read_frame_to_file` saves the picture
of the first buffer, whichever it has been given.
-/

namespace Blts.V4l2

open Blts.Lib

inductive IoMethod where
  | none
  | read
  | mmap
  | userptr
  deriving DecidableEq

/-- A camera with its buffers, which have been mapped or allocated one by one. -/
structure CaptureDevice where
  ioMethod : IoMethod
  nBuffers : Nat
  start : Nat → Nat
  length : Nat → Nat
  sizeimage : Nat
  start_injective : ∀ i < nBuffers, ∀ j < nBuffers, start i = start j → i = j

/-- The fields of a `v4l2_buffer` that the readers use. -/
structure V4l2Buffer where
  index : Nat
  userptr : Nat
  length : Nat
  bytesused : Nat
  deriving DecidableEq

inductive Errno where
  | eagain
  | other

/-- What the driver does in a call of a reader. -/
structure FrameResults where
  read : Except Errno Unit
  dqbuf : Except Errno V4l2Buffer
  qbuf : Bool

/-- What happened in the last call: the address at which a picture came in, the buffer that
was dequeued, and the address given to `process_image` or `process_image_file`. -/
structure CallLog where
  ret : Int
  received : Option Nat
  dequeued : Option Nat
  shown : Option Nat

structure CaptureState where
  queued : Nat → Bool
  /-- The driver has the buffer. -/
  owned : Nat → Bool
  captureStarted : Bool
  call : CallLog

namespace CaptureState

/-- The call returns without a picture. -/
def returns (s : CaptureState) (ret : Int) : CaptureState :=
  { s with call := ⟨ret, none, none, none⟩ }

/-- The driver hands out a buffer. -/
def handOut (s : CaptureState) (i : Nat) : CaptureState :=
  { s with owned := Function.update s.owned i false }

/-- The driver takes a buffer, and the flag `queued` of a buffer is set. -/
def queue (s : CaptureState) (index i : Nat) : CaptureState :=
  { s with
    owned := Function.update s.owned index true
    queued := Function.update s.queued i true }

end CaptureState

/-! ## Reading -/

/-- The buffer at an address, or `n_buffers`. -/
def findBuffer (dev : CaptureDevice) (ptr : Nat) : Nat :=
  (List.range dev.nBuffers).findIdx fun i => ptr = dev.start i

/-- The lengths that `validate_dequeued_buffer` looks at. -/
def lengthsValid (dev : CaptureDevice) (buf : V4l2Buffer) (i : Nat) : Bool :=
  if dev.length i < buf.length then false
  else if buf.length < dev.length i ∧ buf.length ≠ buf.bytesused ∧ buf.length < buf.bytesused then
    false
  else if buf.length < dev.sizeimage then false
  else true

/-- The flags after the check, and whether the buffer is valid. -/
def validateDequeuedBuffer (dev : CaptureDevice) (queued : Nat → Bool) (buf : V4l2Buffer) :
    (Nat → Bool) × Bool :=
  match dev.ioMethod with
  | .userptr =>
      let i := findBuffer dev buf.userptr
      if dev.nBuffers ≤ i then (queued, false)
      else if queued i then (Function.update queued i false, lengthsValid dev buf i)
      else (queued, false)
  | .mmap =>
      let i := buf.index
      if dev.nBuffers ≤ i then (queued, false)
      else if queued i then (Function.update queued i false, lengthsValid dev buf i)
      else (queued, false)
  | .none | .read => (queued, lengthsValid dev buf 0)

/-- The picture is shown, and the buffer is queued again. -/
def showAndQueue (dev : CaptureDevice) (s : CaptureState) (r : FrameResults) (buf : V4l2Buffer)
    (i shown : Nat) : CaptureState :=
  if r.qbuf then
    { s.queue buf.index i with
      call := ⟨1, some (dev.start buf.index), some buf.index, some shown⟩ }
  else { s with call := ⟨0, some (dev.start buf.index), some buf.index, some shown⟩ }

def readFrame (dev : CaptureDevice) (s : CaptureState) (r : FrameResults) : CaptureState :=
  match dev.ioMethod with
  | .none => s.returns 0
  | .read =>
      match r.read with
      | .error _ => s.returns 0
      | .ok _ =>
          { s with
            captureStarted := true
            call := ⟨1, some (dev.start 0), none, some (dev.start 0)⟩ }
  | .mmap =>
      match r.dqbuf with
      | .error _ => s.returns 0
      | .ok buf =>
          let s := s.handOut buf.index
          let (queued, valid) := validateDequeuedBuffer dev s.queued buf
          let s := { s with queued := queued }
          if valid then showAndQueue dev s r buf buf.index (dev.start buf.index)
          else { s with call := ⟨0, some (dev.start buf.index), some buf.index, none⟩ }
  | .userptr =>
      match r.dqbuf with
      | .error _ => s.returns 0
      | .ok buf =>
          let s := s.handOut buf.index
          let (queued, valid) := validateDequeuedBuffer dev s.queued buf
          let s := { s with queued := queued }
          if valid then showAndQueue dev s r buf (findBuffer dev buf.userptr) buf.userptr
          else { s with call := ⟨0, some (dev.start buf.index), some buf.index, none⟩ }

/-- `none` if an assertion fails. -/
def readFrameToFile (dev : CaptureDevice) (s : CaptureState) (r : FrameResults) :
    Option CaptureState :=
  match dev.ioMethod with
  | .none => some (s.returns 0)
  | .read =>
      match r.read with
      | .error _ => some (s.returns 0)
      | .ok _ =>
          some { s with call := ⟨1, some (dev.start 0), none, some (dev.start 0)⟩ }
  | .mmap =>
      match r.dqbuf with
      | .error _ => some (s.returns 0)
      | .ok buf =>
          if buf.index < dev.nBuffers then
            let s := s.handOut buf.index
            let s := { s with queued := Function.update s.queued buf.index false }
            some (showAndQueue dev s r buf buf.index (dev.start 0))
          else none
  | .userptr =>
      match r.dqbuf with
      | .error _ => some (s.returns 0)
      | .ok buf =>
          let i := findBuffer dev buf.userptr
          if i < dev.nBuffers then
            let s := s.handOut buf.index
            let s := { s with queued := Function.update s.queued i false }
            some (showAndQueue dev s r buf i (dev.start 0))
          else none

/-! ## Starting and stopping -/

/-- The buffers from `i` on are queued, up to one that is refused. -/
def queueFrom (qbuf : Nat → Bool) (i : Nat) (s : CaptureState) : Nat → CaptureState × Bool
  | 0 => (s, true)
  | k + 1 => if qbuf i then queueFrom qbuf (i + 1) (s.queue i i) k else (s, false)

def startCapturing (dev : CaptureDevice) (s : CaptureState) (qbuf : Nat → Bool)
    (streamon : Bool) : CaptureState :=
  match dev.ioMethod with
  | .none | .read => { s.returns 1 with captureStarted := true }
  | .mmap | .userptr =>
      let (s, all) := queueFrom qbuf 0 s dev.nBuffers
      if all && streamon then { s.returns 1 with captureStarted := true } else s.returns 0

/-- Turning the stream off takes the buffers from the driver. -/
def stopCapturing (dev : CaptureDevice) (s : CaptureState) (streamoff : Bool) : CaptureState :=
  match dev.ioMethod with
  | .none | .read => s.returns 1
  | .mmap | .userptr =>
      if streamoff then
        { s.returns 1 with
          owned := fun _ => false
          queued := fun i => if i < dev.nBuffers then false else s.queued i }
      else s.returns 0

/-! ## Runs -/

inductive CaptureEvent where
  | start (qbuf : Nat → Bool) (streamon : Bool)
  | readFrame (r : FrameResults)
  | readFrameToFile (r : FrameResults)
  | stop (streamoff : Bool)

/-- The device streams through queued buffers. -/
def CaptureDevice.streams (dev : CaptureDevice) : Bool :=
  dev.ioMethod = .mmap || dev.ioMethod = .userptr

/-- The driver hands out one of the buffers it has, as it was queued. -/
def HandsOut (dev : CaptureDevice) (s : CaptureState) (buf : V4l2Buffer) : Prop :=
  buf.index < dev.nBuffers ∧ s.owned buf.index = true ∧
    (dev.ioMethod = .userptr → buf.userptr = dev.start buf.index)

instance (dev : CaptureDevice) (s : CaptureState) (buf : V4l2Buffer) :
    Decidable (HandsOut dev s buf) := by
  unfold HandsOut
  infer_instance

/-- The driver gives out only what it has. -/
def FrameResults.isPossible (dev : CaptureDevice) (s : CaptureState) (r : FrameResults) : Bool :=
  match r.dqbuf with
  | .error _ => true
  | .ok buf => !dev.streams || HandsOut dev s buf

def captureStep (dev : CaptureDevice) (s : CaptureState) : CaptureEvent → Option CaptureState
  | .start qbuf streamon => some (startCapturing dev s qbuf streamon)
  | .readFrame r => if r.isPossible dev s then some (readFrame dev s r) else none
  | .readFrameToFile r => if r.isPossible dev s then readFrameToFile dev s r else none
  | .stop streamoff => some (stopCapturing dev s streamoff)

def captureSystem (dev : CaptureDevice) : System CaptureState CaptureEvent where
  step := captureStep dev

def captureStart : CaptureState where
  queued _ := false
  owned _ := false
  captureStarted := false
  call := ⟨0, none, none, none⟩

/-- The flags say which buffers the driver has, the picture that was shown is the one that
came in, and the buffer that it came in has been queued again. -/
structure OwnsBuffers (dev : CaptureDevice) (s : CaptureState) : Prop where
  queued : ∀ i < dev.nBuffers, (s.queued i = true ↔ s.owned i = true)
  shown : ∀ p, s.call.shown = some p → s.call.received = some p
  requeued : ∀ i, s.call.dequeued = some i → s.owned i = true

/-- The buffer that is handed out passes the checks, if it is read with `read_frame`, or is
the first one, if its picture is saved; and the driver takes it back. -/
def KeepsBuffers (dev : CaptureDevice) : CaptureEvent → Prop
  | .start _ _ | .stop _ => True
  | .readFrame r => ∀ buf, dev.streams = true → r.dqbuf = .ok buf →
      lengthsValid dev buf buf.index = true ∧ r.qbuf = true
  | .readFrameToFile r => ∀ buf, dev.streams = true → r.dqbuf = .ok buf →
      buf.index = 0 ∧ r.qbuf = true

/-- The flags of the buffers are those of the driver. -/
def FlagsAgree (dev : CaptureDevice) (s : CaptureState) : Prop :=
  ∀ i < dev.nBuffers, s.queued i = s.owned i

section

variable {dev : CaptureDevice} {s s' : CaptureState}

theorem findBuffer_start (dev : CaptureDevice) {i : Nat} (hi : i < dev.nBuffers) :
    findBuffer dev (dev.start i) = i := by
  unfold findBuffer
  rw [List.findIdx_eq (by rw [List.length_range]; exact hi)]
  refine ⟨by simp, fun j hj => ?_⟩
  simp only [List.getElem_range, decide_eq_false_iff_not]
  intro heq
  have := dev.start_injective i hi j (by omega) heq
  omega

theorem FlagsAgree.queue (h : FlagsAgree dev s) (i : Nat) : FlagsAgree dev (s.queue i i) := by
  intro j hj
  show Function.update s.queued i true j = Function.update s.owned i true j
  by_cases hji : j = i
  · rw [hji, Function.update_self, Function.update_self]
  · rw [Function.update_of_ne hji, Function.update_of_ne hji]
    exact h j hj

/-- A buffer that is handed out, with its flag cleared. -/
theorem FlagsAgree.handOut (h : FlagsAgree dev s) (i : Nat) :
    FlagsAgree dev { s.handOut i with queued := Function.update s.queued i false } := by
  intro j hj
  show Function.update s.queued i false j = Function.update s.owned i false j
  by_cases hji : j = i
  · rw [hji, Function.update_self, Function.update_self]
  · rw [Function.update_of_ne hji, Function.update_of_ne hji]
    exact h j hj

theorem owns_iff (hagree : FlagsAgree dev s) : OwnsBuffers dev s ↔
    (∀ p, s.call.shown = some p → s.call.received = some p) ∧
      ∀ i, s.call.dequeued = some i → s.owned i = true := by
  constructor
  · exact fun h => ⟨h.shown, h.requeued⟩
  · rintro ⟨hshown, hrequeued⟩
    refine ⟨fun i hi => ?_, hshown, hrequeued⟩
    rw [hagree i hi]

/-! ## Calls -/

/-- The state with a buffer that has been handed out. -/
def CaptureState.taken (s : CaptureState) (i : Nat) : CaptureState :=
  { s.handOut i with queued := Function.update s.queued i false }

theorem showAndQueue_agree {r : FrameResults} {buf : V4l2Buffer} (hagree : FlagsAgree dev s)
    (shown : Nat) :
    FlagsAgree dev (showAndQueue dev (s.taken buf.index) r buf buf.index shown) := by
  have htaken : FlagsAgree dev (s.taken buf.index) := hagree.handOut buf.index
  unfold showAndQueue
  by_cases hqbuf : r.qbuf = true
  · rw [if_pos hqbuf]
    exact htaken.queue buf.index
  · rw [if_neg hqbuf]
    exact htaken

/-- A buffer is shown and queued again if it is the one that came in and the driver takes
it. -/
theorem showAndQueue_owns {r : FrameResults} {buf : V4l2Buffer} (hagree : FlagsAgree dev s)
    (shown : Nat) :
    OwnsBuffers dev (showAndQueue dev (s.taken buf.index) r buf buf.index shown) ↔
      shown = dev.start buf.index ∧ r.qbuf = true := by
  rw [owns_iff (showAndQueue_agree hagree shown)]
  unfold showAndQueue
  by_cases hqbuf : r.qbuf = true
  · rw [if_pos hqbuf]
    constructor
    · rintro ⟨hshown, _⟩
      exact ⟨(Option.some.inj (hshown shown rfl)).symm, hqbuf⟩
    · rintro ⟨rfl, _⟩
      refine ⟨fun p h => h, fun i h => ?_⟩
      cases h
      exact Function.update_self _ _ _
  · rw [if_neg hqbuf]
    constructor
    · rintro ⟨_, hrequeued⟩
      have howned : Function.update s.owned buf.index false buf.index = true :=
        hrequeued buf.index rfl
      rw [Function.update_self] at howned
      cases howned
    · exact fun h => absurd h.2 hqbuf

/-- What `validate_dequeued_buffer` does with a buffer of the driver. -/
theorem validateDequeuedBuffer_eq {buf : V4l2Buffer} (hstreams : dev.streams = true)
    (hagree : FlagsAgree dev s) (hand : HandsOut dev s buf) :
    validateDequeuedBuffer dev s.queued buf =
      (Function.update s.queued buf.index false, lengthsValid dev buf buf.index) := by
  obtain ⟨hindex, howned, huserptr⟩ := hand
  have hqueued : s.queued buf.index = true := by rw [hagree buf.index hindex, howned]
  unfold CaptureDevice.streams at hstreams
  unfold validateDequeuedBuffer
  cases hmethod : dev.ioMethod with
  | none => simp [hmethod] at hstreams
  | read => simp [hmethod] at hstreams
  | mmap =>
      dsimp only
      rw [if_neg (Nat.not_le.mpr hindex), if_pos hqueued]
  | userptr =>
      dsimp only
      rw [huserptr hmethod, findBuffer_start dev hindex, if_neg (Nat.not_le.mpr hindex),
        if_pos hqueued]

/-- **`read_frame`** with a buffer of the driver. -/
theorem readFrame_ok {r : FrameResults} {buf : V4l2Buffer} (hstreams : dev.streams = true)
    (hagree : FlagsAgree dev s) (hand : HandsOut dev s buf) (hdqbuf : r.dqbuf = .ok buf) :
    readFrame dev s r =
      if lengthsValid dev buf buf.index then
        showAndQueue dev (s.taken buf.index) r buf buf.index (dev.start buf.index)
      else
        { s.taken buf.index with
          call := ⟨0, some (dev.start buf.index), some buf.index, none⟩ } := by
  have hvalidate := validateDequeuedBuffer_eq hstreams hagree hand
  unfold CaptureDevice.streams at hstreams
  unfold readFrame
  cases hmethod : dev.ioMethod with
  | none => simp [hmethod] at hstreams
  | read => simp [hmethod] at hstreams
  | mmap =>
      dsimp only
      rw [hdqbuf]
      dsimp only
      rw [show (s.handOut buf.index).queued = s.queued from rfl, hvalidate]
      rfl
  | userptr =>
      dsimp only
      rw [hdqbuf]
      dsimp only
      rw [show (s.handOut buf.index).queued = s.queued from rfl, hvalidate,
        hand.2.2 hmethod, findBuffer_start dev hand.1]
      rfl

/-- **`read_frame_to_file`** with a buffer of the driver. -/
theorem readFrameToFile_ok {r : FrameResults} {buf : V4l2Buffer} (hstreams : dev.streams = true)
    (hand : HandsOut dev s buf) (hdqbuf : r.dqbuf = .ok buf) :
    readFrameToFile dev s r =
      some (showAndQueue dev (s.taken buf.index) r buf buf.index (dev.start 0)) := by
  unfold CaptureDevice.streams at hstreams
  unfold readFrameToFile
  cases hmethod : dev.ioMethod with
  | none => simp [hmethod] at hstreams
  | read => simp [hmethod] at hstreams
  | mmap =>
      dsimp only
      rw [hdqbuf]
      dsimp only
      rw [if_pos hand.1]
      rfl
  | userptr =>
      dsimp only
      rw [hdqbuf]
      dsimp only
      rw [hand.2.2 hmethod, findBuffer_start dev hand.1, if_pos hand.1]
      rfl

/-- A call in which no buffer is dequeued. -/
structure IsPlain (s s' : CaptureState) : Prop where
  queued : s'.queued = s.queued
  owned : s'.owned = s.owned
  dequeued : s'.call.dequeued = none
  shown : ∀ p, s'.call.shown = some p → s'.call.received = some p

theorem isPlain_returns (s : CaptureState) (ret : Int) : IsPlain s (s.returns ret) :=
  ⟨rfl, rfl, rfl, fun _ h => (by cases h)⟩

theorem IsPlain.agree (h : IsPlain s s') (hagree : FlagsAgree dev s) : FlagsAgree dev s' := by
  unfold FlagsAgree
  rw [h.queued, h.owned]
  exact hagree

theorem IsPlain.owns (h : IsPlain s s') (hagree : FlagsAgree dev s) : OwnsBuffers dev s' := by
  refine (owns_iff (h.agree hagree)).mpr ⟨h.shown, fun i hi => ?_⟩
  rw [h.dequeued] at hi
  cases hi

theorem readFrame_plain {r : FrameResults}
    (h : dev.streams = false ∨ ∃ errno, r.dqbuf = .error errno) : IsPlain s (readFrame dev s r) := by
  unfold CaptureDevice.streams at h
  unfold readFrame
  cases hmethod : dev.ioMethod with
  | none => exact isPlain_returns s 0
  | read =>
      cases hread : r.read with
      | error errno => exact isPlain_returns s 0
      | ok _ => exact ⟨rfl, rfl, rfl, fun _ hp => hp⟩
  | mmap | userptr =>
      obtain ⟨errno, hdqbuf⟩ := h.resolve_left (by simp [hmethod])
      rw [hdqbuf]
      exact isPlain_returns s 0

theorem readFrameToFile_plain {r : FrameResults}
    (h : dev.streams = false ∨ ∃ errno, r.dqbuf = .error errno) :
    ∃ s', readFrameToFile dev s r = some s' ∧ IsPlain s s' := by
  unfold CaptureDevice.streams at h
  unfold readFrameToFile
  cases hmethod : dev.ioMethod with
  | none => exact ⟨_, rfl, isPlain_returns s 0⟩
  | read =>
      cases hread : r.read with
      | error errno => exact ⟨_, rfl, isPlain_returns s 0⟩
      | ok _ => exact ⟨_, rfl, rfl, rfl, rfl, fun _ hp => hp⟩
  | mmap | userptr =>
      obtain ⟨errno, hdqbuf⟩ := h.resolve_left (by simp [hmethod])
      rw [hdqbuf]
      exact ⟨_, rfl, isPlain_returns s 0⟩

theorem queueFrom_agree (qbuf : Nat → Bool) (k : Nat) : ∀ (i : Nat) {s : CaptureState},
    FlagsAgree dev s → FlagsAgree dev (queueFrom qbuf i s k).1 := by
  induction k with
  | zero => exact fun _ _ h => h
  | succ k ih =>
      intro i s h
      unfold queueFrom
      by_cases hqbuf : qbuf i = true
      · rw [if_pos hqbuf]
        exact ih (i + 1) (h.queue i)
      · rw [if_neg hqbuf]
        exact h

theorem startCapturing_plain (dev : CaptureDevice) (s : CaptureState) (qbuf : Nat → Bool)
    (streamon : Bool) : IsPlain s (startCapturing dev s qbuf streamon) ∨
      IsPlain (queueFrom qbuf 0 s dev.nBuffers).1 (startCapturing dev s qbuf streamon) := by
  unfold startCapturing
  cases hmethod : dev.ioMethod with
  | none | read => exact .inl ⟨rfl, rfl, rfl, fun _ h => (by cases h)⟩
  | mmap | userptr =>
      refine .inr ?_
      dsimp only
      split
      · exact ⟨rfl, rfl, rfl, fun _ h => (by cases h)⟩
      · exact isPlain_returns _ 0

/-- The flags are cleared as the driver gives its buffers back. -/
theorem stopCapturing_owns (hagree : FlagsAgree dev s) (streamoff : Bool) :
    FlagsAgree dev (stopCapturing dev s streamoff) ∧
      OwnsBuffers dev (stopCapturing dev s streamoff) := by
  unfold stopCapturing
  cases hmethod : dev.ioMethod with
  | none | read =>
      have hplain := isPlain_returns s 1
      exact ⟨hplain.agree hagree, hplain.owns hagree⟩
  | mmap | userptr =>
      by_cases hoff : streamoff = true
      · dsimp only
        rw [if_pos hoff]
        have hcleared : FlagsAgree dev { s.returns 1 with
            owned := fun _ => false
            queued := fun i => if i < dev.nBuffers then false else s.queued i } :=
          fun i hi => if_pos hi
        exact ⟨hcleared, (owns_iff hcleared).mpr
          ⟨fun _ h => (by cases h), fun _ h => (by cases h)⟩⟩
      · dsimp only
        rw [if_neg hoff]
        have hplain := isPlain_returns s 0
        exact ⟨hplain.agree hagree, hplain.owns hagree⟩

/-- A possible call of a reader dequeues no buffer, or one that the driver has. -/
theorem isPossible_cases {r : FrameResults} (h : r.isPossible dev s = true) :
    (dev.streams = false ∨ ∃ errno, r.dqbuf = .error errno) ∨
      ∃ buf, dev.streams = true ∧ r.dqbuf = .ok buf ∧ HandsOut dev s buf := by
  unfold FrameResults.isPossible at h
  cases hdqbuf : r.dqbuf with
  | error errno => exact .inl (.inr ⟨errno, rfl⟩)
  | ok buf =>
      rw [hdqbuf] at h
      cases hstreams : dev.streams with
      | false => exact .inl (.inl rfl)
      | true =>
          rw [hstreams] at h
          exact .inr ⟨buf, rfl, rfl, of_decide_eq_true h⟩

/-- **A step.**  The flags agree with the driver after any call; the rest holds exactly if
the buffer that was handed out is kept track of. -/
theorem captureStep_owns {e : CaptureEvent} (hagree : FlagsAgree dev s)
    (hstep : (captureSystem dev).step s e = some s') :
    FlagsAgree dev s' ∧ (OwnsBuffers dev s' ↔ KeepsBuffers dev e) := by
  cases e with
  | start qbuf streamon =>
      cases hstep
      obtain hplain | hplain := startCapturing_plain dev s qbuf streamon
      · exact ⟨hplain.agree hagree, iff_of_true (hplain.owns hagree) trivial⟩
      · have hqueued := queueFrom_agree qbuf dev.nBuffers 0 hagree
        exact ⟨hplain.agree hqueued, iff_of_true (hplain.owns hqueued) trivial⟩
  | stop streamoff =>
      cases hstep
      obtain ⟨hagree', howns⟩ := stopCapturing_owns hagree streamoff
      exact ⟨hagree', iff_of_true howns trivial⟩
  | readFrame r =>
      replace hstep : (if r.isPossible dev s then some (readFrame dev s r) else none) = some s' :=
        hstep
      obtain ⟨hpossible, hstep⟩ := Option.ite_none_right_eq_some.mp hstep
      cases hstep
      obtain hnone | ⟨buf, hstreams, hdqbuf, hand⟩ := isPossible_cases hpossible
      · have hplain := readFrame_plain (s := s) hnone
        refine ⟨hplain.agree hagree, iff_of_true (hplain.owns hagree) fun buf hstreams hdqbuf => ?_⟩
        obtain hno | ⟨errno, herror⟩ := hnone
        · rw [hno] at hstreams
          cases hstreams
        · rw [herror] at hdqbuf
          cases hdqbuf
      · rw [readFrame_ok hstreams hagree hand hdqbuf]
        have hkeeps : KeepsBuffers dev (.readFrame r) ↔
            lengthsValid dev buf buf.index = true ∧ r.qbuf = true := by
          constructor
          · exact fun h => h buf hstreams hdqbuf
          · intro h buf' _ hdqbuf'
            rw [hdqbuf] at hdqbuf'
            cases hdqbuf'
            exact h
        rw [hkeeps]
        by_cases hvalid : lengthsValid dev buf buf.index = true
        · rw [if_pos hvalid]
          refine ⟨showAndQueue_agree hagree _, ?_⟩
          rw [showAndQueue_owns hagree]
          exact and_congr_left' (iff_of_true rfl hvalid)
        · rw [if_neg hvalid]
          have htaken : FlagsAgree dev { s.taken buf.index with
              call := ⟨0, some (dev.start buf.index), some buf.index, none⟩ } :=
            hagree.handOut buf.index
          refine ⟨htaken, iff_of_false (fun howns => ?_) fun h => hvalid h.1⟩
          have howned : Function.update s.owned buf.index false buf.index = true :=
            howns.requeued buf.index rfl
          rw [Function.update_self] at howned
          cases howned
  | readFrameToFile r =>
      replace hstep : (if r.isPossible dev s then readFrameToFile dev s r else none) = some s' :=
        hstep
      by_cases hpossible : r.isPossible dev s = true
      · rw [if_pos hpossible] at hstep
        obtain hnone | ⟨buf, hstreams, hdqbuf, hand⟩ := isPossible_cases hpossible
        · obtain ⟨s₁, hread, hplain⟩ := readFrameToFile_plain (s := s) hnone
          rw [hread] at hstep
          cases hstep
          refine ⟨hplain.agree hagree, iff_of_true (hplain.owns hagree) fun buf hstreams hdqbuf => ?_⟩
          obtain hno | ⟨errno, herror⟩ := hnone
          · rw [hno] at hstreams
            cases hstreams
          · rw [herror] at hdqbuf
            cases hdqbuf
        · rw [readFrameToFile_ok hstreams hand hdqbuf] at hstep
          cases hstep
          refine ⟨showAndQueue_agree hagree _, ?_⟩
          rw [showAndQueue_owns hagree]
          constructor
          · rintro ⟨hstart, hqbuf⟩ buf' _ hdqbuf'
            rw [hdqbuf] at hdqbuf'
            cases hdqbuf'
            exact ⟨(dev.start_injective 0 (by have := hand.1; omega) buf.index hand.1 hstart).symm,
              hqbuf⟩
          · intro h
            obtain ⟨hindex, hqbuf⟩ := h buf hstreams hdqbuf
            exact ⟨by rw [hindex], hqbuf⟩
      · rw [if_neg hpossible] at hstep
        cases hstep

end

theorem flagsAgree_start (dev : CaptureDevice) : FlagsAgree dev captureStart :=
  fun _ _ => rfl

/-- **The flags** say in every state which buffers the driver has. -/
theorem flags_agree (dev : CaptureDevice) {es : List CaptureEvent} {s : CaptureState}
    (hrun : (captureSystem dev).exec captureStart es = some s) : FlagsAgree dev s := by
  let sys := captureSystem dev
  have hmeets : sys.Meets (fun _ _ => True) captureStart es :=
    sys.meets_of_forall es fun _ _ => trivial
  exact sys.exec_invariant (FlagsAgree dev) (fun _ _ _ h _ hstep => (captureStep_owns h hstep).1)
    es (flagsAgree_start dev) hmeets hrun

/-- **Frame buffers**: in every state of a run the flags, the pictures shown and the buffers
that were handed out are in order, exactly if all its calls keep track of the buffers. -/
theorem ownsBuffers_iff (dev : CaptureDevice) (es : List CaptureEvent) :
    (captureSystem dev).Meets
      (fun s e => ∀ s', (captureSystem dev).step s e = some s' → OwnsBuffers dev s')
      captureStart es ↔
    (captureSystem dev).Meets (fun _ e => KeepsBuffers dev e) captureStart es := by
  refine (captureSystem dev).meets_congr (FlagsAgree dev) (fun s e s' hagree hstep => ?_) es
    (flagsAgree_start dev)
  obtain ⟨hagree', howns⟩ := captureStep_owns hagree hstep
  refine ⟨fun _ => hagree', ?_⟩
  rw [← howns]
  constructor
  · exact fun h => h s' hstep
  · intro h s₁ hstep₁
    rw [hstep] at hstep₁
    cases hstep₁
    exact h

/-- Two buffers of 4 bytes, which are mapped. -/
def twoBuffers : CaptureDevice where
  ioMethod := .mmap
  nBuffers := 2
  start i := 4096 * i
  length _ := 4
  sizeimage := 4
  start_injective i _ j _ h := by omega

theorem flags_started : ∃ s, (captureSystem twoBuffers).exec captureStart
    [.start (fun _ => true) true] = some s ∧ FlagsAgree twoBuffers s :=
  (Option.isSome_iff_exists.mp rfl).imp fun _ hrun => ⟨hrun, flags_agree _ hrun⟩

/-- A picture that comes in the second buffer. -/
theorem secondBuffer_shows_first :
    ¬ ∀ dev es s e s', (captureSystem dev).exec captureStart es = some s →
      (captureSystem dev).step s e = some s' → OwnsBuffers dev s' := by
  intro h
  have howns := h twoBuffers [.start (fun _ => true) true] _
    (.readFrameToFile ⟨.ok (), .ok ⟨1, 0, 4, 4⟩, true⟩) _ rfl rfl
  have hshown := howns.shown 0 rfl
  exact absurd hshown (by decide)

end Blts.V4l2
