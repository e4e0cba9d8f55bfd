import Blts.Fault
import Blts.Lib.LinkedList
import Blts.Lib.Run

/-!
# The minimal compositor

The compositor keeps a list of windows that X events put entries in, change and
take out, and paints the visible ones from an array of 100 pointers that it fills
from its end.  What X and the graphics library answer (attributes, pixmaps,
sizes) comes with the events.

A walk over the list that follows a pointer to a freed entry is a fault, and so
is a pointer stored outside of the array.
-/

namespace Blts.Gles

open Blts.Lib

/-! ## Windows -/

/-- A `Window`; zero is `None`. -/
abbrev WindowId := Nat

/-- A `Pixmap`; zero is `None`. -/
abbrev Pixmap := Nat

/-- `IsUnmapped`, `IsUnviewable` and `IsViewable`. -/
inductive MapState where
  | isUnmapped
  | isUnviewable
  | isViewable
  deriving DecidableEq

/-- The members of `XWindowAttributes` that are used; `inputOnly` is the
`class`. -/
structure XWindowAttributes where
  x : Int
  y : Int
  width : Int
  height : Int
  borderWidth : Int
  inputOnly : Bool
  mapState : MapState
  overrideRedirect : Bool
  deriving DecidableEq

/-- `glesh_texture`, without the number of the texture. -/
structure GleshTexture where
  width : Nat
  height : Nat
  eglpixmap : Bool
  deriving DecidableEq

/-- `x_window`, without the pointer to the next one; an object that is there has
its texture. -/
structure XWindow where
  id : WindowId
  pixmap : Pixmap
  a : XWindowAttributes
  damaged : Bool
  damage : Nat
  obj : Option GleshTexture
  deriving DecidableEq

/-- `clear_window_texture`. -/
def clearWindowTexture (win : XWindow) : XWindow :=
  { win with
    obj := win.obj.map fun tex => { tex with width := 0, height := 0 }
    pixmap := 0 }

/-- What does not change while the loop runs. -/
structure Screen where
  width : Int
  height : Int
  x11Window : WindowId
  xoverlay : WindowId
  root : WindowId
  customTfp : Bool
  deriving DecidableEq

/-- `list` and `dpy_damaged`. -/
structure Compositor where
  list : LinkedList XWindow
  dpyDamaged : Bool
  deriving DecidableEq

/-- Before `main` has looked at the windows. -/
def Compositor.start : Compositor where
  list := .empty
  dpyDamaged := false

/-! ## The list of windows -/

/-- A pointer that leads nowhere is a fault. -/
def follow {β : Type} : Option β → Except Fault β
  | some b => .ok b
  | none => .error .nullDeref

/-- `find_win`, with the place of the pointer to the window. -/
def findWin (list : LinkedList XWindow) (id : WindowId) : Except Fault (Link × Option Nat) :=
  follow (list.find fun w => w.id == id)

/-- Change the window that `find_win` finds, if there is one. -/
def modifyWin (list : LinkedList XWindow) (id : WindowId) (f : XWindow → XWindow) :
    Except Fault (Option (LinkedList XWindow)) := do
  match (← findWin list id).2 with
  | none => return none
  | some w => do
      let list ← follow (list.modify w f)
      return some list

/-- `map_win`. -/
def mapWin (s : Compositor) (id : WindowId) : Except Fault Compositor := do
  let some list ← modifyWin s.list id fun w =>
      { w with a := { w.a with mapState := .isViewable }, damaged := true }
    | return s
  return { list := list, dpyDamaged := true }

/-- `unmap_win`. -/
def unmapWin (s : Compositor) (id : WindowId) : Except Fault Compositor := do
  let some list ← modifyWin s.list id fun w =>
      clearWindowTexture
        { w with a := { w.a with mapState := .isUnmapped }, damaged := false }
    | return s
  return { s with list := list }

/-- What `add_win` is told: whether there is memory, the attributes of the window
and its damage. -/
structure AddReply where
  memory : Bool
  attributes : Option XWindowAttributes
  damage : Nat
  deriving DecidableEq

/-- Where `add_win` puts a window: in front of `prev`, or of the list. -/
def placeOf (list : LinkedList XWindow) (prev : WindowId) : Except Fault Link :=
  if prev ≠ 0 then (findWin list prev).map Prod.fst else .ok .head

/-- The entry that `add_win` makes. -/
def newWindow (id : WindowId) (a : XWindowAttributes) (damage : Nat) : XWindow where
  id := id
  pixmap := 0
  a := a
  damaged := true
  damage := if a.inputOnly then 0 else damage
  obj := none

/-- `add_win`; an entry without attributes is freed before it is in the list. -/
def addWin (screen : Screen) (s : Compositor) (id prev : WindowId) (reply : AddReply) :
    Except Fault Compositor :=
  if id = screen.x11Window ∨ id = screen.xoverlay then .ok s
  else if reply.memory = false then .ok s
  else do
    let link ← placeOf s.list prev
    match reply.attributes with
    | none => return s
    | some a => do
        let list ← follow (s.list.insert link (newWindow id a reply.damage))
        let s := { list := list, dpyDamaged := true }
        if a.mapState = .isViewable then mapWin s id else return s

/-- `XConfigureEvent`. -/
structure XConfigureEvent where
  window : WindowId
  x : Int
  y : Int
  width : Int
  height : Int
  borderWidth : Int
  overrideRedirect : Bool
  deriving DecidableEq

/-- What `configure_win` does to the window. -/
def configure (ce : XConfigureEvent) (w : XWindow) : XWindow :=
  let moved := { w with a := { w.a with x := ce.x, y := ce.y } }
  let w' := if w.a.width ≠ ce.width ∨ w.a.height ≠ ce.height then
      clearWindowTexture moved
    else moved
  { w' with
    a := { w'.a with
      width := ce.width
      height := ce.height
      borderWidth := ce.borderWidth
      overrideRedirect := ce.overrideRedirect } }

/-- `configure_win`. -/
def configureWin (s : Compositor) (ce : XConfigureEvent) : Except Fault Compositor := do
  let some list ← modifyWin s.list ce.window (configure ce)
    | return s
  return { list := list, dpyDamaged := true }

/-- A window that is gone is unmapped. -/
def unmapGone (s : Compositor) (id : WindowId) (gone : Bool) : Except Fault Compositor :=
  if gone then unmapWin s id else .ok s

/-- `destroy_win`. -/
def destroyWin (s : Compositor) (id : WindowId) (gone : Bool) : Except Fault Compositor := do
  let (prev, found) ← findWin s.list id
  match found with
  | none => return s
  | some w => do
      let s ← unmapGone s id gone
      let list ← follow (s.list.remove prev w)
      return { s with list := list }

/-- What the loop does for a damaged window. -/
def damageWin (s : Compositor) (drawable : WindowId) : Except Fault Compositor := do
  let some list ← modifyWin s.list drawable fun w => { w with damaged := true }
    | return s
  return { list := list, dpyDamaged := true }

/-! ## Painting -/

/-- The window is mapped and on the screen. -/
def isVisible (screen : Screen) (w : XWindow) : Bool :=
  !(decide (w.a.mapState ≠ .isViewable) || decide (w.a.x + w.a.width < 1) ||
    decide (w.a.y + w.a.height < 1) || decide (w.a.x ≥ screen.width) ||
    decide (w.a.y ≥ screen.height))

/-- The length of `w_list`. -/
def paintListSize : Nat := 100

/-- The loop of `generate_paint_list`; `t` is the number of pointers that still
fit, one more than the index of the source. -/
def paintListFrom (screen : Screen) (list : LinkedList XWindow) :
    Nat → Option Nat → Nat → List Nat → Except Fault (List Nat)
  | _, none, _, wList => .ok wList
  | 0, some _, _, _ => .error .stackOverflow
  | fuel + 1, some w, t, wList => do
      let n ← follow (list.node w)
      if isVisible screen n.val then
        match t with
        | 0 => .error .outOfBounds
        | t + 1 => paintListFrom screen list fuel n.next t (w :: wList)
      else paintListFrom screen list fuel n.next t wList

/-- `generate_paint_list`: the pointers from index `t` on. -/
def generatePaintList (screen : Screen) (list : LinkedList XWindow) :
    Except Fault (List Nat) :=
  paintListFrom screen list list.cells.length list.head paintListSize []

/-- What painting a window is told: whether its object and its surface can be
made, the pixmaps that it is given first and after damage, and the image. -/
structure PaintReply where
  object : Bool
  surface : Bool
  firstPixmap : Pixmap
  pixmap : Pixmap
  image : Bool
  width : Nat
  height : Nat
  deriving DecidableEq

/-- `generate_window_object`. -/
def generateWindowObject (screen : Screen) (w : XWindow) (reply : PaintReply) : XWindow :=
  if reply.object = false then w
  else { w with
    obj := some { width := 0, height := 0, eglpixmap := !screen.customTfp && reply.surface }
    pixmap := reply.firstPixmap }

/-- `texture_from_pixmap`. -/
def textureFromPixmap (screen : Screen) (reply : PaintReply) (tex : GleshTexture) :
    GleshTexture :=
  if screen.customTfp && !reply.image then tex
  else { tex with width := reply.width, height := reply.height }

/-- What `paint_windows` does for a damaged window. -/
def updateDamaged (screen : Screen) (reply : PaintReply) (w : XWindow) : XWindow :=
  let w := { w with pixmap := reply.pixmap }
  let w := if w.pixmap ≠ 0 then { w with obj := w.obj.map (textureFromPixmap screen reply) }
    else clearWindowTexture w
  { w with damaged := false }

/-- The body of the loop of `paint_windows`, without the drawing. -/
def paintWindow (screen : Screen) (reply : PaintReply) (w : XWindow) : XWindow :=
  let w := if w.obj.isNone then generateWindowObject screen w reply else w
  if w.obj.isSome && w.damaged then updateDamaged screen reply w else w

/-- The loop of `paint_windows`. -/
def paintAll (screen : Screen) (replies : Nat → PaintReply) :
    List Nat → LinkedList XWindow → Except Fault (LinkedList XWindow)
  | [], list => .ok list
  | w :: wList, list => do
      let list ← follow (list.modify w (paintWindow screen (replies w)))
      paintAll screen replies wList list

/-- `paint_windows`. -/
def paintWindows (screen : Screen) (s : Compositor) (replies : Nat → PaintReply) :
    Except Fault Compositor := do
  let wList ← generatePaintList screen s.list
  let list ← paintAll screen replies wList s.list
  return { s with list := list }

/-! ## The loop -/

/-- `XEvent`, as far as the loop looks at it. -/
inductive XEvent where
  | createNotify (window : WindowId)
  | configureNotify (ce : XConfigureEvent)
  | destroyNotify (window : WindowId)
  | mapNotify (window : WindowId)
  | unmapNotify (window : WindowId)
  | reparentNotify (window parent : WindowId)
  | circulateNotify
  | expose
  | propertyNotify
  | damageNotify (drawable : WindowId)
  | other
  deriving DecidableEq

/-- The `switch` of `x11_event_handler_loop`. -/
def handleEvent (screen : Screen) (s : Compositor) (ev : XEvent) (reply : AddReply) :
    Except Fault Compositor :=
  match ev with
  | .createNotify window => addWin screen s window 0 reply
  | .configureNotify ce => configureWin s ce
  | .destroyNotify window => destroyWin s window true
  | .mapNotify window => mapWin s window
  | .unmapNotify window => unmapWin s window
  | .reparentNotify window parent =>
      if parent = screen.root then addWin screen s window 0 reply
      else destroyWin s window false
  | .circulateNotify => .ok s
  | .expose => .ok { s with dpyDamaged := true }
  | .propertyNotify => .ok s
  | .damageNotify drawable => damageWin s drawable
  | .other => .ok s

/-- What happens next: `main` adds a child of the root window, the loop starts
with painting, an event is taken from the queue, or the queue is empty. -/
inductive Input where
  | child (id prev : WindowId) (reply : AddReply)
  | loopStarts (replies : Nat → PaintReply)
  | event (ev : XEvent) (reply : AddReply)
  | queueEmpty (replies : Nat → PaintReply)

/-- One step of the compositor. -/
def Compositor.step (screen : Screen) (s : Compositor) : Input → Except Fault Compositor
  | .child id prev reply => addWin screen s id prev reply
  | .loopStarts replies => paintWindows screen s replies
  | .event ev reply => handleEvent screen s ev reply
  | .queueEmpty replies =>
      if s.dpyDamaged then do
        let s ← paintWindows screen s replies
        return { s with dpyDamaged := false }
      else .ok s

end Blts.Gles
