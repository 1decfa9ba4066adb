import Nucleus.Memory.Direct
import Nucleus.Memory.Event
import Nucleus.Memory.Ram
import Nucleus.Memory.Regions

/-!
Allocation of single page frames from a list that runs through the free frames themselves: each free frame
holds the address of the next one in its first word. The frame freed last is handed out first. The list is
built on the first use; until then the frames are untouched.
-/

namespace Nucleus.Memory

/-- The free frames, apart from the links in their first words. -/
structure FrameList where
  /-- The window through which frames are reached. -/
  window : Window
  /-- Pages to put on the list on its first use. -/
  pending : List Span
  /-- The frame handed out next; the null address ends the list. -/
  head : PhysAddr
  /-- How many frames can still be handed out. -/
  count : Nat
  built : Bool
  deriving DecidableEq, Repr

def FrameList.mapped (l : FrameList) : PhysRange := l.window.frames

/-- Memory, the frames that are free in it, and the events so far. -/
structure Store where
  ram : Ram
  frames : FrameList
  events : Array Event

/-- An operation on the memory, which may stop with a fault and keeps its effects then. -/
abbrev StoreM := EStateM Fault Store

namespace Store

def emit (e : Event) : StoreM Unit := modify fun s => { s with events := s.events.push e }

/-- The value, or a stop with its fault. -/
def check {α : Type} : Checked α → StoreM α
  | .ok a => return a
  | .error e => throw e

/-- Stops if the byte at `a` is not visible. -/
def reach (a : PhysAddr) : StoreM Unit := do
  let _ ← check ((← get).frames.window.visible a)

end Store

namespace FrameList

/-- The part of `s` that may be handed out: reachable, and neither below the limit nor in the first page. -/
def clamp (first last : Nat) (s : Span) : Span := ⟨max s.first first, min s.last last⟩

/-- The frames of the available regions, less those below `lowLimit` and those that are not reachable as
whole frames. -/
def new (regions : RegionTable) (window : Window) (lowLimit : PhysAddr) : Checked FrameList := do
  let low := max (← lowLimit.pageAbove).page 1
  if regions.available = [] then return ⟨window, [], .null, 0, false⟩
  let first := max low (← window.frames.start.pageAbove).page
  let spans := regions.available.map fun r => clamp first window.frames.stop.page r.span
  let pending := spans.filter fun s => ¬ s.IsEmpty
  return ⟨window, pending, .null, Span.pagesOf pending, false⟩

/-- The addresses of the frames of a span, in ascending order. -/
def framesOf (s : Span) : List PhysAddr :=
  (List.range' s.first s.pages).map fun p => .ofNat (pageSize * p)

def push (frame : PhysAddr) : StoreM Unit := do
  Store.reach frame
  modify fun s => { s with
    ram := s.ram.store frame.toNat s.frames.head.word
    frames := { s.frames with head := frame } }

def pushAll : List PhysAddr → StoreM Unit
  | [] => return
  | f :: fs => do
    push f
    pushAll fs

/-- Builds the list if it was not used before. -/
def build : StoreM Unit := do
  let l := (← get).frames
  if l.built then return
  modify fun s => { s with frames := { s.frames with built := true, pending := [] } }
  pushAll (l.pending.flatMap framesOf)
  Store.emit (.freeListBuilt l.count)

/-- Takes the frame at the head off the list and fills it with zeros; nothing if the list is empty. -/
def alloc : StoreM (Option PhysAddr) := do
  build
  let s ← get
  let frame := s.frames.head
  if frame = .null then
    Store.emit .outOfFrames
    return none
  Store.reach frame
  let next : PhysAddr := ⟨s.ram.load frame.toNat⟩
  modify fun s => { s with
    ram := s.ram.clear frame.toNat 512
    frames := { s.frames with head := next } }
  if s.frames.count = 0 then throw .subOverflow
  modify fun s => { s with frames := { s.frames with count := s.frames.count - 1 } }
  return some frame.pageBase

/-- Why the frame at `a` cannot be taken back, if it cannot. -/
def refusal? (l : FrameList) (a : PhysAddr) : Option FreeError :=
  if a = .null then some .null
  else if ¬ a.PageAligned then some (.misaligned a)
  else if a ∉ l.mapped then some (.unmapped a)
  else none

/-- Takes the frame at `a` back. -/
def free (a : PhysAddr) : StoreM (Except FreeError Unit) := do
  match (← get).frames.refusal? a with
  | some e =>
    Store.emit (.freeRefused e)
    return .error e
  | none =>
    build
    push a
    if 0x10000000000000000 ≤ (← get).frames.count + 1 then throw .addOverflow
    modify fun s => { s with frames := { s.frames with count := s.frames.count + 1 } }
    return .ok ()

end FrameList

end Nucleus.Memory
