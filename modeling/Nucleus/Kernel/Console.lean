import Nucleus.Kernel.State

/-!
Where text leaves the kernel: into the sink if there is one and it is not busy, to the serial device
otherwise.
-/

namespace Nucleus.Kernel

def withReturns (s : String) : String :=
  String.ofList (s.toList.flatMap fun c => if c = '\n' then ['\r', '\n'] else [c])

def writeSerial (s : String) : KernelM Unit := output (.serial (withReturns s))

/-- Cuts a text behind each of its line feeds. -/
def cutLines : List Char → List (List Char)
  | [] => []
  | c :: cs =>
    if c = '\n' then [c] :: cutLines cs
    else
      match cutLines cs with
      | [] => [[c]]
      | l :: ls => (c :: l) :: ls

def Occurs (needle : List Char) : List Char → Prop
  | [] => needle = []
  | c :: cs => needle <+: c :: cs ∨ Occurs needle cs

instance (needle : List Char) : (text : List Char) → Decidable (Occurs needle text)
  | [] => inferInstanceAs (Decidable (needle = []))
  | c :: cs =>
    have : Decidable (Occurs needle cs) := instDecidableOccurs needle cs
    inferInstanceAs (Decidable (needle <+: c :: cs ∨ Occurs needle cs))

/-- Writes a text with at most one line feed, at its end, to the sink. If it completes a line that the sink
waits for, the sink raises its trap, and never again. -/
def writePiece (sink : Sink) (piece : List Char) : KernelM Sink := do
  output (.sink (String.ofList piece))
  let line := sink.line.toList ++ piece
  if piece.getLast? ≠ some '\n' then return { sink with line := String.ofList line }
  match sink.trigger with
  | none => return { sink with line := "" }
  | some (needle, request) =>
    if ¬ Occurs needle.toList line then return { sink with line := "" }
    let outcome ← (← read) request
    output (.injected outcome)
    return ⟨"", none⟩

def writePieces (sink : Sink) : List (List Char) → KernelM Sink
  | [] => return sink
  | p :: ps => do writePieces (← writePiece sink p) ps

/-- Writes text to the sink if there is one and it is not busy, to the serial device otherwise. -/
def write (s : String) : KernelM Unit := do
  let m ← get
  match m.sink with
  | none => writeSerial s
  | some sink =>
    if m.sinkBusy then writeSerial s
    else
      modify fun m => { m with sinkBusy := true }
      let sink' ← writePieces sink (cutLines s.toList)
      modify fun m => { m with sink := some sink', sinkBusy := false }

/-- Writes a record that passes the filter. -/
def log (r : Log.Record) : KernelM Unit := do
  if (← get).filter.Admits r.level then write r.line

def logAll : List Log.Record → KernelM Unit
  | [] => return
  | r :: rs => do
    log r
    logAll rs

end Nucleus.Kernel
