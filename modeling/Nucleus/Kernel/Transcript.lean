import Nucleus.Kernel.State

/-!
What is seen of the computer from outside, by kind. Each kind keeps the order in which things left.
-/

namespace Nucleus.Kernel.Transcript

def serialText (os : List Output) : String :=
  String.join (os.filterMap fun | .serial s => some s | _ => none)

def sinkText (os : List Output) : String :=
  String.join (os.filterMap fun | .sink s => some s | _ => none)

def portWrites (os : List Output) : List (Device.Port × UInt8) :=
  os.filterMap fun | .port p v => some (p, v) | _ => none

/-- The addresses whose cached mappings were dropped. -/
def invalidations (os : List Output) : List VirtAddr :=
  os.filterMap fun | .invalidation v => some v | _ => none

def handlerCalls (os : List Output) : List HandlerCall :=
  os.filterMap fun | .handled c => some c | _ => none

/-- The outcomes of the traps that the sink raised. -/
def injections (os : List Output) : List NestedOutcome :=
  os.filterMap fun | .injected o => some o | _ => none

end Nucleus.Kernel.Transcript
