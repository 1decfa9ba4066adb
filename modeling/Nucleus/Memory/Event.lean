import Nucleus.Address
import Nucleus.Log

/-!
What the memory operations refuse, and what they do besides changing memory: they report events, most of
which become log records, and drop mappings that the processor has cached.
-/

namespace Nucleus.Memory

/-- Why a frame is not taken back. -/
inductive FreeError where
  | null
  | misaligned (address : PhysAddr)
  /-- The frame cannot be reached through the direct mapping. -/
  | unmapped (address : PhysAddr)
  deriving DecidableEq, Repr

def FreeError.message : FreeError → String
  | null => "attempt to free the null frame"
  | misaligned a => "attempt to free misaligned frame " ++ a.pretty
  | unmapped a => "attempt to free unmapped frame " ++ a.pretty

/-- Why an address gets no page table entry. -/
inductive MapError where
  /-- No frame is left for a new page table. -/
  | outOfMemory
  /-- A large page at this level covers the address already. -/
  | hugePage (level : Nat)
  /-- A page table lies outside of the direct mapping. -/
  | unreachable (table : PhysAddr)
  deriving DecidableEq, Repr

def MapError.message : MapError → String
  | outOfMemory => "out of memory for page tables"
  | hugePage l => "address covered by a huge page at level " ++ Text.decimal l
  | unreachable a => "page table " ++ a.pretty ++ " outside of the direct mapping"

/-- Why a range of the heap is not handed out. -/
inductive ReserveError where
  /-- No page was asked for. -/
  | nothing
  /-- The rest of the heap window is too small. -/
  | windowExhausted
  /-- A page table for the range could not be made. -/
  | map (reason : MapError)
  deriving DecidableEq, Repr

def ReserveError.message : ReserveError → String
  | nothing => "zero pages requested"
  | windowExhausted => "kernel heap window exhausted"
  | map e => e.message

/-- Something that a memory operation did besides changing memory. -/
inductive Event where
  | freeListBuilt (frames : Nat)
  | outOfFrames
  | freeRefused (reason : FreeError)
  | tableCreated (table : PhysAddr) (level : Nat)
  | mapping (page : VirtAddr) (frame : PhysAddr)
  | tablesReclaimed (count : Nat) (below : VirtAddr)
  | reserveFailed (count : Nat) (reason : ReserveError)
  | reserved (count : Nat) (start : VirtAddr)
  | backed (page : VirtAddr) (frame : PhysAddr)
  /-- The cached mapping of this address was dropped. -/
  | invalidated (address : VirtAddr)
  deriving DecidableEq, Repr

namespace Event

def record? : Event → Option Log.Record
  | freeListBuilt n => some ⟨.debug, "kmem::physical::alloc",
      "[kmem] free list built with " ++ Text.decimal n ++ " frames"⟩
  | outOfFrames => some ⟨.error, "kmem::physical::alloc", "[kmem] out of memory"⟩
  | freeRefused e => some ⟨.error, "kmem::physical::alloc", "[kmem] " ++ e.message⟩
  | tableCreated t l => some ⟨.trace, "kmem::paging",
      "[VMM] new table at " ++ t.pretty ++ " below level " ++ Text.decimal l⟩
  | mapping v p => some ⟨.trace, "kmem::paging", "[VMM] map(" ++ v.pretty ++ ", " ++ p.pretty ++ ")"⟩
  | tablesReclaimed n v => some ⟨.trace, "kmem::paging",
      "[VMM] reclaimed " ++ Text.decimal n ++ " tables below " ++ v.pretty⟩
  | reserveFailed n e => some ⟨.warn, "kmem::demand",
      "[VMM] reserving " ++ Text.decimal n ++ " pages failed: " ++ e.message⟩
  | reserved n v => some ⟨.trace, "kmem::demand",
      "[VMM] reserved " ++ Text.decimal n ++ " pages at " ++ v.pretty⟩
  | backed v p => some ⟨.trace, "kmem::demand",
      "[VMM] demand page " ++ v.pretty ++ " -> " ++ p.pretty⟩
  | invalidated _ => none

/-- The address whose cached mapping was dropped, if one was. -/
def invalidation? : Event → Option VirtAddr
  | invalidated v => some v
  | _ => none

end Event

end Nucleus.Memory
