import Nucleus.Memory.FrameList
import Nucleus.Paging.Entry
import Nucleus.Paging.Level

/-!
The page table hierarchy: four levels of tables in memory, found from the physical address of the root
table. Missing tables are made on demand out of free frames, and tables that became empty are given back.
-/

namespace Nucleus.Paging

open Memory

/-! ### Slots in memory -/

/-- Where the slot of `v` lies in a table of level `l`. -/
def slotAddress (table : PhysAddr) (l : Nat) (v : VirtAddr) : Nat := table.toNat + 8 * slot l v

/-- The entry for `v` in a table of level `l`, if the table is reachable. -/
def entryIn? (s : Store) (table : PhysAddr) (l : Nat) (v : VirtAddr) : Option Entry :=
  (s.frames.window.visible? table).map fun _ => ⟨s.ram.load (slotAddress table l v)⟩

def usedSlots (r : Ram) (table : PhysAddr) : List (Nat × UInt64) :=
  (List.range entriesPerTable).filterMap fun i =>
    let w := r.load (table.toNat + 8 * i)
    if w = 0 then none else some (i, w)

/-- All slots of the table are unused. -/
def TableEmpty (r : Ram) (table : PhysAddr) : Prop :=
  ∀ i < entriesPerTable, r.load (table.toNat + 8 * i) = 0

instance (r : Ram) (table : PhysAddr) : Decidable (TableEmpty r table) :=
  inferInstanceAs (Decidable (∀ i < entriesPerTable, _))

def setEntry (address : Nat) (e : Entry) : StoreM Unit :=
  modify fun s => { s with ram := s.ram.store address e.raw }

def getEntry (address : Nat) : StoreM Entry := return ⟨(← get).ram.load address⟩

/-- Drops the cached mapping of an address. -/
def invalidate (v : VirtAddr) : StoreM Unit := Store.emit (.invalidated v)

/-! ### Looking up -/

/-- The physical address that `v` is mapped to, from a table of level `l` on. A large page ends the walk at
the two middle levels. -/
def translateFrom (s : Store) (v : VirtAddr) : Nat → PhysAddr → Option PhysAddr
  | l, table =>
    match entryIn? s table l v with
    | none => none
    | some e =>
      if ¬ e.Present then none
      else
        let offset : UInt64 := UInt64.ofNat (Level.span l) - 1
        match l with
        | 0 => some ⟨(e.base.word &&& ~~~offset) + (v.word &&& offset)⟩
        | l' + 1 =>
          if e.Huge ∧ l' + 1 < Level.root then
            some ⟨(e.base.word &&& ~~~offset) + (v.word &&& offset)⟩
          else translateFrom s v l' e.base

def translate (s : Store) (root : PhysAddr) (v : VirtAddr) : Option PhysAddr :=
  translateFrom s v Level.root root

/-- Where the entry of the page of `v` lies, if the tables of level `l` and below exist. -/
def leafFrom (s : Store) (v : VirtAddr) : Nat → PhysAddr → Option Nat
  | 0, table => (s.frames.window.visible? table).map fun _ => slotAddress table 0 v
  | l + 1, table =>
    match entryIn? s table (l + 1) v with
    | none => none
    | some e => if ¬ e.Present ∨ e.Huge then none else leafFrom s v l e.base

/-- Where the entry of the page of `v` lies, if all tables above it exist. -/
def leaf? (s : Store) (root : PhysAddr) (v : VirtAddr) : Option Nat := leafFrom s v Level.root root

/-- The entry of the page of `v`, if all tables above it exist. -/
def entry? (s : Store) (root : PhysAddr) (v : VirtAddr) : Option Entry :=
  (leaf? s root v).map fun a => ⟨s.ram.load a⟩

/-! ### Changing mappings -/

/-- Where the entry of the page of `v` lies, from a table of level `l` on; missing tables are made. -/
def createFrom (v : VirtAddr) : Nat → PhysAddr → StoreM (Except MapError Nat)
  | 0, table => do
    match (← get).frames.window.visible? table with
    | some _ => return .ok (slotAddress table 0 v)
    | none => return .error (.unreachable table)
  | l + 1, table => do
    match entryIn? (← get) table (l + 1) v with
    | none => return .error (.unreachable table)
    | some e =>
      if e.Present then
        if e.Huge then return .error (.hugePage (l + 1))
        else createFrom v l e.base
      else
        match ← FrameList.alloc with
        | none => return .error .outOfMemory
        | some frame =>
          Store.emit (.tableCreated frame (l + 1))
          let new := Entry.make frame (.present ∪ .writable)
          setEntry (slotAddress table (l + 1) v) new
          createFrom v l new.base

/-- Where the entry of the page of `v` lies; missing tables are made. -/
def leafOrCreate (root : PhysAddr) (v : VirtAddr) : StoreM (Except MapError Nat) :=
  createFrom v Level.root root

/-- Maps the page of `v` to the frame of `p`, whatever it was mapped to before. -/
def map (root : PhysAddr) (v : VirtAddr) (p : PhysAddr) (flags : Flags) :
    StoreM (Except MapError Unit) := do
  Store.emit (.mapping v p)
  match ← leafOrCreate root v with
  | .error e => return .error e
  | .ok a =>
    setEntry a (.make p (flags ∪ .present))
    invalidate v
    return .ok ()

/-- Clears the entry of the page of `v` and returns what it was, if it was used. -/
def unmap (root : PhysAddr) (v : VirtAddr) : StoreM (Option Entry) := do
  match leaf? (← get) root v with
  | none => return none
  | some a =>
    let old ← getEntry a
    if old.Unused then return none
    setEntry a .empty
    invalidate v
    return some old

/-! ### Giving tables back -/

/-- A table below the root, and where its parent points to it. -/
structure Link where
  table : PhysAddr
  parentSlot : Nat
  deriving DecidableEq, Repr

/-- The tables on the way to `v` below a table of level `l`, from the top down. -/
def linksFrom (s : Store) (v : VirtAddr) : Nat → PhysAddr → List Link
  | 0, _ => []
  | l + 1, table =>
    match entryIn? s table (l + 1) v with
    | none => []
    | some e =>
      if ¬ e.Present ∨ e.Huge then []
      else ⟨e.base, slotAddress table (l + 1) v⟩ :: linksFrom s v l e.base

/-- Unlinks and frees tables as long as they are empty; `freed` counts those before. -/
def unlinkEmpty : List Link → Nat → StoreM Nat
  | [], freed => return freed
  | k :: ks, freed => do
    let s ← get
    if (s.frames.window.visible? k.table).isSome ∧ TableEmpty s.ram k.table then
      setEntry k.parentSlot .empty
      match ← FrameList.free k.table with
      | .error _ => return freed
      | .ok () => unlinkEmpty ks (freed + 1)
    else return freed

/-- Frees the tables on the way to `v` that hold no entry any more, from the bottom up; the root stays.
The answer is their number. -/
def reclaim (root : PhysAddr) (v : VirtAddr) : StoreM Nat := do
  let links := linksFrom (← get) v Level.root root
  let freed ← unlinkEmpty links.reverse 0
  if 0 < freed then Store.emit (.tablesReclaimed freed v)
  return freed

end Nucleus.Paging
