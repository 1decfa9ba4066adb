import Nucleus.Boot.Information
import Nucleus.Log
import Nucleus.Memory.Regions
import Nucleus.Text.Quoted

/-!
From boot information to the table of memory regions: all memory maps are entered in the order of the tags,
then the sections of the image and further ranges are carved out. One malformed record spoils the whole.
-/

namespace Nucleus.Boot

open Memory

/-- What the memory core needs to know from the boot loader. -/
structure BootMemory where
  regions : RegionTable
  /-- The smallest range around all sections of the image that occupy memory. -/
  image : Option PhysRange
  sizes : Option MemorySizes
  deriving DecidableEq, Repr

/-- Why boot information gives no memory regions. -/
inductive BootMemoryError where
  | malformed (reason : ParseError)
  | noMemoryMap
  deriving DecidableEq, Repr

def BootMemoryError.message : BootMemoryError → String
  | malformed e => "malformed boot information: " ++ e.message
  | noMemoryMap => "no memory map in boot information"

/-! ### Notices -/

/-- What is reported while boot information is read. -/
inductive BootNotice where
  | region (notice : RegionNotice)
  | malformed (reason : ParseError)
  | nothingNew (base length : UInt64)
  | commandLine (text : String)
  | loaderName (text : String)
  | sizes (sizes : MemorySizes)
  | skipped (type size : Nat)
  | noMemoryMap
  | imageSection (kind : SectionKind) (start : PhysAddr) (size : UInt64)
  | pagesTaken (pages : Nat)
  | image (range : PhysRange)
  | noImage
  deriving DecidableEq, Repr

def BootNotice.record : BootNotice → Log.Record
  | region n => n.record
  | malformed e => boot .error e.message
  | nothingNew b l =>
    boot .debug ("nothing new in " ++ Text.hexMarked b.toNat ++ "+" ++ Text.hexMarked l.toNat)
  | commandLine s => boot .info ("command line: " ++ Text.quoted s)
  | loaderName s => boot .info ("loaded by " ++ Text.quoted s)
  | sizes m => boot .info ("lower memory " ++ Text.decimal m.lower ++ " KiB, upper memory " ++
      Text.decimal m.upper ++ " KiB")
  | skipped t n =>
    boot .debug ("skipping tag type " ++ Text.decimal t ++ " of size " ++ Text.decimal n)
  | noMemoryMap => boot .error "no memory map"
  | imageSection k a n => boot .debug ("kernel " ++ Text.left 9 k.name ++ " " ++ a.pretty ++ " size " ++
      Text.hexMarked n.toNat)
  | pagesTaken n => boot .trace (Text.decimal n ++ " available pages taken by section")
  | image r => boot .info ("kernel image " ++ r.start.pretty ++ " - " ++ r.stop.pretty)
  | noImage => boot .warn "no kernel sections, image is not protected"
where
  boot (level : Log.Level) (text : String) : Log.Record := ⟨level, "kcore::bootmem", "[boot] " ++ text⟩

/-! ### Entering the memory map -/

/-- The kind of region that an entry of the memory map becomes. -/
def MapType.regionKind (t : MapType) : RegionKind :=
  match t.code with
  | 1 => .available
  | 3 => .acpiReclaimable
  | 4 => .nonVolatile
  | 5 => .defective
  | _ => .reserved

def enter (t : RegionTable) (e : MapEntry) : RegionChange (Checked (Except RegionError Bool)) :=
  match e.type.regionKind with
  | .available => t.addAvailable e.base e.length
  | kind => t.addUnavailable e.base e.length kind

/-- A region table that is being built, and the notices so far. -/
structure Progress where
  regions : RegionTable
  notices : List BootNotice

def Progress.note (p : Progress) (n : BootNotice) : Progress := { p with notices := p.notices ++ [n] }

/-- Enters an entry of the memory map. A full table has reported itself; later entries still count. -/
def Progress.enter (p : Progress) (e : MapEntry) : Checked Progress := do
  let c := Boot.enter p.regions e
  let nothing := match ← c.answer with
    | .ok false => [.nothingNew e.base e.length]
    | _ => []
  return ⟨c.table, p.notices ++ c.notices.map .region ++ nothing⟩

/-- Enters all entries of a memory map. -/
def Progress.enterAll (p : Progress) : List MapEntry → Checked Progress
  | [] => .ok p
  | e :: es => do (← p.enter e).enterAll es

/-- What is reported about a tag apart from the memory map. -/
def Tag.notice? : Tag → Option BootNotice
  | .commandLine s => some (.commandLine s)
  | .loaderName s => some (.loaderName s)
  | .memorySizes m => some (.sizes m)
  | .other t n => some (.skipped t n)
  | .memoryMap _ => none
  | .sections _ => none

def Progress.tag (p : Progress) : Tag → Checked Progress
  | .memoryMap m => p.enterAll m.entries
  | t => .ok { p with notices := p.notices ++ t.notice?.toList }

def Progress.tags (p : Progress) : List Tag → Checked Progress
  | [] => .ok p
  | t :: ts => do (← p.tag t).tags ts

/-! ### Carving -/

/-- Takes a range out of the available memory. -/
def Progress.reserve (p : Progress) (start stop : PhysAddr) : Checked (Progress × Nat) := do
  let c := p.regions.reserve start stop
  return (⟨c.table, p.notices ++ c.notices.map .region⟩, ← c.answer)

def ImageSection.bounds (s : ImageSection) : PhysRange := ⟨⟨s.address⟩, ⟨s.stop⟩⟩

/-- Takes the memory of a section out of the available memory. -/
def Progress.carveSection (p : Progress) (s : ImageSection) : Checked Progress := do
  let (q, pages) ← (p.note (.imageSection s.kind s.bounds.start s.size)).reserve s.bounds.start s.bounds.stop
  return q.note (.pagesTaken pages)

/-- The smallest range around all given ranges. -/
def hull : List PhysRange → Option PhysRange
  | [] => none
  | r :: rs => some (rs.foldl (fun h s => .ofBounds (min h.start s.start) (max h.stop s.stop))
      (.ofBounds r.start r.stop))

/-- The table of sections that counts: the last one. -/
def lastSections (ts : List Tag) : List ImageSection :=
  (ts.foldl (fun found t => match t with | .sections s => s.sections | _ => found) []).filter (·.Allocated)

/-- The memory sizes that count: the last ones. -/
def lastSizes (ts : List Tag) : Option MemorySizes :=
  ts.foldl (fun found t => match t with | .memorySizes m => some m | _ => found) none

def Tag.IsMemoryMap : Tag → Prop
  | .memoryMap _ => True
  | _ => False

instance (t : Tag) : Decidable t.IsMemoryMap := by cases t <;> unfold Tag.IsMemoryMap <;> infer_instance

/-- Carves the sections of the image and the ranges `extra` out of the memory entered so far. -/
def Progress.finish (p : Progress) (ts : List Tag) (extra : List PhysRange) :
    Checked (List BootNotice × BootMemory) := do
  let sections := lastSections ts
  let carved ← sections.foldlM Progress.carveSection p
  let image := hull (sections.map (·.bounds))
  let told := match image with
    | some r => carved.note (.image r)
    | none => carved.note .noImage
  let done ← extra.foldlM (fun q r => return (← q.reserve r.start r.stop).1) told
  return (done.notices, ⟨done.regions, image, lastSizes ts⟩)

/-- The error among the tags, if there is one. -/
def Information.error? (i : Information) : Option ParseError :=
  i.tags.findSome? fun | .error e => some e | .ok _ => none

/-- The available memory of boot information, less the sections of the image and the ranges `extra`; and
the notices on the way. -/
def readMemory (i : Information) (extra : List PhysRange) :
    Checked (List BootNotice × Except BootMemoryError BootMemory) := do
  let p ← Progress.tags ⟨.empty, []⟩ i.validTags
  match i.error? with
  | some e => return (p.notices ++ [.malformed e], .error (.malformed e))
  | none =>
    if i.validTags.any (·.IsMemoryMap) then
      let (notices, memory) ← p.finish i.validTags extra
      return (notices, .ok memory)
    else return (p.notices ++ [.noMemoryMap], .error .noMemoryMap)

end Nucleus.Boot
