import Nucleus.Address
import Nucleus.Bytes
import Nucleus.Text.Flags

/-!
The tags of the boot information: texts, memory sizes, the memory map and the sections of the loaded image.
Each is decoded from the body of a record whose header gives its type; types without a use are kept by
number and size.
-/

namespace Nucleus.Boot

/-- Why boot information is malformed. -/
inductive ParseError where
  /-- The information does not start at a multiple of eight. -/
  | misaligned (address : Nat)
  /-- The declared size is smaller than the header or exceeds the given bytes. -/
  | invalidTotalSize (size : Nat)
  /-- A record declares a size smaller than its own header. -/
  | tagTooSmall (offset size : Nat)
  /-- A record extends past the declared total size. -/
  | tagOverrun (offset size : Nat)
  /-- The records ended without an end record. -/
  | missingEndTag
  /-- A record is too short for the fields of its type. -/
  | truncatedTag (type size : Nat)
  /-- The declared size of the entries of a table is too small. -/
  | invalidEntrySize (type entrySize : Nat)
  /-- A text is not valid UTF-8. -/
  | invalidText (type : Nat)
  deriving DecidableEq, Repr

def ParseError.message : ParseError → String
  | misaligned a => "boot information at " ++ Text.hexMarked a ++ " is not 8 byte aligned"
  | invalidTotalSize n => "invalid total size " ++ Text.decimal n
  | tagTooSmall o n => "tag at offset " ++ Text.decimal o ++ " has invalid size " ++ Text.decimal n
  | tagOverrun o n =>
    "tag at offset " ++ Text.decimal o ++ " of size " ++ Text.decimal n ++ " extends past the end"
  | missingEndTag => "missing end tag"
  | truncatedTag t n => "tag type " ++ Text.decimal t ++ " truncated to " ++ Text.decimal n ++ " bytes"
  | invalidEntrySize t n => "tag type " ++ Text.decimal t ++ " has invalid entry size " ++ Text.decimal n
  | invalidText t => "tag type " ++ Text.decimal t ++ " contains invalid UTF-8"

/-- Bytes of the header of the information and of each record. -/
def headerSize : Nat := 8

/-! ### Texts -/

/-- The text up to the first zero byte, or in all bytes if there is none. -/
def text (type : Nat) (body : Blob) : Except ParseError String :=
  match String.fromUTF8? ⟨(body.bytes.takeWhile (· ≠ 0)).toArray⟩ with
  | some s => .ok s
  | none => .error (.invalidText type)

/-! ### The memory map -/

/-- What the firmware says about a range of memory, as a number. -/
structure MapType where
  code : Nat
  deriving DecidableEq, Repr

namespace MapType

/-- Memory that may be used. -/
def available : MapType := ⟨1⟩
/-- Memory that must not be used. -/
def reserved : MapType := ⟨2⟩
/-- Memory that may be used once the firmware tables in it were read. -/
def acpiReclaimable : MapType := ⟨3⟩
/-- Memory that keeps its contents while the machine sleeps. -/
def nonVolatile : MapType := ⟨4⟩
/-- Memory that does not work. -/
def defective : MapType := ⟨5⟩

def name (t : MapType) : String :=
  match t.code with
  | 1 => "Available"
  | 2 => "Reserved"
  | 3 => "ACPI Reclaimable"
  | 4 => "NVS"
  | 5 => "Bad RAM"
  | _ => "Unknown"

def describe (t : MapType) : String := "EntryType(" ++ Text.decimal t.code ++ " ~ " ++ t.name ++ ")"

end MapType

/-- A range of memory in the memory map. -/
structure MapEntry where
  base : UInt64
  length : UInt64
  type : MapType
  deriving DecidableEq, Repr

namespace MapEntry

def Available (e : MapEntry) : Prop := e.type = .available

instance (e : MapEntry) : Decidable e.Available := inferInstanceAs (Decidable (_ = _))

/-- The address behind the range, cut off at the largest word. -/
def stop (e : MapEntry) : UInt64 := Word.addSaturating e.base e.length

/-- Reads an entry; bytes behind the known fields are skipped. -/
def ofBytes (raw : List UInt8) : MapEntry := ⟨u64 raw 0, u64 raw 8, ⟨u32 raw 16⟩⟩

def size : Nat := 24

end MapEntry

structure MemoryMap where
  version : Nat
  entries : List MapEntry
  deriving DecidableEq, Repr

def memoryMapType : Nat := 6

/-- Reads the memory map from the body of its record; a rest shorter than an entry is skipped. -/
def MemoryMap.ofBody (body : Blob) : Except ParseError MemoryMap :=
  if body.size < 8 then .error (.truncatedTag memoryMapType (body.size + headerSize))
  else
    let entrySize := u32 body.bytes 0
    if entrySize < MapEntry.size then .error (.invalidEntrySize memoryMapType entrySize)
    else
      let rest := body.drop 8
      .ok ⟨u32 body.bytes 4, (pieces entrySize (rest.size / entrySize) rest.bytes).map MapEntry.ofBytes⟩

/-! ### Sections of the image -/

/-- What a section holds, as far as the kernel cares. -/
inductive SectionKind where
  | code
  | data
  | readOnly
  | bss
  | other
  deriving DecidableEq, Repr

def SectionKind.name : SectionKind → String
  | code => "code"
  | data => "data"
  | readOnly => "read-only"
  | bss => "bss"
  | other => "other"

/-- A section of the loaded image. -/
structure ImageSection where
  type : Nat
  flags : UInt64
  address : UInt64
  size : UInt64
  deriving DecidableEq, Repr

namespace ImageSection

/-- The flag of sections that can be written. -/
def writable : UInt64 := 0x1
/-- The flag of sections that occupy memory. -/
def allocated : UInt64 := 0x2
/-- The flag of sections that can be executed. -/
def executable : UInt64 := 0x4
def flagMask : UInt64 := 0x7

def Allocated (s : ImageSection) : Prop := s.flags &&& allocated ≠ 0 ∧ 0 < s.size.toNat

instance (s : ImageSection) : Decidable s.Allocated := inferInstanceAs (Decidable (_ ∧ _))

def kind (s : ImageSection) : SectionKind :=
  if s.type = 1 then
    if s.flags &&& executable ≠ 0 then .code
    else if s.flags &&& writable ≠ 0 then .data
    else .readOnly
  else if s.type = 8 then .bss
  else .other

/-- The address behind the section, cut off at the largest word. -/
def stop (s : ImageSection) : UInt64 := Word.addSaturating s.address s.size

def flagNames (s : ImageSection) : String :=
  Text.flags [("WRITABLE", writable), ("ALLOCATED", allocated), ("EXECUTABLE", executable)] s.flags

/-- Reads a section header; bytes behind the known fields are skipped. -/
def ofBytes (raw : List UInt8) : ImageSection :=
  ⟨u32 raw 4, u64 raw 8 &&& flagMask, u64 raw 16, u64 raw 32⟩

def headerSize : Nat := 64

end ImageSection

structure ImageSections where
  stringTable : Nat
  sections : List ImageSection
  deriving DecidableEq, Repr

def sectionsType : Nat := 9

def ImageSections.ofBody (body : Blob) : Except ParseError ImageSections :=
  if body.size < 12 then .error (.truncatedTag sectionsType (body.size + headerSize))
  else
    let count := u32 body.bytes 0
    let entrySize := u32 body.bytes 4
    if entrySize < ImageSection.headerSize then .error (.invalidEntrySize sectionsType entrySize)
    else
      let rest := body.drop 12
      if rest.size < count * entrySize then
        .error (.truncatedTag sectionsType (body.size + headerSize))
      else .ok ⟨u32 body.bytes 8, (pieces entrySize count rest.bytes).map ImageSection.ofBytes⟩

/-! ### Tags -/

/-- Memory sizes in KiB as the firmware reports them. -/
structure MemorySizes where
  lower : Nat
  upper : Nat
  deriving DecidableEq, Repr

/-- A decoded record. -/
inductive Tag where
  | commandLine (text : String)
  | loaderName (text : String)
  | memorySizes (sizes : MemorySizes)
  | memoryMap (map : MemoryMap)
  | sections (sections : ImageSections)
  | other (type size : Nat)
  deriving DecidableEq, Repr

/-- Decodes the body of a record of the given type. -/
def Tag.ofBody (type : Nat) (body : Blob) : Except ParseError Tag :=
  match type with
  | 1 => (text type body).map .commandLine
  | 2 => (text type body).map .loaderName
  | 4 =>
    if body.size < 8 then .error (.truncatedTag type (body.size + headerSize))
    else .ok (.memorySizes ⟨u32 body.bytes 0, u32 body.bytes 4⟩)
  | 6 => (MemoryMap.ofBody body).map .memoryMap
  | 9 => (ImageSections.ofBody body).map .sections
  | _ => .ok (.other type (body.size + headerSize))

end Nucleus.Boot
