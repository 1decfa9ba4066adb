import Nucleus.Boot.Tag

/-!
The information that the boot loader leaves behind: a header with the total size and a sequence of records.
Each record has a header with type and size and is padded to a multiple of eight bytes; a record of type
zero ends the sequence. No read goes past the declared total size.
-/

namespace Nucleus.Boot

/-- Boot information, exactly as long as it declares. -/
structure Information where
  content : Blob
  deriving DecidableEq, Repr

/-- A size rounded up to a multiple of eight. -/
def padded (n : Nat) : Nat := (n + 7) / 8 * 8

/-- The tags of the records in `rest`, which starts at the given offset. An error is the last item. -/
def tagsFrom (offset : Nat) (rest : Blob) : List (Except ParseError Tag) :=
  if _long : headerSize ≤ rest.size then
    let type := u32 rest.bytes 0
    let size := u32 rest.bytes 4
    if type = 0 then []
    else if _large : headerSize ≤ size then
      if rest.size < size then [.error (.tagOverrun offset size)]
      else
        match Tag.ofBody type ((rest.take size).drop headerSize) with
        | .error e => [.error e]
        | .ok t => .ok t :: tagsFrom (offset + padded size) (rest.drop (padded size))
    else [.error (.tagTooSmall offset size)]
  else [.error .missingEndTag]
termination_by rest.size
decreasing_by
  simp only [headerSize] at _long _large
  simp only [Blob.drop]
  unfold padded
  omega

namespace Information

/-- The information at the start of a blob, which may be longer than the declared size. -/
def ofBlob (b : Blob) : Except ParseError Information :=
  if b.size < headerSize then .error (.invalidTotalSize b.size)
  else
    let size := u32 b.bytes 0
    if size < headerSize ∨ b.size < size then .error (.invalidTotalSize size)
    else .ok ⟨b.take size⟩

/-- The information at the start of `bytes`, which may be longer than the declared size. -/
def ofBytes (bytes : List UInt8) : Except ParseError Information := ofBlob (.ofList bytes)

def totalSize (i : Information) : Nat := i.content.size

/-- The physical memory that the information occupies if it lies at `base`. -/
def physicalRange (i : Information) (base : PhysAddr) : Checked PhysRange :=
  AddrRange.new base (UInt64.ofNat i.totalSize)

/-- The tags in order; an error is the last item. -/
def tags (i : Information) : List (Except ParseError Tag) :=
  tagsFrom headerSize (i.content.drop headerSize)

/-- The tags before an error. -/
def validTags (i : Information) : List Tag := i.tags.filterMap (·.toOption)

/-- The text of the first command line. -/
def commandLine? (i : Information) : Option String :=
  i.validTags.findSome? fun | .commandLine s => some s | _ => none

/-- The first memory map. -/
def memoryMap? (i : Information) : Option MemoryMap :=
  i.validTags.findSome? fun | .memoryMap m => some m | _ => none

/-- The first table of sections. -/
def sections? (i : Information) : Option ImageSections :=
  i.validTags.findSome? fun | .sections s => some s | _ => none

end Information

end Nucleus.Boot
