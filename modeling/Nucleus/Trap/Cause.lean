import Nucleus.Address
import Nucleus.Text.Flags

/-!
What the error codes of traps say: the cause of a page fault, and the selector behind faults that a segment
or a gate caused.
-/

namespace Nucleus.Trap

/-! ### Page faults -/

/-- The bits of the error code of a page fault. -/
structure PageFaultCode where
  bits : UInt64
  deriving DecidableEq, Repr

namespace PageFaultCode

/-- The page was present; the access broke its protection. -/
def protection : UInt64 := 0x1
/-- The access was a write. -/
def write : UInt64 := 0x2
/-- The access came from user mode. -/
def user : UInt64 := 0x4
/-- A reserved bit was set in a table. -/
def reservedBit : UInt64 := 0x8
/-- The access fetched an instruction. -/
def fetch : UInt64 := 0x10
def mask : UInt64 := 0x1F

def ofBits (bits : UInt64) : PageFaultCode := ⟨bits &&& mask⟩

def Has (c : PageFaultCode) (bit : UInt64) : Prop := c.bits &&& bit = bit

instance (c : PageFaultCode) (bit : UInt64) : Decidable (c.Has bit) := inferInstanceAs (Decidable (_ = _))

def describe (c : PageFaultCode) : String :=
  Text.flags [("PROTECTION_VIOLATION", protection), ("WRITE", write), ("USER_MODE", user),
    ("RESERVED_BIT", reservedBit), ("INSTRUCTION_FETCH", fetch)] c.bits

end PageFaultCode

/-- Everything known about a page fault. -/
structure PageFault where
  address : VirtAddr
  /-- The root table that was active. -/
  table : PhysAddr
  code : PageFaultCode
  rip : UInt64
  deriving DecidableEq, Repr

namespace PageFault

def new (address : VirtAddr) (table : PhysAddr) (errorCode rip : UInt64) : PageFault :=
  ⟨address, table, .ofBits errorCode, rip⟩

/-- The page was not present, so that a frame may help. -/
def NotPresent (f : PageFault) : Prop := ¬ f.code.Has PageFaultCode.protection

instance (f : PageFault) : Decidable f.NotPresent := inferInstanceAs (Decidable (¬ _))

def describe (f : PageFault) : String :=
  let has (bit : UInt64) (yes no : String) : String := if f.code.Has bit then yes else no
  "\n".intercalate ([
    "faulting address: " ++ Text.hexMarkedFilled 16 f.address.toNat,
    "page table (CR3): " ++ Text.hexMarkedFilled 16 f.table.toNat,
    "error code:       " ++ Text.hexMarked f.code.bits.toNat,
    "  " ++ has PageFaultCode.protection "protection violation" "page not present",
    "  " ++ has PageFaultCode.write "write" "read" ++ " access",
    "  " ++ has PageFaultCode.user "user" "kernel" ++ " mode"] ++
    (if f.code.Has PageFaultCode.reservedBit then ["  reserved bit set in a paging structure"] else []) ++
    (if f.code.Has PageFaultCode.fetch then ["  instruction fetch"] else []) ++
    ["instruction:      " ++ Text.hexMarkedFilled 16 f.rip.toNat])

end PageFault

/-! ### Selectors -/

/-- The descriptor table that an error code points into. -/
inductive DescriptorKind where
  | gdt
  | idt
  | ldt
  deriving DecidableEq, Repr

def DescriptorKind.name : DescriptorKind → String
  | gdt => "Gdt"
  | idt => "Idt"
  | ldt => "Ldt"

/-- The error code of a fault that a selector caused. -/
structure SelectorCode where
  /-- The cause lies outside of the program. -/
  external : Bool
  table : DescriptorKind
  index : UInt16
  deriving DecidableEq, Repr

namespace SelectorCode

/-- The selector in an error code; the code zero has none. -/
def ofCode? (code : UInt64) : Option SelectorCode :=
  if code = 0 then none
  else
    let table := match ((code >>> 1) &&& 3).toNat with
      | 0 => .gdt
      | 2 => .ldt
      | _ => .idt
    some ⟨code &&& 1 ≠ 0, table, ((code >>> 3) &&& 0x1FFF).toUInt16⟩

def describe (s : SelectorCode) : String :=
  s.table.name ++ " selector index " ++ Text.hexMarked s.index.toNat ++
    if s.external then " (external)" else ""

end SelectorCode

end Nucleus.Trap
