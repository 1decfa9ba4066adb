import Nucleus.Boot.Memory

/-!
The printed forms of the memory map, as the boot loader handed it over, and of the region table after
carving.
-/

namespace Nucleus.Boot

open Memory

def mebibyte : Nat := 1024 * 1024

/-- A line of a report as a record. -/
def reportLine (text : String) : Log.Record := ⟨.info, "kcore::diagnostics", text⟩

def MapType.letter (t : MapType) : String :=
  match t.code with
  | 1 => "A"
  | 3 => "C"
  | 4 => "N"
  | 5 => "X"
  | _ => "R"

def MapEntry.line (e : MapEntry) : String :=
  Text.centre 6 e.type.letter ++ " " ++ Text.centre 23 (Text.hexMarked e.base.toNat) ++ " " ++
    Text.word e.length ++ " " ++ e.type.name

/-- The lines about entries of the memory map, and the sum of their available lengths on top of `total`;
the sum has to fit into a word. -/
def entryLines (total : UInt64) : List MapEntry → List String × Checked UInt64
  | [] => ([], .ok total)
  | e :: es =>
    let next := if e.Available then Word.add total e.length else .ok total
    match next with
    | .error f => ([e.line], .error f)
    | .ok t =>
      let (lines, sum) := entryLines t es
      (e.line :: lines, sum)

def mapHeading : List String :=
  ["Memory map:", Text.centre 6 "Type" ++ " " ++ Text.centre 23 "Physical Address" ++ " " ++ Text.centre 16 "Length"]

def availableLine (total : Nat) : String := " Available: " ++ Text.decimal (total / mebibyte) ++ " MiB"

/-- The lines about the memory map, and the fault if its available lengths have no sum. -/
def memoryMapReport (i : Information) : List String × Checked Unit :=
  match i.memoryMap? with
  | none => (["no memory map"], .ok ())
  | some m =>
    match entryLines 0 m.entries with
    | (lines, .error f) => (mapHeading ++ lines, .error f)
    | (lines, .ok total) => (mapHeading ++ lines ++ [availableLine total.toNat], .ok ())

def boundText (address : Nat) : String := (Addr.ofNat address : PhysAddr).pretty

/-- The line about a region of `pages` pages. -/
def regionLine (r : Region) (pages : Nat) : String :=
  "  " ++ boundText r.span.start ++ "-" ++ boundText r.span.stop ++ " " ++
    Text.right 8 (Text.decimal pages) ++ " pages " ++ r.kind.name

/-- The line about the totals. -/
def statsLine (s : RegionTable.Stats) : String :=
  Text.decimal s.regionCount ++ " regions, " ++ Text.decimal (s.totalBytes / mebibyte) ++ " MiB usable, " ++
    Text.decimal s.freePages ++ " of " ++ Text.decimal s.totalPages ++ " pages free, " ++
    Text.decimal s.reservedPages ++ " reserved"

def regionsReport (t : RegionTable) : List String :=
  ["Memory regions:"] ++ t.regions.map (fun r => regionLine r r.span.pages) ++ [statsLine t.stats]

end Nucleus.Boot
