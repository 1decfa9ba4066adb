import Nucleus.Log
import Nucleus.Memory.Span

/-!
The table of physical memory regions. Available memory enters rounded inwards and only where no earlier
region lies; unusable memory enters rounded outwards and takes its pages away from available regions;
reserved ranges are carved out of the available regions they meet. The table has a fixed number of slots.
-/

namespace Nucleus.Memory

inductive RegionKind where
  | available
  /-- Reserved by the firmware, or in use. -/
  | reserved
  | acpiReclaimable
  | nonVolatile
  | defective
  deriving DecidableEq, Repr

def RegionKind.name : RegionKind → String
  | available => "Available"
  | reserved => "Reserved"
  | acpiReclaimable => "ACPI Reclaimable"
  | nonVolatile => "NVS"
  | defective => "Bad RAM"

/-- Whole pages of one kind. -/
structure Region where
  span : Span
  kind : RegionKind
  deriving DecidableEq, Repr

/-- The region may be handed out. -/
def Region.Available (r : Region) : Prop := r.kind = .available

instance (r : Region) : Decidable r.Available := inferInstanceAs (Decidable (_ = _))

def regionCapacity : Nat := 64

/-- Why a region could not be recorded. -/
inductive RegionError where
  /-- All slots are in use. -/
  | full
  deriving DecidableEq, Repr

/-- The text that reports the error. -/
def RegionError.message : RegionError → String
  | full => "more than " ++ Text.decimal regionCapacity ++ " memory regions"

/-- What the table reports while it changes. -/
inductive RegionNotice where
  /-- A span found no free slot. -/
  | ignored (span : Span)
  /-- A region could not be split, so it was given up as a whole. -/
  | unsplittable (span : Span)
  deriving DecidableEq, Repr

def RegionNotice.record : RegionNotice → Log.Record
  | ignored s => ⟨.warn, "kmem::physical::regions",
      "[kmem] too many memory regions, ignoring " ++ s.describe⟩
  | unsplittable s => ⟨.warn, "kmem::physical::regions",
      "[kmem] no space for split region, marking " ++ s.describe ++ " as reserved"⟩

/-- The regions in the order in which they came, and the running totals. -/
structure RegionTable where
  regions : List Region
  /-- Available pages that were ever added, less those that unusable memory took away. -/
  totalPages : Nat
  /-- Available pages that `reserve` took away. -/
  reservedPages : Nat
  deriving DecidableEq, Repr

/-- A table after an operation, the notices on the way, and the answer. -/
structure RegionChange (α : Type) where
  table : RegionTable
  notices : List RegionNotice
  answer : α

namespace RegionTable

def empty : RegionTable := ⟨[], 0, 0⟩

/-- All slots are in use. -/
def Full (t : RegionTable) : Prop := regionCapacity ≤ t.regions.length

instance (t : RegionTable) : Decidable t.Full := inferInstanceAs (Decidable (_ ≤ _))

def available (t : RegionTable) : List Region := t.regions.filter (·.Available)

/-- The page `p` may be handed out. -/
def IsAvailable (t : RegionTable) (p : Nat) : Prop := ∃ r ∈ t.regions, r.Available ∧ p ∈ r.span

instance (t : RegionTable) (p : Nat) : Decidable (t.IsAvailable p) :=
  inferInstanceAs (Decidable (∃ r ∈ t.regions, r.Available ∧ p ∈ r.span))

/-- The number of pages that may be handed out. -/
def freePages (t : RegionTable) : Nat := Span.pagesOf (t.available.map (·.span))

/-- The table with one more region; nothing if all slots are in use. -/
def push? (t : RegionTable) (r : Region) : Option RegionTable :=
  if t.Full then none else some { t with regions := t.regions ++ [r] }

/-- The table with more pages counted; the total in bytes has to fit into a word. -/
def countPages (t : RegionTable) (n : Nat) : Checked RegionTable :=
  if pageSize * (t.totalPages + n) < 0x10000000000000000 then .ok { t with totalPages := t.totalPages + n }
  else .error .addOverflow

/-- The table with fewer pages counted; their number in bytes has to fit into a word. -/
def uncountPages (t : RegionTable) (n : Nat) : Checked RegionTable :=
  if 0x10000000000000000 ≤ pageSize * n then .error .mulOverflow
  else if n ≤ t.totalPages then .ok { t with totalPages := t.totalPages - n }
  else .error .subOverflow

/-- The table with more pages counted as reserved. -/
def countReserved (t : RegionTable) (n : Nat) : Checked RegionTable :=
  if t.reservedPages + n < 0x10000000000000000 then .ok { t with reservedPages := t.reservedPages + n }
  else .error .addOverflow

/-! ### Adding available memory -/

/-- The region of least start among `rs`, the earliest of them on a tie. -/
def lowest : List Region → Option Region
  | [] => none
  | r :: rs =>
    match lowest rs with
    | none => some r
    | some s => if s.span.first < r.span.first then some s else some r

/-- The regions that lie in the way of the pages from `cursor` on and below `last`. -/
def obstacles (t : RegionTable) (cursor last : Nat) : List Region :=
  t.regions.filter fun r => r.span.first < last ∧ cursor < r.span.last

theorem lowest_mem {rs : List Region} {r : Region} (h : lowest rs = some r) : r ∈ rs := by
  induction rs generalizing r with
  | nil => cases h
  | cons a rs ih =>
    unfold lowest at h
    split at h
    · cases h
      exact List.mem_cons_self ..
    · next s hs =>
      split at h <;> cases h
      · exact List.mem_cons_of_mem _ (ih hs)
      · exact List.mem_cons_self ..

/-- The free pages at `cursor` and where the search goes on behind them. -/
structure Gap where
  stop : Nat
  next : Nat

/-- The pages from `cursor` on up to the lowest obstacle, which the search jumps over. -/
def gap (t : RegionTable) (cursor last : Nat) : Gap :=
  match lowest (t.obstacles cursor last) with
  | none => ⟨last, last⟩
  | some r => ⟨max r.span.first cursor, r.span.last⟩

theorem lt_gap_next (t : RegionTable) {cursor last : Nat} (h : cursor < last) :
    cursor < (t.gap cursor last).next := by
  unfold gap
  split
  · exact h
  · next r hr =>
    have := (List.mem_filter.mp (lowest_mem hr)).2
    exact (of_decide_eq_true this).2

/-- Adds the pages from `cursor` on and below `last` that no region covers; `added` tells whether earlier
pages were added. A region stays in the table even if its pages cannot be counted. -/
def fill (t : RegionTable) (cursor last : Nat) (added : Bool) :
    RegionChange (Checked (Except RegionError Bool)) :=
  if _inside : cursor < last then
    let stop := (t.gap cursor last).stop
    if cursor < stop then
      match t.push? ⟨⟨cursor, stop⟩, .available⟩ with
      | none => ⟨t, [.ignored ⟨cursor, stop⟩], .ok (.error .full)⟩
      | some t' =>
        match t'.countPages (stop - cursor) with
        | .error f => ⟨t', [], .error f⟩
        | .ok t'' => fill t'' (t.gap cursor last).next last true
    else fill t (t.gap cursor last).next last added
  else ⟨t, [], .ok (.ok added)⟩
termination_by last - cursor
decreasing_by all_goals exact Nat.sub_lt_sub_left _inside (t.lt_gap_next _inside)

/-- Adds the available memory of `length` bytes from `base` on. The answer tells whether any page was new;
an error means that the rest found no slot. -/
def addAvailable (t : RegionTable) (base length : UInt64) :
    RegionChange (Checked (Except RegionError Bool)) :=
  let s := Span.within base length
  t.fill s.first s.last false

/-! ### Taking pages away -/

/-- A carving on its way: the regions it left behind, the pieces it cut off, and the pages lost. -/
structure Carving where
  kept : List Region
  pieces : List Region
  lost : Nat
  notices : List RegionNotice

/-- Carves `cut` out of the region `r`. A region that is covered completely is kept as reserved or dropped;
one that is cut in the middle leaves a second piece, for which `room` says whether there is a slot. -/
def Carving.step (cut : Span) (keepCovered : Bool) (slots : Nat) (c : Carving) (r : Region) : Carving :=
  if r.Available ∧ cut.Meets r.span then
    let common := cut.meet r.span
    let lost := c.lost + common.pages
    if common = r.span then
      if keepCovered then { c with kept := c.kept ++ [⟨r.span, .reserved⟩], lost := lost }
      else { c with lost := lost }
    else if common.first = r.span.first then
      { c with kept := c.kept ++ [⟨⟨common.last, r.span.last⟩, r.kind⟩], lost := lost }
    else if common.last = r.span.last then
      { c with kept := c.kept ++ [⟨⟨r.span.first, common.first⟩, r.kind⟩], lost := lost }
    else if slots + c.pieces.length < regionCapacity then
      { c with
        kept := c.kept ++ [⟨⟨r.span.first, common.first⟩, r.kind⟩]
        pieces := c.pieces ++ [⟨⟨common.last, r.span.last⟩, .available⟩]
        lost := lost }
    else
      { c with
        kept := c.kept ++ [⟨r.span, .reserved⟩]
        lost := c.lost + r.span.pages
        notices := c.notices ++ [.unsplittable r.span] }
  else { c with kept := c.kept ++ [r] }

/-- Takes the pages of `cut` out of all available regions; the answer is the number of pages lost. -/
def carve (t : RegionTable) (cut : Span) (keepCovered : Bool) : RegionChange Nat :=
  let c := t.regions.foldl (Carving.step cut keepCovered t.regions.length) ⟨[], [], 0, []⟩
  ⟨{ t with regions := c.kept ++ c.pieces }, c.notices, c.lost⟩

/-- Records memory that is unusable. Its pages are taken from the available regions even if there is no
slot for the region itself; the answer tells whether there was any page. -/
def addUnavailable (t : RegionTable) (base length : UInt64) (kind : RegionKind) :
    RegionChange (Checked (Except RegionError Bool)) :=
  let s := Span.around base length
  if s.IsEmpty then ⟨t, [], .ok (.ok false)⟩
  else
    let c := t.carve s false
    match c.table.uncountPages c.answer with
    | .error f => ⟨c.table, c.notices, .error f⟩
    | .ok t' =>
      match t'.push? ⟨s, kind⟩ with
      | none => ⟨t', c.notices ++ [.ignored s], .ok (.error .full)⟩
      | some t'' => ⟨t'', c.notices, .ok (.ok true)⟩

/-- Takes the pages around the addresses from `start` on and below `stop` out of the available regions; the
answer is the number of pages that were available before. They stay taken if they cannot be counted. -/
def reserve (t : RegionTable) (start stop : PhysAddr) : RegionChange (Checked Nat) :=
  let s := Span.covering start stop
  if s.IsEmpty then ⟨t, [], .ok 0⟩
  else
    let c := t.carve s true
    match c.table.countReserved c.answer with
    | .error f => ⟨c.table, c.notices, .error f⟩
    | .ok t' => ⟨t', c.notices, .ok c.answer⟩

/-! ### Totals -/

structure Stats where
  totalBytes : Nat
  totalPages : Nat
  freePages : Nat
  reservedPages : Nat
  regionCount : Nat
  deriving DecidableEq, Repr

def stats (t : RegionTable) : Stats :=
  ⟨pageSize * t.totalPages, t.totalPages, t.freePages, t.reservedPages, t.regions.length⟩

end RegionTable

end Nucleus.Memory
