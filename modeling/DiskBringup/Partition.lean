import DiskBringup.Table.Transfer

/-!
# Partitions

A `Partition` is a number and, once it has been located through the partition table, the window of
blocks it covers. Locating it again reads the table again, so a partition outlives changes to the
layout; a failure to locate it leaves an earlier window in place.
-/

namespace DiskBringup

/-- The window that an entry gives on a volume. An entry that ends past the volume gives none. -/
def Entry.window (e : Entry) (number : UInt8) (v : Volume) : Noted (Outcome ErrorCode Window) :=
  if h : e.extent.Addressable then
    if v.numBlocks.toNat < e.extent.bound then do
      Noted.note (.entryPastEnd number e.extent.bound v.numBlocks)
      return .fail TableError.outOfBounds.code
    else do
      Noted.note (.partitionLocated number e)
      return .ok ⟨e.extent, h⟩
  else return .overflow .add

/-- Find the window of a partition on a volume through the partition table. -/
def locate (v : Volume) (number : UInt8) : Routine (Outcome ErrorCode Window) := do
  match ← Table.read v with
  | .fail err => return .fail err.code
  | .overflow o => return .overflow o
  | .ok table =>
    match ← Routine.ofNoted (table.find number) with
    | .error err => return .fail err.code
    | .ok entry => Routine.ofNoted (entry.window number v)

/-- A partition of a volume. -/
structure Partition where
  /-- the number of its entry in the partition table -/
  number : UInt8
  /-- the blocks it covers, once it has been located -/
  window : Option Window
  deriving DecidableEq

namespace Partition

/-- A partition that has not been located. -/
def new (number : UInt8) : Partition := ⟨number, none⟩

/-- The blocks of a located partition. -/
def extent (p : Partition) : Option Extent := p.window.map Window.extent

/-- Locate the partition on a volume. -/
def init (p : Partition) (v : Volume) : Routine (Outcome ErrorCode Unit × Partition) := do
  match ← locate v p.number with
  | .ok window => return (.ok (), { p with window := some window })
  | .fail code => return (.fail code, p)
  | .overflow o => return (.overflow o, p)

/-- Forget where the partition lies. -/
def deinit (p : Partition) : Partition := { p with window := none }

/-- The partition as a volume of its own, once it has been located on a volume. -/
def volume? (p : Partition) (base : Volume) : Option Volume := p.window.map (Volume.window base)

end Partition

end DiskBringup
