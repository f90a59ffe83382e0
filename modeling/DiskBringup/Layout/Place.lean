import DiskBringup.Layout.Check
import DiskBringup.Note

/-!
# Placing a layout on a device

On a device of a given capacity and block size every partition gets the largest run of whole
blocks inside its byte range, block 0 left out. `Config.layout` places all partitions of a
configuration that is valid and fits; it fails as a whole if one of them cannot be placed.
-/

namespace DiskBringup

/-- The blocks of a partition on a device with blocks of the given size. -/
def PartitionSpec.place (s : PartitionSpec) (blockSize : UInt64) : Except LayoutError Extent :=
  match Extent.inside? blockSize s.start s.stop with
  | none => .error (.emptyPartition s.number)
  | some extent =>
    if UInt32.size ≤ extent.bound then .error (.offsetOverflow s.number) else .ok extent

/-- The blocks of partitions in order, each reported as it is placed. -/
def placeAll (blockSize : UInt64) : List PartitionSpec → Noted (Except LayoutError (List Extent))
  | [] => return .ok []
  | s :: rest =>
    match s.place blockSize with
    | .error err => return .error err
    | .ok extent => do
      Noted.note (.placed s.number extent)
      let placed ← placeAll blockSize rest
      return placed.map (extent :: ·)

/-- The blocks of every partition on a device of `capacity` bytes, in configured order. -/
def Config.layout (c : Config) (capacity blockSize : UInt64) :
    Noted (Except LayoutError (List Extent)) :=
  match c.validate with
  | .error err => return .error err
  | .ok () =>
    if blockSize.toNat < sectorSize then return .error (.blockSizeTooSmall blockSize)
    else if capacity < c.requiredCapacity then
      return .error (.insufficientCapacity c.requiredCapacity capacity)
    else placeAll blockSize c.partitions

end DiskBringup
