/-!
# Refusals of a layout

Why a configured layout cannot be realised, on any device or on the device at hand.
-/

namespace DiskBringup

/-- Why a configured layout cannot be realised. -/
inductive LayoutError where
  /-- more partitions are configured than are supported -/
  | tooManyPartitions (count : Nat)
  /-- a partition number is none of 1 to 4 -/
  | invalidNumber (number : UInt8)
  /-- two partitions carry the same number -/
  | duplicateNumber (number : UInt8)
  /-- two partitions claim a common byte -/
  | overlap (earlier later : UInt8)
  /-- a partition holds no whole block -/
  | emptyPartition (number : UInt8)
  /-- the device is smaller than the layout -/
  | insufficientCapacity (required available : UInt64)
  /-- a block of the device is too small for a partition table -/
  | blockSizeTooSmall (size : UInt64)
  /-- a partition ends past the last 32-bit block address -/
  | offsetOverflow (number : UInt8)
  deriving DecidableEq, Repr

/-- The reason in words. -/
def LayoutError.message : LayoutError → String
  | tooManyPartitions count => s!"{count} partitions configured, at most 2 are supported"
  | invalidNumber number => s!"partition number {number} is outside 1..=4"
  | duplicateNumber number => s!"partition number {number} configured twice"
  | overlap earlier later => s!"partitions {earlier} and {later} overlap"
  | emptyPartition number => s!"partition {number} has no usable blocks"
  | insufficientCapacity required available =>
    s!"storage holds {available} bytes, layout needs {required}"
  | blockSizeTooSmall size => s!"block size {size} is smaller than an MBR sector"
  | offsetOverflow number => s!"partition {number} lies beyond 32-bit LBA range"

end DiskBringup
