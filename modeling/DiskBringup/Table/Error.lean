import DiskBringup.ErrorCode

/-!
# Refusals of the partition table

Why a partition table could not be read, searched or edited, and the status code that each reason
is reported as through the interface of a block device.
-/

namespace DiskBringup

/-- Why a partition table could not be read, searched or edited. -/
inductive TableError where
  /-- block 0 could not be read or written -/
  | io (code : ErrorCode)
  /-- block 0 carries no boot signature -/
  | invalidSignature
  /-- block 0 carries the signature but is no partition table -/
  | invalidData
  /-- some entry carries the protective type -/
  | protective
  /-- the entry is not used, or its number is none of 1 to 4 -/
  | notFound
  /-- the blocks do not lie on the device, or there are none -/
  | outOfBounds
  /-- the blocks belong to another entry -/
  | overlap (number : UInt8)
  /-- a block address or count does not fit the table's 32-bit fields -/
  | offsetOverflow
  /-- a block of the device is too small for a table -/
  | unsupportedBlockSize
  deriving DecidableEq, Repr

namespace TableError

/-- The reason in words. -/
def message : TableError → String
  | io code => s!"MBR I/O failed: {code.message}"
  | invalidSignature => "invalid MBR signature"
  | invalidData => "invalid MBR data"
  | protective => "disk uses a GPT partition table"
  | notFound => "partition not found"
  | outOfBounds => "partition exceeds device bounds"
  | overlap number => s!"partition overlaps entry {number}"
  | offsetOverflow => "offset calculation overflow"
  | unsupportedBlockSize => "unsupported block size"

/-- The status that stands for the reason. -/
def code : TableError → ErrorCode
  | io code => code
  | invalidSignature | invalidData | protective => .invalidTable
  | unsupportedBlockSize => .device
  | notFound | outOfBounds | overlap _ | offsetOverflow => .invalidPartition

end TableError

end DiskBringup
