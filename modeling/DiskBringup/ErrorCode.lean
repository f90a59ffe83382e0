import DiskBringup.Hex

/-!
# Error codes

The raw status that a block device or a filesystem reports: a signed 32-bit number. Three of them
are this library's own, and stand for a refusal of a device, of a partition and of a partition
table.
-/

namespace DiskBringup

/-- A status reported by a device or a filesystem. -/
structure ErrorCode where
  /-- the signed number -/
  value : Int32
  deriving DecidableEq, Repr

namespace ErrorCode

/-- A device refuses a block or a buffer. -/
def device : ErrorCode := ⟨-4001⟩

/-- A partition is absent or does not fit its device. -/
def invalidPartition : ErrorCode := ⟨-5001⟩

/-- Block 0 holds no usable partition table. -/
def invalidTable : ErrorCode := ⟨-5002⟩

/-- A filesystem finds no filesystem of its kind. -/
def noFilesystem : ErrorCode := ⟨-19⟩

/-- A filesystem is asked to leave a device that it is not mounted on. -/
def notMounted : ErrorCode := ⟨-22⟩

/-- The signed number, then its 32 bits in hexadecimal. -/
def message (c : ErrorCode) : String :=
  s!"{c.value.toInt} ({Hex.upper c.value.toUInt32.toNat})"

example : device.message = "-4001 (0xFFFFF05F)" := by decide +kernel

example : (ErrorCode.mk 15).message = "15 (0xF)" := by decide +kernel

end ErrorCode

end DiskBringup
