import DiskBringup.ErrorCode
import DiskBringup.Script
import DiskBringup.Word

/-!
# Requests of a block device

A block device has a geometry and answers four requests: to be initialised and deinitialised, and
to read and write one block. A buffer carries its length in its type, which need not be the
device's block size: the device refuses it then.
-/

namespace DiskBringup

/-- The shape of a block device. -/
structure Geometry where
  /-- the number of bytes in a block -/
  blockSize : UInt64
  /-- the number of blocks -/
  numBlocks : UInt64
  deriving DecidableEq, Repr

/-- The number of bytes that a device holds, if it is a word. -/
def Geometry.size? (g : Geometry) : Option UInt64 := Word.mul? g.numBlocks g.blockSize

/-- A device of this shape can transfer a block with a buffer of a given length: the buffer is one
block long, and the device has the block. -/
def Geometry.Accepts (g : Geometry) (block : UInt64) (length : Nat) : Prop :=
  length = g.blockSize.toNat ∧ block < g.numBlocks

instance (g : Geometry) (block : UInt64) (length : Nat) : Decidable (g.Accepts block length) :=
  inferInstanceAs (Decidable (_ ∧ _))

/-- A row of bytes. -/
abbrev Buffer (length : Nat) : Type := Vector UInt8 length

/-- The length of the longest buffer: the distance between two of its bytes, in either direction,
is a signed 64-bit word. -/
def Buffer.maxLength : Nat := 0x7fffffffffffffff

/-- What can be asked of a block device. -/
inductive BlockRequest where
  /-- initialise the device -/
  | init
  /-- deinitialise the device -/
  | deinit
  /-- read a block into a buffer of a given length -/
  | read (block : UInt64) (length : Nat)
  /-- write a buffer to a block -/
  | write (block : UInt64) {length : Nat} (data : Buffer length)

/-- The answer to a request: a code if it fails, and the bytes if it was to read. -/
abbrev BlockRequest.Answer : BlockRequest → Type
  | init | deinit | write .. => Except ErrorCode Unit
  | read _ length => Except ErrorCode (Buffer length)

/-- A program over a block device. -/
abbrev BlockScript (α : Type) : Type := Script BlockRequest.Answer α

end DiskBringup
