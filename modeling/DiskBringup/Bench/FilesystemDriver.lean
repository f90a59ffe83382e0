import DiskBringup.Block.Buffer
import DiskBringup.Outcome

/-!
# Filesystem drivers

A `FilesystemDriver` mounts, unmounts and formats a filesystem. It reaches storage only by the
requests that its programs make, and it is told the shape of the volume that these go to. The one
driver here, `Signature`, knows a filesystem by eight bytes at the start of its first block. It
takes a buffer of one block, and overflows where there is none so long.
-/

namespace DiskBringup

/-- The driver of a filesystem whose own state is a `φ`. -/
class FilesystemDriver (φ : Type) where
  /-- the state of a filesystem that was never mounted -/
  blank : φ
  /-- mount the filesystem that is on a volume -/
  mount : φ → Geometry → BlockScript (Outcome ErrorCode Unit × φ)
  /-- leave the volume -/
  unmount : φ → Except ErrorCode Unit × φ
  /-- lay down an empty filesystem on a volume and leave it mounted -/
  reformat : φ → Geometry → BlockScript (Outcome ErrorCode Unit × φ)

/-- The state of a filesystem that is known by its signature. -/
structure Signature where
  /-- whether it is mounted -/
  isMounted : Bool
  deriving DecidableEq, Repr

namespace Signature

/-- The bytes that a filesystem starts with: the letters `SIGFS001`. -/
def mark : Array UInt8 := #[0x53, 0x49, 0x47, 0x46, 0x53, 0x30, 0x30, 0x31]

/-- A block starts with the mark. -/
def isMarked {length : Nat} (block : Buffer length) : Bool := block.toArray.extract 0 8 == mark

/-- The first block of an empty filesystem. -/
def firstBlock (length : Nat) : Buffer length := (Buffer.fill length 0).overlay 0 mark

/-- Mount if the first block is marked. -/
def mount (s : Signature) (g : Geometry) : BlockScript (Outcome ErrorCode Unit × Signature) :=
  if Buffer.maxLength < g.blockSize.toNat then return (.overflow .buffer, s)
  else do
    match ← Script.request (BlockRequest.read 0 g.blockSize.toNat) with
    | .error code => return (.fail code, s)
    | .ok block =>
      if isMarked block then return (.ok (), ⟨true⟩)
      else return (.fail .noFilesystem, s)

/-- Leave the volume, which needs a mounted filesystem. -/
def unmount (s : Signature) : Except ErrorCode Unit × Signature :=
  if s.isMounted then (.ok (), ⟨false⟩) else (.error .notMounted, s)

/-- Mark the first block and clear the second. -/
def reformat (g : Geometry) : BlockScript (Outcome ErrorCode Unit × Signature) :=
  if Buffer.maxLength < g.blockSize.toNat then return (.overflow .buffer, ⟨false⟩)
  else do
    match ← Script.request (BlockRequest.write 0 (firstBlock g.blockSize.toNat)) with
    | .error code => return (.fail code, ⟨false⟩)
    | .ok () =>
      match ← Script.request (BlockRequest.write 1 (Buffer.fill g.blockSize.toNat 0)) with
      | .error code => return (.fail code, ⟨false⟩)
      | .ok () => return (.ok (), ⟨true⟩)

instance : FilesystemDriver Signature where
  blank := ⟨false⟩
  mount := mount
  unmount := unmount
  reformat _ g := reformat g

end Signature

end DiskBringup
