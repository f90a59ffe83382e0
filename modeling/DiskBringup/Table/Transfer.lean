import DiskBringup.Layout.Spec
import DiskBringup.Table.Edit
import DiskBringup.Routine

/-!
# Partition tables on a volume

Reading the table of a volume, writing it back, and writing one entry of it. Blocks may be larger
than a table: what follows the table in block 0 is kept. An entry is written only if everything
about it has been checked before, so that a refusal leaves the volume as it was. A volume whose
blocks are longer than any buffer overflows before it is asked for one.
-/

namespace DiskBringup.Table

/-! ## The table in block 0 -/

/-- The table that a block starts with. -/
def ofBlock {n : Nat} (block : Buffer n) (h : sectorSize ≤ n) : Table where
  sector := Vector.ofFn fun k =>
    have := Nat.lt_of_lt_of_le k.isLt h
    block[k.val]

/-- A block with the table laid over its start. -/
def overlay {n : Nat} (t : Table) (block : Buffer n) : Buffer n :=
  Vector.ofFn fun k => if h : k.val < 512 then t.sector[k.val] else block.get k

theorem ofBlock_overlay {n : Nat} (t : Table) (block : Buffer n) (h : sectorSize ≤ n) :
    ofBlock (t.overlay block) h = t := by
  cases t
  simp [ofBlock, overlay]

theorem getElem_overlay {n : Nat} (t : Table) (block : Buffer n) {k : Nat} (hk : k < n) :
    (t.overlay block)[k] = if h : k < 512 then t.sector[k] else block[k] := by
  simp only [overlay, Vector.getElem_ofFn]
  rfl

/-- Read block 0 of a volume. -/
def readFirst (v : Volume) : Routine (Outcome TableError (Buffer v.blockSize.toNat)) :=
  if Buffer.maxLength < v.blockSize.toNat then return .overflow .buffer
  else do
    match ← Routine.onVolume v (.read 0 v.blockSize.toNat) with
    | .ok block => return .ok block
    | .error code =>
      Routine.note (.tableReadFailed code)
      return .fail (.io code)

/-- Write block 0 of a volume. -/
def writeFirst (v : Volume) (block : Buffer v.blockSize.toNat) :
    Routine (Outcome TableError Unit) := do
  match ← Routine.onVolume v (.write 0 block) with
  | .ok () => return .ok ()
  | .error code =>
    Routine.note (.tableWriteFailed code)
    return .fail (.io code)

/-- Read the table of a volume. -/
def read (v : Volume) : Routine (Outcome TableError Table) :=
  if h : sectorSize ≤ v.blockSize.toNat then do
    let found ← readFirst v
    return found.bind fun block => .ok (ofBlock block h)
  else return .fail .unsupportedBlockSize

/-- Write a table back, keeping what follows the table in block 0. -/
def write (t : Table) (v : Volume) : Routine (Outcome TableError Unit) :=
  if sectorSize ≤ v.blockSize.toNat then do
    match ← readFirst v with
    | .ok block => writeFirst v (t.overlay block)
    | .fail err => return .fail err
    | .overflow o => return .overflow o
  else return .fail .unsupportedBlockSize

end DiskBringup.Table

namespace DiskBringup

/-! ## Writing an entry -/

/-- Edit a table and write it back. -/
def Table.commitEntry (t : Table) (v : Volume) (number kind : UInt8) (extent : Extent) :
    Routine (Outcome TableError Unit) := do
  match ← Routine.ofNoted (t.setEntry number kind extent) with
  | .overflow o => return .overflow o
  | .fail err => return .fail err
  | .ok edited => edited.write v

/-- Write an entry over blocks that end before `bound` into the table of a volume. A volume
without a table gets a fresh one. -/
def writeEntryBefore (v : Volume) (number kind : UInt8) (extent : Extent) (bound : UInt64) :
    Routine (Outcome TableError Unit) := do
  match ← Table.read v with
  | .fail err => return .fail err
  | .overflow o => return .overflow o
  | .ok found =>
    match ← Routine.ofNoted found.editable with
    | .error err => return .fail err
    | .ok table =>
      match ← table.commitEntry v number kind extent with
      | .ok () =>
        Routine.note (.entryWritten number kind extent.start (bound - 1))
        return .ok ()
      | ending => return ending

/-- Write an entry into the table of a volume. Its blocks must lie on the volume and leave out
block 0. -/
def writeEntry (v : Volume) (number kind : UInt8) (extent : Extent) :
    Routine (Outcome TableError Unit) :=
  if extent.start = 0 ∨ extent.blocks = 0 then return .fail .outOfBounds
  else
    match extent.bound? with
    | none => return .overflow .add
    | some bound =>
      if v.numBlocks < bound then return .fail .outOfBounds
      else writeEntryBefore v number kind extent bound

/-- Write an entry over the whole blocks between the bytes `start` and `stop`, and answer which
blocks those are. -/
def createPartition (v : Volume) (number kind : UInt8) (start stop : UInt64) :
    Routine (Outcome TableError Extent) :=
  if v.blockSize.toNat < sectorSize then return .fail .unsupportedBlockSize
  else
    match (Extent.inside? v.blockSize start stop).filter (·.bound ≤ v.numBlocks.toNat) with
    | none => do
      Routine.note (.rangeMisfit number start stop v.numBlocks)
      return .fail .outOfBounds
    | some extent => do
      let written ← writeEntry v number kind extent
      return written.bind fun () => .ok extent

end DiskBringup
