import DiskBringup.Partition
import DiskBringup.Storage.Mounting

/-!
# Slots: the configured partitions on their way up

A `Slot` is a configured partition with what bring-up has made of it: the partition, once an
attempt to locate it was made, and whether its filesystem exists. Both outlive failed attempts.
`Slot.bringUp` is one attempt. It makes the filesystem the first time it gets that far; a
filesystem that is left from an earlier attempt is formatted.
-/

namespace DiskBringup

/-- A configured partition and its state. -/
structure Slot where
  /-- what is configured -/
  spec : PartitionSpec
  /-- the partition, once an attempt to locate it was made -/
  partition : Option Partition
  /-- whether the filesystem of the partition exists -/
  hasFilesystem : Bool
  deriving DecidableEq

namespace Slot

/-- A slot before the first attempt. -/
def new (spec : PartitionSpec) : Slot := ⟨spec, none, false⟩

/-- The number of the partition. -/
abbrev number (s : Slot) : UInt8 := s.spec.number

/-- The filesystem of the partition. -/
abbrev filesystem (s : Slot) : Filesystem := .partition s.number

/-- The blocks of the partition, while it is located. -/
def extent (s : Slot) : Option Extent := s.partition.bind Partition.extent

/-- Make the filesystem of a partition, or format the one that is left from before. -/
def supply (s : Slot) (v : Volume) : Routine (Outcome StorageError Unit) :=
  if s.hasFilesystem then do
    Routine.note (.formattingPartition s.number)
    s.filesystem.format v
  else do
    Routine.create s.number s.spec.mountName v
    return .ok ()

/-- Get the filesystem of a located partition mounted. -/
def populate (s : Slot) (v : Volume) : Routine (Outcome StorageError Unit) := do
  match ← s.supply v with
  | .fail err => return .fail err
  | .overflow o => return .overflow o
  | .ok () => s.filesystem.probeOrFormat v (.formattingPartition s.number)

/-- Locate the partition on a disk and get its filesystem mounted. -/
def bringUp (disk : Volume) (s : Slot) : Routine (Outcome StorageError Unit × Slot) := do
  match ← locate disk s.number with
  | .overflow o => return (.overflow o, s)
  | .fail code =>
    Routine.note (.partitionInitFailed s.number code)
    return (.fail (.partitionInit s.number code), { s with partition := some (.new s.number) })
  | .ok window =>
    let populated ← s.populate (.window disk window)
    return (populated,
      { s with partition := some ⟨s.number, some window⟩, hasFilesystem := true })

/-- Write the entry of the partition over given blocks, then bring the partition up. -/
def create (disk : Volume) (s : Slot) (extent : Extent) :
    Routine (Outcome StorageError Unit × Slot) := do
  Routine.note (.creatingPartition s.number)
  match ← writeEntry disk s.number s.spec.kind extent with
  | .overflow o => return (.overflow o, s)
  | .fail err =>
    Routine.note (.creatingFailed s.number err)
    return (.fail (.partitionCreate s.number err.code), s)
  | .ok () => s.bringUp disk

/-- Format the filesystem of a partition that was brought up. -/
def wipe (disk : Volume) (s : Slot) : Routine (Outcome StorageError Unit) :=
  match s.partition, s.hasFilesystem with
  | some partition, true =>
    match partition.volume? disk with
    | some v => do
      match ← s.filesystem.format v with
      | .ok () => return .ok ()
      | .overflow o => return .overflow o
      | .fail err =>
        Routine.note (.formattingFailed s.number)
        return .fail err
    | none => do
      Routine.note (.notInitialised s.number)
      return .fail (.notMounted s.number)
  | _, _ => do
    Routine.note (.neverBroughtUp s.number)
    return .fail (.notMounted s.number)

end Slot

/-! ## Several slots -/

/-- Take a step on each of a list in order, up to the first that does not succeed. What a step
makes of its item is kept either way, and the items after it stay as they are. -/
def inOrder {ε β : Type} (step : β → Routine (Outcome ε Unit × β)) :
    List β → Routine (Outcome ε Unit × List β)
  | [] => return (.ok (), [])
  | item :: rest => do
    match ← step item with
    | (.ok (), item) =>
      let (ending, rest) ← inOrder step rest
      return (ending, item :: rest)
    | (ending, item) => return (ending, item :: rest)

namespace Slot

/-- Bring slots up in order. A failure comes with the number of its partition. -/
def bringUpAll (disk : Volume) :
    List Slot → Routine (Outcome (UInt8 × StorageError) Unit × List Slot) :=
  inOrder fun s => do
    let (ending, after) ← s.bringUp disk
    return (ending.mapFail (s.number, ·), after)

/-- Write entries for slots and bring them up, in order. -/
def createAll (disk : Volume) (slots : List Slot) (extents : List Extent) :
    Routine (Outcome StorageError Unit × List Slot) := do
  let (ending, after) ← inOrder
    (fun (s, extent) => do
      let (ending, after) ← s.create disk extent
      return (ending, (after, extent)))
    (slots.zip extents)
  return (ending, after.map Prod.fst)

/-- Format the filesystems of slots in order, up to the first failure. -/
def wipeAll (disk : Volume) : List Slot → Routine (Outcome StorageError Unit)
  | [] => return .ok ()
  | s :: rest => do
    match ← s.wipe disk with
    | .ok () => wipeAll disk rest
    | ending => return ending

end Slot

end DiskBringup
