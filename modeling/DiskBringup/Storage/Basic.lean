import DiskBringup.Layout.Place
import DiskBringup.Storage.Slot

/-!
# Storage: from a raw disk to mounted filesystems

`Storage` is what bring-up has made of a disk so far. `Storage.init` brings it up: it initialises
the disk and gets the filesystem of the whole disk, or of every configured partition, mounted. Only
the first success does any work; a failed attempt leaves what it has reached, and the next attempt
goes on from there. Where a partition cannot be brought up and the configuration allows it, the
configured layout is written into the partition table and every partition is brought up anew.
`Storage.wipe` formats everything that was brought up.
-/

namespace DiskBringup

/-- Storage on its way up. -/
structure Storage where
  /-- the shape of the disk, if there is one -/
  device : Option Geometry
  /-- the configured partitions, in order; none for a whole-disk filesystem -/
  slots : List Slot
  /-- write missing partitions into the partition table -/
  autoPartition : Bool
  /-- whether filesystems can be made for partitions -/
  hasFactory : Bool
  /-- the number of bytes of the disk, once it was initialised -/
  capacity : UInt64
  /-- bring-up has succeeded -/
  isUp : Bool
  deriving DecidableEq

namespace Storage

/-- Storage before the first attempt. A configuration that no disk can hold is refused. -/
def new (device : Option Geometry) (config : Config) (hasFactory : Bool) :
    Noted (Except StorageError Storage) :=
  match config.validate with
  | .error err => do
    Noted.note (.configRefused err)
    return .error (.invalidLayout err)
  | .ok () =>
    return .ok
      { device := device
        slots := config.partitions.map Slot.new
        autoPartition := config.autoPartition
        hasFactory := hasFactory
        capacity := 0
        isUp := false }

/-- Storage is made of a valid configuration, with a slot for every partition. -/
theorem new_eq_ok_iff {device : Option Geometry} {config : Config} {hasFactory : Bool}
    {s : Storage} :
    (new device config hasFactory).value = .ok s ↔ config.validate = .ok () ∧
      s = ⟨device, config.partitions.map Slot.new, config.autoPartition, hasFactory, 0, false⟩ := by
  rw [new]
  cases config.validate with
  | error err => simp
  | ok u => simp [eq_comm]

variable (s : Storage)

/-- The configuration. -/
def config : Config := ⟨s.slots.map Slot.spec, s.autoPartition⟩

/-- The slot of a partition number. -/
def slot? (number : UInt8) : Option Slot := s.slots.find? (·.number == number)

/-- The partition of a number, once an attempt to locate it was made. -/
def partition? (number : UInt8) : Option Partition := (s.slot? number).bind Slot.partition

/-- The filesystem of a partition number, once it exists. -/
def filesystem? (number : UInt8) : Option Filesystem :=
  ((s.slot? number).filter Slot.hasFilesystem).map Slot.filesystem

/-! ## Bring-up -/

/-- Write the configured layout into the partition table and bring every partition up. The whole
layout is placed before the first entry is written. -/
def createPartitions (disk : Volume) : Routine (Outcome StorageError Unit × Storage) := do
  match ← Routine.ofNoted (s.config.layout s.capacity disk.blockSize) with
  | .error err =>
    Routine.note (.layoutRefused err)
    return (.fail (.invalidLayout err), s)
  | .ok extents =>
    let (ending, slots) ← Slot.createAll disk s.slots extents
    return (ending, { s with slots := slots })

/-- Bring every partition up, creating the partitions if one is missing and that is allowed. -/
def bringUpPartitions (disk : Volume) : Routine (Outcome StorageError Unit × Storage) :=
  if s.hasFactory then do
    match ← Slot.bringUpAll disk s.slots with
    | (.ok (), slots) => return (.ok (), { s with slots := slots })
    | (.overflow o, slots) => return (.overflow o, { s with slots := slots })
    | (.fail (number, err), slots) =>
      if s.autoPartition then
        Routine.note (.partitionMissing number err)
        createPartitions { s with slots := slots } disk
      else
        Routine.note (.partitionDown number err)
        return (.fail err, { s with slots := slots })
  else return (.fail .noFileSystemFactory, s)

/-- Get the filesystem of the whole disk mounted. -/
def bringUpWhole (disk : Volume) : Routine (Outcome StorageError Unit × Storage) := do
  let settled ← Filesystem.whole.probeOrFormat disk .formattingStorage
  return (settled, s)

/-- Bring up what is configured on an initialised disk. -/
def bringUp (disk : Volume) : Routine (Outcome StorageError Unit × Storage) :=
  if s.config.isPartitioned then s.bringUpPartitions disk else s.bringUpWhole disk

/-- Where there are slots, what is brought up is the partitions. -/
theorem bringUp_of_slots {s : Storage} (hslots : s.slots ≠ []) (disk : Volume) :
    s.bringUp disk = s.bringUpPartitions disk := by
  have hpartitioned : s.config.isPartitioned = true := by
    rw [Config.isPartitioned, Bool.not_eq_true', List.isEmpty_eq_false_iff]
    exact fun h => hslots (List.map_eq_nil_iff.1 h)
  rw [bringUp, if_pos hpartitioned]

/-- Initialise a disk and bring up what is configured on it. -/
def initOn (device : Geometry) : Routine (Outcome StorageError Unit × Storage) := do
  match ← Routine.block .init with
  | .error code =>
    Routine.note (.deviceInitFailed code)
    return (.fail (.deviceInit code), s)
  | .ok () =>
    match device.size? with
    | none => return (.overflow .multiply, s)
    | some capacity =>
      Routine.note (.deviceReady capacity)
      match ← bringUp { s with capacity := capacity } (.disk device) with
      | (.ok (), s) =>
        Routine.note .storageUp
        return (.ok (), { s with isUp := true })
      | (ending, s) => return (ending, s)

/-- Bring storage up. -/
def init : Routine (Outcome StorageError Unit × Storage) :=
  if s.isUp then do
    Routine.note .alreadyUp
    return (.ok (), s)
  else
    match s.device with
    | some device => s.initOn device
    | none => do
      Routine.note .noDevice
      return (.fail .noDevice, s)

/-! ## Wiping -/

/-- Format what lives on a disk. -/
def wipeOn (disk : Volume) : Routine (Outcome StorageError Unit) :=
  if s.slots.isEmpty then do
    let formatted ← Routine.reformat .whole disk
    return formatted.mapFail .reformat
  else Slot.wipeAll disk s.slots

/-- Format every configured partition, or the filesystem of the whole disk. The state of bring-up
stays as it is. -/
def wipe : Routine (Outcome StorageError Unit) :=
  match s.device with
  | none => do
    Routine.note .noDeviceToReformat
    return .fail .noDevice
  | some device => do
    match ← s.wipeOn (.disk device) with
    | .ok () =>
      Routine.note .storageReformatted
      return .ok ()
    | .overflow o => return .overflow o
    | .fail err =>
      Routine.note (.storageReformatFailed err)
      return .fail err

end Storage

end DiskBringup
