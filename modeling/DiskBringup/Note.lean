import DiskBringup.Storage.Error
import DiskBringup.Table.Entry
import DiskBringup.Table.Error
import DiskBringup.BootArgs.Error

/-!
# Notes: what the library reports as it works

Every message of the log is a `Note`, a value that says what happened. Its level and its wording
are functions of it, so that "a failure is reported by a warning" is a statement about values.
Pure computations that report carry their notes beside their value: `Noted` is a value with the
notes made on the way to it.
-/

namespace DiskBringup

/-- How much a note matters. -/
inductive Level where
  /-- detail for whoever looks for a fault -/
  | debug
  /-- the normal course of things -/
  | info
  /-- something failed, or looks wrong -/
  | warn
  deriving DecidableEq, Repr

/-- The level as it stands in the log. -/
def Level.name : Level → String
  | debug => "DEBUG"
  | info => "INFO"
  | warn => "WARN"

/-- Something worth reporting. -/
inductive Note where
  /-- a boot argument is none of the known ones -/
  | unknownArgument (text : String)
  /-- the place of the primary partition is about to be read -/
  | readingPrimary (text : String)
  /-- the place of the secondary partition is about to be read -/
  | readingSecondary (text : String)
  /-- a layout gives a partition its blocks -/
  | placed (number : UInt8) (extent : Extent)
  /-- a protective entry stands beside other used entries -/
  | hybridTable (number : UInt8) (others : Nat)
  /-- block 0 could not be read -/
  | tableReadFailed (code : ErrorCode)
  /-- block 0 could not be written -/
  | tableWriteFailed (code : ErrorCode)
  /-- an entry would take blocks of another -/
  | entryOverlap (number other : UInt8)
  /-- a byte range does not fit its device -/
  | rangeMisfit (number : UInt8) (start stop blocks : UInt64)
  /-- a device without a table gets a fresh one -/
  | freshTable
  /-- a protective table is not written over -/
  | protectedTable
  /-- an entry was written -/
  | entryWritten (number kind : UInt8) (first last : UInt64)
  /-- an entry ends past its device -/
  | entryPastEnd (number : UInt8) (bound : Nat) (blocks : UInt64)
  /-- a partition was located through its entry -/
  | partitionLocated (number : UInt8) (entry : Entry)
  /-- a configuration is refused -/
  | configRefused (error : LayoutError)
  /-- storage is up already -/
  | alreadyUp
  /-- bring-up without a block device -/
  | noDevice
  /-- the block device failed to initialise -/
  | deviceInitFailed (code : ErrorCode)
  /-- the block device is initialised -/
  | deviceReady (capacity : UInt64)
  /-- bring-up is complete -/
  | storageUp
  /-- the filesystem of the whole device is formatted -/
  | formattingStorage
  /-- the filesystem of a partition is formatted -/
  | formattingPartition (number : UInt8)
  /-- a partition could not be brought up -/
  | partitionDown (number : UInt8) (error : StorageError)
  /-- a partition could not be brought up, so the layout is written -/
  | partitionMissing (number : UInt8) (error : StorageError)
  /-- a partition could not be located -/
  | partitionInitFailed (number : UInt8) (code : ErrorCode)
  /-- a filesystem would not be unmounted -/
  | probeUnmountFailed (code : ErrorCode)
  /-- a filesystem would not be mounted -/
  | probeMountFailed (code : ErrorCode)
  /-- a filesystem is asked to format -/
  | reformatting
  /-- a filesystem failed to format -/
  | reformatFailed (code : ErrorCode)
  /-- the configured layout cannot be written to the device -/
  | layoutRefused (error : LayoutError)
  /-- the entry of a partition is about to be written -/
  | creatingPartition (number : UInt8)
  /-- the entry of a partition could not be written -/
  | creatingFailed (number : UInt8) (error : TableError)
  /-- wiping without a block device -/
  | noDeviceToReformat
  /-- a partition to be wiped has no filesystem -/
  | neverBroughtUp (number : UInt8)
  /-- a partition to be wiped has no blocks -/
  | notInitialised (number : UInt8)
  /-- a partition could not be wiped -/
  | formattingFailed (number : UInt8)
  /-- storage is wiped -/
  | storageReformatted
  /-- storage could not be wiped -/
  | storageReformatFailed (error : StorageError)
  deriving DecidableEq, Repr

namespace Note

/-- How much the note matters. -/
def level : Note → Level
  | placed .. | partitionLocated .. | deviceReady _ | reformatting => .debug
  | readingPrimary _ | readingSecondary _ | freshTable | entryWritten .. | alreadyUp | storageUp
  | formattingStorage | formattingPartition _ | partitionMissing .. | creatingPartition _
  | storageReformatted => .info
  | unknownArgument _ | hybridTable .. | tableReadFailed _ | tableWriteFailed _ | entryOverlap ..
  | rangeMisfit .. | protectedTable | entryPastEnd .. | configRefused _ | noDevice
  | deviceInitFailed _ | partitionDown .. | partitionInitFailed .. | probeUnmountFailed _
  | probeMountFailed _ | reformatFailed _ | layoutRefused _ | creatingFailed ..
  | noDeviceToReformat | neverBroughtUp _ | notInitialised _ | formattingFailed _
  | storageReformatFailed _ => .warn

/-- The note in words. -/
def text : Note → String
  | unknownArgument text => s!"Unknown storage argument: {text}"
  | readingPrimary text => s!"Parsing primary partition: {text}"
  | readingSecondary text => s!"Parsing secondary partition: {text}"
  | placed number extent => s!"Partition {number} laid out at {extent.describe}"
  | hybridTable number others => s!"Hybrid MBR: protective entry {number} beside {others} others"
  | tableReadFailed code => s!"Failed to read MBR: {code.message}"
  | tableWriteFailed code => s!"Failed to write MBR: {code.message}"
  | entryOverlap number other => s!"Partition {number} would overlap entry {other}"
  | rangeMisfit number start stop blocks =>
    s!"Partition {number} range {Hex.lower start.toNat}..{Hex.lower stop.toNat}" ++
      s!" does not fit {blocks} blocks"
  | freshTable => "No MBR found, starting a fresh partition table"
  | protectedTable => "Refusing to write MBR entry over a GPT disk"
  | entryWritten number kind first last =>
    s!"Created partition {number} (type {Hex.byte kind}, LBA {first}-{last})"
  | entryPastEnd number bound blocks =>
    s!"Partition {number} ends at LBA {bound} past device end {blocks}"
  | partitionLocated number entry => s!"Partition {number} initialised: {entry.describe}"
  | configRefused error => s!"Invalid storage configuration: {error.message}"
  | alreadyUp => "Storage init already done"
  | noDevice => "Storage init without a block device"
  | deviceInitFailed code => s!"Block device init failed with {code.message}"
  | deviceReady capacity => s!"Block device ready, {capacity} bytes"
  | storageUp => "Storage init done"
  | formattingStorage => "Formatting storage ..."
  | formattingPartition number => s!"Formatting partition {number} ..."
  | partitionDown number error => s!"Partition {number} init failed: {error.message}"
  | partitionMissing number error =>
    s!"Partition {number} unavailable ({error.message}), creating partitions"
  | partitionInitFailed number code => s!"Init of partition {number} failed: {code.message}"
  | probeUnmountFailed code => s!"Filesystem probe: unmount failed with {code.message}"
  | probeMountFailed code => s!"Filesystem probe: mount failed with {code.message}"
  | reformatting => "Reformatting filesystem"
  | reformatFailed code => s!"Reformat failed with {code.message}"
  | layoutRefused error => s!"Cannot create partitions: {error.message}"
  | creatingPartition number => s!"Creating partition {number} ..."
  | creatingFailed number error => s!"Creating partition {number} failed: {error.message}"
  | noDeviceToReformat => "Cannot reformat storage without a block device"
  | neverBroughtUp number => s!"Partition {number} was never brought up"
  | notInitialised number => s!"Partition {number} is not initialised"
  | formattingFailed number => s!"Formatting partition {number} failed"
  | storageReformatted => "Storage reformatted"
  | storageReformatFailed error => s!"Storage reformat failed: {error.message}"

end Note

/-! ## Values with notes -/

/-- A value and the notes made on the way to it, in order. -/
structure Noted (α : Type) where
  /-- the value -/
  value : α
  /-- the notes, oldest first -/
  notes : List Note

namespace Noted

variable {α β : Type}

instance : Monad Noted where
  pure a := ⟨a, []⟩
  bind x f := ⟨(f x.value).value, x.notes ++ (f x.value).notes⟩

/-- Make one note. -/
def note (n : Note) : Noted Unit := ⟨(), [n]⟩

@[simp] theorem value_pure (a : α) : (pure a : Noted α).value = a := rfl

@[simp] theorem notes_pure (a : α) : (pure a : Noted α).notes = [] := rfl

@[simp] theorem value_bind (x : Noted α) (f : α → Noted β) :
    (x >>= f).value = (f x.value).value := rfl

@[simp] theorem notes_bind (x : Noted α) (f : α → Noted β) :
    (x >>= f).notes = x.notes ++ (f x.value).notes := rfl

@[simp] theorem value_note (n : Note) : (note n).value = () := rfl

@[simp] theorem notes_note (n : Note) : (note n).notes = [n] := rfl

theorem ext {x y : Noted α} (hv : x.value = y.value) (hn : x.notes = y.notes) : x = y := by
  cases x
  cases y
  cases hv
  cases hn
  rfl

instance : LawfulMonad Noted :=
  LawfulMonad.mk' Noted (fun _ => ext rfl (by simp [Functor.map]))
    (fun _ _ => ext rfl (by simp)) (fun _ _ _ => ext rfl (by simp))

@[simp] theorem value_map (f : α → β) (x : Noted α) : (f <$> x).value = f x.value := rfl

end Noted

end DiskBringup
