import DiskBringup.Word

/-!
# Partition specifications

What a configuration asks for: one or two partitions, each a byte range of the device with a
number, a type and a mount point, or none, and then the whole device is one filesystem.
-/

namespace DiskBringup

/-- The number of bytes of a block that hold a partition table. -/
def sectorSize : Nat := 512

/-- The type byte of a Linux filesystem. -/
def linuxKind : UInt8 := 0x83

/-- One partition of a layout, in bytes of the device. -/
structure PartitionSpec where
  /-- the number of its entry in the partition table -/
  number : UInt8
  /-- its first byte -/
  start : UInt64
  /-- its number of bytes -/
  size : UInt64
  /-- its type byte -/
  kind : UInt8
  /-- where its filesystem is mounted -/
  mountPoint : String
  deriving DecidableEq, Repr

namespace PartitionSpec

/-- The first byte past the partition, or the largest word where that byte is none. -/
def stop (s : PartitionSpec) : UInt64 := Word.saturatingAdd s.start s.size

/-- A primary partition of a given size at the start of the device. -/
def primary (size : UInt64) : PartitionSpec := ⟨1, 0, size, linuxKind, "/fs"⟩

/-- A secondary partition of a given size right after another partition. -/
def secondary (after : PartitionSpec) (size : UInt64) : PartitionSpec :=
  ⟨2, after.stop, size, linuxKind, "/fs2"⟩

/-- The mount point without its leading slash, by which the filesystem goes. -/
def mountName (s : PartitionSpec) : String :=
  match s.mountPoint.toList with
  | '/' :: name => String.ofList name
  | _ => s.mountPoint

/-- A byte of the partition, as an exact number. -/
def Holds (s : PartitionSpec) (byte : Nat) : Prop :=
  s.start.toNat ≤ byte ∧ byte < s.start.toNat + s.size.toNat

end PartitionSpec

/-- A storage configuration. -/
structure Config where
  /-- the partitions, in the order in which they are brought up; none for a whole-device
  filesystem -/
  partitions : List PartitionSpec
  /-- write missing partitions into the partition table instead of failing -/
  autoPartition : Bool
  deriving DecidableEq, Repr

namespace Config

/-- The whole device is one filesystem. -/
def single : Config := ⟨[], false⟩

/-- One or two partitions, which are not created where they are missing. -/
def partitioned (primary : PartitionSpec) (secondary : Option PartitionSpec) : Config :=
  ⟨primary :: secondary.toList, false⟩

/-- Whether the device is split into partitions. -/
def isPartitioned (c : Config) : Bool := !c.partitions.isEmpty

/-- The sum of the partition sizes, or the largest word where the sum is larger. -/
def totalSize (c : Config) : UInt64 :=
  c.partitions.foldl (fun total s => Word.saturatingAdd total s.size) 0

/-- The furthest partition end, or 0 without partitions. -/
def furthestStop (c : Config) : UInt64 :=
  c.partitions.foldl (fun furthest s => max furthest s.stop) 0

/-- The number of bytes that a device must have to hold the layout. -/
def requiredCapacity (c : Config) : UInt64 := max c.totalSize c.furthestStop

end Config

end DiskBringup
