import DiskBringup.Layout.Error
import DiskBringup.Layout.Spec

/-!
# Checking a configuration

What a configuration has to satisfy on every device: at most two partitions, numbers from 1 to 4,
sizes that are not zero, and neither a number nor a byte that two partitions share. Partitions are
checked in order, each against those before it, and the first failure is the answer.
-/

namespace DiskBringup

/-- The largest number of partitions of a configuration. -/
def maxPartitions : Nat := 2

namespace PartitionSpec

/-- Each byte range starts before the other ends. -/
def overlaps (a b : PartitionSpec) : Bool := a.start < b.stop && b.start < a.stop

/-- Check a partition by itself. -/
def check (s : PartitionSpec) : Except LayoutError Unit :=
  if s.number = 0 ∨ 4 < s.number then .error (.invalidNumber s.number)
  else if s.size = 0 then .error (.emptyPartition s.number)
  else .ok ()

/-- Check a partition against another that comes before it. -/
def checkBeside (s earlier : PartitionSpec) : Except LayoutError Unit :=
  if earlier.number = s.number then .error (.duplicateNumber s.number)
  else if s.overlaps earlier then .error (.overlap earlier.number s.number)
  else .ok ()

/-- Check a partition against all that come before it. -/
def checkAfter (s : PartitionSpec) : List PartitionSpec → Except LayoutError Unit
  | [] => .ok ()
  | e :: rest =>
    match s.checkBeside e with
    | .error err => .error err
    | .ok () => s.checkAfter rest

end PartitionSpec

namespace Config

/-- Check the partitions of a list in order, after those of `earlier`. -/
def checkFrom (earlier : List PartitionSpec) : List PartitionSpec → Except LayoutError Unit
  | [] => .ok ()
  | s :: rest =>
    match s.check with
    | .error err => .error err
    | .ok () =>
      match s.checkAfter earlier with
      | .error err => .error err
      | .ok () => checkFrom (earlier ++ [s]) rest

/-- Check everything about a configuration that does not depend on the device. -/
def validate (c : Config) : Except LayoutError Unit :=
  if maxPartitions < c.partitions.length then .error (.tooManyPartitions c.partitions.length)
  else checkFrom [] c.partitions

end Config

end DiskBringup
