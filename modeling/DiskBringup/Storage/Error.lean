import DiskBringup.ErrorCode
import DiskBringup.Layout.Error

/-!
# Refusals of bring-up

Why storage could not be brought up or wiped. `status` is the integer that such a failure is
reported as: the code of the driver that failed, where one was passed on.
-/

namespace DiskBringup

/-- Why storage could not be brought up or wiped. -/
inductive StorageError where
  /-- there is no block device -/
  | noDevice
  /-- the block device failed to initialise -/
  | deviceInit (code : ErrorCode)
  /-- a partition could not be located -/
  | partitionInit (number : UInt8) (code : ErrorCode)
  /-- an entry of the partition table could not be written -/
  | partitionCreate (number : UInt8) (code : ErrorCode)
  /-- a partition has no filesystem yet -/
  | notMounted (number : UInt8)
  /-- a filesystem did not survive being unmounted and mounted again -/
  | probe
  /-- a filesystem driver failed to format -/
  | reformat (code : ErrorCode)
  /-- nothing builds filesystems for partitions -/
  | noFileSystemFactory
  /-- the configured layout cannot be realised -/
  | invalidLayout (error : LayoutError)
  deriving DecidableEq, Repr

namespace StorageError

/-- The reason in words. -/
def message : StorageError → String
  | noDevice => "no block device"
  | deviceInit code => s!"block device init failed: {code.message}"
  | partitionInit number code => s!"init of partition {number} failed: {code.message}"
  | partitionCreate number code => s!"creating partition {number} failed: {code.message}"
  | notMounted number => s!"partition {number} is not mounted"
  | probe => "filesystem probe failed"
  | reformat code => s!"reformat failed: {code.message}"
  | noFileSystemFactory => "no filesystem factory for partition mode"
  | invalidLayout error => s!"invalid partition layout: {error.message}"

/-- The driver's code where one was passed on, and -1 otherwise. -/
def status : StorageError → Int32
  | partitionInit _ code | partitionCreate _ code | reformat code => code.value
  | noDevice | deviceInit _ | notMounted _ | probe | noFileSystemFactory | invalidLayout _ => -1

/-- The text of the error that lies behind this one. -/
def source : StorageError → Option String
  | invalidLayout error => some error.message
  | noDevice | deviceInit _ | partitionInit .. | partitionCreate .. | notMounted _ | probe
  | reformat _ | noFileSystemFactory => none

end StorageError

end DiskBringup
