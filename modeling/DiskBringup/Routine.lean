import DiskBringup.Block.Volume
import DiskBringup.Note
import DiskBringup.Outcome

/-!
# Routines: programs over a disk and its filesystems

The surroundings of this library are a disk, the filesystems on it and a log. A `Routine` is a
program over them. Filesystems are not values here but names: one for the whole disk and one for
each partition number. A routine asks for a filesystem to be made, mounted, unmounted or formatted,
and hands over the volume that the filesystem is to use; what the filesystem does with the volume
is its own affair. It may overflow on the way, and then nothing goes on.
-/

namespace DiskBringup

/-- Which filesystem is meant. -/
inductive Filesystem where
  /-- the caller's filesystem, for the whole disk -/
  | whole
  /-- the filesystem of a partition -/
  | partition (number : UInt8)
  deriving DecidableEq, Repr

/-- What a routine can ask of its surroundings. -/
inductive Request where
  /-- a request of the disk -/
  | block (request : BlockRequest)
  /-- mount a filesystem on a volume -/
  | mount (fs : Filesystem) (volume : Volume)
  /-- unmount a filesystem -/
  | unmount (fs : Filesystem)
  /-- lay down an empty filesystem on a volume and leave it mounted -/
  | reformat (fs : Filesystem) (volume : Volume)
  /-- make the filesystem of a partition, by a name and for a volume -/
  | create (number : UInt8) (name : String) (volume : Volume)
  /-- write a note to the log -/
  | note (note : Note)

/-- The answer to a request. -/
abbrev Request.Answer : Request → Type
  | block r => r.Answer
  | mount .. | reformat .. => Outcome ErrorCode Unit
  | unmount _ => Except ErrorCode Unit
  | create .. | note _ => Unit

/-- A program over a disk, its filesystems and a log. -/
abbrev Routine (α : Type) : Type := Script Request.Answer α

namespace Routine

variable {α : Type}

/-- Make a request of the disk. -/
def block (r : BlockRequest) : Routine r.Answer := Script.request (Request.block r)

/-- Make a request of a volume. -/
def onVolume (v : Volume) (r : BlockRequest) : Routine r.Answer := (v.request r).expand block

/-- Write a note to the log. -/
def note (n : Note) : Routine Unit := Script.request (Request.note n)

/-- Write notes to the log, in order. -/
def notes : List Note → Routine Unit
  | [] => return ()
  | n :: rest => do
    note n
    notes rest

/-- Take a value and write its notes to the log. -/
def ofNoted (x : Noted α) : Routine α := do
  notes x.notes
  return x.value

/-- Mount a filesystem on a volume. -/
def mount (fs : Filesystem) (v : Volume) : Routine (Outcome ErrorCode Unit) :=
  Script.request (Request.mount fs v)

/-- Unmount a filesystem. -/
def unmount (fs : Filesystem) : Routine (Except ErrorCode Unit) :=
  Script.request (Request.unmount fs)

/-- Lay down an empty filesystem on a volume. -/
def reformat (fs : Filesystem) (v : Volume) : Routine (Outcome ErrorCode Unit) :=
  Script.request (Request.reformat fs v)

/-- Make the filesystem of a partition. -/
def create (number : UInt8) (name : String) (v : Volume) : Routine Unit :=
  Script.request (Request.create number name v)

end Routine

end DiskBringup
