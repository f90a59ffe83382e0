import DiskBringup.Bench.Fault
import DiskBringup.Bench.FilesystemDriver
import DiskBringup.Bench.Store
import DiskBringup.Routine

/-!
# The bench: simulated surroundings

A `Bench` is a simulated disk with filesystems, injected faults, a trace of events and a log, and
answers every request that a routine can make. Each call asks the faults first; a call that a fault
hits does nothing else. An event is recorded when its call returns, so the block calls inside a
filesystem call come before it, and a call that overflows leaves none. A filesystem that is made
for a partition tries to mount at once, and whether that succeeded is not told.
-/

namespace DiskBringup

/-- Simulated surroundings: a disk held by a `δ` and filesystems with states in `φ`. -/
structure Bench (δ φ : Type) where
  /-- what holds the blocks of the disk -/
  store : δ
  /-- whether the disk is initialised -/
  isInitialized : Bool
  /-- the injected faults, in the order in which they were added -/
  faults : List Fault
  /-- what has happened, oldest first -/
  events : List Event
  /-- the log, oldest first -/
  notes : List Note
  /-- the names of the filesystems -/
  name : Filesystem → String
  /-- the states of the filesystems -/
  state : Filesystem → φ

namespace Bench

variable {δ φ α : Type}

/-- A bench with a disk that was never initialised and no faults. -/
def new [FilesystemDriver φ] (store : δ) : Bench δ φ where
  store := store
  isInitialized := false
  faults := []
  events := []
  notes := []
  name _ := "main"
  state _ := FilesystemDriver.blank

/-- Record an event. -/
def record (w : Bench δ φ) (e : Event) : Bench δ φ := { w with events := w.events ++ [e] }

/-- Set the state of a filesystem. -/
def setState (w : Bench δ φ) (fs : Filesystem) (s : φ) : Bench δ φ :=
  { w with state := fun other => if other = fs then s else w.state other }

/-- Set the name of a filesystem. -/
def setName (w : Bench δ φ) (fs : Filesystem) (name : String) : Bench δ φ :=
  { w with name := fun other => if other = fs then name else w.name other }

/-- Ask the faults whether a call is to fail. -/
def consult (w : Bench δ φ) (c : Call) : Option ErrorCode × Bench δ φ :=
  let (hit, faults) := Fault.consult c w.faults
  (hit, { w with faults := faults })

/-- Record that a call returned. A call that overflows does not return. -/
def conclude (w : Bench δ φ) (c : Call) : Outcome ErrorCode α → Bench δ φ
  | .ok _ => w.record (.returned c none)
  | .fail code => w.record (.returned c (some code))
  | .overflow _ => w

/-- Make a call that cannot overflow: ask the faults, then act unless one hits, and record the
result. -/
def perform (c : Call) (act : Bench δ φ → Except ErrorCode α × Bench δ φ) (w : Bench δ φ) :
    Except ErrorCode α × Bench δ φ :=
  match w.consult c with
  | (some code, w) => (.error code, w.record (.returned c (some code)))
  | (none, w) =>
    let (answer, w) := act w
    (answer, w.conclude c (.ofExcept answer))

/-! ## The disk -/

/-- Answer a request from the store. -/
def serve [BlockStore δ] (r : BlockRequest) (w : Bench δ φ) : r.Answer × Bench δ φ :=
  let (answer, store) := BlockStore.answer r w.store
  (answer, { w with store := store })

/-- Answer a request of the disk. -/
def block [BlockStore δ] : (r : BlockRequest) → Bench δ φ → r.Answer × Bench δ φ
  | .init => perform .init fun w => (.ok (), { w with isInitialized := true })
  | .deinit => perform .deinit fun w => (.ok (), { w with isInitialized := false })
  | .read block length => perform (.read block) (serve (.read block length))
  | .write block data => perform (.write block) (serve (.write block data))

/-- Run a program over a volume of the disk. -/
def runOn [BlockStore δ] (v : Volume) (p : BlockScript α) (w : Bench δ φ) : α × Bench δ φ :=
  (v.relay p).run block w

/-! ## The filesystems -/

/-- Make a call of a filesystem: ask the faults, then run a program of its driver on a volume unless
one hits, and record the result. -/
def drive [BlockStore δ] (c : Call) (fs : Filesystem) (v : Volume)
    (p : φ → Geometry → BlockScript (Outcome ErrorCode Unit × φ)) (w : Bench δ φ) :
    Outcome ErrorCode Unit × Bench δ φ :=
  match w.consult c with
  | (some code, w) => (.fail code, w.record (.returned c (some code)))
  | (none, w) =>
    let ((answer, state), w) := w.runOn v (p (w.state fs) v.geometry)
    (answer, (w.setState fs state).conclude c answer)

variable [BlockStore δ] [FilesystemDriver φ]

/-- Mount a filesystem on a volume. -/
def mount (fs : Filesystem) (v : Volume) (w : Bench δ φ) : Outcome ErrorCode Unit × Bench δ φ :=
  w.drive (.mount (w.name fs)) fs v FilesystemDriver.mount

omit [BlockStore δ] in
/-- Unmount a filesystem. -/
def unmount (fs : Filesystem) (w : Bench δ φ) : Except ErrorCode Unit × Bench δ φ :=
  w.perform (.unmount (w.name fs)) fun w =>
    let (answer, state) := FilesystemDriver.unmount (w.state fs)
    (answer, w.setState fs state)

/-- Format a filesystem on a volume. -/
def reformat (fs : Filesystem) (v : Volume) (w : Bench δ φ) : Outcome ErrorCode Unit × Bench δ φ :=
  w.drive (.reformat (w.name fs)) fs v FilesystemDriver.reformat

/-- Make the filesystem of a partition, which tries to mount at once. -/
def create (number : UInt8) (name : String) (v : Volume) (w : Bench δ φ) : Bench δ φ :=
  let fs := Filesystem.partition number
  let made := ((w.record (.created name v.geometry)).setName fs name).setState fs
    FilesystemDriver.blank
  (made.mount fs v).2

/-! ## Routines -/

/-- Answer a request of a routine. -/
def answer : (r : Request) → Bench δ φ → r.Answer × Bench δ φ
  | .block r => block r
  | .mount fs v => mount fs v
  | .unmount fs => unmount fs
  | .reformat fs v => reformat fs v
  | .create number name v => fun w => ((), w.create number name v)
  | .note n => fun w => ((), { w with notes := w.notes ++ [n] })

/-- Run a routine on the bench. -/
def run (t : Routine α) (w : Bench δ φ) : α × Bench δ φ := Script.run answer t w

/-- The disk as a volume. -/
def disk (w : Bench δ φ) : Volume := .disk (BlockStore.geometry w.store)

end Bench

end DiskBringup
