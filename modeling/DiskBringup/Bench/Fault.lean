import DiskBringup.Block.Request

/-!
# Calls, events and injected faults

Every call that reaches the simulated disk or a filesystem is a `Call`, and leaves an `Event` with
its result. A `Fault` is an order to make calls of some kind fail. Faults are consulted in the
order in which they were added: a fault that matches counts down the calls it is to skip, and once
there are none left it makes the call fail, as often as it is told to.
-/

namespace DiskBringup

/-- The kind of a call. -/
inductive CallKind where
  | init
  | deinit
  | read
  | write
  | mount
  | unmount
  | reformat
  deriving DecidableEq, Repr

/-- A call of the disk, with the block, or of a filesystem, with its name. -/
inductive Call where
  | init
  | deinit
  | read (block : UInt64)
  | write (block : UInt64)
  | mount (name : String)
  | unmount (name : String)
  | reformat (name : String)
  deriving DecidableEq, Repr

namespace Call

/-- What is called, whatever the block or the filesystem. -/
def kind : Call → CallKind
  | init => .init
  | deinit => .deinit
  | read _ => .read
  | write _ => .write
  | mount _ => .mount
  | unmount _ => .unmount
  | reformat _ => .reformat

/-- The block that is read or written. -/
def block? : Call → Option UInt64
  | read block | write block => some block
  | init | deinit | mount _ | unmount _ | reformat _ => none

/-- The name of the filesystem that is called. -/
def name? : Call → Option String
  | mount name | unmount name | reformat name => some name
  | init | deinit | read _ | write _ => none

/-- The call as it stands in a trace, the result left out. -/
def text : Call → String
  | init => "dev init"
  | deinit => "dev deinit"
  | read block => s!"dev read {block}"
  | write block => s!"dev write {block}"
  | mount name => s!"fs {name} mount"
  | unmount name => s!"fs {name} unmount"
  | reformat name => s!"fs {name} reformat"

end Call

/-- Something that happened on the bench. -/
inductive Event where
  /-- a call returned, with a code if it failed -/
  | returned (call : Call) (failure : Option ErrorCode)
  /-- a filesystem was made for a volume of a given shape -/
  | created (name : String) (geometry : Geometry)
  deriving DecidableEq, Repr

/-- The event as it stands in a trace. -/
def Event.text : Event → String
  | returned call none => s!"{call.text} ok"
  | returned call (some code) => s!"{call.text} {code.value.toInt}"
  | created name geometry =>
    s!"factory {name} blocks={geometry.numBlocks}" ++
      s!" size={geometry.numBlocks.toNat * geometry.blockSize.toNat}"

/-- An order to make calls fail. -/
structure Fault where
  /-- the kind of call that fails -/
  kind : CallKind
  /-- the code that the call fails with -/
  code : ErrorCode
  /-- the number of matching calls to let pass first -/
  skip : Nat
  /-- how many calls are to fail; all of them where no number is given -/
  times : Option Nat
  /-- the only block whose calls match -/
  block : Option UInt64
  /-- the only filesystem whose calls match -/
  filesystem : Option String
  deriving DecidableEq, Repr

namespace Fault

/-- The fault speaks of calls like this one. -/
def appliesTo (f : Fault) (c : Call) : Bool :=
  f.kind == c.kind && (f.block.isNone || f.block == c.block?) &&
    (f.filesystem.isNone || f.filesystem == c.name?)

/-- Ask faults in order whether a call is to fail, and count the call. -/
def consult (c : Call) : List Fault → Option ErrorCode × List Fault
  | [] => (none, [])
  | f :: rest =>
    let pass (f : Fault) :=
      let (code, rest) := consult c rest
      (code, f :: rest)
    if f.appliesTo c then
      match f.skip, f.times with
      | skip + 1, _ => pass { f with skip := skip }
      | 0, none => (some f.code, f :: rest)
      | 0, some 0 => pass f
      | 0, some (times + 1) => (some f.code, { f with times := some times } :: rest)
    else pass f

end Fault

end DiskBringup
