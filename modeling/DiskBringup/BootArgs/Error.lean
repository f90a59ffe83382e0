import DiskBringup.Layout.Error

/-!
# Refusals of a command line

Why boot arguments do not describe a configuration. Each reason carries the text at fault.
-/

namespace DiskBringup

/-- Why boot arguments do not describe a configuration. -/
inductive ConfigError where
  /-- a size or an offset is not a number of bytes -/
  | invalidSize (text : String)
  /-- a switch is neither on nor off -/
  | invalidBool (text : String)
  /-- a partition type is no nonzero byte -/
  | invalidType (text : String)
  /-- a mount point is no absolute path with a name -/
  | invalidMountPoint (text : String)
  /-- an argument speaks of a partition that has no size -/
  | missingPartition (key : String)
  /-- the arguments describe a layout that no device can hold -/
  | layout (error : LayoutError)
  deriving DecidableEq, Repr

/-- The reason in words. -/
def ConfigError.message : ConfigError → String
  | invalidSize text => s!"invalid size `{text}`"
  | invalidBool text => s!"invalid boolean `{text}`"
  | invalidType text => s!"invalid partition type `{text}`"
  | invalidMountPoint text => s!"mount point `{text}` must start with '/'"
  | missingPartition key => s!"`{key}` set before its partition size"
  | layout error => error.message

end DiskBringup
