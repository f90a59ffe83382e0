import DiskBringup.Routine

/-!
# Mounting a filesystem, or formatting it

Whether a filesystem is sound is judged by a probe: it is unmounted and mounted again. A
filesystem that does not survive that is formatted, and the formatting driver's word is final.
-/

namespace DiskBringup.Filesystem

/-- Lay down an empty filesystem. -/
def format (fs : Filesystem) (v : Volume) : Routine (Outcome StorageError Unit) := do
  Routine.note .reformatting
  match ← Routine.reformat fs v with
  | .ok () => return .ok ()
  | .overflow o => return .overflow o
  | .fail code =>
    Routine.note (.reformatFailed code)
    return .fail (.reformat code)

/-- Unmount a filesystem and mount it again. -/
def probe (fs : Filesystem) (v : Volume) : Routine (Outcome StorageError Unit) := do
  match ← Routine.unmount fs with
  | .error code =>
    Routine.note (.probeUnmountFailed code)
    return .fail .probe
  | .ok () =>
    match ← Routine.mount fs v with
    | .ok () => return .ok ()
    | .overflow o => return .overflow o
    | .fail code =>
      Routine.note (.probeMountFailed code)
      return .fail .probe

/-- Probe a filesystem, and format it if it fails; `announcement` is noted before that. -/
def probeOrFormat (fs : Filesystem) (v : Volume) (announcement : Note) :
    Routine (Outcome StorageError Unit) := do
  match ← fs.probe v with
  | .ok () => return .ok ()
  | .overflow o => return .overflow o
  | .fail _ =>
    Routine.note announcement
    fs.format v

end DiskBringup.Filesystem
