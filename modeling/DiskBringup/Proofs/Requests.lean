import DiskBringup.Storage.Slot

/-!
# What routines can request

Which requests a routine can make, whatever it is answered. Locating a partition is `Passive`: it
reads, and takes notes. Writing an entry to the table of a disk writes to block 0 besides
(`only_writeEntry`). Mounting and formatting calls one filesystem, and hands it one volume
(`Request.Calls`).
-/

namespace DiskBringup

/-! ## Requests that change nothing -/

/-- The request changes no block. -/
def BlockRequest.Passive : BlockRequest → Prop
  | init | deinit | read .. => True
  | write .. => False

/-- The request changes no block, and is none of a filesystem. -/
def Request.Passive : Request → Prop
  | block r => r.Passive
  | note _ => True
  | mount .. | unmount _ | reformat .. | create .. => False

/-- A volume asks its disk to change a block only if it is asked to. -/
theorem Volume.only_request (v : Volume) {r : BlockRequest} (hr : r.Passive) :
    (v.request r).Only BlockRequest.Passive := by
  induction v generalizing r with
  | disk g => exact Script.only_request hr
  | window base window ih =>
    cases r with
    | init => trivial
    | deinit => trivial
    | read block length =>
      rw [request]
      split
      · exact ih trivial
      · trivial
    | write block data => cases hr

namespace Routine

variable {α : Type}

theorem only_notes (notes : List Note) : (Routine.notes notes).Only Request.Passive := by
  induction notes with
  | nil => trivial
  | cons n rest ih => exact ⟨trivial, fun _ => ih⟩

theorem only_ofNoted (x : Noted α) : (ofNoted x).Only Request.Passive :=
  (only_notes x.notes).bind fun _ => trivial

theorem only_onVolume (v : Volume) {r : BlockRequest} (hr : r.Passive) :
    (onVolume v r).Only Request.Passive :=
  (v.only_request hr).expand fun _ h => Script.only_request h

end Routine

namespace Table

theorem only_readFirst (v : Volume) : (readFirst v).Only Request.Passive := by
  rw [readFirst]
  split
  · trivial
  · refine (Routine.only_onVolume v (r := .read 0 v.blockSize.toNat) trivial).bind ?_
    rintro (code | block)
    · exact Script.Only.bind (Script.only_request trivial) fun _ => trivial
    · trivial

theorem only_read (v : Volume) : (read v).Only Request.Passive := by
  rw [read]
  split
  · exact (only_readFirst v).bind fun _ => trivial
  · trivial

end Table

/-- Locating a partition changes nothing. -/
theorem only_locate (v : Volume) (number : UInt8) : (locate v number).Only Request.Passive := by
  refine (Table.only_read v).bind ?_
  rintro (table | err | o)
  · refine (Routine.only_ofNoted _).bind ?_
    rintro (err | entry)
    · trivial
    · exact Routine.only_ofNoted _
  · trivial
  · trivial

/-! ## Requests for an entry -/

/-- The request changes no block but block 0, and is none of a filesystem. -/
def Request.OfTable : Request → Prop
  | block (.write b _) => b = 0
  | block .init | block .deinit | block (.read ..) | note _ => True
  | mount .. | unmount _ | reformat .. | create .. => False

theorem Request.Passive.ofTable {req : Request} (h : req.Passive) : req.OfTable := by
  match req, h with
  | .block .init, _ => trivial
  | .block .deinit, _ => trivial
  | .block (.read ..), _ => trivial
  | .note _, _ => trivial

namespace Table

variable {g : Geometry}

theorem only_writeFirst (block : Buffer (Volume.disk g).blockSize.toNat) :
    (writeFirst (.disk g) block).Only Request.OfTable := by
  have hwrite : (Routine.onVolume (.disk g) (.write 0 block)).Only Request.OfTable :=
    Script.only_request rfl
  refine hwrite.bind ?_
  rintro (code | u)
  · exact Script.Only.bind (Script.only_request trivial) fun _ => trivial
  · trivial

theorem only_write (t : Table) : (t.write (.disk g)).Only Request.OfTable := by
  rw [write]
  split
  · refine ((only_readFirst _).mono fun _ => Request.Passive.ofTable).bind ?_
    rintro (block | err | o)
    · exact only_writeFirst _
    · trivial
    · trivial
  · trivial

theorem only_commitEntry (t : Table) (number kind : UInt8) (extent : Extent) :
    (t.commitEntry (.disk g) number kind extent).Only Request.OfTable := by
  refine ((Routine.only_ofNoted _).mono fun _ => Request.Passive.ofTable).bind ?_
  rintro (edited | err | o)
  · exact edited.only_write
  · trivial
  · trivial

end Table

/-- Writing an entry to the table of a disk changes no block but block 0. -/
theorem only_writeEntry (g : Geometry) (number kind : UInt8) (extent : Extent) :
    (writeEntry (.disk g) number kind extent).Only Request.OfTable := by
  have hbefore : ∀ bound,
      (writeEntryBefore (.disk g) number kind extent bound).Only Request.OfTable := by
    intro bound
    refine ((Table.only_read _).mono fun _ => Request.Passive.ofTable).bind ?_
    rintro (found | err | o)
    · refine ((Routine.only_ofNoted _).mono fun _ => Request.Passive.ofTable).bind ?_
      rintro (err | table)
      · trivial
      · refine (table.only_commitEntry number kind extent).bind ?_
        rintro (u | err | o)
        · exact Script.Only.bind (Script.only_request trivial) fun _ => trivial
        · trivial
        · trivial
    · trivial
    · trivial
  rw [writeEntry]
  split
  · trivial
  · split
    · trivial
    · split
      · trivial
      · exact hbefore _

/-! ## Requests of one filesystem -/

/-- The request is a call of the filesystem, with no volume but the given one, or a note. -/
def Request.Calls (fs : Filesystem) (v : Volume) : Request → Prop
  | mount other volume | reformat other volume => other = fs ∧ volume = v
  | unmount other => other = fs
  | note _ => True
  | block _ | create .. => False

namespace Filesystem

variable (fs : Filesystem) (v : Volume)

theorem only_format : (fs.format v).Only (Request.Calls fs v) := by
  refine Script.Only.bind (Script.only_request trivial) fun _ => ?_
  refine Script.Only.bind (Script.only_request ⟨rfl, rfl⟩) ?_
  rintro (u | code | o)
  · trivial
  · exact Script.Only.bind (Script.only_request trivial) fun _ => trivial
  · trivial

theorem only_probe : (fs.probe v).Only (Request.Calls fs v) := by
  refine Script.Only.bind (Script.only_request rfl) ?_
  rintro (code | u)
  · exact Script.Only.bind (Script.only_request trivial) fun _ => trivial
  · refine Script.Only.bind (Script.only_request ⟨rfl, rfl⟩) ?_
    rintro (u | code | o)
    · trivial
    · exact Script.Only.bind (Script.only_request trivial) fun _ => trivial
    · trivial

theorem only_probeOrFormat (announcement : Note) :
    (fs.probeOrFormat v announcement).Only (Request.Calls fs v) := by
  refine (fs.only_probe v).bind ?_
  rintro (u | err | o)
  · trivial
  · exact Script.Only.bind (Script.only_request trivial) fun _ => fs.only_format v
  · trivial

end Filesystem

end DiskBringup
