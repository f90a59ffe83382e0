import DiskBringup.Proofs.Sessions
import DiskBringup.Proofs.TableFailures

/-!
# Which call a failure names

A failure of storage says which call was the last one before it, and how that call ended. A visit
or a creation that fails leaves this behind as `StorageError.Follows`, and the steps before it,
which have succeeded, do not change it (`leads_inOrder`): the only failure without a call of its own
is that of blocks that are too small for a table, and no step succeeds on these. For a whole call of
storage this comes to `StorageError.Blames`, which has the status of the failure as well, and it
holds whatever the requests of the call are answered (`Storage.blames_call`).
-/

namespace DiskBringup

open Routine (Log reports)
open Script (ends_pure ends_request_bind)

variable {g : Geometry}

/-! ## Filesystems -/

/-- Formatting fails with the code of the call that it ends with. -/
def FormatFails (calls : List Report) (r : Outcome StorageError Unit) : Prop :=
  ∀ err, r = .fail err → ∃ code, err = .reformat code ∧
    calls.getLast? = some (.returned .reformat none (some code))

theorem FormatFails.after {calls : List Report} {r : Outcome StorageError Unit}
    (h : FormatFails calls r) (before : List Report) : FormatFails (before ++ calls) r := by
  intro err herr
  obtain ⟨code, rfl, hlast⟩ := h err herr
  exact ⟨code, rfl, Report.getLast?_after hlast before⟩

theorem formatFails_ok (calls : List Report) : FormatFails calls (.ok ()) := nofun

theorem formatFails_overflow (calls : List Report) (o : Overflow) :
    FormatFails calls (.overflow o) := nofun

namespace Filesystem

variable (fs : Filesystem) (u : Volume)

theorem formatFails_format : (fs.format u).Ends fun log r => FormatFails (reports log) r ∧
    (r = .ok () → reports log = [.returned .reformat none none]) := by
  refine ends_request_bind fun _ => ends_request_bind ?_
  rintro (_ | code | o)
  · exact ends_pure ⟨formatFails_ok _, fun _ => rfl⟩
  · refine ends_request_bind fun _ => ends_pure ⟨?_, by simp⟩
    rintro _ ⟨⟩
    exact ⟨code, rfl, rfl⟩
  · exact ends_pure ⟨formatFails_overflow _ o, by simp⟩

theorem formatFails_probeOrFormat (announcement : Note) :
    (fs.probeOrFormat u announcement).Ends fun log r => FormatFails (reports log) r := by
  refine (Script.only_true (fs.probe u)).ends.bind ?_
  rintro log (_ | err | o) -
  · exact ends_pure (formatFails_ok _)
  · refine ends_request_bind fun _ => (fs.formatFails_format u).imp ?_
    rintro log' r ⟨h, -⟩
    rw [Routine.reports_append, Routine.reports_note]
    exact h.after _
  · exact ends_pure (formatFails_overflow _ o)

end Filesystem

/-! ## Steps of bring-up -/

/-- What the failure of a step says of its calls, `start` being the calls before the first step. -/
inductive StorageError.Follows (g : Geometry) (start calls : List Report) : StorageError → Prop
  /-- work on the table failed while a partition was located -/
  | partitionInit {number : UInt8} {code : ErrorCode} (h : TableFails g start calls code) :
    Follows g start calls (.partitionInit number code)
  /-- work on the table failed while an entry was written -/
  | partitionCreate {number : UInt8} {code : ErrorCode} (h : TableFails g start calls code) :
    Follows g start calls (.partitionCreate number code)
  /-- a filesystem could not be formatted -/
  | reformat {code : ErrorCode}
    (h : calls.getLast? = some (.returned .reformat none (some code))) :
    Follows g start calls (.reformat code)
  /-- no call is to blame -/
  | invalidLayout (reason : LayoutError) : Follows g start calls (.invalidLayout reason)

namespace StorageError.Follows

variable {start calls : List Report} {err : StorageError}

/-- Calls before, which are those of `start` where a block is too small. -/
theorem prepend (h : err.Follows g [] calls) (before : List Report)
    (hbefore : g.blockSize.toNat < sectorSize → before = start) :
    err.Follows g start (before ++ calls) := by
  cases h with
  | partitionInit h => exact .partitionInit (h.prepend before hbefore)
  | partitionCreate h => exact .partitionCreate (h.prepend before hbefore)
  | reformat h => exact .reformat (Report.getLast?_after h before)
  | invalidLayout reason => exact .invalidLayout reason

/-- Calls before, where a block is large enough. -/
theorem after (h : err.Follows g [] calls) (hsize : sectorSize ≤ g.blockSize.toNat)
    (before : List Report) : err.Follows g start (before ++ calls) :=
  h.prepend before fun hsmall => absurd hsize (Nat.not_le.2 hsmall)

theorem of_formatFails {r : Outcome StorageError Unit} (h : FormatFails calls r)
    (hr : r = .fail err) : err.Follows g start calls := by
  obtain ⟨code, rfl, hlast⟩ := h err hr
  exact .reformat hlast

end StorageError.Follows

/-- How a step ends: a block is large enough after a success, and a failure follows from the calls
of the step. -/
inductive Leads (g : Geometry) (calls : List Report) : Outcome StorageError Unit → Prop
  /-- a table fits in a block -/
  | succeeded (hsize : sectorSize ≤ g.blockSize.toNat) : Leads g calls (.ok ())
  /-- the calls show why -/
  | failed {err : StorageError} (h : err.Follows g [] calls) : Leads g calls (.fail err)
  /-- nothing is said of overflows -/
  | overflowed (o : Overflow) : Leads g calls (.overflow o)

theorem Leads.after {calls : List Report} {r : Outcome StorageError Unit} (h : Leads g calls r)
    (hsize : sectorSize ≤ g.blockSize.toNat) (before : List Report) :
    Leads g (before ++ calls) r := by
  cases h with
  | succeeded => exact .succeeded hsize
  | failed h => exact .failed (h.after hsize before)
  | overflowed o => exact .overflowed o

theorem leads_of_formatFails {calls : List Report} {r : Outcome StorageError Unit}
    (h : FormatFails calls r) (hsize : sectorSize ≤ g.blockSize.toNat) : Leads g calls r := by
  rcases r with _ | err | o
  · exact .succeeded hsize
  · exact .failed (.of_formatFails h rfl)
  · exact .overflowed o

/-- Steps in order: the failing one is the last, and those before it have succeeded. -/
theorem leads_inOrder {β : Type} {R : β → Log → Outcome StorageError Unit → β → Prop}
    {items items' : List β} {log : Log} {err : StorageError}
    (h : InOrder R items log (.fail err) items')
    (hstep : ∀ {i log o i'}, i ∈ items → R i log o i' → Leads g (reports log) o) :
    err.Follows g [] (reports log) := by
  obtain ⟨before, part, i, i', rfl, hi, hlast, hfirst⟩ := h.exists_last nofun
  cases hstep hi hlast with
  | failed hfollows =>
    rcases hfirst with rfl | ⟨j, hj, log', j', hearlier⟩
    · exact hfollows
    · cases hstep hj hearlier with
      | succeeded hsize =>
        rw [Routine.reports_append]
        exact hfollows.after hsize _

namespace Slot

variable {s s' : Slot} {log : Log} {ending : Outcome StorageError Unit}

theorem Populates.formatFails {u : Volume} (h : s.Populates u log ending) :
    FormatFails (reports log) ending := by
  cases h with
  | unformatted _ hformat => exact (s.filesystem.formatFails_format u _ _ hformat).1
  | left _ _ hprobe =>
    rw [Routine.reports_note, Routine.reports_append]
    exact (s.filesystem.formatFails_probeOrFormat u _ _ _ hprobe).after _
  | made _ hprobe =>
    exact (s.filesystem.formatFails_probeOrFormat u _ _ _ hprobe).after [.untold]

theorem Visit.leads (h : s.Visit (.disk g) log ending s') : Leads g (reports log) ending := by
  cases h with
  | missed hlocate =>
    cases tries_locate _ _ hlocate with
    | failed h => exact .failed (.partitionInit (by simpa using h))
  | overflowed => exact .overflowed _
  | located hlocate hpopulates =>
    cases tries_locate _ _ hlocate with
    | succeeded _ hsize =>
      rw [Routine.reports_append]
      exact leads_of_formatFails (hpopulates.formatFails.after _) hsize

theorem Creation.leads {extent : Extent} (hplace : extent.Placeable g)
    (h : s.Creation g extent log ending s') : Leads g (reports log) ending := by
  cases h with
  | refused hwrite =>
    cases tries_writeEntry hplace _ _ hwrite with
    | failed h => exact .failed (.partitionCreate (by simpa using h))
  | overflowed => exact .overflowed _
  | written hwrite hvisit =>
    cases tries_writeEntry hplace _ _ hwrite with
    | succeeded _ hsize =>
      rw [Routine.reports_note, Routine.reports_append]
      exact hvisit.leads.after hsize _

end Slot

/-! ## Calls -/

/-- What a failure says of the calls that were made for storage with a device or without, and the
status that it is reported as. -/
inductive StorageError.Blames (device : Option Geometry) (calls : List Report) :
    StorageError → Int32 → Prop
  /-- there is no device, and nothing is tried -/
  | noDevice (hdevice : device = none) (h : calls = []) : Blames device calls .noDevice (-1)
  /-- the device could not be initialised -/
  | deviceInit {code : ErrorCode} (h : calls = [.returned .init none (some code)]) :
    Blames device calls (.deviceInit code) (-1)
  /-- nothing is tried on the initialised device -/
  | noFileSystemFactory (h : calls = [.returned .init none none]) :
    Blames device calls .noFileSystemFactory (-1)
  /-- work on the table failed while a partition was located -/
  | partitionInit {g : Geometry} {number : UInt8} {code : ErrorCode} (hdevice : device = some g)
    (h : TableFails g [.returned .init none none] calls code) :
    Blames device calls (.partitionInit number code) code.value
  /-- work on the table failed while an entry was written -/
  | partitionCreate {g : Geometry} {number : UInt8} {code : ErrorCode} (hdevice : device = some g)
    (h : TableFails g [.returned .init none none] calls code) :
    Blames device calls (.partitionCreate number code) code.value
  /-- no call failed -/
  | notMounted {number : UInt8} (h : ∀ x ∈ calls, x.Succeeded) :
    Blames device calls (.notMounted number) (-1)
  /-- a filesystem could not be formatted -/
  | reformat {code : ErrorCode}
    (h : calls.getLast? = some (.returned .reformat none (some code))) :
    Blames device calls (.reformat code) code.value
  /-- the configured layout cannot be realised -/
  | invalidLayout (reason : LayoutError) : Blames device calls (.invalidLayout reason) (-1)

theorem StorageError.Follows.blames {device : Option Geometry} {calls : List Report}
    {err : StorageError} (hdevice : device = some g)
    (h : err.Follows g [.returned .init none none] calls) : err.Blames device calls err.status := by
  cases h with
  | partitionInit h => exact .partitionInit hdevice h
  | partitionCreate h => exact .partitionCreate hdevice h
  | reformat h => exact .reformat h
  | invalidLayout reason => exact .invalidLayout reason

namespace Storage

variable {s s' : Storage} {log : Log} {err : StorageError} {ending : Outcome StorageError Unit}

/-! ### Bringing up -/

/-- A failure to bring up what is configured follows from the calls, or nothing is tried. -/
theorem Pass.follows {slots : List Slot} (h : s.Pass g log (.fail err) slots)
    (hsize : g.size? = some s.capacity) :
    err.Follows g [] (reports log) ∨ err = .noFileSystemFactory ∧ reports log = [] := by
  cases h with
  | refused => exact .inr ⟨rfl, rfl⟩
  | whole _ hprobe =>
    exact .inl (.of_formatFails (Filesystem.whole.formatFails_probeOrFormat _ _ _ _ hprobe) rfl)
  | visited _ hvisits =>
    rw [Routine.reports_append, Routine.reports_noted, List.append_nil]
    exact .inl (leads_inOrder hvisits fun _ hvisit => hvisit.leads)
  | misplaced => exact .inl (.invalidLayout _)
  | created _ hvisits _ _ hlayout hcreations =>
    have hplaced : s.config.Placed g _ := Config.placed_of_layout hlayout hsize
    have hall := leads_inOrder hcreations fun {x _ _ _} hx hcreation => by
      refine hcreation.leads (hplaced.placeable (x.1.spec, x.2) ?_)
      rw [config, ← hvisits.map_eq fun hvisit => hvisit.spec_eq, List.zip_map_left]
      exact List.mem_map_of_mem hx
    rw [Routine.reports_append, Routine.reports_append, Routine.reports_noted, List.nil_append]
    exact .inl (hall.after hplaced.sectorSize_le _)

theorem blames_init (hrun : s.init.Runs log (.fail err, s')) :
    err.Blames s.device (reports log) err.status := by
  rcases runs_init hrun with ⟨-, hok, -⟩ | ⟨-, hdevice, hfail, -, rfl⟩ | ⟨g, -, hdevice, hcourse⟩
  · cases hok
  · obtain rfl := Outcome.fail.inj hfail
    exact .noDevice hdevice rfl
  · cases hcourse with
    | stopped => exact .deviceInit rfl
    | passed hsize hpass notes =>
      rw [Routine.reports_append, Routine.reports_append, Routine.reports_noted, List.append_nil]
      rcases hpass.follows hsize with h | ⟨rfl, hlog⟩
      · exact (h.prepend [.returned .init none none] fun _ => rfl).blames hdevice
      · exact .noFileSystemFactory (congrArg _ hlog)

/-! ### Wiping -/

/-- How wiping goes: all calls succeed, and what is wiped may not have been brought up; or a
filesystem cannot be formatted. -/
inductive WipeEnds (calls : List Report) : Outcome StorageError Unit → Prop
  /-- everything is wiped -/
  | succeeded (h : ∀ x ∈ calls, x.Succeeded) : WipeEnds calls (.ok ())
  /-- a partition was not brought up -/
  | notMounted (number : UInt8) (h : ∀ x ∈ calls, x.Succeeded) :
    WipeEnds calls (.fail (.notMounted number))
  /-- the last call failed to format -/
  | reformat {code : ErrorCode}
    (h : calls.getLast? = some (.returned .reformat none (some code))) :
    WipeEnds calls (.fail (.reformat code))
  /-- nothing is said of overflows -/
  | overflowed (o : Overflow) : WipeEnds calls (.overflow o)

theorem WipeEnds.after {before calls : List Report} {r : Outcome StorageError Unit}
    (h : WipeEnds calls r) (hbefore : ∀ x ∈ before, x.Succeeded) :
    WipeEnds (before ++ calls) r := by
  cases h with
  | succeeded h => exact .succeeded (List.forall_mem_append.2 ⟨hbefore, h⟩)
  | notMounted number h => exact .notMounted number (List.forall_mem_append.2 ⟨hbefore, h⟩)
  | reformat h => exact .reformat (Report.getLast?_after h before)
  | overflowed o => exact .overflowed o

theorem wipeEnds_format (fs : Filesystem) (u : Volume) :
    (fs.format u).Ends fun log r => WipeEnds (reports log) r := by
  refine (fs.formatFails_format u).imp ?_
  rintro log (_ | err | o) ⟨hfails, hok⟩
  · rw [hok rfl]
    exact .succeeded (List.forall_mem_singleton.2 ⟨_, _, rfl⟩)
  · obtain ⟨code, rfl, hlast⟩ := hfails err rfl
    exact .reformat hlast
  · exact .overflowed o

theorem wipeEnds_of_slot {t t' : Slot} {disk : Volume} (h : t.Wiping disk log ending t') :
    WipeEnds (reports log) ending := by
  cases h with
  | missed =>
    rw [Routine.reports_noted]
    exact .notMounted _ (List.forall_mem_nil _)
  | formatted _ hformat =>
    rw [Routine.reports_append, Routine.reports_noted, List.append_nil]
    exact wipeEnds_format _ _ _ _ hformat

theorem wipeEnds_inOrder {disk : Volume} {slots slots' : List Slot}
    (h : InOrder (Slot.Wiping disk) slots log ending slots') :
    WipeEnds (reports log) ending := by
  induction h with
  | nil => exact .succeeded (List.forall_mem_nil _)
  | stop h => exact wipeEnds_of_slot h
  | cons h _ ih =>
    cases wipeEnds_of_slot h with
    | succeeded hlog =>
      rw [Routine.reports_append]
      exact ih.after hlog

theorem Wiping.ends (h : s.Wiping g log ending) : WipeEnds (reports log) ending := by
  cases h with
  | @whole formatted =>
    cases formatted with
    | ok u => exact .succeeded (List.forall_mem_singleton.2 ⟨_, _, rfl⟩)
    | fail code => exact .reformat rfl
    | overflow o => exact .overflowed o
  | slots h => exact wipeEnds_inOrder h

theorem blames_wipe (hrun : s.wipe.Runs log (.fail err)) :
    err.Blames s.device (reports log) err.status := by
  rcases runs_wipe hrun with ⟨hdevice, hfail, rfl⟩ | ⟨g, during, notes, hdevice, rfl, hwiping, -⟩
  · obtain rfl := Outcome.fail.inj hfail
    exact .noDevice hdevice rfl
  · rw [Routine.reports_append, Routine.reports_noted, List.append_nil]
    cases hwiping.ends with
    | notMounted number h => exact .notMounted h
    | reformat h => exact .reformat h

/-- Whatever its requests are answered, a call of storage that fails names the last of its calls or
none. -/
theorem blames_call {c : StorageCall} (h : (c.routine s).Runs log (.fail err, s')) :
    err.Blames s.device (reports log) err.status := by
  cases c with
  | init => exact blames_init h
  | wipe => exact blames_wipe (StorageCall.runs_wipe h).2

end Storage

end DiskBringup
