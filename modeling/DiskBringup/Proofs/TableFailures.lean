import DiskBringup.Bench.Fault
import DiskBringup.Proofs.Placement
import DiskBringup.Proofs.Visits

/-!
# Failed work on the partition table

What a log has of the calls of the disk and of the filesystems is their `Report`s, oldest first.
`TableFails` says from them how work on the partition table failed: block 0 could not be read or
written, and this was the last call; or the last call read block 0, and what it holds is refused; or
a block is too small for a table and nothing was tried after the calls of `start`. Locating a
partition and writing an entry fail in no other way (`tries_locate`, `tries_writeEntry`). Calls
before them do not matter once the blocks are known to be large enough (`TableFails.after`).
-/

namespace DiskBringup

open Routine (Log)
open Script (ends_pure ends_request_bind)

/-! ## Reports -/

/-- What a call has come to. -/
inductive Report where
  /-- it returned, with a code if it failed -/
  | returned (kind : CallKind) (block : Option UInt64) (failure : Option ErrorCode)
  /-- how it ended is not told -/
  | untold
  deriving DecidableEq, Repr

namespace Report

/-- The report of a call that cannot overflow. -/
def ofExcept {α : Type} (kind : CallKind) (block : Option UInt64) : Except ErrorCode α → Report
  | .ok _ => returned kind block none
  | .error code => returned kind block (some code)

/-- The report of a call of a filesystem, which does not return if it overflows. -/
def ofOutcome (kind : CallKind) : Outcome ErrorCode Unit → Report
  | .ok () => returned kind none none
  | .fail code => returned kind none (some code)
  | .overflow _ => untold

/-- The call returned and did not fail. -/
def Succeeded (r : Report) : Prop := ∃ kind block, r = returned kind block none

/-- Calls before do not change which one is the last. -/
theorem getLast?_after {calls : List Report} {r : Report} (h : calls.getLast? = some r)
    (before : List Report) : (before ++ calls).getLast? = some r := by
  rw [List.getLast?_append, h, Option.some_or]

/-- The last call comes after the first, or it is the first and nothing comes after it. -/
theorem getLast?_of_cons {calls : List Report} {first r : Report}
    (h : (first :: calls).getLast? = some r) :
    calls.getLast? = some r ∨ calls = [] ∧ first = r := by
  cases calls with
  | nil => exact .inr ⟨rfl, Option.some.inj h⟩
  | cons next rest => exact .inl (List.getLast?_cons_cons ▸ h)

end Report

/-- The report of a request of the disk. -/
def BlockRequest.report : (r : BlockRequest) → r.Answer → Report
  | .init, a => .ofExcept .init none a
  | .deinit, a => .ofExcept .deinit none a
  | .read b _, a => .ofExcept .read (some b) a
  | .write b _, a => .ofExcept .write (some b) a

/-- The report of a request, if it is a call. What a filesystem does while it is made is not
told. -/
def Request.report? : (r : Request) → r.Answer → Option Report
  | .block r, a => some (r.report a)
  | .mount .., a => some (.ofOutcome .mount a)
  | .unmount _, a => some (.ofExcept .unmount none a)
  | .reformat .., a => some (.ofOutcome .reformat a)
  | .create .., _ => some .untold
  | .note _, _ => none

namespace Routine

variable {log log' : Log}

/-- The reports of the calls in a log, oldest first. -/
def reports (log : Log) : List Report := log.filterMap fun e => e.1.report? e.2

@[simp] theorem reports_nil : reports [] = [] := rfl

@[simp] theorem reports_append : reports (log ++ log') = reports log ++ reports log' :=
  List.filterMap_append

@[simp] theorem reports_note (n : Note) (u : Unit) : reports (⟨.note n, u⟩ :: log) = reports log :=
  rfl

@[simp] theorem reports_noted (notes : List Note) : reports (noted notes) = [] := by
  refine List.filterMap_eq_nil_iff.2 fun e he => ?_
  obtain ⟨n, -, rfl⟩ := List.mem_map.1 he
  rfl

/-- A value with notes is taken without a call. -/
theorem ends_ofNoted_reports {α : Type} (x : Noted α) :
    (ofNoted x).Ends fun log a => reports log = [] ∧ a = x.value := by
  intro log a hrun
  obtain ⟨rfl, rfl⟩ := runs_ofNoted hrun
  exact ⟨reports_noted _, rfl⟩

theorem ends_onVolume_disk (g : Geometry) (r : BlockRequest) :
    (onVolume (.disk g) r).Ends fun log a => reports log = [r.report a] := by
  intro log a hrun
  obtain rfl := Script.runs_request_iff.1 (show (Routine.block r).Runs log a from hrun)
  rfl

end Routine

open Routine (reports ends_ofNoted_reports)

/-! ## The partition table -/

/-- How work on the partition table fails with a code: `calls` are the reports of what was done, and
`start` of what was done before any work on the table. -/
inductive TableFails (g : Geometry) (start calls : List Report) (code : ErrorCode) : Prop
  /-- block 0 could not be read or written -/
  | transfer {kind : CallKind} (hkind : kind = .read ∨ kind = .write)
    (h : calls.getLast? = some (.returned kind (some 0) (some code)))
  /-- block 0 was read, and is refused -/
  | refused (h : calls.getLast? = some (.returned .read (some 0) none))
    (hcode : code = .invalidPartition ∨ code = .invalidTable)
  /-- a block is too small for a table, and nothing was tried -/
  | untried (h : calls = start) (hsize : g.blockSize.toNat < sectorSize) (hcode : code = .device)

namespace TableFails

variable {g : Geometry} {start calls : List Report} {code : ErrorCode}

/-- Calls before, which are those of `start` where a block is too small. -/
theorem prepend (h : TableFails g [] calls code) (before : List Report)
    (hbefore : g.blockSize.toNat < sectorSize → before = start) :
    TableFails g start (before ++ calls) code := by
  cases h with
  | transfer hkind h => exact .transfer hkind (Report.getLast?_after h before)
  | refused h hcode => exact .refused (Report.getLast?_after h before) hcode
  | untried h hsmall hcode =>
    exact .untried (by rw [h, List.append_nil, hbefore hsmall]) hsmall hcode

/-- Calls before, where a block is large enough. -/
theorem after (h : TableFails g [] calls code) (hsize : sectorSize ≤ g.blockSize.toNat)
    (before : List Report) : TableFails g start (before ++ calls) code :=
  h.prepend before fun hsmall => absurd hsize (Nat.not_le.2 hsmall)

end TableFails

/-- How work on the table of a disk ends: it succeeds, and a block is large enough; or it fails with
a reason that `code` states; or it overflows. -/
inductive Tries {ε α : Type} (g : Geometry) (code : ε → ErrorCode) (calls : List Report) :
    Outcome ε α → Prop
  /-- a table fits in a block -/
  | succeeded (a : α) (hsize : sectorSize ≤ g.blockSize.toNat) : Tries g code calls (.ok a)
  /-- the calls show the reason -/
  | failed {err : ε} (h : TableFails g [] calls (code err)) : Tries g code calls (.fail err)
  /-- nothing is said of overflows -/
  | overflowed (o : Overflow) : Tries g code calls (.overflow o)

/-- What comes after a success does not change what it shows. -/
theorem Tries.after {ε α : Type} {g : Geometry} {code : ε → ErrorCode} {calls : List Report}
    {r : Outcome ε α} (h : Tries g code calls r) (hsize : sectorSize ≤ g.blockSize.toNat)
    (before : List Report) : Tries g code (before ++ calls) r := by
  cases h with
  | succeeded a => exact .succeeded a hsize
  | failed h => exact .failed (h.after hsize before)
  | overflowed o => exact .overflowed o

/-- The reason is one of a table or a partition, not of a device. -/
def TableError.IsRefusal (err : TableError) : Prop :=
  err.code = .invalidPartition ∨ err.code = .invalidTable

namespace Table

variable {g : Geometry} {t : Table} {number kind : UInt8} {extent : Extent}

theorem isRefusal_of_find {err : TableError} (h : (t.find number).value = .error err) :
    err.IsRefusal := by
  rw [find] at h
  split at h
  · cases h
    exact .inl rfl
  · split at h
    · rw [Noted.value_bind] at h
      split at h
      · cases h
        exact .inr rfl
      · split at h
        · split at h <;> cases h
          exact .inl rfl
        · cases h
          exact .inr rfl
    · cases h
      exact .inr rfl

theorem isRefusal_of_editable {err : TableError} (h : t.editable.value = .error err) :
    err.IsRefusal := by
  rw [editable] at h
  split at h
  · rw [Noted.value_bind] at h
    split at h <;> cases h
    exact .inr rfl
  · cases h

theorem isRefusal_of_replace {i : Index} {bound : UInt64} {err : TableError}
    (h : (t.replace i kind extent bound).value = .error err) : err.IsRefusal := by
  rw [replace] at h
  split at h
  · cases h
    exact .inl rfl
  · split at h
    · cases h
      exact .inl rfl
    · split at h <;> cases h
      exact .inl rfl

theorem isRefusal_of_setEntry {err : TableError}
    (h : (t.setEntry number kind extent).value = .fail err) : err.IsRefusal := by
  rw [setEntry] at h
  split at h
  · cases h
    exact .inl rfl
  · split at h
    · cases h
    · rename_i bound _
      rw [Noted.value_bind, Noted.value_pure] at h
      cases hedit : (t.replace _ kind extent bound).value with
      | ok t' =>
        rw [hedit] at h
        cases h
      | error reason =>
        rw [hedit] at h
        cases h
        exact isRefusal_of_replace hedit

/-! ### Reading and writing -/

theorem ends_readFirst : (readFirst (.disk g)).Ends fun log r =>
    (∃ block, r = .ok block ∧ reports log = [.returned .read (some 0) none]) ∨
      (∃ code, r = .fail (.io code) ∧ reports log = [.returned .read (some 0) (some code)]) ∨
      ∃ o, r = .overflow o := by
  rw [readFirst]
  split
  · exact ends_pure (.inr (.inr ⟨_, rfl⟩))
  · refine (Routine.ends_onVolume_disk g (.read 0 _)).bind ?_
    rintro log (code | block) hlog
    · refine ends_request_bind fun _ => ends_pure (.inr (.inl ⟨code, rfl, ?_⟩))
      rw [Routine.reports_append, hlog]
      rfl
    · refine ends_pure (.inl ⟨block, rfl, ?_⟩)
      rw [Routine.reports_append, hlog]
      rfl

/-- The table is read, and nothing is done after that; or it is not. -/
theorem tries_read : (read (.disk g)).Ends fun log r => Tries g TableError.code (reports log) r ∧
    ∀ t, r = .ok t → (reports log).getLast? = some (.returned .read (some 0) none) := by
  rw [read]
  split
  · rename_i hsize
    refine ends_readFirst.bind ?_
    rintro log r (⟨block, rfl, hlog⟩ | ⟨code, rfl, hlog⟩ | ⟨o, rfl⟩)
    · refine ends_pure ⟨.succeeded _ hsize, fun _ _ => ?_⟩
      simp [hlog]
    · refine ends_pure ⟨.failed (.transfer (.inl rfl) ?_), fun _ h => by cases h⟩
      simp [hlog, TableError.code]
    · exact ends_pure ⟨.overflowed o, fun _ h => by cases h⟩
  · rename_i hsize
    exact ends_pure ⟨.failed (.untried rfl (Nat.not_le.1 hsize) rfl), by simp⟩

theorem tries_writeFirst (hsize : sectorSize ≤ g.blockSize.toNat)
    (block : Buffer (Volume.disk g).blockSize.toNat) :
    (writeFirst (.disk g) block).Ends fun log r => Tries g TableError.code (reports log) r := by
  refine (Routine.ends_onVolume_disk g (.write 0 block)).bind ?_
  rintro log (code | u) hlog
  · refine ends_request_bind fun _ => ends_pure (.failed (.transfer (.inr rfl) ?_))
    simp [hlog, TableError.code, BlockRequest.report, Report.ofExcept]
  · exact ends_pure (.succeeded () hsize)

theorem tries_write :
    (t.write (.disk g)).Ends fun log r => Tries g TableError.code (reports log) r := by
  rw [write]
  split
  · rename_i hsize
    refine ends_readFirst.bind ?_
    rintro log r (⟨block, rfl, -⟩ | ⟨code, rfl, hlog⟩ | ⟨o, rfl⟩)
    · refine (tries_writeFirst hsize _).imp fun log' r h => ?_
      rw [Routine.reports_append]
      exact h.after hsize _
    · refine ends_pure (.failed (.transfer (.inl rfl) ?_))
      simp [hlog, TableError.code]
    · exact ends_pure (.overflowed o)
  · rename_i hsize
    exact ends_pure (.failed (.untried rfl (Nat.not_le.1 hsize) rfl))

/-- An edit is refused on account of the table that was read before it, or written back. -/
theorem tries_commitEntry (hsize : sectorSize ≤ g.blockSize.toNat) {before : List Report}
    (hbefore : before.getLast? = some (.returned .read (some 0) none)) :
    (t.commitEntry (.disk g) number kind extent).Ends fun log r =>
      Tries g TableError.code (before ++ reports log) r := by
  refine (ends_ofNoted_reports _).bind ?_
  rintro notes (edited | err | o) ⟨hnotes, hvalue⟩
  · refine tries_write.imp fun log r h => ?_
    rw [Routine.reports_append, hnotes, List.nil_append]
    exact h.after hsize before
  · refine ends_pure (.failed (.refused ?_ (isRefusal_of_setEntry hvalue.symm)))
    simpa [hnotes] using hbefore
  · exact ends_pure (.overflowed o)

end Table

open Table (isRefusal_of_find isRefusal_of_editable tries_read tries_commitEntry)

variable {g : Geometry}

theorem tries_writeEntryBefore {number kind : UInt8} {extent : Extent} {bound : UInt64} :
    (writeEntryBefore (.disk g) number kind extent bound).Ends fun log r =>
      Tries g TableError.code (reports log) r := by
  refine tries_read.bind ?_
  rintro log (found | err | o) ⟨hread, hlast⟩
  · cases hread with
    | succeeded _ hsize =>
      refine (ends_ofNoted_reports _).bind ?_
      rintro notes (err | table) ⟨hnotes, hvalue⟩
      · refine ends_pure (.failed (.refused ?_ (isRefusal_of_editable hvalue.symm)))
        simpa [hnotes] using hlast found rfl
      · refine (tries_commitEntry hsize (hlast found rfl)).bind ?_
        rintro log' (u | err | o) h
        · exact ends_request_bind fun _ => ends_pure (.succeeded () hsize)
        · refine ends_pure ?_
          simpa [hnotes] using h
        · exact ends_pure (.overflowed o)
  · refine ends_pure ?_
    cases hread with
    | failed h => exact .failed (by simpa using h)
  · exact ends_pure (.overflowed o)

/-- An entry for blocks that the disk has is written unless work on the table fails. -/
theorem tries_writeEntry {number kind : UInt8} {extent : Extent} (h : extent.Placeable g) :
    (writeEntry (.disk g) number kind extent).Ends fun log r =>
      Tries g TableError.code (reports log) r := by
  rw [writeEntry, if_neg (not_or.2 ⟨h.start_ne, h.blocks_ne⟩)]
  split
  · exact ends_pure (.overflowed _)
  · rename_i bound hbound
    rw [if_neg]
    · exact tries_writeEntryBefore
    · rw [UInt64.not_lt, UInt64.le_iff_toNat_le, ← Extent.bound?_eq_some_iff.1 hbound]
      exact h.bound_le

theorem value_window_eq_fail {e : Entry} {number : UInt8} {v : Volume} {code : ErrorCode}
    (h : (e.window number v).value = .fail code) : code = .invalidPartition := by
  rw [Entry.window, dif_pos e.addressable_extent] at h
  split at h <;> cases h
  rfl

/-- A partition is located unless work on the table fails. -/
theorem tries_locate {number : UInt8} :
    (locate (.disk g) number).Ends fun log r => Tries g id (reports log) r := by
  refine tries_read.bind ?_
  rintro log (table | err | o) ⟨hread, hlast⟩
  · cases hread with
    | succeeded _ hsize =>
      refine (ends_ofNoted_reports _).bind ?_
      rintro notes (err | entry) ⟨hnotes, hvalue⟩
      · refine ends_pure (.failed (.refused ?_ (isRefusal_of_find hvalue.symm)))
        simpa [hnotes] using hlast table rfl
      · refine (ends_ofNoted_reports _).imp ?_
        rintro notes' (window | code | o) ⟨hnotes', hwindow⟩
        · exact .succeeded window hsize
        · refine .failed (.refused ?_ (.inl (value_window_eq_fail hwindow.symm)))
          simpa [hnotes, hnotes'] using hlast table rfl
        · exact .overflowed o
  · refine ends_pure ?_
    cases hread with
    | failed h => exact .failed (by simpa using h)
  · exact ends_pure (.overflowed o)

end DiskBringup
