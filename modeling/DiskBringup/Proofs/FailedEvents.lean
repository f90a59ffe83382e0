import DiskBringup.Bench.Basic
import DiskBringup.Bench.SparseDisk
import DiskBringup.Proofs.FailedCalls

/-!
# Which event a failure names

On the bench the calls of a run leave events, and more events than calls: a filesystem makes calls
of the disk while it is mounted or formatted, and one that is made tries to mount. These come before
the event of the call itself (`Details`). So what a failure says of the last call it says of the
last event too; and where no call failed, no event is one of a failure either, if filesystems are
`Candid` and do not succeed over a failed call of the disk (`Storage.blames_last_call`).
-/

namespace DiskBringup

open Routine (Log reports)
open Script (ends_pure ends_request_bind)

/-- The report of an event. -/
def Event.report : Event → Report
  | returned call failure => .returned call.kind call.block? failure
  | created .. => .untold

/-! ## Events of calls -/

/-- A call that nothing else happens in: it returns, and is not one to mount or format. -/
def Report.Plain (r : Report) : Prop :=
  ∃ kind block failure, r = .returned kind block failure ∧ kind ≠ .mount ∧ kind ≠ .reformat

/-- The events that calls leave, by the reports of the calls, where filesystems may be known to be
candid. -/
inductive Details (candid : Prop) : List Report → List Event → Prop
  /-- nothing is called -/
  | nil : Details candid [] []
  /-- a call leaves its event after those of the calls that were made in it, and if it succeeds, so
  did these in a candid filesystem -/
  | returned {rest : List Report} {events : List Event} (during : List Event) (e : Event)
    (hplain : e.report.Plain → during = [])
    (hcandid : candid → e.report.Succeeded → ∀ x ∈ during, x.report.Succeeded)
    (h : Details candid rest events) : Details candid (e.report :: rest) (during ++ e :: events)
  /-- a call whose ending is not told leaves any events -/
  | untold {rest : List Report} {events : List Event} (during : List Event)
    (h : Details candid rest events) : Details candid (.untold :: rest) (during ++ events)

namespace Details

variable {candid : Prop} {calls calls' : List Report} {events events' : List Event} {r : Report}

/-- A call in which nothing else happened. -/
theorem single (e : Event) : Details candid [e.report] [e] :=
  .returned [] e (fun _ => rfl) (fun _ _ => List.forall_mem_nil _) .nil

theorem append (h : Details candid calls events) (h' : Details candid calls' events') :
    Details candid (calls ++ calls') (events ++ events') := by
  induction h with
  | nil => exact h'
  | returned during e hplain hcandid _ ih =>
    rw [List.append_assoc]
    exact .returned during e hplain hcandid ih
  | untold during _ ih =>
    rw [List.append_assoc]
    exact .untold during ih

/-- Calls that nothing else happens in are all that happens. -/
theorem map_report (h : Details candid calls events) (hplain : ∀ r ∈ calls, r.Plain) :
    events.map Event.report = calls := by
  induction h with
  | nil => rfl
  | returned during e hnone _ _ ih =>
    obtain ⟨he, hrest⟩ := List.forall_mem_cons.1 hplain
    rw [hnone he, List.nil_append, List.map_cons, ih hrest]
  | untold during _ _ =>
    obtain ⟨_, _, _, hr, -⟩ := hplain _ List.mem_cons_self
    cases hr

/-- The last call leaves the last event. -/
theorem getLast?_eq (h : Details candid calls events) (hlast : calls.getLast? = some r)
    (hr : r ≠ .untold) : (events.map Event.report).getLast? = some r := by
  induction h with
  | nil => cases hlast
  | returned during e _ _ hrest ih =>
    rw [List.map_append, List.map_cons, List.append_cons]
    obtain hafter | ⟨rfl, rfl⟩ := Report.getLast?_of_cons hlast
    · exact Report.getLast?_after (ih hafter) _
    · rw [hrest.map_report (List.forall_mem_nil _), List.append_nil]
      exact List.getLast?_concat
  | untold during _ ih =>
    rw [List.map_append]
    obtain hafter | ⟨-, rfl⟩ := Report.getLast?_of_cons hlast
    · exact Report.getLast?_after (ih hafter) _
    · exact absurd rfl hr

/-- Where all calls succeed, so does all that happens. -/
theorem succeeded (h : Details candid calls events) (hknown : candid)
    (hcalls : ∀ r ∈ calls, r.Succeeded) :
    ∀ r ∈ events.map Event.report, r.Succeeded := by
  induction h with
  | nil => exact List.forall_mem_nil _
  | returned during e _ hcandid _ ih =>
    obtain ⟨he, hrest⟩ := List.forall_mem_cons.1 hcalls
    rw [List.map_append, List.map_cons]
    refine List.forall_mem_append.2 ⟨?_, List.forall_mem_cons.2 ⟨he, ih hrest⟩⟩
    exact List.forall_mem_map.2 (hcandid hknown he)
  | untold during _ _ =>
    obtain ⟨_, _, hr⟩ := hcalls _ List.mem_cons_self
    cases hr

end Details

variable {candid : Prop} {calls : List Report} {events : List Event} {g : Geometry}
  {start : List Report} {code : ErrorCode}

/-- What calls show of failed work on the table, their events show. -/
theorem TableFails.details (h : TableFails g start calls code)
    (hevents : Details candid calls events) (hstart : ∀ r ∈ start, r.Plain) :
    TableFails g start (events.map Event.report) code := by
  cases h with
  | transfer hkind h => exact .transfer hkind (hevents.getLast?_eq h nofun)
  | refused h hcode => exact .refused (hevents.getLast?_eq h nofun) hcode
  | untried h hsize hcode =>
    subst h
    exact .untried (hevents.map_report hstart) hsize hcode

/-- What calls are blamed for, their events are. That no call failed is known of candid filesystems
only. -/
theorem StorageError.Blames.details {device : Option Geometry} {err : StorageError} {status : Int32}
    (h : err.Blames device calls status) (hevents : Details candid calls events)
    (hknown : (∀ number, err ≠ .notMounted number) ∨ candid) :
    err.Blames device (events.map Event.report) status := by
  have hinit : ∀ failure, Report.Plain (.returned .init none failure) := fun failure =>
    ⟨.init, none, failure, rfl, by simp, by simp⟩
  have hstart : ∀ {failure}, ∀ r ∈ [Report.returned .init none failure], r.Plain :=
    List.forall_mem_singleton.2 (hinit _)
  cases h with
  | noDevice hdevice h =>
    subst h
    exact .noDevice hdevice (hevents.map_report (List.forall_mem_nil _))
  | deviceInit h =>
    subst h
    exact .deviceInit (hevents.map_report hstart)
  | noFileSystemFactory h =>
    subst h
    exact .noFileSystemFactory (hevents.map_report hstart)
  | partitionInit hdevice h => exact .partitionInit hdevice (h.details hevents hstart)
  | partitionCreate hdevice h => exact .partitionCreate hdevice (h.details hevents hstart)
  | @notMounted number h =>
    exact .notMounted (hevents.succeeded (hknown.resolve_left fun hne => hne number rfl) h)
  | reformat h => exact .reformat (hevents.getLast?_eq h nofun)
  | invalidLayout reason => exact .invalidLayout reason

/-! ## Candid filesystems -/

/-- A program that succeeds has seen all its requests succeed. -/
def BlockScript.Candid {φ : Type} (p : BlockScript (Outcome ErrorCode Unit × φ)) : Prop :=
  p.Ends fun log r => r.1 = .ok () → ∀ e ∈ log, (e.1.report e.2).Succeeded

/-- A filesystem that is mounted or formatted has seen no call of the disk fail on the way. -/
structure FilesystemDriver.Candid (φ : Type) [FilesystemDriver φ] : Prop where
  /-- mounting succeeds only without a failed request -/
  mount : ∀ (s : φ) (g : Geometry), (FilesystemDriver.mount s g).Candid
  /-- and so does formatting -/
  reformat : ∀ (s : φ) (g : Geometry), (FilesystemDriver.reformat s g).Candid

theorem Report.succeeded_ofExcept {α : Type} {kind : CallKind} {block : Option UInt64} (a : α) :
    (Report.ofExcept kind block (.ok a)).Succeeded :=
  ⟨kind, block, rfl⟩

theorem Report.exists_of_succeeded {α : Type} {kind : CallKind} {block : Option UInt64}
    {a : Except ErrorCode α} (h : (Report.ofExcept kind block a).Succeeded) : ∃ x, a = .ok x := by
  cases a with
  | ok x => exact ⟨x, rfl⟩
  | error code =>
    obtain ⟨_, _, h⟩ := h
    cases h

theorem candid_signature : FilesystemDriver.Candid Signature where
  mount s g := by
    change (Signature.mount s g).Ends _
    rw [Signature.mount]
    split
    · exact ends_pure (by simp)
    · refine ends_request_bind ?_
      rintro (code | block)
      · exact ends_pure (by simp)
      · dsimp only
        split
        · exact ends_pure fun _ => List.forall_mem_singleton.2 (Report.succeeded_ofExcept block)
        · exact ends_pure (by simp)
  reformat s g := by
    change (Signature.reformat g).Ends _
    rw [Signature.reformat]
    split
    · exact ends_pure (by simp)
    · refine ends_request_bind ?_
      rintro (code | _)
      · exact ends_pure (by simp)
      · refine ends_request_bind ?_
        rintro (code | _)
        · exact ends_pure (by simp)
        · exact ends_pure fun _ => List.forall_mem_cons.2 ⟨Report.succeeded_ofExcept (),
            List.forall_mem_singleton.2 (Report.succeeded_ofExcept ())⟩

namespace Volume

/-- A request of a volume that succeeds has seen its requests of the disk succeed. -/
theorem succeeded_of_request (v : Volume) (r : BlockRequest) :
    (v.request r).Ends fun log a =>
      (r.report a).Succeeded → ∀ e ∈ log, (e.1.report e.2).Succeeded := by
  induction v generalizing r with
  | disk g =>
    intro log a hrun ha
    obtain rfl := Script.runs_request_iff.1 hrun
    exact List.forall_mem_singleton.2 ha
  | window base w ih =>
    cases r with
    | init => exact ends_pure fun _ => List.forall_mem_nil _
    | deinit => exact ends_pure fun _ => List.forall_mem_nil _
    | read b n =>
      rw [request]
      split
      · rename_i below _
        refine (ih (.read below n)).imp fun log a h ha => h ?_
        obtain ⟨x, rfl⟩ := Report.exists_of_succeeded ha
        exact Report.succeeded_ofExcept x
      · exact ends_pure fun _ => List.forall_mem_nil _
    | write b data =>
      rw [request]
      split
      · rename_i below _
        refine (ih (.write below data)).imp fun log a h ha => h ?_
        obtain ⟨x, rfl⟩ := Report.exists_of_succeeded ha
        exact Report.succeeded_ofExcept x
      · exact ends_pure fun _ => List.forall_mem_nil _

/-- A program over a volume runs by answers of the volume, and where these are successes the disk's
are. -/
theorem runs_relay {α : Type} (v : Volume) (p : BlockScript α) :
    (v.relay p).Ends fun log a => ∃ log', p.Runs log' a ∧
      ((∀ e ∈ log', (e.1.report e.2).Succeeded) → ∀ e ∈ log, (e.1.report e.2).Succeeded) := by
  induction p with
  | done a => exact ends_pure ⟨[], .done a, id⟩
  | call r next ih =>
    refine (v.succeeded_of_request r).bind fun log a h => (ih a).imp ?_
    rintro log₂ b ⟨log', hrun, hrest⟩
    refine ⟨⟨r, a⟩ :: log', .call a hrun, fun hall => ?_⟩
    obtain ⟨ha, hlog'⟩ := List.forall_mem_cons.1 hall
    exact List.forall_mem_append.2 ⟨h ha, hrest hlog'⟩

end Volume

/-- What is seen on a volume is seen on its disk. -/
theorem BlockScript.Candid.relay {φ : Type} {p : BlockScript (Outcome ErrorCode Unit × φ)}
    (h : p.Candid) (v : Volume) : (v.relay p).Candid := by
  refine (v.runs_relay p).imp ?_
  rintro log r ⟨log', hrun, hlog⟩ hr
  exact hlog (h log' r hrun hr)

/-! ## Runs on the bench -/

namespace Bench

variable {δ φ α : Type}

/-- A call that cannot overflow leaves one event. -/
theorem exists_event_perform {c : Call} {act : Bench δ φ → Except ErrorCode α × Bench δ φ}
    (hact : ∀ w, (act w).2.events = w.events) (w : Bench δ φ) :
    ∃ e, (w.perform c act).2.events = w.events ++ [e] ∧
      e.report = .ofExcept c.kind c.block? (w.perform c act).1 := by
  have hconsult : (w.consult c).2.events = w.events := rfl
  rw [perform]
  rcases hc : w.consult c with ⟨hit, w₁⟩
  rw [hc] at hconsult
  cases hit with
  | some code => exact ⟨.returned c (some code), congrArg (· ++ _) hconsult, rfl⟩
  | none =>
    have hevents := (hact w₁).trans hconsult
    dsimp only
    generalize act w₁ = ending at hevents
    obtain ⟨answer, w₂⟩ := ending
    cases answer with
    | ok a => exact ⟨.returned c none, congrArg (· ++ _) hevents, rfl⟩
    | error code => exact ⟨.returned c (some code), congrArg (· ++ _) hevents, rfl⟩

variable [BlockStore δ]

theorem exists_event_block (r : BlockRequest) (w : Bench δ φ) :
    ∃ e, (block r w).2.events = w.events ++ [e] ∧ e.report = r.report (block r w).1 := by
  cases r with
  | init => exact exists_event_perform (c := .init) (fun _ => rfl) w
  | deinit => exact exists_event_perform (c := .deinit) (fun _ => rfl) w
  | read b n => exact exists_event_perform (c := .read b) (fun _ => rfl) w
  | write b data => exact exists_event_perform (c := .write b) (fun _ => rfl) w

/-- A program over the disk leaves an event for every request. -/
theorem exists_events_run (x : BlockScript α) (w : Bench δ φ) :
    ∃ events, (x.run block w).2.events = w.events ++ events ∧
      events.map Event.report = (x.trace block w).map fun e => e.1.report e.2 := by
  induction x generalizing w with
  | done a => exact ⟨[], (List.append_nil _).symm, rfl⟩
  | call r next ih =>
    obtain ⟨e, he, hreport⟩ := exists_event_block r w
    obtain ⟨events, hevents, hreports⟩ := ih (block r w).1 (block r w).2
    refine ⟨e :: events, ?_, ?_⟩
    · rw [Script.run_call, hevents, he, List.append_assoc]
      rfl
    · rw [List.map_cons, hreport, hreports]
      rfl

/-- A call of a filesystem leaves its event after those of its program. -/
theorem details_drive {candid : Prop} {c : Call} (hkind : c.kind = .mount ∨ c.kind = .reformat)
    (hblock : c.block? = none) (fs : Filesystem) (v : Volume)
    {p : φ → Geometry → BlockScript (Outcome ErrorCode Unit × φ)}
    (hp : candid → ∀ s g, (p s g).Candid) (w : Bench δ φ) :
    ∃ events, (w.drive c fs v p).2.events = w.events ++ events ∧
      Details candid [.ofOutcome c.kind (w.drive c fs v p).1] events := by
  have hreport : ∀ failure, (Event.returned c failure).report = .returned c.kind none failure :=
    fun failure => by rw [Event.report, hblock]
  have hplain : ∀ {failure}, ¬ (Event.returned c failure).report.Plain := by
    rintro failure ⟨_, _, _, h, hmount, hreformat⟩
    cases h
    exact hkind.elim hmount hreformat
  have hconsult : (w.consult c).2.events = w.events := rfl
  rw [drive]
  rcases hc : w.consult c with ⟨hit, w₁⟩
  rw [hc] at hconsult
  cases hit with
  | some code =>
    refine ⟨[.returned c (some code)], congrArg (· ++ _) hconsult, ?_⟩
    rw [Report.ofOutcome, ← hreport]
    exact .single _
  | none =>
    obtain ⟨during, hduring, hreports⟩ :=
      exists_events_run (v.relay (p (w₁.state fs) v.geometry)) w₁
    have hcandid := fun h =>
      (hp h (w₁.state fs) v.geometry).relay v _ _ (Script.runs_trace block _ w₁)
    dsimp only [runOn]
    rw [hconsult] at hduring
    generalize (v.relay (p (w₁.state fs) v.geometry)).trace block w₁ = log at hreports hcandid
    generalize (v.relay (p (w₁.state fs) v.geometry)).run block w₁ = ending at hduring hcandid
    obtain ⟨⟨answer, state⟩, w₂⟩ := ending
    rcases answer with _ | code | o
    · refine ⟨during ++ [.returned c none], ?_, ?_⟩
      · rw [← List.append_assoc, ← hduring]
        rfl
      · rw [Report.ofOutcome, ← hreport]
        refine .returned during _ (fun h => absurd h hplain) (fun h _ x hx => ?_) .nil
        have hmem := List.mem_map_of_mem (f := Event.report) hx
        rw [hreports] at hmem
        obtain ⟨e, he, hxe⟩ := List.mem_map.1 hmem
        rw [← hxe]
        exact hcandid h rfl e he
    · refine ⟨during ++ [.returned c (some code)], ?_, ?_⟩
      · rw [← List.append_assoc, ← hduring]
        rfl
      · rw [Report.ofOutcome, ← hreport]
        refine .returned during _ (fun h => absurd h hplain) ?_ .nil
        rintro - ⟨_, _, h⟩
        cases h
    · exact ⟨during, hduring, List.append_nil during ▸ .untold during .nil⟩

variable [FilesystemDriver φ]

/-- What a request of a routine leaves. -/
theorem details_answer (r : Request) (w : Bench δ φ) :
    ∃ events, (answer r w).2.events = w.events ++ events ∧
      Details (FilesystemDriver.Candid φ) (reports [⟨r, (answer r w).1⟩]) events := by
  cases r with
  | block r =>
    obtain ⟨e, he, hreport⟩ := exists_event_block r w
    refine ⟨[e], he, ?_⟩
    change Details _ [r.report (block r w).1] [e]
    rw [← hreport]
    exact .single e
  | mount fs v => exact details_drive (.inl rfl) rfl fs v (fun hd => hd.mount) w
  | unmount fs =>
    obtain ⟨e, he, hreport⟩ : ∃ e, (w.unmount fs).2.events = w.events ++ [e] ∧
        e.report = .ofExcept .unmount none (w.unmount fs).1 :=
      exists_event_perform (fun _ => rfl) w
    refine ⟨[e], he, ?_⟩
    change Details _ [.ofExcept .unmount none (w.unmount fs).1] [e]
    rw [← hreport]
    exact .single e
  | reformat fs v => exact details_drive (.inr rfl) rfl fs v (fun hd => hd.reformat) w
  | create number name v =>
    let made := ((w.record (.created name v.geometry)).setName (.partition number) name).setState
      (.partition number) FilesystemDriver.blank
    obtain ⟨events, hevents, -⟩ : ∃ events, (made.mount (.partition number) v).2.events =
        made.events ++ events ∧ Details (FilesystemDriver.Candid φ) _ events :=
      details_drive (.inl rfl) rfl (.partition number) v (fun hd => hd.mount) made
    refine ⟨.created name v.geometry :: events, ?_, List.append_nil (_ :: events) ▸ .untold _ .nil⟩
    refine hevents.trans ?_
    rw [← List.singleton_append, ← List.append_assoc]
    rfl
  | note n => exact ⟨[], (List.append_nil _).symm, .nil⟩

/-- What a routine leaves: an event for each call, and those of calls that are made in it. -/
theorem details_run (t : Routine α) (w : Bench δ φ) :
    ∃ events, (w.run t).2.events = w.events ++ events ∧
      Details (FilesystemDriver.Candid φ) (reports (t.trace answer w)) events := by
  induction t generalizing w with
  | done a => exact ⟨[], (List.append_nil _).symm, .nil⟩
  | call r next ih =>
    obtain ⟨during, hduring, hfirst⟩ := details_answer r w
    obtain ⟨events, hevents, hrest⟩ := ih (answer r w).1 (answer r w).2
    refine ⟨during ++ events, ?_, ?_⟩
    · rw [run, Script.run_call]
      rw [run] at hevents
      rw [hevents, hduring, List.append_assoc]
    · rw [Script.trace, ← List.singleton_append, Routine.reports_append]
      exact hfirst.append hrest

end Bench

namespace Storage

open Bench (answer)

/-- A call of storage that fails names the last call that was made of the disk or a filesystem, with
the code that this failed with, or none that failed, and nothing is called after it. This is so
whatever the requests of the call are answered; and on a bench, whichever faults are pending and
whatever the disk holds, with the calls that filesystems make of the disk taken in. -/
theorem blames_last_call (c : StorageCall) (s : Storage) :
    (∀ (log : Log) (err : StorageError) (s' : Storage), (c.routine s).Runs log (.fail err, s') →
      err.Blames s.device (reports log) err.status) ∧
    ∀ (δ φ : Type) [BlockStore δ] [FilesystemDriver φ] (w w' : Bench δ φ) (err : StorageError)
      (s' : Storage), w.run (c.routine s) = ((.fail err, s'), w') →
      (∀ number, err ≠ .notMounted number) ∨ FilesystemDriver.Candid φ →
      ∃ events, w'.events = w.events ++ events ∧
        err.Blames s.device (events.map Event.report) err.status := by
  refine ⟨fun _ _ _ hrun => blames_call hrun, ?_⟩
  intro δ φ _ _ w w' err s' hrun hknown
  obtain ⟨events, hevents, hdetails⟩ := Bench.details_run (c.routine s) w
  have hruns := Script.runs_trace answer (c.routine s) w
  rw [← Bench.run, hrun] at hruns
  rw [hrun] at hevents
  exact ⟨events, hevents, (blames_call hruns).details hdetails hknown⟩

/-- Where block 0 cannot be read, bring-up fails with the code of that read. Where a partition was
not brought up before, wiping fails without a call. -/
theorem blames_last_call_unreadable :
    let s : Storage := ⟨some ⟨512, 4096⟩, [.new (.primary 8192)], false, true, 0, false⟩
    let w : Bench SparseDisk Signature :=
      { Bench.new (.new ⟨512, 4096⟩) with faults := [⟨.read, ⟨-5⟩, 0, none, none, none⟩] }
    let log : Log := [⟨.note (.neverBroughtUp 1), ()⟩,
      ⟨.note (.storageReformatFailed (.notMounted 1)), ()⟩]
    (∃ events, (w.run (StorageCall.init.routine s)).2.events = w.events ++ events ∧
      (StorageError.partitionInit 1 ⟨-5⟩).Blames s.device (events.map Event.report) (-5)) ∧
      (StorageCall.wipe.routine s).Runs log (.fail (.notMounted 1), s) ∧
      (StorageError.notMounted 1).Blames s.device (reports log) (-1) := by
  intro s w log
  have hwipe : (StorageCall.wipe.routine s).Runs log (.fail (.notMounted 1), s) :=
    .call _ (.call _ (.done _))
  have hinit : (w.run (StorageCall.init.routine s)).1.1 = .fail (.partitionInit 1 ⟨-5⟩) :=
    rfl
  refine ⟨?_, hwipe, (blames_last_call .wipe s).1 _ _ _ hwipe⟩
  exact (blames_last_call .init s).2 _ _ w _ _ _ (Prod.ext (Prod.ext hinit rfl) rfl) (.inl nofun)

end Storage

end DiskBringup
