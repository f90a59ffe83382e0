import DiskBringup.Proofs.Sessions

/-!
# Filesystems that are left mounted

A filesystem is left mounted by requests if the last call of it among them, to mount, unmount or
format it, has mounted or formatted it. Every way for a probe to succeed ends so
(`Filesystem.leftMounted_of_probeOrFormat`), hence every visit that brings a slot up, and later
visits do not touch the filesystem again unless they end so too (`leftMounted_inOrder`). A call that
brings storage up therefore leaves the filesystem of every configured partition mounted, and where
there are partitions no call reaches the filesystem of the whole disk
(`Session.leaves_filesystems_mounted`).
-/

namespace DiskBringup

open Routine (Log)

/-- The filesystems that a configuration speaks of. -/
def Config.filesystems (c : Config) : List Filesystem :=
  if c.isPartitioned then c.partitions.map fun s => .partition s.number else [.whole]

/-! ## The last call of a filesystem -/

namespace Request

/-- The request is a call of the filesystem: to mount, unmount or format it. -/
def callsOn (fs : Filesystem) : Request → Bool
  | mount other _ | unmount other | reformat other _ => decide (other = fs)
  | block _ | create .. | note _ => false

/-- The request was to mount or to format a filesystem, and has succeeded. -/
def Mounted : (r : Request) → r.Answer → Prop
  | mount .., answer => answer = .ok ()
  | reformat .., answer => answer = .ok ()
  | block _, _ | unmount _, _ | create .., _ | note _, _ => False

variable {fs : Filesystem} {req : Request}

theorem OfTable.callsOn_eq (h : req.OfTable) : req.callsOn fs = false := by
  cases req with
  | mount | unmount | reformat => cases h
  | block | create | note => rfl

theorem Passive.callsOn_eq (h : req.Passive) : req.callsOn fs = false := h.ofTable.callsOn_eq

theorem Calls.eq_of_callsOn {other : Filesystem} {v : Volume} (h : req.Calls other v)
    (hfs : req.callsOn fs = true) : fs = other := by
  cases req with
  | mount _ _ | reformat _ _ => exact (of_decide_eq_true hfs).symm.trans h.1
  | unmount _ => exact (of_decide_eq_true hfs).symm.trans h
  | block | create | note => cases hfs

end Request

namespace Routine

variable {fs : Filesystem} {log log' : Log}

/-- The last call of the filesystem has mounted or formatted it. -/
def LeftMounted (fs : Filesystem) (log : Log) : Prop :=
  ∃ e, (log.filter fun e => e.1.callsOn fs).getLast? = some e ∧ e.1.Mounted e.2

/-- Later requests decide. -/
theorem LeftMounted.append (h : LeftMounted fs log') : LeftMounted fs (log ++ log') := by
  obtain ⟨e, he, hmounted⟩ := h
  refine ⟨e, ?_, hmounted⟩
  rw [List.filter_append, List.getLast?_append, he, Option.some_or]

theorem LeftMounted.cons (h : LeftMounted fs log) (e : (r : Request) × r.Answer) :
    LeftMounted fs (e :: log) := by
  rw [← List.singleton_append]
  exact h.append

/-- Later requests that do not call the filesystem leave it mounted. -/
theorem LeftMounted.append_of_forall (h : LeftMounted fs log)
    (hlog' : ∀ e ∈ log', e.1.callsOn fs = false) : LeftMounted fs (log ++ log') := by
  have hnone : (log'.filter fun e => e.1.callsOn fs) = [] :=
    List.filter_eq_nil_iff.2 fun e he => by simp [hlog' e he]
  rw [LeftMounted, List.filter_append, hnone, List.append_nil]
  exact h

theorem leftMounted_singleton {e : (r : Request) × r.Answer} (he : e.1.callsOn fs = true)
    (hmounted : e.1.Mounted e.2) : LeftMounted fs [e] := by
  refine ⟨e, ?_, hmounted⟩
  rw [List.filter_singleton, he]
  rfl

end Routine

open Routine (LeftMounted)

/-- No filesystem is called but the given one. -/
def Routine.CallsOnly (fs : Filesystem) (log : Log) : Prop :=
  ∀ e ∈ log, ∀ other, e.1.callsOn other = true → other = fs

namespace Routine

variable {fs : Filesystem} {log log' : Log}

theorem callsOnly_of_forall (h : ∀ e ∈ log, ∀ other, e.1.callsOn other = false) :
    CallsOnly fs log := by
  intro e he other hother
  rw [h e he other] at hother
  cases hother

theorem callsOnly_of_passive (h : ∀ e ∈ log, e.1.Passive) : CallsOnly fs log :=
  callsOnly_of_forall fun e he _ => (h e he).callsOn_eq

theorem callsOnly_of_calls {v : Volume} (h : ∀ e ∈ log, e.1.Calls fs v) : CallsOnly fs log :=
  fun e he _ hother => (h e he).eq_of_callsOn hother

theorem CallsOnly.append (h : CallsOnly fs log) (h' : CallsOnly fs log') :
    CallsOnly fs (log ++ log') :=
  List.forall_mem_append.2 ⟨h, h'⟩

theorem CallsOnly.cons (h : CallsOnly fs log) {e : (r : Request) × r.Answer}
    (he : ∀ other, e.1.callsOn other = false) : CallsOnly fs (e :: log) :=
  (callsOnly_of_forall (List.forall_mem_singleton.2 he)).append h

end Routine

namespace Filesystem

variable {fs : Filesystem} {v : Volume} {log : Log}

theorem leftMounted_of_format (h : (fs.format v).Runs log (.ok ())) : LeftMounted fs log := by
  obtain ⟨_, log₁, hreformat, rfl⟩ := Script.runs_request_bind_iff.1 h
  obtain ⟨r, log₂, hend, rfl⟩ := Script.runs_request_bind_iff.1 hreformat
  cases r with
  | ok u =>
    obtain ⟨rfl, -⟩ := Script.runs_pure_iff.1 hend
    have hlast : LeftMounted fs [⟨.reformat fs v, .ok u⟩] :=
      Routine.leftMounted_singleton (decide_eq_true rfl) rfl
    exact hlast.cons _
  | overflow o => cases (Script.runs_pure_iff.1 hend).2
  | fail code =>
    obtain ⟨_, log₃, hdone, rfl⟩ := Script.runs_request_bind_iff.1 hend
    cases (Script.runs_pure_iff.1 hdone).2

theorem leftMounted_of_probe (h : (fs.probe v).Runs log (.ok ())) : LeftMounted fs log := by
  obtain ⟨r, log₁, hrest, rfl⟩ := Script.runs_request_bind_iff.1 h
  cases r with
  | error code =>
    obtain ⟨_, log₂, hdone, rfl⟩ := Script.runs_request_bind_iff.1 hrest
    cases (Script.runs_pure_iff.1 hdone).2
  | ok u =>
    obtain ⟨r, log₂, hend, rfl⟩ := Script.runs_request_bind_iff.1 hrest
    cases r with
    | ok u =>
      obtain ⟨rfl, -⟩ := Script.runs_pure_iff.1 hend
      have hlast : LeftMounted fs [⟨.mount fs v, .ok u⟩] :=
        Routine.leftMounted_singleton (decide_eq_true rfl) rfl
      exact hlast.cons _
    | overflow o => cases (Script.runs_pure_iff.1 hend).2
    | fail code =>
      obtain ⟨_, log₃, hdone, rfl⟩ := Script.runs_request_bind_iff.1 hend
      cases (Script.runs_pure_iff.1 hdone).2

/-- A probe that succeeds ends with a mount, and one that fails is followed by formatting. -/
theorem leftMounted_of_probeOrFormat {announcement : Note}
    (h : (fs.probeOrFormat v announcement).Runs log (.ok ())) : LeftMounted fs log := by
  obtain ⟨log₁, probed, log₂, hprobe, hrest, rfl⟩ := Script.runs_bind_iff.1 h
  cases probed with
  | ok u =>
    obtain ⟨rfl, -⟩ := Script.runs_pure_iff.1 hrest
    rw [List.append_nil]
    exact leftMounted_of_probe hprobe
  | overflow o => cases (Script.runs_pure_iff.1 hrest).2
  | fail err =>
    obtain ⟨_, log₃, hformat, rfl⟩ := Script.runs_request_bind_iff.1 hrest
    exact ((leftMounted_of_format hformat).cons _).append

end Filesystem

/-! ## Slots that come up -/

/-- A step calls one filesystem at most, and leaves it mounted if it succeeds. -/
structure Routine.Tends {ε : Type} (fs : Filesystem) (log : Log) (ending : Outcome ε Unit) :
    Prop where
  /-- no other filesystem is called -/
  only : CallsOnly fs log
  /-- a success leaves the filesystem mounted -/
  leftMounted : ending = .ok () → LeftMounted fs log

namespace Slot

variable {s s' : Slot} {log : Log}

theorem Populates.tends {v : Volume} {ending : Outcome StorageError Unit}
    (h : s.Populates v log ending) : Routine.Tends s.filesystem log ending := by
  refine ⟨?_, ?_⟩
  · rcases h.calls with ⟨-, hlog⟩ | ⟨-, calls, rfl, hcalls⟩
    · exact Routine.callsOnly_of_calls hlog
    · exact (Routine.callsOnly_of_calls hcalls).cons fun _ => rfl
  · rintro rfl
    cases h with
    | unformatted _ _ hne => exact absurd rfl hne
    | left _ _ hprobe => exact (Filesystem.leftMounted_of_probeOrFormat hprobe).append.cons _
    | made _ hprobe => exact (Filesystem.leftMounted_of_probeOrFormat hprobe).cons _

theorem Visit.tends {disk : Volume} {ending : Outcome StorageError Unit}
    (h : s.Visit disk log ending s') : Routine.Tends s.filesystem log ending := by
  cases h with
  | missed hlocate =>
    exact ⟨Routine.callsOnly_of_passive (passive_of_locate hlocate _), fun hok => nomatch hok⟩
  | overflowed hlocate =>
    exact ⟨Routine.callsOnly_of_passive (hlocate.only (only_locate _ _)), fun hok => nomatch hok⟩
  | located hlocate hpopulates =>
    obtain ⟨honly, hmounted⟩ := hpopulates.tends
    exact ⟨(Routine.callsOnly_of_passive (hlocate.only (only_locate _ _))).append honly,
      fun hok => (hmounted hok).append⟩

theorem Creation.tends {g : Geometry} {extent : Extent} {ending : Outcome StorageError Unit}
    (h : s.Creation g extent log ending s') : Routine.Tends s.filesystem log ending := by
  have hwrites : ∀ {log : Log} {written : Outcome TableError Unit},
      (writeEntry (.disk g) s.number s.spec.kind extent).Runs log written →
      Routine.CallsOnly s.filesystem log := fun hwrite =>
    Routine.callsOnly_of_forall fun e he _ =>
      (hwrite.only (only_writeEntry g s.number s.spec.kind extent) e he).callsOn_eq
  cases h with
  | refused hwrite =>
    refine ⟨((hwrites hwrite).append ?_).cons fun _ => rfl, fun hok => nomatch hok⟩
    exact Routine.callsOnly_of_passive Routine.passive_of_noted
  | overflowed hwrite => exact ⟨(hwrites hwrite).cons fun _ => rfl, fun hok => nomatch hok⟩
  | written hwrite hvisit =>
    obtain ⟨honly, hmounted⟩ := hvisit.tends
    exact ⟨((hwrites hwrite).append honly).cons fun _ => rfl,
      fun hok => (hmounted hok).append.cons _⟩

end Slot

section InOrder

variable {ε β : Type} {R : β → Log → Outcome ε Unit → β → Prop} {name : β → Filesystem}
  {items items' : List β} {log : Log}

/-- Steps that succeed one after the other leave the filesystem of each item mounted. -/
theorem leftMounted_inOrder (h : InOrder R items log (.ok ()) items')
    (hstep : ∀ {i log o i'}, R i log o i' → Routine.Tends (name i) log o) :
    ∀ i ∈ items, LeftMounted (name i) log := by
  -- the steps after that of an item leave its filesystem alone, or mounted
  have hkeeps : ∀ {items items' : List β} {log : Log}, InOrder R items log (.ok ()) items' →
      (∀ fs past, LeftMounted fs past → LeftMounted fs (past ++ log)) ∧
        ∀ i ∈ items, LeftMounted (name i) log := by
    intro items items' log h
    generalize hok : (.ok () : Outcome ε Unit) = ending at h
    induction h with
    | nil => exact ⟨fun fs past hpast => by rwa [List.append_nil], List.forall_mem_nil _⟩
    | stop _ hne => exact absurd hok.symm hne
    | @cons i i' rest rest' log log' ending h hrest ih =>
      obtain ⟨honly, hmounted⟩ := hstep h
      obtain ⟨hlater, hall⟩ := ih hok
      refine ⟨fun fs past hpast => ?_, List.forall_mem_cons.2 ⟨hlater _ _ (hmounted rfl), ?_⟩⟩
      · rw [← List.append_assoc]
        refine hlater fs _ ?_
        by_cases hfs : fs = name i
        · rw [hfs]
          exact (hmounted rfl).append
        · refine hpast.append_of_forall fun e he => Bool.eq_false_iff.2 fun hcalls => ?_
          exact hfs (honly e he fs hcalls)
      · exact fun i hi => (hall i hi).append
  exact (hkeeps h).2

/-- Steps in order call the filesystems of their items at most. -/
theorem exists_of_callsOn_inOrder {ending : Outcome ε Unit}
    (h : InOrder R items log ending items')
    (hstep : ∀ {i log o i'}, R i log o i' → Routine.Tends (name i) log o) :
    ∀ e ∈ log, ∀ fs, e.1.callsOn fs = true → ∃ i ∈ items, fs = name i :=
  h.forall_log (fun _ _ => trivial) fun hi hrun _ e he fs hcalls =>
    ⟨_, hi, (hstep hrun).only e he fs hcalls⟩

end InOrder

/-! ## Calls -/

namespace Storage

variable {g : Geometry} {s s' : Storage} {slots : List Slot} {log : Log}
  {ending : Outcome StorageError Unit}

/-- The filesystems of configured partitions are those of the slots. -/
theorem filesystems_config (hslots : s.slots ≠ []) :
    s.config.filesystems = s.slots.map Slot.filesystem := by
  have hpartitioned : s.config.isPartitioned = true := by
    rw [Config.isPartitioned, Bool.not_eq_true', List.isEmpty_eq_false_iff]
    exact fun h => hslots (List.map_eq_nil_iff.1 h)
  rw [Config.filesystems, if_pos hpartitioned, config, List.map_map]
  rfl

/-- A pass that succeeds leaves the configured filesystems mounted. -/
theorem Pass.leftMounted (h : s.Pass g log (.ok ()) slots) (hsize : g.size? = some s.capacity) :
    ∀ fs ∈ s.config.filesystems, LeftMounted fs log := by
  generalize hok : (.ok () : Outcome StorageError Unit) = ending at h
  cases h with
  | refused | misplaced => cases hok
  | whole hslots hprobe =>
    rw [← hok] at hprobe
    rw [Config.filesystems, config, hslots]
    exact List.forall_mem_singleton.2 (Filesystem.leftMounted_of_probeOrFormat hprobe)
  | visited hslots hvisits notes =>
    rw [← hok] at hvisits
    rw [filesystems_config hslots, List.forall_mem_map]
    intro t ht
    refine (leftMounted_inOrder hvisits (fun hvisit => hvisit.tends) t ht).append_of_forall ?_
    exact fun e he => (Routine.passive_of_noted e he).callsOn_eq
  | @created _ _ _ _ slots _ _ hslots hvisits notes hauto hlayout hcreations =>
    rw [← hok] at hcreations
    have hspecs := hvisits.map_eq fun hvisit => hvisit.spec_eq
    -- every slot is created after the visits, and calls of its filesystem there come last
    have hnumbers : s.slots.map Slot.filesystem = slots.map Slot.filesystem := by
      have hmap := congrArg (List.map fun spec => Filesystem.partition spec.number) hspecs
      rw [List.map_map, List.map_map] at hmap
      exact hmap.symm
    rw [filesystems_config hslots, hnumbers, List.forall_mem_map]
    intro t ht
    rw [← List.map_fst_zip (length_le_of_layout hspecs hsize hlayout)] at ht
    obtain ⟨x, hx, rfl⟩ := List.mem_map.1 ht
    have hmounted := leftMounted_inOrder hcreations (fun hcreation => hcreation.tends) x hx
    exact hmounted.append.append

/-- Where there are slots, a pass does not call the filesystem of the whole disk. -/
theorem Pass.callsOn_whole (h : s.Pass g log ending slots) (hslots : s.slots ≠ []) :
    ∀ e ∈ log, e.1.callsOn .whole = false := by
  have hpartition : ∀ {ε β : Type} {R : β → Log → Outcome ε Unit → β → Prop} {items items' : List β}
      {log : Log} {o : Outcome ε Unit} (slot : β → Slot),
      InOrder R items log o items' →
      (∀ {i log o i'}, R i log o i' → Routine.Tends (slot i).filesystem log o) →
      ∀ e ∈ log, e.1.callsOn .whole = false := by
    intro ε β R items items' log o slot h hstep e he
    rw [Bool.eq_false_iff]
    intro hcalls
    obtain ⟨i, -, hi⟩ := exists_of_callsOn_inOrder h (fun hrun => hstep hrun) e he .whole hcalls
    cases hi
  cases h with
  | refused => exact List.forall_mem_nil _
  | whole hnone => exact absurd hnone hslots
  | visited _ hvisits | misplaced _ hvisits =>
    exact List.forall_mem_append.2 ⟨hpartition id hvisits fun hvisit => hvisit.tends,
      fun e he => (Routine.passive_of_noted e he).callsOn_eq⟩
  | created _ hvisits _ _ _ hcreations =>
    exact List.forall_mem_append.2 ⟨hpartition id hvisits fun hvisit => hvisit.tends,
      List.forall_mem_append.2 ⟨fun e he => (Routine.passive_of_noted e he).callsOn_eq,
        hpartition Prod.fst hcreations fun hcreation => hcreation.tends⟩⟩

/-- A call that brings storage up leaves the configured filesystems mounted. -/
theorem leftMounted_of_init (hdown : s.isUp = false) (h : s.init.Runs log (.ok (), s')) :
    ∀ fs ∈ s.config.filesystems, LeftMounted fs log := by
  rcases runs_init h with ⟨hup, -⟩ | ⟨-, -, hfail, -⟩ | ⟨g, -, -, hcourse⟩
  · rw [hdown] at hup
    cases hup
  · cases hfail
  · rcases hcourse.stops_or_passes with ⟨-, hne, -⟩ |
      ⟨before, during, after, capacity, slots, rfl, -, hafter, hsize, hpass, -⟩
    · exact absurd rfl hne
    · intro fs hfs
      have hmounted := hpass.leftMounted hsize fs hfs
      exact (hmounted.append_of_forall fun e he => (hafter e he).callsOn_eq).append

/-- Whoever answers such a call. -/
theorem leftMounted_of_run {σ : Type} {handle : (r : Request) → σ → r.Answer × σ} {x : σ}
    (hdown : s.isUp = false) (hok : (s.init.run handle x).1.1 = .ok ()) :
    ∀ fs ∈ s.config.filesystems, LeftMounted fs (s.init.trace handle x) := by
  have hrun : s.init.Runs (s.init.trace handle x)
      ((s.init.run handle x).1.1, (s.init.run handle x).1.2) := Script.runs_trace handle _ x
  rw [hok] at hrun
  exact leftMounted_of_init hdown hrun

/-- Where there are slots, a call to bring storage up does not call the filesystem of the whole
disk. -/
theorem callsOn_whole_of_init (hslots : s.slots ≠ []) (h : s.init.Runs log (ending, s')) :
    ∀ e ∈ log, e.1.callsOn .whole = false := by
  rcases runs_init h with ⟨-, -, -, rfl⟩ | ⟨-, -, -, -, rfl⟩ | ⟨g, -, -, hcourse⟩
  · exact List.forall_mem_singleton.2 rfl
  · exact List.forall_mem_singleton.2 rfl
  · rcases hcourse.stops_or_passes with ⟨hlog, -, -⟩ |
      ⟨before, during, after, capacity, slots, rfl, hbefore, hafter, hsize, hpass, -⟩
    · exact fun e he => (hlog e he).callsOn_eq
    · exact List.forall_mem_append.2 ⟨fun e he => (hbefore e he).callsOn_eq,
        List.forall_mem_append.2 ⟨hpass.callsOn_whole hslots,
          fun e he => (hafter e he).callsOn_eq⟩⟩

end Storage

namespace Session

variable {device : Option Geometry} {config : Config} {hasFactory : Bool} {z : Session} {σ : Type}

/-- After any calls, a call that finds storage down and succeeds has left the configured
filesystems mounted: of each, the last call was a mount or a format that succeeded. Where there are
partitions, the filesystem of the whole disk is not called. -/
theorem leaves_filesystems_mounted (h : Reached device config hasFactory z)
    (handle : (r : Request) → σ → r.Answer × σ) (x : σ) :
    (z.storage.isUp = false → (z.storage.init.run handle x).1.1 = .ok () →
      ∀ fs ∈ config.filesystems, LeftMounted fs (z.storage.init.trace handle x)) ∧
    (config.isPartitioned = true →
      ∀ e ∈ z.storage.init.trace handle x, e.1.callsOn .whole = false) := by
  have hspecs := h.kept.specs_eq
  refine ⟨fun hdown hok => ?_, fun hpartitioned => ?_⟩
  · have hmounted := Storage.leftMounted_of_run hdown hok
    have hfilesystems : z.storage.config.filesystems = config.filesystems := by
      rw [Config.filesystems, Config.filesystems, Config.isPartitioned, Config.isPartitioned,
        Storage.config, hspecs]
    rwa [hfilesystems] at hmounted
  · refine Storage.callsOn_whole_of_init (fun hnone => ?_) (Script.runs_trace handle _ x)
    rw [hnone] at hspecs
    rw [Config.isPartitioned, ← hspecs] at hpartitioned
    cases hpartitioned

/-- On a disk with a filesystem on its one partition, that filesystem is left mounted. -/
theorem leaves_lone_filesystem_mounted :
    LeftMounted (.partition 1) (Storage.forLonePartition.init.trace Bench.answer lonePartition) ∧
      ∀ e ∈ Storage.forLonePartition.init.trace Bench.answer lonePartition,
        e.1.callsOn .whole = false := by
  have hnew : (Storage.new (some ⟨512, 4096⟩) ⟨[⟨1, 0, 8192, 0x83, "/fs"⟩], false⟩ true).value =
      .ok .forLonePartition := rfl
  obtain ⟨hmounted, hwhole⟩ := leaves_filesystems_mounted (.new hnew) Bench.answer lonePartition
  dsimp only at hmounted hwhole
  exact ⟨hmounted rfl init_forLonePartition _ (List.mem_singleton.2 rfl), hwhole rfl⟩

end Session

end DiskBringup
