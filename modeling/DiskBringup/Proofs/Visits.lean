import DiskBringup.Proofs.Logs
import DiskBringup.Proofs.Requests
import DiskBringup.Storage.Basic

/-!
# What calls of storage may do

All that a call to bring storage up can do, whatever it is answered, in terms of its log. An
attempt on a slot is a `Slot.Visit`: the partition is missed, or it is located and its filesystem is
populated (`Slot.Populates`). The creation of a partition, `Slot.Creation`, writes its entry before
the visit. What is brought up on an initialised disk is a `Storage.Pass` over the slots, and a whole
call on a disk is a `Storage.Course`. Each has a case for every way to end, with the ending and what
is noted of it, and comes with the lemma that a run is one of these (`Slot.runs_bringUp`,
`Slot.runs_create`, `Storage.runs_bringUp`, `Storage.runs_initOn`), so that no proof about calls
opens their definitions again. Wiping storage goes by `Slot.Wiping` and `Storage.Wiping` in the same
way.
-/

namespace DiskBringup

open Routine (Log)

variable {log : Log}

namespace Routine

variable {α : Type}

/-- The log of taking notes. -/
def noted (notes : List Note) : Log := notes.map fun n => ⟨.note n, ()⟩

theorem noted_append (notes notes' : List Note) :
    noted (notes ++ notes') = noted notes ++ noted notes' :=
  List.map_append

theorem mem_noted {notes : List Note} {n : Note} (h : n ∈ notes) : ⟨.note n, ()⟩ ∈ noted notes :=
  List.mem_map_of_mem h

theorem passive_of_noted {notes : List Note} : ∀ e ∈ noted notes, e.1.Passive :=
  List.forall_mem_map.2 fun _ _ => trivial

theorem runs_notes {notes : List Note} (h : (Routine.notes notes).Runs log ()) :
    log = noted notes := by
  induction notes generalizing log with
  | nil => exact (Script.runs_pure_iff.1 h).1
  | cons n rest ih =>
    obtain ⟨_, log', hrest, rfl⟩ := Script.runs_request_bind_iff.1 h
    rw [ih hrest]
    rfl

/-- A value with notes is taken as it is. -/
theorem runs_ofNoted {x : Noted α} {a : α} (h : (ofNoted x).Runs log a) :
    a = x.value ∧ log = noted x.notes := by
  obtain ⟨log₁, _, log₂, hnotes, hend, rfl⟩ := Script.runs_bind_iff.1 h
  obtain ⟨rfl, rfl⟩ := Script.runs_pure_iff.1 hend
  exact ⟨rfl, by rw [runs_notes hnotes, List.append_nil]⟩

theorem ends_ofNoted (x : Noted α) :
    (ofNoted x).Ends fun log a => (∀ e ∈ log, e.1.Passive) ∧ a = x.value :=
  (only_ofNoted x).ends.and fun _ _ hrun => (runs_ofNoted hrun).1

end Routine

/-- A partition is located at an entry that ends on the volume, and this is noted. -/
theorem runs_locate_ok {v : Volume} {number : UInt8} {window : Window}
    (h : (locate v number).Runs log (.ok window)) :
    ∃ entry, (∃ e ∈ log, e.1 = .note (.partitionLocated number entry)) ∧
      window.extent = entry.extent ∧ window.extent.bound ≤ v.numBlocks.toNat := by
  obtain ⟨log₁, read, log₂, -, hrest, rfl⟩ := Script.runs_bind_iff.1 h
  cases read with
  | fail err => cases (Script.runs_pure_iff.1 hrest).2
  | overflow o => cases (Script.runs_pure_iff.1 hrest).2
  | ok table =>
    obtain ⟨log₂, found, log₃, -, hwindow, rfl⟩ := Script.runs_bind_iff.1 hrest
    cases found with
    | error err => cases (Script.runs_pure_iff.1 hwindow).2
    | ok entry =>
      obtain ⟨hvalue, rfl⟩ := Routine.runs_ofNoted hwindow
      rw [Entry.window, dif_pos entry.addressable_extent] at hvalue ⊢
      by_cases hlt : v.numBlocks.toNat < entry.extent.bound
      · rw [if_pos hlt] at hvalue
        cases hvalue
      · rw [if_neg hlt] at hvalue ⊢
        obtain rfl := Outcome.ok.inj hvalue
        refine ⟨entry, ⟨⟨.note (.partitionLocated number entry), ()⟩, ?_, rfl⟩, rfl,
          Nat.not_lt.1 hlt⟩
        exact List.mem_append_right _ (List.mem_append_right _ (List.mem_singleton.2 rfl))

/-- Locating a partition changes nothing, and so do notes of it. -/
theorem passive_of_locate {v : Volume} {number : UInt8} {found : Outcome ErrorCode Window}
    (h : (locate v number).Runs log found) (notes : List Note) :
    ∀ e ∈ log ++ Routine.noted notes, e.1.Passive :=
  List.forall_mem_append.2 ⟨h.only (only_locate v number), Routine.passive_of_noted⟩

/-! ## Visits of a slot -/

namespace Slot

/-- How the filesystem of a slot may be populated on a volume. -/
inductive Populates (v : Volume) (s : Slot) : Log → Outcome StorageError Unit → Prop
  /-- a filesystem that is left from before does not format -/
  | unformatted {log : Log} {ending : Outcome StorageError Unit} (hs : s.hasFilesystem = true)
    (hformat : (s.filesystem.format v).Runs log ending) (hne : ending ≠ .ok ()) :
    Populates v s (⟨.note (.formattingPartition s.number), ()⟩ :: log) ending
  /-- it is formatted first -/
  | left {formatted log : Log} {ending : Outcome StorageError Unit} (hs : s.hasFilesystem = true)
    (hformat : (s.filesystem.format v).Runs formatted (.ok ()))
    (hprobe : (s.filesystem.probeOrFormat v (.formattingPartition s.number)).Runs log ending) :
    Populates v s (⟨.note (.formattingPartition s.number), ()⟩ :: (formatted ++ log)) ending
  /-- there is none, and it is made first -/
  | made {log : Log} {ending : Outcome StorageError Unit} (hs : s.hasFilesystem = false)
    (hprobe : (s.filesystem.probeOrFormat v (.formattingPartition s.number)).Runs log ending) :
    Populates v s (⟨.create s.number s.spec.mountName v, ()⟩ :: log) ending

/-- How an attempt to bring a slot up may go. -/
inductive Visit (disk : Volume) (s : Slot) : Log → Outcome StorageError Unit → Slot → Prop
  /-- the partition is not located, and is forgotten -/
  | missed {log : Log} {code : ErrorCode} (hlocate : (locate disk s.number).Runs log (.fail code)) :
    Visit disk s (log ++ Routine.noted [.partitionInitFailed s.number code])
      (.fail (.partitionInit s.number code)) { s with partition := some (.new s.number) }
  /-- looking for it overflows, and it stays as it is -/
  | overflowed {log : Log} {o : Overflow}
    (hlocate : (locate disk s.number).Runs log (.overflow o)) :
    Visit disk s log (.overflow o) s
  /-- the partition is located, and its filesystem is populated -/
  | located {before log : Log} {window : Window} {ending : Outcome StorageError Unit}
    (hlocate : (locate disk s.number).Runs before (.ok window))
    (hpopulates : s.Populates (.window disk window) log ending) :
    Visit disk s (before ++ log) ending
      { s with partition := some ⟨s.number, some window⟩, hasFilesystem := true }

/-- How the creation of a partition over given blocks may go. -/
inductive Creation (g : Geometry) (extent : Extent) (s : Slot) :
    Log → Outcome StorageError Unit → Slot → Prop
  /-- its entry is refused -/
  | refused {log : Log} {err : TableError}
    (hwrite : (writeEntry (.disk g) s.number s.spec.kind extent).Runs log (.fail err)) :
    Creation g extent s (⟨.note (.creatingPartition s.number), ()⟩ ::
      (log ++ Routine.noted [.creatingFailed s.number err]))
      (.fail (.partitionCreate s.number err.code)) s
  /-- writing its entry overflows -/
  | overflowed {log : Log} {o : Overflow}
    (hwrite : (writeEntry (.disk g) s.number s.spec.kind extent).Runs log (.overflow o)) :
    Creation g extent s (⟨.note (.creatingPartition s.number), ()⟩ :: log) (.overflow o) s
  /-- its entry is written, and the slot is brought up -/
  | written {log after : Log} {ending : Outcome StorageError Unit} {s' : Slot}
    (hwrite : (writeEntry (.disk g) s.number s.spec.kind extent).Runs log (.ok ()))
    (hvisit : s.Visit (.disk g) after ending s') :
    Creation g extent s (⟨.note (.creatingPartition s.number), ()⟩ :: (log ++ after)) ending s'

variable {s s' : Slot} {ending : Outcome StorageError Unit}

theorem runs_populate {v : Volume} (h : (s.populate v).Runs log ending) :
    s.Populates v log ending := by
  obtain ⟨log₁, supplied, log₂, hsupply, hrest, rfl⟩ := Script.runs_bind_iff.1 h
  rw [supply] at hsupply
  cases hs : s.hasFilesystem with
  | false =>
    rw [if_neg (by simp [hs])] at hsupply
    obtain ⟨_, log', hdone, rfl⟩ := Script.runs_request_bind_iff.1 hsupply
    obtain ⟨rfl, rfl⟩ := Script.runs_pure_iff.1 hdone
    exact .made hs hrest
  | true =>
    rw [if_pos hs] at hsupply
    obtain ⟨_, log', hformat, rfl⟩ := Script.runs_request_bind_iff.1 hsupply
    cases supplied with
    | ok u => exact .left hs hformat hrest
    | fail err =>
      obtain ⟨rfl, rfl⟩ := Script.runs_pure_iff.1 hrest
      rw [List.append_nil]
      exact .unformatted hs hformat (by simp)
    | overflow o =>
      obtain ⟨rfl, rfl⟩ := Script.runs_pure_iff.1 hrest
      rw [List.append_nil]
      exact .unformatted hs hformat (by simp)

/-- A filesystem is made where there is none; apart from that only its own calls are made. -/
theorem Populates.calls {v : Volume} (h : s.Populates v log ending) :
    (s.hasFilesystem = true ∧ ∀ e ∈ log, e.1.Calls s.filesystem v) ∨
      s.hasFilesystem = false ∧ ∃ calls, log = ⟨.create s.number s.spec.mountName v, ()⟩ :: calls ∧
        ∀ e ∈ calls, e.1.Calls s.filesystem v := by
  cases h with
  | unformatted hs hformat hne =>
    have hcalls := hformat.only (s.filesystem.only_format v)
    exact .inl ⟨hs, List.forall_mem_cons.2 ⟨trivial, hcalls⟩⟩
  | left hs hformat hprobe =>
    have hcalls := hformat.only (s.filesystem.only_format v)
    have hcalls' := hprobe.only (s.filesystem.only_probeOrFormat v _)
    exact .inl ⟨hs, List.forall_mem_cons.2 ⟨trivial, List.forall_mem_append.2 ⟨hcalls, hcalls'⟩⟩⟩
  | made hs hprobe => exact .inr ⟨hs, _, rfl, hprobe.only (s.filesystem.only_probeOrFormat v _)⟩

theorem runs_bringUp {disk : Volume} (h : (s.bringUp disk).Runs log (ending, s')) :
    s.Visit disk log ending s' := by
  obtain ⟨log₁, found, log₂, hlocate, hrest, rfl⟩ := Script.runs_bind_iff.1 h
  cases found with
  | overflow o =>
    obtain ⟨rfl, rfl, rfl⟩ := Script.runs_pure_pair_iff.1 hrest
    rw [List.append_nil]
    exact .overflowed hlocate
  | fail code =>
    obtain ⟨_, log', hend, rfl⟩ := Script.runs_request_bind_iff.1 hrest
    obtain ⟨rfl, rfl, rfl⟩ := Script.runs_pure_pair_iff.1 hend
    exact .missed hlocate
  | ok window =>
    obtain ⟨log₃, populated, log₄, hpopulate, hend, rfl⟩ := Script.runs_bind_iff.1 hrest
    obtain ⟨rfl, rfl, rfl⟩ := Script.runs_pure_pair_iff.1 hend
    rw [List.append_nil]
    exact .located hlocate (runs_populate hpopulate)

theorem runs_create {g : Geometry} {extent : Extent}
    (h : (s.create (.disk g) extent).Runs log (ending, s')) :
    s.Creation g extent log ending s' := by
  obtain ⟨_, log', hrest, rfl⟩ := Script.runs_request_bind_iff.1 h
  obtain ⟨log₁, written, log₂, hwrite, hvisit, rfl⟩ := Script.runs_bind_iff.1 hrest
  cases written with
  | ok u => exact .written hwrite (runs_bringUp hvisit)
  | overflow o =>
    obtain ⟨rfl, rfl, rfl⟩ := Script.runs_pure_pair_iff.1 hvisit
    rw [List.append_nil]
    exact .overflowed hwrite
  | fail err =>
    obtain ⟨_, log₃, hend, rfl⟩ := Script.runs_request_bind_iff.1 hvisit
    obtain ⟨rfl, rfl, rfl⟩ := Script.runs_pure_pair_iff.1 hend
    exact .refused hwrite

/-! ## Several slots -/

/-- A visit keeps what is configured. -/
theorem Visit.spec_eq {disk : Volume} (h : s.Visit disk log ending s') : s'.spec = s.spec := by
  cases h <;> rfl

/-- Slots are visited in order; a failure comes with the number of its partition. -/
theorem runs_bringUpAll {disk : Volume} {slots slots' : List Slot}
    {ending : Outcome (UInt8 × StorageError) Unit}
    (h : (bringUpAll disk slots).Runs log (ending, slots')) :
    InOrder (Visit disk) slots log (ending.mapFail Prod.snd) slots' := by
  refine (runs_inOrder h).mapFail Prod.snd ?_
  intro s log o s' hstep
  obtain ⟨log₁, ⟨o', s''⟩, log₂, hvisit, hend, rfl⟩ := Script.runs_bind_iff.1 hstep
  obtain ⟨rfl, rfl, rfl⟩ := Script.runs_pure_pair_iff.1 hend
  have hending : (o'.mapFail (s.number, ·)).mapFail Prod.snd = o' := by
    cases o' <;> rfl
  rw [List.append_nil, hending]
  exact runs_bringUp hvisit

theorem runs_createAll {g : Geometry} {slots slots' : List Slot} {extents : List Extent}
    (h : (createAll (.disk g) slots extents).Runs log (ending, slots')) :
    ∃ pairs, slots' = pairs.map Prod.fst ∧
      InOrder (fun x log o x' => x.1.Creation g x.2 log o x'.1) (slots.zip extents) log ending
        pairs := by
  obtain ⟨log₁, ⟨o, pairs⟩, log₂, hall, hend, rfl⟩ := Script.runs_bind_iff.1 h
  obtain ⟨rfl, rfl, rfl⟩ := Script.runs_pure_pair_iff.1 hend
  rw [List.append_nil]
  refine ⟨pairs, rfl, (runs_inOrder hall).imp ?_⟩
  rintro ⟨s, extent⟩ log o ⟨s', extent'⟩ hstep
  obtain ⟨log₂, ⟨o', s''⟩, log₃, hcreate, hend, rfl⟩ := Script.runs_bind_iff.1 hstep
  obtain ⟨rfl, rfl, heq⟩ := Script.runs_pure_pair_iff.1 hend
  obtain ⟨rfl, rfl⟩ := Prod.mk.inj heq
  rw [List.append_nil]
  exact runs_create hcreate

end Slot

/-! ## Calls -/

namespace Storage

/-- How bring-up on an initialised disk may go. -/
inductive Pass (g : Geometry) (s : Storage) : Log → Outcome StorageError Unit → List Slot → Prop
  /-- nothing can make filesystems for partitions -/
  | refused (hslots : s.slots ≠ []) (hfactory : s.hasFactory = false) :
    Pass g s [] (.fail .noFileSystemFactory) s.slots
  /-- the disk has one filesystem -/
  | whole {log : Log} {ending : Outcome StorageError Unit} (hslots : s.slots = [])
    (hprobe : (Filesystem.whole.probeOrFormat (.disk g) .formattingStorage).Runs log ending) :
    Pass g s log ending s.slots
  /-- the slots are visited, up to the first that does not come up -/
  | visited {log : Log} {ending : Outcome StorageError Unit} {slots : List Slot}
    (hslots : s.slots ≠ []) (hvisits : InOrder (Slot.Visit (.disk g)) s.slots log ending slots)
    (notes : List Note) :
    Pass g s (log ++ Routine.noted notes) ending slots
  /-- one does not come up, and the layout is refused -/
  | misplaced {log : Log} {visits : Outcome StorageError Unit} {slots : List Slot}
    {reason : LayoutError} (hslots : s.slots ≠ [])
    (hvisits : InOrder (Slot.Visit (.disk g)) s.slots log visits slots) (notes : List Note)
    (hnote : .layoutRefused reason ∈ notes) :
    Pass g s (log ++ Routine.noted notes) (.fail (.invalidLayout reason)) slots
  /-- one does not come up, and the partitions are created -/
  | created {log made : Log} {visits ending : Outcome StorageError Unit} {slots : List Slot}
    {extents : List Extent} {pairs : List (Slot × Extent)} (hslots : s.slots ≠ [])
    (hvisits : InOrder (Slot.Visit (.disk g)) s.slots log visits slots) (notes : List Note)
    (hauto : s.autoPartition = true)
    (hlayout : (s.config.layout s.capacity g.blockSize).value = .ok extents)
    (hcreations : InOrder (fun x log o x' => x.1.Creation g x.2 log o x'.1) (slots.zip extents) made
      ending pairs) :
    Pass g s (log ++ (Routine.noted notes ++ made)) ending (pairs.map Prod.fst)

/-- The log of a disk that initialises. -/
def started (capacity : UInt64) : Log :=
  [⟨.block .init, .ok ()⟩, ⟨.note (.deviceReady capacity), ()⟩]

/-- How a call to bring storage up on a disk may go. -/
inductive Course (g : Geometry) (s : Storage) : Log → Outcome StorageError Unit → Storage → Prop
  /-- the disk does not initialise -/
  | stopped {code : ErrorCode} :
    Course g s [⟨.block .init, .error code⟩, ⟨.note (.deviceInitFailed code), ()⟩]
      (.fail (.deviceInit code)) s
  /-- the size of the disk is no word -/
  | oversized (hsize : g.size? = none) : Course g s [⟨.block .init, .ok ()⟩] (.overflow .multiply) s
  /-- the disk initialises, and what is configured is brought up -/
  | passed {log : Log} {ending : Outcome StorageError Unit} {capacity : UInt64}
    {slots : List Slot} (hsize : g.size? = some capacity)
    (hpass : Pass g { s with capacity := capacity } log ending slots) (notes : List Note)
    (hnotes : ∀ n ∈ notes, n = .storageUp) :
    Course g s (started capacity ++ (log ++ Routine.noted notes)) ending
      { s with capacity := capacity, slots := slots, isUp := s.isUp || decide (ending = .ok ()) }

variable {g : Geometry} {s s' : Storage} {ending : Outcome StorageError Unit}

/-- The layout is refused, or the partitions are created. -/
theorem runs_createPartitions (h : (s.createPartitions (.disk g)).Runs log (ending, s')) :
    (∃ notes reason, log = Routine.noted notes ∧ .layoutRefused reason ∈ notes ∧
      ending = .fail (.invalidLayout reason) ∧ s' = s) ∨
      ∃ notes made extents pairs, log = Routine.noted notes ++ made ∧
        (s.config.layout s.capacity g.blockSize).value = .ok extents ∧
        InOrder (fun x log o x' => x.1.Creation g x.2 log o x'.1) (s.slots.zip extents) made ending
          pairs ∧ s' = { s with slots := pairs.map Prod.fst } := by
  obtain ⟨log₁, placed, log₂, hplaced, hrest, rfl⟩ := Script.runs_bind_iff.1 h
  obtain ⟨hvalue, hnotes⟩ := Routine.runs_ofNoted hplaced
  generalize (s.config.layout s.capacity (Volume.disk g).blockSize).notes = notes at hnotes
  subst hnotes
  cases placed with
  | error reason =>
    obtain ⟨_, log₃, hend, rfl⟩ := Script.runs_request_bind_iff.1 hrest
    obtain ⟨rfl, rfl, rfl⟩ := Script.runs_pure_pair_iff.1 hend
    refine .inl ⟨notes ++ [.layoutRefused reason], reason, ?_, ?_, rfl, rfl⟩
    · exact (Routine.noted_append notes [.layoutRefused reason]).symm
    · exact List.mem_append_right _ (List.mem_singleton.2 rfl)
  | ok extents =>
    obtain ⟨made, ⟨o, slots⟩, log₃, hcreate, hend, rfl⟩ := Script.runs_bind_iff.1 hrest
    obtain ⟨rfl, rfl, rfl⟩ := Script.runs_pure_pair_iff.1 hend
    obtain ⟨pairs, rfl, hcreations⟩ := Slot.runs_createAll hcreate
    rw [List.append_nil]
    exact .inr ⟨notes, made, extents, pairs, rfl, hvalue.symm, hcreations, rfl⟩

theorem runs_bringUpPartitions (hslots : s.slots ≠ [])
    (h : (s.bringUpPartitions (.disk g)).Runs log (ending, s')) :
    ∃ slots, s' = { s with slots := slots } ∧ s.Pass g log ending slots := by
  rw [bringUpPartitions] at h
  split at h
  · obtain ⟨log₁, ⟨o, slots⟩, log₂, hall, hrest, rfl⟩ := Script.runs_bind_iff.1 h
    have hvisits := Slot.runs_bringUpAll hall
    cases o with
    | ok u =>
      obtain ⟨rfl, rfl, rfl⟩ := Script.runs_pure_pair_iff.1 hrest
      exact ⟨slots, rfl, .visited hslots hvisits []⟩
    | overflow o =>
      obtain ⟨rfl, rfl, rfl⟩ := Script.runs_pure_pair_iff.1 hrest
      exact ⟨slots, rfl, .visited hslots hvisits []⟩
    | fail x =>
      obtain ⟨number, err⟩ := x
      dsimp only at hrest
      split at hrest
      · rename_i hauto
        obtain ⟨_, log₃, hcreate, rfl⟩ := Script.runs_request_bind_iff.1 hrest
        -- the layout is that of the configuration, which visits keep
        have hconfig : config { s with slots := slots } = s.config := by
          rw [config, config, hvisits.map_eq fun hvisit => hvisit.spec_eq]
        rcases runs_createPartitions hcreate with ⟨notes, reason, rfl, hnote, rfl, rfl⟩ |
          ⟨notes, made, extents, pairs, rfl, hlayout, hcreations, rfl⟩
        · exact ⟨slots, rfl, .misplaced hslots hvisits (.partitionMissing number err :: notes)
            (List.mem_cons_of_mem _ hnote)⟩
        · rw [hconfig] at hlayout
          exact ⟨_, rfl, .created hslots hvisits (.partitionMissing number err :: notes) hauto
            hlayout hcreations⟩
      · obtain ⟨_, log₃, hend, rfl⟩ := Script.runs_request_bind_iff.1 hrest
        obtain ⟨rfl, rfl, rfl⟩ := Script.runs_pure_pair_iff.1 hend
        exact ⟨slots, rfl, .visited hslots hvisits [.partitionDown number err]⟩
  · rename_i hfactory
    obtain ⟨rfl, rfl, rfl⟩ := Script.runs_pure_pair_iff.1 h
    exact ⟨s'.slots, rfl, .refused hslots (Bool.not_eq_true _ ▸ hfactory)⟩

/-- Bringing up what is configured is one pass. -/
theorem runs_bringUp (h : (s.bringUp (.disk g)).Runs log (ending, s')) :
    ∃ slots, s' = { s with slots := slots } ∧ s.Pass g log ending slots := by
  by_cases hslots : s.slots = []
  · have hwhole : s.config.isPartitioned = false := by
      rw [Config.isPartitioned, config, hslots]
      rfl
    rw [bringUp, if_neg (by simp [hwhole])] at h
    obtain ⟨log₁, settled, log₂, hprobe, hend, rfl⟩ := Script.runs_bind_iff.1 h
    obtain ⟨rfl, rfl, rfl⟩ := Script.runs_pure_pair_iff.1 hend
    rw [List.append_nil]
    exact ⟨s'.slots, rfl, .whole hslots hprobe⟩
  · rw [bringUp_of_slots hslots] at h
    exact runs_bringUpPartitions hslots h

/-- Bringing storage up on a disk takes its course. -/
theorem runs_initOn (h : (s.initOn g).Runs log (ending, s')) : s.Course g log ending s' := by
  obtain ⟨r, log₁, hrest, rfl⟩ := Script.runs_request_bind_iff.1 h
  cases r with
  | error code =>
    obtain ⟨_, log₂, hend, rfl⟩ := Script.runs_request_bind_iff.1 hrest
    obtain ⟨rfl, rfl, rfl⟩ := Script.runs_pure_pair_iff.1 hend
    exact .stopped
  | ok u =>
    dsimp only at hrest
    cases hsize : g.size? with
    | none =>
      rw [hsize] at hrest
      obtain ⟨rfl, rfl, rfl⟩ := Script.runs_pure_pair_iff.1 hrest
      exact .oversized hsize
    | some capacity =>
      rw [hsize] at hrest
      obtain ⟨_, log₂, hgo, rfl⟩ := Script.runs_request_bind_iff.1 hrest
      obtain ⟨log₃, ⟨o, s''⟩, log₄, hbringUp, hend, rfl⟩ := Script.runs_bind_iff.1 hgo
      obtain ⟨slots, rfl, hpass⟩ := runs_bringUp hbringUp
      cases o with
      | ok u =>
        obtain ⟨_, log₅, hdone, rfl⟩ := Script.runs_request_bind_iff.1 hend
        obtain ⟨rfl, rfl, rfl⟩ := Script.runs_pure_pair_iff.1 hdone
        have hcourse := Course.passed hsize hpass [.storageUp] (List.forall_mem_singleton.2 rfl)
        rwa [decide_eq_true rfl, Bool.or_true] at hcourse
      | fail err =>
        obtain ⟨rfl, rfl, rfl⟩ := Script.runs_pure_pair_iff.1 hend
        have hcourse := Course.passed hsize hpass [] (List.forall_mem_nil _)
        rwa [decide_eq_false (by simp), Bool.or_false] at hcourse
      | overflow o =>
        obtain ⟨rfl, rfl, rfl⟩ := Script.runs_pure_pair_iff.1 hend
        have hcourse := Course.passed hsize hpass [] (List.forall_mem_nil _)
        rwa [decide_eq_false (by simp), Bool.or_false] at hcourse

/-- Nothing is changed, or what is configured is passed over. -/
theorem Course.stops_or_passes (h : s.Course g log ending s') :
    ((∀ e ∈ log, e.1.Passive) ∧ ending ≠ .ok () ∧ s' = s) ∨
      ∃ before during after capacity slots, log = before ++ (during ++ after) ∧
        (∀ e ∈ before, e.1.Passive) ∧ (∀ e ∈ after, e.1.Passive) ∧ g.size? = some capacity ∧
        Pass g { s with capacity := capacity } during ending slots ∧
        s' = { s with
          capacity := capacity, slots := slots, isUp := s.isUp || decide (ending = .ok ()) } := by
  cases h with
  | stopped =>
    exact .inl ⟨List.forall_mem_cons.2 ⟨trivial, List.forall_mem_singleton.2 trivial⟩, nofun, rfl⟩
  | oversized hsize => exact .inl ⟨List.forall_mem_singleton.2 trivial, nofun, rfl⟩
  | passed hsize hpass notes hnotes =>
    refine .inr ⟨_, _, _, _, _, rfl, ?_, Routine.passive_of_noted, hsize, hpass, rfl⟩
    exact List.forall_mem_cons.2 ⟨trivial, List.forall_mem_singleton.2 trivial⟩

/-- Bringing storage up does nothing but note it where storage is up, or has no disk. -/
theorem runs_init (h : s.init.Runs log (ending, s')) :
    (s.isUp = true ∧ ending = .ok () ∧ s' = s ∧ log = [⟨.note .alreadyUp, ()⟩]) ∨
    (s.isUp = false ∧ s.device = none ∧ ending = .fail .noDevice ∧ s' = s ∧
      log = [⟨.note .noDevice, ()⟩]) ∨
    ∃ g, s.isUp = false ∧ s.device = some g ∧ s.Course g log ending s' := by
  rw [init] at h
  split at h
  · rename_i hup
    obtain ⟨_, log₁, hend, rfl⟩ := Script.runs_request_bind_iff.1 h
    obtain ⟨rfl, rfl, rfl⟩ := Script.runs_pure_pair_iff.1 hend
    exact .inl ⟨hup, rfl, rfl, rfl⟩
  · rename_i hup
    cases hdevice : s.device with
    | some g =>
      rw [hdevice] at h
      exact .inr (.inr ⟨g, Bool.not_eq_true _ ▸ hup, rfl, runs_initOn h⟩)
    | none =>
      rw [hdevice] at h
      obtain ⟨_, log₁, hend, rfl⟩ := Script.runs_request_bind_iff.1 h
      obtain ⟨rfl, rfl, rfl⟩ := Script.runs_pure_pair_iff.1 hend
      exact .inr (.inl ⟨Bool.not_eq_true _ ▸ hup, rfl, rfl, rfl, rfl⟩)

end Storage

/-! ## Wiping -/

namespace Slot

/-- How wiping a slot may go. It stays as it is. -/
inductive Wiping (disk : Volume) (s : Slot) : Log → Outcome StorageError Unit → Slot → Prop
  /-- it has no filesystem, or its partition is not located -/
  | missed {n : Note} (hmissing : s.hasFilesystem = true → s.extent = none) (hn : n.level = .warn) :
    Wiping disk s (Routine.noted [n]) (.fail (.notMounted s.number)) s
  /-- its filesystem is formatted -/
  | formatted {log : Log} {window : Window} {ending : Outcome StorageError Unit}
    (hextent : s.extent = some window.extent)
    (hformat : (s.filesystem.format (.window disk window)).Runs log ending) (notes : List Note) :
    Wiping disk s (log ++ Routine.noted notes) ending s

variable {s : Slot} {disk : Volume} {ending : Outcome StorageError Unit}

theorem runs_wipe (h : (s.wipe disk).Runs log ending) : s.Wiping disk log ending s := by
  rw [wipe] at h
  split at h
  · rename_i partition hpartition hfilesystem
    rw [Partition.volume?] at h
    have hextent : s.extent = partition.window.map Window.extent := by
      rw [extent, hpartition, Option.bind_some, Partition.extent]
    cases hwindow : partition.window with
    | none =>
      rw [hwindow] at h hextent
      obtain ⟨_, log₁, hend, rfl⟩ := Script.runs_request_bind_iff.1 h
      obtain ⟨rfl, rfl⟩ := Script.runs_pure_iff.1 hend
      exact .missed (n := .notInitialised s.number) (fun _ => hextent) rfl
    | some window =>
      rw [hwindow] at h hextent
      obtain ⟨log₁, formatted, log₂, hformat, hrest, rfl⟩ := Script.runs_bind_iff.1 h
      cases formatted with
      | ok u =>
        obtain ⟨rfl, rfl⟩ := Script.runs_pure_iff.1 hrest
        exact .formatted hextent hformat []
      | overflow o =>
        obtain ⟨rfl, rfl⟩ := Script.runs_pure_iff.1 hrest
        exact .formatted hextent hformat []
      | fail err =>
        obtain ⟨_, log₃, hend, rfl⟩ := Script.runs_request_bind_iff.1 hrest
        obtain ⟨rfl, rfl⟩ := Script.runs_pure_iff.1 hend
        exact .formatted hextent hformat [.formattingFailed s.number]
  · rename_i hneither
    obtain ⟨_, log₁, hend, rfl⟩ := Script.runs_request_bind_iff.1 h
    obtain ⟨rfl, rfl⟩ := Script.runs_pure_iff.1 hend
    refine .missed (n := .neverBroughtUp s.number) (fun hs => ?_) rfl
    cases hpartition : s.partition with
    | none => rw [extent, hpartition, Option.bind_none]
    | some partition => exact absurd hs (hneither partition hpartition)

theorem runs_wipeAll {slots : List Slot} (h : (wipeAll disk slots).Runs log ending) :
    InOrder (Wiping disk) slots log ending slots := by
  induction slots generalizing log with
  | nil =>
    obtain ⟨rfl, rfl⟩ := Script.runs_pure_iff.1 h
    exact .nil
  | cons s rest ih =>
    obtain ⟨log₁, wiped, log₂, hwipe, hrest, rfl⟩ := Script.runs_bind_iff.1 h
    cases wiped with
    | ok u => exact .cons (runs_wipe hwipe) (ih hrest)
    | fail err =>
      obtain ⟨rfl, rfl⟩ := Script.runs_pure_iff.1 hrest
      rw [List.append_nil]
      exact .stop (runs_wipe hwipe) (by simp)
    | overflow o =>
      obtain ⟨rfl, rfl⟩ := Script.runs_pure_iff.1 hrest
      rw [List.append_nil]
      exact .stop (runs_wipe hwipe) (by simp)

end Slot

namespace Storage

/-- How wiping what lives on a disk may go. -/
inductive Wiping (g : Geometry) (s : Storage) : Log → Outcome StorageError Unit → Prop
  /-- the filesystem of the whole disk is formatted -/
  | whole {formatted : Outcome ErrorCode Unit} (hslots : s.slots = []) :
    Wiping g s [⟨.reformat .whole (.disk g), formatted⟩] (formatted.mapFail .reformat)
  /-- the slots are wiped, up to the first that fails -/
  | slots {log : Log} {ending : Outcome StorageError Unit}
    (h : InOrder (Slot.Wiping (.disk g)) s.slots log ending s.slots) :
    Wiping g s log ending

variable {g : Geometry} {s : Storage} {ending : Outcome StorageError Unit}

theorem runs_wipeOn (h : (s.wipeOn (.disk g)).Runs log ending) : s.Wiping g log ending := by
  rw [wipeOn] at h
  split at h
  · rename_i hempty
    obtain ⟨formatted, log₁, hend, rfl⟩ := Script.runs_request_bind_iff.1 h
    obtain ⟨rfl, rfl⟩ := Script.runs_pure_iff.1 hend
    exact .whole (List.isEmpty_iff.1 hempty)
  · exact .slots (Slot.runs_wipeAll h)

/-- Storage without a disk is not wiped. A failure to wipe it is noted, whichever it is. -/
theorem runs_wipe (h : s.wipe.Runs log ending) :
    (s.device = none ∧ ending = .fail .noDevice ∧ log = Routine.noted [.noDeviceToReformat]) ∨
    ∃ g during notes, s.device = some g ∧ log = during ++ Routine.noted notes ∧
      s.Wiping g during ending ∧
        ∀ err, ending = .fail err → .storageReformatFailed err ∈ notes := by
  rw [wipe] at h
  cases hdevice : s.device with
  | none =>
    rw [hdevice] at h
    obtain ⟨_, log₁, hend, rfl⟩ := Script.runs_request_bind_iff.1 h
    obtain ⟨rfl, rfl⟩ := Script.runs_pure_iff.1 hend
    exact .inl ⟨rfl, rfl, rfl⟩
  | some g =>
    rw [hdevice] at h
    obtain ⟨during, wiped, log₂, hwipe, hrest, rfl⟩ := Script.runs_bind_iff.1 h
    have hwiping := runs_wipeOn hwipe
    cases wiped with
    | ok u =>
      obtain ⟨_, log₃, hend, rfl⟩ := Script.runs_request_bind_iff.1 hrest
      obtain ⟨rfl, rfl⟩ := Script.runs_pure_iff.1 hend
      exact .inr ⟨g, during, [.storageReformatted], rfl, rfl, hwiping, by simp⟩
    | overflow o =>
      obtain ⟨rfl, rfl⟩ := Script.runs_pure_iff.1 hrest
      exact .inr ⟨g, during, [], rfl, rfl, hwiping, by simp⟩
    | fail err =>
      obtain ⟨_, log₃, hend, rfl⟩ := Script.runs_request_bind_iff.1 hrest
      obtain ⟨rfl, rfl⟩ := Script.runs_pure_iff.1 hend
      exact .inr ⟨g, during, [.storageReformatFailed err], rfl, rfl, hwiping, by simp⟩

/-- A request that wiping storage makes. -/
inductive Wipes (s : Storage) (req : Request) : Prop
  /-- nothing is changed -/
  | passive (h : req.Passive)
  /-- the filesystem of the whole disk is called -/
  | whole {g : Geometry} (hslots : s.slots = []) (h : req.Calls .whole (.disk g))
  /-- the filesystem of a slot is called, for the blocks of its partition -/
  | slot {g : Geometry} {t : Slot} {window : Window} (hdevice : s.device = some g)
    (ht : t ∈ s.slots) (hextent : t.extent = some window.extent)
    (h : req.Calls t.filesystem (.window (.disk g) window))

theorem wipes_of_noted {notes : List Note} : ∀ e ∈ Routine.noted notes, s.Wipes e.1 :=
  fun e he => .passive (Routine.passive_of_noted e he)

theorem Wiping.wipes (hdevice : s.device = some g) (h : s.Wiping g log ending) :
    ∀ e ∈ log, s.Wipes e.1 := by
  cases h with
  | whole hslots => exact List.forall_mem_singleton.2 (.whole (g := g) hslots ⟨rfl, rfl⟩)
  | slots h =>
    refine h.forall_log (fun _ _ => trivial) fun {t _ _ _} ht hwiping _ => ?_
    cases hwiping with
    | missed => exact wipes_of_noted
    | formatted hextent hformat notes =>
      have hcalls := hformat.only (t.filesystem.only_format _)
      exact List.forall_mem_append.2 ⟨fun e he => .slot hdevice ht hextent (hcalls e he),
        wipes_of_noted⟩

theorem wipes_of_runs (h : s.wipe.Runs log ending) : ∀ e ∈ log, s.Wipes e.1 := by
  rcases runs_wipe h with ⟨-, -, rfl⟩ | ⟨g, during, notes, hdevice, rfl, hwiping, -⟩
  · exact wipes_of_noted
  · exact List.forall_mem_append.2 ⟨hwiping.wipes hdevice, wipes_of_noted⟩

end Storage

end DiskBringup
