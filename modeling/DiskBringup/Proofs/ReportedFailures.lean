import DiskBringup.Proofs.AtomicEntries
import DiskBringup.Proofs.Placement
import DiskBringup.Proofs.Sessions

/-!
# Which failures are reported

Most failures of storage are reported by a warning before they are returned. `Accounts` says of an
ending and its log that a failure was warned of and that an overflow came from a filesystem or from
a block that is too long. The log of every visit and every creation accounts for its ending, whoever
answers, and from them that of a whole call does (`Storage.Course.accounts`,
`Storage.Wiping.accounts`). One failure is returned without a word: where partitions are configured
and nothing can make filesystems for them, the attempt ends before anything is tried
(`Storage.warns_unless_factory_missing`).
-/

namespace DiskBringup

open Routine (Log)
open Script (ends_pure ends_request_bind)

/-! ## What a log tells of an ending -/

namespace Routine

/-- The log has a warning. -/
def Warned (log : Log) : Prop := ∃ e ∈ log, ∃ n : Note, e.1 = .note n ∧ n.level = .warn

/-- A filesystem overflowed while it was mounted or formatted. -/
def Overflowed (o : Overflow) (log : Log) : Prop :=
  ∃ fs v, ⟨.mount fs v, .overflow o⟩ ∈ log ∨ ⟨.reformat fs v, .overflow o⟩ ∈ log

theorem warned_of_mem {log : Log} {n : Note} (h : ⟨.note n, ()⟩ ∈ log) (hn : n.level = .warn) :
    Warned log :=
  ⟨_, h, n, rfl, hn⟩

end Routine

open Routine (Warned Overflowed warned_of_mem)

variable {v : Volume}

/-- The log accounts for the ending of steps on a disk. -/
inductive Accounts (disk : Volume) (log : Log) : Outcome StorageError Unit → Prop
  /-- the steps succeeded -/
  | succeeded : Accounts disk log (.ok ())
  /-- they failed, with a warning -/
  | failed {err : StorageError} (hwarned : Warned log) (hne : err ≠ .noFileSystemFactory) :
    Accounts disk log (.fail err)
  /-- a block is longer than any buffer -/
  | unbuffered (h : disk.Unbuffered) : Accounts disk log (.overflow .buffer)
  /-- a filesystem overflowed -/
  | passed {o : Overflow} (h : Overflowed o log) : Accounts disk log (.overflow o)

namespace Accounts

variable {log log' : Log} {r : Outcome StorageError Unit}

/-- A longer log accounts for the same ending. -/
theorem mono (h : Accounts v log r) (hsub : log ⊆ log') : Accounts v log' r := by
  cases h with
  | succeeded => exact .succeeded
  | failed hwarned hne =>
    obtain ⟨e, he, hn⟩ := hwarned
    exact .failed ⟨e, hsub he, hn⟩ hne
  | unbuffered h => exact .unbuffered h
  | passed h =>
    obtain ⟨fs, u, h⟩ := h
    exact .passed ⟨fs, u, h.imp (hsub ·) (hsub ·)⟩

theorem cons (h : Accounts v log r) (e : (r : Request) × r.Answer) : Accounts v (e :: log) r :=
  h.mono (List.subset_cons_self e log)

/-- Requests before do not matter. -/
theorem after (h : Accounts v log r) (before : Log) : Accounts v (before ++ log) r :=
  h.mono (List.subset_append_right before log)

/-- Nor do requests afterwards. -/
theorem followed (h : Accounts v log r) (later : Log) : Accounts v (log ++ later) r :=
  h.mono (List.subset_append_left log later)

/-- A failure whose warning stands in the log. -/
theorem of_mem {err : StorageError} (n : Note) (h : ⟨.note n, ()⟩ ∈ log) (hn : n.level = .warn)
    (hne : err ≠ .noFileSystemFactory) : Accounts v log (.fail err) :=
  .failed (warned_of_mem h hn) hne

theorem warned {err : StorageError} (h : Accounts v log (.fail err)) :
    Warned log ∧ err ≠ .noFileSystemFactory := by
  cases h with
  | failed hwarned hne => exact ⟨hwarned, hne⟩

theorem of_buffered {ε α : Type} {o : Overflow}
    (h : (.overflow o : Outcome ε α).Buffered v.Unbuffered) : Accounts v log (.overflow o) := by
  obtain ⟨rfl, hlong⟩ := h o rfl
  exact .unbuffered hlong

end Accounts

/-- Steps in order account for their ending if each step does. -/
theorem accounts_inOrder {β : Type} {R : β → Log → Outcome StorageError Unit → β → Prop}
    {items items' : List β} {log : Log} {ending : Outcome StorageError Unit}
    (h : InOrder R items log ending items')
    (hstep : ∀ {i log o i'}, i ∈ items → R i log o i' → Accounts v log o) :
    Accounts v log ending := by
  by_cases hok : ending = .ok ()
  · rw [hok]
    exact .succeeded
  · obtain ⟨before, part, i, i', rfl, hi, hlast, -⟩ := h.exists_last hok
    exact (hstep hi hlast).after before

/-! ## Filesystems -/

namespace Filesystem

variable (fs : Filesystem) (u : Volume)

theorem accounts_format : (fs.format u).Ends (Accounts v) := by
  refine ends_request_bind fun _ => ends_request_bind ?_
  rintro (_ | code | o)
  · exact ends_pure .succeeded
  · exact ends_request_bind fun _ => ends_pure
      (.of_mem (.reformatFailed code) (by simp) rfl (by simp))
  · exact ends_pure (.passed ⟨fs, u, .inr (by simp)⟩)

theorem accounts_probe : (fs.probe u).Ends (Accounts v) := by
  refine ends_request_bind ?_
  rintro (code | _)
  · exact ends_request_bind fun _ => ends_pure
      (.of_mem (.probeUnmountFailed code) (by simp) rfl (by simp))
  · refine ends_request_bind ?_
    rintro (_ | code | o)
    · exact ends_pure .succeeded
    · exact ends_request_bind fun _ => ends_pure
        (.of_mem (.probeMountFailed code) (by simp) rfl (by simp))
    · exact ends_pure (.passed ⟨fs, u, .inl (by simp)⟩)

theorem accounts_probeOrFormat (announcement : Note) :
    (fs.probeOrFormat u announcement).Ends (Accounts v) := by
  refine (fs.accounts_probe (v := v) u).bind ?_
  rintro log (_ | err | o) h
  · exact ends_pure .succeeded
  · refine ends_request_bind fun _ => (fs.accounts_format (v := v) u).imp ?_
    exact fun _ _ h => (h.cons _).after log
  · exact ends_pure (h.followed [])

end Filesystem

/-! ## Slots -/

namespace Slot

variable {s s' : Slot} {log : Log} {ending : Outcome StorageError Unit}

theorem Populates.accounts {u : Volume} (h : s.Populates u log ending) : Accounts v log ending := by
  cases h with
  | unformatted _ hformat => exact (s.filesystem.accounts_format u _ _ hformat).cons _
  | left _ _ hprobe => exact ((s.filesystem.accounts_probeOrFormat u _ _ _ hprobe).after _).cons _
  | made _ hprobe => exact (s.filesystem.accounts_probeOrFormat u _ _ _ hprobe).cons _

theorem Visit.accounts (h : s.Visit v log ending s') : Accounts v log ending := by
  cases h with
  | @missed _ code =>
    exact .of_mem (.partitionInitFailed s.number code) (List.mem_append_right _ List.mem_cons_self)
      rfl nofun
  | overflowed hlocate => exact .of_buffered (buffered_locate _ _ hlocate)
  | located _ hpopulates => exact hpopulates.accounts.after _

theorem Creation.accounts {g : Geometry} {extent : Extent} (haddr : extent.Addressable)
    (h : s.Creation g extent log ending s') : Accounts (.disk g) log ending := by
  cases h with
  | @refused _ err =>
    refine .of_mem (.creatingFailed s.number err) ?_ rfl nofun
    exact List.mem_cons_of_mem _ (List.mem_append_right _ List.mem_cons_self)
  | overflowed hwrite =>
    rcases ends_writeEntry _ _ hwrite with ⟨-, hr⟩ | ⟨⟨-, -, hbound⟩, -⟩ | ⟨-, hcommits⟩
    · cases hr
    · exact absurd hbound (Nat.not_le.2 haddr)
    · exact .of_buffered hcommits.buffered
  | written _ hvisit => exact (hvisit.accounts.after _).cons _

theorem Wiping.accounts (h : s.Wiping v log ending s') : Accounts v log ending := by
  cases h with
  | @missed n _ hn => exact .of_mem n List.mem_cons_self hn nofun
  | formatted _ hformat => exact (s.filesystem.accounts_format _ _ _ hformat).followed _

end Slot

/-! ## Calls -/

namespace Storage

variable (s : Storage) {g : Geometry}

/-- What a layout places ends at addresses that words can hold. -/
theorem addressable_of_layout {capacity blockSize : UInt64} {extents : List Extent}
    (h : (s.config.layout capacity blockSize).value = .ok extents) :
    ∀ e ∈ extents, e.Addressable := by
  intro e he
  obtain ⟨-, -, -, hforall⟩ := Config.layout_eq_ok_iff.1 h
  obtain ⟨hlength, hplace⟩ := List.forall₂_iff_zip.1 hforall
  rw [← List.map_snd_zip hlength.ge] at he
  obtain ⟨⟨spec, e⟩, hmem, rfl⟩ := List.mem_map.1 he
  have hle := (PartitionSpec.recordable_of_place (hplace hmem)).bound_le
  exact Nat.lt_of_le_of_lt hle (by decide)

variable {s} {s' : Storage} {log : Log} {slots : List Slot} {ending : Outcome StorageError Unit}

/-- The log of a pass accounts for its ending; or nothing can make filesystems for partitions, and
there is no log. -/
theorem Pass.accounts (h : s.Pass g log ending slots) : Accounts (.disk g) log ending ∨
    (s.slots ≠ [] ∧ s.hasFactory = false) ∧ log = [] ∧ ending = .fail .noFileSystemFactory := by
  cases h with
  | refused hslots hfactory => exact .inr ⟨⟨hslots, hfactory⟩, rfl, rfl⟩
  | whole _ hprobe => exact .inl (Filesystem.whole.accounts_probeOrFormat _ _ _ _ hprobe)
  | visited _ hvisits notes =>
    have hall := accounts_inOrder hvisits fun _ hvisit => hvisit.accounts
    exact .inl (hall.followed _)
  | @misplaced _ _ _ reason _ _ notes hnote =>
    refine .inl (.of_mem (.layoutRefused reason) ?_ rfl nofun)
    exact List.mem_append_right _ (Routine.mem_noted hnote)
  | created _ hvisits _ _ hlayout hcreations =>
    have haddr := s.addressable_of_layout hlayout
    have hall := accounts_inOrder hcreations fun hx hcreation =>
      hcreation.accounts (haddr _ (List.of_mem_zip hx).2)
    exact .inl ((hall.after _).after _)

/-- The log of a call on a disk accounts for its ending; or the size of the disk is no word; or
nothing can make filesystems for partitions, and there is no warning. -/
theorem Course.accounts (h : s.Course g log ending s') : Accounts (.disk g) log ending ∨
    g.size? = none ∧ ending = .overflow .multiply ∨
    (s.slots ≠ [] ∧ s.hasFactory = false) ∧ ¬ Warned log ∧ ending = .fail .noFileSystemFactory := by
  cases h with
  | @stopped code =>
    exact .inl (.of_mem (.deviceInitFailed code) (by simp) rfl nofun)
  | oversized hsize => exact .inr (.inl ⟨hsize, rfl⟩)
  | @passed _ _ capacity _ hsize hpass notes hnotes =>
    rcases hpass.accounts with haccounts | ⟨hmissing, rfl, hending⟩
    · exact .inl ((haccounts.followed _).after _)
    · refine .inr (.inr ⟨hmissing, ?_, hending⟩)
      rintro ⟨e, he, n, hn, hlevel⟩
      rcases List.mem_append.1 he with he | he
      · rw [started] at he
        rcases List.mem_cons.1 he with rfl | he
        · cases hn
        · cases List.mem_singleton.1 he
          cases hn
          cases hlevel
      · obtain ⟨n', hn', rfl⟩ := List.mem_map.1 he
        obtain rfl := hnotes n' hn'
        cases hn
        cases hlevel

/-- Where a failure to wipe what lives on a disk is noted, the log accounts for it. -/
theorem Wiping.accounts {notes : List Note} (h : s.Wiping g log ending)
    (hnote : ∀ err, ending = .fail err → .storageReformatFailed err ∈ notes) :
    Accounts (.disk g) (log ++ Routine.noted notes) ending := by
  cases h with
  | @whole formatted =>
    cases formatted with
    | ok u => exact .succeeded
    | overflow o => exact .passed ⟨.whole, .disk g, .inr List.mem_cons_self⟩
    | fail code =>
      refine .of_mem (.storageReformatFailed (.reformat code)) ?_ rfl nofun
      exact List.mem_append_right _ (Routine.mem_noted (hnote _ rfl))
  | slots h => exact (accounts_inOrder h fun _ hwiping => hwiping.accounts).followed _

/-- A failure to bring storage up is warned of, or is that of a missing factory. -/
theorem warned_of_init {err : StorageError} (h : s.init.Runs log (.fail err, s')) :
    Warned log ∧ err ≠ .noFileSystemFactory ∨
      (s.slots ≠ [] ∧ s.hasFactory = false) ∧ ¬ Warned log ∧ err = .noFileSystemFactory := by
  rcases runs_init h with ⟨-, hok, -⟩ | ⟨-, -, hfail, -, rfl⟩ | ⟨g, -, -, hcourse⟩
  · cases hok
  · obtain rfl := Outcome.fail.inj hfail
    exact .inl ⟨warned_of_mem (n := .noDevice) List.mem_cons_self rfl, nofun⟩
  · rcases hcourse.accounts with h | ⟨-, hr⟩ | ⟨hmissing, hsilent, hr⟩
    · exact .inl h.warned
    · cases hr
    · exact .inr ⟨hmissing, hsilent, Outcome.fail.inj hr⟩

/-- A failure to wipe storage is warned of. -/
theorem warned_of_wipe {err : StorageError} (h : s.wipe.Runs log (.fail err)) :
    Warned log ∧ err ≠ .noFileSystemFactory := by
  rcases runs_wipe h with ⟨-, hfail, rfl⟩ | ⟨g, during, notes, -, rfl, hwiping, hnote⟩
  · obtain rfl := Outcome.fail.inj hfail
    exact ⟨warned_of_mem (n := .noDeviceToReformat) List.mem_cons_self rfl, nofun⟩
  · exact (hwiping.accounts hnote).warned

/-- Storage that is refused when it is made is warned of. A call of storage that fails is warned of
too, whatever its requests are answered, unless the failure is that nothing can make filesystems
for partitions: then it is not. -/
theorem warns_unless_factory_missing (device : Option Geometry) (config : Config)
    (hasFactory : Bool) (c : StorageCall) (s : Storage) :
    (∀ err, (new device config hasFactory).value = .error err →
      ∃ n ∈ (new device config hasFactory).notes, n.level = .warn) ∧
    ∀ (s' : Storage) (log : Log) (err : StorageError), (c.routine s).Runs log (.fail err, s') →
      (Warned log ↔ err ≠ .noFileSystemFactory) ∧
      (err = .noFileSystemFactory → c = .init ∧ s.slots ≠ [] ∧ s.hasFactory = false) := by
  refine ⟨?_, ?_⟩
  · intro err herr
    rw [new] at herr ⊢
    cases hvalid : config.validate with
    | error refusal =>
      exact ⟨.configRefused refusal, List.mem_append_left [] (List.mem_singleton.2 rfl), rfl⟩
    | ok u =>
      rw [hvalid] at herr
      cases herr
  · intro s' log err hrun
    cases c with
    | init =>
      rcases warned_of_init hrun with ⟨hwarned, hne⟩ | ⟨⟨hslots, hfactory⟩, hsilent, rfl⟩
      · exact ⟨⟨fun _ => hne, fun _ => hwarned⟩, fun h => absurd h hne⟩
      · exact ⟨⟨fun h => absurd h hsilent, fun h => absurd rfl h⟩, fun _ => ⟨rfl, hslots, hfactory⟩⟩
    | wipe =>
      obtain ⟨hwarned, hne⟩ := warned_of_wipe (StorageCall.runs_wipe hrun).2
      exact ⟨⟨fun _ => hne, fun _ => hwarned⟩, fun h => absurd h hne⟩

/-- Storage with one partition on a disk of two MiB, and nothing to make its filesystem. -/
def withoutFactory : Storage :=
  ⟨some ⟨512, 4096⟩, [.new (.primary 8192)], false, false, 0, false⟩

/-- Three partitions are refused with a warning. Where nothing can make filesystems, the disk is
initialised and bring-up fails without a warning; wiping fails with one. -/
theorem warns_unless_factory_missing_primary :
    let s := withoutFactory
    let crowded : Config := ⟨[.primary 1, .primary 1, .primary 1], false⟩
    let log : Log := [⟨.block .init, .ok ()⟩, ⟨.note (.deviceReady 2097152), ()⟩]
    let log' : Log := [⟨.note (.neverBroughtUp 1), ()⟩,
      ⟨.note (.storageReformatFailed (.notMounted 1)), ()⟩]
    (∃ n ∈ (new none crowded true).notes, n.level = .warn) ∧
      (StorageCall.init.routine s).Runs log
        (.fail .noFileSystemFactory, { s with capacity := 2097152 }) ∧
      ¬ Warned log ∧
      (StorageCall.wipe.routine s).Runs log' (.fail (.notMounted 1), s) ∧ Warned log' := by
  intro s crowded log log'
  obtain ⟨hnew, hinits⟩ := warns_unless_factory_missing none crowded true .init s
  have hwipes := (warns_unless_factory_missing none crowded true .wipe s).2
  have hinit : (StorageCall.init.routine s).Runs log
      (.fail .noFileSystemFactory, { s with capacity := 2097152 }) :=
    .call _ (.call _ (.done _))
  have hwipe : (StorageCall.wipe.routine s).Runs log' (.fail (.notMounted 1), s) :=
    .call _ (.call _ (.done _))
  refine ⟨hnew (.invalidLayout (.tooManyPartitions 3)) rfl, hinit, ?_, hwipe, ?_⟩
  · exact fun h => (hinits _ _ _ hinit).1.1 h rfl
  · exact (hwipes _ _ _ hwipe).1.2 (by simp)

end Storage

end DiskBringup
