import DiskBringup.Proofs.Views

/-!
# Runs that only read

`w.Reads w'` says that the bench `w'` comes from `w` by calls none of which writes a block or
formats a filesystem, and that the disk holds what it held. A routine that makes only `Passive`
requests reads, and reaches no filesystem (`Bench.obeys_of_only`).

What a mount does is up to the driver. A volume is `Mountable` if the driver can mount what is on
it, and asks to read and no more. On a disk without faults, a filesystem that is made on such a
volume is mounted at once, and survives a probe; so a slot without a filesystem is populated by
reading (`Bench.obeys_populate_of_mountable`). For filesystems that are known by their signature, a
volume whose first block is marked is mountable (`Signature.mountable`).
-/

namespace DiskBringup

/-! ## Calls that write nothing -/

/-- The call writes no block and formats no filesystem. -/
def Call.Harmless : Call → Prop
  | write _ | reformat _ => False
  | init | deinit | read _ | mount _ | unmount _ => True

/-- The event is not that a block was written or a filesystem formatted. -/
def Event.Harmless : Event → Prop
  | returned c _ => c.Harmless
  | created .. => True

/-- The request writes no block and formats no filesystem, as far as it is the routine that asks. -/
def Request.Harmless : Request → Prop
  | block r => r.Passive
  | reformat .. => False
  | mount .. | unmount _ | create .. | note _ => True

theorem Request.Passive.harmless {req : Request} (h : req.Passive) : req.Harmless := by
  cases req with
  | block r => exact h
  | note n => trivial
  | mount | unmount | reformat | create => cases h

/-- A request that changes no block leaves a store as it is. -/
theorem BlockRequest.Passive.answer_eq {δ : Type} [BlockStore δ] {r : BlockRequest}
    (h : r.Passive) (d : δ) : (BlockStore.answer r d).2 = d := by
  cases r with
  | init | deinit | read => rfl
  | write => cases h

namespace Bench

variable {δ φ α : Type} {w w' w'' : Bench δ φ} {c : Call}

/-- From the first bench to the second the disk was read at most. -/
structure Reads (w w' : Bench δ φ) : Prop where
  /-- the disk holds what it held -/
  store_eq : w'.store = w.store
  /-- no fault comes back -/
  quiet : w.Quiet → w'.Quiet
  /-- nothing that happened was a write or a format -/
  exists_events : ∃ events, w'.events = w.events ++ events ∧ ∀ e ∈ events, e.Harmless

theorem Reads.trans (h : w.Reads w') (h' : w'.Reads w'') : w.Reads w'' := by
  obtain ⟨events, heq, hharmless⟩ := h.exists_events
  obtain ⟨events', heq', hharmless'⟩ := h'.exists_events
  refine ⟨h'.store_eq.trans h.store_eq, fun hq => h'.quiet (h.quiet hq), events ++ events', ?_, ?_⟩
  · rw [heq', heq, List.append_assoc]
  · exact List.forall_mem_append.2 ⟨hharmless, hharmless'⟩

/-- Steps that leave store, trace and faults alone read. -/
theorem reads_of_eq (hstore : w'.store = w.store) (hevents : w'.events = w.events)
    (hfaults : w'.faults = w.faults) : w.Reads w' := by
  refine ⟨hstore, fun hq => ?_, [], ?_, fun e he => absurd he List.not_mem_nil⟩
  · rw [Quiet, hfaults]
    exact hq
  · rw [hevents, List.append_nil]

theorem Reads.refl (w : Bench δ φ) : w.Reads w := reads_of_eq rfl rfl rfl

theorem reads_record {e : Event} (he : e.Harmless) (w : Bench δ φ) : w.Reads (w.record e) :=
  ⟨rfl, id, [e], rfl, List.forall_mem_singleton.2 he⟩

theorem reads_returned (hc : c.Harmless) (failure : Option ErrorCode) (w : Bench δ φ) :
    w.Reads (w.record (.returned c failure)) :=
  reads_record (e := .returned c failure) hc w

theorem reads_conclude (hc : c.Harmless) (r : Outcome ErrorCode α) (w : Bench δ φ) :
    w.Reads (w.conclude c r) := by
  cases r with
  | ok u => exact reads_returned hc none w
  | fail code => exact reads_returned hc (some code) w
  | overflow o => exact Reads.refl w

theorem reads_consult (c : Call) (w : Bench δ φ) : w.Reads (w.consult c).2 :=
  ⟨rfl, fun hq => (Fault.consult_of_spent c hq).2, [], (List.append_nil _).symm,
    fun _ he => absurd he List.not_mem_nil⟩

/-- Without faults none hits a call, and asking them only reads. -/
theorem Quiet.consult_eq (hq : w.Quiet) (c : Call) :
    ∃ w₁, w.consult c = (none, w₁) ∧ w.Reads w₁ ∧ w₁.state = w.state :=
  ⟨(w.consult c).2, Prod.ext (hq.consult_eq_none c) rfl, reads_consult c w, rfl⟩

/-- A call that does no harm reads if what it does when no fault hits it reads. -/
theorem reads_perform (hc : c.Harmless) {act : Bench δ φ → Except ErrorCode α × Bench δ φ}
    (hact : ∀ w : Bench δ φ, w.Reads (act w).2) (w : Bench δ φ) : w.Reads (w.perform c act).2 := by
  have hconsult := reads_consult c w
  rw [perform]
  rcases hcase : w.consult c with ⟨hit, w₁⟩
  rw [hcase] at hconsult
  cases hit with
  | some code => exact hconsult.trans (reads_returned hc _ w₁)
  | none => exact hconsult.trans ((hact w₁).trans (reads_conclude hc _ _))

theorem state_perform {act : Bench δ φ → Except ErrorCode α × Bench δ φ}
    (hact : ∀ w : Bench δ φ, (act w).2.state = w.state) (w : Bench δ φ) :
    (w.perform c act).2.state = w.state := by
  have hconsult : (w.consult c).2.state = w.state := rfl
  rw [perform]
  rcases hc : w.consult c with ⟨hit, w₁⟩
  rw [hc] at hconsult
  cases hit with
  | some code => exact hconsult
  | none => exact (state_conclude c _).trans ((hact w₁).trans hconsult)

/-! ## Requests that are passive -/

variable [BlockStore δ]

/-- A request of the disk that changes no block reads, and reaches no filesystem. -/
theorem reads_block {r : BlockRequest} (hr : r.Passive) (w : Bench δ φ) :
    w.Reads (block r w).2 ∧ (block r w).2.state = w.state := by
  have hmark : ∀ (b : Bool) (w : Bench δ φ), w.Reads { w with isInitialized := b } :=
    fun _ _ => reads_of_eq rfl rfl rfl
  cases r with
  | init =>
    exact ⟨reads_perform (c := .init) trivial (hmark true) w, state_perform (fun _ => rfl) w⟩
  | deinit =>
    exact ⟨reads_perform (c := .deinit) trivial (hmark false) w, state_perform (fun _ => rfl) w⟩
  | read b n =>
    exact ⟨reads_perform (c := .read b) trivial Reads.refl w, state_perform (fun _ => rfl) w⟩
  | write b data => cases hr

variable [FilesystemDriver φ]

/-- A routine that makes only passive requests reads, and reaches no filesystem. -/
theorem obeys_of_only {t : Routine α} (ht : t.Only Request.Passive) (w : Bench δ φ) :
    w.Obeys Request.Harmless t fun _ w' => w.Reads w' ∧ w'.state = w.state := by
  refine Ensures.obeys ?_ (ht.mono fun _ => Request.Passive.harmless)
  have hstep : ∀ (req : Request) (w' : Bench δ φ), req.Passive →
      w.Reads w' ∧ w'.state = w.state →
      w.Reads (answer req w').2 ∧ (answer req w').2.state = w.state := by
    rintro req w' hreq ⟨hreads, hstate⟩
    cases req with
    | block r =>
      obtain ⟨hreads', hstate'⟩ := reads_block hreq w'
      exact ⟨hreads.trans hreads', hstate'.trans hstate⟩
    | note n => exact ⟨hreads.trans (reads_of_eq rfl rfl rfl), hstate⟩
    | mount | unmount | reformat | create => cases hreq
  exact ensures_iff.2 (ht.run_induction hstep ⟨Reads.refl w, rfl⟩)

/-! ## Programs of a driver -/

omit [FilesystemDriver φ] in
/-- A program that asks to read and no more goes on a disk without faults as on its store. -/
theorem run_block_of_passive (hq : w.Quiet) {x : BlockScript α}
    (hx : ∀ e ∈ x.trace BlockStore.answer w.store, e.1.Passive) :
    (x.run block w).1 = (x.run BlockStore.answer w.store).1 ∧ w.Reads (x.run block w).2 := by
  induction x generalizing w with
  | done a => exact ⟨rfl, Reads.refl w⟩
  | call r next ih =>
    obtain ⟨hr, hnext⟩ : r.Passive ∧ ∀ e ∈ (next (BlockStore.answer r w.store).1).trace
        BlockStore.answer (BlockStore.answer r w.store).2, e.1.Passive := List.forall_mem_cons.1 hx
    obtain ⟨hanswer, -⟩ := block_of_quiet hq r
    obtain ⟨hreads, -⟩ := reads_block hr w
    rw [hr.answer_eq] at hnext
    obtain ⟨hvalue, hrest⟩ := ih (BlockStore.answer r w.store).1 (hreads.quiet hq)
      (hreads.store_eq.symm ▸ hnext)
    rw [hreads.store_eq] at hvalue
    rw [Script.run_call, Script.run_call, hanswer, hr.answer_eq]
    exact ⟨hvalue, hreads.trans hrest⟩

end Bench

/-! ## Filesystems that can be mounted -/

/-- The driver tells by `mounted` which filesystems are mounted: one that was never mounted is not,
and one that is can be unmounted. -/
structure FilesystemDriver.Tells {φ : Type} [FilesystemDriver φ] (mounted : φ → Prop) : Prop where
  /-- a filesystem that was never mounted is not mounted -/
  blank : ¬ mounted blank
  /-- a mounted filesystem can be unmounted -/
  unmount_eq : ∀ s, mounted s → (unmount s).1 = .ok ()
  /-- it is not mounted after that -/
  unmounted : ∀ s, mounted s → ¬ mounted (unmount s).2

open FilesystemDriver in
/-- The driver can mount what a disk has on a volume: whatever has become of a filesystem that is
not mounted, a mount asks to read and no more, succeeds, and leaves it mounted. -/
structure Volume.Mountable {δ φ : Type} [BlockStore δ] [FilesystemDriver φ] (v : Volume)
    (mounted : φ → Prop) (d : δ) : Prop where
  /-- the driver asks to read and no more -/
  passive : ∀ s, ¬ mounted s →
    ∀ e ∈ (v.relay (mount s v.geometry)).trace BlockStore.answer d, e.1.Passive
  /-- it succeeds -/
  exists_mounted : ∀ s, ¬ mounted s →
    ∃ s', ((v.relay (mount s v.geometry)).run BlockStore.answer d).1 = (.ok (), s') ∧ mounted s'

/-! ## Calls of a filesystem on such a volume -/

namespace Bench

open FilesystemDriver (Tells)

variable {δ φ : Type} [BlockStore δ] [FilesystemDriver φ] {w : Bench δ φ} {mounted : φ → Prop}
  {v : Volume} {fs : Filesystem}

/-- Without faults, a filesystem is mounted where it can be. -/
theorem mount_of_mountable (hq : w.Quiet) (hv : v.Mountable mounted w.store)
    (hs : ¬ mounted (w.state fs)) :
    (w.mount fs v).1 = .ok () ∧ mounted ((w.mount fs v).2.state fs) ∧
      w.Reads (w.mount fs v).2 := by
  obtain ⟨w₁, hconsult, h₁, hstate⟩ := hq.consult_eq (.mount (w.name fs))
  -- the driver finds the filesystem and the disk as they were
  rw [← hstate] at hs
  rw [← h₁.store_eq] at hv
  obtain ⟨s', hrun, hs'⟩ := hv.exists_mounted _ hs
  obtain ⟨hvalue, hreads⟩ := run_block_of_passive (h₁.quiet hq) (hv.passive _ hs)
  rw [hrun] at hvalue
  rw [mount, drive, hconsult]
  dsimp only [runOn]
  generalize (v.relay (FilesystemDriver.mount (w₁.state fs) v.geometry)).run block w₁ = ending
    at hvalue hreads
  obtain ⟨⟨_, s₂⟩, w₂⟩ := ending
  obtain ⟨rfl, rfl⟩ := Prod.mk.inj hvalue
  have hset : w₂.Reads (w₂.setState fs s₂) := reads_of_eq rfl rfl rfl
  have hconclude := reads_conclude (c := .mount (w.name fs)) trivial (.ok ()) (w₂.setState fs s₂)
  exact ⟨rfl, (setState_self w₂ fs s₂).symm ▸ hs',
    h₁.trans (hreads.trans (hset.trans hconclude))⟩

omit [BlockStore δ] in
/-- Without faults, a mounted filesystem is unmounted. -/
theorem unmount_of_tells (hd : Tells mounted) (hq : w.Quiet) (hs : mounted (w.state fs)) :
    (w.unmount fs).1 = .ok () ∧ ¬ mounted ((w.unmount fs).2.state fs) ∧
      w.Reads (w.unmount fs).2 := by
  obtain ⟨w₁, hconsult, h₁, hstate⟩ := hq.consult_eq (.unmount (w.name fs))
  rw [← hstate] at hs
  rw [unmount, perform, hconsult]
  have hset : w₁.Reads (w₁.setState fs (FilesystemDriver.unmount (w₁.state fs)).2) :=
    reads_of_eq rfl rfl rfl
  have hconclude := reads_conclude (c := .unmount (w.name fs)) trivial
    (.ofExcept (FilesystemDriver.unmount (w₁.state fs)).1)
    (w₁.setState fs (FilesystemDriver.unmount (w₁.state fs)).2)
  refine ⟨hd.unmount_eq _ hs, ?_, h₁.trans (hset.trans hconclude)⟩
  dsimp only
  rw [state_conclude, setState_self]
  exact hd.unmounted _ hs

/-- Without faults, a filesystem that is made where it can be mounted is mounted at once. -/
theorem create_of_mountable (hd : Tells mounted) (hq : w.Quiet)
    (hv : v.Mountable mounted w.store) (number : UInt8) (name : String) :
    mounted ((w.create number name v).state (.partition number)) ∧
      w.Reads (w.create number name v) := by
  have hmade : w.Reads (((w.record (.created name v.geometry)).setName (.partition number)
      name).setState (.partition number) FilesystemDriver.blank) :=
    (reads_record (e := .created name v.geometry) trivial w).trans (reads_of_eq rfl rfl rfl)
  have hblank := setState_self ((w.record (.created name v.geometry)).setName (.partition number)
    name) (.partition number) FilesystemDriver.blank
  rw [create]
  generalize ((w.record (.created name v.geometry)).setName (.partition number) name).setState
    (.partition number) FilesystemDriver.blank = w₁ at hmade hblank
  have hs : ¬ mounted (w₁.state (.partition number)) := hblank ▸ hd.blank
  rw [← hmade.store_eq] at hv
  obtain ⟨-, hmounted, hreads⟩ := mount_of_mountable (hmade.quiet hq) hv hs
  exact ⟨hmounted, hmade.trans hreads⟩

/-! ## Probes -/

/-- Without faults, a mounted filesystem survives a probe where it can be mounted. -/
theorem obeys_probeOrFormat_of_mountable (hd : Tells mounted) (hq : w.Quiet)
    (hv : v.Mountable mounted w.store) (hs : mounted (w.state fs)) (announcement : Note) :
    w.Obeys Request.Harmless (fs.probeOrFormat v announcement) fun r w' =>
      r = .ok () ∧ w.Reads w' := by
  have hunmount : w.Obeys Request.Harmless (Routine.unmount fs) fun r w' =>
      r = .ok () ∧ ¬ mounted (w'.state fs) ∧ w.Reads w' :=
    obeys_request trivial (unmount_of_tells hd hq hs)
  have hprobe : w.Obeys Request.Harmless (fs.probe v) fun r w' => r = .ok () ∧ w.Reads w' := by
    refine hunmount.bind ?_
    rintro r w₁ ⟨rfl, hs₁, h₁⟩
    rw [← h₁.store_eq] at hv
    have hmount : w₁.Obeys Request.Harmless (Routine.mount fs v) fun r w' =>
        r = .ok () ∧ mounted (w'.state fs) ∧ w₁.Reads w' :=
      obeys_request trivial (mount_of_mountable (h₁.quiet hq) hv hs₁)
    refine hmount.bind ?_
    rintro r w₂ ⟨rfl, -, h₂⟩
    exact obeys_pure ⟨rfl, h₁.trans h₂⟩
  refine hprobe.bind ?_
  rintro r w₁ ⟨rfl, h₁⟩
  exact obeys_pure ⟨rfl, h₁⟩

/-- Without faults, a slot without a filesystem is populated by reading on a volume that can be
mounted. -/
theorem obeys_populate_of_mountable (hd : Tells mounted) (hq : w.Quiet)
    (hv : v.Mountable mounted w.store) {t : Slot} (hnew : t.hasFilesystem = false) :
    w.Obeys Request.Harmless (t.populate v) fun r w' => r = .ok () ∧ w.Reads w' := by
  have hsupply : w.Obeys Request.Harmless (t.supply v) fun r w' =>
      r = .ok () ∧ mounted (w'.state t.filesystem) ∧ w.Reads w' := by
    have hcreate : w.Obeys Request.Harmless (Routine.create t.number t.spec.mountName v)
        fun _ w' => mounted (w'.state t.filesystem) ∧ w.Reads w' :=
      obeys_request trivial (create_of_mountable hd hq hv t.number t.spec.mountName)
    rw [Slot.supply, hnew]
    exact hcreate.bind fun _ w₁ h₁ => obeys_pure ⟨rfl, h₁⟩
  refine hsupply.bind ?_
  rintro r w₁ ⟨rfl, hs₁, h₁⟩
  rw [← h₁.store_eq] at hv
  refine (obeys_probeOrFormat_of_mountable hd (h₁.quiet hq) hv hs₁ _).imp ?_
  rintro r w₂ ⟨rfl, h₂⟩
  exact ⟨rfl, h₁.trans h₂⟩

end Bench

/-! ## Filesystems that are known by their signature -/

namespace Signature

/-- The filesystem is mounted. -/
def Mounted (s : Signature) : Prop := s.isMounted = true

/-- A volume whose first block is marked can be mounted. -/
theorem mountable {δ : Type} [BlockStore δ] {v : Volume} {d : δ}
    (hle : v.blockSize.toNat ≤ Buffer.maxLength) {block : Buffer v.blockSize.toNat}
    (hread : ((v.request (.read 0 v.blockSize.toNat)).run BlockStore.answer d).1 = .ok block)
    (hmarked : isMarked block = true) : v.Mountable Mounted d := by
  have hmount : ∀ s : Signature, FilesystemDriver.mount s v.geometry = s.mount v.geometry :=
    fun _ => rfl
  -- the one request of the program is to read the first block
  refine ⟨fun s _ e he => ?_, fun s _ => ⟨⟨true⟩, ?_, rfl⟩⟩
  · rw [hmount, Signature.mount, if_neg (Nat.not_lt.2 hle), Volume.relay, Script.expand_bind,
      Script.expand_request, Script.trace_bind, hread] at he
    simp only [hmarked, if_true, Script.pure_eq, Script.expand_done, Script.trace_done,
      List.append_nil] at he
    exact (v.only_request (r := .read 0 v.blockSize.toNat) trivial).of_mem_trace he
  · rw [hmount, Signature.mount, if_neg (Nat.not_lt.2 hle), Volume.relay, Script.expand_bind,
      Script.expand_request, Script.run_bind, hread]
    simp only [hmarked, if_true, Script.pure_eq, Script.expand_done, Script.run_done]

end Signature

end DiskBringup
