import DiskBringup.Proofs.BringUp
import DiskBringup.Proofs.HealthyPartitions
import DiskBringup.Proofs.Placement
import DiskBringup.Proofs.PreparedDisk

/-!
# Partitions that are kept

Storage that must not write to the partition table brings up the partitions that it finds there. A
call keeps the table, and keeps whatever blocks no slot is populated on (`Bench.obeys_init_keeps`).
So if the entries lie apart, a healthy partition keeps its bytes in the call that makes its
filesystem, and is not formatted (`Storage.keeps_healthy`). A call that has to supply a filesystem
which an earlier call has made formats it, whatever is on the partition
(`Bench.requests_init_reformat`). So where one of two partitions is missing, a second call formats
the healthy one (`Storage.formats_healthy_again`).
-/

namespace DiskBringup

/-- The entries that are found for the partitions leave out block 0, and no two of them share a
block. -/
structure Table.EntriesApart (t : Table) (specs : List PartitionSpec) : Prop where
  /-- block 0 is left out -/
  zero_notMem : ∀ a ∈ specs, ∀ x, (t.find a.number).value = .ok x → 0 ∉ x.extent
  /-- two entries share no block -/
  not_shares : ∀ a ∈ specs, ∀ b ∈ specs, a.number ≠ b.number → ∀ x y,
    (t.find a.number).value = .ok x → (t.find b.number).value = .ok y → ¬ x.extent.Shares y.extent

/-- Storage for a configuration on a disk, with nothing to be written to the partition table. -/
structure Storage.Manual (s : Storage) (g : Geometry) (c : Config) : Prop where
  /-- there is a disk -/
  device_eq : s.device = some g
  /-- missing partitions are not written -/
  auto_eq : s.autoPartition = false
  /-- there is a slot for every configured partition -/
  specs_eq : s.slots.map Slot.spec = c.partitions

namespace Bench

/-! ## What calls keep -/

section Keeps

variable {δ φ : Type} [BlockStore δ] {w₀ w w' : Bench δ φ} {kept blocks : Set Nat}
  {made : List String}

open BlockStore

/-- The bench `w` comes from `w₀` without faults, and with the table and the blocks of `kept` as
they were. -/
structure Keeps (w₀ : Bench δ φ) (kept : Set Nat) (w : Bench δ φ) : Prop where
  /-- the disk keeps its shape -/
  geometry_eq : geometry w.store = geometry w₀.store
  /-- no fault is pending -/
  quiet : w.Quiet
  /-- the table is kept -/
  table_eq : (geometry w₀.store).Carries → w.table = w₀.table
  /-- the blocks are kept -/
  byteAt_eq : ∀ (b : UInt64) (k : Nat), b.toNat ∈ kept → b < (geometry w₀.store).numBlocks →
    k < (geometry w₀.store).blockSize.toNat → byteAt w.store b k = byteAt w₀.store b k

theorem Keeps.refl (hq : w.Quiet) : w.Keeps kept w :=
  ⟨rfl, hq, fun _ => rfl, fun _ _ _ _ _ => rfl⟩

theorem Keeps.alters (h : w₀.Keeps kept w) (ha : w.Alters blocks made w') (h0 : 0 ∉ blocks)
    (hkept : ∀ b ∈ kept, b ∉ blocks) : w₀.Keeps kept w' := by
  refine ⟨ha.geometry_eq.trans h.geometry_eq, ha.quiet h.quiet, fun hc => ?_, ?_⟩
  · rw [← h.table_eq hc]
    rw [← h.geometry_eq] at hc
    exact ha.table_eq hc.sectorSize_le hc.pos h0
  · intro b k hb hlt hk
    rw [← h.byteAt_eq b k hb hlt hk]
    rw [← h.geometry_eq] at hlt hk
    exact ha.byteAt_eq b k (hkept b.toNat hb) hlt hk

/-- A block that is kept keeps its mark. -/
theorem Keeps.marked_eq (h : w₀.Keeps kept w) {b : UInt64} (hb : b.toNat ∈ kept)
    (hlt : b < (geometry w₀.store).numBlocks) : w.marked b = w₀.marked b :=
  marked_congr h.geometry_eq fun k hk => h.byteAt_eq b k hb hlt hk

end Keeps

/-! ## Calls that write no entry -/

section Calls

variable {δ φ : Type} [BlockStore δ] [LawfulBlockStore δ] [FilesystemDriver φ]
  {w₀ w : Bench δ φ} {g : Geometry} {c : Config} {kept : Set Nat} {p : Request → Prop}
  {fresh : Slot → Prop}

open BlockStore

/-- Populating a fresh slot on the window of its entry alters blocks of the window that are not
kept, and makes requests that satisfy `p`. -/
def PopulatesApart (w₀ : Bench δ φ) (kept : Set Nat) (p : Request → Prop) (t : Slot) : Prop :=
  ∀ (window : Window) (x : Entry) (w : Bench δ φ), w₀.Keeps kept w →
    w₀.Locates (geometry w₀.store) t.number window x →
    w.Obeys p (t.populate (.window (.disk (geometry w₀.store)) window)) fun _ w' =>
      ∃ made, w.Alters ({b | b ∈ window.extent} \ kept) made w'

/-- Populating a slot alters its window at most. -/
theorem populatesApart_of_disjoint {t : Slot}
    (hdisjoint : ∀ (window : Window) (x : Entry),
      w₀.Locates (geometry w₀.store) t.number window x → ∀ b ∈ window.extent, b ∉ kept)
    (honly : ∀ v : Volume, (t.populate v).Only p) : w₀.PopulatesApart kept p t := by
  intro window x w _ hl
  have hens : w.Ensures (t.populate (.window (.disk (geometry w₀.store)) window)) fun _ w' =>
      ∃ made, w.Alters ({b | b ∈ window.extent} \ kept) made w' :=
    -- the driver may do anything to the blocks of the window
    (ensures_populate (Volume.stays_window _ window) t w).imp fun _ _ ha =>
      ⟨_, ha.mono fun b hb => ⟨hb, hdisjoint window x hl b hb⟩⟩
  exact hens.obeys (honly _)

/-- An attempt on a slot keeps the table and what is to be kept. -/
theorem obeys_bringUp_keeps {t : Slot} (hp : ∀ req : Request, req.Passive → p req)
    (happart : (geometry w₀.store).Carries → w₀.table.EntriesApart c.partitions)
    (ht : t.spec ∈ c.partitions)
    (hpop : w₀.PopulatesApart kept p t) (h : w₀.Keeps kept w) :
    w.Obeys p (t.bringUp (.disk (geometry w₀.store))) fun r w' =>
      w₀.Keeps kept w' ∧ r.2.spec = t.spec := by
  -- with the table kept, an entry that is found now was there at first
  have hlocates : ∀ {window : Window} {x : Entry},
      w.Locates (geometry w₀.store) t.number window x →
      w₀.Locates (geometry w₀.store) t.number window x := fun hl =>
    ⟨hl.carries, h.table_eq hl.carries ▸ hl.find_eq, hl.bound_le, hl.extent_eq⟩
  have hattempt : w.Obeys p (t.bringUp (.disk (geometry w₀.store)))
      (Attempt (geometry w₀.store) t w fun window w₁ _ w' =>
        ∃ made, w₁.Alters ({b | b ∈ window.extent} \ kept) made w') := by
    refine obeys_bringUp h.geometry_eq hp ?_
    intro window x w₁ hl h₁
    exact hpop window x w₁ (h.alters h₁ (Set.notMem_empty 0) fun _ _ => Set.notMem_empty _)
      (hlocates hl)
  refine hattempt.imp ?_
  intro r w' hend
  cases hend with
  | missed partition _ _ ha _ =>
    exact ⟨h.alters ha (Set.notMem_empty 0) fun _ _ => Set.notMem_empty _, rfl⟩
  | @located r w₁ w' window x hl h₁ hpopulated =>
    obtain ⟨made, h₂⟩ := hpopulated
    have hzero := (happart hl.carries).zero_notMem _ ht x (hlocates hl).find_eq
    rw [← hl.extent_eq] at hzero
    exact ⟨h.alters (h₁.of_empty.trans h₂) (fun h0 => hzero h0.1) fun b hb hmem => hmem.2 hb, rfl⟩

/-- A call keeps the table and what is to be kept. -/
theorem obeys_init_keeps {s : Storage} (hp : ∀ req : Request, req.Passive → p req)
    (hs : s.Manual (geometry w₀.store) c) (hparts : c.partitions ≠ [])
    (happart : (geometry w₀.store).Carries → w₀.table.EntriesApart c.partitions)
    (hpop : ∀ t ∈ s.slots, w₀.PopulatesApart kept p t) (hq : w₀.Quiet) :
    w₀.Obeys p s.init fun r w' => w₀.Keeps kept w' ∧ r.2.Manual (geometry w₀.store) c := by
  have hstays : ∀ {w w' : Bench δ φ}, w₀.Keeps kept w → w.Alters ∅ [] w' → w₀.Keeps kept w' :=
    fun h ha => h.alters ha (Set.notMem_empty 0) fun _ _ => Set.notMem_empty _
  have hrefl : w₀.Keeps kept w₀ := Keeps.refl hq
  refine obeys_init hp hs.device_eq (fun w' _ ha => ⟨hstays hrefl ha, hs⟩) fun _ => ?_
  refine obeys_initOn hp (fun r w' _ ha _ => ⟨hstays hrefl ha, hs⟩) ?_
  intro capacity w₁ _ h₁
  have hfinish : ∀ (ending : Outcome StorageError Unit) (slots : List Slot) (w' : Bench δ φ),
      w₀.Keeps kept w' → slots.map Slot.spec = c.partitions →
      Finishes (fun r w' => w₀.Keeps kept w' ∧ r.2.Manual (geometry w₀.store) c)
        (ending, { s with capacity := capacity, slots := slots }) w' := by
    intro ending slots w' hkeeps hspecs
    exact ⟨fun _ => ⟨hkeeps, hs.device_eq, hs.auto_eq, hspecs⟩,
      fun _ w'' ha => ⟨hstays hkeeps ha, hs.device_eq, hs.auto_eq, hspecs⟩⟩
  have hslots : s.slots ≠ [] := by
    intro hnil
    rw [← hs.specs_eq, hnil] at hparts
    exact hparts rfl
  rw [Storage.bringUp_of_slots (s := { s with capacity := capacity }) hslots]
  by_cases hfactory : s.hasFactory = true
  · have hall : w₁.Obeys p (Slot.bringUpAll (.disk (geometry w₀.store)) s.slots) fun r w' =>
        (w₀.Keeps kept w' ∧ r.2.map Slot.spec = c.partitions) ∧ True ∧
          (r.1 = .ok () → ∀ t ∈ r.2, True) := by
      refine obeys_bringUpAll (fun slots w => w₀.Keeps kept w ∧ slots.map Slot.spec = c.partitions)
        (fun _ => True) (fun t => w₀.PopulatesApart kept p t) (fun _ => True) trivial ?_ hpop
        ⟨hstays hrefl h₁, hs.specs_eq⟩
      rintro before t after w ht ⟨hkeeps, hspecs⟩
      have hmem : t.spec ∈ c.partitions := by
        rw [← hspecs, List.map_append, List.map_cons]
        exact List.mem_append_right _ List.mem_cons_self
      refine (obeys_bringUp_keeps hp happart hmem ht hkeeps).imp ?_
      rintro r w' ⟨hkeeps', hspec⟩
      refine ⟨⟨hkeeps', ?_⟩, trivial, fun _ => trivial⟩
      rw [← hspecs, List.map_append, List.map_append, List.map_cons, List.map_cons, hspec]
    refine obeys_bringUpPartitions hfactory hp hall ?_ ?_ ?_ ?_
    · exact fun slots w' h => hfinish _ slots w' h.1.1 h.1.2
    · exact fun o slots w' h => hfinish _ slots w' h.1.1 h.1.2
    · exact fun x slots w' w'' h ha _ => hfinish _ slots w'' (hstays h.1.1 ha) h.1.2
    · intro x slots w' w'' _ _ hauto
      rw [show s.autoPartition = false from hs.auto_eq] at hauto
      cases hauto
  · rw [Storage.bringUpPartitions, if_neg hfactory]
    exact obeys_pure (hfinish _ s.slots w₁ (hstays hrefl h₁) hs.specs_eq)

end Calls

end Bench

/-! ## Populating slots beside a healthy partition -/

/-- A request formats no filesystem but the given one. -/
def Request.FormatsOnly (fs : Filesystem) (req : Request) : Prop :=
  ∀ other v, req = .reformat other v → other = fs

theorem Request.Calls.formatsOnly {fs : Filesystem} {v : Volume} {req : Request}
    (h : req.Calls fs v) : req.FormatsOnly fs := by
  rintro other volume rfl
  exact h.1

/-- Populating the filesystem of a slot formats no other filesystem. -/
theorem Slot.only_populate (t : Slot) (v : Volume) :
    (t.populate v).Only (Request.FormatsOnly t.filesystem) := by
  have hsupply : (t.supply v).Only (Request.FormatsOnly t.filesystem) := by
    rw [Slot.supply]
    split
    · exact Script.Only.bind (Script.only_request (by simp [Request.FormatsOnly])) fun _ =>
        (t.filesystem.only_format v).mono fun _ => Request.Calls.formatsOnly
    · exact Script.Only.bind (Script.only_request (by simp [Request.FormatsOnly])) fun _ => trivial
  refine hsupply.bind ?_
  rintro (u | err | o)
  · exact (t.filesystem.only_probeOrFormat v _).mono fun _ => Request.Calls.formatsOnly
  · trivial
  · trivial

namespace Bench

variable {δ : Type} [BlockStore δ] [LawfulBlockStore δ] {w₀ : Bench δ Signature} {c : Config}
  {number : UInt8} {e : Entry}

open BlockStore

/-- A slot without a filesystem on a healthy partition is populated without formatting. -/
theorem Healthy.populatesApart (h : w₀.Healthy number e) {t : Slot} (ht : t.number = number)
    (hnew : t.hasFilesystem = false) {p : Request → Prop}
    (hp : ∀ req : Request, (∀ fs v, req ≠ .reformat fs v) → p req) :
    w₀.PopulatesApart {b | b ∈ e.extent} p t := by
  intro window x w hkeeps hl
  obtain ⟨rfl, hspans, hmarked⟩ := h.of_locates (ht ▸ hl)
  have hstart : window.extent.start.toNat ∈ {b | b ∈ x.extent} := by
    rw [← hl.extent_eq]
    refine ⟨Nat.le_refl _, Extent.start_lt_bound ?_⟩
    rw [hl.extent_eq]
    exact h.blocks_ne
  rw [← hkeeps.marked_eq hstart hspans.start_lt] at hmarked
  refine (obeys_populate_of_marked hp hkeeps.quiet hkeeps.geometry_eq hspans hnew hmarked).imp ?_
  rintro r w' ⟨-, ha⟩
  exact ⟨_, ha.of_empty⟩

/-- A slot of another partition is populated apart from a partition that shares no block with it. -/
theorem populatesApart_of_ne (hfind : (w₀.table.find number).value = .ok e)
    (happart : (geometry w₀.store).Carries → w₀.table.EntriesApart c.partitions) {t : Slot}
    (ht : t.spec ∈ c.partitions) {s : PartitionSpec} (hs : s ∈ c.partitions)
    (hnumber : s.number = number) (hne : t.number ≠ number) {p : Request → Prop}
    (hp : ∀ req : Request, (∀ v, req ≠ .reformat (.partition number) v) → p req) :
    w₀.PopulatesApart {b | b ∈ e.extent} p t := by
  refine populatesApart_of_disjoint ?_ fun v => (t.only_populate v).mono fun req hreq => hp req ?_
  · intro window x hl b hb he
    rw [hl.extent_eq] at hb
    refine (happart hl.carries).not_shares _ ht s hs ?_ x e hl.find_eq (hnumber ▸ hfind) ⟨b, hb, he⟩
    rw [hnumber]
    exact hne
  · rintro v rfl
    exact hne (Filesystem.partition.inj (hreq _ v rfl)).symm

end Bench

/-! ## A disk with one partition -/

/-- A disk of 4096 blocks with one partition, blocks 1 to 10, that holds a filesystem. -/
def lonePartition : Bench SparseDisk Signature :=
  .new (.prepared 4096 (.holding [⟨1, 10⟩]) [1])

theorem find_lonePartition {n : UInt8} {x : Entry} :
    (lonePartition.table.find n).value = .ok x ↔ n = 1 ∧ x = ⟨1, 0x83, 1, 10⟩ := by
  obtain ⟨-, hrep⟩ := Table.represents_holding [⟨1, 10⟩] (by decide)
  have hordinary := Allotment.ordinary_holding [⟨1, 10⟩] (by decide)
  rw [lonePartition, Bench.table_prepared rfl, hrep.find_eq_ok_iff hordinary]
  constructor
  · rintro ⟨i, rfl, hnumber, hm, -⟩
    rcases Allotment.set_eq_some_iff.1 hm with ⟨hi, hgrant⟩ | ⟨-, hnone⟩
    · refine ⟨hi, ?_⟩
      obtain ⟨number, kind, start, count⟩ := x
      obtain ⟨rfl, hextent⟩ := Grant.mk.inj hgrant
      obtain ⟨hstart, hcount⟩ := Extent.mk.inj hextent
      obtain rfl : number = 1 := hnumber.trans hi
      obtain rfl : start = 1 := UInt32.toUInt64_inj.1 hstart
      obtain rfl : count = 10 := UInt32.toUInt64_inj.1 hcount
      rfl
    · cases hnone
  · rintro ⟨rfl, rfl⟩
    exact ⟨0, rfl, rfl, by decide, by decide⟩

theorem healthy_lonePartition : lonePartition.Healthy 1 ⟨1, 0x83, 1, 10⟩ :=
  ⟨find_lonePartition.2 ⟨rfl, rfl⟩, by decide,
    Bench.marked_prepared rfl (b := 1) List.mem_cons_self (by decide)⟩

theorem entriesApart_lonePartition (specs : List PartitionSpec) :
    lonePartition.table.EntriesApart specs := by
  refine ⟨?_, ?_⟩
  · intro a _ x hx
    obtain ⟨-, rfl⟩ := find_lonePartition.1 hx
    exact fun hmem => absurd hmem.1 (by decide)
  · intro a _ b _ hne x y hx hy
    exact absurd ((find_lonePartition.1 hx).1.trans (find_lonePartition.1 hy).1.symm) hne

/-- Storage for the one partition of that disk, before the first call. -/
def Storage.forLonePartition : Storage :=
  ⟨some ⟨512, 4096⟩, [.new ⟨1, 0, 8192, 0x83, "/fs"⟩], false, true, 0, false⟩

/-- Its first call brings it up. -/
theorem init_forLonePartition :
    (Storage.forLonePartition.init.run Bench.answer lonePartition).1.1 = .ok () := by
  have hsound : ∀ t ∈ Storage.forLonePartition.slots, lonePartition.Sound t :=
    List.forall_mem_singleton.2 ⟨rfl, _, healthy_lonePartition, by decide⟩
  have hinit := Bench.ensures_init_of_healthy (w := lonePartition) (fun f hf => nomatch hf)
    ⟨by decide, by decide, by decide⟩ (show Geometry.size? ⟨512, 4096⟩ = some 2097152 by decide) rfl
    rfl rfl (List.cons_ne_nil _ _) hsound
  have hok := (Bench.ensures_iff.1 hinit).1
  rwa [Bench.run] at hok

/-! ## Calls one after the other -/

namespace Storage

variable {s : Storage} {g : Geometry} {c : Config}

theorem new_manual {hasFactory : Bool}
    (hnew : (Storage.new (some g) c hasFactory).value = .ok s) (hauto : c.autoPartition = false) :
    s.Manual g c := by
  obtain ⟨-, rfl⟩ := new_eq_ok_iff.1 hnew
  exact ⟨rfl, hauto, (List.map_map ..).trans (List.map_id _)⟩

/-- A slot is found by its number where the numbers differ. -/
theorem slot?_eq_some (hnodup : (s.slots.map Slot.number).Nodup) {t : Slot} (ht : t ∈ s.slots) :
    s.slot? t.number = some t := by
  cases hslot : s.slot? t.number with
  | none =>
    have hno := List.find?_eq_none.1 hslot t ht
    exact absurd (beq_self_eq_true t.number) hno
  | some t' =>
    have hnumber : t'.number = t.number := eq_of_beq (List.find?_some hslot :)
    have ht' : t' ∈ s.slots := List.mem_of_find?_eq_some hslot
    exact congrArg some (List.inj_on_of_nodup_map hnodup ht' ht hnumber)

/-- Slots of partitions that lie apart differ in their numbers. -/
theorem nodup_numbers {slots : List Slot}
    (happart : (slots.map Slot.spec).Pairwise PartitionSpec.Apart) :
    (slots.map Slot.number).Nodup := by
  rw [List.pairwise_map] at happart
  rw [List.Nodup, List.pairwise_map]
  exact happart.imp And.left

/-- The numbers of the slots of a valid configuration differ. -/
theorem Manual.nodup_numbers (hs : s.Manual g c)
    (happart : c.partitions.Pairwise PartitionSpec.Apart) :
    (s.slots.map Slot.number).Nodup := by
  rw [← hs.specs_eq] at happart
  exact Storage.nodup_numbers happart

/-- A partition without a filesystem has a slot without one. -/
theorem hasFilesystem_eq_false (hnodup : (s.slots.map Slot.number).Nodup) {t : Slot}
    (ht : t ∈ s.slots) (hnone : s.filesystem? t.number = none) : t.hasFilesystem = false := by
  rw [filesystem?, slot?_eq_some hnodup ht, Option.map_eq_none_iff, Option.filter_eq_none_iff]
    at hnone
  exact Bool.eq_false_iff.2 (hnone t rfl)

variable {δ : Type} [BlockStore δ] [LawfulBlockStore δ] {w : Bench δ Signature}

open BlockStore

/-- A call makes the filesystem of a healthy partition without formatting, and keeps its bytes. -/
theorem Manual.obeys_init_healthy (hs : s.Manual (geometry w.store) c)
    (hvalid : c.partitions.Pairwise PartitionSpec.Apart)
    (happart : (geometry w.store).Carries → w.table.EntriesApart c.partitions) (hq : w.Quiet)
    {x : PartitionSpec} (hx : x ∈ c.partitions) {e : Entry} (hhealthy : w.Healthy x.number e)
    (hnone : s.filesystem? x.number = none) :
    w.Obeys (fun req => ∀ v, req ≠ .reformat (.partition x.number) v) s.init fun _ w' =>
      w.Keeps {b | b ∈ e.extent} w' := by
  have hparts : c.partitions ≠ [] := List.ne_nil_of_mem hx
  have hp : ∀ req : Request, req.Passive → ∀ v, req ≠ .reformat (.partition x.number) v := by
    rintro req hreq v rfl
    cases hreq
  refine (Bench.obeys_init_keeps hp hs hparts happart ?_ hq).imp fun _ _ h => h.1
  intro t ht
  have hspec : t.spec ∈ c.partitions := by
    rw [← hs.specs_eq]
    exact List.mem_map_of_mem ht
  -- the slot of the partition formats nothing; the others have no block in common with it
  by_cases hnumber : t.number = x.number
  · rw [← hnumber] at hnone
    exact hhealthy.populatesApart hnumber
      (hasFilesystem_eq_false (hs.nodup_numbers hvalid) ht hnone) fun req hreq v => hreq _ v
  · exact Bench.populatesApart_of_ne hhealthy.find_eq happart hspec hx rfl hnumber
      fun req hreq => hreq

/-- What is known of the disk and the storage between calls without faults. -/
structure Guarded (s : Storage) (w : Bench δ Signature) (c : Config) : Prop where
  /-- nothing is to be written to the table -/
  manual : s.Manual (geometry w.store) c
  /-- the entries lie apart -/
  apart : (geometry w.store).Carries → w.table.EntriesApart c.partitions

omit [LawfulBlockStore δ] in
theorem Guarded.inject (h : Guarded s w c) (faults : List Fault) :
    Guarded s { w with faults := faults } c :=
  ⟨h.manual, h.apart⟩

/-- A call without faults keeps the table, so its entries stay apart. -/
theorem Guarded.init (hparts : c.partitions ≠ []) (h : Guarded s w c) (hq : w.Quiet) :
    w.Ensures s.init fun r w' => Guarded r.2 w' c := by
  have hpop : ∀ t ∈ s.slots, w.PopulatesApart ∅ (fun _ => True) t := fun t _ =>
    Bench.populatesApart_of_disjoint (fun _ _ _ _ _ => Set.notMem_empty _) fun v =>
      (t.only_populate v).mono fun _ _ => trivial
  refine (Bench.obeys_init_keeps (fun _ _ => trivial) h.manual hparts h.apart hpop hq).imp ?_
  rintro r w' ⟨hkeeps, hmanual⟩
  rw [← hkeeps.geometry_eq] at hmanual
  refine ⟨hmanual, fun hc => ?_⟩
  rw [hkeeps.geometry_eq] at hc
  rw [hkeeps.table_eq hc]
  exact h.apart hc

theorem Guarded.attempts (hparts : c.partitions ≠ []) (calls : List (List Fault))
    (hspent : ∀ faults ∈ calls, ∀ f ∈ faults, f.Spent) (h : Guarded s w c) :
    Guarded (s.attempts w calls).1 (s.attempts w calls).2 c := by
  -- each call hands storage and bench to the next
  induction calls generalizing s w with
  | nil => exact h
  | cons faults rest ih =>
    obtain ⟨hfaults, hrest⟩ := List.forall_mem_cons.1 hspent
    exact ih hrest (Bench.ensures_iff.1 ((h.inject faults).init hparts hfaults))

/-- Where nothing is to be written to the partition table and the entries of the configured
partitions lie apart, no call without faults formats the filesystem of a healthy partition or
alters its bytes, unless an earlier call has made that filesystem. -/
theorem keeps_healthy {hasFactory : Bool}
    (hnew : (Storage.new (some (geometry w.store)) c hasFactory).value = .ok s)
    (hauto : c.autoPartition = false) (happart : w.table.EntriesApart c.partitions)
    (calls : List (List Fault)) (hspent : ∀ faults ∈ calls, ∀ f ∈ faults, f.Spent)
    {faults : List Fault} (hfaults : ∀ f ∈ faults, f.Spent) {x : PartitionSpec}
    (hx : x ∈ c.partitions) {e : Entry}
    (hhealthy : (s.attempts w calls).2.Healthy x.number e)
    (hnone : (s.attempts w calls).1.filesystem? x.number = none) :
    Bench.Obeys { (s.attempts w calls).2 with faults := faults }
      (fun req => ∀ v, req ≠ .reformat (.partition x.number) v) (s.attempts w calls).1.init
      fun _ w' => (s.attempts w calls).2.Keeps {b | b ∈ e.extent} w' := by
  obtain ⟨hvalid, -⟩ := new_eq_ok_iff.1 hnew
  obtain ⟨-, -, hpairs⟩ := Config.validate_eq_ok_iff.1 hvalid
  have hstart : Guarded s w c := ⟨new_manual hnew hauto, fun _ => happart⟩
  have hbefore := hstart.attempts (List.ne_nil_of_mem hx) calls hspent
  have hcall := hbefore.inject faults
  refine (hcall.manual.obeys_init_healthy hpairs hcall.apart hfaults hx (e := e) ?_ hnone).imp ?_
  · exact ⟨hhealthy.find_eq, hhealthy.blocks_ne, hhealthy.marked_eq⟩
  · intro _ w' h
    exact ⟨h.geometry_eq, h.quiet, h.table_eq, h.byteAt_eq⟩

/-- On the disk with one partition, a first call for two partitions does not format the one that
is there. -/
theorem keeps_healthy_at_first :
    let s : Storage := ⟨some ⟨512, 4096⟩,
      [.new ⟨1, 0, 8192, 0x83, "/fs"⟩, .new ⟨2, 8192, 8192, 0x83, "/fs2"⟩], false, true, 0, false⟩
    Bench.Obeys { lonePartition with faults := [] }
      (fun req => ∀ v, req ≠ .reformat (.partition 1) v) s.init
      fun _ w' => lonePartition.Keeps {b | b ∈ Extent.mk 1 10} w' := by
  intro s
  have hnew : (Storage.new (some ⟨512, 4096⟩)
      ⟨[⟨1, 0, 8192, 0x83, "/fs"⟩, ⟨2, 8192, 8192, 0x83, "/fs2"⟩], false⟩ true).value = .ok s := rfl
  have hspent : ∀ f ∈ ([] : List Fault), f.Spent := by simp
  have hhealthy : (s.attempts lonePartition []).2.Healthy 1 ⟨1, 0x83, 1, 10⟩ :=
    healthy_lonePartition
  exact keeps_healthy (x := ⟨1, 0, 8192, 0x83, "/fs"⟩) hnew rfl (entriesApart_lonePartition _) []
    (by simp) hspent List.mem_cons_self hhealthy rfl

end Storage

/-! ## Filesystems that are formatted again -/

namespace Bench

section Reformat

variable {δ φ : Type} [BlockStore δ] [LawfulBlockStore δ] [FilesystemDriver φ] {w : Bench δ φ}
  {g : Geometry} {t : Slot} {e : Entry}

open BlockStore

/-- The request to format a filesystem on some volume. -/
def Formats (fs : Filesystem) (req : Request) : Prop := ∃ v, req = .reformat fs v

/-- An attempt that locates a slot with a filesystem formats that filesystem. -/
theorem requests_bringUp_reformat (hq : w.Quiet) (hg : geometry w.store = g) (hc : g.Carries)
    (hfind : (w.table.find t.number).value = .ok e) (hle : e.extent.bound ≤ g.numBlocks.toNat)
    (hleft : t.hasFilesystem = true) :
    w.Requests (t.bringUp (.disk g)) (Formats t.filesystem) := by
  refine requests_bind (ensures_locate hg t.number) ?_
  rintro r w₁ ⟨-, -, hquiet⟩
  rcases hquiet hq hc with ⟨window, rfl⟩ | ⟨-, hmissing⟩
  · have hformat : w₁.Requests (t.supply (.window (.disk g) window)) (Formats t.filesystem) := by
      -- a slot that has its filesystem formats it before anything is mounted
      rw [Slot.supply, if_pos hleft]
      refine requests_bind (ensures_note _ w₁) fun _ w₂ _ => ?_
      refine requests_bind (ensures_note _ w₂) fun _ w₃ _ => ?_
      exact (requests_request ⟨_, rfl⟩).bind _
    exact (hformat.bind _).bind _
  · exact absurd hle (hmissing e hfind)

/-- A call on storage that is not up formats the filesystem that an earlier call has made for the
first partition, whatever is on the partition. -/
theorem requests_init_reformat {s : Storage} {rest : List Slot} (hq : w.Quiet)
    (hdevice : s.device = some (geometry w.store)) (hdown : s.isUp = false)
    (hfactory : s.hasFactory = true) (hslots : s.slots = t :: rest)
    (hc : (geometry w.store).Carries) {capacity : UInt64}
    (hsize : (geometry w.store).size? = some capacity)
    (hfind : (w.table.find t.number).value = .ok e)
    (hle : e.extent.bound ≤ (geometry w.store).numBlocks.toNat) (hleft : t.hasFilesystem = true) :
    w.Requests s.init (Formats t.filesystem) := by
  have hup : ∀ w₁ : Bench δ φ, w.Alters ∅ [] w₁ →
      w₁.Requests (Storage.bringUp { s with capacity := capacity } (.disk (geometry w.store)))
        (Formats t.filesystem) := by
    intro w₁ h₁
    have htable := h₁.table_eq hc.sectorSize_le hc.pos (Set.notMem_empty 0)
    have hall : w₁.Requests (Slot.bringUpAll (.disk (geometry w.store)) s.slots)
        (Formats t.filesystem) := by
      rw [hslots]
      refine Requests.bind (Requests.bind ?_ _) _
      refine requests_bringUp_reformat (h₁.quiet hq) h₁.geometry_eq hc ?_ hle hleft
      rw [htable]
      exact hfind
    have hne : s.slots ≠ [] := by
      rw [hslots]
      exact List.cons_ne_nil t rest
    rw [Storage.bringUp_of_slots (s := { s with capacity := capacity }) hne,
      Storage.bringUpPartitions, if_pos hfactory]
    exact hall.bind _
  have hinit : w.Ensures (Routine.block .init) fun r w' => w.Alters ∅ [] w' ∧ r = .ok () := by
    refine obeys_request trivial ?_
    obtain ⟨h₁, hok | ⟨hno, -⟩⟩ := init_cases w
    · exact ⟨h₁, hok⟩
    · exact absurd hq hno
  rw [Storage.init, if_neg (by rw [hdown]; exact Bool.false_ne_true), hdevice]
  refine requests_bind hinit ?_
  rintro _ w₁ ⟨h₁, rfl⟩
  dsimp only
  rw [hsize]
  refine requests_bind (ensures_note _ w₁) fun _ w₂ h₂ => ?_
  exact (hup w₂ (h₁.trans h₂)).bind _

end Reformat

end Bench

/-- Storage after a call that has failed but made the filesystem of the first partition. -/
structure Storage.HalfUp (s : Storage) (g : Geometry) (first : PartitionSpec) : Prop where
  /-- there is a disk -/
  device_eq : s.device = some g
  /-- bring-up has not succeeded -/
  isUp_eq : s.isUp = false
  /-- filesystems can be made -/
  hasFactory_eq : s.hasFactory = true
  /-- the first slot has its filesystem -/
  slots_eq : ∃ partition rest, s.slots = ⟨first, partition, true⟩ :: rest

namespace Bench

variable {δ : Type} [BlockStore δ] [LawfulBlockStore δ] {w : Bench δ Signature}

open BlockStore

/-- Slots are not brought up where the first of them has no entry to be found, and nothing is
altered. -/
theorem ensures_bringUpAll_of_missing {g : Geometry} (hg : geometry w.store = g) {t : Slot}
    (hmissing : ∀ x, (w.table.find t.number).value ≠ .ok x) (rest : List Slot) :
    w.Ensures (Slot.bringUpAll (.disk g) (t :: rest)) fun r w' =>
      r.1 ≠ .ok () ∧ w.Alters ∅ [] w' := by
  have hmissed : w.Ensures (t.bringUp (.disk g)) (Attempt g t w fun _ _ _ _ => False) :=
    obeys_bringUp hg (fun _ _ => trivial) fun _ x _ hl _ => absurd hl.find_eq (hmissing x)
  refine obeys_bringUpAll_cons hmissed ?_ ?_
  · intro t' w' hend
    cases hend with
    | missed partition hr => exact absurd rfl hr
    | located _ _ hno => exact hno.elim
  · intro o t' w' hne hend
    cases hend with
    | missed partition hr _ ha _ => exact ⟨hne, ha⟩
    | located _ _ hno => exact hno.elim

/-- Slots of which the first is on a healthy partition and the second has no entry are not brought
up. Nothing is altered, and the first has its filesystem. -/
theorem Healthy.ensures_bringUpAll {t u : Slot} {e : Entry} (h : w.Healthy t.number e)
    (hq : w.Quiet) (hc : (geometry w.store).Carries)
    (hle : e.extent.bound ≤ (geometry w.store).numBlocks.toNat) (hnew : t.hasFilesystem = false)
    (hmissing : ∀ x, (w.table.find u.number).value ≠ .ok x) (rest : List Slot) :
    w.Ensures (Slot.bringUpAll (.disk (geometry w.store)) (t :: u :: rest)) fun r w' =>
      r.1 ≠ .ok () ∧ (∃ made, w.Alters ∅ made w') ∧
        ∃ partition rest', r.2 = ⟨t.spec, partition, true⟩ :: rest' := by
  refine obeys_bringUpAll_cons (h.ensures_bringUp hq hc hle hnew) ?_ ?_
  · rintro t' w₁ ⟨⟨made, h₁⟩, window, -, heq⟩
    obtain rfl := (Prod.mk.inj heq).2
    rw [← h₁.table_eq hc.sectorSize_le hc.pos (Set.notMem_empty 0)] at hmissing
    refine (ensures_bringUpAll_of_missing h₁.geometry_eq hmissing rest).imp ?_
    rintro r w₂ ⟨hne, h₂⟩
    exact ⟨hne, ⟨made, h₁.trans_nil h₂⟩, _, _, rfl⟩
  · rintro o t' w₁ hne ⟨-, window, -, heq⟩
    obtain rfl := (Prod.mk.inj heq).1
    exact absurd rfl hne

/-- A call that finds the first of two partitions healthy and the second missing fails, alters
nothing and leaves the filesystem of the first. -/
theorem Healthy.ensures_init {a b : PartitionSpec} {e : Entry} (h : w.Healthy a.number e)
    (hq : w.Quiet) (hc : (geometry w.store).Carries) {capacity : UInt64}
    (hsize : (geometry w.store).size? = some capacity)
    (hle : e.extent.bound ≤ (geometry w.store).numBlocks.toNat)
    (hmissing : ∀ x, (w.table.find b.number).value ≠ .ok x) :
    w.Ensures
      (Storage.init ⟨some (geometry w.store), [Slot.new a, Slot.new b], false, true, 0, false⟩)
      fun r w' => (∃ made, w.Alters ∅ made w') ∧ r.2.HalfUp (geometry w.store) a := by
  refine obeys_init (fun _ _ => trivial) rfl (fun _ hup => (nomatch hup)) fun _ => ?_
  refine obeys_initOn (fun _ _ => trivial) ?_ ?_
  · intro r w' _ _ hnone
    rw [hsize] at hnone
    cases hnone hq
  intro capacity' w₁ _ h₁
  -- initialising the disk has left the one healthy and the other missing
  rw [← h₁.table_eq hc.sectorSize_le hc.pos (Set.notMem_empty 0)] at hmissing
  have hall := (h.alters h₁ hc hle).ensures_bringUpAll (t := .new a) (u := .new b) (h₁.quiet hq)
    (h₁.geometry_eq ▸ hc) (h₁.geometry_eq ▸ hle) rfl hmissing []
  rw [h₁.geometry_eq] at hall
  have hfinish : ∀ (ending : Outcome StorageError Unit) (slots : List Slot)
      (w' : Bench δ Signature), ending ≠ .ok () → (∃ made, w₁.Alters ∅ made w') →
      (∃ partition rest, slots = ⟨a, partition, true⟩ :: rest) →
      Finishes (fun r w' => (∃ made, w.Alters ∅ made w') ∧ r.2.HalfUp (geometry w.store) a)
        (ending, ⟨some (geometry w.store), slots, false, true, capacity', false⟩) w' := by
    rintro ending slots w' hne ⟨made, ha⟩ hslots
    exact ⟨fun _ => ⟨⟨made, h₁.trans ha⟩, rfl, rfl, rfl, hslots⟩, fun hok => absurd hok hne⟩
  change w₁.Ensures (Storage.bringUpPartitions
    ⟨some (geometry w.store), [Slot.new a, Slot.new b], false, true, capacity', false⟩ _) _
  refine obeys_bringUpPartitions rfl (fun _ _ => trivial) hall ?_ ?_ ?_ ?_
  · exact fun slots w' hmid => absurd rfl hmid.1
  · exact fun o slots w' hmid => hfinish _ slots w' (by simp) hmid.2.1 hmid.2.2
  · rintro x slots w' w'' ⟨-, ⟨made, ha⟩, hslots⟩ h'' -
    exact hfinish _ slots w'' (by simp) ⟨made, ha.trans_nil h''⟩ hslots
  · exact fun _ _ _ _ _ _ hauto => (nomatch hauto)

end Bench

namespace Storage

variable {δ : Type} [BlockStore δ] [LawfulBlockStore δ] {w : Bench δ Signature}

open BlockStore Bench

/-- If the first of two partitions is healthy and the second is missing, the first stays healthy in
a call, and the next call formats it. -/
theorem requests_second_init_reformat {a b : PartitionSpec} {e : Entry} {s : Storage}
    (hs : s = ⟨some (geometry w.store), [.new a, .new b], false, true, 0, false⟩)
    (hhealthy : w.Healthy a.number e) (hc : (geometry w.store).Carries) {capacity : UInt64}
    (hsize : (geometry w.store).size? = some capacity)
    (hle : e.extent.bound ≤ (geometry w.store).numBlocks.toNat)
    (hmissing : ∀ x, (w.table.find b.number).value ≠ .ok x) :
    (s.attempts w [[]]).2.Healthy a.number e ∧
      Requests { (s.attempts w [[]]).2 with faults := [] } (s.attempts w [[]]).1.init
        (Formats (.partition a.number)) := by
  have hstart : Healthy { w with faults := [] } a.number e :=
    ⟨hhealthy.find_eq, hhealthy.blocks_ne, hhealthy.marked_eq⟩
  have hsecond : ∀ (made : List String) (w' : Bench δ Signature) (s' : Storage),
      Alters ∅ made { w with faults := [] } w' → s'.HalfUp (geometry w.store) a →
      Requests { w' with faults := [] } s'.init (Formats (.partition a.number)) := by
    rintro made w' s' ha ⟨hdevice, hdown, hfactory, partition, rest, hslots⟩
    have hg : geometry w'.store = geometry w.store := ha.geometry_eq
    have hfind := (hstart.alters ha hc hle).find_eq
    rw [← hg] at hdevice hc hsize hle
    exact requests_init_reformat (t := ⟨a, partition, true⟩) (by simp [Quiet]) hdevice hdown
      hfactory hslots hc hsize hfind hle rfl
  have hinit := ensures_iff.1 (hstart.ensures_init (b := b) (by simp [Quiet]) hc hsize hle hmissing)
  rw [hs]
  obtain ⟨⟨made, ha⟩, hhalf⟩ := hinit
  exact ⟨hstart.alters ha hc hle, hsecond made _ _ ha hhalf⟩

/-- A second call for these partitions formats the one that is there. -/
theorem formats_healthy_again :
    let c : Config := ⟨[⟨1, 0, 8192, 0x83, "/fs"⟩, ⟨2, 8192, 8192, 0x83, "/fs2"⟩], false⟩
    let s : Storage := ⟨some ⟨512, 4096⟩, c.partitions.map Slot.new, false, true, 0, false⟩
    (Storage.new (some ⟨512, 4096⟩) c true).value = .ok s ∧
      lonePartition.table.EntriesApart c.partitions ∧
      (s.attempts lonePartition [[]]).2.Healthy 1 ⟨1, 0x83, 1, 10⟩ ∧
      Bench.Requests { (s.attempts lonePartition [[]]).2 with faults := [] }
        (s.attempts lonePartition [[]]).1.init (Bench.Formats (.partition 1)) := by
  intro c s
  refine ⟨rfl, entriesApart_lonePartition _, ?_⟩
  refine requests_second_init_reformat (a := ⟨1, 0, 8192, 0x83, "/fs"⟩)
    (b := ⟨2, 8192, 8192, 0x83, "/fs2"⟩) rfl healthy_lonePartition ⟨by decide, by decide, by decide⟩
    (show Geometry.size? ⟨512, 4096⟩ = some 2097152 by decide) (by decide) ?_
  intro x hx
  exact absurd (find_lonePartition.1 hx).1 (by decide)

end Storage

end DiskBringup
