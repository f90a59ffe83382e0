import DiskBringup.Proofs.Allotment
import DiskBringup.Proofs.BringUp
import DiskBringup.Proofs.SignatureDriver

/-!
# Healthy partitions

A partition is healthy if it has an entry and a filesystem can be mounted on it. An attempt that
finds a healthy partition and has to make its filesystem mounts what is there: it succeeds, and
alters nothing (`Bench.Healthy.ensures_bringUp`). Storage whose partitions are all healthy comes up
on them (`Bench.ensures_init_of_healthy`).
-/

namespace DiskBringup

namespace Bench

variable {δ : Type} [BlockStore δ] {w w' : Bench δ Signature} {number : UInt8} {e : Entry}

open BlockStore

/-- The partition of a number has an entry, and its first block holds a filesystem that can be
mounted. -/
structure Healthy (w : Bench δ Signature) (number : UInt8) (e : Entry) : Prop where
  /-- the entry is found -/
  find_eq : (w.table.find number).value = .ok e
  /-- the partition has blocks -/
  blocks_ne : e.extent.blocks ≠ 0
  /-- the first block holds a filesystem -/
  marked_eq : w.marked e.extent.start = true

/-- A window that is located for a healthy partition covers its blocks, and starts with the
mark. -/
theorem Healthy.of_locates (h : w.Healthy number e) {window : Window} {x : Entry}
    (hl : w.Locates (geometry w.store) number window x) :
    x = e ∧ window.Spans (geometry w.store) 1 ∧ w.marked window.extent.start = true := by
  obtain rfl : x = e := Except.ok.inj (hl.find_eq.symm.trans h.find_eq)
  have hblocks := h.blocks_ne
  have hmarked := h.marked_eq
  rw [← hl.extent_eq] at hblocks hmarked
  refine ⟨rfl, ⟨hl.carries.le_maxLength, hl.extent_eq ▸ hl.bound_le, ?_⟩, hmarked⟩
  exact Word.toNat_pos hblocks

/-- A partition stays healthy if nothing is altered. -/
theorem Healthy.alters (h : w.Healthy number e) {made : List String}
    (ha : w.Alters ∅ made w') (hc : (geometry w.store).Carries)
    (hle : e.extent.bound ≤ (geometry w.store).numBlocks.toNat) : w'.Healthy number e := by
  have hstart : e.extent.start < (geometry w.store).numBlocks :=
    UInt64.lt_iff_toNat_lt.2 (Nat.lt_of_lt_of_le (Extent.start_lt_bound h.blocks_ne) hle)
  refine ⟨?_, h.blocks_ne, ?_⟩
  · rw [ha.table_eq hc.sectorSize_le hc.pos (Set.notMem_empty 0)]
    exact h.find_eq
  · rw [ha.marked_eq (Set.notMem_empty _) hstart]
    exact h.marked_eq

variable [LawfulBlockStore δ]

/-- An attempt on a healthy partition that has no filesystem yet makes the filesystem, and alters
nothing. -/
theorem Healthy.ensures_bringUp {t : Slot} (h : w.Healthy t.number e) (hq : w.Quiet)
    (hc : (geometry w.store).Carries) (hle : e.extent.bound ≤ (geometry w.store).numBlocks.toNat)
    (hnew : t.hasFilesystem = false) :
    w.Ensures (t.bringUp (.disk (geometry w.store))) fun r w' =>
      (∃ made, w.Alters ∅ made w') ∧ ∃ window : Window, window.extent = e.extent ∧
        r = (.ok (), ⟨t.spec, some ⟨t.number, some window⟩, true⟩) := by
  have hattempt : w.Ensures (t.bringUp (.disk (geometry w.store)))
      (Attempt (geometry w.store) t w fun _ w₁ r w₂ =>
        r = .ok () ∧ ∃ made, w₁.Alters ∅ made w₂) := by
    refine obeys_bringUp rfl (fun _ _ => trivial) ?_
    intro window x w₁ hl h₁
    obtain ⟨-, hspans, hmarked⟩ := h.of_locates hl
    rw [← h₁.marked_eq (Set.notMem_empty _) hspans.start_lt] at hmarked
    refine (obeys_populate_of_marked (fun _ _ => trivial) (h₁.quiet hq) h₁.geometry_eq hspans hnew
      hmarked).imp ?_
    rintro r w₂ ⟨hr, h₂⟩
    exact ⟨hr, _, h₂⟩
  refine hattempt.imp ?_
  intro r w' hend
  cases hend with
  | missed partition hr hpartition ha hquiet =>
    exact absurd hle ((hquiet hq hc).2 e h.find_eq)
  | @located r w₁ w' window x hl h₁ hpopulated =>
    obtain ⟨rfl, made, h₂⟩ := hpopulated
    obtain ⟨rfl, -⟩ := h.of_locates hl
    exact ⟨⟨made, h₁.trans h₂⟩, window, hl.extent_eq, rfl⟩

/-! ## All partitions healthy -/

/-- A slot has no filesystem yet, and its partition is healthy and lies on the disk. -/
structure Sound (w : Bench δ Signature) (t : Slot) : Prop where
  /-- the filesystem is still to be made -/
  hasFilesystem_eq : t.hasFilesystem = false
  /-- the partition is healthy -/
  exists_healthy : ∃ e, w.Healthy t.number e ∧
    e.extent.bound ≤ (geometry w.store).numBlocks.toNat

omit [LawfulBlockStore δ] in
theorem Sound.inject {t : Slot} (h : w.Sound t) (faults : List Fault) :
    Sound { w with faults := faults } t := by
  obtain ⟨hnew, e, ⟨hfind, hblocks, hmarked⟩, hle⟩ := h
  exact ⟨hnew, e, ⟨hfind, hblocks, hmarked⟩, hle⟩

/-- A slot lies on the blocks of its entry. -/
def Lies (w : Bench δ Signature) (t : Slot) : Prop :=
  ∃ e, (w.table.find t.number).value = .ok e ∧ t.extent = some e.extent

/-- Slots on healthy partitions come up, and nothing is altered. -/
theorem ensures_bringUpAll_of_healthy (hq : w.Quiet) (hc : (geometry w.store).Carries)
    {slots : List Slot} (hsound : ∀ t ∈ slots, w.Sound t) :
    w.Ensures (Slot.bringUpAll (.disk (geometry w.store)) slots) fun r w' =>
      ((∃ made, w.Alters ∅ made w') ∧ r.2.map Slot.spec = slots.map Slot.spec) ∧ r.1 = .ok () ∧
        (r.1 = .ok () → ∀ t ∈ r.2, w.Lies t) := by
  refine obeys_bringUpAll (fun after w' => (∃ made, w.Alters ∅ made w') ∧
    after.map Slot.spec = slots.map Slot.spec) (· = .ok ()) w.Sound w.Lies rfl ?_ hsound
    ⟨⟨[], Alters.refl ∅ w⟩, rfl⟩
  rintro before t after w₁ ⟨hnew, e, h, hle⟩ ⟨⟨made, h₁⟩, hspecs⟩
  -- the slots before this one have altered nothing, so its partition is still healthy
  have hg := h₁.geometry_eq
  have hstep := (h.alters h₁ hc hle).ensures_bringUp (h₁.quiet hq) (hg.symm ▸ hc)
    (hg.symm ▸ hle) hnew
  rw [hg] at hstep
  refine hstep.imp ?_
  rintro r w₂ ⟨⟨made', h₂⟩, window, hwindow, rfl⟩
  refine ⟨⟨⟨_, h₁.append h₂⟩, ?_⟩, rfl, fun _ => ⟨e, h.find_eq, congrArg some hwindow⟩⟩
  rw [← hspecs, List.map_append, List.map_append]
  rfl

/-- Storage whose partitions are all healthy comes up on them, and nothing is altered. -/
theorem ensures_init_of_healthy {s : Storage} (hq : w.Quiet) (hc : (geometry w.store).Carries)
    {capacity : UInt64} (hsize : (geometry w.store).size? = some capacity)
    (hdevice : s.device = some (geometry w.store)) (hdown : s.isUp = false)
    (hfactory : s.hasFactory = true) (hslots : s.slots ≠ [])
    (hsound : ∀ t ∈ s.slots, w.Sound t) :
    w.Ensures s.init fun r w' => r.1 = .ok () ∧ (∃ made, w.Alters ∅ made w') ∧
      r.2.slots.map Slot.spec = s.slots.map Slot.spec ∧ ∀ t ∈ r.2.slots, w.Lies t := by
  refine obeys_init (fun _ _ => trivial) hdevice ?_ fun _ => ?_
  · intro w' hup
    rw [hdown] at hup
    cases hup
  refine obeys_initOn (fun _ _ => trivial) ?_ ?_
  · intro r w' _ _ hnone
    rw [hsize] at hnone
    cases hnone hq
  intro capacity' w₁ _ h₁
  -- initialising the disk has left the partitions healthy
  have hsound₁ : ∀ t ∈ s.slots, w₁.Sound t := by
    intro t ht
    obtain ⟨hnew, e, h, hle⟩ := hsound t ht
    exact ⟨hnew, e, h.alters h₁ hc hle, h₁.geometry_eq.symm ▸ hle⟩
  have hall := ensures_bringUpAll_of_healthy (h₁.quiet hq) (h₁.geometry_eq.symm ▸ hc) hsound₁
  rw [h₁.geometry_eq] at hall
  rw [Storage.bringUp_of_slots (s := { s with capacity := capacity' }) hslots]
  refine obeys_bringUpPartitions hfactory (fun _ _ => trivial) hall ?_ ?_ ?_ ?_
  · rintro slots w₂ ⟨⟨⟨made, h₂⟩, hspecs⟩, -, hlies⟩
    refine ⟨fun hne => absurd rfl hne, fun _ w₃ h₃ => ⟨rfl, ⟨made, ?_⟩, hspecs, ?_⟩⟩
    · exact h₁.trans (h₂.trans_nil h₃)
    · intro t ht
      obtain ⟨e, he, hextent⟩ := hlies rfl t ht
      rw [h₁.table_eq hc.sectorSize_le hc.pos (Set.notMem_empty 0)] at he
      exact ⟨e, he, hextent⟩
  · exact fun o slots w₂ h => (nomatch h.2.1)
  · exact fun x slots w₂ w₃ h _ _ => (nomatch h.2.1)
  · exact fun x slots w₂ w₃ h _ _ => (nomatch h.2.1)

end Bench

end DiskBringup
