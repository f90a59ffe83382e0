import DiskBringup.Proofs.ForeignBlocks
import DiskBringup.Proofs.ReadBack
import DiskBringup.Proofs.SharedBlocks
import DiskBringup.Proofs.TableEdits

/-!
# Layouts over stale entries

A layout is written over a signed table one entry at a time, and each entry is checked against
those that are not replaced yet. So what an entry held before may stand in the way of one that is
written earlier, though it is to be replaced as well (`Table.Obstructs`). The entries of a layout
are all written exactly if the table is `Table.Clear` for them (`Bench.ensures_writeEntries`), and
then they hold their types and blocks and the rest of block 0 is kept (`Bench.Rewritten`). Creating
the partitions writes the entries so, with a bring-up after each
(`Bench.rewrites_layout_iff_clear`).
-/

namespace DiskBringup

/-- Write entries in order, up to the first that is refused. -/
def writeEntries (v : Volume) : List (UInt8 × Grant) → Routine (Outcome TableError Unit)
  | [] => return .ok ()
  | (number, a) :: rest => do
    match ← writeEntry v number a.kind a.extent with
    | .ok () => writeEntries v rest
    | .fail err => return .fail err
    | .overflow o => return .overflow o

/-! ## Entries in the way -/

/-- Entries that can be written side by side into a table of the device. -/
structure Grants.Writable (grants : List (UInt8 × Grant)) (g : Geometry) : Prop where
  /-- there are such entries -/
  exists_index : ∀ x ∈ grants, ∃ i, x.1 = Index.number i
  /-- none is protective -/
  kind_ne : ∀ x ∈ grants, x.2.kind ≠ Table.protectiveKind
  /-- their blocks lie on the device -/
  placeable : ∀ x ∈ grants, x.2.extent.Placeable g
  /-- an entry can hold the blocks -/
  recordable : ∀ x ∈ grants, x.2.extent.Recordable
  /-- no two have a number or a block in common -/
  apart : grants.Pairwise fun x y => x.1 ≠ y.1 ∧ ¬ x.2.extent.Shares y.2.extent

theorem Grants.Writable.tail {x : UInt8 × Grant} {rest : List (UInt8 × Grant)} {g : Geometry}
    (h : Writable (x :: rest) g) : Writable rest g where
  exists_index y hy := h.exists_index y (List.mem_cons_of_mem x hy)
  kind_ne y hy := h.kind_ne y (List.mem_cons_of_mem x hy)
  placeable y hy := h.placeable y (List.mem_cons_of_mem x hy)
  recordable y hy := h.recordable y (List.mem_cons_of_mem x hy)
  apart := h.apart.of_cons

/-- The layout of a configuration without protective types can be written. -/
theorem Config.Placed.writable {c : Config} {g : Geometry} {extents : List Extent}
    (h : c.Placed g extents) (hkind : ∀ s ∈ c.partitions, s.kind ≠ Table.protectiveKind) :
    Grants.Writable (c.grants extents) g := by
  have hmem : ∀ {P : UInt8 × Grant → Prop},
      (∀ x ∈ c.partitions.zip extents, P (x.1.number, ⟨x.1.kind, x.2⟩)) →
        ∀ x ∈ c.grants extents, P x := fun hall => List.forall_mem_map.2 hall
  exact
    { exists_index := hmem fun x hx => h.exists_index (List.of_mem_zip hx).1
      kind_ne := hmem fun x hx => hkind _ (List.of_mem_zip hx).1
      placeable := hmem h.placeable
      recordable := hmem h.recordable
      apart := h.pairwise_grants }

/-- A device on which a partition has blocks can hold a table and have it read. -/
theorem Config.Placed.carries {c : Config} {g : Geometry} {extents : List Extent}
    {capacity : UInt64} (h : c.Placed g extents) (hsize : g.size? = some capacity)
    (hne : c.grants extents ≠ []) : g.Carries := by
  obtain ⟨x, hx⟩ := List.exists_mem_of_ne_nil (c.partitions.zip extents)
    (mt (congrArg (List.map _)) hne)
  have htwo := (h.placeable x hx).two_le
  -- the bytes of the two blocks are less than 2 ^ 64
  have hbytes : g.numBlocks.toNat * g.blockSize.toNat = capacity.toNat :=
    Word.mul?_eq_some_iff.1 hsize
  have hle := Nat.mul_le_mul_right g.blockSize.toNat htwo
  have hlt := capacity.toNat_lt
  refine ⟨h.sectorSize_le, ?_, UInt64.lt_iff_toNat_lt.2 (Nat.lt_of_lt_of_le Nat.two_pos htwo)⟩
  rw [Buffer.maxLength]
  omega

namespace Table

variable {t t' : Table} {number kind : UInt8} {extent : Extent} {i : Index} {a : Grant}
  {grants rest : List (UInt8 × Grant)} {g : Geometry}

/-- The record is used, and in the way of entries that are written in order: it overlaps one that is
written before it is replaced itself, if it is replaced at all. A record with blocks overlaps those
that have a block in common with it, and one without blocks those that it lies strictly inside. -/
def Obstructs (t : Table) (j : Index) (grants : List (UInt8 × Grant)) : Prop :=
  t.uses j = true ∧ ∃ x ∈ grants.takeWhile fun x => x.1 != j.number,
    (t.record j).extent.overlaps x.2.extent = true

/-- No record is in the way. -/
def Clear (t : Table) (grants : List (UInt8 × Grant)) : Prop := ∀ j, ¬ t.Obstructs j grants

/-- A signed table that may be edited. -/
structure Ready (t : Table) : Prop where
  /-- the table is signed -/
  signed : t.hasSignature = true
  /-- the table may be edited -/
  unguarded : t.protector? = none

theorem not_obstructs_nil (j : Index) : ¬ t.Obstructs j [] := by
  rintro ⟨-, x, hx, -⟩
  cases hx

/-- A record is in the way of the first entry if it is that of another and overlaps it. -/
theorem obstructs_cons_iff {x : UInt8 × Grant} {j : Index} :
    t.Obstructs j (x :: rest) ↔ x.1 ≠ j.number ∧
      (t.uses j = true ∧ (t.record j).extent.overlaps x.2.extent = true ∨ t.Obstructs j rest) := by
  by_cases hx : x.1 = j.number
  · simp [Obstructs, hx]
  · have htake : (x :: rest).takeWhile (fun x => x.1 != j.number) =
        x :: rest.takeWhile fun x => x.1 != j.number :=
      List.takeWhile_cons_of_pos (bne_iff_ne.2 hx)
    rw [and_iff_right hx, Obstructs, Obstructs, htake, ← and_or_left]
    simp only [List.mem_cons, exists_eq_or_imp]

/-- Only what a record holds says whether it is in the way. -/
theorem obstructs_congr {j : Index} (h : t'.record j = t.record j) :
    t'.Obstructs j grants ↔ t.Obstructs j grants := by
  rw [Obstructs, Obstructs, uses, uses, h]

/-- An entry just put is in the way of none that is apart from it. -/
theorem not_obstructs_of_covers (hw : Grants.Writable ((i.number, a) :: rest) g)
    (h : (t.record i).Covers a) : ¬ t.Obstructs i rest := by
  rintro ⟨-, x, hx, hover⟩
  have hmem := (List.takeWhile_sublist _).subset hx
  rw [h.extent_eq, Extent.overlaps_iff_shares (hw.placeable _ List.mem_cons_self).blocks_ne
    (hw.placeable x (List.mem_cons_of_mem _ hmem)).blocks_ne] at hover
  exact (List.rel_of_pairwise_cons hw.apart hmem).2 hover

/-- Where an entry can hold the blocks, only another entry can be in the way. -/
theorem value_setEntry (hrec : extent.Recordable) (hne : extent.blocks ≠ 0) (i : Index)
    (kind : UInt8) :
    ∃ last, (t.setEntry i.number kind extent).value =
      match t.collision? i extent with
      | none => .ok (t.put i (.covering kind extent last))
      | some j => .fail (.overlap j.number) := by
  obtain ⟨bound, hbound⟩ : ∃ bound, extent.bound? = some bound := by
    rw [← Option.ne_none_iff_exists', ne_eq, Extent.bound?_eq_none_iff, Nat.not_le]
    exact Nat.lt_of_le_of_lt hrec.bound_le (by decide)
  have heq := Extent.bound?_eq_some_iff.1 hbound
  have hpos : bound ≠ 0 := by
    rintro rfl
    have := Extent.start_lt_bound hne
    rw [heq] at this
    exact Nat.not_lt_zero _ this
  refine ⟨bound - 1, ?_⟩
  simp only [setEntry, Index.ofNumber?_number, hbound, Noted.value_bind, replace, if_neg hpos,
    if_neg (not_not_intro ((Extent.fitsRecord_iff heq).2 hrec))]
  cases t.collision? i extent <;> rfl

/-- An ordinary entry that is put leaves the table one that may be edited. -/
theorem Ready.put (h : t.Ready) (i : Index) {r : Record} (hr : r.kind ≠ protectiveKind) :
    (t.put i r).Ready := by
  refine ⟨?_, ?_⟩
  · rw [hasSignature_put]
    exact h.signed
  · rw [← Option.not_isSome_iff_eq_none, isSome_protector?_put h.unguarded,
      beq_eq_false_iff_ne.2 hr]
    exact Bool.false_ne_true

/-- The first entry is written, unless another record overlaps it. -/
theorem Ready.rewritten (h : t.Ready) (hw : Grants.Writable ((i.number, a) :: rest) g) :
    (t.collision? i a.extent = none ∧
      ∃ r, Record.Covers r a ∧ t.rewritten i.number a.kind a.extent = .ok (t.put i r)) ∨
    ∃ j, t.Obstructs j ((i.number, a) :: rest) ∧
      t.rewritten i.number a.kind a.extent = .fail (.overlap j.number) := by
  have hrec := hw.recordable _ List.mem_cons_self
  have hne := (hw.placeable _ List.mem_cons_self).blocks_ne
  have hedit : t.editable.value = .ok t :=
    editable_eq_ok_iff.2 (.inr ⟨h.signed, h.unguarded, rfl⟩)
  obtain ⟨last, hset⟩ := value_setEntry (t := t) hrec hne i a.kind
  rw [Table.rewritten, hedit]
  simp only [hset]
  cases hcol : t.collision? i a.extent with
  | none =>
    exact .inl ⟨rfl, _, Record.covers_covering last hrec.start_lt hrec.blocks_lt, rfl⟩
  | some j =>
    obtain ⟨hj, -⟩ := Index.find?_all_eq_some_iff.1 hcol
    simp only [Bool.and_eq_true, bne_iff_ne] at hj
    obtain ⟨hji, hover⟩ := hj
    exact .inr ⟨j, obstructs_cons_iff.2 ⟨fun heq => hji (Index.number_inj.1 heq).symm, .inl hover⟩,
      rfl⟩

end Table

namespace Table.Represents

variable {t : Table} {m : Allotment} {grants : List (UInt8 × Grant)}

/-- A signed table of ordinary entries may be edited. -/
theorem ready (h : t.Represents m) (hm : m.Ordinary) (hsig : t.hasSignature = true) : t.Ready :=
  ⟨hsig, h.protector?_eq_none hm⟩

/-- An ordinary entry is in the way if it has a block of one that is written before its own. -/
theorem obstructs_iff (h : t.Represents m) (hm : m.Ordinary)
    (hne : ∀ x ∈ grants, x.2.extent.blocks ≠ 0) {j : Index} :
    t.Obstructs j grants ↔ ∃ x ∈ grants.takeWhile fun x => x.1 != j.number,
      ∃ b ∈ m j, b.extent.Shares x.2.extent := by
  rw [Obstructs, ← exists_and_left]
  refine exists_congr fun x => ?_
  rw [and_left_comm]
  exact and_congr_right fun hx => h.overlaps_iff hm (hne x ((List.takeWhile_sublist _).subset hx)) j

end Table.Represents

/-! ## Failures of an attempt -/

namespace Filesystem

variable (fs : Filesystem) (v : Volume)

/-- A filesystem that is not formatted is not reported as a partition that is not created. -/
theorem ends_format_ne :
    (fs.format v).Ends fun _ r => ∀ n code, r ≠ .fail (.partitionCreate n code) := by
  refine Script.ends_request_bind fun _ => Script.ends_request_bind ?_
  rintro (_ | code | o)
  · exact Script.ends_pure (by simp)
  · exact Script.ends_request_bind fun _ => Script.ends_pure (by simp)
  · exact Script.ends_pure (by simp)

theorem ends_probeOrFormat_ne (announcement : Note) :
    (fs.probeOrFormat v announcement).Ends fun _ r =>
      ∀ n code, r ≠ .fail (.partitionCreate n code) := by
  refine (Script.only_true (fs.probe v)).ends.bind ?_
  rintro _ (_ | err | o) -
  · exact Script.ends_pure (by simp)
  · exact Script.ends_request_bind fun _ => fs.ends_format_ne v
  · exact Script.ends_pure (by simp)

end Filesystem

namespace Slot

variable {s s' : Slot} {log : Routine.Log} {ending : Outcome StorageError Unit}

theorem Populates.ne_partitionCreate {v : Volume} (h : s.Populates v log ending) (n : UInt8)
    (code : ErrorCode) : ending ≠ .fail (.partitionCreate n code) := by
  cases h with
  | unformatted _ hformat => exact s.filesystem.ends_format_ne v _ _ hformat n code
  | left _ _ hprobe => exact s.filesystem.ends_probeOrFormat_ne v _ _ _ hprobe n code
  | made _ hprobe => exact s.filesystem.ends_probeOrFormat_ne v _ _ _ hprobe n code

/-- A visit writes no entry, and none is reported as refused. -/
theorem Visit.ne_partitionCreate {disk : Volume} (h : s.Visit disk log ending s') (n : UInt8)
    (code : ErrorCode) : ending ≠ .fail (.partitionCreate n code) := by
  cases h with
  | missed => simp
  | overflowed => simp
  | located _ hpopulates => exact hpopulates.ne_partitionCreate n code

end Slot

/-! ## Entries written one after the other -/

namespace Bench

variable {δ φ : Type} [BlockStore δ] {w w₁ w' : Bench δ φ} {g : Geometry} {i : Index}
  {a : Grant} {grants rest : List (UInt8 × Grant)}

open BlockStore

/-- The first entry was written, and those that follow can be. -/
structure Replaced (w : Bench δ φ) (i : Index) (a : Grant) (rest : List (UInt8 × Grant))
    (w' : Bench δ φ) : Prop where
  /-- none of the others was in the way -/
  free : w.table.collision? i a.extent = none
  /-- the entry holds what is given to it -/
  covers : (w'.table.record i).Covers a
  /-- the others can be written next -/
  ready : w'.table.Ready
  /-- the other entries are as they were -/
  keeps : w.KeepsRecords [i.number] w'
  /-- no fault comes back -/
  quiet : w.Quiet → w'.Quiet

/-- Steps that leave block 0 alone after that change nothing of it. -/
theorem Replaced.alters {blocks : Set Nat} {made : List String} (h : w.Replaced i a rest w₁)
    (hc : (geometry w.store).Carries) (ha : w₁.Alters blocks made w') (h0 : 0 ∉ blocks) :
    w.Replaced i a rest w' := by
  have hg := h.keeps.geometry_eq
  have htable : w'.table = w₁.table := ha.table_eq (hg ▸ hc.sectorSize_le) (hg ▸ hc.pos) h0
  refine ⟨h.free, ?_, ?_, h.keeps.trans (ha.keepsRecords h0), fun hq => ha.quiet (h.quiet hq)⟩
  · rw [htable]
    exact h.covers
  · rw [htable]
    exact h.ready

/-- Steps before that change nothing of it either. -/
theorem Replaced.of_alters (hw : w.Alters ∅ [] w₁) (hc : (geometry w.store).Carries)
    (h : w₁.Replaced i a rest w') : w.Replaced i a rest w' := by
  have htable : w₁.table = w.table := hw.table_eq hc.sectorSize_le hc.pos (Set.notMem_empty 0)
  refine ⟨?_, h.covers, h.ready, (hw.keepsRecords (Set.notMem_empty 0)).trans h.keeps,
    fun hq => h.quiet (hw.quiet hq)⟩
  rw [← htable]
  exact h.free

/-- Once the first entry is written, what was in the way is in the way of the others. -/
theorem Replaced.obstructs_iff (h : w.Replaced i a rest w₁) (hc : (geometry w.store).Carries)
    (hsig : w.table.hasSignature = true) (hw : Grants.Writable ((i.number, a) :: rest) g)
    (j : Index) :
    w.table.Obstructs j ((i.number, a) :: rest) ↔ w₁.table.Obstructs j rest := by
  rw [Table.obstructs_cons_iff]
  by_cases hj : j = i
  · rw [hj]
    exact iff_of_false (fun hobs => hobs.1 rfl) (Table.not_obstructs_of_covers hw h.covers)
  · have hfree := Table.collision?_eq_none_iff.1 h.free j hj
    have hrecord : w₁.table.record j = w.table.record j :=
      h.keeps.record_eq hc hsig fun hmem => hj (Index.number_inj.1 (List.mem_singleton.1 hmem))
    rw [Table.obstructs_congr hrecord, and_iff_right fun heq => hj (Index.number_inj.1 heq).symm,
      or_iff_right]
    rintro ⟨huses, hover⟩
    exact Bool.false_ne_true ((hfree huses).symm.trans hover)

/-- The table is clear for all of them if it then is for the others. -/
theorem Replaced.clear_iff (h : w.Replaced i a rest w₁) (hc : (geometry w.store).Carries)
    (hsig : w.table.hasSignature = true) (hw : Grants.Writable ((i.number, a) :: rest) g) :
    w.table.Clear ((i.number, a) :: rest) ↔ w₁.table.Clear rest :=
  forall_congr' fun j => not_congr (h.obstructs_iff hc hsig hw j)

/-- The entries were written into block 0, and nothing else of it was changed. -/
structure Rewritten (w : Bench δ φ) (grants : List (UInt8 × Grant)) (w' : Bench δ φ) : Prop where
  /-- each entry holds what is given to it -/
  covers : ∀ i a, (Index.number i, a) ∈ grants → (w'.table.record i).Covers a
  /-- the rest of the block is kept -/
  keeps : w.KeepsRecords (grants.map Prod.fst) w'

theorem Replaced.rewritten (h : w.Replaced i a rest w₁) (hr : w₁.Rewritten rest w')
    (hc : (geometry w.store).Carries) (hw : Grants.Writable ((i.number, a) :: rest) g) :
    w.Rewritten ((i.number, a) :: rest) w' := by
  obtain ⟨hapart, -⟩ := List.pairwise_cons.1 hw.apart
  refine ⟨?_, ?_⟩
  · intro j b hmem
    rcases List.mem_cons.1 hmem with heq | hmem
    · obtain ⟨hj, rfl⟩ := Prod.mk.inj heq
      obtain rfl := Index.number_inj.1 hj
      -- the entries that follow have other numbers
      rw [hr.keeps.record_eq (h.keeps.geometry_eq ▸ hc) h.ready.signed]
      · exact h.covers
      · intro hin
        obtain ⟨y, hy, heq⟩ := List.mem_map.1 hin
        exact (hapart y hy).1 heq.symm
    · exact hr.covers j b hmem
  · refine (h.keeps.mono ?_).trans (hr.keeps.mono ?_)
    · exact List.cons_subset_cons _ (List.nil_subset _)
    · exact List.subset_cons_self _ _

/-- Writing the first entry succeeds, unless a record is in the way of it. -/
theorem WritesEntry.of_ready (hg : geometry w.store = g) (hq : w.Quiet) (hc : g.Carries)
    (hready : w.table.Ready) (hw : Grants.Writable ((i.number, a) :: rest) g)
    {r : Outcome TableError Unit} (h : WritesEntry g i.number a.kind a.extent w r w') :
    (r = .ok () ∧ w.Replaced i a rest w') ∨
      ∃ j, w.table.Obstructs j ((i.number, a) :: rest) ∧ r = .fail (.overlap j.number) := by
  have hr := h.of_quiet hq hc (hw.placeable _ List.mem_cons_self)
  rcases hready.rewritten hw with ⟨hfree, record, hcovers, hput⟩ | ⟨j, hobs, herr⟩
  · rw [hput] at hr
    obtain ⟨-, -, htable, ha, -⟩ := h.of_ok hr
    have hafter : w'.table = w.table.put i record :=
      Outcome.ok.inj (htable.symm.trans hput)
    have hkeeps := h.keepsRecords hg (List.mem_singleton.2 rfl)
    have hkind : record.kind ≠ Table.protectiveKind :=
      hcovers.kind_eq ▸ hw.kind_ne _ List.mem_cons_self
    refine .inl ⟨hr, hfree, ?_, hafter ▸ hready.put i hkind, hkeeps, ha.quiet⟩
    rw [hafter, Table.record_put_self]
    exact hcovers
  · rw [herr] at hr
    exact .inr ⟨j, hobs, hr⟩

variable [LawfulBlockStore δ] [FilesystemDriver φ]

/-- Entries are all written if the table is clear for them, and otherwise one is refused because a
record is in the way. -/
theorem ensures_writeEntries (hg : geometry w.store = g) (hq : w.Quiet)
    (hcarries : grants ≠ [] → g.Carries) (hready : w.table.Ready)
    (hw : Grants.Writable grants g) :
    w.Ensures (writeEntries (.disk g) grants) fun r w' =>
      (w.table.Clear grants ∧ r = .ok () ∧ w.Rewritten grants w') ∨
        ∃ j, w.table.Obstructs j grants ∧ r = .fail (.overlap j.number) := by
  -- what is in the way once the first entry is written was so before
  induction grants generalizing w with
  | nil =>
    exact obeys_pure (.inl ⟨Table.not_obstructs_nil, rfl, fun _ _ h => absurd h List.not_mem_nil,
      .refl _ w⟩)
  | cons x rest ih =>
    obtain ⟨number, a⟩ := x
    obtain ⟨i, rfl⟩ := hw.exists_index _ List.mem_cons_self
    have hc := hcarries (List.cons_ne_nil _ _)
    refine (ensures_writeEntry hg i.number a.kind a.extent).bind ?_
    intro r w₁ hwrite
    rcases hwrite.of_ready hg hq hc hready hw with ⟨rfl, hreplaced⟩ | ⟨j, hobs, rfl⟩
    · have hc' := hc
      rw [← hg] at hc'
      refine (ih (hreplaced.keeps.geometry_eq.trans hg) (hreplaced.quiet hq) (fun _ => hc)
        hreplaced.ready hw.tail).imp ?_
      rintro r w₂ (⟨hclear, hok, hrest⟩ | ⟨j, hobs, hr⟩)
      · have hall := (hreplaced.clear_iff hc' hready.signed hw).2 hclear
        exact .inl ⟨hall, hok, hreplaced.rewritten hrest hc' hw⟩
      · have hobs' := (hreplaced.obstructs_iff hc' hready.signed hw j).2 hobs
        exact .inr ⟨j, hobs', hr⟩
    · exact obeys_pure (.inr ⟨j, hobs, rfl⟩)

/-! ## Partitions created one after the other -/

omit [LawfulBlockStore δ] in
theorem ensures_bringUp_ne (s : Slot) (disk : Volume) (w : Bench δ φ) :
    w.Ensures (s.bringUp disk) fun r _ => ∀ n code, r.1 ≠ .fail (.partitionCreate n code) :=
  ensures_iff.2 (Slot.runs_bringUp (Script.runs_trace answer (s.bringUp disk) w)).ne_partitionCreate

/-- A created partition has its entry written, and this can fail only where a record is in the way
of it. -/
theorem ensures_create_replaced {s : Slot} {extent : Extent} (hg : geometry w.store = g)
    (hq : w.Quiet) (hc : g.Carries) (hs : s.number = i.number)
    (hready : w.table.Ready) (hw : Grants.Writable ((i.number, ⟨s.spec.kind, extent⟩) :: rest) g) :
    w.Ensures (s.create (.disk g) extent) fun r w' =>
      (r.1 = .ok () → w.Replaced i ⟨s.spec.kind, extent⟩ rest w') ∧
        ∀ n code, r.1 = .fail (.partitionCreate n code) →
          ¬ w.table.Clear ((i.number, ⟨s.spec.kind, extent⟩) :: rest) := by
  refine (ensures_note _ w).bind ?_
  intro _ w₁ h₁
  have hg₁ := h₁.geometry_eq.trans hg
  have hc' : (geometry w.store).Carries := hg.symm ▸ hc
  have htable : w₁.table = w.table :=
    h₁.table_eq hc'.sectorSize_le hc'.pos (Set.notMem_empty 0)
  refine (ensures_writeEntry hg₁ s.number s.spec.kind extent).bind ?_
  intro r w₂ hwrite
  rw [hs] at hwrite
  rw [← htable] at hready ⊢
  rcases hwrite.of_ready hg₁ (h₁.quiet hq) hc hready hw with ⟨rfl, hreplaced⟩ | ⟨j, hobs, rfl⟩
  · obtain ⟨-, hplace, hrewritten, h₂, -⟩ := hwrite.of_ok rfl
    have hup := ensures_bringUp_extent (h₂.geometry_eq.trans hg₁) s
    refine (hup.and (ensures_bringUp_ne s (.disk g) w₂)).imp ?_
    rintro r w₃ ⟨⟨hspec, -, hup⟩, hno⟩
    refine ⟨fun hok => ?_, fun n code herr => absurd herr (hno n code)⟩
    -- the partition is located on the blocks of its entry, and these leave out block 0
    obtain ⟨x, hx⟩ := hup hok
    have hfind := hx.find_eq
    rw [Slot.number, hspec, show s.spec.number = i.number from hs] at hfind
    have hextent := Table.extent_of_rewritten hrewritten hfind
    obtain ⟨made, h₃⟩ := hx.alters
    refine (hreplaced.of_alters h₁ hc').alters hc' h₃ ?_
    rintro ⟨hle, -⟩
    rw [hextent] at hle
    exact hplace.start_ne (UInt64.toNat.inj (Nat.le_zero.1 hle))
  · refine (ensures_note _ w₂).bind fun _ _ _ => ?_
    exact obeys_pure ⟨by simp, fun _ _ _ hclear => hclear j hobs⟩

/-- What partitions are created over. -/
def given (slots : List (Slot × Extent)) : List (UInt8 × Grant) :=
  slots.map fun x => (x.1.number, ⟨x.1.spec.kind, x.2⟩)

/-- Of partitions that are created in order no entry is refused if the table is clear for them; and
if all come up, it was, and their entries were written. -/
theorem ensures_createAll_rewritten (hg : geometry w.store = g) (hq : w.Quiet)
    {slots : List Slot} {extents : List Extent}
    (hcarries : given (slots.zip extents) ≠ [] → g.Carries)
    (hready : w.table.Ready)
    (hw : Grants.Writable (given (slots.zip extents)) g) :
    w.Ensures (Slot.createAll (.disk g) slots extents) fun r w' =>
      (∀ n code, r.1 = .fail (.partitionCreate n code) →
        ¬ w.table.Clear (given (slots.zip extents))) ∧
      (r.1 = .ok () → w.table.Clear (given (slots.zip extents)) ∧
        w.Rewritten (given (slots.zip extents)) w') := by
  refine Obeys.bind (r := fun r w' => (∀ n code, r.1 = .fail (.partitionCreate n code) →
      ¬ w.table.Clear (given (slots.zip extents))) ∧
    (r.1 = .ok () → w.table.Clear (given (slots.zip extents)) ∧
      w.Rewritten (given (slots.zip extents)) w')) ?_ ?_
  · generalize slots.zip extents = items at hcarries hw
    induction items generalizing w with
    | nil =>
      exact obeys_pure ⟨by simp,
        fun _ => ⟨Table.not_obstructs_nil, fun _ _ h => absurd h List.not_mem_nil, .refl _ w⟩⟩
    | cons x rest ih =>
      obtain ⟨s, extent⟩ := x
      obtain ⟨i, hs⟩ : ∃ i, s.number = Index.number i := hw.exists_index _ List.mem_cons_self
      have hgiven : given ((s, extent) :: rest) =
          (i.number, ⟨s.spec.kind, extent⟩) :: given rest := by
        rw [given, List.map_cons, hs]
        rfl
      have hc := hcarries (List.cons_ne_nil _ _)
      rw [hgiven] at hw ⊢
      have hc' : (geometry w.store).Carries := hg.symm ▸ hc
      have hcreate := ensures_create_replaced hg hq hc hs hready hw
      refine obeys_inOrder_cons (r := fun r w₁ =>
        (r.1 = .ok () → w.Replaced i ⟨s.spec.kind, extent⟩ (given rest) w₁) ∧
          ∀ n code, r.1 = .fail (.partitionCreate n code) →
            ¬ w.table.Clear ((i.number, ⟨s.spec.kind, extent⟩) :: given rest))
        (hcreate.bind fun r w₁ h₁ => obeys_pure h₁) ?_ ?_
      · rintro item w₁ ⟨hok, -⟩
        have hreplaced := hok rfl
        have hiff := hreplaced.clear_iff hc' hready.signed hw
        refine (ih (hreplaced.keeps.geometry_eq.trans hg) (hreplaced.quiet hq) hreplaced.ready
          (fun _ => hc) hw.tail).imp ?_
        rintro r w₂ ⟨hno, hall⟩
        refine ⟨fun n code herr => mt hiff.1 (hno n code herr), fun hok => ?_⟩
        obtain ⟨hclear, hrest⟩ := hall hok
        exact ⟨hiff.2 hclear, hreplaced.rewritten hrest hc' hw⟩
      · rintro r w₁ hne ⟨-, hrefused⟩
        exact ⟨hrefused, fun hok => absurd hok hne⟩
  · rintro ⟨ending, after⟩ w₁ h₁
    exact obeys_pure h₁

/-- Creating the partitions of a layout refuses no entry if the table is clear for them; and where
it succeeds, it was, and the entries were written. -/
theorem ensures_createPartitions_rewritten {s : Storage} {extents : List Extent}
    (hg : geometry w.store = g) (hq : w.Quiet) (hsize : g.size? = some s.capacity)
    (hlayout : (s.config.layout s.capacity g.blockSize).value = .ok extents)
    (hkind : ∀ x ∈ s.config.partitions, x.kind ≠ Table.protectiveKind)
    (hready : w.table.Ready) :
    w.Ensures (s.createPartitions (.disk g)) fun r w' =>
      (∀ n code, r.1 = .fail (.partitionCreate n code) →
        ¬ w.table.Clear (s.config.grants extents)) ∧
      (r.1 = .ok () → w.table.Clear (s.config.grants extents) ∧
        w.Rewritten (s.config.grants extents) w') := by
  have hplaced := Config.placed_of_layout hlayout hsize
  have hw := hplaced.writable hkind
  have hcarries := hplaced.carries hsize
  have hgiven : s.config.grants extents = given (s.slots.zip extents) := by
    rw [Config.grants, given, Storage.config, List.zip_map_left, List.map_map]
    rfl
  rw [hgiven] at hw hcarries ⊢
  refine obeys_createPartitions (fun _ _ => trivial) ?_ ?_
  · intro err w' hrefused _
    cases hlayout.symm.trans hrefused
  · intro extents' w₁ hlayout' h₁
    obtain rfl := Except.ok.inj (hlayout.symm.trans hlayout')
    have hkeeps : w.KeepsRecords ((given (s.slots.zip extents)).map Prod.fst) w₁ :=
      h₁.keepsRecords (Set.notMem_empty 0)
    by_cases hnil : given (s.slots.zip extents) = []
    · rw [hnil] at hkeeps ⊢
      rw [Slot.createAll, List.map_eq_nil_iff.1 hnil]
      exact obeys_pure ⟨by simp,
        fun _ => ⟨Table.not_obstructs_nil, fun _ _ h => absurd h List.not_mem_nil, hkeeps⟩⟩
    · have hc := hcarries hnil
      rw [← hg] at hc
      have htable : w₁.table = w.table :=
        h₁.table_eq hc.sectorSize_le hc.pos (Set.notMem_empty 0)
      rw [← htable] at hready ⊢
      refine (ensures_createAll_rewritten (h₁.geometry_eq.trans hg) (h₁.quiet hq) hcarries hready
        hw).imp ?_
      rintro r w₂ ⟨hno, hall⟩
      refine ⟨hno, fun hok => ?_⟩
      obtain ⟨hclear, hcovers, hrest⟩ := hall hok
      exact ⟨hclear, hcovers, hkeeps.trans hrest⟩

/-- Over a signed table without protective entries the entries of a layout are all written, one
after the other, exactly if no record is in the way of one that is written before the record is
replaced; otherwise one is refused because a record is in the way. Then each holds its type and its
blocks, and the rest of block 0 is as it was. The same goes for the entries that are written when
the partitions are created. -/
theorem rewrites_layout_iff_clear (w : Bench δ φ) (hquiet : w.Quiet) (c : Config)
    {capacity : UInt64} {extents : List Extent}
    (hsize : (geometry w.store).size? = some capacity)
    (hlayout : (c.layout capacity (geometry w.store).blockSize).value = .ok extents)
    (hkind : ∀ s ∈ c.partitions, s.kind ≠ Table.protectiveKind) (hready : w.table.Ready) :
    (w.table.Clear (c.grants extents) →
      (w.run (writeEntries w.disk (c.grants extents))).1 = .ok () ∧
        w.Rewritten (c.grants extents) (w.run (writeEntries w.disk (c.grants extents))).2) ∧
    (¬ w.table.Clear (c.grants extents) → ∃ j, w.table.Obstructs j (c.grants extents) ∧
      (w.run (writeEntries w.disk (c.grants extents))).1 = .fail (.overlap j.number)) ∧
    ∀ s : Storage, s.config = c → s.capacity = capacity →
      (∀ n code, (w.run (s.createPartitions w.disk)).1.1 = .fail (.partitionCreate n code) →
        ¬ w.table.Clear (c.grants extents)) ∧
      ((w.run (s.createPartitions w.disk)).1.1 = .ok () → w.table.Clear (c.grants extents) ∧
        w.Rewritten (c.grants extents) (w.run (s.createPartitions w.disk)).2) := by
  have hplaced := Config.placed_of_layout hlayout hsize
  have hwrites := ensures_iff.1 (ensures_writeEntries rfl hquiet (hplaced.carries hsize) hready
    (hplaced.writable hkind))
  refine ⟨fun hclear => ?_, fun hclear => ?_, ?_⟩
  · rcases hwrites with ⟨-, hok, hrewritten⟩ | ⟨j, hobs, -⟩
    · exact ⟨hok, hrewritten⟩
    · exact absurd hobs (hclear j)
  · rcases hwrites with ⟨hyes, -⟩ | hrefused
    · exact absurd hyes hclear
    · exact hrefused
  · rintro s rfl rfl
    exact ensures_iff.1 (ensures_createPartitions_rewritten rfl hquiet hsize hlayout hkind hready)

/-- Two partitions are moved over a table that has both elsewhere, and another entry. -/
theorem rewrites_layout_iff_clear_moved :
    let w : Bench SparseDisk Signature :=
      .new (.prepared 4096 (.holding [⟨1500, 10⟩, ⟨3000, 10⟩, ⟨3500, 10⟩]) [])
    let c : Config :=
      ⟨[⟨1, 0, 524288, 0x83, "/fs"⟩, ⟨2, 524288, 524288, 0x83, "/fs2"⟩], true⟩
    (c.layout 2097152 512).value = .ok [⟨1, 1023⟩, ⟨1024, 1024⟩] ∧
      w.table.Ready ∧ w.table.Clear (c.grants [⟨1, 1023⟩, ⟨1024, 1024⟩]) ∧
      (w.run (writeEntries w.disk (c.grants [⟨1, 1023⟩, ⟨1024, 1024⟩]))).1 = .ok () ∧
      w.Rewritten (c.grants [⟨1, 1023⟩, ⟨1024, 1024⟩])
        (w.run (writeEntries w.disk (c.grants [⟨1, 1023⟩, ⟨1024, 1024⟩]))).2 := by
  intro w c
  obtain ⟨hsig, hrep⟩ :=
    Table.represents_holding [⟨1500, 10⟩, ⟨3000, 10⟩, ⟨3500, 10⟩] (by decide)
  have hordinary :=
    Allotment.ordinary_holding [⟨1500, 10⟩, ⟨3000, 10⟩, ⟨3500, 10⟩] (by decide)
  have htable : w.table = .holding [⟨1500, 10⟩, ⟨3000, 10⟩, ⟨3500, 10⟩] := table_prepared rfl
  rw [← htable] at hsig hrep
  have hlayout : (c.layout 2097152 512).value = .ok [⟨1, 1023⟩, ⟨1024, 1024⟩] := rfl
  have hready : w.table.Ready := hrep.ready hordinary hsig
  have hclear : w.table.Clear (c.grants [⟨1, 1023⟩, ⟨1024, 1024⟩]) := by
    intro j
    rw [hrep.obstructs_iff hordinary (by decide)]
    revert j
    decide
  obtain ⟨hwritten, -⟩ := rewrites_layout_iff_clear w (by simp [w, Bench.new, Quiet]) c
    (show Geometry.size? ⟨512, 4096⟩ = some 2097152 by decide) hlayout (by decide) hready
  exact ⟨hlayout, hready, hclear, hwritten hclear⟩

/-- Over a table with one entry, which is in the way, the first entry of a layout is refused. -/
theorem refused_over_record {r : Record} (hr : r.kind ≠ Table.protectiveKind) {c : Config}
    {extents : List Extent} (hlayout : (c.layout 2097152 512).value = .ok extents)
    (hkind : ∀ s ∈ c.partitions, s.kind ≠ Table.protectiveKind)
    (hobs : (Table.empty.put i r).Obstructs i (c.grants extents)) :
    let w : Bench SparseDisk Signature := .new (.prepared 4096 (Table.empty.put i r) [])
    w.Quiet ∧ w.table.Ready ∧ (∀ j, w.table.uses j = true → j = i) ∧
      (w.run (writeEntries w.disk (c.grants extents))).1 = .fail (.overlap i.number) := by
  intro w
  have hempty := Table.Represents.empty_represents.ready Allotment.ordinary_empty
    Table.hasSignature_empty
  have htable : w.table = Table.empty.put i r := table_prepared rfl
  have hready : w.table.Ready := htable ▸ hempty.put i hr
  have hquiet : w.Quiet := by simp [w, Bench.new, Quiet]
  have huses : ∀ j, w.table.uses j = true → j = i := by
    intro j huses
    by_contra hj
    rw [htable, Table.uses, Table.record_put_of_ne _ _ hj,
      Table.Represents.empty_represents.free j rfl] at huses
    cases huses
  have hplaced := Config.placed_of_layout (g := ⟨512, 4096⟩) hlayout (by decide)
  have hwrites := ensures_iff.1 (ensures_writeEntries (w := w) (g := ⟨512, 4096⟩) rfl hquiet
    (fun _ => ⟨by decide, by decide, by decide⟩) hready (hplaced.writable hkind))
  refine ⟨hquiet, hready, huses, ?_⟩
  rcases hwrites with ⟨hclear, -⟩ | ⟨j, hj, hrefused⟩
  · exact absurd (htable ▸ hobs) (hclear i)
  · rw [← huses j hj.1]
    exact hrefused

/-- The entry of the second partition of a layout has blocks that the first is to get: the first
cannot be written, though no other entry is used. Nor can it over an entry of neither partition
that has no blocks at all, and so none in common with them. -/
theorem refuses_layout_over_stale_entry :
    let c : Config :=
      ⟨[⟨1, 0, 524288, 0x83, "/fs"⟩, ⟨2, 524288, 524288, 0x83, "/fs2"⟩], true⟩
    let w : Bench SparseDisk Signature :=
      .new (.prepared 4096 (Table.empty.put 1 (.covering 0x83 ⟨100, 100⟩ 199)) [])
    let w' : Bench SparseDisk Signature :=
      .new (.prepared 4096 (Table.empty.put 2 (.covering 0x83 ⟨50, 0⟩ 49)) [])
    (c.layout 2097152 512).value = .ok [⟨1, 1023⟩, ⟨1024, 1024⟩] ∧
      (w.Quiet ∧ w.table.hasSignature = true ∧ w.table.protector? = none ∧
        w.table.isWellFormed = true ∧
        (∀ j, w.table.uses j = true → ∃ s ∈ c.partitions, s.number = Index.number j) ∧
        (w.run (writeEntries w.disk (c.grants [⟨1, 1023⟩, ⟨1024, 1024⟩]))).1 =
          .fail (.overlap 2)) ∧
      w'.Quiet ∧ w'.table.hasSignature = true ∧ w'.table.protector? = none ∧
        w'.table.isWellFormed = true ∧
        (∀ j, w'.table.uses j = true →
          ∀ e ∈ [⟨1, 1023⟩, ⟨1024, 1024⟩], ¬ (w'.table.record j).extent.Shares e) ∧
        (w'.run (writeEntries w'.disk (c.grants [⟨1, 1023⟩, ⟨1024, 1024⟩]))).1 =
          .fail (.overlap 3) := by
  intro c w w'
  have hlayout : (c.layout 2097152 512).value = .ok [⟨1, 1023⟩, ⟨1024, 1024⟩] := rfl
  have hformed : ∀ i r, (Table.empty.put i r).isWellFormed = true := fun i r =>
    (Table.isWellFormed_put _ _ _).trans Table.Represents.empty_represents.wellFormed
  refine ⟨hlayout, ?_, ?_⟩
  · have hrecord := Table.record_put_self Table.empty 1 (.covering 0x83 ⟨100, 100⟩ 199)
    obtain ⟨hquiet, hready, huses, hrefused⟩ := refused_over_record (i := 1)
      (r := .covering 0x83 ⟨100, 100⟩ 199) (by decide) hlayout (by decide)
      ⟨by rw [Table.uses, hrecord]; rfl, _, List.mem_cons_self, by rw [hrecord]; rfl⟩
    refine ⟨hquiet, hready.signed, hready.unguarded, ?_, fun j hj => ?_, hrefused⟩
    · rw [table_prepared rfl]
      exact hformed _ _
    · rw [huses j hj]
      exact ⟨_, List.mem_cons_of_mem _ List.mem_cons_self, rfl⟩
  · have hrecord := Table.record_put_self Table.empty 2 (.covering 0x83 ⟨50, 0⟩ 49)
    obtain ⟨hquiet, hready, huses, hrefused⟩ := refused_over_record (i := 2)
      (r := .covering 0x83 ⟨50, 0⟩ 49) (by decide) hlayout (by decide)
      ⟨by rw [Table.uses, hrecord]; rfl, _, List.mem_cons_self, by rw [hrecord]; rfl⟩
    refine ⟨hquiet, hready.signed, hready.unguarded, ?_, fun j hj => ?_, hrefused⟩
    · rw [table_prepared rfl]
      exact hformed _ _
    · rw [huses j hj, table_prepared rfl, hrecord]
      decide

end Bench

end DiskBringup
