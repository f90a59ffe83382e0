import DiskBringup.Bench.SparseDisk
import DiskBringup.Proofs.Allotment
import DiskBringup.Proofs.SignatureDriver

/-!
# Disks that come with a table and filesystems

Disks to try bring-up on: block 0 is a partition table, and some other blocks are the first blocks
of filesystems.
-/

namespace DiskBringup

/-- The first block of an empty filesystem is marked. -/
theorem Signature.isMarked_firstBlock {length : Nat} (h : mark.size ≤ length) :
    isMarked (firstBlock length) = true := by
  have hmark : mark.size = 8 := rfl
  have heq : (firstBlock length).toArray.extract 0 8 = mark := by
    apply Array.ext
    · rw [Array.size_extract, Vector.size_toArray, hmark]
      omega
    · intro k _ hk
      rw [Array.getElem_extract, Vector.getElem_toArray]
      have hlt : 0 + k < length := by omega
      exact Buffer.getElem_overlay_of_inside (Buffer.fill length 0) mark hlt hk
  rw [isMarked, heq]
  exact beq_self_eq_true mark

/-- A table with an entry of type `0x83` over each of the given blocks, in order. -/
def Table.holding (extents : List Extent) : Table :=
  (Index.all.zip extents).foldl
    (fun t x => t.put x.1 (.covering 0x83 x.2 (x.2.start + x.2.blocks - 1))) Table.empty

/-- The entries of that table. -/
def Allotment.holding (extents : List Extent) : Allotment :=
  (Index.all.zip extents).foldl (fun m x => m.set x.1.number ⟨0x83, x.2⟩) Allotment.empty

/-- Every entry that is put into a signed table is one more of its allotment. -/
theorem Table.Represents.foldl_put {items : List (Index × Extent)}
    (h : ∀ x ∈ items, x.2.start.toNat < 2 ^ 32 ∧ x.2.blocks.toNat < 2 ^ 32) {t : Table}
    {m : Allotment} (hsig : t.hasSignature = true) (hrep : t.Represents m) :
    (items.foldl (fun t x => t.put x.1 (.covering 0x83 x.2 (x.2.start + x.2.blocks - 1)))
        t).hasSignature = true ∧
      (items.foldl (fun t x => t.put x.1 (.covering 0x83 x.2 (x.2.start + x.2.blocks - 1)))
        t).Represents (items.foldl (fun m x => m.set x.1.number ⟨0x83, x.2⟩) m) := by
  induction items generalizing t m with
  | nil => exact ⟨hsig, hrep⟩
  | cons x rest ih =>
    obtain ⟨⟨hstart, hblocks⟩, hrest⟩ := List.forall_mem_cons.1 h
    have hcovers : (Record.covering 0x83 x.2 (x.2.start + x.2.blocks - 1)).Covers ⟨0x83, x.2⟩ :=
      Record.covers_covering _ hstart hblocks
    rw [List.foldl_cons, List.foldl_cons]
    exact ih hrest ((t.hasSignature_put _ _).trans hsig) (hrep.put hsig x.1 hcovers)

/-- The table is signed and holds these entries. -/
theorem Table.represents_holding (extents : List Extent)
    (h : ∀ e ∈ extents, e.start.toNat < 2 ^ 32 ∧ e.blocks.toNat < 2 ^ 32) :
    (holding extents).hasSignature = true ∧
      (holding extents).Represents (Allotment.holding extents) := by
  rw [holding, Allotment.holding]
  exact Represents.foldl_put (fun x hx => h _ (List.of_mem_zip hx).2) hasSignature_empty
    Represents.empty_represents

theorem Allotment.ordinary_holding (extents : List Extent) (h : ∀ e ∈ extents, e.blocks ≠ 0) :
    (holding extents).Ordinary := by
  rw [holding]
  refine List.foldlRecOn _ _ (motive := Allotment.Ordinary) ordinary_empty ?_
  intro m hm x hx
  have hkind : (0x83 : UInt8) ≠ 0 ∧ (0x83 : UInt8) ≠ Table.protectiveKind := by decide
  exact hm.set ⟨hkind.1, hkind.2, h _ (List.of_mem_zip hx).2⟩

namespace SparseDisk

/-- A disk of blocks of 512 bytes with a table and, in the given blocks, filesystems. -/
def prepared (numBlocks : UInt64) (t : Table) (marked : List UInt64) : SparseDisk :=
  ⟨⟨512, numBlocks⟩, (0, t.sector) :: marked.map (·, Signature.firstBlock 512)⟩

variable {numBlocks : UInt64} {t : Table} {marked : List UInt64}

/-- A byte of a block that was written. -/
theorem byteAt_of_lookup {d : SparseDisk} {b : UInt64} {bytes : Buffer d.geometry.blockSize.toNat}
    (h : d.written.lookup b = some bytes) {k : Nat} (hk : k < d.geometry.blockSize.toNat) :
    d.byteAt b k = bytes[k] := by
  rw [byteAt, content, h, Option.getD_some, Vector.getElem?_eq_getElem hk, Option.getD_some]

theorem byteAt_prepared_zero {k : Nat} (hk : k < 512) :
    (prepared numBlocks t marked).byteAt 0 k = t.sector[k] :=
  byteAt_of_lookup (d := prepared numBlocks t marked) rfl hk

/-- The bytes of block 0 are those of the table. -/
theorem ofFn_prepared_zero :
    (Vector.ofFn fun k : Fin 512 => (prepared numBlocks t marked).byteAt 0 k.val) = t.sector := by
  apply Vector.ext
  intro k hk
  rw [Vector.getElem_ofFn]
  exact byteAt_prepared_zero hk

theorem byteAt_prepared {b : UInt64} (hb : b ∈ marked) (h0 : b ≠ 0) {k : Nat} (hk : k < 512) :
    (prepared numBlocks t marked).byteAt b k = (Signature.firstBlock 512)[k] := by
  have hmarked : (marked.map (·, Signature.firstBlock 512)).lookup b =
      some (Signature.firstBlock 512) := by
    -- this part of the list says nothing of block 0
    clear h0
    induction marked with
    | nil => cases hb
    | cons c rest ih =>
      by_cases hc : b = c
      · subst hc
        exact List.lookup_cons_self
      · rw [List.map_cons, List.lookup_cons, beq_eq_false_iff_ne.2 hc]
        exact ih ((List.mem_cons.1 hb).resolve_left hc)
  have hwritten : (prepared numBlocks t marked).written.lookup b =
      some (Signature.firstBlock 512) := by
    change ((0, t.sector) :: marked.map (·, Signature.firstBlock 512)).lookup b = _
    rw [List.lookup_cons, beq_eq_false_iff_ne.2 h0]
    exact hmarked
  exact byteAt_of_lookup hwritten hk

end SparseDisk

namespace Bench

variable {numBlocks : UInt64} {t : Table} {marks : List UInt64} {w : Bench SparseDisk Signature}

/-- The table of the disk is the one that it was prepared with. -/
theorem table_prepared (hw : w.store = .prepared numBlocks t marks) : w.table = t := by
  rw [table, hw]
  exact congrArg Table.mk SparseDisk.ofFn_prepared_zero

/-- The blocks that were prepared with filesystems are marked. -/
theorem marked_prepared (hw : w.store = .prepared numBlocks t marks) {b : UInt64}
    (hb : b ∈ marks) (h0 : b ≠ 0) : w.marked b = true := by
  have hbytes : (Vector.ofFn fun k : Fin 512 =>
      (SparseDisk.prepared numBlocks t marks).byteAt b k.val) = Signature.firstBlock 512 := by
    apply Vector.ext
    intro k hk
    rw [Vector.getElem_ofFn]
    exact SparseDisk.byteAt_prepared hb h0 hk
  rw [marked, hw]
  exact (congrArg Signature.isMarked hbytes).trans (Signature.isMarked_firstBlock (by decide))

end Bench

end DiskBringup
