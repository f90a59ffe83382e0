import DiskBringup.Proofs.TableEdits

/-!
# Addresses that a record repeats by cylinder, head and sector

The format of a partition table takes the three bytes of a packed address apart by their bits
(`PackedChs.unpack`). `p.Marks n` says what the bytes then have to be for the block `n`: an address
within the geometry whose block is `n`, or the mark for a block past the last cylinder. Packing
meets this for every block (`PackedChs.marks_ofBlock`), so a record that an edit puts marks the
first and the last of its blocks (`PackedChs.marks_every_block`).
-/

namespace DiskBringup

/-- An address by cylinder, head and sector. -/
structure Chs where
  /-- the cylinder -/
  cylinder : Nat
  /-- the head -/
  head : Nat
  /-- the sector, which counts from 1 -/
  sector : Nat
  deriving DecidableEq, Repr

namespace Chs

/-- The block at an address: cylinders, heads and sectors counted off in this order. -/
def block (a : Chs) : Nat := (a.cylinder * 255 + a.head) * 63 + a.sector - 1

/-- An address that a disk with 255 heads, 63 sectors a track and 1024 cylinders has. -/
structure OnDisk (a : Chs) : Prop where
  /-- heads count from 0 -/
  head_le : a.head ≤ 254
  /-- sectors count from 1 -/
  sector_pos : 1 ≤ a.sector
  /-- a track has 63 of them -/
  sector_le : a.sector ≤ 63
  /-- cylinders count from 0 -/
  cylinder_le : a.cylinder ≤ 1023

end Chs

namespace PackedChs

/-- The number of blocks that have an address. -/
abbrev limit : Nat := cylinders * heads * sectors

/-- The bytes taken apart: the low six bits of the second one are the sector, its top two bits are
the top of the cylinder, and the third one is the rest of the cylinder. -/
def unpack (p : PackedChs) : Chs where
  cylinder := (p.sector.toNat >>> 6) <<< 8 ||| p.cylinder.toNat
  head := p.head.toNat
  sector := p.sector.toNat &&& 0x3F

/-- The bytes that a record has to hold for a block. -/
structure Marks (p : PackedChs) (block : Nat) : Prop where
  /-- a block that has an address is the one at the address that they hold -/
  within : block < limit → p.unpack.OnDisk ∧ p.unpack.block = block
  /-- all others have one mark -/
  past : limit ≤ block → p = ⟨0xFE, 0xFF, 0xFF⟩

variable {p : PackedChs} {b : UInt64}

/-- Taking bytes apart by bits or by remainders is the same. -/
theorem unpack_eq (p : PackedChs) :
    p.unpack = ⟨p.cylinderNumber, p.headNumber, p.sectorNumber⟩ := by
  have hcylinder : (p.sector.toNat >>> 6) <<< 8 ||| p.cylinder.toNat = p.cylinderNumber := by
    rw [← Nat.shiftLeft_add_eq_or_of_lt p.cylinder.toNat_lt, Nat.shiftRight_eq_div_pow,
      Nat.shiftLeft_eq, cylinderNumber]
  have hsector : p.sector.toNat &&& 0x3F = p.sectorNumber :=
    Nat.and_two_pow_sub_one_eq_mod p.sector.toNat 6
  rw [unpack, hcylinder, hsector, headNumber]

theorem block_unpack (p : PackedChs) : p.unpack.block = p.block := by
  rw [unpack_eq, Chs.block, block]

theorem onDisk_ofBlock (h : b.toNat < limit) : (ofBlock b).unpack.OnDisk := by
  have hhead := Nat.mod_lt (b.toNat / sectors) (show 0 < heads by decide)
  have hsector := Nat.mod_lt b.toNat (show 0 < sectors by decide)
  rw [unpack_eq, headNumber_ofBlock h, sectorNumber_ofBlock h, cylinderNumber_ofBlock h]
  exact ⟨Nat.le_of_lt_succ hhead, Nat.le_add_left 1 _, hsector, Nat.le_of_lt_succ (cylinder_lt h)⟩

/-- The bytes for a block mark it. -/
theorem marks_ofBlock (b : UInt64) : (ofBlock b).Marks b.toNat where
  within := fun h => ⟨onDisk_ofBlock h, (block_unpack _).trans (block_ofBlock h)⟩
  past := ofBlock_of_le

/-- Marks of blocks that have an address are in the order of the blocks. -/
theorem Marks.block_le {p q : PackedChs} {m n : Nat} (hp : p.Marks m) (hq : q.Marks n)
    (hle : m ≤ n) (hlt : n < limit) : p.unpack.block ≤ q.unpack.block := by
  rw [(hp.within (Nat.lt_of_le_of_lt hle hlt)).2, (hq.within hlt).2]
  exact hle

end PackedChs

namespace Table

variable {t t' : Table} {number kind : UInt8} {extent : Extent}

/-- The record that an edit puts marks its first block, and the block before its bound. -/
theorem exists_marks_of_setEntry (h : (t.setEntry number kind extent).value = .ok t') :
    ∃ i : Index, number = i.number ∧ (t'.record i).first.Marks extent.start.toNat ∧
      (t'.record i).last.Marks (extent.bound - 1) := by
  obtain ⟨i, bound, hi, hbound, hne, -, -, rfl⟩ := setEntry_eq_ok_iff.1 h
  have hlast : (bound - 1).toNat = extent.bound - 1 := by
    have hle : 1 ≤ bound := by
      rw [UInt64.le_iff_toNat_le, UInt64.toNat_one]
      exact Word.toNat_pos hne
    rw [Extent.bound?_eq_some_iff.1 hbound, UInt64.toNat_sub_of_le _ _ hle, UInt64.toNat_one]
  refine ⟨i, Index.ofNumber?_eq_some_iff.1 hi, ?_, ?_⟩
  · rw [record_put_self]
    exact PackedChs.marks_ofBlock extent.start
  · rw [record_put_self, ← hlast]
    exact PackedChs.marks_ofBlock (bound - 1)

end Table

namespace PackedChs

/-- A block below the limit is packed as its address on the disk, and every other block as one mark.
After an edit that is accepted, with blocks that are not none, the record of its number holds in
this way the first block and then the last one; where both have an address, they are in order. -/
theorem marks_every_block :
    (∀ b : UInt64, b.toNat < 1024 * 255 * 63 →
      let a := (ofBlock b).unpack
      a.head ≤ 254 ∧ 1 ≤ a.sector ∧ a.sector ≤ 63 ∧ a.cylinder ≤ 1023 ∧
        (a.cylinder * 255 + a.head) * 63 + a.sector - 1 = b.toNat) ∧
    (∀ b : UInt64, 1024 * 255 * 63 ≤ b.toNat → ofBlock b = ⟨0xFE, 0xFF, 0xFF⟩) ∧
    ∀ (t t' : Table) (number kind : UInt8) (extent : Extent), extent.blocks ≠ 0 →
      (t.setEntry number kind extent).value = .ok t' →
      ∃ i : Index, number = i.number ∧
        (t'.record i).first.Marks extent.start.toNat ∧
        (t'.record i).last.Marks (extent.start.toNat + extent.blocks.toNat - 1) ∧
        (extent.start.toNat + extent.blocks.toNat - 1 < 1024 * 255 * 63 →
          (t'.record i).first.unpack.block ≤ (t'.record i).last.unpack.block) := by
  refine ⟨fun b h => ?_, fun b h => (marks_ofBlock b).past h,
    fun t t' number kind extent hne h => ?_⟩
  · obtain ⟨ha, hblock⟩ := (marks_ofBlock b).within h
    exact ⟨ha.head_le, ha.sector_pos, ha.sector_le, ha.cylinder_le, hblock⟩
  · obtain ⟨i, hi, hfirst, hlast⟩ := Table.exists_marks_of_setEntry h
    have hpos := Word.toNat_pos hne
    have hle : extent.start.toNat ≤ extent.bound - 1 := by
      rw [Extent.bound]
      omega
    exact ⟨i, hi, hfirst, hlast, fun hlt => hfirst.block_le hlast hle hlt⟩

/-- A block whose cylinder needs nine bits, the first block without an address, and an edit whose
blocks go on over the last address. -/
theorem marks_every_block_over_end :
    (ofBlock 4112703).unpack = ⟨256, 1, 1⟩ ∧
      (let a := (ofBlock 4112703).unpack
       (a.cylinder * 255 + a.head) * 63 + a.sector - 1 = 4112703) ∧
      ofBlock 16450560 = ⟨0xFE, 0xFF, 0xFF⟩ ∧
      ∃ t', (Table.empty.setEntry 2 0x83 ⟨2048, 16450560⟩).value = .ok t' ∧
        (t'.record 1).first.unpack.block = 2048 ∧ (t'.record 1).last = ⟨0xFE, 0xFF, 0xFF⟩ := by
  obtain ⟨hwithin, hpast, hedit⟩ := marks_every_block
  obtain ⟨-, -, -, -, hblock⟩ := hwithin 4112703 (by decide)
  obtain ⟨t', ht'⟩ : ∃ t', (Table.empty.setEntry 2 0x83 ⟨2048, 16450560⟩).value = .ok t' :=
    Table.exists_setEntry_iff.2 ⟨by decide, by decide, ⟨by decide, by decide, by decide⟩,
      fun j _ hj => absurd hj (Table.not_uses_empty j)⟩
  obtain ⟨i, hi, hfirst, hlast, -⟩ := hedit _ t' 2 0x83 ⟨2048, 16450560⟩ (by decide) ht'
  obtain rfl : 1 = i := Index.number_inj.1 hi
  exact ⟨by decide +kernel, hblock, hpast 16450560 (by decide), t', ht',
    (hfirst.within (by decide)).2, hlast.past (by decide)⟩

end PackedChs

end DiskBringup
