import DiskBringup.Proofs.Placement
import DiskBringup.Proofs.TableCalls

/-!
# A layout of one partition and the call that creates it

A configuration of one partition is laid out by `Config.layout`, and `createPartition` writes the
entry of a byte range; both take the whole blocks of the range, block 0 left out. They differ in
what they hold against the device: the layout wants it to have every byte of the partition, and the
call only the whole blocks (`layout_one_eq_ok_iff`, `Bench.createPartition_eq_ok_iff`). So on a
blank device a layout is one that the call accepts and whose last byte lies on the device
(`Bench.layout_iff_creates`).
-/

namespace DiskBringup

/-! ## The layout -/

namespace Config

variable {s : PartitionSpec} {auto : Bool}

/-- One partition is laid out if the device has its bytes and it can be placed. -/
theorem layout_one_eq_ok_iff {capacity blockSize : UInt64} {e : Extent} (hs : s.check = .ok ())
    (hsector : sectorSize ≤ blockSize.toNat) :
    ((Config.mk [s] auto).layout capacity blockSize).value = .ok [e] ↔
      s.stop ≤ capacity ∧ s.place blockSize = .ok e := by
  have hvalid : (Config.mk [s] auto).validate = .ok () :=
    validate_eq_ok_iff.2 ⟨by simp [maxPartitions], by simpa using hs, List.pairwise_singleton _ _⟩
  rw [layout_eq_ok_iff]
  simp [hvalid, hsector]

end Config

/-! ## The call -/

/-- A device with two blocks or more, whose size is a word, can be read by its blocks. -/
theorem Geometry.carries_of_size {g : Geometry} {size : UInt64} (hsize : g.size? = some size)
    (hsector : sectorSize ≤ g.blockSize.toNat) (hblocks : 2 ≤ g.numBlocks.toNat) : g.Carries := by
  have hbytes : g.numBlocks.toNat * g.blockSize.toNat = size.toNat :=
    Word.mul?_eq_some_iff.1 hsize
  have hlt := size.toNat_lt
  have htwo := Nat.mul_le_mul_right g.blockSize.toNat hblocks
  refine ⟨hsector, ?_, UInt64.lt_iff_toNat_lt.2 (Nat.lt_of_lt_of_le Nat.zero_lt_two hblocks)⟩
  rw [Buffer.maxLength]
  omega

/-- A call for a byte range is sound if the range has whole blocks, the device has these, and an
entry can hold them. -/
theorem TableCall.sound_create_iff {g : Geometry} (hc : g.Carries) {number : UInt8}
    (hnumber : 1 ≤ number.toNat ∧ number.toNat ≤ 4) {kind : UInt8} {start stop : UInt64}
    {e : Extent} :
    (create number kind start stop).Sound g ∧ e = (create number kind start stop).range g ↔
      Extent.inside? g.blockSize start stop = some e ∧ e.bound ≤ g.numBlocks.toNat ∧
        e.bound ≤ 2 ^ 32 := by
  constructor
  · rintro ⟨hsound, rfl⟩
    cases hin : Extent.inside? g.blockSize start stop with
    | none =>
      refine absurd ?_ hsound.placeable.blocks_ne
      rw [range, hin, Option.getD_none]
    | some inside =>
      have hrange : (create number kind start stop).range g = inside := by
        rw [range, hin, Option.getD_some]
      exact ⟨congrArg some hrange.symm, hsound.placeable.bound_le, hsound.recordable.bound_le⟩
  · rintro ⟨hin, hdevice, hentry⟩
    have hrange : (create number kind start stop).range g = e := by
      rw [range, hin, Option.getD_some]
    obtain ⟨-, hstart, hblocks⟩ := Extent.bound_of_inside? hin
    have hbound : e.bound = e.start.toNat + e.blocks.toNat := rfl
    have hplace : e.Placeable g := by
      refine ⟨fun h0 => ?_, fun h0 => ?_, hdevice⟩
      · rw [h0] at hstart
        exact absurd hstart (by decide)
      · rw [h0] at hblocks
        exact absurd hblocks (by decide)
    refine ⟨⟨hc.le_maxLength, ?_, hnumber, ?_⟩, hrange.symm⟩
    · rw [hrange]
      exact hplace
    · rw [hrange]
      exact ⟨by omega, by omega, hentry⟩

namespace Bench

variable {δ φ : Type} [BlockStore δ] {w : Bench δ φ} {g : Geometry}

open BlockStore

/-- A blank disk holds no entries. -/
theorem Blank.holds (hblank : w.Blank) (hg : geometry w.store = g) (hquiet : w.Quiet)
    (hc : g.Carries) : w.Holds g Allotment.empty := by
  subst hg
  exact ⟨rfl, hquiet, hblank.represents hc.sectorSize_le hc.pos, Allotment.ordinary_empty,
    Allotment.tidy_empty _⟩

variable [LawfulBlockStore δ] [FilesystemDriver φ]

/-- On a blank disk a call succeeds if it is sound. -/
theorem Blank.routine_eq_ok_iff (hblank : w.Blank) (hg : geometry w.store = g) (hquiet : w.Quiet)
    (c : TableCall) {e : Extent} :
    (w.run (c.routine (.disk g))).1 = .ok e ↔ g.Carries ∧ c.Sound g ∧ e = c.range g := by
  obtain ⟨hw, hrange⟩ := ensures_iff.1 (ensures_routine hg c)
  constructor
  · intro hok
    rw [hok] at hw
    obtain ⟨hc, -⟩ := hw.of_ok rfl
    obtain ⟨⟨hsound, -⟩, -⟩ := (hblank.holds hg hquiet hc).admits_of_ok hw
    exact ⟨hc, hsound, hrange e hok⟩
  · rintro ⟨hc, hsound, rfl⟩
    rcases (hblank.holds hg hquiet hc).of_sound hc.sectorSize_le hc.pos hsound hw with
      ⟨hr, -⟩ | ⟨k, -, ⟨-, a, ha, -⟩, -⟩
    · obtain ⟨e, he, -⟩ := Outcome.bind_eq_ok.1 hr
      rw [he, hrange e he]
    · cases ha

/-- On a blank disk, an entry is created over the whole blocks of a byte range if the disk has them
and an entry can hold them. -/
theorem createPartition_eq_ok_iff (hg : geometry w.store = g) (hblank : w.Blank) (hquiet : w.Quiet)
    {size : UInt64} (hsize : g.size? = some size) (hsector : sectorSize ≤ g.blockSize.toNat)
    {number : UInt8} (hnumber : 1 ≤ number.toNat ∧ number.toNat ≤ 4) (kind : UInt8)
    {start stop : UInt64} {e : Extent} :
    (w.run (createPartition (.disk g) number kind start stop)).1 = .ok e ↔
      Extent.inside? g.blockSize start stop = some e ∧ e.bound ≤ g.numBlocks.toNat ∧
        e.bound ≤ 2 ^ 32 := by
  have hcall := hblank.routine_eq_ok_iff hg hquiet (.create number kind start stop) (e := e)
  refine hcall.trans ⟨fun ⟨hc, h⟩ => (TableCall.sound_create_iff hc hnumber).1 h, fun h => ?_⟩
  -- block 0 is left out, so a device that has the blocks has two at least
  have hc : g.Carries := by
    obtain ⟨-, hstart, hblocks⟩ := Extent.bound_of_inside? h.1
    have hbound : e.bound = e.start.toNat + e.blocks.toNat := rfl
    exact Geometry.carries_of_size hsize hsector (by omega)
  exact ⟨hc, (TableCall.sound_create_iff hc hnumber).2 h⟩

/-! ## Both -/

/-- Where a layout places one partition, the call creates it there, and the other way round if the
last byte of the partition lies on the device. A partition that ends where 32-bit block addresses
do is left out: there the two draw the limit differently. -/
theorem layout_iff_creates (w : Bench δ φ) (hblank : w.Blank) (hquiet : w.Quiet) {size : UInt64}
    (hsize : (geometry w.store).size? = some size)
    (hsector : 512 ≤ (geometry w.store).blockSize.toNat) (s : PartitionSpec) (auto : Bool)
    (hnumber : 1 ≤ s.number.toNat ∧ s.number.toNat ≤ 4) (hs : s.size ≠ 0)
    (hend : s.stop.toNat / (geometry w.store).blockSize.toNat ≠ 2 ^ 32) (e : Extent) :
    let g := geometry w.store
    ((Config.mk [s] auto).layout size g.blockSize).value = .ok [e] ↔
      (w.run (createPartition (.disk g) s.number s.kind s.start s.stop)).1 = .ok e ∧
        s.stop ≤ size := by
  intro g
  rw [Config.layout_one_eq_ok_iff (PartitionSpec.check_eq_ok_iff.2 ⟨hnumber, hs⟩) hsector,
    createPartition_eq_ok_iff rfl hblank hquiet hsize hsector hnumber,
    PartitionSpec.place_eq_ok_iff]
  constructor
  · rintro ⟨hstop, hin, hlt⟩
    have hbytes : g.numBlocks.toNat * g.blockSize.toNat = size.toNat :=
      Word.mul?_eq_some_iff.1 hsize
    have hplace := PartitionSpec.placeable_of_place (g := g)
      (PartitionSpec.place_eq_ok_iff.2 ⟨hin, hlt⟩) (hbytes ▸ UInt64.le_iff_toNat_le.1 hstop)
    exact ⟨⟨hin, hplace.bound_le, Nat.le_of_lt hlt⟩, hstop⟩
  · rintro ⟨⟨hin, -, hle⟩, hstop⟩
    refine ⟨hstop, hin, Nat.lt_of_le_of_ne hle ?_⟩
    rw [(Extent.bound_of_inside? hin).1]
    exact hend

/-- A partition of two whole blocks and a half is placed and created on blocks 1 and 2. -/
theorem layout_iff_creates_half_block :
    let g : Geometry := ⟨512, 10⟩
    let w : Bench SparseDisk Signature := .new (.new g)
    let s : PartitionSpec := ⟨1, 512, 1280, 0xEE, "/fs"⟩
    ((Config.mk [s] false).layout 5120 g.blockSize).value = .ok [⟨1, 2⟩] ∧
      (w.run (createPartition (.disk g) s.number s.kind s.start s.stop)).1 = .ok ⟨1, 2⟩ := by
  intro g w s
  have hlayout : ((Config.mk [s] false).layout 5120 g.blockSize).value = .ok [⟨1, 2⟩] := by
    decide +kernel
  have hblank : w.Blank := fun b k _ _ => SparseDisk.byteAt_new g b k
  have hquiet : w.Quiet := by simp [w, Bench.new, Quiet]
  have hsize : (geometry w.store).size? = some 5120 := by decide
  have h := layout_iff_creates w hblank hquiet hsize (by decide) s false (by decide) (by decide)
    (by decide) ⟨1, 2⟩
  exact ⟨hlayout, (h.1 hlayout).1⟩

/-- The call creates a partition whose last byte lies past the device, as no block of it does, and
one that ends with the last block that has a 32-bit address; no layout places either. -/
theorem creates_beyond_layout :
    (let g : Geometry := ⟨512, 10⟩
      let w : Bench SparseDisk Signature := .new (.new g)
      let s : PartitionSpec := ⟨1, 0, 5121, 0x83, "/fs"⟩
      g.size? = some 5120 ∧
        ((Config.mk [s] true).layout 5120 g.blockSize).value =
          .error (.insufficientCapacity 5121 5120) ∧
        (w.run (createPartition (.disk g) s.number s.kind s.start s.stop)).1 = .ok ⟨1, 9⟩) ∧
      let g : Geometry := ⟨512, 4294967296⟩
      let w : Bench SparseDisk Signature := .new (.new g)
      let s : PartitionSpec := ⟨1, 0, 2199023255552, 0x83, "/fs"⟩
      g.size? = some 2199023255552 ∧
        ((Config.mk [s] true).layout 2199023255552 g.blockSize).value =
          .error (.offsetOverflow 1) ∧
        (w.run (createPartition (.disk g) s.number s.kind s.start s.stop)).1 =
          .ok ⟨1, 4294967295⟩ := by
  have hcreates : ∀ (g : Geometry) (s : PartitionSpec) (size : UInt64) (e : Extent),
      g.size? = some size → sectorSize ≤ g.blockSize.toNat →
      1 ≤ s.number.toNat ∧ s.number.toNat ≤ 4 →
      Extent.inside? g.blockSize s.start s.stop = some e ∧ e.bound ≤ g.numBlocks.toNat ∧
        e.bound ≤ 2 ^ 32 →
      (Bench.run (createPartition (.disk g) s.number s.kind s.start s.stop)
        (Bench.new (SparseDisk.new g) : Bench SparseDisk Signature)).1 = .ok e := by
    intro g s size e hsize hsector hnumber hcreated
    let w : Bench SparseDisk Signature := .new (.new g)
    have hblank : w.Blank := fun b k _ _ => SparseDisk.byteAt_new g b k
    have hquiet : w.Quiet := by simp [w, Bench.new, Quiet]
    exact (createPartition_eq_ok_iff (w := w) rfl hblank hquiet hsize hsector hnumber s.kind).2
      hcreated
  refine ⟨?_, ?_⟩
  · intro g w s
    exact ⟨by decide, by decide +kernel,
      hcreates g s 5120 ⟨1, 9⟩ (by decide) (by decide) (by decide) (by decide +kernel)⟩
  · intro g w s
    exact ⟨by decide, by decide +kernel, hcreates g s 2199023255552 ⟨1, 4294967295⟩ (by decide)
      (by decide) (by decide) (by decide +kernel)⟩

end Bench

end DiskBringup
