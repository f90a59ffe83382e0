import DiskBringup.Proofs.Placement

/-!
# Which layouts are placed, and where

A layout deals in whole blocks. `s.HoldsBlock blockSize n` says, in bytes, that block `n` lies whole
in the range of the partition `s` and is not block 0, and the blocks that `s` is given are exactly
these (`PartitionSpec.mem_iff_of_place`). `Config.Fits` has what a configuration and a device need
for a layout to be placed, and `Config.LaidOut` what a placed layout gives; the two make the layout
out exactly (`Config.layout_exact`).
-/

namespace DiskBringup

/-! ## The blocks of a partition -/

/-- There is a run inside a byte range if some block other than block 0 lies whole in it. -/
theorem Extent.exists_inside?_iff {blockSize start stop : UInt64} (hpos : 0 < blockSize.toNat) :
    (∃ e, inside? blockSize start stop = some e) ↔
      ∃ n : Nat, n ≠ 0 ∧ start.toNat ≤ n * blockSize.toNat ∧
        (n + 1) * blockSize.toNat ≤ stop.toNat := by
  constructor
  · rintro ⟨e, he⟩
    obtain ⟨-, -, hlt⟩ := inside?_eq_some_iff.1 he
    exact ⟨e.start.toNat, (mem_iff_of_inside? he).1 ⟨Nat.le_refl _, hlt⟩⟩
  · rintro ⟨n, hn, hstart, hstop⟩
    have hfirst := (toNat_firstWhole_le_iff hpos).2 ⟨hn, hstart⟩
    have hlast := (Nat.le_div_iff_mul_le hpos).2 hstop
    rw [inside?, if_pos]
    · exact ⟨_, rfl⟩
    · rw [UInt64.lt_iff_toNat_lt, UInt64.toNat_div]
      omega

namespace PartitionSpec

variable {s : PartitionSpec} {blockSize : UInt64} {e : Extent}

/-- The block, counted on a device with blocks of the given size, lies whole in the byte range of
the partition and is not block 0. -/
def HoldsBlock (s : PartitionSpec) (blockSize : UInt64) (n : Nat) : Prop :=
  n ≠ 0 ∧ s.start.toNat ≤ n * blockSize.toNat ∧ (n + 1) * blockSize.toNat ≤ s.stop.toNat

/-- A partition is given all blocks that it holds, and no others. -/
theorem mem_iff_of_place (h : s.place blockSize = .ok e) (n : Nat) :
    n ∈ e ↔ s.HoldsBlock blockSize n :=
  Extent.mem_iff_of_inside? (place_eq_ok_iff.1 h).1

/-- A partition can be placed if it holds a block and ends at a 32-bit block address. -/
theorem exists_place_iff (hpos : 0 < blockSize.toNat) :
    (∃ e, s.place blockSize = .ok e) ↔
      (∃ n, s.HoldsBlock blockSize n) ∧ s.stop.toNat / blockSize.toNat ≤ 2 ^ 32 - 1 := by
  simp only [place_eq_ok_iff, HoldsBlock, ← Extent.exists_inside?_iff hpos]
  constructor
  · rintro ⟨e, hin, hlt⟩
    rw [(Extent.bound_of_inside? hin).1] at hlt
    exact ⟨⟨e, hin⟩, Nat.le_sub_one_of_lt hlt⟩
  · rintro ⟨⟨e, hin⟩, hle⟩
    refine ⟨e, hin, ?_⟩
    rw [(Extent.bound_of_inside? hin).1]
    exact Nat.lt_of_le_sub_one (by decide) hle

end PartitionSpec

/-! ## Layouts -/

namespace Config

variable {c : Config} {capacity blockSize : UInt64} {extents : List Extent}

/-- What it takes to place a layout on a device of `capacity` bytes. -/
structure Fits (c : Config) (capacity blockSize : UInt64) : Prop where
  /-- the configuration is valid -/
  valid : c.validate = .ok ()
  /-- a table fits in a block -/
  sectorSize_le : 512 ≤ blockSize.toNat
  /-- the device has the bytes up to the furthest end -/
  stop_le : ∀ s ∈ c.partitions, s.stop ≤ capacity
  /-- every partition holds a block -/
  exists_block : ∀ s ∈ c.partitions, ∃ n, s.HoldsBlock blockSize n
  /-- every partition ends at a 32-bit block address -/
  stop_div_le : ∀ s ∈ c.partitions, s.stop.toNat / blockSize.toNat ≤ 2 ^ 32 - 1

/-- What a layout on a device of `capacity` bytes gives. -/
structure LaidOut (c : Config) (capacity blockSize : UInt64) (extents : List Extent) : Prop where
  /-- in the order of the partitions, each is given all blocks that it holds, and no others -/
  mem_iff : List.Forall₂ (fun s e => ∀ n, n ∈ e ↔ s.HoldsBlock blockSize n) c.partitions extents
  /-- there are blocks, block 0 is left out, and the device has them -/
  bounds : ∀ e ∈ extents, 1 ≤ e.start.toNat ∧ 1 ≤ e.blocks.toNat ∧
    e.bound ≤ capacity.toNat / blockSize.toNat
  /-- no block is given twice -/
  disjoint : extents.Pairwise fun x y => ¬ x.Shares y

/-- Things can be found for the partitions in turn if there is one for each of them. -/
theorem exists_forall₂_iff {specs : List PartitionSpec} {R : PartitionSpec → Extent → Prop} :
    (∃ extents, List.Forall₂ R specs extents) ↔ ∀ s ∈ specs, ∃ e, R s e := by
  induction specs with
  | nil => simp
  | cons s rest ih =>
    rw [List.forall_mem_cons, ← ih]
    constructor
    · rintro ⟨extents, h⟩
      cases h with
      | cons hs hrest => exact ⟨⟨_, hs⟩, ⟨_, hrest⟩⟩
    · rintro ⟨⟨e, hs⟩, ⟨others, hrest⟩⟩
      exact ⟨e :: others, .cons hs hrest⟩

theorem exists_layout_iff :
    (∃ extents, (c.layout capacity blockSize).value = .ok extents) ↔ c.Fits capacity blockSize := by
  simp only [layout_eq_ok_iff, exists_and_left, exists_forall₂_iff]
  constructor
  · rintro ⟨hvalid, hsector, hstop, hplace⟩
    have hpos : 0 < blockSize.toNat := Nat.lt_of_lt_of_le (by decide) hsector
    have hspec := fun s hs => (PartitionSpec.exists_place_iff hpos).1 (hplace s hs)
    exact ⟨hvalid, hsector, hstop, fun s hs => (hspec s hs).1, fun s hs => (hspec s hs).2⟩
  · rintro ⟨hvalid, hsector, hstop, hblock, hdiv⟩
    have hpos : 0 < blockSize.toNat := Nat.lt_of_lt_of_le (by decide) hsector
    exact ⟨hvalid, hsector, hstop, fun s hs =>
      (PartitionSpec.exists_place_iff hpos).2 ⟨hblock s hs, hdiv s hs⟩⟩

theorem laidOut_of_layout (h : (c.layout capacity blockSize).value = .ok extents) :
    c.LaidOut capacity blockSize extents := by
  obtain ⟨hvalid, -, hstop, hplaced⟩ := layout_eq_ok_iff.1 h
  obtain ⟨-, -, hapart⟩ := validate_eq_ok_iff.1 hvalid
  obtain ⟨hlength, hplace⟩ := List.forall₂_iff_zip.1 hplaced
  have hextents : (c.partitions.zip extents).map Prod.snd = extents := List.map_snd_zip hlength.ge
  refine ⟨hplaced.imp fun _ _ h => PartitionSpec.mem_iff_of_place h, ?_, ?_⟩
  · intro e he
    rw [← hextents] at he
    obtain ⟨⟨s, e⟩, hmem, rfl⟩ := List.mem_map.1 he
    have hin := (PartitionSpec.place_eq_ok_iff.1 (hplace hmem)).1
    obtain ⟨hbound, hstart, hblocks⟩ := Extent.bound_of_inside? hin
    refine ⟨hstart, hblocks, ?_⟩
    rw [hbound]
    exact Nat.div_le_div_right (UInt64.le_iff_toNat_le.1 (hstop s (List.of_mem_zip hmem).1))
  · have hpairs := pairwise_of_placed hapart hplaced
    rw [← hextents, List.pairwise_map]
    exact hpairs.imp fun h => h.2

/-- A layout is placed exactly if the configuration and the device have what it takes; it then
gives every partition the blocks that the partition holds. The capacity that is asked for is the
furthest end, as the sizes of a valid configuration add up to no more. -/
theorem layout_exact (c : Config) (capacity blockSize : UInt64) :
    ((∃ extents, (c.layout capacity blockSize).value = .ok extents) ↔
        c.Fits capacity blockSize) ∧
      (∀ extents, (c.layout capacity blockSize).value = .ok extents →
        c.LaidOut capacity blockSize extents) ∧
      (c.validate = .ok () → c.totalSize ≤ c.furthestStop) :=
  ⟨exists_layout_iff, fun _ => laidOut_of_layout, totalSize_le_furthestStop⟩

/-- Two partitions that meet inside block 4 of a small device. -/
def meetingInBlock : Config :=
  ⟨[⟨1, 100, 2000, 0x83, "/fs"⟩, ⟨2, 2100, 3000, 0x83, "/fs2"⟩], true⟩

/-- Of two partitions that meet inside a block neither has that block. -/
theorem layout_exact_meeting :
    (meetingInBlock.layout 5120 512).value = .ok [⟨1, 3⟩, ⟨5, 4⟩] ∧
      meetingInBlock.LaidOut 5120 512 [⟨1, 3⟩, ⟨5, 4⟩] ∧
      meetingInBlock.validate = .ok () ∧
      meetingInBlock.totalSize ≤ meetingInBlock.furthestStop := by
  obtain ⟨-, hplaced, hsum⟩ := layout_exact meetingInBlock 5120 512
  have hlayout : (meetingInBlock.layout 5120 512).value = .ok [⟨1, 3⟩, ⟨5, 4⟩] := by
    decide +kernel
  have hvalid : meetingInBlock.validate = .ok () := by decide +kernel
  exact ⟨hlayout, hplaced _ hlayout, hvalid, hsum hvalid⟩

end Config

end DiskBringup
