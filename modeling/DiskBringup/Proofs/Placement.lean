import Mathlib.Data.List.Forall2
import Mathlib.Data.List.Nodup
import Mathlib.Data.List.Pairwise
import DiskBringup.Layout.Place
import DiskBringup.Proofs.Allotment

/-!
# Where a layout places its partitions

A layout that can be placed gives every partition whole blocks of its byte range, and these lie on
the device, leave out block 0 and are shared by no two partitions. So the partitions with their
blocks are a tidy allotment, `planned` (`Config.tidy_planned`), whose entries are the configured
ones (`Config.planned_eq_some_iff`).
-/

namespace DiskBringup

/-! ## Valid configurations -/

namespace PartitionSpec

variable {s e : PartitionSpec}

theorem toNat_stop (s : PartitionSpec) :
    s.stop.toNat = min (s.start.toNat + s.size.toNat) (2 ^ 64 - 1) :=
  Word.toNat_saturatingAdd s.start s.size

theorem size_le_stop (s : PartitionSpec) : s.size.toNat ≤ s.stop.toNat := by
  have := s.size.toNat_lt
  rw [toNat_stop]
  omega

/-- Of two byte ranges that do not overlap one ends where the other starts, or before. -/
theorem overlaps_eq_false_iff :
    s.overlaps e = false ↔ e.stop.toNat ≤ s.start.toNat ∨ s.stop.toNat ≤ e.start.toNat := by
  rw [overlaps, Bool.and_eq_false_iff, decide_eq_false_iff_not, decide_eq_false_iff_not,
    UInt64.lt_iff_toNat_lt, UInt64.lt_iff_toNat_lt, Nat.not_lt, Nat.not_lt]

/-- The partitions differ in number and share no byte. -/
def Apart (e s : PartitionSpec) : Prop := e.number ≠ s.number ∧ s.overlaps e = false

theorem checkBeside_eq_ok_iff : s.checkBeside e = .ok () ↔ e.Apart s := by
  rw [checkBeside, Apart]
  by_cases hnumber : e.number = s.number
  · simp [hnumber]
  · cases s.overlaps e <;> simp [hnumber]

theorem checkAfter_eq_ok_iff {earlier : List PartitionSpec} :
    s.checkAfter earlier = .ok () ↔ ∀ e ∈ earlier, e.Apart s := by
  induction earlier with
  | nil => simp [checkAfter]
  | cons e rest ih =>
    rw [List.forall_mem_cons, ← checkBeside_eq_ok_iff, ← ih, checkAfter]
    cases s.checkBeside e <;> simp

theorem check_eq_ok_iff :
    s.check = .ok () ↔ (1 ≤ s.number.toNat ∧ s.number.toNat ≤ 4) ∧ s.size ≠ 0 := by
  have hzero : s.number = 0 ↔ s.number.toNat = 0 := UInt8.toNat_inj.symm
  have hlarge : 4 < s.number ↔ 4 < s.number.toNat := UInt8.lt_iff_toNat_lt
  rw [check]
  split
  · rename_i h
    rw [hzero, hlarge] at h
    simp only [reduceCtorEq, false_iff]
    omega
  · rename_i h
    rw [hzero, hlarge] at h
    split
    · rename_i hsize
      simp [hsize]
    · rename_i hsize
      simp only [true_iff]
      exact ⟨by omega, hsize⟩

end PartitionSpec

namespace Config

variable {c : Config} {capacity blockSize : UInt64} {extents : List Extent} {g : Geometry}

theorem checkFrom_eq_ok_iff {earlier specs : List PartitionSpec} :
    checkFrom earlier specs = .ok () ↔
      (∀ s ∈ specs, s.check = .ok ()) ∧ (∀ s ∈ specs, ∀ e ∈ earlier, e.Apart s) ∧
        specs.Pairwise PartitionSpec.Apart := by
  induction specs generalizing earlier with
  | nil => simp [checkFrom]
  | cons s rest ih =>
    rw [checkFrom]
    cases hs : s.check with
    | error err => simp [hs]
    | ok u =>
      -- `earlier` grows by the partition that was checked, so the induction is over all of them
      cases ha : s.checkAfter earlier with
      | error err =>
        have : ¬ ∀ e ∈ earlier, e.Apart s := by
          rw [← PartitionSpec.checkAfter_eq_ok_iff, ha]
          simp
        simp [this]
      | ok u =>
        have := PartitionSpec.checkAfter_eq_ok_iff.1 ha
        simp only [ih, List.forall_mem_cons, List.forall_mem_append, List.pairwise_cons]
        grind

/-- What a valid configuration is. -/
theorem validate_eq_ok_iff : c.validate = .ok () ↔ c.partitions.length ≤ maxPartitions ∧
    (∀ s ∈ c.partitions, s.check = .ok ()) ∧ c.partitions.Pairwise PartitionSpec.Apart := by
  rw [validate]
  split
  · rename_i h
    simp [Nat.not_le.2 h]
  · rename_i h
    rw [checkFrom_eq_ok_iff]
    simp [Nat.not_lt.1 h]

end Config

/-! ## Blocks inside a byte range -/

namespace Extent

variable {blockSize start stop : UInt64} {e : Extent} {n : Nat}

/-- The first whole block of a range comes no later than any block that starts in the range or
after it, block 0 left out. -/
theorem toNat_firstWhole_le_iff (hpos : 0 < blockSize.toNat) :
    (firstWhole blockSize start).toNat ≤ n ↔ n ≠ 0 ∧ start.toNat ≤ n * blockSize.toNat := by
  rw [firstWhole, Word.toNat_max, Word.toNat_ceilDiv hpos, UInt64.toNat_one, Nat.max_le,
    Nat.div_le_iff_le_mul_add_pred hpos, Nat.mul_comm blockSize.toNat n]
  omega

/-- The run inside a byte range, by its first block and the block after its last one. -/
theorem inside?_eq_some_iff :
    inside? blockSize start stop = some e ↔
      e.start = firstWhole blockSize start ∧ e.bound = stop.toNat / blockSize.toNat ∧
        e.start.toNat < e.bound := by
  rw [inside?]
  split
  · rename_i hlt
    have hlt' := UInt64.lt_iff_toNat_lt.1 hlt
    have hsub := UInt64.toNat_sub_of_le _ _ (UInt64.le_of_lt hlt)
    rw [UInt64.toNat_div] at hlt' hsub
    rw [Option.some.injEq]
    constructor
    · rintro rfl
      dsimp only [bound]
      rw [hsub]
      exact ⟨rfl, by omega, by omega⟩
    · rintro ⟨hstart, hend, -⟩
      obtain ⟨first, blocks⟩ := e
      obtain rfl : first = firstWhole blockSize start := hstart
      dsimp only [bound] at hend
      refine congrArg _ (UInt64.toNat.inj ?_)
      omega
  · rename_i hle
    rw [UInt64.lt_iff_toNat_lt, UInt64.toNat_div] at hle
    simp only [reduceCtorEq, false_iff]
    rintro ⟨hstart, hend, hlt⟩
    rw [hstart] at hlt
    omega

/-- A block size of zero leaves no whole block. -/
theorem pos_of_inside? (h : inside? blockSize start stop = some e) : 0 < blockSize.toNat := by
  obtain ⟨hbound, -, hblocks⟩ := bound_of_inside? h
  rcases Nat.eq_zero_or_pos blockSize.toNat with h0 | hpos
  · rw [h0, Nat.div_zero, bound] at hbound
    omega
  · exact hpos

/-- The run inside a byte range has all whole blocks of the range, block 0 left out. -/
theorem mem_iff_of_inside? (h : inside? blockSize start stop = some e) :
    n ∈ e ↔ n ≠ 0 ∧ start.toNat ≤ n * blockSize.toNat ∧
      (n + 1) * blockSize.toNat ≤ stop.toNat := by
  have hpos := pos_of_inside? h
  obtain ⟨hstart, hend, -⟩ := inside?_eq_some_iff.1 h
  rw [mem_iff, hstart, hend, toNat_firstWhole_le_iff hpos, ← Nat.succ_le_iff,
    Nat.le_div_iff_mul_le hpos, and_assoc]

end Extent

namespace PartitionSpec

variable {s a b : PartitionSpec} {blockSize : UInt64} {e x y : Extent}

theorem place_eq_ok_iff :
    s.place blockSize = .ok e ↔
      Extent.inside? blockSize s.start s.stop = some e ∧ e.bound < 2 ^ 32 := by
  rw [place]
  cases Extent.inside? blockSize s.start s.stop with
  | none => simp
  | some extent =>
    by_cases hle : UInt32.size ≤ extent.bound
    · simp only [if_pos hle, reduceCtorEq, Option.some.injEq, false_iff, not_and]
      rintro rfl
      exact Nat.not_lt.2 hle
    · simp only [if_neg hle, Except.ok.injEq, Option.some.injEq]
      constructor
      · rintro rfl
        exact ⟨rfl, Nat.not_le.1 hle⟩
      · exact And.left

/-- Placed blocks fit an entry of a partition table. -/
theorem recordable_of_place (h : s.place blockSize = .ok e) : e.Recordable := by
  obtain ⟨-, hlt⟩ := place_eq_ok_iff.1 h
  unfold Extent.bound at hlt
  exact ⟨by omega, by omega, Nat.le_of_lt hlt⟩

/-- Placed blocks lie on a device that holds the bytes of the partition. -/
theorem placeable_of_place {g : Geometry} (h : s.place g.blockSize = .ok e)
    (hstop : s.stop.toNat ≤ g.numBlocks.toNat * g.blockSize.toNat) : e.Placeable g := by
  obtain ⟨hin, -⟩ := place_eq_ok_iff.1 h
  obtain ⟨hbound, hstart, hblocks⟩ := Extent.bound_of_inside? hin
  refine ⟨?_, ?_, ?_⟩
  · intro h0
    rw [h0] at hstart
    exact absurd hstart (by decide)
  · intro h0
    rw [h0] at hblocks
    exact absurd hblocks (by decide)
  · rw [hbound]
    exact Nat.div_le_of_le_mul (Nat.mul_comm _ _ ▸ hstop)

/-- Blocks that are placed for partitions that share no byte share no block. -/
theorem not_shares_of_place (hx : a.place blockSize = .ok x) (hy : b.place blockSize = .ok y)
    (h : a.Apart b) : ¬ x.Shares y := by
  rintro ⟨n, hxn, hyn⟩
  have hpos := Extent.pos_of_inside? (place_eq_ok_iff.1 hx).1
  obtain ⟨-, hx₁, hx₂⟩ := (Extent.mem_iff_of_inside? (place_eq_ok_iff.1 hx).1).1 hxn
  obtain ⟨-, hy₁, hy₂⟩ := (Extent.mem_iff_of_inside? (place_eq_ok_iff.1 hy).1).1 hyn
  rw [Nat.succ_mul] at hx₂ hy₂
  -- the first byte of the common block is a byte of both partitions
  rcases overlaps_eq_false_iff.1 h.2 with h | h <;> omega

end PartitionSpec

/-! ## Layouts -/

theorem placeAll_eq_ok_iff {blockSize : UInt64} {specs : List PartitionSpec}
    {extents : List Extent} :
    (placeAll blockSize specs).value = .ok extents ↔
      List.Forall₂ (fun s e => s.place blockSize = .ok e) specs extents := by
  induction specs generalizing extents with
  | nil =>
    rw [List.forall₂_nil_left_iff, placeAll, Noted.value_pure, Except.ok.injEq]
    exact eq_comm
  | cons s rest ih =>
    rw [List.forall₂_cons_left_iff, placeAll]
    cases hs : s.place blockSize with
    | error err => simp
    | ok e =>
      simp only [Noted.value_bind, Noted.value_pure]
      cases hrest : (placeAll blockSize rest).value with
      | error err =>
        simp only [hrest, reduceCtorEq, false_iff] at ih
        simp only [Except.map, reduceCtorEq, false_iff]
        rintro ⟨e', others, -, hothers, rfl⟩
        exact ih hothers
      | ok others =>
        simp only [hrest, Except.ok.injEq] at ih
        simp only [Except.map, Except.ok.injEq]
        constructor
        · rintro rfl
          exact ⟨e, others, rfl, ih.1 rfl, rfl⟩
        · rintro ⟨e', others', rfl, hothers, rfl⟩
          rw [ih.2 hothers]

/-- Partitions that differ in number and share no byte are placed on blocks that none shares. -/
theorem pairwise_of_placed {blockSize : UInt64} {specs : List PartitionSpec}
    {extents : List Extent} (hapart : specs.Pairwise PartitionSpec.Apart)
    (hplaced : List.Forall₂ (fun s e => s.place blockSize = .ok e) specs extents) :
    (specs.zip extents).Pairwise fun x y => x.1.number ≠ y.1.number ∧ ¬ x.2.Shares y.2 := by
  obtain ⟨hlength, hplace⟩ := List.forall₂_iff_zip.1 hplaced
  have hzip : (specs.zip extents).Pairwise fun x y => x.1.Apart y.1 := by
    rw [← List.pairwise_map (f := Prod.fst), List.map_fst_zip hlength.le]
    exact hapart
  refine hzip.imp_of_mem ?_
  rintro ⟨s, e⟩ ⟨s', e'⟩ hx hy h
  exact ⟨h.1, PartitionSpec.not_shares_of_place (hplace hx) (hplace hy) h⟩

namespace Config

variable {c : Config} {g : Geometry} {extents : List Extent} {capacity blockSize : UInt64}

/-- The furthest end is one that no partition passes. -/
theorem furthestStop_le_iff :
    c.furthestStop ≤ capacity ↔ ∀ s ∈ c.partitions, s.stop ≤ capacity := by
  -- the fold is at most a number if what it starts from and every end are
  have hfold : ∀ (specs : List PartitionSpec) (furthest : UInt64),
      specs.foldl (fun f s => max f s.stop) furthest ≤ capacity ↔
        furthest ≤ capacity ∧ ∀ s ∈ specs, s.stop ≤ capacity := by
    intro specs
    induction specs with
    | nil => simp
    | cons t rest ih =>
      intro furthest
      rw [List.foldl_cons, ih, List.forall_mem_cons, UInt64.le_iff_toNat_le, Word.toNat_max,
        UInt64.le_iff_toNat_le, UInt64.le_iff_toNat_le, Nat.max_le, and_assoc]
  rw [furthestStop, hfold]
  simp [UInt64.le_iff_toNat_le]

/-- The sizes of partitions that share no byte add up to no more than the furthest end. -/
theorem totalSize_le_furthestStop (h : c.validate = .ok ()) : c.totalSize ≤ c.furthestStop := by
  obtain ⟨hlength, -, hapart⟩ := validate_eq_ok_iff.1 h
  have hstop : ∀ s ∈ c.partitions, s.stop.toNat ≤ c.furthestStop.toNat := fun s hs =>
    UInt64.le_iff_toNat_le.1 (furthestStop_le_iff.1 (UInt64.le_refl _) s hs)
  rw [UInt64.le_iff_toNat_le, totalSize]
  generalize c.furthestStop = furthest at hstop
  match hc : c.partitions, hlength, hapart with
  | [], _, _ => simp
  | [s], _, _ =>
    have hs := hstop s (hc ▸ List.mem_singleton.2 rfl)
    have hsize := s.size_le_stop
    rw [List.foldl_cons, List.foldl_nil, Word.toNat_saturatingAdd, UInt64.toNat_zero]
    omega
  | [a, b], _, hpair =>
    have ha := hstop a (hc ▸ List.mem_cons_self)
    have hb := hstop b (hc ▸ List.mem_cons_of_mem _ (List.mem_singleton.2 rfl))
    obtain ⟨-, hover⟩ := (List.pairwise_cons.1 hpair).1 b (List.mem_singleton.2 rfl)
    -- one of the two starts where the other has ended, so its end is past both sizes
    have hbeside := PartitionSpec.overlaps_eq_false_iff.1 hover
    simp only [List.foldl_cons, List.foldl_nil, Word.toNat_saturatingAdd, UInt64.toNat_zero,
      UInt64.size]
    rw [PartitionSpec.toNat_stop] at ha hb hbeside
    rw [PartitionSpec.toNat_stop] at hbeside
    omega

/-- A valid configuration needs no more than the bytes up to the furthest end. -/
theorem requiredCapacity_of_valid (h : c.validate = .ok ()) :
    c.requiredCapacity = c.furthestStop := by
  apply UInt64.toNat.inj
  rw [requiredCapacity, Word.toNat_max]
  exact Nat.max_eq_right (UInt64.le_iff_toNat_le.1 (totalSize_le_furthestStop h))

/-- A layout is placed if the configuration is valid, a table fits in a block, the device has the
bytes, and every partition can be placed. -/
theorem layout_eq_ok_iff : (c.layout capacity blockSize).value = .ok extents ↔
    c.validate = .ok () ∧ sectorSize ≤ blockSize.toNat ∧ (∀ s ∈ c.partitions, s.stop ≤ capacity) ∧
      List.Forall₂ (fun s e => s.place blockSize = .ok e) c.partitions extents := by
  rw [layout]
  cases hvalid : c.validate with
  | error err => simp
  | ok u =>
    rw [requiredCapacity_of_valid hvalid, ← furthestStop_le_iff, ← placeAll_eq_ok_iff]
    dsimp only
    split
    · rename_i hsize
      simp [Nat.not_le.2 hsize]
    split
    · rename_i hcapacity
      simp [UInt64.not_le.2 hcapacity]
    · rename_i hsize hcapacity
      simp [Nat.not_lt.1 hsize, UInt64.not_lt.1 hcapacity]

/-- The blocks of a layout on a device. -/
structure Placed (c : Config) (g : Geometry) (extents : List Extent) : Prop where
  /-- a table fits in a block -/
  sectorSize_le : sectorSize ≤ g.blockSize.toNat
  /-- every partition has its blocks -/
  length_eq : c.partitions.length = extents.length
  /-- the partitions have entries -/
  number_mem : ∀ s ∈ c.partitions, 1 ≤ s.number.toNat ∧ s.number.toNat ≤ 4
  /-- the blocks lie on the device -/
  placeable : ∀ x ∈ c.partitions.zip extents, x.2.Placeable g
  /-- the blocks fit an entry -/
  recordable : ∀ x ∈ c.partitions.zip extents, x.2.Recordable
  /-- no two partitions have a number or a block in common -/
  apart : (c.partitions.zip extents).Pairwise fun x y =>
    x.1.number ≠ y.1.number ∧ ¬ x.2.Shares y.2

/-- What the layout of a configuration on a device gives. -/
theorem placed_of_layout (h : (c.layout capacity g.blockSize).value = .ok extents)
    (hsize : g.size? = some capacity) : c.Placed g extents := by
  obtain ⟨hvalid, hsector, hstop, hplaced⟩ := layout_eq_ok_iff.1 h
  obtain ⟨hlength, hplace⟩ := List.forall₂_iff_zip.1 hplaced
  obtain ⟨-, hcheck, hapart⟩ := validate_eq_ok_iff.1 hvalid
  have hbytes : g.numBlocks.toNat * g.blockSize.toNat = capacity.toNat :=
    Word.mul?_eq_some_iff.1 hsize
  refine ⟨hsector, hlength, ?_, ?_, ?_, ?_⟩
  · exact fun s hs => (PartitionSpec.check_eq_ok_iff.1 (hcheck s hs)).1
  · rintro ⟨s, e⟩ hx
    refine PartitionSpec.placeable_of_place (hplace hx) ?_
    rw [hbytes]
    exact UInt64.le_iff_toNat_le.1 (hstop s (List.of_mem_zip hx).1)
  · rintro ⟨s, e⟩ hx
    exact PartitionSpec.recordable_of_place (hplace hx)
  · exact pairwise_of_placed hapart hplaced

/-! ## The planned allotment -/

/-- The configured partitions with their blocks. -/
def grants (c : Config) (extents : List Extent) : List (UInt8 × Grant) :=
  (c.partitions.zip extents).map fun x => (x.1.number, ⟨x.1.kind, x.2⟩)

/-- The configured partitions with their blocks, as an allotment. -/
def planned (c : Config) (extents : List Extent) : Allotment :=
  fun i => (c.grants extents).lookup i.number

namespace Placed

variable (h : c.Placed g extents)

include h

theorem pairwise_grants :
    (c.grants extents).Pairwise fun x y => x.1 ≠ y.1 ∧ ¬ x.2.extent.Shares y.2.extent := by
  rw [grants, List.pairwise_map]
  exact h.apart

/-- The entries of the plan are the configured partitions. -/
theorem planned_eq_some_iff {i : Index} {a : Grant} :
    c.planned extents i = some a ↔ (i.number, a) ∈ c.grants extents := by
  have hp := h.pairwise_grants
  rw [planned]
  generalize c.grants extents = grants at hp
  induction grants with
  | nil => simp
  | cons x rest ih =>
    obtain ⟨n, b⟩ := x
    obtain ⟨hx, hrest⟩ := List.pairwise_cons.1 hp
    rw [List.lookup_cons, List.mem_cons, Prod.mk.injEq]
    by_cases hn : i.number = n
    · subst hn
      have hno : (i.number, a) ∉ rest := fun hmem => (hx _ hmem).1 rfl
      simp [hno, eq_comm]
    · rw [beq_eq_false_iff_ne.2 hn]
      simp [hn, ih hrest]

/-- Every partition has an entry. -/
theorem exists_index {s : PartitionSpec} (hs : s ∈ c.partitions) :
    ∃ i, s.number = Index.number i := by
  have hmem := h.number_mem s hs
  cases hi : Index.ofNumber? s.number with
  | none =>
    have := Index.ofNumber?_eq_none_iff.1 hi
    omega
  | some i => exact ⟨i, Index.ofNumber?_eq_some_iff.1 hi⟩

/-- Every partition has blocks. -/
theorem exists_extent {s : PartitionSpec} (hs : s ∈ c.partitions) :
    ∃ e, (s, e) ∈ c.partitions.zip extents := by
  rw [← List.map_fst_zip h.length_eq.le] at hs
  obtain ⟨x, hx, rfl⟩ := List.mem_map.1 hs
  exact ⟨x.2, hx⟩

/-- A partition with its blocks is an entry of the plan. -/
theorem planned_of_mem {s : PartitionSpec} {e : Extent} (hx : (s, e) ∈ c.partitions.zip extents) :
    ∃ i, s.number = Index.number i ∧ c.planned extents i = some ⟨s.kind, e⟩ := by
  obtain ⟨i, hi⟩ := h.exists_index (List.of_mem_zip hx).1
  refine ⟨i, hi, h.planned_eq_some_iff.2 ?_⟩
  rw [← hi]
  exact List.mem_map_of_mem (f := fun x : PartitionSpec × Extent =>
    (x.1.number, (⟨x.1.kind, x.2⟩ : Grant))) hx

/-- The plan has the configured entries and no others. -/
theorem listing_planned_perm : (c.planned extents).listing.Perm (c.grants extents) := by
  have hgrants : (c.grants extents).Nodup :=
    h.pairwise_grants.imp fun hxy heq => hxy.1 (congrArg Prod.fst heq)
  have hlisting : (c.planned extents).listing.Nodup := by
    refine List.Nodup.filterMap ?_ (by decide)
    intro i j x hi hj
    obtain ⟨a, -, rfl⟩ := Option.map_eq_some_iff.1 hi
    obtain ⟨b, -, heq⟩ := Option.map_eq_some_iff.1 hj
    exact (Index.number_inj.1 (Prod.mk.inj heq).1).symm
  rw [List.perm_ext_iff_of_nodup hlisting hgrants]
  rintro ⟨n, a⟩
  rw [Allotment.mem_listing_iff]
  constructor
  · rintro ⟨i, rfl, hi⟩
    exact h.planned_eq_some_iff.1 hi
  · intro hmem
    obtain ⟨⟨s, e⟩, hx, heq⟩ := List.mem_map.1 hmem
    obtain ⟨rfl, rfl⟩ := Prod.mk.inj heq
    obtain ⟨i, hi, hplan⟩ := h.planned_of_mem hx
    exact ⟨i, hi, hplan⟩

theorem tidy_planned : (c.planned extents).Tidy g := by
  refine ⟨?_, ?_⟩
  · intro i a hi
    obtain ⟨x, hx, heq⟩ := List.mem_map.1 (h.planned_eq_some_iff.1 hi)
    obtain rfl := (Prod.mk.inj heq).2
    exact h.placeable x hx
  · intro i j a b hi hj hij hshare
    have hp := h.pairwise_grants
    have hne : (i.number, a) ≠ (j.number, b) := fun heq =>
      hij (Index.number_inj.1 (Prod.mk.inj heq).1)
    have hsymm : Std.Symm fun x y : UInt8 × Grant => x.1 ≠ y.1 ∧ ¬ x.2.extent.Shares y.2.extent :=
      ⟨fun x y hxy => ⟨hxy.1.symm, fun hs => hxy.2 hs.symm⟩⟩
    exact (hp.forall (h.planned_eq_some_iff.1 hi) (h.planned_eq_some_iff.1 hj) hne).2 hshare

theorem recordable_planned {i : Index} {a : Grant} (hi : c.planned extents i = some a) :
    a.extent.Recordable := by
  obtain ⟨x, hx, heq⟩ := List.mem_map.1 (h.planned_eq_some_iff.1 hi)
  obtain rfl := (Prod.mk.inj heq).2
  exact h.recordable x hx

end Placed

end Config

end DiskBringup
