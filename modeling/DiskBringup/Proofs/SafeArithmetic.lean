import Mathlib.Algebra.GroupWithZero.Nat
import DiskBringup.Proofs.AtomicEntries
import DiskBringup.Proofs.ReportedFailures
import DiskBringup.Proofs.Views

/-!
# Arithmetic that cannot go wrong

A sum may be no word, a difference may be negative, a divisor may be zero, and an index may lie
past the end. Where a caller can bring this about, an operation checks for it and overflows. In all
other places it relies on what was established before: a division on the check that a table fits in
a block, a window on the bound of its entry, an entry on the width of its fields. An operation that
nothing can make overflow returns no `Outcome`, and indexes a row of bytes by its length.

Here each operation that relies on something is given once more with every step checked: `none`
says that a step is not defined. It is then proved to be `some` of the operation itself.
`Calculates` collects this for a table, a configuration, a volume and for storage, with the
overflows that remain: that of an extent that a caller names, which is described exactly, and those
for want of memory, as a block may be longer than any buffer. On a disk whose size is a word all of
them calculate, and so does every view of the disk (`arithmetic_safe`).
-/

namespace DiskBringup

open Routine (Log)
open Script (ends_pure ends_request_bind)

/-! ## Words -/

namespace Word

/-- The exact difference, if there is one. -/
def sub? (a b : UInt64) : Option UInt64 := if b ≤ a then some (a - b) else none

/-- The quotient, unless the divisor is zero. -/
def div? (a b : UInt64) : Option UInt64 := if b = 0 then none else some (a / b)

/-- The quotient rounded up, if every step is defined. -/
def ceilDiv? (a b : UInt64) : Option UInt64 := do
  let quotient ← div? a b
  if a % b = 0 then return quotient else add? quotient 1

variable {a b : UInt64}

theorem div?_eq (hb : b ≠ 0) : div? a b = some (a / b) := if_neg hb

/-- A quotient is rounded up to a word: only one by 1 is the largest word, and that is exact. -/
theorem ceilDiv?_eq (hb : b ≠ 0) : ceilDiv? a b = some (ceilDiv a b) := by
  have hpos := toNat_pos hb
  have hceil := toNat_ceilDiv (a := a) hpos
  rw [ceilDiv?, div?_eq hb]
  by_cases hmod : a % b = 0
  · simp [ceilDiv, hmod]
  · have hmod' : 0 < a.toNat % b.toNat :=
      (UInt64.toNat_mod a b) ▸ toNat_pos hmod
    have hdiv := Nat.div_add_mod a.toNat b.toNat
    have hlt := Nat.mod_lt a.toNat hpos
    have hquotient : (a.toNat + b.toNat - 1) / b.toNat = a.toNat / b.toNat + 1 := by
      apply Nat.div_eq_of_lt_le
      · rw [Nat.add_mul, Nat.mul_comm]
        omega
      · rw [Nat.add_mul, Nat.add_mul, Nat.mul_comm]
        omega
    simp only [Option.bind_eq_bind, Option.bind_some, if_neg hmod]
    rw [add?_eq_some_iff, hceil, hquotient, UInt64.toNat_div, UInt64.toNat_one]

end Word

/-! ## Extents -/

namespace Extent

/-- `inside?` with every step checked. -/
def checkedInside (blockSize start stop : UInt64) : Option (Option Extent) := do
  let first := max (← Word.ceilDiv? start blockSize) 1
  let bound ← Word.div? stop blockSize
  if first < bound then return some ⟨first, ← Word.sub? bound first⟩ else return none

theorem checkedInside_eq {blockSize start stop : UInt64} (h : sectorSize ≤ blockSize.toNat) :
    checkedInside blockSize start stop = some (inside? blockSize start stop) := by
  have hne : blockSize ≠ 0 := by
    rintro rfl
    exact absurd h (by decide)
  rw [checkedInside, Word.ceilDiv?_eq hne, Word.div?_eq hne, inside?, firstWhole]
  simp only [Option.bind_eq_bind, Option.bind_some, Option.pure_def]
  split
  · rename_i hlt
    rw [Word.sub?, if_pos (UInt64.le_of_lt hlt)]
    rfl
  · rfl

variable {a b : Extent}

/-- Two runs whose ends are words are compared in 64-bit arithmetic. -/
theorem overlaps?_eq (ha : a.Addressable) (hb : b.Addressable) :
    a.overlaps? b = some (a.overlaps b) := by
  have hbound : ∀ {e : Extent}, e.Addressable → ∃ bound, e.bound? = some bound := fun he =>
    Option.ne_none_iff_exists'.1 fun h => absurd (bound?_eq_none_iff.1 h) (Nat.not_le.2 he)
  obtain ⟨aEnd, haEnd⟩ := hbound ha
  obtain ⟨bEnd, hbEnd⟩ := hbound hb
  have hsome : ∃ r, a.overlaps? b = some r := by
    rw [overlaps?, hbEnd, haEnd]
    dsimp only [Option.map_some]
    split <;> exact ⟨_, rfl⟩
  obtain ⟨r, hr⟩ := hsome
  rw [hr, overlaps_of_overlaps? hr]

/-- A run that does not start at block 0 has a last block. -/
theorem sub?_bound {e : Extent} {bound : UInt64} (hstart : e.start ≠ 0)
    (hbound : e.bound? = some bound) : Word.sub? bound 1 = some (bound - 1) := by
  have h := bound?_eq_some_iff.1 hbound
  have hpos := Word.toNat_pos hstart
  rw [Extent.bound] at h
  rw [Word.sub?, if_pos]
  rw [UInt64.le_iff_toNat_le, UInt64.toNat_one]
  omega

end Extent

/-! ## Tables -/

namespace Table

variable (t : Table)

/-- `collision?` with every step checked. -/
def checkedCollision (i : Index) (extent : Extent) : Option (Option Index) :=
  Index.all.findM? fun j =>
    if j != i && t.uses j then (t.record j).extent.overlaps? extent else some false

/-- `replace` with every step checked. -/
def checkedReplace (i : Index) (kind : UInt8) (extent : Extent) (bound : UInt64) :
    Option (Noted (Except TableError Table)) :=
  match Word.sub? bound 1 with
  | none => some (return .error .outOfBounds)
  | some last =>
    if ¬ fitsRecord extent bound then some (return .error .offsetOverflow)
    else
      (t.checkedCollision i extent).map fun
        | some j => do
          Noted.note (.entryOverlap i.number j.number)
          return .error (.overlap j.number)
        | none => return .ok (t.put i (Record.covering kind extent last))

/-- `setEntry` with every step checked: it overflows where one is not defined. -/
def checkedSetEntry (number kind : UInt8) (extent : Extent) : Noted (Outcome TableError Table) :=
  match Index.ofNumber? number with
  | none => return .fail .notFound
  | some i =>
    match extent.bound?.bind (t.checkedReplace i kind extent) with
    | none => return .overflow .add
    | some edited => do return .ofExcept (← edited)

/-- The arithmetic of a table is defined, but for an edit that is given an extent without an end. -/
structure Calculates : Prop where
  /-- a record is looked up by its number, inside the sector -/
  record : ∀ {number : UInt8} {i : Index}, Index.ofNumber? number = some i → 1 ≤ number.toNat ∧
    ∀ k : Fin 16, t.sector[446 + (number.toNat - 1) * 16 + k.val]? = some (t.recordByte i k)
  /-- a protective record is one of those that are counted -/
  protective : ∀ {i : Index}, t.protector? = some i → 1 ≤ t.usedCount
  /-- an entry that is found has an end -/
  find : ∀ {number : UInt8} {e : Entry}, (t.find number).value = .ok e → e.extent.Addressable
  /-- and so has every entry that is listed -/
  entries : ∀ e ∈ t.entries.value, e.extent.Addressable
  /-- an edit overflows wherever a step of it is not defined -/
  setEntry_checked : ∀ (number kind : UInt8) (extent : Extent),
    t.checkedSetEntry number kind extent = t.setEntry number kind extent
  /-- that is exactly where there is such a record and the extent has no end -/
  setEntry : ∀ (number kind : UInt8) (extent : Extent),
    (∃ o, (t.setEntry number kind extent).value = .overflow o) ↔
      (1 ≤ number.toNat ∧ number.toNat ≤ 4) ∧ 2 ^ 64 ≤ extent.bound

variable {t} {i : Index} {kind : UInt8} {extent : Extent} {bound : UInt64}

theorem addressable_record : (t.record i).extent.Addressable := by
  have hstart := (t.record i).start.toNat_lt_size
  have hcount := (t.record i).count.toNat_lt_size
  have hbound : (t.record i).extent.bound = (t.record i).start.toNat + (t.record i).count.toNat :=
    rfl
  rw [Extent.Addressable, hbound]
  exact Nat.lt_trans (Nat.add_lt_add hstart hcount) (by decide)

/-- The other records are 32 bits wide, so only the end of the given extent is in doubt. -/
theorem checkedCollision_eq (haddr : extent.Addressable) :
    t.checkedCollision i extent = some (t.collision? i extent) := by
  have hstep : ∀ j, (if j != i && t.uses j then (t.record j).extent.overlaps? extent
      else some false) =
      pure (j != i && (t.uses j && (t.record j).extent.overlaps extent)) := by
    intro j
    rw [Extent.overlaps?_eq addressable_record haddr, ← Bool.and_assoc]
    cases j != i && t.uses j <;> rfl
  rw [checkedCollision, funext hstep]
  exact List.findM?_pure _ _

theorem checkedReplace_eq (haddr : extent.Addressable) :
    t.checkedReplace i kind extent bound = some (t.replace i kind extent bound) := by
  rw [checkedReplace, replace, Word.sub?, checkedCollision_eq haddr]
  by_cases hzero : bound = 0
  · rw [hzero]
    rfl
  · have hle : 1 ≤ bound := by
      rw [UInt64.le_iff_toNat_le, UInt64.toNat_one]
      exact Word.toNat_pos hzero
    rw [if_pos hle, if_neg hzero]
    dsimp only
    split
    · rfl
    · cases t.collision? i extent <;> rfl

theorem usedCount_pos (h : t.protector? = some i) : 1 ≤ t.usedCount := by
  have hkind := (Index.find?_all_eq_some_iff.1 h).1
  have huses : t.uses i = true := by
    rw [uses, eq_of_beq hkind]
    rfl
  exact List.length_pos_of_mem (List.mem_filter.2 ⟨Index.mem_all i, huses⟩)

theorem calculates (t : Table) : t.Calculates where
  record := by
    intro number i hi
    obtain rfl := Index.ofNumber?_eq_some_iff.1 hi
    have hnumber : i.number.toNat - 1 = i.val := by
      revert i
      decide
    refine ⟨i.number_mem.1, fun k => ?_⟩
    have hk := offset_add_lt i k
    rw [hnumber, Nat.mul_comm, recordByte]
    exact Vector.getElem?_eq_getElem hk
  protective := usedCount_pos
  find := fun {_ e} _ => e.addressable_extent
  entries := fun e _ => e.addressable_extent
  setEntry_checked := by
    intro number kind extent
    rw [checkedSetEntry, setEntry]
    cases Index.ofNumber? number with
    | none => rfl
    | some i =>
      cases hb : extent.bound? with
      | none => rfl
      | some bound =>
        have haddr : extent.Addressable :=
          (Extent.bound?_eq_some_iff.1 hb).trans_lt bound.toNat_lt
        dsimp only [Option.bind_some]
        rw [checkedReplace_eq haddr]
  setEntry := by
    intro number kind extent
    simp only [setEntry_eq_overflow_iff, exists_eq_left]

end Table

/-! ## Configurations -/

/-- `place` with every step checked. -/
def PartitionSpec.checkedPlace (s : PartitionSpec) (blockSize : UInt64) :
    Option (Except LayoutError Extent) := do
  match ← Extent.checkedInside blockSize s.start s.stop with
  | none => return .error (.emptyPartition s.number)
  | some extent =>
    return if UInt32.size ≤ extent.bound then .error (.offsetOverflow s.number) else .ok extent

/-- `placeAll` with every step checked. -/
def checkedPlaceAll (blockSize : UInt64) :
    List PartitionSpec → Option (Noted (Except LayoutError (List Extent)))
  | [] => some (return .ok [])
  | s :: rest => do
    match ← s.checkedPlace blockSize with
    | .error err => return (return .error err)
    | .ok extent =>
      let others ← checkedPlaceAll blockSize rest
      return do
        Noted.note (.placed s.number extent)
        let placed ← others
        return placed.map (extent :: ·)

theorem PartitionSpec.checkedPlace_eq {s : PartitionSpec} {blockSize : UInt64}
    (h : sectorSize ≤ blockSize.toNat) :
    s.checkedPlace blockSize = some (s.place blockSize) := by
  rw [checkedPlace, Extent.checkedInside_eq h, place]
  cases Extent.inside? blockSize s.start s.stop <;> rfl

theorem checkedPlaceAll_eq {blockSize : UInt64} (h : sectorSize ≤ blockSize.toNat)
    (specs : List PartitionSpec) :
    checkedPlaceAll blockSize specs = some (placeAll blockSize specs) := by
  induction specs with
  | nil => rfl
  | cons s rest ih =>
    rw [checkedPlaceAll, PartitionSpec.checkedPlace_eq h, placeAll, ih]
    cases s.place blockSize <;> rfl

namespace Config

variable (c : Config)

/-- `layout` with every step checked. -/
def checkedLayout (capacity blockSize : UInt64) :
    Option (Noted (Except LayoutError (List Extent))) :=
  match c.validate with
  | .error err => some (return .error err)
  | .ok () =>
    if blockSize.toNat < sectorSize then some (return .error (.blockSizeTooSmall blockSize))
    else if capacity < c.requiredCapacity then
      some (return .error (.insufficientCapacity c.requiredCapacity capacity))
    else checkedPlaceAll blockSize c.partitions

/-- The arithmetic of a configuration is defined, on every device. -/
structure Calculates : Prop where
  /-- the end of a partition is exact, or the largest word -/
  stop : ∀ s ∈ c.partitions, s.stop.toNat = min (s.start.toNat + s.size.toNat) (2 ^ 64 - 1)
  /-- and so is the required capacity -/
  requiredCapacity : ∀ n < 2 ^ 64 - 1, c.requiredCapacity.toNat ≤ n ↔
    (c.partitions.map (·.size.toNat)).sum ≤ n ∧
      ∀ s ∈ c.partitions, s.start.toNat + s.size.toNat ≤ n
  /-- a layout with every step checked is the layout -/
  layout : ∀ capacity blockSize : UInt64,
    c.checkedLayout capacity blockSize = some (c.layout capacity blockSize)

variable {c}

theorem toNat_totalSize :
    c.totalSize.toNat = min (c.partitions.map (·.size.toNat)).sum (2 ^ 64 - 1) := by
  have hfold : ∀ (specs : List PartitionSpec) (total : UInt64),
      (specs.foldl (fun total s => Word.saturatingAdd total s.size) total).toNat =
        min (total.toNat + (specs.map (·.size.toNat)).sum) (2 ^ 64 - 1) := by
    intro specs
    induction specs with
    | nil =>
      intro total
      have := total.toNat_lt
      simp only [List.foldl_nil, List.map_nil, List.sum_nil]
      omega
    | cons s rest ih =>
      intro total
      rw [List.foldl_cons, ih, Word.toNat_saturatingAdd, UInt64.size, List.map_cons, List.sum_cons]
      omega
  rw [totalSize, hfold, UInt64.toNat_zero, Nat.zero_add]

theorem requiredCapacity_le_iff {n : Nat} (hn : n < 2 ^ 64 - 1) : c.requiredCapacity.toNat ≤ n ↔
    (c.partitions.map (·.size.toNat)).sum ≤ n ∧
      ∀ s ∈ c.partitions, s.start.toNat + s.size.toNat ≤ n := by
  have hword : (UInt64.ofNat n).toNat = n := UInt64.toNat_ofNat_of_lt' (hn.trans (by decide))
  have hfurthest : c.furthestStop.toNat ≤ n ↔
      ∀ s ∈ c.partitions, s.start.toNat + s.size.toNat ≤ n := by
    rw [← hword, ← UInt64.le_iff_toNat_le, furthestStop_le_iff]
    refine forall₂_congr fun s _ => ?_
    rw [UInt64.le_iff_toNat_le, PartitionSpec.toNat_stop, hword]
    omega
  rw [Config.requiredCapacity, Word.toNat_max, Nat.max_le, hfurthest, toNat_totalSize]
  exact and_congr_left fun _ => by omega

theorem calculates (c : Config) : c.Calculates where
  stop := fun s _ => s.toNat_stop
  requiredCapacity := fun _ hn => requiredCapacity_le_iff hn
  layout := by
    intro capacity blockSize
    rw [checkedLayout, layout]
    cases c.validate with
    | error err => rfl
    | ok u =>
      dsimp only
      split
      · rfl
      · split
        · rfl
        · exact checkedPlaceAll_eq (Nat.not_lt.1 ‹_›) c.partitions

end Config

/-! ## Volumes -/

theorem Geometry.exists_size {g : Geometry}
    (hsize : g.blockSize.toNat * g.numBlocks.toNat < 2 ^ 64) : ∃ n, g.size? = some n := by
  refine Option.ne_none_iff_exists'.1 fun h => ?_
  rw [size?, Word.mul?_eq_none_iff, Nat.mul_comm] at h
  exact Nat.not_le.2 hsize h

/-- `below?` with every step checked. -/
def Window.checkedBelow (w : Window) (block : UInt64) : Option (Option UInt64) :=
  if block < w.extent.blocks then (Word.add? w.extent.start block).map some else some none

/-- A block before the end of a window has an address below. -/
theorem Window.checkedBelow_eq {w : Window} {block : UInt64} :
    w.checkedBelow block = some (w.below? block) := by
  rw [checkedBelow]
  split
  · rename_i hlt
    have hbelow : w.below? block = some (w.extent.start + block) := if_pos hlt
    have hadd := Word.add?_eq_some_iff.2 (below?_eq_some_iff.1 hbelow).2.symm
    rw [hadd, hbelow, Option.map_some]
  · rename_i hlt
    rw [below?, if_neg hlt]

/-- `createPartition` with every step checked. -/
def checkedCreatePartition (v : Volume) (number kind : UInt8) (start stop : UInt64) :
    Option (Routine (Outcome TableError Extent)) :=
  if v.blockSize.toNat < sectorSize then some (return .fail .unsupportedBlockSize)
  else do
    match (← Extent.checkedInside v.blockSize start stop).filter
      (·.bound ≤ v.numBlocks.toNat) with
    | none => return do
      Routine.note (.rangeMisfit number start stop v.numBlocks)
      return .fail .outOfBounds
    | some extent => return do
      let written ← writeEntry v number kind extent
      return written.bind fun () => .ok extent

theorem checkedCreatePartition_eq {v : Volume} {number kind : UInt8} {start stop : UInt64} :
    checkedCreatePartition v number kind start stop =
      some (createPartition v number kind start stop) := by
  rw [checkedCreatePartition, createPartition]
  split
  · rfl
  · rw [Extent.checkedInside_eq (Nat.not_lt.1 ‹_›)]
    dsimp only [Option.bind_eq_bind, Option.bind_some]
    cases (Extent.inside? v.blockSize start stop).filter (·.bound ≤ v.numBlocks.toNat) <;> rfl

namespace Volume

/-- `request` with every step checked. -/
def checkedRequest : Volume → (r : BlockRequest) → Option (BlockScript r.Answer)
  | disk _, r => some (Script.request r)
  | window _ _, .init => some (return .ok ())
  | window _ _, .deinit => some (return .ok ())
  | window base w, .read block length => do
    match ← w.checkedBelow block with
    | some below => base.checkedRequest (.read below length)
    | none => return (return .error .device)
  | window base w, .write block data => do
    match ← w.checkedBelow block with
    | some below => base.checkedRequest (.write below data)
    | none => return (return .error .device)

theorem checkedRequest_eq (v : Volume) (r : BlockRequest) :
    v.checkedRequest r = some (v.request r) := by
  induction v generalizing r with
  | disk g => rfl
  | window base w ih =>
    cases r with
    | init => rfl
    | deinit => rfl
    | read block length =>
      rw [checkedRequest, request, Window.checkedBelow_eq]
      cases w.below? block with
      | none => rfl
      | some below => exact ih _
    | write block data =>
      rw [checkedRequest, request, Window.checkedBelow_eq]
      cases w.below? block with
      | none => rfl
      | some below => exact ih _

/-- The arithmetic on a volume is defined, but for an entry that is given an extent without an end.
That there is no buffer for a block is a matter of memory, not of arithmetic. -/
structure Calculates (v : Volume) : Prop where
  /-- the number of its bytes is a word -/
  size : ∃ n, v.geometry.size? = some n
  /-- a request with every step checked is the request -/
  request : ∀ r : BlockRequest, v.checkedRequest r = some (v.request r)
  /-- what overflows when a table is read is at most its buffer -/
  read : (Table.read v).Ends fun _ r => r.Buffered v.Unbuffered
  /-- the same when it is written -/
  write : ∀ t : Table, (t.write v).Ends fun _ r => r.Buffered v.Unbuffered
  /-- and when a partition is located -/
  init : ∀ p : Partition, (p.init v).Ends fun _ r => r.1.Buffered v.Unbuffered
  /-- a partition is created as if every step were checked -/
  create_checked : ∀ (number kind : UInt8) (start stop : UInt64),
    checkedCreatePartition v number kind start stop =
      some (createPartition v number kind start stop)
  /-- and nothing overflows -/
  create : ∀ (number kind : UInt8) (start stop : UInt64),
    (createPartition v number kind start stop).Ends fun _ r => ∀ o, r ≠ .overflow o
  /-- an entry that is written has a last block -/
  last : ∀ {extent : Extent} {bound : UInt64}, extent.start ≠ 0 → extent.bound? = some bound →
    Word.sub? bound 1 = some (bound - 1)
  /-- writing it overflows exactly if it is not empty, leaves out block 0 and has no end -/
  writeEntry : ∀ (number kind : UInt8) (extent : Extent),
    (writeEntry v number kind extent).Ends fun _ r => (∃ o, r = .overflow o) ↔
      extent.start ≠ 0 ∧ extent.blocks ≠ 0 ∧ 2 ^ 64 ≤ extent.bound

variable {g : Geometry} {v : Volume} {extent : Extent}

/-- An entry over blocks of a volume whose size is a word needs two blocks, so its blocks are no
longer than a buffer. -/
theorem not_unbuffered_of_placeable (hsize : v.blockSize.toNat * v.numBlocks.toNat < 2 ^ 64)
    (h : extent.Placeable v.geometry) : ¬ v.Unbuffered := by
  intro hlong
  have hbytes : 2 ^ 63 * 2 ≤ v.blockSize.toNat * v.numBlocks.toNat :=
    Nat.mul_le_mul hlong h.two_le
  exact absurd hbytes (Nat.not_le.2 hsize)

/-- A call that commits its entry does not overflow. -/
theorem ne_overflow_of_commits (hsize : v.blockSize.toNat * v.numBlocks.toNat < 2 ^ 64)
    (hplace : extent.Placeable v.geometry) {log : Log} {r : Outcome TableError Unit}
    (h : Table.Commits v log r) (o : Overflow) : r ≠ .overflow o :=
  fun ho => not_unbuffered_of_placeable hsize hplace (h.buffered o ho).2

theorem calculates (hsize : v.blockSize.toNat * v.numBlocks.toNat < 2 ^ 64) : v.Calculates where
  size := Geometry.exists_size hsize
  request := v.checkedRequest_eq
  read := Table.buffered_read
  write := fun _ => Table.commits_write.imp fun _ _ h => h.buffered
  init := fun _ => Partition.buffered_init
  create_checked := fun _ _ _ _ => checkedCreatePartition_eq
  create := by
    intro number kind start stop
    refine ((TableCall.create number kind start stop).ends_routine (v := v)).imp ?_
    rintro log r (⟨-, err, rfl⟩ | ⟨hplace, hcommits⟩) o ho
    · cases ho
    · subst ho
      exact ne_overflow_of_commits hsize hplace hcommits o rfl
  last := Extent.sub?_bound
  writeEntry := by
    intro number kind extent
    by_cases hover : extent.start ≠ 0 ∧ extent.blocks ≠ 0 ∧ 2 ^ 64 ≤ extent.bound
    · obtain ⟨hstart, hblocks, hbound⟩ := hover
      rw [DiskBringup.writeEntry, if_neg (not_or.2 ⟨hstart, hblocks⟩),
        Extent.bound?_eq_none_iff.2 hbound]
      exact ends_pure ⟨fun _ => ⟨hstart, hblocks, hbound⟩, fun _ => ⟨_, rfl⟩⟩
    · refine ends_writeEntry.imp ?_
      rintro log r (⟨-, rfl⟩ | ⟨h, -⟩ | ⟨hplace, hcommits⟩)
      · exact ⟨by simp, fun h => absurd h hover⟩
      · exact absurd h hover
      · exact ⟨fun ho => absurd ho (not_exists.2 (ne_overflow_of_commits hsize hplace hcommits)),
          fun h => absurd h hover⟩

/-- The volume is a disk of the given shape, or the view of a partition on such a volume. The
partition was located on one as well, which need not be the volume that it is viewed on. -/
inductive Viewed (g : Geometry) : Volume → Prop
  /-- the disk -/
  | disk : Viewed g (.disk g)
  /-- the view of a partition -/
  | view {found base v : Volume} {p : Partition} (hfound : Viewed g found) (hp : p.LocatedOn found)
    (hbase : Viewed g base) (hv : p.volume? base = some v) : Viewed g v

/-- A view has blocks like those of the disk, and no more of them. -/
theorem Viewed.le (h : v.Viewed g) :
    v.blockSize = g.blockSize ∧ v.numBlocks.toNat ≤ g.numBlocks.toNat := by
  induction h with
  | disk => exact ⟨rfl, Nat.le_refl _⟩
  | view _ hp _ hv ihfound ihbase =>
    obtain ⟨w, hwindow, hbound⟩ := hp.exists_window
    rw [Partition.volume?, hwindow, Option.map_some] at hv
    obtain rfl := Option.some.inj hv
    refine ⟨ihbase.1, ?_⟩
    calc w.extent.blocks.toNat
        ≤ w.extent.bound := Nat.le_add_left _ _
      _ ≤ _ := hbound
      _ ≤ g.numBlocks.toNat := ihfound.2

theorem Viewed.calculates (h : v.Viewed g)
    (hsize : g.blockSize.toNat * g.numBlocks.toNat < 2 ^ 64) : v.Calculates := by
  obtain ⟨hblockSize, hnumBlocks⟩ := h.le
  refine Volume.calculates ?_
  rw [hblockSize]
  exact Nat.lt_of_le_of_lt (Nat.mul_le_mul_left _ hnumBlocks) hsize

end Volume

/-! ## Storage -/

/-- The arithmetic of storage on a disk is defined: what overflows is a buffer for a block that is
longer than any, or a filesystem. -/
structure Storage.Calculates (g : Geometry) (s : Storage) : Prop where
  /-- when it is brought up -/
  init : s.init.Ends fun log r => ∀ o, r.1 = .overflow o →
    o = .buffer ∧ (Volume.disk g).Unbuffered ∨ Routine.Overflowed o log
  /-- and when it is wiped -/
  wipe : s.wipe.Ends fun log r => ∀ o, r = .overflow o →
    o = .buffer ∧ (Volume.disk g).Unbuffered ∨ Routine.Overflowed o log

variable {g : Geometry}

theorem Accounts.of_overflow {v : Volume} {log : Log} {o : Overflow}
    (h : Accounts v log (.overflow o)) :
    o = .buffer ∧ v.Unbuffered ∨ Routine.Overflowed o log := by
  cases h with
  | unbuffered hlong => exact .inl ⟨rfl, hlong⟩
  | passed h => exact .inr h

theorem Storage.calculates {s : Storage} (hdevice : ∀ g' ∈ s.device, g' = g)
    (hsize : g.blockSize.toNat * g.numBlocks.toNat < 2 ^ 64) : s.Calculates g := by
  constructor
  · rintro log ⟨ending, s'⟩ hrun o rfl
    rcases runs_init hrun with ⟨-, hok, -⟩ | ⟨-, -, hfail, -⟩ | ⟨g', -, hsome, hcourse⟩
    · cases hok
    · cases hfail
    · obtain rfl := hdevice g' hsome
      rcases hcourse.accounts with h | ⟨hnone, -⟩ | ⟨-, -, hr⟩
      · exact h.of_overflow
      · obtain ⟨n, hn⟩ := Geometry.exists_size hsize
        cases hn.symm.trans hnone
      · cases hr
  · rintro log ending hrun o rfl
    rcases runs_wipe hrun with ⟨-, hfail, -⟩ | ⟨g', during, notes, hsome, rfl, hwiping, hnote⟩
    · cases hfail
    · obtain rfl := hdevice g' hsome
      exact (hwiping.accounts hnote).of_overflow

/-! ## Every step is defined -/

/-- On a disk whose size is a word, arithmetic goes wrong only where a caller names an extent
without an end. Otherwise every step of it is defined, in tables and configurations, on the disk and
every view of it, and in bringing up storage, whatever the disk holds and answers. -/
theorem arithmetic_safe (hsize : g.blockSize.toNat * g.numBlocks.toNat < 2 ^ 64) :
    (∀ v : Volume, v.Viewed g → v.Calculates) ∧ (∀ t : Table, t.Calculates) ∧
      (∀ c : Config, c.Calculates) ∧
      ∀ s : Storage, (∀ g' ∈ s.device, g' = g) → s.Calculates g :=
  ⟨fun _ h => h.calculates hsize, Table.calculates, Config.calculates,
    fun _ h => Storage.calculates h hsize⟩

/-- The view of a partition, and that of the partition on its own view, where not all of its blocks
lie. An entry over the last block that has an address has no end: to write it overflows, and so does
an edit of a record, but not that of a record that is none. -/
theorem arithmetic_safe_lone :
    let g : Geometry := ⟨512, 4096⟩
    let window : Window := ⟨⟨1, 10⟩, by decide⟩
    let view := Volume.window (.disk g) window
    let endless : Extent := ⟨-1, 1⟩
    view.Calculates ∧ (Volume.window view window).Calculates ∧
      (∀ log r, (writeEntry view 1 0x83 endless).Runs log r → ∃ o, r = .overflow o) ∧
      (∃ o, (Table.empty.setEntry 4 0x83 endless).value = .overflow o) ∧
      (¬ ∃ o, (Table.empty.setEntry 5 0x83 endless).value = .overflow o) ∧
      Config.single.Calculates ∧ (Storage.withoutFactory).Calculates g := by
  intro g window view endless
  obtain ⟨hviews, htables, hconfigs, hstorage⟩ := arithmetic_safe (g := g) (by decide)
  have hlocated : Partition.LocatedOn ⟨1, some window⟩ (.disk g) :=
    Partition.locatedOn_lonePartition
  have hview : view.Viewed g := .view .disk hlocated .disk rfl
  have hcalculates := hviews view hview
  have hnested := hviews _ (.view .disk hlocated hview rfl)
  have hset := (htables Table.empty).setEntry
  refine ⟨hcalculates, hnested, fun log r hrun => ?_, ?_, ?_, hconfigs _, hstorage _ ?_⟩
  · exact (hcalculates.writeEntry 1 0x83 endless log r hrun).2 ⟨by decide, by decide, by decide⟩
  · exact (hset 4 0x83 endless).2 ⟨by decide, by decide⟩
  · exact fun h => absurd ((hset 5 0x83 endless).1 h).1 (by decide)
  · rintro g' ⟨⟩
    rfl

end DiskBringup
