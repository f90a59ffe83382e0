import DiskBringup.Partition
import DiskBringup.Proofs.Footprint

/-!
# The partition table of a disk

`Bench.table` is the table that block 0 of the disk starts with. Reading the table of the disk
gives it or fails (`ensures_read`); locating a partition gives the blocks of the entry that a
look-up finds in it (`ensures_locate`); and writing an entry either makes it the edited table,
`Table.rewritten`, or alters nothing at all (`ensures_writeEntry`). What a look-up finds and when
an edit succeeds is said on records (`Table.find_eq_ok_iff`, `Table.setEntry_eq_ok_iff`).
-/

namespace DiskBringup

namespace Table

variable {t t' base : Table} {number kind : UInt8} {extent : Extent}

/-! ## Look-ups and edits by records -/

/-- A look-up finds the entry of a record in a signed and well-formed table without protective
records. -/
theorem find_eq_ok_iff {e : Entry} :
    (t.find number).value = .ok e ↔
      ∃ i, Index.ofNumber? number = some i ∧ t.hasSignature = true ∧ t.protector? = none ∧
        t.isWellFormed = true ∧ t.entry? i = some e := by
  have hprot := t.value_isProtective
  rw [find]
  cases hi : Index.ofNumber? number with
  | none => simp
  | some i =>
    cases hsig : t.hasSignature with
    | false => simp
    | true =>
      simp only [if_true, Noted.value_bind, hprot]
      cases hp : t.protector? with
      | some j => simp
      | none =>
        simp only [Option.isSome_none, Bool.false_eq_true, if_false]
        cases hw : t.isWellFormed with
        | false => simp
        | true => cases he : t.entry? i <;> simp [he]

/-- An edit starts from the table itself where it is signed and not protective, and from an empty
one where it is not signed. -/
theorem editable_eq_ok_iff :
    t.editable.value = .ok base ↔
      t.hasSignature = false ∧ base = empty ∨
        t.hasSignature = true ∧ t.protector? = none ∧ base = t := by
  have hprot := t.value_isProtective
  rw [editable]
  cases hsig : t.hasSignature with
  | false => simp [eq_comm]
  | true =>
    simp only [if_true, Noted.value_bind, hprot]
    cases hp : t.protector? with
    | some j => simp
    | none => simp [eq_comm]

/-- An edit succeeds for blocks that fit a record and collide with none, and puts their record. -/
theorem setEntry_eq_ok_iff :
    (t.setEntry number kind extent).value = .ok t' ↔
      ∃ i bound, Index.ofNumber? number = some i ∧ extent.bound? = some bound ∧ bound ≠ 0 ∧
        fitsRecord extent bound ∧ t.collision? i extent = none ∧
        t' = t.put i (Record.covering kind extent (bound - 1)) := by
  rw [setEntry]
  cases hi : Index.ofNumber? number with
  | none => simp
  | some i =>
    cases hb : extent.bound? with
    | none => simp
    | some bound =>
      simp only [Noted.value_bind, Noted.value_pure, Option.some.injEq, exists_and_left,
        exists_eq_left', replace]
      by_cases h0 : bound = 0
      · simp [h0]
      by_cases hfit : fitsRecord extent bound
      · cases hc : t.collision? i extent with
        | none => simp [h0, hfit, eq_comm]
        | some j => simp [h0, hfit]
      · simp [h0, hfit]

/-- The table of a disk after an entry is written into it. -/
def rewritten (t : Table) (number kind : UInt8) (extent : Extent) : Outcome TableError Table :=
  match t.editable.value with
  | .error err => .fail err
  | .ok base => (base.setEntry number kind extent).value

end Table

/-! ## The table on the bench -/

/-- Block 0 can hold a partition table and be read into a buffer. -/
structure Geometry.Carries (g : Geometry) : Prop where
  /-- the table fits in a block -/
  sectorSize_le : sectorSize ≤ g.blockSize.toNat
  /-- a block fits in a buffer -/
  le_maxLength : g.blockSize.toNat ≤ Buffer.maxLength
  /-- there is a block 0 -/
  pos : 0 < g.numBlocks

/-- The blocks lie on the device and leave out block 0. -/
structure Extent.Placeable (e : Extent) (g : Geometry) : Prop where
  /-- block 0 is left out -/
  start_ne : e.start ≠ 0
  /-- there are blocks -/
  blocks_ne : e.blocks ≠ 0
  /-- the device has them -/
  bound_le : e.bound ≤ g.numBlocks.toNat

/-- Block 0 and a block of the extent are two. -/
theorem Extent.Placeable.two_le {e : Extent} {g : Geometry} (h : e.Placeable g) :
    2 ≤ g.numBlocks.toNat := by
  have hstart := Word.toNat_pos h.start_ne
  have hblocks := Word.toNat_pos h.blocks_ne
  have hbound := h.bound_le
  rw [Extent.bound] at hbound
  omega

namespace Bench

variable {δ φ : Type} [BlockStore δ] {w w' : Bench δ φ} {blocks : Set Nat} {made : List String}
  {g : Geometry}

open BlockStore

/-- The table that block 0 of the disk starts with. -/
def table (w : Bench δ φ) : Table := ⟨Vector.ofFn fun k => byteAt w.store 0 k.val⟩

/-- Steps that leave block 0 alone leave the table as it is. -/
theorem Alters.table_eq (h : w.Alters blocks made w')
    (hsize : sectorSize ≤ (geometry w.store).blockSize.toNat)
    (hpos : 0 < (geometry w.store).numBlocks) (h0 : 0 ∉ blocks) : w'.table = w.table := by
  rw [table]
  congr 2
  funext k
  exact h.byteAt_eq 0 k.val h0 hpos (Nat.lt_of_lt_of_le k.isLt hsize)

variable [LawfulBlockStore δ] [FilesystemDriver φ]

/-- Block 0 is read as it is, or reading it fails. -/
theorem ensures_readFirst (hg : geometry w.store = g) :
    w.Ensures (Table.readFirst (.disk g)) fun r w' => w.Alters ∅ [] w' ∧
      (g.blockSize.toNat ≤ Buffer.maxLength ∧ 0 < g.numBlocks ∧
          r = .ok (Vector.ofFn fun k => byteAt w.store 0 k.val) ∨
        r.Refused (Buffer.maxLength < g.blockSize.toNat) ∧
          (w.Quiet → g.blockSize.toNat ≤ Buffer.maxLength → ¬ 0 < g.numBlocks)) := by
  rw [Table.readFirst]
  split
  · rename_i hlt
    exact obeys_pure ⟨Alters.refl ∅ w, .inr ⟨.overflow _ hlt,
      fun _ hle => absurd hle (Nat.not_le.2 hlt)⟩⟩
  · rename_i hle
    have hle' : g.blockSize.toNat ≤ Buffer.maxLength := Nat.not_lt.1 hle
    obtain ⟨ha, hread⟩ := read_cases 0 g.blockSize.toNat w
    have hblock : w.Ensures (Routine.block (.read 0 g.blockSize.toNat)) fun r w' =>
        w.Alters ∅ [] w' ∧ ((∃ code, r = .error code ∧
          (w.Quiet → ¬ g.Accepts 0 g.blockSize.toNat)) ∨
          g.Accepts 0 g.blockSize.toNat ∧
            r = .ok (Vector.ofFn fun k => byteAt w.store 0 k.val)) := by
      rw [hg] at hread
      exact obeys_request trivial ⟨ha, hread⟩
    refine (show w.Ensures (Routine.onVolume (.disk g) (.read 0 g.blockSize.toNat)) _ from
      hblock).bind ?_
    rintro r w₁ ⟨h₁, ⟨code, rfl, hq⟩ | ⟨hacc, rfl⟩⟩
    · refine (ensures_note _ w₁).bind ?_
      intro _ w₂ h₂
      exact obeys_pure ⟨h₁.trans h₂, .inr ⟨.fail _,
        fun hquiet _ hpos => hq hquiet ⟨rfl, hpos⟩⟩⟩
    · exact obeys_pure ⟨h₁, .inl ⟨hle', hacc.2, rfl⟩⟩

/-- The table of the disk is read as it is, or reading it fails. -/
theorem ensures_read (hg : geometry w.store = g) :
    w.Ensures (Table.read (.disk g)) fun r w' => w.Alters ∅ [] w' ∧
      (g.Carries ∧ r = .ok w.table ∨
        r.Refused (Buffer.maxLength < g.blockSize.toNat) ∧ (w.Quiet → ¬ g.Carries)) := by
  rw [Table.read]
  split
  · rename_i hsize
    refine (ensures_readFirst hg).bind ?_
    rintro r w₁ ⟨h₁, ⟨hle, hpos, rfl⟩ | ⟨hr, hq⟩⟩
    · refine obeys_pure ⟨h₁, .inl ⟨⟨hsize, hle, hpos⟩, ?_⟩⟩
      simp [Outcome.bind, Table.ofBlock, table]
    · exact obeys_pure ⟨h₁, .inr ⟨hr.bind _,
        fun hquiet hc => hq hquiet hc.le_maxLength hc.pos⟩⟩
  · rename_i hsize
    exact obeys_pure ⟨Alters.refl ∅ w, .inr ⟨.fail _,
      fun _ hc => hsize hc.sectorSize_le⟩⟩

/-! ## Locating a partition -/

omit [LawfulBlockStore δ] in
/-- The window of an entry is its extent, if that ends on the volume. -/
theorem ensures_window (e : Entry) (number : UInt8) (v : Volume) (w : Bench δ φ) :
    w.Ensures (Routine.ofNoted (e.window number v)) fun r w' => w.Alters ∅ [] w' ∧
      (e.extent.bound ≤ v.numBlocks.toNat ∧ r = .ok ⟨e.extent, e.addressable_extent⟩ ∨
        ¬ e.extent.bound ≤ v.numBlocks.toNat ∧ ∃ code, r = .fail code) := by
  refine (ensures_ofNoted _ w).imp ?_
  rintro r w₁ ⟨rfl, h₁⟩
  refine ⟨h₁, ?_⟩
  rw [Entry.window, dif_pos e.addressable_extent]
  split
  · rename_i hlt
    exact .inr ⟨Nat.not_le.2 hlt, _, rfl⟩
  · rename_i hle
    exact .inl ⟨Nat.not_lt.1 hle, rfl⟩

/-- A partition is located at the blocks of the entry that a look-up finds in the table, if these
end on the disk. Without faults it is located exactly then. -/
theorem ensures_locate (hg : geometry w.store = g) (number : UInt8) :
    w.Ensures (locate (.disk g) number) fun r w' => w.Alters ∅ [] w' ∧
      (∀ window, r = .ok window → g.Carries ∧ ∃ e, (w.table.find number).value = .ok e ∧
        e.extent.bound ≤ g.numBlocks.toNat ∧ window.extent = e.extent) ∧
      (w.Quiet → g.Carries → (∃ window, r = .ok window) ∨ (∃ code, r = .fail code) ∧
        ∀ e, (w.table.find number).value = .ok e → ¬ e.extent.bound ≤ g.numBlocks.toNat) := by
  rw [locate]
  refine (ensures_read hg).bind ?_
  rintro r w₁ ⟨h₁, ⟨hc, rfl⟩ | ⟨hr, hq⟩⟩
  · refine (ensures_ofNoted _ w₁).bind ?_
    rintro found w₂ ⟨rfl, h₂⟩
    cases hf : (w.table.find number).value with
    | error err =>
      exact obeys_pure ⟨h₁.trans h₂, by simp, fun _ _ => .inr ⟨⟨_, rfl⟩, by simp⟩⟩
    | ok e =>
      refine (ensures_window e number (.disk g) w₂).imp ?_
      rintro r w₃ ⟨h₃, ⟨hle, rfl⟩ | ⟨hgt, code, rfl⟩⟩
      · refine ⟨h₁.trans (h₂.trans h₃), ?_, fun _ _ => .inl ⟨_, rfl⟩⟩
        rintro window heq
        obtain rfl := Outcome.ok.inj heq
        exact ⟨hc, e, rfl, hle, rfl⟩
      · refine ⟨h₁.trans (h₂.trans h₃), by simp, fun _ _ => .inr ⟨⟨_, rfl⟩, ?_⟩⟩
        rintro e' heq
        obtain rfl := Except.ok.inj heq
        exact hgt
  · cases hr with
    | fail err => exact obeys_pure ⟨h₁, by simp, fun hquiet hc => absurd hc (hq hquiet)⟩
    | overflow o => exact obeys_pure ⟨h₁, by simp, fun hquiet hc => absurd hc (hq hquiet)⟩

/-! ## Writing the table -/

/-- Block 0 is written, or nothing is altered. -/
theorem ensures_writeFirst (hg : geometry w.store = g) (data : Buffer g.blockSize.toNat) :
    w.Ensures (Table.writeFirst (.disk g) data) fun r w' =>
      (r = .ok () ∧ w.Alters {0} [] w' ∧
        ∀ (k : Nat) (hk : k < g.blockSize.toNat), byteAt w'.store 0 k = data[k]) ∨
      r ≠ .ok () ∧ w.Alters ∅ [] w' ∧ (w.Quiet → ¬ 0 < g.numBlocks) := by
  have hblock : w.Ensures (Routine.block (.write 0 data)) fun r w' =>
      (∃ code, r = .error code ∧ (w.Quiet → ¬ g.Accepts 0 g.blockSize.toNat) ∧
        w.Alters ∅ [] w') ∨
      r = .ok () ∧ w.Alters {0} [] w' ∧
        ∀ (k : Nat) (hk : k < g.blockSize.toNat), byteAt w'.store 0 k = data[k] := by
    refine obeys_request trivial ?_
    rcases write_cases 0 data w with ⟨code, herr, hq, ha⟩ | ⟨hok, -, ha, hbytes⟩
    · exact .inl ⟨code, herr, hg ▸ hq, ha⟩
    · exact .inr ⟨hok, ha, hbytes⟩
  unfold Table.writeFirst
  refine (show w.Ensures (Routine.onVolume (.disk g) (.write 0 data)) _ from hblock).bind ?_
  rintro r w₁ (⟨code, rfl, hq, h₁⟩ | ⟨rfl, h₁, hbytes⟩)
  · refine (ensures_note _ w₁).bind ?_
    intro _ w₂ h₂
    exact obeys_pure (.inr ⟨by simp, h₁.trans h₂, fun hquiet hpos => hq hquiet ⟨rfl, hpos⟩⟩)
  · exact obeys_pure (.inl ⟨rfl, h₁, hbytes⟩)

/-- A table written to the disk is the table of the disk, and what follows it in block 0 is kept;
or nothing is altered. -/
theorem ensures_write (hg : geometry w.store = g) (t : Table) :
    w.Ensures (t.write (.disk g)) fun r w' =>
      (g.Carries ∧ r = .ok () ∧ w.Alters {0} [] w' ∧ w'.table = t ∧
        ∀ k, 512 ≤ k → k < g.blockSize.toNat → byteAt w'.store 0 k = byteAt w.store 0 k) ∨
      r ≠ .ok () ∧ w.Alters ∅ [] w' ∧ (w.Quiet → ¬ g.Carries) := by
  rw [Table.write]
  split
  · rename_i hsize
    refine (ensures_readFirst hg).bind ?_
    rintro r w₁ ⟨h₁, ⟨hle, hpos, rfl⟩ | ⟨hr, hq⟩⟩
    · have hc : g.Carries := ⟨hsize, hle, hpos⟩
      refine (ensures_writeFirst (h₁.geometry_eq.trans hg) _).imp ?_
      rintro r w₂ (⟨rfl, h₂, hbytes⟩ | ⟨hr, h₂, hq⟩)
      · -- the block that is written is the one that was read, with the table laid over it
        have hbyte : ∀ (k : Nat), k < g.blockSize.toNat → byteAt w₂.store 0 k =
            if h : k < 512 then t.sector[k] else byteAt w.store 0 k := by
          intro k hk
          refine (hbytes k hk).trans ((t.getElem_overlay _ hk).trans ?_)
          split
          · rfl
          · exact Vector.getElem_ofFn _
        refine .inl ⟨hc, rfl, Alters.trans h₁.of_empty h₂, ?_, ?_⟩
        · have hsector : ∀ k : Fin 512, byteAt w₂.store 0 k.val = t.sector[k.val] := by
            intro k
            rw [hbyte k.val (Nat.lt_of_lt_of_le k.isLt hsize), dif_pos k.isLt]
          cases t
          simp only [table, hsector, Table.mk.injEq]
          exact Vector.ofFn_getElem
        · intro k hle hk
          rw [hbyte k hk, dif_neg (Nat.not_lt.2 hle)]
      · exact .inr ⟨hr, h₁.trans h₂, fun hquiet _ => hq (h₁.quiet hquiet) hpos⟩
    · cases hr with
      | fail err =>
        exact obeys_pure (.inr ⟨by simp, h₁, fun hquiet hc => hq hquiet hc.le_maxLength hc.pos⟩)
      | overflow o =>
        exact obeys_pure (.inr ⟨by simp, h₁, fun hquiet hc => hq hquiet hc.le_maxLength hc.pos⟩)
  · rename_i hsize
    exact obeys_pure (.inr ⟨by simp, Alters.refl ∅ w, fun _ hc => hsize hc.sectorSize_le⟩)

/-- What an attempt to write an entry does. A success has made the table the rewritten one and kept
what follows it in block 0; anything else has altered nothing. Without faults, blocks that can be
placed are written or refused as the table alone decides. -/
structure WritesEntry (g : Geometry) (number kind : UInt8) (extent : Extent) (w : Bench δ φ)
    (r : Outcome TableError Unit) (w' : Bench δ φ) : Prop where
  /-- a success has rewritten the table -/
  of_ok : r = .ok () → g.Carries ∧ extent.Placeable g ∧
    w.table.rewritten number kind extent = .ok w'.table ∧ w.Alters {0} [] w' ∧
    ∀ k, 512 ≤ k → k < g.blockSize.toNat → byteAt w'.store 0 k = byteAt w.store 0 k
  /-- anything else has altered nothing -/
  of_ne : r ≠ .ok () → w.Alters ∅ [] w'
  /-- without faults the table decides -/
  of_quiet : w.Quiet → g.Carries → extent.Placeable g →
    r = (w.table.rewritten number kind extent).bind fun _ => .ok ()

omit [LawfulBlockStore δ] [FilesystemDriver φ] in
/-- A refusal of blocks that cannot be placed. -/
theorem WritesEntry.refused {number kind : UInt8} {extent : Extent} {r : Outcome TableError Unit}
    (hr : r ≠ .ok ()) (ha : w.Alters ∅ [] w') (h : g.Carries → ¬ extent.Placeable g) :
    WritesEntry g number kind extent w r w' :=
  ⟨fun hok => absurd hok hr, fun _ => ha, fun _ hc hp => absurd hp (h hc)⟩

theorem ensures_commitEntry {t : Table} (hg : geometry w.store = g) (number kind : UInt8)
    (extent : Extent) :
    w.Ensures (t.commitEntry (.disk g) number kind extent) fun r w' =>
      (r = .ok () → g.Carries ∧ (t.setEntry number kind extent).value = .ok w'.table ∧
        w.Alters {0} [] w' ∧
        ∀ k, 512 ≤ k → k < g.blockSize.toNat → byteAt w'.store 0 k = byteAt w.store 0 k) ∧
      (r ≠ .ok () → w.Alters ∅ [] w') ∧
      (w.Quiet → g.Carries →
        r = (t.setEntry number kind extent).value.bind fun _ => .ok ()) := by
  rw [Table.commitEntry]
  refine (ensures_ofNoted _ w).bind ?_
  rintro edited w₁ ⟨rfl, h₁⟩
  cases he : (t.setEntry number kind extent).value with
  | fail err => exact obeys_pure ⟨by simp, fun _ => h₁, fun _ _ => rfl⟩
  | overflow o => exact obeys_pure ⟨by simp, fun _ => h₁, fun _ _ => rfl⟩
  | ok edited =>
    refine (ensures_write (h₁.geometry_eq.trans hg) edited).imp ?_
    rintro r w₂ (⟨hc, rfl, h₂, htable, htail⟩ | ⟨hr, h₂, hq⟩)
    · refine ⟨fun _ => ⟨hc, by rw [htable], Alters.trans h₁.of_empty h₂, ?_⟩,
        fun h => absurd rfl h, fun _ _ => rfl⟩
      intro k hle hk
      rw [htail k hle hk]
      exact h₁.byteAt_eq 0 k (Set.notMem_empty _) (hg ▸ hc.pos) (hg ▸ hk)
    · exact ⟨fun h => absurd h hr, fun _ => h₁.trans h₂,
        fun hquiet hc => absurd hc (hq (h₁.quiet hquiet))⟩

/-- Writing an entry over blocks that can be placed. -/
theorem ensures_writeEntryBefore (hg : geometry w.store = g) (number kind : UInt8)
    {extent : Extent} (bound : UInt64) (hp : extent.Placeable g) :
    w.Ensures (writeEntryBefore (.disk g) number kind extent bound)
      (WritesEntry g number kind extent w) := by
  rw [writeEntryBefore]
  refine (ensures_read hg).bind ?_
  rintro r w₁ ⟨h₁, ⟨hc, rfl⟩ | ⟨hr, hq⟩⟩
  · refine (ensures_ofNoted _ w₁).bind ?_
    rintro found w₂ ⟨he, h₂⟩
    have h₁₂ := h₁.trans h₂
    cases found with
    | error err =>
      refine obeys_pure ⟨by simp, fun _ => h₁₂, fun _ _ _ => ?_⟩
      rw [Table.rewritten, ← he]
      rfl
    | ok base =>
      have hrw : w.table.rewritten number kind extent =
          (base.setEntry number kind extent).value := by
        rw [Table.rewritten, ← he]
      refine (ensures_commitEntry (h₁₂.geometry_eq.trans hg) number kind extent).bind ?_
      rintro r w₃ ⟨hok, hne, hquiet⟩
      cases r with
      | ok u =>
        obtain ⟨-, hset, h₃, htail⟩ := hok rfl
        refine (ensures_note _ w₃).bind ?_
        intro _ w₄ h₄
        have hg₃ : geometry w₃.store = g := by rw [h₃.geometry_eq, h₁₂.geometry_eq, hg]
        have htable : w₄.table = w₃.table :=
          h₄.table_eq (hg₃ ▸ hc.sectorSize_le) (hg₃ ▸ hc.pos) (Set.notMem_empty _)
        refine obeys_pure ⟨fun _ => ⟨hc, hp, ?_, ?_, ?_⟩, fun h => absurd rfl h, ?_⟩
        · rw [hrw, hset, htable]
        · exact Alters.trans h₁₂.of_empty (Alters.trans h₃ h₄.of_empty)
        · intro k hle hk
          have hpos : (0 : UInt64) < g.numBlocks := hc.pos
          rw [h₄.byteAt_eq 0 k (Set.notMem_empty _) (hg₃ ▸ hpos) (hg₃ ▸ hk), htail k hle hk]
          exact h₁₂.byteAt_eq 0 k (Set.notMem_empty _) (hg ▸ hpos) (hg ▸ hk)
        · intro _ _ _
          rw [hrw, hset]
          rfl
      | fail err =>
        refine obeys_pure ⟨by simp, fun _ => h₁₂.trans (hne (by simp)), fun hq _ _ => ?_⟩
        rw [hrw]
        exact hquiet (h₁₂.quiet hq) hc
      | overflow o =>
        refine obeys_pure ⟨by simp, fun _ => h₁₂.trans (hne (by simp)), fun hq _ _ => ?_⟩
        rw [hrw]
        exact hquiet (h₁₂.quiet hq) hc
  · cases hr with
    | fail err =>
      exact obeys_pure ⟨by simp, fun _ => h₁, fun hquiet hc _ => absurd hc (hq hquiet)⟩
    | overflow o =>
      exact obeys_pure ⟨by simp, fun _ => h₁, fun hquiet hc _ => absurd hc (hq hquiet)⟩

theorem ensures_writeEntry (hg : geometry w.store = g) (number kind : UInt8) (extent : Extent) :
    w.Ensures (writeEntry (.disk g) number kind extent)
      (WritesEntry g number kind extent w) := by
  rw [writeEntry]
  split
  · rename_i h
    exact obeys_pure (.refused (by simp) (Alters.refl ∅ w)
      fun _ hp => h.elim hp.start_ne hp.blocks_ne)
  · rename_i hzero
    obtain ⟨hstart, hblocks⟩ := not_or.1 hzero
    split
    · rename_i hb
      refine obeys_pure (.refused (by simp) (Alters.refl ∅ w) fun _ hp => ?_)
      -- blocks that end beyond all words do not end on the disk
      have := Extent.bound?_eq_none_iff.1 hb
      have := hp.bound_le
      have := g.numBlocks.toNat_lt_size
      omega
    · rename_i bound hb
      have hbound := Extent.bound?_eq_some_iff.1 hb
      split
      · rename_i hlt
        refine obeys_pure (.refused (by simp) (Alters.refl ∅ w) fun _ hp => ?_)
        have hle := hp.bound_le
        have hlt' : g.numBlocks.toNat < bound.toNat := UInt64.lt_iff_toNat_lt.1 hlt
        omega
      · rename_i hle
        refine ensures_writeEntryBefore hg number kind bound ⟨hstart, hblocks, ?_⟩
        have hle' : ¬ g.numBlocks.toNat < bound.toNat := fun h =>
          hle (UInt64.lt_iff_toNat_lt.2 h)
        omega

end Bench

end DiskBringup
