import Mathlib.Algebra.Group.Nat.Defs
import DiskBringup.Proofs.TableOnDisk

/-!
# Allotments: a partition table as a map

An `Allotment` gives some of the four entries a type and blocks. A table `Represents` an allotment
if its used records are the entries of the allotment; an allotment without entries is also
represented by a sector that carries no signature. Under this relation an edit of the table is an
update of the map (`Represents.put`), a collision is a block shared with another entry
(`Represents.collision?_eq_find?`), and a look-up finds the entries whose types it knows and no
others (`Represents.find_eq_ok_iff`, `Represents.entries_eq`).
-/

namespace DiskBringup

namespace Extent

/-- The runs have a block in common. -/
def Shares (a b : Extent) : Prop := ∃ n : Nat, n ∈ a ∧ n ∈ b

theorem shares_iff {a b : Extent} :
    a.Shares b ↔ max a.start.toNat b.start.toNat < min a.bound b.bound := by
  constructor
  · rintro ⟨n, ⟨h₁, h₂⟩, ⟨h₃, h₄⟩⟩
    omega
  · intro h
    refine ⟨max a.start.toNat b.start.toNat, ?_, ?_⟩ <;> rw [mem_iff] <;> omega

instance (a b : Extent) : Decidable (a.Shares b) := decidable_of_iff _ shares_iff.symm

theorem Shares.symm {a b : Extent} (h : a.Shares b) : b.Shares a := by
  obtain ⟨n, ha, hb⟩ := h
  exact ⟨n, hb, ha⟩

theorem start_lt_bound {a : Extent} (h : a.blocks ≠ 0) : a.start.toNat < a.bound := by
  have := Word.toNat_pos h
  rw [bound]
  omega

/-- Runs that are not empty overlap exactly when they share a block. -/
theorem overlaps_iff_shares {a b : Extent} (ha : a.blocks ≠ 0) (hb : b.blocks ≠ 0) :
    a.overlaps b = true ↔ a.Shares b :=
  overlaps_iff_exists_mem (start_lt_bound ha) (start_lt_bound hb)

end Extent

/-- What an entry of a partition table gives: a type and blocks. -/
structure Grant where
  /-- the type byte -/
  kind : UInt8
  /-- the blocks -/
  extent : Extent
  deriving DecidableEq, Repr

/-- What a used entry that is not protective gives. -/
structure Grant.Ordinary (a : Grant) : Prop where
  /-- the type of a used entry -/
  kind_ne : a.kind ≠ 0
  /-- the type is not the protective one -/
  kind_ne_protective : a.kind ≠ Table.protectiveKind
  /-- there are blocks -/
  blocks_ne : a.extent.blocks ≠ 0

/-- What an entry that was looked up gives. -/
def Entry.grant (e : Entry) : Grant := ⟨e.kind, e.extent⟩

/-- What the entries of a partition table give. -/
abbrev Allotment : Type := Index → Option Grant

namespace Allotment

/-- No entry gives anything. -/
def empty : Allotment := fun _ => none

/-- The entries by number. -/
def listing (m : Allotment) : List (UInt8 × Grant) :=
  Index.all.filterMap fun i => (m i).map (i.number, ·)

/-- Every entry is an ordinary one. -/
def Ordinary (m : Allotment) : Prop := ∀ i a, m i = some a → a.Ordinary

theorem ordinary_empty : empty.Ordinary := by
  intro i a hi
  cases hi

/-- The entry of another number has a block of the extent. -/
def Meets (m : Allotment) (number : UInt8) (extent : Extent) (j : Index) : Prop :=
  j.number ≠ number ∧ ∃ a ∈ m j, a.extent.Shares extent

instance (m : Allotment) (number : UInt8) (extent : Extent) (j : Index) :
    Decidable (m.Meets number extent j) :=
  inferInstanceAs (Decidable (_ ∧ _))

/-- The allotment with one entry given anew. -/
def set (m : Allotment) (number : UInt8) (a : Grant) : Allotment :=
  fun j => if j.number = number then some a else m j

@[simp] theorem set_self (m : Allotment) (i : Index) (a : Grant) :
    m.set i.number a i = some a :=
  if_pos rfl

theorem set_of_ne (m : Allotment) {number : UInt8} {j : Index} (a : Grant)
    (h : j.number ≠ number) : m.set number a j = m j :=
  if_neg h

/-- An entry of the changed allotment is the new one, or an old one of another number. -/
theorem set_eq_some_iff {m : Allotment} {number : UInt8} {a b : Grant} {j : Index} :
    m.set number a j = some b ↔ j.number = number ∧ b = a ∨ j.number ≠ number ∧ m j = some b := by
  by_cases h : j.number = number <;> simp [set, h, eq_comm]

theorem Ordinary.set {m : Allotment} {number : UInt8} {a : Grant} (hm : m.Ordinary)
    (ha : a.Ordinary) : (m.set number a).Ordinary := by
  intro j b hj
  rcases set_eq_some_iff.1 hj with ⟨-, rfl⟩ | ⟨-, hj⟩
  · exact ha
  · exact hm j b hj

/-- The entries lie on the device, off block 0, and no two have a block in common. -/
structure Tidy (m : Allotment) (g : Geometry) : Prop where
  /-- the blocks of an entry -/
  placeable : ∀ i a, m i = some a → a.extent.Placeable g
  /-- the blocks of two entries -/
  disjoint : ∀ i j a b, m i = some a → m j = some b → i ≠ j → ¬ a.extent.Shares b.extent

theorem tidy_empty (g : Geometry) : empty.Tidy g :=
  ⟨fun _ _ h => (nomatch h), fun _ _ _ _ h => (nomatch h)⟩

theorem Tidy.set {m : Allotment} {g : Geometry} {number : UInt8} {a : Grant} (hm : m.Tidy g)
    (ha : a.extent.Placeable g) (hfree : ∀ j, ¬ m.Meets number a.extent j) :
    (m.set number a).Tidy g := by
  have hother : ∀ (j : Index) (b : Grant), j.number ≠ number → m j = some b →
      ¬ b.extent.Shares a.extent := fun j b hj hb hshare => hfree j ⟨hj, b, hb, hshare⟩
  refine ⟨?_, ?_⟩
  · intro j b hj
    rcases set_eq_some_iff.1 hj with ⟨-, rfl⟩ | ⟨-, hj⟩
    · exact ha
    · exact hm.placeable j b hj
  · intro i j b c hi hj hij
    rcases set_eq_some_iff.1 hi with ⟨hin, rfl⟩ | ⟨hin, hi'⟩ <;>
      rcases set_eq_some_iff.1 hj with ⟨hjn, rfl⟩ | ⟨hjn, hj'⟩
    · exact absurd (Index.number_inj.1 (hin.trans hjn.symm)) hij
    · exact fun hshare => hother j c hjn hj' hshare.symm
    · exact hother i b hin hi'
    · exact hm.disjoint i j b c hi' hj' hij

theorem mem_listing_iff {m : Allotment} {n : UInt8} {a : Grant} :
    (n, a) ∈ m.listing ↔ ∃ i, n = i.number ∧ m i = some a := by
  simp only [listing, List.mem_filterMap, Option.map_eq_some_iff, Prod.mk.injEq]
  constructor
  · rintro ⟨i, -, b, hb, rfl, rfl⟩
    exact ⟨i, rfl, hb⟩
  · rintro ⟨i, rfl, hi⟩
    exact ⟨i, Index.mem_all i, a, hi, rfl, rfl⟩

end Allotment

/-- The record gives a type to blocks, and is one that a look-up takes for an entry. -/
structure Record.Covers (r : Record) (a : Grant) : Prop where
  /-- the status is a known one -/
  status_eq : r.status = 0
  /-- the type -/
  kind_eq : r.kind = a.kind
  /-- the blocks -/
  extent_eq : r.extent = a.extent

/-- The record put for blocks that fit a record covers them. -/
theorem Record.covers_covering {kind : UInt8} {extent : Extent} (last : UInt64)
    (hstart : extent.start.toNat < 2 ^ 32) (hblocks : extent.blocks.toNat < 2 ^ 32) :
    (Record.covering kind extent last).Covers ⟨kind, extent⟩ := by
  have hround : ∀ b : UInt64, b.toNat < 2 ^ 32 → b.toUInt32.toUInt64 = b := by
    intro b hb
    apply UInt64.toNat.inj
    rw [UInt32.toNat_toUInt64, UInt64.toNat_toUInt32, Nat.mod_eq_of_lt hb]
  refine ⟨rfl, rfl, ?_⟩
  change (⟨extent.start.toUInt32.toUInt64, extent.blocks.toUInt32.toUInt64⟩ : Extent) = extent
  rw [hround _ hstart, hround _ hblocks]

/-- The table holds the entries of the allotment. Without entries it may also carry no
signature. -/
structure Table.Represents (t : Table) (m : Allotment) : Prop where
  /-- a table with entries is signed -/
  signed : t.hasSignature = true ∨ m = Allotment.empty
  /-- the bytes before the records are as they should be -/
  wellFormed : t.isWellFormed = true
  /-- the other records are not used -/
  free : ∀ i, m i = none → (t.record i).kind = 0
  /-- the entries are records -/
  used : ∀ i a, m i = some a → (t.record i).Covers a

namespace Table.Represents

variable {t : Table} {m : Allotment}

/-- A sector that is zero before its last two bytes holds no entries. -/
theorem of_zero (h : ∀ (k : Nat) (hk : k < 510), t.sector[k] = 0) :
    t.Represents Allotment.empty := by
  refine ⟨.inr rfl, ?_, ?_, fun i a hi => nomatch hi⟩
  · simp [isWellFormed, h 444 (by omega), h 445 (by omega)]
  · intro i _
    have hi := i.isLt
    exact h (Table.offset i + 4) (by simp only [offset]; omega)

theorem empty_represents : Table.empty.Represents Allotment.empty := by
  apply of_zero
  intro k hk
  simp only [Table.empty, Vector.getElem_ofFn]
  rw [if_neg (by omega), if_neg (by omega)]

/-- The used records are the entries. -/
theorem uses_iff (h : t.Represents m) (hm : m.Ordinary) (i : Index) :
    t.uses i = true ↔ ∃ a, m i = some a := by
  cases hi : m i with
  | none => simp [uses, h.free i hi]
  | some a => simp [uses, (h.used i a hi).kind_eq, (hm i a hi).kind_ne]

/-- No record is protective. -/
theorem protector?_eq_none (h : t.Represents m) (hm : m.Ordinary) : t.protector? = none := by
  rw [protector?, List.find?_eq_none]
  intro i _
  cases hi : m i with
  | none => simp [h.free i hi, protectiveKind]
  | some a => simpa [(h.used i a hi).kind_eq] using (hm i a hi).kind_ne_protective

/-- The table may be edited, and the table that the edit starts from is signed and holds the same
entries. -/
theorem exists_editable (h : t.Represents m) (hm : m.Ordinary) :
    ∃ base, t.editable.value = .ok base ∧ base.hasSignature = true ∧ base.Represents m := by
  cases hsig : t.hasSignature with
  | true =>
    exact ⟨t, editable_eq_ok_iff.2 (.inr ⟨hsig, h.protector?_eq_none hm, rfl⟩), hsig, h⟩
  | false =>
    have hempty : m = Allotment.empty := by
      rcases h.signed with hs | hs
      · rw [hsig] at hs
        cases hs
      · exact hs
    refine ⟨Table.empty, editable_eq_ok_iff.2 (.inl ⟨hsig, rfl⟩), hasSignature_empty, ?_⟩
    rw [hempty]
    exact empty_represents

/-- An edit of a signed table is an update of the map. -/
theorem put (h : t.Represents m) (hsig : t.hasSignature = true) (i : Index) {r : Record}
    {a : Grant} (hr : r.Covers a) :
    (t.put i r).Represents (m.set i.number a) := by
  refine ⟨.inl ?_, ?_, ?_, ?_⟩
  · rw [hasSignature_put, hsig]
  · rw [isWellFormed_put]
    exact h.wellFormed
  · intro j hj
    by_cases hji : j = i
    · subst hji
      rw [Allotment.set_self] at hj
      cases hj
    · rw [Allotment.set_of_ne _ _ (mt Index.number_inj.1 hji)] at hj
      rw [record_put_of_ne _ _ hji]
      exact h.free j hj
  · intro j b hj
    rcases Allotment.set_eq_some_iff.1 hj with ⟨hji, rfl⟩ | ⟨hne, hj⟩
    · obtain rfl := Index.number_inj.1 hji
      rw [record_put_self]
      exact hr
    · rw [record_put_of_ne _ _ (mt Index.number_inj.2 hne)]
      exact h.used j b hj

/-! ## What is seen of the map -/

/-- A used record that overlaps an extent is an entry that has a block of it. -/
theorem overlaps_iff (h : t.Represents m) (hm : m.Ordinary) {extent : Extent}
    (hne : extent.blocks ≠ 0) (j : Index) :
    t.uses j = true ∧ (t.record j).extent.overlaps extent = true ↔
      ∃ a ∈ m j, a.extent.Shares extent := by
  rw [h.uses_iff hm]
  constructor
  · rintro ⟨⟨a, hj⟩, hover⟩
    rw [(h.used j a hj).extent_eq] at hover
    exact ⟨a, hj, (Extent.overlaps_iff_shares (hm j a hj).blocks_ne hne).1 hover⟩
  · rintro ⟨a, hj, hshare⟩
    refine ⟨⟨a, hj⟩, ?_⟩
    rw [(h.used j a hj).extent_eq]
    exact (Extent.overlaps_iff_shares (hm j a hj).blocks_ne hne).2 hshare

/-- An edit collides with the first entry, besides its own, that has a block of the extent. -/
theorem collision?_eq_find? (h : t.Represents m) (hm : m.Ordinary) (i : Index) {extent : Extent}
    (hne : extent.blocks ≠ 0) :
    t.collision? i extent = Index.all.find? fun j => decide (m.Meets i.number extent j) := by
  rw [collision?]
  congr 1
  funext j
  rw [Bool.eq_iff_iff, Bool.and_eq_true, bne_iff_ne, decide_eq_true_iff, Bool.and_eq_true,
    h.overlaps_iff hm hne, Allotment.Meets, ne_eq, ne_eq, Index.number_inj]

/-- A look-up finds the entries whose types it knows. -/
theorem find_eq_ok_iff (h : t.Represents m) (hm : m.Ordinary) {number : UInt8} {e : Entry} :
    (t.find number).value = .ok e ↔
      ∃ i, number = i.number ∧ e.number = number ∧ m i = some e.grant ∧
        e.kind ∈ knownKinds := by
  rw [Table.find_eq_ok_iff]
  constructor
  · rintro ⟨i, hi, -, -, -, he⟩
    obtain ⟨-, hkind, rfl⟩ := t.entry?_eq_some_iff.1 he
    obtain rfl := Index.ofNumber?_eq_some_iff.1 hi
    refine ⟨i, rfl, rfl, ?_, hkind⟩
    cases hmi : m i with
    | none =>
      rw [h.free i hmi] at hkind
      exact absurd hkind (by decide)
    | some a =>
      have hc := h.used i a hmi
      rw [Entry.grant, hc.kind_eq]
      exact congrArg (fun x => some (Grant.mk a.kind x)) hc.extent_eq.symm
  · rintro ⟨i, rfl, hnumber, hmi, hkind⟩
    have hc := h.used i _ hmi
    have hsig : t.hasSignature = true := by
      refine h.signed.resolve_right ?_
      rintro rfl
      cases hmi
    refine ⟨i, Index.ofNumber?_number i, hsig, h.protector?_eq_none hm, h.wellFormed,
      t.entry?_eq_some_iff.2 ⟨.inl hc.status_eq, ?_, ?_⟩⟩
    · rw [hc.kind_eq]
      exact hkind
    · have hextent := Extent.mk.inj hc.extent_eq
      have hstart := UInt32.toUInt64_inj.1 hextent.1
      have hcount := UInt32.toUInt64_inj.1 hextent.2
      rw [hc.kind_eq, hstart, hcount, ← hnumber]
      rfl

/-- An entry whose type a look-up knows is found. -/
theorem exists_find (h : t.Represents m) (hm : m.Ordinary) {i : Index} {a : Grant}
    (hi : m i = some a) (hkind : a.kind ∈ knownKinds) :
    ∃ e, (t.find i.number).value = .ok e ∧ e.grant = a := by
  have hgrant : (Entry.mk i.number a.kind (t.record i).start (t.record i).count).grant = a :=
    congrArg (Grant.mk a.kind) (h.used i a hi).extent_eq
  exact ⟨_, (h.find_eq_ok_iff hm).2 ⟨i, rfl, rfl, hgrant ▸ hi, hkind⟩, hgrant⟩

/-- The entries that are listed are those whose types a look-up knows. -/
theorem entries_eq (h : t.Represents m) (hm : m.Ordinary) :
    t.entries.value.map (fun e => (e.number, e.grant)) =
      m.listing.filter fun x => x.2.kind ∈ knownKinds := by
  rw [value_entries, List.map_filterMap, Allotment.listing, List.filter_filterMap]
  congr 1
  funext i
  cases hf : (t.find i.number).value with
  | ok e =>
    obtain ⟨j, hij, hnumber, hmi, hkind⟩ := (h.find_eq_ok_iff hm).1 hf
    obtain rfl := Index.number_inj.1 hij
    simp [hmi, hnumber, Entry.grant, hkind, Except.toOption, Option.filter_some]
  | error err =>
    cases hmi : m i with
    | none => simp [Except.toOption]
    | some a =>
      have hunknown : a.kind ∉ knownKinds := by
        intro hkind
        obtain ⟨e, he, -⟩ := h.exists_find hm hmi hkind
        rw [hf] at he
        cases he
      simp [Except.toOption, hunknown, Option.filter_some]

end Table.Represents

/-! ## Edits -/

/-- The first block, the number of blocks and the last block fit 32 bits. -/
structure Extent.Recordable (e : Extent) : Prop where
  /-- the first block fits -/
  start_lt : e.start.toNat < 2 ^ 32
  /-- the number of blocks fits -/
  blocks_lt : e.blocks.toNat < 2 ^ 32
  /-- the last block fits -/
  bound_le : e.bound ≤ 2 ^ 32

theorem Extent.fitsRecord_iff {e : Extent} {bound : UInt64} (h : e.bound = bound.toNat) :
    Table.fitsRecord e bound ↔ e.Recordable := by
  rw [Table.fitsRecord, ← h]
  exact ⟨fun ⟨h₁, h₂, h₃⟩ => ⟨h₁, h₂, h₃⟩, fun ⟨h₁, h₂, h₃⟩ => ⟨h₁, h₂, h₃⟩⟩

/-- A table is rewritten by putting a record into the one that may be edited. -/
theorem Table.exists_put_of_rewritten {t t' : Table} {number kind : UInt8} {extent : Extent}
    (h : t.rewritten number kind extent = .ok t') :
    ∃ i last base, number = Index.number i ∧ last.toNat + 1 = extent.bound ∧
      t.editable.value = .ok base ∧ extent.Recordable ∧ base.collision? i extent = none ∧
      t' = base.put i (.covering kind extent last) := by
  unfold rewritten at h
  cases hbase : t.editable.value with
  | error err =>
    rw [hbase] at h
    cases h
  | ok base =>
    rw [hbase] at h
    obtain ⟨i, bound, hi, hbound, hne, hfits, hfree, hput⟩ := setEntry_eq_ok_iff.1 h
    have hend := Extent.bound?_eq_some_iff.1 hbound
    have hlast : (bound - 1).toNat + 1 = extent.bound := by
      have hpos := Word.toNat_pos hne
      have hone : (1 : UInt64) ≤ bound := UInt64.le_iff_toNat_le.2 hpos
      rw [UInt64.toNat_sub_of_le _ _ hone, hend]
      exact Nat.sub_add_cancel hpos
    exact ⟨i, bound - 1, base, Index.ofNumber?_eq_some_iff.1 hi, hlast, rfl,
      (Extent.fitsRecord_iff hend).1 hfits, hfree, hput⟩

/-- An entry that was written and is found covers the blocks that were written. -/
theorem Table.extent_of_rewritten {t t' : Table} {number kind : UInt8} {extent : Extent} {e : Entry}
    (h : t.rewritten number kind extent = .ok t') (he : (t'.find number).value = .ok e) :
    e.extent = extent := by
  obtain ⟨i, last, base, rfl, -, -, hfits, -, rfl⟩ := exists_put_of_rewritten h
  obtain ⟨j, hj, -, -, -, hentry⟩ := find_eq_ok_iff.1 he
  obtain rfl : i = j := Index.number_inj.1 (Index.ofNumber?_eq_some_iff.1 hj)
  obtain ⟨-, -, rfl⟩ := (entry?_eq_some_iff _).1 hentry
  have hcovers : (Record.covering kind extent last).Covers ⟨kind, extent⟩ :=
    Record.covers_covering last hfits.start_lt hfits.blocks_lt
  rw [record_put_self]
  exact hcovers.extent_eq

/-- How an edit of a table that represents an allotment ends. -/
inductive Allotment.Edited (m : Allotment) (number kind : UInt8) (extent : Extent) :
    Outcome TableError Table → Prop
  /-- the entry is given anew -/
  | done {t : Table} (hnumber : 1 ≤ number.toNat ∧ number.toNat ≤ 4) (hfits : extent.Recordable)
    (hfree : ∀ j, ¬ m.Meets number extent j) (hset : t.Represents (m.set number ⟨kind, extent⟩)) :
    Edited m number kind extent (.ok t)
  /-- the first other entry that has a block of the extent is named -/
  | collides {k : Index} (hmeets : m.Meets number extent k)
    (hfirst : ∀ j < k, ¬ m.Meets number extent j) :
    Edited m number kind extent (.fail (.overlap k.number))
  /-- there is no such entry, or the extent does not fit one -/
  | misfit {err : TableError}
    (hmisfit : ¬ ((1 ≤ number.toNat ∧ number.toNat ≤ 4) ∧ extent.Recordable)) :
    Edited m number kind extent (.fail err)

/-- What a success says. -/
theorem Allotment.Edited.of_ok {m : Allotment} {number kind : UInt8} {extent : Extent} {t : Table}
    (h : m.Edited number kind extent (.ok t)) :
    (1 ≤ number.toNat ∧ number.toNat ≤ 4) ∧ extent.Recordable ∧
      (∀ j, ¬ m.Meets number extent j) ∧ t.Represents (m.set number ⟨kind, extent⟩) := by
  cases h with
  | done hnumber hfits hfree hset => exact ⟨hnumber, hfits, hfree, hset⟩

/-- An edit of an entry that can hold the extent succeeds, or another entry is in its way. -/
theorem Allotment.Edited.of_fits {m : Allotment} {number kind : UInt8} {extent : Extent}
    {r : Outcome TableError Table} (h : m.Edited number kind extent r)
    (hnumber : 1 ≤ number.toNat ∧ number.toNat ≤ 4) (hfits : extent.Recordable) :
    ((∃ t, r = .ok t) ∧ ∀ j, ¬ m.Meets number extent j) ∨
      ∃ k, r = .fail (.overlap k.number) ∧ m.Meets number extent k ∧
        ∀ j < k, ¬ m.Meets number extent j := by
  cases h with
  | done _ _ hfree _ => exact .inl ⟨⟨_, rfl⟩, hfree⟩
  | collides hmeets hfirst => exact .inr ⟨_, rfl, hmeets, hfirst⟩
  | misfit hmisfit => exact absurd ⟨hnumber, hfits⟩ hmisfit

namespace Table.Represents

variable {t : Table} {m : Allotment}

/-- An edit goes by the allotment. -/
theorem edited_setEntry (h : t.Represents m) (hm : m.Ordinary) (hsig : t.hasSignature = true)
    (number kind : UInt8) {extent : Extent} (haddr : extent.Addressable)
    (hne : extent.blocks ≠ 0) :
    m.Edited number kind extent (t.setEntry number kind extent).value := by
  obtain ⟨bound, hbound⟩ : ∃ bound, extent.bound? = some bound := by
    rw [← Option.ne_none_iff_exists', ne_eq, Extent.bound?_eq_none_iff, Nat.not_le]
    exact haddr
  have heq := Extent.bound?_eq_some_iff.1 hbound
  have hfits := Extent.fitsRecord_iff heq
  have hpos : bound ≠ 0 := by
    rintro rfl
    have := Extent.start_lt_bound hne
    rw [heq] at this
    exact Nat.not_lt_zero _ this
  rw [setEntry]
  cases hi : Index.ofNumber? number with
  | none =>
    refine .misfit fun hin => ?_
    have := Index.ofNumber?_eq_none_iff.1 hi
    omega
  | some i =>
    obtain rfl := Index.ofNumber?_eq_some_iff.1 hi
    simp only [hbound, Noted.value_bind, replace, if_neg hpos]
    by_cases hfit : fitsRecord extent bound
    · -- the first record in the way is the first entry that the extent meets
      rw [if_neg (not_not_intro hfit)]
      have hc := h.collision?_eq_find? hm i hne
      cases hcol : t.collision? i extent with
      | some k =>
        rw [hcol] at hc
        obtain ⟨hmeets, hfirst⟩ := Index.find?_all_eq_some_iff.1 hc.symm
        exact .collides (of_decide_eq_true hmeets) fun j hj => of_decide_eq_false (hfirst j hj)
      | none =>
        rw [hcol] at hc
        refine .done i.number_mem (hfits.1 hfit) (fun j => ?_) (h.put hsig i ?_)
        · exact of_decide_eq_false (Bool.not_eq_true _ ▸ List.find?_eq_none.1 hc.symm j
            (Index.mem_all j))
        · exact Record.covers_covering _ hfit.1 hfit.2.1
    · rw [if_pos hfit]
      exact .misfit fun hin => hfit (hfits.2 hin.2)

/-- Rewriting the table of a disk goes by the allotment. -/
theorem edited_rewritten (h : t.Represents m) (hm : m.Ordinary) (number kind : UInt8)
    {extent : Extent} (haddr : extent.Addressable) (hne : extent.blocks ≠ 0) :
    m.Edited number kind extent (t.rewritten number kind extent) := by
  obtain ⟨base, hbase, hsig, hrep⟩ := h.exists_editable hm
  rw [rewritten, hbase]
  exact hrep.edited_setEntry hm hsig number kind haddr hne

end Table.Represents

/-! ## Blank disks -/

namespace Bench

variable {δ φ : Type} [BlockStore δ] {w : Bench δ φ}

open BlockStore

/-- Every byte of the disk is zero. -/
def Blank (w : Bench δ φ) : Prop :=
  ∀ (b : UInt64) (k : Nat), b < (geometry w.store).numBlocks →
    k < (geometry w.store).blockSize.toNat → byteAt w.store b k = 0

/-- The table of a blank disk has no entries. -/
theorem Blank.represents (h : w.Blank) (hsize : sectorSize ≤ (geometry w.store).blockSize.toNat)
    (hpos : 0 < (geometry w.store).numBlocks) : w.table.Represents Allotment.empty := by
  apply Table.Represents.of_zero
  intro k hk
  rw [table, Vector.getElem_ofFn]
  exact h 0 k hpos (Nat.lt_of_lt_of_le (Nat.lt_add_right 2 hk) hsize)

end Bench

end DiskBringup
