import DiskBringup.Proofs.Allotment

/-!
# Which edits of a table are accepted

An edit is accepted if its number is one of a record, its blocks fit the record, and the comparison
with the other used records finds no overlap; the table stays as it is otherwise
(`Table.edit_cases`). For blocks among records that are not empty this means that no block is given
twice. An edit without blocks is accepted too, at any place but block 0 and the inside of another
record (`Table.exists_setEntry_iff_of_empty`), so a row of edits may leave a used record empty, and
only through an edit without blocks; whatever the edits, used records end where 32 bits end and
share no block (`Table.Given`).
-/

namespace DiskBringup

namespace Table

variable {t t' : Table} {number kind : UInt8} {extent : Extent} {i j : Index}

/-! ## One edit -/

theorem collision?_eq_none_iff :
    t.collision? i extent = none ↔
      ∀ j, j ≠ i → t.uses j = true → (t.record j).extent.overlaps extent = false := by
  rw [collision?, List.find?_eq_none]
  simp only [Bool.and_eq_true, bne_iff_ne, not_and, Bool.not_eq_true]
  exact ⟨fun h j => h j j.mem_all, fun h j _ => h j⟩

/-- An edit is accepted for the number of a record and blocks that fit it, if no other used record
overlaps them. -/
theorem exists_setEntry_iff :
    (∃ t', (t.setEntry number kind extent).value = .ok t') ↔
      (1 ≤ number.toNat ∧ number.toNat ≤ 4) ∧ extent.bound ≠ 0 ∧ extent.Recordable ∧
        ∀ j : Index, j.number ≠ number → t.uses j = true →
          (t.record j).extent.overlaps extent = false := by
  constructor
  · rintro ⟨t', h⟩
    obtain ⟨i, bound, hi, hbound, hne, hfits, hfree, -⟩ := setEntry_eq_ok_iff.1 h
    obtain rfl := Index.ofNumber?_eq_some_iff.1 hi
    have hend := Extent.bound?_eq_some_iff.1 hbound
    refine ⟨i.number_mem, ?_, (Extent.fitsRecord_iff hend).1 hfits, fun j hj => ?_⟩
    · rw [hend]
      exact (Word.toNat_pos hne).ne'
    · exact collision?_eq_none_iff.1 hfree j fun hji => hj (congrArg Index.number hji)
  · rintro ⟨hnumber, hpos, hrec, hfree⟩
    obtain ⟨i, hi⟩ : ∃ i, Index.ofNumber? number = some i := by
      rw [← Option.ne_none_iff_exists', ne_eq, Index.ofNumber?_eq_none_iff]
      omega
    obtain rfl := Index.ofNumber?_eq_some_iff.1 hi
    obtain ⟨bound, hbound⟩ : ∃ bound, extent.bound? = some bound := by
      rw [← Option.ne_none_iff_exists', ne_eq, Extent.bound?_eq_none_iff, Nat.not_le]
      exact Nat.lt_of_le_of_lt hrec.bound_le (by decide)
    have hend := Extent.bound?_eq_some_iff.1 hbound
    refine ⟨_, setEntry_eq_ok_iff.2 ⟨i, bound, hi, hbound, ?_, (Extent.fitsRecord_iff hend).2 hrec,
      collision?_eq_none_iff.2 fun j hj => hfree j (mt Index.number_inj.1 hj), rfl⟩⟩
    rintro rfl
    exact hpos hend

/-- No used record is empty. -/
def Full (t : Table) : Prop := ∀ j, t.uses j = true → (t.record j).extent.blocks ≠ 0

/-- Among records that are not empty, blocks are accepted that fit a record and that no other
record has. -/
theorem exists_setEntry_iff_of_blocks (ht : t.Full) (hne : extent.blocks ≠ 0) :
    (∃ t', (t.setEntry number kind extent).value = .ok t') ↔
      (1 ≤ number.toNat ∧ number.toNat ≤ 4) ∧
        (1 ≤ extent.blocks.toNat ∧ extent.blocks.toNat ≤ 2 ^ 32 - 1) ∧ extent.bound ≤ 2 ^ 32 ∧
        ∀ j : Index, j.number ≠ number → t.uses j = true → ¬ (t.record j).extent.Shares extent := by
  have hshares : ∀ j, t.uses j = true →
      ((t.record j).extent.overlaps extent = false ↔ ¬ (t.record j).extent.Shares extent) :=
    fun j hj => by rw [← Extent.overlaps_iff_shares (ht j hj) hne, Bool.not_eq_true]
  have hpos := Word.toNat_pos hne
  have hlt := Extent.start_lt_bound hne
  rw [exists_setEntry_iff]
  constructor
  · rintro ⟨hnumber, -, hrec, hfree⟩
    have := hrec.blocks_lt
    exact ⟨hnumber, ⟨hpos, by omega⟩, hrec.bound_le,
      fun j hj huses => (hshares j huses).1 (hfree j hj huses)⟩
  · rintro ⟨hnumber, ⟨-, hblocks⟩, hbound, hfree⟩
    exact ⟨hnumber, by omega, ⟨by omega, by omega, hbound⟩,
      fun j hj huses => (hshares j huses).2 (hfree j hj huses)⟩

/-- An edit without blocks is accepted at a place that fits a record, other than block 0 and the
inside of another record. -/
theorem exists_setEntry_iff_of_empty (h : extent.blocks = 0) :
    (∃ t', (t.setEntry number kind extent).value = .ok t') ↔
      (1 ≤ number.toNat ∧ number.toNat ≤ 4) ∧
        (0 < extent.start.toNat ∧ extent.start.toNat < 2 ^ 32) ∧
        ∀ j : Index, j.number ≠ number → t.uses j = true →
          ¬ ((t.record j).start.toNat < extent.start.toNat ∧
            extent.start.toNat < (t.record j).extent.bound) := by
  have hbound : extent.bound = extent.start.toNat := by
    rw [Extent.bound, h]
    rfl
  have hoverlaps : ∀ j, (t.record j).extent.overlaps extent = false ↔
      ¬ ((t.record j).start.toNat < extent.start.toNat ∧
        extent.start.toNat < (t.record j).extent.bound) := fun j => by
    rw [← Bool.not_eq_true, Extent.overlaps_iff, hbound]
    rfl
  have hzero : extent.blocks.toNat = 0 := congrArg UInt64.toNat h
  simp only [exists_setEntry_iff, hoverlaps, hbound]
  constructor
  · rintro ⟨hnumber, hne, hrec, hfree⟩
    exact ⟨hnumber, ⟨Nat.pos_of_ne_zero hne, hrec.start_lt⟩, hfree⟩
  · rintro ⟨hnumber, ⟨hpos, hlt⟩, hfree⟩
    exact ⟨hnumber, hpos.ne', ⟨hlt, by omega, by omega⟩, hfree⟩

/-! ## Rows of edits -/

/-- What an edit asks for. -/
structure Edit where
  /-- the number of the record -/
  number : UInt8
  /-- its type -/
  kind : UInt8
  /-- its blocks -/
  extent : Extent

/-- The table after an edit, which is the table at hand if the edit is refused. -/
def edit (t : Table) (e : Edit) : Table :=
  match (t.setEntry e.number e.kind e.extent).value with
  | .ok t' => t'
  | .fail _ | .overflow _ => t

/-- The table after edits, one after the other. -/
def edits (t : Table) (es : List Edit) : Table := es.foldl edit t

/-- An edit is refused and leaves the table as it is, or it is accepted and puts the record that it
asks for, beside records that do not overlap it. -/
theorem edit_cases (t : Table) (e : Edit) :
    ((∀ t', (t.setEntry e.number e.kind e.extent).value ≠ .ok t') ∧ t.edit e = t) ∨
      (t.setEntry e.number e.kind e.extent).value = .ok (t.edit e) ∧
        ∃ i last, e.number = Index.number i ∧ e.extent.Recordable ∧
          (∀ j, j ≠ i → t.uses j = true → (t.record j).extent.overlaps e.extent = false) ∧
          t.edit e = t.put i (.covering e.kind e.extent last) := by
  cases h : (t.setEntry e.number e.kind e.extent).value with
  | fail err => exact .inl ⟨nofun, by simp only [edit, h]⟩
  | overflow op => exact .inl ⟨nofun, by simp only [edit, h]⟩
  | ok t' =>
    have hedit : t.edit e = t' := by simp only [edit, h]
    obtain ⟨i, bound, hi, hbound, -, hfits, hfree, hput⟩ := setEntry_eq_ok_iff.1 h
    exact .inr ⟨by rw [hedit], i, bound - 1, Index.ofNumber?_eq_some_iff.1 hi,
      (Extent.fitsRecord_iff (Extent.bound?_eq_some_iff.1 hbound)).1 hfits,
      collision?_eq_none_iff.1 hfree, hedit.trans hput⟩

/-- What is left of edits: the used records are given by some of them, end within 32 bits, and share
no block. -/
structure Given (t : Table) (es : List Edit) : Prop where
  /-- an edit of the number gives the type and the blocks -/
  exists_edit : ∀ i, t.uses i = true → ∃ e ∈ es,
    e.number = i.number ∧ (t.record i).kind = e.kind ∧ (t.record i).extent = e.extent
  /-- the last block fits -/
  bound_le : ∀ i, t.uses i = true → (t.record i).extent.bound ≤ 2 ^ 32
  /-- no block is given twice -/
  apart : ∀ i j, i ≠ j → t.uses i = true → t.uses j = true →
    ¬ (t.record i).extent.Shares (t.record j).extent

theorem not_uses_empty (i : Index) : ¬ empty.uses i = true := by
  rw [uses, Represents.empty_represents.free i rfl]
  decide

theorem given_empty : empty.Given [] :=
  ⟨fun i hi => absurd hi (not_uses_empty i), fun i hi => absurd hi (not_uses_empty i),
    fun i _ _ hi => absurd hi (not_uses_empty i)⟩

/-- Runs that do not overlap share no block, be they empty or not. -/
theorem not_shares_of_overlaps {a b : Extent} (h : a.overlaps b = false) : ¬ a.Shares b := by
  rintro ⟨n, ha, hb⟩
  refine Bool.eq_false_iff.1 h (Extent.overlaps_iff.2 ⟨?_, ?_⟩)
  · exact Nat.lt_of_le_of_lt ha.1 hb.2
  · exact Nat.lt_of_le_of_lt hb.1 ha.2

/-- An accepted edit. -/
theorem Given.put {es : List Edit} {e : Edit} {r : Record} (h : t.Given es)
    (hnumber : e.number = i.number) (hr : r.Covers ⟨e.kind, e.extent⟩)
    (hbound : e.extent.bound ≤ 2 ^ 32)
    (hfree : ∀ j, j ≠ i → t.uses j = true → (t.record j).extent.overlaps e.extent = false) :
    (t.put i r).Given (es ++ [e]) := by
  have huses : ∀ {j}, j ≠ i → (t.put i r).uses j = t.uses j := fun hj => by
    rw [uses, uses, t.record_put_of_ne r hj]
  -- the record that is put against one of the others
  have hbeside : ∀ j, j ≠ i → t.uses j = true → ¬ (t.record j).extent.Shares r.extent :=
    fun j hj hu => by
      rw [hr.extent_eq]
      exact not_shares_of_overlaps (hfree j hj hu)
  refine ⟨fun j hj => ?_, fun j hj => ?_, fun j k hjk hj hk => ?_⟩
  · by_cases hji : j = i
    · rw [hji, record_put_self]
      exact ⟨e, List.mem_append_right _ List.mem_cons_self, hnumber, hr.kind_eq, hr.extent_eq⟩
    · rw [t.record_put_of_ne r hji]
      obtain ⟨e', he', hgives⟩ := h.exists_edit j (huses hji ▸ hj)
      exact ⟨e', List.mem_append_left _ he', hgives⟩
  · by_cases hji : j = i
    · rw [hji, record_put_self, hr.extent_eq]
      exact hbound
    · rw [t.record_put_of_ne r hji]
      exact h.bound_le j (huses hji ▸ hj)
  · by_cases hji : j = i
    · have hki : k ≠ i := fun hki => hjk (hji.trans hki.symm)
      rw [hji, record_put_self, t.record_put_of_ne r hki]
      exact fun hshares => hbeside k hki (huses hki ▸ hk) hshares.symm
    by_cases hki : k = i
    · rw [hki, record_put_self, t.record_put_of_ne r hji]
      exact hbeside j hji (huses hji ▸ hj)
    · rw [t.record_put_of_ne r hji, t.record_put_of_ne r hki]
      exact h.apart j k hjk (huses hji ▸ hj) (huses hki ▸ hk)

/-- One more edit. -/
theorem Given.edit {es : List Edit} (h : t.Given es) (e : Edit) : (t.edit e).Given (es ++ [e]) := by
  obtain ⟨-, hsame⟩ | ⟨-, i, last, hnumber, hrec, hfree, hput⟩ := t.edit_cases e
  · rw [hsame]
    refine ⟨fun i hi => ?_, h.bound_le, h.apart⟩
    obtain ⟨e', he', hgives⟩ := h.exists_edit i hi
    exact ⟨e', List.mem_append_left _ he', hgives⟩
  · rw [hput]
    exact h.put hnumber (Record.covers_covering last hrec.start_lt hrec.blocks_lt) hrec.bound_le
      hfree

/-- A row of edits, by induction on the row. -/
theorem Given.edits {es : List Edit} (h : t.Given es) (more : List Edit) :
    (t.edits more).Given (es ++ more) := by
  induction more generalizing t es with
  | nil => rwa [List.append_nil]
  | cons e rest ih =>
    rw [List.append_cons]
    exact ih (h.edit e)

/-- Among records that are not empty an edit with blocks is accepted exactly if they fit a record
and are free, an edit without blocks also where it gives a used record that is empty, and a refused
edit leaves the table as it is. After any edits of an empty table the used records are in 32 bits
and share no block, and none is empty unless an edit without blocks makes it so. -/
theorem setEntry_accepts_free (t : Table) (ht : t.Full) (number kind : UInt8) (extent : Extent)
    (es : List Edit) :
    (extent.blocks ≠ 0 → ((∃ t', (t.setEntry number kind extent).value = .ok t') ↔
      (1 ≤ number.toNat ∧ number.toNat ≤ 4) ∧
        (1 ≤ extent.blocks.toNat ∧ extent.blocks.toNat ≤ 2 ^ 32 - 1) ∧ extent.bound ≤ 2 ^ 32 ∧
        ∀ j : Index, j.number ≠ number → t.uses j = true →
          ¬ (t.record j).extent.Shares extent)) ∧
    (extent.blocks = 0 → ((∃ t', (t.setEntry number kind extent).value = .ok t') ↔
      (1 ≤ number.toNat ∧ number.toNat ≤ 4) ∧
        (0 < extent.start.toNat ∧ extent.start.toNat < 2 ^ 32) ∧
        ∀ j : Index, j.number ≠ number → t.uses j = true →
          ¬ ((t.record j).start.toNat < extent.start.toNat ∧
            extent.start.toNat < (t.record j).extent.bound))) ∧
    ((¬ ∃ t', (t.setEntry number kind extent).value = .ok t') →
      t.edit ⟨number, kind, extent⟩ = t) ∧
    (empty.edits es).Given es ∧
    ((∀ e ∈ es, e.extent.blocks ≠ 0) → (empty.edits es).Full) := by
  have hgiven : (empty.edits es).Given es := given_empty.edits es
  refine ⟨exists_setEntry_iff_of_blocks ht, exists_setEntry_iff_of_empty, fun hrefused => ?_,
    hgiven, fun hblocks j hj => ?_⟩
  · obtain ⟨-, hsame⟩ | ⟨haccepted, -⟩ := t.edit_cases ⟨number, kind, extent⟩
    · exact hsame
    · exact absurd ⟨_, haccepted⟩ hrefused
  · obtain ⟨e, he, -, -, hextent⟩ := hgiven.exists_edit j hj
    rw [hextent]
    exact hblocks e he

/-- An edit with blocks is accepted for an empty table, and so is one without, which leaves a used
record empty. -/
theorem setEntry_accepts_free_without_blocks :
    (∃ t', (empty.setEntry 1 131 ⟨1, 10⟩).value = .ok t') ∧
      (∃ t', (empty.setEntry 1 131 ⟨5, 0⟩).value = .ok t') ∧
      ¬ (empty.edits [⟨1, 131, ⟨5, 0⟩⟩]).Full := by
  have hfull : empty.Full := fun j hj => absurd hj (not_uses_empty j)
  have hblocks := (setEntry_accepts_free empty hfull 1 131 ⟨1, 10⟩ []).1 (by decide)
  have hnone := (setEntry_accepts_free empty hfull 1 131 ⟨5, 0⟩ []).2.1 rfl
  have haccepted := hnone.2 ⟨by decide, by decide, fun j _ hj => absurd hj (not_uses_empty j)⟩
  refine ⟨hblocks.2 ⟨by decide, by decide, by decide, fun j _ hj => absurd hj (not_uses_empty j)⟩,
    haccepted, fun hempty => ?_⟩
  obtain ⟨hrefused, -⟩ | ⟨-, i, last, hi, -, -, hput⟩ := empty.edit_cases ⟨1, 131, ⟨5, 0⟩⟩
  · obtain ⟨t', ht'⟩ := haccepted
    exact hrefused t' ht'
  have hrecord : (empty.edits [⟨1, 131, ⟨5, 0⟩⟩]).record i = .covering 131 ⟨5, 0⟩ last := by
    rw [edits, List.foldl_cons, List.foldl_nil, hput, record_put_self]
  refine hempty i ?_ ?_
  · rw [uses, hrecord]
    rfl
  · rw [hrecord]
    rfl

end Table

end DiskBringup
