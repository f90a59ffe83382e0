import DiskBringup.Proofs.StaleEntries

/-!
# Which used records a look-up sees

A table is read in two ways. An edit goes by the bytes of a record: it is used if its type is not
zero, and the blocks that are to be written are compared with those of all used records besides
their own (`Table.value_setEntry_eq_find?`). A look-up, even of a `Readable` table, sees a record
only if it is `Known`, and then finds it as its bytes have it (`Table.Readable.value_find`). What is
known is used, so all entries that are listed are compared with. Both ways agree where every used
record is known, and only there: a used record that is not is missing from what is listed, and still
nothing can be written over it (`Table.lists_used_iff_known`).
-/

namespace DiskBringup

/-- The status and the type of a record are ones that a look-up knows. -/
def Record.Known (r : Record) : Prop :=
  (r.status = 0 ∨ r.status = 0x80) ∧ r.kind ∈ Table.knownKinds

instance (r : Record) : Decidable r.Known := inferInstanceAs (Decidable (_ ∧ _))

namespace Table

variable {t : Table} {i : Index} {extent : Extent}

/-- A record as its bytes have it, with its number. -/
def rawEntry (t : Table) (i : Index) : Entry :=
  ⟨i.number, (t.record i).kind, (t.record i).start, (t.record i).count⟩

/-- The used records, by number. -/
def used (t : Table) : List Entry := (Index.all.filter t.uses).map t.rawEntry

/-- A table that look-ups do not refuse as a whole. -/
structure Readable (t : Table) : Prop where
  /-- the table is signed -/
  signed : t.hasSignature = true
  /-- no record is protective -/
  unguarded : t.protector? = none
  /-- the bytes before the records are as they should be -/
  wellFormed : t.isWellFormed = true

theorem readable_empty : empty.Readable :=
  have hempty := Represents.empty_represents
  ⟨hasSignature_empty, hempty.protector?_eq_none Allotment.ordinary_empty, hempty.wellFormed⟩

/-- A record that is not protective leaves a table readable. -/
theorem Readable.put (ht : t.Readable) {r : Record} (hr : r.kind ≠ protectiveKind) :
    (t.put i r).Readable where
  signed := (t.hasSignature_put i r).trans ht.signed
  unguarded := by
    rw [← Option.isNone_iff_eq_none, ← Option.not_isSome, isSome_protector?_put ht.unguarded,
      Bool.not_eq_true', beq_eq_false_iff_ne]
    exact hr
  wellFormed := (t.isWellFormed_put i r).trans ht.wellFormed

/-- A record without a type is not known. -/
theorem uses_of_known (h : (t.record i).Known) : t.uses i = true := by
  rw [uses, bne_iff_ne]
  intro hzero
  have hkind := h.2
  rw [hzero] at hkind
  exact absurd hkind (by decide)

/-! ## Look-ups -/

/-- A look-up finds the known records as their bytes have them. -/
theorem Readable.value_find (ht : t.Readable) (i : Index) :
    (t.find i.number).value =
      if (t.record i).Known then .ok (t.rawEntry i) else .error .notFound := by
  rw [value_find_of_signed ht.signed, ht.unguarded, ht.wellFormed]
  simp only [Option.isSome_none, Bool.false_eq_true, if_false, if_true]
  change (if (t.record i).Known then some (t.rawEntry i) else none).elim _ _ = _
  split <;> rfl

/-- What is listed are the known records, by number. -/
theorem Readable.value_entries (ht : t.Readable) :
    t.entries.value = (Index.all.filter fun i => (t.record i).Known).map t.rawEntry := by
  rw [Table.value_entries]
  induction Index.all with
  | nil => rfl
  | cons i rest ih =>
    rw [List.filterMap_cons, ih, ht.value_find]
    by_cases h : (t.record i).Known <;> simp [h, Except.toOption]

/-- Used records are in the order of their numbers. -/
theorem pairwise_used (t : Table) : t.used.Pairwise fun a b => a.number < b.number :=
  List.pairwise_map.2 (List.Pairwise.filter _ (by decide : Index.all.Pairwise fun i j =>
    i.number < j.number))

/-- What is listed are used records, in their order. -/
theorem Readable.entries_sublist (ht : t.Readable) : t.entries.value.Sublist t.used := by
  rw [ht.value_entries]
  exact (List.monotone_filter_right _ fun i hi => uses_of_known (of_decide_eq_true hi)).map _

/-- All used records are listed exactly if all are known. -/
theorem Readable.entries_eq_used_iff (ht : t.Readable) :
    t.entries.value = t.used ↔ ∀ i, t.uses i = true → (t.record i).Known := by
  rw [ht.value_entries]
  constructor
  · intro h i hi
    have hmem : t.rawEntry i ∈ t.used := List.mem_map_of_mem (List.mem_filter.2 ⟨i.mem_all, hi⟩)
    rw [← h] at hmem
    obtain ⟨j, hj, heq⟩ := List.mem_map.1 hmem
    obtain rfl := Index.number_inj.1 (congrArg Entry.number heq)
    exact of_decide_eq_true (List.mem_filter.1 hj).2
  · intro h
    have hboth : ∀ i ∈ Index.all, decide (t.record i).Known = t.uses i := fun i _ =>
      Bool.eq_iff_iff.2 ⟨fun hi => uses_of_known (of_decide_eq_true hi),
        fun hi => decide_eq_true (h i hi)⟩
    rw [used, List.filter_congr hboth]

/-! ## Edits -/

/-- An edit of blocks that fit a record is refused for the first used record besides its own that
they overlap, whether that one is known or not. -/
theorem value_setEntry_eq_find? {bound : UInt64} (hbound : extent.bound? = some bound)
    (hpos : bound ≠ 0) (hfits : fitsRecord extent bound) (i : Index) (kind : UInt8) :
    (t.setEntry i.number kind extent).value =
      match t.used.find? fun e => e.number != i.number && e.extent.overlaps extent with
      | some e => .fail (.overlap e.number)
      | none => .ok (t.put i (.covering kind extent (bound - 1))) := by
  have hcollision : (t.used.find? fun e => e.number != i.number && e.extent.overlaps extent) =
      (t.collision? i extent).map t.rawEntry := by
    rw [used, List.find?_map, List.find?_filter, collision?]
    congr 2
    funext j
    have hne : ((t.rawEntry j).number != i.number) = (j != i) := by
      rw [Bool.eq_iff_iff, bne_iff_ne, bne_iff_ne]
      exact not_congr Index.number_inj
    rw [Function.comp_apply, hne, Bool.and_left_comm, Bool.decide_and, Bool.decide_eq_true,
      Bool.decide_eq_true]
    rfl
  rw [hcollision]
  simp only [setEntry, Index.ofNumber?_number, hbound, Noted.value_bind, replace, if_neg hpos,
    if_neg (not_not_intro hfits)]
  cases t.collision? i extent <;> rfl

/-- A readable table shows the known records, by number and as their bytes have them, and an edit
guards the used ones. These are the same exactly if every used record is known, and then each
look-up answers for the used records and for no others. -/
theorem lists_used_iff_known (ht : t.Readable) :
    (∀ i : Index, (t.find i.number).value =
      if (t.record i).Known then .ok (t.rawEntry i) else .error .notFound) ∧
    t.entries.value.Sublist t.used ∧
    (t.used.Pairwise fun a b => a.number < b.number) ∧
    (∀ (i : Index) (kind : UInt8) (extent : Extent) (bound : UInt64),
      extent.bound? = some bound → bound ≠ 0 → fitsRecord extent bound →
      (t.setEntry i.number kind extent).value =
        match t.used.find? fun e => e.number != i.number && e.extent.overlaps extent with
        | some e => .fail (.overlap e.number)
        | none => .ok (t.put i (.covering kind extent (bound - 1)))) ∧
    (t.entries.value = t.used ↔ ∀ i, t.uses i = true → (t.record i).Known) ∧
    ((∀ i, t.uses i = true → (t.record i).Known) → ∀ (i : Index) (e : Entry),
      (t.find i.number).value = .ok e ↔ t.uses i = true ∧ e = t.rawEntry i) := by
  refine ⟨ht.value_find, ht.entries_sublist, t.pairwise_used,
    fun i kind extent bound hbound hpos hfits => value_setEntry_eq_find? hbound hpos hfits i kind,
    ht.entries_eq_used_iff, fun hknown i e => ?_⟩
  rw [ht.value_find]
  by_cases h : (t.record i).Known
  · rw [if_pos h, Except.ok.injEq, eq_comm]
    exact (and_iff_right (uses_of_known h)).symm
  · rw [if_neg h]
    exact iff_of_false nofun fun hused => h (hknown i hused.1)

/-- A record of a type that look-ups do not know is not found, and guards its blocks. -/
theorem lists_used_iff_known_unknown_kind :
    let t := empty.put 0 (.covering 0x10 ⟨1, 10⟩ 10)
    t.uses 0 = true ∧ (t.find 1).value = .error .notFound ∧ t.entries.value ≠ t.used ∧
      (t.setEntry 2 0x83 ⟨5, 1⟩).value = .fail (.overlap 1) := by
  intro t
  have ht : t.Readable := readable_empty.put (by decide)
  have hrecord : t.record 0 = .covering 0x10 ⟨1, 10⟩ 10 := empty.record_put_self 0 _
  have huses : t.uses 0 = true := by
    rw [uses, hrecord]
    decide
  have hknown : ¬ (t.record 0).Known := by
    rw [hrecord]
    decide
  obtain ⟨hfind, -, -, hedit, hlists, -⟩ := lists_used_iff_known ht
  refine ⟨huses, (hfind 0).trans (if_neg hknown), fun h => hknown (hlists.1 h 0 huses), ?_⟩
  refine (hedit 1 0x83 ⟨5, 1⟩ 6 (by decide) (by decide) (by decide)).trans ?_
  have hfirst : t.used.find? (fun e => e.number != Index.number 1 && e.extent.overlaps ⟨5, 1⟩) =
      some (t.rawEntry 0) := by
    rw [used, Index.all, List.filter_cons_of_pos huses, List.map_cons]
    refine List.find?_cons_of_pos ?_
    rw [rawEntry, hrecord]
    decide
  rw [hfirst]
  rfl

end Table

end DiskBringup
