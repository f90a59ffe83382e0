import DiskBringup.Proofs.TableCalls

/-!
# Reading back what was written

An entry that was written is not always one that a look-up finds. `Table.missed?` says why a
look-up will miss it, from its type and the table that it was written into: a protective type bars
every look-up, a table that is signed but not well-formed stays so, and a look-up sees only the
types that it knows. On a disk without faults there are no other reasons, and where there is none
the entry is read back and its partition is located on exactly the blocks that were written
(`Bench.reads_back_unless_missed`).
-/

namespace DiskBringup

namespace Table

variable {t t' base : Table} {number kind : UInt8} {extent : Extent} {i : Index} {r : Record}

/-! ## Look-ups in a table that was rewritten -/

/-- What a look-up answers in a signed table. -/
theorem value_find_of_signed (hsig : t.hasSignature = true) (i : Index) :
    (t.find i.number).value =
      if t.protector?.isSome then .error .protective
      else if t.isWellFormed then ( t.entry? i).elim (.error .notFound) .ok
      else .error .invalidData := by
  rw [find, Index.ofNumber?_number]
  simp only [hsig, if_true, Noted.value_bind, t.value_isProtective]
  cases t.protector? with
  | some j => rfl
  | none =>
    cases t.isWellFormed with
    | false => rfl
    | true => cases t.entry? i <;> rfl

/-- A record put into a table without protective records makes it protective if it is so. -/
theorem isSome_protector?_put (h : t.protector? = none) :
    (t.put i r).protector?.isSome = (r.kind == protectiveKind) := by
  have hother : ∀ j, ((t.record j).kind == protectiveKind) = false := fun j =>
    Bool.not_eq_true _ ▸ List.find?_eq_none.1 h j (Index.mem_all j)
  rw [protector?, List.isSome_find?, Bool.eq_iff_iff, List.any_eq_true]
  constructor
  · rintro ⟨j, -, hj⟩
    by_cases hji : j = i
    · rwa [hji, record_put_self] at hj
    · rw [record_put_of_ne _ _ hji, hother j] at hj
      cases hj
  · intro hr
    refine ⟨i, Index.mem_all i, ?_⟩
    rwa [record_put_self]

/-- What an edit starts from. -/
theorem of_editable (h : t.editable.value = .ok base) :
    base.hasSignature = true ∧ base.protector? = none ∧
      base.isWellFormed = (!t.hasSignature || t.isWellFormed) := by
  rcases editable_eq_ok_iff.1 h with ⟨hsig, rfl⟩ | ⟨hsig, hprot, rfl⟩
  · have hempty := Represents.empty_represents
    rw [hsig]
    exact ⟨hasSignature_empty, hempty.protector?_eq_none Allotment.ordinary_empty,
      hempty.wellFormed⟩
  · rw [hsig]
    exact ⟨rfl, hprot, rfl⟩

/-- Why a look-up misses an entry of a type that is written into the table, if it does. -/
def missed? (t : Table) (kind : UInt8) : Option TableError :=
  if kind = protectiveKind then some .protective
  else if !t.hasSignature || t.isWellFormed then
    if kind ∈ knownKinds then none else some .notFound
  else some .invalidData

/-- The entries that are not missed are those of a known type other than the protective one, in a
table that is not signed or well-formed. -/
theorem missed?_eq_none_iff :
    t.missed? kind = none ↔ kind ≠ protectiveKind ∧ kind ∈ knownKinds ∧
      (t.hasSignature = true → t.isWellFormed = true) := by
  rw [missed?]
  by_cases hprot : kind = protectiveKind
  · simp [hprot]
  · cases t.hasSignature <;> cases t.isWellFormed <;> simp [hprot]

/-- A record just put is seen as an entry if its type is a known one. -/
theorem entry?_put {a : Grant} (hr : r.Covers a) :
    Table.entry? (t.put i r) i =
      if a.kind ∈ knownKinds then some ⟨i.number, a.kind, r.start, r.count⟩ else none := by
  rw [ entry?, record_put_self, hr.kind_eq, hr.status_eq]
  simp

/-- A look-up of an entry that was written. -/
theorem value_find_of_rewritten (h : t.rewritten number kind extent = .ok t') :
    (∀ err, t.missed? kind = some err → (t'.find number).value = .error err) ∧
      (t.missed? kind = none →
        ∃ e, (t'.find number).value = .ok e ∧ e.number = number ∧ e.grant = ⟨kind, extent⟩) := by
  obtain ⟨i, last, base, rfl, -, hbase, hfits, -, rfl⟩ := exists_put_of_rewritten h
  obtain ⟨hsig, hprot, hwell⟩ := of_editable hbase
  have hcovers : (Record.covering kind extent last).Covers ⟨kind, extent⟩ :=
    Record.covers_covering last hfits.start_lt hfits.blocks_lt
  generalize Record.covering kind extent last = r at hcovers
  have hfind := value_find_of_signed (i := i) ((base.hasSignature_put i r).trans hsig)
  rw [isSome_protector?_put hprot, isWellFormed_put, hwell, entry?_put hcovers,
    hcovers.kind_eq] at hfind
  -- the look-up asks for the three reasons in the order in which `missed?` names them
  rw [hfind, missed?]
  by_cases hk : kind = protectiveKind
  · simp [hk]
  · rw [if_neg hk, beq_eq_false_iff_ne.2 hk, if_neg Bool.false_ne_true]
    cases !t.hasSignature || t.isWellFormed with
    | false => simp
    | true =>
      have hgrant : (Entry.mk i.number kind r.start r.count).grant = ⟨kind, extent⟩ :=
        congrArg (Grant.mk kind) hcovers.extent_eq
      by_cases hknown : kind ∈ knownKinds <;> simp [hknown, hgrant]

end Table

namespace Bench

variable {δ φ : Type} [BlockStore δ] [LawfulBlockStore δ] [FilesystemDriver φ] {w w' : Bench δ φ}
  {g : Geometry} {t : Table} {number kind : UInt8} {extent : Extent}

open BlockStore

/-! ## On the disk -/

/-- Without faults a partition is refused for the reason that the look-up gives. -/
theorem ensures_locate_of_error (hg : geometry w.store = g) (hquiet : w.Quiet) (hc : g.Carries)
    {err : TableError} (herr : (w.table.find number).value = .error err) :
    w.Ensures (locate (.disk g) number) fun r _ => r = .fail err.code := by
  rw [locate]
  refine (ensures_read hg).bind ?_
  rintro r w₁ ⟨-, ⟨-, rfl⟩ | ⟨-, hno⟩⟩
  · refine (ensures_ofNoted _ w₁).bind ?_
    rintro found w₂ ⟨rfl, -⟩
    rw [herr]
    exact obeys_pure rfl
  · exact absurd hc (hno hquiet)

/-- Without faults the partition of an entry that is found, and that ends on the disk, is located
on the blocks of the entry. -/
theorem ensures_init_of_find (hg : geometry w.store = g) (hquiet : w.Quiet) (hc : g.Carries)
    {e : Entry} (hfind : (w.table.find number).value = .ok e)
    (hle : e.extent.bound ≤ g.numBlocks.toNat) :
    w.Ensures ((Partition.new number).init (.disk g)) fun r _ =>
      ∃ window, window.extent = e.extent ∧ r = (.ok (), ⟨number, some window⟩) := by
  refine (ensures_locate hg number).bind ?_
  rintro r w₁ ⟨-, hok, hends⟩
  obtain ⟨window, rfl⟩ | ⟨-, hno⟩ := hends hquiet hc
  · obtain ⟨-, e', he', -, hextent⟩ := hok window rfl
    obtain rfl := Except.ok.inj (hfind.symm.trans he')
    exact obeys_pure ⟨window, hextent, rfl⟩
  · exact absurd hle (hno e hfind)

/-- An entry is found with its type and its blocks, and its partition is located on these. -/
structure Recalls (w : Bench δ φ) (number kind : UInt8) (extent : Extent) : Prop where
  /-- the table can be read, and the entry is found in it -/
  finds : ∃ t e, (w.run (Table.read w.disk)).1 = .ok t ∧ (t.find number).value = .ok e ∧
    e.number = number ∧ e.grant = ⟨kind, extent⟩
  /-- the partition is located -/
  locates : ∃ window, window.extent = extent ∧
    (w.run ((Partition.new number).init w.disk)).1 = (.ok (), ⟨number, some window⟩)

/-- An entry is missed for a reason, and so is its partition. -/
structure Misses (w : Bench δ φ) (number : UInt8) (err : TableError) : Prop where
  /-- the table can be read, and the entry is not found in it -/
  finds : ∃ t, (w.run (Table.read w.disk)).1 = .ok t ∧ (t.find number).value = .error err
  /-- the partition is not located -/
  locates : (w.run ((Partition.new number).init w.disk)).1 = (.fail err.code, .new number)

/-- What is read back of an entry that was written into a table. -/
structure ReadsBack (t : Table) (number kind : UInt8) (extent : Extent) (w : Bench δ φ) :
    Prop where
  /-- it is the entry, if there is no reason to miss it -/
  recalls : t.missed? kind = none → w.Recalls number kind extent
  /-- otherwise it is missed for that reason -/
  misses : ∀ err, t.missed? kind = some err → w.Misses number err

/-- A table that was rewritten is read back. -/
theorem readsBack_of_rewritten (hquiet : w.Quiet) (hc : (geometry w.store).Carries)
    (hplace : extent.Placeable (geometry w.store))
    (h : t.rewritten number kind extent = .ok w.table) : w.ReadsBack t number kind extent := by
  obtain ⟨hmiss, hfind⟩ := Table.value_find_of_rewritten h
  have hread : (w.run (Table.read w.disk)).1 = .ok w.table := by
    obtain ⟨-, ⟨-, hread⟩ | ⟨-, hno⟩⟩ := ensures_iff.1 (ensures_read (w := w) rfl)
    · exact hread
    · exact absurd hc (hno hquiet)
  refine ⟨fun hnone => ?_, fun err herr => ⟨⟨_, hread, hmiss err herr⟩, ?_⟩⟩
  · obtain ⟨e, he, hnumber, hgrant⟩ := hfind hnone
    obtain rfl : e.extent = extent := congrArg Grant.extent hgrant
    refine ⟨⟨_, e, hread, he, hnumber, hgrant⟩, ?_⟩
    exact ensures_iff.1 (ensures_init_of_find rfl hquiet hc he hplace.bound_le)
  · have hlocate : w.Ensures ((Partition.new number).init w.disk) fun r _ =>
        r = (.fail err.code, Partition.new number) := by
      refine (ensures_locate_of_error rfl hquiet hc (hmiss err herr)).bind ?_
      rintro r w₁ rfl
      exact obeys_pure rfl
    exact ensures_iff.1 hlocate

/-- An entry whose writing succeeded is read back. -/
theorem readsBack_of_ok (hquiet : w.Quiet) {r : Outcome TableError Unit}
    (h : WritesEntry (geometry w.store) number kind extent w r w') (hr : r = .ok ()) :
    w'.ReadsBack w.table number kind extent := by
  obtain ⟨hc, hplace, hrewritten, ha, -⟩ := h.of_ok hr
  rw [← ha.geometry_eq] at hc hplace
  exact readsBack_of_rewritten (ha.quiet hquiet) hc hplace hrewritten

/-- On a disk without faults, whatever block 0 holds, an entry whose writing has succeeded is
found again with its number, its type and exactly its blocks, and its partition is located on them,
unless there is a reason to miss it; and then it is missed for that reason. -/
theorem reads_back_unless_missed (w : Bench δ φ) (hquiet : w.Quiet) (number kind : UInt8) :
    (∀ extent, (w.run (writeEntry w.disk number kind extent)).1 = .ok () →
      (w.run (writeEntry w.disk number kind extent)).2.ReadsBack w.table number kind extent) ∧
    (∀ start stop extent,
      (w.run (createPartition w.disk number kind start stop)).1 = .ok extent →
      (w.run (createPartition w.disk number kind start stop)).2.ReadsBack w.table number kind
        extent) ∧
    (w.table.missed? kind = none ↔ kind ≠ Table.protectiveKind ∧ kind ∈ Table.knownKinds ∧
      (w.table.hasSignature = true → w.table.isWellFormed = true)) := by
  refine ⟨fun extent hok => ?_, fun start stop extent hok => ?_, Table.missed?_eq_none_iff⟩
  · exact readsBack_of_ok hquiet (ensures_iff.1 (ensures_writeEntry rfl number kind extent)) hok
  · have hcall := ensures_routine (w := w) rfl (.create number kind start stop)
    obtain ⟨hwrites, hrange⟩ := ensures_iff.1 hcall
    rw [hrange extent hok]
    exact readsBack_of_ok hquiet hwrites (Outcome.bind_eq_ok.2 ⟨extent, hok, rfl⟩)

/-- A call that is admitted succeeds. -/
theorem Holds.run_routine {m : Allotment} (h : w.Holds g m) (hsize : sectorSize ≤ g.blockSize.toNat)
    (hpos : 0 < g.numBlocks) {c : TableCall} (hc : c.Typed) (hadmits : m.Admits g c) :
    (w.run (c.routine w.disk)).1 = .ok (c.range g) := by
  obtain rfl := h.geometry_eq
  obtain ⟨hanswers, -⟩ := ensures_iff.1 (h.call hsize hpos hc)
  obtain ⟨e, he⟩ := hanswers.ok_iff.2 hadmits
  rw [← hanswers.range_eq e he]
  exact he

/-- An entry over blocks that are free is written. -/
theorem Holds.run_writeEntry {m : Allotment} (h : w.Holds g m)
    (hsize : sectorSize ≤ g.blockSize.toNat) (hpos : 0 < g.numBlocks) (haddr : extent.Addressable)
    (hc : (TableCall.write number kind ⟨extent, haddr⟩).Typed)
    (hadmits : m.Admits g (.write number kind ⟨extent, haddr⟩)) :
    (w.run (writeEntry w.disk number kind extent)).1 = .ok () := by
  have hok := h.run_routine hsize hpos hc hadmits
  rw [TableCall.routine, run, Script.run_bind] at hok
  obtain ⟨u, hu, -⟩ := Outcome.bind_eq_ok.1 hok
  exact hu

/-- Entries of the types `0x83` and `0x10` are both written to a blank disk. The first is found and
its partition is located; the second is missed. -/
theorem reads_back_unless_missed_unknown_kind :
    let w : Bench SparseDisk Signature := .new (.new ⟨512, 4096⟩)
    w.Quiet ∧
      (w.run (writeEntry w.disk 1 0x83 ⟨1, 10⟩)).1 = .ok () ∧
      (w.run (writeEntry w.disk 1 0x83 ⟨1, 10⟩)).2.Recalls 1 0x83 ⟨1, 10⟩ ∧
      (w.run (createPartition w.disk 1 0x10 512 5632)).1 = .ok ⟨1, 10⟩ ∧
      (w.run (createPartition w.disk 1 0x10 512 5632)).2.Misses 1 .notFound := by
  intro w
  have hquiet : w.Quiet := by simp [w, Bench.new, Quiet]
  have hblank : w.table.Represents Allotment.empty :=
    Blank.represents (fun b k _ _ => SparseDisk.byteAt_new _ b k) (by decide) (by decide)
  have hholds : w.Holds ⟨512, 4096⟩ Allotment.empty :=
    ⟨rfl, hquiet, hblank, Allotment.ordinary_empty, Allotment.tidy_empty _⟩
  have hwritten : (w.run (writeEntry w.disk 1 0x83 ⟨1, 10⟩)).1 = .ok () :=
    hholds.run_writeEntry (by decide) (by decide) (by decide) ⟨by decide, by decide⟩ (by decide)
  have hcreated : (w.run (createPartition w.disk 1 0x10 512 5632)).1 = .ok ⟨1, 10⟩ :=
    hholds.run_routine (by decide) (by decide) (c := .create 1 0x10 512 5632)
      ⟨by decide, by decide⟩ (by decide)
  obtain ⟨hwrite, -, hiff⟩ := reads_back_unless_missed w hquiet 1 0x83
  obtain ⟨-, hcreate, -⟩ := reads_back_unless_missed w hquiet 1 0x10
  have hknown : w.table.missed? 0x83 = none :=
    hiff.2 ⟨by decide, by decide, fun _ => hblank.wellFormed⟩
  have hunknown : w.table.missed? 0x10 = some .notFound := by
    simp [Table.missed?, Table.protectiveKind, Table.knownKinds, hblank.wellFormed]
  exact ⟨hquiet, hwritten, (hwrite _ hwritten).recalls hknown, hcreated,
    (hcreate _ _ _ hcreated).misses _ hunknown⟩

end Bench

end DiskBringup
