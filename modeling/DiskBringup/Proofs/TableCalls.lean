import DiskBringup.Bench.SparseDisk
import DiskBringup.Proofs.Allotment

/-!
# Calls that write the partition table

A `TableCall` writes one entry, over blocks or over the whole blocks of a byte range. On a disk
without faults the calls act on the allotment that the table of the disk represents: a call
succeeds exactly if the allotment `Admits` it, and then `Allotment.apply` gives its entry anew
(`Bench.Holds.call`). Along any list of calls the table stays a picture of the map, and listing its
entries gives the map with the types that a look-up knows (`Bench.table_refines_allotment`).
-/

namespace DiskBringup

/-! ## Calls and what they ask for -/

/-- A call that writes an entry of a partition table. -/
inductive TableCall where
  /-- write an entry over blocks -/
  | write (number kind : UInt8) (window : Window)
  /-- write an entry over the whole blocks between two bytes -/
  | create (number kind : UInt8) (start stop : UInt64)
  deriving DecidableEq

namespace TableCall

/-- The number of the entry. -/
def number : TableCall → UInt8
  | write number .. | create number .. => number

/-- The type of the entry. -/
def kind : TableCall → UInt8
  | write _ kind _ | create _ kind .. => kind

/-- The blocks that are asked for. A byte range may hold no whole block. -/
def range (g : Geometry) : TableCall → Extent
  | write _ _ window => window.extent
  | create _ _ start stop =>
    (Extent.inside? g.blockSize start stop).getD ⟨Extent.firstWhole g.blockSize start, 0⟩

/-- What the entry would give. -/
def grant (g : Geometry) (c : TableCall) : Grant := ⟨c.kind, c.range g⟩

/-- The call, answering the blocks of the entry. -/
def routine (v : Volume) : TableCall → Routine (Outcome TableError Extent)
  | write number kind window => do
    let written ← writeEntry v number kind window.extent
    return written.bind fun () => .ok window.extent
  | create number kind start stop => createPartition v number kind start stop

/-- The type of the call is one that calls may give. -/
def Typed (c : TableCall) : Prop := c.kind ≠ 0 ∧ c.kind ≠ Table.protectiveKind

/-- The call asks for an entry and blocks that a partition table of the device can have. -/
structure Sound (c : TableCall) (g : Geometry) : Prop where
  /-- a block fits in a buffer -/
  le_maxLength : g.blockSize.toNat ≤ Buffer.maxLength
  /-- there are blocks, they lie on the device, and block 0 is not among them -/
  placeable : (c.range g).Placeable g
  /-- there is such an entry -/
  number_mem : 1 ≤ c.number.toNat ∧ c.number.toNat ≤ 4
  /-- the entry can hold the blocks -/
  recordable : (c.range g).Recordable

instance (c : TableCall) (g : Geometry) : Decidable (c.Sound g) :=
  decidable_of_iff (g.blockSize.toNat ≤ Buffer.maxLength ∧ ((c.range g).start ≠ 0 ∧
      (c.range g).blocks ≠ 0 ∧ (c.range g).bound ≤ g.numBlocks.toNat) ∧
      (1 ≤ c.number.toNat ∧ c.number.toNat ≤ 4) ∧ (c.range g).start.toNat < 2 ^ 32 ∧
      (c.range g).blocks.toNat < 2 ^ 32 ∧ (c.range g).bound ≤ 2 ^ 32)
    ⟨fun ⟨hlen, ⟨hs, hb, hle⟩, hn, hrec⟩ => ⟨hlen, ⟨hs, hb, hle⟩, hn, ⟨hrec.1, hrec.2.1, hrec.2.2⟩⟩,
      fun ⟨hlen, ⟨hs, hb, hle⟩, hn, hrec⟩ =>
        ⟨hlen, ⟨hs, hb, hle⟩, hn, hrec.start_lt, hrec.blocks_lt, hrec.bound_le⟩⟩

theorem addressable_range (g : Geometry) (c : TableCall) : (c.range g).Addressable := by
  cases c with
  | write number kind window => exact window.addressable
  | create number kind start stop =>
    rw [range]
    cases h : Extent.inside? g.blockSize start stop with
    | none => exact (Nat.add_zero _).trans_lt (UInt64.toNat_lt _)
    | some e =>
      have hbound := (Extent.bound_of_inside? h).1
      exact Nat.lt_of_le_of_lt (hbound.trans_le (Nat.div_le_self _ _)) (UInt64.toNat_lt stop)

end TableCall

namespace Allotment

/-- The call is sound, and no other entry has a block that it asks for. -/
def Admits (m : Allotment) (g : Geometry) (c : TableCall) : Prop :=
  c.Sound g ∧ ∀ j, ¬ m.Meets c.number (c.range g) j

instance (m : Allotment) (g : Geometry) (c : TableCall) : Decidable (m.Admits g c) :=
  inferInstanceAs (Decidable (_ ∧ _))

/-- The allotment after a call: its entry is given anew if the call is admitted. -/
def apply (g : Geometry) (m : Allotment) (c : TableCall) : Allotment :=
  if m.Admits g c then m.set c.number (c.grant g) else m

/-- The allotment after calls. -/
def after (g : Geometry) (m : Allotment) (calls : List TableCall) : Allotment :=
  calls.foldl (apply g) m

end Allotment

/-- What a call answers if the table represents an allotment. -/
structure TableCall.Answers (c : TableCall) (g : Geometry) (m : Allotment)
    (r : Outcome TableError Extent) : Prop where
  /-- the call succeeds exactly if it is admitted -/
  ok_iff : (∃ e, r = .ok e) ↔ m.Admits g c
  /-- a success answers the blocks that were asked for -/
  range_eq : ∀ e, r = .ok e → e = c.range g
  /-- blocks of other entries are refused with the lowest number of one -/
  overlap : c.Sound g → ∀ k, m.Meets c.number (c.range g) k →
    (∀ j < k, ¬ m.Meets c.number (c.range g) j) → r = .fail (.overlap k.number)

/-! ## One call on the bench -/

namespace Bench

variable {δ φ : Type} [BlockStore δ] {w w' : Bench δ φ} {g : Geometry} {m : Allotment}

open BlockStore

/-- The disk has a shape, no faults pending, and a table that represents a tidy allotment. -/
structure Holds (w : Bench δ φ) (g : Geometry) (m : Allotment) : Prop where
  /-- the shape of the disk -/
  geometry_eq : geometry w.store = g
  /-- no fault is pending -/
  quiet : w.Quiet
  /-- what the table represents -/
  represents : w.table.Represents m
  /-- the types of the entries -/
  ordinary : m.Ordinary
  /-- the blocks of the entries -/
  tidy : m.Tidy g

variable [LawfulBlockStore δ] [FilesystemDriver φ]

omit [LawfulBlockStore δ] [FilesystemDriver φ] in
/-- An attempt that answers the blocks of the entry instead of nothing. -/
theorem WritesEntry.answer {number kind : UInt8} {extent : Extent} {r : Outcome TableError Unit}
    (h : WritesEntry g number kind extent w r w') :
    WritesEntry g number kind extent w ((r.bind fun () => Outcome.ok extent).bind
      fun _ => .ok ()) w' ∧ ∀ e, (r.bind fun () => Outcome.ok extent) = .ok e → e = extent := by
  cases r with
  | ok u => exact ⟨h, fun e he => (Outcome.ok.inj he).symm⟩
  | fail err => exact ⟨h, fun e he => (nomatch he)⟩
  | overflow o => exact ⟨h, fun e he => (nomatch he)⟩

/-- Every call attempts to write the entry that it asks for. -/
theorem ensures_routine (hg : geometry w.store = g) (c : TableCall) :
    w.Ensures (c.routine (.disk g)) fun r w' =>
      WritesEntry g c.number c.kind (c.range g) w (r.bind fun _ => .ok ()) w' ∧
        ∀ e, r = .ok e → e = c.range g := by
  cases c with
  | write number kind window =>
    refine (ensures_writeEntry hg number kind window.extent).bind ?_
    intro r w₁ hw
    exact obeys_pure hw.answer
  | create number kind start stop =>
    have hrefused : ∀ {err : TableError} {w' : Bench δ φ}, w.Alters ∅ [] w' →
        (g.Carries → ¬ ((TableCall.create number kind start stop).range g).Placeable g) →
        WritesEntry g number kind ((TableCall.create number kind start stop).range g) w
          (.fail err) w' ∧ ∀ e, (.fail err : Outcome TableError Extent) = .ok e →
            e = (TableCall.create number kind start stop).range g := fun ha h =>
      ⟨.refused (by simp) ha h, fun e he => (nomatch he)⟩
    change w.Ensures (createPartition (.disk g) number kind start stop) _
    rw [createPartition]
    split
    · rename_i hsize
      exact obeys_pure (hrefused (Alters.refl ∅ w)
        fun hc => absurd hc.sectorSize_le (Nat.not_le.2 hsize))
    · split
      · -- a range without a whole block is empty, and any other refused one ends beyond the disk
        rename_i hnone
        refine (ensures_note _ w).bind ?_
        intro _ w₁ h₁
        refine obeys_pure (hrefused h₁ fun _ hp => ?_)
        cases hin : Extent.inside? g.blockSize start stop with
        | none =>
          rw [TableCall.range, hin] at hp
          exact hp.blocks_ne rfl
        | some extent =>
          rw [TableCall.range, hin] at hp
          have hle := Option.filter_eq_none_iff.1 hnone extent hin
          exact hle (decide_eq_true hp.bound_le)
      · rename_i extent hsome
        have hin := (Option.filter_eq_some_iff.1 hsome).1
        have hrange : (TableCall.create number kind start stop).range g = extent := by
          rw [TableCall.range, show Extent.inside? g.blockSize start stop = some extent from hin]
          rfl
        rw [hrange]
        refine (ensures_writeEntry hg number kind extent).bind ?_
        intro r w₁ hw
        exact obeys_pure hw.answer

omit [LawfulBlockStore δ] [FilesystemDriver φ] in
/-- Altering nothing keeps what the table represents. -/
theorem Holds.alters (h : w.Holds g m) (hsize : sectorSize ≤ g.blockSize.toNat)
    (hpos : 0 < g.numBlocks) (ha : w.Alters ∅ [] w') : w'.Holds g m := by
  obtain ⟨rfl, hquiet, hrep, hord, htidy⟩ := h
  refine ⟨ha.geometry_eq, ha.quiet hquiet, ?_, hord, htidy⟩
  rw [ha.table_eq hsize hpos (Set.notMem_empty _)]
  exact hrep

omit [LawfulBlockStore δ] [FilesystemDriver φ] in
/-- A call that succeeds was admitted, and the table then represents its entry too. -/
theorem Holds.admits_of_ok (h : w.Holds g m) {c : TableCall}
    (hw : WritesEntry g c.number c.kind (c.range g) w (.ok ()) w') :
    m.Admits g c ∧ w'.table.Represents (m.set c.number (c.grant g)) := by
  obtain ⟨hcarries, hplace, htable, -, -⟩ := hw.of_ok rfl
  have hedited := h.represents.edited_rewritten h.ordinary c.number c.kind
    (c.addressable_range g) hplace.blocks_ne
  rw [htable] at hedited
  obtain ⟨hnumber, hfits, hfree, hset⟩ := hedited.of_ok
  exact ⟨⟨⟨hcarries.le_maxLength, hplace, hnumber, hfits⟩, hfree⟩, hset⟩

omit [LawfulBlockStore δ] [FilesystemDriver φ] in
/-- A call that succeeds was admitted, and gives its entry anew. -/
theorem Holds.of_ok (h : w.Holds g m) {c : TableCall} (hc : c.Typed)
    (hw : WritesEntry g c.number c.kind (c.range g) w (.ok ()) w') :
    m.Admits g c ∧ w'.Holds g (m.set c.number (c.grant g)) := by
  obtain ⟨⟨hsound, hfree⟩, hset⟩ := h.admits_of_ok hw
  obtain ⟨-, -, -, ha, -⟩ := hw.of_ok rfl
  refine ⟨⟨hsound, hfree⟩, ha.geometry_eq.trans h.geometry_eq, ha.quiet h.quiet, hset, ?_, ?_⟩
  · exact h.ordinary.set ⟨hc.1, hc.2, hsound.placeable.blocks_ne⟩
  · exact h.tidy.set hsound.placeable hfree

omit [LawfulBlockStore δ] [FilesystemDriver φ] in
/-- A sound call is answered as the allotment decides: it is admitted and succeeds, or it is
refused with the first entry in its way. -/
theorem Holds.of_sound (h : w.Holds g m) (hsize : sectorSize ≤ g.blockSize.toNat)
    (hpos : 0 < g.numBlocks) {c : TableCall} (hsound : c.Sound g) {r : Outcome TableError Unit}
    (hw : WritesEntry g c.number c.kind (c.range g) w r w') :
    (r = .ok () ∧ ∀ j, ¬ m.Meets c.number (c.range g) j) ∨
      ∃ k, r = .fail (.overlap k.number) ∧ m.Meets c.number (c.range g) k ∧
        ∀ j < k, ¬ m.Meets c.number (c.range g) j := by
  have hr := hw.of_quiet h.quiet ⟨hsize, hsound.le_maxLength, hpos⟩ hsound.placeable
  have hedited := h.represents.edited_rewritten h.ordinary c.number c.kind
    (c.addressable_range g) hsound.placeable.blocks_ne
  rcases hedited.of_fits hsound.number_mem hsound.recordable with
    ⟨⟨t, ht⟩, hfree⟩ | ⟨k, hk, hmeets, hfirst⟩
  · rw [ht] at hr
    exact .inl ⟨hr, hfree⟩
  · rw [hk] at hr
    exact .inr ⟨k, hr, hmeets, hfirst⟩

/-- A call answers by the allotment, and acts on it. -/
theorem Holds.call (h : w.Holds g m) (hsize : sectorSize ≤ g.blockSize.toNat)
    (hpos : 0 < g.numBlocks) {c : TableCall} (hc : c.Typed) :
    w.Ensures (c.routine (.disk g)) fun r w' =>
      c.Answers g m r ∧ w'.Holds g (m.apply g c) := by
  refine (ensures_routine h.geometry_eq c).imp ?_
  rintro r w' ⟨hw, hrange⟩
  have hoverlap : c.Sound g → ∀ k, m.Meets c.number (c.range g) k →
      (∀ j < k, ¬ m.Meets c.number (c.range g) j) → r = .fail (.overlap k.number) := by
    intro hsound k hmeets hfirst
    rcases h.of_sound hsize hpos hsound hw with ⟨-, hfree⟩ | ⟨k', hr, hmeets', hfirst'⟩
    · exact absurd hmeets (hfree k)
    · -- two first entries are one
      obtain rfl : k' = k := Fin.le_antisymm (Fin.not_lt.1 fun hlt => hfirst' k hlt hmeets)
        (Fin.not_lt.1 fun hlt => hfirst k' hlt hmeets')
      cases r with
      | ok e => cases hr
      | fail err => exact congrArg _ (Outcome.fail.inj hr)
      | overflow o => cases hr
  by_cases hok : ∃ e, r = .ok e
  · obtain ⟨e, rfl⟩ := hok
    obtain ⟨hadmits, hholds⟩ := h.of_ok hc hw
    refine ⟨⟨⟨fun _ => hadmits, fun _ => ⟨e, rfl⟩⟩, hrange, hoverlap⟩, ?_⟩
    rw [Allotment.apply, if_pos hadmits]
    exact hholds
  · have hne : (r.bind fun _ => .ok ()) ≠ .ok () := by
      intro hr
      obtain ⟨e, he, -⟩ := Outcome.bind_eq_ok.1 hr
      exact hok ⟨e, he⟩
    have hrefused : ¬ m.Admits g c := by
      rintro ⟨hsound, hfree⟩
      rcases h.of_sound hsize hpos hsound hw with ⟨hr, -⟩ | ⟨k, -, hmeets, -⟩
      · exact hne hr
      · exact hfree k hmeets
    refine ⟨⟨⟨fun hr => absurd hr hok, fun ha => absurd ha hrefused⟩, hrange, hoverlap⟩, ?_⟩
    rw [Allotment.apply, if_neg hrefused]
    exact h.alters hsize hpos (hw.of_ne hne)

/-! ## Any calls, one after the other -/

/-- The bench after calls. -/
def after (w : Bench δ φ) (calls : List TableCall) : Bench δ φ :=
  calls.foldl (fun w c => (w.run (c.routine w.disk)).2) w

/-- What the table represents follows the calls. -/
theorem Holds.after (h : w.Holds g m) (hsize : sectorSize ≤ g.blockSize.toNat)
    (hpos : 0 < g.numBlocks) {calls : List TableCall} (hcalls : ∀ c ∈ calls, c.Typed) :
    (w.after calls).Holds g (m.after g calls) := by
  -- one call moves bench and allotment together, and the rest starts from there
  induction calls generalizing w m with
  | nil => exact h
  | cons c rest ih =>
    have hcall := h.call hsize hpos (hcalls c List.mem_cons_self)
    obtain ⟨-, hnext⟩ := ensures_iff.1 hcall
    have hdisk : w.disk = .disk g := congrArg Volume.disk h.geometry_eq
    change ((w.run (c.routine w.disk)).2.after rest).Holds g ((m.apply g c).after g rest)
    rw [hdisk]
    exact ih hnext fun c hc => hcalls c (List.mem_cons_of_mem _ hc)

/-- From a blank disk on and without faults, the table stands for the map that the calls make:
every next call is answered by it, and what is listed of the table is the map, less the entries
whose types a look-up does not know. -/
theorem table_refines_allotment (w : Bench δ φ) (hblank : w.Blank) (hquiet : w.Quiet)
    (hsize : 512 ≤ (geometry w.store).blockSize.toNat) (hpos : 0 < (geometry w.store).numBlocks)
    (calls : List TableCall) (hcalls : ∀ c ∈ calls, c.Typed) :
    let g := geometry w.store
    let m := Allotment.empty.after g calls
    (∀ c : TableCall, c.Typed →
      c.Answers g m ((w.after calls).run (c.routine (.disk g))).1) ∧
    (g.blockSize.toNat ≤ Buffer.maxLength →
      ∃ t, ((w.after calls).run (Table.read (.disk g))).1 = .ok t ∧
        t.entries.value.map (fun e => (e.number, e.grant)) =
          m.listing.filter fun x => x.2.kind ∈ Table.knownKinds) ∧
    m.Tidy g := by
  intro g m
  have hstart : w.Holds g Allotment.empty :=
    ⟨rfl, hquiet, hblank.represents hsize hpos, fun _ _ h => (nomatch h), Allotment.tidy_empty g⟩
  have h : (w.after calls).Holds g m := hstart.after hsize hpos hcalls
  refine ⟨fun c hc => (ensures_iff.1 (h.call hsize hpos hc)).1, ?_, h.tidy⟩
  intro hlen
  obtain ⟨-, ⟨-, hread⟩ | ⟨-, hno⟩⟩ := ensures_iff.1 (ensures_read h.geometry_eq)
  · exact ⟨_, hread, h.represents.entries_eq h.ordinary⟩
  · exact absurd ⟨hsize, hlen, hpos⟩ (hno h.quiet)

/-- Entries of the types `0x83` and `0x10` are both written to a blank disk, and the first is
listed alone. -/
theorem table_refines_allotment_unknown_kind :
    let g : Geometry := ⟨512, 4096⟩
    let w : Bench SparseDisk Signature := .new (.new g)
    let calls : List TableCall :=
      [.write 1 0x83 ⟨⟨1, 10⟩, by decide⟩, .create 2 0x10 (20 * 512) (40 * 512)]
    (Allotment.empty.after g calls).listing = [(1, ⟨0x83, ⟨1, 10⟩⟩), (2, ⟨0x10, ⟨20, 20⟩⟩)] ∧
      ∃ t, ((w.after calls).run (Table.read (.disk g))).1 = .ok t ∧
        t.entries.value.map (fun e => (e.number, e.grant)) = [(1, ⟨0x83, ⟨1, 10⟩⟩)] := by
  intro g w calls
  have hcalls : ∀ c ∈ calls, c.Typed := by
    simp [calls, TableCall.Typed, TableCall.kind, Table.protectiveKind]
  have h := table_refines_allotment w (fun b k _ _ => SparseDisk.byteAt_new g b k)
    (by simp [w, Bench.new, Quiet]) (by decide) (by decide) calls hcalls
  have hlisting : (Allotment.empty.after g calls).listing =
      [(1, ⟨0x83, ⟨1, 10⟩⟩), (2, ⟨0x10, ⟨20, 20⟩⟩)] := by decide +kernel
  obtain ⟨t, hread, hlist⟩ := h.2.1 (by decide)
  refine ⟨hlisting, t, hread, hlist.trans ?_⟩
  exact (congrArg (List.filter _) hlisting).trans (by decide)

end Bench

end DiskBringup
