import DiskBringup.Proofs.PreparedDisk
import DiskBringup.Proofs.ReadBack
import DiskBringup.Proofs.Views

/-!
# Blocks that a partition reaches

Whoever holds the view of a partition may run any program over it. The blocks of the disk that some
program transfers are those that the view `Bench.Reaches`, and they are the blocks that the view
covers and no others (`Volume.Nested.reaches_iff`). Where a partition was located, these are the
blocks of a record of the table, of which only the end is checked. So block 0, and with it the
table, is out of reach of a partition unless it is the first of the blocks that the record gives
(`Bench.reaches_table_iff`).
-/

namespace DiskBringup

open BlockStore

/-- The request transfers a block. -/
def BlockRequest.Transfers (b : Nat) : BlockRequest → Prop
  | init | deinit => False
  | read block _ | write block _ => block.toNat = b

section

variable {δ φ : Type} [BlockStore δ] {w : Bench δ φ} {v : Volume} {b : Nat}

/-- Run on the bench, some program over the volume makes the disk transfer a block. -/
def Bench.Reaches (w : Bench δ φ) (v : Volume) (b : Nat) : Prop :=
  ∃ x : BlockScript Unit, ∃ e ∈ Script.trace Bench.block (v.relay x) w, e.1.Transfers b

/-- A volume reaches none but the blocks among which it stays. -/
theorem Bench.Reaches.mem_of_stays (h : w.Reaches v b) {blocks : Set Nat} (hv : v.Stays blocks) :
    b ∈ blocks := by
  obtain ⟨x, ⟨r, answer⟩, he, htransfers⟩ := h
  have honly : (v.relay x).Only (BlockRequest.Within blocks) := x.only_true.expand fun r _ => hv r
  have hwithin := honly.of_mem_trace he
  cases r with
  | init => cases htransfers
  | deinit => cases htransfers
  | read c n =>
    obtain rfl : c.toNat = b := htransfers
    exact hwithin
  | write c data =>
    obtain rfl : c.toNat = b := htransfers
    exact hwithin

/-- A view reaches the blocks that it covers and no others. -/
theorem Volume.Nested.reaches_iff {g : Geometry} {base : Volume} {window : Window}
    (h : (Volume.window base window).Nested g) :
    w.Reaches (.window base window) b ↔ b ∈ (Volume.window base window).covered := by
  refine ⟨fun hb => hb.mem_of_stays h.stays, ?_⟩
  rintro ⟨hle, hlt⟩
  have hnum := (Volume.window base window).numBlocks.toNat_lt
  obtain ⟨k, hk⟩ : ∃ k : UInt64, k.toNat = b - (Volume.window base window).origin :=
    ⟨.ofNat _, UInt64.toNat_ofNat_of_lt' (show _ < 2 ^ 64 by omega)⟩
  obtain ⟨c, hc, -, hread, -⟩ := h.exists_block (b := k) (UInt64.lt_iff_toNat_lt.2 (by omega))
  -- the program that reads the block of the view that lies there
  refine ⟨Script.request (BlockRequest.read k 0) >>= fun _ => pure (),
    ⟨.read c 0, (Bench.block (.read c 0) w).1⟩, ?_, ?_⟩
  · rw [Volume.relay, Script.expand_bind, Script.expand_request, hread, Script.trace_bind]
    exact List.mem_append_left _ (List.mem_singleton.2 rfl)
  · change c.toNat = b
    omega

end

/-- A window of the disk covers its own blocks. -/
theorem Volume.mem_covered_window {g : Geometry} {window : Window} {b : Nat} :
    b ∈ ((disk g).window window).covered ↔ b ∈ window.extent := by
  have horigin : ((disk g).window window).origin = window.extent.start.toNat := Nat.zero_add _
  change _ ≤ b ∧ b < _ + window.extent.blocks.toNat ↔ _
  rw [horigin, Extent.mem_iff, Extent.bound]

/-- Block 0, where the table is, is a block of a record exactly if the record starts there and is
not empty. -/
theorem Record.zero_mem_extent_iff {r : Record} : 0 ∈ r.extent ↔ r.start = 0 ∧ r.count ≠ 0 := by
  have hzero : ∀ n : UInt32, n.toNat = 0 ↔ n = 0 := fun n => UInt32.toNat_inj (b := 0)
  rw [Extent.mem_iff, Extent.bound, Record.extent, UInt32.toNat_toUInt64, UInt32.toNat_toUInt64,
    ← hzero, ne_eq, ← hzero]
  omega

namespace Bench

variable {δ φ : Type} [BlockStore δ] [LawfulBlockStore δ] [FilesystemDriver φ] {w : Bench δ φ}

/-- A partition that was located covers the blocks of the record of its number. -/
theorem covered_of_init {p p' : Partition} (hinit : (w.run (p.init w.disk)).1 = (.ok (), p')) :
    ∃ (i : Index) (window : Window), p.number = i.number ∧ p' = ⟨p.number, some window⟩ ∧
      window.extent = (w.table.record i).extent ∧
      (Volume.window w.disk window).Nested (geometry w.store) := by
  have hens : w.Ensures (p.init w.disk) fun r _ => ∀ p', r = (.ok (), p') →
      ∃ (i : Index) (window : Window), p.number = i.number ∧ p' = ⟨p.number, some window⟩ ∧
        window.extent = (w.table.record i).extent ∧
        (Volume.window w.disk window).Nested (geometry w.store) := by
    refine (ensures_locate rfl p.number).bind ?_
    rintro (window | code | o) w₁ ⟨-, hok, -⟩
    · obtain ⟨-, e, hfind, hle, hextent⟩ := hok window rfl
      obtain ⟨i, hi, -, -, -, he⟩ := Table.find_eq_ok_iff.1 hfind
      obtain ⟨-, -, rfl⟩ := w.table.entry?_eq_some_iff.1 he
      refine obeys_pure fun p' hp' => ⟨i, window, Index.ofNumber?_eq_some_iff.1 hi, ?_, hextent, ?_⟩
      · exact (Prod.mk.inj hp').2.symm
      · exact .window .disk (hextent ▸ hle)
    · exact obeys_pure (by simp)
    · exact obeys_pure (by simp)
  exact ensures_iff.1 hens p' hinit

/-- Where a partition was located, whatever block 0 holds, its view reaches block 0 and the table in
it exactly if the record of its number starts there and is not empty. Then the first block of the
view is block 0 of the disk, and otherwise no program over the view gets there. -/
theorem reaches_table_iff {p p' : Partition} (hinit : (w.run (p.init w.disk)).1 = (.ok (), p')) :
    ∃ (i : Index) (v : Volume), p.number = i.number ∧ p'.volume? w.disk = some v ∧
      (∀ w' : Bench δ φ, w'.Reaches v 0 ↔
        (w.table.record i).start = 0 ∧ (w.table.record i).count ≠ 0) ∧
      ((w.table.record i).start = 0 → (w.table.record i).count ≠ 0 →
        (∀ n, v.request (.read 0 n) = Script.request (BlockRequest.read 0 n)) ∧
        ∀ (n : Nat) (data : Buffer n),
          v.request (.write 0 data) = Script.request (BlockRequest.write 0 data)) := by
  obtain ⟨i, window, hi, rfl, hextent, hnested⟩ := covered_of_init hinit
  have hcovered : 0 ∈ (Volume.window w.disk window).covered ↔
      (w.table.record i).start = 0 ∧ (w.table.record i).count ≠ 0 := by
    rw [← Record.zero_mem_extent_iff, ← hextent]
    exact Volume.mem_covered_window
  refine ⟨i, .window w.disk window, hi, rfl, fun w' => hnested.reaches_iff.trans hcovered, ?_⟩
  intro hstart hcount
  obtain ⟨hle, hlt⟩ := hcovered.2 ⟨hstart, hcount⟩
  have horigin := Nat.le_zero.1 hle
  rw [horigin, Nat.zero_add] at hlt
  obtain ⟨c, hc, -, hread, hwrite⟩ := hnested.exists_block (b := 0) (UInt64.lt_iff_toNat_lt.2 hlt)
  rw [horigin, Nat.zero_add] at hc
  obtain rfl : c = 0 := UInt64.toNat.inj hc
  exact ⟨hread, hwrite⟩

/-- An entry that starts at block 0 is located, and its view reaches the table. -/
theorem reaches_table_iff_first_entry :
    let w : Bench SparseDisk Signature := .new (.prepared 4096 (.holding [⟨0, 10⟩]) [])
    ∃ (p : Partition) (v : Volume), (w.run ((Partition.new 1).init w.disk)).1 = (.ok (), p) ∧
      p.volume? w.disk = some v ∧ w.Reaches v 0 := by
  intro w
  obtain ⟨-, hrep⟩ := Table.represents_holding [⟨0, 10⟩] (by decide)
  have hordinary := Allotment.ordinary_holding [⟨0, 10⟩] (by decide)
  have htable : w.table = .holding [⟨0, 10⟩] := table_prepared rfl
  rw [← htable] at hrep
  have hgrant : Allotment.holding [⟨0, 10⟩] 0 = some ⟨0x83, ⟨0, 10⟩⟩ := by decide
  obtain ⟨e, hfind, hentry⟩ := hrep.exists_find hordinary hgrant (by decide)
  have hextent : e.extent = ⟨0, 10⟩ := congrArg Grant.extent hentry
  have hbound : e.extent.bound ≤ 4096 := by
    rw [hextent]
    decide
  obtain ⟨window, -, hinit⟩ := ensures_iff.1 (ensures_init_of_find (w := w) rfl
    (by simp [w, Bench.new, Quiet]) ⟨by decide, by decide, by decide⟩ hfind hbound)
  obtain ⟨i, v, hi, hv, hreaches, -⟩ := reaches_table_iff hinit
  obtain rfl : 0 = i := Index.number_inj.1 hi
  have hrecord := Extent.mk.inj (hrep.used 0 _ hgrant).extent_eq
  refine ⟨_, v, hinit, hv, (hreaches w).2 ⟨?_, ?_⟩⟩
  · exact UInt32.toUInt64_inj.1 hrecord.1
  · intro hcount
    rw [hcount] at hrecord
    exact absurd hrecord.2 (by decide)

end Bench

end DiskBringup
