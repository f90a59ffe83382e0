import Mathlib.Data.Set.Insert
import DiskBringup.Proofs.Sessions

/-!
# Foreign blocks

What lies outside block 0 and outside the partitions is foreign to storage, and no call changes it.
`Storage.HoldsDuring` says which extents the partitions hold during a call, as its log has it; a
request that changes only some blocks is one that `Request.Touches` them, and so does every request
of a visit within the extents that it locates (`Slot.Visit.touches`). Block 0 is written where
partitions are created. There an entry takes the place of a record, and `Bench.KeepsRecords` says
that the rest of a signed table is kept. `StorageCall.leaves_foreign_blocks` has all of it for a
call.
-/

namespace DiskBringup

open Routine (Log)

/-! ## Extents that are held -/

/-- A slot has the extent when the call starts, or its partition is located there in the call. -/
def Storage.HoldsDuring (s : Storage) (log : Log) (x : Extent) : Prop :=
  ∃ t ∈ s.slots, t.extent = some x ∨
    ∃ entry, x = entry.extent ∧ ∃ e ∈ log, e.1 = .note (.partitionLocated t.number entry)

/-- The blocks that are held. -/
def Storage.heldBlocks (s : Storage) (log : Log) : Set Nat :=
  {b | ∃ x, s.HoldsDuring log x ∧ b ∈ x}

/-- Where the log has a partition of one of the numbers located, its blocks are among the given
ones. -/
def Routine.LocatesWithin (numbers : List UInt8) (blocks : Set Nat) (e : (r : Request) × r.Answer) :
    Prop :=
  ∀ n ∈ numbers, ∀ entry, e.1 = .note (.partitionLocated n entry) → ∀ b ∈ entry.extent, b ∈ blocks

/-! ## Requests that change only some blocks -/

/-- Of the disk the request changes the given blocks at most. -/
def Request.Touches (blocks : Set Nat) : Request → Prop
  | block (.write b _) => b.toNat ∈ blocks
  | mount _ v | reformat _ v | create _ _ v => v.Stays blocks
  | block .init | block .deinit | block (.read ..) | unmount _ | note _ => True

section Touches

variable {blocks : Set Nat} {req : Request}

theorem Request.Passive.touches (h : req.Passive) : req.Touches blocks := by
  match req, h with
  | .block .init, _ => trivial
  | .block .deinit, _ => trivial
  | .block (.read ..), _ => trivial
  | .note _, _ => trivial

theorem Request.OfTable.touches (h : req.OfTable) (h0 : 0 ∈ blocks) : req.Touches blocks := by
  match req, h with
  | .block .init, _ => trivial
  | .block .deinit, _ => trivial
  | .block (.read ..), _ => trivial
  | .block (.write b _), h =>
    obtain rfl : b = 0 := h
    exact h0
  | .note _, _ => trivial

theorem Request.Calls.touches {fs : Filesystem} {v : Volume} (h : req.Calls fs v)
    (hv : v.Stays blocks) : req.Touches blocks := by
  cases req with
  | mount | reformat =>
    obtain ⟨-, rfl⟩ := h
    exact hv
  | unmount | note => trivial
  | block | create => cases h

theorem Request.Touches.mono {more : Set Nat} (h : req.Touches blocks) (hsub : blocks ⊆ more) :
    req.Touches more := by
  have hstays : ∀ {v : Volume}, v.Stays blocks → v.Stays more := fun hv r =>
    (hv r).mono fun op hop => by
      cases op with
      | init | deinit => trivial
      | read | write => exact hsub hop
  cases req with
  | block r =>
    cases r with
    | write => exact hsub h
    | init | deinit | read => trivial
  | mount | reformat | create => exact hstays h
  | unmount | note => trivial

/-- A volume of a window reaches the blocks of the window. -/
theorem stays_of_subset {g : Geometry} {window : Window}
    (h : ∀ b ∈ window.extent, b ∈ blocks) : ((Volume.disk g).window window).Stays blocks :=
  fun r => (Volume.stays_window g window r).mono fun op hop => by
    cases op with
    | init | deinit => trivial
    | read | write => exact h _ hop

namespace Slot

variable {g : Geometry} {s s' : Slot} {log : Log} {numbers : List UInt8}

theorem Populates.touches {v : Volume} {ending : Outcome StorageError Unit}
    (h : s.Populates v log ending) (hv : v.Stays blocks) : ∀ e ∈ log, e.1.Touches blocks := by
  rcases h.calls with ⟨-, hlog⟩ | ⟨-, calls, rfl, hcalls⟩
  · exact fun e he => (hlog e he).touches hv
  · exact List.forall_mem_cons.2 ⟨hv, fun e he => (hcalls e he).touches hv⟩

/-- A visit stays within the extent that it locates. -/
theorem Visit.touches {ending : Outcome StorageError Unit} (h : s.Visit (.disk g) log ending s')
    (hs : s.number ∈ numbers) (hlog : ∀ e ∈ log, Routine.LocatesWithin numbers blocks e) :
    ∀ e ∈ log, e.1.Touches blocks := by
  cases h with
  | missed hlocate => exact fun e he => (passive_of_locate hlocate _ e he).touches
  | overflowed hlocate => exact fun e he => (hlocate.only (only_locate _ _) e he).touches
  | @located before log window _ hlocate hpopulates =>
    obtain ⟨entry, ⟨e, he, hlocated⟩, hextent, -⟩ := runs_locate_ok hlocate
    have hwithin : ∀ b ∈ window.extent, b ∈ blocks := by
      rw [hextent]
      exact hlog e (List.mem_append_left _ he) s.number hs entry hlocated
    exact List.forall_mem_append.2 ⟨fun e he => (hlocate.only (only_locate _ _) e he).touches,
      hpopulates.touches (stays_of_subset hwithin)⟩

theorem Creation.touches {extent : Extent} {ending : Outcome StorageError Unit}
    (h : s.Creation g extent log ending s') (hs : s.number ∈ numbers) (h0 : 0 ∈ blocks)
    (hlog : ∀ e ∈ log, Routine.LocatesWithin numbers blocks e) :
    ∀ e ∈ log, e.1.Touches blocks := by
  have hwrites : ∀ {log : Log} {written : Outcome TableError Unit},
      (writeEntry (.disk g) s.number s.spec.kind extent).Runs log written →
      ∀ e ∈ log, e.1.Touches blocks := fun hwrite e he =>
    (hwrite.only (only_writeEntry g s.number s.spec.kind extent) e he).touches h0
  cases h with
  | refused hwrite =>
    exact List.forall_mem_cons.2 ⟨trivial, List.forall_mem_append.2 ⟨hwrites hwrite,
      fun e he => (Routine.passive_of_noted e he).touches⟩⟩
  | overflowed hwrite => exact List.forall_mem_cons.2 ⟨trivial, hwrites hwrite⟩
  | written hwrite hvisit =>
    obtain ⟨-, hrest⟩ := List.forall_mem_cons.1 hlog
    obtain ⟨-, hafter⟩ := List.forall_mem_append.1 hrest
    exact List.forall_mem_cons.2 ⟨trivial, List.forall_mem_append.2 ⟨hwrites hwrite,
      hvisit.touches hs hafter⟩⟩

end Slot

end Touches

/-! ## Runs on the bench -/

namespace Bench

section KeepsRecords

variable {δ φ : Type} [BlockStore δ] {w w' w'' : Bench δ φ} {numbers : List UInt8}

open BlockStore

/-- Where block 0 holds a signed table, nothing of it but the records of some numbers was
changed. -/
structure KeepsRecords (numbers : List UInt8) (w w' : Bench δ φ) : Prop where
  /-- the disk keeps its shape -/
  geometry_eq : geometry w'.store = geometry w.store
  /-- the table stays signed -/
  signed : (geometry w.store).Carries → w.table.hasSignature = true → w'.table.hasSignature = true
  /-- the other bytes are kept -/
  byteAt_eq : ((geometry w.store).Carries → w.table.hasSignature = true) → ∀ k,
    0 < (geometry w.store).numBlocks → k < (geometry w.store).blockSize.toNat →
    (∀ i, Index.number i ∈ numbers → k < Table.offset i ∨ Table.offset i + 16 ≤ k) →
    byteAt w'.store 0 k = byteAt w.store 0 k

theorem KeepsRecords.refl (numbers : List UInt8) (w : Bench δ φ) : w.KeepsRecords numbers w :=
  ⟨rfl, fun _ => id, fun _ _ _ _ _ => rfl⟩

theorem KeepsRecords.trans (h : w.KeepsRecords numbers w') (h' : w'.KeepsRecords numbers w'') :
    w.KeepsRecords numbers w'' := by
  have hg := h.geometry_eq
  refine ⟨h'.geometry_eq.trans hg, fun hc hsig => ?_, fun hsig k hpos hk hout => ?_⟩
  · exact h'.signed (hg ▸ hc) (h.signed hc hsig)
  · have hsig' : (geometry w'.store).Carries → w'.table.hasSignature = true := fun hc =>
      h.signed (hg ▸ hc) (hsig (hg ▸ hc))
    exact (h'.byteAt_eq hsig' k (hg ▸ hpos) (hg ▸ hk) hout).trans (h.byteAt_eq hsig k hpos hk hout)

theorem KeepsRecords.mono {more : List UInt8} (h : w.KeepsRecords numbers w')
    (hsub : numbers ⊆ more) : w.KeepsRecords more w' :=
  ⟨h.geometry_eq, h.signed, fun hsig k hpos hk hout =>
    h.byteAt_eq hsig k hpos hk fun i hi => hout i (hsub hi)⟩

/-- Steps that leave block 0 alone. -/
theorem Alters.keepsRecords {blocks : Set Nat} {made : List String} (h : w.Alters blocks made w')
    (h0 : 0 ∉ blocks) : w.KeepsRecords numbers w' := by
  refine ⟨h.geometry_eq, fun hc hsig => ?_, fun _ k hpos hk _ => h.byteAt_eq 0 k h0 hpos hk⟩
  rw [h.table_eq hc.sectorSize_le hc.pos h0]
  exact hsig

/-- In a signed table an entry takes the place of the record of its number. -/
theorem exists_put_of_rewritten {t t' : Table} {number kind : UInt8} {extent : Extent}
    (h : t.rewritten number kind extent = .ok t') (hsig : t.hasSignature = true) :
    ∃ i r, number = Index.number i ∧ t' = t.put i r := by
  obtain ⟨i, last, base, hi, -, hbase, -, -, hput⟩ := Table.exists_put_of_rewritten h
  rcases Table.editable_eq_ok_iff.1 hbase with ⟨hno, -⟩ | ⟨-, -, rfl⟩
  · rw [hsig] at hno
    cases hno
  · exact ⟨i, _, hi, hput⟩

theorem getElem_table (w : Bench δ φ) {k : Nat} (hk : k < 512) :
    w.table.sector[k] = byteAt w.store 0 k :=
  Vector.getElem_ofFn _

/-- The records of other numbers are kept. -/
theorem KeepsRecords.record_eq (h : w.KeepsRecords numbers w') (hc : (geometry w.store).Carries)
    (hsig : w.table.hasSignature = true) {j : Index} (hj : j.number ∉ numbers) :
    w'.table.record j = w.table.record j := by
  have hbytes : w'.table.recordByte j = w.table.recordByte j := by
    funext k
    have hlt := Table.offset_add_lt j k
    have hk := k.isLt
    simp only [Table.recordByte, getElem_table]
    refine h.byteAt_eq (fun _ => hsig) _ hc.pos (Nat.lt_of_lt_of_le hlt hc.sectorSize_le) ?_
    intro i hi
    have hij : i.val ≠ j.val := by
      intro heq
      rw [Fin.ext heq] at hi
      exact hj hi
    simp only [Table.offset]
    omega
  rw [Table.record, Table.record, hbytes]

/-- Writing an entry changes the record of its number. -/
theorem WritesEntry.keepsRecords {g : Geometry} {number kind : UInt8} {extent : Extent}
    {r : Outcome TableError Unit} (h : WritesEntry g number kind extent w r w')
    (hg : geometry w.store = g) (hnumber : number ∈ numbers) : w.KeepsRecords numbers w' := by
  subst hg
  by_cases hr : r = .ok ()
  · obtain ⟨hc, -, hrewritten, ha, htail⟩ := h.of_ok hr
    refine ⟨ha.geometry_eq, fun _ hsig => ?_, fun hsig k _ hk hout => ?_⟩
    · obtain ⟨i, record, -, hput⟩ := exists_put_of_rewritten hrewritten hsig
      rw [hput, Table.hasSignature_put]
      exact hsig
    · obtain ⟨i, record, rfl, hput⟩ := exists_put_of_rewritten hrewritten (hsig hc)
      by_cases hlt : k < 512
      · rw [← w'.getElem_table hlt, ← w.getElem_table hlt]
        simp only [hput]
        exact Table.getElem_put_of_outside _ hlt (hout i hnumber)
      · exact htail k (Nat.not_lt.1 hlt) hk
  · exact (h.of_ne hr).keepsRecords (Set.notMem_empty 0)

end KeepsRecords

variable {δ φ : Type} [BlockStore δ] [LawfulBlockStore δ] [FilesystemDriver φ] {w w' : Bench δ φ}
  {blocks : Set Nat} {log : Log}

open BlockStore

theorem alters_answer {req : Request} (h : req.Touches blocks) (w : Bench δ φ) :
    ∃ made, w.Alters blocks made (answer req w).2 := by
  cases req with
  | block r =>
    refine ⟨[], ?_⟩
    cases r with
    | init => exact (init_cases w).1.of_empty
    | deinit => exact alters_block (r := .deinit) trivial w
    | read b n => exact (read_cases b n w).1.of_empty
    | write b data => exact alters_block (r := .write b data) h w
  | mount fs v => exact ⟨[], alters_mount h fs w⟩
  | reformat fs v => exact ⟨[], alters_reformat h fs w⟩
  | unmount fs => exact ⟨[], alters_unmount fs w⟩
  | create n name v => exact ⟨[name], alters_create h n name w⟩
  | note n => exact ⟨[], alters_of_eq rfl rfl rfl⟩

/-- Requests that change only some blocks alter these at most. -/
theorem alters_of_replays (h : ∀ e ∈ log, e.1.Touches blocks)
    (hlog : Script.Replays answer w log w') : ∃ made, w.Alters blocks made w' := by
  induction hlog with
  | nil w => exact ⟨[], Alters.refl blocks w⟩
  | @cons op w _ _ _ ih =>
    obtain ⟨hreq, hrest⟩ := List.forall_mem_cons.1 h
    obtain ⟨made, h₁⟩ := alters_answer hreq w
    obtain ⟨others, h₂⟩ := ih hrest
    exact ⟨_, h₁.append h₂⟩

omit [LawfulBlockStore δ] in
/-- What a routine ensures on the bench holds of its run along the log. -/
theorem Ensures.of_runs {α : Type} {t : Routine α} {a : α} {q : α → Bench δ φ → Prop}
    (h : w.Ensures t q) (hrun : t.Runs log a) (hlog : Script.Replays answer w log w') : q a w' := by
  have heq := hrun.run_eq hlog
  have hend := ensures_iff.1 h
  rwa [run, heq] at hend

variable {numbers : List UInt8} {g : Geometry} {s s' : Slot} {extent : Extent}
  {ending : Outcome StorageError Unit}

/-- Requests that leave block 0 alone keep its records. -/
theorem keepsRecords_of_touches (h : ∀ e ∈ log, e.1.Touches blocks) (h0 : 0 ∉ blocks)
    (hlog : Script.Replays answer w log w') : w.KeepsRecords numbers w' := by
  obtain ⟨made, ha⟩ := alters_of_replays h hlog
  exact ha.keepsRecords h0

theorem keepsRecords_of_passive (h : ∀ e ∈ log, e.1.Passive)
    (hlog : Script.Replays answer w log w') : w.KeepsRecords numbers w' :=
  keepsRecords_of_touches (fun e he => (h e he).touches) (Set.notMem_empty 0) hlog

/-- Creating a partition changes the record of its number, where its filesystem does not reach
block 0. -/
theorem keepsRecords_of_creation (h : s.Creation g extent log ending s')
    (hg : geometry w.store = g) (hs : s.number ∈ numbers) (h0 : 0 ∉ blocks)
    (hwithin : ∀ e ∈ log, Routine.LocatesWithin numbers blocks e)
    (hlog : Script.Replays answer w log w') : w.KeepsRecords numbers w' := by
  have hwrites : ∀ {w₁ w₂ : Bench δ φ} {log : Log} {written : Outcome TableError Unit},
      geometry w₁.store = g → (writeEntry (.disk g) s.number s.spec.kind extent).Runs log written →
      Script.Replays answer w₁ log w₂ → w₁.KeepsRecords numbers w₂ := by
    intro w₁ w₂ log written hg₁ hwrite hlog
    have hwritten :=
      Ensures.of_runs (ensures_writeEntry hg₁ s.number s.spec.kind extent) hwrite hlog
    exact hwritten.keepsRecords hg₁ hs
  have hnote : ∀ n, w.KeepsRecords numbers (answer (.note n) w).2 := fun n =>
    Alters.keepsRecords (alters_of_eq rfl rfl rfl) (Set.notMem_empty 0)
  cases h with
  | refused hwrite =>
    cases hlog with
    | cons hlog =>
      obtain ⟨w₁, hlog₁, hlog₂⟩ := hlog.of_append
      have h₁ := hwrites ((hnote _).geometry_eq.trans hg) hwrite hlog₁
      have h₂ : w₁.KeepsRecords numbers w' :=
        keepsRecords_of_passive Routine.passive_of_noted hlog₂
      exact ((hnote _).trans h₁).trans h₂
  | overflowed hwrite =>
    cases hlog with
    | cons hlog => exact (hnote _).trans (hwrites ((hnote _).geometry_eq.trans hg) hwrite hlog)
  | written hwrite hvisit =>
    obtain ⟨-, hrest⟩ := List.forall_mem_cons.1 hwithin
    obtain ⟨-, hafter⟩ := List.forall_mem_append.1 hrest
    cases hlog with
    | cons hlog =>
      obtain ⟨w₁, hlog₁, hlog₂⟩ := hlog.of_append
      have h₁ := hwrites ((hnote _).geometry_eq.trans hg) hwrite hlog₁
      have htouches := hvisit.touches hs hafter
      exact ((hnote _).trans h₁).trans (keepsRecords_of_touches htouches h0 hlog₂)

end Bench

/-! ## Calls -/

namespace Storage

variable {g : Geometry} {s s' : Storage} {slots : List Slot} {log : Log}
  {ending : Outcome StorageError Unit} {blocks : Set Nat}

/-- The numbers of the configured partitions. -/
def numbers (s : Storage) : List UInt8 := s.slots.map Slot.number

/-- The conditions for entries to be written: they are wanted, and the layout fits the disk. -/
def MayCreate (s : Storage) (g : Geometry) : Prop :=
  s.autoPartition = true ∧ ∃ capacity extents, g.size? = some capacity ∧
    (s.config.layout capacity g.blockSize).value = .ok extents

theorem number_mem {t : Slot} (ht : t ∈ s.slots) : t.number ∈ s.numbers := List.mem_map_of_mem ht

theorem locatesWithin_heldBlocks (s : Storage) (log : Log) :
    ∀ e ∈ log, Routine.LocatesWithin s.numbers (s.heldBlocks log) e := by
  intro e he n hn entry hentry b hb
  obtain ⟨t, ht, rfl⟩ := List.mem_map.1 hn
  exact ⟨entry.extent, ⟨t, ht, .inr ⟨entry, rfl, e, he, hentry⟩⟩, hb⟩

/-- Slots that come from those of storage have their numbers. -/
theorem number_mem_of_zip {extents : List Extent}
    (hspecs : slots.map Slot.spec = s.slots.map Slot.spec) {x : Slot × Extent}
    (hx : x ∈ slots.zip extents) : x.1.number ∈ s.numbers := by
  have hmem : x.1.spec ∈ slots.map Slot.spec := List.mem_map_of_mem (List.of_mem_zip hx).1
  rw [hspecs] at hmem
  obtain ⟨t, ht, hspec⟩ := List.mem_map.1 hmem
  rw [Slot.number, ← hspec]
  exact number_mem ht

/-- A pass changes blocks that it has located, and block 0 if partitions may be created. -/
theorem Pass.touches (h : s.Pass g log ending slots) (hslots : s.slots ≠ [])
    (hsize : g.size? = some s.capacity)
    (hwithin : ∀ e ∈ log, Routine.LocatesWithin s.numbers blocks e) :
    (∀ e ∈ log, e.1.Touches blocks) ∨
      s.MayCreate g ∧ ∀ e ∈ log, e.1.Touches (insert 0 blocks) := by
  have hvisited : ∀ {log : Log} {o : Outcome StorageError Unit} {slots : List Slot},
      InOrder (Slot.Visit (.disk g)) s.slots log o slots →
      (∀ e ∈ log, Routine.LocatesWithin s.numbers blocks e) → ∀ e ∈ log, e.1.Touches blocks :=
    fun hvisits hlog => hvisits.forall_log hlog fun ht hvisit hlog =>
      hvisit.touches (number_mem ht) hlog
  cases h with
  | refused => exact .inl (List.forall_mem_nil _)
  | whole hnone => exact absurd hnone hslots
  | visited _ hvisits | misplaced _ hvisits =>
    obtain ⟨hlog, -⟩ := List.forall_mem_append.1 hwithin
    exact .inl (List.forall_mem_append.2 ⟨hvisited hvisits hlog,
      fun e he => (Routine.passive_of_noted e he).touches⟩)
  | created _ hvisits _ hauto hlayout hcreations =>
    obtain ⟨hlog, hrest⟩ := List.forall_mem_append.1 hwithin
    obtain ⟨-, hmade⟩ := List.forall_mem_append.1 hrest
    have hspecs := hvisits.map_eq fun hvisit => hvisit.spec_eq
    refine .inr ⟨⟨hauto, _, _, hsize, hlayout⟩, List.forall_mem_append.2 ⟨fun e he => ?_,
      List.forall_mem_append.2 ⟨fun e he => (Routine.passive_of_noted e he).touches, ?_⟩⟩⟩
    · exact (hvisited hvisits hlog e he).mono (Set.subset_insert 0 blocks)
    · refine hcreations.forall_log hmade fun hx hcreation hlog => ?_
      refine hcreation.touches (number_mem_of_zip hspecs hx) (Set.mem_insert 0 blocks) ?_
      exact fun e he n hn entry hentry b hb => .inr (hlog e he n hn entry hentry b hb)

/-- A slot of storage in a call: what it holds, the call has it hold. -/
def HeldBy (s : Storage) (log : Log) (t : Slot) : Prop :=
  t.number ∈ s.numbers ∧ ∀ x, t.extent = some x → s.HoldsDuring log x

theorem heldBy_of_mem {t : Slot} (ht : t ∈ s.slots) : s.HeldBy log t :=
  ⟨number_mem ht, fun _ hx => ⟨t, ht, .inl hx⟩⟩

theorem HeldBy.visit {t t' : Slot} {part : Log} {o : Outcome StorageError Unit}
    (h : s.HeldBy log t) (hvisit : t.Visit (.disk g) part o t') (hpart : ∀ e ∈ part, e ∈ log) :
    s.HeldBy log t' := by
  obtain ⟨hnumber, hextent⟩ := h
  cases hvisit with
  | missed => exact ⟨hnumber, fun x hx => nomatch hx⟩
  | overflowed => exact ⟨hnumber, hextent⟩
  | @located before _ window _ hlocate hpopulates =>
    obtain ⟨entry, ⟨e, he, hlocated⟩, hwindow, -⟩ := runs_locate_ok hlocate
    refine ⟨hnumber, fun x hx => ?_⟩
    obtain rfl : window.extent = x := Option.some.inj hx
    obtain ⟨t₀, ht₀, hnumber₀⟩ := List.mem_map.1 hnumber
    rw [← hnumber₀] at hlocated
    exact ⟨t₀, ht₀, .inr ⟨entry, hwindow, e, hpart e (List.mem_append_left _ he), hlocated⟩⟩

theorem HeldBy.creation {t t' : Slot} {extent : Extent} {part : Log}
    {o : Outcome StorageError Unit} (h : s.HeldBy log t) (hcreation : t.Creation g extent part o t')
    (hpart : ∀ e ∈ part, e ∈ log) : s.HeldBy log t' := by
  cases hcreation with
  | refused | overflowed => exact h
  | written _ hvisit =>
    exact h.visit hvisit fun e he =>
      hpart e (List.mem_cons_of_mem _ (List.mem_append_right _ he))

/-- What the slots hold after a pass, the call has them hold. -/
theorem Pass.heldBy (h : s.Pass g log ending slots) {total : Log} (hlog : ∀ e ∈ log, e ∈ total) :
    ∀ t ∈ slots, s.HeldBy total t := by
  cases h with
  | refused | whole => exact fun t ht => heldBy_of_mem ht
  | visited _ hvisits | misplaced _ hvisits =>
    obtain ⟨hlog₁, -⟩ := List.forall_mem_append.1 hlog
    exact hvisits.forall_mem hlog₁ (fun hvisit hpart ht => ht.visit hvisit hpart)
      fun t ht => heldBy_of_mem ht
  | @created _ _ _ _ slots extents pairs _ hvisits _ _ _ hcreations =>
    obtain ⟨hlog₁, hrest⟩ := List.forall_mem_append.1 hlog
    obtain ⟨-, hlog₂⟩ := List.forall_mem_append.1 hrest
    have hvisited : ∀ t ∈ slots, s.HeldBy total t :=
      hvisits.forall_mem hlog₁ (fun hvisit hpart ht => ht.visit hvisit hpart)
        fun t ht => heldBy_of_mem ht
    have hcreated : ∀ x ∈ pairs, s.HeldBy total x.1 :=
      hcreations.forall_mem hlog₂ (fun hcreation hpart ht => ht.creation hcreation hpart)
        fun x hx => hvisited x.1 (List.of_mem_zip hx).1
    exact List.forall_mem_map.2 hcreated

/-- A call to bring storage up changes blocks that it has located, and block 0 if partitions may be
created. -/
theorem touches_of_init (h : s.init.Runs log (ending, s')) (hslots : s.slots ≠ [])
    (hwithin : ∀ e ∈ log, Routine.LocatesWithin s.numbers blocks e) :
    (∀ e ∈ log, e.1.Touches blocks) ∨
      ∃ g, s.device = some g ∧ s.MayCreate g ∧ ∀ e ∈ log, e.1.Touches (insert 0 blocks) := by
  rcases runs_init h with ⟨-, -, -, rfl⟩ | ⟨-, -, -, -, rfl⟩ | ⟨g, -, hdevice, hcourse⟩
  · exact .inl (List.forall_mem_singleton.2 trivial)
  · exact .inl (List.forall_mem_singleton.2 trivial)
  rcases hcourse.stops_or_passes with ⟨hlog, -, -⟩ |
    ⟨before, during, after, capacity, slots, rfl, hbefore, hafter, hsize, hpass, -⟩
  · exact .inl fun e he => (hlog e he).touches
  · obtain ⟨-, hrest⟩ := List.forall_mem_append.1 hwithin
    obtain ⟨hwithin, -⟩ := List.forall_mem_append.1 hrest
    have haround : ∀ {blocks : Set Nat} {log : Log}, (∀ e ∈ log, e.1.Touches blocks) →
        ∀ e ∈ before ++ (log ++ after), e.1.Touches blocks := fun hlog =>
      List.forall_mem_append.2 ⟨fun e he => (hbefore e he).touches,
        List.forall_mem_append.2 ⟨hlog, fun e he => (hafter e he).touches⟩⟩
    rcases hpass.touches hslots hsize hwithin with hlog | ⟨hmay, hlog⟩
    · exact .inl (haround hlog)
    · exact .inr ⟨g, hdevice, hmay, haround hlog⟩

/-- What the slots hold after a call to bring storage up, they hold during the call. -/
theorem heldBy_of_init (h : s.init.Runs log (ending, s')) : ∀ t ∈ s'.slots, s.HeldBy log t := by
  rcases runs_init h with ⟨-, -, rfl, -⟩ | ⟨-, -, -, rfl, -⟩ | ⟨g, -, -, hcourse⟩
  · exact fun t ht => heldBy_of_mem ht
  · exact fun t ht => heldBy_of_mem ht
  rcases hcourse.stops_or_passes with ⟨-, -, rfl⟩ |
    ⟨before, during, after, capacity, slots, rfl, -, -, -, hpass, rfl⟩
  · exact fun t ht => heldBy_of_mem ht
  · exact hpass.heldBy fun e he => List.mem_append_right _ (List.mem_append_left _ he)

variable {δ φ : Type} [BlockStore δ] [LawfulBlockStore δ] [FilesystemDriver φ] {w w' : Bench δ φ}

open BlockStore

/-- Of a signed block 0 a pass changes the records of the configured partitions at most, where no
partition reaches it. -/
theorem Pass.keepsRecords (h : s.Pass g log ending slots) (hslots : s.slots ≠ [])
    (hg : geometry w.store = g) (h0 : 0 ∉ blocks)
    (hwithin : ∀ e ∈ log, Routine.LocatesWithin s.numbers blocks e)
    (hlog : Script.Replays Bench.answer w log w') : w.KeepsRecords s.numbers w' := by
  have hvisited : ∀ {log : Log} {o : Outcome StorageError Unit} {slots : List Slot}
      {w' : Bench δ φ}, InOrder (Slot.Visit (.disk g)) s.slots log o slots →
      (∀ e ∈ log, Routine.LocatesWithin s.numbers blocks e) →
      Script.Replays Bench.answer w log w' → w.KeepsRecords s.numbers w' :=
    fun hvisits hwithin hlog => hvisits.replays hwithin hlog (Bench.KeepsRecords.refl _)
      Bench.KeepsRecords.trans fun ht hvisit hwithin hlog =>
        Bench.keepsRecords_of_touches (hvisit.touches (number_mem ht) hwithin) h0 hlog
  cases h with
  | refused =>
    cases hlog
    exact Bench.KeepsRecords.refl _ _
  | whole hnone => exact absurd hnone hslots
  | visited _ hvisits | misplaced _ hvisits =>
    obtain ⟨hwithin₁, -⟩ := List.forall_mem_append.1 hwithin
    obtain ⟨w₁, hlog₁, hlog₂⟩ := hlog.of_append
    exact (hvisited hvisits hwithin₁ hlog₁).trans
      (Bench.keepsRecords_of_passive Routine.passive_of_noted hlog₂)
  | created _ hvisits _ hauto hlayout hcreations =>
    obtain ⟨hwithin₁, hrest⟩ := List.forall_mem_append.1 hwithin
    obtain ⟨-, hwithin₂⟩ := List.forall_mem_append.1 hrest
    obtain ⟨w₁, hlog₁, hlog₂⟩ := hlog.of_append
    obtain ⟨w₂, hlog₃, hlog₄⟩ := hlog₂.of_append
    have h₂ := (hvisited hvisits hwithin₁ hlog₁).trans
      (Bench.keepsRecords_of_passive Routine.passive_of_noted hlog₃)
    have hspecs := hvisits.map_eq fun hvisit => hvisit.spec_eq
    have hmade : geometry w₂.store = g → w₂.KeepsRecords s.numbers w' := by
      refine hcreations.replays (r := fun w w' => geometry w.store = g →
        w.KeepsRecords s.numbers w') hwithin₂ hlog₄ (fun w _ => Bench.KeepsRecords.refl _ w) ?_ ?_
      · exact fun h h' hg => (h hg).trans (h' ((h hg).geometry_eq.trans hg))
      · exact fun hx hcreation hwithin hlog hg => Bench.keepsRecords_of_creation hcreation hg
          (number_mem_of_zip hspecs hx) h0 hwithin hlog
    exact h₂.trans (hmade (h₂.geometry_eq.trans hg))

/-- Of a signed block 0 a call to bring storage up changes the records of the configured partitions
at most, where no partition reaches it. -/
theorem keepsRecords_of_init (h : s.init.Runs log (ending, s')) (hslots : s.slots ≠ [])
    (hdevice : ∀ g, s.device = some g → geometry w.store = g) (h0 : 0 ∉ blocks)
    (hwithin : ∀ e ∈ log, Routine.LocatesWithin s.numbers blocks e)
    (hlog : Script.Replays Bench.answer w log w') : w.KeepsRecords s.numbers w' := by
  rcases runs_init h with ⟨-, -, -, rfl⟩ | ⟨-, -, -, -, rfl⟩ | ⟨g, -, hsome, hcourse⟩
  · refine Bench.keepsRecords_of_passive ?_ hlog
    exact List.forall_mem_singleton.2 trivial
  · refine Bench.keepsRecords_of_passive ?_ hlog
    exact List.forall_mem_singleton.2 trivial
  rcases hcourse.stops_or_passes with ⟨hpassive, -, -⟩ |
    ⟨before, during, after, capacity, slots, rfl, hbefore, hafter, -, hpass, -⟩
  · exact Bench.keepsRecords_of_passive hpassive hlog
  · obtain ⟨-, hrest⟩ := List.forall_mem_append.1 hwithin
    obtain ⟨hwithin, -⟩ := List.forall_mem_append.1 hrest
    obtain ⟨w₁, hlog₁, hlog₂⟩ := hlog.of_append
    obtain ⟨w₂, hlog₃, hlog₄⟩ := hlog₂.of_append
    have h₁ : w.KeepsRecords s.numbers w₁ := Bench.keepsRecords_of_passive hbefore hlog₁
    have h₂ : w₁.KeepsRecords s.numbers w₂ :=
      hpass.keepsRecords hslots (h₁.geometry_eq.trans (hdevice g hsome)) h0 hwithin hlog₃
    exact (h₁.trans h₂).trans (Bench.keepsRecords_of_passive hafter hlog₄)

end Storage

namespace StorageCall

variable {δ φ : Type} [BlockStore δ]

open BlockStore

/-- What a call leaves alone on the disk of a bench. -/
structure LeavesForeign (c : StorageCall) (s s' : Storage) (log : Log) (w w' : Bench δ φ) :
    Prop where
  /-- what partitions hold after the call, they hold during it -/
  holdsDuring : ∀ t ∈ s'.slots, ∀ x, t.extent = some x → s.HoldsDuring log x
  /-- of the blocks after block 0 only those that a partition holds are changed -/
  byteAt_eq : ∀ (b : UInt64) (k : Nat), b ≠ 0 → (∀ x, s.HoldsDuring log x → b.toNat ∉ x) →
    b < (geometry w.store).numBlocks → k < (geometry w.store).blockSize.toNat →
    byteAt w'.store b k = byteAt w.store b k
  /-- block 0, if no partition holds it, is changed only to create partitions -/
  zero_eq : (∀ x, s.HoldsDuring log x → 0 ∉ x) →
    (c = .init → ¬ s.MayCreate (geometry w.store)) → ∀ k, 0 < (geometry w.store).numBlocks →
    k < (geometry w.store).blockSize.toNat → byteAt w'.store 0 k = byteAt w.store 0 k
  /-- and if it holds a signed table, only the records of configured partitions are changed -/
  records_eq : (∀ x, s.HoldsDuring log x → 0 ∉ x) → w.table.hasSignature = true → ∀ k,
    0 < (geometry w.store).numBlocks → k < (geometry w.store).blockSize.toNat →
    (∀ i, Index.number i ∈ s.numbers → k < Table.offset i ∨ Table.offset i + 16 ≤ k) →
    byteAt w'.store 0 k = byteAt w.store 0 k

variable {s s' : Storage} {log : Log} {w w' : Bench δ φ} {c : StorageCall}

theorem leavesForeign_of_alters (hheld : ∀ t ∈ s'.slots, s.HeldBy log t) {made : List String}
    (halters : w.Alters (insert 0 (s.heldBlocks log)) made w')
    (hzero : (c = .init → ¬ s.MayCreate (geometry w.store)) →
      ∃ made, w.Alters (s.heldBlocks log) made w')
    (hrecords : 0 ∉ s.heldBlocks log → w.KeepsRecords s.numbers w') :
    c.LeavesForeign s s' log w w' := by
  have hnot : ∀ {b : Nat}, (∀ x, s.HoldsDuring log x → b ∉ x) → b ∉ s.heldBlocks log :=
    fun h ⟨x, hx, hb⟩ => h x hx hb
  refine ⟨fun t ht => (hheld t ht).2, fun b k hb hforeign hlt hk => ?_,
    fun hforeign hmay k hpos hk => ?_, fun hforeign hsig k hpos hk hout => ?_⟩
  · refine halters.byteAt_eq b k ?_ hlt hk
    rintro (hb0 | hheld)
    · exact hb (UInt64.toNat.inj hb0)
    · exact hnot hforeign hheld
  · obtain ⟨made, ha⟩ := hzero hmay
    exact ha.byteAt_eq 0 k (hnot hforeign) hpos hk
  · exact (hrecords (hnot hforeign)).byteAt_eq (fun _ => hsig) k hpos hk hout

variable [LawfulBlockStore δ] [FilesystemDriver φ]

/-- A call that changes held blocks only. -/
theorem leavesForeign_of_touches (hheld : ∀ t ∈ s'.slots, s.HeldBy log t)
    (htouches : ∀ e ∈ log, e.1.Touches (s.heldBlocks log))
    (hlog : Script.Replays Bench.answer w log w') : c.LeavesForeign s s' log w w' := by
  obtain ⟨made, ha⟩ := Bench.alters_of_replays htouches hlog
  exact leavesForeign_of_alters hheld (ha.mono (Set.subset_insert 0 _)) (fun _ => ⟨made, ha⟩)
    fun h0 => ha.keepsRecords h0

theorem leavesForeign_init {ending : Outcome StorageError Unit} (hslots : s.slots ≠ [])
    (hdevice : ∀ g, s.device = some g → geometry w.store = g)
    (hrun : s.init.Runs log (ending, s')) (hlog : Script.Replays Bench.answer w log w') :
    StorageCall.init.LeavesForeign s s' log w w' := by
  have hheld := Storage.heldBy_of_init hrun
  have hwithin := s.locatesWithin_heldBlocks log
  rcases Storage.touches_of_init hrun hslots hwithin with htouches | ⟨g, hsome, hmay, htouches⟩
  · exact leavesForeign_of_touches hheld htouches hlog
  · obtain ⟨made, ha⟩ := Bench.alters_of_replays htouches hlog
    obtain rfl := hdevice g hsome
    exact leavesForeign_of_alters hheld ha (fun hno => absurd hmay (hno rfl)) fun h0 =>
      Storage.keepsRecords_of_init hrun hslots hdevice h0 hwithin hlog

theorem leavesForeign_wipe {ending : Outcome StorageError Unit} (hslots : s.slots ≠ [])
    (hrun : s.wipe.Runs log ending) (hlog : Script.Replays Bench.answer w log w') :
    StorageCall.wipe.LeavesForeign s s log w w' := by
  refine leavesForeign_of_touches (fun t ht => Storage.heldBy_of_mem ht) (fun e he => ?_) hlog
  cases Storage.wipes_of_runs hrun e he with
  | passive h => exact h.touches
  | whole hnone => exact absurd hnone hslots
  | @slot g t window _ ht hextent h =>
    exact h.touches (stays_of_subset fun b hb => ⟨window.extent, ⟨t, ht, .inl hextent⟩, hb⟩)

/-- A call of storage for partitions, in whatever state earlier calls have left it, changes only
blocks that the partitions hold during the call, and in block 0 only the records of the partitions.
This holds for all faults, disks and filesystems. -/
theorem leaves_foreign_blocks (hslots : s.slots ≠ [])
    (hdevice : ∀ g, s.device = some g → geometry w.store = g) (c : StorageCall) :
    c.LeavesForeign s ((c.routine s).run Bench.answer w).1.2 ((c.routine s).trace Bench.answer w) w
      ((c.routine s).run Bench.answer w).2 := by
  have hrun : (c.routine s).Runs ((c.routine s).trace Bench.answer w)
      (((c.routine s).run Bench.answer w).1.1, ((c.routine s).run Bench.answer w).1.2) :=
    Script.runs_trace Bench.answer _ w
  have hlog : Script.Replays Bench.answer w ((c.routine s).trace Bench.answer w)
      ((c.routine s).run Bench.answer w).2 := Script.replays_trace _ w
  cases c with
  | init => exact leavesForeign_init hslots hdevice hrun hlog
  | wipe =>
    generalize (StorageCall.wipe.routine s).trace Bench.answer w = log at *
    generalize ((StorageCall.wipe.routine s).run Bench.answer w).1.2 = s' at *
    obtain ⟨rfl, hwipe⟩ := runs_wipe hrun
    exact leavesForeign_wipe hslots hwipe hlog

/-- Bringing up the one partition of a disk leaves all else on the disk alone. -/
theorem leaves_foreign_blocks_lone :
    init.LeavesForeign .forLonePartition
      ((init.routine .forLonePartition).run Bench.answer lonePartition).1.2
      ((init.routine .forLonePartition).trace Bench.answer lonePartition) lonePartition
      ((init.routine .forLonePartition).run Bench.answer lonePartition).2 :=
  leaves_foreign_blocks (List.cons_ne_nil _ _) (fun _ hg => Option.some.inj hg) init

end StorageCall

end DiskBringup
