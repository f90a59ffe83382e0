import DiskBringup.Proofs.BringUp
import DiskBringup.Proofs.Placement
import DiskBringup.Proofs.PreparedDisk
import DiskBringup.Proofs.TableCalls
import Mathlib.Logic.Function.Basic

/-!
# Guarded disks

A signed table with a protective record guards its disk: what lies on it is laid out by another
kind of table (`Table.Guards`). Whoever needs the table of such a disk is refused, on the way to
an entry and on the way to writing one, and has asked for nothing by then but to read. So storage
does not come up on it, and a filesystem that storage has from before is not reached. One call of
the `Users` of a disk leaves everything as it is (`Users.spared`), and so do all calls, whichever of
them are hit by faults (`Users.leaves_guarded_disk`).
-/

namespace DiskBringup

/-! ## Tables that guard -/

namespace Table

/-- The table guards a disk that is laid out by another kind of table. -/
structure Guards (t : Table) : Prop where
  /-- the table is signed -/
  signed : t.hasSignature = true
  /-- a record is protective, whatever the others are -/
  exists_protective : ∃ i, (t.record i).kind = protectiveKind

namespace Guards

variable {t : Table}

theorem exists_protector? (h : t.Guards) : ∃ i, t.protector? = some i := by
  obtain ⟨i, hi⟩ := h.exists_protective
  rw [← Option.isSome_iff_exists, protector?, List.find?_isSome]
  exact ⟨i, Index.mem_all i, beq_iff_eq.2 hi⟩

/-- A look-up finds no entry. -/
theorem exists_find (h : t.Guards) (number : UInt8) :
    ∃ err, (t.find number).value = .error err := by
  cases hfind : (t.find number).value with
  | error err => exact ⟨err, rfl⟩
  | ok e =>
    obtain ⟨i, hi⟩ := h.exists_protector?
    obtain ⟨-, -, -, hnone, -⟩ := find_eq_ok_iff.1 hfind
    rw [hi] at hnone
    cases hnone

/-- The table is not edited. -/
theorem exists_editable (h : t.Guards) : ∃ err, t.editable.value = .error err := by
  cases hedit : t.editable.value with
  | error err => exact ⟨err, rfl⟩
  | ok base =>
    obtain ⟨i, hi⟩ := h.exists_protector?
    rcases editable_eq_ok_iff.1 hedit with ⟨hno, -⟩ | ⟨-, hnone, -⟩
    · rw [h.signed] at hno
      cases hno
    · rw [hi] at hnone
      cases hnone

end Guards

end Table

/-! ## Routines on a guarded disk -/

/-- Storage of the same disk and configuration, up or down as before. -/
structure Storage.Alike (s s' : Storage) : Prop where
  /-- the disk -/
  device_eq : s'.device = s.device
  /-- what is configured -/
  specs_eq : s'.slots.map Slot.spec = s.slots.map Slot.spec
  /-- whether it is up -/
  isUp_eq : s'.isUp = s.isUp

theorem Storage.Alike.refl (s : Storage) : s.Alike s := ⟨rfl, rfl, rfl⟩

theorem Storage.Alike.trans {s s' s'' : Storage} (h : s.Alike s') (h' : s'.Alike s'') :
    s.Alike s'' :=
  ⟨h'.device_eq.trans h.device_eq, h'.specs_eq.trans h.specs_eq, h'.isUp_eq.trans h.isUp_eq⟩

namespace Bench

variable {δ φ : Type} [BlockStore δ] {w w' w'' : Bench δ φ} {g : Geometry}

open BlockStore

/-- Nothing on the disk has changed, and no filesystem was made. -/
structure Untouched (w w' : Bench δ φ) : Prop where
  /-- the disk keeps its shape -/
  geometry_eq : geometry w'.store = geometry w.store
  /-- every block keeps its bytes -/
  byteAt_eq : ∀ (b : UInt64) (k : Nat), b < (geometry w.store).numBlocks →
    k < (geometry w.store).blockSize.toNat → byteAt w'.store b k = byteAt w.store b k
  /-- no filesystem is made -/
  created_eq : w'.created = w.created

theorem Untouched.refl (w : Bench δ φ) : w.Untouched w := ⟨rfl, fun _ _ _ _ => rfl, rfl⟩

theorem Untouched.trans (h : w.Untouched w') (h' : w'.Untouched w'') : w.Untouched w'' := by
  have hg := h.geometry_eq
  refine ⟨h'.geometry_eq.trans hg, fun b k hb hk => ?_, h'.created_eq.trans h.created_eq⟩
  rw [h'.byteAt_eq b k (hg ▸ hb) (hg ▸ hk), h.byteAt_eq b k hb hk]

theorem Alters.untouched (h : w.Alters ∅ [] w') : w.Untouched w' :=
  ⟨h.geometry_eq, fun b k => h.byteAt_eq b k (Set.notMem_empty _),
    h.created_eq.trans (List.append_nil _)⟩

/-- The disk has a shape, and its table guards it if it can hold one. -/
structure Guarded (w : Bench δ φ) (g : Geometry) : Prop where
  /-- the shape of the disk -/
  geometry_eq : geometry w.store = g
  /-- the table guards the disk -/
  guards : g.Carries → w.table.Guards

theorem Guarded.untouched (h : w.Guarded g) (hw : w.Untouched w') : w'.Guarded g := by
  refine ⟨hw.geometry_eq.trans h.geometry_eq, fun hc => ?_⟩
  have htable : w'.table = w.table := by
    have hc' := hc
    rw [← h.geometry_eq] at hc'
    rw [table]
    congr 2
    funext k
    exact hw.byteAt_eq 0 k.val hc'.pos (Nat.lt_of_lt_of_le k.isLt hc'.sectorSize_le)
  rw [htable]
  exact h.guards hc

variable [FilesystemDriver φ]

/-- Run on the bench, the routine only reads, is refused in the end, and leaves `q`. -/
abbrev Denies {ε α β : Type} (w : Bench δ φ) (g : Geometry) (t : Routine (Outcome ε α × β))
    (q : β → Prop) : Prop :=
  w.Obeys Request.Passive t fun r w' => w.Alters ∅ [] w' ∧
    r.1.Refused (Buffer.maxLength < g.blockSize.toNat) ∧ q r.2

/-- Of steps in order, those after a step that is refused are not tried. -/
theorem Denies.inOrder {ε β : Type} {step : β → Routine (Outcome ε Unit × β)} {item : β}
    {q : β → Prop} (h : w.Denies g (step item) q) (rest : List β) :
    w.Denies g (inOrder step (item :: rest)) fun items =>
      ∃ item', q item' ∧ items = item' :: rest := by
  refine obeys_inOrder_cons h ?_ ?_
  · rintro item' w' ⟨-, hr, -⟩
    exact absurd rfl (hr.ne_ok ())
  · exact fun a w' _ ⟨h₁, hr, hq⟩ => ⟨h₁, hr, a.2, hq, rfl⟩

variable [LawfulBlockStore δ]

namespace Guarded

variable (h : w.Guarded g)

include h

/-- No partition is located. -/
theorem obeys_locate (number : UInt8) :
    w.Obeys Request.Passive (locate (.disk g) number) fun r w' =>
      w.Alters ∅ [] w' ∧ r.Refused (Buffer.maxLength < g.blockSize.toNat) := by
  refine Ensures.obeys ?_ (only_locate (.disk g) number)
  refine (ensures_read h.geometry_eq).bind ?_
  rintro r w₁ ⟨h₁, ⟨hc, rfl⟩ | ⟨hr, -⟩⟩
  · obtain ⟨err, herr⟩ := (h.guards hc).exists_find number
    refine (ensures_ofNoted _ w₁).bind ?_
    rintro found w₂ ⟨rfl, h₂⟩
    rw [herr]
    exact obeys_pure ⟨h₁.trans h₂, .fail _⟩
  · cases hr with
    | fail err => exact obeys_pure ⟨h₁, .fail _⟩
    | overflow o ho => exact obeys_pure ⟨h₁, .overflow o ho⟩

/-- No entry is written. -/
theorem obeys_writeEntry (number kind : UInt8) {extent : Extent} (haddr : extent.Addressable) :
    w.Obeys Request.Passive (writeEntry (.disk g) number kind extent) fun r w' =>
      w.Alters ∅ [] w' ∧ r.Refused (Buffer.maxLength < g.blockSize.toNat) := by
  rw [writeEntry]
  split
  · exact obeys_pure ⟨.refl ∅ w, .fail _⟩
  split
  · rename_i hnone
    have hbound := Extent.bound?_eq_none_iff.1 hnone
    exact absurd haddr (Nat.not_lt.2 hbound)
  split
  · exact obeys_pure ⟨.refl ∅ w, .fail _⟩
  rw [writeEntryBefore]
  refine ((ensures_read h.geometry_eq).obeys (Table.only_read (.disk g))).bind ?_
  rintro r w₁ ⟨h₁, ⟨hc, rfl⟩ | ⟨hr, -⟩⟩
  · obtain ⟨err, herr⟩ := (h.guards hc).exists_editable
    refine ((ensures_ofNoted _ w₁).obeys (Routine.only_ofNoted _)).bind ?_
    rintro found w₂ ⟨hfound, h₂⟩
    rw [hfound, herr]
    exact obeys_pure ⟨h₁.trans h₂, .fail _⟩
  · cases hr with
    | fail err => exact obeys_pure ⟨h₁, .fail _⟩
    | overflow o ho => exact obeys_pure ⟨h₁, .overflow o ho⟩

theorem obeys_call (c : TableCall) :
    w.Obeys Request.Passive (c.routine (.disk g)) fun r w' =>
      w.Alters ∅ [] w' ∧ r.Refused (Buffer.maxLength < g.blockSize.toNat) := by
  cases c with
  | write number kind window =>
    refine (h.obeys_writeEntry number kind window.addressable).bind ?_
    rintro r w₁ ⟨h₁, hr⟩
    exact obeys_pure ⟨h₁, hr.bind _⟩
  | create number kind start stop =>
    rw [TableCall.routine, createPartition]
    split
    · exact obeys_pure ⟨.refl ∅ w, .fail _⟩
    split
    · refine (obeys_note (fun _ hreq => hreq) _ w).bind ?_
      intro _ w₁ h₁
      exact obeys_pure ⟨h₁, .fail _⟩
    · rename_i extent hextent
      obtain ⟨-, hle⟩ := Option.filter_eq_some_iff.1 hextent
      have haddr : extent.Addressable :=
        Nat.lt_of_le_of_lt (of_decide_eq_true hle) g.numBlocks.toNat_lt
      refine (h.obeys_writeEntry number kind haddr).bind ?_
      rintro r w₁ ⟨h₁, hr⟩
      exact obeys_pure ⟨h₁, hr.bind _⟩

/-! ## Storage on a guarded disk -/

theorem denies_bringUp (s : Slot) :
    w.Denies g (s.bringUp (.disk g)) fun s' => s'.spec = s.spec := by
  refine (h.obeys_locate s.number).bind ?_
  rintro r w₁ ⟨h₁, hr⟩
  cases hr with
  | fail code =>
    refine (obeys_note (fun _ hreq => hreq) _ w₁).bind ?_
    intro _ w₂ h₂
    exact obeys_pure ⟨h₁.trans h₂, .fail _, rfl⟩
  | overflow o ho => exact obeys_pure ⟨h₁, .overflow o ho, rfl⟩

theorem denies_create (s : Slot) {extent : Extent} (haddr : extent.Addressable) :
    w.Denies g (s.create (.disk g) extent) fun s' => s' = s := by
  refine (obeys_note (fun _ hreq => hreq) _ w).bind ?_
  intro _ w₁ h₁
  refine ((h.untouched h₁.untouched).obeys_writeEntry s.number s.spec.kind haddr).bind ?_
  rintro r w₂ ⟨h₂, hr⟩
  cases hr with
  | fail err =>
    refine (obeys_note (fun _ hreq => hreq) _ w₂).bind ?_
    intro _ w₃ h₃
    exact obeys_pure ⟨h₁.trans (h₂.trans h₃), .fail _, rfl⟩
  | overflow o ho => exact obeys_pure ⟨h₁.trans h₂, .overflow o ho, rfl⟩

theorem denies_bringUpAll {slots : List Slot} (hslots : slots ≠ []) :
    w.Denies g (Slot.bringUpAll (.disk g) slots) fun slots' =>
      slots'.map Slot.spec = slots.map Slot.spec := by
  obtain ⟨t, rest, rfl⟩ := List.exists_cons_of_ne_nil hslots
  refine (Denies.inOrder (g := g) (q := fun t' => t'.spec = t.spec) ?_ rest).imp ?_
  · exact (h.denies_bringUp t).bind fun r w' ⟨h₁, hr, hspec⟩ =>
      obeys_pure ⟨h₁, hr.mapFail _, hspec⟩
  · rintro ⟨ending, _⟩ w' ⟨h₁, hr, t', hspec, rfl⟩
    exact ⟨h₁, hr, congrArg (· :: rest.map Slot.spec) hspec⟩

theorem denies_createAll {slots : List Slot} {extents : List Extent} (hslots : slots ≠ [])
    (hlength : slots.length = extents.length) (haddr : ∀ e ∈ extents, e.Addressable) :
    w.Denies g (Slot.createAll (.disk g) slots extents) fun slots' => slots' = slots := by
  obtain ⟨s, rest, rfl⟩ := List.exists_cons_of_ne_nil hslots
  obtain ⟨e, others, rfl⟩ : ∃ e others, extents = e :: others :=
    List.exists_cons_of_length_eq_add_one hlength.symm
  refine (Denies.inOrder (g := g) (q := fun x => x = (s, e)) ?_ (rest.zip others)).bind ?_
  · exact (h.denies_create s (haddr e List.mem_cons_self)).bind fun r w' ⟨h₁, hr, hs⟩ =>
      obeys_pure ⟨h₁, hr, congrArg (·, e) hs⟩
  · rintro ⟨ending, _⟩ w' ⟨h₁, hr, x, rfl, rfl⟩
    refine obeys_pure ⟨h₁, hr, ?_⟩
    rw [List.map_cons, List.map_fst_zip (Nat.le_of_succ_le_succ hlength.le)]

variable {s : Storage}

theorem denies_createPartitions (hslots : s.slots ≠ []) (hsize : g.size? = some s.capacity) :
    w.Denies g (s.createPartitions (.disk g)) fun s' => s' = s := by
  refine obeys_createPartitions (fun _ hreq => hreq) ?_ ?_
  · exact fun err w' _ h₁ => ⟨h₁, .fail _, rfl⟩
  · intro extents w₁ hlayout h₁
    have hplaced := Config.placed_of_layout hlayout hsize
    have hlength : s.slots.length = extents.length := by
      rw [← hplaced.length_eq, Storage.config, List.length_map]
    have haddr : ∀ e ∈ extents, e.Addressable := by
      intro e he
      rw [← List.map_snd_zip hplaced.length_eq.ge] at he
      obtain ⟨x, hx, rfl⟩ := List.mem_map.1 he
      exact Nat.lt_of_le_of_lt (hplaced.placeable x hx).bound_le g.numBlocks.toNat_lt
    refine ((h.untouched h₁.untouched).denies_createAll hslots hlength haddr).imp ?_
    rintro r w₂ ⟨h₂, hr, hslots'⟩
    rw [hslots']
    exact ⟨h₁.trans h₂, hr, rfl⟩

theorem denies_bringUpPartitions (hslots : s.slots ≠ []) (hsize : g.size? = some s.capacity) :
    w.Denies g (s.bringUpPartitions (.disk g)) s.Alike := by
  by_cases hfactory : s.hasFactory = true
  · refine obeys_bringUpPartitions hfactory (fun _ hreq => hreq) (h.denies_bringUpAll hslots)
      ?_ ?_ ?_ ?_
    · rintro slots w₁ ⟨-, hr, -⟩
      exact absurd rfl (hr.ne_ok ())
    · rintro o slots w₁ ⟨h₁, hr, hspecs⟩
      cases hr with
      | overflow o ho => exact ⟨h₁, .overflow o ho, rfl, hspecs, rfl⟩
    · rintro x slots w₁ w₂ ⟨h₁, -, hspecs⟩ h₂ -
      exact ⟨h₁.trans h₂, .fail _, rfl, hspecs, rfl⟩
    · -- the layout is written over slots that have been tried: there are still some
      rintro x slots w₁ w₂ ⟨h₁, -, hspecs⟩ h₂ -
      have hslots' : slots ≠ [] := by
        rintro rfl
        exact hslots (List.map_eq_nil_iff.1 hspecs.symm)
      have h₁₂ := h₁.trans h₂
      refine ((h.untouched h₁₂.untouched).denies_createPartitions
        (s := { s with slots := slots }) hslots' hsize).imp ?_
      rintro r w₃ ⟨h₃, hr, hs⟩
      rw [hs]
      exact ⟨h₁₂.trans h₃, hr, rfl, hspecs, rfl⟩
  · rw [Storage.bringUpPartitions, if_neg hfactory]
    exact obeys_pure ⟨.refl ∅ w, .fail _, .refl s⟩

/-- Storage that is down does not come up. -/
theorem obeys_init (hslots : s.slots ≠ []) (hdevice : ∀ d, s.device = some d → d = g) :
    w.Obeys Request.Passive s.init fun r w' => w.Alters ∅ [] w' ∧ s.Alike r.2 ∧
      (s.isUp = false →
        r.1.Refused (g.size? = none ∨ Buffer.maxLength < g.blockSize.toNat)) := by
  cases hd : s.device with
  | none =>
    rw [Storage.init]
    split
    · rename_i hup
      refine (obeys_note (fun _ hreq => hreq) _ w).bind ?_
      intro _ w₁ h₁
      exact obeys_pure ⟨h₁, .refl s, fun hdown => absurd (hup.symm.trans hdown) (by simp)⟩
    · rw [hd]
      refine (obeys_note (fun _ hreq => hreq) _ w).bind ?_
      intro _ w₁ h₁
      exact obeys_pure ⟨h₁, .refl s, fun _ => .fail _⟩
  | some d =>
    obtain rfl := hdevice d hd
    refine Bench.obeys_init (fun _ hreq => hreq) hd ?_ fun hdown => ?_
    · exact fun w₁ hup h₁ =>
        ⟨h₁, .refl s, fun hdown => absurd (hup.symm.trans hdown) (by simp)⟩
    · refine obeys_initOn (fun _ hreq => hreq) ?_ ?_
      · exact fun r w₁ hr h₁ _ => ⟨h₁, .refl s, fun _ => hr.mono .inl⟩
      · intro capacity w₁ hsize h₁
        rw [Storage.bringUp_of_slots (s := { s with capacity := capacity }) hslots]
        refine ((h.untouched h₁.untouched).denies_bringUpPartitions
          (s := { s with capacity := capacity }) hslots hsize).imp ?_
        rintro r w₂ ⟨h₂, hr, hs⟩
        exact ⟨fun _ => ⟨h₁.trans h₂, ⟨hs.device_eq, hs.specs_eq, hs.isUp_eq⟩, fun _ =>
          hr.mono .inr⟩, fun hok => absurd hok (hr.ne_ok ())⟩

end Guarded

end Bench

/-! ## The users of a disk -/

/-- The users of a disk: partitions, and storage. -/
structure Users where
  /-- the partitions -/
  partition : Nat → Partition
  /-- the storage -/
  storage : Nat → Storage

/-- Why a call of a user was refused. -/
inductive UserError where
  /-- an entry was not written -/
  | table (err : TableError)
  /-- a partition was not located -/
  | partition (code : ErrorCode)
  /-- storage did not come up -/
  | storage (err : StorageError)
  deriving DecidableEq

/-- A call of a user. -/
inductive UserCall where
  /-- write an entry -/
  | write (c : TableCall)
  /-- locate a partition -/
  | locate (k : Nat)
  /-- bring storage up -/
  | init (k : Nat)

namespace UserCall

/-- The routine of a call, which ends with the users that the call leaves. -/
def routine (disk : Volume) (u : Users) : UserCall → Routine (Outcome UserError Unit × Users)
  | write c => do
    let ending ← c.routine disk
    return ((ending.bind fun _ => .ok ()).mapFail .table, u)
  | locate k => do
    let (ending, p) ← (u.partition k).init disk
    return (ending.mapFail .partition, { u with partition := Function.update u.partition k p })
  | init k => do
    let (ending, s) ← (u.storage k).init
    return (ending.mapFail .storage, { u with storage := Function.update u.storage k s })

/-- The call cannot do without the partition table. -/
def NeedsTable (u : Users) : UserCall → Prop
  | write _ | locate _ => True
  | init k => (u.storage k).isUp = false

/-- The device is one on which the call may overflow: no buffer holds a block of it, or the number
of its bytes, for which storage asks, is no word. -/
def Oversized (g : Geometry) : UserCall → Prop
  | write _ | locate _ => Buffer.maxLength < g.blockSize.toNat
  | init _ => g.size? = none ∨ Buffer.maxLength < g.blockSize.toNat

end UserCall

namespace Users

variable {u u' u'' : Users}

/-- Users with the same partitions, and with storage that is up or down as before. -/
structure Alike (u u' : Users) : Prop where
  /-- the partitions -/
  partition_eq : u'.partition = u.partition
  /-- the storage -/
  storage : ∀ k, (u.storage k).Alike (u'.storage k)

theorem Alike.refl (u : Users) : u.Alike u := ⟨rfl, fun k => .refl (u.storage k)⟩

theorem Alike.trans (h : u.Alike u') (h' : u'.Alike u'') : u.Alike u'' :=
  ⟨h'.partition_eq.trans h.partition_eq, fun k => (h.storage k).trans (h'.storage k)⟩

theorem alike_update {s : Storage} {k : Nat} (h : (u.storage k).Alike s) :
    u.Alike { u with storage := Function.update u.storage k s } := by
  refine ⟨rfl, fun j => ?_⟩
  change (u.storage j).Alike (Function.update u.storage k s j)
  by_cases hj : j = k
  · subst hj
    rw [Function.update_self]
    exact h
  · rw [Function.update_of_ne hj]
    exact .refl _

/-- All storage is for partitions of the disk. -/
structure On (u : Users) (g : Geometry) : Prop where
  /-- partitions are configured -/
  slots_ne : ∀ k, (u.storage k).slots ≠ []
  /-- the disk, if storage has one -/
  device_eq : ∀ k d, (u.storage k).device = some d → d = g

theorem On.alike {g : Geometry} (h : u.On g) (hu : u.Alike u') : u'.On g := by
  refine ⟨fun k hnil => h.slots_ne k ?_, fun k d hd => h.device_eq k d ?_⟩
  · have hspecs := (hu.storage k).specs_eq
    rw [hnil] at hspecs
    exact List.map_eq_nil_iff.1 hspecs.symm
  · rw [← (hu.storage k).device_eq]
    exact hd

variable {δ φ : Type} [BlockStore δ] [FilesystemDriver φ]

/-- A call, after faults were injected. -/
def call (u : Users) (w : Bench δ φ) (faults : List Fault) (c : UserCall) :
    (Outcome UserError Unit × Users) × Bench δ φ :=
  Bench.run (c.routine w.disk u) { w with faults := faults }

/-- Calls, one after the other, each after faults were injected. -/
def calls (u : Users) (w : Bench δ φ) : List (List Fault × UserCall) → Users × Bench δ φ
  | [] => (u, w)
  | (faults, c) :: rest => calls (u.call w faults c).1.2 (u.call w faults c).2 rest

/-- The call leaves everything as it is: it only reads, and is refused if it needs the table. -/
structure Spared (u : Users) (w : Bench δ φ) (faults : List Fault) (c : UserCall) : Prop where
  /-- it asks for nothing but to read -/
  passive : ∀ e ∈ Script.trace Bench.answer (c.routine w.disk u) { w with faults := faults },
    e.1.Passive
  /-- it is refused -/
  refused : c.NeedsTable u →
    (u.call w faults c).1.1.Refused (c.Oversized (BlockStore.geometry w.store))
  /-- the disk is as it was -/
  untouched : w.Untouched (u.call w faults c).2
  /-- so are the users -/
  alike : u.Alike (u.call w faults c).1.2

variable [LawfulBlockStore δ] {w w' : Bench δ φ} {g : Geometry}

open Bench BlockStore

/-- What a call does on a guarded disk. -/
theorem obeys_routine (h : w.Guarded g) (hu : u.On g) (c : UserCall) :
    w.Obeys Request.Passive (c.routine (.disk g) u) fun r w' => w.Alters ∅ [] w' ∧
      (c.NeedsTable u → r.1.Refused (c.Oversized g)) ∧ u.Alike r.2 := by
  cases c with
  | write c =>
    refine (h.obeys_call c).bind ?_
    rintro r w₁ ⟨h₁, hr⟩
    exact obeys_pure ⟨h₁, fun _ => (hr.bind _).mapFail _, .refl u⟩
  | locate k =>
    refine Obeys.bind (r := fun r w' => w.Alters ∅ [] w' ∧
      r.1.Refused (Buffer.maxLength < g.blockSize.toNat) ∧ r.2 = u.partition k) ?_ ?_
    · refine (h.obeys_locate (u.partition k).number).bind ?_
      rintro r w₁ ⟨h₁, hr⟩
      cases hr with
      | fail code => exact obeys_pure ⟨h₁, .fail code, rfl⟩
      | overflow o ho => exact obeys_pure ⟨h₁, .overflow o ho, rfl⟩
    · rintro ⟨ending, p⟩ w₁ ⟨h₁, hr, rfl⟩
      refine obeys_pure ⟨h₁, fun _ => hr.mapFail _, ?_, fun k => .refl (u.storage k)⟩
      exact Function.update_eq_self k u.partition
  | init k =>
    refine (h.obeys_init (hu.slots_ne k) (hu.device_eq k)).bind ?_
    rintro ⟨ending, s⟩ w₁ ⟨h₁, hs, hr⟩
    exact obeys_pure ⟨h₁, fun hdown => (hr hdown).mapFail _, alike_update hs⟩

/-- A guarded disk and its users are spared by every call. -/
theorem spared (h : w.Guarded g) (hu : u.On g) (faults : List Fault) (c : UserCall) :
    u.Spared w faults c := by
  obtain rfl := h.geometry_eq
  have hw : Bench.Guarded { w with faults := faults } (geometry w.store) := ⟨rfl, h.guards⟩
  obtain ⟨hpassive, ha, hr, halike⟩ := obeys_routine hw hu c
  exact ⟨hpassive, hr, ⟨ha.untouched.1, ha.untouched.2, ha.untouched.3⟩, halike⟩

/-- Calls leave a guarded disk and its users as they are. -/
theorem untouched_calls (h : w.Guarded g) (hu : u.On g) (calls : List (List Fault × UserCall)) :
    w.Untouched (u.calls w calls).2 ∧ u.Alike (u.calls w calls).1 := by
  induction calls generalizing u w with
  | nil => exact ⟨.refl w, .refl u⟩
  | cons x rest ih =>
    obtain ⟨faults, c⟩ := x
    have hc := spared h hu faults c
    -- the next call finds disk and users as this one did
    obtain ⟨huntouched, halike⟩ := ih (h.untouched hc.untouched) (hu.alike hc.alike)
    exact ⟨hc.untouched.trans huntouched, hc.alike.trans halike⟩

/-- Whatever the users of a disk call for, and whichever faults hit them, a disk that is guarded by
its table is left as it is. Every call only reads, and one that needs the table is refused; storage
that is down stays down. -/
theorem leaves_guarded_disk (w : Bench δ φ) (hguards : w.table.Guards) (u : Users)
    (hu : u.On (geometry w.store)) (calls : List (List Fault × UserCall)) :
    w.Untouched (u.calls w calls).2 ∧ u.Alike (u.calls w calls).1 ∧
      ∀ faults c, (u.calls w calls).1.Spared (u.calls w calls).2 faults c := by
  have hw : w.Guarded (geometry w.store) := ⟨rfl, fun _ => hguards⟩
  obtain ⟨huntouched, halike⟩ := untouched_calls hw hu calls
  exact ⟨huntouched, halike, spared (hw.untouched huntouched) (hu.alike halike)⟩

/-- Storage that has a filesystem from before does not come up on a disk whose second entry is
protective, and nothing of the disk changes, whatever is called for in between. -/
theorem leaves_guarded_disk_hybrid :
    let w : Bench SparseDisk Signature := .new (.prepared 4096
      ((Table.holding [⟨1, 10⟩]).put 1 (.covering Table.protectiveKind ⟨100, 100⟩ 199)) [1])
    let t : Slot := ⟨⟨1, 0, 8192, 0x83, "/fs"⟩, some ⟨1, some ⟨⟨1, 10⟩, by decide⟩⟩, true⟩
    let s : Storage := ⟨some ⟨512, 4096⟩, [t], true, true, 0, false⟩
    let u : Users := ⟨fun _ => .new 1, fun _ => s⟩
    w.table.Guards ∧ u.On ⟨512, 4096⟩ ∧ ∀ calls, w.Untouched (u.calls w calls).2 ∧
      ∀ faults, ∃ err,
        ((u.calls w calls).1.call (u.calls w calls).2 faults (.init 0)).1.1 = .fail err := by
  intro w t s u
  have hguards : w.table.Guards := by
    rw [Bench.table_prepared rfl]
    refine ⟨?_, 1, ?_⟩
    · rw [Table.hasSignature_put]
      exact (Table.represents_holding [⟨1, 10⟩] (by decide)).1
    · rw [Table.record_put_self]
      rfl
  have hu : u.On ⟨512, 4096⟩ :=
    ⟨fun _ => List.cons_ne_nil _ _, fun _ _ hd => (Option.some.inj hd).symm⟩
  refine ⟨hguards, hu, fun calls => ?_⟩
  obtain ⟨huntouched, halike, hspared⟩ := leaves_guarded_disk w hguards u hu calls
  refine ⟨huntouched, fun faults => ?_⟩
  have hrefused := (hspared faults (.init 0)).refused (halike.storage 0).isUp_eq
  rw [huntouched.geometry_eq] at hrefused
  exact hrefused.exists_fail (show ¬ (Geometry.size? ⟨512, 4096⟩ = none ∨ _) by decide)

end Users

end DiskBringup
