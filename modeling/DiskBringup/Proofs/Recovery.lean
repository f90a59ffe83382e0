import Mathlib.Data.List.Perm.Basic
import DiskBringup.Bench.SparseDisk
import DiskBringup.Proofs.BringUp
import DiskBringup.Proofs.Placement
import DiskBringup.Proofs.SignatureDriver

/-!
# Recovery from failed attempts

Storage that may write its partitions to a blank disk comes up as soon as the faults are gone,
whatever earlier attempts have left behind (`Storage.recovers`). What every attempt keeps is
`Bench.Underway`: the table holds some entries of the plan and no others, what is located lies at
entries of the table, and each filesystem was made once. An attempt on a slot keeps it
(`Underway.bringUp`), and so does writing an entry of the plan before that (`Underway.create`); a
whole call keeps it by the rules for bring-up (`Storage.Recovering.init`).
-/

namespace DiskBringup

/-! ## Entries of a plan -/

namespace Allotment

variable {m plan : Allotment} {g : Geometry}

/-- Every entry is one of the plan. -/
def Within (m plan : Allotment) : Prop := ∀ i a, m i = some a → plan i = some a

theorem Within.ordinary (h : m.Within plan) (hplan : plan.Ordinary) : m.Ordinary :=
  fun i a hi => hplan i a (h i a hi)

theorem Within.set {i : Index} {a : Grant} (h : m.Within plan) (hi : plan i = some a) :
    (m.set i.number a).Within plan := by
  intro j b hj
  rcases set_eq_some_iff.1 hj with ⟨hji, rfl⟩ | ⟨-, hj⟩
  · obtain rfl := Index.number_inj.1 hji
    exact hi
  · exact h j b hj

/-- Entries of the plan stay when another entry of the plan is given. -/
theorem Within.le_set {i : Index} {a : Grant} (h : m.Within plan) (hi : plan i = some a) :
    m.Within (m.set i.number a) := by
  intro j b hj
  by_cases hji : j.number = i.number
  · obtain rfl := Index.number_inj.1 hji
    rw [set_self, ← hi, ← h j b hj]
  · rw [set_of_ne _ _ hji]
    exact hj

/-- The plan can be written to a disk, and a filesystem laid down on the blocks of each entry. -/
structure Feasible (plan : Allotment) (g : Geometry) : Prop where
  /-- the disk can hold a table -/
  carries : g.Carries
  /-- a table can hold the types -/
  ordinary : plan.Ordinary
  /-- the blocks lie on the disk, and none is given twice -/
  tidy : plan.Tidy g
  /-- an entry can hold the blocks -/
  recordable : ∀ i a, plan i = some a → a.extent.Recordable
  /-- the blocks are enough for a filesystem -/
  two_le : ∀ i a, plan i = some a → 2 ≤ a.extent.blocks.toNat

/-- Entries of the plan are not in the way of another one. -/
theorem Feasible.not_meets (hplan : plan.Feasible g) (h : m.Within plan) {i : Index} {a : Grant}
    (hi : plan i = some a) (j : Index) : ¬ m.Meets i.number a.extent j := by
  rintro ⟨hne, b, hj, hshare⟩
  exact hplan.tidy.disjoint j i b a (h j b hj) hi (mt Index.number_inj.2 hne) hshare

/-- An entry of the plan can be written beside others. -/
theorem Feasible.exists_rewritten (hplan : plan.Feasible g) (h : m.Within plan) {i : Index}
    {a : Grant} (hi : plan i = some a) {t : Table} (ht : t.Represents m) :
    ∃ t', t.rewritten i.number a.kind a.extent = .ok t' := by
  have hplace := hplan.tidy.placeable i a hi
  have hrec := hplan.recordable i a hi
  have haddr : a.extent.Addressable := Nat.lt_of_le_of_lt hrec.bound_le (by decide)
  have hedited := ht.edited_rewritten (h.ordinary hplan.ordinary) i.number a.kind haddr
    hplace.blocks_ne
  rcases hedited.of_fits i.number_mem hrec with ⟨ht', -⟩ | ⟨k, -, hmeets, -⟩
  · exact ht'
  · exact absurd hmeets (hplan.not_meets h hi k)

end Allotment

/-! ## Slots on their way -/

namespace Slot

/-- What is located lies at an entry whose type a look-up knows. -/
def Follows (s : Slot) (m : Allotment) : Prop :=
  ∀ e, s.extent = some e → ∃ i a, s.number = Index.number i ∧ m i = some a ∧ a.extent = e ∧
    a.kind ∈ Table.knownKinds

theorem Follows.mono {s : Slot} {m m' : Allotment} (h : s.Follows m) (hle : m.Within m') :
    s.Follows m' := by
  intro e he
  obtain ⟨i, a, hi, hm, hrest⟩ := h e he
  exact ⟨i, a, hi, hle i a hm, hrest⟩

/-- The partition is located and its filesystem exists. -/
def Settled (s : Slot) : Prop := s.hasFilesystem = true ∧ ∃ e, s.extent = some e

/-- The filesystems of slots that exist, by their names. -/
def made (slots : List Slot) : List String :=
  (slots.filter hasFilesystem).map (·.spec.mountName)

/-- A slot whose filesystem is made adds its name. -/
theorem made_perm {before after : List Slot} {s s' : Slot} {created : List String}
    (h : created.Perm (made (before ++ s :: after))) (hspec : s'.spec = s.spec)
    (hs' : s'.hasFilesystem = true) :
    (created ++ s.makes).Perm (made (before ++ s' :: after)) := by
  unfold made makes at *
  simp only [List.filter_append, List.filter_cons, List.map_append, hs', if_true, List.map_cons,
    hspec] at h ⊢
  split at h
  · rename_i hs
    rw [if_pos hs, List.append_nil]
    exact h
  · rename_i hs
    rw [if_neg hs]
    exact (h.append_right _).trans ((List.perm_append_singleton _ _).trans List.perm_middle.symm)

end Slot

namespace Bench

variable {δ : Type} [BlockStore δ] {w w' : Bench δ Signature} {g : Geometry} {c : Config}
  {plan : Allotment} {calm : Prop} {slots : List Slot}

open BlockStore

/-- Where attempts to bring the configured partitions up may have led, with none but `plan` to be
written. If it is `calm`, no fault is pending. -/
structure Underway (w : Bench δ Signature) (g : Geometry) (c : Config) (plan : Allotment)
    (calm : Prop) (slots : List Slot) : Prop where
  /-- the disk has its shape -/
  geometry_eq : geometry w.store = g
  /-- no fault is pending -/
  quiet : calm → w.Quiet
  /-- there is a slot for every configured partition -/
  specs_eq : slots.map Slot.spec = c.partitions
  /-- the table holds entries of the plan, among them those at which partitions are located -/
  recorded : ∃ m, w.table.Represents m ∧ m.Within plan ∧ ∀ s ∈ slots, s.Follows m
  /-- the filesystems were made once each -/
  created_perm : w.created.Perm (Slot.made slots)

variable {before after : List Slot} {s s' : Slot}

/-- A step on one slot that leaves the table alone. -/
theorem Underway.step (h : w.Underway g c plan calm (before ++ s :: after))
    (hg : geometry w'.store = geometry w.store) (hq : w.Quiet → w'.Quiet)
    (htable : w'.table = w.table) (hspec : s'.spec = s.spec)
    (hfollows : ∀ m, w.table.Represents m → m.Within plan → s.Follows m → s'.Follows m)
    (hcreated : w'.created.Perm (Slot.made (before ++ s' :: after))) :
    w'.Underway g c plan calm (before ++ s' :: after) := by
  obtain ⟨m, hrep, hwithin, hall⟩ := h.recorded
  have hrep' : w'.table.Represents m := by
    rw [htable]
    exact hrep
  refine ⟨hg.trans h.geometry_eq, fun hcalm => hq (h.quiet hcalm), ?_, ⟨m, hrep', hwithin, ?_⟩,
    hcreated⟩
  · rw [← h.specs_eq, List.map_append, List.map_append, List.map_cons, List.map_cons, hspec]
  · rw [List.forall_mem_append, List.forall_mem_cons] at hall ⊢
    exact ⟨hall.1, hfollows m hrep hwithin hall.2.1, hall.2.2⟩

/-- Altering nothing on the disk keeps the slots on their way. -/
theorem Underway.alters (h : w.Underway g c plan calm slots) (hc : g.Carries)
    (ha : w.Alters ∅ [] w') : w'.Underway g c plan calm slots := by
  obtain ⟨m, hrep, hwithin, hall⟩ := h.recorded
  have htable : w'.table = w.table := ha.table_eq (h.geometry_eq ▸ hc.sectorSize_le)
    (h.geometry_eq ▸ hc.pos) (Set.notMem_empty 0)
  have hrep' : w'.table.Represents m := by
    rw [htable]
    exact hrep
  refine ⟨ha.geometry_eq.trans h.geometry_eq, fun hcalm => ha.quiet (h.quiet hcalm), h.specs_eq,
    ⟨m, hrep', hwithin, hall⟩, ?_⟩
  rw [ha.created_eq, List.append_nil]
  exact h.created_perm

variable [LawfulBlockStore δ]

/-- What is said of the answer to an attempt on a slot: it is final without faults, if the slot's
entry is there to be found. -/
structure Endeavour (w : Bench δ Signature) (calm : Prop) (s : Slot)
    (r : Outcome StorageError Unit × Slot) : Prop where
  /-- without faults there is no overflow -/
  ends : calm → r.1 = .ok () ∨ ∃ err, r.1 = .fail err
  /-- without faults a partition that can be found comes up -/
  comes_up : calm → (∃ e, (w.table.find s.number).value = .ok e) → r.1 = .ok ()
  /-- a success has settled the slot -/
  settles : r.1 = .ok () → r.2.Settled

omit [LawfulBlockStore δ] in
/-- What a look-up finds is an entry of the plan. -/
theorem Underway.exists_plan_of_find (h : w.Underway g c plan calm slots) (hplan : plan.Feasible g)
    {number : UInt8} {e : Entry} (he : (w.table.find number).value = .ok e) :
    ∃ i, number = Index.number i ∧ plan i = some e.grant := by
  obtain ⟨m, hrep, hwithin, -⟩ := h.recorded
  obtain ⟨i, hi, -, hmi, -⟩ := (hrep.find_eq_ok_iff (hwithin.ordinary hplan.ordinary)).1 he
  exact ⟨i, hi, hwithin i _ hmi⟩

omit [LawfulBlockStore δ] in
/-- A partition is located on blocks that are enough for a filesystem and leave out block 0, so
that the filesystem cannot reach the table. -/
theorem Underway.of_locates (h : w.Underway g c plan calm slots) (hplan : plan.Feasible g)
    {number : UInt8} {window : Window} {e : Entry} (hl : w.Locates g number window e) :
    window.Spans g 2 ∧ 0 ∉ {b | b ∈ window.extent} := by
  obtain ⟨i, -, hi⟩ := h.exists_plan_of_find hplan hl.find_eq
  have hextent : window.extent = e.grant.extent := hl.extent_eq
  have hplace := hplan.tidy.placeable i _ hi
  have htwo := hplan.two_le i _ hi
  rw [← hextent] at hplace htwo
  refine ⟨⟨hplan.carries.le_maxLength, hplace.bound_le, htwo⟩, ?_⟩
  rintro ⟨hle, -⟩
  exact hplace.start_ne (UInt64.toNat.inj (Nat.le_zero.1 hle))

/-- An attempt alters the blocks that it locates at most, and without faults it ends well on
them. -/
theorem Underway.attempt (hplan : plan.Feasible g) (h : w.Underway g c plan calm slots)
    (s : Slot) :
    w.Ensures (s.bringUp (.disk g)) (Attempt g s w fun window w₁ r w' =>
      w₁.Alters {b | b ∈ window.extent} s.makes w' ∧ (calm → r = .ok ())) := by
  refine obeys_bringUp h.geometry_eq (fun _ _ => trivial) ?_
  intro window e w₁ hl h₁
  refine (ensures_populate (Volume.stays_window g window) s w₁).and ?_
  rw [ensures_iff]
  intro hcalm
  exact ensures_iff.1 (ensures_populate_of_quiet (h₁.quiet (h.quiet hcalm))
    (h₁.geometry_eq.trans h.geometry_eq) (h.of_locates hplan hl).1 s)

omit [LawfulBlockStore δ] in
/-- A slot that is missed is located where it was or nowhere, and the disk is as it was. -/
theorem Underway.missed (hplan : plan.Feasible g)
    (h : w.Underway g c plan calm (before ++ s :: after)) {partition : Option Partition}
    (hpartition : partition = s.partition ∨ partition = some (.new s.number))
    (ha : w.Alters ∅ [] w') :
    w'.Underway g c plan calm (before ++ { s with partition := partition } :: after) := by
  have htable : w'.table = w.table := ha.table_eq (h.geometry_eq ▸ hplan.carries.sectorSize_le)
    (h.geometry_eq ▸ hplan.carries.pos) (Set.notMem_empty 0)
  refine h.step ha.geometry_eq ha.quiet htable rfl ?_ ?_
  · rintro m - - hfollows e he
    rcases hpartition with rfl | rfl
    · exact hfollows e he
    · cases he
  · have hsame : Slot.made (before ++ { s with partition := partition } :: after) =
        Slot.made (before ++ s :: after) := by
      simp [Slot.made, List.filter_append, List.filter_cons, apply_ite (List.map _)]
    rw [ha.created_eq, List.append_nil, hsame]
    exact h.created_perm

omit [LawfulBlockStore δ] in
/-- A slot that is located lies at an entry of the table, which is as it was. -/
theorem Underway.located (hplan : plan.Feasible g)
    (h : w.Underway g c plan calm (before ++ s :: after)) {window : Window} {e : Entry}
    (hl : w.Locates g s.number window e) (ha : w.Alters {b | b ∈ window.extent} s.makes w') :
    w'.Underway g c plan calm (before ++
      { s with partition := some ⟨s.number, some window⟩, hasFilesystem := true } :: after) := by
  have htable : w'.table = w.table := ha.table_eq (h.geometry_eq ▸ hplan.carries.sectorSize_le)
    (h.geometry_eq ▸ hplan.carries.pos) (h.of_locates hplan hl).2
  refine h.step ha.geometry_eq ha.quiet htable rfl ?_ ?_
  · intro m hrep hwithin _ x hx
    obtain rfl : window.extent = x := Option.some.inj hx
    obtain ⟨i, hi, -, hmi, hkind⟩ :=
      (hrep.find_eq_ok_iff (hwithin.ordinary hplan.ordinary)).1 hl.find_eq
    exact ⟨i, _, hi, hmi, hl.extent_eq.symm, hkind⟩
  · rw [ha.created_eq]
    exact Slot.made_perm h.created_perm rfl rfl

/-- An attempt keeps the slots on their way. -/
theorem Underway.bringUp (hplan : plan.Feasible g)
    (h : w.Underway g c plan calm (before ++ s :: after)) :
    w.Ensures (s.bringUp (.disk g)) fun r w' =>
      w'.Underway g c plan calm (before ++ r.2 :: after) ∧ Endeavour w calm s r := by
  refine (h.attempt hplan s).imp ?_
  rintro r w' hend
  cases hend with
  | missed partition hr hpartition ha hquiet =>
    refine ⟨h.missed hplan hpartition ha,
      ⟨fun hcalm => .inr (hquiet (h.quiet hcalm) hplan.carries).1, ?_, fun hok => absurd hok hr⟩⟩
    rintro hcalm ⟨e, he⟩
    obtain ⟨i, -, hi⟩ := h.exists_plan_of_find hplan he
    have hle := (hplan.tidy.placeable i _ hi).bound_le
    exact absurd hle ((hquiet (h.quiet hcalm) hplan.carries).2 e he)
  | located hl h₁ hpopulated =>
    obtain ⟨h₂, hok⟩ := hpopulated
    exact ⟨h.located hplan hl (h₁.of_empty.trans h₂),
      ⟨fun hcalm => .inl (hok hcalm), fun hcalm _ => hok hcalm, fun _ => ⟨rfl, _, rfl⟩⟩⟩

omit [LawfulBlockStore δ] in
/-- Writing an entry of the plan keeps the slots on their way. -/
theorem Underway.put (h : w.Underway g c plan calm slots) (hplan : plan.Feasible g) {i : Index}
    {a : Grant} (hi : plan i = some a)
    (htable : w.table.rewritten i.number a.kind a.extent = .ok w'.table)
    (ha : w.Alters {0} [] w') :
    w'.Underway g c plan calm slots ∧
      (a.kind ∈ Table.knownKinds → ∃ e, (w'.table.find i.number).value = .ok e) := by
  obtain ⟨m, hrep, hwithin, hall⟩ := h.recorded
  have hm := hwithin.ordinary hplan.ordinary
  have haddr : a.extent.Addressable :=
    Nat.lt_of_le_of_lt (hplan.recordable i a hi).bound_le (by decide)
  have hedited := hrep.edited_rewritten hm i.number a.kind haddr
    (hplan.tidy.placeable i a hi).blocks_ne
  rw [htable] at hedited
  obtain ⟨-, -, -, hset⟩ := hedited.of_ok
  refine ⟨⟨ha.geometry_eq.trans h.geometry_eq, fun hcalm => ha.quiet (h.quiet hcalm), h.specs_eq,
    ⟨_, hset, hwithin.set hi, fun s hs => (hall s hs).mono (hwithin.le_set hi)⟩, ?_⟩, ?_⟩
  · rw [ha.created_eq, List.append_nil]
    exact h.created_perm
  · intro hkind
    obtain ⟨e, he, -⟩ := hset.exists_find (hm.set (hplan.ordinary i a hi))
      (m.set_self i a) hkind
    exact ⟨e, he⟩

/-- Creating a partition of the plan keeps the slots on their way. Without faults it succeeds, if a
look-up knows the partition's type. -/
theorem Underway.create (hplan : plan.Feasible g) {extent : Extent}
    (hs : ∃ i, s.number = Index.number i ∧ plan i = some ⟨s.spec.kind, extent⟩)
    (h : w.Underway g c plan calm (before ++ s :: after)) :
    w.Ensures (s.create (.disk g) extent) fun r w' =>
      w'.Underway g c plan calm (before ++ r.2 :: after) ∧
        (calm → s.spec.kind ∈ Table.knownKinds → r.1 = .ok ()) ∧
        (r.1 = .ok () → r.2.Settled) := by
  obtain ⟨i, hnumber, hi⟩ := hs
  refine ensures_create h.geometry_eq ?_ ?_
  · intro r w' hr ha hquiet
    refine ⟨h.alters hplan.carries ha, fun hcalm => ?_, fun hok => absurd hok hr⟩
    -- the table holds entries of the plan only, and none of these is in the way
    obtain ⟨m, hrep, hwithin, -⟩ := h.recorded
    obtain ⟨t, ht⟩ := hplan.exists_rewritten hwithin hi hrep
    rw [← hnumber] at ht
    exact absurd ht (hquiet (h.quiet hcalm) hplan.carries (hplan.tidy.placeable i _ hi) t)
  · intro w₁ _ _ htable ha
    obtain ⟨h₁, hfind⟩ := h.put hplan hi (hnumber ▸ htable) ha
    refine (h₁.bringUp hplan).imp ?_
    rintro r w' ⟨hkeep, hend⟩
    exact ⟨hkeep, fun hcalm hkind => hend.comes_up hcalm (hnumber ▸ hfind hkind), hend.settles⟩

omit [LawfulBlockStore δ] in
theorem Underway.spec_mem (h : w.Underway g c plan calm slots) (hs : s ∈ slots) :
    s.spec ∈ c.partitions := by
  rw [← h.specs_eq]
  exact List.mem_map_of_mem hs

/-- Bringing all slots up keeps them on their way. -/
theorem Underway.bringUpAll (hplan : plan.Feasible g) (h : w.Underway g c plan calm slots) :
    w.Ensures (Slot.bringUpAll (.disk g) slots) fun r w' => w'.Underway g c plan calm r.2 ∧
      (calm → r.1 = .ok () ∨ ∃ x, r.1 = .fail x) ∧ (r.1 = .ok () → ∀ s ∈ r.2, s.Settled) := by
  refine obeys_bringUpAll (fun slots w => w.Underway g c plan calm slots)
    (fun r => calm → r = .ok () ∨ ∃ x, r = .fail x) (fun _ => True) Slot.Settled
    (fun _ => .inl rfl) ?_ (fun _ _ => trivial) h
  intro before s after w _ h
  refine (h.bringUp hplan).imp ?_
  rintro ⟨ending, s'⟩ w' ⟨hkeep, hend⟩
  refine ⟨hkeep, fun hcalm => ?_, hend.settles⟩
  rcases hend.ends hcalm with hok | ⟨err, hfail⟩
  · exact .inl (congrArg (Outcome.mapFail (s.number, ·)) hok)
  · exact .inr ⟨_, congrArg (Outcome.mapFail (s.number, ·)) hfail⟩

/-- Creating all partitions of the plan keeps the slots on their way. -/
theorem Underway.createAll (hplan : plan.Feasible g) {extents : List Extent}
    (hlength : slots.length = extents.length)
    (hfresh : ∀ x ∈ slots.zip extents,
      ∃ i, x.1.number = Index.number i ∧ plan i = some ⟨x.1.spec.kind, x.2⟩)
    (h : w.Underway g c plan calm slots) :
    w.Ensures (Slot.createAll (.disk g) slots extents) fun r w' =>
      w'.Underway g c plan calm r.2 ∧
        (calm → (∀ p ∈ c.partitions, p.kind ∈ Table.knownKinds) → r.1 = .ok ()) ∧
        (r.1 = .ok () → ∀ s ∈ r.2, s.Settled) := by
  have hinv : w.Underway g c plan calm ((slots.zip extents).map Prod.fst) := by
    rw [List.map_fst_zip hlength.le]
    exact h
  refine (ensures_createAll (fun pairs w => w.Underway g c plan calm (pairs.map Prod.fst))
    (fun r => calm → (∀ p ∈ c.partitions, p.kind ∈ Table.knownKinds) → r = .ok ()) _
    (fun x => x.1.Settled) (fun _ _ => rfl) ?_ hfresh hinv).imp ?_
  · rintro before x after w hs h
    rw [List.map_append, List.map_cons] at h
    refine (h.create hplan hs).imp ?_
    rintro r w' ⟨hkeep, hok, hsettles⟩
    refine ⟨?_, fun hcalm hknown => hok hcalm (hknown _ (h.spec_mem ?_)), hsettles⟩
    · rw [List.map_append, List.map_cons]
      exact hkeep
    · exact List.mem_append_right _ List.mem_cons_self
  · rintro ⟨ending, _⟩ w' ⟨after, rfl, hkeep, hok, hsettled⟩
    exact ⟨hkeep, hok, fun h => List.forall_mem_map.2 (hsettled h)⟩

end Bench

/-! ## Calls -/

/-- A layout of partitions that storage may write to a blank disk of a shape. -/
structure Config.Realisable (c : Config) (g : Geometry) (extents : List Extent) : Prop where
  /-- there are partitions -/
  partitions_ne : c.partitions ≠ []
  /-- missing partitions may be written -/
  auto : c.autoPartition = true
  /-- a partition table can hold the types -/
  kinds : ∀ p ∈ c.partitions, p.kind ≠ 0 ∧ p.kind ≠ Table.protectiveKind
  /-- the layout can be placed on the disk -/
  layout_eq : ∃ capacity, g.size? = some capacity ∧
    (c.layout capacity g.blockSize).value = .ok extents
  /-- the blocks are enough for filesystems -/
  two_le : ∀ e ∈ extents, 2 ≤ e.blocks.toNat

namespace Config.Realisable

variable {c : Config} {g : Geometry} {extents : List Extent}

theorem placed (h : c.Realisable g extents) : c.Placed g extents := by
  obtain ⟨capacity, hsize, hlayout⟩ := h.layout_eq
  exact placed_of_layout hlayout hsize

/-- The plan of a realisable layout is feasible. -/
theorem feasible (h : c.Realisable g extents) : (c.planned extents).Feasible g := by
  have hplaced := h.placed
  have hmem : ∀ i a, c.planned extents i = some a →
      ∃ p, p ∈ c.partitions ∧ a.extent ∈ extents ∧ a.kind = p.kind := by
    intro i a hi
    obtain ⟨x, hx, heq⟩ := List.mem_map.1 (hplaced.planned_eq_some_iff.1 hi)
    obtain rfl := (Prod.mk.inj heq).2
    exact ⟨x.1, (List.of_mem_zip hx).1, (List.of_mem_zip hx).2, rfl⟩
  have htwo : ∀ i a, c.planned extents i = some a → 2 ≤ a.extent.blocks.toNat := by
    intro i a hi
    obtain ⟨p, -, he, -⟩ := hmem i a hi
    exact h.two_le _ he
  -- the blocks of a partition and block 0 are three blocks of the disk
  have hthree : 3 ≤ g.numBlocks.toNat := by
    obtain ⟨p, hp⟩ := List.exists_mem_of_ne_nil _ h.partitions_ne
    obtain ⟨e, hx⟩ := hplaced.exists_extent hp
    have hplace : e.Placeable g := hplaced.placeable _ hx
    have htwo := h.two_le _ (List.of_mem_zip hx).2
    have hstart := Word.toNat_pos hplace.start_ne
    have hle := hplace.bound_le
    unfold Extent.bound at hle
    omega
  have hbytes : g.numBlocks.toNat * g.blockSize.toNat < 2 ^ 64 := by
    obtain ⟨capacity, hsize, -⟩ := h.layout_eq
    rw [Word.mul?_eq_some_iff.1 hsize]
    exact UInt64.toNat_lt capacity
  have hbuffer : 3 * g.blockSize.toNat < 2 ^ 64 :=
    Nat.lt_of_le_of_lt (Nat.mul_le_mul_right _ hthree) hbytes
  refine ⟨⟨hplaced.sectorSize_le, ?_, ?_⟩, ?_, hplaced.tidy_planned,
    fun i a hi => hplaced.recordable_planned hi, htwo⟩
  · rw [Buffer.maxLength]
    omega
  · exact UInt64.lt_iff_toNat_lt.2 (Nat.lt_of_lt_of_le (by decide) hthree)
  · intro i a hi
    obtain ⟨p, hp, -, hkind⟩ := hmem i a hi
    have hk := h.kinds p hp
    rw [← hkind] at hk
    exact ⟨hk.1, hk.2, (hplaced.tidy_planned.placeable i a hi).blocks_ne⟩

end Config.Realisable

namespace Storage

variable {δ : Type} [BlockStore δ] {w : Bench δ Signature} {g : Geometry} {c : Config}
  {extents : List Extent} {calm : Prop} {s : Storage}

/-- Storage whose slots are on their way, or that is up. -/
structure Recovering (s : Storage) (w : Bench δ Signature) (g : Geometry) (c : Config)
    (extents : List Extent) (calm : Prop) : Prop where
  /-- there is a disk -/
  device_eq : s.device = some g
  /-- missing partitions may be written -/
  auto : s.autoPartition = c.autoPartition
  /-- filesystems can be made -/
  factory : s.hasFactory = true
  /-- the slots are on their way -/
  underway : w.Underway g c (c.planned extents) calm s.slots
  /-- storage is up only with every slot settled -/
  settled : s.isUp = true → ∀ t ∈ s.slots, t.Settled

/-- What a call leaves: storage that recovers. Without faults the call has succeeded, if a look-up
knows the types of the partitions. -/
structure Attended (g : Geometry) (c : Config) (extents : List Extent) (calm : Prop)
    (r : Outcome StorageError Unit × Storage) (w : Bench δ Signature) : Prop where
  /-- the storage -/
  recovering : r.2.Recovering w g c extents calm
  /-- without faults the call succeeds -/
  comes_up : calm → (∀ p ∈ c.partitions, p.kind ∈ Table.knownKinds) → r.1 = .ok ()
  /-- a success is noted -/
  isUp_eq : r.1 = .ok () → r.2.isUp = true

/-- Every way through a bring-up of slots finishes as it should. -/
theorem Recovering.finishes {capacity : UInt64} {slots : List Slot}
    {ending : Outcome StorageError Unit} (h : s.Recovering w g c extents calm)
    (hplan : (c.planned extents).Feasible g) (hdown : s.isUp = false) {w' : Bench δ Signature}
    (hunder : w'.Underway g c (c.planned extents) calm slots)
    (hcomes : calm → (∀ p ∈ c.partitions, p.kind ∈ Table.knownKinds) → ending = .ok ())
    (hsettled : ending = .ok () → ∀ t ∈ slots, t.Settled) :
    Bench.Finishes (Attended g c extents calm)
      (ending, { s with capacity := capacity, slots := slots }) w' := by
  refine ⟨fun hne => ⟨⟨h.device_eq, h.auto, h.factory, hunder, ?_⟩, hcomes,
      fun hok => absurd hok hne⟩,
    fun hok w'' ha => ⟨⟨h.device_eq, h.auto, h.factory, hunder.alters hplan.carries ha, ?_⟩,
      fun _ _ => rfl, fun _ => rfl⟩⟩
  · intro hup
    rw [hdown] at hup
    cases hup
  · exact fun _ => hsettled hok

theorem Recovering.slots_ne (hc : c.Realisable g extents) (h : s.Recovering w g c extents calm) :
    s.slots ≠ [] := by
  intro hnil
  have hspecs := h.underway.specs_eq
  rw [hnil] at hspecs
  exact hc.partitions_ne hspecs.symm

variable [LawfulBlockStore δ]

/-- The partitions are created where the layout has placed them, also where slots were visited
before. -/
theorem Recovering.createPartitions (hc : c.Realisable g extents)
    (h : s.Recovering w g c extents calm) (hdown : s.isUp = false) {capacity : UInt64}
    (hlayout : (c.layout capacity g.blockSize).value = .ok extents) {slots : List Slot}
    {w' : Bench δ Signature} (hunder : w'.Underway g c (c.planned extents) calm slots) :
    w'.Ensures (Storage.createPartitions { s with capacity := capacity, slots := slots } (.disk g))
      (Bench.Finishes (Attended g c extents calm)) := by
  have hplan := hc.feasible
  have hplaced := hc.placed
  -- the slots may have changed, but not what they are for: the layout is placed as it was before
  have hconfig : Storage.config { s with capacity := capacity, slots := slots } = c := by
    rw [config, hunder.specs_eq, h.auto]
  refine Bench.obeys_createPartitions (fun _ _ => trivial) ?_ ?_
  · intro err w₁ hrefused _
    rw [hconfig] at hrefused
    rw [show (c.layout capacity g.blockSize).value = .error err from hrefused] at hlayout
    cases hlayout
  · intro extents' w₁ hlayout' h₁
    rw [hconfig] at hlayout'
    obtain rfl : extents' = extents := Except.ok.inj (hlayout'.symm.trans hlayout)
    have hunder₁ := hunder.alters hplan.carries h₁
    have hlength : slots.length = extents'.length := by
      rw [← hplaced.length_eq, ← hunder.specs_eq, List.length_map]
    refine (hunder₁.createAll hplan hlength ?_).imp ?_
    · rintro ⟨t, e⟩ hx
      refine hplaced.planned_of_mem ?_
      rw [← hunder.specs_eq, List.zip_map_left]
      exact List.mem_map_of_mem hx
    · rintro ⟨ending, slots'⟩ w₂ ⟨hunder₂, hcomes, hsettled⟩
      exact h.finishes hplan hdown hunder₂ hcomes hsettled

/-- A call attends to storage that recovers, whatever faults hit it. -/
theorem Recovering.init (hc : c.Realisable g extents) (h : s.Recovering w g c extents calm) :
    w.Ensures s.init (Attended g c extents calm) := by
  have hplan := hc.feasible
  obtain ⟨capacity, hsize, hlayout⟩ := hc.layout_eq
  have hstays : ∀ w', w.Alters ∅ [] w' → s.Recovering w' g c extents calm := fun w' ha =>
    ⟨h.device_eq, h.auto, h.factory, h.underway.alters hplan.carries ha, h.settled⟩
  refine Bench.obeys_init (fun _ _ => trivial) h.device_eq ?_ ?_
  · exact fun w' hup ha => ⟨hstays w' ha, fun _ _ => rfl, fun _ => hup⟩
  intro hdown
  refine Bench.obeys_initOn (fun _ _ => trivial) ?_ ?_
  · intro r w' hr ha hquiet
    refine ⟨hstays w' ha, fun hcalm => ?_, fun hok => absurd hok (hr.ne_ok ())⟩
    rw [hquiet (h.underway.quiet hcalm)] at hsize
    cases hsize
  intro capacity' w₁ hsize' h₁
  obtain rfl : capacity' = capacity := Option.some.inj (hsize'.symm.trans hsize)
  have hslots : s.slots ≠ [] := h.slots_ne hc
  rw [bringUp_of_slots (s := { s with capacity := capacity' }) hslots]
  refine Bench.obeys_bringUpPartitions h.factory (fun _ _ => trivial)
    ((h.underway.alters hplan.carries h₁).bringUpAll hplan) ?_ ?_ ?_ ?_
  · rintro slots w₂ ⟨hunder, -, hsettled⟩
    exact h.finishes hplan hdown hunder (fun _ _ => rfl) fun _ => hsettled rfl
  · -- a bring-up of slots overflows only under faults
    rintro o slots w₂ ⟨hunder, hends, -⟩
    refine h.finishes hplan hdown hunder (fun hcalm _ => ?_) (fun hok => (nomatch hok))
    rcases hends hcalm with hok | ⟨x, hfail⟩
    · cases hok
    · cases hfail
  · rintro x slots w₂ w₃ - - hauto
    rw [show s.autoPartition = true from h.auto.trans hc.auto] at hauto
    cases hauto
  · rintro x slots w₂ w₃ ⟨hunder, -, -⟩ h₃ -
    exact h.createPartitions hc hdown hlayout (hunder.alters hplan.carries h₃)

/-! ## Calls under faults -/

omit [LawfulBlockStore δ] in
/-- Injecting faults changes nothing else. -/
theorem Recovering.inject {calm' : Prop} (h : s.Recovering w g c extents calm)
    {faults : List Fault} (hfaults : calm' → ∀ f ∈ faults, f.Spent) :
    s.Recovering { w with faults := faults } g c extents calm' := by
  obtain ⟨hdevice, hauto, hfactory, hunder, hsettled⟩ := h
  exact ⟨hdevice, hauto, hfactory,
    ⟨hunder.geometry_eq, hfaults, hunder.specs_eq, hunder.recorded, hunder.created_perm⟩, hsettled⟩

theorem Recovering.attempts (hc : c.Realisable g extents) (calls : List (List Fault))
    (h : s.Recovering w g c extents False) :
    (s.attempts w calls).1.Recovering (s.attempts w calls).2 g c extents False := by
  -- faults are pending between calls, so none of them starts calm
  induction calls generalizing s w with
  | nil => exact h
  | cons faults rest ih =>
    have hinject : s.Recovering { w with faults := faults } g c extents False :=
      h.inject False.elim
    have hinit := Bench.ensures_iff.1 (hinject.init hc)
    exact ih hinit.recovering

omit [LawfulBlockStore δ] in
/-- New storage has everything before it. -/
theorem recovering_new (hblank : w.Blank) (hmade : w.created = [])
    (hc : c.Realisable (BlockStore.geometry w.store) extents)
    (hnew : (Storage.new (some (BlockStore.geometry w.store)) c true).value = .ok s) :
    s.Recovering w (BlockStore.geometry w.store) c extents False := by
  obtain ⟨-, rfl⟩ := new_eq_ok_iff.1 hnew
  have hcarries := hc.feasible.carries
  refine ⟨rfl, rfl, rfl, ⟨rfl, False.elim, ?_, ⟨Allotment.empty, ?_, ?_, ?_⟩, ?_⟩, ?_⟩
  · rw [List.map_map]
    exact List.map_id _
  · exact hblank.represents hcarries.sectorSize_le hcarries.pos
  · exact fun i a hi => (nomatch hi)
  · -- a new slot is not located
    intro t ht e he
    obtain ⟨p, -, rfl⟩ := List.mem_map.1 ht
    cases he
  · have hnone : (c.partitions.map Slot.new).filter Slot.hasFilesystem = [] := by
      rw [List.filter_eq_nil_iff]
      intro t ht
      obtain ⟨p, -, rfl⟩ := List.mem_map.1 ht
      exact Bool.false_ne_true
    rw [Slot.made, hnone, hmade]
    exact List.Perm.nil
  · exact fun hup => (nomatch hup)

omit [LawfulBlockStore δ] in
/-- Settled slots lie where the layout has placed them. -/
theorem Recovering.extent_eq (h : s.Recovering w g c extents calm) (hplaced : c.Placed g extents)
    (hsettled : ∀ t ∈ s.slots, t.Settled) {x : PartitionSpec × Extent}
    (hx : x ∈ c.partitions.zip extents) :
    (s.partition? x.1.number).bind Partition.extent = some x.2 := by
  obtain ⟨m, -, hwithin, hall⟩ := h.underway.recorded
  obtain ⟨i, hi, hplan⟩ := hplaced.planned_of_mem hx
  have hspec : x.1 ∈ s.slots.map Slot.spec := by
    rw [h.underway.specs_eq]
    exact (List.of_mem_zip hx).1
  obtain ⟨t, ht, hspec⟩ := List.mem_map.1 hspec
  cases hslot : s.slot? x.1.number with
  | none =>
    have hno := List.find?_eq_none.1 hslot t ht
    rw [Slot.number, hspec] at hno
    simp at hno
  | some t' =>
    -- `t'` need not be `t`, but it follows an entry of the same number, and the plan has but one
    have hnumber : t'.number = x.1.number := eq_of_beq (List.find?_some hslot :)
    have ht' : t' ∈ s.slots := List.mem_of_find?_eq_some hslot
    obtain ⟨e, he⟩ := (hsettled t' ht').2
    obtain ⟨j, a, hj, hm, rfl, -⟩ := hall t' ht' e he
    obtain rfl : j = i := Index.number_inj.1 (hj.symm.trans (hnumber.trans hi))
    have ha : a = ⟨x.1.kind, x.2⟩ := Option.some.inj ((hwithin j a hm).symm.trans hplan)
    rw [partition?, hslot]
    rw [ha] at he
    exact he

omit [LawfulBlockStore δ] in
/-- With every slot settled, the table holds the plan. -/
theorem Recovering.represents (h : s.Recovering w g c extents calm) (hplaced : c.Placed g extents)
    (hsettled : ∀ t ∈ s.slots, t.Settled) :
    w.table.Represents (c.planned extents) ∧ ∀ p ∈ c.partitions, p.kind ∈ Table.knownKinds := by
  obtain ⟨m, hrep, hwithin, hall⟩ := h.underway.recorded
  -- what a settled slot is located at is the entry of the plan
  have hfull : ∀ p ∈ c.partitions, ∃ i a, p.number = Index.number i ∧ m i = some a ∧
      a.kind = p.kind ∧ a.kind ∈ Table.knownKinds := by
    intro p hp
    rw [← h.underway.specs_eq] at hp
    obtain ⟨t, ht, rfl⟩ := List.mem_map.1 hp
    obtain ⟨e, he⟩ := (hsettled t ht).2
    obtain ⟨i, a, hi, hm, -, hkind⟩ := hall t ht e he
    obtain ⟨e', hx⟩ := hplaced.exists_extent (h.underway.spec_mem ht)
    obtain ⟨j, hj, hplan⟩ := hplaced.planned_of_mem hx
    obtain rfl : j = i := Index.number_inj.1 (hj.symm.trans hi)
    have ha := Option.some.inj ((hwithin j a hm).symm.trans hplan)
    exact ⟨j, a, hi, hm, congrArg Grant.kind ha, hkind⟩
  -- the table holds nothing but the plan, and by `hfull` nothing less
  have heq : m = c.planned extents := by
    funext i
    cases hplan : c.planned extents i with
    | none =>
      cases hm : m i with
      | none => rfl
      | some a =>
        rw [hwithin i a hm] at hplan
        cases hplan
    | some a =>
      obtain ⟨x, hx, heq⟩ := List.mem_map.1 (hplaced.planned_eq_some_iff.1 hplan)
      obtain ⟨j, b, hj, hm, -, -⟩ := hfull x.1 (List.of_mem_zip hx).1
      obtain rfl : j = i := Index.number_inj.1 (hj.symm.trans (Prod.mk.inj heq).1)
      rw [hm, ← hwithin j b hm, hplan]
  refine ⟨heq ▸ hrep, fun p hp => ?_⟩
  obtain ⟨i, a, -, -, hkind, hknown⟩ := hfull p hp
  exact hkind ▸ hknown

omit [LawfulBlockStore δ] in
/-- No filesystem was made twice, and with every slot settled each was made. -/
theorem Recovering.created_subperm (h : s.Recovering w g c extents calm) :
    w.created.Subperm (c.partitions.map PartitionSpec.mountName) ∧
      ((∀ t ∈ s.slots, t.Settled) →
        w.created.Perm (c.partitions.map PartitionSpec.mountName)) := by
  have hnames : s.slots.map (·.spec.mountName) = c.partitions.map PartitionSpec.mountName := by
    rw [← h.underway.specs_eq, List.map_map]
    rfl
  have hperm := h.underway.created_perm
  rw [← hnames]
  refine ⟨hperm.subperm.trans (List.filter_sublist.map _).subperm, fun hsettled => ?_⟩
  have hall : s.slots.filter Slot.hasFilesystem = s.slots :=
    List.filter_eq_self.2 fun t ht => (hsettled t ht).1
  rw [Slot.made, hall] at hperm
  exact hperm

/-- What a successful bring-up of a layout has reached. -/
structure Reached (s : Storage) (w : Bench δ Signature) (c : Config) (extents : List Extent) :
    Prop where
  /-- every partition lies where the layout has placed it -/
  extent_eq : ∀ x ∈ c.partitions.zip extents,
    (s.partition? x.1.number).bind Partition.extent = some x.2
  /-- the entries of the table are the configured ones -/
  entries_perm : (w.table.entries.value.map fun e => (e.number, e.grant)).Perm (c.grants extents)
  /-- no other record of the table is used -/
  of_uses : ∀ i, w.table.uses i = true → ∃ p ∈ c.partitions, p.number = Index.number i
  /-- a filesystem was made for each partition, and no other -/
  created_perm : w.created.Perm (c.partitions.map PartitionSpec.mountName)

omit [LawfulBlockStore δ] in
theorem Recovering.reached (h : s.Recovering w g c extents calm) (hc : c.Realisable g extents)
    (hsettled : ∀ t ∈ s.slots, t.Settled) : s.Reached w c extents := by
  have hplaced := hc.placed
  have hordinary := hc.feasible.ordinary
  obtain ⟨hrep, hknown⟩ := h.represents hplaced hsettled
  refine ⟨fun x hx => h.extent_eq hplaced hsettled hx, ?_, ?_, h.created_subperm.2 hsettled⟩
  · have hall : ((c.planned extents).listing.filter fun x => x.2.kind ∈ Table.knownKinds) =
        (c.planned extents).listing := by
      rw [List.filter_eq_self]
      rintro ⟨n, a⟩ hx
      obtain ⟨y, hy, heq⟩ := List.mem_map.1 (hplaced.listing_planned_perm.mem_iff.1 hx)
      obtain ⟨-, rfl⟩ := Prod.mk.inj heq
      exact decide_eq_true (hknown y.1 (List.of_mem_zip hy).1)
    rw [hrep.entries_eq hordinary, hall]
    exact hplaced.listing_planned_perm
  · intro i hi
    obtain ⟨a, ha⟩ := (hrep.uses_iff hordinary i).1 hi
    obtain ⟨x, hx, heq⟩ := List.mem_map.1 (hplaced.planned_eq_some_iff.1 ha)
    exact ⟨x.1, (List.of_mem_zip hx).1, (Prod.mk.inj heq).1⟩

/-- Calls to bring storage up on a blank disk may fail under any faults. The next call without a
fault pending succeeds exactly if a look-up knows the type of every partition; the layout is then
what is on the disk. No call makes the filesystem of a partition a second time. -/
theorem recovers (hblank : w.Blank) (hmade : w.created = [])
    (hc : c.Realisable (BlockStore.geometry w.store) extents)
    (hnew : (Storage.new (some (BlockStore.geometry w.store)) c true).value = .ok s)
    (calls : List (List Fault)) {faults : List Fault} (hspent : ∀ f ∈ faults, f.Spent) :
    let after := s.attemptAfter w calls faults
    (after.1.1 = .ok () ↔ ∀ p ∈ c.partitions, p.kind ∈ Table.knownKinds) ∧
      (after.1.1 = .ok () → after.1.2.Reached after.2 c extents) ∧
      after.2.created.Subperm (c.partitions.map PartitionSpec.mountName) := by
  have hbefore := (recovering_new hblank hmade hc hnew).attempts hc calls
  have hcalm : Recovering _ { (s.attempts w calls).2 with faults := faults }
      (BlockStore.geometry w.store) c extents True := hbefore.inject fun _ => hspent
  obtain ⟨hrec, hcomes, hup⟩ := Bench.ensures_iff.1 (hcalm.init hc)
  refine ⟨⟨fun hok => ?_, hcomes trivial⟩, fun hok => ?_, hrec.created_subperm.1⟩
  · exact (hrec.represents hc.placed (hrec.settled (hup hok))).2
  · exact hrec.reached hc (hrec.settled (hup hok))

/-- Two calls under faults and one without bring a layout up, but not if it has a partition of the
type `0x10`. -/
theorem recovers_after_write_faults :
    let g : Geometry := ⟨512, 4096⟩
    let w : Bench SparseDisk Signature := .new (.new g)
    let c (kind : UInt8) : Config :=
      ⟨[⟨1, 0, 1048576, 0x83, "/fs"⟩, ⟨2, 1048576, 1048576, kind, "/fs2"⟩], true⟩
    let s (kind : UInt8) : Storage :=
      ⟨some g, (c kind).partitions.map Slot.new, true, true, 0, false⟩
    let fault : Fault := ⟨.write, ⟨-5⟩, 1, some 1, some 0, none⟩
    ((s 0x83).attemptAfter w [[fault], [fault]] []).1.1 = .ok () ∧
      ((s 0x83).attemptAfter w [[fault], [fault]] []).1.2.Reached
        ((s 0x83).attemptAfter w [[fault], [fault]] []).2 (c 0x83) [⟨1, 2047⟩, ⟨2048, 2048⟩] ∧
      ((s 0x10).attemptAfter w [[fault], [fault]] []).1.1 ≠ .ok () := by
  intro g w c s fault
  have hblank : w.Blank := fun b k _ _ => SparseDisk.byteAt_new g b k
  have hc : ∀ kind : UInt8, kind = 0x83 ∨ kind = 0x10 →
      (c kind).Realisable g [⟨1, 2047⟩, ⟨2048, 2048⟩] := by
    rintro _ (rfl | rfl)
    · exact ⟨by simp [c], rfl, by decide, ⟨2097152, by decide, by decide +kernel⟩, by decide⟩
    · exact ⟨by simp [c], rfl, by decide, ⟨2097152, by decide, by decide +kernel⟩, by decide⟩
  have hnew : ∀ kind : UInt8, kind = 0x83 ∨ kind = 0x10 →
      (Storage.new (some g) (c kind) true).value = .ok (s kind) := by
    rintro _ (rfl | rfl) <;> rfl
  have hspent : ∀ f ∈ ([] : List Fault), f.Spent := by simp
  have hup := recovers hblank rfl (hc _ (.inl rfl)) (hnew _ (.inl rfl)) [[fault], [fault]] hspent
  have hdown := recovers hblank rfl (hc _ (.inr rfl)) (hnew _ (.inr rfl)) [[fault], [fault]] hspent
  have hok := hup.1.2 (by decide)
  refine ⟨hok, hup.2.1 hok, fun h => ?_⟩
  exact absurd (hdown.1.1 h) (by decide)

end Storage

end DiskBringup
