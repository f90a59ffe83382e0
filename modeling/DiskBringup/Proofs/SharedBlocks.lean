import DiskBringup.Proofs.BringUp
import DiskBringup.Proofs.HealthyPartitions
import DiskBringup.Proofs.Placement
import DiskBringup.Proofs.PreparedDisk

/-!
# Partitions that share blocks

Two partitions that are brought up have no block in common, unless both lie where the partition
table had them when the call began, or the entry of the first has block 0 and its filesystem may
have rewritten the table (`Storage.shares_only_as_found`). Partitions whose entries are written by
the call lie where the layout places them, and so apart; of the entries of a table that is found,
none is compared with another, so storage can come up with two partitions that overlap
(`Storage.comes_up_overlapping`).
-/

namespace DiskBringup

/-- The table has the entries of two numbers over these blocks, as far as the second can be read
off it: a filesystem on block 0 may rewrite the table before the second entry is looked up. -/
def Table.Yields (t : Table) (first second : UInt8) (d e : Extent) : Prop :=
  ∃ x, (t.find first).value = .ok x ∧ d = x.extent ∧
    (0 ∈ d ∨ ∃ y, (t.find second).value = .ok y ∧ e = y.extent)

namespace Bench

variable {δ φ : Type} [BlockStore δ] [LawfulBlockStore δ] [FilesystemDriver φ] {w : Bench δ φ}
  {g : Geometry}

open BlockStore

/-! ## One partition -/

/-- A slot has been brought up on the blocks of an entry. -/
structure BroughtUp (g : Geometry) (w : Bench δ φ) (t : Slot) (x : Entry) (w' : Bench δ φ) :
    Prop where
  /-- the disk can hold a table -/
  carries : g.Carries
  /-- the entry was found -/
  find_eq : (w.table.find t.number).value = .ok x
  /-- the slot lies on its blocks -/
  extent_eq : t.extent = some x.extent
  /-- no other block was altered -/
  alters : ∃ made, w.Alters {b | b ∈ x.extent} made w'

/-- An attempt that succeeds has brought its slot up on the blocks of its entry. -/
theorem ensures_bringUp_extent (hg : geometry w.store = g) (t : Slot) :
    w.Ensures (t.bringUp (.disk g)) fun r w' => r.2.spec = t.spec ∧ geometry w'.store = g ∧
      (r.1 = .ok () → ∃ x, BroughtUp g w r.2 x w') := by
  have hattempt : w.Ensures (t.bringUp (.disk g)) (Attempt g t w fun window w₁ _ w' =>
      w₁.Alters {b | b ∈ window.extent} t.makes w') := by
    refine obeys_bringUp hg (fun _ _ => trivial) ?_
    intro window x w₁ _ _
    exact ensures_populate (Volume.stays_window _ window) t w₁
  refine hattempt.imp ?_
  intro r w' hend
  cases hend with
  | missed partition hr _ ha _ => exact ⟨rfl, ha.geometry_eq.trans hg, fun hok => absurd hok hr⟩
  | @located r w₁ w' window x hl h₁ h₂ =>
    have ha := h₁.of_empty.trans h₂
    refine ⟨rfl, ha.geometry_eq.trans hg, fun _ => ⟨x, hl.carries, hl.find_eq, ?_, ?_⟩⟩
    · exact congrArg some hl.extent_eq
    · rw [hl.extent_eq] at ha
      exact ⟨_, ha⟩

/-- A partition that was created lies on the blocks that were written into its entry. -/
theorem ensures_create_extent (hg : geometry w.store = g) (t : Slot) (extent : Extent) :
    w.Ensures (t.create (.disk g) extent) fun r w' => r.2.spec = t.spec ∧
      geometry w'.store = g ∧ (r.1 = .ok () → r.2.extent = some extent) := by
  refine ensures_create hg ?_ ?_
  · exact fun r w' hr ha _ => ⟨rfl, ha.geometry_eq.trans hg, fun hok => absurd hok hr⟩
  · intro w₁ _ _ hrewritten h₁
    refine (ensures_bringUp_extent (h₁.geometry_eq.trans hg) t).imp ?_
    rintro r w' ⟨hspec, hg', hup⟩
    refine ⟨hspec, hg', fun hok => ?_⟩
    obtain ⟨x, hx⟩ := hup hok
    have hfind := hx.find_eq
    rw [Slot.number, hspec] at hfind
    rw [hx.extent_eq, Table.extent_of_rewritten hrewritten hfind]

/-! ## Two partitions -/

/-- Two slots that come up lie where the table has their entries. -/
theorem ensures_bringUpAll_pair (hg : geometry w.store = g) (ta tb : Slot) :
    w.Ensures (Slot.bringUpAll (.disk g) [ta, tb]) fun r w' =>
      r.2.map Slot.spec = [ta.spec, tb.spec] ∧ geometry w'.store = g ∧
        (r.1 = .ok () → g.Carries ∧ ∃ d e, r.2.map Slot.extent = [some d, some e] ∧
          w.table.Yields ta.number tb.number d e) := by
  refine obeys_bringUpAll_cons (ensures_bringUp_extent hg ta) ?_ ?_
  · rintro ta' w₁ ⟨hspec, hg₁, hup⟩
    obtain ⟨x, hx⟩ := hup rfl
    refine obeys_bringUpAll_cons (ensures_bringUp_extent hg₁ tb) ?_ ?_
    · rintro tb' w₂ ⟨hspec', hg₂, hup'⟩
      obtain ⟨y, hy⟩ := hup' rfl
      have hx' := hx.find_eq
      have hy' := hy.find_eq
      rw [Slot.number, hspec] at hx'
      rw [Slot.number, hspec'] at hy'
      refine obeys_pure ⟨?_, hg₂, fun _ => ⟨hx.carries, x.extent, y.extent, ?_, x, hx', rfl, ?_⟩⟩
      · rw [List.map_cons, List.map_cons, hspec, hspec']
        rfl
      · rw [List.map_cons, List.map_cons, hx.extent_eq, hy.extent_eq]
        rfl
      · -- the table is kept unless the first partition has block 0
        by_cases h0 : 0 ∈ x.extent
        · exact .inl h0
        · obtain ⟨made, ha⟩ := hx.alters
          have hc := hx.carries
          rw [← hg] at hc
          rw [ha.table_eq hc.sectorSize_le hc.pos h0] at hy'
          exact .inr ⟨y, hy', rfl⟩
    · rintro o tb' w₂ hne ⟨hspec', hg₂, -⟩
      refine ⟨?_, hg₂, fun hok => absurd hok hne⟩
      rw [List.map_cons, List.map_cons, hspec, hspec']
      rfl
  · rintro o ta' w₁ hne ⟨hspec, hg₁, -⟩
    refine ⟨?_, hg₁, fun hok => absurd hok hne⟩
    rw [List.map_cons, hspec]
    rfl

/-- Slots that are created lie on the blocks that were written into their entries. -/
theorem ensures_createAll_extents (hg : geometry w.store = g) {slots : List Slot}
    {extents : List Extent} (hlength : slots.length = extents.length) :
    w.Ensures (Slot.createAll (.disk g) slots extents) fun r w' =>
      r.2.map Slot.spec = slots.map Slot.spec ∧ geometry w'.store = g ∧
        (r.1 = .ok () → r.2.map Slot.extent = extents.map some) := by
  have hall : w.Ensures (Slot.createAll (.disk g) slots extents) fun r w' =>
      ∃ after : List (Slot × Extent), r.2 = after.map Prod.fst ∧
        (after.map (·.1.spec) = slots.map Slot.spec ∧ after.map Prod.snd = extents ∧
          geometry w'.store = g) ∧ True ∧
        (r.1 = .ok () → ∀ x ∈ after, x.1.extent = some x.2) := by
    refine ensures_createAll (fun after w => after.map (·.1.spec) = slots.map Slot.spec ∧
      after.map Prod.snd = extents ∧ geometry w.store = g) (fun _ => True) (fun _ => True)
      (fun x => x.1.extent = some x.2) trivial ?_ (fun _ _ => trivial) ?_
    · rintro before ⟨t, e⟩ after w - ⟨hspecs, hextents, hg⟩
      refine (ensures_create_extent hg t e).imp ?_
      rintro r w' ⟨hspec, hg', hup⟩
      refine ⟨⟨?_, ?_, hg'⟩, trivial, hup⟩
      · rw [← hspecs, List.map_append, List.map_append, List.map_cons, List.map_cons, hspec]
      · rw [← hextents, List.map_append, List.map_append]
        rfl
    · refine ⟨?_, List.map_snd_zip hlength.ge, hg⟩
      change (slots.zip extents).map (Slot.spec ∘ Prod.fst) = _
      rw [← List.map_map, List.map_fst_zip hlength.le]
  refine hall.imp ?_
  rintro r w' ⟨after, hslots, ⟨hspecs, hextents, hg'⟩, -, hup⟩
  rw [hslots]
  refine ⟨?_, hg', fun hok => ?_⟩
  · rw [← hspecs, List.map_map]
    rfl
  · rw [← hextents, List.map_map, List.map_map]
    exact List.map_congr_left (hup hok)

end Bench

/-! ## Storage for two partitions -/

namespace Storage

variable {s : Storage} {g : Geometry} {a b : PartitionSpec}

/-- Storage for two partitions of a disk. -/
structure Pair (s : Storage) (g : Geometry) (a b : PartitionSpec) : Prop where
  /-- there is a disk -/
  device_eq : s.device = some g
  /-- the partitions -/
  specs_eq : s.slots.map Slot.spec = [a, b]

/-- The two partitions have no block in common, or they lie where the table has them. -/
def ApartOrFound (s : Storage) (t : Table) (a b : PartitionSpec) : Prop :=
  ∃ d e, s.slots.map Slot.extent = [some d, some e] ∧
    (¬ d.Shares e ∨ t.Yields a.number b.number d e)

theorem exists_slots (hspecs : s.slots.map Slot.spec = [a, b]) :
    ∃ ta tb, s.slots = [ta, tb] ∧ ta.spec = a ∧ tb.spec = b := by
  obtain ⟨ta, rest, hslots, hta, hrest⟩ := List.map_eq_cons_iff.1 hspecs
  obtain ⟨tb, rest', rfl, htb, hnil⟩ := List.map_eq_cons_iff.1 hrest
  obtain rfl := List.map_eq_nil_iff.1 hnil
  exact ⟨ta, tb, hslots, hta, htb⟩

/-- The partitions of storage lie on the blocks of their slots. -/
theorem extents_eq (hspecs : s.slots.map Slot.spec = [a, b]) (hne : a.number ≠ b.number)
    {d e : Extent} (hextents : s.slots.map Slot.extent = [some d, some e]) :
    (s.partition? a.number).bind Partition.extent = some d ∧
      (s.partition? b.number).bind Partition.extent = some e := by
  obtain ⟨ta, tb, hslots, rfl, rfl⟩ := exists_slots hspecs
  rw [hslots] at hextents
  obtain ⟨hd, hrest⟩ := List.cons_eq_cons.1 hextents
  obtain ⟨he, -⟩ := List.cons_eq_cons.1 hrest
  have hfirst : s.slot? ta.number = some ta := by
    rw [slot?, hslots]
    exact List.find?_cons_of_pos (beq_self_eq_true ta.number)
  have hsecond : s.slot? tb.number = some tb := by
    rw [slot?, hslots, List.find?_cons_of_neg (by simpa using hne)]
    exact List.find?_cons_of_pos (beq_self_eq_true tb.number)
  rw [partition?, hfirst, partition?, hsecond]
  exact ⟨hd, he⟩

variable {δ φ : Type} [BlockStore δ] [LawfulBlockStore δ] [FilesystemDriver φ] {w : Bench δ φ}

open BlockStore

/-- Creating two partitions places them apart. -/
theorem Pair.ensures_createPartitions (h : s.Pair g a b) (hg : geometry w.store = g)
    (hsize : g.size? = some s.capacity) :
    w.Ensures (s.createPartitions (.disk g)) fun r w' =>
      (∃ slots, r.2 = { s with slots := slots } ∧ slots.map Slot.spec = [a, b]) ∧
        geometry w'.store = g ∧ (r.1 = .ok () → ∃ d e,
          r.2.slots.map Slot.extent = [some d, some e] ∧ ¬ d.Shares e) := by
  refine Bench.obeys_createPartitions (fun _ _ => trivial) ?_ ?_
  · intro err w' _ ha
    exact ⟨⟨s.slots, rfl, h.specs_eq⟩, ha.geometry_eq.trans hg, fun hok => (nomatch hok)⟩
  · intro extents w₁ hlayout h₁
    have hplaced := Config.placed_of_layout hlayout hsize
    have hlength : s.slots.length = extents.length := by
      rw [← hplaced.length_eq, Storage.config, List.length_map]
    obtain ⟨d, e, rfl⟩ : ∃ d e, extents = [d, e] := by
      obtain ⟨ta, tb, hslots, -, -⟩ := exists_slots h.specs_eq
      rw [hslots] at hlength
      exact List.length_eq_two.1 hlength.symm
    refine (Bench.ensures_createAll_extents (h₁.geometry_eq.trans hg) hlength).imp ?_
    rintro r w₂ ⟨hspecs, hg₂, hup⟩
    refine ⟨⟨r.2, rfl, hspecs.trans h.specs_eq⟩, hg₂, fun hok => ⟨d, e, hup hok, ?_⟩⟩
    have hapart := hplaced.apart
    rw [Storage.config, h.specs_eq] at hapart
    exact (List.rel_of_pairwise_cons hapart List.mem_cons_self).2

/-- What a call for two partitions of a disk leaves: they are apart, or where the table had them
when the call began. -/
structure Pair.Attended (g : Geometry) (a b : PartitionSpec) (w : Bench δ φ)
    (r : Outcome StorageError Unit × Storage) (w' : Bench δ φ) : Prop where
  /-- the storage is for the two partitions -/
  pair : r.2.Pair g a b
  /-- the disk keeps its shape -/
  geometry_eq : geometry w'.store = g
  /-- a success is noted -/
  isUp_eq : r.1 = .ok () → r.2.isUp = true
  /-- where they lie -/
  lies : r.2.isUp = true → r.2.ApartOrFound w.table a b

omit [LawfulBlockStore δ] [FilesystemDriver φ] in
/-- How a bring-up of slots ends is how the call ends. -/
theorem Pair.finishes (h : s.Pair g a b) (hdown : s.isUp = false) {capacity : UInt64}
    {ending : Outcome StorageError Unit} {slots : List Slot} {w' : Bench δ φ}
    (hg : geometry w'.store = g) (hspecs : slots.map Slot.spec = [a, b])
    (hlies : ending = .ok () → ∃ d e, slots.map Slot.extent = [some d, some e] ∧
      (¬ d.Shares e ∨ w.table.Yields a.number b.number d e)) :
    Bench.Finishes (Pair.Attended g a b w) (ending, { s with capacity := capacity, slots := slots })
      w' := by
  refine ⟨fun hno => ⟨⟨h.device_eq, hspecs⟩, hg, fun hok => absurd hok hno, fun hup => ?_⟩, ?_⟩
  · rw [show s.isUp = false from hdown] at hup
    cases hup
  · exact fun hok w'' ha => ⟨⟨h.device_eq, hspecs⟩, ha.geometry_eq.trans hg, fun _ => rfl,
      fun _ => hlies hok⟩

/-- Slots that come up lie where the table has them; those that are created lie apart. -/
theorem Pair.ensures_bringUpPartitions (h : s.Pair g a b) (hdown : s.isUp = false)
    {capacity : UInt64} (hsize : g.size? = some capacity) {w₁ : Bench δ φ}
    (hg₁ : geometry w₁.store = g) (htable : g.Carries → w₁.table = w.table) :
    w₁.Ensures (Storage.bringUpPartitions { s with capacity := capacity } (.disk g))
      (Bench.Finishes (Pair.Attended g a b w)) := by
  obtain ⟨ta, tb, hslots, rfl, rfl⟩ := exists_slots h.specs_eq
  have hall := Bench.ensures_bringUpAll_pair hg₁ ta tb
  rw [← hslots] at hall
  by_cases hfactory : s.hasFactory = true
  · refine Bench.obeys_bringUpPartitions hfactory (fun _ _ => trivial) hall ?_ ?_ ?_ ?_
    · rintro slots w₂ ⟨hspecs, hg₂, hup⟩
      refine h.finishes hdown hg₂ hspecs fun _ => ?_
      obtain ⟨hc, d, e, hextents, hyields⟩ := hup rfl
      rw [htable hc] at hyields
      exact ⟨d, e, hextents, .inr hyields⟩
    · exact fun o slots w₂ hmid => h.finishes hdown hmid.2.1 hmid.1 (by simp)
    · exact fun x slots w₂ w₃ hmid ha _ => h.finishes hdown (ha.geometry_eq.trans hmid.2.1) hmid.1
        (by simp)
    · intro x slots w₂ w₃ hmid ha _
      have hpair : Pair { s with capacity := capacity, slots := slots } g ta.spec tb.spec :=
        ⟨h.device_eq, hmid.1⟩
      refine (hpair.ensures_createPartitions (ha.geometry_eq.trans hmid.2.1) hsize).imp ?_
      rintro ⟨ending, s'⟩ w₄ ⟨⟨slots', rfl, hspecs⟩, hg₄, hup⟩
      refine h.finishes hdown hg₄ hspecs fun hok => ?_
      obtain ⟨d, e, hextents, hapart⟩ := hup hok
      exact ⟨d, e, hextents, .inl hapart⟩
  · rw [Storage.bringUpPartitions, if_neg hfactory]
    exact Bench.obeys_pure (h.finishes hdown hg₁ h.specs_eq (by simp))

/-- A call that brings two partitions up leaves them apart, or where the table had them when the
call began. -/
theorem Pair.ensures_init (h : s.Pair g a b) (hg : geometry w.store = g) (hdown : s.isUp = false) :
    w.Ensures s.init (Pair.Attended g a b w) := by
  refine Bench.obeys_init (fun _ _ => trivial) h.device_eq ?_ fun _ => ?_
  · intro w' hup
    rw [hdown] at hup
    cases hup
  refine Bench.obeys_initOn (fun _ _ => trivial) ?_ ?_
  · intro r w' hr ha _
    refine ⟨h, ha.geometry_eq.trans hg, fun hok => absurd hok (hr.ne_ok ()), fun hup => ?_⟩
    rw [hdown] at hup
    cases hup
  intro capacity w₁ hsize h₁
  have hne : s.slots ≠ [] := by
    obtain ⟨ta, tb, hslots, -, -⟩ := exists_slots h.specs_eq
    rw [hslots]
    exact List.cons_ne_nil ta [tb]
  rw [bringUp_of_slots (s := { s with capacity := capacity }) hne]
  refine h.ensures_bringUpPartitions hdown hsize (h₁.geometry_eq.trans hg) fun hc => ?_
  subst hg
  exact h₁.table_eq hc.sectorSize_le hc.pos (Set.notMem_empty 0)

omit [LawfulBlockStore δ] in
/-- A call on storage that is up changes nothing. -/
theorem ensures_init_of_isUp (hup : s.isUp = true) :
    w.Ensures s.init fun r w' => r = (.ok (), s) ∧ w.Alters ∅ [] w' := by
  rw [Storage.init, if_pos hup]
  refine (Bench.ensures_note _ w).bind ?_
  intro _ w' ha
  exact Bench.obeys_pure ⟨rfl, ha⟩

omit [LawfulBlockStore δ] in
theorem attempts_of_isUp (hup : s.isUp = true) (calls : List (List Fault)) :
    (s.attempts w calls).1 = s ∧ geometry (s.attempts w calls).2.store = geometry w.store := by
  induction calls generalizing w with
  | nil => exact ⟨rfl, rfl⟩
  | cons faults rest ih =>
    have hinit : Bench.Ensures { w with faults := faults } s.init _ := ensures_init_of_isUp hup
    obtain ⟨heq, ha⟩ := Bench.ensures_iff.1 hinit
    obtain ⟨hsame, hgeometry⟩ := ih (w := (s.attempt w faults).2)
    have hstate : (s.attempt w faults).1.2 = s := congrArg Prod.snd heq
    rw [attempts, hstate]
    exact ⟨hsame, hgeometry.trans ha.geometry_eq⟩

/-- Storage that came up in one of several calls has its partitions apart, or where the table had
them when that call began. -/
structure Came (s : Storage) (w : Bench δ φ) (calls : List (List Fault)) (g : Geometry)
    (a b : PartitionSpec) : Prop where
  /-- the partitions are the same -/
  pair : (s.attempts w calls).1.Pair g a b
  /-- the disk keeps its shape -/
  geometry_eq : geometry (s.attempts w calls).2.store = g
  /-- storage that is up came up in some call -/
  of_isUp : (s.attempts w calls).1.isUp = true →
    ∃ n, (s.attempts w calls).1.ApartOrFound (s.attempts w (calls.take n)).2.table a b

theorem Pair.came (h : s.Pair g a b) (hg : geometry w.store = g) (hdown : s.isUp = false)
    (calls : List (List Fault)) : s.Came w calls g a b := by
  -- on the first call; if it has not succeeded, the others start as it did
  induction calls generalizing s w with
  | nil =>
    refine ⟨h, hg, fun hup => ?_⟩
    rw [show (s.attempts w []).1.isUp = false from hdown] at hup
    cases hup
  | cons faults rest ih =>
    have hinit : Bench.Ensures { w with faults := faults } s.init _ := h.ensures_init hg hdown
    obtain ⟨hpair, hgeometry, -, hup⟩ := Bench.ensures_iff.1 hinit
    by_cases hcame : (s.attempt w faults).1.2.isUp = true
    · -- the first call has brought the partitions up, and the others change nothing
      obtain ⟨hsame, hgeometry'⟩ := attempts_of_isUp (w := (s.attempt w faults).2) hcame rest
      refine ⟨?_, hgeometry'.trans hgeometry, fun _ => ⟨0, ?_⟩⟩
      · rw [attempts, hsame]
        exact hpair
      · rw [attempts, hsame]
        exact hup hcame
    · obtain ⟨hpair', hgeometry', hup'⟩ := ih hpair hgeometry (Bool.not_eq_true _ ▸ hcame)
      refine ⟨hpair', hgeometry', fun hisUp => ?_⟩
      obtain ⟨n, hn⟩ := hup' hisUp
      exact ⟨n + 1, hn⟩

end Storage

/-! ## A disk with overlapping partitions -/

/-- A disk of 4096 blocks with the partitions 1, blocks 1 to 10, and 2, blocks 5 to 14, that both
start with a filesystem. -/
def overlapping : Bench SparseDisk Signature :=
  .new (.prepared 4096 (.holding [⟨1, 10⟩, ⟨5, 10⟩]) [1, 5])

theorem find_overlapping :
    (overlapping.table.find 1).value = .ok ⟨1, 0x83, 1, 10⟩ ∧
      (overlapping.table.find 2).value = .ok ⟨2, 0x83, 5, 10⟩ := by
  obtain ⟨-, hrep⟩ := Table.represents_holding [⟨1, 10⟩, ⟨5, 10⟩] (by decide)
  have hordinary := Allotment.ordinary_holding [⟨1, 10⟩, ⟨5, 10⟩] (by decide)
  rw [overlapping, Bench.table_prepared rfl]
  exact ⟨(hrep.find_eq_ok_iff hordinary).2 ⟨0, rfl, rfl, by decide, by decide⟩,
    (hrep.find_eq_ok_iff hordinary).2 ⟨1, rfl, rfl, by decide, by decide⟩⟩

namespace Storage

/-- Storage for two partitions comes up on this disk. -/
theorem attempt_overlapping {s : Storage} {a b : PartitionSpec} {auto : Bool}
    (hs : s = ⟨some ⟨512, 4096⟩, [.new a, .new b], auto, true, 0, false⟩) (ha : a.number = 1)
    (hb : b.number = 2) :
    (s.attempt overlapping []).1.1 = .ok () ∧
      ((s.attempt overlapping []).1.2.partition? 1).bind Partition.extent = some ⟨1, 10⟩ ∧
      ((s.attempt overlapping []).1.2.partition? 2).bind Partition.extent = some ⟨5, 10⟩ := by
  have hone : ∀ t : Slot, t.spec = a →
      (overlapping.table.find t.number).value = .ok ⟨1, 0x83, 1, 10⟩ := by
    rintro t rfl
    rw [Slot.number, ha]
    exact find_overlapping.1
  have htwo : ∀ t : Slot, t.spec = b →
      (overlapping.table.find t.number).value = .ok ⟨2, 0x83, 5, 10⟩ := by
    rintro t rfl
    rw [Slot.number, hb]
    exact find_overlapping.2
  have hsound : ∀ t ∈ [Slot.new a, Slot.new b], overlapping.Sound t := by
    refine List.forall_mem_cons.2 ⟨⟨rfl, ⟨1, 0x83, 1, 10⟩, ⟨hone _ rfl, by decide, ?_⟩, by decide⟩,
      List.forall_mem_singleton.2 ⟨rfl, ⟨2, 0x83, 5, 10⟩, ⟨htwo _ rfl, by decide, ?_⟩, by decide⟩⟩
    · exact Bench.marked_prepared rfl (b := 1) List.mem_cons_self (by decide)
    · exact Bench.marked_prepared rfl (b := 5) (by simp) (by decide)
  have hattempt : Bench.Ensures { overlapping with faults := [] } s.init fun r _ =>
      r.1 = .ok () ∧ r.2.slots.map Slot.spec = [a, b] ∧
        r.2.slots.map Slot.extent = [some ⟨1, 10⟩, some ⟨5, 10⟩] := by
    have hquiet : Bench.Quiet { overlapping with faults := [] } := by simp [Bench.Quiet]
    rw [hs]
    refine (Bench.ensures_init_of_healthy hquiet
      ⟨by decide, by decide, by decide⟩ (show Geometry.size? ⟨512, 4096⟩ = some 2097152 by decide)
      rfl rfl rfl (List.cons_ne_nil _ _) fun t ht => (hsound t ht).inject []).imp ?_
    rintro r w' ⟨hok, -, hspecs, hlies⟩
    obtain ⟨ta, tb, hslots, hta, htb⟩ := exists_slots hspecs
    rw [hslots] at hlies
    obtain ⟨⟨x, hx, hd⟩, hrest⟩ := List.forall_mem_cons.1 hlies
    obtain ⟨y, hy, he⟩ := List.forall_mem_singleton.1 hrest
    -- the slots still have the numbers, and with them the entries, that they had
    obtain rfl := Except.ok.inj ((hone ta hta).symm.trans hx)
    obtain rfl := Except.ok.inj ((htwo tb htb).symm.trans hy)
    refine ⟨hok, hspecs, ?_⟩
    rw [hslots, List.map_cons, List.map_singleton, hd, he]
    rfl
  obtain ⟨hok, hspecs, hextents⟩ := Bench.ensures_iff.1 hattempt
  have hne : a.number ≠ b.number := by
    rw [ha, hb]
    decide
  rw [← ha, ← hb]
  exact ⟨hok, extents_eq hspecs hne hextents⟩

variable {s : Storage} {a b : PartitionSpec} {δ φ : Type} [BlockStore δ] [LawfulBlockStore δ]
  [FilesystemDriver φ] {w : Bench δ φ}

open BlockStore

/-- Two partitions that are brought up, after any calls and under any faults, have no block in
common unless the table gave these blocks when a call began, or the filesystem of the first
partition could rewrite the table. -/
theorem shares_only_as_found {auto hasFactory : Bool}
    (hnew : (Storage.new (some (geometry w.store)) ⟨[a, b], auto⟩ hasFactory).value = .ok s)
    (calls : List (List Fault)) (faults : List Fault)
    (hok : (s.attemptAfter w calls faults).1.1 = .ok ()) :
    ∃ d e,
      ((s.attemptAfter w calls faults).1.2.partition? a.number).bind Partition.extent = some d ∧
      ((s.attemptAfter w calls faults).1.2.partition? b.number).bind Partition.extent = some e ∧
      (d.Shares e →
        ∃ n, (s.attempts w (calls.take n)).2.table.Yields a.number b.number d e) := by
  obtain ⟨hvalid, hs⟩ := new_eq_ok_iff.1 hnew
  obtain ⟨-, -, hpairs⟩ := Config.validate_eq_ok_iff.1 hvalid
  have hne : a.number ≠ b.number := (List.rel_of_pairwise_cons hpairs List.mem_cons_self).1
  have hpair : s.Pair (geometry w.store) a b := by
    rw [hs]
    exact ⟨rfl, rfl⟩
  have hdown : s.isUp = false := by rw [hs]
  obtain ⟨hbefore, hgeometry, hcame⟩ := hpair.came rfl hdown calls
  have hfound : (s.attemptAfter w calls faults).1.2.Pair (geometry w.store) a b ∧
      ∃ n, (s.attemptAfter w calls faults).1.2.ApartOrFound
        (s.attempts w (calls.take n)).2.table a b := by
    by_cases hup : (s.attempts w calls).1.isUp = true
    · have hinit : Bench.Ensures { (s.attempts w calls).2 with faults := faults }
          (s.attempts w calls).1.init _ := ensures_init_of_isUp hup
      obtain ⟨heq, -⟩ := Bench.ensures_iff.1 hinit
      have hstate : (s.attemptAfter w calls faults).1.2 = (s.attempts w calls).1 :=
        congrArg Prod.snd heq
      rw [hstate]
      exact ⟨hbefore, hcame hup⟩
    · have hinit : Bench.Ensures { (s.attempts w calls).2 with faults := faults }
          (s.attempts w calls).1.init _ :=
        hbefore.ensures_init hgeometry (Bool.not_eq_true _ ▸ hup)
      obtain ⟨hafter, -, hisUp, hlies⟩ := Bench.ensures_iff.1 hinit
      refine ⟨hafter, calls.length, ?_⟩
      rw [List.take_length]
      exact hlies (hisUp hok)
  obtain ⟨hafter, n, d, e, hextents, hcases⟩ := hfound
  obtain ⟨hd, he⟩ := extents_eq hafter.specs_eq hne hextents
  exact ⟨d, e, hd, he, fun hshares => ⟨n, hcases.resolve_left (not_not_intro hshares)⟩⟩

/-- On the disk with overlapping partitions, two partitions come up where the table has them. -/
theorem shares_only_as_found_overlapping :
    let c : Config := ⟨[⟨1, 0, 8192, 0x83, "/fs"⟩, ⟨2, 8192, 8192, 0x83, "/fs2"⟩], true⟩
    let s : Storage := ⟨some ⟨512, 4096⟩, c.partitions.map Slot.new, true, true, 0, false⟩
    (s.attemptAfter overlapping [] []).1.1 = .ok () ∧
      overlapping.table.Yields 1 2 ⟨1, 10⟩ ⟨5, 10⟩ := by
  intro c s
  have hnew : (Storage.new (some ⟨512, 4096⟩) c true).value = .ok s := rfl
  obtain ⟨hok, hone, htwo⟩ := attempt_overlapping (s := s)
    (a := ⟨1, 0, 8192, 0x83, "/fs"⟩) (b := ⟨2, 8192, 8192, 0x83, "/fs2"⟩) rfl rfl rfl
  have hcall : s.attempt overlapping [] = s.attemptAfter overlapping [] [] := by
    rw [attemptAfter, attempts]
  rw [hcall] at hok hone htwo
  obtain ⟨d, e, hd, he, hyields⟩ := shares_only_as_found (w := overlapping) hnew [] [] hok
  obtain rfl := Option.some.inj (hone.symm.trans hd)
  obtain rfl := Option.some.inj (htwo.symm.trans he)
  obtain ⟨n, hn⟩ := hyields (by decide)
  rw [List.take_nil] at hn
  exact ⟨hok, hn⟩

/-- Storage comes up with two partitions that share blocks. -/
theorem comes_up_overlapping :
    let c : Config := ⟨[⟨1, 0, 8192, 0x83, "/fs"⟩, ⟨2, 8192, 8192, 0x83, "/fs2"⟩], false⟩
    let s : Storage := ⟨some ⟨512, 4096⟩, c.partitions.map Slot.new, false, true, 0, false⟩
    (Storage.new (some ⟨512, 4096⟩) c true).value = .ok s ∧
      (s.attempt overlapping []).1.1 = .ok () ∧
      ((s.attempt overlapping []).1.2.partition? 1).bind Partition.extent = some ⟨1, 10⟩ ∧
      ((s.attempt overlapping []).1.2.partition? 2).bind Partition.extent = some ⟨5, 10⟩ ∧
      Extent.Shares ⟨1, 10⟩ ⟨5, 10⟩ := by
  intro c s
  obtain ⟨hok, hone, htwo⟩ := attempt_overlapping (s := s)
    (a := ⟨1, 0, 8192, 0x83, "/fs"⟩) (b := ⟨2, 8192, 8192, 0x83, "/fs2"⟩) rfl rfl rfl
  exact ⟨rfl, hok, hone, htwo, by decide⟩

end Storage

end DiskBringup
