import DiskBringup.Proofs.KeptPartitions
import DiskBringup.Proofs.Visits

/-!
# Views of partitions

The view of a partition is a window of a volume, which may be a view itself. A window checks its
own end only; that a block of it is a block of the disk follows from where the partitions were
located. `v.Obtained g` says how a view comes about, and `v.Nested g` what this gives: every window
ends on the volume below. Then block `b` of the view is block `v.origin + b` of the disk
(`Volume.Nested.exists_block`). `v.Mirrors s d` says that a disk `d` of its own has the contents
that the view has on the disk `s`. One request keeps this and has the same answer from both
(`Volume.Mirrors.answer`), so no program can tell the view from the disk
(`Partition.view_stands_alone`).
-/

namespace DiskBringup

open Routine (Log)

/-! ## Where views come from -/

/-- The partition was located on the volume, in some run and whatever the answers were. -/
def Partition.LocatedOn (p : Partition) (base : Volume) : Prop :=
  ∃ (q : Partition) (log : Log), (q.init base).Runs log (.ok (), p)

/-- A partition that was located ends on the volume. -/
theorem Partition.LocatedOn.exists_window {p : Partition} {base : Volume} (h : p.LocatedOn base) :
    ∃ window, p.window = some window ∧ window.extent.bound ≤ base.numBlocks.toNat := by
  obtain ⟨q, log, hrun⟩ := h
  obtain ⟨log₁, located, log₂, hlocate, hend, rfl⟩ := Script.runs_bind_iff.1 hrun
  cases located with
  | fail code => cases (Script.runs_pure_pair_iff.1 hend).2.1
  | overflow o => cases (Script.runs_pure_pair_iff.1 hend).2.1
  | ok window =>
    obtain ⟨-, -, rfl⟩ := Script.runs_pure_pair_iff.1 hend
    obtain ⟨-, -, -, hbound⟩ := runs_locate_ok hlocate
    exact ⟨window, rfl, hbound⟩

namespace Volume

/-- The volume is a disk of the given shape, or the view of a partition that was located on a
volume obtained in this way. -/
inductive Obtained (g : Geometry) : Volume → Prop
  /-- the disk -/
  | disk : Obtained g (.disk g)
  /-- the view of a partition -/
  | view {base v : Volume} {p : Partition} (hbase : Obtained g base) (hp : p.LocatedOn base)
    (hv : p.volume? base = some v) : Obtained g v

/-- Every window ends on the volume below it, and the lowest volume is a disk of the given shape. -/
inductive Nested (g : Geometry) : Volume → Prop
  /-- the disk -/
  | disk : Nested g (.disk g)
  /-- a window -/
  | window {base : Volume} {w : Window} (hbase : Nested g base)
    (hbound : w.extent.bound ≤ base.numBlocks.toNat) : Nested g (.window base w)

/-- The blocks at which the windows start, each on the volume below, added up. -/
def origin : Volume → Nat
  | disk _ => 0
  | window base w => base.origin + w.extent.start.toNat

variable {g : Geometry} {v base : Volume} {w : Window}

theorem Obtained.nested (h : v.Obtained g) : v.Nested g := by
  induction h with
  | disk => exact .disk
  | view _ hp hv ih =>
    obtain ⟨w, hwindow, hbound⟩ := hp.exists_window
    rw [Partition.volume?, hwindow, Option.map_some] at hv
    obtain rfl := Option.some.inj hv
    exact .window ih hbound

theorem Nested.blockSize_eq (h : v.Nested g) : v.blockSize = g.blockSize := by
  induction h with
  | disk => rfl
  | window _ _ ih => exact ih

/-- A transfer of a block of the volume is one of a block of the disk, moved by all the starts. -/
theorem Nested.exists_block (h : v.Nested g) {b : UInt64} (hb : b < v.numBlocks) :
    ∃ c : UInt64, c.toNat = v.origin + b.toNat ∧ c < g.numBlocks ∧
      (∀ n, v.request (.read b n) = Script.request (BlockRequest.read c n)) ∧
      ∀ (n : Nat) (data : Buffer n),
        v.request (.write b data) = Script.request (BlockRequest.write c data) := by
  induction h generalizing b with
  | disk => exact ⟨b, (Nat.zero_add _).symm, hb, fun _ => rfl, fun _ _ => rfl⟩
  | @window base w _ hbound ih =>
    have hlt : b.toNat < w.extent.blocks.toNat := UInt64.lt_iff_toNat_lt.1 hb
    have hbelow : w.below? b = some (w.extent.start + b) := if_pos hb
    have hsum := (Window.below?_eq_some_iff.1 hbelow).2
    rw [Extent.bound] at hbound
    -- the bound that was checked when the window was found keeps the block on the volume below
    obtain ⟨c, hc, hcg, hread, hwrite⟩ := ih (b := w.extent.start + b)
      (UInt64.lt_iff_toNat_lt.2 (by omega))
    refine ⟨c, ?_, hcg, fun n => ?_, fun n data => ?_⟩
    · rw [hc, hsum, origin, Nat.add_assoc]
    · rw [request, hbelow]
      exact hread n
    · rw [request, hbelow]
      exact hwrite n data

/-- A window refuses by itself to read past its end. -/
theorem request_read_of_not_lt {b : UInt64} (hb : ¬ b < w.extent.blocks) (n : Nat) :
    (Volume.window base w).request (.read b n) = .done (.error .device) := by
  have hbelow : w.below? b = none := if_neg hb
  rw [request, hbelow]
  rfl

/-- A window refuses by itself to write past its end. -/
theorem request_write_of_not_lt {b : UInt64} (hb : ¬ b < w.extent.blocks) {n : Nat}
    (data : Buffer n) :
    (Volume.window base w).request (.write b data) = .done (.error .device) := by
  have hbelow : w.below? b = none := if_neg hb
  rw [request, hbelow]
  rfl

/-- The blocks of the disk that the volume covers. -/
def covered (v : Volume) : Set Nat := {c | v.origin ≤ c ∧ c < v.origin + v.numBlocks.toNat}

/-- A view stays among the blocks it covers. -/
theorem Nested.stays (h : (Volume.window base w).Nested g) :
    (Volume.window base w).Stays (Volume.window base w).covered := by
  have hmem : ∀ {b c : UInt64}, b < w.extent.blocks →
      c.toNat = (Volume.window base w).origin + b.toNat →
      c.toNat ∈ (Volume.window base w).covered := fun hb hc =>
    ⟨hc ▸ Nat.le_add_right _ _, hc ▸ Nat.add_lt_add_left (UInt64.lt_iff_toNat_lt.1 hb) _⟩
  intro r
  cases r with
  | init => trivial
  | deinit => trivial
  | read b n =>
    by_cases hb : b < w.extent.blocks
    · obtain ⟨c, hc, -, hread, -⟩ := h.exists_block hb
      rw [hread]
      exact Script.only_request (hmem hb hc)
    · rw [request_read_of_not_lt hb]
      trivial
  | write b data =>
    by_cases hb : b < w.extent.blocks
    · obtain ⟨c, hc, -, -, hwrite⟩ := h.exists_block hb
      rw [hwrite]
      exact Script.only_request (hmem hb hc)
    · rw [request_write_of_not_lt hb]
      trivial

end Volume

/-! ## A disk with the contents of a view -/

section

open BlockStore

variable {δ σ : Type} [BlockStore δ] [BlockStore σ] {g : Geometry} {v base : Volume} {w : Window}
  {s : δ} {d : σ}

/-- The disk `d` has the shape of the volume, and its blocks hold what those of the volume hold on
the disk `s`. -/
structure Volume.Mirrors (v : Volume) (s : δ) (d : σ) : Prop where
  /-- the disk has the shape of the volume -/
  geometry_eq : BlockStore.geometry d = v.geometry
  /-- and its contents -/
  byteAt_eq : ∀ (b c : UInt64) (k : Nat), b < v.numBlocks → c.toNat = v.origin + b.toNat →
    k < v.blockSize.toNat → byteAt d b k = byteAt s c k

variable [LawfulBlockStore σ]

/-- The first blocks of any disk can be given any contents, one block after the other. -/
theorem LawfulBlockStore.exists_byteAt_eq_below (d₀ : σ) (content : UInt64 → Nat → UInt8) {n : Nat}
    (hn : n ≤ (geometry d₀).numBlocks.toNat) :
    ∃ d : σ, geometry d = geometry d₀ ∧ ∀ (b : UInt64) (k : Nat), b.toNat < n →
      k < (geometry d₀).blockSize.toNat → byteAt d b k = content b k := by
  induction n with
  | zero => exact ⟨d₀, rfl, fun _ _ h => absurd h (Nat.not_lt_zero _)⟩
  | succ n ih =>
    obtain ⟨d, hg, hd⟩ := ih (Nat.le_of_succ_le hn)
    have htoNat : (UInt64.ofNat n).toNat = n :=
      UInt64.toNat_ofNat_of_lt' (Nat.lt_trans hn (geometry d₀).numBlocks.toNat_lt)
    have hacc : (geometry d).Accepts (UInt64.ofNat n) (geometry d₀).blockSize.toNat := by
      rw [hg]
      exact ⟨rfl, UInt64.lt_iff_toNat_lt.2 (by omega)⟩
    obtain ⟨d', -, hg', hd'⟩ := write_of_accepts
      (Vector.ofFn fun k => content (UInt64.ofNat n) k.val) hacc
    refine ⟨d', hg'.trans hg, fun b k hb hk => ?_⟩
    have hlt : b < (geometry d).numBlocks := by
      rw [hg]
      exact UInt64.lt_iff_toNat_lt.2 (by omega)
    rw [hd' b k hk hlt]
    split
    · rename_i heq
      rw [heq, Vector.getElem_ofFn]
    · rename_i hne
      have hbn : b.toNat ≠ n := fun h => hne (UInt64.toNat.inj (h.trans htoNat.symm))
      exact hd b k (by omega) hk

/-- Any disk of the right shape can be given the contents of a volume. -/
theorem Volume.exists_mirrors (v : Volume) (s : δ) (d₀ : σ)
    (h : BlockStore.geometry d₀ = v.geometry) : ∃ d : σ, v.Mirrors s d := by
  obtain ⟨d, hg, hd⟩ := LawfulBlockStore.exists_byteAt_eq_below d₀
    (fun b k => byteAt s (UInt64.ofNat (v.origin + b.toNat)) k) (Nat.le_refl _)
  rw [h] at hg hd
  refine ⟨d, hg, fun b c k hb hc hk => ?_⟩
  rw [hd b k (UInt64.lt_iff_toNat_lt.1 hb) hk, ← hc, UInt64.ofNat_toNat]

variable [LawfulBlockStore δ] {b c : UInt64} {n : Nat}

omit [LawfulBlockStore δ] [LawfulBlockStore σ] in
/-- A buffer fits a block of the view exactly if it fits the block of the disk. -/
theorem Volume.Mirrors.accepts_iff (h : v.Mirrors s d) (hv : v.Nested (BlockStore.geometry s))
    (hb : b < v.numBlocks) (hc : c < (BlockStore.geometry s).numBlocks) :
    (BlockStore.geometry d).Accepts b n ↔ (BlockStore.geometry s).Accepts c n := by
  rw [h.geometry_eq]
  exact ⟨fun ha => ⟨ha.1.trans (congrArg _ hv.blockSize_eq), hc⟩,
    fun ha => ⟨ha.1.trans (congrArg _ hv.blockSize_eq.symm), hb⟩⟩

/-- A block of the view reads as that of the disk with its contents. -/
theorem Volume.Mirrors.read_eq (h : v.Mirrors s d) (hv : v.Nested (BlockStore.geometry s))
    (hb : b < v.numBlocks) (hc : c < (BlockStore.geometry s).numBlocks)
    (hbc : c.toNat = v.origin + b.toNat) : BlockStore.read s c n = BlockStore.read d b n := by
  by_cases hacc : (BlockStore.geometry d).Accepts b n
  · have hn : n = v.blockSize.toNat := by rw [hacc.1, h.geometry_eq]
    rw [LawfulBlockStore.read_of_accepts hacc,
      LawfulBlockStore.read_of_accepts ((h.accepts_iff hv hb hc).1 hacc)]
    congr 2
    funext k
    exact (h.byteAt_eq b c k hb hbc (hn ▸ k.isLt)).symm
  · rw [LawfulBlockStore.read_of_not_accepts hacc,
      LawfulBlockStore.read_of_not_accepts fun ha => hacc ((h.accepts_iff hv hb hc).2 ha)]

/-- Writing a block of the view and that of the disk with its contents succeeds for the same
buffers, and leaves the same contents. -/
theorem Volume.Mirrors.write (h : v.Mirrors s d) (hv : v.Nested (BlockStore.geometry s))
    (hb : b < v.numBlocks) (hc : c < (BlockStore.geometry s).numBlocks)
    (hbc : c.toNat = v.origin + b.toNat) (data : Buffer n) :
    (∃ s' d', BlockStore.write s c data = .ok s' ∧ BlockStore.write d b data = .ok d' ∧
      BlockStore.geometry s' = BlockStore.geometry s ∧ v.Mirrors s' d') ∨
    BlockStore.write s c data = .error .device ∧ BlockStore.write d b data = .error .device := by
  by_cases hacc : (BlockStore.geometry d).Accepts b n
  · left
    obtain ⟨d', hd', hgd, hbytes⟩ := LawfulBlockStore.write_of_accepts data hacc
    obtain ⟨s', hs', hgs, hbytes'⟩ :=
      LawfulBlockStore.write_of_accepts data ((h.accepts_iff hv hb hc).1 hacc)
    refine ⟨s', d', hs', hd', hgs, hgd.trans h.geometry_eq, fun x y k hx hxy hk => ?_⟩
    have hkn : k < n := by rwa [hacc.1, h.geometry_eq]
    obtain ⟨y', hy', hlt, -⟩ := hv.exists_block hx
    obtain rfl : y = y' := UInt64.toNat.inj (hxy.trans hy'.symm)
    rw [hbytes x k hkn (by rwa [h.geometry_eq]), hbytes' y k hkn hlt]
    -- the blocks of the view lie apart on the disk
    have heq : x = b ↔ y = c := by
      rw [← UInt64.toNat_inj, ← UInt64.toNat_inj, hxy, hbc, Nat.add_left_cancel_iff]
    rw [if_congr heq rfl (h.byteAt_eq x y k hx hxy hk)]
  · right
    exact ⟨LawfulBlockStore.write_of_not_accepts data fun ha =>
        hacc ((h.accepts_iff hv hb hc).2 ha), LawfulBlockStore.write_of_not_accepts data hacc⟩

/-- A request has the same answer from a view and from a disk with its contents, and leaves them
with the same contents. -/
theorem Volume.Mirrors.answer (h : (Volume.window base w).Mirrors s d)
    (hv : (Volume.window base w).Nested (BlockStore.geometry s)) (r : BlockRequest) :
    (((Volume.window base w).request r).run BlockStore.answer s).1 = (BlockStore.answer r d).1 ∧
      BlockStore.geometry (((Volume.window base w).request r).run BlockStore.answer s).2 =
        BlockStore.geometry s ∧
      (Volume.window base w).Mirrors (((Volume.window base w).request r).run BlockStore.answer s).2
        (BlockStore.answer r d).2 := by
  have hrefuse : ∀ {b : UInt64} {n : Nat}, ¬ b < w.extent.blocks →
      ¬ (BlockStore.geometry d).Accepts b n := by
    intro b n hb hacc
    rw [h.geometry_eq] at hacc
    exact hb hacc.2
  cases r with
  | init => exact ⟨rfl, rfl, h⟩
  | deinit => exact ⟨rfl, rfl, h⟩
  | read b n =>
    by_cases hb : b < w.extent.blocks
    · obtain ⟨c, hbc, hc, hread, -⟩ := hv.exists_block hb
      rw [hread]
      exact ⟨h.read_eq hv hb hc hbc, rfl, h⟩
    · rw [request_read_of_not_lt hb]
      exact ⟨(LawfulBlockStore.read_of_not_accepts (hrefuse hb)).symm, rfl, h⟩
  | write b data =>
    by_cases hb : b < w.extent.blocks
    · obtain ⟨c, hbc, hc, -, hwrite⟩ := hv.exists_block hb
      rw [hwrite, Script.run_request]
      rcases h.write hv hb hc hbc data with ⟨s', d', hs', hd', hg, h'⟩ | ⟨hs', hd'⟩
      · simp only [BlockStore.answer, hs', hd']
        exact ⟨trivial, hg, h'⟩
      · simp only [BlockStore.answer, hs', hd']
        exact ⟨trivial, trivial, h⟩
    · rw [request_write_of_not_lt hb]
      have hd' := LawfulBlockStore.write_of_not_accepts data (hrefuse hb)
      simp only [BlockStore.answer, hd']
      exact ⟨rfl, rfl, h⟩

end

/-! ## Views on the bench -/

namespace Bench

open BlockStore

variable {δ φ α : Type} [BlockStore δ] {w : Bench δ φ} {v : Volume}

omit [BlockStore δ] in
theorem store_conclude (c : Call) (r : Outcome ErrorCode α) : (w.conclude c r).store = w.store := by
  cases r <;> rfl

omit [BlockStore δ] in
/-- Without faults a call acts. -/
theorem perform_of_quiet (hq : w.Quiet) (c : Call)
    (act : Bench δ φ → Except ErrorCode α × Bench δ φ) :
    (w.perform c act).1 = (act (w.consult c).2).1 ∧
      (w.perform c act).2.store = (act (w.consult c).2).2.store := by
  have hnone := hq.consult_eq_none c
  rw [perform]
  rcases hc : w.consult c with ⟨hit, w₁⟩
  rw [hc] at hnone
  obtain rfl : hit = none := hnone
  exact ⟨rfl, store_conclude c _⟩

/-- Without faults the disk answers from its store. -/
theorem block_of_quiet (hq : w.Quiet) (r : BlockRequest) :
    (block r w).1 = (BlockStore.answer r w.store).1 ∧
      (block r w).2.store = (BlockStore.answer r w.store).2 := by
  cases r with
  | init => exact perform_of_quiet hq _ _
  | deinit => exact perform_of_quiet hq _ _
  | read b n => exact perform_of_quiet hq _ _
  | write b data => exact perform_of_quiet hq _ _

variable [LawfulBlockStore δ]

theorem Quiet.block (hq : w.Quiet) (r : BlockRequest) : (block r w).2.Quiet := by
  have ha : w.Alters Set.univ [] (Bench.block r w).2 := by
    refine alters_block ?_ w
    cases r <;> trivial
  exact ha.quiet hq

/-- Without faults a program over a volume runs as on the store. -/
theorem run_block_of_quiet (hq : w.Quiet) (x : BlockScript α) :
    (x.run block w).1 = (x.run BlockStore.answer w.store).1 ∧
      (x.run block w).2.Quiet ∧ (x.run block w).2.store = (x.run BlockStore.answer w.store).2 := by
  have hstep : ∀ (r : BlockRequest) (w : Bench δ φ) (s : δ), w.Quiet ∧ w.store = s →
      (block r w).1 = (BlockStore.answer r s).1 ∧
        (block r w).2.Quiet ∧ (block r w).2.store = (BlockStore.answer r s).2 := by
    rintro r w s ⟨hq, rfl⟩
    obtain ⟨hanswer, hstore⟩ := block_of_quiet hq r
    exact ⟨hanswer, hq.block r, hstore⟩
  exact (Script.run_related hstep x ⟨hq, rfl⟩).2

omit [LawfulBlockStore δ] in
/-- A program over a volume makes its requests of the volume one after the other. -/
theorem runOn_eq_run (v : Volume) (x : BlockScript α) (w : Bench δ φ) :
    w.runOn v x = x.run (fun r w => w.runOn v (Script.request r)) w := by
  simp only [runOn, Volume.relay, Script.expand_request, Script.run_expand]

end Bench

/-- On the bench `w` a program over the volume goes as on the disk `d`. -/
structure Volume.Emulates {δ σ φ α : Type} [BlockStore δ] [BlockStore σ] (v : Volume)
    (w : Bench δ φ) (d : σ) (x : BlockScript α) : Prop where
  /-- its requests have the same answers -/
  trace_eq : x.trace (fun r w => w.runOn v (Script.request r)) w = x.trace BlockStore.answer d
  /-- it ends with the same value -/
  value_eq : (w.runOn v x).1 = (x.run BlockStore.answer d).1
  /-- the disk still has the contents of the volume -/
  mirrors : v.Mirrors (w.runOn v x).2.store (x.run BlockStore.answer d).2
  /-- and the rest of what the volume lies on is as it was -/
  alters : w.Alters v.covered [] (w.runOn v x).2

section

open BlockStore

variable {δ σ φ α : Type} [BlockStore δ] [LawfulBlockStore δ] [BlockStore σ] [LawfulBlockStore σ]
  {w : Bench δ φ} {base : Volume} {window : Window} {d : σ}

/-- Without faults a request of a view on the bench goes as on the disk. -/
theorem Volume.Mirrors.request (hd : (Volume.window base window).Mirrors w.store d)
    (hv : (Volume.window base window).Nested (BlockStore.geometry w.store)) (hq : w.Quiet)
    (r : BlockRequest) :
    (w.runOn (.window base window) (Script.request r)).1 = (BlockStore.answer r d).1 ∧
      (w.runOn (.window base window) (Script.request r)).2.Quiet ∧
      BlockStore.geometry (w.runOn (.window base window) (Script.request r)).2.store =
        BlockStore.geometry w.store ∧
      (Volume.window base window).Mirrors
        (w.runOn (.window base window) (Script.request r)).2.store (BlockStore.answer r d).2 := by
  rw [Bench.runOn, Volume.relay, Script.expand_request]
  obtain ⟨hanswer, hquiet, hstore⟩ :=
    Bench.run_block_of_quiet hq ((Volume.window base window).request r)
  rw [hanswer, hstore]
  obtain ⟨hsame, hgeometry, hmirrors⟩ := hd.answer hv r
  exact ⟨hsame, hquiet, hgeometry, hmirrors⟩

/-- Without faults a program over a view on the bench goes as on the disk. -/
theorem Volume.Mirrors.emulates (hd : (Volume.window base window).Mirrors w.store d)
    (hv : (Volume.window base window).Nested (BlockStore.geometry w.store)) (hq : w.Quiet)
    (x : BlockScript α) : (Volume.window base window).Emulates w d x := by
  have hstep : ∀ (r : BlockRequest) (w' : Bench δ φ) (d : σ),
      w'.Quiet ∧ BlockStore.geometry w'.store = BlockStore.geometry w.store ∧
        (Volume.window base window).Mirrors w'.store d →
      (w'.runOn (.window base window) (Script.request r)).1 = (BlockStore.answer r d).1 ∧
        (w'.runOn (.window base window) (Script.request r)).2.Quiet ∧
        BlockStore.geometry (w'.runOn (.window base window) (Script.request r)).2.store =
          BlockStore.geometry w.store ∧
        (Volume.window base window).Mirrors
          (w'.runOn (.window base window) (Script.request r)).2.store
          (BlockStore.answer r d).2 := by
    rintro r w' d ⟨hq, hg, hd⟩
    obtain ⟨hsame, hquiet, hgeometry, hmirrors⟩ := hd.request (hg ▸ hv) hq r
    exact ⟨hsame, hquiet, hgeometry.trans hg, hmirrors⟩
  obtain ⟨htrace, hvalue, -, -, hend⟩ := Script.run_related hstep x ⟨hq, rfl, hd⟩
  rw [← Bench.runOn_eq_run] at hvalue hend
  exact ⟨htrace, hvalue, hend, Bench.alters_runOn hv.stays x w⟩

end

namespace Partition

open BlockStore

variable {δ σ φ α : Type} [BlockStore δ] [LawfulBlockStore δ] [BlockStore σ] [LawfulBlockStore σ]
  {w : Bench δ φ} {base : Volume} {p : Partition}

/-- The view of a partition is a block device of its own: without faults, no program can tell it
from a disk that has as many blocks as the partition and starts with their contents. It covers the
blocks of the disk from the sum of all the starts on, and all other blocks keep their bytes. -/
theorem view_stands_alone (hbase : base.Obtained (geometry w.store)) (hp : p.LocatedOn base)
    (hq : w.Quiet) :
    ∃ (e : Extent) (v : Volume), p.extent = some e ∧ p.volume? base = some v ∧
      v.geometry = ⟨(geometry w.store).blockSize, e.blocks⟩ ∧
      v.origin = base.origin + e.start.toNat ∧
      (∃ d : SparseDisk, v.Mirrors w.store d) ∧
      ∀ d : σ, v.Mirrors w.store d → ∀ x : BlockScript α, v.Emulates w d x := by
  obtain ⟨window, hwindow, hbound⟩ := hp.exists_window
  have hnested : (Volume.window base window).Nested (geometry w.store) :=
    .window hbase.nested hbound
  refine ⟨window.extent, .window base window, ?_, ?_, ?_, rfl, ?_, fun d hd x => ?_⟩
  · rw [extent, hwindow, Option.map_some]
  · rw [volume?, hwindow, Option.map_some]
  · exact congrArg (Geometry.mk · window.extent.blocks) hbase.nested.blockSize_eq
  · exact Volume.exists_mirrors _ _ (SparseDisk.new _) rfl
  · exact hd.emulates hnested hq x

/-- What a run locates is located. -/
theorem locatedOn_of_locate {number : UInt8} {window : Window} {log : Log}
    (h : (locate base number).Runs log (.ok window)) : LocatedOn ⟨number, some window⟩ base :=
  ⟨new number, log ++ [], Script.runs_bind_iff.2 ⟨log, _, [], h, .done _, rfl⟩⟩

theorem locatedOn_lonePartition :
    LocatedOn ⟨1, some ⟨⟨1, 10⟩, by decide⟩⟩ lonePartition.disk := by
  have hrun := Script.runs_trace Bench.answer (locate lonePartition.disk 1) lonePartition
  obtain ⟨-, hok, hends⟩ := Bench.ensures_iff.1
    (Bench.ensures_locate (w := lonePartition) (g := geometry lonePartition.store) rfl 1)
  have hcarries : (geometry lonePartition.store).Carries := ⟨by decide, by decide, by decide⟩
  rcases hends (fun _ hf => nomatch hf) hcarries with ⟨window, hwindow⟩ | ⟨-, hmiss⟩
  · obtain ⟨-, e, hfind, -, hextent⟩ := hok window hwindow
    obtain ⟨-, rfl⟩ := find_lonePartition.1 hfind
    obtain ⟨extent, haddressable⟩ := window
    obtain rfl : extent = ⟨1, 10⟩ := hextent
    rw [Bench.run] at hwindow
    rw [Bench.disk, hwindow] at hrun
    exact locatedOn_of_locate hrun
  · exact absurd (by decide) (hmiss _ (find_lonePartition.2 ⟨rfl, rfl⟩))

/-- The view of that partition is a disk of ten blocks. -/
theorem view_stands_alone_lone :
    ∃ (e : Extent) (v : Volume),
      (⟨1, some ⟨⟨1, 10⟩, by decide⟩⟩ : Partition).extent = some e ∧
      (⟨1, some ⟨⟨1, 10⟩, by decide⟩⟩ : Partition).volume? lonePartition.disk = some v ∧
      v.geometry = ⟨(geometry lonePartition.store).blockSize, e.blocks⟩ ∧
      v.origin = lonePartition.disk.origin + e.start.toNat ∧
      (∃ d : SparseDisk, v.Mirrors lonePartition.store d) ∧
      ∀ d : SparseDisk, v.Mirrors lonePartition.store d → ∀ x : BlockScript Unit,
        v.Emulates lonePartition d x :=
  view_stands_alone .disk locatedOn_lonePartition fun _ hf => nomatch hf

end Partition

end DiskBringup
