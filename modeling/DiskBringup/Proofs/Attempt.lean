import DiskBringup.Proofs.Requests
import DiskBringup.Proofs.TableOnDisk

/-!
# One attempt on a slot

What an attempt to bring a slot up comes to, whatever the filesystem's driver does and whichever
calls are hit by faults. Either the partition is not located, and then nothing on the disk is
altered; or it is located at the blocks of its entry, and then its filesystem is populated, which
alters these blocks at most and makes the filesystem if there was none (`obeys_bringUp`,
`ensures_populate`). What the routine `Slot.create` adds is an entry written before the attempt
(`ensures_create`).
-/

namespace DiskBringup

/-- The filesystems that an attempt makes if it gets that far, by their names. -/
def Slot.makes (s : Slot) : List String := if s.hasFilesystem then [] else [s.spec.mountName]

namespace Bench

variable {δ φ : Type} [BlockStore δ] {w w' : Bench δ φ} {g : Geometry} {p : Request → Prop}

open BlockStore

/-- A window covers the blocks of the entry that a look-up of the number finds. -/
structure Locates (w : Bench δ φ) (g : Geometry) (number : UInt8) (window : Window) (e : Entry) :
    Prop where
  /-- the disk can hold a table -/
  carries : g.Carries
  /-- the entry is found -/
  find_eq : (w.table.find number).value = .ok e
  /-- the entry ends on the disk -/
  bound_le : e.extent.bound ≤ g.numBlocks.toNat
  /-- the window covers its blocks -/
  extent_eq : window.extent = e.extent

/-- How an attempt on a slot ends: the partition is missed, or it is located and its filesystem is
populated. -/
inductive Attempt (g : Geometry) (s : Slot) (w : Bench δ φ)
    (populated : Window → Bench δ φ → Outcome StorageError Unit → Bench δ φ → Prop) :
    Outcome StorageError Unit × Slot → Bench δ φ → Prop
  /-- nothing is altered, and without faults there is no entry to be found that lies on the disk -/
  | missed {r : Outcome StorageError Unit} {w' : Bench δ φ} (partition : Option Partition)
    (hr : r ≠ .ok ()) (hpartition : partition = s.partition ∨ partition = some (.new s.number))
    (ha : w.Alters ∅ [] w')
    (hquiet : w.Quiet → g.Carries → (∃ err, r = .fail err) ∧
      ∀ e, (w.table.find s.number).value = .ok e → ¬ e.extent.bound ≤ g.numBlocks.toNat) :
    Attempt g s w populated (r, { s with partition := partition }) w'
  /-- the partition stays located, and its filesystem exists -/
  | located {r : Outcome StorageError Unit} {w₁ w' : Bench δ φ} {window : Window} {e : Entry}
    (hl : w.Locates g s.number window e) (ha : w.Alters ∅ [] w₁)
    (hpopulated : populated window w₁ r w') :
    Attempt g s w populated
      (r, { s with partition := some ⟨s.number, some window⟩, hasFilesystem := true }) w'

variable [LawfulBlockStore δ] [FilesystemDriver φ]

/-- An attempt to bring a slot up. What populating the filesystem obeys is taken as it is. -/
theorem obeys_bringUp {s : Slot}
    {populated : Window → Bench δ φ → Outcome StorageError Unit → Bench δ φ → Prop}
    (hg : geometry w.store = g) (hp : ∀ req : Request, req.Passive → p req)
    (hpop : ∀ (window : Window) (e : Entry) (w₁ : Bench δ φ), w.Locates g s.number window e →
      w.Alters ∅ [] w₁ →
      w₁.Obeys p (s.populate (.window (.disk g) window)) (populated window w₁)) :
    w.Obeys p (s.bringUp (.disk g)) (Attempt g s w populated) := by
  have honly := (only_locate (.disk g) s.number).mono hp
  refine ((ensures_locate hg s.number).obeys honly).bind ?_
  rintro r w₁ ⟨h₁, hok, hquiet⟩
  cases r with
  | ok window =>
    obtain ⟨hc, e, hfind, hle, hextent⟩ := hok window rfl
    have hl : w.Locates g s.number window e := ⟨hc, hfind, hle, hextent⟩
    refine (hpop window e w₁ hl h₁).bind ?_
    intro r w₂ hpopulated
    exact obeys_pure (.located hl h₁ hpopulated)
  | fail code =>
    have hnote : w₁.Ensures (Routine.note (.partitionInitFailed s.number code)) fun _ w' =>
        w₁.Alters ∅ [] w' := ensures_note _ w₁
    refine (hnote.obeys (Script.only_request (hp _ trivial))).bind ?_
    intro _ w₂ h₂
    refine obeys_pure (.missed _ (by simp) (.inr rfl) (h₁.trans h₂) fun hq hc => ⟨⟨_, rfl⟩, ?_⟩)
    rcases hquiet hq hc with ⟨window, h⟩ | ⟨-, hmissing⟩
    · cases h
    · exact hmissing
  | overflow o =>
    -- without faults a look-up on a disk that can hold a table does not overflow
    refine obeys_pure (.missed s.partition (by simp) (.inl rfl) h₁ fun hq hc => ?_)
    rcases hquiet hq hc with ⟨window, h⟩ | ⟨⟨code, h⟩, -⟩
    · cases h
    · cases h

/-! ## What populating a filesystem alters -/

section Footprint

variable {blocks : Set Nat} {v : Volume}

theorem ensures_format (hv : v.Stays blocks) (fs : Filesystem) (w : Bench δ φ) :
    w.Ensures (fs.format v) fun _ w' => w.Alters blocks [] w' := by
  refine (ensures_note _ w).bind ?_
  intro _ w₁ h₁
  have hreformat : w₁.Ensures (Routine.reformat fs v) fun _ w' => w₁.Alters blocks [] w' :=
    obeys_request trivial (alters_reformat hv fs w₁)
  refine hreformat.bind ?_
  intro r w₂ h₂
  have h₁₂ := h₁.of_empty.trans h₂
  cases r with
  | ok u => exact obeys_pure h₁₂
  | overflow o => exact obeys_pure h₁₂
  | fail code =>
    refine (ensures_note _ w₂).bind ?_
    intro _ w₃ h₃
    exact obeys_pure (h₁₂.trans h₃.of_empty)

theorem ensures_probe (hv : v.Stays blocks) (fs : Filesystem) (w : Bench δ φ) :
    w.Ensures (fs.probe v) fun _ w' => w.Alters blocks [] w' := by
  have hunmount : w.Ensures (Routine.unmount fs) fun _ w' => w.Alters blocks [] w' :=
    obeys_request trivial (alters_unmount fs w)
  refine hunmount.bind ?_
  intro r w₁ h₁
  cases r with
  | error code =>
    refine (ensures_note _ w₁).bind ?_
    intro _ w₂ h₂
    exact obeys_pure (h₁.trans h₂.of_empty)
  | ok u =>
    have hmount : w₁.Ensures (Routine.mount fs v) fun _ w' => w₁.Alters blocks [] w' :=
      obeys_request trivial (alters_mount hv fs w₁)
    refine hmount.bind ?_
    intro r w₂ h₂
    cases r with
    | ok u => exact obeys_pure (h₁.trans h₂)
    | overflow o => exact obeys_pure (h₁.trans h₂)
    | fail code =>
      refine (ensures_note _ w₂).bind ?_
      intro _ w₃ h₃
      exact obeys_pure ((h₁.trans h₂).trans h₃.of_empty)

theorem ensures_probeOrFormat (hv : v.Stays blocks) (fs : Filesystem) (announcement : Note)
    (w : Bench δ φ) :
    w.Ensures (fs.probeOrFormat v announcement) fun _ w' => w.Alters blocks [] w' := by
  refine (ensures_probe hv fs w).bind ?_
  intro r w₁ h₁
  cases r with
  | ok u => exact obeys_pure h₁
  | overflow o => exact obeys_pure h₁
  | fail err =>
    refine (ensures_note _ w₁).bind ?_
    intro _ w₂ h₂
    exact (ensures_format hv fs w₂).imp fun _ _ h₃ => (h₁.trans h₂.of_empty).trans h₃

theorem ensures_supply (hv : v.Stays blocks) (s : Slot) (w : Bench δ φ) :
    w.Ensures (s.supply v) fun _ w' => w.Alters blocks s.makes w' := by
  rw [Slot.supply, Slot.makes]
  split
  · refine (ensures_note _ w).bind ?_
    intro _ w₁ h₁
    exact (ensures_format hv s.filesystem w₁).imp fun _ _ h₂ => h₁.of_empty.trans h₂
  · have hcreate : w.Ensures (Routine.create s.number s.spec.mountName v) fun _ w' =>
        w.Alters blocks [s.spec.mountName] w' := obeys_request trivial (alters_create hv _ _ w)
    refine hcreate.bind ?_
    intro _ w₁ h₁
    exact obeys_pure h₁

/-- Populating the filesystem of a slot alters its volume at most, and makes the filesystem if
there was none. -/
theorem ensures_populate (hv : v.Stays blocks) (s : Slot) (w : Bench δ φ) :
    w.Ensures (s.populate v) fun _ w' => w.Alters blocks s.makes w' := by
  refine (ensures_supply hv s w).bind ?_
  intro r w₁ h₁
  cases r with
  | fail err => exact obeys_pure h₁
  | overflow o => exact obeys_pure h₁
  | ok u =>
    exact (ensures_probeOrFormat hv s.filesystem _ w₁).imp fun _ _ h₂ => h₁.trans_nil h₂

end Footprint

/-! ## Writing an entry before the attempt -/

/-- How the creation of a partition ends: nothing is altered, or the entry is written and a slot
is brought up after that. -/
theorem ensures_create {s : Slot} {extent : Extent}
    {q : Outcome StorageError Unit × Slot → Bench δ φ → Prop} (hg : geometry w.store = g)
    (hrefused : ∀ (r : Outcome StorageError Unit) (w' : Bench δ φ), r ≠ .ok () →
      w.Alters ∅ [] w' → (w.Quiet → g.Carries → extent.Placeable g →
        ∀ t, w.table.rewritten s.number s.spec.kind extent ≠ .ok t) → q (r, s) w')
    (hwritten : ∀ w₁ : Bench δ φ, g.Carries → extent.Placeable g →
      w.table.rewritten s.number s.spec.kind extent = .ok w₁.table → w.Alters {0} [] w₁ →
      w₁.Ensures (s.bringUp (.disk g)) q) :
    w.Ensures (s.create (.disk g) extent) q := by
  refine (ensures_note _ w).bind ?_
  intro _ w₁ h₁
  refine (ensures_writeEntry (h₁.geometry_eq.trans hg) s.number s.spec.kind extent).bind ?_
  intro r w₂ hw
  have htable : g.Carries → w₁.table = w.table := fun hc =>
    h₁.table_eq (hg ▸ hc.sectorSize_le) (hg ▸ hc.pos) (Set.notMem_empty 0)
  cases r with
  | ok u =>
    obtain ⟨hc, hplace, hrewritten, h₂, -⟩ := hw.of_ok rfl
    rw [htable hc] at hrewritten
    exact hwritten w₂ hc hplace hrewritten (h₁.of_empty.trans h₂)
  | fail err =>
    have h₂ := hw.of_ne (by simp)
    refine (ensures_note _ w₂).bind ?_
    intro _ w₃ h₃
    refine obeys_pure (hrefused _ _ (by simp) (h₁.trans (h₂.trans h₃)) ?_)
    intro hq hc hplace t ht
    have hr := hw.of_quiet (h₁.quiet hq) hc hplace
    rw [htable hc, ht] at hr
    cases hr
  | overflow o =>
    have h₂ := hw.of_ne (by simp)
    refine obeys_pure (hrefused _ _ (by simp) (h₁.trans h₂) ?_)
    intro hq hc hplace t ht
    have hr := hw.of_quiet (h₁.quiet hq) hc hplace
    rw [htable hc, ht] at hr
    cases hr

end Bench

end DiskBringup
