import DiskBringup.Proofs.Attempt

/-!
# Filesystems that are known by their signature

What the calls of a `Signature` filesystem do on a window of the disk when no fault is pending. A
mount reads the first block of the window and goes by its mark; formatting succeeds on a window of
two blocks. So populating the filesystem of a slot succeeds on such a window
(`ensures_populate_of_quiet`), and a filesystem that is made on a marked window is mounted as it
stands, without a request to format it (`obeys_populate_of_marked`).
-/

namespace DiskBringup

/-- The window lies on a disk whose blocks fit in a buffer, and has the given number of blocks. -/
structure Window.Spans (window : Window) (g : Geometry) (n : Nat) : Prop where
  /-- a block fits in a buffer -/
  le_maxLength : g.blockSize.toNat ≤ Buffer.maxLength
  /-- the window ends on the disk -/
  bound_le : window.extent.bound ≤ g.numBlocks.toNat
  /-- the window has so many blocks at least -/
  le_blocks : n ≤ window.extent.blocks.toNat

theorem Window.Spans.mono {window : Window} {g : Geometry} {m n : Nat} (h : window.Spans g n)
    (hmn : m ≤ n) : window.Spans g m :=
  ⟨h.le_maxLength, h.bound_le, Nat.le_trans hmn h.le_blocks⟩

/-- Block `b` of the window is a block of the disk. -/
theorem Window.Spans.exists_below {window : Window} {g : Geometry} {n : Nat} (h : window.Spans g n)
    {b : UInt64} (hb : b.toNat < n) :
    ∃ below, window.below? b = some below ∧ below.toNat = window.extent.start.toNat + b.toNat ∧
      g.Accepts below g.blockSize.toNat := by
  have hlt : b.toNat < window.extent.blocks.toNat := Nat.lt_of_lt_of_le hb h.le_blocks
  cases hbelow : window.below? b with
  | none =>
    rw [below?, if_pos (UInt64.lt_iff_toNat_lt.2 hlt)] at hbelow
    cases hbelow
  | some below =>
    obtain ⟨-, heq⟩ := Window.below?_eq_some_iff.1 hbelow
    refine ⟨below, rfl, heq, rfl, UInt64.lt_iff_toNat_lt.2 ?_⟩
    have hle := h.bound_le
    unfold Extent.bound at hle
    omega

theorem Window.Spans.start_lt {window : Window} {g : Geometry} (h : window.Spans g 1) :
    window.extent.start < g.numBlocks := by
  obtain ⟨below, -, heq, -, hlt⟩ := h.exists_below (b := 0) Nat.one_pos
  obtain rfl : window.extent.start = below := UInt64.toNat.inj heq.symm
  exact hlt

namespace Bench

/-! ## Programs over a window -/

section Programs

variable {δ φ α β : Type} [BlockStore δ] {w : Bench δ φ} {g : Geometry} {window : Window}

open BlockStore

/-- A block of the disk starts with the mark. -/
def marked (w : Bench δ φ) (b : UInt64) : Bool :=
  Signature.isMarked (Vector.ofFn fun k : Fin (geometry w.store).blockSize.toNat =>
    byteAt w.store b k.val)

theorem marked_congr {w' : Bench δ φ} {b : UInt64} (hg : geometry w'.store = geometry w.store)
    (h : ∀ k < (geometry w.store).blockSize.toNat, byteAt w'.store b k = byteAt w.store b k) :
    w'.marked b = w.marked b := by
  -- the block size stands in the type of the blocks, so it is made a variable first
  have hcongr : ∀ (m n : Nat) (f f' : Nat → UInt8), m = n → (∀ k < n, f k = f' k) →
      Signature.isMarked (Vector.ofFn fun k : Fin m => f k.val) =
        Signature.isMarked (Vector.ofFn fun k : Fin n => f' k.val) := by
    rintro m _ f f' rfl hf
    congr 2
    funext k
    exact hf k.val k.isLt
  exact hcongr _ _ _ _ (congrArg (fun g => g.blockSize.toNat) hg) h

/-- A block that is left alone keeps its mark. -/
theorem Alters.marked_eq {w' : Bench δ φ} {blocks : Set Nat} {made : List String}
    (h : w.Alters blocks made w') {b : UInt64} (hb : b.toNat ∉ blocks)
    (hlt : b < (geometry w.store).numBlocks) : w'.marked b = w.marked b :=
  marked_congr h.geometry_eq fun k hk => h.byteAt_eq b k hb hlt hk

omit [BlockStore δ] in
theorem setState_self (w : Bench δ φ) (fs : Filesystem) (s : φ) : (w.setState fs s).state fs = s :=
  if_pos rfl

omit [BlockStore δ] in
theorem state_conclude (c : Call) (r : Outcome ErrorCode α) : (w.conclude c r).state = w.state := by
  cases r <;> rfl

theorem runOn_bind (v : Volume) (x : BlockScript α) (f : α → BlockScript β) :
    w.runOn v (x >>= f) = (w.runOn v x).2.runOn v (f (w.runOn v x).1) := by
  simp only [runOn, Volume.relay, Script.expand_bind, Script.run_bind]

/-- A request of a window to read is one of the disk, with the block moved. -/
theorem runOn_read {b below : UInt64} (hb : window.below? b = some below) (n : Nat) :
    w.runOn ((Volume.disk g).window window) (Script.request (.read b n)) =
      block (.read below n) w := by
  simp only [runOn, Volume.relay, Script.expand_request, Volume.request, hb, Script.run_request]

/-- A request of a window to write is one of the disk, with the block moved. -/
theorem runOn_write {b below : UInt64} (hb : window.below? b = some below) {n : Nat}
    (data : Buffer n) :
    w.runOn ((Volume.disk g).window window) (Script.request (.write b data)) =
      block (.write below data) w := by
  simp only [runOn, Volume.relay, Script.expand_request, Volume.request, hb, Script.run_request]

/-- Without faults a call of a filesystem runs its program, and ends as the program does. -/
theorem drive_of_quiet (hq : w.Quiet) (c : Call) (fs : Filesystem) (v : Volume)
    (x : φ → Geometry → BlockScript (Outcome ErrorCode Unit × φ)) :
    ∃ w₁ : Bench δ φ, w.Alters ∅ [] w₁ ∧
      (w.drive c fs v x).1 = (w₁.runOn v (x (w.state fs) v.geometry)).1.1 ∧
      (w.drive c fs v x).2.state fs = (w₁.runOn v (x (w.state fs) v.geometry)).1.2 ∧
      (w₁.runOn v (x (w.state fs) v.geometry)).2.Alters ∅ [] (w.drive c fs v x).2 := by
  have hnone := hq.consult_eq_none c
  have hconsult : w.Alters ∅ [] (w.consult c).2 := alters_consult c
  refine ⟨(w.consult c).2, hconsult, ?_⟩
  -- asking the faults leaves the filesystems as they are
  have hstate : (w.consult c).2.state = w.state := rfl
  rw [drive]
  rcases hc : w.consult c with ⟨hit, w₁⟩
  rw [hc] at hnone hstate
  obtain rfl : hit = none := hnone
  rw [← hstate]
  have hset : ∀ (w : Bench δ φ) (s : φ), w.Alters ∅ [] (w.setState fs s) :=
    fun _ _ => alters_of_eq rfl rfl rfl
  refine ⟨rfl, ?_, (hset _ _).trans (alters_conclude c _)⟩
  exact (congrFun (state_conclude c _) fs).trans (setState_self _ fs _)

end Programs

/-! ## Calls of a filesystem on a window -/

variable {δ : Type} [BlockStore δ] [LawfulBlockStore δ] {w : Bench δ Signature} {g : Geometry}
  {window : Window}

open BlockStore

/-- The program of a mount goes by the mark of the window's first block. -/
theorem runOn_mount (hq : w.Quiet) (hg : geometry w.store = g) (hs : window.Spans g 1)
    (s : Signature) (n : UInt64) :
    (w.runOn ((Volume.disk g).window window) (s.mount ⟨g.blockSize, n⟩)).1 =
      (if w.marked window.extent.start then (.ok (), ⟨true⟩) else (.fail .noFilesystem, s)) ∧
    w.Alters ∅ [] (w.runOn ((Volume.disk g).window window) (s.mount ⟨g.blockSize, n⟩)).2 := by
  subst hg
  obtain ⟨below, hbelow, heq, hacc⟩ := hs.exists_below (b := 0) Nat.one_pos
  obtain rfl : window.extent.start = below := UInt64.toNat.inj heq.symm
  rw [Signature.mount, if_neg (Nat.not_lt.2 hs.le_maxLength), runOn_bind, runOn_read hbelow]
  obtain ⟨ha, ⟨code, -, hno⟩ | ⟨-, hok⟩⟩ := read_cases window.extent.start
    (geometry w.store).blockSize.toNat w
  · exact absurd hacc (hno hq)
  · rw [hok, marked]
    dsimp only
    split
    · exact ⟨rfl, ha⟩
    · exact ⟨rfl, ha⟩

/-- Formatting succeeds on a window of two blocks. -/
theorem runOn_reformat (hq : w.Quiet) (hg : geometry w.store = g) (hs : window.Spans g 2)
    (n : UInt64) :
    (w.runOn ((Volume.disk g).window window) (Signature.reformat ⟨g.blockSize, n⟩)).1 =
      (.ok (), ⟨true⟩) := by
  obtain ⟨first, hfirst, -, haccFirst⟩ := hs.exists_below (b := 0) Nat.two_pos
  obtain ⟨second, hsecond, -, haccSecond⟩ := hs.exists_below (b := 1) Nat.one_lt_two
  have hwrite : ∀ (w : Bench δ Signature) (b : UInt64) (data : Buffer g.blockSize.toNat),
      w.Quiet → geometry w.store = g → g.Accepts b g.blockSize.toNat →
      (block (.write b data) w).1 = .ok () ∧ w.Alters {b.toNat} [] (block (.write b data) w).2 := by
    rintro w b data hq rfl hacc
    rcases write_cases b data w with ⟨code, -, hno, -⟩ | ⟨hok, -, ha, -⟩
    · exact absurd hacc (hno hq)
    · exact ⟨hok, ha⟩
  rw [Signature.reformat, if_neg (Nat.not_lt.2 hs.le_maxLength), runOn_bind, runOn_write hfirst]
  obtain ⟨hok₁, ha₁⟩ := hwrite w first (Signature.firstBlock g.blockSize.toNat) hq hg haccFirst
  rw [hok₁]
  dsimp only
  rw [runOn_bind, runOn_write hsecond]
  obtain ⟨hok₂, -⟩ := hwrite _ second (Buffer.fill g.blockSize.toNat 0) (ha₁.quiet hq)
    (ha₁.geometry_eq.trans hg) haccSecond
  rw [hok₂]
  rfl

/-- Without faults, a mount succeeds exactly on a marked window, and writes nothing. -/
theorem mount_of_quiet (hq : w.Quiet) (hg : geometry w.store = g) (hs : window.Spans g 1)
    (fs : Filesystem) :
    w.Alters ∅ [] (w.mount fs ((Volume.disk g).window window)).2 ∧
      if w.marked window.extent.start then
        (w.mount fs ((Volume.disk g).window window)).1 = .ok () ∧
          (w.mount fs ((Volume.disk g).window window)).2.state fs = ⟨true⟩
      else (w.mount fs ((Volume.disk g).window window)).1 = .fail .noFilesystem := by
  obtain ⟨w₁, h₁, hr, hstate, ha⟩ := drive_of_quiet hq (.mount (w.name fs)) fs
    ((Volume.disk g).window window) FilesystemDriver.mount
  obtain ⟨hresult, ha₁⟩ := runOn_mount (h₁.quiet hq) (h₁.geometry_eq.trans hg) hs (w.state fs)
    window.extent.blocks
  refine ⟨h₁.trans (ha₁.trans ha), ?_⟩
  rw [h₁.marked_eq (Set.notMem_empty _) (hg ▸ hs.start_lt)] at hresult
  split at hresult <;> rename_i hm
  · rw [if_pos hm]
    exact ⟨hr.trans (congrArg Prod.fst hresult), hstate.trans (congrArg Prod.snd hresult)⟩
  · rw [if_neg hm]
    exact hr.trans (congrArg Prod.fst hresult)

/-- Without faults, formatting a window of two blocks succeeds. -/
theorem reformat_of_quiet (hq : w.Quiet) (hg : geometry w.store = g) (hs : window.Spans g 2)
    (fs : Filesystem) : (w.reformat fs ((Volume.disk g).window window)).1 = .ok () := by
  obtain ⟨w₁, h₁, hr, -, -⟩ := drive_of_quiet hq (.reformat (w.name fs)) fs
    ((Volume.disk g).window window) FilesystemDriver.reformat
  have hresult := runOn_reformat (h₁.quiet hq) (h₁.geometry_eq.trans hg) hs window.extent.blocks
  exact hr.trans (congrArg Prod.fst hresult)

omit [BlockStore δ] [LawfulBlockStore δ] in
/-- Without faults, a mounted filesystem is unmounted. -/
theorem unmount_of_quiet (hq : w.Quiet) (fs : Filesystem) (hmounted : w.state fs = ⟨true⟩) :
    (w.unmount fs).1 = .ok () := by
  have hnone := hq.consult_eq_none (.unmount (w.name fs))
  have hstate : (w.consult (.unmount (w.name fs))).2.state fs = ⟨true⟩ := hmounted
  rw [unmount, perform]
  rcases hc : w.consult (.unmount (w.name fs)) with ⟨hit, w₁⟩
  rw [hc] at hnone hstate
  obtain rfl : hit = none := hnone
  exact congrArg (fun s => (Signature.unmount s).1) hstate

/-! ## Populating the filesystem of a slot -/

theorem ensures_format_of_quiet (hq : w.Quiet) (hg : geometry w.store = g)
    (hs : window.Spans g 2) (fs : Filesystem) :
    w.Ensures (fs.format (.window (.disk g) window)) fun r _ => r = .ok () := by
  refine (ensures_note _ w).bind ?_
  intro _ w₁ h₁
  have hreformat : w₁.Ensures (Routine.reformat fs (.window (.disk g) window)) fun r _ =>
      r = .ok () :=
    obeys_request trivial (reformat_of_quiet (h₁.quiet hq) (h₁.geometry_eq.trans hg) hs fs)
  refine hreformat.bind ?_
  rintro r w₂ rfl
  exact obeys_pure rfl

/-- Without faults, a probe succeeds or fails; it does not overflow. -/
theorem ensures_probe_of_quiet (hq : w.Quiet) (hg : geometry w.store = g)
    (hs : window.Spans g 1) (fs : Filesystem) :
    w.Ensures (fs.probe (.window (.disk g) window)) fun r _ =>
      r = .ok () ∨ ∃ err, r = .fail err := by
  have hunmount : w.Ensures (Routine.unmount fs) fun _ w' => w.Alters ∅ [] w' :=
    obeys_request trivial (alters_unmount fs w)
  refine hunmount.bind ?_
  intro r w₁ h₁
  cases r with
  | error code =>
    refine (ensures_note _ w₁).bind ?_
    intro _ w₂ _
    exact obeys_pure (.inr ⟨_, rfl⟩)
  | ok u =>
    have hmount : w₁.Ensures (Routine.mount fs (.window (.disk g) window)) fun r _ =>
        r = .ok () ∨ r = .fail .noFilesystem := by
      refine obeys_request trivial ?_
      have hcases := (mount_of_quiet (h₁.quiet hq) (h₁.geometry_eq.trans hg) hs fs).2
      split at hcases
      · exact .inl hcases.1
      · exact .inr hcases
    refine hmount.bind ?_
    rintro r w₂ (rfl | rfl)
    · exact obeys_pure (.inl rfl)
    · refine (ensures_note _ w₂).bind ?_
      intro _ w₃ _
      exact obeys_pure (.inr ⟨_, rfl⟩)

/-- Without faults, the filesystem of a slot is populated on every window of two blocks. -/
theorem ensures_populate_of_quiet (hq : w.Quiet) (hg : geometry w.store = g)
    (hs : window.Spans g 2) (s : Slot) :
    w.Ensures (s.populate (.window (.disk g) window)) fun r _ => r = .ok () := by
  have hstays := Volume.stays_window g window
  have hsupply : w.Ensures (s.supply (.window (.disk g) window)) fun r _ => r = .ok () := by
    rw [Slot.supply]
    split
    · refine (ensures_note _ w).bind ?_
      intro _ w₁ h₁
      exact ensures_format_of_quiet (h₁.quiet hq) (h₁.geometry_eq.trans hg) hs s.filesystem
    · have hcreate : w.Ensures (Routine.create s.number s.spec.mountName
          (.window (.disk g) window)) fun _ _ => True := obeys_request trivial trivial
      refine hcreate.bind ?_
      intro _ w₁ _
      exact obeys_pure rfl
  refine (hsupply.and (ensures_supply hstays s w)).bind ?_
  rintro r w₁ ⟨rfl, h₁⟩
  have hg₁ := h₁.geometry_eq.trans hg
  refine ((ensures_probe_of_quiet (h₁.quiet hq) hg₁ (hs.mono (Nat.le_succ 1)) s.filesystem).and
    (ensures_probe hstays s.filesystem w₁)).bind ?_
  rintro r w₂ ⟨rfl | ⟨err, rfl⟩, h₂⟩
  · exact obeys_pure rfl
  · refine (ensures_note _ w₂).bind ?_
    intro _ w₃ h₃
    have h₂₃ := h₂.trans h₃.of_empty
    exact ensures_format_of_quiet (h₂₃.quiet (h₁.quiet hq)) (h₂₃.geometry_eq.trans hg₁) hs
      s.filesystem

/-- Without faults, a filesystem that is made on a marked window is mounted at once. -/
theorem create_of_marked (hq : w.Quiet) (hg : geometry w.store = g) (hs : window.Spans g 1)
    (hm : w.marked window.extent.start = true) (number : UInt8) (name : String) :
    w.Alters ∅ [name] (w.create number name (.window (.disk g) window)) ∧
      (w.create number name (.window (.disk g) window)).state (.partition number) = ⟨true⟩ := by
  have hmade : w.Alters ∅ [name] _ :=
    alters_made ((Volume.disk g).window window).geometry (.partition number) name w
  obtain ⟨ha, hcases⟩ := mount_of_quiet (hmade.quiet hq) (hmade.geometry_eq.trans hg) hs
    (.partition number)
  rw [hmade.marked_eq (Set.notMem_empty _) (hg ▸ hs.start_lt), if_pos hm] at hcases
  exact ⟨hmade.trans_nil ha, hcases.2⟩

/-- Without faults, a filesystem that is made on a marked window is mounted as it stands: it is not
formatted, and the disk keeps its bytes. -/
theorem obeys_populate_of_marked {p : Request → Prop} {s : Slot}
    (hp : ∀ req : Request, (∀ fs v, req ≠ .reformat fs v) → p req) (hq : w.Quiet)
    (hg : geometry w.store = g) (hs : window.Spans g 1) (hnew : s.hasFilesystem = false)
    (hm : w.marked window.extent.start = true) :
    w.Obeys p (s.populate (.window (.disk g) window)) fun r w' =>
      r = .ok () ∧ w.Alters ∅ [s.spec.mountName] w' := by
  have hsupply : w.Obeys p (s.supply (.window (.disk g) window)) fun r w' => r = .ok () ∧
      w.Alters ∅ [s.spec.mountName] w' ∧ w'.state s.filesystem = ⟨true⟩ := by
    have hcreate : w.Obeys p
        (Routine.create s.number s.spec.mountName (.window (.disk g) window)) fun _ w' =>
        w.Alters ∅ [s.spec.mountName] w' ∧ w'.state s.filesystem = ⟨true⟩ :=
      obeys_request (hp _ (by simp)) (create_of_marked hq hg hs hm s.number s.spec.mountName)
    rw [Slot.supply, hnew]
    exact hcreate.bind fun _ w₁ h₁ => obeys_pure ⟨rfl, h₁⟩
  refine hsupply.bind ?_
  rintro r w₁ ⟨rfl, h₁, hmounted⟩
  have hunmount : w₁.Obeys p (Routine.unmount s.filesystem) fun r w' =>
      r = .ok () ∧ w₁.Alters ∅ [] w' :=
    obeys_request (hp _ (by simp))
      ⟨unmount_of_quiet (h₁.quiet hq) s.filesystem hmounted, alters_unmount s.filesystem w₁⟩
  have hprobe : w₁.Obeys p (s.filesystem.probe (.window (.disk g) window)) fun r w' =>
      r = .ok () ∧ w₁.Alters ∅ [] w' := by
    refine hunmount.bind ?_
    rintro r w₂ ⟨rfl, h₂⟩
    have h₁₂ := h₁.trans_nil h₂
    obtain ⟨h₃, hcases⟩ := mount_of_quiet (h₁₂.quiet hq) (h₁₂.geometry_eq.trans hg) hs s.filesystem
    rw [h₁₂.marked_eq (Set.notMem_empty _) (hg ▸ hs.start_lt), if_pos hm] at hcases
    have hmount : w₂.Obeys p (Routine.mount s.filesystem (.window (.disk g) window)) fun r w' =>
        r = .ok () ∧ w₂.Alters ∅ [] w' := obeys_request (hp _ (by simp)) ⟨hcases.1, h₃⟩
    refine hmount.bind ?_
    rintro r w₃ ⟨rfl, h₃⟩
    exact obeys_pure ⟨rfl, h₂.trans h₃⟩
  refine hprobe.bind ?_
  rintro r w₂ ⟨rfl, h₂⟩
  exact obeys_pure ⟨rfl, h₁.trans_nil h₂⟩

end Bench

end DiskBringup
