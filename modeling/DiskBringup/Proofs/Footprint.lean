import Mathlib.Data.Set.Basic
import DiskBringup.Proofs.Ensures

/-!
# Footprints: what a run leaves as it was

`w.Alters blocks made w'` says that a bench `w'` comes from `w` by steps that write to no block
outside `blocks` and make the filesystems named in `made`, in this order. A program over a window
of the disk alters the blocks of the window at most (`alters_runOn`), and so do the calls of a
filesystem that is given the window, whatever its driver does (`alters_mount`, `alters_reformat`).
Faults may hit any call. On a bench that is `Quiet` none does, and it stays quiet.
-/

namespace DiskBringup

/-! ## Spent faults -/

/-- The fault will make no call fail any more. -/
def Fault.Spent (f : Fault) : Prop := f.times = some 0

/-- Spent faults let every call pass, and stay spent. -/
theorem Fault.consult_of_spent (c : Call) {faults : List Fault} (h : ∀ f ∈ faults, f.Spent) :
    (consult c faults).1 = none ∧ ∀ f ∈ (consult c faults).2, f.Spent := by
  induction faults with
  | nil => exact ⟨rfl, h⟩
  | cons f rest ih =>
    obtain ⟨hnone, hspent⟩ := ih fun g hg => h g (List.mem_cons_of_mem _ hg)
    have hf : f.times = some 0 := h f List.mem_cons_self
    have hkeep : ∀ g : Fault, g.Spent → ∀ k ∈ g :: (consult c rest).2, k.Spent := by
      intro g hg k hk
      rcases List.mem_cons.1 hk with rfl | hk
      · exact hg
      · exact hspent k hk
    by_cases happ : f.appliesTo c = true
    · cases hskip : f.skip with
      | zero =>
        simp only [consult, happ, if_true, hskip, hf]
        exact ⟨hnone, hkeep f hf⟩
      | succ n =>
        simp only [consult, happ, if_true, hskip]
        exact ⟨hnone, hkeep _ hf⟩
    · simp only [consult, if_neg happ]
      exact ⟨hnone, hkeep f hf⟩

/-- The name of a filesystem that was made. -/
def Event.created? : Event → Option String
  | created name _ => some name
  | returned .. => none

namespace Bench

variable {δ φ α : Type} {w w' w'' : Bench δ φ} {blocks more : Set Nat} {made others : List String}

/-- No fault is pending. -/
def Quiet (w : Bench δ φ) : Prop := ∀ f ∈ w.faults, f.Spent

/-- The names of the filesystems that were made, in order. -/
def created (w : Bench δ φ) : List String := w.events.filterMap Event.created?

section Alters

variable [BlockStore δ]

open BlockStore in
/-- From the first bench to the second only the given blocks may have been written, and the named
filesystems have been made. -/
structure Alters (blocks : Set Nat) (made : List String) (w w' : Bench δ φ) : Prop where
  /-- the disk keeps its shape -/
  geometry_eq : geometry w'.store = geometry w.store
  /-- all other blocks keep their bytes -/
  byteAt_eq : ∀ (b : UInt64) (k : Nat), b.toNat ∉ blocks → b < (geometry w.store).numBlocks →
    k < (geometry w.store).blockSize.toNat → byteAt w'.store b k = byteAt w.store b k
  /-- these filesystems are made -/
  created_eq : w'.created = w.created ++ made
  /-- no fault comes back -/
  quiet : w.Quiet → w'.Quiet

theorem Alters.refl (blocks : Set Nat) (w : Bench δ φ) : w.Alters blocks [] w :=
  ⟨rfl, fun _ _ _ _ _ => rfl, (List.append_nil _).symm, id⟩

theorem Alters.append (h : w.Alters blocks made w') (h' : w'.Alters blocks others w'') :
    w.Alters blocks (made ++ others) w'' := by
  refine ⟨h'.geometry_eq.trans h.geometry_eq, ?_, ?_, fun hq => h'.quiet (h.quiet hq)⟩
  · intro b k hb hlt hk
    rw [h'.byteAt_eq b k hb (by rw [h.geometry_eq]; exact hlt) (by rw [h.geometry_eq]; exact hk)]
    exact h.byteAt_eq b k hb hlt hk
  · rw [h'.created_eq, h.created_eq, List.append_assoc]

theorem Alters.trans (h : w.Alters blocks [] w') (h' : w'.Alters blocks made w'') :
    w.Alters blocks made w'' :=
  h.append h'

theorem Alters.trans_nil (h : w.Alters blocks made w') (h' : w'.Alters blocks [] w'') :
    w.Alters blocks made w'' :=
  List.append_nil made ▸ h.append h'

theorem Alters.mono (h : w.Alters blocks made w') (hsub : blocks ⊆ more) :
    w.Alters more made w' :=
  ⟨h.geometry_eq, fun b k hb hlt hk => h.byteAt_eq b k (fun hm => hb (hsub hm)) hlt hk,
    h.created_eq, h.quiet⟩

/-- A bench on which nothing was altered, seen as one on which little was. -/
theorem Alters.of_empty (h : w.Alters ∅ made w') : w.Alters blocks made w' :=
  h.mono (Set.empty_subset _)

/-- Steps that leave store, trace and faults alone alter nothing. -/
theorem alters_of_eq (hstore : w'.store = w.store) (hevents : w'.events = w.events)
    (hfaults : w'.faults = w.faults) : w.Alters blocks [] w' := by
  refine ⟨by rw [hstore], fun _ _ _ _ _ => by rw [hstore], ?_, ?_⟩
  · rw [created, hevents, List.append_nil]
    rfl
  · intro hq
    rw [Quiet, hfaults]
    exact hq

theorem alters_record_returned (c : Call) (failure : Option ErrorCode) :
    w.Alters blocks [] (w.record (.returned c failure)) := by
  refine ⟨rfl, fun _ _ _ _ _ => rfl, ?_, id⟩
  simp [created, record, Event.created?]

theorem alters_record_created (name : String) (g : Geometry) :
    w.Alters blocks [name] (w.record (.created name g)) := by
  refine ⟨rfl, fun _ _ _ _ _ => rfl, ?_, id⟩
  simp [created, record, Event.created?]

theorem alters_conclude (c : Call) (r : Outcome ErrorCode α) :
    w.Alters blocks [] (w.conclude c r) := by
  cases r with
  | ok _ => exact alters_record_returned c none
  | fail code => exact alters_record_returned c (some code)
  | overflow _ => exact Alters.refl blocks w

/-- Asking the faults alters nothing, and on a quiet bench none hits. -/
theorem alters_consult (c : Call) : w.Alters blocks [] (w.consult c).2 := by
  refine ⟨rfl, fun _ _ _ _ _ => rfl, (List.append_nil _).symm, ?_⟩
  exact fun hq => (Fault.consult_of_spent c hq).2

omit [BlockStore δ] in
theorem Quiet.consult_eq_none (hq : w.Quiet) (c : Call) : (w.consult c).1 = none :=
  (Fault.consult_of_spent c hq).1

/-! ## Calls -/

/-- How a call that cannot overflow ends: a fault hits it, or it acts. -/
theorem perform_cases (c : Call) (act : Bench δ φ → Except ErrorCode α × Bench δ φ)
    (w : Bench δ φ) :
    (∃ code, (w.perform c act).1 = .error code ∧ ¬ w.Quiet ∧
      w.Alters ∅ [] (w.perform c act).2) ∨
    (w.perform c act).1 = (act (w.consult c).2).1 ∧
      (act (w.consult c).2).2.Alters ∅ [] (w.perform c act).2 := by
  rw [perform]
  rcases hc : w.consult c with ⟨hit, w₁⟩
  have ha : w.Alters ∅ [] w₁ := by
    have hconsult : w.Alters ∅ [] (w.consult c).2 := alters_consult c
    rwa [hc] at hconsult
  cases hit with
  | some code =>
    -- a call that was hit shows that some fault was pending
    left
    refine ⟨code, rfl, ?_, ha.trans (alters_record_returned c _)⟩
    intro hq
    have := hq.consult_eq_none c
    rw [hc] at this
    cases this
  | none => exact .inr ⟨rfl, alters_conclude c _⟩

end Alters

end Bench

/-! ## Requests of the disk -/

/-- A block that the request transfers is among the given ones. -/
def BlockRequest.Within (blocks : Set Nat) : BlockRequest → Prop
  | .read block _ | .write block _ => block.toNat ∈ blocks
  | .init | .deinit => True

namespace Bench

variable {δ φ α : Type} [BlockStore δ] [LawfulBlockStore δ] {w : Bench δ φ} {blocks : Set Nat}

open BlockStore

/-- A read gives the bytes of its block, or fails and then a fault hit it or the disk refuses it. -/
theorem read_cases (b : UInt64) (n : Nat) (w : Bench δ φ) :
    w.Alters ∅ [] (block (.read b n) w).2 ∧
      ((∃ code, (block (.read b n) w).1 = .error code ∧
          (w.Quiet → ¬ (geometry w.store).Accepts b n)) ∨
        (geometry w.store).Accepts b n ∧
          (block (.read b n) w).1 = .ok (Vector.ofFn fun k => byteAt w.store b k.val)) := by
  rcases perform_cases (.read b) (serve (.read b n)) w with ⟨code, herr, hq, ha⟩ | ⟨hr, ha⟩
  · exact ⟨ha, .inl ⟨code, herr, fun h => absurd h hq⟩⟩
  · refine ⟨(alters_consult _).trans ha, ?_⟩
    by_cases hacc : (geometry w.store).Accepts b n
    · exact .inr ⟨hacc, hr.trans (LawfulBlockStore.read_of_accepts hacc)⟩
    · exact .inl ⟨_, hr.trans (LawfulBlockStore.read_of_not_accepts hacc), fun _ => hacc⟩

omit [LawfulBlockStore δ] in
theorem serve_write_of_ok {b : UInt64} {n : Nat} {data : Buffer n} {s : δ}
    (h : BlockStore.write w.store b data = .ok s) :
    serve (.write b data) w = (.ok (), { w with store := s }) := by
  simp only [serve, BlockStore.answer, h]

omit [LawfulBlockStore δ] in
theorem serve_write_of_error {b : UInt64} {n : Nat} {data : Buffer n} {code : ErrorCode}
    (h : BlockStore.write w.store b data = .error code) :
    serve (.write b data) w = (.error code, w) := by
  simp only [serve, BlockStore.answer, h]

/-- A write puts its bytes into its block, or fails and then alters nothing. -/
theorem write_cases (b : UInt64) {n : Nat} (data : Buffer n) (w : Bench δ φ) :
    (∃ code, (block (.write b data) w).1 = .error code ∧
      (w.Quiet → ¬ (geometry w.store).Accepts b n) ∧ w.Alters ∅ [] (block (.write b data) w).2) ∨
    (block (.write b data) w).1 = .ok () ∧ (geometry w.store).Accepts b n ∧
      w.Alters {b.toNat} [] (block (.write b data) w).2 ∧
      ∀ (k : Nat) (hk : k < n), byteAt (block (.write b data) w).2.store b k = data[k] := by
  rcases perform_cases (.write b) (serve (.write b data)) w with ⟨code, herr, hq, ha⟩ | ⟨hr, ha⟩
  · exact .inl ⟨code, herr, fun h => absurd h hq, ha⟩
  · have hconsult : w.Alters ∅ [] (w.consult (.write b)).2 := alters_consult _
    by_cases hacc : (geometry w.store).Accepts b n
    · obtain ⟨s', hs', hg, hbytes⟩ := LawfulBlockStore.write_of_accepts data hacc
      rw [serve_write_of_ok (w := (w.consult (.write b)).2) hs'] at hr ha
      have hserve : w.Alters {b.toNat} [] { (w.consult (.write b)).2 with store := s' } := by
        refine ⟨hg, ?_, hconsult.created_eq, hconsult.quiet⟩
        intro c k hc hlt hk
        refine (hbytes c k (hacc.1 ▸ hk) hlt).trans (if_neg ?_)
        rintro rfl
        exact hc rfl
      refine .inr ⟨hr, hacc, hserve.trans ha.of_empty, ?_⟩
      -- what follows the write alters nothing, so the bytes that were put are there
      intro k hk
      refine (ha.byteAt_eq b k (Set.notMem_empty _) (hg ▸ hacc.2) ?_).trans ?_
      · change k < (geometry s').blockSize.toNat
        rw [hg, ← hacc.1]
        exact hk
      · exact (hbytes b k hk hacc.2).trans (if_pos rfl)
    · have herr := LawfulBlockStore.write_of_not_accepts data hacc
      rw [serve_write_of_error (w := (w.consult (.write b)).2) herr] at hr ha
      exact .inl ⟨_, hr, fun _ => hacc, hconsult.trans ha⟩

omit [LawfulBlockStore δ] in
/-- The disk initialises unless a fault hits it. -/
theorem init_cases (w : Bench δ φ) :
    w.Alters ∅ [] (block .init w).2 ∧
      ((block .init w).1 = .ok () ∨ ¬ w.Quiet ∧ ∃ code, (block .init w).1 = .error code) := by
  rcases perform_cases .init (fun w : Bench δ φ => (.ok (), { w with isInitialized := true })) w
    with ⟨code, herr, hq, ha⟩ | ⟨hr, ha⟩
  · exact ⟨ha, .inr ⟨hq, code, herr⟩⟩
  · have hmark : w.Alters ∅ [] { (w.consult .init).2 with isInitialized := true } :=
      (alters_consult .init).trans (alters_of_eq rfl rfl rfl)
    exact ⟨hmark.trans ha, .inl hr⟩

/-- A request alters no block but the one it transfers. -/
theorem alters_block {r : BlockRequest} (h : r.Within blocks) (w : Bench δ φ) :
    w.Alters blocks [] (block r w).2 := by
  cases r with
  | init => exact (init_cases w).1.of_empty
  | deinit =>
    rcases perform_cases .deinit (fun w : Bench δ φ => (.ok (), { w with isInitialized := false }))
      w with ⟨_, _, _, ha⟩ | ⟨_, ha⟩
    · exact ha.of_empty
    · have hmark : w.Alters ∅ [] { (w.consult .deinit).2 with isInitialized := false } :=
        (alters_consult .deinit).trans (alters_of_eq rfl rfl rfl)
      exact (hmark.trans ha).of_empty
  | read b n => exact (read_cases b n w).1.of_empty
  | write b data =>
    rcases write_cases b data w with ⟨_, _, _, ha⟩ | ⟨_, _, ha, _⟩
    · exact ha.of_empty
    · exact ha.mono fun _ hm => hm ▸ h

end Bench

/-! ## Windows -/

/-- Every transfer that the volume asks of the disk is one of the given blocks. -/
def Volume.Stays (v : Volume) (blocks : Set Nat) : Prop :=
  ∀ r, (v.request r).Only (BlockRequest.Within blocks)

/-- A window of the disk stays among its own blocks. -/
theorem Volume.stays_window (g : Geometry) (window : Window) :
    ((disk g).window window).Stays {b | b ∈ window.extent} := by
  have hmem : ∀ {block below : UInt64}, window.below? block = some below →
      below.toNat ∈ window.extent := by
    intro block below h
    obtain ⟨hlt, hbelow⟩ := Window.below?_eq_some_iff.1 h
    rw [Extent.mem_iff, Extent.bound]
    omega
  intro r
  cases r with
  | init => trivial
  | deinit => trivial
  | read block length =>
    rw [request]
    cases hb : window.below? block with
    | none => trivial
    | some below => exact Script.only_request (hmem hb)
  | write block data =>
    rw [request]
    cases hb : window.below? block with
    | none => trivial
    | some below => exact Script.only_request (hmem hb)

namespace Bench

variable {δ φ α : Type} [BlockStore δ] [LawfulBlockStore δ] {w : Bench δ φ} {blocks : Set Nat}
  {v : Volume}

/-- A program over a volume alters no block that the volume does not reach. -/
theorem alters_runOn (hv : v.Stays blocks) (x : BlockScript α) (w : Bench δ φ) :
    w.Alters blocks [] (w.runOn v x).2 := by
  -- the program may ask for any block of the volume: what matters is where this sends the request
  have honly : (v.relay x).Only (BlockRequest.Within blocks) :=
    x.only_true.expand fun r _ => hv r
  have hstep : ∀ (r : BlockRequest) (w' : Bench δ φ), r.Within blocks → w.Alters blocks [] w' →
      w.Alters blocks [] (block r w').2 := fun r w' hr h => h.trans (alters_block hr w')
  exact honly.run_induction hstep (Alters.refl blocks w)

theorem alters_drive (hv : v.Stays blocks) (c : Call) (fs : Filesystem)
    (x : φ → Geometry → BlockScript (Outcome ErrorCode Unit × φ)) (w : Bench δ φ) :
    w.Alters blocks [] (w.drive c fs v x).2 := by
  rw [drive]
  rcases hc : w.consult c with ⟨hit, w₁⟩
  have h₁ : w.Alters blocks [] w₁ := by
    have hconsult : w.Alters blocks [] (w.consult c).2 := alters_consult c
    rwa [hc] at hconsult
  cases hit with
  | some code => exact h₁.trans (alters_record_returned c _)
  | none =>
    have hrun := alters_runOn hv (x (w₁.state fs) v.geometry) w₁
    have hset : ∀ (w : Bench δ φ) (s : φ), w.Alters blocks [] (w.setState fs s) :=
      fun _ _ => alters_of_eq rfl rfl rfl
    exact h₁.trans (hrun.trans ((hset _ _).trans (alters_conclude c _)))

variable [FilesystemDriver φ]

theorem alters_mount (hv : v.Stays blocks) (fs : Filesystem) (w : Bench δ φ) :
    w.Alters blocks [] (w.mount fs v).2 :=
  alters_drive hv _ fs _ w

theorem alters_reformat (hv : v.Stays blocks) (fs : Filesystem) (w : Bench δ φ) :
    w.Alters blocks [] (w.reformat fs v).2 :=
  alters_drive hv _ fs _ w

omit [LawfulBlockStore δ] in
theorem alters_unmount (fs : Filesystem) (w : Bench δ φ) :
    w.Alters blocks [] (w.unmount fs).2 := by
  rcases perform_cases (.unmount (w.name fs)) (fun w : Bench δ φ =>
      ((FilesystemDriver.unmount (w.state fs)).1,
        w.setState fs (FilesystemDriver.unmount (w.state fs)).2)) w with ⟨_, _, _, ha⟩ | ⟨_, ha⟩
  · exact ha.of_empty
  · have hset : w.Alters ∅ [] ((w.consult (.unmount (w.name fs))).2.setState fs
        (FilesystemDriver.unmount (w.state fs)).2) :=
      (alters_consult _).trans (alters_of_eq rfl rfl rfl)
    exact (hset.trans ha).of_empty

omit [LawfulBlockStore δ] in
/-- Making a filesystem alters no block before it tries to mount. -/
theorem alters_made (g : Geometry) (fs : Filesystem) (name : String) (w : Bench δ φ) :
    w.Alters blocks [name]
      (((w.record (.created name g)).setName fs name).setState fs FilesystemDriver.blank) :=
  (alters_record_created name g).trans_nil
    (Alters.trans (alters_of_eq rfl rfl rfl) (alters_of_eq rfl rfl rfl))

theorem alters_create (hv : v.Stays blocks) (number : UInt8) (name : String) (w : Bench δ φ) :
    w.Alters blocks [name] (w.create number name v) :=
  (alters_made v.geometry _ name w).trans_nil (alters_mount hv _ _)

/-! ## Lines in the log -/

omit [LawfulBlockStore δ] in
theorem ensures_note (n : Note) (w : Bench δ φ) :
    w.Ensures (Routine.note n) fun _ w' => w.Alters ∅ [] w' :=
  obeys_request trivial (alters_of_eq rfl rfl rfl)

omit [LawfulBlockStore δ] in
theorem ensures_notes (notes : List Note) (w : Bench δ φ) :
    w.Ensures (Routine.notes notes) fun _ w' => w.Alters ∅ [] w' := by
  induction notes generalizing w with
  | nil => exact obeys_pure (Alters.refl ∅ w)
  | cons n rest ih =>
    refine (ensures_note n w).bind ?_
    intro _ w₁ h₁
    exact (ih w₁).imp fun _ _ h₂ => h₁.trans h₂

omit [LawfulBlockStore δ] in
/-- A value with notes is taken as it is. -/
theorem ensures_ofNoted (x : Noted α) (w : Bench δ φ) :
    w.Ensures (Routine.ofNoted x) fun a w' => a = x.value ∧ w.Alters ∅ [] w' := by
  refine (ensures_notes x.notes w).bind ?_
  intro _ w₁ h₁
  exact obeys_pure ⟨rfl, h₁⟩

end Bench

end DiskBringup
