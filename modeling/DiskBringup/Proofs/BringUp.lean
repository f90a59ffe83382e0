import DiskBringup.Proofs.Attempt
import DiskBringup.Storage.Basic

/-!
# Rules for bring-up

How a bring-up obeys something if the attempts on its slots do: a rule for the slots in order
(`obeys_bringUpAll`, `ensures_createAll`), and one for each of the routines around them up to
`Storage.init` (`obeys_init`). None of them looks at the slots.
-/

namespace DiskBringup

namespace Bench

variable {δ φ : Type} [BlockStore δ] [FilesystemDriver φ] {w : Bench δ φ}
  {g : Geometry} {p : Request → Prop} {disk : Volume}

open BlockStore

/-! ## Slots in order -/

/-- Bringing slots up in order, with an invariant of all slots. -/
theorem obeys_bringUpAll (inv : List Slot → Bench δ φ → Prop)
    (fine : Outcome (UInt8 × StorageError) Unit → Prop) (fresh settled : Slot → Prop)
    (hfine : fine (.ok ()))
    (hstep : ∀ (before : List Slot) (s : Slot) (after : List Slot) (w : Bench δ φ), fresh s →
      inv (before ++ s :: after) w → w.Obeys p (s.bringUp disk) fun r w' =>
        inv (before ++ r.2 :: after) w' ∧ fine (r.1.mapFail (s.number, ·)) ∧
          (r.1 = .ok () → settled r.2))
    {slots : List Slot} (hfresh : ∀ s ∈ slots, fresh s) (hinv : inv slots w) :
    w.Obeys p (Slot.bringUpAll disk slots) fun r w' =>
      inv r.2 w' ∧ fine r.1 ∧ (r.1 = .ok () → ∀ s ∈ r.2, settled s) := by
  refine obeys_inOrder hfine ?_ slots hfresh [] w hinv
  intro before s after w hs hw
  refine (hstep before s after w hs hw).bind ?_
  rintro ⟨ending, s'⟩ w' ⟨hinv', hfine', hsettled⟩
  refine obeys_pure ⟨hinv', hfine', fun hok => hsettled ?_⟩
  cases ending with
  | ok u => rfl
  | fail err => cases hok
  | overflow o => cases hok

/-- Bringing slots up is bringing the first up, and the others if it succeeds. -/
theorem obeys_bringUpAll_cons {t : Slot} {rest : List Slot}
    {r : Outcome StorageError Unit × Slot → Bench δ φ → Prop}
    {q : Outcome (UInt8 × StorageError) Unit × List Slot → Bench δ φ → Prop}
    (hstep : w.Obeys p (t.bringUp disk) r)
    (hrest : ∀ (t' : Slot) (w' : Bench δ φ), r (.ok (), t') w' →
      w'.Obeys p (Slot.bringUpAll disk rest) fun a w'' => q (a.1, t' :: a.2) w'')
    (hstop : ∀ (o : Outcome StorageError Unit) (t' : Slot) (w' : Bench δ φ),
      o.mapFail (t.number, ·) ≠ .ok () → r (o, t') w' →
      q (o.mapFail (t.number, ·), t' :: rest) w') :
    w.Obeys p (Slot.bringUpAll disk (t :: rest)) q := by
  have hfirst : w.Obeys p (t.bringUp disk >>= fun a => pure (a.1.mapFail (t.number, ·), a.2))
      fun a w' => ∃ o, a.1 = Outcome.mapFail (t.number, ·) o ∧ r (o, a.2) w' :=
    hstep.bind fun a w' h => obeys_pure ⟨a.1, rfl, h⟩
  refine obeys_inOrder_cons hfirst ?_ ?_
  · rintro t' w' ⟨o, ho, h⟩
    cases o with
    | ok u => exact hrest t' w' h
    | fail err => cases ho
    | overflow o => cases ho
  · rintro ⟨_, t'⟩ w' hne ⟨o, rfl, h⟩
    exact hstop o t' w' hne h

/-- Writing entries for slots and bringing these up in order, with an invariant of all slots and
their extents. -/
theorem ensures_createAll (inv : List (Slot × Extent) → Bench δ φ → Prop)
    (fine : Outcome StorageError Unit → Prop) (fresh settled : Slot × Extent → Prop)
    (hfine : fine (.ok ()))
    (hstep : ∀ (before : List (Slot × Extent)) (x : Slot × Extent) (after : List (Slot × Extent))
      (w : Bench δ φ), fresh x → inv (before ++ x :: after) w →
      w.Ensures (x.1.create disk x.2) fun r w' => inv (before ++ (r.2, x.2) :: after) w' ∧
        fine r.1 ∧ (r.1 = .ok () → settled (r.2, x.2)))
    {slots : List Slot} {extents : List Extent} (hfresh : ∀ x ∈ slots.zip extents, fresh x)
    (hinv : inv (slots.zip extents) w) :
    w.Ensures (Slot.createAll disk slots extents) fun r w' => ∃ after, r.2 = after.map Prod.fst ∧
      inv after w' ∧ fine r.1 ∧ (r.1 = .ok () → ∀ x ∈ after, settled x) := by
  refine Obeys.bind (r := fun r w' => inv r.2 w' ∧ fine r.1 ∧
    (r.1 = .ok () → ∀ x ∈ r.2, settled x))
    (obeys_inOrder hfine ?_ (slots.zip extents) hfresh [] w hinv) ?_
  · rintro before ⟨s, extent⟩ after w hs hw
    refine (hstep before (s, extent) after w hs hw).bind ?_
    intro r w' h
    exact obeys_pure h
  · rintro ⟨ending, after⟩ w' h
    exact obeys_pure ⟨after, rfl, h⟩

/-! ## Storage -/

variable {s : Storage} {q : Outcome StorageError Unit × Storage → Bench δ φ → Prop}

/-- A line in the log is a passive request that alters nothing. -/
theorem obeys_note (hp : ∀ req : Request, req.Passive → p req) (n : Note) (w : Bench δ φ) :
    w.Obeys p (Routine.note n) fun _ w' => w.Alters ∅ [] w' :=
  (ensures_note n w).obeys (Script.only_request (hp _ trivial))

/-- Creating the partitions is placing the layout, and writing an entry for each. -/
theorem obeys_createPartitions (hp : ∀ req : Request, req.Passive → p req)
    (hrefused : ∀ (err : LayoutError) (w' : Bench δ φ),
      (s.config.layout s.capacity disk.blockSize).value = .error err → w.Alters ∅ [] w' →
      q (.fail (.invalidLayout err), s) w')
    (hplaced : ∀ (extents : List Extent) (w' : Bench δ φ),
      (s.config.layout s.capacity disk.blockSize).value = .ok extents → w.Alters ∅ [] w' →
      w'.Obeys p (Slot.createAll disk s.slots extents) fun r w'' =>
        q (r.1, { s with slots := r.2 }) w'') :
    w.Obeys p (s.createPartitions disk) q := by
  refine ((ensures_ofNoted _ w).obeys ((Routine.only_ofNoted _).mono hp)).bind ?_
  rintro placed w₁ ⟨hlayout, h₁⟩
  cases placed with
  | error err =>
    refine (obeys_note hp _ w₁).bind ?_
    intro _ w₂ h₂
    exact obeys_pure (hrefused err w₂ hlayout.symm (h₁.trans h₂))
  | ok extents =>
    refine (hplaced extents w₁ hlayout.symm h₁).bind ?_
    rintro ⟨ending, slots⟩ w₂ h₂
    exact obeys_pure h₂

/-- Bringing all partitions up is bringing the slots up, and creating the partitions if one fails
and that is allowed. -/
theorem obeys_bringUpPartitions {mid : Outcome (UInt8 × StorageError) Unit × List Slot →
      Bench δ φ → Prop} (hfactory : s.hasFactory = true)
    (hp : ∀ req : Request, req.Passive → p req)
    (hall : w.Obeys p (Slot.bringUpAll disk s.slots) mid)
    (hok : ∀ (slots : List Slot) (w' : Bench δ φ), mid (.ok (), slots) w' →
      q (.ok (), { s with slots := slots }) w')
    (hoverflow : ∀ (o : Overflow) (slots : List Slot) (w' : Bench δ φ),
      mid (.overflow o, slots) w' → q (.overflow o, { s with slots := slots }) w')
    (hfail : ∀ (x : UInt8 × StorageError) (slots : List Slot) (w' w'' : Bench δ φ),
      mid (.fail x, slots) w' → w'.Alters ∅ [] w'' → s.autoPartition = false →
      q (.fail x.2, { s with slots := slots }) w'')
    (hcreate : ∀ (x : UInt8 × StorageError) (slots : List Slot) (w' w'' : Bench δ φ),
      mid (.fail x, slots) w' → w'.Alters ∅ [] w'' → s.autoPartition = true →
      w''.Obeys p (Storage.createPartitions { s with slots := slots } disk) q) :
    w.Obeys p (s.bringUpPartitions disk) q := by
  rw [Storage.bringUpPartitions, if_pos hfactory]
  refine hall.bind ?_
  rintro ⟨ending, slots⟩ w₁ h₁
  cases ending with
  | ok u => exact obeys_pure (hok slots w₁ h₁)
  | overflow o => exact obeys_pure (hoverflow o slots w₁ h₁)
  | fail x =>
    obtain ⟨number, err⟩ := x
    dsimp only
    split
    · rename_i hauto
      refine (obeys_note hp _ w₁).bind ?_
      intro _ w₂ h₂
      exact hcreate (number, err) slots w₁ w₂ h₁ h₂ hauto
    · rename_i hauto
      refine (obeys_note hp _ w₁).bind ?_
      intro _ w₂ h₂
      exact obeys_pure (hfail (number, err) slots w₁ w₂ h₁ h₂ (Bool.not_eq_true _ ▸ hauto))

/-- The end of a bring-up gives `q`: as it is if it failed, and once it is noted that storage is up
if it succeeded. -/
def Finishes (q : Outcome StorageError Unit × Storage → Bench δ φ → Prop)
    (r : Outcome StorageError Unit × Storage) (w : Bench δ φ) : Prop :=
  (r.1 ≠ .ok () → q r w) ∧
    (r.1 = .ok () → ∀ w', w.Alters ∅ [] w' → q (.ok (), { r.2 with isUp := true }) w')

/-- Bringing storage up on a disk is initialising the disk, and bringing up what is configured. -/
theorem obeys_initOn (hp : ∀ req : Request, req.Passive → p req)
    (hdown : ∀ (r : Outcome StorageError Unit) (w' : Bench δ φ), r.Refused (g.size? = none) →
      w.Alters ∅ [] w' → (w.Quiet → g.size? = none) → q (r, s) w')
    (hup : ∀ (capacity : UInt64) (w₁ : Bench δ φ), g.size? = some capacity → w.Alters ∅ [] w₁ →
      w₁.Obeys p (Storage.bringUp { s with capacity := capacity } (.disk g)) (Finishes q)) :
    w.Obeys p (s.initOn g) q := by
  have hinit : w.Obeys p (Routine.block .init) fun r w' => w.Alters ∅ [] w' ∧
      (r = .ok () ∨ ¬ w.Quiet ∧ ∃ code, r = .error code) :=
    obeys_request (hp _ trivial) (init_cases w)
  refine hinit.bind ?_
  rintro r w₁ ⟨h₁, rfl | ⟨hq, code, rfl⟩⟩
  · dsimp only
    cases hsize : g.size? with
    | none => exact obeys_pure (hdown _ w₁ (.overflow _ hsize) h₁ fun _ => hsize)
    | some capacity =>
      refine (obeys_note hp _ w₁).bind ?_
      intro _ w₂ h₂
      refine (hup capacity w₂ hsize (h₁.trans h₂)).bind ?_
      rintro ⟨ending, s'⟩ w₃ ⟨hne, hok⟩
      cases ending with
      | ok u =>
        refine (obeys_note hp _ w₃).bind ?_
        intro _ w₄ h₄
        exact obeys_pure (hok rfl w₄ h₄)
      | fail err => exact obeys_pure (hne (by simp))
      | overflow o => exact obeys_pure (hne (by simp))
  · refine (obeys_note hp _ w₁).bind ?_
    intro _ w₂ h₂
    exact obeys_pure (hdown _ w₂ (.fail _) (h₁.trans h₂) fun h => absurd h hq)

/-- Bringing storage up does nothing where it is up, and works on the disk otherwise. -/
theorem obeys_init (hp : ∀ req : Request, req.Passive → p req) (hdevice : s.device = some g)
    (hup : ∀ w' : Bench δ φ, s.isUp = true → w.Alters ∅ [] w' → q (.ok (), s) w')
    (hinit : s.isUp = false → w.Obeys p (s.initOn g) q) : w.Obeys p s.init q := by
  rw [Storage.init]
  split
  · rename_i hisUp
    refine (obeys_note hp _ w).bind ?_
    intro _ w₁ h₁
    exact obeys_pure (hup w₁ hisUp h₁)
  · rename_i hisUp
    rw [hdevice]
    exact hinit (Bool.not_eq_true _ ▸ hisUp)

end Bench

/-! ## Calls one after the other -/

namespace Storage

variable {δ φ : Type} [BlockStore δ] [FilesystemDriver φ]

/-- A call to bring storage up, after faults were injected. -/
def attempt (s : Storage) (w : Bench δ φ) (faults : List Fault) :
    (Outcome StorageError Unit × Storage) × Bench δ φ :=
  Bench.run s.init { w with faults := faults }

/-- Calls to bring storage up, one after the other, each after faults were injected. -/
def attempts (s : Storage) (w : Bench δ φ) :
    List (List Fault) → Storage × Bench δ φ
  | [] => (s, w)
  | faults :: rest => attempts (s.attempt w faults).1.2 (s.attempt w faults).2 rest

/-- A call to bring storage up after other such calls. -/
def attemptAfter (s : Storage) (w : Bench δ φ) (calls : List (List Fault))
    (faults : List Fault) : (Outcome StorageError Unit × Storage) × Bench δ φ :=
  (s.attempts w calls).1.attempt (s.attempts w calls).2 faults

end Storage

end DiskBringup
