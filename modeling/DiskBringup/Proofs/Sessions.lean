import DiskBringup.Proofs.KeptPartitions
import DiskBringup.Proofs.Recovery
import DiskBringup.Proofs.Visits

/-!
# Sessions: storage through its calls

A `Session` is storage with the calls that were made of it, and `Session.Reached` says that calls
lead to it from new storage, whatever their requests are answered: whichever faults hit them, and
whatever becomes of the disk between them. What every call keeps is `Session.Kept`. A step on some
slots keeps it by `Slot.Advance`, which every visit and every creation of a partition is, and which
goes along the slots in order. `Session.Coherent` has what this comes to for whoever holds storage.
-/

namespace DiskBringup

open Routine (Log)

/-! ## Calls -/

/-- A call of storage. -/
inductive StorageCall where
  /-- bring it up -/
  | init
  /-- format what was brought up -/
  | wipe
  deriving DecidableEq, Repr

/-- The routine of a call, which ends with the storage that the call leaves. -/
def StorageCall.routine : StorageCall → Storage → Routine (Outcome StorageError Unit × Storage)
  | init, s => s.init
  | wipe, s => do
    let ending ← s.wipe
    return (ending, s)

/-- Wiping leaves storage as it is. -/
theorem StorageCall.runs_wipe {s s' : Storage} {log : Log} {ending : Outcome StorageError Unit}
    (h : (wipe.routine s).Runs log (ending, s')) : s' = s ∧ s.wipe.Runs log ending := by
  obtain ⟨log₁, wiped, log₂, hwipe, hend, rfl⟩ := Script.runs_bind_iff.1 h
  obtain ⟨rfl, rfl, rfl⟩ := Script.runs_pure_pair_iff.1 hend
  rw [List.append_nil]
  exact ⟨rfl, hwipe⟩

/-- A call that was made. -/
structure Episode where
  /-- which call it was -/
  call : StorageCall
  /-- how it ended -/
  ending : Outcome StorageError Unit
  /-- its requests with their answers, oldest first -/
  log : Log

/-- Storage, and the calls that were made of it, oldest first. -/
structure Session where
  /-- the storage as the calls have left it -/
  storage : Storage
  /-- the calls -/
  past : List Episode

namespace Session

/-- The requests of all calls with their answers, oldest first. -/
def log (z : Session) : Log := z.past.flatMap Episode.log

/-- The session after one more call. -/
def extend (z : Session) (e : Episode) (s : Storage) : Session := ⟨s, z.past ++ [e]⟩

@[simp] theorem storage_extend (z : Session) (e : Episode) (s : Storage) :
    (z.extend e s).storage = s := rfl

@[simp] theorem log_extend (z : Session) (e : Episode) (s : Storage) :
    (z.extend e s).log = z.log ++ e.log := by
  simp [log, extend]

/-- Calls of storage that was made for a device and a configuration lead to the session, whatever
they are answered. -/
inductive Reached (device : Option Geometry) (config : Config) (hasFactory : Bool) : Session → Prop
  /-- no call was made yet -/
  | new {s : Storage} (h : (Storage.new device config hasFactory).value = .ok s) :
    Reached device config hasFactory ⟨s, []⟩
  /-- one more call was made -/
  | call {z : Session} {log : Log} {ending : Outcome StorageError Unit} {s : Storage}
    (h : Reached device config hasFactory z) (c : StorageCall)
    (hrun : (c.routine z.storage).Runs log (ending, s)) :
    Reached device config hasFactory (z.extend ⟨c, ending, log⟩ s)

/-- The session after one more call, answered from a state. -/
def next {σ : Type} (handle : (r : Request) → σ → r.Answer × σ) (z : Session) (c : StorageCall)
    (x : σ) : Session :=
  z.extend ⟨c, ((c.routine z.storage).run handle x).1.1, (c.routine z.storage).trace handle x⟩
    ((c.routine z.storage).run handle x).1.2

/-- Whoever answers a call, it leads on. -/
theorem Reached.next {device : Option Geometry} {config : Config} {hasFactory : Bool} {z : Session}
    (h : Reached device config hasFactory z) {σ : Type}
    (handle : (r : Request) → σ → r.Answer × σ) (c : StorageCall) (x : σ) :
    Reached device config hasFactory (z.next handle c x) :=
  h.call c (Script.runs_trace handle _ x)

/-- Some call to bring storage up has succeeded. -/
def CameUp (z : Session) : Prop := ∃ e ∈ z.past, e.call = .init ∧ e.ending = .ok ()

theorem cameUp_extend_iff {z : Session} {e : Episode} {s : Storage} :
    (z.extend e s).CameUp ↔ z.CameUp ∨ e.call = .init ∧ e.ending = .ok () := by
  simp [CameUp, extend, or_and_right, exists_or]

theorem cameUp_next_init {σ : Type} {handle : (r : Request) → σ → r.Answer × σ} {s : Storage}
    {past : List Episode} {x : σ} (h : (s.init.run handle x).1.1 = .ok ()) :
    (next handle ⟨s, past⟩ .init x).CameUp :=
  cameUp_extend_iff.2 (.inr ⟨rfl, h⟩)

end Session

/-! ## Filesystems that are made -/

/-- The request makes the filesystem of a number. -/
def Request.creates (n : UInt8) : Request → Bool
  | create m .. => m == n
  | block _ | mount .. | unmount _ | reformat .. | note _ => false

/-- How often the filesystem of a number is made. -/
def Routine.countCreates (n : UInt8) (log : Log) : Nat := log.countP fun e => e.1.creates n

namespace Routine

variable {n : UInt8} {log log' : Log}

@[simp] theorem countCreates_append :
    countCreates n (log ++ log') = countCreates n log + countCreates n log' :=
  List.countP_append

@[simp] theorem countCreates_cons (e : (r : Request) × r.Answer) :
    countCreates n (e :: log) = countCreates n log + if e.1.creates n then 1 else 0 :=
  List.countP_cons

theorem countCreates_eq_zero (h : ∀ e ∈ log, e.1.creates n = false) : countCreates n log = 0 :=
  List.countP_eq_zero.2 fun e he => by simp [h e he]

end Routine

theorem Request.OfTable.creates_eq {n : UInt8} {req : Request} (h : req.OfTable) :
    req.creates n = false := by
  cases req with
  | create => cases h
  | block | mount | unmount | reformat | note => rfl

theorem Request.Calls.creates_eq {n : UInt8} {fs : Filesystem} {v : Volume} {req : Request}
    (h : req.Calls fs v) : req.creates n = false := by
  cases req with
  | create => cases h
  | block | mount | unmount | reformat | note => rfl

open Routine (countCreates)

theorem Routine.countCreates_of_passive {n : UInt8} {log : Log} (h : ∀ e ∈ log, e.1.Passive) :
    countCreates n log = 0 :=
  countCreates_eq_zero fun e he => (h e he).ofTable.creates_eq

/-! ## Steps on slots -/

namespace Slot

variable {g : Geometry} {s s' : Slot} {log : Log}

/-- The slot has a number, and its filesystem exists. -/
def holds (n : UInt8) (s : Slot) : Bool := s.number == n && s.hasFilesystem

/-- A filesystem has a partition, and a located partition ends on the device. -/
structure Coherent (device : Option Geometry) (s : Slot) : Prop where
  /-- the partition of a filesystem is there -/
  isSome_partition : s.hasFilesystem = true → s.partition.isSome = true
  /-- the device has the blocks of the partition -/
  bound_le : ∀ x, s.extent = some x → ∃ g, device = some g ∧ x.bound ≤ g.numBlocks.toNat

theorem coherent_new (device : Option Geometry) (spec : PartitionSpec) :
    (Slot.new spec).Coherent device :=
  ⟨fun h => absurd h Bool.false_ne_true, fun _ h => nomatch h⟩

/-- What a step does to slots, as far as storage vouches for it. -/
structure Advance {ε : Type} (g : Geometry) (slots : List Slot) (log : Log)
    (ending : Outcome ε Unit) (slots' : List Slot) : Prop where
  /-- what is configured stays -/
  specs_eq : slots'.map Slot.spec = slots.map Slot.spec
  /-- slots stay coherent -/
  coherent : (∀ t ∈ slots, t.Coherent (some g)) → ∀ t ∈ slots', t.Coherent (some g)
  /-- a filesystem is made where there was none, and stays -/
  creates_eq : ∀ n, countCreates n log + slots.countP (holds n) = slots'.countP (holds n)
  /-- a success has settled the slots -/
  settled : ending = .ok () → ∀ t ∈ slots', t.Settled

theorem Populates.countCreates_eq {v : Volume} {ending : Outcome StorageError Unit}
    (h : s.Populates v log ending) (n : UInt8) :
    countCreates n log = if s.number = n ∧ s.hasFilesystem = false then 1 else 0 := by
  rcases h.calls with ⟨hs, hlog⟩ | ⟨hs, calls, rfl, hcalls⟩
  · rw [Routine.countCreates_eq_zero fun e he => (hlog e he).creates_eq, if_neg (by simp [hs])]
  · rw [Routine.countCreates_cons,
      Routine.countCreates_eq_zero fun e he => (hcalls e he).creates_eq]
    simp [Request.creates, hs]

theorem Visit.advance {ending : Outcome StorageError Unit}
    (h : s.Visit (.disk g) log ending s') : Advance g [s] log ending [s'] := by
  cases h with
  | missed hlocate =>
    refine ⟨rfl, fun _ => ?_, fun n => ?_, fun hok => nomatch hok⟩
    · exact List.forall_mem_singleton.2 ⟨fun _ => rfl, fun _ hx => nomatch hx⟩
    · rw [Routine.countCreates_of_passive (passive_of_locate hlocate _), Nat.zero_add]
      rfl
  | overflowed hlocate =>
    refine ⟨rfl, id, fun n => ?_, fun hok => nomatch hok⟩
    rw [Routine.countCreates_of_passive (hlocate.only (only_locate _ _)), Nat.zero_add]
  | @located before log window ending hlocate hpopulates =>
    obtain ⟨-, -, -, hbound⟩ := runs_locate_ok hlocate
    refine ⟨rfl, fun _ => ?_, fun n => ?_, fun _ => ?_⟩
    · refine List.forall_mem_singleton.2 ⟨fun _ => rfl, fun x hx => ⟨g, rfl, ?_⟩⟩
      obtain rfl : window.extent = x := Option.some.inj hx
      exact hbound
    · rw [Routine.countCreates_append,
        Routine.countCreates_of_passive (hlocate.only (only_locate _ _)),
        hpopulates.countCreates_eq]
      cases hs : s.hasFilesystem <;> simp [holds, hs, List.countP_cons]
    · exact List.forall_mem_singleton.2 ⟨rfl, window.extent, rfl⟩

theorem Creation.advance {extent : Extent} {ending : Outcome StorageError Unit}
    (h : s.Creation g extent log ending s') : Advance g [s] log ending [s'] := by
  have hwrites : ∀ {log : Log} {written : Outcome TableError Unit},
      (writeEntry (.disk g) s.number s.spec.kind extent).Runs log written →
      ∀ n, countCreates n log = 0 := fun hwrite n => Routine.countCreates_eq_zero fun e he =>
        (hwrite.only (only_writeEntry g s.number s.spec.kind extent) e he).creates_eq
  cases h with
  | refused hwrite =>
    refine ⟨rfl, id, fun n => ?_, fun hok => nomatch hok⟩
    rw [Routine.countCreates_cons, Routine.countCreates_append, hwrites hwrite,
      Routine.countCreates_of_passive Routine.passive_of_noted]
    simp [Request.creates]
  | overflowed hwrite =>
    refine ⟨rfl, id, fun n => ?_, fun hok => nomatch hok⟩
    rw [Routine.countCreates_cons, hwrites hwrite]
    simp [Request.creates]
  | written hwrite hvisit =>
    obtain ⟨hspecs, hcoherent, hcreates, hsettled⟩ := hvisit.advance
    refine ⟨hspecs, hcoherent, fun n => ?_, hsettled⟩
    rw [Routine.countCreates_cons, Routine.countCreates_append, hwrites hwrite, ← hcreates n]
    simp [Request.creates]

/-- Steps in order are one step on all slots. -/
theorem advance_inOrder {ε : Type} {R : Slot → Log → Outcome ε Unit → Slot → Prop}
    {slots slots' : List Slot} {ending : Outcome ε Unit}
    (hstep : ∀ {t log o t'}, R t log o t' → Advance g [t] log o [t'])
    (h : InOrder R slots log ending slots') : Advance g slots log ending slots' := by
  induction h with
  | nil => exact ⟨rfl, id, fun _ => Nat.zero_add _, fun _ => List.forall_mem_nil _⟩
  | @stop t t' rest log ending h hne =>
    obtain ⟨hspecs, hcoherent, hcreates, -⟩ := hstep h
    refine ⟨?_, fun hall => ?_, fun n => ?_, fun hok => absurd hok hne⟩
    · rw [List.map_cons, List.map_cons, (List.cons.inj hspecs).1]
    · obtain ⟨ht, hrest⟩ := List.forall_mem_cons.1 hall
      have ht' := hcoherent (List.forall_mem_singleton.2 ht)
      exact List.forall_mem_cons.2 ⟨List.forall_mem_singleton.1 ht', hrest⟩
    · have hn := hcreates n
      simp only [List.countP_cons, List.countP_nil] at hn ⊢
      omega
  | @cons t t' rest rest' log log' ending h hrest ih =>
    obtain ⟨hspecs, hcoherent, hcreates, hsettled⟩ := hstep h
    refine ⟨?_, fun hall => ?_, fun n => ?_, fun hok => ?_⟩
    · rw [List.map_cons, List.map_cons, (List.cons.inj hspecs).1, ih.specs_eq]
    · obtain ⟨ht, hrest⟩ := List.forall_mem_cons.1 hall
      have ht' := hcoherent (List.forall_mem_singleton.2 ht)
      exact List.forall_mem_cons.2 ⟨List.forall_mem_singleton.1 ht', ih.coherent hrest⟩
    · have hn := hcreates n
      have hrestn := ih.creates_eq n
      rw [Routine.countCreates_append]
      simp only [List.countP_cons, List.countP_nil] at hn ⊢
      omega
    · have ht' := List.forall_mem_singleton.1 (hsettled rfl)
      exact List.forall_mem_cons.2 ⟨ht', ih.settled hok⟩

/-- One step after another on the same slots; the first may have failed. -/
theorem Advance.trans {ε ε' : Type} {slots slots' slots'' : List Slot} {log' : Log}
    {ending : Outcome ε Unit} {ending' : Outcome ε' Unit} (h : Advance g slots log ending slots')
    (h' : Advance g slots' log' ending' slots'') :
    Advance g slots (log ++ log') ending' slots'' := by
  refine ⟨h'.specs_eq.trans h.specs_eq, fun hall => h'.coherent (h.coherent hall), fun n => ?_,
    h'.settled⟩
  have hn := h.creates_eq n
  have hn' := h'.creates_eq n
  rw [Routine.countCreates_append]
  omega

/-- Requests that leave the slots alone, around a step. -/
theorem Advance.pad {ε ε' : Type} {slots slots' : List Slot} {before after : Log}
    {ending : Outcome ε Unit} {ending' : Outcome ε' Unit} (h : Advance g slots log ending slots')
    (hbefore : ∀ e ∈ before, e.1.Passive) (hafter : ∀ e ∈ after, e.1.Passive)
    (hending : ending' = .ok () → ending = .ok ()) :
    Advance g slots (before ++ (log ++ after)) ending' slots' := by
  refine ⟨h.specs_eq, h.coherent, fun n => ?_, fun hok => h.settled (hending hok)⟩
  rw [Routine.countCreates_append, Routine.countCreates_append,
    Routine.countCreates_of_passive hbefore, Routine.countCreates_of_passive hafter,
    ← h.creates_eq n]
  omega

end Slot

/-! ## Calls keep slots coherent -/

namespace Storage

variable {g : Geometry} {s s' : Storage} {log : Log} {ending : Outcome StorageError Unit}

/-- A layout has blocks for every slot. -/
theorem length_le_of_layout {slots : List Slot} {extents : List Extent}
    (hspecs : slots.map Slot.spec = s.slots.map Slot.spec) (hsize : g.size? = some s.capacity)
    (hlayout : (s.config.layout s.capacity g.blockSize).value = .ok extents) :
    slots.length ≤ extents.length := by
  have hplaced := (Config.placed_of_layout hlayout hsize).length_eq
  rw [config, ← hspecs, List.length_map] at hplaced
  exact hplaced.le

/-- A pass is a step on all slots. -/
theorem Pass.advance {slots : List Slot} (h : s.Pass g log ending slots)
    (hsize : g.size? = some s.capacity) : Slot.Advance g s.slots log ending slots := by
  cases h with
  | refused hslots hfactory =>
    exact ⟨rfl, id, fun _ => Nat.zero_add _, fun hok => nomatch hok⟩
  | whole hslots hprobe =>
    have hlog := hprobe.only (Filesystem.whole.only_probeOrFormat (.disk g) .formattingStorage)
    refine ⟨rfl, id, fun n => ?_, fun _ => ?_⟩
    · rw [Routine.countCreates_eq_zero fun e he => (hlog e he).creates_eq, Nat.zero_add]
    · rw [hslots]
      exact List.forall_mem_nil _
  | visited hslots hvisits notes =>
    have hall := Slot.advance_inOrder Slot.Visit.advance hvisits
    exact hall.pad (List.forall_mem_nil _) Routine.passive_of_noted id
  | misplaced hslots hvisits notes hnote =>
    have hall := Slot.advance_inOrder Slot.Visit.advance hvisits
    exact hall.pad (List.forall_mem_nil _) Routine.passive_of_noted fun hok => nomatch hok
  | @created log made visits ending slots extents pairs hslots hvisits notes hauto hlayout
      hcreations =>
    have hall := Slot.advance_inOrder Slot.Visit.advance hvisits
    have hcreated := hcreations.map Prod.fst
      (S := fun (t : Slot) log o t' => ∃ extent, t.Creation g extent log o t') fun h => ⟨_, h⟩
    rw [List.map_fst_zip (length_le_of_layout hall.specs_eq hsize hlayout)] at hcreated
    have hmade := Slot.advance_inOrder (fun ⟨_, h⟩ => h.advance) hcreated
    rw [← List.append_nil made]
    exact hall.trans (hmade.pad Routine.passive_of_noted (List.forall_mem_nil _) id)

end Storage

/-! ## Wiping what is there -/

/-- A driver's refusal to format is passed on as such. -/
theorem Filesystem.ne_notMounted_of_format {fs : Filesystem} {v : Volume} {log : Log}
    {ending : Outcome StorageError Unit} (h : (fs.format v).Runs log ending) (n : UInt8) :
    ending ≠ .fail (.notMounted n) := by
  obtain ⟨_, log₁, hreformat, rfl⟩ := Script.runs_request_bind_iff.1 h
  obtain ⟨r, log₂, hend, rfl⟩ := Script.runs_request_bind_iff.1 hreformat
  cases r with
  | ok u =>
    obtain ⟨rfl, rfl⟩ := Script.runs_pure_iff.1 hend
    simp
  | overflow o =>
    obtain ⟨rfl, rfl⟩ := Script.runs_pure_iff.1 hend
    simp
  | fail code =>
    obtain ⟨_, log₃, hdone, rfl⟩ := Script.runs_request_bind_iff.1 hend
    obtain ⟨rfl, rfl⟩ := Script.runs_pure_iff.1 hdone
    simp

namespace Slot

variable {s s' : Slot} {disk : Volume} {log : Log} {ending : Outcome StorageError Unit}

/-- A settled slot is mounted. -/
theorem Settled.ne_notMounted (hs : s.Settled) (h : s.Wiping disk log ending s') (n : UInt8) :
    ending ≠ .fail (.notMounted n) := by
  cases h with
  | missed hmissing =>
    obtain ⟨hfilesystem, e, he⟩ := hs
    cases (hmissing hfilesystem).symm.trans he
  | formatted _ hformat => exact Filesystem.ne_notMounted_of_format hformat n

end Slot

/-- Where all slots are settled, wiping storage does not miss a filesystem. -/
theorem Storage.ne_notMounted_of_wipe {s : Storage} {log : Log} {ending : Outcome StorageError Unit}
    (hslots : ∀ t ∈ s.slots, t.Settled) (h : s.wipe.Runs log ending) (n : UInt8) :
    ending ≠ .fail (.notMounted n) := by
  rintro rfl
  rcases runs_wipe h with ⟨-, hending, -⟩ | ⟨g, during, notes, -, rfl, hwiping, -⟩
  · cases hending
  · generalize hending : (.fail (.notMounted n) : Outcome StorageError Unit) = ending at hwiping
    cases hwiping with
    | @whole formatted => cases formatted <;> cases hending
    | slots hall =>
      subst hending
      obtain ⟨before, part, t, t', -, ht, hlast, -⟩ := hall.exists_last nofun
      exact (hslots t ht).ne_notMounted hlast n rfl

/-! ## Sessions -/

namespace Session

variable {device : Option Geometry} {config : Config} {hasFactory : Bool} {z : Session} {log : Log}
  {ending : Outcome StorageError Unit} {s' : Storage}

/-- What every call keeps. -/
structure Kept (device : Option Geometry) (config : Config) (z : Session) : Prop where
  /-- the device stays -/
  device_eq : z.storage.device = device
  /-- there is a slot for every configured partition -/
  specs_eq : z.storage.slots.map Slot.spec = config.partitions
  /-- slots are coherent -/
  coherent : ∀ t ∈ z.storage.slots, t.Coherent device
  /-- the filesystems that exist were made once -/
  creates_eq : ∀ n, countCreates n z.log = z.storage.slots.countP (Slot.holds n)
  /-- storage is up if a call has brought it up -/
  isUp_iff : z.storage.isUp = true ↔ z.CameUp
  /-- the slots of storage that is up are settled -/
  settled : z.storage.isUp = true → ∀ t ∈ z.storage.slots, t.Settled

theorem kept_new {s : Storage} (h : (Storage.new device config hasFactory).value = .ok s) :
    Kept device config ⟨s, []⟩ := by
  obtain ⟨-, rfl⟩ := Storage.new_eq_ok_iff.1 h
  refine ⟨rfl, ?_, ?_, fun n => ?_, ?_, fun h => nomatch h⟩
  · exact (List.map_map ..).trans (List.map_id _)
  · rintro t ht
    obtain ⟨spec, -, rfl⟩ := List.mem_map.1 ht
    exact Slot.coherent_new device spec
  · have hnone : ∀ t ∈ config.partitions.map Slot.new, ¬ Slot.holds n t = true := by
      rintro t ht
      obtain ⟨spec, -, rfl⟩ := List.mem_map.1 ht
      simp [Slot.holds, Slot.new]
    exact (List.countP_eq_zero.2 hnone).symm
  · simp [CameUp]

/-- A call that leaves storage as it is. -/
theorem Kept.idle (h : z.Kept device config) {e : Episode} (hlog : ∀ n, countCreates n e.log = 0)
    (hup : e.call = .init → e.ending = .ok () → z.storage.isUp = true) :
    (z.extend e z.storage).Kept device config := by
  refine ⟨h.device_eq, h.specs_eq, h.coherent, fun n => ?_, ?_, h.settled⟩
  · rw [log_extend, Routine.countCreates_append, hlog, h.creates_eq]
    rfl
  · rw [cameUp_extend_iff, storage_extend, ← h.isUp_iff]
    exact ⟨.inl, fun hor => hor.elim id fun ⟨hcall, hok⟩ => hup hcall hok⟩

theorem Kept.init (h : z.Kept device config) (hrun : z.storage.init.Runs log (ending, s')) :
    (z.extend ⟨.init, ending, log⟩ s').Kept device config := by
  rcases Storage.runs_init hrun with ⟨hup, rfl, rfl, rfl⟩ | ⟨-, -, rfl, rfl, rfl⟩ |
    ⟨g, hdown, hdevice, hcourse⟩
  · exact h.idle (fun _ => rfl) fun _ _ => hup
  · exact h.idle (fun _ => rfl) (by simp)
  rcases hcourse.stops_or_passes with ⟨hlog, hne, rfl⟩ |
    ⟨before, during, after, capacity, slots, rfl, hbefore, hafter, hsize, hpass, rfl⟩
  · exact h.idle (fun _ => Routine.countCreates_of_passive hlog) fun _ hok => absurd hok hne
  · obtain rfl : device = some g := h.device_eq.symm.trans hdevice
    have hall : Slot.Advance g z.storage.slots _ ending slots :=
      (hpass.advance hsize).pad hbefore hafter id
    obtain ⟨hspecs, hcoherent, hcreates, hsettled⟩ := hall
    refine ⟨hdevice, hspecs.trans h.specs_eq, hcoherent h.coherent, fun n => ?_, ?_, fun hup => ?_⟩
    · rw [log_extend, Routine.countCreates_append, h.creates_eq, Nat.add_comm]
      exact hcreates n
    · simp [cameUp_extend_iff, ← h.isUp_iff]
    · rw [storage_extend, hdown, Bool.false_or, decide_eq_true_iff] at hup
      exact hsettled hup

theorem Kept.wipe (h : z.Kept device config) (hrun : z.storage.wipe.Runs log ending) :
    (z.extend ⟨.wipe, ending, log⟩ z.storage).Kept device config := by
  refine h.idle (fun n => Routine.countCreates_eq_zero fun e he => ?_) (by simp)
  cases Storage.wipes_of_runs hrun e he with
  | passive h => exact h.ofTable.creates_eq
  | whole _ h => exact h.creates_eq
  | slot _ _ _ h => exact h.creates_eq

theorem Reached.kept (h : Reached device config hasFactory z) : z.Kept device config := by
  induction h with
  | new h => exact kept_new h
  | @call z log ending s h c hrun ih =>
    cases c with
    | init => exact ih.init hrun
    | wipe =>
      obtain ⟨rfl, hwipe⟩ := StorageCall.runs_wipe hrun
      exact ih.wipe hwipe

theorem Reached.validate_eq (h : Reached device config hasFactory z) :
    config.validate = .ok () := by
  induction h with
  | new h => exact (Storage.new_eq_ok_iff.1 h).1
  | call _ _ _ ih => exact ih

/-- What whoever holds storage can rely on after any calls, for a device and a configuration. -/
structure Coherent (device : Option Geometry) (config : Config) (z : Session) : Prop where
  /-- storage is up exactly if some call to bring it up has succeeded -/
  isUp_iff : z.storage.isUp = true ↔ z.CameUp
  /-- once it is up, a further such call succeeds, requests nothing but lines in the log, and
  changes nothing -/
  init_of_isUp : z.storage.isUp = true → ∀ {σ : Type} (handle : (r : Request) → σ → r.Answer × σ)
    (x : σ), (z.storage.init.run handle x).1 = (.ok (), z.storage) ∧
      ∀ e ∈ z.storage.init.trace handle x, ∃ n, e.1 = .note n
  /-- there is a filesystem exactly where one was made -/
  isSome_filesystem_iff : ∀ n, (z.storage.filesystem? n).isSome = true ↔ 0 < countCreates n z.log
  /-- where there is a filesystem there is a partition -/
  isSome_partition : ∀ n, (z.storage.filesystem? n).isSome = true →
    (z.storage.partition? n).isSome = true
  /-- located partitions end on the device -/
  bound_le : ∀ n p x, z.storage.partition? n = some p → p.extent = some x →
    ∃ g, device = some g ∧ x.bound ≤ g.numBlocks.toNat
  /-- over all calls, the filesystem of a number is made at most once -/
  creates_le : ∀ n, countCreates n z.log ≤ 1
  /-- once storage is up, every configured partition is located and has a filesystem -/
  settled : z.storage.isUp = true → ∀ spec ∈ config.partitions,
    (∃ p x, z.storage.partition? spec.number = some p ∧ p.extent = some x) ∧
      (z.storage.filesystem? spec.number).isSome = true
  /-- once storage is up, wiping it misses no filesystem -/
  wipe_of_isUp : z.storage.isUp = true → ∀ {σ : Type} (handle : (r : Request) → σ → r.Answer × σ)
    (x : σ) (n : UInt8), (z.storage.wipe.run handle x).1 ≠ .fail (.notMounted n)

/-- The slot of a number that has a partition. -/
theorem exists_slot_of_partition? {s : Storage} {n : UInt8} {p : Partition}
    (h : s.partition? n = some p) : ∃ t ∈ s.slots, t.partition = some p := by
  obtain ⟨t, hslot, hpartition⟩ := Option.bind_eq_some_iff.1 h
  exact ⟨t, List.mem_of_find?_eq_some hslot, hpartition⟩

/-- No number stands for two slots, so there is at most one filesystem to a number. -/
theorem countP_holds_le_one {slots : List Slot} (hnodup : (slots.map Slot.number).Nodup)
    (n : UInt8) : slots.countP (Slot.holds n) ≤ 1 := by
  have hcount := List.nodup_iff_count_le_one.1 hnodup n
  rw [List.count, List.countP_map] at hcount
  refine Nat.le_trans (List.countP_mono_left fun t _ ht => ?_) hcount
  exact (Bool.and_eq_true_iff.1 ht).1

/-- There is a filesystem to a number if its slot holds one. -/
theorem isSome_filesystem?_iff {s : Storage} (hnodup : (s.slots.map Slot.number).Nodup)
    {n : UInt8} :
    (s.filesystem? n).isSome = true ↔ 0 < s.slots.countP (Slot.holds n) := by
  rw [List.countP_pos_iff, Storage.filesystem?, Option.isSome_map, Option.isSome_iff_exists]
  simp only [Option.filter_eq_some_iff, Slot.holds, Bool.and_eq_true, beq_iff_eq]
  constructor
  · rintro ⟨t, hslot, hfilesystem⟩
    have hnumber : t.number = n := eq_of_beq (List.find?_some hslot :)
    exact ⟨t, List.mem_of_find?_eq_some hslot, hnumber, hfilesystem⟩
  · rintro ⟨t, ht, rfl, hfilesystem⟩
    exact ⟨t, Storage.slot?_eq_some hnodup ht, hfilesystem⟩

/-- Calls of storage, one after the other, leave it coherent, whatever happens to them and to the
disk. -/
theorem coherent_after_calls (h : Reached device config hasFactory z) :
    z.Coherent device config := by
  have hkept := h.kept
  have hnodup : (z.storage.slots.map Slot.number).Nodup := by
    refine Storage.nodup_numbers ?_
    rw [hkept.specs_eq]
    exact (Config.validate_eq_ok_iff.1 h.validate_eq).2.2
  refine ⟨hkept.isUp_iff, fun hup _ handle x => ?_, fun n => ?_, fun n hn => ?_,
    fun n p x hp hx => ?_, fun n => ?_, fun hup spec hspec => ?_, fun hup _ handle x n => ?_⟩
  · have hinit : z.storage.init =
        Routine.note .alreadyUp >>= fun _ => pure (.ok (), z.storage) := by
      rw [Storage.init, if_pos hup]
    rw [hinit]
    exact ⟨rfl, fun e he => ⟨.alreadyUp, List.mem_singleton.1 he ▸ rfl⟩⟩
  · rw [hkept.creates_eq]
    exact isSome_filesystem?_iff hnodup
  · obtain ⟨fs, hfs⟩ := Option.isSome_iff_exists.1 hn
    obtain ⟨t, hslot, -⟩ := Option.map_eq_some_iff.1 hfs
    obtain ⟨hslot, hfilesystem⟩ := Option.filter_eq_some_iff.1 hslot
    have ht := hkept.coherent t (List.mem_of_find?_eq_some hslot)
    rw [Storage.partition?, hslot, Option.bind_some]
    exact ht.isSome_partition hfilesystem
  · obtain ⟨t, ht, hpartition⟩ := exists_slot_of_partition? hp
    refine (hkept.coherent t ht).bound_le x ?_
    rw [Slot.extent, hpartition, Option.bind_some, hx]
  · rw [hkept.creates_eq]
    exact countP_holds_le_one hnodup n
  · rw [← hkept.specs_eq] at hspec
    obtain ⟨t, ht, rfl⟩ := List.mem_map.1 hspec
    obtain ⟨hfilesystem, x, hx⟩ := hkept.settled hup t ht
    obtain ⟨p, hp, hextent⟩ := Option.bind_eq_some_iff.1 hx
    have hslot : z.storage.slot? t.spec.number = some t := Storage.slot?_eq_some hnodup ht
    refine ⟨⟨p, x, ?_, hextent⟩, ?_⟩
    · rw [Storage.partition?, hslot, Option.bind_some, hp]
    · rw [Storage.filesystem?, hslot, Option.filter_some_pos hfilesystem]
      rfl
  · exact Storage.ne_notMounted_of_wipe (hkept.settled hup) (Script.runs_trace handle _ x) n

/-- A session in which the first call has brought storage up. -/
theorem coherent_after_first_call :
    let z : Session := next Bench.answer ⟨.forLonePartition, []⟩ .init lonePartition
    z.CameUp ∧ z.Coherent (some ⟨512, 4096⟩) ⟨[⟨1, 0, 8192, 0x83, "/fs"⟩], false⟩ := by
  intro z
  have hnew : (Storage.new (some ⟨512, 4096⟩) ⟨[⟨1, 0, 8192, 0x83, "/fs"⟩], false⟩ true).value =
      .ok .forLonePartition := rfl
  refine ⟨cameUp_next_init init_forLonePartition, ?_⟩
  exact coherent_after_calls ((Reached.new hnew).next Bench.answer .init lonePartition)

end Session

end DiskBringup
