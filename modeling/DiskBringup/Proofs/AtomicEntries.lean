import DiskBringup.Proofs.GuardedDisks
import DiskBringup.Proofs.LongBlocks
import DiskBringup.Proofs.ReadBack

/-!
# An entry is written whole or not at all

All that can refuse an entry comes before the one request that writes block 0, and the answer to
that request is the answer of the call (`Table.Commits`, `ends_writeEntry`). So a call
`TableCall.WritesOnce` at most, whoever answers, and is not refused after that. On the bench this
leaves two endings. A call that succeeds has put the record of its entry into the table, or into an
empty one if there was none, and has changed no other byte (`Bench.EntryWritten`); any other call
has changed none at all (`Bench.writes_entry_or_nothing`).
-/

namespace DiskBringup

open Routine (Log)
open Script (ends_pure ends_request_bind)

variable {log : Log} {v : Volume}

/-! ## How a call for an entry may go -/

/-- A write to a volume is refused by a window, or is one write to the disk. -/
theorem Routine.runs_onVolume_write {b : UInt64} {n : Nat} {data : Buffer n}
    {answer : Except ErrorCode Unit} (h : (onVolume v (.write b data)).Runs log answer) :
    log = [] ∧ answer = .error .device ∨ ∃ c, log = [⟨.block (.write c data), answer⟩] := by
  induction v generalizing b with
  | disk g =>
    obtain ⟨r, log', hend, rfl⟩ := Script.runs_request_bind_iff.1 h
    obtain ⟨rfl, rfl⟩ := Script.runs_pure_iff.1 hend
    exact .inr ⟨b, rfl⟩
  | window base window ih =>
    rw [onVolume, Volume.request] at h
    split at h
    · exact ih h
    · exact .inl (Script.runs_pure_iff.1 h)

namespace Table

/-- The ending of a call whose write is answered. -/
def written : Except ErrorCode Unit → Outcome TableError Unit
  | .ok () => .ok ()
  | .error code => .fail (.io code)

/-- How a call may write to block 0 of a volume. -/
inductive Commits (v : Volume) : Log → Outcome TableError Unit → Prop
  /-- nothing is written -/
  | refused {log : Log} {r : Outcome TableError Unit} (hlog : ∀ e ∈ log, e.1.Passive)
    (hne : r ≠ .ok ()) (hr : r.Buffered v.Unbuffered) : Commits v log r
  /-- the answer to the only write decides -/
  | transferred {before during after : Log} {n : Nat} {data : Buffer n}
    {answer : Except ErrorCode Unit} (hbefore : ∀ e ∈ before, e.1.Passive)
    (hwrite : (Routine.onVolume v (.write 0 data)).Runs during answer)
    (hafter : ∀ e ∈ after, e.1.Passive) : Commits v (before ++ (during ++ after)) (written answer)

namespace Commits

variable {r : Outcome TableError Unit}

theorem fail (hlog : ∀ e ∈ log, e.1.Passive) (err : TableError) : Commits v log (.fail err) :=
  .refused hlog (by simp) (.fail err)

/-- An overflow that is passed on, with nothing written. -/
theorem overflow {α : Type} {o : Overflow}
    (h : (Outcome.overflow o : Outcome TableError α).Buffered v.Unbuffered) :
    Commits v [] (.overflow o) :=
  .refused (List.forall_mem_nil _) (by simp) h.overflow

/-- What comes before does not write. -/
theorem cons {before : Log} (h : Commits v log r) (hbefore : ∀ e ∈ before, e.1.Passive) :
    Commits v (before ++ log) r := by
  cases h with
  | refused hlog hne hr => exact .refused (List.forall_mem_append.2 ⟨hbefore, hlog⟩) hne hr
  | transferred hbefore' hwrite hafter =>
    rw [← List.append_assoc]
    exact .transferred (List.forall_mem_append.2 ⟨hbefore, hbefore'⟩) hwrite hafter

/-- What comes afterwards does not write. -/
theorem append {after : Log} (h : Commits v log r) (hafter : ∀ e ∈ after, e.1.Passive) :
    Commits v (log ++ after) r := by
  cases h with
  | refused hlog hne hr => exact .refused (List.forall_mem_append.2 ⟨hlog, hafter⟩) hne hr
  | transferred hbefore hwrite hafter' =>
    rw [List.append_assoc, List.append_assoc]
    exact .transferred hbefore hwrite (List.forall_mem_append.2 ⟨hafter', hafter⟩)

theorem buffered (h : Commits v log r) : r.Buffered v.Unbuffered := by
  cases h with
  | refused hlog hne hr => exact hr
  | @transferred _ _ _ _ _ answer => cases answer <;> exact fun _ ho => (nomatch ho)

end Commits

variable {t : Table} {number kind : UInt8} {extent : Extent}

theorem commits_writeFirst {block : Buffer v.blockSize.toNat} :
    (writeFirst v block).Ends (Commits v) := by
  intro log r hrun
  obtain ⟨during, answer, after, hwrite, hrest, rfl⟩ := Script.runs_bind_iff.1 hrun
  cases answer with
  | ok u =>
    obtain ⟨rfl, rfl⟩ := Script.runs_pure_iff.1 hrest
    exact .transferred (List.forall_mem_nil _) hwrite (List.forall_mem_nil _)
  | error code =>
    obtain ⟨_, log', hend, rfl⟩ := Script.runs_request_bind_iff.1 hrest
    obtain ⟨rfl, rfl⟩ := Script.runs_pure_iff.1 hend
    exact .transferred (List.forall_mem_nil _) hwrite (List.forall_mem_singleton.2 trivial)

theorem commits_write : (t.write v).Ends (Commits v) := by
  rw [write]
  split
  · refine ((only_readFirst v).ends.and buffered_readFirst).bind ?_
    rintro before (block | err | o) ⟨hbefore, hread⟩
    · exact commits_writeFirst.imp fun _ _ h => h.cons hbefore
    · exact ends_pure ((Commits.fail (List.forall_mem_nil _) err).cons hbefore)
    · exact ends_pure ((Commits.overflow hread).cons hbefore)
  · exact ends_pure (.fail (List.forall_mem_nil _) _)

/-- An edit overflows only where the end of its blocks is no word. -/
theorem setEntry_eq_overflow_iff {o : Overflow} :
    (t.setEntry number kind extent).value = .overflow o ↔
      o = .add ∧ (1 ≤ number.toNat ∧ number.toNat ≤ 4) ∧ 2 ^ 64 ≤ extent.bound := by
  rw [setEntry]
  cases hi : Index.ofNumber? number with
  | none =>
    have := Index.ofNumber?_eq_none_iff.1 hi
    simp only [Noted.value_pure, reduceCtorEq, false_iff]
    omega
  | some i =>
    obtain rfl := Index.ofNumber?_eq_some_iff.1 hi
    have hnumber := i.number_mem
    cases hb : extent.bound? with
    | none =>
      have hend := Extent.bound?_eq_none_iff.1 hb
      rw [Noted.value_pure, Outcome.overflow.injEq]
      exact ⟨fun h => ⟨h.symm, hnumber, hend⟩, fun h => h.1.symm⟩
    | some bound =>
      have hlt : extent.bound < 2 ^ 64 := Extent.bound?_eq_some_iff.1 hb ▸ bound.toNat_lt
      simp only [Noted.value_bind, Noted.value_pure]
      constructor
      · exact fun h => absurd h (Outcome.ofExcept_ne_overflow _ o)
      · exact fun h => absurd h.2.2 (Nat.not_le.2 hlt)

theorem commits_commitEntry (haddr : extent.Addressable) :
    (t.commitEntry v number kind extent).Ends (Commits v) := by
  refine (Routine.ends_ofNoted _).bind ?_
  rintro before (edited | err | o) ⟨hbefore, hvalue⟩
  · exact commits_write.imp fun _ _ h => h.cons hbefore
  · exact ends_pure ((Commits.fail (List.forall_mem_nil _) err).cons hbefore)
  · exact absurd (setEntry_eq_overflow_iff.1 hvalue.symm).2.2 (Nat.not_le.2 haddr)

end Table

open Table (Commits)

variable {number kind : UInt8} {extent : Extent}

theorem commits_writeEntryBefore {bound : UInt64} (haddr : extent.Addressable) :
    (writeEntryBefore v number kind extent bound).Ends (Commits v) := by
  refine ((Table.only_read v).ends.and Table.buffered_read).bind ?_
  rintro before (found | err | o) ⟨hbefore, hread⟩
  · refine Script.Ends.imp (p := Commits v) ?_ fun _ _ h => h.cons hbefore
    refine (Routine.only_ofNoted _).ends.bind ?_
    rintro notes (err | table) hnotes
    · exact ends_pure ((Commits.fail (List.forall_mem_nil _) err).cons hnotes)
    · refine Script.Ends.imp (p := Commits v) ?_ fun _ _ h => h.cons hnotes
      refine (Table.commits_commitEntry haddr).bind ?_
      rintro log (u | err | o) hcommits
      · refine ends_request_bind fun _ => ends_pure ?_
        exact hcommits.append (List.forall_mem_singleton.2 trivial)
      · exact ends_pure (hcommits.append (List.forall_mem_nil _))
      · exact ends_pure (hcommits.append (List.forall_mem_nil _))
  · exact ends_pure ((Commits.fail (List.forall_mem_nil _) err).cons hbefore)
  · exact ends_pure ((Commits.overflow hread).cons hbefore)

/-- How writing an entry may go: refused at once, an overflow at once, or the entry is committed
over blocks that the volume has. -/
theorem ends_writeEntry :
    (writeEntry v number kind extent).Ends fun log r =>
      log = [] ∧ r = .fail .outOfBounds ∨
        (extent.start ≠ 0 ∧ extent.blocks ≠ 0 ∧ 2 ^ 64 ≤ extent.bound) ∧ r = .overflow .add ∨
        extent.Placeable v.geometry ∧ Commits v log r := by
  rw [writeEntry]
  split
  · exact ends_pure (.inl ⟨rfl, rfl⟩)
  · rename_i hzero
    obtain ⟨hstart, hblocks⟩ := not_or.1 hzero
    cases hb : extent.bound? with
    | none => exact ends_pure (.inr (.inl ⟨⟨hstart, hblocks, Extent.bound?_eq_none_iff.1 hb⟩, rfl⟩))
    | some bound =>
      have hbound := Extent.bound?_eq_some_iff.1 hb
      dsimp only
      split
      · exact ends_pure (.inl ⟨rfl, rfl⟩)
      · rename_i hle
        refine (commits_writeEntryBefore (hbound.trans_lt bound.toNat_lt)).imp ?_
        refine fun _ _ h => .inr (.inr ⟨⟨hstart, hblocks, ?_⟩, h⟩)
        rw [hbound]
        exact UInt64.le_iff_toNat_le.1 (UInt64.not_lt.1 hle)

/-- A call is refused without a write, or commits its entry over blocks that the volume has. -/
theorem TableCall.ends_routine (c : TableCall) :
    (c.routine v).Ends fun log r =>
      ((∀ e ∈ log, e.1.Passive) ∧ ∃ err, r = .fail err) ∨
        (c.range v.geometry).Placeable v.geometry ∧ Commits v log (r.bind fun _ => .ok ()) := by
  -- both calls end in writing an entry, over blocks that have addresses
  have hwritten : ∀ {number kind : UInt8} {e : Extent}, e.Addressable →
      (do let written ← writeEntry v number kind e; return written.bind fun () => .ok e :
        Routine (Outcome TableError Extent)).Ends fun log r =>
      ((∀ x ∈ log, x.1.Passive) ∧ ∃ err, r = .fail err) ∨
        e.Placeable v.geometry ∧ Commits v log (r.bind fun _ => .ok ()) := by
    intro number kind e haddr
    refine ends_writeEntry.bind ?_
    rintro log written (⟨rfl, rfl⟩ | ⟨⟨-, -, hbound⟩, -⟩ | ⟨hplace, hcommits⟩)
    · exact ends_pure (.inl ⟨List.forall_mem_nil _, _, rfl⟩)
    · exact absurd hbound (Nat.not_le.2 haddr)
    · refine ends_pure (.inr ⟨hplace, ?_⟩)
      rw [List.append_nil]
      cases written <;> exact hcommits
  cases c with
  | write number kind window => exact hwritten window.addressable
  | create number kind start stop =>
    change (createPartition v number kind start stop).Ends _
    rw [createPartition]
    split
    · exact ends_pure (.inl ⟨List.forall_mem_nil _, _, rfl⟩)
    · split
      · refine ends_request_bind fun _ => ends_pure (.inl ⟨?_, _, rfl⟩)
        exact List.forall_mem_singleton.2 trivial
      · rename_i e hsome
        have hin := (Option.filter_eq_some_iff.1 hsome).1
        have hrange : (create number kind start stop).range v.geometry = e := by
          rw [range, show Extent.inside? v.geometry.blockSize start stop = some e from hin]
          rfl
        rw [hrange]
        exact hwritten (hrange ▸ addressable_range _ (create number kind start stop))

/-- How a call ends by what it writes to the disk. -/
inductive TableCall.WritesOnce (log : Log) (r : Outcome TableError Extent) : Prop
  /-- it writes nothing, and does not succeed -/
  | unwritten (hlog : ∀ e ∈ log, e.1.Passive) (hr : ∀ e, r ≠ .ok e)
  /-- its one write succeeds, and so does the call -/
  | written {before after : Log} {b : UInt64} {n : Nat} {data : Buffer n} {e : Extent}
    (hlog : log = before ++ ⟨.block (.write b data), .ok ()⟩ :: after)
    (hbefore : ∀ e ∈ before, e.1.Passive) (hafter : ∀ e ∈ after, e.1.Passive) (hr : r = .ok e)
  /-- its one write fails, and the call with it -/
  | failed {before after : Log} {b : UInt64} {n : Nat} {data : Buffer n} {code : ErrorCode}
    (hlog : log = before ++ ⟨.block (.write b data), .error code⟩ :: after)
    (hbefore : ∀ e ∈ before, e.1.Passive) (hafter : ∀ e ∈ after, e.1.Passive)
    (hr : r = .fail (.io code))

/-- A call whose entry is committed writes once at most. -/
theorem TableCall.writesOnce_of_commits {r : Outcome TableError Extent}
    (h : Commits v log (r.bind fun _ => .ok ())) : WritesOnce log r := by
  generalize hended : (r.bind fun _ => Outcome.ok ()) = ended at h
  cases h with
  | refused hlog hne =>
    refine .unwritten hlog ?_
    rintro e rfl
    exact hne hended.symm
  | @transferred before during after n data answer hbefore hwrite hafter =>
    rcases Routine.runs_onVolume_write hwrite with ⟨rfl, rfl⟩ | ⟨c, rfl⟩
    · refine .unwritten (List.forall_mem_append.2 ⟨hbefore, hafter⟩) ?_
      rintro e rfl
      cases hended
    · cases answer with
      | ok u =>
        obtain ⟨e, hr, -⟩ := Outcome.bind_eq_ok.1 hended
        exact .written rfl hbefore hafter hr
      | error code =>
        rcases Outcome.bind_eq_fail.1 hended with hr | ⟨_, -, hr⟩
        · exact .failed rfl hbefore hafter hr
        · cases hr

/-! ## On the bench -/

/-- The table, or an empty one where there is no signature. -/
def Table.orEmpty (t : Table) : Table := if t.hasSignature then t else empty

theorem Table.eq_orEmpty_of_editable {t base : Table} (h : t.editable.value = .ok base) :
    base = t.orEmpty := by
  rcases editable_eq_ok_iff.1 h with ⟨hno, rfl⟩ | ⟨hsig, -, rfl⟩
  · rw [orEmpty, if_neg (by simp [hno])]
  · rw [orEmpty, if_pos hsig]

namespace Bench

variable {δ φ : Type} [BlockStore δ] {w w' : Bench δ φ} {number kind : UInt8} {extent : Extent}

open BlockStore

/-- An entry has been written over some blocks, and no byte besides has changed. -/
structure EntryWritten (w : Bench δ φ) (number kind : UInt8) (extent : Extent) (w' : Bench δ φ) :
    Prop where
  /-- the disk keeps its shape -/
  geometry_eq : geometry w'.store = geometry w.store
  /-- the blocks besides block 0 keep their bytes -/
  byteAt_eq : ∀ (b : UInt64) (k : Nat), b ≠ 0 → b < (geometry w.store).numBlocks →
    k < (geometry w.store).blockSize.toNat → byteAt w'.store b k = byteAt w.store b k
  /-- block 0 keeps the bytes after the table -/
  rest_eq : ∀ k, 512 ≤ k → k < (geometry w.store).blockSize.toNat →
    byteAt w'.store 0 k = byteAt w.store 0 k
  /-- the table, or an empty one, has the record of the entry in its place -/
  table_eq : ∃ i last, number = Index.number i ∧ last.toNat + 1 = extent.bound ∧
    w'.table = w.table.orEmpty.put i (.covering kind extent last)
  /-- and the other bytes of the table are as they were -/
  sector_eq : ∀ i, number = Index.number i → ∀ (k : Nat) (hk : k < 512),
    k < Table.offset i ∨ Table.offset i + 16 ≤ k →
      w'.table.sector[k] = w.table.orEmpty.sector[k]

theorem WritesEntry.entryWritten {r : Outcome TableError Unit}
    (h : WritesEntry (geometry w.store) number kind extent w r w') (hr : r = .ok ()) :
    w.EntryWritten number kind extent w' := by
  obtain ⟨-, -, htable, ha, hrest⟩ := h.of_ok hr
  obtain ⟨i, last, base, rfl, hlast, hbase, -, -, hput⟩ := Table.exists_put_of_rewritten htable
  rw [Table.eq_orEmpty_of_editable hbase] at hput
  refine ⟨ha.geometry_eq, fun b k hb => ha.byteAt_eq b k ?_, hrest, ⟨i, last, rfl, hlast, hput⟩, ?_⟩
  · exact fun h0 => hb (UInt64.toNat.inj h0)
  · intro j hj k hk hout
    obtain rfl := Index.number_inj.1 hj
    have hkept := w.table.orEmpty.getElem_put_of_outside
      (r := .covering kind extent last) hk hout
    rw [← hput] at hkept
    exact hkept

variable [LawfulBlockStore δ] [FilesystemDriver φ]

/-- A call that succeeds has written its entry and changed no other byte, and any other call has
changed no byte of the disk. On every volume and whatever it is answered, a call writes once at
most and is refused for no other reason afterwards. -/
theorem writes_entry_or_nothing (w : Bench δ φ) (c : TableCall) :
    let g := geometry w.store
    let r := (w.run (c.routine (.disk g))).1
    let w' := (w.run (c.routine (.disk g))).2
    (∀ e, r = .ok e → e = c.range g ∧ w.EntryWritten c.number c.kind e w') ∧
      ((∀ e, r ≠ .ok e) → w.Untouched w') ∧
      ∀ (v : Volume) (log : Log) (r : Outcome TableError Extent), (c.routine v).Runs log r →
        TableCall.WritesOnce log r := by
  intro g r w'
  obtain ⟨hw, hrange⟩ := ensures_iff.1 (ensures_routine (w := w) rfl c)
  refine ⟨?_, ?_, ?_⟩
  · intro e he
    obtain rfl := hrange e he
    exact ⟨rfl, hw.entryWritten (Outcome.bind_eq_ok.2 ⟨_, he, rfl⟩)⟩
  · intro hne
    refine (hw.of_ne fun hok => ?_).untouched
    obtain ⟨e, he, -⟩ := Outcome.bind_eq_ok.1 hok
    exact hne e he
  · intro v log r hrun
    rcases c.ends_routine log r hrun with ⟨hlog, err, rfl⟩ | ⟨-, hcommits⟩
    · exact .unwritten hlog (by simp)
    · exact TableCall.writesOnce_of_commits hcommits

/-- On a disk with an entry over the blocks 1 to 10, a second entry is written over the blocks 20
to 39 and leaves the first one alone; an entry over block 10 is refused. -/
theorem writes_entry_or_nothing_beside :
    let g : Geometry := ⟨512, 4096⟩
    let w : Bench SparseDisk Signature := .new (.prepared 4096 (Table.holding [⟨1, 10⟩]) [])
    let free : TableCall := .create 2 0x83 (20 * 512) (40 * 512)
    let taken : TableCall := .write 2 0x83 ⟨⟨10, 5⟩, by decide⟩
    (w.run (free.routine (.disk g))).1 = .ok ⟨20, 20⟩ ∧
      w.EntryWritten 2 0x83 ⟨20, 20⟩ (w.run (free.routine (.disk g))).2 ∧
      TableCall.WritesOnce (Script.trace answer (free.routine (.disk g)) w) (.ok ⟨20, 20⟩) ∧
      (∀ e, (w.run (taken.routine (.disk g))).1 ≠ .ok e) ∧
      w.Untouched (w.run (taken.routine (.disk g))).2 := by
  intro g w free taken
  obtain ⟨-, hrep⟩ := Table.represents_holding [⟨1, 10⟩] (by decide)
  have htable : w.table = Table.holding [⟨1, 10⟩] := table_prepared rfl
  have hholds : w.Holds g (Allotment.holding [⟨1, 10⟩]) := by
    refine ⟨rfl, by simp [w, Bench.new, Quiet], htable ▸ hrep, ?_, ?_⟩
    · exact Allotment.ordinary_holding _ (by decide)
    · exact (Allotment.tidy_empty g).set ⟨by decide, by decide, by decide⟩ (by decide)
  have hfree : (w.run (free.routine (.disk g))).1 = .ok ⟨20, 20⟩ := by
    have hrun := hholds.run_routine (by decide) (by decide) (c := free) ⟨by decide, by decide⟩
      (by decide)
    rw [show free.range g = ⟨20, 20⟩ by decide] at hrun
    exact hrun
  have htaken : ∀ e, (w.run (taken.routine (.disk g))).1 ≠ .ok e := by
    intro e he
    have hcall := hholds.call (by decide) (by decide) (c := taken) ⟨by decide, by decide⟩
    exact absurd ((ensures_iff.1 hcall).1.ok_iff.1 ⟨e, he⟩) (by decide)
  obtain ⟨hok, -, hlog⟩ := writes_entry_or_nothing w free
  obtain ⟨-, hrefused, -⟩ := writes_entry_or_nothing w taken
  exact ⟨hfree, (hok _ hfree).2, hlog _ _ _ (hfree ▸ Script.runs_trace answer _ w), htaken,
    hrefused htaken⟩

end Bench

end DiskBringup
