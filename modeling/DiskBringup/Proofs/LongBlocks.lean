import DiskBringup.Proofs.Visits

/-!
# Blocks longer than any buffer

A table is read through a buffer for the whole of block 0. On a volume whose blocks are longer than
any buffer that overflows, and nothing else about reading a table or locating a partition does: a
sum of the fields of an entry is a word, as they are 32-bit words. `r.Buffered p` says this of an
outcome, and it holds of all runs, whoever answers.
-/

namespace DiskBringup

open Script (ends_pure ends_request_bind)

variable {v : Volume}

/-- If the operation overflows, then for want of a buffer, and `p` holds. -/
def Outcome.Buffered {ε α : Type} (p : Prop) (r : Outcome ε α) : Prop :=
  ∀ o, r = .overflow o → o = .buffer ∧ p

namespace Outcome.Buffered

variable {ε ε' α β : Type} {p : Prop} {r : Outcome ε α}

theorem ok (a : α) : (ok a : Outcome ε α).Buffered p := fun _ h => (nomatch h)

theorem fail (e : ε) : (fail e : Outcome ε α).Buffered p := fun _ h => (nomatch h)

/-- An overflow that is passed on. -/
theorem overflow {o : Overflow} (h : (overflow o : Outcome ε α).Buffered p) :
    (overflow o : Outcome ε' β).Buffered p := by
  rintro o' ⟨⟩
  exact h o rfl

theorem bind {f : α → Outcome ε β} (h : r.Buffered p) (hf : ∀ a, (f a).Buffered p) :
    (r.bind f).Buffered p := by
  intro o ho
  rcases bind_eq_overflow.1 ho with ho | ⟨a, -, ho⟩
  · exact h o ho
  · exact hf a o ho

end Outcome.Buffered

/-- A block of the volume is longer than any buffer. -/
abbrev Volume.Unbuffered (v : Volume) : Prop := Buffer.maxLength < v.blockSize.toNat

namespace Table

theorem buffered_readFirst : (readFirst v).Ends fun _ r => r.Buffered v.Unbuffered := by
  rw [readFirst]
  split
  · rename_i hlt
    refine ends_pure ?_
    rintro o ⟨⟩
    exact ⟨rfl, hlt⟩
  · refine (Script.only_true _).ends.bind ?_
    rintro log (code | block) -
    · exact ends_request_bind fun _ => ends_pure (.fail _)
    · exact ends_pure (.ok block)

theorem buffered_read : (read v).Ends fun _ r => r.Buffered v.Unbuffered := by
  rw [read]
  split
  · refine buffered_readFirst.bind ?_
    intro log found hfound
    exact ends_pure (hfound.bind fun _ => .ok _)
  · exact ends_pure (.fail _)

end Table

/-- The end of an entry is a word. -/
theorem Entry.value_window_ne_overflow (e : Entry) (number : UInt8) (v : Volume) (o : Overflow) :
    (e.window number v).value ≠ .overflow o := by
  rw [window, dif_pos e.addressable_extent]
  split <;> simp

theorem buffered_locate {number : UInt8} :
    (locate v number).Ends fun _ r => r.Buffered v.Unbuffered := by
  refine Table.buffered_read.bind ?_
  rintro log (table | err | o) hread
  · refine (Script.only_true _).ends.bind ?_
    rintro log (err | entry) -
    · exact ends_pure (.fail _)
    · refine (Routine.ends_ofNoted _).imp ?_
      rintro _ _ ⟨-, rfl⟩ o ho
      exact absurd ho (entry.value_window_ne_overflow number v o)
  · exact ends_pure (.fail _)
  · exact ends_pure hread.overflow

theorem Partition.buffered_init {p : Partition} :
    (p.init v).Ends fun _ r => r.1.Buffered v.Unbuffered := by
  refine buffered_locate.bind ?_
  rintro log (window | code | o) hlocated
  · exact ends_pure (.ok ())
  · exact ends_pure (.fail code)
  · exact ends_pure hlocated.overflow

end DiskBringup
