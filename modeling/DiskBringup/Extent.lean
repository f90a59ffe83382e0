import DiskBringup.Word

/-!
# Extents: runs of blocks

An `Extent` is a first block and a number of blocks, as a caller or a table writes them down: the
first block past the run, `bound`, need not be a 64-bit word. An extent for which it is one is
`Addressable`. `overlaps` compares two runs exactly; for runs that are not empty it says that they
share a block (`overlaps_iff_exists_mem`).
-/

namespace DiskBringup

/-- A run of consecutive blocks of a device. -/
structure Extent where
  /-- the first block of the run -/
  start : UInt64
  /-- the number of blocks in the run -/
  blocks : UInt64
  deriving DecidableEq, Repr

namespace Extent

/-- The first block past the run, as an exact number. -/
def bound (e : Extent) : Nat := e.start.toNat + e.blocks.toNat

/-- The first block past the run, if it is a word. -/
def bound? (e : Extent) : Option UInt64 := Word.add? e.start e.blocks

theorem bound?_eq_some_iff {e : Extent} {b : UInt64} : e.bound? = some b ↔ e.bound = b.toNat :=
  Word.add?_eq_some_iff

theorem bound?_eq_none_iff {e : Extent} : e.bound? = none ↔ UInt64.size ≤ e.bound :=
  Word.add?_eq_none_iff

/-- Every block of the run, and the first one past it, has a 64-bit address. -/
def Addressable (e : Extent) : Prop := e.bound < UInt64.size

instance (e : Extent) : Decidable e.Addressable := inferInstanceAs (Decidable (_ < _))

instance : Membership Nat Extent where
  mem e b := e.start.toNat ≤ b ∧ b < e.bound

theorem mem_iff {e : Extent} {b : Nat} : b ∈ e ↔ e.start.toNat ≤ b ∧ b < e.bound := Iff.rfl

/-- Each run starts before the other ends. -/
def overlaps (a b : Extent) : Bool :=
  decide (a.start.toNat < b.bound) && decide (b.start.toNat < a.bound)

theorem overlaps_iff {a b : Extent} :
    a.overlaps b = true ↔ a.start.toNat < b.bound ∧ b.start.toNat < a.bound := by
  simp [overlaps]

theorem overlaps_comm (a b : Extent) : a.overlaps b = b.overlaps a := by
  simp [overlaps, Bool.and_comm]

/-- Two runs that are not empty overlap exactly when they share a block. -/
theorem overlaps_iff_exists_mem {a b : Extent} (ha : a.start.toNat < a.bound)
    (hb : b.start.toNat < b.bound) : a.overlaps b = true ↔ ∃ n : Nat, n ∈ a ∧ n ∈ b := by
  rw [overlaps_iff]
  constructor
  · intro ⟨h₁, h₂⟩
    rcases Nat.le_total a.start.toNat b.start.toNat with h | h
    · exact ⟨b.start.toNat, ⟨h, h₂⟩, ⟨Nat.le_refl _, hb⟩⟩
    · exact ⟨a.start.toNat, ⟨Nat.le_refl _, ha⟩, ⟨h, h₁⟩⟩
  · rintro ⟨n, ⟨h₁, h₂⟩, ⟨h₃, h₄⟩⟩
    exact ⟨Nat.lt_of_le_of_lt h₁ h₄, Nat.lt_of_le_of_lt h₃ h₂⟩

/-- The comparison of two runs in 64-bit arithmetic. The end of the second run is formed first,
and that of the first run only where it is needed; the answer is absent if an end so formed is
not a word. -/
def overlaps? (a b : Extent) : Option Bool :=
  match b.bound? with
  | none => none
  | some bEnd =>
    if a.start < bEnd then a.bound?.map fun aEnd => decide (b.start < aEnd) else some false

/-- Where 64-bit arithmetic answers, it answers exactly. -/
theorem overlaps_of_overlaps? {a b : Extent} {r : Bool} (h : a.overlaps? b = some r) :
    a.overlaps b = r := by
  unfold overlaps? at h
  cases hb : b.bound? with
  | none => simp [hb] at h
  | some bEnd =>
    have hb' := bound?_eq_some_iff.1 hb
    simp only [hb] at h
    split at h
    · rename_i hlt
      obtain ⟨aEnd, ha, rfl⟩ := Option.map_eq_some_iff.1 h
      have ha' := bound?_eq_some_iff.1 ha
      rw [overlaps, ha', hb', decide_eq_true (UInt64.lt_iff_toNat_lt.1 hlt), Bool.true_and]
      exact decide_eq_decide.2 UInt64.lt_iff_toNat_lt.symm
    · rename_i hlt
      obtain rfl := Option.some.inj h
      rw [overlaps, hb', decide_eq_false fun h => hlt (UInt64.lt_iff_toNat_lt.2 h), Bool.false_and]

/-! ## Whole blocks of a byte range -/

/-- The first whole block, other than block 0, that starts at or after a byte. Block 0 is left
out because it holds the partition table. -/
def firstWhole (blockSize start : UInt64) : UInt64 := max (Word.ceilDiv start blockSize) 1

/-- The largest run of whole blocks other than block 0 between the bytes `start` and `stop`, if
there is a block in it. -/
def inside? (blockSize start stop : UInt64) : Option Extent :=
  let first := firstWhole blockSize start
  let bound := stop / blockSize
  if first < bound then some ⟨first, bound - first⟩ else none

/-- The run inside a byte range ends with the last whole block of the range. -/
theorem bound_of_inside? {blockSize start stop : UInt64} {e : Extent}
    (h : inside? blockSize start stop = some e) :
    e.bound = stop.toNat / blockSize.toNat ∧ 1 ≤ e.start.toNat ∧ 1 ≤ e.blocks.toNat := by
  unfold inside? at h
  simp only at h
  split at h
  · rename_i hlt
    obtain rfl := Option.some.inj h
    have hle : firstWhole blockSize start ≤ stop / blockSize := by
      rw [UInt64.le_iff_toNat_le]
      rw [UInt64.lt_iff_toNat_lt] at hlt
      omega
    have h1 : 1 ≤ (firstWhole blockSize start).toNat := by
      rw [firstWhole, Word.toNat_max, UInt64.toNat_one]
      omega
    rw [UInt64.lt_iff_toNat_lt, UInt64.toNat_div] at hlt
    simp only [bound, UInt64.toNat_sub_of_le _ _ hle, UInt64.toNat_div]
    omega
  · cases h

/-- An extent in words. -/
def describe (e : Extent) : String :=
  s!"Extent \x7b start_lba: {e.start}, blocks: {e.blocks} \x7d"

end Extent

end DiskBringup
