import DiskBringup.Bench.Store

/-!
# Sparse disks

A `SparseDisk` remembers the blocks that were written and is zero elsewhere, so it may be far
larger than what is written to it.
-/

namespace DiskBringup

/-- A disk that remembers the blocks that were written. -/
structure SparseDisk where
  /-- the shape of the disk -/
  geometry : Geometry
  /-- the written blocks with their bytes -/
  written : List (UInt64 × Buffer geometry.blockSize.toNat)

namespace SparseDisk

/-- A zeroed disk of a given shape. -/
def new (g : Geometry) : SparseDisk := ⟨g, []⟩

variable (d : SparseDisk)

/-- The bytes of a block, which are zero before it is written. -/
def content (block : UInt64) : Buffer d.geometry.blockSize.toNat :=
  (d.written.lookup block).getD (Buffer.fill _ 0)

/-- A byte of a block, which is zero outside the block. -/
def byteAt (block : UInt64) (k : Nat) : UInt8 := (d.content block)[k]?.getD 0

/-- The bytes of a block. -/
def read (block : UInt64) (length : Nat) : Except ErrorCode (Buffer length) :=
  if h : d.geometry.Accepts block length then .ok ((d.content block).cast h.1.symm)
  else .error .device

/-- The disk with other bytes in a block. -/
def write (block : UInt64) {length : Nat} (bytes : Buffer length) : Except ErrorCode SparseDisk :=
  if h : d.geometry.Accepts block length then
    .ok ⟨d.geometry, (block, bytes.cast h.1) :: d.written.filter (·.1 != block)⟩
  else .error .device

/-! ## Laws -/

/-- A new disk is zeroed. -/
theorem byteAt_new (g : Geometry) (block : UInt64) (k : Nat) : (new g).byteAt block k = 0 := by
  change (Vector.replicate g.blockSize.toNat (0 : UInt8))[k]?.getD 0 = 0
  rw [Vector.getElem?_replicate]
  split <;> rfl

/-- Dropping the bytes of one block leaves those of the others. -/
theorem lookup_filter_of_ne {n : Nat} {b block : UInt64} (h : b ≠ block)
    (written : List (UInt64 × Buffer n)) :
    (written.filter (·.1 != block)).lookup b = written.lookup b := by
  induction written with
  | nil => rfl
  | cons e rest ih =>
    obtain ⟨c, bytes⟩ := e
    by_cases hc : c = block
    · subst hc
      simp only [List.filter_cons, bne_self_eq_false, Bool.false_eq_true, if_false, ih,
        List.lookup_cons, beq_eq_false_iff_ne.2 h]
    · simp only [List.filter_cons, bne_iff_ne, ne_eq, hc, not_false_eq_true, if_true,
        List.lookup_cons, ih]

/-- An accepted read gives the bytes of its block. -/
theorem read_of_accepts {block : UInt64} {length : Nat} (h : d.geometry.Accepts block length) :
    d.read block length = .ok (Vector.ofFn fun k => d.byteAt block k.val) := by
  rw [read, dif_pos h]
  congr 1
  apply Vector.ext
  intro k hk
  have hk' : k < d.geometry.blockSize.toNat := h.1 ▸ hk
  simp only [Vector.getElem_cast, Vector.getElem_ofFn, byteAt, Vector.getElem?_eq_getElem hk',
    Option.getD_some]

/-- An accepted write changes the bytes of its block and nothing else. -/
theorem write_of_accepts {block : UInt64} {length : Nat} (bytes : Buffer length)
    (h : d.geometry.Accepts block length) :
    ∃ d', d.write block bytes = .ok d' ∧ d'.geometry = d.geometry ∧
      ∀ (b : UInt64) (k : Nat) (hk : k < length), b < d.geometry.numBlocks →
        d'.byteAt b k = if b = block then bytes[k] else d.byteAt b k := by
  refine ⟨⟨d.geometry, (block, bytes.cast h.1) :: d.written.filter (·.1 != block)⟩,
    dif_pos h, rfl, ?_⟩
  intro b k hk _
  have hk' : k < d.geometry.blockSize.toNat := h.1 ▸ hk
  by_cases hb : b = block
  · subst hb
    simp [byteAt, content, hk']
  · have hne : (b == block) = false := beq_eq_false_iff_ne.2 hb
    simp [byteAt, content, List.lookup_cons, hne, lookup_filter_of_ne hb, hb]

instance : BlockStore SparseDisk where
  geometry := geometry
  byteAt := byteAt
  read := read
  write d block {_} bytes := d.write block bytes
  occupied d := (d.written.map Prod.fst).mergeSort (· ≤ ·)

instance : LawfulBlockStore SparseDisk where
  read_of_accepts {d _ _} h := d.read_of_accepts h
  read_of_not_accepts h := dif_neg h
  write_of_accepts {d _ _} bytes h := d.write_of_accepts bytes h
  write_of_not_accepts _ h := dif_neg h

end SparseDisk

end DiskBringup
