import DiskBringup.Bench.Store
import DiskBringup.Outcome

/-!
# Flat disks

A `FlatDisk` is one row of bytes, cut into blocks of equal size from its start; it has as many
blocks as fit in the row, and none if a block has no bytes. Block `b` with blocks of `n` bytes is
the bytes from `b * n` on, and this stays within the row for every block that the disk has
(`le_size_of_accepts`). The row is one buffer, so a disk that is longer than any buffer cannot be
made. Of the row, only the part up to the last block that was written is held; the rest is zero.
-/

namespace DiskBringup

/-- A disk as one row of bytes. -/
structure FlatDisk where
  /-- the number of bytes in a block -/
  blockSize : UInt64
  /-- the number of bytes in the row -/
  size : Nat
  /-- the bytes that the row starts with; the others are zero -/
  stored : ByteArray
  /-- these bytes lie in the row -/
  stored_le : stored.size ≤ size
  /-- the row fits in a buffer -/
  size_le : size ≤ Buffer.maxLength

namespace FlatDisk

/-- A zeroed disk of a given shape. Its size has to be a word and fit in a buffer. -/
def new (g : Geometry) : Except Overflow FlatDisk :=
  match g.size? with
  | none => .error .multiply
  | some size =>
    if h : size.toNat ≤ Buffer.maxLength then
      .ok ⟨g.blockSize, size.toNat, ByteArray.empty, Nat.zero_le _, h⟩
    else .error .buffer

variable (d : FlatDisk)

/-- The shape of the disk. -/
def geometry : Geometry := ⟨d.blockSize, UInt64.ofNat (d.size / d.blockSize.toNat)⟩

/-- A byte of the row, which is zero outside it. -/
def byte (n : Nat) : UInt8 := if h : n < d.stored.size then d.stored[n] else 0

/-- A byte of a block, which is zero outside the row. -/
def byteAt (block : UInt64) (k : Nat) : UInt8 := d.byte (block.toNat * d.blockSize.toNat + k)

theorem byte_eq (n : Nat) : d.byte n = d.stored.data[n]?.getD 0 := by
  rw [byte]
  split
  · rename_i h
    rw [Array.getElem?_eq_getElem h]
    rfl
  · rename_i h
    rw [Array.getElem?_eq_none (Nat.le_of_not_lt h)]
    rfl

theorem toNat_numBlocks : d.geometry.numBlocks.toNat = d.size / d.blockSize.toNat := by
  have hle : d.size / d.blockSize.toNat ≤ Buffer.maxLength :=
    Nat.le_trans (Nat.div_le_self _ _) d.size_le
  rw [geometry, UInt64.toNat_ofNat_of_lt']
  exact Nat.lt_of_le_of_lt hle (by decide)

variable {d}

/-- A block that the disk has lies in the row. -/
theorem le_size_of_accepts {block : UInt64} {length : Nat} (h : d.geometry.Accepts block length) :
    block.toNat * length + length ≤ d.size := by
  obtain ⟨rfl, hb⟩ := h
  rw [UInt64.lt_iff_toNat_lt, toNat_numBlocks] at hb
  have h1 : (block.toNat + 1) * d.blockSize.toNat ≤
      d.size / d.blockSize.toNat * d.blockSize.toNat := Nat.mul_le_mul_right _ hb
  have h2 := Nat.div_mul_le_self d.size d.blockSize.toNat
  rw [Nat.add_mul, Nat.one_mul] at h1
  exact Nat.le_trans h1 h2

variable (d)

/-- The bytes of a block. -/
def read (block : UInt64) (length : Nat) : Except ErrorCode (Buffer length) :=
  if d.geometry.Accepts block length then
    .ok (Vector.ofFn fun k => d.byte (block.toNat * length + k.val))
  else .error .device

/-- The stored bytes, with zeros after them up to a position. -/
def padded (position : Nat) : ByteArray :=
  Nat.repeat (ByteArray.push · 0) (position - d.stored.size) d.stored

theorem data_padded (position : Nat) :
    (d.padded position).data =
      d.stored.data ++ Array.replicate (position - d.stored.size) 0 := by
  rw [padded]
  induction position - d.stored.size with
  | zero => simp [Nat.repeat]
  | succ n ih => rw [Nat.repeat, ByteArray.data_push, ih, Array.replicate_succ, Array.append_push]

/-- The stored bytes with others from a position on. -/
def replaced (start : Nat) {length : Nat} (bytes : Buffer length) : ByteArray :=
  (ByteArray.mk bytes.toArray).copySlice 0 (d.padded start) start length

theorem size_replaced_le {start length : Nat} (bytes : Buffer length)
    (h : start + length ≤ d.size) : (d.replaced start bytes).size ≤ d.size := by
  have hs := d.stored_le
  have hd : d.stored.data.size = d.stored.size := rfl
  change (d.replaced start bytes).data.size ≤ d.size
  simp only [replaced, ByteArray.copySlice, data_padded, Array.size_append, Array.size_extract,
    Array.size_replicate, Vector.size_toArray]
  omega

/-- The disk with other bytes in a block. -/
def write (block : UInt64) {length : Nat} (bytes : Buffer length) : Except ErrorCode FlatDisk :=
  if h : d.geometry.Accepts block length then
    .ok ⟨d.blockSize, d.size, d.replaced (block.toNat * length) bytes,
      size_replaced_le _ _ (le_size_of_accepts h), d.size_le⟩
  else .error .device

/-! ## Laws -/

/-- A stored byte after a replacement. -/
theorem getD_replaced {start length : Nat} (bytes : Buffer length) (n : Nat) :
    (d.replaced start bytes).data[n]?.getD 0 =
      if h : start ≤ n ∧ n < start + length then bytes[n - start] else d.byte n := by
  have hd : d.stored.data.size = d.stored.size := rfl
  rw [byte_eq]
  simp only [replaced, ByteArray.copySlice, data_padded, Array.getElem?_append, Array.size_append,
    Array.size_extract, Array.size_replicate, Vector.size_toArray, Array.getElem?_extract,
    Array.getElem?_replicate, Nat.zero_add, Nat.sub_zero, Nat.min_self]
  have hpad : start ≤ d.stored.data.size + (start - d.stored.size) := by omega
  have hpast : ∀ m, d.stored.data.size ≤ m → d.stored.data[m]?.getD 0 = 0 := by
    intro m hm
    rw [Array.getElem?_eq_none hm, Option.getD_none]
  rw [Nat.min_eq_left hpad]
  by_cases hlt : n < start
  · -- before the replaced bytes, up to which the stored ones are padded
    rw [if_pos (by omega), if_pos hlt, if_pos hlt, dif_neg (by omega)]
    split
    · rfl
    · rw [if_pos (by omega), hpast n (by omega), Option.getD_some]
  by_cases hin : n < start + length
  · have hk : n - start < bytes.toArray.size := by
      rw [Vector.size_toArray]
      omega
    rw [if_pos hin, if_neg hlt, if_pos (by omega), dif_pos ⟨Nat.not_lt.1 hlt, hin⟩,
      Array.getElem?_eq_getElem hk, Option.getD_some, Vector.getElem_toArray]
  · have hn : start + length + (n - (start + length)) = n := by omega
    rw [if_neg hin, dif_neg (by omega), hn]
    split
    · rw [if_pos (by omega)]
    · rw [hpast n (by omega), Option.getD_none]

/-- Two blocks of a row meet only if they are the same. -/
theorem block_eq_of_meet {a b n k : Nat} (hk : k < n) (h₁ : a * n ≤ b * n + k)
    (h₂ : b * n + k < a * n + n) : a = b := by
  have hn : 0 < n := Nat.lt_of_le_of_lt (Nat.zero_le k) hk
  have ha : (b * n + k) / n = b := by
    rw [Nat.mul_comm, Nat.mul_add_div hn, Nat.div_eq_of_lt hk, Nat.add_zero]
  have hb : (b * n + k) / n = a := Nat.div_eq_of_lt_le (by omega) (by rw [Nat.add_mul]; omega)
  omega

/-- An accepted read gives the bytes of its block. -/
theorem read_of_accepts {block : UInt64} {length : Nat} (h : d.geometry.Accepts block length) :
    d.read block length = .ok (Vector.ofFn fun k => d.byteAt block k.val) := by
  have hl : length = d.blockSize.toNat := h.1
  rw [read, if_pos h]
  simp only [byteAt, hl]

/-- An accepted write changes the bytes of its block and nothing else. -/
theorem write_of_accepts {block : UInt64} {length : Nat} (bytes : Buffer length)
    (h : d.geometry.Accepts block length) :
    ∃ d', d.write block bytes = .ok d' ∧ d'.geometry = d.geometry ∧
      ∀ (b : UInt64) (k : Nat) (hk : k < length), b < d.geometry.numBlocks →
        d'.byteAt b k = if b = block then bytes[k] else d.byteAt b k := by
  have hl : length = d.blockSize.toNat := h.1
  refine ⟨_, dif_pos h, rfl, ?_⟩
  intro b k hk _
  simp only [byteAt, ← hl]
  rw [byte_eq, getD_replaced]
  by_cases hb : b = block
  · subst hb
    rw [dif_pos (by omega), if_pos rfl]
    simp only [Nat.add_sub_cancel_left]
  · rw [dif_neg, if_neg hb]
    rintro ⟨h₁, h₂⟩
    exact hb (UInt64.toNat.inj (block_eq_of_meet hk h₁ h₂).symm)

/-- The number of blocks that hold a stored byte. -/
def storedBlocks : Nat := (d.stored.size + d.blockSize.toNat - 1) / d.blockSize.toNat

/-- Some stored byte of a block is not zero. -/
def isNonzero (block : Nat) : Bool :=
  d.stored.foldl (fun found b => found || b != 0) false (block * d.blockSize.toNat)
    (min ((block + 1) * d.blockSize.toNat) d.stored.size)

instance : BlockStore FlatDisk where
  geometry := geometry
  byteAt := byteAt
  read := read
  write d block {_} bytes := d.write block bytes
  occupied d := ((List.range d.storedBlocks).filter d.isNonzero).map UInt64.ofNat

instance : LawfulBlockStore FlatDisk where
  read_of_accepts {d _ _} h := d.read_of_accepts h
  read_of_not_accepts h := if_neg h
  write_of_accepts {d _ _} bytes h := d.write_of_accepts bytes h
  write_of_not_accepts _ h := dif_neg h

end FlatDisk

end DiskBringup
