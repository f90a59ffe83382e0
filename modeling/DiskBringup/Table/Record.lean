import DiskBringup.Extent
import DiskBringup.Table.Chs

/-!
# Records of a partition table

The sixteen bytes of one entry of a partition table, used or not, and the fields that they hold.
Bytes and fields determine each other: `ofBytes_bytes`.
-/

namespace DiskBringup

/-- The fields of an entry's sixteen bytes. -/
structure Record where
  /-- the status byte -/
  status : UInt8
  /-- the first block by cylinder, head and sector -/
  first : PackedChs
  /-- the type byte, which is zero where the entry is not used -/
  kind : UInt8
  /-- the last block by cylinder, head and sector -/
  last : PackedChs
  /-- the first block -/
  start : UInt32
  /-- the number of blocks -/
  count : UInt32
  deriving DecidableEq, Repr

namespace Record

/-- The bytes of a record. -/
def bytes (r : Record) : Vector UInt8 16 :=
  #v[r.status, r.first.head, r.first.sector, r.first.cylinder,
    r.kind, r.last.head, r.last.sector, r.last.cylinder,
    Word.byte r.start 0, Word.byte r.start 1, Word.byte r.start 2, Word.byte r.start 3,
    Word.byte r.count 0, Word.byte r.count 1, Word.byte r.count 2, Word.byte r.count 3]

/-- The record that bytes hold, byte `k` being `b k`. -/
def ofBytes (b : Fin 16 → UInt8) : Record where
  status := b 0
  first := ⟨b 1, b 2, b 3⟩
  kind := b 4
  last := ⟨b 5, b 6, b 7⟩
  start := Word.ofBytes (b 8) (b 9) (b 10) (b 11)
  count := Word.ofBytes (b 12) (b 13) (b 14) (b 15)

/-- The bytes of a record hold that record. -/
@[simp] theorem ofBytes_bytes (r : Record) : ofBytes r.bytes.get = r := by
  have hs := Word.ofBytes_byte r.start
  have hc := Word.ofBytes_byte r.count
  cases r
  simp only [ofBytes, mk.injEq]
  exact ⟨rfl, rfl, rfl, rfl, hs, hc⟩

/-- The blocks that a record covers. -/
def extent (r : Record) : Extent := ⟨r.start.toUInt64, r.count.toUInt64⟩

/-- The record of an entry of a given type over given blocks, whose addresses fit 32 bits. -/
def covering (kind : UInt8) (extent : Extent) (last : UInt64) : Record where
  status := 0
  first := PackedChs.ofBlock extent.start
  kind := kind
  last := PackedChs.ofBlock last
  start := extent.start.toUInt32
  count := extent.blocks.toUInt32

end Record

end DiskBringup
