import DiskBringup.Extent
import DiskBringup.Hex

/-!
# Entries of a partition table

A used entry, as a look-up finds it: its number, its type byte and the blocks it covers. The table
stores the first block and the count in 32 bits, so the extent of an entry is always addressable.
-/

namespace DiskBringup

/-- A used entry of a partition table. -/
structure Entry where
  /-- its number, from 1 to 4 -/
  number : UInt8
  /-- its type byte -/
  kind : UInt8
  /-- its first block -/
  start : UInt32
  /-- its number of blocks -/
  count : UInt32
  deriving DecidableEq, Repr

namespace Entry

/-- The blocks that an entry covers. -/
def extent (e : Entry) : Extent := ⟨e.start.toUInt64, e.count.toUInt64⟩

theorem bound_extent (e : Entry) : e.extent.bound = e.start.toNat + e.count.toNat := rfl

theorem addressable_extent (e : Entry) : e.extent.Addressable := by
  rw [Extent.Addressable, bound_extent]
  exact Nat.lt_trans (Nat.add_lt_add e.start.toNat_lt_size e.count.toNat_lt_size) (by decide)

/-- An entry in words. -/
def describe (e : Entry) : String :=
  s!"MbrEntry(index={e.number}, type={Hex.byte e.kind}, start={e.start}, size={e.count})"

end Entry

end DiskBringup
