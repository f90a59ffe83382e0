import DiskBringup.Block.Request
import DiskBringup.Extent

/-!
# Volumes: a disk, and windows onto it

A `Volume` is what a filesystem or a partition table lives on: the whole disk, or a window of
consecutive blocks of another volume. A window answers as a block device of its own. It refuses
the blocks past its end by itself and passes every other request on with the block moved by its
start, so that a block of nested windows is a block of the disk moved by all their starts.
-/

namespace DiskBringup

/-- A run of blocks in which every block has an address. -/
structure Window where
  /-- the blocks, counted on the volume below -/
  extent : Extent
  /-- every block has an address -/
  addressable : extent.Addressable
  deriving DecidableEq

/-- The block below for a block of a window. -/
def Window.below? (w : Window) (block : UInt64) : Option UInt64 :=
  if block < w.extent.blocks then some (w.extent.start + block) else none

/-- The block below lies in the window's run, by exact addition. -/
theorem Window.below?_eq_some_iff {w : Window} {block below : UInt64} :
    w.below? block = some below ↔
      block.toNat < w.extent.blocks.toNat ∧
        below.toNat = w.extent.start.toNat + block.toNat := by
  have h := w.addressable
  unfold Extent.Addressable Extent.bound at h
  rw [Window.below?]
  by_cases hb : block.toNat < w.extent.blocks.toNat
  · have hlt : w.extent.start.toNat + block.toNat < UInt64.size := by omega
    have hsum : (w.extent.start + block).toNat = w.extent.start.toNat + block.toNat := by
      rw [UInt64.toNat_add, Nat.mod_eq_of_lt hlt]
    rw [if_pos (UInt64.lt_iff_toNat_lt.2 hb), Option.some.injEq, ← UInt64.toNat_inj, hsum]
    exact ⟨fun h => ⟨hb, h.symm⟩, fun h => h.2.symm⟩
  · rw [if_neg (fun h => hb (UInt64.lt_iff_toNat_lt.1 h))]
    simp [hb]

/-- The whole disk, or a window of another volume. -/
inductive Volume where
  /-- a disk of a given shape -/
  | disk (geometry : Geometry)
  /-- a window of another volume -/
  | window (base : Volume) (window : Window)

namespace Volume

/-- The shape of a volume. A window has the block size of the volume below. -/
def geometry : Volume → Geometry
  | disk g => g
  | window base w => ⟨base.geometry.blockSize, w.extent.blocks⟩

/-- The number of bytes in a block. -/
abbrev blockSize (v : Volume) : UInt64 := v.geometry.blockSize

/-- The number of blocks. -/
abbrev numBlocks (v : Volume) : UInt64 := v.geometry.numBlocks

/-- A request of a volume, as requests of the disk. -/
def request : Volume → (r : BlockRequest) → BlockScript r.Answer
  | disk _, r => Script.request r
  | window _ _, .init => return .ok ()
  | window _ _, .deinit => return .ok ()
  | window base w, .read block length =>
    match w.below? block with
    | some below => base.request (.read below length)
    | none => return .error .device
  | window base w, .write block data =>
    match w.below? block with
    | some below => base.request (.write below data)
    | none => return .error .device

/-- A program over a volume, as a program over the disk. -/
def relay {α : Type} (v : Volume) (p : BlockScript α) : BlockScript α := p.expand v.request

end Volume

end DiskBringup
