import DiskBringup.Word

/-!
# Block addresses by cylinder, head and sector

A partition table stores block addresses a second time, as cylinder, head and sector of a disk
with 255 heads and 63 sectors a track, in three bytes. The top two bits of the ten-bit cylinder
lie above the six-bit sector. `PackedChs.ofBlock` packs an address and `PackedChs.block` reads it
back (`block_ofBlock`); an address past the last cylinder has a mark of its own.
-/

namespace DiskBringup

/-- The three bytes of an address by cylinder, head and sector. -/
structure PackedChs where
  /-- the head -/
  head : UInt8
  /-- the sector, which counts from 1, below the top two bits of the cylinder -/
  sector : UInt8
  /-- the low eight bits of the cylinder -/
  cylinder : UInt8
  deriving DecidableEq, Repr

namespace PackedChs

/-- The heads of a disk. -/
abbrev heads : Nat := 255

/-- The sectors of a track. -/
abbrev sectors : Nat := 63

/-- The cylinders that ten bits can count. -/
abbrev cylinders : Nat := 1024

/-- The mark for an address past the last cylinder. -/
def beyond : PackedChs := ⟨0xFE, 0xFF, 0xFF⟩

/-- The bytes for a block address. -/
def ofBlock (block : UInt64) : PackedChs :=
  let cylinder := block.toNat / (heads * sectors)
  if cylinders ≤ cylinder then beyond
  else
    { head := UInt8.ofNat (block.toNat / sectors % heads)
      sector := UInt8.ofNat (block.toNat % sectors + 1 + 64 * (cylinder / 256))
      cylinder := UInt8.ofNat (cylinder % 256) }

/-- The cylinder that the bytes stand for. -/
def cylinderNumber (p : PackedChs) : Nat := p.sector.toNat / 64 * 256 + p.cylinder.toNat

/-- The head that the bytes stand for. -/
def headNumber (p : PackedChs) : Nat := p.head.toNat

/-- The sector that the bytes stand for. -/
def sectorNumber (p : PackedChs) : Nat := p.sector.toNat % 64

/-- The block address that the bytes stand for. -/
def block (p : PackedChs) : Nat :=
  (p.cylinderNumber * heads + p.headNumber) * sectors + p.sectorNumber - 1

theorem ofBlock_of_le {b : UInt64} (h : cylinders * heads * sectors ≤ b.toNat) :
    ofBlock b = beyond := by
  simp only [cylinders, heads, sectors] at h
  simp only [ofBlock, cylinders, heads, sectors]
  rw [if_pos (by omega)]

/-- Below the limit ten bits count the cylinder. -/
theorem cylinder_lt {b : UInt64} (h : b.toNat < cylinders * heads * sectors) :
    b.toNat / (heads * sectors) < cylinders :=
  Nat.div_lt_of_lt_mul (by rwa [Nat.mul_comm, ← Nat.mul_assoc])

theorem headNumber_ofBlock {b : UInt64} (h : b.toNat < cylinders * heads * sectors) :
    (ofBlock b).headNumber = b.toNat / sectors % heads := by
  have hhead := Nat.mod_lt (b.toNat / sectors) (show 0 < heads by decide)
  rw [ofBlock, if_neg (Nat.not_le.2 (cylinder_lt h)), headNumber, UInt8.toNat_ofNat',
    Nat.mod_eq_of_lt (Nat.lt_trans hhead (by decide))]

/-- The sector and the top of the cylinder share a byte. -/
theorem sector_add_lt {r c : Nat} (hr : r < sectors) (hc : c < cylinders) :
    r + 1 + 64 * (c / 256) < UInt8.size := by
  simp only [sectors, cylinders, UInt8.size] at hr hc ⊢
  omega

theorem sectorNumber_ofBlock {b : UInt64} (h : b.toNat < cylinders * heads * sectors) :
    (ofBlock b).sectorNumber = b.toNat % sectors + 1 := by
  have hsector : b.toNat % sectors < 63 := Nat.mod_lt _ (by decide)
  rw [ofBlock, if_neg (Nat.not_le.2 (cylinder_lt h)), sectorNumber, UInt8.toNat_ofNat',
    Nat.mod_eq_of_lt (sector_add_lt hsector (cylinder_lt h)), Nat.add_mul_mod_self_left,
    Nat.mod_eq_of_lt (by omega)]

theorem cylinderNumber_ofBlock {b : UInt64} (h : b.toNat < cylinders * heads * sectors) :
    (ofBlock b).cylinderNumber = b.toNat / (heads * sectors) := by
  have hsector : b.toNat % sectors < 63 := Nat.mod_lt _ (by decide)
  have hlow : b.toNat / (heads * sectors) % 256 < UInt8.size := Nat.mod_lt _ (by decide)
  rw [ofBlock, if_neg (Nat.not_le.2 (cylinder_lt h)), cylinderNumber, UInt8.toNat_ofNat',
    UInt8.toNat_ofNat', Nat.mod_eq_of_lt (sector_add_lt hsector (cylinder_lt h)),
    Nat.mod_eq_of_lt hlow, Nat.add_mul_div_left _ _ (by decide), Nat.div_eq_of_lt (by omega),
    Nat.zero_add]
  exact Nat.div_add_mod' _ 256

/-- An address within the geometry is unpacked to itself. -/
theorem block_ofBlock {b : UInt64} (h : b.toNat < cylinders * heads * sectors) :
    (ofBlock b).block = b.toNat := by
  rw [block, headNumber_ofBlock h, sectorNumber_ofBlock h, cylinderNumber_ofBlock h]
  -- a block number is a number of tracks and a sector, and a number of tracks is one of cylinders
  -- and a head
  have htracks : b.toNat / (heads * sectors) = b.toNat / sectors / heads := by
    rw [Nat.div_div_eq_div_mul, Nat.mul_comm sectors]
  have hb := Nat.div_add_mod b.toNat sectors
  have hq := Nat.div_add_mod (b.toNat / sectors) heads
  rw [htracks, Nat.mul_comm _ heads, hq, Nat.mul_comm _ sectors, ← Nat.add_assoc, hb,
    Nat.add_sub_cancel]

example : ofBlock 2048 = ⟨32, 33, 0⟩ := by decide +kernel

example : ofBlock 16450560 = beyond := by decide +kernel

end PackedChs

end DiskBringup
