import DiskBringup.Block.Request

/-!
# Buffers

Rows of bytes of a fixed length: filling one, and laying bytes over a part of one. Bytes that would
lie past the end of the buffer are cut off.
-/

namespace DiskBringup.Buffer

/-- A buffer with the same byte everywhere. -/
def fill (length : Nat) (byte : UInt8) : Buffer length := Vector.replicate length byte

/-- A buffer with bytes laid over it from a position on. -/
def overlay {length : Nat} (buffer : Buffer length) (position : Nat) (bytes : Array UInt8) :
    Buffer length :=
  Vector.ofFn fun k =>
    if h : position ≤ k.val ∧ k.val < position + bytes.size then
      bytes[k.val - position]
    else buffer[k.val]

theorem getElem_overlay_of_outside {length : Nat} (buffer : Buffer length) {position k : Nat}
    (bytes : Array UInt8) (hk : k < length) (h : k < position ∨ position + bytes.size ≤ k) :
    (buffer.overlay position bytes)[k] = buffer[k] := by
  simp only [overlay, Vector.getElem_ofFn]
  rw [dif_neg (by omega)]

theorem getElem_overlay_of_inside {length : Nat} (buffer : Buffer length) {position k : Nat}
    (bytes : Array UInt8) (hk : position + k < length) (h : k < bytes.size) :
    (buffer.overlay position bytes)[position + k] = bytes[k] := by
  simp only [overlay, Vector.getElem_ofFn]
  rw [dif_pos (by omega)]
  simp only [Nat.add_sub_cancel_left]

/-- Some byte of the buffer is not zero. -/
def isNonzero {length : Nat} (buffer : Buffer length) : Bool := buffer.any (· != 0)

end DiskBringup.Buffer
