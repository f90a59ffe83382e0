import DiskBringup.Block.Buffer
import DiskBringup.Outcome

/-!
# Stores: what holds the blocks of a disk

A `BlockStore` holds the blocks of a simulated disk and says what shape the disk has. Its contents
are seen byte by byte through `byteAt`, and a `LawfulBlockStore` reads and writes by that view: it
transfers exactly the blocks and buffers that its shape accepts, a read gives the bytes of its
block, and a write changes the bytes of its block and nothing else. A store can also be looked at
and changed from outside: `dump` lists the blocks that are not zero, and `poke` puts bytes at any
position.
-/

namespace DiskBringup

/-- What holds the blocks of a disk. -/
class BlockStore (δ : Type) where
  /-- the shape of the disk -/
  geometry : δ → Geometry
  /-- a byte of a block -/
  byteAt : δ → UInt64 → Nat → UInt8
  /-- the bytes of a block -/
  read : δ → UInt64 → (length : Nat) → Except ErrorCode (Buffer length)
  /-- the store with other bytes in a block -/
  write : δ → UInt64 → {length : Nat} → Buffer length → Except ErrorCode δ
  /-- blocks in ascending order, among them all that hold a byte that is not zero -/
  occupied : δ → List UInt64

open BlockStore in
/-- Reading and writing go by the bytes of the blocks. -/
class LawfulBlockStore (δ : Type) [BlockStore δ] : Prop where
  /-- an accepted read gives the bytes of its block -/
  read_of_accepts {s : δ} {block : UInt64} {length : Nat}
    (h : (geometry s).Accepts block length) :
    read s block length = .ok (Vector.ofFn fun k => byteAt s block k.val)
  /-- any other read is refused -/
  read_of_not_accepts {s : δ} {block : UInt64} {length : Nat}
    (h : ¬ (geometry s).Accepts block length) : read s block length = .error .device
  /-- an accepted write changes the bytes of its block and nothing else -/
  write_of_accepts {s : δ} {block : UInt64} {length : Nat} (data : Buffer length)
    (h : (geometry s).Accepts block length) :
    ∃ s', write s block data = .ok s' ∧ geometry s' = geometry s ∧
      ∀ (b : UInt64) (k : Nat) (hk : k < length), b < (geometry s).numBlocks →
        byteAt s' b k = if b = block then data[k] else byteAt s b k
  /-- any other write is refused -/
  write_of_not_accepts {s : δ} {block : UInt64} {length : Nat} (data : Buffer length)
    (h : ¬ (geometry s).Accepts block length) : write s block data = .error .device

namespace BlockStore

variable {δ : Type} [BlockStore δ]

/-- Answer a request without ado. -/
def answer : (r : BlockRequest) → δ → r.Answer × δ
  | .init, s | .deinit, s => (.ok (), s)
  | .read block length, s => (read s block length, s)
  | .write block data, s =>
    match write s block data with
    | .ok s' => (.ok (), s')
    | .error code => (.error code, s)

/-- The blocks that hold a byte that is not zero, with their bytes, in ascending order. -/
def dump (s : δ) : List (UInt64 × Array UInt8) :=
  (occupied s).filterMap fun block =>
    match read s block (geometry s).blockSize.toNat with
    | .ok bytes => if bytes.isNonzero then some (block, bytes.toArray) else none
    | .error _ => none

/-- Put bytes at a byte position, block by block. If the store refuses a block, the blocks before
it have been written. A block that is longer than any buffer cannot be changed. -/
def poke (s : δ) (position : Nat) (bytes : List UInt8) : Outcome ErrorCode Unit × δ :=
  match bytes with
  | [] => (.ok (), s)
  | b :: bs =>
    let size := (geometry s).blockSize.toNat
    let within := position % size
    let count := max 1 (size - within)
    let block := UInt64.ofNat (position / size)
    if Buffer.maxLength < size then (.overflow .buffer, s)
    else if position / size < UInt64.size ∧ 0 < size then
      match read s block size with
      | .error code => (.fail code, s)
      | .ok old =>
        match write s block (old.overlay within ((b :: bs).take count).toArray) with
        | .error code => (.fail code, s)
        | .ok s' => poke s' (position + count) ((b :: bs).drop count)
    else (.fail .device, s)
termination_by bytes.length
decreasing_by
  simp only [List.length_drop, List.length_cons]
  omega

end BlockStore

end DiskBringup
