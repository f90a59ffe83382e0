import DiskBringup.Bench.FlatDisk
import Mathlib.Algebra.Group.Nat.Defs
import Mathlib.Data.List.Induction

/-!
# A disk is an array of blocks

What an array of blocks answers is said by the requests so far: a read gives the bytes of the last
write to its block that was accepted, or zeros (`arrayAnswer`). Any lawful store answers so, by one
request (`Keeps.answer`) and induction on the requests (`Keeps.after`). A flat disk is such a store
over one row of bytes (`FlatDisk.ArrayAfter`): its size and its number of blocks do not change, and
the bytes of a block that it has are found by sums and products that are words and lie in the row.
-/

namespace DiskBringup

/-! ## Arrays of blocks -/

/-- The bytes that a request puts into block `b`. Only a write that is accepted puts bytes. -/
def BlockRequest.put? (g : Geometry) (b : UInt64) : BlockRequest → Option (List UInt8)
  | @write block length data =>
    if g.Accepts block length ∧ block = b then some data.toList else none
  | init | deinit | read .. => none

/-- The bytes that were put into a block last. -/
def lastPut? (g : Geometry) (rs : List BlockRequest) (b : UInt64) : Option (List UInt8) :=
  (rs.filterMap (BlockRequest.put? g b)).getLast?

/-- A byte of a block after requests: of what was put there last, and otherwise zero. -/
def content (g : Geometry) (rs : List BlockRequest) (b : UInt64) (k : Nat) : UInt8 :=
  ((lastPut? g rs b).bind fun bytes => bytes[k]?).getD 0

/-- What an array of blocks answers after requests. -/
def arrayAnswer (g : Geometry) (rs : List BlockRequest) : (r : BlockRequest) → r.Answer
  | .init | .deinit => .ok ()
  | .read block length =>
    if g.Accepts block length then .ok (Vector.ofFn fun k => content g rs block k.val)
    else .error .device
  | @BlockRequest.write block length _ =>
    if g.Accepts block length then .ok () else .error .device

section

variable {g : Geometry} {rs : List BlockRequest} {r : BlockRequest} {b : UInt64} {k : Nat}

@[simp] theorem lastPut?_append (g : Geometry) (rs : List BlockRequest) (r : BlockRequest)
    (b : UInt64) : lastPut? g (rs ++ [r]) b = (r.put? g b).or (lastPut? g rs b) := by
  rw [lastPut?, List.filterMap_append, List.getLast?_append]
  cases hput : r.put? g b <;> simp [hput, lastPut?]

/-- A request that puts nothing into a block leaves it as it was. -/
theorem content_append_of_none (h : r.put? g b = none) :
    content g (rs ++ [r]) b = content g rs b := by
  funext k
  rw [content, content, lastPut?_append, h, Option.none_or]

/-- The bytes that are put into a block are there afterwards. -/
theorem content_append_of_some {bytes : List UInt8} (h : r.put? g b = some bytes)
    (hk : k < bytes.length) : content g (rs ++ [r]) b k = bytes[k] := by
  rw [content, lastPut?_append, h, Option.some_or, Option.bind_some, List.getElem?_eq_getElem hk,
    Option.getD_some]

end

/-! ## Stores as arrays -/

namespace BlockStore

variable {δ : Type} [BlockStore δ] {s : δ} {g : Geometry} {rs : List BlockRequest}

/-- The store after requests. -/
def after (s : δ) (rs : List BlockRequest) : δ := rs.foldl (fun s r => (answer r s).2) s

theorem after_append (s : δ) (rs : List BlockRequest) (r : BlockRequest) :
    after s (rs ++ [r]) = (answer r (after s rs)).2 := by
  rw [after, List.foldl_append]
  rfl

/-- A store has the shape of an array, and holds what requests have put there. -/
structure Keeps (g : Geometry) (rs : List BlockRequest) (s : δ) : Prop where
  /-- the shape of the store -/
  geometry_eq : geometry s = g
  /-- and its contents -/
  byteAt_eq : ∀ (b : UInt64) (k : Nat), b < g.numBlocks → k < g.blockSize.toNat →
    byteAt s b k = content g rs b k

/-- A request that puts nothing anywhere makes no difference to a store that stays as it is. -/
theorem Keeps.append {r : BlockRequest} (h : Keeps g rs s) (hr : ∀ b, r.put? g b = none) :
    Keeps g (rs ++ [r]) s where
  geometry_eq := h.geometry_eq
  byteAt_eq b k hb hk := by rw [content_append_of_none (hr b), h.byteAt_eq b k hb hk]

variable [LawfulBlockStore δ]

/-- A write that is accepted puts its bytes into its block. -/
theorem Keeps.write {block : UInt64} {length : Nat} (h : Keeps g rs s) (data : Buffer length)
    (hacc : g.Accepts block length) :
    ∃ s', BlockStore.write s block data = .ok s' ∧ Keeps g (rs ++ [.write block data]) s' := by
  obtain ⟨s', hs', hgeometry, hbytes⟩ :=
    LawfulBlockStore.write_of_accepts data (h.geometry_eq.symm ▸ hacc)
  refine ⟨s', hs', hgeometry.trans h.geometry_eq, fun b k hb hk => ?_⟩
  rw [hbytes b k (hacc.1 ▸ hk) (h.geometry_eq.symm ▸ hb)]
  by_cases hblock : block = b
  · have hput : (BlockRequest.write block data).put? g b = some data.toList :=
      if_pos ⟨hacc, hblock⟩
    rw [if_pos hblock.symm, content_append_of_some hput (by rwa [Vector.length_toList, hacc.1]),
      Vector.getElem_toList]
  · have hput : (BlockRequest.write block data).put? g b = none :=
      if_neg fun h => hblock h.2
    rw [if_neg (Ne.symm hblock), content_append_of_none hput, h.byteAt_eq b k hb hk]

/-- A request is answered as by the array, and leaves the store with what the array then holds. -/
theorem Keeps.answer (h : Keeps g rs s) (r : BlockRequest) :
    (answer r s).1 = arrayAnswer g rs r ∧ Keeps g (rs ++ [r]) (answer r s).2 := by
  cases r with
  | init => exact ⟨rfl, h.append fun _ => rfl⟩
  | deinit => exact ⟨rfl, h.append fun _ => rfl⟩
  | read block length =>
    refine ⟨?_, h.append fun _ => rfl⟩
    by_cases hacc : g.Accepts block length
    · rw [arrayAnswer, if_pos hacc]
      refine (LawfulBlockStore.read_of_accepts (h.geometry_eq ▸ hacc)).trans ?_
      congr 2
      funext k
      exact h.byteAt_eq block k hacc.2 (hacc.1 ▸ k.isLt)
    · rw [arrayAnswer, if_neg hacc]
      exact LawfulBlockStore.read_of_not_accepts (h.geometry_eq ▸ hacc)
  | @write block length data =>
    by_cases hacc : g.Accepts block length
    · obtain ⟨s', hs', hkeeps⟩ := h.write data hacc
      simp only [BlockStore.answer, hs', arrayAnswer, if_pos hacc]
      exact ⟨trivial, hkeeps⟩
    · have hrefused := LawfulBlockStore.write_of_not_accepts data (h.geometry_eq.symm ▸ hacc)
      simp only [BlockStore.answer, hrefused, arrayAnswer, if_neg hacc]
      exact ⟨trivial, h.append fun b => if_neg fun hput => hacc hput.1⟩

/-- After any requests a store that starts with zeros holds what they have put there. -/
theorem Keeps.after (h : Keeps g [] s) (rs : List BlockRequest) : Keeps g rs (after s rs) := by
  induction rs using List.reverseRecOn with
  | nil => exact h
  | append_singleton rs r ih =>
    rw [after_append]
    exact (ih.answer r).2

end BlockStore

/-! ## Flat disks as arrays -/

namespace FlatDisk

open BlockStore

variable {g : Geometry} {d : FlatDisk} {rs : List BlockRequest}

/-- A disk has a row of the bytes that a shape asks for, in blocks of its size. -/
structure Row (g : Geometry) (d : FlatDisk) : Prop where
  /-- the number of bytes in a block -/
  blockSize_eq : d.blockSize = g.blockSize
  /-- the number of bytes in the row -/
  size_eq : d.size = g.numBlocks.toNat * g.blockSize.toNat

/-- A disk that fits in a buffer can be made, and is zeroed. -/
theorem exists_new (h : g.numBlocks.toNat * g.blockSize.toNat ≤ Buffer.maxLength) :
    ∃ d, new g = .ok d ∧ d.Row g ∧ ∀ n, d.byte n = 0 := by
  obtain ⟨size, hsize⟩ : ∃ size, g.size? = some size := by
    rw [← Option.ne_none_iff_exists', Geometry.size?, ne_eq, Word.mul?_eq_none_iff, Nat.not_le]
    exact Nat.lt_of_le_of_lt h (by decide)
  have hproduct := Word.mul?_eq_some_iff.1 hsize
  refine ⟨⟨g.blockSize, size.toNat, ByteArray.empty, Nat.zero_le _, hproduct ▸ h⟩, ?_,
    ⟨rfl, hproduct.symm⟩, fun n => rfl⟩
  simp only [new, hsize]
  exact dif_pos (hproduct ▸ h)

/-- A longer disk cannot be made. -/
theorem new_eq_error (h : Buffer.maxLength < g.numBlocks.toNat * g.blockSize.toNat)
    (hword : g.numBlocks.toNat * g.blockSize.toNat < 2 ^ 64) : new g = .error .buffer := by
  obtain ⟨size, hsize⟩ : ∃ size, g.size? = some size := by
    rwa [← Option.ne_none_iff_exists', Geometry.size?, ne_eq, Word.mul?_eq_none_iff, Nat.not_le]
  simp only [new, hsize]
  exact dif_neg (Nat.not_le.2 (Word.mul?_eq_some_iff.1 hsize ▸ h))

/-! ### One request -/

variable {block : UInt64} {length : Nat}

/-- A write that is accepted changes the bytes of the row that are in its block, and no size. -/
theorem exists_answer_write (data : Buffer length) (h : d.geometry.Accepts block length) :
    ∃ d', answer (.write block data) d = (.ok (), d') ∧ d'.blockSize = d.blockSize ∧
      d'.size = d.size ∧ ∀ n, d'.byte n =
        if h : block.toNat * length ≤ n ∧ n < block.toNat * length + length then
          data[n - block.toNat * length]
        else d.byte n := by
  refine ⟨⟨d.blockSize, d.size, d.replaced (block.toNat * length) data,
    size_replaced_le _ _ (le_size_of_accepts h), d.size_le⟩, ?_, rfl, rfl, fun n => ?_⟩
  · simp only [BlockStore.answer, BlockStore.write, write, dif_pos h]
  · rw [byte_eq, getD_replaced]

theorem answer_write_of_not_accepts (data : Buffer length) (h : ¬ d.geometry.Accepts block length) :
    answer (.write block data) d = (.error .device, d) := by
  simp only [BlockStore.answer, BlockStore.write, write, dif_neg h]

/-- No request changes the size of a disk. -/
theorem Row.answer (h : d.Row g) (r : BlockRequest) : (answer r d).2.Row g := by
  cases r with
  | init | deinit | read => exact h
  | @write block length data =>
    by_cases hacc : d.geometry.Accepts block length
    · obtain ⟨d', hd', hblockSize, hsize, -⟩ := exists_answer_write data hacc
      rw [hd']
      exact ⟨hblockSize.trans h.blockSize_eq, hsize.trans h.size_eq⟩
    · rw [answer_write_of_not_accepts data hacc]
      exact h

/-- A write changes no byte of the row outside its block. -/
theorem byte_answer_write (data : Buffer length) {n : Nat}
    (hn : n < block.toNat * d.blockSize.toNat ∨
      block.toNat * d.blockSize.toNat + d.blockSize.toNat ≤ n) :
    (answer (.write block data) d).2.byte n = d.byte n := by
  by_cases hacc : d.geometry.Accepts block length
  · obtain ⟨d', hd', -, -, hbyte⟩ := exists_answer_write data hacc
    obtain rfl : length = d.blockSize.toNat := hacc.1
    rw [hd', hbyte, dif_neg (by omega)]
  · rw [answer_write_of_not_accepts data hacc]

/-- The bytes of a block are found by a product and a sum that are words, and lie in the row. -/
theorem exists_range (h : d.geometry.Accepts block length) :
    ∃ start stop, Word.mul? block d.blockSize = some start ∧
      Word.add? start (UInt64.ofNat length) = some stop ∧ stop.toNat ≤ d.size := by
  have hle := le_size_of_accepts h
  obtain rfl : length = d.blockSize.toNat := h.1
  have hword : ∀ n ≤ d.size, (UInt64.ofNat n).toNat = n := fun n hn =>
    UInt64.toNat_ofNat_of_lt' (Nat.lt_of_le_of_lt (Nat.le_trans hn d.size_le) (by decide))
  have hstart := hword _ (Nat.le_of_add_right_le hle)
  have hlength := hword _ (Nat.le_of_add_left_le hle)
  have hstop := hword _ hle
  exact ⟨_, _, Word.mul?_eq_some_iff.2 hstart.symm,
    Word.add?_eq_some_iff.2 (by rw [hstart, hlength, hstop]), hstop ▸ hle⟩

/-! ### Rows of requests -/

theorem Row.after (h : d.Row g) (rs : List BlockRequest) : (after d rs).Row g := by
  induction rs using List.reverseRecOn with
  | nil => exact h
  | append_singleton rs r ih =>
    rw [after_append]
    exact ih.answer r

/-- Blocks without bytes are not counted, and all others are. -/
theorem Row.geometry_eq (h : d.Row g) :
    d.geometry = ⟨g.blockSize, if g.blockSize = 0 then 0 else g.numBlocks⟩ := by
  have hcount := d.toNat_numBlocks
  rw [h.size_eq, h.blockSize_eq] at hcount
  rw [geometry, Geometry.mk.injEq]
  refine ⟨h.blockSize_eq, UInt64.toNat_inj.1 (hcount.trans ?_)⟩
  split
  · rename_i hzero
    rw [hzero, UInt64.toNat_zero, Nat.div_zero]
  · rename_i hne
    exact Nat.mul_div_cancel _ (Word.toNat_pos hne)

/-- The blocks of a disk take up the whole row. -/
theorem Row.size?_eq (h : d.Row g) :
    ∃ size, d.geometry.size? = some size ∧ size.toNat = d.size := by
  have hsize : (UInt64.ofNat d.size).toNat = d.size :=
    UInt64.toNat_ofNat_of_lt' (Nat.lt_of_le_of_lt d.size_le (by decide))
  refine ⟨_, Word.mul?_eq_some_iff.2 ?_, hsize⟩
  rw [toNat_numBlocks, hsize]
  change d.size / d.blockSize.toNat * d.blockSize.toNat = d.size
  rw [h.size_eq, h.blockSize_eq]
  exact Nat.div_mul_cancel (Nat.dvd_mul_left _ _)

/-- A disk that was made for a shape is an array of blocks after requests. -/
structure ArrayAfter (g : Geometry) (rs : List BlockRequest) (d : FlatDisk) : Prop where
  /-- the row has all bytes -/
  size_eq : d.size = g.numBlocks.toNat * g.blockSize.toNat
  /-- there are as many blocks as were asked for, and none if they have no bytes -/
  geometry_eq : d.geometry = ⟨g.blockSize, if g.blockSize = 0 then 0 else g.numBlocks⟩
  /-- their bytes are those of the row -/
  size?_eq : ∃ size, d.geometry.size? = some size ∧ size.toNat = d.size
  /-- the next request is answered as by an array, with bytes only where a read is accepted -/
  answer_eq : ∀ r, (answer r d).1 = arrayAnswer d.geometry rs r
  /-- a read changes nothing -/
  read_eq : ∀ (block : UInt64) (length : Nat), (answer (.read block length) d).2 = d
  /-- a write that is refused changes nothing -/
  refused_eq : ∀ (block : UInt64) (length : Nat) (data : Buffer length),
    ¬ d.geometry.Accepts block length → (answer (.write block data) d).2 = d
  /-- a write changes no byte outside its block -/
  outside_eq : ∀ (block : UInt64) (length : Nat) (data : Buffer length) (n : Nat),
    n < block.toNat * g.blockSize.toNat ∨
        block.toNat * g.blockSize.toNat + g.blockSize.toNat ≤ n →
      (answer (.write block data) d).2.byte n = d.byte n
  /-- the bytes of a block are found in the row, by arithmetic that does not overflow -/
  exists_range : ∀ (block : UInt64) (length : Nat), d.geometry.Accepts block length →
    ∃ start stop, Word.mul? block d.geometry.blockSize = some start ∧
      Word.add? start (UInt64.ofNat length) = some stop ∧ stop.toNat ≤ d.size

/-- A disk whose row holds what requests have put there is an array of blocks. -/
theorem Row.arrayAfter (h : d.Row g) (hkeeps : Keeps d.geometry rs d) : ArrayAfter g rs d where
  size_eq := h.size_eq
  geometry_eq := h.geometry_eq
  size?_eq := h.size?_eq
  answer_eq r := (hkeeps.answer r).1
  read_eq _ _ := rfl
  refused_eq _ _ data hacc := congrArg Prod.snd (answer_write_of_not_accepts data hacc)
  outside_eq _ _ data _ hn := byte_answer_write data (h.blockSize_eq.symm ▸ hn)
  exists_range _ _ := exists_range

/-- A disk whose size fits in a buffer can be made, and is an array of blocks after any requests. A
longer one whose size is a word cannot be made. -/
theorem array_after_requests (g : Geometry) :
    (g.numBlocks.toNat * g.blockSize.toNat ≤ 2 ^ 63 - 1 →
      ∃ d, new g = .ok d ∧ ∀ rs, ArrayAfter g rs (BlockStore.after d rs)) ∧
    (2 ^ 63 - 1 < g.numBlocks.toNat * g.blockSize.toNat →
      g.numBlocks.toNat * g.blockSize.toNat < 2 ^ 64 → new g = .error .buffer) := by
  refine ⟨fun hle => ?_, new_eq_error⟩
  obtain ⟨d, hnew, hrow, hzero⟩ := exists_new hle
  have hblank : Keeps d.geometry [] d := ⟨rfl, fun _ _ _ _ => hzero _⟩
  refine ⟨d, hnew, fun rs => ?_⟩
  have hkeeps := hblank.after rs
  have hgeometry : (BlockStore.after d rs).geometry = d.geometry := hkeeps.geometry_eq
  rw [← hgeometry] at hkeeps
  exact (hrow.after rs).arrayAfter hkeeps

/-- The size of a disk may be a word, and the disk may still be too long to be made. -/
theorem not_exists_new_of_size :
    (⟨4294967296, 2147483648⟩ : Geometry).size? = some 9223372036854775808 ∧
      ¬ ∃ d, new ⟨4294967296, 2147483648⟩ = .ok d := by
  have hnew : new ⟨4294967296, 2147483648⟩ = .error .buffer :=
    new_eq_error (by decide) (by decide)
  refine ⟨by decide, ?_⟩
  rintro ⟨d, hd⟩
  cases hnew.symm.trans hd

/-- Three blocks after two writes that are accepted and two that are not, and a disk that is too
long. -/
theorem array_after_requests_written :
    (∃ d, new ⟨2, 3⟩ = .ok d ∧
      let written := BlockStore.after d
        [.write 1 #v[7, 8], .write 1 #v[5, 6], .write 3 #v[1, 2], .write 1 #v[9]]
      (answer (.read 1 2) written).1 = .ok #v[5, 6] ∧
        (answer (.read 2 2) written).1 = .ok #v[0, 0] ∧
        (answer (.read 3 2) written).1 = .error .device) ∧
      new ⟨4294967296, 2147483648⟩ = .error .buffer := by
  obtain ⟨d, hnew, harray⟩ := (array_after_requests ⟨2, 3⟩).1 (by decide)
  refine ⟨⟨d, hnew, ?_⟩, (array_after_requests ⟨4294967296, 2147483648⟩).2 (by decide) (by decide)⟩
  have h := harray [.write 1 #v[7, 8], .write 1 #v[5, 6], .write 3 #v[1, 2], .write 1 #v[9]]
  refine ⟨(h.answer_eq _).trans ?_, (h.answer_eq _).trans ?_, (h.answer_eq _).trans ?_⟩
  all_goals
    rw [h.geometry_eq]
    decide

end FlatDisk

end DiskBringup
