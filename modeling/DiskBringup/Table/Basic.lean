import DiskBringup.Note
import DiskBringup.Table.Record

/-!
# The partition table

A partition table is the first 512 bytes of a device: four records of sixteen bytes from byte 446
on, and a signature in the last two bytes. `record` reads a record and `put` replaces one; a
record just put is read back, and everything else stays as it was (`record_put_self`,
`record_put_of_ne`, `getElem_put_of_outside`).

A look-up, `find`, is stricter than `record`. It wants the signature, refuses a table that some
record marks as protective, and sees a record only if its status and its type are known ones.
-/

namespace DiskBringup

/-- The first 512 bytes of a device, as a partition table. -/
structure Table where
  /-- the bytes -/
  sector : Vector UInt8 512
  deriving DecidableEq

/-- The index of a record of a partition table. -/
abbrev Index : Type := Fin 4

namespace Index

/-- All records, in order. -/
def all : List Index := [0, 1, 2, 3]

/-- The number by which a record is known: records count from 1. -/
def number (i : Index) : UInt8 := UInt8.ofNat (i.val + 1)

/-- The record known by a number. -/
def ofNumber? (n : UInt8) : Option Index :=
  if h : 1 ≤ n.toNat ∧ n.toNat ≤ 4 then some ⟨n.toNat - 1, by omega⟩ else none

theorem mem_all (i : Index) : i ∈ all := by
  revert i
  decide

theorem ofNumber?_number (i : Index) : ofNumber? i.number = some i := by
  revert i
  decide

theorem ofNumber?_eq_some_iff {n : UInt8} {i : Index} : ofNumber? n = some i ↔ n = i.number := by
  constructor
  · intro h
    unfold ofNumber? at h
    split at h
    · obtain rfl := Option.some.inj h
      apply UInt8.toNat.inj
      simp only [number, UInt8.toNat_ofNat']
      omega
    · cases h
  · rintro rfl
    exact ofNumber?_number i

theorem number_inj {i j : Index} : i.number = j.number ↔ i = j := by
  revert i j
  decide

theorem number_mem (i : Index) : 1 ≤ i.number.toNat ∧ i.number.toNat ≤ 4 := by
  revert i
  decide

/-- A search takes the first record that will do. -/
theorem find?_all_eq_some_iff {p : Index → Bool} {k : Index} :
    all.find? p = some k ↔ p k = true ∧ ∀ j < k, p j = false := by
  have hall : ∀ (n : Nat) (h : n < all.length), all[n] = ⟨n, h⟩
    | 0, _ | 1, _ | 2, _ | 3, _ => rfl
  rw [List.find?_eq_some_iff_getElem]
  simp only [hall, Bool.not_eq_true']
  constructor
  · rintro ⟨hk, n, hn, rfl, hbefore⟩
    exact ⟨hk, fun j hj => hbefore j.val hj⟩
  · rintro ⟨hk, hbefore⟩
    exact ⟨hk, k.val, k.isLt, rfl, fun j hj => hbefore ⟨j, Nat.lt_trans hj k.isLt⟩ hj⟩

theorem ofNumber?_eq_none_iff {n : UInt8} :
    ofNumber? n = none ↔ n.toNat = 0 ∨ 4 < n.toNat := by
  rw [ofNumber?]
  split <;> simp <;> omega

end Index

namespace Table

variable (t : Table)

/-! ## Records -/

/-- The first byte of a record. -/
abbrev offset (i : Index) : Nat := 446 + 16 * i.val

theorem offset_add_lt (i : Index) (k : Fin 16) : offset i + k.val < 512 := by
  simp only [offset]
  omega

/-- A byte of a record. -/
def recordByte (i : Index) (k : Fin 16) : UInt8 :=
  have := offset_add_lt i k
  t.sector[offset i + k.val]

/-- A record. -/
def record (i : Index) : Record := Record.ofBytes (t.recordByte i)

/-- The table with one record replaced. -/
def put (i : Index) (r : Record) : Table where
  sector := Vector.ofFn fun n =>
    if h : offset i ≤ n.val ∧ n.val < offset i + 16 then
      r.bytes[n.val - offset i]
    else t.sector[n.val]

theorem getElem_put_of_outside {i : Index} {r : Record} {n : Nat} (hn : n < 512)
    (h : n < offset i ∨ offset i + 16 ≤ n) : (t.put i r).sector[n] = t.sector[n] := by
  simp only [put, Vector.getElem_ofFn]
  rw [dif_neg (by omega)]

theorem recordByte_put_self (i : Index) (r : Record) (k : Fin 16) :
    (t.put i r).recordByte i k = r.bytes.get k := by
  have := k.isLt
  simp only [recordByte, put, Vector.getElem_ofFn]
  rw [dif_pos (by omega)]
  simp only [Nat.add_sub_cancel_left]
  rfl

/-- A record just put is read back. -/
@[simp] theorem record_put_self (i : Index) (r : Record) : (t.put i r).record i = r := by
  have h : (t.put i r).recordByte i = r.bytes.get := funext (t.recordByte_put_self i r)
  rw [record, h, Record.ofBytes_bytes]

/-- Putting a record leaves the others as they were. -/
theorem record_put_of_ne {i j : Index} (r : Record) (h : j ≠ i) :
    (t.put i r).record j = t.record j := by
  have hij : j.val ≠ i.val := fun e => h (Fin.ext e)
  have hb : (t.put i r).recordByte j = t.recordByte j := by
    funext k
    have := k.isLt
    simp only [recordByte]
    apply getElem_put_of_outside
    simp only [offset]
    omega
  rw [record, hb, record]

/-! ## Signature -/

/-- The last two bytes of the sector are the boot signature. -/
def hasSignature : Bool := t.sector[510] == 0x55 && t.sector[511] == 0xAA

/-- A table without used records. -/
def empty : Table where
  sector := Vector.ofFn fun n => if n.val = 510 then 0x55 else if n.val = 511 then 0xAA else 0

theorem hasSignature_empty : empty.hasSignature = true := by
  simp [hasSignature, empty]

theorem hasSignature_put (i : Index) (r : Record) :
    (t.put i r).hasSignature = t.hasSignature := by
  have := i.isLt
  simp only [hasSignature]
  rw [getElem_put_of_outside _ (by omega) (by simp only [offset]; omega),
    getElem_put_of_outside _ (by omega) (by simp only [offset]; omega)]

/-! ## Used and protective records -/

/-- A record is used if its type is not zero. -/
def uses (i : Index) : Bool := (t.record i).kind != 0

/-- The type of a record that guards a disk with another kind of table. -/
def protectiveKind : UInt8 := 0xEE

/-- The first protective record. -/
def protector? : Option Index := Index.all.find? fun i => (t.record i).kind == protectiveKind

/-- The number of used records. -/
def usedCount : Nat := (Index.all.filter t.uses).length

/-- Report a protective record that stands beside other used ones. -/
def noteHybrid (i : Index) : Noted Unit :=
  if 1 < t.usedCount then Noted.note (.hybridTable i.number (t.usedCount - 1)) else return ()

/-- Whether some record is protective. -/
def isProtective : Noted Bool :=
  match t.protector? with
  | none => return false
  | some i => do
    t.noteHybrid i
    return true

theorem value_isProtective : t.isProtective.value = t.protector?.isSome := by
  rw [isProtective]
  cases t.protector? <;> rfl

/-! ## Look-ups -/

/-- The types that a look-up knows. -/
def knownKinds : List UInt8 :=
  [0x01, 0x02, 0x04, 0x05, 0x06, 0x07, 0x0b, 0x0c, 0x0e, 0x0f, 0x12, 0x14, 0x17, 0x1b, 0x1c, 0x1e,
    0x27, 0x42, 0x75, 0x82, 0x83, 0x84, 0x8e, 0xa5, 0xa6, 0xa9, 0xaf, 0xbf, 0xeb, 0xee, 0xef, 0xfd]

/-- The two bytes before the records are zero, or mark a write-protected disk. -/
def isWellFormed : Bool :=
  (t.sector[444] == 0 && t.sector[445] == 0) || (t.sector[444] == 0x5a && t.sector[445] == 0x5a)

/-- The bytes that make a table well-formed stand before the records. -/
theorem isWellFormed_put (i : Index) (r : Record) :
    (t.put i r).isWellFormed = t.isWellFormed := by
  simp only [isWellFormed]
  rw [getElem_put_of_outside _ (by omega) (.inl (by simp only [offset]; omega)),
    getElem_put_of_outside _ (by omega) (.inl (by simp only [offset]; omega))]

/-- The entry that a record stands for, if its status and its type are known ones. -/
def entry? (i : Index) : Option Entry :=
  let r := t.record i
  if (r.status = 0 ∨ r.status = 0x80) ∧ r.kind ∈ knownKinds then
    some ⟨i.number, r.kind, r.start, r.count⟩
  else none

theorem entry?_eq_some_iff {i : Index} {e : Entry} :
    t.entry? i = some e ↔
      ((t.record i).status = 0 ∨ (t.record i).status = 0x80) ∧ (t.record i).kind ∈ knownKinds ∧
        e = ⟨i.number, (t.record i).kind, (t.record i).start, (t.record i).count⟩ := by
  unfold entry?
  grind

/-- The entry of a number. -/
def find (number : UInt8) : Noted (Except TableError Entry) :=
  match Index.ofNumber? number with
  | none => return .error .notFound
  | some i =>
    if t.hasSignature then do
      if ← t.isProtective then return .error .protective
      if t.isWellFormed then
        match t.entry? i with
        | some entry => return .ok entry
        | none => return .error .notFound
      else return .error .invalidData
    else return .error .invalidSignature

/-- All entries that a look-up of their number finds, by number. -/
def entries : Noted (List Entry) :=
  Index.all.foldr (fun i rest => do
    let found ← t.find i.number
    let others ← rest
    return found.toOption.toList ++ others) (return [])

theorem value_entries :
    t.entries.value = Index.all.filterMap fun i => (t.find i.number).value.toOption := by
  rw [entries]
  induction Index.all with
  | nil => rfl
  | cons i rest ih =>
    simp only [List.foldr_cons, Noted.value_bind, ih, List.filterMap_cons]
    cases (t.find i.number).value <;> rfl

/-- A table in words. -/
def describe : Noted String := do
  let found ← t.entries
  let list := String.intercalate ", " (found.map Entry.describe)
  return s!"PartitionTable \x7b signature: {t.hasSignature}, entries: [{list}] \x7d"

end Table

end DiskBringup
