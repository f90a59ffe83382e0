import DiskBringup.Outcome
import DiskBringup.Table.Basic

/-!
# Editing a partition table

`setEntry` gives one record new blocks. It refuses a number that no record has, blocks whose
addresses do not fit the record's 32-bit fields, and blocks that another used record covers; the
lowest such record is named. What it looks at in the other records is their bytes, so it also
guards records that a look-up does not see. A caller may name blocks without 64-bit addresses,
and then the arithmetic overflows.
-/

namespace DiskBringup.Table

variable (t : Table)

/-- The first used record besides `i` that overlaps an extent. -/
def collision? (i : Index) (extent : Extent) : Option Index :=
  Index.all.find? fun j => j != i && (t.uses j && (t.record j).extent.overlaps extent)

/-- The addresses of a run that ends before `bound`, and its length, fit 32 bits. -/
def fitsRecord (extent : Extent) (bound : UInt64) : Prop :=
  extent.start.toNat < UInt32.size ∧ extent.blocks.toNat < UInt32.size ∧ bound.toNat ≤ UInt32.size

instance (extent : Extent) (bound : UInt64) : Decidable (fitsRecord extent bound) :=
  inferInstanceAs (Decidable (_ ∧ _ ∧ _))

/-- Replace the record of an extent that ends before `bound`. -/
def replace (i : Index) (kind : UInt8) (extent : Extent) (bound : UInt64) :
    Noted (Except TableError Table) :=
  if bound = 0 then return .error .outOfBounds
  else if ¬ fitsRecord extent bound then return .error .offsetOverflow
  else
    match t.collision? i extent with
    | some j => do
      Noted.note (.entryOverlap i.number j.number)
      return .error (.overlap j.number)
    | none => return .ok (t.put i (Record.covering kind extent (bound - 1)))

/-- Give the record of a number a type and blocks. -/
def setEntry (number kind : UInt8) (extent : Extent) : Noted (Outcome TableError Table) :=
  match Index.ofNumber? number with
  | none => return .fail .notFound
  | some i =>
    match extent.bound? with
    | none => return .overflow .add
    | some bound => do
      let edited ← t.replace i kind extent bound
      return .ofExcept edited

/-- The table that an entry is written into: the one at hand, or an empty one where there is no
signature. A table that guards another kind of table is not to be edited. -/
def editable : Noted (Except TableError Table) :=
  if t.hasSignature then do
    if ← t.isProtective then
      Noted.note .protectedTable
      return .error .protective
    else return .ok t
  else do
    Noted.note .freshTable
    return .ok empty

end DiskBringup.Table
