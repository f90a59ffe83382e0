import DiskBringup.BootArgs.Value
import DiskBringup.Layout.Check

/-!
# Settings: what boot arguments have said so far

Six arguments describe a configuration. `Settings` holds the last value of each; `set` takes one
more value in, and `config` turns the settings into a valid configuration. The secondary partition
starts where the primary one ends unless its argument says otherwise.
-/

namespace DiskBringup.BootArgs

/-- The known boot arguments. -/
inductive Key where
  /-- the place of the primary partition -/
  | primary
  /-- the place of the secondary partition -/
  | secondary
  /-- the mount point of the primary partition -/
  | mountPrimary
  /-- the mount point of the secondary partition -/
  | mountSecondary
  /-- whether missing partitions are created -/
  | autoPartition
  /-- the type byte of all partitions -/
  | kind
  deriving DecidableEq, Repr

namespace Key

/-- The name of the argument. -/
def text : Key → String
  | primary => "storage.primary"
  | secondary => "storage.secondary"
  | mountPrimary => "storage.mount.primary"
  | mountSecondary => "storage.mount.secondary"
  | autoPartition => "storage.auto_partition"
  | kind => "storage.type"

/-- All known arguments. -/
def all : List Key := [primary, secondary, mountPrimary, mountSecondary, autoPartition, kind]

/-- The argument with a given name. -/
def ofText? (name : String) : Option Key := all.find? (·.text == name)

@[simp] theorem ofText?_text (k : Key) : ofText? k.text = some k := by
  cases k <;> decide

theorem ofText?_eq_some_iff {name : String} {k : Key} : ofText? name = some k ↔ name = k.text := by
  constructor
  · intro h
    have := List.find?_some h
    exact (beq_iff_eq.1 this).symm
  · rintro rfl
    exact ofText?_text k

end Key

/-- The last value of each boot argument. -/
structure Settings where
  /-- the place of the primary partition -/
  primary : Option Place := none
  /-- the place of the secondary partition -/
  secondary : Option Place := none
  /-- the mount point of the primary partition -/
  mountPrimary : Option String := none
  /-- the mount point of the secondary partition -/
  mountSecondary : Option String := none
  /-- whether missing partitions are created -/
  autoPartition : Option Bool := none
  /-- the type byte of all partitions -/
  kind : Option UInt8 := none
  deriving DecidableEq, Repr

namespace Settings

/-- Take in one value. -/
def set (s : Settings) (key : Key) (value : String) : Except ConfigError Settings :=
  match key with
  | .primary => (parsePlace value).map fun place => { s with primary := some place }
  | .secondary => (parsePlace value).map fun place => { s with secondary := some place }
  | .mountPrimary => (parseMount value).map fun mount => { s with mountPrimary := some mount }
  | .mountSecondary => (parseMount value).map fun mount => { s with mountSecondary := some mount }
  | .autoPartition => (parseBool value).map fun auto => { s with autoPartition := some auto }
  | .kind => (parseKind value).map fun kind => { s with kind := some kind }

/-- The primary partition with a given place. -/
def primarySpec (s : Settings) (place : Place) : PartitionSpec :=
  { PartitionSpec.primary place.size with
    start := place.start.getD 0
    kind := s.kind.getD linuxKind
    mountPoint := s.mountPrimary.getD "/fs" }

/-- The secondary partition with a given place, after the primary one. -/
def secondarySpec (s : Settings) (after : PartitionSpec) (place : Place) : PartitionSpec :=
  { PartitionSpec.secondary after place.size with
    start := place.start.getD after.stop
    kind := s.kind.getD linuxKind
    mountPoint := s.mountSecondary.getD "/fs2" }

/-- The partitions that the settings speak of. A mount point needs its partition, and a secondary
partition needs a primary one. -/
def partitions (s : Settings) : Except ConfigError (List PartitionSpec) :=
  if s.primary.isNone && s.mountPrimary.isSome then
    .error (.missingPartition Key.mountPrimary.text)
  else if s.secondary.isNone && s.mountSecondary.isSome then
    .error (.missingPartition Key.mountSecondary.text)
  else
    match s.primary, s.secondary with
    | none, none => .ok []
    | none, some _ => .error (.missingPartition Key.secondary.text)
    | some place, none => .ok [s.primarySpec place]
    | some place, some place₂ =>
      let first := s.primarySpec place
      .ok [first, s.secondarySpec first place₂]

/-- The configuration that the settings describe, which is valid. -/
def config (s : Settings) : Except ConfigError Config :=
  match s.partitions with
  | .error err => .error err
  | .ok specs =>
    let config : Config := ⟨specs, s.autoPartition.getD false⟩
    match config.validate with
    | .error err => .error (.layout err)
    | .ok () => .ok config

/-- A configuration made from settings is valid. -/
theorem validate_of_config {s : Settings} {c : Config} (h : s.config = .ok c) :
    c.validate = .ok () := by
  unfold config at h
  split at h
  · cases h
  · simp only at h
    split at h
    · cases h
    · rename_i hv
      obtain rfl := Except.ok.inj h
      exact hv

end Settings

end DiskBringup.BootArgs
