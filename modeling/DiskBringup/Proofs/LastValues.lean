import DiskBringup.BootArgs.CommandLine
import Mathlib.Data.List.Induction

/-!
# The last value of each boot argument decides

Reading a command line is a fold over its arguments, which stops at the first value that is unfit
for its key. On a line without such a value the fold only keeps the last value of each key: after
any number of arguments the settings are those of the last values so far (`read_eq_ofValues`), by
one step (`set_ofValues`) and induction from the end of the line. What the line describes follows
from the settings alone, so order, repetitions, unknown words and blanks make no difference.
-/

namespace DiskBringup.BootArgs

/-! ## Unfit values -/

/-- Why a value could not be read, if it could not. -/
def refusal? {α : Type} : Except ConfigError α → Option ConfigError
  | .error err => some err
  | .ok _ => none

/-- What makes a value unfit for its key, if anything does. -/
def Key.fault? (key : Key) (value : String) : Option ConfigError :=
  match key with
  | primary | secondary => refusal? (parsePlace value)
  | mountPrimary | mountSecondary => refusal? (parseMount value)
  | autoPartition => refusal? (parseBool value)
  | kind => refusal? (parseKind value)

/-- What is wrong with an argument, if anything is. Nothing is wrong with an unknown one. -/
def Argument.fault? : Argument → Option ConfigError
  | setting key value => key.fault? value
  | unknown _ => none

/-- What is wrong with the first wrong argument. -/
def firstFault? (args : List Argument) : Option ConfigError := args.findSome? Argument.fault?

theorem map_eq_error_iff {α β : Type} {x : Except ConfigError α} {err : ConfigError} (f : α → β) :
    x.map f = .error err ↔ refusal? x = some err := by
  cases x <;> simp [Except.map, refusal?]

theorem ok_of_no_refusal {α : Type} {x : Except ConfigError α} (h : refusal? x = none) :
    ∃ a, x = .ok a := by
  cases x with
  | error err => cases h
  | ok a => exact ⟨a, rfl⟩

/-! ## Last values -/

/-- The value that an argument gives for a key. -/
def Argument.value? (key : Key) : Argument → Option String
  | setting other value => if other = key then some value else none
  | unknown _ => none

/-- The last value that arguments give for a key. -/
def lastValue? (key : Key) (args : List Argument) : Option String :=
  (args.filterMap (Argument.value? key)).getLast?

@[simp] theorem lastValue?_nil (key : Key) : lastValue? key [] = none := rfl

/-- The last argument decides about its own key and about no other. -/
theorem lastValue?_append_setting (key other : Key) (value : String) (args : List Argument) :
    lastValue? key (args ++ [.setting other value]) =
      if other = key then some value else lastValue? key args := by
  unfold lastValue?
  split <;> simp [Argument.value?, *]

@[simp] theorem lastValue?_append_unknown (key : Key) (text : String) (args : List Argument) :
    lastValue? key (args ++ [.unknown text]) = lastValue? key args := by
  simp [lastValue?, Argument.value?]

/-- A last value is the value of an argument. -/
theorem mem_of_lastValue? {key : Key} {args : List Argument} {value : String}
    (h : lastValue? key args = some value) : .setting key value ∈ args := by
  obtain ⟨arg, harg, hvalue⟩ := List.mem_filterMap.1 (List.mem_of_getLast? h)
  cases arg with
  | unknown text => cases hvalue
  | setting other text =>
    rw [Argument.value?] at hvalue
    split at hvalue
    case isTrue h => cases hvalue; exact h ▸ harg
    case isFalse => cases hvalue

/-! ## Reading arguments -/

namespace Settings

/-- The settings that one value of each key gives. A value that is unfit gives none. -/
def ofValues (last : Key → Option String) : Settings where
  primary := (last .primary).bind fun value => (parsePlace value).toOption
  secondary := (last .secondary).bind fun value => (parsePlace value).toOption
  mountPrimary := (last .mountPrimary).bind fun value => (parseMount value).toOption
  mountSecondary := (last .mountSecondary).bind fun value => (parseMount value).toOption
  autoPartition := (last .autoPartition).bind fun value => (parseBool value).toOption
  kind := (last .kind).bind fun value => (parseKind value).toOption

/-- An unfit value is refused, whatever was said before, and no other is. -/
theorem set_eq_error_iff {s : Settings} {key : Key} {value : String} {err : ConfigError} :
    s.set key value = .error err ↔ key.fault? value = some err := by
  cases key <;> exact map_eq_error_iff _

/-- A fit value takes the place of the last one of its key. -/
theorem set_ofValues {key : Key} {value : String} (h : key.fault? value = none)
    (last : Key → Option String) :
    (ofValues last).set key value =
      .ok (ofValues fun k => if k = key then some value else last k) := by
  cases key <;> obtain ⟨read, hread⟩ := ok_of_no_refusal h <;>
    simp [set, ofValues, hread, Except.map, Except.toOption]

/-- Arguments are read one part after the other. -/
theorem value_read_append (s : Settings) (args more : List Argument) :
    (s.read (args ++ more)).value = (s.read args).value.bind fun s => (s.read more).value := by
  induction args generalizing s with
  | nil => rfl
  | cons arg args ih =>
    cases arg with
    | unknown text => exact ih s
    | setting key value =>
      simp only [List.cons_append, read, Noted.value_bind]
      cases s.set key value with
      | error err => rfl
      | ok s => exact ih s

/-- The first unfit value is why the reading fails, if it fails. -/
theorem read_eq_error_iff {s : Settings} {args : List Argument} {err : ConfigError} :
    (s.read args).value = .error err ↔ firstFault? args = some err := by
  induction args generalizing s with
  | nil => simp [read, firstFault?]
  | cons arg args ih =>
    cases arg with
    | unknown text => exact ih
    | setting key value =>
      simp only [read, Noted.value_bind, firstFault?, List.findSome?_cons, Argument.fault?]
      cases hs : s.set key value with
      | error err' => simp [set_eq_error_iff.1 hs]
      | ok s =>
        have hfit : key.fault? value = none := by
          rw [Option.eq_none_iff_forall_ne_some]
          intro err' hfault
          rw [set_eq_error_iff.2 hfault] at hs
          cases hs
        rw [hfit]
        exact ih

/-- Arguments without an unfit value come to the settings of their last values. -/
theorem read_eq_ofValues {args : List Argument} (h : firstFault? args = none) :
    (Settings.read {} args).value = .ok (ofValues fun key => lastValue? key args) := by
  -- The last argument overrides those before it, so the induction takes it off.
  induction args using List.reverseRecOn with
  | nil => rfl
  | append_singleton args arg ih =>
    rw [firstFault?, List.findSome?_append, Option.or_eq_none_iff] at h
    rw [value_read_append, ih h.1]
    cases arg with
    | unknown text => simp [Except.bind, read]
    | setting key value =>
      have hfit : key.fault? value = none := by simpa [Argument.fault?] using h.2
      simp only [Except.bind, read, Noted.value_bind, set_ofValues hfit, Noted.value_pure,
        lastValue?_append_setting, eq_comm]

/-- Where every value could be read, what is left to complain about is the row of partitions. -/
theorem config_error {s : Settings} {err : ConfigError} (h : s.config = .error err) :
    (∃ key : Key, err = .missingPartition key.text) ∨ ∃ reason, err = .layout reason := by
  unfold config at h
  split at h
  case h_1 err' hs =>
    obtain rfl := Except.error.inj h
    unfold partitions at hs
    split at hs
    case isTrue => exact .inl ⟨.mountPrimary, (Except.error.inj hs).symm⟩
    case isFalse =>
      split at hs
      case isTrue => exact .inl ⟨.mountSecondary, (Except.error.inj hs).symm⟩
      case isFalse =>
        split at hs
        case h_2 => exact .inl ⟨.secondary, (Except.error.inj hs).symm⟩
        all_goals cases hs
  case h_2 specs _ =>
    simp only at h
    split at h
    case h_1 reason _ => exact .inr ⟨reason, (Except.error.inj h).symm⟩
    case h_2 => cases h

end Settings

/-! ## Command lines -/

/-- What a command line describes, as a function of its first unfit value and of the last value of
each key. -/
theorem value_parse (line : String) :
    (parse line).value =
      match firstFault? (arguments line) with
      | some err => .error err
      | none => (Settings.ofValues fun key => lastValue? key (arguments line)).config := by
  change (Settings.read {} (arguments line)).value.bind Settings.config = _
  cases h : firstFault? (arguments line) with
  | some err => rw [Settings.read_eq_error_iff.2 h]; rfl
  | none => rw [Settings.read_eq_ofValues h]; rfl

/-- Boot arguments are taken by their last values. The first value that is unfit for its key is why
a line is refused; on all other lines what comes out, a configuration or a complaint about its
partitions, is that of the settings in which every key has its last value. So it is the same for
two lines that agree on the last value of every key. -/
theorem parse_last_wins :
    (∀ line err, firstFault? (arguments line) = some err → (parse line).value = .error err) ∧
      (∀ line, firstFault? (arguments line) = none →
        (parse line).value =
            (Settings.ofValues fun key => lastValue? key (arguments line)).config ∧
          ((∃ c, (parse line).value = .ok c) ∨
            (∃ key : Key, (parse line).value = .error (.missingPartition key.text)) ∨
            ∃ reason, (parse line).value = .error (.layout reason))) ∧
      ∀ line line', firstFault? (arguments line) = none → firstFault? (arguments line') = none →
        (∀ key, lastValue? key (arguments line) = lastValue? key (arguments line')) →
        (parse line).value = (parse line').value := by
  refine ⟨fun line err h => ?_, fun line h => ⟨?_, ?_⟩, fun line line' h h' hlast => ?_⟩
  · rw [value_parse, h]
  · rw [value_parse, h]
  · cases hparse : (parse line).value with
    | ok c => exact .inl ⟨c, rfl⟩
    | error err =>
      rw [value_parse, h] at hparse
      simpa using Settings.config_error hparse
  · rw [value_parse, value_parse, h, h']
    exact congrArg (fun last => (Settings.ofValues last).config) (funext hlast)

/-- Of two unfit values the first is reported, of two sizes the last one is taken and leaves the
mount point, and other words, other blanks, another order and an earlier value make no
difference. -/
theorem parse_last_wins_of_lines :
    (parse "storage.type=0 storage.primary=1T").value = .error (.invalidType "0") ∧
      (parse "storage.primary=1M storage.mount.primary=/data storage.primary=2M").value =
        .ok ⟨[⟨1, 0, 2097152, 0x83, "/data"⟩], false⟩ ∧
      ((∃ c, (parse "storage.secondary=1M").value = .ok c) ∨
        (∃ key : Key, (parse "storage.secondary=1M").value = .error (.missingPartition key.text)) ∨
        ∃ reason, (parse "storage.secondary=1M").value = .error (.layout reason)) ∧
      (parse "storage.primary=1M\tstorage.type=7 storage.primary=4M").value =
        (parse " storage.primary=4M\u3000quiet root=/dev/sda storage.type=7").value := by
  have hfaulty : arguments "storage.type=0 storage.primary=1T" =
      [.setting .kind "0", .setting .primary "1T"] := by decide +kernel
  have hrepeated : arguments "storage.primary=1M storage.mount.primary=/data storage.primary=2M" =
      [.setting .primary "1M", .setting .mountPrimary "/data", .setting .primary "2M"] := by
    decide +kernel
  have hlone : arguments "storage.secondary=1M" = [.setting .secondary "1M"] := by decide +kernel
  have hfirst : arguments "storage.primary=1M\tstorage.type=7 storage.primary=4M" =
      [.setting .primary "1M", .setting .kind "7", .setting .primary "4M"] := by decide +kernel
  have hsecond : arguments " storage.primary=4M\u3000quiet root=/dev/sda storage.type=7" =
      [.setting .primary "4M", .unknown "quiet", .unknown "root=/dev/sda", .setting .kind "7"] := by
    decide +kernel
  refine ⟨parse_last_wins.1 _ _ ?_, (parse_last_wins.2.1 _ ?_).1.trans ?_,
    (parse_last_wins.2.1 _ ?_).2, parse_last_wins.2.2 _ _ ?_ ?_ fun key => ?_⟩
  · rw [hfaulty]; decide
  · rw [hrepeated]; decide
  · rw [hrepeated]; decide +kernel
  · rw [hlone]; decide
  · rw [hfirst]; decide
  · rw [hsecond]; decide
  · rw [hfirst, hsecond]
    cases key <;> rfl

end DiskBringup.BootArgs
