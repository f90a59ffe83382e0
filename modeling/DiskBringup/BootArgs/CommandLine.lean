import DiskBringup.BootArgs.Settings
import DiskBringup.Note

/-!
# Command lines

A command line is a row of words `key=value`. Words with a known key set a value, in order, and
the first value that cannot be read ends the reading; any other word is reported and passed over.
`parse` gives the configuration that a command line describes.
-/

namespace DiskBringup.BootArgs

/-- What one word of a command line is. -/
inductive Argument where
  /-- a known key with its value -/
  | setting (key : Key) (value : String)
  /-- anything else -/
  | unknown (text : String)
  deriving DecidableEq, Repr

/-- The argument that a word is. -/
def Argument.ofWord (word : List Char) : Argument :=
  match splitOnce '=' word with
  | none => .unknown (String.ofList word)
  | some (name, value) =>
    match Key.ofText? (String.ofList name) with
    | none => .unknown (String.ofList word)
    | some key => .setting key (String.ofList value)

/-- The arguments of a command line, in order. -/
def arguments (line : String) : List Argument := (words line.toList).map Argument.ofWord

/-- What is reported before a value is read. -/
def announcement (key : Key) (value : String) : List Note :=
  match key with
  | .primary => [.readingPrimary value]
  | .secondary => [.readingSecondary value]
  | .mountPrimary | .mountSecondary | .autoPartition | .kind => []

/-- Take in arguments one after the other, up to the first value that cannot be read. -/
def Settings.read (s : Settings) : List Argument → Noted (Except ConfigError Settings)
  | [] => return .ok s
  | .unknown text :: rest => do
    Noted.note (.unknownArgument text)
    s.read rest
  | .setting key value :: rest => do
    let next ← (⟨s.set key value, announcement key value⟩ : Noted _)
    match next with
    | .error err => return .error err
    | .ok s => s.read rest

/-- The configuration that a command line describes. -/
def parse (line : String) : Noted (Except ConfigError Config) := do
  let settings ← Settings.read {} (arguments line)
  return settings.bind Settings.config

/-- A configuration read from a command line is valid. -/
theorem validate_of_parse {line : String} {c : Config} (h : (parse line).value = .ok c) :
    c.validate = .ok () := by
  change (Settings.read {} (arguments line)).value.bind Settings.config = .ok c at h
  cases hs : (Settings.read {} (arguments line)).value with
  | error err => rw [hs] at h; cases h
  | ok s => rw [hs] at h; exact Settings.validate_of_config h

end DiskBringup.BootArgs
