import DiskBringup.BootArgs.Error
import DiskBringup.BootArgs.Words
import DiskBringup.Word

/-!
# Values of boot arguments

The values that boot arguments give: sizes, switches, partition types, places of partitions and
mount points. A number is decimal, or hexadecimal after `0x`, with at most one leading plus sign
and any number of leading zeros; a size may end in one of the letters K, M and G. Numbers are read
exactly and compared with their bound afterwards.
-/

namespace DiskBringup.BootArgs

/-! ## Numbers -/

/-- The value of a digit in the given radix, which is at most 16. -/
def digit? (radix : Nat) (c : Char) : Option Nat :=
  let value :=
    if '0' ≤ c ∧ c ≤ '9' then some (c.toNat - '0'.toNat)
    else if 'a' ≤ c ∧ c ≤ 'f' then some (c.toNat - 'a'.toNat + 10)
    else if 'A' ≤ c ∧ c ≤ 'F' then some (c.toNat - 'A'.toNat + 10)
    else none
  value.filter (· < radix)

/-- The value of a row of digits, read after digits of value `before`. -/
def digitsFrom? (radix before : Nat) : List Char → Option Nat
  | [] => some before
  | c :: rest => (digit? radix c).bind fun d => digitsFrom? radix (radix * before + d) rest

/-- One or more digits. -/
def digits? (radix : Nat) : List Char → Option Nat
  | [] => none
  | cs => digitsFrom? radix 0 cs

/-- One or more digits after at most one plus sign. -/
def unsigned? (radix : Nat) : List Char → Option Nat
  | '+' :: rest => digits? radix rest
  | cs => digits? radix cs

/-- A number, in hexadecimal after `0x` and in decimal otherwise. -/
def number? : List Char → Option Nat
  | '0' :: 'x' :: rest => unsigned? 16 rest
  | '0' :: 'X' :: rest => unsigned? 16 rest
  | cs => unsigned? 10 cs

/-! ## Sizes -/

/-- The power of two that a suffix letter stands for. -/
def suffixShift? : Char → Option Nat
  | 'K' | 'k' => some 10
  | 'M' | 'm' => some 20
  | 'G' | 'g' => some 30
  | _ => none

/-- A number of bytes as an exact number: a number, times the power that its last letter stands
for if that is a suffix. -/
def byteCount? (cs : List Char) : Option Nat :=
  match cs.getLast?.bind suffixShift? with
  | some shift => (number? cs.dropLast).map (· <<< shift)
  | none => number? cs

example : byteCount? "0x+10K".toList = some 16384 := by decide +kernel

example : byteCount? "+".toList = none := by decide +kernel

/-- A size, which is a 64-bit word. -/
def parseSize (text : String) : Except ConfigError UInt64 :=
  match byteCount? text.toList with
  | some n => if n < UInt64.size then .ok (UInt64.ofNat n) else .error (.invalidSize text)
  | none => .error (.invalidSize text)

/-! ## Switches -/

/-- A switch, in letters of either case. -/
def parseBool (text : String) : Except ConfigError Bool :=
  let lowered := String.ofList (text.toList.map Char.toLower)
  if lowered ∈ ["1", "true", "yes", "on"] then .ok true
  else if lowered ∈ ["0", "false", "no", "off"] then .ok false
  else .error (.invalidBool text)

/-! ## Partition types -/

/-- The type byte of a partition table entry; zero marks an unused entry and is none. -/
def parseKind (text : String) : Except ConfigError UInt8 :=
  match number? text.toList with
  | some n => if 0 < n ∧ n < UInt8.size then .ok (UInt8.ofNat n) else .error (.invalidType text)
  | none => .error (.invalidType text)

/-! ## Places -/

/-- Where a partition lies: its size and, if one is given, its first byte. -/
structure Place where
  /-- the number of bytes -/
  size : UInt64
  /-- the first byte, if it is given -/
  start : Option UInt64
  deriving DecidableEq, Repr

/-- A size, or a size and a first byte with `@` between. -/
def parsePlace (text : String) : Except ConfigError Place :=
  match splitOnce '@' text.toList with
  | some (size, start) => do
    let size ← parseSize (String.ofList size)
    let start ← parseSize (String.ofList start)
    return ⟨size, some start⟩
  | none => do
    let size ← parseSize text
    return ⟨size, none⟩

/-! ## Mount points -/

/-- A mount point: a slash and at least one character more. -/
def parseMount (text : String) : Except ConfigError String :=
  match text.toList with
  | '/' :: _ :: _ => .ok text
  | _ => .error (.invalidMountPoint text)

end DiskBringup.BootArgs
