/-!
# Hexadecimal text

Numbers in messages are written in hexadecimal without leading zeros, in lower or upper case, or
padded to two digits where a byte is meant.
-/

namespace DiskBringup.Hex

/-- The digits of a number, in lower case. -/
def digits (n : Nat) : List Char := Nat.toDigits 16 n

/-- A number in lower case. -/
def lower (n : Nat) : String := "0x" ++ String.ofList (digits n)

/-- A number in upper case. -/
def upper (n : Nat) : String := "0x" ++ String.ofList ((digits n).map Char.toUpper)

/-- A byte, always with two digits. -/
def byte (b : UInt8) : String :=
  let text := digits b.toNat
  "0x" ++ String.ofList (List.replicate (2 - text.length) '0' ++ text)

end DiskBringup.Hex
