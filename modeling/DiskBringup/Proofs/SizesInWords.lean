import DiskBringup.Proofs.WrittenSizes

/-!
# Sizes read byte by byte, in words

Sizes and types are read from the characters of a text, as exact numbers that are compared with a
limit at the end. A reader that goes through the bytes of the text and gives up at the first
product or sum that is not below the limit (`checkedNumber?`, `checkedByteCount?`) reads the same.
What is in the grammar has one byte for each character (`SizeText.isAscii`), so it is the same in
bytes; and a number does not get smaller by the digits that follow (`le_of_digitsFrom?`), so what
has reached the limit does not fall below it again.
-/

namespace DiskBringup.BootArgs

/-! ## Bytes -/

/-- The bytes of characters, each of them taken for a character of its own. -/
def bytes (cs : List Char) : List Char := (cs.flatMap String.utf8EncodeChar).map Char.ofUInt8

/-- Each character has one byte. -/
def IsAscii (cs : List Char) : Prop := ∀ c ∈ cs, c.toNat < 128

theorem bytes_toList (text : String) :
    bytes text.toList = text.toUTF8.data.toList.map Char.ofUInt8 := by
  have hencode : text.toUTF8 = (text.toList.flatMap String.utf8EncodeChar).toByteArray :=
    String.utf8Encode_toList.symm
  rw [hencode, List.toList_data_toByteArray, bytes]

@[simp] theorem bytes_cons (c : Char) (cs : List Char) :
    bytes (c :: cs) = (String.utf8EncodeChar c).map Char.ofUInt8 ++ bytes cs := by
  simp [bytes]

/-- A character with one byte is that byte. -/
theorem map_utf8EncodeChar {c : Char} (h : c.toNat < 128) :
    (String.utf8EncodeChar c).map Char.ofUInt8 = [c] := by
  have hle : c.val.toNat ≤ 127 := Nat.le_of_lt_succ h
  rw [String.utf8EncodeChar, if_pos hle, List.map_singleton, List.singleton_inj, ← Char.toNat_inj]
  exact Nat.mod_eq_of_lt (Nat.lt_trans h (by decide))

/-- The bytes of any other character are none of characters with one byte. -/
theorem exists_byte_ge {c : Char} (h : 128 ≤ c.toNat) :
    ∃ b ∈ (String.utf8EncodeChar c).map Char.ofUInt8, 128 ≤ b.toNat := by
  have hlast : UInt8.ofNat (c.toNat % 64 + 128) ∈ String.utf8EncodeChar c := by
    have hgt : ¬ c.val.toNat ≤ 127 := Nat.not_le.2 h
    rw [String.utf8EncodeChar, if_neg hgt, ← Char.toNat_val]
    split_ifs <;> simp
  refine ⟨_, List.mem_map_of_mem hlast, ?_⟩
  change 128 ≤ (UInt8.ofNat (c.toNat % 64 + 128)).toNat
  rw [UInt8.toNat_ofNat']
  omega

theorem bytes_eq_self {cs : List Char} (h : IsAscii cs) : bytes cs = cs := by
  induction cs with
  | nil => rfl
  | cons c cs ih =>
    rw [bytes_cons, map_utf8EncodeChar (h c (by simp)), ih fun d hd => h d (by simp [hd])]
    rfl

theorem isAscii_of_bytes {cs : List Char} (h : IsAscii (bytes cs)) : IsAscii cs := by
  intro c hc
  by_contra hge
  obtain ⟨b, hb, hbyte⟩ := exists_byte_ge (Nat.not_lt.1 hge)
  have hmem : b ∈ bytes cs := by
    rw [bytes, List.map_flatMap]
    exact List.mem_flatMap.2 ⟨c, hc, hb⟩
  exact Nat.not_le.2 (h b hmem) hbyte

/-- What is true only of characters with one byte is as true of the bytes. -/
theorem bytes_iff {p : List Char → Prop} (hp : ∀ cs, p cs → IsAscii cs) {cs : List Char} :
    p (bytes cs) ↔ p cs := by
  constructor
  · intro h
    rwa [bytes_eq_self (isAscii_of_bytes (hp _ h))] at h
  · intro h
    rwa [bytes_eq_self (hp _ h)]

/-! ## Texts of the grammar in bytes -/

section

variable {radix n : Nat} {c : Char} {cs : List Char}

theorem digit?_eq_none_of_le (h : 128 ≤ c.toNat) : digit? 16 c = none := by
  have hnot : ∀ b : Char, b.toNat < 128 → ¬ c ≤ b := fun b hb hle =>
    Nat.not_le.2 (Nat.lt_of_lt_of_le hb h) hle
  have h9 := hnot '9' (by decide)
  have hf := hnot 'f' (by decide)
  have hF := hnot 'F' (by decide)
  simp [digit?, h9, hf, hF]

/-- What the grammar has stands in one byte each. -/
theorem SizeText.isAscii (h : SizeText cs n) : IsAscii cs := by
  obtain ⟨hbody, hsuffix⟩ := h
  intro c hc
  by_contra hge
  have hge : 128 ≤ c.toNat := Nat.not_lt.1 hge
  have hne : ∀ b : Char, b.toNat < 128 → c ≠ b := fun b hb heq =>
    Nat.not_le.2 hb (heq ▸ hge)
  rcases List.mem_append.1 hc with hmem | hmem
  · have hx := hne 'x' (by decide)
    have hX := hne 'X' (by decide)
    exact hbody.not_mem (digit?_eq_none_of_le hge) (hne _ (by decide)) (by simp [hx, hX]) hmem
  · cases hsuffix with
    | none => cases hmem
    | kilo h | mega h | giga h =>
      obtain rfl := List.mem_singleton.1 hmem
      rcases h with rfl | rfl <;> exact absurd rfl (hne _ (by decide))

/-- A size is the same in bytes. -/
theorem byteCount?_bytes (cs : List Char) : byteCount? (bytes cs) = byteCount? cs := by
  ext n
  rw [byteCount?_eq_some_iff, byteCount?_eq_some_iff]
  exact bytes_iff fun _ => SizeText.isAscii

theorem number?_bytes (cs : List Char) : number? (bytes cs) = number? cs := by
  ext n
  rw [number?_eq_some_iff, number?_eq_some_iff]
  exact bytes_iff fun _ h => SizeText.isAscii (Numeral.sizeText h)

end

/-! ## Numbers below a limit -/

/-- A product or a sum, if it is below the limit. -/
def below? (limit n : Nat) : Option Nat := if n < limit then some n else none

/-- The value of a row of digits, where no product and no sum reaches the limit. -/
def digitsBelow? (limit radix before : Nat) : List Char → Option Nat
  | [] => some before
  | c :: rest => do
    let d ← digit? radix c
    let raised ← below? limit (radix * before)
    let next ← below? limit (raised + d)
    digitsBelow? limit radix next rest

/-- The radix of a number, and what follows the mark of the radix. -/
def unmarked : List Char → Nat × List Char
  | '0' :: 'x' :: rest => (16, rest)
  | '0' :: 'X' :: rest => (16, rest)
  | cs => (10, cs)

/-- What follows a plus sign, if there is one. -/
def unsigned : List Char → List Char
  | '+' :: rest => rest
  | cs => cs

/-- A number, where no product and no sum reaches the limit. -/
def checkedNumber? (limit : Nat) (cs : List Char) : Option Nat :=
  match unsigned (unmarked cs).2 with
  | [] => none
  | digits => digitsBelow? limit (unmarked cs).1 0 digits

/-- A number of bytes, where no product and no sum reaches the limit. -/
def checkedByteCount? (limit : Nat) (cs : List Char) : Option Nat :=
  match cs.getLast?.bind suffixShift? with
  | some shift => (checkedNumber? limit cs.dropLast).bind fun n => below? limit (n * 2 ^ shift)
  | none => checkedNumber? limit cs

section

variable {limit radix before n : Nat} {cs : List Char}

/-- Digits that follow do not make a number smaller. -/
theorem le_of_digitsFrom? (hradix : 0 < radix) (h : digitsFrom? radix before cs = some n) :
    before ≤ n := by
  induction cs generalizing before with
  | nil => exact Nat.le_of_eq (Option.some.inj h)
  | cons c cs ih =>
    obtain ⟨d, -, h⟩ := Option.bind_eq_some_iff.1 h
    calc before ≤ radix * before := Nat.le_mul_of_pos_left before hradix
      _ ≤ radix * before + d := Nat.le_add_right _ d
      _ ≤ n := ih h

@[simp] theorem below?_of_lt (h : n < limit) : below? limit n = some n := if_pos h

@[simp] theorem below?_of_le (h : limit ≤ n) : below? limit n = none := if_neg (Nat.not_lt.2 h)

/-- Digits are read below a limit as they are read exactly, if their value is below it. -/
theorem digitsBelow?_eq (hradix : 0 < radix) (hbefore : before < limit) :
    digitsBelow? limit radix before cs = (digitsFrom? radix before cs).bind (below? limit) := by
  induction cs generalizing before with
  | nil => rw [digitsBelow?, digitsFrom?, Option.bind_some, below?_of_lt hbefore]
  | cons c cs ih =>
    rw [digitsBelow?, digitsFrom?]
    cases digit? radix c with
    | none => rfl
    | some d =>
      simp only [Option.bind_eq_bind, Option.bind_some]
      rcases Nat.lt_or_ge (radix * before + d) limit with hnext | hnext
      · rw [below?_of_lt (Nat.lt_of_le_of_lt (Nat.le_add_right _ d) hnext), Option.bind_some,
          below?_of_lt hnext, Option.bind_some, ih hnext]
      · -- the limit is reached by the product or by the sum, and what follows stays above it
        have hleft : (below? limit (radix * before)).bind (fun raised =>
            (below? limit (raised + d)).bind fun next => digitsBelow? limit radix next cs) =
            none := by
          rcases Nat.lt_or_ge (radix * before) limit with hraised | hraised
          · rw [below?_of_lt hraised, Option.bind_some, below?_of_le hnext, Option.bind_none]
          · rw [below?_of_le hraised, Option.bind_none]
        rw [hleft, eq_comm, Option.bind_eq_none_iff]
        exact fun n hn => below?_of_le (Nat.le_trans hnext (le_of_digitsFrom? hradix hn))

theorem unsigned?_eq (radix : Nat) (cs : List Char) :
    unsigned? radix cs = digits? radix (unsigned cs) := by
  fun_cases unsigned? radix cs <;> simp [unsigned, *]

theorem number?_eq (cs : List Char) :
    number? cs = digits? (unmarked cs).1 (unsigned (unmarked cs).2) := by
  rw [← unsigned?_eq]
  fun_cases number? cs <;> simp [unmarked, *]

theorem unmarked_pos (cs : List Char) : 0 < (unmarked cs).1 := by
  fun_cases unmarked cs <;> exact Nat.zero_lt_succ _

theorem checkedNumber?_eq (hlimit : 0 < limit) (cs : List Char) :
    checkedNumber? limit cs = (number? cs).bind (below? limit) := by
  rw [number?_eq, checkedNumber?]
  cases unsigned (unmarked cs).2 with
  | nil => rfl
  | cons c digits => exact digitsBelow?_eq (unmarked_pos cs) hlimit

/-- Where a number has reached the limit, so has its product with a power of two. -/
theorem checkedByteCount?_eq (hlimit : 0 < limit) (cs : List Char) :
    checkedByteCount? limit cs = (byteCount? cs).bind (below? limit) := by
  rw [checkedByteCount?, byteCount?]
  cases cs.getLast?.bind suffixShift? with
  | none => exact checkedNumber?_eq hlimit cs
  | some shift =>
    simp only [checkedNumber?_eq hlimit]
    cases number? cs.dropLast with
    | none => rfl
    | some n =>
      rw [Option.bind_some, Option.map_some, Option.bind_some, Nat.shiftLeft_eq]
      rcases Nat.lt_or_ge n limit with hn | hn
      · rw [below?_of_lt hn, Option.bind_some]
      · rw [below?_of_le hn, Option.bind_none,
          below?_of_le (Nat.le_trans hn (Nat.le_mul_of_pos_right n (Nat.two_pow_pos shift)))]

end

/-- A size is what the bytes of its text come to in words. -/
theorem parseSize_eq_checked (text : String) :
    parseSize text =
      match checkedByteCount? UInt64.size (text.toUTF8.data.toList.map Char.ofUInt8) with
      | some n => .ok (UInt64.ofNat n)
      | none => .error (.invalidSize text) := by
  rw [← bytes_toList, checkedByteCount?_eq (by decide), byteCount?_bytes, parseSize]
  cases byteCount? text.toList with
  | none => rfl
  | some n =>
    rw [Option.bind_some]
    rcases Nat.lt_or_ge n UInt64.size with hn | hn
    · simp only [hn, if_true, below?_of_lt]
    · simp only [Nat.not_lt.2 hn, if_false, hn, below?_of_le]

/-- A type is what the bytes of its text come to in a byte, unless this is zero. -/
theorem parseKind_eq_checked (text : String) :
    parseKind text =
      match checkedNumber? UInt8.size (text.toUTF8.data.toList.map Char.ofUInt8) with
      | some n => if n = 0 then .error (.invalidType text) else .ok (UInt8.ofNat n)
      | none => .error (.invalidType text) := by
  rw [← bytes_toList, checkedNumber?_eq (by decide), number?_bytes, parseKind]
  cases number? text.toList with
  | none => rfl
  | some n =>
    rw [Option.bind_some]
    rcases Nat.lt_or_ge n UInt8.size with hn | hn
    · simp only [hn, and_true, below?_of_lt, Nat.pos_iff_ne_zero, ite_not]
    · simp only [Nat.not_lt.2 hn, and_false, if_false, hn, below?_of_le]

end DiskBringup.BootArgs
