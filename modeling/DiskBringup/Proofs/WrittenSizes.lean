import DiskBringup.BootArgs.Value
import Mathlib.Data.List.Forall2
import Mathlib.Data.Nat.Digits.Defs

/-!
# Which texts are sizes

The grammar of numbers and sizes, and the number that each text in it stands for: digits with the
value that positions give them (`Digits`), a sign and a mark of the radix before them (`Numeral`),
and a letter for a power of two after them (`SizeText`). Each reader accepts the texts of its part
of the grammar and no others, so a size is read exactly where its text is in the grammar and stands
for a word. A partition type is read where its text is a size that is a byte and not zero: no size
with a letter is one, since it is zero or too large.
-/

namespace DiskBringup.BootArgs

/-! ## The grammar -/

/-- A character is a digit of value `d`, in either case. -/
def IsDigit (radix : Nat) (c : Char) (d : Nat) : Prop :=
  d < radix ∧ (c = Nat.digitChar d ∨ c = (Nat.digitChar d).toUpper)

/-- One or more digits, the most significant first, stand for `n`. -/
def Digits (radix : Nat) (cs : List Char) (n : Nat) : Prop :=
  cs ≠ [] ∧ ∃ ds, List.Forall₂ (IsDigit radix) cs ds ∧ n = Nat.ofDigits radix ds.reverse

/-- Digits after at most one plus sign. -/
inductive Unsigned (radix : Nat) : List Char → Nat → Prop
  | bare {cs : List Char} {n : Nat} (h : Digits radix cs n) : Unsigned radix cs n
  | plus {cs : List Char} {n : Nat} (h : Digits radix cs n) : Unsigned radix ('+' :: cs) n

/-- A number in decimal, or in hexadecimal after a mark. -/
inductive Numeral : List Char → Nat → Prop
  | decimal {cs : List Char} {n : Nat} (h : Unsigned 10 cs n) : Numeral cs n
  | lower {cs : List Char} {n : Nat} (h : Unsigned 16 cs n) : Numeral ('0' :: 'x' :: cs) n
  | upper {cs : List Char} {n : Nat} (h : Unsigned 16 cs n) : Numeral ('0' :: 'X' :: cs) n

/-- At most one letter for a power of two. -/
inductive Suffix : List Char → Nat → Prop
  | none : Suffix [] 1
  | kilo {c : Char} (h : c = 'K' ∨ c = 'k') : Suffix [c] (2 ^ 10)
  | mega {c : Char} (h : c = 'M' ∨ c = 'm') : Suffix [c] (2 ^ 20)
  | giga {c : Char} (h : c = 'G' ∨ c = 'g') : Suffix [c] (2 ^ 30)

/-- A size: a number, and a letter for what it is to be multiplied with. -/
inductive SizeText : List Char → Nat → Prop
  | intro {body suffix : List Char} {n factor : Nat} (hbody : Numeral body n)
      (hsuffix : Suffix suffix factor) : SizeText (body ++ suffix) (n * factor)

/-! ## Digits -/

section

variable {radix before n d : Nat} {c : Char} {cs : List Char}

theorem toNat_digitChar (h : d < 16) :
    (Nat.digitChar d).toNat = (if d < 10 then 48 + d else 87 + d) ∧
      (Nat.digitChar d).toUpper.toNat = if d < 10 then 48 + d else 55 + d := by
  revert d
  decide

/-- Digits are read as their values, and nothing else is read as a digit. -/
theorem digit?_eq_some_iff (hradix : radix ≤ 16) :
    digit? radix c = some d ↔ IsDigit radix c d := by
  have hle : ∀ a b : Char, a ≤ b ↔ a.toNat ≤ b.toNat := fun _ _ => Iff.rfl
  have hchar : d < 16 → ((c = Nat.digitChar d ∨ c = (Nat.digitChar d).toUpper) ↔
      c.toNat = (if d < 10 then 48 + d else 87 + d) ∨
        c.toNat = if d < 10 then 48 + d else 55 + d) := fun hd => by
    rw [← (toNat_digitChar hd).1, ← (toNat_digitChar hd).2, Char.toNat_inj, Char.toNat_inj]
  unfold digit? IsDigit
  simp only [hle, Option.filter_eq_some_iff, decide_eq_true_eq, Char.reduceToNat]
  rw [and_comm, and_congr_right_iff]
  intro hd
  rw [hchar (by omega)]
  split_ifs <;> simp only [Option.some.injEq, false_iff] <;> omega

/-- A row of digits after others is read as a number, in which each of them has moved the earlier
ones up by one place. -/
theorem digitsFrom?_eq_some_iff (hradix : radix ≤ 16) :
    digitsFrom? radix before cs = some n ↔ ∃ ds, List.Forall₂ (IsDigit radix) cs ds ∧
      n = Nat.ofDigits radix ds.reverse + radix ^ ds.length * before := by
  induction cs generalizing before with
  | nil => simp [digitsFrom?, eq_comm]
  | cons c cs ih =>
    rw [digitsFrom?, Option.bind_eq_some_iff]
    simp only [digit?_eq_some_iff hradix, ih, List.forall₂_cons_left_iff]
    have hvalue : ∀ (d : Nat) (ds : List Nat),
        Nat.ofDigits radix ds.reverse + radix ^ ds.length * (radix * before + d) =
          Nat.ofDigits radix (d :: ds).reverse + radix ^ (d :: ds).length * before := by
      intro d ds
      rw [Nat.ofDigits_reverse_cons, List.length_cons, Nat.mul_add, ← Nat.mul_assoc, ← Nat.pow_succ,
        Nat.add_assoc, Nat.add_comm (radix ^ ds.length * d)]
    constructor
    · rintro ⟨d, hd, ds, hds, rfl⟩
      exact ⟨d :: ds, ⟨d, ds, hd, hds, rfl⟩, hvalue d ds⟩
    · rintro ⟨_, ⟨d, ds, hd, hds, rfl⟩, rfl⟩
      exact ⟨d, hd, ds, hds, (hvalue d ds).symm⟩

theorem digits?_eq_some_iff (hradix : radix ≤ 16) :
    digits? radix cs = some n ↔ Digits radix cs n := by
  unfold Digits
  cases cs with
  | nil => simp [digits?]
  | cons c cs =>
    have hfrom : digits? radix (c :: cs) = digitsFrom? radix 0 (c :: cs) := rfl
    rw [hfrom, digitsFrom?_eq_some_iff hradix]
    simp

/-- What is no digit at all does not stand among digits. -/
theorem Digits.not_mem (hradix : radix ≤ 16) (h : Digits radix cs n) (hc : digit? 16 c = none) :
    c ∉ cs := by
  intro hmem
  obtain ⟨-, ds, hds, -⟩ := h
  have hboth : List.Forall₂ (fun c d => (digit? 16 c).isSome ∧ IsDigit radix c d) cs ds :=
    hds.imp fun c d hd => by
      rw [(digit?_eq_some_iff (Nat.le_refl 16)).2 ⟨Nat.lt_of_lt_of_le hd.1 hradix, hd.2⟩]
      exact ⟨rfl, hd⟩
  have hsome := ((List.forall₂_and_left ..).1 hboth).1 c hmem
  rw [hc] at hsome
  cases hsome

/-! ## Numbers -/

theorem unsigned?_eq_some_iff (hradix : radix ≤ 16) :
    unsigned? radix cs = some n ↔ Unsigned radix cs n := by
  unfold unsigned?
  split
  case h_1 rest =>
    rw [digits?_eq_some_iff hradix]
    constructor
    · exact .plus
    · rintro (h | h)
      · exact absurd (List.mem_cons_self ..) (h.not_mem hradix (c := '+') rfl)
      · exact h
  case h_2 cs hsign =>
    rw [digits?_eq_some_iff hradix]
    constructor
    · exact .bare
    · rintro (h | h)
      · exact h
      · exact absurd rfl (hsign _)

/-- A letter that is no digit does not stand in a decimal number. -/
theorem Unsigned.not_mem (hradix : radix ≤ 16) (h : Unsigned radix cs n) (hc : digit? 16 c = none)
    (hsign : c ≠ '+') : c ∉ cs := by
  cases h with
  | bare h => exact h.not_mem hradix hc
  | plus h => exact List.not_mem_cons_of_ne_of_not_mem hsign (h.not_mem hradix hc)

theorem number?_eq_some_iff : number? cs = some n ↔ Numeral cs n := by
  have hmarked : ∀ {rest : List Char} {x : Char}, digit? 16 x = none → x ≠ '+' →
      ¬ Unsigned 10 ('0' :: x :: rest) n := fun hx hsign h =>
    h.not_mem (by decide) hx hsign (by simp)
  unfold number?
  split
  case h_1 rest =>
    rw [unsigned?_eq_some_iff (Nat.le_refl 16)]
    constructor
    · exact .lower
    · rintro (h | h | h)
      · exact absurd h (hmarked rfl (by decide))
      · exact h
  case h_2 rest =>
    rw [unsigned?_eq_some_iff (Nat.le_refl 16)]
    constructor
    · exact .upper
    · rintro (h | h | h)
      · exact absurd h (hmarked rfl (by decide))
      · exact h
  case h_3 cs hlower hupper =>
    rw [unsigned?_eq_some_iff (by decide)]
    constructor
    · exact .decimal
    · rintro (h | h | h)
      · exact h
      · exact absurd rfl (hlower _)
      · exact absurd rfl (hupper _)

/-- Besides digits there are only a sign and a mark of the radix in a number. -/
theorem Numeral.not_mem (h : Numeral cs n) (hc : digit? 16 c = none) (hsign : c ≠ '+')
    (hmark : c ∉ ['x', 'X']) : c ∉ cs := by
  rw [List.mem_pair, not_or] at hmark
  have hzero : c ≠ '0' := by
    rintro rfl
    cases hc
  cases h with
  | decimal h => exact h.not_mem (by decide) hc hsign
  | lower h => simp [hzero, hmark.1, h.not_mem (Nat.le_refl 16) hc hsign]
  | upper h => simp [hzero, hmark.2, h.not_mem (Nat.le_refl 16) hc hsign]

/-! ## Sizes -/

/-- The letters for powers of two are those that a size is cut before. -/
theorem suffix_iff {suffix : List Char} {factor : Nat} :
    Suffix suffix factor ↔ suffix = [] ∧ factor = 1 ∨
      ∃ c shift, suffix = [c] ∧ suffixShift? c = some shift ∧ factor = 2 ^ shift := by
  constructor
  · rintro (_ | (rfl | rfl) | (rfl | rfl) | (rfl | rfl))
    case none => exact .inl ⟨rfl, rfl⟩
    all_goals exact .inr ⟨_, _, rfl, rfl, rfl⟩
  · rintro (⟨rfl, rfl⟩ | ⟨c, shift, rfl, hc, rfl⟩)
    · exact .none
    · unfold suffixShift? at hc
      split at hc <;> cases hc <;> first | exact .kilo (by simp) | exact .mega (by simp) |
        exact .giga (by simp)

/-- A number ends in no letter for a power of two. -/
theorem Numeral.suffixShift?_eq_none (h : Numeral cs n) :
    cs.getLast?.bind suffixShift? = none := by
  rw [Option.bind_eq_none_iff]
  intro c hc
  have hmem := List.mem_of_getLast? hc
  unfold suffixShift?
  split <;> first | rfl | exact absurd hmem (h.not_mem rfl (by decide) (by decide))

theorem Numeral.sizeText (h : Numeral cs n) : SizeText cs n := by
  rw [← cs.append_nil, ← n.mul_one]
  exact ⟨h, .none⟩

theorem byteCount?_eq_some_iff : byteCount? cs = some n ↔ SizeText cs n := by
  unfold byteCount?
  constructor
  · intro h
    split at h
    case h_1 shift hshift =>
      obtain ⟨c, hc, hshift⟩ := Option.bind_eq_some_iff.1 hshift
      obtain ⟨value, hvalue, rfl⟩ := Option.map_eq_some_iff.1 h
      have hcs : cs.dropLast ++ [c] = cs := List.dropLast_append_getLast? c hc
      rw [← hcs, Nat.shiftLeft_eq]
      exact ⟨number?_eq_some_iff.1 hvalue, suffix_iff.2 (.inr ⟨c, shift, rfl, hshift, rfl⟩)⟩
    case h_2 => exact (number?_eq_some_iff.1 h).sizeText
  · rintro ⟨hbody, hsuffix⟩
    obtain ⟨rfl, rfl⟩ | ⟨c, shift, rfl, hshift, rfl⟩ := suffix_iff.1 hsuffix
    · rw [List.append_nil, Nat.mul_one, hbody.suffixShift?_eq_none]
      exact number?_eq_some_iff.2 hbody
    · rw [List.getLast?_concat, Option.bind_some, hshift, List.dropLast_concat,
        number?_eq_some_iff.2 hbody, ← Nat.shiftLeft_eq]
      rfl

/-- A small size that is not zero is a number without a letter. -/
theorem SizeText.numeral (h : SizeText cs n) (hpos : 0 < n) (hlt : n < 2 ^ 10) : Numeral cs n := by
  obtain ⟨hbody, hsuffix⟩ := h
  cases hsuffix with
  | none =>
    rw [List.append_nil, Nat.mul_one]
    exact hbody
  | kilo | mega | giga => omega

end

/-! ## Readers of texts -/

variable {text : String}

theorem parseSize_eq_ok_iff {v : UInt64} :
    parseSize text = .ok v ↔ SizeText text.toList v.toNat := by
  rw [← byteCount?_eq_some_iff, parseSize]
  cases byteCount? text.toList with
  | none => simp
  | some n =>
    have hv := v.toNat_lt_size
    by_cases h : n < UInt64.size
    · simp only [h, if_true, Except.ok.injEq, Option.some.injEq]
      rw [← UInt64.toNat_inj, UInt64.toNat_ofNat_of_lt' h]
    · simp only [h, if_false, reduceCtorEq, Option.some.injEq, false_iff]
      omega

theorem parseKind_eq_ok_iff {k : UInt8} :
    parseKind text = .ok k ↔ 0 < k.toNat ∧ Numeral text.toList k.toNat := by
  rw [← number?_eq_some_iff, parseKind]
  cases number? text.toList with
  | none => simp
  | some n =>
    have hk := k.toNat_lt_size
    by_cases h : 0 < n ∧ n < UInt8.size
    · simp only [h, and_self, if_true, Except.ok.injEq, Option.some.injEq]
      rw [← UInt8.toNat_inj, UInt8.toNat_ofNat_of_lt' h.2]
      omega
    · simp only [h, if_false, reduceCtorEq, Option.some.injEq, false_iff]
      omega

/-- A reader that refuses a text names it. -/
theorem parseSize_cases (text : String) :
    (∃ v, parseSize text = .ok v) ∨ parseSize text = .error (.invalidSize text) := by
  rw [parseSize]
  split
  · split
    · exact .inl ⟨_, rfl⟩
    · exact .inr rfl
  · exact .inr rfl

theorem parseKind_cases (text : String) :
    (∃ k, parseKind text = .ok k) ∨ parseKind text = .error (.invalidType text) := by
  rw [parseKind]
  split
  · split
    · exact .inl ⟨_, rfl⟩
    · exact .inr rfl
  · exact .inr rfl

/-- A text is read as the word that it stands for by the grammar of sizes, and every other text is
refused and named. -/
theorem parseSize_reads_grammar (text : String) :
    (∀ v : UInt64, parseSize text = .ok v ↔ SizeText text.toList v.toNat) ∧
      ((¬ ∃ n, SizeText text.toList n ∧ n ≤ 2 ^ 64 - 1) →
        parseSize text = .error (.invalidSize text)) := by
  refine ⟨fun v => parseSize_eq_ok_iff, fun hnone => ?_⟩
  obtain ⟨v, hv⟩ | herr := parseSize_cases text
  · exact absurd ⟨v.toNat, parseSize_eq_ok_iff.1 hv, Nat.le_sub_one_of_lt v.toNat_lt⟩ hnone
  · exact herr

/-- A sign after the mark of the radix, and a product that is just too large. -/
theorem parseSize_reads_grammar_to_end :
    parseSize "0X+0fK" = .ok 15360 ∧
      parseSize "17179869184g" = .error (.invalidSize "17179869184g") := by
  obtain ⟨hread, -⟩ := parseSize_reads_grammar "0X+0fK"
  obtain ⟨-, hrefused⟩ := parseSize_reads_grammar "17179869184g"
  refine ⟨(hread 15360).2 (byteCount?_eq_some_iff.1 (by decide +kernel)), hrefused ?_⟩
  rintro ⟨n, hn, hle⟩
  have hvalue : byteCount? "17179869184g".toList = some (2 ^ 64) := by decide +kernel
  rw [byteCount?_eq_some_iff.2 hn, Option.some.injEq] at hvalue
  omega

/-- A text is read as a type byte exactly where it is read as a size that is a byte and not zero,
with the same value; every other text is refused and named. -/
theorem parseKind_reads_byte_sizes (text : String) :
    (∀ n : Nat, (∃ k, parseKind text = .ok k ∧ k.toNat = n) ↔
        (∃ v, parseSize text = .ok v ∧ v.toNat = n) ∧ 1 ≤ n ∧ n ≤ 255) ∧
      ((¬ ∃ v, parseSize text = .ok v ∧ 1 ≤ v.toNat ∧ v.toNat ≤ 255) →
        parseKind text = .error (.invalidType text)) := by
  have hread : ∀ n : Nat, (∃ k, parseKind text = .ok k ∧ k.toNat = n) ↔
      (∃ v, parseSize text = .ok v ∧ v.toNat = n) ∧ 1 ≤ n ∧ n ≤ 255 := by
    intro n
    constructor
    · rintro ⟨k, hk, rfl⟩
      obtain ⟨hpos, hnumeral⟩ := parseKind_eq_ok_iff.1 hk
      have hlt := k.toNat_lt
      refine ⟨⟨k.toUInt64, parseSize_eq_ok_iff.2 ?_, k.toNat_toUInt64⟩, hpos, by omega⟩
      rw [k.toNat_toUInt64]
      exact hnumeral.sizeText
    · rintro ⟨⟨v, hv, rfl⟩, hpos, hle⟩
      have hnumeral := (parseSize_eq_ok_iff.1 hv).numeral hpos (by omega)
      have hk : (UInt8.ofNat v.toNat).toNat = v.toNat :=
        UInt8.toNat_ofNat_of_lt' (Nat.lt_succ_of_le hle)
      refine ⟨UInt8.ofNat v.toNat, parseKind_eq_ok_iff.2 ?_, hk⟩
      rw [hk]
      exact ⟨hpos, hnumeral⟩
  refine ⟨hread, fun hnone => ?_⟩
  obtain ⟨k, hk⟩ | herr := parseKind_cases text
  · obtain ⟨⟨v, hv, hvalue⟩, hpos, hle⟩ := (hread k.toNat).1 ⟨k, hk, rfl⟩
    exact absurd ⟨v, hv, by omega, by omega⟩ hnone
  · exact herr

/-- A type byte in hexadecimal, and a size that is none. -/
theorem parseKind_reads_byte_sizes_only :
    (∃ k, parseKind "0x000Fe" = .ok k ∧ k.toNat = 254) ∧
      parseKind "1K" = .error (.invalidType "1K") := by
  obtain ⟨hread, -⟩ := parseKind_reads_byte_sizes "0x000Fe"
  obtain ⟨-, hrefused⟩ := parseKind_reads_byte_sizes "1K"
  refine ⟨(hread 254).2 ⟨⟨254, by decide +kernel, rfl⟩, by decide, by decide⟩, hrefused ?_⟩
  rintro ⟨v, hv, -, hle⟩
  have hvalue : parseSize "1K" = .ok 1024 := by decide +kernel
  obtain rfl := Except.ok.inj (hv.symm.trans hvalue)
  exact absurd hle (by decide)

end DiskBringup.BootArgs
