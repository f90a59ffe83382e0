/-!
# Arithmetic on 64-bit words

Sizes, offsets and block addresses are 64-bit words. The operations here either are exact or say
that they cannot be: `add?` and `mul?` are absent where the exact result does not fit, and
`saturatingAdd` stops at the largest word. `ceilDiv` is division with the remainder rounded up.
Each has a lemma giving its value as a natural number.
-/

namespace DiskBringup.Word

theorem toNat_pos {a : UInt64} (h : a ≠ 0) : 0 < a.toNat :=
  Nat.pos_of_ne_zero fun h0 => h (UInt64.toNat.inj h0)

/-- The exact sum, if it is a word. -/
def add? (a b : UInt64) : Option UInt64 :=
  if a.toNat + b.toNat < UInt64.size then some (a + b) else none

theorem add?_eq_some_iff {a b c : UInt64} :
    add? a b = some c ↔ a.toNat + b.toNat = c.toNat := by
  rw [add?]
  constructor
  · intro h
    split at h
    · obtain rfl := Option.some.inj h
      rw [UInt64.toNat_add, Nat.mod_eq_of_lt ‹_›]
    · cases h
  · intro h
    have hlt : a.toNat + b.toNat < UInt64.size := h ▸ c.toNat_lt_size
    rw [if_pos hlt, Option.some.injEq]
    apply UInt64.toNat.inj
    rw [UInt64.toNat_add, Nat.mod_eq_of_lt hlt, h]

theorem add?_eq_none_iff {a b : UInt64} : add? a b = none ↔ UInt64.size ≤ a.toNat + b.toNat := by
  rw [add?]
  split <;> simp <;> omega

/-- The exact product, if it is a word. -/
def mul? (a b : UInt64) : Option UInt64 :=
  if a.toNat * b.toNat < UInt64.size then some (a * b) else none

theorem mul?_eq_some_iff {a b c : UInt64} :
    mul? a b = some c ↔ a.toNat * b.toNat = c.toNat := by
  rw [mul?]
  constructor
  · intro h
    split at h
    · obtain rfl := Option.some.inj h
      rw [UInt64.toNat_mul, Nat.mod_eq_of_lt ‹_›]
    · cases h
  · intro h
    have hlt : a.toNat * b.toNat < UInt64.size := h ▸ c.toNat_lt_size
    rw [if_pos hlt, Option.some.injEq]
    apply UInt64.toNat.inj
    rw [UInt64.toNat_mul, Nat.mod_eq_of_lt hlt, h]

theorem mul?_eq_none_iff {a b : UInt64} : mul? a b = none ↔ UInt64.size ≤ a.toNat * b.toNat := by
  rw [mul?]
  split <;> simp <;> omega

/-- The sum, or the largest word where the sum is larger. -/
def saturatingAdd (a b : UInt64) : UInt64 :=
  (add? a b).getD (-1)

theorem toNat_saturatingAdd (a b : UInt64) :
    (saturatingAdd a b).toNat = min (a.toNat + b.toNat) (UInt64.size - 1) := by
  rw [saturatingAdd]
  cases h : add? a b with
  | none =>
    have hle : UInt64.size - 1 ≤ a.toNat + b.toNat :=
      Nat.le_trans (Nat.sub_le _ 1) (add?_eq_none_iff.1 h)
    rw [Nat.min_eq_right hle]
    rfl
  | some c =>
    have hc := add?_eq_some_iff.1 h
    rw [hc, Nat.min_eq_left (Nat.le_sub_one_of_lt c.toNat_lt_size)]
    rfl

/-- The quotient rounded up. A quotient by zero is zero, so nothing is added to it. -/
def ceilDiv (a b : UInt64) : UInt64 :=
  if b = 0 ∨ a % b = 0 then a / b else a / b + 1

/-- A rounded-up quotient is the least number of divisors that covers the dividend. -/
theorem toNat_ceilDiv {a b : UInt64} (hb : 0 < b.toNat) :
    (ceilDiv a b).toNat = (a.toNat + b.toNat - 1) / b.toNat := by
  have hb0 : b ≠ 0 := by
    intro h
    simp [h] at hb
  have hmod : a % b = 0 ↔ a.toNat % b.toNat = 0 := by
    rw [← UInt64.toNat_inj, UInt64.toNat_mod]
    rfl
  rw [ceilDiv]
  have hdiv := Nat.div_add_mod a.toNat b.toNat
  have hlt := Nat.mod_lt a.toNat hb
  by_cases h : a.toNat % b.toNat = 0
  · rw [if_pos (Or.inr (hmod.2 h)), UInt64.toNat_div]
    symm
    apply Nat.div_eq_of_lt_le
    · rw [Nat.mul_comm]; omega
    · rw [Nat.add_mul, Nat.mul_comm]; omega
  · rw [if_neg (by simp [hb0, hmod, h]), UInt64.toNat_add, UInt64.toNat_div]
    have ha := a.toNat_lt
    have hb1 : b.toNat ≠ 1 := by
      intro h1
      rw [h1] at h
      omega
    have hle : a.toNat / b.toNat ≤ a.toNat / 2 :=
      Nat.div_le_div_left (by omega) (by omega)
    rw [Nat.mod_eq_of_lt (by simp; omega)]
    symm
    apply Nat.div_eq_of_lt_le
    · rw [Nat.mul_comm, Nat.mul_add]; simp; omega
    · simp only [UInt64.toNat_one, Nat.add_mul]; rw [Nat.mul_comm]; omega

theorem toNat_max (a b : UInt64) : (max a b).toNat = max a.toNat b.toNat := by
  change (if a ≤ b then b else a).toNat = _
  split
  · rename_i h
    rw [UInt64.le_iff_toNat_le] at h
    omega
  · rename_i h
    rw [UInt64.le_iff_toNat_le] at h
    omega

/-- The 32-bit word with these bytes, least significant first. -/
def ofBytes (b₀ b₁ b₂ b₃ : UInt8) : UInt32 :=
  UInt32.ofNat (b₀.toNat + 0x100 * b₁.toNat + 0x10000 * b₂.toNat + 0x1000000 * b₃.toNat)

/-- Byte `k` of a 32-bit word, the least significant being byte 0. -/
def byte (w : UInt32) (k : Nat) : UInt8 :=
  UInt8.ofNat (w.toNat >>> (8 * k))

theorem toNat_ofBytes (b₀ b₁ b₂ b₃ : UInt8) :
    (ofBytes b₀ b₁ b₂ b₃).toNat =
      b₀.toNat + 0x100 * b₁.toNat + 0x10000 * b₂.toNat + 0x1000000 * b₃.toNat := by
  have h₀ := b₀.toNat_lt
  have h₁ := b₁.toNat_lt
  have h₂ := b₂.toNat_lt
  have h₃ := b₃.toNat_lt
  rw [ofBytes]
  rw [UInt32.toNat_ofNat']
  apply Nat.mod_eq_of_lt
  omega

/-- A word is the one with its own four bytes. -/
@[simp] theorem ofBytes_byte (w : UInt32) :
    ofBytes (byte w 0) (byte w 1) (byte w 2) (byte w 3) = w := by
  apply UInt32.toNat.inj
  have hw := w.toNat_lt
  rw [toNat_ofBytes]
  simp only [byte, UInt8.toNat_ofNat']
  omega

end DiskBringup.Word
