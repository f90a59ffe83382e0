/-!
# Outcomes: success, refusal, overflow

An operation on words and rows of bytes can end in three ways: with a value, with a refusal that
its caller may handle, or in an overflow, which nothing handles: a number is no word, or a row of
bytes is longer than any buffer. `Outcome` keeps the last two apart, so that "this cannot overflow"
is a statement about a value: `Outcome.bind_eq_ok`, `Outcome.bind_eq_fail` and
`Outcome.bind_eq_overflow` say through which step each ending came, and `Outcome.Refused p` says
that there is no value, and an overflow only where `p` holds. Operations that cannot overflow return
an `Except`, and `Outcome.ofExcept` puts them beside the others.
-/

namespace DiskBringup

/-- What did not fit. -/
inductive Overflow where
  /-- a sum, in 64 bits -/
  | add
  /-- a product, in 64 bits -/
  | multiply
  /-- a row of bytes, in a buffer -/
  | buffer
  deriving DecidableEq, Repr

/-- How an overflow is reported. -/
def Overflow.message : Overflow → String
  | .add => "attempt to add with overflow"
  | .multiply => "attempt to multiply with overflow"
  | .buffer => "capacity overflow"

/-- The ending of an operation that may refuse with an `ε` and may overflow. -/
inductive Outcome (ε α : Type) where
  /-- it succeeded -/
  | ok (value : α)
  /-- it refused -/
  | fail (error : ε)
  /-- something did not fit -/
  | overflow (what : Overflow)
  deriving DecidableEq, Repr

namespace Outcome

variable {ε ε' α β : Type}

/-- Go on from a success; keep any other ending. -/
protected def bind : Outcome ε α → (α → Outcome ε β) → Outcome ε β
  | .ok a, f => f a
  | .fail e, _ => .fail e
  | .overflow o, _ => .overflow o

instance : Monad (Outcome ε) where
  pure := .ok
  bind := Outcome.bind

@[simp] theorem pure_eq (a : α) : (pure a : Outcome ε α) = .ok a := rfl

@[simp] theorem ok_bind (a : α) (f : α → Outcome ε β) : (Outcome.ok a >>= f) = f a := rfl

@[simp] theorem fail_bind (e : ε) (f : α → Outcome ε β) : (Outcome.fail e >>= f) = .fail e := rfl

@[simp] theorem overflow_bind (o : Overflow) (f : α → Outcome ε β) :
    (Outcome.overflow o >>= f) = .overflow o := rfl

instance : LawfulMonad (Outcome ε) :=
  LawfulMonad.mk' (Outcome ε) (fun x => by cases x <;> rfl) (fun _ _ => rfl)
    (fun x _ _ => by cases x <;> rfl)

/-- A sequence succeeds through a success of its first part. -/
theorem bind_eq_ok {x : Outcome ε α} {f : α → Outcome ε β} {b : β} :
    (x >>= f) = .ok b ↔ ∃ a, x = .ok a ∧ f a = .ok b := by
  cases x <;> simp

/-- A sequence refuses in its first part, or after it. -/
theorem bind_eq_fail {x : Outcome ε α} {f : α → Outcome ε β} {e : ε} :
    (x >>= f) = .fail e ↔ x = .fail e ∨ ∃ a, x = .ok a ∧ f a = .fail e := by
  cases x <;> simp

/-- A sequence overflows in its first part, or after it. -/
theorem bind_eq_overflow {x : Outcome ε α} {f : α → Outcome ε β} {o : Overflow} :
    (x >>= f) = .overflow o ↔ x = .overflow o ∨ ∃ a, x = .ok a ∧ f a = .overflow o := by
  cases x <;> simp

/-- The ending of an operation that does not overflow. -/
def ofExcept : Except ε α → Outcome ε α
  | .ok a => .ok a
  | .error e => .fail e

@[simp] theorem ofExcept_ok (a : α) : (ofExcept (.ok a) : Outcome ε α) = .ok a := rfl

@[simp] theorem ofExcept_error (e : ε) : (ofExcept (.error e) : Outcome ε α) = .fail e := rfl

theorem ofExcept_ne_overflow (x : Except ε α) (o : Overflow) : ofExcept x ≠ .overflow o := by
  cases x <;> simp [ofExcept]

/-- State a refusal in other words. -/
def mapFail (f : ε → ε') : Outcome ε α → Outcome ε' α
  | .ok a => .ok a
  | .fail e => .fail (f e)
  | .overflow o => .overflow o

@[simp] theorem mapFail_ok (f : ε → ε') (a : α) : mapFail f (.ok a) = .ok a := rfl

@[simp] theorem mapFail_fail (f : ε → ε') (e : ε) :
    (mapFail f (.fail e) : Outcome ε' α) = .fail (f e) := rfl

@[simp] theorem mapFail_overflow (f : ε → ε') (o : Overflow) :
    (mapFail f (.overflow o) : Outcome ε' α) = .overflow o := rfl

/-- The operation has refused; it may have overflowed only where `p` holds. -/
inductive Refused (p : Prop) : Outcome ε α → Prop
  /-- it refused -/
  | fail (e : ε) : Refused p (.fail e)
  /-- it overflowed -/
  | overflow (o : Overflow) (hp : p) : Refused p (.overflow o)

namespace Refused

variable {p q : Prop} {x : Outcome ε α}

theorem ne_ok (h : x.Refused p) (a : α) : x ≠ .ok a := by
  cases h <;> simp

theorem exists_fail (h : x.Refused p) (hp : ¬ p) : ∃ e, x = .fail e := by
  cases h with
  | fail e => exact ⟨e, rfl⟩
  | overflow o h => exact absurd h hp

theorem mono (h : x.Refused p) (himp : p → q) : x.Refused q := by
  cases h with
  | fail e => exact .fail e
  | overflow o h => exact .overflow o (himp h)

theorem mapFail (h : x.Refused p) (f : ε → ε') : (Outcome.mapFail f x).Refused p := by
  cases h with
  | fail e => exact .fail (f e)
  | overflow o h => exact .overflow o h

theorem bind (h : x.Refused p) (f : α → Outcome ε β) : (x.bind f).Refused p := by
  cases h with
  | fail e => exact .fail e
  | overflow o h => exact .overflow o h

end Refused

end Outcome

end DiskBringup
