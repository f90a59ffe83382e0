/-!
# Scripts: programs that make requests

A `Script` is a program that makes requests of its surroundings and goes on with their answers: a
tree with a request at every node, a branch for every answer, and values at the leaves. The
answer's type may depend on the request. A script can be `run` against a state that answers
requests, and `trace` lists the requests of that run with their answers; its requests can be
expanded into scripts over another interface (`expand`); and it can be known to make `Only`
requests of some kind, whatever the answers are.
-/

namespace DiskBringup

/-- A program over requests `Op`, a request `op` being answered by an `Ans op`. -/
inductive Script {Op : Type} (Ans : Op → Type) (α : Type) : Type where
  /-- end with a value -/
  | done (value : α)
  /-- make a request and go on with its answer -/
  | call (op : Op) (next : Ans op → Script Ans α)

namespace Script

variable {Op Op' : Type} {Ans : Op → Type} {Ans' : Op' → Type} {α β σ : Type}

/-! ## Sequencing -/

/-- Graft a continuation onto every leaf. -/
protected def bind : Script Ans α → (α → Script Ans β) → Script Ans β
  | done a, f => f a
  | call op next, f => call op fun r => (next r).bind f

instance : Monad (Script Ans) where
  pure := done
  bind := Script.bind

/-- Make one request and end with its answer. -/
def request (op : Op) : Script Ans (Ans op) := call op done

@[simp] theorem pure_eq (a : α) : (pure a : Script Ans α) = done a := rfl

@[simp] theorem done_bind (a : α) (f : α → Script Ans β) : (done a >>= f) = f a := rfl

@[simp] theorem call_bind (op : Op) (next : Ans op → Script Ans α) (f : α → Script Ans β) :
    (call op next >>= f) = call op fun r => next r >>= f := rfl

instance : LawfulMonad (Script Ans) :=
  LawfulMonad.mk' (Script Ans)
    (fun x => by
      induction x with
      | done a => rfl
      | call op next ih => exact congrArg (call op) (funext ih))
    (fun _ _ => rfl)
    (fun x f g => by
      induction x with
      | done a => rfl
      | call op next ih => exact congrArg (call op) (funext ih))

/-! ## Running -/

/-- Run a script against a state that answers its requests one after the other. -/
def run (handle : (op : Op) → σ → Ans op × σ) : Script Ans α → σ → α × σ
  | done a, s => (a, s)
  | call op next, s => (next (handle op s).1).run handle (handle op s).2

variable {handle : (op : Op) → σ → Ans op × σ}

@[simp] theorem run_done (a : α) (s : σ) : (done a : Script Ans α).run handle s = (a, s) := rfl

@[simp] theorem run_call (op : Op) (next : Ans op → Script Ans α) (s : σ) :
    (call op next).run handle s = (next (handle op s).1).run handle (handle op s).2 := rfl

@[simp] theorem run_request (op : Op) (s : σ) : (request op).run handle s = handle op s := rfl

/-- A sequence runs its parts one after the other. -/
@[simp] theorem run_bind (x : Script Ans α) (f : α → Script Ans β) (s : σ) :
    (x >>= f).run handle s = (f (x.run handle s).1).run handle (x.run handle s).2 := by
  induction x generalizing s with
  | done a => rfl
  | call op next ih => exact ih _ _

/-- The requests that a run makes, in order, with their answers. -/
def trace (handle : (op : Op) → σ → Ans op × σ) : Script Ans α → σ → List ((op : Op) × Ans op)
  | done _, _ => []
  | call op next, s =>
    ⟨op, (handle op s).1⟩ :: (next (handle op s).1).trace handle (handle op s).2

@[simp] theorem trace_done (a : α) (s : σ) : (done a : Script Ans α).trace handle s = [] := rfl

@[simp] theorem trace_request (op : Op) (s : σ) :
    (request op : Script Ans (Ans op)).trace handle s = [⟨op, (handle op s).1⟩] := rfl

/-- A sequence makes the requests of its parts one after the other. -/
@[simp] theorem trace_bind (x : Script Ans α) (f : α → Script Ans β) (s : σ) :
    (x >>= f).trace handle s =
      x.trace handle s ++ (f (x.run handle s).1).trace handle (x.run handle s).2 := by
  induction x generalizing s with
  | done a => rfl
  | call op next ih => exact congrArg (List.cons _) (ih _ _)

/-- Two states that answer every request alike, and stay related, run a script alike. -/
theorem run_related {τ : Type} {handle : (op : Op) → σ → Ans op × σ}
    {handle' : (op : Op) → τ → Ans op × τ} {related : σ → τ → Prop}
    (step : ∀ op s t, related s t → (handle op s).1 = (handle' op t).1 ∧
      related (handle op s).2 (handle' op t).2)
    (x : Script Ans α) {s : σ} {t : τ} (h : related s t) :
    x.trace handle s = x.trace handle' t ∧ (x.run handle s).1 = (x.run handle' t).1 ∧
      related (x.run handle s).2 (x.run handle' t).2 := by
  induction x generalizing s t with
  | done a => exact ⟨rfl, rfl, h⟩
  | call op next ih =>
    obtain ⟨hanswer, hrest⟩ := step op s t h
    obtain ⟨htrace, hvalue, hend⟩ := ih (handle op s).1 hrest
    simp only [trace, run_call, ← hanswer, htrace]
    exact ⟨trivial, hvalue, hend⟩

/-! ## Expanding requests -/

/-- Replace every request by a script over another interface. -/
def expand (f : (op : Op) → Script Ans' (Ans op)) : Script Ans α → Script Ans' α
  | done a => done a
  | call op next => f op >>= fun r => (next r).expand f

@[simp] theorem expand_done (f : (op : Op) → Script Ans' (Ans op)) (a : α) :
    (done a : Script Ans α).expand f = done a := rfl

@[simp] theorem expand_request (f : (op : Op) → Script Ans' (Ans op)) (op : Op) :
    (request op : Script Ans (Ans op)).expand f = f op :=
  bind_pure (f op)

theorem expand_bind (f : (op : Op) → Script Ans' (Ans op)) (x : Script Ans α)
    (g : α → Script Ans β) :
    (x >>= g).expand f = x.expand f >>= fun a => (g a).expand f := by
  induction x with
  | done a => rfl
  | call op next ih =>
    simp only [call_bind, expand, bind_assoc]
    exact congrArg (f op >>= ·) (funext ih)

/-- An expanded script runs as the script itself does where each request is answered by running
what it expands to. -/
theorem run_expand (f : (op : Op) → Script Ans' (Ans op))
    (handle : (op : Op') → σ → Ans' op × σ) (x : Script Ans α) (s : σ) :
    (x.expand f).run handle s = x.run (fun op => (f op).run handle) s := by
  induction x generalizing s with
  | done a => rfl
  | call op next ih => simp [expand, ih]

/-! ## Making only some requests -/

/-- Every request that the script can make satisfies `p`. -/
def Only (p : Op → Prop) : Script Ans α → Prop
  | done _ => True
  | call op next => p op ∧ ∀ r, (next r).Only p

@[simp] theorem only_done (p : Op → Prop) (a : α) : (done a : Script Ans α).Only p := trivial

theorem only_request {p : Op → Prop} {op : Op} (h : p op) :
    (request op : Script Ans (Ans op)).Only p :=
  ⟨h, fun _ => trivial⟩

theorem Only.bind {p : Op → Prop} {x : Script Ans α} {f : α → Script Ans β} (hx : x.Only p)
    (hf : ∀ a, (f a).Only p) : (x >>= f).Only p := by
  induction x with
  | done a => exact hf a
  | call op next ih => exact ⟨hx.1, fun r => ih r (hx.2 r)⟩

theorem Only.mono {p q : Op → Prop} {x : Script Ans α} (hx : x.Only p) (h : ∀ op, p op → q op) :
    x.Only q := by
  induction x with
  | done a => trivial
  | call op next ih => exact ⟨h op hx.1, fun r => ih r (hx.2 r)⟩

theorem only_true (x : Script Ans α) : x.Only fun _ => True := by
  induction x with
  | done a => trivial
  | call op next ih => exact ⟨trivial, ih⟩

/-- Scripts that can make only some requests, put in for requests that a script can make. -/
theorem Only.expand {p : Op → Prop} {q : Op' → Prop} {x : Script Ans α} (hx : x.Only p)
    {f : (op : Op) → Script Ans' (Ans op)} (hf : ∀ op, p op → (f op).Only q) :
    (x.expand f).Only q := by
  induction x with
  | done a => trivial
  | call op next ih => exact (hf op hx.1).bind fun r => ih r (hx.2 r)

/-- A run makes only the requests that the script can make. -/
theorem Only.of_mem_trace {p : Op → Prop} {x : Script Ans α} (hx : x.Only p) {s : σ}
    {e : (op : Op) × Ans op} (he : e ∈ x.trace handle s) : p e.1 := by
  induction x generalizing s with
  | done a => cases he
  | call op next ih =>
    rcases List.mem_cons.1 he with rfl | he
    · exact hx.1
    · exact ih _ (hx.2 _) he

/-- A property of the state that every allowed request keeps is kept by a run. -/
theorem Only.run_induction {p : Op → Prop} {x : Script Ans α} (hx : x.Only p) {inv : σ → Prop}
    (step : ∀ op s, p op → inv s → inv (handle op s).2) {s : σ} (hs : inv s) :
    inv (x.run handle s).2 := by
  induction x generalizing s with
  | done a => exact hs
  | call op next ih => exact ih _ (hx.2 _) (step op s hx.1 hs)

end Script

end DiskBringup
