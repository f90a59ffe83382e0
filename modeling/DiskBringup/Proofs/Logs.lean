import DiskBringup.Storage.Slot

/-!
# Logs: how a script may end

`x.Runs log a` says that the script `x` ends with the value `a` if its requests are answered as in
`log`, whoever answers them; so what holds of all logs holds in all surroundings
(`Script.runs_trace`). A run of a sequence is a run of its first part and one of its second
(`Script.runs_bind_iff`), and a run of steps in order is `InOrder`. `x.Ends q` says that `q` holds
of every log and value of a run, and has a rule for each way in which scripts are put together.
Where the answers come from a state, `Script.Replays` follows the state along a log.
-/

namespace DiskBringup

namespace Script

variable {Op : Type} {Ans : Op → Type} {α β σ : Type} {log : List ((op : Op) × Ans op)}

/-! ## Runs -/

/-- The script ends with a value if its requests are answered as in the log. -/
inductive Runs : Script Ans α → List ((op : Op) × Ans op) → α → Prop
  /-- there is nothing to request -/
  | done (a : α) : Runs (.done a) [] a
  /-- the answer decides how the script goes on -/
  | call {op : Op} {next : Ans op → Script Ans α} {log : List ((op : Op) × Ans op)} {a : α}
    (r : Ans op) (h : Runs (next r) log a) : Runs (.call op next) (⟨op, r⟩ :: log) a

theorem runs_pure_iff {a b : α} : (pure a : Script Ans α).Runs log b ↔ log = [] ∧ b = a := by
  constructor
  · rintro ⟨⟩
    exact ⟨rfl, rfl⟩
  · rintro ⟨rfl, rfl⟩
    exact .done b

theorem runs_pure_pair_iff {a a' : α} {b b' : β} :
    (pure (a, b) : Script Ans (α × β)).Runs log (a', b') ↔ log = [] ∧ a' = a ∧ b' = b := by
  rw [runs_pure_iff, Prod.mk.injEq]

theorem runs_request_iff {op : Op} {r : Ans op} :
    (request op : Script Ans (Ans op)).Runs log r ↔ log = [⟨op, r⟩] := by
  constructor
  · rintro ⟨⟩
    rename_i h
    cases h
    rfl
  · rintro rfl
    exact .call r (.done r)

/-- A sequence runs its parts one after the other. -/
theorem runs_bind_iff {x : Script Ans α} {f : α → Script Ans β} {b : β} :
    (x >>= f).Runs log b ↔
      ∃ log₁ a log₂, x.Runs log₁ a ∧ (f a).Runs log₂ b ∧ log = log₁ ++ log₂ := by
  induction x generalizing log with
  | done a =>
    constructor
    · intro h
      exact ⟨[], a, log, .done a, h, rfl⟩
    · rintro ⟨log₁, a', log₂, ⟨⟩, h, rfl⟩
      exact h
  | call op next ih =>
    constructor
    · rintro ⟨⟩
      rename_i log r h
      obtain ⟨log₁, a, log₂, h₁, h₂, rfl⟩ := (ih r).1 h
      exact ⟨⟨op, r⟩ :: log₁, a, log₂, .call r h₁, h₂, rfl⟩
    · rintro ⟨log₁, a, log₂, h₁, h₂, rfl⟩
      cases h₁ with
      | call r h₁ => exact .call r ((ih r).2 ⟨_, a, log₂, h₁, h₂, rfl⟩)

/-- A request runs before what follows it. -/
theorem runs_request_bind_iff {op : Op} {f : Ans op → Script Ans β} {b : β} :
    ((request op : Script Ans (Ans op)) >>= f).Runs log b ↔
      ∃ r log', (f r).Runs log' b ∧ log = ⟨op, r⟩ :: log' := by
  rw [runs_bind_iff]
  constructor
  · rintro ⟨log₁, r, log₂, h₁, h₂, rfl⟩
    obtain rfl := runs_request_iff.1 h₁
    exact ⟨r, log₂, h₂, rfl⟩
  · rintro ⟨r, log', h, rfl⟩
    exact ⟨_, r, log', runs_request_iff.2 rfl, h, rfl⟩

/-- Whoever answers, a script runs by what it is answered. -/
theorem runs_trace (handle : (op : Op) → σ → Ans op × σ) (x : Script Ans α) (s : σ) :
    x.Runs (x.trace handle s) (x.run handle s).1 := by
  induction x generalizing s with
  | done a => exact .done a
  | call op next ih => exact .call _ (ih _ _)

/-- A run makes only the requests that the script can make. -/
theorem Runs.only {x : Script Ans α} {p : Op → Prop} {a : α} (h : x.Runs log a) (hx : x.Only p) :
    ∀ e ∈ log, p e.1 := by
  induction h with
  | done a => exact fun e he => absurd he List.not_mem_nil
  | call r h ih => exact List.forall_mem_cons.2 ⟨hx.1, ih (hx.2 r)⟩

/-! ## All runs -/

/-- However its requests are answered, the script ends with a log and a value that satisfy `q`. -/
def Ends (x : Script Ans α) (q : List ((op : Op) × Ans op) → α → Prop) : Prop :=
  ∀ (log : List ((op : Op) × Ans op)) (a : α), x.Runs log a → q log a

theorem ends_pure {a : α} {q : List ((op : Op) × Ans op) → α → Prop} (h : q [] a) :
    (pure a : Script Ans α).Ends q := by
  intro log b hrun
  obtain ⟨rfl, rfl⟩ := runs_pure_iff.1 hrun
  exact h

/-- A sequence ends as its second part does, on what the first part ends with. -/
theorem Ends.bind {x : Script Ans α} {f : α → Script Ans β}
    {p : List ((op : Op) × Ans op) → α → Prop} {q : List ((op : Op) × Ans op) → β → Prop}
    (hx : x.Ends p)
    (hf : ∀ log₁ a, p log₁ a → (f a).Ends fun log₂ b => q (log₁ ++ log₂) b) : (x >>= f).Ends q := by
  intro log b hrun
  obtain ⟨log₁, a, log₂, h₁, h₂, rfl⟩ := runs_bind_iff.1 hrun
  exact hf log₁ a (hx log₁ a h₁) log₂ b h₂

/-- After a request a script ends as its answer decides. -/
theorem ends_request_bind {op : Op} {f : Ans op → Script Ans β}
    {q : List ((op : Op) × Ans op) → β → Prop}
    (hf : ∀ r, (f r).Ends fun log b => q (⟨op, r⟩ :: log) b) :
    ((request op : Script Ans (Ans op)) >>= f).Ends q := by
  intro log b hrun
  obtain ⟨r, log', h, rfl⟩ := runs_request_bind_iff.1 hrun
  exact hf r log' b h

theorem Ends.imp {x : Script Ans α} {p q : List ((op : Op) × Ans op) → α → Prop} (h : x.Ends p)
    (himp : ∀ log a, p log a → q log a) : x.Ends q :=
  fun log a hrun => himp log a (h log a hrun)

/-- What a script ends with in two respects, it ends with in both. -/
theorem Ends.and {x : Script Ans α} {p q : List ((op : Op) × Ans op) → α → Prop} (hp : x.Ends p)
    (hq : x.Ends q) : x.Ends fun log a => p log a ∧ q log a :=
  fun log a hrun => ⟨hp log a hrun, hq log a hrun⟩

/-- A script ends with a log of requests that it can make. -/
theorem Only.ends {x : Script Ans α} {p : Op → Prop} (hx : x.Only p) :
    x.Ends fun log _ => ∀ e ∈ log, p e.1 :=
  fun _ _ hrun => hrun.only hx

/-! ## Answers from a state -/

/-- From one state to another, a state answers the requests of a log as the log has it. -/
inductive Replays (handle : (op : Op) → σ → Ans op × σ) : σ → List ((op : Op) × Ans op) → σ → Prop
  /-- nothing is requested -/
  | nil (s : σ) : Replays handle s [] s
  /-- one request, and the others on the state it leaves -/
  | cons {op : Op} {s s' : σ} {log : List ((op : Op) × Ans op)}
    (h : Replays handle (handle op s).2 log s') :
    Replays handle s (⟨op, (handle op s).1⟩ :: log) s'

variable {handle : (op : Op) → σ → Ans op × σ} {s s' : σ}

theorem replays_trace (x : Script Ans α) (s : σ) :
    Replays handle s (x.trace handle s) (x.run handle s).2 := by
  induction x generalizing s with
  | done a => exact .nil s
  | call op next ih => exact .cons (ih _ _)

theorem Replays.of_append {log₁ log₂ : List ((op : Op) × Ans op)}
    (h : Replays handle s (log₁ ++ log₂) s') :
    ∃ s₁, Replays handle s log₁ s₁ ∧ Replays handle s₁ log₂ s' := by
  induction log₁ generalizing s with
  | nil => exact ⟨s, .nil s, h⟩
  | cons e rest ih =>
    cases h with
    | cons h =>
      obtain ⟨s₁, h₁, h₂⟩ := ih h
      exact ⟨s₁, .cons h₁, h₂⟩

/-- The run of a script along a log is its run from the state that answers so. -/
theorem Runs.run_eq {x : Script Ans α} {a : α} (h : x.Runs log a)
    (hlog : Replays handle s log s') : x.run handle s = (a, s') := by
  induction h generalizing s with
  | done a =>
    cases hlog
    rfl
  | call r h ih =>
    cases hlog with
    | cons hlog => exact ih hlog

end Script

/-! ## Steps in order -/

/-- Requests of a routine with their answers, oldest first. -/
abbrev Routine.Log : Type := List ((r : Request) × r.Answer)

/-- How steps on the items of a list may go, `R` telling of a single step what it does with its
item: in order, up to the first that does not succeed. -/
inductive InOrder {ε β : Type} (R : β → Routine.Log → Outcome ε Unit → β → Prop) :
    List β → Routine.Log → Outcome ε Unit → List β → Prop
  /-- all steps were taken -/
  | nil : InOrder R [] [] (.ok ()) []
  /-- a step did not succeed -/
  | stop {item item' : β} {rest : List β} {log : Routine.Log} {ending : Outcome ε Unit}
    (h : R item log ending item') (hne : ending ≠ .ok ()) :
    InOrder R (item :: rest) log ending (item' :: rest)
  /-- a step succeeded, and the others follow -/
  | cons {item item' : β} {rest rest' : List β} {log log' : Routine.Log} {ending : Outcome ε Unit}
    (h : R item log (.ok ()) item') (hrest : InOrder R rest log' ending rest') :
    InOrder R (item :: rest) (log ++ log') ending (item' :: rest')

section InOrder

variable {ε β γ : Type} {R : β → Routine.Log → Outcome ε Unit → β → Prop}
  {S : γ → Routine.Log → Outcome ε Unit → γ → Prop} {items items' : List β} {log : Routine.Log}
  {ending : Outcome ε Unit}

/-- Steps seen through a function on their items. -/
theorem InOrder.map (f : β → γ) (hf : ∀ {i log o i'}, R i log o i' → S (f i) log o (f i'))
    (h : InOrder R items log ending items') :
    InOrder S (items.map f) log ending (items'.map f) := by
  induction h with
  | nil => exact .nil
  | stop h hne => exact .stop (hf h) hne
  | cons h _ ih => exact .cons (hf h) ih

/-- Steps whose failures are put in other words. -/
theorem InOrder.mapFail {ε' : Type} {S : β → Routine.Log → Outcome ε' Unit → β → Prop} (f : ε → ε')
    (hR : ∀ {i log o i'}, R i log o i' → S i log (o.mapFail f) i')
    (h : InOrder R items log ending items') :
    InOrder S items log (ending.mapFail f) items' := by
  induction h with
  | nil => exact .nil
  | @stop i i' rest log ending h hne =>
    refine .stop (hR h) ?_
    cases ending with
    | ok u => exact absurd rfl hne
    | fail err => simp
    | overflow o => simp
  | cons h _ ih => exact .cons (hR h) ih

theorem InOrder.imp {S : β → Routine.Log → Outcome ε Unit → β → Prop}
    (hR : ∀ {i log o i'}, R i log o i' → S i log o i') (h : InOrder R items log ending items') :
    InOrder S items log ending items' := by
  have hmap := h.map id hR
  rwa [List.map_id, List.map_id] at hmap

/-- A property of items that every step keeps is kept. Of the requests some property may be
known. -/
theorem InOrder.forall_mem {p : β → Prop} {q : (r : Request) × r.Answer → Prop}
    (h : InOrder R items log ending items') (hlog : ∀ e ∈ log, q e)
    (hstep : ∀ {i log o i'}, R i log o i' → (∀ e ∈ log, q e) → p i → p i')
    (hitems : ∀ i ∈ items, p i) : ∀ i ∈ items', p i := by
  induction h with
  | nil => exact hitems
  | stop h _ =>
    obtain ⟨hi, hrest⟩ := List.forall_mem_cons.1 hitems
    exact List.forall_mem_cons.2 ⟨hstep h hlog hi, hrest⟩
  | cons h _ ih =>
    obtain ⟨hi, hrest⟩ := List.forall_mem_cons.1 hitems
    obtain ⟨hlog₁, hlog₂⟩ := List.forall_mem_append.1 hlog
    exact List.forall_mem_cons.2 ⟨hstep h hlog₁ hi, ih hlog₂ hrest⟩

/-- A property of requests that those of every step have, where another one may be known. -/
theorem InOrder.forall_log {p q : (r : Request) × r.Answer → Prop}
    (h : InOrder R items log ending items') (hlog : ∀ e ∈ log, q e)
    (hstep : ∀ {i log o i'}, i ∈ items → R i log o i' → (∀ e ∈ log, q e) → ∀ e ∈ log, p e) :
    ∀ e ∈ log, p e := by
  induction h with
  | nil => exact fun e he => absurd he List.not_mem_nil
  | stop h _ => exact hstep List.mem_cons_self h hlog
  | cons h _ ih =>
    obtain ⟨hlog₁, hlog₂⟩ := List.forall_mem_append.1 hlog
    exact List.forall_mem_append.2 ⟨hstep List.mem_cons_self h hlog₁,
      ih hlog₂ fun hi => hstep (List.mem_cons_of_mem _ hi)⟩

/-- Where a state answers, a relation between states that every step keeps holds of the whole. Of
the requests some property may be known. -/
theorem InOrder.replays {σ : Type} {handle : (r : Request) → σ → r.Answer × σ} {s s' : σ}
    {r : σ → σ → Prop} {q : (r : Request) × r.Answer → Prop}
    (h : InOrder R items log ending items') (hlog : ∀ e ∈ log, q e)
    (hs : Script.Replays handle s log s') (hrefl : ∀ s, r s s)
    (htrans : ∀ {s s' s''}, r s s' → r s' s'' → r s s'')
    (hstep : ∀ {i log o i' s s'}, i ∈ items → R i log o i' → (∀ e ∈ log, q e) →
      Script.Replays handle s log s' → r s s') : r s s' := by
  induction h generalizing s with
  | nil =>
    cases hs
    exact hrefl s'
  | stop h _ => exact hstep List.mem_cons_self h hlog hs
  | cons h _ ih =>
    obtain ⟨hlog₁, hlog₂⟩ := List.forall_mem_append.1 hlog
    obtain ⟨s₁, hs₁, hs₂⟩ := hs.of_append
    exact htrans (hstep List.mem_cons_self h hlog₁ hs₁)
      (ih hlog₂ hs₂ fun hi => hstep (List.mem_cons_of_mem _ hi))

/-- What every step keeps of its item, all items keep in order. -/
theorem InOrder.map_eq {f : β → γ} (h : InOrder R items log ending items')
    (hstep : ∀ {i log o i'}, R i log o i' → f i' = f i) : items'.map f = items.map f := by
  induction h with
  | nil => rfl
  | stop h _ => rw [List.map_cons, List.map_cons, hstep h]
  | cons h _ ih => rw [List.map_cons, List.map_cons, hstep h, ih]

/-- The step that does not succeed is the last. It is also the first, or a step before it has
succeeded. -/
theorem InOrder.exists_last (h : InOrder R items log ending items') (hne : ending ≠ .ok ()) :
    ∃ before part i i', log = before ++ part ∧ i ∈ items ∧ R i part ending i' ∧
      (before = [] ∨ ∃ j ∈ items, ∃ log j', R j log (.ok ()) j') := by
  induction h with
  | nil => exact absurd rfl hne
  | @stop i i' rest log ending h _ =>
    exact ⟨[], log, i, i', rfl, List.mem_cons_self, h, .inl rfl⟩
  | @cons i i' rest rest' log log' ending h _ ih =>
    obtain ⟨before, part, j, j', rfl, hj, hlast, -⟩ := ih hne
    exact ⟨log ++ before, part, j, j', (List.append_assoc ..).symm, List.mem_cons_of_mem _ hj,
      hlast, .inr ⟨i, List.mem_cons_self, log, i', h⟩⟩

end InOrder

/-- A run of steps taken in order is one of single steps. -/
theorem runs_inOrder {ε β : Type} {step : β → Routine (Outcome ε Unit × β)} {items items' : List β}
    {log : Routine.Log} {ending : Outcome ε Unit}
    (h : (inOrder step items).Runs log (ending, items')) :
    InOrder (fun i log o i' => (step i).Runs log (o, i')) items log ending items' := by
  induction items generalizing log ending items' with
  | nil =>
    obtain ⟨rfl, rfl, rfl⟩ := Script.runs_pure_pair_iff.1 h
    exact .nil
  | cons item rest ih =>
    obtain ⟨log₁, ⟨o, item'⟩, log₂, hstep, hgo, rfl⟩ := Script.runs_bind_iff.1 h
    cases o with
    | ok u =>
      obtain ⟨log₂, ⟨o, rest'⟩, log₃, hrest, hend, rfl⟩ := Script.runs_bind_iff.1 hgo
      obtain ⟨rfl, rfl, rfl⟩ := Script.runs_pure_pair_iff.1 hend
      rw [List.append_nil]
      exact .cons hstep (ih hrest)
    | fail err =>
      obtain ⟨rfl, rfl, rfl⟩ := Script.runs_pure_pair_iff.1 hgo
      rw [List.append_nil]
      exact .stop hstep (by simp)
    | overflow o =>
      obtain ⟨rfl, rfl, rfl⟩ := Script.runs_pure_pair_iff.1 hgo
      rw [List.append_nil]
      exact .stop hstep (by simp)

end DiskBringup
