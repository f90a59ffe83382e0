import DiskBringup.Bench.Basic
import DiskBringup.Storage.Slot

/-!
# What a run on the bench ensures

`w.Obeys p t q` says of a routine `t` run on the bench `w` that each of its requests satisfies `p`,
and that its value and the bench it leaves behind satisfy `q`. `w.Ensures t q` asks for the latter
only. The rules go along the way in which routines are put together: `Obeys.bind` for a sequence,
`obeys_request` for a single request, `obeys_inOrder` for steps taken on the items of a list. What a
routine can request whatever the answers are is added to what it ensures by `Ensures.obeys`, and
that it does make some request is `w.Requests t p`.
-/

namespace DiskBringup

namespace Bench

variable {δ φ α β ε : Type} [BlockStore δ] [FilesystemDriver φ] {w : Bench δ φ}
  {p : Request → Prop}

/-- Run on the bench, the routine makes only requests that satisfy `p`, and `q` holds of its value
and of the bench afterwards. -/
def Obeys (w : Bench δ φ) (p : Request → Prop) (t : Routine α) (q : α → Bench δ φ → Prop) : Prop :=
  (∀ e ∈ Script.trace answer t w, p e.1) ∧ q (w.run t).1 (w.run t).2

/-- Run on the bench, the routine ends with a value and a bench that satisfy `q`. -/
abbrev Ensures (w : Bench δ φ) (t : Routine α) (q : α → Bench δ φ → Prop) : Prop :=
  w.Obeys (fun _ => True) t q

theorem ensures_iff {t : Routine α} {q : α → Bench δ φ → Prop} :
    w.Ensures t q ↔ q (w.run t).1 (w.run t).2 := by
  simp [Obeys]

theorem obeys_pure {a : α} {q : α → Bench δ φ → Prop} (h : q a w) :
    w.Obeys p (pure a : Routine α) q :=
  ⟨fun _ he => absurd he List.not_mem_nil, h⟩

/-- A sequence obeys if its parts do, one after the other. -/
theorem Obeys.bind {x : Routine α} {f : α → Routine β} {r : α → Bench δ φ → Prop}
    {q : β → Bench δ φ → Prop} (hx : w.Obeys p x r)
    (hf : ∀ (a : α) (w' : Bench δ φ), r a w' → w'.Obeys p (f a) q) : w.Obeys p (x >>= f) q := by
  obtain ⟨hreq, hend⟩ := hf _ _ hx.2
  refine ⟨?_, ?_⟩
  · intro e he
    rw [Script.trace_bind, List.mem_append] at he
    rcases he with he | he
    · exact hx.1 e he
    · exact hreq e he
  · rw [run, Script.run_bind]
    exact hend

/-- What is ensured may be weakened. -/
theorem Obeys.imp {t : Routine α} {r q : α → Bench δ φ → Prop} (h : w.Obeys p t r)
    (himp : ∀ (a : α) (w' : Bench δ φ), r a w' → q a w') : w.Obeys p t q :=
  ⟨h.1, himp _ _ h.2⟩

/-- A routine that can make only requests of a kind makes only such requests. -/
theorem Ensures.obeys {t : Routine α} {q : α → Bench δ φ → Prop} (h : w.Ensures t q)
    (hp : t.Only p) : w.Obeys p t q :=
  ⟨fun _ he => hp.of_mem_trace he, h.2⟩

/-- Two things that a routine ensures, it ensures together. -/
theorem Ensures.and {t : Routine α} {q r : α → Bench δ φ → Prop} (hq : w.Ensures t q)
    (hr : w.Ensures t r) : w.Ensures t fun a w' => q a w' ∧ r a w' :=
  ⟨fun _ _ => trivial, hq.2, hr.2⟩

/-- A single request. -/
theorem obeys_request {op : Request} {q : op.Answer → Bench δ φ → Prop} (hp : p op)
    (h : q (answer op w).1 (answer op w).2) : w.Obeys p (Script.request op) q := by
  refine ⟨?_, h⟩
  intro e he
  obtain rfl := List.mem_singleton.1 he
  exact hp

/-! ## Requests that are made -/

/-- Run on the bench, the routine makes a request that satisfies `p`. -/
def Requests (w : Bench δ φ) (t : Routine α) (p : Request → Prop) : Prop :=
  ∃ e ∈ Script.trace answer t w, p e.1

theorem requests_request {op : Request} (hp : p op) : w.Requests (Script.request op) p :=
  ⟨_, List.mem_singleton.2 rfl, hp⟩

/-- The first part of a sequence makes the request. -/
theorem Requests.bind {x : Routine α} (h : w.Requests x p) (f : α → Routine β) :
    w.Requests (x >>= f) p := by
  obtain ⟨e, he, hpe⟩ := h
  refine ⟨e, ?_, hpe⟩
  rw [Script.trace_bind]
  exact List.mem_append_left _ he

/-- The second part of a sequence makes the request, on what the first part ensures. -/
theorem requests_bind {x : Routine α} {f : α → Routine β} {r : α → Bench δ φ → Prop}
    (hx : w.Ensures x r) (hf : ∀ (a : α) (w' : Bench δ φ), r a w' → w'.Requests (f a) p) :
    w.Requests (x >>= f) p := by
  obtain ⟨e, he, hpe⟩ := hf _ _ hx.2
  refine ⟨e, ?_, hpe⟩
  rw [Script.trace_bind]
  exact List.mem_append_right _ he

/-! ## Steps on a list -/

/-- The first step, and the others after it if it succeeds. -/
theorem obeys_inOrder_cons {step : β → Routine (Outcome ε Unit × β)} {item : β} {rest : List β}
    {r : Outcome ε Unit × β → Bench δ φ → Prop}
    {q : Outcome ε Unit × List β → Bench δ φ → Prop} (hstep : w.Obeys p (step item) r)
    (hrest : ∀ (item' : β) (w' : Bench δ φ), r (.ok (), item') w' →
      w'.Obeys p (inOrder step rest) fun a w'' => q (a.1, item' :: a.2) w'')
    (hstop : ∀ (a : Outcome ε Unit × β) (w' : Bench δ φ), a.1 ≠ .ok () → r a w' →
      q (a.1, a.2 :: rest) w') : w.Obeys p (inOrder step (item :: rest)) q := by
  refine hstep.bind ?_
  rintro ⟨ending, item'⟩ w₁ h₁
  cases ending with
  | ok u =>
    refine (hrest item' w₁ h₁).bind ?_
    rintro ⟨ending, rest'⟩ w₂ h₂
    exact obeys_pure h₂
  | fail e => exact obeys_pure (hstop _ w₁ (by simp) h₁)
  | overflow o => exact obeys_pure (hstop _ w₁ (by simp) h₁)

/-- Steps taken in order keep an invariant of the whole list if each keeps it, wherever its item
stands; before its step an item is `fresh`, as all are at first. Of the endings, `fine` may be a
property that every step guarantees; and where the whole succeeds, every item is `settled`, as a
successful step leaves it. -/
theorem obeys_inOrder {step : β → Routine (Outcome ε Unit × β)} {inv : List β → Bench δ φ → Prop}
    {fine : Outcome ε Unit → Prop} {fresh settled : β → Prop} (hfine : fine (.ok ()))
    (hstep : ∀ (before : List β) (item : β) (after : List β) (w : Bench δ φ), fresh item →
      inv (before ++ item :: after) w → w.Obeys p (step item) fun r w' =>
        inv (before ++ r.2 :: after) w' ∧ fine r.1 ∧ (r.1 = .ok () → settled r.2))
    (items : List β) (hfresh : ∀ i ∈ items, fresh i) :
    ∀ (before : List β) (w : Bench δ φ), inv (before ++ items) w →
      w.Obeys p (inOrder step items) fun r w' =>
        inv (before ++ r.2) w' ∧ fine r.1 ∧ (r.1 = .ok () → ∀ i ∈ r.2, settled i) := by
  -- `before` has the items whose steps were taken, as these have left them
  induction items with
  | nil =>
    intro before w hinv
    exact obeys_pure ⟨hinv, hfine, fun _ _ hi => absurd hi List.not_mem_nil⟩
  | cons item rest ih =>
    intro before w hinv
    refine obeys_inOrder_cons (hstep before item rest w (hfresh item List.mem_cons_self) hinv) ?_ ?_
    · rintro item' w₁ ⟨hinv₁, -, hset₁⟩
      have hinv₂ : inv ((before ++ [item']) ++ rest) w₁ := by
        rw [List.append_assoc]
        exact hinv₁
      have hrest : ∀ i ∈ rest, fresh i := fun i hi => hfresh i (List.mem_cons_of_mem item hi)
      refine (ih hrest (before ++ [item']) w₁ hinv₂).imp ?_
      rintro ⟨ending, rest'⟩ w₂ ⟨hinv₃, hfine₃, hset₃⟩
      refine ⟨?_, hfine₃, fun hok => List.forall_mem_cons.2 ⟨hset₁ rfl, hset₃ hok⟩⟩
      rw [List.append_assoc] at hinv₃
      exact hinv₃
    · rintro ⟨ending, item'⟩ w₁ hne ⟨hinv₁, hfine₁, -⟩
      exact ⟨hinv₁, hfine₁, fun hok => absurd hok hne⟩

end Bench

end DiskBringup
