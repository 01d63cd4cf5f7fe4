import FlatLayout.Layout.Marked

/-!
# Steps that may fail and keep their state

Flattening is written as steps on a state. A step may fail, and what was done before it stays done.
Here such steps are looked at from outside: what they answer from a state, and which state they
leave behind.

`Computes I steps r` is the form in which a whole recursion is compared with a function: from every
state with the invariant `I` the steps answer `r`, always the same, and lead to a state with the
invariant again. What the state holds besides, a memo or a log, can then no longer be told from the
answers.

## Main definitions

* `outcome`, `stateAfter` — the answer of some steps, and the state behind them
* `Computes` — from every state in an invariant the answer is the same, and the invariant stays
* `Keeps` — the invariant stays, whatever the answer
* `Yields` — from every state in an invariant, a success has some property
* `Coincide` — from every state in an invariant two computations do the same

## Main results

* `Computes.bind`, `Keeps.bind`, `Yields.bind`, `Coincide.bind` — steps one after the other
* `Bench.computes_during` — a struct is under way exactly during its own steps
-/

namespace FlatLayout

variable {ε σ α β : Type}

/-- What some steps answer from a state. -/
def outcome (steps : ExceptT ε (StateM σ) α) (s : σ) : Except ε α := (steps.run.run s).1

/-- The state that some steps leave behind, also when they fail. -/
def stateAfter (steps : ExceptT ε (StateM σ) α) (s : σ) : σ := (steps.run.run s).2

theorem outcome_bind_ok {x : ExceptT ε (StateM σ) α} {f : α → ExceptT ε (StateM σ) β} {s : σ}
    {a : α} (h : outcome x s = .ok a) : outcome (x >>= f) s = outcome (f a) (stateAfter x s) := by
  simp only [outcome, stateAfter] at h ⊢
  rw [ExceptT.run_bind, StateT.run_bind]
  simp only [bind, h]

theorem stateAfter_bind_ok {x : ExceptT ε (StateM σ) α} {f : α → ExceptT ε (StateM σ) β} {s : σ}
    {a : α} (h : outcome x s = .ok a) :
    stateAfter (x >>= f) s = stateAfter (f a) (stateAfter x s) := by
  simp only [outcome, stateAfter] at h ⊢
  rw [ExceptT.run_bind, StateT.run_bind]
  simp only [bind, h]

theorem outcome_bind_error {x : ExceptT ε (StateM σ) α} {f : α → ExceptT ε (StateM σ) β} {s : σ}
    {e : ε} (h : outcome x s = .error e) : outcome (x >>= f) s = .error e := by
  simp only [outcome] at h ⊢
  rw [ExceptT.run_bind, StateT.run_bind]
  simp only [bind, h]
  rfl

theorem stateAfter_bind_error {x : ExceptT ε (StateM σ) α} {f : α → ExceptT ε (StateM σ) β} {s : σ}
    {e : ε} (h : outcome x s = .error e) : stateAfter (x >>= f) s = stateAfter x s := by
  simp only [outcome, stateAfter] at h ⊢
  rw [ExceptT.run_bind, StateT.run_bind]
  simp only [bind, h]
  rfl

/-- A failure ends the steps, and a success hands its state on. -/
theorem run_bind (x : ExceptT ε (StateM σ) α) (f : α → ExceptT ε (StateM σ) β) (s : σ) :
    (x >>= f).run.run s =
      match x.run.run s with
      | (.ok a, s') => (f a).run.run s'
      | (.error e, s') => (.error e, s') := by
  rw [ExceptT.run_bind, StateT.run_bind]
  simp only [bind]
  rcases x.run.run s with ⟨r, s'⟩
  cases r <;> rfl

/-- Whether an answer is a success of some kind can be computed. -/
instance decidableExistsOk (r : Except ε α) (P : α → Prop) [DecidablePred P] :
    Decidable (∃ a, r = .ok a ∧ P a) :=
  match r with
  | .ok a => decidable_of_iff (P a) ⟨fun h => ⟨a, rfl, h⟩, fun ⟨_, hb, h⟩ => Except.ok.inj hb ▸ h⟩
  | .error _ => .isFalse fun ⟨_, ha, _⟩ => nomatch ha

/-- Whether an answer is a certain failure can be computed, whatever the successes are. -/
instance decidableEqError [DecidableEq ε] (r : Except ε α) (e : ε) : Decidable (r = .error e) :=
  match r with
  | .ok _ => .isFalse nofun
  | .error e' => decidable_of_iff (e' = e) ⟨congrArg _, Except.error.inj⟩

/-! ### Answers that the state does not change -/

/-- From every state with the invariant the steps answer `r`, and the invariant stays. -/
def Computes (I : σ → Prop) (steps : ExceptT ε (StateM σ) α) (r : Except ε α) : Prop :=
  ∀ s, I s → outcome steps s = r ∧ I (stateAfter steps s)

namespace Computes

variable {I : σ → Prop} {x : ExceptT ε (StateM σ) α} {r : Except ε α}

theorem pure (a : α) : Computes I (pure a : ExceptT ε (StateM σ) α) (.ok a) :=
  fun _ hs => ⟨rfl, hs⟩

theorem throw (e : ε) : Computes I (throw e : ExceptT ε (StateM σ) α) (.error e) :=
  fun _ hs => ⟨rfl, hs⟩

/-- The second steps only matter where the first ones succeed. -/
theorem bind {f : α → ExceptT ε (StateM σ) β} {g : α → Except ε β} (hx : Computes I x r)
    (hf : ∀ a, r = .ok a → Computes I (f a) (g a)) : Computes I (x >>= f) (r >>= g) := by
  intro s hs
  obtain ⟨hr, hI⟩ := hx s hs
  cases r with
  | error e => exact ⟨outcome_bind_error hr, by rwa [stateAfter_bind_error hr]⟩
  | ok a =>
    rw [outcome_bind_ok hr, stateAfter_bind_ok hr]
    exact hf a rfl _ hI

/-- No steps are taken behind a failure. -/
theorem throw_bind {f : α → ExceptT ε (StateM σ) β} (e : ε) :
    Computes I ((MonadExcept.throw e : ExceptT ε (StateM σ) α) >>= f) (.error e) :=
  fun _ hs => ⟨rfl, hs⟩

/-- Steps that answer nothing of interest may stand in front. -/
theorem after {f : Unit → ExceptT ε (StateM σ) β} {y : ExceptT ε (StateM σ) Unit} {q : Except ε β}
    (hy : Computes I y (.ok ())) (hf : Computes I (f ()) q) : Computes I (y >>= f) q :=
  bind (g := fun _ => q) hy fun _ _ => hf

end Computes

/-- The invariant stays, whatever the steps answer. -/
def Keeps (I : σ → Prop) (steps : ExceptT ε (StateM σ) α) : Prop :=
  ∀ s, I s → I (stateAfter steps s)

namespace Keeps

variable {I : σ → Prop}

theorem of_computes {x : ExceptT ε (StateM σ) α} {r : Except ε α} (h : Computes I x r) :
    Keeps I x := fun s hs => (h s hs).2

theorem pure (a : α) : Keeps I (pure a : ExceptT ε (StateM σ) α) := fun _ hs => hs

theorem throw (e : ε) : Keeps I (throw e : ExceptT ε (StateM σ) α) := fun _ hs => hs

theorem bind {x : ExceptT ε (StateM σ) α} {f : α → ExceptT ε (StateM σ) β} (hx : Keeps I x)
    (hf : ∀ a, Keeps I (f a)) : Keeps I (x >>= f) := by
  intro s hs
  cases hr : outcome x s with
  | error e => rw [stateAfter_bind_error hr]; exact hx s hs
  | ok a => rw [stateAfter_bind_ok hr]; exact hf a _ (hx s hs)

end Keeps

/-- Whatever the steps answer from a state with the invariant has the property `P`. -/
def Yields (I : σ → Prop) (steps : ExceptT ε (StateM σ) α) (P : α → Prop) : Prop :=
  ∀ s, I s → ∀ a, outcome steps s = .ok a → P a

namespace Yields

variable {I : σ → Prop} {P : α → Prop}

theorem of_computes {x : ExceptT ε (StateM σ) α} {r : Except ε α} (h : Computes I x r) :
    Yields I x fun a => r = .ok a := fun s hs _ ha => (h s hs).1.symm.trans ha

theorem pure {a : α} (h : P a) : Yields I (pure a : ExceptT ε (StateM σ) α) P :=
  fun _ _ _ ha => Except.ok.inj ha ▸ h

theorem throw (e : ε) : Yields I (throw e : ExceptT ε (StateM σ) α) P := nofun

theorem any (x : ExceptT ε (StateM σ) α) : Yields I x fun _ => True := fun _ _ _ _ => trivial

/-- The second steps start where the first ones succeed, with the invariant. -/
theorem bind {Q : β → Prop} {x : ExceptT ε (StateM σ) α} {f : α → ExceptT ε (StateM σ) β}
    (hkeeps : Keeps I x) (hx : Yields I x P) (hf : ∀ a, P a → Yields I (f a) Q) :
    Yields I (x >>= f) Q := by
  intro s hs b hb
  cases hr : outcome x s with
  | error e => rw [outcome_bind_error hr] at hb; cases hb
  | ok a =>
    rw [outcome_bind_ok hr] at hb
    exact hf a (hx s hs a hr) _ (hkeeps s hs) b hb

end Yields

/-- From every state with the invariant both computations answer the same and leave the same state
behind, and the invariant stays. -/
def Coincide (I : σ → Prop) (x y : ExceptT ε (StateM σ) α) : Prop :=
  ∀ s, I s → x.run.run s = y.run.run s ∧ I (stateAfter y s)

namespace Coincide

variable {I : σ → Prop}

theorem refl {x : ExceptT ε (StateM σ) α} (h : Keeps I x) : Coincide I x x :=
  fun s hs => ⟨rfl, h s hs⟩

/-- The first steps do the same, so the second ones start from the same state. -/
theorem bind {x y : ExceptT ε (StateM σ) α} {f g : α → ExceptT ε (StateM σ) β}
    (hx : Coincide I x y) (hf : ∀ a, Coincide I (f a) (g a)) :
    Coincide I (x >>= f) (y >>= g) := by
  intro s hs
  obtain ⟨hrun, hI⟩ := hx s hs
  rw [stateAfter, run_bind, run_bind, hrun]
  cases hr : y.run.run s with
  | mk r s' =>
    rw [stateAfter, hr] at hI
    cases r with
    | error e => exact ⟨rfl, hI⟩
    | ok a => exact hf a s' hI

/-- No steps are taken behind a failure. -/
theorem throw_bind {f g : α → ExceptT ε (StateM σ) β} (e : ε) :
    Coincide I ((MonadExcept.throw e : ExceptT ε (StateM σ) α) >>= f)
      ((MonadExcept.throw e : ExceptT ε (StateM σ) α) >>= g) := fun _ hs => ⟨rfl, hs⟩

/-- What is done with the state may depend on the invariant. -/
theorem get_bind {f g : σ → ExceptT ε (StateM σ) α} (h : ∀ s, I s → Coincide I (f s) (g s)) :
    Coincide I (get >>= f) (get >>= g) := fun s hs => h s hs s hs

end Coincide

/-! ### Steps at the workbench -/

namespace Bench

theorem computes_ofExcept (I : Workbench → Prop) (r : Except LayoutError α) :
    Computes I (ofExcept r) r := fun _ hw => ⟨rfl, hw⟩

/-- An invariant that does not look at the log. -/
def Silent (I : Workbench → Prop) : Prop := ∀ w log, I w → I { w with log := log }

theorem computes_note {I : Workbench → Prop} (hI : Silent I) (level : Log.Level)
    (origin : Log.Origin) (message : String) : Computes I (note level origin message) (.ok ()) :=
  fun w hw => ⟨rfl, hI w _ hw⟩

/-- While a struct is under way another invariant may hold: one that is reached by putting the
struct in front of those under way, and left by taking it away again. -/
theorem computes_during {I J : Workbench → Prop} {key : QualName} {steps : Bench α}
    {r : Except LayoutError α} (h : Computes J steps r)
    (enter : ∀ w, I w → J { w with pending := key :: w.pending })
    (leave : ∀ w, J w → I { w with pending := w.pending.tail }) :
    Computes I (during key steps) r := by
  intro w hw
  obtain ⟨hr, hJ⟩ := h _ (enter w hw)
  exact ⟨hr, leave _ hJ⟩

theorem coincide_ofExcept_bind {β : Type} {I : Workbench → Prop} {r : Except LayoutError α}
    {f g : α → Bench β} (h : ∀ a, r = .ok a → Coincide I (f a) (g a)) :
    Coincide I (ofExcept r >>= f) (ofExcept r >>= g) := by
  cases r with
  | error e => exact fun _ hw => ⟨rfl, hw⟩
  | ok a => exact fun w hw => h a rfl w hw

/-- Two computations that coincide while a struct is under way coincide around that. -/
theorem coincide_during {I J : Workbench → Prop} {key : QualName} {x y : Bench α}
    (h : Coincide J x y) (enter : ∀ w, I w → J { w with pending := key :: w.pending })
    (leave : ∀ w, J w → I { w with pending := w.pending.tail }) :
    Coincide I (during key x) (during key y) := by
  intro w hw
  obtain ⟨hrun, hJ⟩ := h _ (enter w hw)
  refine ⟨?_, leave _ hJ⟩
  show (fun r : Except LayoutError α × Workbench => (r.1, { r.2 with pending := r.2.pending.tail }))
      (x.run.run _) = (fun r => (r.1, { r.2 with pending := r.2.pending.tail })) (y.run.run _)
  rw [hrun]

end Bench

end FlatLayout
