import Mathlib.Logic.Function.Basic

/-!
# Fallible computations on a state

A computation that changes a state and may fail; what it changed before it failed stays changed.
Judgements about such computations come with one rule for each way of combining them: a computation
`Keeps` a property of the state, whatever its outcome, or `Sustains` it unless it fails; it
`Ensures` a postcondition for its result and another for failure; and it `Yields` a relation of its
outcome and the state after.

## Main definitions

* `Effect`: the computations, with `fail`, `get`, `modify`, `lift`, `attempt`, `mapError` and
  `zoom`.
* `Effect.Ensures`, `Effect.Keeps`, `Effect.Sustains`, `Effect.Yields`: the judgements.

## Main results

* `Effect.Ensures.bind`, `Effect.Keeps.bind`, `Effect.Yields.bind`: sequences.
* `Effect.Ensures.zoom`: a computation on a part of the state.
-/

universe u v w

/-- A fallible computation on a state, which changes even if the computation fails. -/
def Effect (σ : Type u) (ε : Type v) (α : Type w) := σ → σ × Except ε α

namespace Effect

variable {σ τ ε ε' α β : Type}

/-- Run a computation, and then another one if the first does not fail. -/
protected def bind (e : Effect σ ε α) (f : α → Effect σ ε β) : Effect σ ε β := fun s =>
  match e s with
  | (s, .ok a) => f a s
  | (s, .error err) => (s, .error err)

instance : Monad (Effect σ ε) where
  pure a := fun s => (s, .ok a)
  bind := Effect.bind

def fail (err : ε) : Effect σ ε α := fun s => (s, .error err)

/-- The state. -/
def get : Effect σ ε σ := fun s => (s, .ok s)

/-- Change the state. -/
def modify (f : σ → σ) : Effect σ ε Unit := fun s => (f s, .ok ())

/-- An outcome that does not depend on the state. -/
def lift (x : Except ε α) : Effect σ ε α := fun s => (s, x)

/-- Run a computation and report its outcome instead of failing. -/
def attempt (e : Effect σ ε α) : Effect σ ε' (Except ε α) := fun s => ((e s).1, .ok (e s).2)

/-- Report failures as other ones. -/
def mapError (f : ε → ε') (e : Effect σ ε α) : Effect σ ε' α := fun s =>
  ((e s).1, (e s).2.mapError f)

/-- Run a computation on a part of the state. -/
def zoom (part : σ → τ) (put : τ → σ → σ) (e : Effect τ ε α) : Effect σ ε α := fun s =>
  (put (e (part s)).1 s, (e (part s)).2)

/-- What holds before implies what holds after, with the result or on failure. -/
def Ensures (P : σ → Prop) (e : Effect σ ε α) (Q : α → σ → Prop) (E : σ → Prop) : Prop :=
  ∀ s, P s → match e s with
    | (s', .ok a) => Q a s'
    | (s', .error _) => E s'

/-- A property of the state is kept, whatever the outcome. -/
def Keeps (P : σ → Prop) (e : Effect σ ε α) : Prop := ∀ s, P s → P (e s).1

/-- A property of the state is kept, unless the computation fails. -/
def Sustains (P : σ → Prop) (e : Effect σ ε α) : Prop := Ensures P e (fun _ => P) fun _ => True

/-- What holds before implies what holds of the outcome and the state after. -/
def Yields (P : σ → Prop) (e : Effect σ ε α) (Q : Except ε α → σ → Prop) : Prop :=
  ∀ s, P s → Q (e s).2 (e s).1

variable {P P' : σ → Prop} {e : Effect σ ε α} {f : α → Effect σ ε β} {Q Q' : α → σ → Prop}
  {R : β → σ → Prop} {E E' : σ → Prop}

theorem keeps_iff_ensures : Keeps P e ↔ Ensures P e (fun _ => P) P := by
  refine forall_congr' fun s => imp_congr_right fun _ => ?_
  rcases e s with ⟨s', _ | _⟩ <;> rfl

/-- A computation whose result is only mapped. -/
theorem bind_pure_apply (e : Effect σ ε α) (f : α → β) (s : σ) :
    (e >>= fun a => pure (f a) : Effect σ ε β) s = ((e s).1, (e s).2.map f) := by
  change Effect.bind e _ s = _
  rw [Effect.bind]
  rcases e s with ⟨s', _ | _⟩ <;> rfl

/-! ### Postconditions -/

namespace Ensures

theorem bind (he : Ensures P e Q E) (hf : ∀ a, Ensures (Q a) (f a) R E) :
    Ensures P (e >>= f) R E := by
  intro s hs
  have hfirst := he s hs
  change match Effect.bind e f s with
    | (s', .ok b) => R b s'
    | (s', .error _) => E s'
  rw [Effect.bind]
  generalize e s = result at hfirst ⊢
  rcases result with ⟨s', err | a⟩
  · exact hfirst
  · exact hf a s' hfirst

theorem get_bind {f : σ → Effect σ ε β} (h : ∀ s, P s → Ensures (· = s) (f s) R E) :
    Ensures P (get >>= f) R E := fun s hs => h s hs s rfl

theorem conseq (h : Ensures P e Q E) (hP : ∀ s, P' s → P s) (hQ : ∀ a s, Q a s → Q' a s)
    (hE : ∀ s, E s → E' s) : Ensures P' e Q' E' := by
  intro s hs
  have hafter := h s (hP s hs)
  generalize e s = result at hafter ⊢
  rcases result with ⟨s', err | a⟩
  · exact hE s' hafter
  · exact hQ a s' hafter

/-- What holds of the initial state may be used to choose the postcondition. -/
theorem of_forall (h : ∀ s, P s → Ensures (· = s) e Q E) : Ensures P e Q E :=
  fun s hs => h s hs s rfl

theorem mapError (h : Ensures P e Q E) (g : ε → ε') : Ensures P (e.mapError g) Q E := by
  intro s hs
  have hafter := h s hs
  rw [Effect.mapError]
  generalize e s = result at hafter ⊢
  rcases result with ⟨s', err | a⟩ <;> exact hafter

/-- A computation on a part of the state. -/
theorem zoom {part : σ → τ} {put : τ → σ → σ} {e : Effect τ ε α} {P : τ → Prop} {Q : α → τ → Prop}
    {E : τ → Prop} (h : Ensures P e Q E) (s : σ) (hs : P (part s)) :
    Ensures (· = s) (e.zoom part put) (fun a s' => ∃ t, s' = put t s ∧ Q a t)
      (fun s' => ∃ t, s' = put t s ∧ E t) := by
  rintro s' rfl
  have hafter := h (part s') hs
  rw [Effect.zoom]
  generalize e (part s') = result at hafter ⊢
  rcases result with ⟨t, err | a⟩ <;> exact ⟨t, rfl, hafter⟩

end Ensures

/-! ### Invariants -/

namespace Keeps

theorem pure (a : α) : Keeps P (Pure.pure a : Effect σ ε α) := fun _ h => h

theorem fail (err : ε) : Keeps P (Effect.fail err : Effect σ ε α) := fun _ h => h

theorem lift (x : Except ε α) : Keeps P (Effect.lift x) := fun _ h => h

theorem bind (he : Keeps P e) (hf : ∀ a, Keeps P (f a)) : Keeps P (e >>= f) :=
  keeps_iff_ensures.mpr ((keeps_iff_ensures.mp he).bind fun a => keeps_iff_ensures.mp (hf a))

theorem get_bind {f : σ → Effect σ ε β} (h : ∀ s, P s → P (f s s).1) : Keeps P (get >>= f) := h

theorem attempt (h : Keeps P e) : Keeps P (e.attempt : Effect σ ε' (Except ε α)) := h

end Keeps

/-! ### Invariants of computations that do not fail -/

namespace Sustains

theorem pure (a : α) : Sustains P (Pure.pure a : Effect σ ε α) := fun _ h => h

theorem bind (he : Sustains P e) (hf : ∀ a, Sustains P (f a)) : Sustains P (e >>= f) :=
  Ensures.bind he hf

theorem get_bind {f : σ → Effect σ ε β} (h : ∀ s, P s → Sustains P (f s)) :
    Sustains P (get >>= f) := fun s hs => h s hs s hs

theorem zoom {part : σ → τ} {put : τ → σ → σ} {e : Effect τ ε α} {Q : τ → Prop} (h : Sustains Q e)
    (hpart : ∀ s, P s → Q (part s)) (hput : ∀ s t, P s → Q t → P (put t s)) :
    Sustains P (e.zoom part put) := by
  refine Ensures.of_forall fun s hs => (Ensures.zoom h s (hpart s hs)).conseq (fun _ h => h) ?_
    fun _ _ => trivial
  rintro _ _ ⟨t, rfl, ht⟩
  exact hput s t hs ht

end Sustains

/-! ### Outcomes -/

namespace Yields

variable {Q Q' : Except ε α → σ → Prop} {R : Except ε β → σ → Prop}

theorem pure (a : α) : Yields (Q (.ok a)) (Pure.pure a : Effect σ ε α) Q := fun _ h => h

theorem fail (err : ε) : Yields (Q (.error err)) (Effect.fail err : Effect σ ε α) Q := fun _ h => h

theorem bind (he : Yields P e Q) (hf : ∀ a, Yields (Q (.ok a)) (f a) R)
    (herror : ∀ err s, Q (.error err) s → R (.error err) s) : Yields P (e >>= f) R := by
  intro s hs
  have hfirst := he s hs
  change R (Effect.bind e f s).2 (Effect.bind e f s).1
  rw [Effect.bind]
  generalize e s = result at hfirst ⊢
  rcases result with ⟨s', err | a⟩
  · exact herror err s' hfirst
  · exact hf a s' hfirst

theorem get_bind {f : σ → Effect σ ε β} (h : ∀ s, P s → Yields (· = s) (f s) R) :
    Yields P (get >>= f) R := fun s hs => h s hs s rfl

/-- A computation whose outcome is reported, failures included. -/
theorem attempt_bind {f : Except ε α → Effect σ ε' β} {R : Except ε' β → σ → Prop}
    (he : Yields P e Q) (hf : ∀ r, Yields (Q r) (f r) R) : Yields P (e.attempt >>= f) R :=
  fun s hs => hf _ _ (he s hs)

theorem attempt_bind_ensures {f : Except ε α → Effect σ ε' β} {R : β → σ → Prop}
    (he : Yields P e Q) (hf : ∀ r, Ensures (Q r) (f r) R E) : Ensures P (e.attempt >>= f) R E :=
  fun s hs => hf _ _ (he s hs)

theorem conseq (h : Yields P e Q) (hP : ∀ s, P' s → P s) (hQ : ∀ r s, Q r s → Q' r s) :
    Yields P' e Q' := fun s hs => hQ _ _ (h s (hP s hs))

/-- A computation on a part of the state. -/
theorem zoom {part : σ → τ} {put : τ → σ → σ} {e : Effect τ ε α} {s : σ}
    (h : Yields (· = part s) e fun r t => Q r (put t s)) : Yields (· = s) (e.zoom part put) Q := by
  rintro _ rfl
  exact h _ rfl

theorem ensures {Q : Except ε α → σ → Prop} {R : α → σ → Prop} (h : Yields P e Q)
    (hok : ∀ a s, Q (.ok a) s → R a s) (herror : ∀ err s, Q (.error err) s → E s) :
    Ensures P e R E := by
  intro s hs
  have hafter := h s hs
  generalize e s = result at hafter ⊢
  rcases result with ⟨s', err | a⟩
  · exact herror err s' hafter
  · exact hok a s' hafter

end Yields

end Effect
