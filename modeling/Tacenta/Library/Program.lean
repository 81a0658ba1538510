import Mathlib.Logic.Function.Basic

/-!
# Programs that call operations

A program either is done, or calls an operation and goes on with its answer. What the operations do
is not part of the program: the same program runs alone or interleaved with others. Between two
calls a program has no effect, so it can be stopped at every call.

What a program guarantees is stated against what the operations may answer: each operation may, from
some local state, give some answers and leave some local states. The guarantee is then kept by every
step of an execution whose operations answer so.

## Main definitions

* `Program`: programs, a monad.
* `Program.perform`, `Program.attempt`: call one operation.
* `Program.Meets`: whatever the operations answer, the program ends in a state that meets a
  condition.
* `Program.runWith`: run a program alone, with operations that are functions of a state.

## Main results

* `Program.Meets.step`: a guarantee survives a step.
* `Program.meets_attempt_bind`, `Program.meets_lift_bind`: the rules for sequences, and
  `Program.runWith_attempt_bind`, `Program.runWith_lift_bind`: those for running alone.
-/

/-- A program that calls operations and returns a value. -/
inductive Program (ι : Type) (ρ : ι → Type) (α : Type) where
  | done (a : α)
  | call (i : ι) (next : ρ i → Program ι ρ α)

namespace Program

variable {ι : Type} {ρ : ι → Type} {α β ε δ σ : Type}

/-- Go on with the value of a program. -/
def andThen (p : Program ι ρ α) (f : α → Program ι ρ β) : Program ι ρ β :=
  match p with
  | done a => f a
  | call i next => call i fun answer => (next answer).andThen f

instance : Monad (Program ι ρ) where
  pure := done
  bind := andThen

/-- Call an operation. -/
def perform (i : ι) : Program ι ρ (ρ i) := call i done

/-- Call an operation that may fail, and fail with the error that is made of its error. -/
def attempt (wrap : ε → δ) (i : ι) :
    ExceptT δ (Program ι fun i => Except ε (ρ i)) (ρ i) :=
  call i fun answer => done (answer.mapError wrap)

/-- Whatever the operations answer, the program ends in a state that meets the condition. An
operation may give an answer and leave a local state only as `R` says. -/
def Meets (R : (i : ι) → σ → ρ i → σ → Prop) (Q : α → σ → Prop) : Program ι ρ α → σ → Prop
  | done a, s => Q a s
  | call i next, s => ∀ answer s', R i s answer s' → Meets R Q (next answer) s'

section Meets

variable {R : (i : ι) → σ → ρ i → σ → Prop}

/-- A guarantee survives a step: it is one of the rest of the program. -/
theorem Meets.step {Q : α → σ → Prop} {i : ι} {next : ρ i → Program ι ρ α} {s s' : σ}
    (h : Meets R Q (call i next) s) {answer : ρ i} (hanswer : R i s answer s') :
    Meets R Q (next answer) s' := h answer s' hanswer

end Meets

section Attempt

variable {R : (i : ι) → σ → Except ε (ρ i) → σ → Prop} {Q : Except δ β → σ → Prop} {s : σ}

/-- A sequence that starts with a call. -/
theorem meets_attempt_bind {wrap : ε → δ} {i : ι}
    {f : ρ i → ExceptT δ (Program ι fun i => Except ε (ρ i)) β} :
    Meets R Q (attempt wrap i >>= f).run s ↔
      (∀ a s', R i s (.ok a) s' → Meets R Q (f a).run s') ∧
        ∀ e s', R i s (.error e) s' → Q (.error (wrap e)) s' := by
  constructor
  · exact fun h => ⟨fun a s' hr => h (.ok a) s' hr, fun e s' hr => h (.error e) s' hr⟩
  · rintro ⟨hok, herror⟩ (e | a) s' hr
    · exact herror e s' hr
    · exact hok a s' hr

/-- A sequence that starts with a check. -/
theorem meets_lift_bind {x : Except δ α}
    {f : α → ExceptT δ (Program ι fun i => Except ε (ρ i)) β} :
    Meets R Q ((liftM x : ExceptT δ (Program ι fun i => Except ε (ρ i)) α) >>= f).run s ↔
      (∀ a, x = .ok a → Meets R Q (f a).run s) ∧ ∀ e, x = .error e → Q (.error e) s := by
  cases x with
  | error e =>
    constructor
    · intro h
      refine ⟨fun _ hx => ?_, fun _ hx => ?_⟩ <;> cases hx
      exact h
    · exact fun h => h.2 e rfl
  | ok a =>
    constructor
    · intro h
      refine ⟨fun _ hx => ?_, fun _ hx => ?_⟩ <;> cases hx
      exact h
    · exact fun h => h.1 a rfl

end Attempt

/-! ### Running alone -/

/-- Run a program alone: each operation is a function of the state. -/
def runWith (operate : (i : ι) → σ → σ × ρ i) : Program ι ρ α → σ → σ × α
  | done a, s => (s, a)
  | call i next, s => runWith operate (next (operate i s).2) (operate i s).1

section RunWith

variable {operate : (i : ι) → σ → σ × Except ε (ρ i)} {s s' : σ}

/-- A sequence that starts with a call that succeeds. -/
theorem runWith_attempt_bind {wrap : ε → δ} {i : ι} {a : ρ i}
    {f : ρ i → ExceptT δ (Program ι fun i => Except ε (ρ i)) β} (h : operate i s = (s', .ok a)) :
    runWith operate (attempt wrap i >>= f).run s = runWith operate (f a).run s' := by
  change runWith operate _ (operate i s).1 = _
  rw [h]
  rfl

/-- A sequence that starts with a check that succeeds. -/
theorem runWith_lift_bind {x : Except δ α} {a : α}
    {f : α → ExceptT δ (Program ι fun i => Except ε (ρ i)) β} (h : x = .ok a) :
    runWith operate ((liftM x : ExceptT δ (Program ι fun i => Except ε (ρ i)) α) >>= f).run s =
      runWith operate (f a).run s := by
  subst h
  rfl

theorem runWith_lift_bind_of_error {x : Except δ α} {e : δ}
    {f : α → ExceptT δ (Program ι fun i => Except ε (ρ i)) β} (h : x = .error e) :
    runWith operate ((liftM x : ExceptT δ (Program ι fun i => Except ε (ρ i)) α) >>= f).run s =
      (s, .error e) := by
  subst h
  rfl

end RunWith

end Program
