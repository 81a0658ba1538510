import Tacenta.Library.Program

/-!
# Guarded programs

A program is guarded if each of its operations is called in a state that meets the guard of the
operation and the program ends in a state that meets a postcondition, whatever the operations
answer. As in `Program.Meets`, a relation says which answers an operation may give from a state and
which state it may leave.

Programs that may fail have a postcondition for their result and one for their error. The judgement
`Program.Ensures` about them has one rule for each way of building such a program.

## Main definitions

* `Program.Guards`: guards and a postcondition.
* `Program.ask`, `Program.caught`: call an operation, and run a program and report its outcome.
* `Program.Ensures`: guards and two postconditions.

## Main results

* `Program.guards_bind`, `Program.Guards.rely`: sequences, and interference before every operation.
* `Program.ensures_bind`, `Program.ensures_ask`, `Program.ensures_caught`, `Program.ensures_lift`:
  the rules for programs that may fail.
-/

namespace Program

variable {ι : Type} {ρ : ι → Type} {α β ε δ σ : Type}

/-- Whatever the operations answer, each is called in a state that meets its guard, and the program
ends in a state that meets the postcondition. An operation may give an answer and leave a state only
as `R` says. -/
def Guards (R : (i : ι) → σ → ρ i → σ → Prop) (P : ι → σ → Prop) (Q : α → σ → Prop) :
    Program ι ρ α → σ → Prop
  | done a, s => Q a s
  | call i next, s => P i s ∧ ∀ answer s', R i s answer s' → Guards R P Q (next answer) s'

variable {R : (i : ι) → σ → ρ i → σ → Prop} {P : ι → σ → Prop}

theorem guards_bind {Q : β → σ → Prop} {p : Program ι ρ α} {f : α → Program ι ρ β} {s : σ} :
    Guards R P Q (p >>= f) s ↔ Guards R P (fun a s' => Guards R P Q (f a) s') p s := by
  induction p generalizing s with
  | done a => exact Iff.rfl
  | call i next ih =>
    exact and_congr_right fun _ => forall_congr' fun answer => forall_congr' fun s' =>
      imp_congr_right fun _ => ih answer

theorem Guards.mono {Q Q' : α → σ → Prop} {p : Program ι ρ α} {s : σ} (h : Guards R P Q p s)
    (hQ : ∀ a s, Q a s → Q' a s) : Guards R P Q' p s := by
  induction p generalizing s with
  | done a => exact hQ a s h
  | call i next ih => exact ⟨h.1, fun answer s' hr => ih answer (h.2 answer s' hr)⟩

theorem guards_trivial (p : Program ι ρ α) (s : σ) :
    Guards R (fun _ _ => True) (fun _ _ => True) p s := by
  induction p generalizing s with
  | done a => trivial
  | call i next ih => exact ⟨trivial, fun answer s' _ => ih answer s'⟩

/-- What holds in a state still holds after interference, if guards and postcondition are stable and
interference may come before every operation. -/
theorem Guards.rely {Q : α → σ → Prop} {p : Program ι ρ α} {s t : σ} (h : Guards R P Q p s)
    (hP : ∀ i, P i s → P i t) (hQ : ∀ a, Q a s → Q a t)
    (hR : ∀ i answer s', R i t answer s' → R i s answer s') : Guards R P Q p t := by
  cases p with
  | done a => exact hQ a h
  | call i next => exact ⟨hP i h.1, fun answer s' hr => h.2 answer s' (hR i answer s' hr)⟩

/-! ### Programs that may fail -/

/-- Call an operation. -/
def ask (i : ι) : ExceptT ε (Program ι ρ) (ρ i) := ExceptT.lift (perform i)

/-- Run a program and report its outcome. -/
def caught (x : ExceptT ε (Program ι ρ) α) : ExceptT δ (Program ι ρ) (Except ε α) :=
  ExceptT.lift x.run

/-- A postcondition for the result and one for the error. -/
def outcome (Q : α → σ → Prop) (E : ε → σ → Prop) : Except ε α → σ → Prop
  | .ok a, s => Q a s
  | .error e, s => E e s

/-- The program is guarded and ends in a state that meets the postcondition of its outcome. -/
def Ensures (R : (i : ι) → σ → ρ i → σ → Prop) (P : ι → σ → Prop) (Q : α → σ → Prop)
    (E : ε → σ → Prop) (x : ExceptT ε (Program ι ρ) α) (s : σ) : Prop :=
  Guards R P (outcome Q E) x.run s

variable {Q : α → σ → Prop} {E : ε → σ → Prop} {s : σ}

@[simp] theorem ensures_bind {Q : β → σ → Prop} {x : ExceptT ε (Program ι ρ) α}
    {f : α → ExceptT ε (Program ι ρ) β} :
    Ensures R P Q E (x >>= f) s ↔ Ensures R P (fun a s' => Ensures R P Q E (f a) s') E x s := by
  have hcont (r : Except ε α) (t : σ) :
      Guards R P (outcome Q E) (ExceptT.bindCont f r) t ↔
        outcome (fun a s' => Ensures R P Q E (f a) s') E r t := by
    cases r with
    | ok a => exact Iff.rfl
    | error e => exact Iff.rfl
  change Guards R P (outcome Q E) (x.run >>= ExceptT.bindCont f) s ↔ _
  rw [guards_bind]
  exact ⟨fun h => h.mono fun r t => (hcont r t).mp, fun h => h.mono fun r t => (hcont r t).mpr⟩

@[simp] theorem ensures_ask {i : ι} {Q : ρ i → σ → Prop} :
    Ensures R P Q E (ask i : ExceptT ε (Program ι ρ) (ρ i)) s ↔
      P i s ∧ ∀ answer s', R i s answer s' → Q answer s' := Iff.rfl

/-- The outcome of a program that is caught is its result or its error. -/
@[simp] theorem ensures_caught {E' : δ → σ → Prop} {Q : Except ε α → σ → Prop}
    {x : ExceptT ε (Program ι ρ) α} :
    Ensures R P Q E' (caught x : ExceptT δ (Program ι ρ) (Except ε α)) s ↔
      Ensures R P (fun a => Q (.ok a)) (fun e => Q (.error e)) x s := by
  have hlift (r : Except ε α) (t : σ) :
      outcome Q E' (.ok r : Except δ (Except ε α)) t ↔
        outcome (fun a => Q (.ok a)) (fun e => Q (.error e)) r t := by
    cases r with
    | ok a => exact Iff.rfl
    | error e => exact Iff.rfl
  change Guards R P (outcome Q E') (x.run >>= fun r => pure (.ok r)) s ↔ _
  rw [guards_bind]
  exact ⟨fun h => h.mono fun r t => (hlift r t).mp, fun h => h.mono fun r t => (hlift r t).mpr⟩

/-- An outcome that is there already. -/
@[simp] theorem ensures_lift {x : Except ε α} :
    Ensures R P Q E (liftM x : ExceptT ε (Program ι ρ) α) s ↔ outcome Q E x s := by
  cases x with
  | ok a => exact Iff.rfl
  | error e => exact Iff.rfl

@[simp] theorem ensures_ite {c : Prop} [Decidable c] {x y : ExceptT ε (Program ι ρ) α} :
    Ensures R P Q E (if c then x else y) s ↔
      (c → Ensures R P Q E x s) ∧ (¬c → Ensures R P Q E y s) := by
  split <;> simp [*]

theorem Ensures.mono {Q' : α → σ → Prop} {E' : ε → σ → Prop} {x : ExceptT ε (Program ι ρ) α}
    (h : Ensures R P Q E x s) (hQ : ∀ a s, Q a s → Q' a s) (hE : ∀ e s, E e s → E' e s) :
    Ensures R P Q' E' x s :=
  Guards.mono h fun r t hr => by
    cases r with
    | ok a => exact hQ a t hr
    | error e => exact hE e t hr

theorem Ensures.bind {Q' : β → σ → Prop} {x : ExceptT ε (Program ι ρ) α}
    {f : α → ExceptT ε (Program ι ρ) β} (h : Ensures R P Q E x s)
    (hf : ∀ a s, Q a s → Ensures R P Q' E (f a) s) : Ensures R P Q' E (x >>= f) s :=
  ensures_bind.mpr (h.mono hf fun _ _ h => h)

end Program
