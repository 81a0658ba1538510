import Mathlib.Data.List.Basic

/-!
# Fallible computations

Inversion lemmas for computations in `Except`: what a successful sequence of steps says about
each of its steps. A check that only refuses is written `refuseIf`.

## Main definitions

* `Result.refuseIf`: refuse with an error if a condition holds.
* `Result.orRefuse`: refuse with an error if there is no value.

## Main results

* `Result.bind_eq_ok`, `Result.refuseIf_eq_ok`, `Result.map_eq_ok`: when each step succeeds.
-/

namespace Result

variable {ε α β : Type}

/-- Refuse with the error `e` if the condition holds. -/
def refuseIf (c : Prop) [Decidable c] (e : ε) : Except ε Unit :=
  if c then .error e else .ok ()

/-- Refuse with the error `e` if there is no value. -/
def orRefuse (x : Option α) (e : ε) : Except ε α :=
  match x with
  | some a => .ok a
  | none => .error e

theorem bind_eq_ok {x : Except ε α} {f : α → Except ε β} {b : β} :
    (x >>= f) = .ok b ↔ ∃ a, x = .ok a ∧ f a = .ok b := by
  cases x with
  | error e => simp only [bind, Except.bind, reduceCtorEq, false_and, exists_false]
  | ok a => simp only [bind, Except.bind, Except.ok.injEq, exists_eq_left']

theorem bind_eq_error {x : Except ε α} {f : α → Except ε β} {e : ε} :
    (x >>= f) = .error e ↔ x = .error e ∨ ∃ a, x = .ok a ∧ f a = .error e := by
  cases x with
  | error e => simp only [bind, Except.bind, Except.error.injEq, reduceCtorEq, false_and,
      exists_false, or_false]
  | ok a => simp only [bind, Except.bind, reduceCtorEq, Except.ok.injEq, exists_eq_left',
      false_or]

theorem map_eq_ok {x : Except ε α} {f : α → β} {b : β} :
    (f <$> x) = .ok b ↔ ∃ a, x = .ok a ∧ f a = b := by
  cases x with
  | error e => simp only [Functor.map, Except.map, reduceCtorEq, false_and, exists_false]
  | ok a => simp only [Functor.map, Except.map, Except.ok.injEq, exists_eq_left']

theorem pure_eq_ok {a b : α} : (pure a : Except ε α) = .ok b ↔ a = b := by
  simp only [pure, Except.pure, Except.ok.injEq]

@[simp] theorem ok_bind (a : α) (f : α → Except ε β) : (Except.ok a >>= f) = f a := rfl

@[simp] theorem error_bind (e : ε) (f : α → Except ε β) :
    ((Except.error e : Except ε α) >>= f) = .error e := rfl

theorem refuseIf_eq_ok {c : Prop} [Decidable c] {e : ε} {u : Unit} :
    refuseIf c e = .ok u ↔ ¬c := by
  unfold refuseIf
  split
  · next h => simp only [reduceCtorEq, h, not_true_eq_false]
  · next h => simp only [h, not_false_eq_true]

@[simp] theorem refuseIf_pos {c : Prop} [Decidable c] {e : ε} (h : c) :
    refuseIf c e = .error e := if_pos h

@[simp] theorem refuseIf_neg {c : Prop} [Decidable c] {e : ε} (h : ¬c) :
    refuseIf c e = .ok () := if_neg h

theorem refuseIf_bind_eq_ok {c : Prop} [Decidable c] {e : ε} {f : Unit → Except ε β} {b : β} :
    (refuseIf c e >>= f) = .ok b ↔ ¬c ∧ f () = .ok b := by
  rw [bind_eq_ok]
  exact ⟨fun ⟨_, h, hf⟩ => ⟨refuseIf_eq_ok.mp h, hf⟩, fun ⟨h, hf⟩ => ⟨(), refuseIf_neg h, hf⟩⟩

theorem orRefuse_eq_ok {x : Option α} {e : ε} {a : α} : orRefuse x e = .ok a ↔ x = some a := by
  cases x <;> simp [orRefuse]

theorem forM_eq_ok_iff {f : α → Except ε Unit} {xs : List α} {u : Unit} :
    xs.forM f = .ok u ↔ ∀ x ∈ xs, f x = .ok () := by
  induction xs with
  | nil => exact ⟨fun _ _ h => absurd h List.not_mem_nil, fun _ => rfl⟩
  | cons x xs ih =>
    change (f x >>= fun _ => xs.forM f) = .ok u ↔ _
    rw [bind_eq_ok, List.forall_mem_cons]
    exact ⟨fun ⟨_, hx, hxs⟩ => ⟨hx, ih.mp hxs⟩, fun ⟨hx, hxs⟩ => ⟨(), hx, ih.mpr hxs⟩⟩

theorem mapError_eq_ok {δ : Type} {x : Except ε α} {f : ε → δ} {a : α} :
    x.mapError f = .ok a ↔ x = .ok a := by
  cases x <;> simp only [Except.mapError, reduceCtorEq, Except.ok.injEq]

theorem toOption_eq_some {x : Except ε α} {a : α} : x.toOption = some a ↔ x = .ok a := by
  cases x <;> simp only [Except.toOption, reduceCtorEq, Option.some_inj, Except.ok.injEq]

end Result
