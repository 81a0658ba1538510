import Mathlib.Logic.Function.Basic
import Tacenta.Library.Execution

/-!
# Mutations that are safe to retry

A register for each account, changed by requests that carry a retry key. A request that succeeded is
remembered under its account and key: the same request under that key is answered from memory, and
another one is refused. A refused request is not remembered.

## Main definitions

* `Retry.Rules`: the accounts that exist with the transitions of their registers, and the errors.
* `Retry.step`: the machine.

## Main results

* `Retry.step_cases`: everything that a request can do.
* `Retry.completed_of_simulates`: what implements the machine remembers a request that succeeded
  with its result.
-/

namespace Retry

variable {α κ ρ τ ε : Type}

/-- A request to change the register of an account, under a retry key. -/
structure Call (α κ ρ : Type) where
  account : α
  key : κ
  request : ρ

/-- The registers that were written, and the requests that succeeded with their results. -/
structure State (α κ ρ τ : Type) where
  value : α → Option τ
  completed : α → κ → Option (ρ × τ)

/-- Nothing was written. -/
def State.empty : State α κ ρ τ := ⟨fun _ => none, fun _ _ => none⟩

/-- Which accounts exist and how a request changes their registers. -/
structure Rules (α ρ τ ε : Type) where
  /-- The account does not exist. -/
  unknown : ε
  /-- The retry key was used by another request. -/
  conflict : ε
  /-- What a register holds before it is written. -/
  initial : τ
  /-- The transition of an account that exists. -/
  transition : α → Option (ρ → τ → Except ε τ)

section Complete

variable [DecidableEq α] [DecidableEq κ]

/-- The request succeeded. -/
def State.complete (s : State α κ ρ τ) (c : Call α κ ρ) (v : τ) : State α κ ρ τ where
  value := Function.update s.value c.account (some v)
  completed := Function.update s.completed c.account
    (Function.update (s.completed c.account) c.key (some (c.request, v)))

theorem completed_complete (s : State α κ ρ τ) (c : Call α κ ρ) (v : τ) (account : α) (key : κ) :
    (s.complete c v).completed account key =
      if account = c.account ∧ key = c.key then some (c.request, v)
      else s.completed account key := by
  simp only [State.complete]
  by_cases haccount : account = c.account
  · subst haccount
    rw [Function.update_self, Function.update_apply]
    by_cases hkey : key = c.key <;> simp [hkey]
  · rw [Function.update_of_ne haccount, if_neg fun h => haccount h.1]

theorem value_complete (s : State α κ ρ τ) (c : Call α κ ρ) (v : τ) (account : α) :
    (s.complete c v).value account = if account = c.account then some v else s.value account :=
  Function.update_apply s.value c.account (some v) account

end Complete

variable [DecidableEq α] [DecidableEq κ] [DecidableEq ρ]

/-- Take a request. -/
def step (G : Rules α ρ τ ε) : Machine (State α κ ρ τ) (Call α κ ρ) (Except ε τ) := fun s c =>
  match G.transition c.account with
  | none => (s, .error G.unknown)
  | some transition =>
    match s.completed c.account c.key with
    | some (request, result) =>
      (s, if request = c.request then .ok result else .error G.conflict)
    | none =>
      match transition c.request ((s.value c.account).getD G.initial) with
      | .ok v => (s.complete c v, .ok v)
      | .error e => (s, .error e)

variable {G : Rules α ρ τ ε} {s : State α κ ρ τ} {c : Call α κ ρ}

theorem step_of_unknown (h : G.transition c.account = none) :
    step G s c = (s, .error G.unknown) := by
  rw [step, h]

variable {transition : ρ → τ → Except ε τ} {v : τ}

theorem step_of_completed {request : ρ} {result : τ}
    (h : G.transition c.account = some transition)
    (hcompleted : s.completed c.account c.key = some (request, result)) :
    step G s c = (s, if request = c.request then .ok result else .error G.conflict) := by
  rw [step, h, hcompleted]

theorem step_of_ok (h : G.transition c.account = some transition)
    (hnew : s.completed c.account c.key = none)
    (hv : transition c.request ((s.value c.account).getD G.initial) = .ok v) :
    step G s c = (s.complete c v, .ok v) := by
  rw [step, h, hnew]
  simp only [hv]

theorem step_of_error {e : ε} (h : G.transition c.account = some transition)
    (hnew : s.completed c.account c.key = none)
    (he : transition c.request ((s.value c.account).getD G.initial) = .error e) :
    step G s c = (s, .error e) := by
  rw [step, h, hnew]
  simp only [he]

/-- Everything that a request can do. -/
theorem step_cases (G : Rules α ρ τ ε) (s : State α κ ρ τ) (c : Call α κ ρ) :
    (G.transition c.account = none ∧ step G s c = (s, .error G.unknown)) ∨
    ∃ transition, G.transition c.account = some transition ∧
      ((∃ request result, s.completed c.account c.key = some (request, result) ∧
          step G s c = (s, if request = c.request then .ok result else .error G.conflict)) ∨
        s.completed c.account c.key = none ∧
          ((∃ v, transition c.request ((s.value c.account).getD G.initial) = .ok v ∧
              step G s c = (s.complete c v, .ok v)) ∨
            ∃ e, transition c.request ((s.value c.account).getD G.initial) = .error e ∧
              step G s c = (s, .error e))) := by
  cases h : G.transition c.account with
  | none => exact .inl ⟨rfl, step_of_unknown h⟩
  | some transition =>
    refine .inr ⟨transition, rfl, ?_⟩
    cases hcompleted : s.completed c.account c.key with
    | some entry => exact .inl ⟨entry.1, entry.2, rfl, step_of_completed h hcompleted⟩
    | none =>
      refine .inr ⟨rfl, ?_⟩
      cases hv : transition c.request ((s.value c.account).getD G.initial) with
      | ok v => exact .inl ⟨v, rfl, step_of_ok h hcompleted hv⟩
      | error e => exact .inr ⟨e, rfl, step_of_error h hcompleted hv⟩

theorem completed_of_ok (h : (step G s c).2 = .ok v) :
    (step G s c).1.completed c.account c.key = some (c.request, v) := by
  obtain ⟨-, hstep⟩ | ⟨transition, -, ⟨request, result, hcompleted, hstep⟩ |
    ⟨-, ⟨v', -, hstep⟩ | ⟨e, -, hstep⟩⟩⟩ := step_cases G s c
  · rw [hstep] at h
    cases h
  · rw [hstep] at h ⊢
    split at h
    · next heq =>
      cases h
      rw [hcompleted, heq]
    · cases h
  · rw [hstep] at h ⊢
    cases h
    rw [completed_complete, if_pos ⟨rfl, rfl⟩]
  · rw [hstep] at h
    cases h

theorem completed_step {account : α} {key : κ} {entry : ρ × τ}
    (h : s.completed account key = some entry) (c : Call α κ ρ) :
    (step G s c).1.completed account key = some entry := by
  obtain ⟨-, hstep⟩ | ⟨transition, -, ⟨request, result, -, hstep⟩ |
    ⟨hnew, ⟨v', -, hstep⟩ | ⟨e, -, hstep⟩⟩⟩ := step_cases G s c <;> rw [hstep]
  · exact h
  · exact h
  · rw [completed_complete, if_neg, h]
    rintro ⟨rfl, rfl⟩
    rw [hnew] at h
    cases h
  · exact h

/-- A machine that simulates this one remembers a request that succeeded with its result, whatever
is requested later. -/
theorem completed_of_simulates {σ ι ο : Type} {N : Machine σ ι ο} {f : ι → Call α κ ρ}
    {R : σ → State α κ ρ τ → Prop} (hsimulates : ∀ x t i, R x t → R (N x i).1 (step G t (f i)).1)
    {x : σ} (h : R x s) {i : ι} (hv : (step G s (f i)).2 = .ok v) (later : List ι) :
    ∃ t, R (Machine.run N (N x i).1 later) t ∧
      t.completed (f i).account (f i).key = some ((f i).request, v) := by
  refine Machine.run_preserves
    (fun y => ∃ t, R y t ∧ t.completed (f i).account (f i).key = some ((f i).request, v))
    (fun y j => ?_) ⟨_, hsimulates x s i h, completed_of_ok hv⟩ later
  rintro ⟨t, ht, hcompleted⟩
  exact ⟨_, hsimulates y t j ht, completed_step hcompleted (f j)⟩

end Retry
