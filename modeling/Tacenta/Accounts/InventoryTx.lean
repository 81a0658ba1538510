import Tacenta.Accounts.Inventory
import Tacenta.Library.Program

/-!
# Inventory mutations on a database

One mutation is one transaction: lock the account, look for a completed mutation under the retry
key, read the stored inventory, replace it if it is still what was read, and record the mutation. A
statement may fail, and what a transaction writes is staged until it commits, which it does only
after the mutation succeeded.

## Main definitions

* `Statement`: the statements of a mutation, and `applyMutation`: the mutation.
* `Progress`: what a transaction did so far, and `Answers`: what a statement may answer.

## Main results

* `applyMutation_meets`: what a transaction has staged when the mutation succeeded.
-/

open ByteString Result

namespace Tacenta.Accounts

/-! ### The mutation -/

/-- A retry key. -/
abbrev IdempotencyKey := FixedBytes 32

/-- A completed mutation. -/
structure PriorMutation where
  request : Bytes
  result : Bytes
  deriving DecidableEq

/-- A statement of a mutation of one account. -/
inductive Statement where
  | lockAccount
  | priorMutation (key : IdempotencyKey)
  | storedState
  | compareAndSetState (expected : Option Bytes) (next : Bytes)
  | recordMutation (key : IdempotencyKey) (request result : Bytes)

/-- What a statement answers: the handle of the account if there is one, the completed mutation, the
stored bytes, whether they were replaced, and nothing. -/
abbrev Statement.Answer : Statement → Type
  | lockAccount => Option String
  | priorMutation _ => Option PriorMutation
  | storedState => Option Bytes
  | compareAndSetState _ _ => Bool
  | recordMutation _ _ _ => Unit

/-- Why a mutation did not complete. -/
inductive MutationError (κ ε : Type) where
  | refused (error : InventoryError κ)
  | backend (error : ε)

/-- A computation inside a transaction, whose statements may fail. -/
abbrev InTransaction (κ ε : Type) :=
  ExceptT (MutationError κ ε) (Program Statement fun i => Except ε i.Answer)

variable {κ ε : Type} (C : CoreRules κ)

/-- Run a statement. -/
def statement (i : Statement) : InTransaction κ ε i.Answer := Program.attempt .backend i

/-- Refuse as a check does. -/
def refused {α : Type} (x : Except (InventoryError κ) α) : InTransaction κ ε α :=
  liftM (x.mapError MutationError.refused : Except (MutationError κ ε) α)

def currentOf (stored : Option Bytes) : Except (InventoryError κ) DeviceInventory :=
  match stored with
  | some bytes => orRefuse (decodeInventory C bytes) .invalid
  | none => .ok .default

theorem currentOf_some_eq_ok {bytes : Bytes} {current : DeviceInventory} :
    currentOf C (some bytes) = .ok current ↔ decodeInventory C bytes = some current :=
      orRefuse_eq_ok

/-- Answer with the completed mutation. -/
def replay (handle : String) (request : Bytes) (prior : PriorMutation) :
    Except (InventoryError κ) DeviceInventory := do
  refuseIf (prior.request ≠ request) .idempotencyConflict
  let result ← orRefuse (decodeInventory C prior.result) .invalid
  validateInventory C.toLifecycleRules handle result
  pure result

/-- Read the inventory, apply the transition and replace what was read. -/
def readModifyWrite (key : IdempotencyKey) (request : Bytes) (handle : String)
    (transition : String → DeviceInventory → Except (InventoryError κ) DeviceInventory) :
    InTransaction κ ε DeviceInventory := do
  let stored ← statement .storedState
  let current ← refused (currentOf C stored)
  let () ← refused (validateInventory C.toLifecycleRules handle current)
  let next ← refused (transition handle current)
  let replaced ← statement (.compareAndSetState stored (encodeInventory next))
  let () ← refused (refuseIf (replaced = false) .predecessorMismatch)
  let () ← statement (.recordMutation key request (encodeInventory next))
  pure next

/-- Apply one mutation inside a transaction. -/
def applyMutation (key : IdempotencyKey) (request : Bytes)
    (transition : String → DeviceInventory → Except (InventoryError κ) DeviceInventory) :
    InTransaction κ ε DeviceInventory := do
  let account ← statement .lockAccount
  let handle ← refused (orRefuse account .unknownUser)
  let prior ← statement (.priorMutation key)
  match prior with
  | some prior => refused (replay C handle request prior)
  | none => readModifyWrite C key request handle transition

/-! ### What a transaction stages -/

/-- What a transaction did so far. -/
structure Progress where
  /-- It holds the lock on the account. -/
  locked : Bool
  /-- The completed mutation that was found under a retry key. -/
  found : Option (IdempotencyKey × PriorMutation)
  /-- A retry key without a completed mutation when it was looked for under the lock. -/
  unrecorded : Option IdempotencyKey
  /-- The bytes that will replace the stored ones. -/
  staged : Option Bytes
  /-- The stored bytes that the staged ones replace. -/
  basis : Option Bytes
  /-- The mutation that will be recorded, under its retry key. -/
  record : Option (IdempotencyKey × PriorMutation)

/-- Nothing was done. -/
def Progress.none : Progress := ⟨false, .none, .none, .none, .none, .none⟩

/-- What a statement may answer, and what the transaction then has done. -/
inductive Answers (handle : String) :
    (i : Statement) → Progress → Except ε i.Answer → Progress → Prop where
  | failed {i s e} : Answers handle i s (.error e) s
  | unknown {s} : Answers handle .lockAccount s (.ok .none) s
  | locked {s} : Answers handle .lockAccount s (.ok (some handle)) { s with locked := true }
  | recorded {s key prior} : Answers handle (.priorMutation key) s (.ok (some prior))
      { s with found := some (key, prior) }
  | unrecorded {s key} :
    Answers handle (.priorMutation key) s (.ok .none)
      { s with unrecorded := if s.locked then some key else s.unrecorded }
  | stored {s bytes} : Answers handle .storedState s (.ok bytes) s
  | kept {s expected next} : Answers handle (.compareAndSetState expected next) s (.ok false) s
  | replaced {s expected next} : Answers handle (.compareAndSetState expected next) s (.ok true)
      { s with staged := some next, basis := expected }
  | record {s key request result} : Answers handle (.recordMutation key request result) s (.ok ())
      { s with record := some (key, ⟨request, result⟩) }

/-- What a transaction has staged once the mutation succeeded: nothing, if it answers with a
completed mutation, or the bytes of the result, which is the transition of what they replace. -/
def Outcome (handle : String) (key : IdempotencyKey) (request : Bytes)
    (transition : String → DeviceInventory → Except (InventoryError κ) DeviceInventory)
    (r : Except (MutationError κ ε) DeviceInventory) (s : Progress) : Prop :=
  ∀ result, r = .ok result →
    (s.staged = .none ∧ s.record = .none ∧
        ∃ prior, s.found = some (key, prior) ∧ replay C handle request prior = .ok result) ∨
      (s.locked = true ∧ s.unrecorded = some key ∧
          s.record = some (key, ⟨request, encodeInventory result⟩)) ∧
        s.staged = some (encodeInventory result) ∧
          ∃ current, currentOf C s.basis = .ok current ∧ transition handle current = .ok result

section

variable {handle : String} {key : IdempotencyKey} {request : Bytes}
  {transition : String → DeviceInventory → Except (InventoryError κ) DeviceInventory}

theorem Outcome.error {e : MutationError κ ε} {s : Progress} :
    Outcome C handle key request transition (.error e) s := by
  intro _ h
  cases h

/-- A sequence that starts with a check: only what follows it matters. -/
theorem meets_refused_bind {α : Type} {x : Except (InventoryError κ) α}
    {f : α → InTransaction κ ε DeviceInventory} {s : Progress}
    (h : ∀ a, x = .ok a →
      (f a).run.Meets (Answers handle) (Outcome C handle key request transition) s) :
    (refused x >>= f).run.Meets (Answers handle) (Outcome C handle key request transition) s :=
  Program.meets_lift_bind.mpr
    ⟨fun a hx => h a (mapError_eq_ok.mp hx), fun _ _ => Outcome.error C⟩

/-- A sequence that starts with a statement: only what follows its answer matters. -/
theorem meets_statement_bind {i : Statement} {f : i.Answer → InTransaction κ ε DeviceInventory}
    {s : Progress}
    (h : ∀ answer s', Answers handle i s (.ok answer : Except ε i.Answer) s' →
      (f answer).run.Meets (Answers handle) (Outcome C handle key request transition) s') :
    (statement i >>= f).run.Meets (Answers handle) (Outcome C handle key request transition) s :=
  Program.meets_attempt_bind.mpr ⟨h, fun _ _ _ => Outcome.error C⟩

end

theorem readModifyWrite_meets (key : IdempotencyKey) (request : Bytes) (handle : String)
    (transition : String → DeviceInventory → Except (InventoryError κ) DeviceInventory) :
    (readModifyWrite C key request handle transition : InTransaction κ ε DeviceInventory).run.Meets
      (Answers handle) (Outcome C handle key request transition)
      ⟨true, .none, some key, .none, .none, .none⟩ := by
  refine meets_statement_bind C fun stored s hs => ?_
  cases hs
  refine meets_refused_bind C fun current hcurrent => ?_
  refine meets_refused_bind C fun _ _ => ?_
  refine meets_refused_bind C fun next hnext => ?_
  refine meets_statement_bind C fun replaced s hs => ?_
  refine meets_refused_bind C fun _ hreplaced => ?_
  cases hs with
  | kept => exact absurd rfl (refuseIf_eq_ok.mp hreplaced)
  | replaced =>
    refine meets_statement_bind C fun _ s hs => ?_
    cases hs
    intro result hresult
    obtain rfl := Except.ok.inj hresult
    exact .inr ⟨⟨rfl, rfl, rfl⟩, rfl, current, hcurrent, hnext⟩

/-- Once the mutation succeeded, the transaction answers with a completed mutation and has staged
nothing, or it has staged the transition of what it replaces. -/
theorem applyMutation_meets (key : IdempotencyKey) (request : Bytes) (handle : String)
    (transition : String → DeviceInventory → Except (InventoryError κ) DeviceInventory) :
    (applyMutation C key request transition : InTransaction κ ε DeviceInventory).run.Meets
      (Answers handle) (Outcome C handle key request transition) .none := by
  refine meets_statement_bind C fun account s hs => ?_
  refine meets_refused_bind C fun handle' hhandle => ?_
  rw [orRefuse_eq_ok] at hhandle
  subst hhandle
  cases hs with
  | locked =>
    refine meets_statement_bind C fun prior s hs => ?_
    cases hs with
    | @recorded _ _ prior =>
      intro result hresult
      exact .inl ⟨rfl, rfl, prior, rfl, mapError_eq_ok.mp hresult⟩
    | unrecorded => exact readModifyWrite_meets C key request handle transition

end Tacenta.Accounts
