import Tacenta.Client.GroupRecords
import Tacenta.Library.Effect

/-!
# Publishing before changing

Every commit of the coordinator has one shape. It works on copies, publishes one candidate snapshot
with the generation that the store asks for, and changes the caller's snapshot and live value only
when the store reports that the candidate is committed.

## Main definitions

* `Ledger`: a store, the snapshot committed to it and the live value that belongs to the snapshot.
* `Plan`: what a commit does after its checks; `Ledger.commit` carries it out.
* `Ledger.publish`, `Ledger.onLive`: commits as computations, and on a part of the live value.
* `beginCandidate`: the candidate for the next publication.

## Main results

* `Ledger.commit_cases`: the possible outcomes of a commit.
* `Ledger.commit_invariant`: what holds of every published pair of snapshot and live value, and of
  the pair before, holds after the commit.
-/

open Result

namespace Tacenta.Client

variable {S σ τ α : Type}

/-- A store, the snapshot committed to it and the live value that belongs to the snapshot. -/
structure Ledger (S σ : Type) where
  store : S
  /-- The snapshot that was committed last. -/
  snapshot : OperationSnapshot
  /-- The live value. -/
  live : σ

/-- What a commit does after its checks: answer at once, or publish a candidate. -/
inductive Plan (σ α : Type) where
  | settled (answer : α)
  | publish (candidate : OperationSnapshot) (live : σ) (answer : α)

/-- The candidate for the next publication, unless the store is latched. -/
def beginCandidate [OperationStore S] (store : S) (snapshot : OperationSnapshot) :
    Except GroupOperationError OperationSnapshot := do
  refuseIf (OperationStore.isFrozen store) .frozen
  match OperationStore.nextGeneration store snapshot.generation with
  | some generation => pure { snapshot with generation }
  | none => .error .frozen

namespace Ledger

/-- The ledger with another live value. -/
def withLive (l : Ledger S σ) (live : τ) : Ledger S τ := ⟨l.store, l.snapshot, live⟩

/-- Carry out a plan: the snapshot and the live value change only with a committed candidate. -/
def commit [OperationStore S] (l : Ledger S σ) (plan : Except GroupOperationError (Plan σ α)) :
    Ledger S σ × Except GroupOperationError α :=
  match plan with
  | .error e => (l, .error e)
  | .ok (.settled answer) => (l, .ok answer)
  | .ok (.publish candidate live answer) =>
    match OperationStore.commit l.store candidate with
    | (store, .committed) => (⟨store, candidate, live⟩, .ok answer)
    | (store, _) => ({ l with store }, .error .frozen)

/-- The commit of what a plan makes of the ledger. -/
def publish [OperationStore S]
    (plan : S → OperationSnapshot → σ → Except GroupOperationError (Plan σ α)) :
    Effect (Ledger S σ) GroupOperationError α := fun l =>
  l.commit (plan l.store l.snapshot l.live)

/-- A computation on a part of the live value. -/
def onLive {ε : Type} (part : τ → σ) (put : σ → τ → τ) (e : Effect (Ledger S σ) ε α) :
    Effect (Ledger S τ) ε α :=
  e.zoom (fun l => l.withLive (part l.live)) fun l' l => l'.withLive (put l'.live l.live)

/-- The possible outcomes of a commit. -/
inductive Outcome [OperationStore S] (l : Ledger S σ)
    (plan : Except GroupOperationError (Plan σ α)) :
    Ledger S σ × Except GroupOperationError α → Prop
  | refused (e : GroupOperationError) (h : plan = .error e) : Outcome l plan (l, .error e)
  | settled (answer : α) (h : plan = .ok (.settled answer)) : Outcome l plan (l, .ok answer)
  | lost (candidate : OperationSnapshot) (live : σ) (answer : α) (store : S)
      (outcome : CommitOutcome) (h : plan = .ok (.publish candidate live answer))
      (hstore : OperationStore.commit l.store candidate = (store, outcome))
      (houtcome : outcome ≠ .committed) : Outcome l plan ({ l with store }, .error .frozen)
  | committed (candidate : OperationSnapshot) (live : σ) (answer : α) (store : S)
      (h : plan = .ok (.publish candidate live answer))
      (hstore : OperationStore.commit l.store candidate = (store, .committed)) :
      Outcome l plan (⟨store, candidate, live⟩, .ok answer)

/-- The possible outcomes of a commit. -/
theorem commit_cases [OperationStore S] (l : Ledger S σ)
    (plan : Except GroupOperationError (Plan σ α)) : l.Outcome plan (l.commit plan) := by
  cases plan with
  | error e => exact .refused e rfl
  | ok plan =>
    cases plan with
    | settled answer => exact .settled answer rfl
    | publish candidate live answer =>
      simp only [commit]
      rcases hstore : OperationStore.commit l.store candidate with ⟨store, outcome⟩
      cases outcome with
      | committed => exact .committed candidate live answer store rfl hstore
      | failed => exact .lost candidate live answer store .failed rfl hstore (by decide)
      | unknown => exact .lost candidate live answer store .unknown rfl hstore (by decide)

/-- A commit keeps what holds before it and of everything that it may publish. -/
theorem commit_invariant [OperationStore S] (P : OperationSnapshot → σ → Prop) {l : Ledger S σ}
    {plan : Except GroupOperationError (Plan σ α)} (h : P l.snapshot l.live)
    (hplan : ∀ candidate live answer, plan = .ok (.publish candidate live answer) →
      P candidate live) : P (l.commit plan).1.snapshot (l.commit plan).1.live := by
  have hcases := l.commit_cases plan
  generalize l.commit plan = result at hcases ⊢
  cases hcases with
  | refused => exact h
  | settled => exact h
  | lost => exact h
  | committed candidate live answer _ hpublish => exact hplan candidate live answer hpublish

/-- A commit that answers has published, unless its plan settles. -/
theorem exists_publish [OperationStore S] {l : Ledger S σ}
    {plan : Except GroupOperationError (Plan σ α)} {answer : α}
    (hplan : ∀ a, plan ≠ .ok (.settled a)) (h : (l.commit plan).2 = .ok answer) :
    ∃ candidate live, plan = .ok (.publish candidate live answer) ∧
      (l.commit plan).1.snapshot = candidate ∧ (l.commit plan).1.live = live := by
  have hcases := l.commit_cases plan
  generalize l.commit plan = result at hcases h ⊢
  cases hcases with
  | refused => cases h
  | settled a ha => exact absurd ha (hplan a)
  | lost => cases h
  | committed candidate live a store hpublish =>
    cases h
    exact ⟨candidate, live, hpublish, rfl, rfl⟩

theorem exists_plan [OperationStore S] {l : Ledger S σ}
    {plan : Except GroupOperationError (Plan σ α)} {answer : α}
    (h : (l.commit plan).2 = .ok answer) : ∃ p, plan = .ok p := by
  cases plan with
  | error e => cases h
  | ok p => exact ⟨p, rfl⟩

end Ledger

theorem beginCandidate_eq_ok [OperationStore S] {store : S}
    {snapshot candidate : OperationSnapshot} (h : beginCandidate store snapshot = .ok candidate) :
    ∃ generation, candidate = { snapshot with generation } := by
  obtain ⟨-, h⟩ := refuseIf_bind_eq_ok.mp h
  cases hnext : OperationStore.nextGeneration store snapshot.generation with
  | none =>
    rw [hnext] at h
    exact absurd h (by simp)
  | some generation =>
    rw [hnext] at h
    exact ⟨generation, (Except.ok.inj h).symm⟩

theorem beginCandidate_ne_policy [OperationStore S] {store : S} {snapshot : OperationSnapshot} :
    beginCandidate store snapshot ≠ .error .policy := by
  intro h
  rcases bind_eq_error.mp h with h | ⟨_, -, h⟩
  · rw [refuseIf] at h
    split at h <;> cases h
  · cases hnext : OperationStore.nextGeneration store snapshot.generation <;> rw [hnext] at h <;>
      cases h

end Tacenta.Client
