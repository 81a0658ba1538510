import Tacenta.Client.Ledger

/-!
# A store of one owner

A store that one coordinator writes to, with an adversarial fate for every write: a write may be
applied or not, and whatever is reported, only an applied write is reported as committed. Its handle
latches when a write is not reported as committed. While the handle is not latched, the durable
snapshot is the one that the coordinator committed last; afterwards it may also be the candidate of
the write that latched it.

## Main definitions

* `Disk`: the store.
* `Ledger.Backed`: the durable snapshot has a live value that fits it, and is the ledger's own while
  the handle is not latched.

## Main results

* `Disk.commit_written`, `Disk.recoverNotBehind_cases`: what a write and a recovery through the
  handle can do.
* `Ledger.commit_backed`: a commit keeps the durable snapshot sound.
-/

namespace Tacenta.Client

/-- A store: its durable snapshot, the fates of the writes to come, whether it can be read, and how
many writes were applied. -/
structure Disk where
  durable : Option OperationSnapshot
  /-- The fates of the writes to come. -/
  fates : List Fate
  /-- Whether the store can be read. -/
  readable : Bool
  /-- How many writes were applied. -/
  applied : Nat

namespace Disk

/-- Write a snapshot as the next fate says. -/
def write (m : Disk) (snapshot : OperationSnapshot) : Disk × CommitOutcome :=
  match m.fates with
  | [] => (m, .failed)
  | fate :: fates =>
    if fate.applied then
      ({ m with durable := some snapshot, fates, applied := m.applied + 1 }, fate.outcome)
    else ({ m with fates }, fate.outcome)

/-- Refuse a write: it is not applied and not reported as committed. -/
def refuse (m : Disk) : Disk × CommitOutcome :=
  match m.fates with
  | [] => (m, .failed)
  | fate :: fates =>
    ({ m with fates }, if fate.outcome = .committed then .failed else fate.outcome)

instance : OperationStore Disk where
  commit := write
  recover m := (m, if m.readable then .ok m.durable else .error .storeError)
  commitAfter m expected snapshot :=
    if m.durable.map OperationSnapshot.generation = expected then m.write snapshot else m.refuse

/-- What a write through a handle can do. -/
inductive Written (d : DurableStore Disk) (snapshot : OperationSnapshot) :
    DurableStore Disk × CommitOutcome → Prop
  | committed (d' : DurableStore Disk) (hfrozen : d.latch.frozen = false)
      (hfrozen' : d'.latch.frozen = false) (hdurable : d'.inner.durable = some snapshot)
      (happlied : d'.inner.applied = d.inner.applied + 1) : Written d snapshot (d', .committed)
  | unapplied (d' : DurableStore Disk) (outcome : CommitOutcome) (houtcome : outcome ≠ .committed)
      (hfrozen' : d'.latch.frozen = true) (hdurable : d'.inner.durable = d.inner.durable)
      (happlied : d'.inner.applied = d.inner.applied) : Written d snapshot (d', outcome)
  | uncertain (d' : DurableStore Disk) (outcome : CommitOutcome) (houtcome : outcome ≠ .committed)
      (hfrozen : d.latch.frozen = false) (hfrozen' : d'.latch.frozen = true)
      (hdurable : d'.inner.durable = some snapshot)
      (happlied : d'.inner.applied = d.inner.applied + 1) : Written d snapshot (d', outcome)

private theorem commitAfter_cases (m : Disk) (expected : Option UInt64)
    (snapshot : OperationSnapshot) :
    ∃ m' outcome, OperationStore.commitAfter m expected snapshot = (m', outcome) ∧
      (outcome ≠ .committed ∧ m'.durable = m.durable ∧ m'.applied = m.applied ∨
        m'.durable = some snapshot ∧ m'.applied = m.applied + 1) := by
  change ∃ m' outcome, (if m.durable.map OperationSnapshot.generation = expected then
    m.write snapshot else m.refuse) = (m', outcome) ∧ _
  obtain ⟨durable, fates, readable, applied⟩ := m
  by_cases hmatch : durable.map OperationSnapshot.generation = expected
  · rw [if_pos hmatch]
    cases fates with
    | nil => exact ⟨_, _, rfl, .inl ⟨by decide, rfl, rfl⟩⟩
    | cons fate fates =>
      by_cases happlied : fate.applied = true
      · exact ⟨_, _, if_pos happlied, .inr ⟨rfl, rfl⟩⟩
      · exact ⟨_, _, if_neg happlied,
          .inl ⟨fun h => happlied (fate.applied_of_committed h), rfl, rfl⟩⟩
  · rw [if_neg hmatch]
    cases fates with
    | nil => exact ⟨_, _, rfl, .inl ⟨by decide, rfl, rfl⟩⟩
    | cons fate fates =>
      refine ⟨_, _, rfl, .inl ⟨?_, rfl, rfl⟩⟩
      by_cases houtcome : fate.outcome = .committed
      · rw [if_pos houtcome]
        decide
      · rwa [if_neg houtcome]

/-- What a write through a handle can do. -/
theorem commit_written (d : DurableStore Disk) (snapshot : OperationSnapshot) :
    Written d snapshot (d.commit snapshot) := by
  by_cases hfrozen : d.latch.frozen = true
  · rw [DurableStore.commit_of_frozen hfrozen]
    exact .unapplied d .failed (by decide) hfrozen rfl rfl
  rw [Bool.not_eq_true] at hfrozen
  obtain ⟨m, outcome, hinner, hcases⟩ := commitAfter_cases d.inner d.latch.observed snapshot
  rw [DurableStore.commit_of_not_frozen hfrozen hinner]
  by_cases houtcome : outcome = .committed
  · subst houtcome
    obtain ⟨hdurable, happlied⟩ := hcases.resolve_left fun h => h.1 rfl
    exact .committed _ hfrozen hfrozen hdurable happlied
  · have hlatched : (d.latch.attempt snapshot outcome).frozen = true := if_neg houtcome
    rcases hcases with ⟨-, hdurable, happlied⟩ | ⟨hdurable, happlied⟩
    · exact .unapplied _ _ houtcome hlatched hdurable happlied
    · exact .uncertain _ _ houtcome hfrozen hlatched hdurable happlied

/-- What a recovery that refuses older snapshots can do. -/
theorem recoverNotBehind_cases (d : DurableStore Disk) :
    ∃ store result, d.recoverNotBehind = (store, result) ∧ store.inner = d.inner ∧
      (result = .ok d.inner.durable ∨ ∃ e, result = .error e) := by
  obtain ⟨⟨durable, fates, readable, applied⟩, latch⟩ := d
  cases readable with
  | false => exact ⟨_, _, rfl, rfl, .inr ⟨_, rfl⟩⟩
  | true =>
    by_cases hbehind : latch.isBehind durable = true
    · exact ⟨_, _, if_pos hbehind, rfl, .inr ⟨_, rfl⟩⟩
    · exact ⟨_, _, if_neg hbehind, rfl, .inl rfl⟩

end Disk

/-! ### Ledgers over a store of one owner -/

namespace Ledger

variable {σ α : Type} {P : OperationSnapshot → σ → Prop} {l : Ledger (DurableStore Disk) σ}

/-- The durable snapshot has a live value that fits it; while the handle is not latched, they are
the ledger's own. -/
def Backed (P : OperationSnapshot → σ → Prop) (l : Ledger (DurableStore Disk) σ) : Prop :=
  ∃ snapshot live, l.store.inner.durable = some snapshot ∧ P snapshot live ∧
    (l.store.latch.frozen = false → l.snapshot = snapshot ∧ l.live = live)

/-- A commit keeps the durable snapshot sound: either no write is applied, or the candidate is
durable. -/
theorem commit_backed (P' : OperationSnapshot → σ → Prop)
    {plan : Except GroupOperationError (Plan σ α)} (h : l.Backed P)
    (hplan : l.store.latch.frozen = false → P l.snapshot l.live →
      ∀ candidate live answer, plan = .ok (.publish candidate live answer) → P' candidate live) :
    ((l.commit plan).1.store.inner.applied = l.store.inner.applied ∧ (l.commit plan).1.Backed P) ∨
      ((l.commit plan).1.store.inner.applied = l.store.inner.applied + 1 ∧
        (l.commit plan).1.Backed P' ∧ ∃ candidate live answer,
          plan = .ok (.publish candidate live answer)) := by
  have hcases := l.commit_cases plan
  generalize l.commit plan = result at hcases ⊢
  obtain ⟨snapshot, live, hdurable, hp, hown⟩ := h
  have hp' : l.store.latch.frozen = false → P l.snapshot l.live := fun hfrozen => by
    obtain ⟨hsnapshot, hlive⟩ := hown hfrozen
    rwa [hsnapshot, hlive]
  cases hcases with
  | refused => exact .inl ⟨rfl, snapshot, live, hdurable, hp, hown⟩
  | settled => exact .inl ⟨rfl, snapshot, live, hdurable, hp, hown⟩
  | lost candidate live' answer store outcome hpublish hstore houtcome =>
    have hwritten := Disk.commit_written l.store candidate
    rw [show l.store.commit candidate = (store, outcome) from hstore] at hwritten
    cases hwritten with
    | committed => exact absurd rfl houtcome
    | unapplied _ _ _ hfrozen hsame happlied =>
      refine .inl ⟨happlied, snapshot, live, hsame.trans hdurable, hp, fun hnot => ?_⟩
      exact absurd (hnot.symm.trans hfrozen) Bool.false_ne_true
    | uncertain _ _ _ hfrozen hfrozen' hnew happlied =>
      refine .inr ⟨happlied, ⟨candidate, live', hnew, hplan hfrozen (hp' hfrozen) candidate live'
        answer hpublish, fun hnot => ?_⟩, candidate, live', answer, hpublish⟩
      exact absurd (hnot.symm.trans hfrozen') Bool.false_ne_true
  | committed candidate live' answer store hpublish hstore =>
    have hwritten := Disk.commit_written l.store candidate
    rw [show l.store.commit candidate = (store, .committed) from hstore] at hwritten
    cases hwritten with
    | committed _ hfrozen _ hnew happlied =>
      exact .inr ⟨happlied, ⟨candidate, live', hnew, hplan hfrozen (hp' hfrozen) candidate live'
        answer hpublish, fun _ => ⟨rfl, rfl⟩⟩, candidate, live', answer, hpublish⟩
    | unapplied _ _ houtcome => exact absurd rfl houtcome
    | uncertain _ _ houtcome => exact absurd rfl houtcome

/-- The ledger's own values, while they are the durable ones. -/
theorem Backed.of_own (hdurable : l.store.inner.durable = some l.snapshot)
    (h : P l.snapshot l.live) : l.Backed P :=
  ⟨l.snapshot, l.live, hdurable, h, fun _ => ⟨rfl, rfl⟩⟩

/-- The durable snapshot of a ledger is sound for what is computed from its live value. -/
theorem Backed.withLive {τ : Type} {Q : OperationSnapshot → τ → Prop} {f : σ → τ}
    (h : l.Backed fun snapshot live => Q snapshot (f live)) : (l.withLive (f l.live)).Backed Q := by
  obtain ⟨snapshot, live, hdurable, hq, hown⟩ := h
  refine ⟨snapshot, f live, hdurable, hq, fun hfrozen => ?_⟩
  obtain ⟨hsnapshot, rfl⟩ := hown hfrozen
  exact ⟨hsnapshot, rfl⟩

end Ledger

end Tacenta.Client
