import Tacenta.Library.ByteString
import Tacenta.Library.Word64

/-!
# Operation stores

The port through which the coordinator publishes and recovers its combined snapshot, and the handle
it holds. The handle latches after a write that did not commit, keeps generations increasing across
writes whose outcome was unknown, and publishes only over the generation it has seen.

## Main definitions

* `OperationSnapshot`: the combined durable value.
* `OperationStore`: the port, with the provided methods of the source.
* `DurableStore`: the handle.
* `Fate`: what becomes of a write.
-/

namespace Tacenta.Client

/-- The format of the combined snapshot. -/
def operationSnapshotVersion : UInt8 := 2

/-- One combined durable value. -/
structure OperationSnapshot where
  /-- The snapshot's format. -/
  version : UInt8
  /-- Its monotonic generation. -/
  generation : UInt64
  /-- The provider state a client restarts from. -/
  providerState : Bytes
  /-- The group receiver's checkpoint. -/
  applicationState : Bytes
  /-- Send records. -/
  outbox : List Bytes
  /-- Receive records. -/
  inbox : List Bytes
  /-- Deduplication records. -/
  dedup : List Bytes
  /-- Group control records. -/
  groupControls : List Bytes
  /-- How far the application has taken delivery. -/
  deliveryCursor : UInt64
  deriving DecidableEq

/-- A snapshot that holds nothing. -/
def OperationSnapshot.empty (generation : UInt64) : OperationSnapshot where
  version := operationSnapshotVersion
  generation := generation
  providerState := []
  applicationState := []
  outbox := []
  inbox := []
  dedup := []
  groupControls := []
  deliveryCursor := 0

/-- What a store reports for one write. -/
inductive CommitOutcome where
  | committed
  | failed
  | unknown
  deriving DecidableEq

/-- A store could not produce its newest durable snapshot. -/
inductive StoreError where
  | storeError
  deriving DecidableEq

/-- The port that a platform store implements. -/
class OperationStore (S : Type) where
  /-- Publish a snapshot. -/
  commit : S → OperationSnapshot → S × CommitOutcome
  /-- Read the newest durable snapshot. -/
  recover : S → S × Except StoreError (Option OperationSnapshot)
  /-- Whether an earlier write left the store latched. -/
  isFrozen : S → Bool := fun _ => false
  /-- The generation that the next candidate must carry. -/
  nextGeneration : S → UInt64 → Option UInt64 := fun _ current => Word64.checkedAdd current 1
  /-- The generation of the newest durable snapshot. -/
  durableGeneration : S → S × Except StoreError (Option UInt64) := fun s =>
    let (s, recovered) := recover s
    (s, recovered.map fun snapshot => snapshot.map OperationSnapshot.generation)
  /-- Publish a snapshot only over the expected generation. -/
  commitAfter : S → Option UInt64 → OperationSnapshot → S × CommitOutcome :=
    fun s expected snapshot =>
      match durableGeneration s with
      | (s, .ok current) => if current = expected then commit s snapshot else (s, .failed)
      | (s, .error _) => (s, .failed)

/-- What a handle remembers besides the store it wraps. -/
structure Latch where
  /-- Whether a write that did not commit has latched the handle. -/
  frozen : Bool
  /-- The highest generation attempted or recovered. -/
  highWater : UInt64
  /-- The generation of the newest snapshot recovered or published. -/
  observed : Option UInt64
  /-- The highest generation known to be committed. -/
  committed : Option UInt64
  deriving DecidableEq

/-- A handle over a store. -/
structure DurableStore (S : Type) where
  /-- The wrapped store. -/
  inner : S
  /-- What the handle remembers. -/
  latch : Latch

/-- Why `recoverNotBehind` did not yield a snapshot. -/
inductive RecoverError where
  | unreadable
  | rolledBack
  deriving DecidableEq

/-- The larger of two optional generations; nothing is below everything. -/
def maxGeneration : Option UInt64 → Option UInt64 → Option UInt64
  | none, b => b
  | a, none => a
  | some a, some b => some (max a b)

namespace Latch

/-- The latch of a new handle. -/
def new : Latch where
  frozen := false
  highWater := 0
  observed := none
  committed := none

/-- What a recovery does to the latch: it remembers the snapshot and is lifted. -/
def adopt (l : Latch) (recovered : Option OperationSnapshot) : Latch where
  frozen := false
  highWater := match recovered with
    | some snapshot => max l.highWater snapshot.generation
    | none => l.highWater
  observed := recovered.map OperationSnapshot.generation
  committed := match recovered with
    | some snapshot => maxGeneration l.committed (some snapshot.generation)
    | none => l.committed

/-- What a forwarded write does to the latch. -/
def attempt (l : Latch) (snapshot : OperationSnapshot) (outcome : CommitOutcome) : Latch where
  frozen := if outcome = .committed then l.frozen else true
  highWater := max l.highWater snapshot.generation
  observed := if outcome = .committed then some snapshot.generation else l.observed
  committed := if outcome = .committed then maxGeneration l.committed (some snapshot.generation)
    else l.committed

/-- The generation that the next candidate must carry. -/
def nextGeneration (l : Latch) (current : UInt64) : Option UInt64 :=
  Word64.checkedAdd (max current l.highWater) 1

/-- A snapshot older than one that the handle saw committed. -/
def isBehind (l : Latch) (recovered : Option OperationSnapshot) : Bool :=
  match l.committed, recovered with
  | some committed, some snapshot => snapshot.generation < committed
  | _, _ => false

end Latch

namespace DurableStore

variable {S : Type} [OperationStore S]

/-- Publish a snapshot over the generation that the handle has observed. -/
def commit (d : DurableStore S) (snapshot : OperationSnapshot) : DurableStore S × CommitOutcome :=
  if d.latch.frozen then (d, .failed)
  else
    let (inner, outcome) := OperationStore.commitAfter d.inner d.latch.observed snapshot
    (⟨inner, d.latch.attempt snapshot outcome⟩, outcome)

/-- Read the durable snapshot and lift the latch. -/
def recover (d : DurableStore S) :
    DurableStore S × Except StoreError (Option OperationSnapshot) :=
  match OperationStore.recover d.inner with
  | (inner, .ok recovered) => (⟨inner, d.latch.adopt recovered⟩, .ok recovered)
  | (inner, .error e) => (⟨inner, d.latch⟩, .error e)

/-- As `recover`, but refuse a snapshot that is behind what the handle saw committed. -/
def recoverNotBehind (d : DurableStore S) :
    DurableStore S × Except RecoverError (Option OperationSnapshot) :=
  match OperationStore.recover d.inner with
  | (inner, .ok recovered) =>
    if d.latch.isBehind recovered then
      (⟨inner, { d.latch with frozen := true }⟩, .error .rolledBack)
    else (⟨inner, d.latch.adopt recovered⟩, .ok recovered)
  | (inner, .error _) => (⟨inner, d.latch⟩, .error .unreadable)

instance : OperationStore (DurableStore S) where
  commit := commit
  recover := recover
  isFrozen d := d.latch.frozen
  nextGeneration d := d.latch.nextGeneration

theorem commit_of_frozen {d : DurableStore S} (h : d.latch.frozen = true)
    (snapshot : OperationSnapshot) : d.commit snapshot = (d, .failed) := if_pos h

theorem commit_of_not_frozen {d : DurableStore S} (h : d.latch.frozen = false)
    {snapshot : OperationSnapshot} {inner : S} {outcome : CommitOutcome}
    (hinner : OperationStore.commitAfter d.inner d.latch.observed snapshot = (inner, outcome)) :
    d.commit snapshot = (⟨inner, d.latch.attempt snapshot outcome⟩, outcome) := by
  rw [commit, h, if_neg Bool.false_ne_true, hinner]

end DurableStore

/-- What becomes of a write that meets the expected generation: whether it is applied and what is
reported. Only an applied write is reported as committed. -/
structure Fate where
  /-- Whether the write is applied. -/
  applied : Bool
  /-- What is reported. -/
  outcome : CommitOutcome
  applied_of_committed : outcome = .committed → applied = true

end Tacenta.Client
