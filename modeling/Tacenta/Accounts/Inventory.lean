import Mathlib.Data.List.Sort
import Tacenta.Library.Reader
import Tacenta.Library.Word64

/-!
# Device inventories

The lifecycle state of an account's devices: the active bindings, the most recent revocations, and a
generation that each mutation raises by one. A mutation names the generation that it replaces.

What the standalone core decides is a parameter: the limits of a statement, the order of bindings in
it, the keys that it admits, the commitment to a binding, and whether a statement can be encoded.

## Main definitions

* `DeviceInventory`, and the transitions `linkInventory`, `revokeInventory` and `replaceInventory`.
* `encodeInventory`, `decodeInventory`: the stored bytes.
* `Request`: a mutation with its arguments, with `Request.transition` and `Request.encode`.

## Main results

* `Request.transition_advances`: a mutation is of the generation that it names, and raises it by
  one.
* `decodeInventory_eq_some`, `eq_of_decodeInventory`: what is read back, and that what a mutation
  stored is read back if it is read at all.
* `Request.encode_injective`: two requests with the same bytes are the same.
-/

open ByteString Reader Result

namespace Tacenta.Accounts

/-- The number of bytes of an identity key and of a commitment. -/
abbrev keyLen : Nat := 32

/-- A device and its identity key. -/
structure DeviceBinding where
  deviceId : UInt32
  identityPublicKey : FixedBytes keyLen
  capabilities : UInt64
  replacementPredecessor : Option (FixedBytes keyLen)
  deriving DecidableEq

/-- A binding that was retired, and in which generation. -/
structure Revocation where
  binding : DeviceBinding
  terminalGeneration : UInt64
  deriving DecidableEq

/-- The lifecycle state of an account's devices. -/
structure DeviceInventory where
  generation : UInt64
  active : List DeviceBinding
  revocationFloorGeneration : UInt64
  revoked : List Revocation
  deriving DecidableEq

/-- The state of an account without a record. -/
def DeviceInventory.default : DeviceInventory := ⟨0, [], 0, []⟩

/-- Why a mutation was refused. -/
inductive InventoryError (κ : Type) where
  | unknownUser
  | predecessorMismatch
  | generationExhausted
  | duplicateBinding
  | deviceIdInUse
  | bindingRevoked
  | deviceIdRetired
  | identityKeyInUse
  | bindingNotActive
  | replacementPredecessorMismatch
  | unexpectedReplacementPredecessor
  | identityKey (error : κ)
  | idempotencyConflict
  | invalid
  deriving DecidableEq

/-- What the core decides about the lifecycle of devices. -/
structure LifecycleRules (κ : Type) where
  maxRecentRevocations : Nat
  compareBinding : DeviceBinding → DeviceBinding → Ordering
  compareRevocation : Revocation → Revocation → Ordering
  validateIdentityKey : FixedBytes keyLen → Except κ Unit
  bindingCommitment : DeviceBinding → Option (FixedBytes keyLen)
  /-- Whether the statement of a handle and an inventory can be encoded. -/
  encodes : String → DeviceInventory → Bool

/-- What the core decides about statements: the rules of the lifecycle, and limits whose counts fit
in four bytes. -/
structure CoreRules (κ : Type) extends LifecycleRules κ where
  maxActiveBindings : Nat
  maxActiveBindings_lt : maxActiveBindings + 1 < 2 ^ 32
  maxRecentRevocations_lt : maxRecentRevocations < 2 ^ 32

/-- Rules that admit every key and every inventory with at most two bindings. -/
def CoreRules.sample : CoreRules Unit where
  maxActiveBindings := 2
  maxRecentRevocations := 2
  maxActiveBindings_lt := by decide
  maxRecentRevocations_lt := by decide
  compareBinding a b := compare a.deviceId b.deviceId
  compareRevocation a b := compare a.binding.deviceId b.binding.deviceId
  validateIdentityKey _ := .ok ()
  bindingCommitment _ := some (.replicate 32 0)
  encodes _ i := i.active.length ≤ 2

section Transitions

variable {κ : Type} (C : LifecycleRules κ)

/-! ### Transitions -/

/-- The inventory has a statement. -/
def validateInventory (handle : String) (inventory : DeviceInventory) :
    Except (InventoryError κ) Unit := refuseIf (C.encodes handle inventory = false) .invalid

/-- The binding has a key that the core admits. -/
def checkSuppliedBinding (binding : DeviceBinding) : Except (InventoryError κ) Unit :=
  (C.validateIdentityKey binding.identityPublicKey).mapError .identityKey

/-- The rules for a binding that is not yet in the inventory. -/
def bindingIsNew (current : DeviceInventory) (binding : DeviceBinding) :
    Except (InventoryError κ) Unit := do
  refuseIf (current.active.any fun b => b = binding) .duplicateBinding
  refuseIf (current.active.any fun b => b.deviceId = binding.deviceId) .deviceIdInUse
  refuseIf (current.active.any fun b => b.identityPublicKey = binding.identityPublicKey)
    .identityKeyInUse
  refuseIf (current.revoked.any fun r => r.binding = binding) .bindingRevoked
  refuseIf (current.revoked.any fun r => r.binding.deviceId = binding.deviceId) .deviceIdRetired
  refuseIf (current.revoked.any fun r => r.binding.identityPublicKey = binding.identityPublicKey)
    .identityKeyInUse

/-- The oldest revocation, the first of them, and the others. -/
def splitOldest : List Revocation → Option (Revocation × List Revocation)
  | [] => none
  | r :: rs =>
    match splitOldest rs with
    | none => some (r, rs)
    | some (oldest, others) =>
      if r.terminalGeneration ≤ oldest.terminalGeneration then some (r, rs)
      else some (oldest, r :: others)

/-- Drop the oldest revocations one after the other, and raise the floor to each. -/
def dropOldest : Nat → UInt64 → List Revocation → UInt64 × List Revocation
  | 0, floor, revoked => (floor, revoked)
  | n + 1, floor, revoked =>
    match splitOldest revoked with
    | none => (floor, revoked)
    | some (oldest, others) => dropOldest n (max floor oldest.terminalGeneration) others

/-- Keep only the most recent revocations, in order. -/
def compactRevocations (inventory : DeviceInventory) : DeviceInventory :=
  let (floor, revoked) := dropOldest (inventory.revoked.length - C.maxRecentRevocations)
    inventory.revocationFloorGeneration inventory.revoked
  { inventory with
    revocationFloorGeneration := floor
    revoked := revoked.insertionSort fun a b => (C.compareRevocation a b).isLE }

def nextGeneration (current : DeviceInventory) : Except (InventoryError κ) UInt64 :=
  orRefuse (Word64.checkedAdd current.generation 1) .generationExhausted

/-- The bindings with one more, in order. -/
def insertBinding (active : List DeviceBinding) (binding : DeviceBinding) : List DeviceBinding :=
  (active ++ [binding]).insertionSort fun a b => (C.compareBinding a b).isLE

/-- Link a new device. -/
def linkInventory (handle : String) (current : DeviceInventory) (predecessorGeneration : UInt64)
    (binding : DeviceBinding) : Except (InventoryError κ) DeviceInventory := do
  checkSuppliedBinding C binding
  refuseIf binding.replacementPredecessor.isSome .unexpectedReplacementPredecessor
  refuseIf (current.generation ≠ predecessorGeneration) .predecessorMismatch
  refuseIf (current.active.any fun b => b = binding) .duplicateBinding
  bindingIsNew current binding
  let generation ← nextGeneration current
  let next := { current with generation, active := insertBinding C current.active binding }
  validateInventory C handle next
  pure next

/-- Revoke an active binding. -/
def revokeInventory (handle : String) (current : DeviceInventory) (predecessorGeneration : UInt64)
    (retired : DeviceBinding) : Except (InventoryError κ) DeviceInventory := do
  checkSuppliedBinding C retired
  refuseIf (current.generation ≠ predecessorGeneration) .predecessorMismatch
  refuseIf (current.active.all fun b => b ≠ retired) .bindingNotActive
  let generation ← nextGeneration current
  let next := compactRevocations C { current with
    generation
    active := current.active.erase retired
    revoked := current.revoked ++ [⟨retired, generation⟩] }
  validateInventory C handle next
  pure next

/-- Retire an active binding and activate its successor, which commits to it. -/
def replaceInventory (handle : String) (current : DeviceInventory) (predecessorGeneration : UInt64)
    (retired replacement : DeviceBinding) : Except (InventoryError κ) DeviceInventory := do
  checkSuppliedBinding C retired
  checkSuppliedBinding C replacement
  let commitment ← orRefuse (C.bindingCommitment retired) .invalid
  refuseIf (replacement.replacementPredecessor ≠ some commitment) .replacementPredecessorMismatch
  let revoked ← revokeInventory C handle current predecessorGeneration retired
  bindingIsNew revoked replacement
  let next := { revoked with active := insertBinding C revoked.active replacement }
  validateInventory C handle next
  pure next

end Transitions

variable {κ : Type} (C : CoreRules κ)

/-! ### Stored bytes -/

def bindingBytes (b : DeviceBinding) : Bytes :=
  u32Bytes b.deviceId ++ b.identityPublicKey.val ++ u64Bytes b.capabilities ++
    match b.replacementPredecessor with
    | some predecessor => 1 :: predecessor.val
    | none => [0]

def revocationBytes (r : Revocation) : Bytes :=
  bindingBytes r.binding ++ u64Bytes r.terminalGeneration

def encodeInventory (i : DeviceInventory) : Bytes :=
  u64Bytes i.generation ++ u32Bytes i.active.length.toUInt32 ++ i.active.flatMap bindingBytes ++
    u64Bytes i.revocationFloorGeneration ++ u32Bytes i.revoked.length.toUInt32 ++
      i.revoked.flatMap revocationBytes

/-- Take the predecessor of a binding. -/
def takePredecessor : Reader Unit (Option (FixedBytes keyLen)) := do
  let present ← Reader.takeByte ()
  if present = 0 then pure none
  else if present = 1 then
    let predecessor ← Reader.takeArray () keyLen
    pure (some predecessor)
  else throw ()

def takeBinding : Reader Unit DeviceBinding := do
  let deviceId ← Reader.takeU32 ()
  let identityPublicKey ← Reader.takeArray () keyLen
  let capabilities ← Reader.takeU64 ()
  let replacementPredecessor ← takePredecessor
  pure ⟨deviceId, identityPublicKey, capabilities, replacementPredecessor⟩

def takeRevocation : Reader Unit Revocation := do
  let binding ← takeBinding
  let terminalGeneration ← Reader.takeU64 ()
  pure ⟨binding, terminalGeneration⟩

/-- Take values after their number, which is limited. -/
def takeLimited {α : Type} (limit : Nat) (p : Reader Unit α) : Reader Unit (List α) := do
  let count ← Reader.takeU32 ()
  refuseIf (limit < count.toNat) ()
  Reader.many p count.toNat

/-- Take an inventory with limits on its lists. -/
def takeInventory (maxActive maxRevoked : Nat) : Reader Unit DeviceInventory := do
  let generation ← Reader.takeU64 ()
  let active ← takeLimited maxActive takeBinding
  let revocationFloorGeneration ← Reader.takeU64 ()
  let revoked ← takeLimited maxRevoked takeRevocation
  Reader.finish ()
  pure ⟨generation, active, revocationFloorGeneration, revoked⟩

/-- Read stored bytes. -/
def decodeInventory (bytes : Bytes) : Option DeviceInventory :=
  ((takeInventory C.maxActiveBindings C.maxRecentRevocations).run' bytes).toOption

variable {s rest : Bytes} {i : DeviceInventory}

theorem run_takePredecessor_eq_ok {p : Option (FixedBytes keyLen)} :
    takePredecessor.run s = .ok (p, rest) ↔
      s = (match p with
        | some predecessor => 1 :: predecessor.val
        | none => [0]) ++ rest := by
  simp only [takePredecessor, run_bind_eq_ok, run_takeByte_eq_ok]
  constructor
  · rintro ⟨present, s', rfl, h⟩
    split at h
    · next hzero =>
      obtain ⟨rfl, rfl⟩ := run_pure_eq_ok.mp h
      rw [hzero]
      rfl
    split at h
    · next hone =>
      simp only [run_bind_eq_ok, run_takeArray_eq_ok, run_pure_eq_ok] at h
      obtain ⟨predecessor, _, rfl, rfl, rfl⟩ := h
      rw [hone]
      rfl
    · cases h
  · rintro rfl
    cases p with
    | none => exact ⟨0, rest, rfl, rfl⟩
    | some predecessor =>
      refine ⟨1, predecessor.val ++ rest, rfl, ?_⟩
      rw [if_neg (by decide), if_pos rfl]
      simp only [run_bind_eq_ok, run_takeArray_eq_ok, run_pure_eq_ok]
      exact ⟨predecessor, rest, rfl, rfl, rfl⟩

theorem run_takeBinding_eq_ok {b : DeviceBinding} :
    takeBinding.run s = .ok (b, rest) ↔ s = bindingBytes b ++ rest := by
  simp only [takeBinding, run_bind_eq_ok, run_takeU32_eq_ok,
    run_takeArray_eq_ok, run_takeU64_eq_ok, run_takePredecessor_eq_ok,
    run_pure_eq_ok, bindingBytes, List.append_assoc]
  constructor
  · rintro ⟨deviceId, _, rfl, key, _, rfl, capabilities, _, rfl, predecessor, _, rfl, rfl, rfl⟩
    rfl
  · rintro rfl
    exact ⟨_, _, rfl, _, _, rfl, _, _, rfl, _, _, rfl, rfl, rfl⟩

theorem run_takeRevocation_eq_ok {r : Revocation} :
    takeRevocation.run s = .ok (r, rest) ↔ s = revocationBytes r ++ rest := by
  simp only [takeRevocation, run_bind_eq_ok, run_takeBinding_eq_ok,
    run_takeU64_eq_ok, run_pure_eq_ok, revocationBytes, List.append_assoc]
  constructor
  · rintro ⟨binding, _, rfl, terminal, _, rfl, rfl, rfl⟩
    rfl
  · rintro rfl
    exact ⟨_, _, rfl, _, _, rfl, rfl, rfl⟩

theorem run_takeLimited_eq_ok {α : Type} {limit : Nat} (hlimit : limit < 2 ^ 32)
    {p : Reader Unit α} {encode : α → Bytes}
    (hp : ∀ s x rest, p.run s = .ok (x, rest) ↔ s = encode x ++ rest) {xs : List α} :
    (takeLimited limit p).run s = .ok (xs, rest) ↔
      xs.length ≤ limit ∧ s = u32Bytes xs.length.toUInt32 ++ xs.flatMap encode ++ rest := by
  have hvalid : ∀ s x rest, p.run s = .ok (x, rest) ↔ (fun _ => True) x ∧ s = encode x ++ rest :=
    fun s x rest => by rw [hp, true_and]
  have hmany (n : Nat) (s : Bytes) : (Reader.many p n).run s = .ok (xs, rest) ↔
      xs.length = n ∧ s = xs.flatMap encode ++ rest := by
    rw [run_many_eq_ok hvalid]
    simp
  simp only [takeLimited, run_bind_eq_ok, run_takeU32_eq_ok, run_lift_eq_ok,
    refuseIf_eq_ok, hmany, not_lt, List.append_assoc]
  constructor
  · rintro ⟨count, _, rfl, _, _, ⟨hle, rfl⟩, hlen, rfl⟩
    rw [hlen, Nat.toUInt32, UInt32.ofNat_toNat]
    exact ⟨hle, rfl⟩
  · rintro ⟨hle, rfl⟩
    have hcount : xs.length.toUInt32.toNat = xs.length := by
      rw [toNat_toUInt32_of_lt (by omega)]
    exact ⟨_, _, rfl, (), _, ⟨hcount.le.trans hle, rfl⟩, hcount.symm, rfl⟩

theorem run_takeInventory_eq_ok {maxActive maxRevoked : Nat} (hactive : maxActive < 2 ^ 32)
    (hrevoked : maxRevoked < 2 ^ 32) :
    (takeInventory maxActive maxRevoked).run s = .ok (i, rest) ↔
      (i.active.length ≤ maxActive ∧ i.revoked.length ≤ maxRevoked) ∧ s = encodeInventory i ∧
        rest = [] := by
  simp only [takeInventory, run_bind_eq_ok, run_takeU64_eq_ok,
    run_takeLimited_eq_ok hactive fun _ _ _ => run_takeBinding_eq_ok,
    run_takeLimited_eq_ok hrevoked fun _ _ _ => run_takeRevocation_eq_ok,
    run_finish_eq_ok, run_pure_eq_ok, encodeInventory, List.append_assoc]
  constructor
  · rintro ⟨generation, _, rfl, active, _, ⟨ha, rfl⟩, floor, _, rfl, revoked, _, ⟨hr, rfl⟩, _, _,
      ⟨rfl, rfl⟩, rfl, rfl⟩
    rw [List.append_nil]
    exact ⟨⟨ha, hr⟩, rfl, rfl⟩
  · rintro ⟨⟨ha, hr⟩, rfl, rfl⟩
    refine ⟨_, _, rfl, _, _, ⟨ha, rfl⟩, _, _, rfl, i.revoked, [], ⟨hr, ?_⟩, (), [], ⟨rfl, rfl⟩, rfl,
      rfl⟩
    rw [List.append_nil]

theorem decodeInventory_eq_some {bytes : Bytes} :
    decodeInventory C bytes = some i ↔
      (i.active.length ≤ C.maxActiveBindings ∧ i.revoked.length ≤ C.maxRecentRevocations) ∧
        bytes = encodeInventory i := by
  have hactive : C.maxActiveBindings < 2 ^ 32 := (Nat.lt_succ_self _).trans C.maxActiveBindings_lt
  rw [decodeInventory, toOption_eq_some, run'_eq_ok]
  simp only [run_takeInventory_eq_ok hactive C.maxRecentRevocations_lt]
  constructor
  · rintro ⟨rest, hle, rfl, -⟩
    exact ⟨hle, rfl⟩
  · rintro ⟨hle, rfl⟩
    exact ⟨[], hle, rfl, rfl⟩

/-- Two inventories with the same bytes are the same, if the lengths of their lists fit. -/
theorem encodeInventory_inj {j : DeviceInventory}
    (hi : i.active.length < 2 ^ 32 ∧ i.revoked.length < 2 ^ 32)
    (hj : j.active.length < 2 ^ 32 ∧ j.revoked.length < 2 ^ 32)
    (h : encodeInventory i = encodeInventory j) : i = j := by
  have hread (k : DeviceInventory) (hk : k.active.length < 2 ^ 32 ∧ k.revoked.length < 2 ^ 32)
      (hs : encodeInventory i = encodeInventory k) :
      (takeInventory (2 ^ 32 - 1) (2 ^ 32 - 1)).run (encodeInventory i) = .ok (k, []) :=
    (run_takeInventory_eq_ok (by decide) (by decide)).mpr
      ⟨⟨Nat.le_sub_one_of_lt hk.1, Nat.le_sub_one_of_lt hk.2⟩, hs, rfl⟩
  exact (Prod.mk.inj (Except.ok.inj ((hread i hi rfl).symm.trans (hread j hj h)))).1

/-! ### Requests -/

/-- A mutation and its arguments. -/
inductive Request where
  | link (predecessorGeneration : UInt64) (binding : DeviceBinding)
  | revoke (predecessorGeneration : UInt64) (retired : DeviceBinding)
  | replace (predecessorGeneration : UInt64) (retired replacement : DeviceBinding)
  deriving DecidableEq

namespace Request

/-- The generation that the request replaces. -/
def predecessorGeneration : Request → UInt64
  | link predecessorGeneration _ => predecessorGeneration
  | revoke predecessorGeneration _ => predecessorGeneration
  | replace predecessorGeneration _ _ => predecessorGeneration

/-- The rule of the request. -/
def transition (C : LifecycleRules κ) (handle : String) (current : DeviceInventory) :
    Request → Except (InventoryError κ) DeviceInventory
  | link predecessor binding => linkInventory C handle current predecessor binding
  | revoke predecessor retired => revokeInventory C handle current predecessor retired
  | replace predecessor retired replacement =>
    replaceInventory C handle current predecessor retired replacement

def encode : Request → Bytes
  | link predecessor binding => u64Bytes predecessor ++ bindingBytes binding
  | revoke predecessor retired =>
    ascii "TCIL" ++ [1, 2] ++ u64Bytes predecessor ++ bindingBytes retired
  | replace predecessor retired replacement =>
    ascii "TCIL" ++ [1, 1] ++ u64Bytes predecessor ++ bindingBytes retired ++
      bindingBytes replacement

end Request

/-! ### What a transition changes -/

section Advances

variable {C : LifecycleRules κ}

theorem length_of_splitOldest {rs others : List Revocation} {oldest : Revocation}
    (h : splitOldest rs = some (oldest, others)) : others.length + 1 = rs.length := by
  induction rs generalizing oldest others with
  | nil => cases h
  | cons r rs ih =>
    rw [splitOldest] at h
    split at h
    · obtain ⟨-, rfl⟩ := Prod.mk.inj (Option.some_inj.mp h)
      rfl
    · next hsome =>
      split at h
      · obtain ⟨-, rfl⟩ := Prod.mk.inj (Option.some_inj.mp h)
        rfl
      · obtain ⟨-, rfl⟩ := Prod.mk.inj (Option.some_inj.mp h)
        rw [List.length_cons, List.length_cons, ih hsome]

theorem splitOldest_eq_none {rs : List Revocation} (h : splitOldest rs = none) : rs = [] := by
  cases rs with
  | nil => rfl
  | cons r rs =>
    rw [splitOldest] at h
    split at h
    · cases h
    · split at h <;> cases h

theorem length_dropOldest (n : Nat) (floor : UInt64) (rs : List Revocation) :
    (dropOldest n floor rs).2.length = rs.length - n := by
  induction n generalizing floor rs with
  | zero => rfl
  | succ n ih =>
    rw [dropOldest]
    split
    · next hnone =>
      rw [splitOldest_eq_none hnone]
      simp
    · next hsome =>
      have := length_of_splitOldest hsome
      rw [ih]
      omega

/-- A transition as the stores see it: it is of the generation that the request names, raises it by
one, and adds at most one binding; and what it remembers of the revocations is limited. -/
structure Advances (C : LifecycleRules κ) (predecessor : UInt64) (current next : DeviceInventory) :
    Prop where
  generation_eq : current.generation = predecessor
  generation_succ : next.generation.toNat = current.generation.toNat + 1
  length_active : next.active.length ≤ current.active.length + 1
  length_revoked : next.revoked.length ≤ max current.revoked.length C.maxRecentRevocations

variable {current next : DeviceInventory} {predecessor : UInt64} {handle : String}

theorem nextGeneration_eq_ok {generation : UInt64} :
    (nextGeneration current : Except (InventoryError κ) UInt64) = .ok generation ↔
      generation.toNat = current.generation.toNat + 1 := by
  rw [nextGeneration, orRefuse_eq_ok, Word64.checkedAdd_eq_some]
  rfl

theorem length_insertBinding (active : List DeviceBinding) (binding : DeviceBinding) :
    (insertBinding C active binding).length = active.length + 1 := by
  rw [insertBinding, List.length_insertionSort, List.length_append, List.length_singleton]

theorem linkInventory_advances {binding : DeviceBinding}
    (h : linkInventory C handle current predecessor binding = .ok next) :
    Advances C predecessor current next := by
  simp only [linkInventory, bind_eq_ok, refuseIf_eq_ok, pure_eq_ok, nextGeneration_eq_ok,
    not_not] at h
  obtain ⟨_, -, _, -, _, hgen, _, -, _, -, generation, hnext, _, -, rfl⟩ := h
  exact ⟨hgen, hnext, (length_insertBinding _ _).le, le_max_left _ _⟩

theorem revokeInventory_advances {retired : DeviceBinding}
    (h : revokeInventory C handle current predecessor retired = .ok next) :
    Advances C predecessor current next ∧ next.active.length + 1 = current.active.length := by
  simp only [revokeInventory, bind_eq_ok, refuseIf_eq_ok, pure_eq_ok, nextGeneration_eq_ok,
    not_not] at h
  obtain ⟨_, -, _, hgen, _, hactive, generation, hnext, _, -, rfl⟩ := h
  have hmem : retired ∈ current.active := by
    simpa using hactive
  have hpos := List.length_pos_of_mem hmem
  have hlength : (current.active.erase retired).length + 1 = current.active.length := by
    rw [List.length_erase_of_mem hmem]
    omega
  refine ⟨⟨hgen, hnext, ?_, ?_⟩, hlength⟩
  · exact (Nat.le_succ _).trans (hlength.le.trans (Nat.le_succ _))
  · rw [compactRevocations, List.length_insertionSort, length_dropOldest]
    omega

theorem replaceInventory_advances {retired replacement : DeviceBinding}
    (h : replaceInventory C handle current predecessor retired replacement = .ok next) :
    Advances C predecessor current next := by
  simp only [replaceInventory, bind_eq_ok, refuseIf_eq_ok, pure_eq_ok] at h
  obtain ⟨_, -, _, -, _, -, _, -, revoked, hrevoked, _, -, _, -, rfl⟩ := h
  obtain ⟨hadvances, hlength⟩ := revokeInventory_advances hrevoked
  refine ⟨hadvances.generation_eq, hadvances.generation_succ, ?_, hadvances.length_revoked⟩
  rw [length_insertBinding]
  exact hlength.le.trans (Nat.le_succ _)

theorem Request.transition_advances {request : Request}
    (h : request.transition C handle current = .ok next) :
    Advances C request.predecessorGeneration current next := by
  cases request with
  | link => exact linkInventory_advances h
  | revoke => exact (revokeInventory_advances h).1
  | replace => exact replaceInventory_advances h

end Advances

variable {C}

/-- The inventory could have been stored by a mutation: its lists are at most one longer than what
is read back. -/
structure DeviceInventory.Stored (C : CoreRules κ) (i : DeviceInventory) : Prop where
  length_active : i.active.length ≤ C.maxActiveBindings + 1
  length_revoked : i.revoked.length ≤ C.maxRecentRevocations

theorem Advances.stored {predecessor : UInt64} {current next : DeviceInventory}
    (h : Advances C.toLifecycleRules predecessor current next)
    (hcurrent : current.active.length ≤ C.maxActiveBindings ∧
      current.revoked.length ≤ C.maxRecentRevocations) : next.Stored C :=
  ⟨h.length_active.trans (Nat.succ_le_succ hcurrent.1),
    h.length_revoked.trans (max_le hcurrent.2 (Nat.le_refl _))⟩

/-- What a mutation stored is read back, if it is read at all. -/
theorem eq_of_decodeInventory {i j : DeviceInventory} (hi : i.Stored C)
    (h : decodeInventory C (encodeInventory i) = some j) : j = i := by
  obtain ⟨⟨hactive, hrevoked⟩, hbytes⟩ := (decodeInventory_eq_some C).mp h
  have hlimitA := C.maxActiveBindings_lt
  have hlimitR := C.maxRecentRevocations_lt
  refine (encodeInventory_inj ⟨?_, ?_⟩ ⟨?_, ?_⟩ hbytes).symm
  · exact hi.length_active.trans_lt hlimitA
  · exact hi.length_revoked.trans_lt hlimitR
  · exact (hactive.trans (Nat.le_succ _)).trans_lt hlimitA
  · exact hrevoked.trans_lt hlimitR

/-! ### The bytes of requests

A link, a revocation and a replacement are encoded without a common frame. Their lengths tell them
apart. -/

theorem length_bindingBytes (b : DeviceBinding) :
    (bindingBytes b).length = 45 ∨ (bindingBytes b).length = 77 := by
  rw [bindingBytes]
  cases b.replacementPredecessor <;> simp [keyLen]

/-- The lengths of the requests of a kind. -/
def Request.lengths : Request → List Nat
  | link .. => [53, 85]
  | revoke .. => [59, 91]
  | replace .. => [104, 136, 168]

theorem Request.length_encode (r : Request) : r.encode.length ∈ r.lengths := by
  cases r with
  | link p b => rcases length_bindingBytes b with h | h <;> simp [encode, lengths, h]
  | revoke p b => rcases length_bindingBytes b with h | h <;> simp [encode, lengths, h, ascii]
  | replace p b b' =>
    rcases length_bindingBytes b with h | h <;>
      rcases length_bindingBytes b' with h' | h' <;> simp [encode, lengths, h, h', ascii]

/-- Two requests with the same bytes are the same. -/
theorem Request.encode_injective : Function.Injective Request.encode := by
  have hword {x y : UInt64} {rest rest' : Bytes} (h : u64Bytes x ++ rest = u64Bytes y ++ rest') :
      x = y ∧ rest = rest' :=
    Reader.eq_of_append_eq (p := Reader.takeU64 ()) (fun _ _ _ => Reader.run_takeU64_eq_ok) h
  have hbinding {b b' : DeviceBinding} {rest rest' : Bytes}
      (h : bindingBytes b ++ rest = bindingBytes b' ++ rest') : b = b' ∧ rest = rest' :=
    Reader.eq_of_append_eq (fun _ _ _ => run_takeBinding_eq_ok) h
  have hlast {b b' : DeviceBinding} (h : bindingBytes b = bindingBytes b') : b = b' :=
    (hbinding (congrArg (· ++ []) h)).1
  intro r r' h
  have hr := r.length_encode
  have hr' := r'.length_encode
  rw [h] at hr
  cases r with
  | link p b =>
    cases r' with
    | link p' b' =>
      obtain ⟨rfl, hb⟩ := hword h
      rw [hlast hb]
    | revoke | replace => simp [lengths] at hr hr'; omega
  | revoke p b =>
    cases r' with
    | revoke p' b' =>
      obtain ⟨rfl, hb⟩ := hword (by simpa [encode] using h)
      rw [hlast hb]
    | link | replace => simp [lengths] at hr hr'; omega
  | replace p b c =>
    cases r' with
    | replace p' b' c' =>
      obtain ⟨rfl, hbs⟩ := hword (by simpa [encode] using h)
      obtain ⟨rfl, hb⟩ := hbinding hbs
      rw [hlast hb]
    | link | revoke => simp [lengths] at hr hr'; omega

end Tacenta.Accounts
