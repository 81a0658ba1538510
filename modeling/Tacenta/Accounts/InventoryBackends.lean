import Tacenta.Accounts.Store
import Tacenta.Library.Execution
import Tacenta.Library.Retry

/-!
# Two backends of the account inventories

The inventories of the accounts are kept in memory, with one table of completed links and another of
the other completed mutations, or in a database, as bytes, with one table of completed mutations
under the bytes of their requests. Run one mutation after the other, both are the same machine:
requests that are safe to retry.

## Main definitions

* `MutationCall`, `Store.mutate`: a mutation of the store in memory.
* `SerialStore`, `SerialStore.mutate`: the database, and a mutation as one transaction.
* `retryRules`: the machine that both are.

## Main results

* `Store.mutate_simulates`, `SerialStore.mutate_simulates`: both backends answer as the machine
  does.
* `backends_agree`: so they give the same answers and hold the same inventories, and a request that
  succeeded is answered the same from then on.
-/

open ByteString Result

namespace Tacenta.Accounts

/-! ### The machine -/

/-- A mutation of the inventory of an account, under a retry key. -/
structure MutationCall where
  tenant : TenantId
  username : String
  key : IdempotencyKey
  request : Request

variable {κ : Type} (X : Platform) (C : CoreRules κ)

/-- The account that the call names, with the key and the request. -/
def MutationCall.retry (c : MutationCall) : Retry.Call Account IdempotencyKey Request :=
  ⟨(c.tenant, X.normalize c.username), c.key, c.request⟩

/-- Mutations of the accounts with the given handles, as requests that are safe to retry. -/
def retryRules (handles : Account → Option String) :
    Retry.Rules Account Request DeviceInventory (InventoryError κ) where
  unknown := .unknownUser
  conflict := .idempotencyConflict
  initial := .default
  transition account := (handles account).map fun handle request current =>
    request.transition C.toLifecycleRules handle current

/-- The inventories that were written, and the mutations that were completed. -/
abbrev RetryState := Retry.State Account IdempotencyKey Request DeviceInventory

/-! ### The store in memory -/

/-- The handle of an account that exists. -/
def Store.lockAccount (a : Store) (account : Account) : Option String :=
  if account ∈ a.users then
    (a.tenants.lookup account.1).map fun record => record.username ++ "/" ++ account.2
  else none

/-- Run a mutation on the store in memory. -/
def Store.mutate (a : Store) (c : MutationCall) :
    Store × Except (InventoryError κ) DeviceInventory :=
  match c.request with
  | .link predecessor binding =>
    a.settle (a.linkDeviceBinding X C c.tenant c.username predecessor c.key binding)
  | .revoke predecessor retired =>
    a.settle (a.revokeDeviceBinding X C c.tenant c.username predecessor c.key retired)
  | .replace predecessor retired replacement =>
    a.settle (a.replaceDeviceBinding X C c.tenant c.username predecessor c.key retired replacement)

/-- The link that was completed, with its result. -/
def InventoryMutation.completed (m : InventoryMutation) : Request × DeviceInventory :=
  (.link m.predecessorGeneration m.binding, m.result)

/-- The mutation as a request. -/
def LifecycleRequest.toRequest : LifecycleRequest → Request
  | .replace predecessor retired replacement => .replace predecessor retired replacement
  | .revoke predecessor retired => .revoke predecessor retired

/-- The mutation that was completed, with its result. -/
def LifecycleMutation.completed (m : LifecycleMutation) : Request × DeviceInventory :=
  (m.request.toRequest, m.result)

theorem LifecycleRequest.toRequest_inj {r r' : LifecycleRequest} :
    r.toRequest = r'.toRequest ↔ r = r' := by
  cases r <;> cases r' <;> simp [toRequest]

theorem LifecycleRequest.transition_eq (r : LifecycleRequest) (handle : String)
    (current : DeviceInventory) :
    r.transition C handle current = r.toRequest.transition C.toLifecycleRules handle current := by
  cases r <;> rfl

/-- The store with a completed link. -/
def Store.withLink (a : Store) (account : Account) (key : IdempotencyKey) (predecessor : UInt64)
    (binding : DeviceBinding) (next : DeviceInventory) : Store :=
  { a with
    deviceInventories := a.deviceInventories.insert account next
    inventoryMutations := a.inventoryMutations.insert (account, key) ⟨predecessor, binding, next⟩ }

/-- The store with another completed mutation. -/
def Store.withLifecycle (a : Store) (account : Account) (key : IdempotencyKey)
    (request : LifecycleRequest) (next : DeviceInventory) : Store :=
  { a with
    deviceInventories := a.deviceInventories.insert account next
    inventoryLifecycleMutations :=
      a.inventoryLifecycleMutations.insert (account, key) ⟨request, next⟩ }

/-- What was completed under the key, in the table of the kind of the request. -/
def Store.prior (a : Store) (id : Account × IdempotencyKey) :
    Request → Option (Request × DeviceInventory)
  | .link .. => (a.inventoryMutations.lookup id).map InventoryMutation.completed
  | .revoke .. | .replace .. =>
    (a.inventoryLifecycleMutations.lookup id).map LifecycleMutation.completed

/-- What was completed under the key, in the other table. -/
def Store.clash (a : Store) (id : Account × IdempotencyKey) :
    Request → Option (Request × DeviceInventory)
  | .link .. => (a.inventoryLifecycleMutations.lookup id).map LifecycleMutation.completed
  | .revoke .. | .replace .. => (a.inventoryMutations.lookup id).map InventoryMutation.completed

/-- The store with a completed mutation. -/
def Store.written (a : Store) (account : Account) (key : IdempotencyKey) :
    Request → DeviceInventory → Store
  | .link predecessor binding => a.withLink account key predecessor binding
  | .revoke predecessor retired => a.withLifecycle account key (.revoke predecessor retired)
  | .replace predecessor retired replacement =>
    a.withLifecycle account key (.replace predecessor retired replacement)

/-- What links and the other mutations do alike. -/
def Store.attempt (a : Store) (c : MutationCall) :
    Except (InventoryError κ) (Store × DeviceInventory) := do
  let account := (c.tenant, X.normalize c.username)
  refuseIf (account ∉ a.users) .unknownUser
  refuseIf ((a.clash (account, c.key) c.request).isSome = true) .idempotencyConflict
  match a.prior (account, c.key) c.request with
  | some prior => do
    refuseIf (prior.1 ≠ c.request) .idempotencyConflict
    pure (a, prior.2)
  | none => do
    let handle ← orRefuse (a.handle X c.tenant account.2) .unknownUser
    let next ← c.request.transition C.toLifecycleRules handle
      ((a.deviceInventories.lookup account).getD .default)
    pure (a.written account c.key c.request next, next)

/-- The store in memory holds what the machine holds: a completed mutation is in one of the two
tables, and is one of an account that exists. -/
structure Store.Implements (handles : Account → Option String) (a : Store) (t : RetryState) : Prop
    where
  lockAccount : ∀ account, a.lockAccount account = handles account
  value : ∀ account, a.deviceInventories.lookup account = t.value account
  completed : ∀ account key, t.completed account key =
    ((a.inventoryMutations.lookup (account, key)).map InventoryMutation.completed).or
      ((a.inventoryLifecycleMutations.lookup (account, key)).map LifecycleMutation.completed)
  exclusive : ∀ id, a.inventoryMutations.lookup id = none ∨
    a.inventoryLifecycleMutations.lookup id = none
  known : ∀ account key, handles account = none → t.completed account key = none

section Memory

variable {X C} {handles : Account → Option String} {a : Store} {t : RetryState}

theorem Store.handle_eq_lockAccount {tenant : TenantId} {username : String}
    (h : (tenant, X.normalize username) ∈ a.users) :
    a.handle X tenant (X.normalize username) = a.lockAccount (tenant, X.normalize username) := by
  rw [Store.handle, Store.lockAccount, if_pos h, X.normalize_normalize]

theorem Store.mem_users_of_lockAccount {account : Account} {handle : String}
    (h : a.lockAccount account = some handle) : account ∈ a.users := by
  rw [Store.lockAccount] at h
  split at h
  · assumption
  · cases h

namespace Store.Implements

variable {account : Account} {key : IdempotencyKey} {handle : String}

theorem exclusive_of (h : Implements handles a t) (id : Account × IdempotencyKey)
    (request : Request) : a.prior id request = none ∨ a.clash id request = none := by
  rcases h.exclusive id with hnone | hnone <;> cases request <;>
    simp [Store.prior, Store.clash, hnone]

theorem completed_eq (h : Implements handles a t) (account : Account) (key : IdempotencyKey)
    (request : Request) :
    t.completed account key =
      (a.prior (account, key) request).or (a.clash (account, key) request) := by
  rw [h.completed]
  cases request with
  | link => rfl
  | revoke | replace =>
    rw [Store.prior, Store.clash]
    rcases h.exclusive (account, key) with hnone | hnone <;> rw [hnone] <;> simp

/-- Nothing was completed under the key: neither table has it. -/
theorem lookup_eq_none (h : Implements handles a t) (hnew : t.completed account key = none)
    (request : Request) :
    a.prior (account, key) request = none ∧ a.clash (account, key) request = none := by
  rwa [h.completed_eq account key request, Option.or_eq_none_iff] at hnew

/-- A request was completed under the key: its table has it, or the other one has it. -/
theorem lookup_eq_some (h : Implements handles a t) {entry : Request × DeviceInventory}
    (hentry : t.completed account key = some entry) (request : Request) :
    (a.prior (account, key) request = some entry ∧ a.clash (account, key) request = none) ∨
      a.clash (account, key) request = some entry := by
  rw [h.completed_eq account key request] at hentry
  rcases h.exclusive_of (account, key) request with hnone | hnone <;> rw [hnone] at hentry
  · exact .inr (by simpa using hentry)
  · exact .inl ⟨by simpa using hentry, hnone⟩

theorem known_complete (h : Implements handles a t)
    (c : Retry.Call Account IdempotencyKey Request)
    (hhandle : handles c.account = some handle) (next : DeviceInventory) (account : Account)
    (key : IdempotencyKey) (hunknown : handles account = none) :
    (t.complete c next).completed account key = none := by
  rw [Retry.completed_complete, if_neg, h.known account key hunknown]
  rintro ⟨rfl, -⟩
  rw [hhandle] at hunknown
  cases hunknown

/-- A completed mutation is written to its table. -/
theorem complete (h : Implements handles a t) (hhandle : handles account = some handle)
    (hnew : t.completed account key = none) (request : Request) (next : DeviceInventory) :
    Implements handles (a.written account key request next)
      (t.complete ⟨account, key, request⟩ next) where
  lockAccount := by cases request <;> exact h.lockAccount
  value account' := by
    rw [Retry.value_complete, ← h.value]
    cases request <;> exact Table.lookup_insert_eq _ _ _ _
  completed account' key' := by
    rw [h.completed, Option.or_eq_none_iff, Option.map_eq_none_iff] at hnew
    rw [Retry.completed_complete, h.completed]
    cases request <;> rw [Store.written] <;>
      simp only [Store.withLink, Store.withLifecycle, Table.lookup_insert_eq, Prod.mk.injEq] <;>
        split
    all_goals first
      | rfl
      | next hid => rw [hid.1, hid.2, hnew.1]; rfl
  exclusive id := by
    rw [h.completed, Option.or_eq_none_iff, Option.map_eq_none_iff, Option.map_eq_none_iff] at hnew
    cases request <;> rw [Store.written] <;>
      simp only [Store.withLink, Store.withLifecycle, Table.lookup_insert_eq] <;> split
    all_goals first
      | exact h.exclusive id
      | next hid => rw [hid]; simp [hnew]
  known := h.known_complete ⟨account, key, _⟩ hhandle next

end Store.Implements

theorem Store.clash_ne {id : Account × IdempotencyKey} {request : Request}
    {entry : Request × DeviceInventory} (h : a.clash id request = some entry) :
    entry.1 ≠ request := by
  cases request with
  | link =>
    obtain ⟨m, -, rfl⟩ := Option.map_eq_some_iff.mp h
    change m.request.toRequest ≠ _
    cases m.request <;> simp [LifecycleRequest.toRequest]
  | revoke | replace =>
    obtain ⟨m, -, rfl⟩ := Option.map_eq_some_iff.mp h
    simp [InventoryMutation.completed]

theorem Store.applyLifecycleMutation_eq (tenant : TenantId) (username : String)
    (key : IdempotencyKey) (request : LifecycleRequest) :
    a.applyLifecycleMutation X C tenant username key request =
      a.attempt X C ⟨tenant, username, key, request.toRequest⟩ := by
  have hprior (id : Account × IdempotencyKey) : a.prior id request.toRequest =
      (a.inventoryLifecycleMutations.lookup id).map LifecycleMutation.completed := by
    cases request <;> rfl
  have hclash (id : Account × IdempotencyKey) : a.clash id request.toRequest =
      (a.inventoryMutations.lookup id).map InventoryMutation.completed := by
    cases request <;> rfl
  have hwritten (account : Account) : a.written account key request.toRequest =
      a.withLifecycle account key request := by
    cases request <;> rfl
  simp only [applyLifecycleMutation, attempt, hclash, hprior, hwritten, Option.isSome_map,
    AList.lookup_isSome, LifecycleRequest.transition_eq]
  cases a.inventoryLifecycleMutations.lookup ((tenant, X.normalize username), key) with
  | none => rfl
  | some m => simp only [Option.map_some, LifecycleMutation.completed, ne_eq,
      LifecycleRequest.toRequest_inj]

theorem Store.mutate_eq (c : MutationCall) : a.mutate X C c = a.settle (a.attempt X C c) := by
  obtain ⟨tenant, username, key, request⟩ := c
  cases request with
  | link p b =>
    refine congrArg a.settle ?_
    simp only [linkDeviceBinding, attempt, clash, prior, Option.isSome_map, AList.lookup_isSome]
    cases a.inventoryMutations.lookup ((tenant, X.normalize username), key) with
    | none => rfl
    | some m => simp only [Option.map_some, InventoryMutation.completed, ne_eq, Request.link.injEq]
  | revoke p b =>
    exact congrArg a.settle (applyLifecycleMutation_eq tenant username key (.revoke p b))
  | replace p b b' =>
    exact congrArg a.settle (applyLifecycleMutation_eq tenant username key (.replace p b b'))

section Simulation

variable (h : Store.Implements handles a t) {c : MutationCall} {handle : String}

include h

/-- An account that does not exist is refused, also if its user exists and only its tenant does not:
then nothing was completed under the key. -/
theorem Store.mutate_of_unknown (hunknown : handles (c.retry X).account = none) :
    a.mutate X C c = (a, .error .unknownUser) := by
  rw [mutate_eq, attempt]
  by_cases huser : (c.tenant, X.normalize c.username) ∈ a.users
  · obtain ⟨hprior, hclash⟩ := h.lookup_eq_none (h.known _ c.key hunknown) c.request
    rw [MutationCall.retry] at hunknown hprior hclash
    rw [refuseIf_neg (not_not.mpr huser), ok_bind, hclash, refuseIf_neg (by simp), ok_bind, hprior]
    simp only [handle_eq_lockAccount huser, h.lockAccount, hunknown]
    rfl
  · rw [refuseIf_pos huser]
    rfl

theorem Store.mutate_of_completed (hhandle : handles (c.retry X).account = some handle)
    {entry : Request × DeviceInventory}
    (hcompleted : t.completed (c.retry X).account c.key = some entry) :
    a.mutate X C c =
      (a, if entry.1 = c.request then .ok entry.2 else .error .idempotencyConflict) := by
  have huser := mem_users_of_lockAccount ((h.lockAccount _).trans hhandle)
  rw [MutationCall.retry] at hcompleted huser
  rw [mutate_eq, attempt, refuseIf_neg (not_not.mpr huser), ok_bind]
  rcases h.lookup_eq_some hcompleted c.request with ⟨hprior, hclash⟩ | hclash
  · rw [hclash, refuseIf_neg (by simp), ok_bind, hprior]
    dsimp only
    split
    · next hsame => rw [refuseIf_neg (not_not.mpr hsame)]; rfl
    · next hother => rw [refuseIf_pos hother]; rfl
  · have hsome : (some entry).isSome = true := rfl
    rw [hclash, refuseIf_pos hsome, if_neg (clash_ne hclash)]
    rfl

theorem Store.mutate_of_new (hhandle : handles (c.retry X).account = some handle)
    (hnew : t.completed (c.retry X).account c.key = none) :
    a.mutate X C c = a.settle ((c.request.transition C.toLifecycleRules handle
      ((t.value (c.retry X).account).getD .default)).map fun next =>
        (a.written (c.retry X).account c.key c.request next, next)) := by
  have huser := mem_users_of_lockAccount ((h.lockAccount _).trans hhandle)
  obtain ⟨hprior, hclash⟩ := h.lookup_eq_none hnew c.request
  rw [MutationCall.retry] at *
  rw [mutate_eq, attempt, refuseIf_neg (not_not.mpr huser), ok_bind, hclash, refuseIf_neg (by simp),
    ok_bind, hprior]
  simp only [handle_eq_lockAccount huser, h.lockAccount, hhandle, orRefuse, ok_bind, h.value]
  rfl

/-- The store in memory answers as the machine does. -/
theorem Store.mutate_simulates (c : MutationCall) :
    (a.mutate X C c).2 = (Retry.step (retryRules C handles) t (c.retry X)).2 ∧
      Store.Implements handles (a.mutate X C c).1
        (Retry.step (retryRules C handles) t (c.retry X)).1 := by
  obtain ⟨hunknown, hstep⟩ | ⟨transition, htransition, hknown⟩ :=
    Retry.step_cases (retryRules C handles) t (c.retry X)
  · rw [hstep, mutate_of_unknown h (Option.map_eq_none_iff.mp hunknown)]
    exact ⟨rfl, h⟩
  obtain ⟨handle, hhandle, rfl⟩ := Option.map_eq_some_iff.mp htransition
  obtain ⟨request, result, hcompleted, hstep⟩ | ⟨hnew, ⟨next, hnext, hstep⟩ | ⟨e, he, hstep⟩⟩ :=
    hknown
  · rw [hstep, mutate_of_completed h hhandle hcompleted]
    exact ⟨rfl, h⟩
  · have hmutate : a.mutate X C c = a.settle (Except.map _ (.ok next)) :=
      (mutate_of_new h hhandle hnew).trans (congrArg (fun x => a.settle (Except.map _ x)) hnext)
    rw [hstep, hmutate]
    exact ⟨rfl, h.complete hhandle hnew c.request next⟩
  · have hmutate : a.mutate X C c = a.settle (Except.map _ (.error e)) :=
      (mutate_of_new h hhandle hnew).trans (congrArg (fun x => a.settle (Except.map _ x)) he)
    rw [hstep, hmutate]
    exact ⟨rfl, h⟩

end Simulation

end Memory

/-! ### The database -/

/-- The rows of the database: the bytes of each inventory, and the completed mutations. -/
structure SerialStore where
  inventories : Table Account Bytes
  mutations : Table (Account × IdempotencyKey) PriorMutation

/-- No rows. -/
def SerialStore.empty : SerialStore := ⟨∅, ∅⟩

/-- Run a statement of a transaction on an account that has the handle, if it exists. The database
only fails to insert a row under a key that has one. -/
def SerialStore.operate (account : Account) (handle : Option String) :
    (i : Statement) → SerialStore → SerialStore × Except Unit i.Answer
  | .lockAccount, s => (s, .ok handle)
  | .priorMutation key, s => (s, .ok (s.mutations.lookup (account, key)))
  | .storedState, s => (s, .ok (s.inventories.lookup account))
  | .compareAndSetState expected next, s =>
    if s.inventories.lookup account = expected then
      ({ s with inventories := s.inventories.insert account next }, .ok true)
    else (s, .ok false)
  | .recordMutation key request result, s =>
    if (account, key) ∈ s.mutations then (s, .error ())
    else ({ s with mutations := s.mutations.insert (account, key) ⟨request, result⟩ }, .ok ())

/-- Run the statements of a mutation. -/
def SerialStore.transact (handles : Account → Option String) (s : SerialStore) (c : MutationCall) :
    SerialStore × Except (MutationError κ Unit) DeviceInventory :=
  let account := (c.tenant, X.normalize c.username)
  (applyMutation C c.key c.request.encode fun handle current =>
    c.request.transition C.toLifecycleRules handle current).run.runWith
      (SerialStore.operate account (handles account)) s

/-- Commit a transaction only if it succeeded. -/
def SerialStore.commit {ε α : Type} (s : SerialStore) :
    SerialStore × Except ε α → SerialStore × Except ε α
  | (s', .ok x) => (s', .ok x)
  | (_, .error e) => (s, .error e)

/-- Run a mutation as one transaction. -/
def SerialStore.mutate (handles : Account → Option String) (s : SerialStore) (c : MutationCall) :
    SerialStore × Except (MutationError κ Unit) DeviceInventory :=
  s.commit (s.transact X C handles c)

/-- The row of a completed mutation. -/
def priorOf (entry : Request × DeviceInventory) : PriorMutation :=
  ⟨entry.1.encode, encodeInventory entry.2⟩

/-- The database holds what the machine holds, and every inventory in it has a statement. -/
structure SerialStore.Implements (C : CoreRules κ) (handles : Account → Option String)
    (s : SerialStore) (t : RetryState) : Prop where
  inventories : ∀ account, s.inventories.lookup account = (t.value account).map encodeInventory
  mutations : ∀ account key,
    s.mutations.lookup (account, key) = (t.completed account key).map priorOf
  encodes_value : ∀ account i, t.value account = some i →
    ∃ handle, handles account = some handle ∧ C.encodes handle i = true
  encodes_completed : ∀ account key entry, t.completed account key = some entry →
    ∃ handle, handles account = some handle ∧ C.encodes handle entry.2 = true

section Transactions

variable {ε α : Type}

/-- The statements of a mutation after its transition: replace what was read, and record it. -/
def writeNext (key : IdempotencyKey) (request : Bytes) (stored : Option Bytes)
    (next : DeviceInventory) : InTransaction κ ε DeviceInventory := do
  let replaced ← statement (.compareAndSetState stored (encodeInventory next))
  let () ← refused (refuseIf (replaced = false) .predecessorMismatch)
  let () ← statement (.recordMutation key request (encodeInventory next))
  pure next

variable {operate : (i : Statement) → SerialStore → SerialStore × Except ε i.Answer}
  {s s' : SerialStore}

theorem runWith_statement_bind {i : Statement} {answer : i.Answer}
    {f : i.Answer → InTransaction κ ε DeviceInventory} (h : operate i s = (s', .ok answer)) :
    (statement i >>= f).run.runWith operate s = (f answer).run.runWith operate s' :=
  Program.runWith_attempt_bind h

theorem runWith_refused_bind {x : Except (InventoryError κ) α} {y : α}
    {f : α → InTransaction κ ε DeviceInventory} (h : x = .ok y) :
    (refused x >>= f).run.runWith operate s = (f y).run.runWith operate s :=
  Program.runWith_lift_bind (by rw [h]; rfl)

theorem runWith_refused_bind_of_error {x : Except (InventoryError κ) α} {e : InventoryError κ}
    {f : α → InTransaction κ ε DeviceInventory} (h : x = .error e) :
    (refused x >>= f).run.runWith operate s = (s, .error (.refused e)) :=
  Program.runWith_lift_bind_of_error (by rw [h]; rfl)

theorem runWith_refused (x : Except (InventoryError κ) DeviceInventory) :
    (refused x : InTransaction κ ε DeviceInventory).run.runWith operate s =
      (s, x.mapError .refused) := by
  cases x <;> rfl

end Transactions

section Database

variable {X C} {handles : Account → Option String} {s : SerialStore} {t : RetryState}
  (hempty : ∀ handle, C.encodes handle .default = true)
  (hlimits : ∀ handle i, C.encodes handle i = true →
    i.active.length ≤ C.maxActiveBindings ∧ i.revoked.length ≤ C.maxRecentRevocations)

variable {handle : String}

include hlimits in
theorem decodeInventory_encodeInventory {i : DeviceInventory} (h : C.encodes handle i = true) :
    decodeInventory C (encodeInventory i) = some i :=
  (decodeInventory_eq_some C).mpr ⟨hlimits handle i h, rfl⟩

theorem validateInventory_eq_ok {i : DeviceInventory} {u : Unit} :
    validateInventory C.toLifecycleRules handle i = .ok u ↔ C.encodes handle i = true := by
  rw [validateInventory, refuseIf_eq_ok, Bool.not_eq_false]

include hlimits in
theorem replay_priorOf {request : Request} {entry : Request × DeviceInventory}
    (h : C.encodes handle entry.2 = true) :
    replay C handle request.encode (priorOf entry) =
      if entry.1 = request then .ok entry.2 else .error .idempotencyConflict := by
  by_cases hsame : entry.1 = request
  · have hread := decodeInventory_encodeInventory hlimits h
    have hrequest : (priorOf entry).request = request.encode := congrArg Request.encode hsame
    rw [replay, refuseIf_neg (not_not.mpr hrequest), ok_bind]
    simp only [priorOf, hread, orRefuse, ok_bind, if_pos hsame]
    rw [(validateInventory_eq_ok (u := ())).mpr h, ok_bind]
    rfl
  · have hother : (priorOf entry).request ≠ request.encode :=
      fun heq => hsame (Request.encode_injective heq)
    rw [replay, refuseIf_pos hother, error_bind, if_neg hsame]

theorem Request.encodes_of_transition {current next : DeviceInventory} {request : Request}
    (h : request.transition C.toLifecycleRules handle current = .ok next) :
    C.encodes handle next = true := by
  cases request with
  | link =>
    simp only [Request.transition, linkInventory, bind_eq_ok, pure_eq_ok, validateInventory_eq_ok]
      at h
    obtain ⟨_, -, _, -, _, -, _, -, _, -, _, -, _, hvalid, rfl⟩ := h
    exact hvalid
  | revoke =>
    simp only [Request.transition, revokeInventory, bind_eq_ok, pure_eq_ok, validateInventory_eq_ok]
      at h
    obtain ⟨_, -, _, -, _, -, _, -, _, hvalid, rfl⟩ := h
    exact hvalid
  | replace =>
    simp only [Request.transition, replaceInventory, bind_eq_ok, pure_eq_ok,
      validateInventory_eq_ok] at h
    obtain ⟨_, -, _, -, _, -, _, -, _, -, _, -, _, hvalid, rfl⟩ := h
    exact hvalid

namespace SerialStore

theorem commit_ite {ε α : Type} {p : Prop} [Decidable p] {x : α} {e : ε} :
    s.commit (s, if p then .ok x else .error e) = (s, if p then .ok x else .error e) := by
  split <;> rfl

variable (h : Implements C handles s t) {c : MutationCall}

theorem transact_of_unknown (hunknown : handles (c.retry X).account = none) :
    s.transact X C handles c = (s, .error (.refused .unknownUser)) := by
  have hlock : operate (c.retry X).account (handles (c.retry X).account) .lockAccount s =
      (s, .ok none) := by rw [operate, hunknown]
  refine (runWith_statement_bind hlock).trans ?_
  exact runWith_refused_bind_of_error rfl

include hempty hlimits h in
/-- The inventory that a transaction reads is that of the machine, and has a statement. -/
theorem currentOf_eq {handle : String} {account : Account}
    (hhandle : handles account = some handle) :
    currentOf C (s.inventories.lookup account) = .ok ((t.value account).getD .default) ∧
      C.encodes handle ((t.value account).getD .default) = true := by
  rw [h.inventories]
  cases hvalue : t.value account with
  | none => exact ⟨rfl, hempty handle⟩
  | some i =>
    obtain ⟨handle', hhandle', hencodes⟩ := h.encodes_value _ _ hvalue
    obtain rfl := Option.some_inj.mp (hhandle.symm.trans hhandle')
    exact ⟨(currentOf_some_eq_ok C).mpr (decodeInventory_encodeInventory hlimits hencodes),
      hencodes⟩

section Known

variable {handle : String} (hhandle : handles (c.retry X).account = some handle)

include hhandle

theorem operate_lockAccount :
    operate (c.retry X).account (handles (c.retry X).account) .lockAccount s =
      (s, .ok (some handle)) := by
  rw [operate, hhandle]

include hlimits h in
theorem transact_of_completed {entry : Request × DeviceInventory}
    (hcompleted : t.completed (c.retry X).account c.key = some entry) :
    s.transact X C handles c = (s, if entry.1 = c.request then .ok entry.2
      else .error (.refused .idempotencyConflict)) := by
  have hprior : operate (c.retry X).account (handles (c.retry X).account) (.priorMutation c.key) s =
      (s, .ok (some (priorOf entry))) := by rw [operate, h.mutations, hcompleted, Option.map_some]
  obtain ⟨handle', hhandle', hencodes⟩ := h.encodes_completed _ _ _ hcompleted
  obtain rfl := Option.some_inj.mp (hhandle.symm.trans hhandle')
  refine (runWith_statement_bind (operate_lockAccount hhandle)).trans ?_
  refine (runWith_refused_bind rfl).trans ?_
  refine (runWith_statement_bind hprior).trans ?_
  rw [runWith_refused, replay_priorOf hlimits hencodes]
  split <;> rfl

section New

variable (hnew : t.completed (c.retry X).account c.key = none)

include hempty hlimits h hnew

/-- Nothing was completed under the key: the inventory is read, and the transition decides. -/
theorem transact_of_new :
    s.transact X C handles c =
      (refused (c.request.transition C.toLifecycleRules handle
        ((t.value (c.retry X).account).getD .default)) >>=
          writeNext c.key c.request.encode (s.inventories.lookup (c.retry X).account)).run.runWith
        (operate (c.retry X).account (handles (c.retry X).account)) s := by
  have hprior : operate (c.retry X).account (handles (c.retry X).account) (.priorMutation c.key) s =
      (s, .ok none) := by rw [operate, h.mutations, hnew, Option.map_none]
  have hstored : operate (c.retry X).account (handles (c.retry X).account) .storedState s =
      (s, .ok (s.inventories.lookup (c.retry X).account)) := rfl
  obtain ⟨hcurrent, hencodes⟩ := currentOf_eq hempty hlimits h hhandle
  refine (runWith_statement_bind (operate_lockAccount hhandle)).trans ?_
  refine (runWith_refused_bind rfl).trans ?_
  refine (runWith_statement_bind hprior).trans ?_
  refine (runWith_statement_bind hstored).trans ?_
  refine (runWith_refused_bind hcurrent).trans ?_
  exact runWith_refused_bind (y := ()) (validateInventory_eq_ok.mpr hencodes)

theorem transact_of_error {e : InventoryError κ}
    (he : c.request.transition C.toLifecycleRules handle
      ((t.value (c.retry X).account).getD .default) = .error e) :
    s.transact X C handles c = (s, .error (.refused e)) := by
  rw [transact_of_new hempty hlimits h hhandle hnew]
  exact runWith_refused_bind_of_error he

theorem transact_of_ok {next : DeviceInventory}
    (hnext : c.request.transition C.toLifecycleRules handle
      ((t.value (c.retry X).account).getD .default) = .ok next) :
    s.transact X C handles c =
      (⟨s.inventories.insert (c.retry X).account (encodeInventory next),
        s.mutations.insert ((c.retry X).account, c.key) (priorOf (c.request, next))⟩,
        .ok next) := by
  have hmem : ((c.retry X).account, c.key) ∉ s.mutations := by
    rw [← AList.lookup_eq_none, h.mutations, hnew, Option.map_none]
  have hset : operate (c.retry X).account (handles (c.retry X).account)
      (.compareAndSetState (s.inventories.lookup (c.retry X).account) (encodeInventory next)) s =
      (⟨s.inventories.insert (c.retry X).account (encodeInventory next), s.mutations⟩,
        .ok true) := by
    rw [operate, if_pos rfl]
  rw [transact_of_new hempty hlimits h hhandle hnew]
  refine (runWith_refused_bind hnext).trans ?_
  refine (runWith_statement_bind hset).trans ?_
  refine (runWith_refused_bind rfl).trans ?_
  refine (runWith_statement_bind (if_neg hmem)).trans ?_
  rfl

end New

end Known

/-- The transaction of a new mutation writes the inventory and the completed mutation. -/
theorem Implements.complete (h : Implements C handles s t)
    {c : Retry.Call Account IdempotencyKey Request} {handle : String}
    (hhandle : handles c.account = some handle) {next : DeviceInventory}
    (hencodes : C.encodes handle next = true) :
    Implements C handles
      ⟨s.inventories.insert c.account (encodeInventory next),
        s.mutations.insert (c.account, c.key) (priorOf (c.request, next))⟩
      (t.complete c next) where
  inventories account := by
    rw [Table.lookup_insert_eq, Retry.value_complete, h.inventories]
    split <;> rfl
  mutations account key := by
    rw [Table.lookup_insert_eq, Retry.completed_complete, h.mutations]
    simp only [Prod.mk.injEq]
    split <;> rfl
  encodes_value account i hi := by
    rw [Retry.value_complete] at hi
    split at hi
    · next heq =>
      obtain rfl := Option.some_inj.mp hi
      exact ⟨handle, heq ▸ hhandle, hencodes⟩
    · exact h.encodes_value account i hi
  encodes_completed account key entry hentry := by
    rw [Retry.completed_complete] at hentry
    split at hentry
    · next heq =>
      obtain rfl := Option.some_inj.mp hentry
      exact ⟨handle, heq.1 ▸ hhandle, hencodes⟩
    · exact h.encodes_completed account key entry hentry

include hempty hlimits h in
/-- The database answers as the machine does. -/
theorem mutate_simulates (c : MutationCall) :
    (s.mutate X C handles c).2 =
        (Retry.step (retryRules C handles) t (c.retry X)).2.mapError .refused ∧
      Implements C handles (s.mutate X C handles c).1
        (Retry.step (retryRules C handles) t (c.retry X)).1 := by
  obtain ⟨hunknown, hstep⟩ | ⟨transition, htransition, hknown⟩ :=
    Retry.step_cases (retryRules C handles) t (c.retry X)
  · rw [hstep, mutate, transact_of_unknown (Option.map_eq_none_iff.mp hunknown)]
    exact ⟨rfl, h⟩
  obtain ⟨handle, hhandle, rfl⟩ := Option.map_eq_some_iff.mp htransition
  obtain ⟨request, result, hcompleted, hstep⟩ | ⟨hnew, ⟨next, hnext, hstep⟩ | ⟨e, he, hstep⟩⟩ :=
    hknown
  · rw [hstep, mutate, transact_of_completed hlimits h hhandle hcompleted]
    simp only [commit_ite]
    refine ⟨?_, h⟩
    change _ = Except.mapError _ (if request = c.request then _ else _)
    split <;> rfl
  · rw [hstep, mutate, transact_of_ok hempty hlimits h hhandle hnew hnext]
    exact ⟨rfl, h.complete hhandle (Request.encodes_of_transition hnext)⟩
  · rw [hstep, mutate, transact_of_error hempty hlimits h hhandle hnew he]
    exact ⟨rfl, h⟩

include hempty hlimits h in
/-- A mutation that succeeded in the database is answered the same when it is called again, and
changes nothing then. -/
theorem retry_safe {c c' : MutationCall} (hsame : c'.retry X = c.retry X)
    {result : DeviceInventory} (hresult : (s.mutate X C handles c).2 = .ok result)
    (later : List MutationCall) :
    let s' := Machine.run (mutate X C handles) (s.mutate X C handles c).1 later
    s'.mutate X C handles c' = (s', .ok result) := by
  intro s'
  have hstep := mapError_eq_ok.mp ((mutate_simulates hempty hlimits h c).1.symm.trans hresult)
  obtain ⟨t', hs', hcompleted⟩ := Retry.completed_of_simulates
    (N := mutate X C handles) (f := MutationCall.retry X) (R := Implements C handles)
    (fun _ _ c ht => (mutate_simulates hempty hlimits ht c).2) h hstep later
  rw [← hsame] at hcompleted
  obtain ⟨handle, hhandle, -⟩ := hs'.encodes_completed _ _ _ hcompleted
  rw [mutate, transact_of_completed hlimits hs' hhandle hcompleted, commit_ite]
  exact congrArg (Prod.mk s') (if_pos rfl)

end SerialStore

end Database

/-! ### Both backends -/

/-- Some state of the machine is what the store in memory holds, and what the database holds. -/
def HoldSame (C : CoreRules κ) (handles : Account → Option String) (s : SerialStore) (a : Store) :
    Prop := ∃ t, a.Implements handles t ∧ s.Implements C handles t

theorem holdSame_empty {a : Store} (hinventories : a.deviceInventories = ∅)
    (hlinks : a.inventoryMutations = ∅) (hothers : a.inventoryLifecycleMutations = ∅) :
    HoldSame C a.lockAccount .empty a := by
  refine ⟨.empty, ⟨fun _ => rfl, fun account => ?_, fun account key => ?_, fun id => ?_,
    fun _ _ _ => rfl⟩, ⟨fun account => ?_, fun account key => ?_, ?_, ?_⟩⟩
  · rw [hinventories, AList.lookup_empty]
    rfl
  · rw [hlinks, hothers, AList.lookup_empty, AList.lookup_empty]
    rfl
  · rw [hlinks, AList.lookup_empty]
    exact .inl rfl
  · exact AList.lookup_empty account
  · exact AList.lookup_empty (account, key)
  · intro _ _ h
    cases h
  · intro _ _ _ h
    cases h

variable {X C}

/-- A mutation that succeeded in memory is answered the same when it is called again, and changes
nothing then. -/
theorem Store.retry_safe {handles : Account → Option String} {a : Store} {t : RetryState}
    (h : a.Implements handles t) {c c' : MutationCall} (hsame : c'.retry X = c.retry X)
    {result : DeviceInventory} (hresult : (a.mutate X C c).2 = .ok result)
    (later : List MutationCall) :
    let a' := Machine.run (Store.mutate X C) (a.mutate X C c).1 later
    a'.mutate X C c' = (a', .ok result) := by
  intro a'
  have hstep := (mutate_simulates h c).1.symm.trans hresult
  obtain ⟨t', ha', hcompleted⟩ := Retry.completed_of_simulates (N := Store.mutate X C)
    (f := MutationCall.retry X) (R := Implements handles)
    (fun _ _ c ht => (mutate_simulates ht c).2) h hstep later
  rw [← hsame] at hcompleted
  cases hhandle : handles (c'.retry X).account with
  | none =>
    rw [ha'.known _ _ hhandle] at hcompleted
    cases hcompleted
  | some handle =>
    rw [mutate_of_completed ha' hhandle hcompleted]
    exact congrArg (Prod.mk a') (if_pos rfl)

/-- The two backends give the same answers to every sequence of mutations, and the stored bytes of
each account are those of the inventory in memory. In both, a mutation that succeeded is answered
the same when it is called again, whatever was called in between, and changes nothing then. -/
theorem backends_agree (hempty : ∀ handle, C.encodes handle .default = true)
    (hlimits : ∀ handle i, C.encodes handle i = true →
      i.active.length ≤ C.maxActiveBindings ∧ i.revoked.length ≤ C.maxRecentRevocations)
    {a : Store} (hinventories : a.deviceInventories = ∅) (hlinks : a.inventoryMutations = ∅)
    (hothers : a.inventoryLifecycleMutations = ∅) (calls : List MutationCall) :
    let memory := Store.mutate X C
    let database := SerialStore.mutate X C a.lockAccount
    let a' := Machine.run memory a calls
    let s' := Machine.run database .empty calls
    Machine.log database .empty calls =
        (Machine.log memory a calls).map (Prod.map id (Except.mapError .refused)) ∧
      (∀ account, (s'.inventories.lookup account).map (decodeInventory C) =
        (a'.deviceInventories.lookup account).map some) ∧
      ∀ c c' result later, c'.retry X = c.retry X →
        ((memory a' c).2 = .ok result →
          let a'' := Machine.run memory (memory a' c).1 later
          memory a'' c' = (a'', .ok result)) ∧
        ((database s' c).2 = .ok result →
          let s'' := Machine.run database (database s' c).1 later
          database s'' c' = (s'', .ok result)) := by
  intro memory database a' s'
  have hstep (s : SerialStore) (b : Store) (c : MutationCall) (h : HoldSame C a.lockAccount s b) :
      (database s c).2 = (memory b c).2.mapError .refused ∧
        HoldSame C a.lockAccount (database s c).1 (memory b c).1 := by
    obtain ⟨t, hb, hs⟩ := h
    obtain ⟨hanswer, hb'⟩ := Store.mutate_simulates (X := X) hb c
    obtain ⟨hanswer', hs'⟩ := SerialStore.mutate_simulates (X := X) hempty hlimits hs c
    exact ⟨hanswer'.trans (congrArg _ hanswer.symm), _, hb', hs'⟩
  obtain ⟨hlog, t, ha', hs'⟩ := Machine.log_eq_of_simulates hstep
    (holdSame_empty C hinventories hlinks hothers) calls
  refine ⟨hlog, fun account => ?_,
    fun c c' result later hsame => ⟨fun hresult => ?_, fun hresult => ?_⟩⟩
  · rw [hs'.inventories, ha'.value]
    cases hvalue : t.value account with
    | none => rfl
    | some i =>
      obtain ⟨handle, -, hencodes⟩ := hs'.encodes_value account i hvalue
      exact congrArg some (decodeInventory_encodeInventory hlimits hencodes)
  · exact Store.retry_safe ha' hsame hresult later
  · exact SerialStore.retry_safe hempty hlimits hs' hsame hresult later

/-- The sample rules, where a statement has at most two revocations too. -/
def CoreRules.limited : CoreRules Unit :=
  { CoreRules.sample with
    encodes := fun _ i => decide (i.active.length ≤ 2) && decide (i.revoked.length ≤ 2) }

/-- One account, without an inventory. -/
def Store.ofAccount : Store :=
  { Store.new with
    tenants := (∅ : Table TenantId TenantRecord).insert "t1" ⟨"t1", "acme", "ops@acme.example", ""⟩
    users := (∅ : Table Account UserRecord).insert ("t1", "alice") ⟨"t1", "alice", ""⟩ }

/-- Link a device of the account. -/
def MutationCall.sample (key : UInt8) (predecessor : UInt64) (device : UInt32) : MutationCall :=
  ⟨"t1", "alice", .replicate 32 key,
    .link predecessor ⟨device, .replicate 32 device.toUInt8, 0, none⟩⟩

/-- The inventory with the first device. -/
def DeviceInventory.sample : DeviceInventory := ⟨1, [⟨1, .replicate 32 1, 0, none⟩], 0, []⟩

/-- Two devices are linked, the first key is used for a third one, and the first call is
repeated. -/
theorem backends_agree_sample :
    let calls : List MutationCall := [.sample 7 0 1, .sample 8 1 2, .sample 7 0 3, .sample 7 0 1]
    let database := SerialStore.mutate .sample .limited Store.ofAccount.lockAccount
    let answers := Machine.log (Store.mutate .sample .limited) .ofAccount calls
    Machine.log database .empty calls = answers.map (Prod.map id (Except.mapError .refused)) ∧
      answers.map (fun answer => answer.2.map DeviceInventory.generation) =
        [.ok 1, .ok 2, .error .idempotencyConflict, .ok 1] ∧
      let s := Machine.run database (database .empty (.sample 7 0 1)).1
        [.sample 8 1 2, .sample 7 0 3]
      database s (.sample 7 0 1) = (s, .ok .sample) := by
  intro calls database answers
  have hlimits (handle : String) (i : DeviceInventory)
      (h : CoreRules.limited.encodes handle i = true) :
      i.active.length ≤ 2 ∧ i.revoked.length ≤ 2 := by
    simpa [CoreRules.limited] using h
  obtain ⟨hlog, -, -⟩ := backends_agree (X := .sample) (C := .limited) (a := .ofAccount)
    (fun _ => rfl) hlimits rfl rfl rfl calls
  obtain ⟨-, -, hretry⟩ := backends_agree (X := .sample) (C := .limited) (a := .ofAccount)
    (fun _ => rfl) hlimits rfl rfl rfl []
  exact ⟨hlog, by decide +kernel, (hretry (.sample 7 0 1) _ .sample _ rfl).2 rfl⟩

end Tacenta.Accounts
