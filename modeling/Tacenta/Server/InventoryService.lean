import Tacenta.Accounts.StoreInvariant
import Tacenta.Library.Concurrent

/-!
# Hosted inventory statements

The service links a device in the account store and then signs the resulting inventory, if it is
still the account's current one. Its three store calls are atomic one by one: other calls, of the
service or of the store itself, may run between them. A signed statement is represented by what it
says.

## Main definitions

* `linkDeviceBinding`: the call of the service.
* `system`: any number of calls of the service and of the store, from the empty store on.

## Main results

* `issued_observed`: what a call saw that issued a statement.
* `issuer_never_equivocates`: statements about a handle tell one history.
-/

open Result Tacenta.Accounts

namespace Tacenta.Server

variable {κ : Type} (X : Platform) (C : CoreRules κ)

/-- What a statement says. -/
structure InventoryStatement where
  issuerKeyId : UInt64
  accountHandle : String
  inventoryGeneration : UInt64
  active : List DeviceBinding
  revocationFloorGeneration : UInt64
  revoked : List Revocation
  deriving DecidableEq

/-- The inventory that the statement is about. -/
def InventoryStatement.inventory (s : InventoryStatement) : DeviceInventory :=
  ⟨s.inventoryGeneration, s.active, s.revocationFloorGeneration, s.revoked⟩

theorem InventoryStatement.eq_of_inventory {s s' : InventoryStatement}
    (hkey : s.issuerKeyId = s'.issuerKeyId) (hhandle : s.accountHandle = s'.accountHandle)
    (h : s.inventory = s'.inventory) : s = s' := by
  cases s
  cases s'
  cases h
  cases hkey
  cases hhandle
  rfl

/-- The signer. Encoding and signing succeeds for some statements. -/
structure InventoryIssuer where
  keyId : UInt64
  encodeSigned : InventoryStatement → Bool

/-- Sign the statement of an inventory. -/
def InventoryIssuer.issue (issuer : InventoryIssuer) (accountHandle : String)
    (inventory : DeviceInventory) : Option InventoryStatement :=
  let statement : InventoryStatement := ⟨issuer.keyId, accountHandle, inventory.generation,
    inventory.active, inventory.revocationFloorGeneration, inventory.revoked⟩
  if issuer.encodeSigned statement then some statement else none

/-- Why no statement was issued. -/
inductive InventoryServiceError (κ : Type) where
  | store (error : InventoryError κ)
  | missingHandle
  | signing
  | superseded (committedGeneration currentGeneration : UInt64)

/-- A request to the service. -/
structure LinkRequest where
  tenant : TenantId
  username : String
  predecessorGeneration : UInt64
  idempotencyKey : IdempotencyKey
  binding : DeviceBinding

/-- The account that the request names. -/
def LinkRequest.account (request : LinkRequest) : Account :=
  (request.tenant, X.normalize request.username)

/-- A computation that calls the account store. -/
abbrev WithStore (κ α : Type) := Program AccountCall (AccountCall.Answer κ) α

/-- Sign what is still current. -/
def issue (issuer : InventoryIssuer) (tenant : TenantId) (username : String)
    (inventory : DeviceInventory) :
    WithStore κ (Except (InventoryServiceError κ) InventoryStatement) := do
  let found ← Program.perform (AccountCall.deviceInventory tenant username)
  match found with
  | none => pure (.error .missingHandle)
  | some current =>
    if current ≠ inventory then
      pure (.error (.superseded inventory.generation current.generation))
    else
      let named ← Program.perform (AccountCall.handle tenant username)
      match named with
      | none => pure (.error .missingHandle)
      | some handle => pure (orRefuse (issuer.issue handle inventory) .signing)

/-- Link a device and sign the resulting inventory. -/
def linkDeviceBinding (issuer : InventoryIssuer) (request : LinkRequest) :
    WithStore κ (Except (InventoryServiceError κ) InventoryStatement) := do
  let linked ← Program.perform (AccountCall.linkDeviceBinding request.tenant request.username
    request.predecessorGeneration request.idempotencyKey request.binding)
  match linked with
  | .error e => pure (.error (.store e))
  | .ok inventory => issue issuer request.tenant request.username inventory

/-- A call of the service, or of the store. -/
inductive Call where
  | hosted (request : LinkRequest)
  | direct (call : AccountCall)

/-- What a call returns. -/
abbrev Call.Result (κ : Type) : Call → Type
  | hosted _ => Except (InventoryServiceError κ) InventoryStatement
  | direct call => call.Answer κ

/-- Calls of the service and of the store. -/
def system (issuer : InventoryIssuer) :
    Concurrent.System Store AccountCall (AccountCall.Answer κ) Call (Call.Result κ) where
  operate i a := a.perform X C i
  program
    | .hosted request => linkDeviceBinding issuer request
    | .direct call => Program.perform call

/-! ### What a call saw -/

variable {X C} {issuer : InventoryIssuer} {at_ : Nat → Store} {n m : Nat} {request : LinkRequest}

theorem issue_eq_some {handle : String} {inventory : DeviceInventory} {s : InventoryStatement}
    (h : issuer.issue handle inventory = some s) :
    s.issuerKeyId = issuer.keyId ∧ s.accountHandle = handle ∧ s.inventory = inventory := by
  rw [InventoryIssuer.issue] at h
  split at h
  · cases h
    exact ⟨rfl, rfl, rfl⟩
  · cases h

theorem issue_observed {tenant : TenantId} {username : String} {inventory : DeviceInventory}
    {result : Except (InventoryServiceError κ) InventoryStatement}
    (h : (system X C issuer).Observed at_ n m (issue issuer tenant username inventory)
      (.done result)) :
    ∃ t, (m ≤ t ∧ t < n) ∧
      ((at_ t).deviceInventory X tenant username = none ∧ result = .error .missingHandle ∨
        (∃ current, (at_ t).deviceInventory X tenant username = some current ∧
          current ≠ inventory ∧
            result = .error (.superseded inventory.generation current.generation)) ∨
        (at_ t).deviceInventory X tenant username = some inventory ∧
          ∃ t', (t < t' ∧ t' < n) ∧
            ((at_ t').handle X tenant username = none ∧ result = .error .missingHandle ∨
              ∃ handle, (at_ t').handle X tenant username = some handle ∧
                result = orRefuse (issuer.issue handle inventory) .signing)) := by
  obtain ⟨t, ht, h⟩ := Concurrent.System.observed_perform_bind h
  refine ⟨t, ht, ?_⟩
  generalize hfound : (Concurrent.System.operate _ _ _).2 = found at h
  cases found with
  | none => exact .inl ⟨hfound, Concurrent.System.eq_of_observed_pure h⟩
  | some current =>
    refine .inr ?_
    by_cases hcurrent : current = inventory
    · subst hcurrent
      simp only [ne_eq, not_true_eq_false, if_false] at h
      obtain ⟨t', ht', h⟩ := Concurrent.System.observed_perform_bind h
      generalize hnamed : (Concurrent.System.operate _ _ _).2 = named at h
      refine .inr ⟨hfound, t', ht', ?_⟩
      cases named with
      | none => exact .inl ⟨hnamed, Concurrent.System.eq_of_observed_pure h⟩
      | some handle => exact .inr ⟨handle, hnamed, Concurrent.System.eq_of_observed_pure h⟩
    · simp only [ne_eq, hcurrent, not_false_eq_true, if_true] at h
      exact .inl ⟨current, hfound, hcurrent, Concurrent.System.eq_of_observed_pure h⟩

/-- What a call saw that issued a statement: the inventory and then the handle that it names. -/
theorem issued_observed {statement : InventoryStatement}
    (h : (system X C issuer).Observed at_ n m (linkDeviceBinding issuer request)
      (.done (.ok statement))) :
    statement.issuerKeyId = issuer.keyId ∧ ∃ t t', (m ≤ t ∧ t < t' ∧ t' < n) ∧
      (at_ t).deviceInventory X request.tenant request.username = some statement.inventory ∧
        (at_ t').handle X request.tenant request.username = some statement.accountHandle := by
  obtain ⟨t, ht, h⟩ := Concurrent.System.observed_perform_bind h
  generalize (Concurrent.System.operate _ _ _).2 = linked at h
  cases linked with
  | error e => cases Concurrent.System.eq_of_observed_pure h
  | ok inventory =>
    obtain ⟨t₁, ht₁, ⟨-, h⟩ | ⟨_, -, -, h⟩ |
        ⟨hinventory, t₂, ht₂, ⟨-, h⟩ | ⟨handle, hhandle, h⟩⟩⟩ :=
      issue_observed h
    · cases h
    · cases h
    · cases h
    · obtain ⟨hkey, rfl, rfl⟩ := issue_eq_some (orRefuse_eq_ok.mp h.symm)
      exact ⟨hkey, t₁, t₂, ⟨by omega, ht₂⟩, hinventory, hhandle⟩

/-! ### One history -/

/-- A retry whose recorded result is not current when the call is opened is answered so. -/
theorem retry_superseded (hat : OneHistory X at_) {prior : InventoryMutation}
    {result : Except (InventoryServiceError κ) InventoryStatement}
    (h : (system X C issuer).Observed at_ n m (linkDeviceBinding issuer request) (.done result))
    (hprior : (at_ m).inventoryMutations.lookup (request.account X, request.idempotencyKey) =
      some prior)
    (hrequest : prior.predecessorGeneration = request.predecessorGeneration ∧
      prior.binding = request.binding)
    (hstale : (at_ m).inventoryOf (request.account X) ≠ prior.result) :
    ∃ t, (m ≤ t ∧ t < n) ∧ ∃ current,
      (at_ t).deviceInventory X request.tenant request.username = some current ∧
        result = .error (.superseded prior.result.generation current.generation) := by
  obtain ⟨t, ht, h⟩ := Concurrent.System.observed_perform_bind h
  -- the store still has the record when the link runs, and answers with it
  have hlinked : ((system X C issuer).operate (.linkDeviceBinding request.tenant request.username
      request.predecessorGeneration request.idempotencyKey request.binding) (at_ t)).2 =
        .ok prior.result := by
    have hrecorded := Store.linkDeviceBinding_of_recorded (C := C) (hat.sound t)
      ((hat.grows ht.1).link _ _ hprior)
    rw [hrequest.1, hrequest.2] at hrecorded
    change ((at_ t).settle _).2 = _
    rw [hrecorded]
    rfl
  rw [hlinked] at h
  obtain ⟨huser, -, hresult⟩ := (hat.sound m).linked _ _ _ hprior
  have holder := hresult.resolve_left hstale
  obtain ⟨t', ht', h⟩ := issue_observed h
  have hmt : m ≤ t' := by omega
  -- the account exists and has gone on
  have hfound := Store.deviceInventory_eq_some.mpr ⟨(hat.grows hmt).user _ huser, rfl⟩
  refine ⟨t', ⟨hmt, ht'.2⟩, _, hfound, ?_⟩
  rcases h with ⟨hnone, -⟩ | ⟨current, hcurrent, -, h⟩ | ⟨hcurrent, -⟩
  · rw [hnone] at hfound
    cases hfound
  · rw [hcurrent, Option.some_inj] at hfound
    rw [h, hfound]
  · rw [hcurrent, Option.some_inj] at hfound
    have hle := hat.generation_le (request.account X) hmt
    rw [LinkRequest.account, Word64.lt_iff] at holder
    rw [LinkRequest.account, Word64.le_iff, ← hfound] at hle
    omega

theorem oneHistory (issuer : InventoryIssuer) (events : List (Concurrent.Event Call)) :
    OneHistory X ((system X C issuer).stateAt .new events) where
  sound := Concurrent.System.stateAt_invariant (Store.Sound X)
    (fun i _ h => h.changes (Store.perform_changes _ i)) Store.sound_new events
  grows := Concurrent.System.stateAt_le Store.Grows Store.Grows.refl
    (fun _ _ _ => Store.Grows.trans) (fun i a => (Store.perform_changes a i).grows)

variable (X C) (issuer) (events : List (Concurrent.Event Call))

/-- The store at a time. -/
abbrev storeAt (t : Nat) : Store := (system X C issuer).stateAt .new events t

/-- A call of the service returned. -/
def Answered (request : LinkRequest) (since upto : Nat)
    (result : Except (InventoryServiceError κ) InventoryStatement) : Prop :=
  (⟨.hosted request, since, upto, result⟩ : Concurrent.Return Call (Call.Result κ)) ∈
    (system X C issuer).returns .new events

/-- The issuer never equivocates. A statement names the handle of the account of its call and an
inventory that the account held during the call. Statements with one handle are of one account;
those with the same generation are the same, and if one call returned before another was opened, its
generation is not higher. A retry whose recorded result is not current is answered with that, and
nothing is signed. -/
theorem issuer_never_equivocates :
    (∀ request since upto statement, Answered X C issuer events request since upto (.ok statement) →
      (∃ t, (since ≤ t ∧ t < upto) ∧ (storeAt X C issuer events t).deviceInventory X request.tenant
        request.username = some statement.inventory) ∧
      ∃ t, (since ≤ t ∧ t < upto) ∧ (storeAt X C issuer events t).handle X request.tenant
        request.username = some statement.accountHandle) ∧
    (∀ request since upto statement request' since' upto' statement',
      Answered X C issuer events request since upto (.ok statement) →
      Answered X C issuer events request' since' upto' (.ok statement') →
      statement.accountHandle = statement'.accountHandle →
      request.account X = request'.account X ∧
        (statement.inventoryGeneration = statement'.inventoryGeneration → statement = statement') ∧
        (upto ≤ since' → statement.inventoryGeneration ≤ statement'.inventoryGeneration)) ∧
    ∀ request since upto result prior, Answered X C issuer events request since upto result →
      (storeAt X C issuer events since).inventoryMutations.lookup
        (request.account X, request.idempotencyKey) = some prior →
      prior.predecessorGeneration = request.predecessorGeneration ∧
        prior.binding = request.binding →
      (storeAt X C issuer events since).inventoryOf (request.account X) ≠ prior.result →
      ∃ t, (since ≤ t ∧ t < upto) ∧ ∃ current,
        (storeAt X C issuer events t).deviceInventory X request.tenant request.username =
          some current ∧
        result = .error (.superseded prior.result.generation current.generation) := by
  have hat := oneHistory (X := X) (C := C) issuer events
  have hobserved {request since upto result}
      (h : Answered X C issuer events request since upto result) :
      (system X C issuer).Observed (storeAt X C issuer events) upto since
        (linkDeviceBinding issuer request) (.done result) :=
    (Concurrent.System.returned_observed h).2
  refine ⟨fun request since upto statement h => ?_, ?_, ?_⟩
  · obtain ⟨-, t, t', ⟨hm, hlt, hn⟩, hinventory, hhandle⟩ := issued_observed (hobserved h)
    exact ⟨⟨t, ⟨hm, by omega⟩, hinventory⟩, t', ⟨by omega, hn⟩, hhandle⟩
  · intro request since upto statement request' since' upto' statement' h h' hname
    obtain ⟨hkey, t, u, ⟨hm, hlt, hn⟩, hinventory, hhandle⟩ := issued_observed (hobserved h)
    obtain ⟨hkey', t', u', ⟨hm', hlt', hn'⟩, hinventory', hhandle'⟩ :=
      issued_observed (hobserved h')
    rw [hname] at hhandle
    obtain ⟨htenant, husername⟩ := hat.account_of_handle hhandle hhandle'
    have haccount : request.account X = request'.account X := Prod.ext htenant husername
    obtain ⟨-, hinventory⟩ := Store.deviceInventory_eq_some.mp hinventory
    obtain ⟨-, hinventory'⟩ := Store.deviceInventory_eq_some.mp hinventory'
    rw [htenant, husername] at hinventory
    refine ⟨haccount, fun hgeneration => ?_, fun hafter => ?_⟩
    · refine InventoryStatement.eq_of_inventory (hkey.trans hkey'.symm) hname ?_
      rw [← hinventory, ← hinventory']
      refine hat.inventory_eq_of_generation ?_
      rw [hinventory, hinventory']
      exact hgeneration
    · have hle := hat.generation_le (request'.tenant, X.normalize request'.username)
        (show t ≤ t' by omega)
      rw [hinventory, hinventory'] at hle
      exact hle
  · intro request since upto result prior h hprior hrequest hstale
    exact retry_superseded hat (hobserved h) hprior hrequest hstale

/-- Link one of the devices of an account. -/
def LinkRequest.sample (n : UInt8) : LinkRequest :=
  ⟨"t", "alice", n.toUInt64, .replicate 32 n, ⟨n.toUInt32 + 1, .replicate 32 n, 0, none⟩⟩

/-- A first device is linked and signed. The request is repeated while a second one is linked. -/
def linkEvents : List (Concurrent.Event Call) :=
  [.call 0 (.direct (.signUpTenant "t" "k" [] 0 "acme" "a@b.c" "password")), .advance 0, .advance 0,
    .call 0 (.direct (.signUpUser [] "t" "alice" "password")), .advance 0, .advance 0,
    .call 0 (.hosted (.sample 0)), .advance 0, .advance 0, .advance 0, .advance 0,
    .call 1 (.hosted (.sample 1)), .advance 1,
    .call 0 (.hosted (.sample 0)), .advance 0, .advance 0, .advance 0,
    .advance 1, .advance 1, .advance 1]

/-- The two statements are in order, and the retry is superseded. -/
theorem issuer_never_equivocates_sample :
    let answered := Answered Platform.sample CoreRules.sample ⟨1, fun _ => true⟩ linkEvents
    (∃ s s', answered (.sample 0) 6 10 (.ok s) ∧ answered (.sample 1) 11 19 (.ok s') ∧
      s.accountHandle = s'.accountHandle ∧ s.inventoryGeneration ≤ s'.inventoryGeneration) ∧
    ∃ t current, (13 ≤ t ∧ t < 16) ∧
      (storeAt Platform.sample CoreRules.sample ⟨1, fun _ => true⟩ linkEvents t).deviceInventory
        Platform.sample "t" "alice" = some current ∧
      answered (.sample 0) 13 16 (.error (.superseded 1 current.generation)) := by
  intro answered
  obtain ⟨-, hone, hretry⟩ := issuer_never_equivocates Platform.sample CoreRules.sample
    ⟨1, fun _ => true⟩ linkEvents
  obtain ⟨s, s', h, h', hname⟩ : ∃ s s', answered (.sample 0) 6 10 (.ok s) ∧
      answered (.sample 1) 11 19 (.ok s') ∧ s.accountHandle = s'.accountHandle :=
    ⟨_, _, List.mem_of_getElem? (i := 2) rfl, List.mem_of_getElem? (i := 4) rfl, rfl⟩
  refine ⟨⟨s, s', h, h', hname, (hone _ _ _ _ _ _ _ _ h h' hname).2.2 (by decide)⟩, ?_⟩
  have hsuperseded : answered (.sample 0) 13 16 (.error (.superseded 1 2)) :=
    List.mem_of_getElem? (i := 3) rfl
  obtain ⟨t, ht, current, hcurrent, heq⟩ := hretry _ _ _ _ _ hsuperseded rfl ⟨rfl, rfl⟩ fun h =>
    absurd (congrArg DeviceInventory.generation h) (by decide)
  rw [heq] at hsuperseded
  exact ⟨t, current, ht, hcurrent, hsuperseded⟩

end Tacenta.Server
