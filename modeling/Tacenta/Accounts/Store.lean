import Tacenta.Accounts.Inventory
import Tacenta.Accounts.InventoryTx
import Tacenta.Library.SlidingWindow
import Tacenta.Library.Table

/-!
# The account store

Tenants and their users, with the indexes that enforce uniqueness, API keys, sessions, the
inventories of the users' devices and the failed sign-ins. A store call is atomic. What it generates
(identifiers, keys, tokens and salts) and the time are arguments of the call.

Normalising text, hashing passwords and hashing bytes are a parameter.

## Main definitions

* `Store`: the store, with its operations under the names of the source.
* `AccountCall`, `Store.perform`: the operations as one type.
-/

open ByteString Result

namespace Tacenta.Accounts

/-- What the store takes from libraries. -/
structure Platform where
  /-- Trim and change to lower case. -/
  normalize : String → String
  normalize_normalize : ∀ s, normalize (normalize s) = normalize s
  /-- The hash of a password with a salt. -/
  hashPassword : Bytes → String → String
  /-- Whether a password fits a hash. -/
  verifyPassword : String → String → Bool
  sha256 : Bytes → FixedBytes 32

/-- A platform that takes text and passwords as they are, and of bytes the last one. -/
def Platform.sample : Platform where
  normalize s := s
  normalize_normalize _ := rfl
  hashPassword _ password := password
  verifyPassword password hash := password = hash
  sha256 bytes := .replicate 32 (bytes.getLastD 0)

/-- A tenant identifier. -/
abbrev TenantId := String

/-! ### Failed sign-ins -/

/-- The failed sign-ins of each key. -/
structure RateLimiter where
  failures : SlidingWindow.Stamps
  maxFailures : Nat
  windowSecs : UInt64

namespace RateLimiter

/-- Nothing failed yet. -/
def default : RateLimiter := ⟨∅, 5, 60⟩

/-- The most keys that are remembered. -/
def maxKeys : Nat := 64 * 1024

/-- The failures of a tenant from which on no credentials are checked. -/
def tenantFloodCeiling : Nat := 200

variable (limiter : RateLimiter)

/-- The failures of the key within the window. -/
def recentFailures (key : String) (now : UInt64) : Nat :=
  (SlidingWindow.recent limiter.windowSecs limiter.failures key now).length

/-- The key has reached the ceiling. -/
def isBlocked (key : String) (now : UInt64) : Bool :=
  limiter.maxFailures ≤ limiter.recentFailures key now

def recordFailure (key : String) (now : UInt64) : RateLimiter :=
  { limiter with
    failures := SlidingWindow.record maxKeys limiter.windowSecs limiter.failures key now }

/-- The keys that start so fail too often. -/
def tenantIsFlooded (start : String) (now : UInt64) : Bool :=
  tenantFloodCeiling ≤ ((limiter.failures.entries.filter fun entry =>
    start.toList <+: entry.1.toList).map fun entry =>
      entry.2.countP (SlidingWindow.within limiter.windowSecs · now)).sum

/-- Forget the failures of the key. -/
def recordSuccess (key : String) : RateLimiter :=
  { limiter with failures := limiter.failures.erase key }

end RateLimiter

/-! ### The store -/

/-- A tenant, as it is shown. -/
structure Tenant where
  id : TenantId
  username : String
  email : String
  deriving DecidableEq

/-- A user within a tenant. -/
structure User where
  tenant : TenantId
  username : String
  deriving DecidableEq

/-- Why a signup was refused. -/
inductive SignupError where
  | usernameTaken
  | emailTaken
  | invalidUsername
  | invalidEmail
  | weakPassword
  | unknownTenant
  deriving DecidableEq

/-- Why an authentication failed. -/
inductive AuthError where
  | invalidCredentials
  | unknownTenant
  | rateLimited
  deriving DecidableEq

structure TenantRecord where
  id : TenantId
  username : String
  email : String
  passwordHash : String

structure UserRecord where
  tenant : TenantId
  username : String
  passwordHash : String

structure ApiKeyRecord where
  tenant : TenantId
  keyStart : String
  label : Option String
  createdAt : UInt64

/-- A session: the user whose it is and when it ends. -/
structure Session where
  tenant : TenantId
  username : String
  expiresAt : UInt64

/-- A completed link, under its retry key. -/
structure InventoryMutation where
  predecessorGeneration : UInt64
  binding : DeviceBinding
  result : DeviceInventory

/-- A mutation other than a link. -/
inductive LifecycleRequest where
  | replace (predecessorGeneration : UInt64) (retired replacement : DeviceBinding)
  | revoke (predecessorGeneration : UInt64) (retired : DeviceBinding)
  deriving DecidableEq

/-- A completed mutation other than a link, under its retry key. -/
structure LifecycleMutation where
  request : LifecycleRequest
  result : DeviceInventory

/-- An account: the tenant and the normalised username. -/
abbrev Account := TenantId × String

/-- The account store. -/
structure Store where
  tenants : Table TenantId TenantRecord
  tenantByUsername : Table String TenantId
  tenantByEmail : Table String TenantId
  apiKeys : Table (FixedBytes 32) ApiKeyRecord
  users : Table Account UserRecord
  deviceInventories : Table Account DeviceInventory
  inventoryMutations : Table (Account × IdempotencyKey) InventoryMutation
  inventoryLifecycleMutations : Table (Account × IdempotencyKey) LifecycleMutation
  sessions : Table (FixedBytes 32) Session
  limiter : RateLimiter

/-- The empty store. -/
def Store.new : Store := ⟨∅, ∅, ∅, ∅, ∅, ∅, ∅, ∅, ∅, .default⟩

variable {κ : Type} (X : Platform) (C : CoreRules κ)

/-- An ASCII letter or digit. -/
def isAsciiAlphanumeric (c : Char) : Bool := c.isAlphanum

/-- The characters of a username. -/
def usernameChar (c : Char) : Bool := isAsciiAlphanumeric c || c = '.' || c = '_' || c = '-'

/-- The normal form of a username that can be signed up. -/
def normalizeUsername (s : String) : Except SignupError String := do
  let u := X.normalize s
  refuseIf (¬((3 ≤ u.toList.length ∧ u.toList.length ≤ 32) ∧ u.toList.all usernameChar))
    .invalidUsername
  pure u

/-- An address with one sign, something before it and a domain after it. -/
def plausibleEmail (e : List Char) : Bool :=
  let name := e.takeWhile (· ≠ '@')
  let domain := ((e.dropWhile (· ≠ '@')).drop 1).takeWhile (· ≠ '@')
  e.count '@' = 1 && !name.isEmpty && domain.contains '.' && domain.head? ≠ some '.' &&
    domain.getLast? ≠ some '.'

/-- The normal form of an email address that can be signed up. -/
def normalizeEmail (s : String) : Except SignupError String := do
  let e := X.normalize s
  refuseIf (¬((utf8Bytes e).length ≤ 254 ∧ plausibleEmail e.toList)) .invalidEmail
  pure e

/-- The password is long enough, and not too long. -/
def validatePassword (password : String) : Except SignupError Unit :=
  refuseIf (¬(8 ≤ (utf8Bytes password).length ∧ (utf8Bytes password).length ≤ 1024)) .weakPassword

/-- The number of characters of an API key that are shown. -/
def keyPrefixLen : Nat := 12

/-- How long a session lasts, in seconds. -/
def sessionTtlSecs : UInt64 := 24 * 60 * 60

/-- The key of a sign-in with the limiter. -/
def ratelimitKey (tenant : TenantId) (identifier : String) : String :=
  tenant ++ "\x00" ++ X.normalize identifier

/-- How the keys of a tenant start. -/
def tenantKeyStart (tenant : TenantId) : String := tenant ++ "\x00"

/-- The rule of the mutation. -/
def LifecycleRequest.transition (handle : String) (current : DeviceInventory) :
    LifecycleRequest → Except (InventoryError κ) DeviceInventory
  | .revoke predecessorGeneration retired =>
    revokeInventory C.toLifecycleRules handle current predecessorGeneration retired
  | .replace predecessorGeneration retired replacement =>
    replaceInventory C.toLifecycleRules handle current predecessorGeneration retired replacement

namespace Store

variable (a : Store)

def signUpTenant (id : TenantId) (apiKey : String) (salt : Bytes) (now : UInt64)
    (username email password : String) : Except SignupError (Store × Tenant × String) := do
  let username ← normalizeUsername X username
  let email ← normalizeEmail X email
  validatePassword password
  refuseIf (username ∈ a.tenantByUsername) .usernameTaken
  refuseIf (email ∈ a.tenantByEmail) .emailTaken
  pure
    ({ a with
        tenants := a.tenants.insert id ⟨id, username, email, X.hashPassword salt password⟩
        tenantByUsername := a.tenantByUsername.insert username id
        tenantByEmail := a.tenantByEmail.insert email id
        apiKeys := a.apiKeys.insert (X.sha256 (utf8Bytes apiKey))
          ⟨id, String.ofList (apiKey.toList.take keyPrefixLen), none, now⟩ },
      ⟨id, username, email⟩, apiKey)

/-- Make one more API key. -/
def createApiKey (apiKey : String) (now : UInt64) (tenant : TenantId) (label : Option String) :
    Except AuthError (Store × String) := do
  refuseIf (tenant ∉ a.tenants) .unknownTenant
  pure
    ({ a with
        apiKeys := a.apiKeys.insert (X.sha256 (utf8Bytes apiKey))
          ⟨tenant, String.ofList (apiKey.toList.take keyPrefixLen), label, now⟩ }, apiKey)

/-- Revoke the API keys of a tenant that start so. -/
def revokeApiKey (tenant : TenantId) (keyStart : String) : Store × Bool :=
  let apiKeys := a.apiKeys.retain fun _ record =>
    ¬(record.tenant = tenant ∧ record.keyStart = keyStart)
  ({ a with apiKeys }, a.apiKeys.entries.length ≠ apiKeys.entries.length)

/-- Sign up a user within a tenant. -/
def signUpUser (salt : Bytes) (tenant : TenantId) (username password : String) :
    Except SignupError (Store × User) := do
  refuseIf (tenant ∉ a.tenants) .unknownTenant
  let username ← normalizeUsername X username
  validatePassword password
  refuseIf ((tenant, username) ∈ a.users) .usernameTaken
  pure
    ({ a with
        users := a.users.insert (tenant, username)
          ⟨tenant, username, X.hashPassword salt password⟩ }, ⟨tenant, username⟩)

/-- Authenticate a user within a tenant. -/
def authenticateUser (tenant : TenantId) (username password : String) : Except AuthError User := do
  refuseIf (tenant ∉ a.tenants) .unknownTenant
  let u ← orRefuse (a.users.lookup (tenant, X.normalize username)) .invalidCredentials
  refuseIf (X.verifyPassword password u.passwordHash = false) .invalidCredentials
  pure ⟨u.tenant, u.username⟩

/-- Authenticate a user and issue a session token, unless there were too many failures. -/
def signInAt (token : String) (now : UInt64) (tenant : TenantId) (identifier password : String) :
    Store × Except AuthError (User × String) :=
  let key := ratelimitKey X tenant identifier
  if a.limiter.isBlocked key now then (a, .error .rateLimited)
  else if a.limiter.tenantIsFlooded (tenantKeyStart tenant) now then
    ({ a with limiter := a.limiter.recordFailure key now }, .error .rateLimited)
  else
    match a.authenticateUser X tenant identifier password with
    | .ok user =>
      ({ a with
          limiter := a.limiter.recordSuccess key
          sessions := a.sessions.insert (X.sha256 (utf8Bytes token))
            ⟨user.tenant, user.username, Word64.saturatingAdd now sessionTtlSecs⟩ },
        .ok (user, token))
    | .error e => ({ a with limiter := a.limiter.recordFailure key now }, .error e)

/-- The user whom a session token authorises. -/
def validateSessionAt (now : UInt64) (token : String) : Option (TenantId × String) :=
  ((a.sessions.lookup (X.sha256 (utf8Bytes token))).filter fun session =>
    now < session.expiresAt).map fun session => (session.tenant, session.username)

def revokeSession (token : String) : Store × Bool :=
  let hash := X.sha256 (utf8Bytes token)
  ({ a with sessions := a.sessions.erase hash }, hash ∈ a.sessions)

/-- Revoke every session of a user. -/
def revokeUserSessions (tenant : TenantId) (username : String) : Store × Nat :=
  let username := X.normalize username
  let sessions := a.sessions.retain fun _ session =>
    ¬(session.tenant = tenant ∧ session.username = username)
  ({ a with sessions }, a.sessions.entries.length - sessions.entries.length)

/-- Drop the sessions that have ended. -/
def sweepExpiredSessionsAt (now : UInt64) : Store × Nat :=
  let sessions := a.sessions.retain fun _ session => now < session.expiresAt
  ({ a with sessions }, a.sessions.entries.length - sessions.entries.length)

/-- The handle of a user in the directory. -/
def handle (tenant : TenantId) (username : String) : Option String :=
  (a.tenants.lookup tenant).map fun record => record.username ++ "/" ++ X.normalize username

/-- The inventory of an account that exists. -/
def deviceInventory (tenant : TenantId) (username : String) : Option DeviceInventory :=
  let account := (tenant, X.normalize username)
  if account ∈ a.users then some ((a.deviceInventories.lookup account).getD .default) else none

def linkDeviceBinding (tenant : TenantId) (username : String) (predecessorGeneration : UInt64)
    (idempotencyKey : IdempotencyKey) (binding : DeviceBinding) :
    Except (InventoryError κ) (Store × DeviceInventory) := do
  let account := (tenant, X.normalize username)
  refuseIf (account ∉ a.users) .unknownUser
  refuseIf ((account, idempotencyKey) ∈ a.inventoryLifecycleMutations) .idempotencyConflict
  match a.inventoryMutations.lookup (account, idempotencyKey) with
  | some prior => do
    refuseIf (¬(prior.predecessorGeneration = predecessorGeneration ∧ prior.binding = binding))
      .idempotencyConflict
    pure (a, prior.result)
  | none => do
    let current := (a.deviceInventories.lookup account).getD .default
    let handle ← orRefuse (a.handle X tenant account.2) .unknownUser
    let next ← linkInventory C.toLifecycleRules handle current predecessorGeneration binding
    pure
      ({ a with
          deviceInventories := a.deviceInventories.insert account next
          inventoryMutations := a.inventoryMutations.insert (account, idempotencyKey)
            ⟨predecessorGeneration, binding, next⟩ }, next)

/-- Revoke or replace a device. -/
def applyLifecycleMutation (tenant : TenantId) (username : String) (idempotencyKey : IdempotencyKey)
    (request : LifecycleRequest) : Except (InventoryError κ) (Store × DeviceInventory) := do
  let account := (tenant, X.normalize username)
  refuseIf (account ∉ a.users) .unknownUser
  refuseIf ((account, idempotencyKey) ∈ a.inventoryMutations) .idempotencyConflict
  match a.inventoryLifecycleMutations.lookup (account, idempotencyKey) with
  | some prior => do
    refuseIf (prior.request ≠ request) .idempotencyConflict
    pure (a, prior.result)
  | none => do
    let current := (a.deviceInventories.lookup account).getD .default
    let handle ← orRefuse (a.handle X tenant account.2) .unknownUser
    let next ← request.transition C handle current
    pure
      ({ a with
          deviceInventories := a.deviceInventories.insert account next
          inventoryLifecycleMutations := a.inventoryLifecycleMutations.insert
            (account, idempotencyKey) ⟨request, next⟩ }, next)

def revokeDeviceBinding (tenant : TenantId) (username : String) (predecessorGeneration : UInt64)
    (idempotencyKey : IdempotencyKey) (retired : DeviceBinding) :
    Except (InventoryError κ) (Store × DeviceInventory) :=
  a.applyLifecycleMutation X C tenant username idempotencyKey
    (.revoke predecessorGeneration retired)

def replaceDeviceBinding (tenant : TenantId) (username : String) (predecessorGeneration : UInt64)
    (idempotencyKey : IdempotencyKey) (retired replacement : DeviceBinding) :
    Except (InventoryError κ) (Store × DeviceInventory) :=
  a.applyLifecycleMutation X C tenant username idempotencyKey
    (.replace predecessorGeneration retired replacement)

end Store

/-! ### The operations as one type -/

/-- An operation of the store. -/
inductive AccountCall where
  | signUpTenant (id : TenantId) (apiKey : String) (salt : Bytes) (now : UInt64)
    (username email password : String)
  | createApiKey (apiKey : String) (now : UInt64) (tenant : TenantId) (label : Option String)
  | revokeApiKey (tenant : TenantId) (keyStart : String)
  | signUpUser (salt : Bytes) (tenant : TenantId) (username password : String)
  | signInAt (token : String) (now : UInt64) (tenant : TenantId) (identifier password : String)
  | validateSessionAt (now : UInt64) (token : String)
  | revokeSession (token : String)
  | revokeUserSessions (tenant : TenantId) (username : String)
  | sweepExpiredSessionsAt (now : UInt64)
  | handle (tenant : TenantId) (username : String)
  | deviceInventory (tenant : TenantId) (username : String)
  | linkDeviceBinding (tenant : TenantId) (username : String) (predecessorGeneration : UInt64)
    (idempotencyKey : IdempotencyKey) (binding : DeviceBinding)
  | revokeDeviceBinding (tenant : TenantId) (username : String) (predecessorGeneration : UInt64)
    (idempotencyKey : IdempotencyKey) (retired : DeviceBinding)
  | replaceDeviceBinding (tenant : TenantId) (username : String) (predecessorGeneration : UInt64)
    (idempotencyKey : IdempotencyKey) (retired replacement : DeviceBinding)

/-- What an operation answers. -/
abbrev AccountCall.Answer (κ : Type) : AccountCall → Type
  | signUpTenant .. => Except SignupError (Tenant × String)
  | createApiKey .. => Except AuthError String
  | revokeApiKey .. => Bool
  | signUpUser .. => Except SignupError User
  | signInAt .. => Except AuthError (User × String)
  | validateSessionAt .. => Option (TenantId × String)
  | revokeSession .. => Bool
  | revokeUserSessions .. => Nat
  | sweepExpiredSessionsAt .. => Nat
  | handle .. => Option String
  | deviceInventory .. => Option DeviceInventory
  | linkDeviceBinding .. => Except (InventoryError κ) DeviceInventory
  | revokeDeviceBinding .. => Except (InventoryError κ) DeviceInventory
  | replaceDeviceBinding .. => Except (InventoryError κ) DeviceInventory

/-- Keep the store as it was if the operation was refused. -/
def Store.settle {ε α : Type} (a : Store) : Except ε (Store × α) → Store × Except ε α
  | .ok (a', x) => (a', .ok x)
  | .error e => (a, .error e)

/-- Run an operation. -/
def Store.perform (a : Store) : (i : AccountCall) → Store × i.Answer κ
  | .signUpTenant id apiKey salt now username email password =>
    a.settle (a.signUpTenant X id apiKey salt now username email password)
  | .createApiKey apiKey now tenant label => a.settle (a.createApiKey X apiKey now tenant label)
  | .revokeApiKey tenant keyStart => a.revokeApiKey tenant keyStart
  | .signUpUser salt tenant username password =>
    a.settle (a.signUpUser X salt tenant username password)
  | .signInAt token now tenant identifier password =>
    a.signInAt X token now tenant identifier password
  | .validateSessionAt now token => (a, a.validateSessionAt X now token)
  | .revokeSession token => a.revokeSession X token
  | .revokeUserSessions tenant username => a.revokeUserSessions X tenant username
  | .sweepExpiredSessionsAt now => a.sweepExpiredSessionsAt now
  | .handle tenant username => (a, a.handle X tenant username)
  | .deviceInventory tenant username => (a, a.deviceInventory X tenant username)
  | .linkDeviceBinding tenant username predecessor key binding =>
    a.settle (a.linkDeviceBinding X C tenant username predecessor key binding)
  | .revokeDeviceBinding tenant username predecessor key retired =>
    a.settle (a.revokeDeviceBinding X C tenant username predecessor key retired)
  | .replaceDeviceBinding tenant username predecessor key retired replacement =>
    a.settle (a.replaceDeviceBinding X C tenant username predecessor key retired replacement)

end Tacenta.Accounts
