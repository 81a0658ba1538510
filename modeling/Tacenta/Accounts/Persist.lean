import Tacenta.Accounts.Store
import Tacenta.Library.Sections
import Tacenta.Library.TableRows

/-!
# Snapshots of the account store

A snapshot starts with a header and has seven sections: tenants, API keys, users, sessions, device
inventories, and the retry records of links and of the other mutations. Older snapshots have no
header and the first four sections only. The indexes of the tenants are not written, and are built
anew when a snapshot is restored. The order of the records in a section is not determined.

## Main definitions

* `SnapshotSection`, `RestoreError`, and the records of each section.
* `Rows`: the records of a snapshot, in the order in which they are written, and `Rows.snapshot`.
* `Store.tryRestore`: restore a snapshot, or say why not.

-/

open ByteString Result

namespace Tacenta.Accounts

/-! ### Sections -/

/-- A part of a snapshot, in the order it is written. -/
inductive SnapshotSection where
  | header
  | tenants
  | apiKeys
  | users
  | sessions
  | inventories
  | linkRecords
  | lifecycleRecords
  deriving DecidableEq

/-- Why a snapshot was refused. -/
inductive RestoreError where
  | malformed
  | truncated (after : SnapshotSection)
  | orphan (part : SnapshotSection)
  | inconsistent (part : SnapshotSection)
  deriving DecidableEq

/-- The records of a section. The header holds none. -/
abbrev SnapshotSection.Record : SnapshotSection → Type
  | header => Empty
  | tenants => TenantRecord
  | apiKeys => FixedBytes 32 × ApiKeyRecord
  | users => UserRecord
  | sessions => FixedBytes 32 × Session
  | inventories => Account × DeviceInventory
  | linkRecords => (Account × IdempotencyKey) × InventoryMutation
  | lifecycleRecords => (Account × IdempotencyKey) × LifecycleMutation

/-- The records of every section, in the order in which they are written. -/
abbrev Rows := (t : SnapshotSection) → List t.Record

/-- The first bytes of a snapshot. -/
def snapshotHeader : Bytes := [0xff, 0xff, 0xff, 0xff, 0x54, 0x43, 0x41, 0x32]

/-- The sections of the older snapshots. -/
def accountSections : List SnapshotSection := [.tenants, .apiKeys, .users, .sessions]

/-- The sections that were added to them. -/
def deviceSections : List SnapshotSection := [.inventories, .linkRecords, .lifecycleRecords]

/-! ### Writing -/

/-- The expectation of a snapshot: a field fits its length. -/
inductive SnapshotPanic where
  | fieldFitsU32
  deriving DecidableEq

/-- Append a text after its length in four bytes. -/
def putStr (out : Bytes) (s : String) : Except SnapshotPanic Bytes := do
  refuseIf (2 ^ 32 ≤ (utf8Bytes s).length) .fieldFitsU32
  pure (out ++ lpBytes (utf8Bytes s))

/-- The bytes of a mutation other than a link. -/
def lifecycleRequestBytes : LifecycleRequest → Bytes
  | .replace predecessorGeneration retired replacement =>
    1 :: (u64Bytes predecessorGeneration ++ (bindingBytes retired ++ bindingBytes replacement))
  | .revoke predecessorGeneration retired =>
    2 :: (u64Bytes predecessorGeneration ++ bindingBytes retired)

/-- Append a record of a section. -/
def putRecord : (t : SnapshotSection) → Bytes → t.Record → Except SnapshotPanic Bytes
  | .header, out, _ => pure out
  | .tenants, out, tenant => do
    let out ← putStr out tenant.id
    let out ← putStr out tenant.username
    let out ← putStr out tenant.email
    putStr out tenant.passwordHash
  | .apiKeys, out, (hash, record) => do
    let out ← putStr (out ++ hash.val) record.tenant
    let out ← putStr out record.keyStart
    -- no label is written as the empty one
    let out ← putStr out (record.label.getD "")
    pure (out ++ u64Bytes record.createdAt)
  | .users, out, user => do
    let out ← putStr out user.tenant
    let out ← putStr out user.username
    putStr out user.passwordHash
  | .sessions, out, (hash, session) => do
    let out ← putStr (out ++ hash.val) session.tenant
    let out ← putStr out session.username
    pure (out ++ u64Bytes session.expiresAt)
  | .inventories, out, (account, inventory) => do
    let out ← putStr out account.1
    let out ← putStr out account.2
    pure (out ++ encodeInventory inventory)
  | .linkRecords, out, ((account, idempotencyKey), mutation) => do
    let out ← putStr out account.1
    let out ← putStr out account.2
    pure (out ++ idempotencyKey.val ++ u64Bytes mutation.predecessorGeneration ++
      bindingBytes mutation.binding ++ encodeInventory mutation.result)
  | .lifecycleRecords, out, ((account, idempotencyKey), mutation) => do
    let out ← putStr out account.1
    let out ← putStr out account.2
    pure (out ++ idempotencyKey.val ++ lifecycleRequestBytes mutation.request ++
      encodeInventory mutation.result)

/-- Append the records of a section after their number. -/
def putSection (t : SnapshotSection) (out : Bytes) (records : List t.Record) :
    Except SnapshotPanic Bytes :=
  records.foldlM (putRecord t) (out ++ u32Bytes records.length.toUInt32)

/-- The snapshot of a store whose records are these. -/
def Rows.snapshot (rows : Rows) : Except SnapshotPanic Bytes :=
  (accountSections ++ deviceSections).foldlM (fun out t => putSection t out (rows t)) snapshotHeader

/-- The rows are the records of the store, in any order. -/
structure Rows.Lists (rows : Rows) (a : Store) : Prop where
  tenants : (rows .tenants).Perm (a.tenants.pairs.map Prod.snd)
  apiKeys : (rows .apiKeys).Perm a.apiKeys.pairs
  users : (rows .users).Perm (a.users.pairs.map Prod.snd)
  sessions : (rows .sessions).Perm a.sessions.pairs
  inventories : (rows .inventories).Perm a.deviceInventories.pairs
  linkRecords : (rows .linkRecords).Perm a.inventoryMutations.pairs
  lifecycleRecords : (rows .lifecycleRecords).Perm a.inventoryLifecycleMutations.pairs

/-- The records of the store in the order of its tables. -/
def Store.rows (a : Store) : Rows
  | .header => []
  | .tenants => a.tenants.pairs.map Prod.snd
  | .apiKeys => a.apiKeys.pairs
  | .users => a.users.pairs.map Prod.snd
  | .sessions => a.sessions.pairs
  | .inventories => a.deviceInventories.pairs
  | .linkRecords => a.inventoryMutations.pairs
  | .lifecycleRecords => a.inventoryLifecycleMutations.pairs

theorem Store.lists_rows (a : Store) : a.rows.Lists a :=
  ⟨.refl _, .refl _, .refl _, .refl _, .refl _, .refl _, .refl _⟩

/-! ### Reading -/

variable {κ : Type} (X : Platform) (C : CoreRules κ)

/-- Take a text. -/
def takeStr : Reader Unit String := do
  let bytes ← Reader.takeLp ()
  orRefuse (ofUtf8? bytes) ()

/-- Take an account: the tenant and the username. -/
def takeAccount : Reader Unit Account := do
  let tenant ← takeStr
  let username ← takeStr
  pure (tenant, username)

/-- Take an inventory that other fields follow. -/
def takeInventoryField : Reader Unit DeviceInventory := do
  let generation ← Reader.takeU64 ()
  let active ← takeLimited C.maxActiveBindings takeBinding
  let revocationFloorGeneration ← Reader.takeU64 ()
  let revoked ← takeLimited C.maxRecentRevocations takeRevocation
  pure ⟨generation, active, revocationFloorGeneration, revoked⟩

/-- Take a mutation other than a link. -/
def takeLifecycleRequest : Reader Unit LifecycleRequest := do
  let tag ← Reader.takeByte ()
  let predecessorGeneration ← Reader.takeU64 ()
  if tag = 1 then
    let retired ← takeBinding
    let replacement ← takeBinding
    pure (.replace predecessorGeneration retired replacement)
  else if tag = 2 then
    let retired ← takeBinding
    pure (.revoke predecessorGeneration retired)
  else throw ()

def takeRecord : (t : SnapshotSection) → Reader Unit t.Record
  | .header => throw ()
  | .tenants => do
    let id ← takeStr
    let username ← takeStr
    let email ← takeStr
    let passwordHash ← takeStr
    pure ⟨id, username, email, passwordHash⟩
  | .apiKeys => do
    let hash ← Reader.takeArray () 32
    let tenant ← takeStr
    let keyStart ← takeStr
    let label ← takeStr
    let createdAt ← Reader.takeU64 ()
    pure (hash, ⟨tenant, keyStart, if label = "" then none else some label, createdAt⟩)
  | .users => do
    let tenant ← takeStr
    let username ← takeStr
    let passwordHash ← takeStr
    pure ⟨tenant, username, passwordHash⟩
  | .sessions => do
    let hash ← Reader.takeArray () 32
    let tenant ← takeStr
    let username ← takeStr
    let expiresAt ← Reader.takeU64 ()
    pure (hash, ⟨tenant, username, expiresAt⟩)
  | .inventories => do
    let account ← takeAccount
    let inventory ← takeInventoryField C
    pure (account, inventory)
  | .linkRecords => do
    let account ← takeAccount
    let idempotencyKey ← Reader.takeArray () 32
    let predecessorGeneration ← Reader.takeU64 ()
    let binding ← takeBinding
    let result ← takeInventoryField C
    pure ((account, idempotencyKey), ⟨predecessorGeneration, binding, result⟩)
  | .lifecycleRecords => do
    let account ← takeAccount
    let idempotencyKey ← Reader.takeArray () 32
    let request ← takeLifecycleRequest
    let result ← takeInventoryField C
    pure ((account, idempotencyKey), ⟨request, result⟩)

/-- The generation that a mutation other than a link replaces. -/
def LifecycleRequest.predecessorGeneration : LifecycleRequest → UInt64
  | .replace predecessorGeneration _ _ => predecessorGeneration
  | .revoke predecessorGeneration _ => predecessorGeneration

namespace Store

/-- The inventory of an account that is restored: the account exists, and the inventory has a
statement. -/
def checkInventory (a : Store) (part : SnapshotSection) (account : Account)
    (inventory : DeviceInventory) : Except RestoreError Unit := do
  refuseIf (account ∉ a.users) (.orphan part)
  let handle ← orRefuse (a.handle X account.1 account.2) (.orphan part)
  (validateInventory C.toLifecycleRules handle inventory).mapError fun _ => .inconsistent part

def restoreRecord : (t : SnapshotSection) → Store → t.Record → Except RestoreError Store
  | .header, a, _ => pure a
  | .tenants, a, record =>
    pure { a with
      tenantByUsername := a.tenantByUsername.insert record.username record.id
      tenantByEmail := a.tenantByEmail.insert record.email record.id
      tenants := a.tenants.insert record.id record }
  | .apiKeys, a, (hash, record) => do
    refuseIf (record.tenant ∉ a.tenants) (.orphan .apiKeys)
    pure { a with apiKeys := a.apiKeys.insert hash record }
  | .users, a, record => do
    refuseIf (record.tenant ∉ a.tenants) (.orphan .users)
    pure { a with users := a.users.insert (record.tenant, record.username) record }
  | .sessions, a, (hash, session) => do
    refuseIf ((session.tenant, session.username) ∉ a.users) (.orphan .sessions)
    pure { a with sessions := a.sessions.insert hash session }
  | .inventories, a, (account, inventory) => do
    a.checkInventory X C .inventories account inventory
    refuseIf (account ∈ a.deviceInventories) (.inconsistent .inventories)
    pure { a with deviceInventories := a.deviceInventories.insert account inventory }
  | .linkRecords, a, (key, mutation) => do
    a.checkInventory X C .linkRecords key.1 mutation.result
    refuseIf (mutation.result.generation ≤ mutation.predecessorGeneration)
      (.inconsistent .linkRecords)
    refuseIf (key ∈ a.inventoryMutations) (.inconsistent .linkRecords)
    pure { a with inventoryMutations := a.inventoryMutations.insert key mutation }
  | .lifecycleRecords, a, (key, mutation) => do
    a.checkInventory X C .lifecycleRecords key.1 mutation.result
    refuseIf (mutation.result.generation ≤ mutation.request.predecessorGeneration)
      (.inconsistent .lifecycleRecords)
    refuseIf (key ∈ a.inventoryMutations) (.inconsistent .lifecycleRecords)
    refuseIf (key ∈ a.inventoryLifecycleMutations) (.inconsistent .lifecycleRecords)
    pure { a with
      inventoryLifecycleMutations := a.inventoryLifecycleMutations.insert key mutation }

/-- How the sections are read. -/
def format : SectionFormat SnapshotSection.Record RestoreError Store where
  take t := (takeRecord C t).mapError fun _ => .malformed
  restore := restoreRecord X C
  malformed := .malformed
  truncated := .truncated

/-- Restore a snapshot, or say why not. -/
def tryRestore (bytes : Bytes) : Except RestoreError Store :=
  if snapshotHeader.isPrefixOf bytes then
    ((format X C).readSections .header (accountSections ++ deviceSections) .new).run'
      (bytes.drop snapshotHeader.length)
  else
    -- without the header, nothing has to be present before the tenants
    ((format X C).readSection .tenants .new >>=
      (format X C).readSections .tenants [.apiKeys, .users, .sessions]).run' bytes

end Store

end Tacenta.Accounts
