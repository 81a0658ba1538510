import Tacenta.Core.OpenParty
import Tacenta.Core.Seal
import Tacenta.Relay.Protocol

/-!
# The persisted state of a client

A client exports its identity, its sessions and its prekeys as one body. A plain export ends in the
generation of the state. A sealed export binds the client's address, the body, the generation and
the store's rollback counter under an authenticator, and is what a client is restored from if it
claims to notice a rollback.

Of the services that a client connects to, only the answers are kept: whether registration or
provisioning succeeded, the handle that was provisioned, and whether the directory saw a later
generation.

## Main definitions

* `splitState`: the parts of a plain state or of a body.
* `openSealed`: verify and open a sealed state.
* `Client.exportStateSealed`: the sealed export.
* `connectWithStateSealed`, `signInWithStateSealed`: the restores from a sealed state, with
  `connectParty` and `signInParty`, the parties that they build.
-/

open ByteString Result Tacenta.Core
open Tacenta.Relay (DeviceAddr)

namespace Tacenta.Sealed

/-! ### Stores and errors -/

/-- Why a secure store could not answer. -/
inductive SecureStoreError where
  | unavailable (reason : String)
  | backend (reason : String)
  deriving DecidableEq

/-- What a secure store answers when it is asked. -/
structure SecureStore where
  /-- The wrapping key. -/
  wrapKey : Except SecureStoreError Key
  /-- The highest counter that was committed. -/
  rollbackCounter : Except SecureStoreError UInt64

/-- What can go wrong. -/
inductive Error where
  | network
  | invalidArgument (text : String)
  | crypto (error : OpenError)
  | protocol (text : String)
  | secureStore (text : String)
  | storeUnavailable (reason : String)
  | stateMismatch (state client : DeviceAddr)
  deriving DecidableEq

/-- A store's failure as the client reports it. -/
def storeErr : SecureStoreError → Error
  | .unavailable reason => .storeUnavailable reason
  | .backend reason => .secureStore reason

/-! ### The plain format -/

/-- The provider that a session is bound to. -/
inductive SessionProvider where
  | untagged
  | openTacenta
  deriving DecidableEq

namespace SessionProvider

/-- The byte of the provider in the envelope. -/
def toByte : SessionProvider → UInt8
  | .untagged => 1
  | .openTacenta => 2

def fromByte (b : UInt8) : Option SessionProvider :=
  if b = 1 then some .untagged else if b = 2 then some .openTacenta else none

end SessionProvider

/-- Marks a state that carries a version. -/
def stateTagged : UInt8 := 0xff

/-- Identity and sessions. -/
def stateVersion2 : UInt8 := 2

/-- Identity, sessions and prekeys. -/
def stateVersion3 : UInt8 := 3

/-- Identity, sessions and prekeys, and the generation. -/
def stateVersion4 : UInt8 := 4

/-- A sealed body. -/
def stateVersion5 : UInt8 := 5

/-- A sealed address and body. -/
def stateVersion6 : UInt8 := 6

/-- The parts of a state. -/
structure SplitState where
  provider : SessionProvider
  identity : Bytes
  sessions : Bytes
  prekeys : Option Bytes
  generation : UInt64
  deriving DecidableEq

/-- A state that ends too early. -/
def truncated : Error := .protocol "state blob truncated"

/-- A state that goes on. -/
def trailing : Error := .protocol "state blob has trailing bytes"

/-- Take the parts of a state that carries a version. -/
def takeTagged : Reader Error SplitState := do
  let version ← Reader.takeByte truncated
  let tag ← Reader.takeByte truncated
  let provider ← orRefuse (SessionProvider.fromByte tag)
    (Error.protocol "unknown session provider")
  if version = stateVersion2 then
    let identity ← Reader.takeLp truncated
    let sessions ← Reader.takeRest
    pure ⟨provider, identity, sessions, none, 0⟩
  else if version = stateVersion3 then
    let identity ← Reader.takeLp truncated
    let sessions ← Reader.takeLp truncated
    let prekeys ← Reader.takeLp truncated
    Reader.finish trailing
    pure ⟨provider, identity, sessions, some prekeys, 0⟩
  else if version = stateVersion4 then
    let identity ← Reader.takeLp truncated
    let sessions ← Reader.takeLp truncated
    let prekeys ← Reader.takeLp truncated
    let generation ← Reader.takeU64 truncated
    Reader.finish trailing
    pure ⟨provider, identity, sessions, some prekeys, generation⟩
  else throw (.protocol "unknown state blob version")

/-- Take the parts of a state from before there were versions. -/
def takeUntagged : Reader Error SplitState := do
  let identity ← Reader.takeLp truncated
  let sessions ← Reader.takeRest
  pure ⟨.untagged, identity, sessions, none, 0⟩

/-- Split a state into its parts. -/
def splitState (state : Bytes) : Except Error SplitState :=
  if state.head? = some stateTagged then takeTagged.run' (state.drop 1) else takeUntagged.run' state

/-! ### The sealed format -/

/-- A sealed state, opened. -/
structure Opened where
  body : Bytes
  /-- The authenticated generation. -/
  generation : UInt64
  /-- Whether the store has moved past the state. -/
  stale : Bool
  /-- The address that the state was sealed for. -/
  bound : Option DeviceAddr
  deriving DecidableEq

namespace Opened

/-- Refuse a state that was sealed for another address. -/
def expectAddress (opened : Opened) (client : DeviceAddr) : Except Error Unit :=
  match opened.bound with
  | some state => refuseIf (state ≠ client) (.stateMismatch state client)
  | none => .ok ()

/-- The user is the identifier, bare or under a tenant. -/
def isUser (user identifier : String) : Bool :=
  user = identifier || (utf8Bytes ("/" ++ identifier)).isSuffixOf (utf8Bytes user)

/-- Refuse a state that was sealed for another device, or for a user that is not the identifier. -/
def expectUser (opened : Opened) (identifier : String) (device : UInt32) : Except Error Unit :=
  match opened.bound with
  | some state =>
    refuseIf (state.device ≠ device ∨ isUser state.user identifier = false)
      (.stateMismatch state ⟨identifier, device⟩)
  | none => .ok ()

end Opened

/-- Not the sealed format. -/
def notSealed : Error := .secureStore "not a sealed state blob"

/-- The refusal of a seal as the client reports it. -/
def sealErr : SealError → Error
  | .badAuthenticator => .secureStore
    "state authenticator does not match: the file was altered or the key is wrong"
  | .tooShort => .secureStore "sealed state is truncated"
  | .unknownVersion => .secureStore "sealed state envelope version"

def takeSealedVersion (state : Bytes) : Except Error (UInt8 × Bytes) :=
  match state with
  | [] => .error notSealed
  | first :: rest =>
    if first = stateTagged then
      match rest with
      | [] => .error truncated
      | version :: sealed => .ok (version, sealed)
    else .error notSealed

/-- Take the address that a state was sealed for. -/
def takeBound : Reader Error DeviceAddr := do
  let missing := Error.secureStore "sealed state missing its address"
  let name ← Reader.takeLp missing
  let device ← Reader.takeU32 missing
  let user ← orRefuse (ofUtf8? name) missing
  pure ⟨user, device⟩

/-- Take the address from the front of the sealed bytes, in the version that has one. -/
def splitBound (version : UInt8) (body : Bytes) : Except Error (Option DeviceAddr × Bytes) :=
  if version = stateVersion6 then do
    let (bound, body) ← takeBound.run body
    pure (some bound, body)
  else pure (none, body)

variable (A : Authenticator)

/-- Verify and open a sealed state. -/
def openSealed (store : SecureStore) (state : Bytes) : Except Error Opened := do
  let (version, sealed) ← takeSealedVersion state
  refuseIf (version ≠ stateVersion5 ∧ version ≠ stateVersion6) notSealed
  let key ← store.wrapKey.mapError storeErr
  let opened ← (unsealPayload A key sealed).mapError sealErr
  refuseIf (opened.payload.length < 8) (.secureStore "sealed state missing its rollback counter")
  let front := opened.payload.take (opened.payload.length - 8)
  let counter := (ofBe (opened.payload.drop (opened.payload.length - 8))).toUInt64
  let (bound, body) ← splitBound version front
  let highest ← store.rollbackCounter.mapError storeErr
  pure ⟨body, opened.generation, counter < highest, bound⟩

/-! ### Clients -/

/-- What a constructor found. -/
inductive RestoreOutcome where
  | fresh
  | resumed
  | sessionsDiscarded
  deriving DecidableEq

/-- A connected client. -/
structure Client (π σ : Type) where
  party : OpenParty π σ
  /-- The client's own address. -/
  me : DeviceAddr
  /-- The peers with an open session. -/
  sessions : List DeviceAddr
  sessionProvider : SessionProvider
  stateGeneration : UInt64
  secureStore : Option SecureStore
  restore : RestoreOutcome
  /-- The store's counter when it was last read. -/
  counterSeen : UInt64

variable {π σ : Type} (F : Formats π σ)

/-- The party's address for a routing address. -/
def peerAddress (addr : DeviceAddr) : Except Error Address := do
  refuseIf (256 ≤ addr.device.toNat) (.invalidArgument "device id out of range")
  pure ⟨addr.user, addr.device.toUInt8⟩

/-- The routing address of a peer. -/
def deviceAddr (peer : Address) : DeviceAddr := ⟨peer.user, peer.device.toUInt32⟩

namespace Client

/-- The body that both exports carry. -/
def exportBodyV3 (client : Client π σ) : Bytes :=
  let peers := client.sessions.filterMap fun addr => (peerAddress addr).toOption
  let peers := peers.insertionSort fun a b => (a.cmp b).isLE
  [stateTagged, stateVersion3, client.sessionProvider.toByte] ++
    lpBytes client.party.exportIdentity ++ lpBytes (client.party.exportSessions F peers) ++
      lpBytes ((client.party.exportPrekeys F).getD [])

/-- What a sealed export seals. -/
def sealedPayload (client : Client π σ) (counter : UInt64) : Bytes :=
  lpBytes (utf8Bytes client.me.user) ++ u32Bytes client.me.device ++ client.exportBodyV3 F ++
    u64Bytes counter

def exportStateSealed (client : Client π σ) : Except Error Bytes := do
  let store ← orRefuse client.secureStore (.secureStore
    "no secure store attached; call attach_secure_store before exporting sealed state")
  let key ← store.wrapKey.mapError storeErr
  let counter ← store.rollbackCounter.mapError storeErr
  let sealed := sealPayload A key client.stateGeneration (client.sealedPayload F counter)
  pure (stateTagged :: stateVersion6 :: sealed)

/-- Drop every session and keep the identity. -/
def discardSessions (client : Client π σ) : Client π σ :=
  { client with
    party := client.party.clearSessions
    sessions := []
    restore := .sessionsDiscarded }

/-- Hold a store, whose counter is read. -/
def attachSecureStore (client : Client π σ) (store : SecureStore) :
    Except Error (Client π σ) := do
  refuseIf client.secureStore.isSome (.invalidArgument
    "a secure store is already attached; a client takes one store for its life")
  let seen ← store.rollbackCounter.mapError storeErr
  pure { client with counterSeen := seen, secureStore := some store }

/-- Restore sessions that this provider established. -/
def restoreSessions (client : Client π σ) (provider : SessionProvider) (sessions : Bytes) :
    Except Error (Client π σ) :=
  if provider ≠ .openTacenta then pure client
  else do
    let (party, restored) ← (client.party.importSessions F sessions).mapError .crypto
    pure { client with
      party
      sessions := restored.foldl (fun held peer => held.insert (deviceAddr peer)) client.sessions }

end Client

/-! ### Restoring a client -/

/-- The answers of the services. -/
structure Services (π σ : Type) where
  /-- Publish the party's bundle, register its identity under the address and connect: the prekeys
  as they then are. -/
  register : DeviceAddr → OpenParty π σ → Except Error π
  /-- Sign in, provision the party's identity and connect: the prekeys, and the handle. -/
  provision : OpenParty π σ → Except Error (π × String)
  /-- Whether the directory saw a later generation. -/
  witness : DeviceAddr → UInt64 → Except Error Bool
  /-- The store when it is attached. -/
  attached : SecureStore

/-- The address that a client is to have. -/
structure Config where
  user : String
  device : UInt8

/-- The account that a client signs in to. -/
structure AccountConfig where
  identifier : String
  device : UInt8

/-- Restore the prekeys of a state that this provider wrote. -/
def restorePrekeysInto (party : OpenParty π σ) (split : SplitState) :
    Except Error (OpenParty π σ) :=
  if split.provider ≠ .openTacenta then pure party
  else
    match split.prekeys.filter fun prekeys => !prekeys.isEmpty with
    | some prekeys => (party.importPrekeys F prekeys).mapError .crypto
    | none => pure party

/-- A party from the identity and the prekeys of a state. -/
def partyOf (user : String) (device : UInt8) (split : SplitState) :
    Except Error (OpenParty π σ) := do
  let party ← (OpenParty.fromIdentity user device split.identity).mapError .crypto
  restorePrekeysInto F party split

/-- A client that was just connected. -/
def connected (party : OpenParty π σ) (prekeys : π) (me : DeviceAddr) : Client π σ :=
  ⟨{ party with prekeys := some prekeys }, me, [], .openTacenta, 0, none, .fresh, 0⟩

/-- What both restores do once the client is connected. -/
def resume (services : Services π σ) (opened : Opened) (split : SplitState) (client : Client π σ) :
    Except Error (Client π σ) := do
  let client ← client.restoreSessions F split.provider split.sessions
  let client := { client with restore := .resumed, stateGeneration := opened.generation }
  let client ← client.attachSecureStore services.attached
  let client := if opened.stale then client.discardSessions else client
  match services.witness client.me client.stateGeneration with
  | .ok true => pure client.discardSessions
  | _ => pure client

/-- The party that a connection from a sealed state builds. -/
def connectParty (store : SecureStore) (config : Config) (state : Bytes) :
    Except Error (Opened × SplitState × OpenParty π σ) := do
  let opened ← openSealed A store state
  opened.expectAddress ⟨config.user, config.device.toUInt32⟩
  let split ← splitState opened.body
  let party ← partyOf F config.user config.device split
  pure (opened, split, party)

/-- Connect from a sealed state. -/
def connectWithStateSealed (services : Services π σ) (store : SecureStore) (config : Config)
    (state : Bytes) : Except Error (Client π σ) := do
  let (opened, split, party) ← connectParty A F store config state
  let me : DeviceAddr := ⟨config.user, config.device.toUInt32⟩
  let prekeys ← services.register me party
  resume F services opened split (connected party prekeys me)

/-- The party that a sign-in from a sealed state builds. Only the user and the device are known
before the sign-in. -/
def signInParty (store : SecureStore) (config : AccountConfig) (state : Bytes) :
    Except Error (Opened × SplitState × OpenParty π σ) := do
  let opened ← openSealed A store state
  opened.expectUser config.identifier config.device.toUInt32
  let split ← splitState opened.body
  let party ← partyOf F config.identifier config.device split
  pure (opened, split, party)

/-- Sign in from a sealed state. -/
def signInWithStateSealed (services : Services π σ) (store : SecureStore) (config : AccountConfig)
    (state : Bytes) : Except Error (Client π σ) := do
  let (opened, split, party) ← signInParty A F store config state
  let (prekeys, handle) ← services.provision party
  let me : DeviceAddr := ⟨handle, config.device.toUInt32⟩
  opened.expectAddress me
  resume F services opened split (connected party prekeys me)

end Tacenta.Sealed
