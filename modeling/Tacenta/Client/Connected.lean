import Tacenta.Client.SealedState
import Tacenta.Directory.Protocol
import Tacenta.Library.Guards
import Tacenta.Transport.Frame

/-!
# The calls of a connected client

The futures of a connected client as programs. What a future awaits or asks is an operation: the
client's own fields, the provider, the secure store, the bytes of the connection to the directory,
requests on the connection to the relay, and dialling. A future that is dropped stops before one of
its operations, and what it did until then stays done.

The request and the answer of one exchange with the directory are a frame each way, written and read
in parts; the reader of the answer starts anew for each exchange. A request on the connection to the
relay is one operation, which is answered with what could be decoded.

Loops of the source that end after enough bytes take their number as an argument.

## Main definitions

* `Op`, `Op.Answer`: the operations and their answers.
* `exchange`, `lookup`, `witness`: one request to the directory.
* `reconnect`, `reconnectWithPatience`.
* `send`, `find`, `checkpoint`: the calls that make such a request.
-/

open ByteString Result Tacenta.Core Tacenta.Wire
open Tacenta.Relay (DeviceAddr StoredMessage)

namespace Tacenta.Connected

open Sealed (Client SecureStoreError peerAddress)
open Transport (FrameReader IoError)

/-! ### Errors and operations -/

/-- Why the relay refused a send. -/
inductive RelayRefusal where
  | tooLarge
  | queueFull
  | unknownRecipient
  deriving DecidableEq

/-- What a call fails with. -/
inductive Error where
  | io (kind : IoError)
  | relay (refusal : RelayRefusal)
  | invalidArgument (text : String)
  | directory (response : Directory.Response)
  | crypto (reason : String)
  /-- The provider refused a part of a saved state. -/
  | restoring (error : OpenError)
  | protocol (text : String)
  | secureStore (text : String)
  | storeUnavailable (reason : String)
  | stateMismatch (state client : DeviceAddr)
  /-- An encoder panicked. -/
  | panicked
  deriving DecidableEq

/-- The same error where a saved state is concerned. -/
def Error.ofSealed : Sealed.Error → Error
  | .network => .io (.other 0)
  | .invalidArgument text => .invalidArgument text
  | .crypto error => .restoring error
  | .protocol text => .protocol text
  | .secureStore text => .secureStore text
  | .storeUnavailable reason => .storeUnavailable reason
  | .stateMismatch state client => .stateMismatch state client

/-- What a future asks of its surroundings. -/
inductive Op (π τ : Type) where
  /-- Look at the client's fields. -/
  | client
  /-- Change the client's fields. -/
  | update (f : Client π τ → Client π τ)
  | signChallenge (challenge : Bytes)
  | establishSessionFor (peer : Address) (bundle expectedIdentity : Bytes)
  | encrypt (peer : Address) (plaintext : Bytes)
  | bumpRollbackCounter
  /-- The challenge that the directory gave when it was connected. -/
  | challenge
  /-- Write a part of some bytes to the directory. -/
  | write (data : Bytes)
  | flush
  /-- Read a part of some number of bytes from the directory. -/
  | read (wanted : Nat)
  /-- Send a request to the relay and wait for its answer. -/
  | request (request : Relay.Request)
  | dialDirectory
  | dialRelay
  /-- Replace both connections by those that were dialled. -/
  | adopt
  | sleep

/-- The answers of an operation. -/
@[reducible] def Op.Answer {π τ : Type} : Op π τ → Type
  | client => Client π τ
  | update _ => Unit
  | signChallenge _ => Bytes
  | establishSessionFor _ _ _ => Except String Unit
  | encrypt _ _ => Except String Bytes
  | bumpRollbackCounter => Except SecureStoreError UInt64
  | challenge => Bytes
  | write _ => Except IoError Nat
  | flush => Except IoError Unit
  | read _ => Except IoError Bytes
  | request _ => Except IoError (Option Relay.Response)
  | dialDirectory => Except IoError Unit
  | dialRelay => Except IoError Unit
  | adopt => Unit
  | sleep => Unit

/-- A future of a call. -/
abbrev Future (π τ α : Type) := ExceptT Error (Program (Op π τ) Op.Answer) α

variable {π τ α : Type}

/-- Await an operation. -/
abbrev ask (i : Op π τ) : Future π τ i.Answer := Program.ask i

/-- Fail with the error of a connection. -/
def io (x : Except IoError α) : Future π τ α := liftM (x.mapError Error.io)

/-- Fail with the error of the provider. -/
def provider (x : Except String α) : Future π τ α := liftM (x.mapError Error.crypto)

/-- Fail with an error of a saved state or of its store. -/
def sealing (x : Except Sealed.Error α) : Future π τ α := liftM (x.mapError Error.ofSealed)

/-- Fail if there is no value. -/
def require (x : Option α) (e : Error) : Future π τ α := liftM (orRefuse x e)

section Rules

variable {σ : Type} {R : (i : Op π τ) → σ → i.Answer → σ → Prop} {P : Op π τ → σ → Prop}
  {Q : α → σ → Prop} {E : Error → σ → Prop} {s : σ}

theorem ensures_io {x : Except IoError α} : Program.Ensures R P Q E (io x : Future π τ α) s ↔
    Program.outcome Q (fun e => E (.io e)) x s := by
  cases x <;> exact Iff.rfl

theorem ensures_provider {x : Except String α} :
    Program.Ensures R P Q E (provider x : Future π τ α) s ↔
      Program.outcome Q (fun e => E (.crypto e)) x s := by
  cases x <;> exact Iff.rfl

theorem ensures_sealing {x : Except Sealed.Error α} :
    Program.Ensures R P Q E (sealing x : Future π τ α) s ↔
      Program.outcome Q (fun e => E (.ofSealed e)) x s := by
  cases x <;> exact Iff.rfl

theorem ensures_require {x : Option α} {e : Error} :
    Program.Ensures R P Q E (require x e : Future π τ α) s ↔
      (∀ a, x = some a → Q a s) ∧ (x = none → E e s) := by
  cases x with
  | none => exact ⟨fun h => ⟨fun _ ha => (by cases ha), fun _ => h⟩, fun h => h.2 rfl⟩
  | some a => exact ⟨fun h => ⟨fun _ ha => (by cases ha; exact h), fun ha => (by cases ha)⟩,
      fun h => h.1 a rfl⟩

end Rules

/-! ### The connection to the directory -/

/-- Write until nothing is left. -/
def writeAll : Nat → Bytes → Future π τ Unit
  | 0, _ => pure ()
  | rounds + 1, data =>
    if data = [] then pure ()
    else do
      let n ← io (← ask (.write data))
      if n = 0 then throw (.io .writeZero) else writeAll rounds (data.drop n)

def writeFrame (data : Bytes) : Future π τ Unit := do
  let frame ← require (Transport.writeFrame data) (.io .invalidData)
  writeAll frame.length frame
  io (← ask .flush)

/-- Read a frame, with a reader that has read nothing. -/
def readFrame : Future π τ (Option Bytes) := do
  let outcome ← FrameReader.new.next fun wanted => ask (.read wanted)
  io outcome.2

/-- Write a request and read its answer. -/
def exchange (request : Bytes) : Future π τ Directory.Response := do
  writeFrame request
  let frame ← require (← readFrame) (.io .unexpectedEof)
  require (Directory.decodeDirResponse frame) (.io .invalidData)

/-- Encode a request to the directory. -/
def encoded (request : Directory.Request) : Future π τ Bytes :=
  liftM ((Directory.encodeDirRequest request).mapError fun _ => Error.panicked)

/-- Look up what a device published. -/
def lookup (device : DeviceAddr) : Future π τ Directory.Response := do
  exchange (← encoded (.lookup device))

/-- Present a generation. -/
def witness (device : DeviceAddr) (generation : UInt64) : Future π τ Directory.Response := do
  let challenge ← ask .challenge
  let signature ← ask (.signChallenge challenge)
  exchange (← encoded (.witness device generation signature))

/-! ### Connecting again -/

/-- Dial the directory and the relay, and replace both connections. -/
def reconnect : Future π τ Unit := do
  io (← ask .dialDirectory)
  io (← ask .dialRelay)
  ask .adopt

/-- Try to connect again until it succeeds, a number of times. -/
def retryReconnect : Nat → Except Error Unit → Future π τ Unit
  | 0, outcome => liftM outcome
  | _ + 1, .ok () => pure ()
  | attempts + 1, .error _ => do
    ask .sleep
    retryReconnect attempts (← Program.caught reconnect)

/-- Connect again, with four more attempts. -/
def reconnectWithPatience : Future π τ Unit := do
  retryReconnect 4 (← Program.caught reconnect)

/-! ### Sending -/

/-- The longest message. -/
def maxMessageBytes : Nat := Relay.maxEnvelopeBytes - 1024

/-- The identity and the bundle that a device published. -/
def fetchBundle (device : DeviceAddr) : Future π τ (Bytes × Bytes) := do
  match ← lookup device with
  | .found identity bundle => pure (identity, bundle)
  | _ => throw (.relay .unknownRecipient)

/-- Fetch a bundle, once more on a new connection if the connection failed. -/
def fetchBundleAgain (device : DeviceAddr) : Future π τ (Bytes × Bytes) := do
  match ← Program.caught (fetchBundle device) with
  | .error (.io _) => do
    reconnectWithPatience
    fetchBundle device
  | outcome => liftM outcome

/-- A session with a peer is open; a new one counts as a generation. -/
def recordSession (peer : DeviceAddr) (client : Client π τ) : Client π τ :=
  if peer ∈ client.sessions then client
  else { client with
    sessions := client.sessions.insert peer
    stateGeneration := client.stateGeneration + 1 }

/-- The bump of a store that did not advance. -/
def notAdvanced (advanced seen : UInt64) : Error :=
  .secureStore ("the secure store's rollback counter did not advance (" ++ toString advanced ++
    " after " ++ toString seen ++ ")")

/-- Commit one step of a ratchet to the store, if one is attached. -/
def commitRatchetAdvance : Future π τ Unit := do
  let client ← ask .client
  if client.secureStore.isSome then do
    let advanced ← sealing ((← ask .bumpRollbackCounter).mapError Sealed.storeErr)
    if advanced ≤ client.counterSeen then throw (notAdvanced advanced client.counterSeen)
    else ask (.update fun client => { client with counterSeen := advanced })
  else pure ()

/-- Establish a session for a peer, unless there is one. -/
def openSession (recipient : DeviceAddr) (peer : Address) : Future π τ Unit := do
  let client ← ask .client
  if recipient ∈ client.sessions then pure ()
  else do
    let published ← fetchBundleAgain recipient
    provider (← ask (.establishSessionFor peer published.2 published.1))
    ask (.update (recordSession recipient))

/-- Everything of a send up to the wire. -/
def prepareSendAs (recipient : DeviceAddr) (message : Bytes) (kind : Kind) :
    Future π τ Relay.Request :=
  if maxMessageBytes < message.length then
    throw (.invalidArgument "message exceeds the relay's per-message size limit")
  else do
    let peer ← sealing (peerAddress recipient)
    openSession recipient peer
    let framed ← provider (← ask (.encrypt peer message))
    commitRatchetAdvance
    pure (.send recipient ⟨kind, framed⟩)

/-- A request on the connection to the relay. -/
def relayRequest (request : Relay.Request) : Future π τ (Option Relay.Response) := do
  io (← ask (.request request))

/-- Make a request, once more on a new connection if it failed. -/
def relayRequestAgain (request : Relay.Request) : Future π τ (Option Relay.Response) := do
  match ← Program.caught (relayRequest request) with
  | .error _ => do
    reconnectWithPatience
    relayRequest request
  | .ok response => pure response

def dispatchPreparedSend (request : Relay.Request) : Future π τ Unit := do
  match ← relayRequestAgain request with
  | some .ok => pure ()
  | some .tooLarge => throw (.relay .tooLarge)
  | some .queueFull => throw (.relay .queueFull)
  | some .unknownRecipient => throw (.relay .unknownRecipient)
  | _ => throw (.protocol "send was not accepted")

/-- Encrypt and send a message. -/
def send (recipient : DeviceAddr) (message : Bytes) : Future π τ Unit := do
  let prepared ← prepareSendAs recipient message .dm
  dispatchPreparedSend prepared

/-! ### Other calls -/

/-- The part of a handle before its first separator. -/
def tenantOf (user : String) : Option String :=
  if '/' ∈ user.toList then some (String.ofList (user.toList.takeWhile (· ≠ '/'))) else none

/-- Resolve a user of the client's own tenant. -/
def find (username : String) : Future π τ (Option DeviceAddr) := do
  let client ← ask .client
  let tenant ← require (tenantOf client.me.user)
    (.invalidArgument "client is not under a tenant handle")
  match ← lookup ⟨tenant ++ "/" ++ username, 1⟩ with
  | .found _ _ => pure (some ⟨tenant ++ "/" ++ username, 1⟩)
  | .notFound => pure none
  | other => throw (.directory other)

/-- Present the client's generation, and discard the sessions if a later one was seen. -/
def checkpoint : Future π τ Directory.Response := do
  let client ← ask .client
  let response ← witness client.me client.stateGeneration
  if response = .rolledBack then do
    ask (.update Client.discardSessions)
    pure response
  else pure response

end Tacenta.Connected
