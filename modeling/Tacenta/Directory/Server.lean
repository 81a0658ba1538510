import Tacenta.Directory.Store

/-!
# The directory service

A request is handled against the challenge of its connection. A registration proves possession of
the key that it submits, a rotation also the authorisation by the key that is bound, a recovery the
one by the recovery key. Signature checks are a parameter. Handles with a separator are reserved for
account provisioning, and new handles are admitted as the policy and the limiter say.

## Main definitions

* `Directory.Request`, `Directory.Response`.
* `Directory.Server.handle`: one request.

## Main results

* `Directory.Server.handle_bound`: when a request changes a binding or a recovery key.
-/

open ByteString

namespace Tacenta.Directory

open Relay (DeviceAddr)

/-- A request to the directory. -/
inductive Request where
  | register (device : DeviceAddr) (identity bundle signature : Bytes)
  | lookup (device : DeviceAddr)
  | depositPrekeys (device : DeviceAddr) (identity : Bytes) (bundles : List Bytes)
    (signature : Bytes)
  | rotate (device : DeviceAddr) (newIdentity newBundle possessionSig rotationSig : Bytes)
  | setRecovery (device : DeviceAddr) (recovery signature : Bytes)
  | recover (device : DeviceAddr) (newIdentity newBundle possessionSig recoverySig : Bytes)
  | witness (device : DeviceAddr) (generation : UInt64) (signature : Bytes)
  deriving DecidableEq

/-- An answer of the directory. -/
inductive Response where
  | registered
  | refreshed
  | rejected
  | possessionFailed
  | found (identity bundle : Bytes)
  | deposited (depth : UInt32)
  | depositRejected
  | notFound
  | rotated
  | unauthorized
  | unregistered
  | recoverySet
  | noRecovery
  | reservedHandle
  | fresh
  | rolledBack
  | rateLimited
  | registrationClosed
  deriving DecidableEq

namespace Response

def ofRegistration : Registration → Response
  | .registered => registered
  | .refreshed => refreshed
  | .rejected => rejected

def ofRotation : Rotation → Response
  | .rotated => rotated
  | .unregistered => unregistered

def ofDeposit : Deposit → Response
  | .deposited depth => deposited (if depth < 2 ^ 32 then depth.toUInt32 else 0xffffffff)
  | .rejected => depositRejected
  | .unregistered => unregistered

def ofRecoverySet : RecoverySet → Response
  | .set => recoverySet
  | .unregistered => unregistered

def ofWitness : Witness → Response
  | .fresh => fresh
  | .rolledBack => rolledBack
  | .unregistered => unregistered

end Response

/-- How new raw handles are admitted. -/
inductive RegistrationPolicy where
  | openToAll
  | accountsOnly
  deriving DecidableEq

/-- A signature of a key over a message. -/
abbrev Possession := Bytes → Bytes → Bytes → Bool

/-- The directory and the limiter of its service. -/
structure Server where
  directory : Directory
  regLimiter : RegistrationLimiter

/-- The handle is in the namespace of account provisioning. -/
def isReservedHandle (user : String) : Bool := '/' ∈ user.toList

namespace Server

variable (V : Possession) (policy : RegistrationPolicy) (server : Server)

/-- Replace the directory and answer. -/
def answer {α : Type} (f : α → Response) (x : Directory × α) : Server × Response :=
  ({ server with directory := x.1 }, f x.2)

/-- A registration: the handle may be bound, the key is possessed, and a new handle is admitted. -/
def register (now : UInt64) (challenge : Bytes) (source : String) (device : DeviceAddr)
    (identity bundle signature : Bytes) : Server × Response :=
  if isReservedHandle device.user then (server, .reservedHandle)
  else if V identity challenge signature = false then (server, .possessionFailed)
  else if server.directory.containsDevice device then
    server.answer .ofRegistration (server.directory.register device identity bundle)
  else
    match policy with
    | .accountsOnly => (server, .registrationClosed)
    | .openToAll =>
      let (regLimiter, limited) := server.regLimiter.overLimitAt source now
      let server := { server with regLimiter }
      if limited then (server, .rateLimited)
      else server.answer .ofRegistration (server.directory.register device identity bundle)

/-- A rotation: the new key is possessed, and the bound key authorises it. -/
def rotate (challenge : Bytes) (device : DeviceAddr)
    (newIdentity newBundle possessionSig rotationSig : Bytes) : Server × Response :=
  if V newIdentity challenge possessionSig = false then (server, .possessionFailed)
  else
    match server.directory.identity device with
    | none => (server, .unregistered)
    | some current =>
      if V current (challenge ++ newIdentity) rotationSig = false then (server, .unauthorized)
      else server.answer .ofRotation (server.directory.rotate device newIdentity newBundle)

/-- Setting a recovery key: the bound key authorises it. -/
def setRecovery (challenge : Bytes) (device : DeviceAddr) (recovery signature : Bytes) :
    Server × Response :=
  match server.directory.identity device with
  | none => (server, .unregistered)
  | some current =>
    if V current challenge signature = false then (server, .unauthorized)
    else server.answer .ofRecoverySet (server.directory.setRecovery device recovery)

/-- A recovery: the new key is possessed, and the recovery key authorises it. -/
def recover (challenge : Bytes) (device : DeviceAddr)
    (newIdentity newBundle possessionSig recoverySig : Bytes) : Server × Response :=
  if V newIdentity challenge possessionSig = false then (server, .possessionFailed)
  else
    match server.directory.recoveryKey device with
    | none => (server, .noRecovery)
    | some recovery =>
      if V recovery (challenge ++ newIdentity) recoverySig = false then (server, .unauthorized)
      else server.answer .ofRotation (server.directory.rotate device newIdentity newBundle)

/-- Showing a generation: the bound key is possessed. -/
def witness (challenge : Bytes) (device : DeviceAddr) (generation : UInt64) (signature : Bytes) :
    Server × Response :=
  match server.directory.identity device with
  | none => (server, .unregistered)
  | some current =>
    if V current challenge signature = false then (server, .possessionFailed)
    else server.answer .ofWitness (server.directory.witness device generation)

def handle (now : UInt64) (challenge : Bytes) (source : String) : Request → Server × Response
  | .register device identity bundle signature =>
    server.register V policy now challenge source device identity bundle signature
  | .depositPrekeys device identity bundles signature =>
    if V identity challenge signature = false then (server, .possessionFailed)
    else server.answer .ofDeposit (server.directory.depositPrekeys device identity bundles)
  | .lookup device =>
    server.answer (fun
      | some (identity, bundle) => .found identity bundle
      | none => .notFound) (server.directory.lookup device)
  | .rotate device newIdentity newBundle possessionSig rotationSig =>
    server.rotate V challenge device newIdentity newBundle possessionSig rotationSig
  | .setRecovery device recovery signature =>
    server.setRecovery V challenge device recovery signature
  | .recover device newIdentity newBundle possessionSig recoverySig =>
    server.recover V challenge device newIdentity newBundle possessionSig recoverySig
  | .witness device generation signature =>
    server.witness V challenge device generation signature

/-! ### When a request changes a binding -/

variable {V policy server}

/-- Everything that a request can change in the bindings and recovery keys. -/
inductive Bound (V : Possession) (challenge : Bytes) (d d' : Directory) : Request → Prop where
  | kept {request} (h : Keeps d d') : Bound V challenge d d' request
  | registered {device identity bundle signature} (hraw : isReservedHandle device.user = false)
    (hpossession : V identity challenge signature = true) (hnew : d.identity device = none)
    (hidentity : ∀ device', d'.identity device' =
      if device' = device then some identity else d.identity device')
    (hrecovery : ∀ device', d'.recoveryKey device' = d.recoveryKey device') :
    Bound V challenge d d' (.register device identity bundle signature)
  | rotated {device current newIdentity newBundle possessionSig rotationSig}
    (hpossession : V newIdentity challenge possessionSig = true)
    (hcurrent : d.identity device = some current)
    (hauthorised : V current (challenge ++ newIdentity) rotationSig = true)
    (hidentity : ∀ device', d'.identity device' =
      if device' = device then some newIdentity else d.identity device')
    (hrecovery : ∀ device', d'.recoveryKey device' = d.recoveryKey device') :
    Bound V challenge d d' (.rotate device newIdentity newBundle possessionSig rotationSig)
  | recovered {device recovery newIdentity newBundle possessionSig recoverySig}
    (hpossession : V newIdentity challenge possessionSig = true)
    (hbound : d.identity device ≠ none) (hkey : d.recoveryKey device = some recovery)
    (hauthorised : V recovery (challenge ++ newIdentity) recoverySig = true)
    (hidentity : ∀ device', d'.identity device' =
      if device' = device then some newIdentity else d.identity device')
    (hrecovery : ∀ device', d'.recoveryKey device' = d.recoveryKey device') :
    Bound V challenge d d' (.recover device newIdentity newBundle possessionSig recoverySig)
  | recoverable {device current recovery signature} (hcurrent : d.identity device = some current)
    (hauthorised : V current challenge signature = true)
    (hidentity : ∀ device', d'.identity device' = d.identity device')
    (hrecovery : ∀ device', d'.recoveryKey device' = d.recoveryKey device' ∨
      device' = device ∧ d'.recoveryKey device' = some recovery) :
    Bound V challenge d d' (.setRecovery device recovery signature)

variable {device : DeviceAddr} {challenge : Bytes}

theorem register_bound {now : UInt64} {source : String} {identity bundle signature : Bytes} :
    Bound V challenge server.directory
      (server.register V policy now challenge source device identity bundle signature).1.directory
      (.register device identity bundle signature) := by
  have hregister (hraw : ¬isReservedHandle device.user = true)
      (hpossession : ¬V identity challenge signature = false) :
      Bound V challenge server.directory (server.directory.register device identity bundle).1
        (.register device identity bundle signature) := by
    rcases Directory.register_bound server.directory device identity bundle with
      ⟨hnew, hidentity, hrecovery⟩ | hkeeps
    · exact .registered (by simpa using hraw) (by simpa using hpossession) hnew hidentity hrecovery
    · exact .kept hkeeps
  unfold register
  split
  · exact .kept (.refl _)
  next hraw =>
  split
  · exact .kept (.refl _)
  next hpossession =>
  split
  · exact hregister hraw hpossession
  cases policy with
  | accountsOnly => exact .kept (.refl _)
  | openToAll =>
    simp only
    split
    · exact .kept (.refl _)
    · exact hregister hraw hpossession

theorem rotate_bound {newIdentity newBundle possessionSig rotationSig : Bytes} :
    Bound V challenge server.directory
      (server.rotate V challenge device newIdentity newBundle possessionSig rotationSig).1.directory
      (.rotate device newIdentity newBundle possessionSig rotationSig) := by
  rw [rotate]
  split
  · exact .kept (.refl _)
  next hpossession =>
  split
  · exact .kept (.refl _)
  next current hcurrent =>
  split
  · exact .kept (.refl _)
  next hauthorised =>
  rcases Directory.rotate_bound server.directory device newIdentity newBundle with
    ⟨-, hidentity, hrecovery⟩ | hkeeps
  · exact .rotated (by simpa using hpossession) hcurrent (by simpa using hauthorised) hidentity
      hrecovery
  · exact .kept hkeeps

theorem recover_bound {newIdentity newBundle possessionSig recoverySig : Bytes} :
    Bound V challenge server.directory
      (server.recover V challenge device newIdentity newBundle possessionSig
          recoverySig).1.directory
      (.recover device newIdentity newBundle possessionSig recoverySig) := by
  rw [recover]
  split
  · exact .kept (.refl _)
  next hpossession =>
  split
  · exact .kept (.refl _)
  next recovery hkey =>
  split
  · exact .kept (.refl _)
  next hauthorised =>
  rcases Directory.rotate_bound server.directory device newIdentity newBundle with
    ⟨hbound, hidentity, hrecovery⟩ | hkeeps
  · exact .recovered (by simpa using hpossession) hbound hkey (by simpa using hauthorised) hidentity
      hrecovery
  · exact .kept hkeeps

theorem setRecovery_bound {recovery signature : Bytes} :
    Bound V challenge server.directory
      (server.setRecovery V challenge device recovery signature).1.directory
      (.setRecovery device recovery signature) := by
  rw [setRecovery]
  split
  · exact .kept (.refl _)
  next current hcurrent =>
  split
  · exact .kept (.refl _)
  next hauthorised =>
  obtain ⟨hidentity, hrecovery⟩ :=
    Directory.setRecovery_bound server.directory device recovery
  exact .recoverable hcurrent (by simpa using hauthorised) hidentity hrecovery

/-- When a request changes a binding or a recovery key. -/
theorem handle_bound {now : UInt64} {source : String} (request : Request) :
    Bound V challenge server.directory
      (server.handle V policy now challenge source request).1.directory request := by
  cases request with
  | register => exact register_bound
  | rotate => exact rotate_bound
  | recover => exact recover_bound
  | setRecovery => exact setRecovery_bound
  | lookup device => exact .kept lookup_keeps
  | depositPrekeys device identity bundles signature =>
    rw [handle]
    split
    · exact .kept (.refl _)
    · exact .kept (depositPrekeys_keeps _ _)
  | witness device generation signature =>
    rw [handle, witness]
    split
    · exact .kept (.refl _)
    split
    · exact .kept (.refl _)
    · exact .kept (witness_keeps _)

end Server

end Tacenta.Directory
