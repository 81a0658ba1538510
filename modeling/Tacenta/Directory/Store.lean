import Tacenta.Library.SlidingWindow
import Tacenta.Relay.Delivery

/-!
# The directory of public keys

A device's identity key is bound to its address by its first registration. Later registrations must
present the same key. A rotation replaces the key, and the caller answers for its authorisation.
Apart from the keys the directory holds bundles that are served to peers, recovery keys, and the
highest generation of persisted state that each device has shown.

## Main definitions

* `Directory`, with its operations under the names of the source.
* `Directory.RegistrationLimiter`: how many new addresses a source may bind.

## Main results

* `Directory.register_bound`, `Directory.rotate_bound`: what the operations bind.
-/

open ByteString

namespace Tacenta

open Relay (DeviceAddr)

namespace Directory

/-- The outcome of a registration. -/
inductive Registration where
  | registered
  | refreshed
  | rejected
  deriving DecidableEq

/-- The outcome of a rotation. -/
inductive Rotation where
  | rotated
  | unregistered
  deriving DecidableEq

/-- The outcome of stocking the pool of bundles. -/
inductive Deposit where
  | deposited (depth : Nat)
  | rejected
  | unregistered
  deriving DecidableEq

/-- The outcome of setting a recovery key. -/
inductive RecoverySet where
  | set
  | unregistered
  deriving DecidableEq

/-- The outcome of showing a generation. -/
inductive Witness where
  | fresh
  | rolledBack
  | unregistered
  deriving DecidableEq

/-- Trust on first use: the outcome, and the key that is bound afterwards. -/
def registerCore (current : Option Bytes) (presented : Bytes) : Registration × Bytes :=
  match current with
  | none => (.registered, presented)
  | some existing =>
    if existing = presented then (.refreshed, presented) else (.rejected, existing)

/-- An authorised rotation: the outcome, and the key that is bound afterwards. -/
def rotateCore (current : Option Bytes) (newIdentity : Bytes) : Rotation × Option Bytes :=
  match current with
  | none => (.unregistered, none)
  | some _ => (.rotated, some newIdentity)

/-- The verdict on a generation, and the highest one afterwards. -/
def witnessCore (stored : Option UInt64) (offered : UInt64) : Witness × UInt64 :=
  match stored with
  | none => (.fresh, offered)
  | some highest => if highest ≤ offered then (.fresh, offered) else (.rolledBack, highest)

/-- What a device published. -/
structure Entry where
  identity : Bytes
  /-- Served when the pool is empty. -/
  bundle : Bytes
  /-- Bundles that are served once. -/
  pool : List Bytes

end Directory

open Directory in
structure Directory where
  entries : Table DeviceAddr Entry
  devices : Table String (List UInt32)
  recovery : Table DeviceAddr Bytes
  generations : Table DeviceAddr UInt64

namespace Directory

/-- The empty directory. -/
def new : Directory := ⟨∅, ∅, ∅, ∅⟩

variable (d : Directory)

/-- The device has a binding. -/
def containsDevice (device : DeviceAddr) : Bool := device ∈ d.entries

/-- The identity key that is bound to the device. -/
def identity (device : DeviceAddr) : Option Bytes := (d.entries.lookup device).map Entry.identity

def recoveryKey (device : DeviceAddr) : Option Bytes := d.recovery.lookup device

/-- The devices of a user with one more, in order. -/
def indexDevice (device : DeviceAddr) : Table String (List UInt32) :=
  let list := (d.devices.lookup device.user).getD []
  d.devices.insert device.user
    (if device.device ∈ list then list else (list ++ [device.device]).insertionSort (· ≤ ·))

/-- Publish an identity key and a bundle, under trust on first use. -/
def register (device : DeviceAddr) (identity bundle : Bytes) : Directory × Registration :=
  let (outcome, binding) := registerCore (d.identity device) identity
  match outcome with
  | .rejected => (d, .rejected)
  | .refreshed => ({ d with entries := d.entries.insert device ⟨binding, bundle, []⟩ }, .refreshed)
  | .registered =>
    ({ d with
        devices := d.indexDevice device
        entries := d.entries.insert device ⟨binding, bundle, []⟩ }, .registered)

/-- Replace the identity key and the bundle of a device that has a binding. -/
def rotate (device : DeviceAddr) (newIdentity newBundle : Bytes) : Directory × Rotation :=
  match rotateCore (d.identity device) newIdentity with
  | (.rotated, some identity) =>
    ({ d with
        entries := d.entries.insert device ⟨identity, newBundle, []⟩
        generations := d.generations.erase device }, .rotated)
  | (.rotated, none) => (d, .unregistered)
  | (.unregistered, _) => (d, .unregistered)

/-- Set the recovery key of a device that has a binding. -/
def setRecovery (device : DeviceAddr) (key : Bytes) : Directory × RecoverySet :=
  if device ∉ d.entries then (d, .unregistered)
  else ({ d with recovery := d.recovery.insert device key }, .set)

/-- Show a generation. -/
def witness (device : DeviceAddr) (generation : UInt64) : Directory × Witness :=
  if device ∉ d.entries then (d, .unregistered)
  else
    let (verdict, highest) := witnessCore (d.generations.lookup device) generation
    ({ d with generations := d.generations.insert device highest }, verdict)

/-- Stock the pool of a device. -/
def depositPrekeys (device : DeviceAddr) (identity : Bytes) (bundles : List Bytes) :
    Directory × Deposit :=
  match d.entries.lookup device with
  | none => (d, .unregistered)
  | some entry =>
    if entry.identity ≠ identity then (d, .rejected)
    else
      let pool := entry.pool ++ bundles
      ({ d with entries := d.entries.insert device { entry with pool } }, .deposited pool.length)

def takeBundle (device : DeviceAddr) : Directory × Option Bytes :=
  match d.entries.lookup device with
  | none => (d, none)
  | some entry =>
    match entry.pool with
    | oneTime :: pool =>
      ({ d with entries := d.entries.insert device { entry with pool } }, some oneTime)
    | [] => (d, some entry.bundle)

/-- The identity key of a device and a bundle. -/
def lookup (device : DeviceAddr) : Directory × Option (Bytes × Bytes) :=
  match d.identity device with
  | none => (d, none)
  | some identity =>
    let (d', bundle) := d.takeBundle device
    (d', bundle.map fun bundle => (identity, bundle))

def devicesOf (user : String) : List UInt32 := (d.devices.lookup user).getD []

/-! ### The registration limiter -/

/-- The recent registrations of each source. -/
structure RegistrationLimiter where
  seen : SlidingWindow.Stamps
  max : Nat
  window : UInt64

namespace RegistrationLimiter

/-- The most sources that are remembered. -/
def maxKeys : Nat := 64 * 1024

/-- A limiter with a ceiling. -/
def withMax (max : Nat) : RegistrationLimiter := ⟨∅, Nat.max max 1, 60 * 60⟩

/-- Record a new registration, unless the source has reached the ceiling. -/
def overLimitAt (l : RegistrationLimiter) (source : String) (now : UInt64) :
    RegistrationLimiter × Bool :=
  let entry := SlidingWindow.recent l.window l.seen source now
  if l.max ≤ entry.length then ({ l with seen := l.seen.insert source entry }, true)
  else ({ l with seen := SlidingWindow.record maxKeys l.window l.seen source now }, false)

end RegistrationLimiter

/-! ### What the operations bind -/

variable {d} {device : DeviceAddr}

/-- An operation leaves all bindings and recovery keys as they are. -/
structure Keeps (d d' : Directory) : Prop where
  identity : ∀ device, d'.identity device = d.identity device
  recoveryKey : ∀ device, d'.recoveryKey device = d.recoveryKey device

theorem Keeps.refl (d : Directory) : Keeps d d := ⟨fun _ => rfl, fun _ => rfl⟩

theorem identity_of_insert {d' : Directory} (entry : Entry)
    (h : d'.entries = d.entries.insert device entry) (device' : DeviceAddr) :
    d'.identity device' = if device' = device then some entry.identity else d.identity device' := by
  rw [identity, h, Table.lookup_insert_eq]
  split
  · rfl
  · rfl

theorem keeps_insert {entry entry' : Entry} (h : d.entries.lookup device = some entry)
    (hidentity : entry'.identity = entry.identity) :
    Keeps d { d with entries := d.entries.insert device entry' } := by
  refine ⟨fun device' => ?_, fun _ => rfl⟩
  rw [identity_of_insert entry' rfl]
  split
  · next hdevice => rw [hdevice, hidentity, identity, h, Option.map_some]
  · rfl

/-- A registration binds a device without a binding, and changes no other binding. -/
theorem register_bound (d : Directory) (device : DeviceAddr) (identity' bundle : Bytes) :
    (d.identity device = none ∧
      (∀ device', (d.register device identity' bundle).1.identity device' =
        if device' = device then some identity' else d.identity device') ∧
      ∀ device', (d.register device identity' bundle).1.recoveryKey device' =
        d.recoveryKey device') ∨
    Keeps d (d.register device identity' bundle).1 := by
  cases hidentity : d.identity device with
  | none =>
    rw [register, hidentity, registerCore]
    refine .inl ⟨rfl, fun device' => ?_, fun _ => rfl⟩
    exact identity_of_insert ⟨identity', bundle, []⟩ rfl device'
  | some existing =>
    refine .inr ?_
    by_cases heq : existing = identity'
    · obtain ⟨entry, hentry, rfl⟩ := Option.map_eq_some_iff.mp hidentity
      rw [register, hidentity, registerCore, if_pos heq]
      exact keeps_insert hentry heq.symm
    · rw [register, hidentity, registerCore, if_neg heq]
      exact .refl d

/-- A rotation replaces a binding, and changes no other binding. -/
theorem rotate_bound (d : Directory) (device : DeviceAddr) (newIdentity newBundle : Bytes) :
    (d.identity device ≠ none ∧
      (∀ device', (d.rotate device newIdentity newBundle).1.identity device' =
        if device' = device then some newIdentity else d.identity device') ∧
      ∀ device', (d.rotate device newIdentity newBundle).1.recoveryKey device' =
        d.recoveryKey device') ∨
    Keeps d (d.rotate device newIdentity newBundle).1 := by
  cases hidentity : d.identity device with
  | none =>
    rw [rotate, hidentity, rotateCore]
    exact .inr (.refl d)
  | some existing =>
    rw [rotate, hidentity, rotateCore]
    refine .inl ⟨by simp, fun device' => ?_, fun _ => rfl⟩
    exact identity_of_insert ⟨newIdentity, newBundle, []⟩ rfl device'

theorem setRecovery_bound (d : Directory) (device : DeviceAddr) (key : Bytes) :
    (∀ device', (d.setRecovery device key).1.identity device' = d.identity device') ∧
      ∀ device', (d.setRecovery device key).1.recoveryKey device' = d.recoveryKey device' ∨
        device' = device ∧ (d.setRecovery device key).1.recoveryKey device' = some key := by
  rw [setRecovery]
  split
  · exact ⟨fun _ => rfl, fun _ => .inl rfl⟩
  · refine ⟨fun _ => rfl, fun device' => ?_⟩
    simp only [recoveryKey, Table.lookup_insert_eq]
    split
    · next h => exact .inr ⟨h, rfl⟩
    · exact .inl rfl

theorem witness_keeps (generation : UInt64) : Keeps d (d.witness device generation).1 := by
  rw [witness]
  split
  · exact .refl d
  · exact ⟨fun _ => rfl, fun _ => rfl⟩

theorem depositPrekeys_keeps (identity' : Bytes) (bundles : List Bytes) :
    Keeps d (d.depositPrekeys device identity' bundles).1 := by
  rw [depositPrekeys]
  split
  · exact .refl d
  · next entry hentry =>
    split
    · exact .refl d
    · exact keeps_insert hentry rfl

theorem lookup_keeps : Keeps d (d.lookup device).1 := by
  rw [lookup]
  split
  · exact .refl d
  · simp only [takeBundle]
    split
    · exact .refl d
    · next entry hentry =>
      split
      · exact keeps_insert hentry rfl
      · exact .refl d

end Directory

end Tacenta
