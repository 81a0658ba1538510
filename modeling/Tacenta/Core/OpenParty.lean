import Mathlib.Data.List.AList
import Tacenta.Library.Reader

/-!
# The party of the open provider

What a client's party holds, and how its parts are exported and restored. The prekey store and the
ratchet sessions are the cryptographic library's; only their byte formats are used.

## Main definitions

* `OpenParty`: a party, with `fromIdentity`, `exportSessions`, `importSessions`, `exportPrekeys` and
  `importPrekeys`.

## Main results

* `OpenParty.importPrekeys_identity`, `OpenParty.importSessions_identity`: restoring prekeys and
  sessions keeps the identity.
-/

open ByteString Result

namespace Tacenta.Core

/-- A party's address: who, and which of their devices. -/
structure Address where
  user : String
  device : UInt8
  deriving DecidableEq

/-- The order of addresses. -/
def Address.cmp (a b : Address) : Ordering :=
  (compare (utf8Bytes a.user) (utf8Bytes b.user)).then (compare a.device b.device)

/-- What the provider fails with when it restores. -/
inductive OpenError where
  | identity
  | sessions
  | prekeys
  deriving DecidableEq

/-- The byte formats of prekey stores and sessions. -/
structure Formats (π σ : Type) where
  prekeysFromBytes : Bytes → Option π
  prekeysToBytes : π → Bytes
  importSession : Bytes → Option σ
  exportSession : σ → Bytes

structure OpenParty (π σ : Type) where
  address : Address
  /-- The identity secret. -/
  identity : FixedBytes 32
  prekeys : Option π
  sessions : AList fun _ : Address => σ

namespace OpenParty

variable {π σ : Type} (F : Formats π σ)

/-- The identity secret as bytes. -/
def exportIdentity (party : OpenParty π σ) : Bytes := party.identity.val

/-- A party with a given identity secret and nothing else. -/
def fromIdentity (user : String) (device : UInt8) (bytes : Bytes) :
    Except OpenError (OpenParty π σ) := do
  let secret ← Reader.exactly .identity 32 bytes
  pure ⟨⟨user, device⟩, secret, none, ∅⟩

/-- The prekey store as bytes. -/
def exportPrekeys (party : OpenParty π σ) : Option Bytes := party.prekeys.map F.prekeysToBytes

/-- Restore a prekey store. A spelling that is not the one that would be exported is accepted only
if it is an upgrade: its own export must be restored to the same bytes. -/
def importPrekeys (party : OpenParty π σ) (bytes : Bytes) : Except OpenError (OpenParty π σ) := do
  let store ← orRefuse (F.prekeysFromBytes bytes) .prekeys
  let reencoded := F.prekeysToBytes store
  if reencoded ≠ bytes then do
    let again ← orRefuse (F.prekeysFromBytes reencoded) .prekeys
    refuseIf (F.prekeysToBytes again ≠ reencoded) OpenError.prekeys
    pure { party with prekeys := some store }
  else pure { party with prekeys := some store }

def sessionBytes (peer : Address) (session : σ) : Bytes :=
  lpBytes (utf8Bytes peer.user) ++ [peer.device] ++ lpBytes (F.exportSession session)

/-- The sessions with the given peers as bytes, after their number. A peer without a session is
left out. -/
def exportSessions (party : OpenParty π σ) (peers : List Address) : Bytes :=
  let held := peers.filterMap fun peer => (party.sessions.lookup peer).map fun s => (peer, s)
  u32Bytes held.length.toUInt32 ++ held.flatMap fun entry => sessionBytes F entry.1 entry.2

/-- Take the session with one peer. -/
def takeSession (acc : OpenParty π σ × List Address) :
    Reader OpenError (OpenParty π σ × List Address) := do
  let name ← Reader.takeLp .sessions
  let device ← Reader.takeByte .sessions
  let bytes ← Reader.takeLp .sessions
  let user ← orRefuse (ofUtf8? name) OpenError.sessions
  let session ← orRefuse (F.importSession bytes) OpenError.sessions
  let peer : Address := ⟨user, device⟩
  pure ({ acc.1 with sessions := acc.1.sessions.insert peer session }, acc.2 ++ [peer])

/-- Take sessions after their number. -/
def takeSessions (party : OpenParty π σ) : Reader OpenError (OpenParty π σ × List Address) := do
  let count ← Reader.takeU32 .sessions
  let restored ← Reader.loop (takeSession F) count.toNat (party, [])
  Reader.finish .sessions
  pure restored

/-- Restore sessions, and say with whom. -/
def importSessions (party : OpenParty π σ) (bytes : Bytes) :
    Except OpenError (OpenParty π σ × List Address) := (takeSessions F party).run' bytes

/-- Drop all sessions. -/
def clearSessions (party : OpenParty π σ) : OpenParty π σ := { party with sessions := ∅ }

variable {F}

variable {party : OpenParty π σ} {bytes : Bytes}

theorem fromIdentity_eq_ok {user : String} {device : UInt8} :
    fromIdentity user device bytes = .ok party ↔
      bytes = party.identity.val ∧ party = ⟨⟨user, device⟩, party.identity, none, ∅⟩ := by
  simp only [fromIdentity, bind_eq_ok, Reader.exactly_eq_ok, pure_eq_ok]
  constructor
  · rintro ⟨secret, rfl, rfl⟩
    exact ⟨rfl, rfl⟩
  · rintro ⟨rfl, h⟩
    exact ⟨party.identity, rfl, h.symm⟩

theorem importPrekeys_identity {party' : OpenParty π σ}
    (h : party.importPrekeys F bytes = .ok party') :
    party'.identity = party.identity ∧ party'.address = party.address := by
  rw [importPrekeys, bind_eq_ok] at h
  obtain ⟨store, -, h⟩ := h
  dsimp only at h
  split at h
  · simp only [bind_eq_ok, refuseIf_eq_ok, pure_eq_ok] at h
    obtain ⟨_, -, _, -, rfl⟩ := h
    exact ⟨rfl, rfl⟩
  · obtain rfl := pure_eq_ok.mp h
    exact ⟨rfl, rfl⟩

theorem importSessions_identity {restored : OpenParty π σ × List Address}
    (h : party.importSessions F bytes = .ok restored) :
    restored.1.identity = party.identity ∧ restored.1.address = party.address := by
  have hstep (acc : OpenParty π σ × List Address) (s : Bytes)
      (acc' : OpenParty π σ × List Address) (rest : Bytes)
      (hacc : acc.1.identity = party.identity ∧ acc.1.address = party.address)
      (hrun : (takeSession F acc).run s = .ok (acc', rest)) :
      acc'.1.identity = party.identity ∧ acc'.1.address = party.address := by
    simp only [takeSession, Reader.run_bind_eq_ok, Reader.run_pure_eq_ok] at hrun
    obtain ⟨_, _, -, _, _, -, _, _, -, _, _, -, _, _, -, rfl, -⟩ := hrun
    exact hacc
  simp only [importSessions, Reader.run'_eq_ok, takeSessions, Reader.run_bind_eq_ok,
    Reader.run_pure_eq_ok] at h
  obtain ⟨_, _, _, -, acc, _, hloop, _, _, -, rfl, -⟩ := h
  exact Reader.run_loop_preserves hstep ⟨rfl, rfl⟩ hloop

end OpenParty

end Tacenta.Core
