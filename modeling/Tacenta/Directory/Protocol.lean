import Tacenta.Directory.Server
import Tacenta.Library.Canonical
import Tacenta.Relay.ProtocolCodec

/-!
# The directory's protocol

The byte formats of requests to the directory and of its answers. The encoders panic where a length
does not fit its four bytes, which is modelled as an error; the decoders accept or refuse.

## Main definitions

* `Directory.encodeDirRequest`, `Directory.decodeDirRequest`, `Directory.encodeDirResponse`,
  `Directory.decodeDirResponse`.

## Main results

* `Directory.decodeDirResponse_encodeDirResponse`: an answer is read back.
-/

open ByteString Result

namespace Tacenta.Directory

open Relay (DeviceAddr)

/-- The expectations of the encoders and of a snapshot. -/
inductive Panic where
  | block
  | batchSize
  | entryCount
  | poolDepth
  | recoveryCount
  | generationCount
  deriving DecidableEq

/-- Append a block after its length in four bytes, as the relay does. -/
def putBytes (out bytes : Bytes) : Except Panic Bytes :=
  (Relay.putBytes out bytes).mapError fun _ => .block

/-- Append an address, as the relay does. -/
def putAddr (out : Bytes) (addr : DeviceAddr) : Except Panic Bytes :=
  (Relay.putAddr out addr).mapError fun _ => .block

def encodeDirRequest : Request → Except Panic Bytes
  | .register device identity bundle signature => do
    let out ← putAddr [1] device
    [identity, bundle, signature].foldlM putBytes out
  | .lookup device => putAddr [2] device
  | .rotate device newIdentity newBundle possessionSig rotationSig => do
    let out ← putAddr [3] device
    [newIdentity, newBundle, possessionSig, rotationSig].foldlM putBytes out
  | .setRecovery device recovery signature => do
    let out ← putAddr [4] device
    [recovery, signature].foldlM putBytes out
  | .recover device newIdentity newBundle possessionSig recoverySig => do
    let out ← putAddr [5] device
    [newIdentity, newBundle, possessionSig, recoverySig].foldlM putBytes out
  | .depositPrekeys device identity bundles signature => do
    let out ← putAddr [6] device
    let out ← putBytes out identity
    refuseIf (2 ^ 32 ≤ bundles.length) .batchSize
    let out ← bundles.foldlM putBytes (out ++ u32Bytes bundles.length.toUInt32)
    putBytes out signature
  | .witness device generation signature => do
    let out ← putAddr [7] device
    putBytes (out ++ u64Bytes generation) signature

/-- The bytes of an answer. -/
def encodeDirResponse : Response → Except Panic Bytes
  | .registered => pure [1]
  | .refreshed => pure [2]
  | .rejected => pure [3]
  | .possessionFailed => pure [4]
  | .found identity bundle => [identity, bundle].foldlM putBytes [5]
  | .notFound => pure [6]
  | .rotated => pure [7]
  | .unauthorized => pure [8]
  | .unregistered => pure [9]
  | .recoverySet => pure [10]
  | .noRecovery => pure [11]
  | .deposited depth => pure ([12] ++ u32Bytes depth)
  | .depositRejected => pure [13]
  | .reservedHandle => pure [14]
  | .fresh => pure [15]
  | .rolledBack => pure [16]
  | .rateLimited => pure [17]
  | .registrationClosed => pure [18]

/-- Take the request that a tag names. -/
def takeDirRequest (tag : UInt8) : Reader Unit Request :=
  match tag with
  | 1 => do
    let device ← Relay.takeAddr
    let identity ← Reader.takeLp ()
    let bundle ← Reader.takeLp ()
    let signature ← Reader.takeLp ()
    pure (.register device identity bundle signature)
  | 2 => do
    let device ← Relay.takeAddr
    pure (.lookup device)
  | 3 => do
    let device ← Relay.takeAddr
    let newIdentity ← Reader.takeLp ()
    let newBundle ← Reader.takeLp ()
    let possessionSig ← Reader.takeLp ()
    let rotationSig ← Reader.takeLp ()
    pure (.rotate device newIdentity newBundle possessionSig rotationSig)
  | 4 => do
    let device ← Relay.takeAddr
    let recovery ← Reader.takeLp ()
    let signature ← Reader.takeLp ()
    pure (.setRecovery device recovery signature)
  | 5 => do
    let device ← Relay.takeAddr
    let newIdentity ← Reader.takeLp ()
    let newBundle ← Reader.takeLp ()
    let possessionSig ← Reader.takeLp ()
    let recoverySig ← Reader.takeLp ()
    pure (.recover device newIdentity newBundle possessionSig recoverySig)
  | 6 => do
    let device ← Relay.takeAddr
    let identity ← Reader.takeLp ()
    let count ← Reader.takeU32 ()
    let bundles ← Reader.many (Reader.takeLp ()) count.toNat
    let signature ← Reader.takeLp ()
    pure (.depositPrekeys device identity bundles signature)
  | 7 => do
    let device ← Relay.takeAddr
    let generation ← Reader.takeU64 ()
    let signature ← Reader.takeLp ()
    pure (.witness device generation signature)
  | _ => throw ()

def decodeDirRequest (bytes : Bytes) : Option Request :=
  ((Reader.tagged () takeDirRequest).run' bytes).toOption

/-- Take the answer that a tag names. -/
def takeDirResponse (tag : UInt8) : Reader Unit Response :=
  match tag with
  | 1 => pure .registered
  | 2 => pure .refreshed
  | 3 => pure .rejected
  | 4 => pure .possessionFailed
  | 5 => do
    let identity ← Reader.takeLp ()
    let bundle ← Reader.takeLp ()
    pure (.found identity bundle)
  | 6 => pure .notFound
  | 7 => pure .rotated
  | 8 => pure .unauthorized
  | 9 => pure .unregistered
  | 10 => pure .recoverySet
  | 11 => pure .noRecovery
  | 12 => do
    let depth ← Reader.takeU32 ()
    pure (.deposited depth)
  | 13 => pure .depositRejected
  | 14 => pure .reservedHandle
  | 15 => pure .fresh
  | 16 => pure .rolledBack
  | 17 => pure .rateLimited
  | 18 => pure .registrationClosed
  | _ => throw ()

/-- Decode an answer. -/
def decodeDirResponse (bytes : Bytes) : Option Response :=
  ((Reader.tagged () takeDirResponse).run' bytes).toOption

theorem putBytes_eq_ok_iff (out bytes b : Bytes) :
    putBytes out bytes = .ok b ↔ bytes.length < 2 ^ 32 ∧ b = out ++ lpBytes bytes := by
  rw [putBytes, mapError_eq_ok, Relay.putBytes_eq_ok_iff]

theorem putAddr_eq_ok_iff {out b : Bytes} {device : DeviceAddr} :
    putAddr out device = .ok b ↔ device.Fits ∧ b = out ++ device.layout := by
  rw [putAddr, mapError_eq_ok, Relay.putAddr_eq_ok_iff]

theorem decodeDirResponse_eq_some {bytes : Bytes} {response : Response} :
    decodeDirResponse bytes = some response ↔
      ∃ tag body, bytes = tag :: body ∧ (takeDirResponse tag).run body = .ok (response, []) := by
  rw [decodeDirResponse, toOption_eq_some, Reader.run'_tagged_eq_ok]

/-- An answer is read back. -/
theorem decodeDirResponse_encodeDirResponse {response : Response} {bytes : Bytes}
    (h : encodeDirResponse response = .ok bytes) : decodeDirResponse bytes = some response := by
  rw [decodeDirResponse_eq_some]
  cases response with
  | found identity bundle =>
    simp only [encodeDirResponse, List.foldlM_cons, List.foldlM_nil, bind_eq_ok, pure_eq_ok,
      putBytes_eq_ok_iff] at h
    obtain ⟨_, ⟨hidentity, rfl⟩, _, ⟨hbundle, rfl⟩, rfl⟩ := h
    refine ⟨5, lpBytes identity ++ lpBytes bundle, rfl, ?_⟩
    simp only [takeDirResponse, Reader.run_bind_eq_ok, Reader.run_takeLp_eq_ok,
      Reader.run_pure_eq_ok]
    exact ⟨identity, lpBytes bundle, ⟨hidentity, rfl⟩, bundle, [],
      ⟨hbundle, (List.append_nil _).symm⟩, rfl, rfl⟩
  | deposited depth =>
    obtain rfl := pure_eq_ok.mp h
    refine ⟨12, u32Bytes depth, rfl, ?_⟩
    simp only [takeDirResponse, Reader.run_bind_eq_ok, Reader.run_takeU32_eq_ok,
      Reader.run_pure_eq_ok]
    exact ⟨depth, [], (List.append_nil _).symm, rfl, rfl⟩
  | _ =>
    obtain rfl := pure_eq_ok.mp h
    exact ⟨_, [], rfl, rfl⟩

end Tacenta.Directory
