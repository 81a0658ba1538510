import Tacenta.Directory.Protocol

/-!
# The directory's messages are canonical

Layouts of the requests to the directory and of its answers. Each of them is written exactly if its
strings, byte fields and counts fit four bytes, and only the layouts of such values are accepted.

## Main definitions

* `Request.Fits`, `Response.Fits`: the values that are written.

## Main results

* `canonical_dirRequest`, `canonical_dirResponse`.
-/

open ByteString Reader Result

namespace Tacenta.Directory

open Relay (DeviceAddr)

/-! ### Requests -/

/-- The length of a block fits four bytes. -/
def BlockFits (block : Bytes) : Prop := block.length < 2 ^ 32

/-- The string, the byte fields and the count of a request fit four bytes. -/
def Request.Fits : Request → Prop
  | .register device identity bundle signature =>
    device.Fits ∧ BlockFits identity ∧ BlockFits bundle ∧ BlockFits signature
  | .lookup device => device.Fits
  | .depositPrekeys device identity bundles signature =>
    device.Fits ∧ BlockFits identity ∧
      (bundles.length < 2 ^ 32 ∧ ∀ bundle ∈ bundles, BlockFits bundle) ∧ BlockFits signature
  | .rotate device newIdentity newBundle possessionSig rotationSig =>
    device.Fits ∧ BlockFits newIdentity ∧ BlockFits newBundle ∧ BlockFits possessionSig ∧
      BlockFits rotationSig
  | .setRecovery device recovery signature =>
    device.Fits ∧ BlockFits recovery ∧ BlockFits signature
  | .recover device newIdentity newBundle possessionSig recoverySig =>
    device.Fits ∧ BlockFits newIdentity ∧ BlockFits newBundle ∧ BlockFits possessionSig ∧
      BlockFits recoverySig
  | .witness device _ signature => device.Fits ∧ BlockFits signature

def Request.layout : Request → Bytes
  | .register device identity bundle signature =>
    1 :: (device.layout ++ (lpBytes identity ++ (lpBytes bundle ++ lpBytes signature)))
  | .lookup device => 2 :: device.layout
  | .depositPrekeys device identity bundles signature =>
    6 :: (device.layout ++ (lpBytes identity ++ (u32Bytes bundles.length.toUInt32 ++
      (bundles.flatMap lpBytes ++ lpBytes signature))))
  | .rotate device newIdentity newBundle possessionSig rotationSig =>
    3 :: (device.layout ++ (lpBytes newIdentity ++ (lpBytes newBundle ++
      (lpBytes possessionSig ++ lpBytes rotationSig))))
  | .setRecovery device recovery signature =>
    4 :: (device.layout ++ (lpBytes recovery ++ lpBytes signature))
  | .recover device newIdentity newBundle possessionSig recoverySig =>
    5 :: (device.layout ++ (lpBytes newIdentity ++ (lpBytes newBundle ++
      (lpBytes possessionSig ++ lpBytes recoverySig))))
  | .witness device generation signature =>
    7 :: (device.layout ++ (u64Bytes generation ++ lpBytes signature))

/-- An address and blocks after it. -/
theorem putBytess_eq_ok_iff {tag : UInt8} {device : DeviceAddr} {blocks : List Bytes} {b : Bytes} :
    (do
      let out ← putAddr [tag] device
      blocks.foldlM putBytes out) = .ok b ↔
      (device.Fits ∧ ∀ block ∈ blocks, BlockFits block) ∧
        b = tag :: (device.layout ++ blocks.flatMap lpBytes) := by
  simp only [bind_eq_ok, putAddr_eq_ok_iff, foldlM_eq_ok_iff putBytes_eq_ok_iff]
  constructor
  · rintro ⟨_, ⟨hdevice, rfl⟩, hblocks, rfl⟩
    exact ⟨⟨hdevice, hblocks⟩, rfl⟩
  · rintro ⟨⟨hdevice, hblocks⟩, rfl⟩
    exact ⟨_, ⟨hdevice, rfl⟩, hblocks, rfl⟩

theorem encodeDirRequest_eq_ok_iff (request : Request) (b : Bytes) :
    encodeDirRequest request = .ok b ↔ request.Fits ∧ b = request.layout := by
  cases request with
  | lookup device => exact putAddr_eq_ok_iff
  | depositPrekeys device identity bundles signature =>
    simp only [encodeDirRequest, bind_eq_ok, putAddr_eq_ok_iff, putBytes_eq_ok_iff, refuseIf_eq_ok,
      not_le, foldlM_eq_ok_iff putBytes_eq_ok_iff, Request.Fits, Request.layout]
    constructor
    · rintro ⟨_, ⟨hdevice, rfl⟩, _, ⟨hidentity, rfl⟩, _, hlt, _, ⟨hbundles, rfl⟩, hsignature, rfl⟩
      exact ⟨⟨hdevice, hidentity, ⟨hlt, hbundles⟩, hsignature⟩, by simp⟩
    · rintro ⟨⟨hdevice, hidentity, ⟨hlt, hbundles⟩, hsignature⟩, rfl⟩
      exact ⟨_, ⟨hdevice, rfl⟩, _, ⟨hidentity, rfl⟩, (), hlt, _, ⟨hbundles, rfl⟩, hsignature,
        by simp⟩
  | witness device generation signature =>
    simp only [encodeDirRequest, bind_eq_ok, putAddr_eq_ok_iff, putBytes_eq_ok_iff, Request.Fits,
      Request.layout]
    constructor
    · rintro ⟨_, ⟨hdevice, rfl⟩, hsignature, rfl⟩
      exact ⟨⟨hdevice, hsignature⟩, by simp⟩
    · rintro ⟨⟨hdevice, hsignature⟩, rfl⟩
      exact ⟨_, ⟨hdevice, rfl⟩, hsignature, by simp⟩
  | _ =>
    rw [encodeDirRequest, putBytess_eq_ok_iff]
    simp only [List.forall_mem_cons, List.flatMap_cons, List.flatMap_nil, List.append_nil,
      List.not_mem_nil, false_imp_iff, implies_true, and_true, Request.Fits, Request.layout]

theorem decodeDirRequest_eq_some_iff (b : Bytes) (request : Request) :
    decodeDirRequest b = some request ↔ request.Fits ∧ b = request.layout := by
  have htake : ∀ s block rest, (Reader.takeLp ()).run s = .ok (block, rest) ↔
      BlockFits block ∧ s = lpBytes block ++ rest := fun _ _ _ => run_takeLp_eq_ok
  have haddr (device : DeviceAddr) (h : device.Fits) (rest : Bytes) :
      Relay.takeAddr.run (device.layout ++ rest) = .ok (device, rest) :=
    Relay.run_takeAddr_eq_ok.mpr ⟨h, rfl⟩
  have hblock (block : Bytes) (h : BlockFits block) (rest : Bytes) :
      (Reader.takeLp ()).run (lpBytes block ++ rest) = .ok (block, rest) :=
    (htake _ _ _).mpr ⟨h, rfl⟩
  have hword (x : UInt64) (rest : Bytes) :
      (Reader.takeU64 ()).run (u64Bytes x ++ rest) = .ok (x, rest) := run_takeU64_eq_ok.mpr rfl
  rw [decodeDirRequest, toOption_eq_some, run'_tagged_eq_ok]
  constructor
  · rintro ⟨tag, body, rfl, h⟩
    unfold takeDirRequest at h
    split at h
    · simp only [run_bind_eq_ok, Relay.run_takeAddr_eq_ok, htake, run_pure_eq_ok] at h
      obtain ⟨device, _, ⟨hdevice, rfl⟩, identity, _, ⟨hidentity, rfl⟩, bundle, _, ⟨hbundle, rfl⟩,
        signature, _, ⟨hsignature, rfl⟩, rfl, rfl⟩ := h
      exact ⟨⟨hdevice, hidentity, hbundle, hsignature⟩, by rw [List.append_nil]; rfl⟩
    · simp only [run_bind_eq_ok, Relay.run_takeAddr_eq_ok, run_pure_eq_ok] at h
      obtain ⟨device, _, ⟨hdevice, rfl⟩, rfl, rfl⟩ := h
      exact ⟨hdevice, by rw [List.append_nil]; rfl⟩
    · simp only [run_bind_eq_ok, Relay.run_takeAddr_eq_ok, htake, run_pure_eq_ok] at h
      obtain ⟨device, _, ⟨hdevice, rfl⟩, newIdentity, _, ⟨hidentity, rfl⟩, newBundle, _,
        ⟨hbundle, rfl⟩, possessionSig, _, ⟨hpossession, rfl⟩, rotationSig, _, ⟨hrotation, rfl⟩, rfl,
        rfl⟩ := h
      exact ⟨⟨hdevice, hidentity, hbundle, hpossession, hrotation⟩, by rw [List.append_nil]; rfl⟩
    · simp only [run_bind_eq_ok, Relay.run_takeAddr_eq_ok, htake, run_pure_eq_ok] at h
      obtain ⟨device, _, ⟨hdevice, rfl⟩, recovery, _, ⟨hrecovery, rfl⟩, signature, _,
        ⟨hsignature, rfl⟩, rfl, rfl⟩ := h
      exact ⟨⟨hdevice, hrecovery, hsignature⟩, by rw [List.append_nil]; rfl⟩
    · simp only [run_bind_eq_ok, Relay.run_takeAddr_eq_ok, htake, run_pure_eq_ok] at h
      obtain ⟨device, _, ⟨hdevice, rfl⟩, newIdentity, _, ⟨hidentity, rfl⟩, newBundle, _,
        ⟨hbundle, rfl⟩, possessionSig, _, ⟨hpossession, rfl⟩, recoverySig, _, ⟨hrecovery, rfl⟩, rfl,
        rfl⟩ := h
      exact ⟨⟨hdevice, hidentity, hbundle, hpossession, hrecovery⟩, by rw [List.append_nil]; rfl⟩
    · simp only [run_bind_eq_ok, Relay.run_takeAddr_eq_ok, htake, run_takeU32_eq_ok,
        run_many_eq_ok htake, run_pure_eq_ok] at h
      obtain ⟨device, _, ⟨hdevice, rfl⟩, identity, _, ⟨hidentity, rfl⟩, count, _, rfl, bundles, _,
        ⟨hlen, hbundles, rfl⟩, signature, _, ⟨hsignature, rfl⟩, rfl, rfl⟩ := h
      obtain ⟨hlt, rfl⟩ := count_eq hlen
      exact ⟨⟨hdevice, hidentity, ⟨hlt, hbundles⟩, hsignature⟩, by rw [List.append_nil]; rfl⟩
    · simp only [run_bind_eq_ok, Relay.run_takeAddr_eq_ok, htake, run_takeU64_eq_ok,
        run_pure_eq_ok] at h
      obtain ⟨device, _, ⟨hdevice, rfl⟩, generation, _, rfl, signature, _, ⟨hsignature, rfl⟩, rfl,
        rfl⟩ := h
      exact ⟨⟨hdevice, hsignature⟩, by rw [List.append_nil]; rfl⟩
    · cases h
  · rintro ⟨hfits, rfl⟩
    cases request with
    | depositPrekeys device identity bundles signature =>
      obtain ⟨hdevice, hidentity, ⟨hlt, hbundles⟩, hsignature⟩ := hfits
      refine ⟨6, _, rfl, ?_⟩
      simp only [takeDirRequest, run_bind_eq_ok, Relay.run_takeAddr_eq_ok, htake,
        run_takeU32_eq_ok, run_many_eq_ok htake, run_pure_eq_ok]
      exact ⟨device, _, ⟨hdevice, rfl⟩, identity, _, ⟨hidentity, rfl⟩, _, _, rfl, bundles, _,
        ⟨(toNat_toUInt32_of_lt hlt).symm, hbundles, rfl⟩, signature, [],
        ⟨hsignature, (List.append_nil _).symm⟩, rfl, rfl⟩
    | _ =>
      -- every field is read from the front of what is left
      refine ⟨_, _, rfl, (congrArg _ (List.append_nil _).symm).trans ?_⟩
      simp only [Request.Fits] at hfits
      simp only [takeDirRequest, List.append_assoc, StateT.run_bind, StateT.run_pure, ok_bind,
        hfits, haddr, hblock, hword]
      rfl

theorem canonical_dirRequest : Canonical encodeDirRequest decodeDirRequest Request.Fits :=
  .of_layout encodeDirRequest_eq_ok_iff decodeDirRequest_eq_some_iff

/-! ### Answers -/

/-- The byte fields of an answer fit four bytes. -/
def Response.Fits : Response → Prop
  | .found identity bundle => BlockFits identity ∧ BlockFits bundle
  | _ => True

/-- The bytes of an answer. -/
def Response.layout : Response → Bytes
  | .registered => [1]
  | .refreshed => [2]
  | .rejected => [3]
  | .possessionFailed => [4]
  | .found identity bundle => 5 :: (lpBytes identity ++ lpBytes bundle)
  | .notFound => [6]
  | .rotated => [7]
  | .unauthorized => [8]
  | .unregistered => [9]
  | .recoverySet => [10]
  | .noRecovery => [11]
  | .deposited depth => 12 :: u32Bytes depth
  | .depositRejected => [13]
  | .reservedHandle => [14]
  | .fresh => [15]
  | .rolledBack => [16]
  | .rateLimited => [17]
  | .registrationClosed => [18]

theorem encodeDirResponse_eq_ok_iff (response : Response) (b : Bytes) :
    encodeDirResponse response = .ok b ↔ response.Fits ∧ b = response.layout := by
  cases response with
  | found identity bundle =>
    rw [encodeDirResponse, foldlM_eq_ok_iff putBytes_eq_ok_iff]
    simp only [List.forall_mem_cons, List.flatMap_cons, List.flatMap_nil, List.append_nil,
      List.not_mem_nil, false_imp_iff, implies_true, and_true, Response.Fits, BlockFits,
      Response.layout,
      List.cons_append, List.nil_append]
  | _ =>
    rw [encodeDirResponse, pure_eq_ok, eq_comm]
    exact (and_iff_right trivial).symm

theorem decodeDirResponse_eq_some_iff (b : Bytes) (response : Response) :
    decodeDirResponse b = some response ↔ response.Fits ∧ b = response.layout := by
  constructor
  · rw [decodeDirResponse_eq_some]
    rintro ⟨tag, body, rfl, h⟩
    unfold takeDirResponse at h
    split at h
    case h_5 =>
      simp only [run_bind_eq_ok, run_takeLp_eq_ok, run_pure_eq_ok] at h
      obtain ⟨identity, _, ⟨hidentity, rfl⟩, bundle, _, ⟨hbundle, rfl⟩, rfl, rfl⟩ := h
      exact ⟨⟨hidentity, hbundle⟩, by rw [List.append_nil]; rfl⟩
    case h_12 =>
      simp only [run_bind_eq_ok, run_takeU32_eq_ok, run_pure_eq_ok] at h
      obtain ⟨depth, _, rfl, rfl, rfl⟩ := h
      exact ⟨trivial, by rw [List.append_nil]; rfl⟩
    case h_19 => cases h
    all_goals
      obtain ⟨rfl, rfl⟩ := run_pure_eq_ok.mp h
      exact ⟨trivial, rfl⟩
  · exact fun h => decodeDirResponse_encodeDirResponse ((encodeDirResponse_eq_ok_iff _ _).mpr h)

theorem canonical_dirResponse : Canonical encodeDirResponse decodeDirResponse Response.Fits :=
  .of_layout encodeDirResponse_eq_ok_iff decodeDirResponse_eq_some_iff

end Tacenta.Directory
