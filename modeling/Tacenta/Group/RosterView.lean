import Tacenta.Group.Codec
import Tacenta.Library.Execution
import Tacenta.Library.Word64

/-!
# The accepted roster view

The roster a member currently accepts, with its digest. A view starts from the group's genesis or
from the source roster of an authenticated bootstrap and then follows the successors that the
authority offers, one revision at a time.

## Main definitions

* `RosterView`: the accepted roster and its digest.
* `RosterView.acceptGenesis`, `RosterView.acceptSource`: how a view starts.
* `RosterView.acceptSuccessor`: how it moves.
* `RosterView.encodeState`, `RosterView.decodeState`: its checkpoint.

## Main results

* `RosterView.acceptSuccessor_offered`: an offer either leaves the view unchanged or moves it to a
  successor.
* `RosterView.decodeState_eq_ok_iff`: which checkpoints are restored.
-/

open ByteString Result

namespace Tacenta.Group

/-- Domain of a view's checkpoint. -/
def rosterViewStateDomain : Bytes := ascii "Tacenta Group Roster View State v1"

/-- Why a roster cannot start or replace the accepted view. -/
inductive RosterRefusal where
  | wrongAuthority
  | wrongGroup
  | invalidGenesis
  | invalidSource
  | staleRevision
  | missingPredecessor
  | conflict
  | authorityTransfer
  | policyChange
  | reopened
  | missingAuthorityMember
  deriving DecidableEq

/-- The result of offering a roster to a view. -/
inductive RosterDisposition where
  | accepted
  | duplicate
  | rejected (refusal : RosterRefusal)
  deriving DecidableEq

/-- One locally accepted roster with its digest. -/
structure RosterView where
  /-- The accepted roster. -/
  roster : Roster
  digest : Digest
  deriving DecidableEq

namespace RosterView

/-- Start from the group's genesis. -/
def acceptGenesis (authenticatedAuthority : Member) (roster : Roster) (digest : Digest) :
    Except RosterRefusal RosterView := do
  refuseIf (authenticatedAuthority ≠ roster.authority) .wrongAuthority
  refuseIf (roster.revision ≠ 0 ∨ roster.predecessorDigest ≠ FixedBytes.replicate digestLen 0
    ∨ roster.closed ∨ roster.members ≠ [roster.authority]) .invalidGenesis
  pure ⟨roster, digest⟩

/-- Start from the source roster of an authenticated invitation bootstrap. -/
def acceptSource (authenticatedAuthority : Member) (roster : Roster) (digest : Digest) :
    Except RosterRefusal RosterView := do
  refuseIf (authenticatedAuthority ≠ roster.authority) .wrongAuthority
  if roster.revision = 0 then
    acceptGenesis authenticatedAuthority roster digest
  else
    refuseIf roster.closed .invalidSource
    refuseIf (roster.authority ∉ roster.members) .missingAuthorityMember
    pure ⟨roster, digest⟩

/-- The view's checkpoint. -/
def encodeState (v : RosterView) : Except Error Bytes := do
  let roster ← v.roster.encode
  let out ← putU32 rosterViewStateDomain roster.length
  pure (out ++ roster ++ v.digest.val)

/-- The part of a checkpoint after its domain: the roster's bytes and the digest. -/
def takeState : Reader RosterRefusal (Bytes × Digest) := do
  let rosterBytes ← Reader.takeLp .invalidGenesis
  let digest ← Reader.exactly RosterRefusal.invalidGenesis digestLen (← Reader.takeRest)
  pure (rosterBytes, digest)

/-- Restore a checkpoint under the authority pinned when the group was bootstrapped. -/
def decodeState (bytes : Bytes) (pinnedAuthority : Member) (rosterCommitment : Bytes → Digest) :
    Except RosterRefusal RosterView := do
  refuseIf (¬rosterViewStateDomain <+: bytes) .invalidGenesis
  let (rosterBytes, digest) ← takeState.run' (bytes.drop rosterViewStateDomain.length)
  let roster ← (Roster.decode rosterBytes).mapError fun _ => RosterRefusal.invalidGenesis
  refuseIf (roster.authority ≠ pinnedAuthority) .wrongAuthority
  refuseIf (digest ≠ rosterCommitment rosterBytes) .conflict
  if roster.revision = 0 then
    acceptGenesis pinnedAuthority roster digest
  else
    refuseIf (pinnedAuthority ∉ roster.members) .missingAuthorityMember
    pure ⟨roster, digest⟩

/-- Offer a candidate for the next revision. -/
def acceptSuccessor (v : RosterView) (authenticatedAuthority : Member) (candidate : Roster)
    (digest : Digest) : RosterView × RosterDisposition :=
  if authenticatedAuthority ≠ v.roster.authority then (v, .rejected .wrongAuthority)
  else if candidate.groupId ≠ v.roster.groupId then (v, .rejected .wrongGroup)
  else if candidate.authority ≠ v.roster.authority then (v, .rejected .authorityTransfer)
  else if candidate.policyVersion ≠ v.roster.policyVersion then (v, .rejected .policyChange)
  else if candidate.authority ∉ candidate.members then (v, .rejected .missingAuthorityMember)
  else if candidate.revision < v.roster.revision then (v, .rejected .staleRevision)
  else if candidate.revision = v.roster.revision then
    if candidate = v.roster ∧ digest = v.digest then (v, .duplicate) else (v, .rejected .conflict)
  else if candidate.revision ≠ Word64.saturatingAdd v.roster.revision 1
      ∨ candidate.predecessorDigest ≠ v.digest then (v, .rejected .missingPredecessor)
  else if v.roster.closed ∧ ¬candidate.closed then (v, .rejected .reopened)
  else (⟨candidate, digest⟩, .accepted)

/-! ### What each function does -/

theorem acceptGenesis_eq_ok_iff {peer : Member} {roster : Roster} {digest : Digest}
    {v : RosterView} :
    acceptGenesis peer roster digest = .ok v ↔ v = ⟨roster, digest⟩ ∧ peer = roster.authority ∧
      roster.revision = 0 ∧ roster.predecessorDigest = FixedBytes.replicate digestLen 0 ∧
      roster.closed = false ∧ roster.members = [roster.authority] := by
  simp only [acceptGenesis, refuseIf_bind_eq_ok, pure_eq_ok, not_or, not_not, Bool.not_eq_true,
    eq_comm (a := v)]
  tauto

theorem acceptSource_eq_ok {peer : Member} {roster : Roster} {digest : Digest} {v : RosterView}
    (h : acceptSource peer roster digest = .ok v) :
    v = ⟨roster, digest⟩ ∧ peer = roster.authority ∧ roster.closed = false ∧
      roster.authority ∈ roster.members := by
  simp only [acceptSource, refuseIf_bind_eq_ok, not_not] at h
  obtain ⟨hpeer, h⟩ := h
  split at h
  · obtain ⟨rfl, -, -, -, hclosed, hmem⟩ := acceptGenesis_eq_ok_iff.mp h
    exact ⟨rfl, hpeer, hclosed, by rw [hmem]; exact List.mem_cons_self⟩
  · simp only [refuseIf_bind_eq_ok, pure_eq_ok, not_not, Bool.not_eq_true] at h
    exact ⟨h.2.2.symm, hpeer, h.1, h.2.1⟩

/-- The candidate is a successor of the view: what an accepted offer has been checked for. -/
structure Succeeds (v : RosterView) (candidate : Roster) : Prop where
  groupId_eq : candidate.groupId = v.roster.groupId
  authority_eq : candidate.authority = v.roster.authority
  policyVersion_eq : candidate.policyVersion = v.roster.policyVersion
  authority_mem : candidate.authority ∈ candidate.members
  revision_eq : candidate.revision.toNat = v.roster.revision.toNat + 1
  predecessor_eq : candidate.predecessorDigest = v.digest
  closed_of_closed : v.roster.closed = true → candidate.closed = true

/-- What an offer can do: it leaves the view as it is and is not accepted, or it comes from the
authority, is a successor and becomes the view. -/
inductive Offered (v : RosterView) (peer : Member) (candidate : Roster) (digest : Digest) :
    RosterView × RosterDisposition → Prop
  | refused {d : RosterDisposition} (h : d ≠ .accepted) : Offered v peer candidate digest (v, d)
  | accepted (hpeer : peer = v.roster.authority) (h : v.Succeeds candidate) :
      Offered v peer candidate digest (⟨candidate, digest⟩, .accepted)

theorem acceptSuccessor_offered (v : RosterView) (peer : Member) (candidate : Roster)
    (digest : Digest) :
    v.Offered peer candidate digest (v.acceptSuccessor peer candidate digest) := by
  unfold acceptSuccessor
  refine iteInduction (fun _ => .refused nofun) fun hpeer => ?_
  refine iteInduction (fun _ => .refused nofun) fun hgroup => ?_
  refine iteInduction (fun _ => .refused nofun) fun hauthority => ?_
  refine iteInduction (fun _ => .refused nofun) fun hpolicy => ?_
  refine iteInduction (fun _ => .refused nofun) fun hmember => ?_
  refine iteInduction (fun _ => .refused nofun) fun hstale => ?_
  refine iteInduction (fun _ => ?_) fun hequal => ?_
  · exact iteInduction (fun _ => .refused nofun) fun _ => .refused nofun
  refine iteInduction (fun _ => .refused nofun) fun hnext => ?_
  refine iteInduction (fun _ => .refused nofun) fun hopen => ?_
  rw [not_or, not_not, not_not, Word64.eq_iff, Word64.toNat_saturatingAdd] at hnext
  refine .accepted (not_not.mp hpeer) ⟨not_not.mp hgroup, not_not.mp hauthority,
    not_not.mp hpolicy, not_not.mp hmember, ?_, hnext.2, fun hc => ?_⟩
  · rw [Word64.lt_iff] at hstale
    rw [Word64.eq_iff] at hequal
    have := candidate.revision.toNat_lt
    have h1 : (1 : UInt64).toNat = 1 := rfl
    omega
  · by_contra hn
    exact hopen ⟨hc, hn⟩

/-! ### Checkpoints -/

/-- The bytes of a view's checkpoint. -/
def stateLayout (v : RosterView) : Bytes :=
  rosterViewStateDomain ++ (lpBytes v.roster.layout ++ v.digest.val)

theorem encodeState_eq_ok_iff {v : RosterView} {b : Bytes} :
    v.encodeState = .ok b ↔ v.roster.Valid ∧ b = v.stateLayout := by
  simp only [encodeState, bind_eq_ok, Roster.encode_eq_ok_iff, putU32_eq_ok, pure_eq_ok]
  constructor
  · rintro ⟨_, ⟨hv, rfl⟩, _, ⟨-, rfl⟩, rfl⟩
    exact ⟨hv, by simp only [stateLayout, lpBytes, List.append_assoc]⟩
  · rintro ⟨hv, rfl⟩
    have hlen : v.roster.layout.length ≤ 4096 := v.roster.length_layout ▸ hv.encodedLen_le
    exact ⟨_, ⟨hv, rfl⟩, _, ⟨by omega, rfl⟩, by simp only [stateLayout, lpBytes, List.append_assoc]⟩

private theorem run_takeState_eq_ok {s rest rosterBytes : Bytes} {digest : Digest} :
    takeState.run s = .ok ((rosterBytes, digest), rest) ↔
      rosterBytes.length < 2 ^ 32 ∧ s = lpBytes rosterBytes ++ digest.val ∧ rest = [] := by
  simp only [takeState, Reader.run_bind_eq_ok, Reader.run_takeLp_eq_ok, Reader.run_takeRest_eq_ok,
    Reader.run_lift_eq_ok, Reader.exactly_eq_ok, Reader.run_pure_eq_ok, Prod.mk.injEq]
  constructor
  · rintro ⟨_, _, ⟨hlen, rfl⟩, _, _, ⟨rfl, rfl⟩, _, _, ⟨rfl, rfl⟩, ⟨rfl, rfl⟩, rfl⟩
    exact ⟨hlen, rfl, rfl⟩
  · rintro ⟨hlen, rfl, rfl⟩
    exact ⟨_, _, ⟨hlen, rfl⟩, _, _, ⟨rfl, rfl⟩, _, _, ⟨rfl, rfl⟩, ⟨rfl, rfl⟩, rfl⟩

/-- A checkpoint is restored exactly if it is the checkpoint of a valid roster that lists the
pinned authority, with the roster's own digest. -/
theorem decodeState_eq_ok_iff {b : Bytes} {pinned : Member} {commitment : Bytes → Digest}
    {v : RosterView} :
    decodeState b pinned commitment = .ok v ↔
      v.roster.Valid ∧ v.roster.authority = pinned ∧ pinned ∈ v.roster.members ∧
        v.digest = commitment v.roster.layout ∧ b = v.stateLayout := by
  simp only [decodeState, bind_eq_ok, refuseIf_eq_ok, not_not, exists_const, Reader.run'_eq_ok,
    mapError_eq_ok, Roster.decode_eq_ok_iff, Prod.exists, run_takeState_eq_ok]
  constructor
  · rintro ⟨⟨tail, rfl⟩, _, digest, ⟨_, -, hs, -⟩, roster, ⟨hv, rfl⟩, rfl, rfl, h⟩
    rw [List.drop_left] at hs
    obtain rfl := hs
    split at h
    · obtain ⟨rfl, -, -, -, -, hmem⟩ := acceptGenesis_eq_ok_iff.mp h
      exact ⟨hv, rfl, by rw [hmem]; exact List.mem_cons_self, rfl, rfl⟩
    · simp only [refuseIf_bind_eq_ok, not_not, pure_eq_ok] at h
      obtain ⟨hmem, rfl⟩ := h
      exact ⟨hv, rfl, hmem, rfl, rfl⟩
  · rintro ⟨hv, rfl, hmem, hd, rfl⟩
    have hlen : v.roster.layout.length ≤ 4096 := v.roster.length_layout ▸ hv.encodedLen_le
    refine ⟨List.prefix_append _ _, v.roster.layout, v.digest,
      ⟨[], by omega, List.drop_left, rfl⟩, v.roster, ⟨hv, rfl⟩, rfl, hd, ?_⟩
    split
    · next h0 =>
      obtain ⟨h₁, h₂, h₃⟩ := hv.genesis h0
      exact acceptGenesis_eq_ok_iff.mpr ⟨rfl, rfl, h0, h₁, h₂, h₃⟩
    · rw [refuseIf_neg (not_not.mpr hmem)]
      rfl

end RosterView

end Tacenta.Group
