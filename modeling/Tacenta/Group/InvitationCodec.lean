import Tacenta.Group.Invitation

/-!
# The byte formats of invitations

The checkpoint of a book of invitations and the three messages about an invitation. As for rosters,
encoding succeeds exactly on the admitted values and writes their layout, and decoding accepts
exactly the layouts of admitted values. A checkpoint lists the invitations in the order of their
identifiers, so a book is restored as its sorted form.

## Main definitions

* `Invitation.Valid`, `Invitation.Storable`: the invitations that pass the checks and those that a
  checkpoint admits.
* `InvitationBook.sorted`, `InvitationBook.Canonical`: the form in which a book is restored.
* `InvitationBootstrap.Valid`, `InvitationBootstrap.layout`, `InvitationNotice.layout`.

## Main results

* `InvitationBook.encodeState_eq_ok_iff`, `InvitationBook.decodeState_eq_ok_iff`.
* `InvitationBootstrap.decode_eq_ok_iff`, `InvitationNotice.decode_eq_ok_iff`.
-/

open ByteString Reader Result

namespace Tacenta.Group

/-! ### Byte-level helpers -/

theorem putLp16_eq_ok {out value b : Bytes} :
    putLp16 out value = .ok b ↔ value.length < 2 ^ 16 ∧ b = out ++ lp16Bytes value := by
  rw [putLp16, refuseIf_bind_eq_ok, pure_eq_ok, not_le, lp16Bytes, List.append_assoc,
    eq_comm (a := b)]

theorem run_takeInvitationId_eq_ok {s rest : Bytes} {id : InvitationId} :
    takeInvitationId.run s = .ok (id, rest) ↔ s = id.bytes.val ++ rest := by
  rw [takeInvitationId, map_eq_pure_bind, run_bind_eq_ok]
  simp only [run_takeArray_eq_ok, run_pure_eq_ok]
  constructor
  · rintro ⟨x, _, rfl, rfl, rfl⟩
    rfl
  · rintro rfl
    exact ⟨id.bytes, rest, rfl, rfl, rfl⟩

theorem run_takeGroupId_eq_ok {s rest : Bytes} {g : GroupId} :
    takeGroupId.run s = .ok (g, rest) ↔ s = g.bytes.val ++ rest := by
  rw [takeGroupId, map_eq_pure_bind, run_bind_eq_ok]
  simp only [run_takeArray_eq_ok, run_pure_eq_ok]
  constructor
  · rintro ⟨x, _, rfl, rfl, rfl⟩
    rfl
  · rintro rfl
    exact ⟨g.bytes, rest, rfl, rfl, rfl⟩

theorem Member.Valid.lt {m : Member} (h : m.Valid) :
    m.identity.length < 2 ^ 16 ∧ m.device.length < 2 ^ 16 := by
  have h₁ : m.identity.length ≤ 256 := h.identity_le
  have h₂ : m.device.length ≤ 64 := h.device_le
  omega

/-! ### Invitations -/

namespace Invitation

/-- The invitation passes the profile's checks. -/
structure Valid (i : Invitation) : Prop where
  sourceRevision_ne : i.sourceRevision ≠ Group.reservedRevision
  policyVersion_eq : i.policyVersion = policyVersionV1
  target_valid : i.target.Valid

variable {i : Invitation}

theorem validate_eq_ok_iff {u : Unit} : i.validate = .ok u ↔ i.Valid := by
  simp only [validate, bind_eq_ok, refuseIf_eq_ok, Member.validate_eq_ok_iff]
  constructor
  · rintro ⟨_, h₁, _, h₂, h₃⟩
    exact ⟨h₁, not_not.mp h₂, h₃⟩
  · intro h
    exact ⟨(), h.sourceRevision_ne, (), not_not.mpr h.policyVersion_eq, h.target_valid⟩

instance (i : Invitation) : Decidable i.Valid :=
  decidable_of_iff (i.validate = .ok ()) validate_eq_ok_iff

theorem new_eq_ok_iff {id : InvitationId} {groupId : GroupId} {target : Member}
    {sourceRevision : UInt64} {digest : Digest} {policyVersion : UInt32} {expiresAt : UInt64} :
    new id groupId target sourceRevision digest policyVersion expiresAt = .ok i ↔
      i = ⟨id, groupId, target, sourceRevision, digest, policyVersion, expiresAt, .pending⟩ ∧
        i.Valid := by
  simp only [new, bind_eq_ok, validate_eq_ok_iff, pure_eq_ok]
  constructor
  · rintro ⟨_, hv, rfl⟩
    exact ⟨rfl, hv⟩
  · rintro ⟨rfl, hv⟩
    exact ⟨(), hv, rfl⟩

/-- A change of where an invitation stands does not concern the checks. -/
theorem Valid.withStatus (h : i.Valid) (status : InvitationStatus) :
    { i with status }.Valid := ⟨h.sourceRevision_ne, h.policyVersion_eq, h.target_valid⟩

/-- A checkpoint admits the invitation. -/
structure Storable (i : Invitation) : Prop where
  valid : i.Valid
  status_ne : i.status ≠ .admitted Group.reservedRevision

end Invitation

def InvitationStatus.layout (status : InvitationStatus) : Bytes :=
  (statusCode status).1 :: match (statusCode status).2 with
    | some revision => u64Bytes revision
    | none => []

/-- The bytes of an invitation up to its status. -/
def Invitation.fieldsLayout (i : Invitation) : Bytes :=
  lp16Bytes i.target.identity ++ (lp16Bytes i.target.device ++ (u64Bytes i.sourceRevision ++
    (i.sourceRosterDigest.val ++ (u32Bytes i.policyVersion ++ u64Bytes i.expiresAt))))

/-- The bytes of an invitation in a checkpoint. -/
def Invitation.layout (i : Invitation) : Bytes :=
  i.id.bytes.val ++ (i.fieldsLayout ++ i.status.layout)

/-! ### The book -/

namespace InvitationBook

theorem putInvitation_eq_ok_iff (out : Bytes) (i : Invitation) (b : Bytes) :
    putInvitation out i = .ok b ↔ i.Storable ∧ b = out ++ i.layout := by
  have hreserved : (statusCode i.status).2 = some Group.reservedRevision ↔
      i.status = .admitted Group.reservedRevision := by
    cases i.status <;> simp [statusCode]
  simp only [putInvitation, bind_eq_ok, refuseIf_eq_ok, Invitation.validate_eq_ok_iff,
    putLp16_eq_ok, pure_eq_ok, hreserved, Invitation.layout, Invitation.fieldsLayout,
    InvitationStatus.layout]
  constructor
  · rintro ⟨_, hstatus, _, hv, _, ⟨-, rfl⟩, _, ⟨-, rfl⟩, rfl⟩
    refine ⟨⟨hv, hstatus⟩, ?_⟩
    cases i.status <;> simp [statusCode]
  · rintro ⟨h, rfl⟩
    refine ⟨(), h.status_ne, (), h.valid, _, ⟨h.valid.target_valid.lt.1, rfl⟩, _,
      ⟨h.valid.target_valid.lt.2, rfl⟩, ?_⟩
    cases i.status <;> simp [statusCode]

/-- One invitation is before another in the order of their identifiers. -/
def Before (i j : Invitation) : Prop := compare i.id.bytes.val j.id.bytes.val = .lt

/-- The book with its invitations in the order of their identifiers. -/
def sorted (b : InvitationBook) : InvitationBook :=
  { b with invitations := b.invitations.insertionSort fun left right =>
      (compare left.id.bytes.val right.id.bytes.val).isLE }

theorem perm_sorted (b : InvitationBook) : b.sorted.invitations.Perm b.invitations :=
  List.perm_insertionSort _ _

/-- The bytes of a book, in the order in which it lists its invitations. -/
def layout (b : InvitationBook) : Bytes :=
  invitationBookStateDomain ++ (b.groupId.bytes.val ++ (b.invitations.length.toUInt8 ::
    b.invitations.flatMap Invitation.layout))

/-- A checkpoint is written for the books of at most 32 storable invitations, in sorted order. -/
theorem encodeState_eq_ok_iff {b : InvitationBook} {bytes : Bytes} :
    b.encodeState = .ok bytes ↔ b.invitations.length ≤ maxInvitationRecords ∧
      (∀ i ∈ b.invitations, i.Storable) ∧ bytes = b.sorted.layout := by
  have hlen : b.sorted.invitations.length = b.invitations.length := b.perm_sorted.length_eq
  have hmem : (∀ i ∈ b.sorted.invitations, i.Storable) ↔ ∀ i ∈ b.invitations, i.Storable :=
    forall_congr' fun i => by rw [b.perm_sorted.mem_iff]
  have hlayout : b.sorted.layout = invitationBookStateDomain ++ b.groupId.bytes.val ++
      [b.invitations.length.toUInt8] ++ b.sorted.invitations.flatMap Invitation.layout := by
    simp only [layout, hlen, List.append_assoc, List.singleton_append]
    rfl
  have hiff : b.encodeState = .ok bytes ↔ ¬2 ^ 8 ≤ b.invitations.length ∧
      ¬maxInvitationRecords < b.invitations.length ∧ b.sorted.invitations.foldlM putInvitation
        (invitationBookStateDomain ++ b.groupId.bytes.val ++ [b.invitations.length.toUInt8])
          = .ok bytes := by
    rw [encodeState, refuseIf_bind_eq_ok, refuseIf_bind_eq_ok]
    rfl
  rw [hiff, foldlM_eq_ok_iff putInvitation_eq_ok_iff,
    not_le, not_lt, hlayout]
  simp only [maxInvitationRecords]
  constructor
  · rintro ⟨-, hle, hst, rfl⟩
    exact ⟨hle, hmem.mp hst, rfl⟩
  · rintro ⟨hle, hst, rfl⟩
    exact ⟨by omega, hle, hmem.mpr hst, rfl⟩

theorem run_takeStatus_eq_ok {s rest : Bytes} {status : InvitationStatus} :
    takeStatus.run s = .ok (status, rest) ↔
      status ≠ .admitted Group.reservedRevision ∧ s = status.layout ++ rest := by
  simp only [takeStatus, run_bind_eq_ok, run_takeByte_eq_ok]
  constructor
  · rintro ⟨byte, s', rfl, h⟩
    split at h
    · obtain ⟨rfl, rfl⟩ := run_pure_eq_ok.mp h
      exact ⟨by simp, rfl⟩
    · obtain ⟨rfl, rfl⟩ := run_pure_eq_ok.mp h
      exact ⟨by simp, rfl⟩
    · simp only [run_bind_eq_ok, run_takeU64_eq_ok, run_refuseIf_eq_ok,
        run_pure_eq_ok] at h
      obtain ⟨revision, _, rfl, _, _, ⟨hne, rfl⟩, rfl, rfl⟩ := h
      exact ⟨fun hr => hne (InvitationStatus.admitted.inj hr), rfl⟩
    · obtain ⟨rfl, rfl⟩ := run_pure_eq_ok.mp h
      exact ⟨by simp, rfl⟩
    · obtain ⟨rfl, rfl⟩ := run_pure_eq_ok.mp h
      exact ⟨by simp, rfl⟩
    · cases h
  · rintro ⟨hne, rfl⟩
    refine ⟨(statusCode status).1, _, rfl, ?_⟩
    cases status with
    | admitted revision =>
      change (Reader.takeU64 Error.malformed >>= _).run (u64Bytes revision ++ rest) = _
      simp only [run_bind_eq_ok, run_takeU64_eq_ok, run_refuseIf_eq_ok,
        run_pure_eq_ok]
      exact ⟨revision, rest, rfl, (), rest, ⟨fun hr => hne (by rw [hr]), rfl⟩, rfl, rfl⟩
    | _ => rfl

variable {g : GroupId}

theorem run_takeInvitation_eq_ok {acc acc' : List Invitation} {s rest : Bytes} :
    (takeInvitation g acc).run s = .ok (acc', rest) ↔
      ∃ i : Invitation, ((i.groupId = g ∧ i.Storable) ∧ ∀ j ∈ acc.getLast?, Before j i) ∧
        acc' = acc ++ [i] ∧ s = i.layout ++ rest := by
  have hbefore (id : InvitationId) : (¬(acc.getLast?.any fun previous =>
      (compare previous.id.bytes.val id.bytes.val).isGE) = true) ↔
        ∀ j ∈ acc.getLast?, compare j.id.bytes.val id.bytes.val = .lt := by
    cases acc.getLast? with
    | none => simp
    | some j =>
      simp only [Option.any_some, Option.mem_some_iff, forall_eq']
      cases compare j.id.bytes.val id.bytes.val <;> simp
  simp only [takeInvitation, run_bind_eq_ok, run_takeInvitationId_eq_ok,
    run_lift_eq_ok, refuseIf_eq_ok, run_takeLp16_eq_ok, run_takeU64_eq_ok,
    run_takeArray_eq_ok, run_takeU32_eq_ok, run_takeStatus_eq_ok,
    Invitation.new_eq_ok_iff, run_pure_eq_ok, hbefore]
  constructor
  · rintro ⟨id, _, rfl, _, _, ⟨hb, rfl⟩, idn, _, ⟨-, rfl⟩, dev, _, ⟨-, rfl⟩, rev, _, rfl, dig, _,
      rfl, pol, _, rfl, exp, _, rfl, status, _, ⟨hst, rfl⟩, i, _, ⟨⟨rfl, hv⟩, rfl⟩, rfl, rfl⟩
    refine ⟨_, ⟨⟨rfl, hv.withStatus status, hst⟩, hb⟩, rfl, ?_⟩
    simp only [Invitation.layout, Invitation.fieldsLayout, List.append_assoc]
  · rintro ⟨i, ⟨⟨rfl, hi⟩, hb⟩, rfl, rfl⟩
    simp only [Invitation.layout, Invitation.fieldsLayout, List.append_assoc]
    exact ⟨i.id, _, rfl, (), _, ⟨hb, rfl⟩, i.target.identity, _, ⟨hi.valid.target_valid.lt.1, rfl⟩,
      i.target.device, _, ⟨hi.valid.target_valid.lt.2, rfl⟩, i.sourceRevision, _, rfl,
      i.sourceRosterDigest, _, rfl, i.policyVersion, _, rfl, i.expiresAt, _, rfl, i.status, _,
      ⟨hi.status_ne, rfl⟩, _, _, ⟨⟨rfl, hi.valid.withStatus .pending⟩, rfl⟩, rfl, rfl⟩

/-- A book as a checkpoint of the group restores it. -/
structure Canonical (g : GroupId) (b : InvitationBook) : Prop where
  groupId_eq : b.groupId = g
  length_le : b.invitations.length ≤ maxInvitationRecords
  groups_eq : ∀ i ∈ b.invitations, i.groupId = g
  storable : ∀ i ∈ b.invitations, i.Storable
  chain : b.invitations.IsChain Before

/-- A checkpoint is restored exactly if it is the layout of a canonical book. -/
theorem decodeState_eq_ok_iff {bytes : Bytes} {b : InvitationBook} :
    decodeState bytes g = .ok b ↔ b.Canonical g ∧ bytes = b.layout := by
  simp only [decodeState, readState, run'_eq_ok, run_bind_eq_ok,
    run_takeExact_eq_ok, run_takeGroupId_eq_ok, run_refuseIf_eq_ok,
    run_takeByte_eq_ok, run_loop_chain_eq_ok fun _ _ _ _ => run_takeInvitation_eq_ok,
    run_finish_eq_ok, run_pure_eq_ok, not_not, not_lt]
  constructor
  · rintro ⟨_, _, _, rfl, gid, _, rfl, _, _, ⟨rfl, rfl⟩, count, _, rfl, _, _, ⟨hcount, rfl⟩, _, _,
      ⟨is, hlen, rfl, rfl, his, hchain⟩, _, _, ⟨rfl, rfl⟩, rfl, rfl⟩
    refine ⟨⟨rfl, hlen ▸ hcount, fun i hi => (his i hi).1, fun i hi => (his i hi).2,
      by simpa using hchain⟩, ?_⟩
    simp only [layout, List.append_nil, hlen, Nat.toUInt8, UInt8.ofNat_toNat]
  · rintro ⟨hb, rfl⟩
    have hle : b.invitations.length ≤ 32 := hb.length_le
    have hcount : b.invitations.length.toUInt8.toNat = b.invitations.length := by
      rw [toNat_toUInt8_of_lt (by omega)]
    refine ⟨[], (), _, rfl, b.groupId, _, rfl, (), _, ⟨hb.groupId_eq, rfl⟩, _, _, rfl, (), _,
      ⟨hcount.symm ▸ hb.length_le, rfl⟩, b.invitations, [], ⟨b.invitations, hcount.symm, rfl,
        (List.append_nil _).symm, fun i hi => ⟨hb.groups_eq i hi, hb.storable i hi⟩, ?_⟩, (), [],
      ⟨rfl, rfl⟩, ?_, rfl⟩
    · simpa using hb.chain
    · rw [← hb.groupId_eq]

private theorem isLE_iff {i j : Invitation} :
    (compare i.id.bytes.val j.id.bytes.val).isLE = true ↔ Before i j ∨ i.id = j.id := by
  have heq : compare i.id.bytes.val j.id.bytes.val = .eq ↔ i.id = j.id := by
    rw [Std.compare_eq_iff_eq, FixedBytes.val_inj]
    constructor
    · intro h
      cases hi : i.id
      cases hj : j.id
      rw [hi, hj] at h
      exact congrArg _ h
    · exact fun h => by rw [h]
  rw [← heq, Before]
  cases compare i.id.bytes.val j.id.bytes.val <;> simp

private theorem before_trans {i j k : Invitation} (hij : Before i j) (hjk : Before j k) :
    Before i k := Std.TransCmp.lt_trans hij hjk

theorem Canonical.sorted_eq {b : InvitationBook} (h : b.Canonical g) :
    b.sorted = b := by
  have hpair : b.invitations.Pairwise fun left right =>
      (compare left.id.bytes.val right.id.bytes.val).isLE = true := by
    have : IsTrans Invitation Before := ⟨fun _ _ _ => before_trans⟩
    exact h.chain.pairwise.imp fun hij => isLE_iff.mpr (.inl hij)
  rw [sorted, hpair.insertionSort_eq]

theorem canonical_sorted {b : InvitationBook}
    (hle : b.invitations.length ≤ maxInvitationRecords)
    (hnodup : (b.invitations.map Invitation.id).Nodup)
    (hgroups : ∀ i ∈ b.invitations, i.groupId = b.groupId)
    (hst : ∀ i ∈ b.invitations, i.Storable) : b.sorted.Canonical b.groupId := by
  have hmem {i : Invitation} : i ∈ b.sorted.invitations ↔ i ∈ b.invitations :=
    b.perm_sorted.mem_iff
  refine ⟨rfl, b.perm_sorted.length_eq.symm ▸ hle, fun i hi => hgroups i (hmem.mp hi),
    fun i hi => hst i (hmem.mp hi), ?_⟩
  have hsorted : b.sorted.invitations.Pairwise fun left right =>
      (compare left.id.bytes.val right.id.bytes.val).isLE = true := by
    have : IsTrans Invitation fun left right =>
        (compare left.id.bytes.val right.id.bytes.val).isLE = true :=
      ⟨fun _ _ _ => Std.TransCmp.isLE_trans⟩
    have : Std.Total fun left right : Invitation =>
        (compare left.id.bytes.val right.id.bytes.val).isLE = true := by
      refine ⟨fun i j => ?_⟩
      rw [show compare j.id.bytes.val i.id.bytes.val = (compare i.id.bytes.val j.id.bytes.val).swap
        from Std.OrientedCmp.eq_swap]
      cases compare i.id.bytes.val j.id.bytes.val <;> simp
    exact List.pairwise_insertionSort _ _
  have hids : (b.sorted.invitations.map Invitation.id).Nodup :=
    (b.perm_sorted.map _).nodup_iff.mpr hnodup
  have hne : b.sorted.invitations.Pairwise fun i j => i.id ≠ j.id := List.pairwise_map.mp hids
  exact (hsorted.imp₂ (fun i j hle hne => (isLE_iff.mp hle).resolve_right hne) hne).isChain

end InvitationBook

/-! ### Messages -/

namespace InvitationBootstrap

/-- The bootstrap passes the profile's checks. -/
structure Valid (b : InvitationBootstrap) : Prop where
  sourceRoster_valid : b.sourceRoster.Valid
  invitation_valid : b.invitation.Valid
  status_eq : b.invitation.status = .pending
  groupId_eq : b.invitation.groupId = b.sourceRoster.groupId
  sourceRevision_eq : b.invitation.sourceRevision = b.sourceRoster.revision
  policyVersion_eq : b.invitation.policyVersion = b.sourceRoster.policyVersion

variable {r : Roster} {b : InvitationBootstrap}

theorem checkBinding_eq_ok_iff {i : Invitation} {u : Unit} :
    checkBinding i r = .ok u ↔ i.status = .pending ∧ i.groupId = r.groupId ∧
      i.sourceRevision = r.revision ∧ i.policyVersion = r.policyVersion := by
  rw [checkBinding, refuseIf_eq_ok]
  tauto

theorem new_eq_ok_iff {i : Invitation} (hi : i.Valid) :
    new i r = .ok b ↔ b = ⟨i, r⟩ ∧ b.Valid := by
  simp only [new, bind_eq_ok, checkBinding_eq_ok_iff, Roster.encode_eq_ok_iff, pure_eq_ok]
  constructor
  · rintro ⟨_, ⟨h₁, h₂, h₃, h₄⟩, _, ⟨hr, -⟩, rfl⟩
    exact ⟨rfl, hr, hi, h₁, h₂, h₃, h₄⟩
  · rintro ⟨rfl, h⟩
    exact ⟨(), ⟨h.status_eq, h.groupId_eq, h.sourceRevision_eq, h.policyVersion_eq⟩, _,
      ⟨h.sourceRoster_valid, rfl⟩, rfl⟩

def layout (b : InvitationBootstrap) : Bytes :=
  invitationBootstrapDomain ++ (b.invitation.id.bytes.val ++ (b.invitation.groupId.bytes.val ++
    (b.invitation.fieldsLayout ++ lpBytes b.sourceRoster.layout)))

theorem length_roster_lt (h : r.Valid) : r.layout.length < 2 ^ 32 := by
  have hle : r.encodedLen ≤ maxRosterLen := h.encodedLen_le
  simp only [maxRosterLen] at hle
  rw [r.length_layout]
  omega

theorem encode_eq_ok_iff {bytes : Bytes} :
    b.encode = .ok bytes ↔ b.Valid ∧ bytes = b.layout := by
  simp only [encode, bind_eq_ok, Roster.encode_eq_ok_iff, Invitation.validate_eq_ok_iff,
    checkBinding_eq_ok_iff, putLp16_eq_ok, putLp_eq_ok, layout, Invitation.fieldsLayout]
  constructor
  · rintro ⟨_, ⟨hr, rfl⟩, _, hi, _, ⟨h₁, h₂, h₃, h₄⟩, _, ⟨-, rfl⟩, _, ⟨-, rfl⟩, -, rfl⟩
    exact ⟨⟨hr, hi, h₁, h₂, h₃, h₄⟩, by simp only [List.append_assoc]⟩
  · rintro ⟨h, rfl⟩
    exact ⟨_, ⟨h.sourceRoster_valid, rfl⟩, (), h.invitation_valid, (),
      ⟨h.status_eq, h.groupId_eq, h.sourceRevision_eq, h.policyVersion_eq⟩, _,
      ⟨h.invitation_valid.target_valid.lt.1, rfl⟩, _, ⟨h.invitation_valid.target_valid.lt.2, rfl⟩,
      length_roster_lt h.sourceRoster_valid, by simp only [List.append_assoc]⟩

theorem decode_eq_ok_iff {bytes : Bytes} :
    decode bytes = .ok b ↔ b.Valid ∧ bytes = b.layout := by
  simp only [decode, read, run'_eq_ok, run_bind_eq_ok, run_takeExact_eq_ok,
    run_takeInvitationId_eq_ok, run_takeGroupId_eq_ok, run_takeLp16_eq_ok,
    run_takeU64_eq_ok, run_takeArray_eq_ok, run_takeU32_eq_ok,
    run_takeLp_eq_ok, run_lift_eq_ok, Roster.decode_eq_ok_iff,
    run_finish_eq_ok, Invitation.new_eq_ok_iff, layout, Invitation.fieldsLayout]
  constructor
  · rintro ⟨_, _, _, rfl, id, _, rfl, gid, _, rfl, idn, _, ⟨-, rfl⟩, dev, _, ⟨-, rfl⟩, rev, _, rfl,
      dig, _, rfl, pol, _, rfl, exp, _, rfl, _, _, ⟨-, rfl⟩, r, _, ⟨⟨hr, rfl⟩, rfl⟩, _, _,
      ⟨rfl, rfl⟩, i, _, ⟨⟨rfl, hi⟩, rfl⟩, hnew, rfl⟩
    obtain ⟨rfl, hb⟩ := (new_eq_ok_iff hi).mp hnew
    exact ⟨hb, by simp only [List.append_assoc, List.append_nil]⟩
  · rintro ⟨h, rfl⟩
    simp only [List.append_assoc]
    have hi := h.invitation_valid
    exact ⟨[], (), _, rfl, b.invitation.id, _, rfl, b.invitation.groupId, _, rfl,
      b.invitation.target.identity, _, ⟨hi.target_valid.lt.1, rfl⟩, b.invitation.target.device, _,
      ⟨hi.target_valid.lt.2, rfl⟩, b.invitation.sourceRevision, _, rfl,
      b.invitation.sourceRosterDigest, _, rfl, b.invitation.policyVersion, _, rfl,
      b.invitation.expiresAt, _, rfl, b.sourceRoster.layout, [],
      ⟨length_roster_lt h.sourceRoster_valid, (List.append_nil _).symm⟩, b.sourceRoster, [],
      ⟨⟨h.sourceRoster_valid, rfl⟩, rfl⟩, (), [], ⟨rfl, rfl⟩, b.invitation, [],
      ⟨⟨by rw [← h.status_eq], hi⟩, rfl⟩, (new_eq_ok_iff hi).mpr ⟨rfl, h⟩, rfl⟩

end InvitationBootstrap

namespace InvitationNotice

/-- The bytes of a notice under a domain. -/
def layout (domain : Bytes) (n : InvitationNotice) : Bytes :=
  domain ++ (n.groupId.bytes.val ++ (n.invitationId.bytes.val ++ (u64Bytes n.sourceRevision ++
    n.sourceRosterDigest.val)))

variable {n : InvitationNotice}

theorem new_eq_ok_iff {g : GroupId} {id : InvitationId} {revision : UInt64} {digest : Digest} :
    new g id revision digest = .ok n ↔
      revision ≠ Group.reservedRevision ∧ n = ⟨g, id, revision, digest⟩ := by
  rw [new, refuseIf_bind_eq_ok, pure_eq_ok, eq_comm (a := n)]

theorem encode_eq_ok_iff {domain bytes : Bytes} :
    n.encode domain = .ok bytes ↔
      n.sourceRevision ≠ Group.reservedRevision ∧ bytes = n.layout domain := by
  simp only [encode, bind_eq_ok, new_eq_ok_iff, pure_eq_ok, layout]
  constructor
  · rintro ⟨_, ⟨hne, rfl⟩, rfl⟩
    exact ⟨hne, by simp only [List.append_assoc]⟩
  · rintro ⟨hne, rfl⟩
    exact ⟨n, ⟨hne, rfl⟩, by simp only [List.append_assoc]⟩

theorem decode_eq_ok_iff {domain bytes : Bytes} :
    decode domain bytes = .ok n ↔
      n.sourceRevision ≠ Group.reservedRevision ∧ bytes = n.layout domain := by
  simp only [decode, read, run'_eq_ok, run_bind_eq_ok, run_takeExact_eq_ok,
    run_takeInvitationId_eq_ok, run_takeGroupId_eq_ok, run_takeU64_eq_ok,
    run_takeArray_eq_ok, run_lift_eq_ok, run_finish_eq_ok, new_eq_ok_iff,
    layout]
  constructor
  · rintro ⟨_, _, _, rfl, gid, _, rfl, id, _, rfl, rev, _, rfl, dig, _, rfl, _, _, ⟨rfl, rfl⟩,
      ⟨hne, rfl⟩, rfl⟩
    exact ⟨hne, by simp only [List.append_nil]⟩
  · rintro ⟨hne, rfl⟩
    exact ⟨[], (), _, rfl, n.groupId, _, rfl, n.invitationId, _, rfl, n.sourceRevision, _, rfl,
      n.sourceRosterDigest, [], (List.append_nil _).symm, (), [], ⟨rfl, rfl⟩, ⟨hne, rfl⟩, rfl⟩

end InvitationNotice

end Tacenta.Group
