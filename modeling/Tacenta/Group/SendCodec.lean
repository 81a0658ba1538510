import Tacenta.Group.Send

/-!
# The byte formats of the send transcript

The records of a group's sends: an intent for each logical send, then preparation, handoff and
relay acceptance records for its recipients. Encoding an intent succeeds exactly on the admitted
sends, and decoding accepts exactly the encodings, with fresh recipients.

## Main definitions

* `LogicalSend.Valid`, `LogicalSend.intentLayout`: the admitted sends and their bytes.
* `Entry`, `Entry.layout`: a record of the transcript and its bytes.

## Main results

* `LogicalSend.encodeIntent_eq_ok_iff`, `LogicalSend.decodeIntent_eq_ok_iff`.
-/

open ByteString Reader Records Result

namespace Tacenta.Group

theorem LogicalMessageId.new_eq_ok_iff {groupId : GroupId} {revision : UInt64} {sender : Member}
    {sequence : UInt64} {id : LogicalMessageId} :
    LogicalMessageId.new groupId revision sender sequence = .ok id ↔
      revision ≠ Group.reservedRevision ∧ id = ⟨groupId, revision, sender, sequence⟩ := by
  rw [LogicalMessageId.new, refuseIf_bind_eq_ok, pure_eq_ok, eq_comm (a := id)]

theorem validateRecoveryRecipients_eq_ok_iff {ms : List Member} {u : Unit} :
    validateRecoveryRecipients ms = .ok u ↔
      ms.IsChain (fun a b => a.canonicalCmp b = .lt) ∧ (ms.map Member.identity).Nodup := by
  rw [validateRecoveryRecipients, checkMembers_eq_ok_iff (P := fun _ => True)
    fun _ _ => iff_of_true rfl trivial]
  simp

namespace LogicalSend

/-! ### Intents -/

/-- The members a send goes to. -/
def members (s : LogicalSend) : List Member := s.recipients.map RecipientProgress.recipient

/-- The send's intent passes the profile's checks. -/
structure Valid (s : LogicalSend) : Prop where
  sender_valid : s.id.sender.Valid
  payload_le : s.payload.length ≤ maxPayloadLen
  members_ne : s.members ≠ []
  members_le : s.members.length ≤ maxMembers
  members_valid : ∀ m ∈ s.members, m.Valid
  sorted : s.members.IsChain fun a b => a.canonicalCmp b = .lt
  identities_nodup : (s.members.map Member.identity).Nodup
  revision_ne : s.id.revision ≠ Group.reservedRevision

/-- Nothing has happened to any recipient. -/
def Fresh (s : LogicalSend) : Prop := s.recipients = s.members.map RecipientProgress.fresh

variable {s : LogicalSend} {b : Bytes}

theorem validateIntent_eq_ok_iff {u : Unit} :
    s.validateIntent = .ok u ↔ s.Valid := by
  simp only [validateIntent, bind_eq_ok, refuseIf_eq_ok, Member.validate_eq_ok_iff,
    forM_eq_ok_iff, validateRecoveryRecipients_eq_ok_iff, exists_const, not_lt,
    List.isEmpty_iff]
  constructor
  · rintro ⟨h₁, h₂, h₃, h₄, h₅, ⟨h₆, h₇⟩, h₈⟩
    exact ⟨h₁, h₂, fun h => h₃ (List.map_eq_nil_iff.mp h), by rwa [members, List.length_map],
      List.forall_mem_map.mpr h₅, h₆, h₇, h₈⟩
  · intro h
    refine ⟨h.sender_valid, h.payload_le, fun hnil => h.members_ne (by rw [members, hnil]; rfl),
      ?_, List.forall_mem_map.mp h.members_valid, ⟨h.sorted, h.identities_nodup⟩, h.revision_ne⟩
    simpa only [members, List.length_map] using h.members_le

def intentLayout (s : LogicalSend) : Bytes :=
  logicalSendDomain ++ (lpBytes s.id.groupId.bytes.val ++ (u64Bytes s.id.revision ++
    (s.id.sender.layout ++ (u64Bytes s.id.sequence ++ (lpBytes s.rosterDigest.val ++
      (lpBytes s.payload ++ (u32Bytes s.members.length.toUInt32 ++
        s.members.flatMap Member.layout)))))))

theorem Valid.length_intentLayout_lt (h : s.Valid) :
    s.intentLayout.length < 2 ^ 32 := by
  have hdom : logicalSendDomain.length = 29 := by decide
  have hsender := h.sender_valid.memberLen_le
  have hpayload : s.payload.length ≤ 1024 := h.payload_le
  have hcount : s.members.length ≤ 8 := h.members_le
  have hms : (s.members.flatMap Member.layout).length ≤ 328 * s.members.length :=
    length_flatMap_le fun m hm => by
      rw [Member.length_layout]
      exact (h.members_valid m hm).memberLen_le
  simp only [intentLayout, List.length_append, length_lpBytes, length_u64Bytes, length_u32Bytes,
    Member.length_layout, FixedBytes.length_val, hdom, groupIdLen, digestLen]
  omega

theorem encodeIntent_eq_ok_iff :
    s.encodeIntent = .ok b ↔ s.Valid ∧ b = s.intentLayout := by
  have hiff : s.encodeIntent = .ok b ↔ s.Valid ∧ ∃ out, putMember (logicalSendDomain ++
      lpBytes s.id.groupId.bytes.val ++ u64Bytes s.id.revision) s.id.sender = .ok out ∧
        s.payload.length < 2 ^ 32 ∧ s.recipients.length < 2 ^ 32 ∧
          s.members.foldlM putMember (out ++ u64Bytes s.id.sequence ++ lpBytes s.rosterDigest.val ++
            lpBytes s.payload ++ u32Bytes s.recipients.length.toUInt32) = .ok b := by
    simp only [encodeIntent, bind_eq_ok, validateIntent_eq_ok_iff, putLp_eq_ok, putU32_eq_ok,
      FixedBytes.length_val, groupIdLen, digestLen]
    constructor
    · rintro ⟨_, hv, _, ⟨-, rfl⟩, out, ho, _, ⟨-, rfl⟩, _, ⟨hp, rfl⟩, _, ⟨hn, rfl⟩, hf⟩
      exact ⟨hv, out, ho, hp, hn, hf⟩
    · rintro ⟨hv, out, ho, hp, hn, hf⟩
      exact ⟨(), hv, _, ⟨by omega, rfl⟩, out, ho, _, ⟨by omega, rfl⟩, _, ⟨hp, rfl⟩, _, ⟨hn, rfl⟩,
        hf⟩
  rw [hiff]
  refine and_congr_right fun hv => ?_
  have hlen : s.recipients.length = s.members.length := by rw [members, List.length_map]
  have hn : s.members.length ≤ 8 := hv.members_le
  have hp : s.payload.length ≤ 1024 := hv.payload_le
  simp only [putMember_of_valid hv.sender_valid, Except.ok.injEq, exists_eq_left',
    foldlM_append fun m hm => putMember_of_valid (hv.members_valid m hm), hlen]
  simp only [intentLayout, List.append_assoc]
  exact ⟨fun h => h.2.2.symm, fun h => ⟨by omega, by omega, h.symm⟩⟩

private theorem fresh_mk (id : LogicalMessageId) (rosterDigest : Digest) (payload : Bytes)
    (ms : List Member) :
    (LogicalSend.mk id rosterDigest payload (ms.map RecipientProgress.fresh)).members = ms := by
  rw [members, List.map_map]
  exact List.map_id' ms

theorem fresh_of_new {roster : Roster} {digest : Digest} {sender : Member} {sequence : UInt64}
    {recipients : List Member} {payload : Bytes}
    (h : new roster digest sender sequence recipients payload = .ok s) : s.Fresh := by
  simp only [new, bind_eq_ok] at h
  obtain ⟨_, -, _, -, _, -, _, -, _, -, _, -, id, -, h⟩ := h
  cases h
  rw [Fresh, fresh_mk]

theorem run_readIntent_eq_ok {rest : Bytes} :
    readIntent.run b = .ok (s, rest) ↔ s.Valid ∧ s.Fresh ∧ b = s.intentLayout ∧ rest = [] := by
  simp only [readIntent, run_bind_eq_ok, run_takeExact_eq_ok, run_takeLp_eq_ok,
    run_lift_eq_ok, tryFrom_eq_ok, run_takeU64_eq_ok, Reader.exactly_eq_ok,
    run_takeMember_eq_ok, run_takeU32_eq_ok, refuseIf_eq_ok,
    run_many_eq_ok fun _ _ _ => run_takeMember_eq_ok, run_finish_eq_ok,
    validateRecoveryRecipients_eq_ok_iff, LogicalMessageId.new_eq_ok_iff, run_pure_eq_ok]
  constructor
  · rintro ⟨_, _, rfl, _, _, ⟨-, rfl⟩, gid, _, ⟨rfl, rfl⟩, rev, _, rfl, snd, _, ⟨hsnd, rfl⟩, sq, _,
      rfl, _, _, ⟨-, rfl⟩, dig, _, ⟨rfl, rfl⟩, pay, _, ⟨-, rfl⟩, _, _, ⟨hpay, rfl⟩, count, _, rfl,
      _, _, ⟨hcount, rfl⟩, _, _, ⟨hmax, rfl⟩, ms, _, ⟨hlen, hms, rfl⟩, _, _, ⟨rfl, rfl⟩, _, _,
      ⟨⟨hsorted, hnodup⟩, rfl⟩, id, _, ⟨⟨hrev, rfl⟩, rfl⟩, rfl, rfl⟩
    have hne : ms ≠ [] := by
      rintro rfl
      exact hcount (UInt32.toNat_inj.mp hlen.symm)
    refine ⟨⟨hsnd, not_lt.mp hpay, ?_, ?_, ?_, ?_, ?_, hrev⟩, ?_, ?_, rfl⟩
    all_goals simp only [Fresh, intentLayout, fresh_mk]
    · exact hne
    · exact hlen ▸ not_lt.mp hmax
    · exact hms
    · exact hsorted
    · exact hnodup
    · simp only [hlen, Nat.toUInt32, UInt32.ofNat_toNat, List.append_nil]
  · rintro ⟨hv, hfresh, rfl, rfl⟩
    have hpay : s.payload.length ≤ 1024 := hv.payload_le
    have hn : s.members.length ≤ 8 := hv.members_le
    have hcount : s.members.length.toUInt32.toNat = s.members.length := by
      rw [toNat_toUInt32_of_lt (by omega)]
    refine ⟨(), _, rfl, s.id.groupId.bytes.val, _, ⟨?_, rfl⟩, s.id.groupId, _, ⟨rfl, rfl⟩,
      s.id.revision, _, rfl, s.id.sender, _, ⟨hv.sender_valid, rfl⟩, s.id.sequence, _, rfl,
      s.rosterDigest.val, _, ⟨?_, rfl⟩, s.rosterDigest, _, ⟨rfl, rfl⟩, s.payload, _,
      ⟨by omega, rfl⟩, (), _, ⟨not_lt.mpr hv.payload_le, rfl⟩, s.members.length.toUInt32, _, rfl,
      (), _, ⟨?_, rfl⟩, (), _, ⟨?_, rfl⟩, s.members, [],
      ⟨hcount.symm, hv.members_valid, (List.append_nil _).symm⟩, (), [], ⟨rfl, rfl⟩, (), [],
      ⟨⟨hv.sorted, hv.identities_nodup⟩, rfl⟩, s.id, [], ⟨⟨hv.revision_ne, rfl⟩, rfl⟩, ?_, rfl⟩
    · rw [FixedBytes.length_val]
      decide
    · rw [FixedBytes.length_val]
      decide
    · intro h
      rw [h] at hcount
      exact hv.members_ne (List.length_eq_zero_iff.mp hcount.symm)
    · rw [hcount]
      exact not_lt.mpr hv.members_le
    · rw [← hfresh]

/-- Decoding accepts exactly the intents of admitted sends, with fresh recipients. -/
theorem decodeIntent_eq_ok_iff :
    decodeIntent b = .ok s ↔ s.Valid ∧ s.Fresh ∧ b = s.intentLayout := by
  rw [decodeIntent, run'_eq_ok]
  simp only [run_readIntent_eq_ok]
  exact ⟨fun ⟨_, hv, hf, hb, _⟩ => ⟨hv, hf, hb⟩, fun ⟨hv, hf, hb⟩ => ⟨[], hv, hf, hb, rfl⟩⟩

end LogicalSend

theorem decodeIntentRecord_lpBytes {s : LogicalSend} (hv : s.Valid) (hf : s.Fresh) :
    decodeIntentRecord (lpBytes s.intentLayout) = .ok s := by
  simp only [decodeIntentRecord, bind_eq_ok, run'_eq_ok, run_bind_eq_ok,
    run_takeU32_eq_ok, run_takeRest_eq_ok, run_refuseIf_eq_ok,
    run_pure_eq_ok, not_not]
  refine ⟨s.intentLayout, ⟨[], _, s.intentLayout, rfl, s.intentLayout, [], ⟨rfl, rfl⟩, (), [],
    ⟨?_, rfl⟩, rfl, rfl⟩, LogicalSend.decodeIntent_eq_ok_iff.mpr ⟨hv, hf, rfl⟩⟩
  rw [toNat_toUInt32_of_lt hv.length_intentLayout_lt]

theorem decodeProgressRecord_eq_ok_iff {b : Bytes} {record : ProgressRecord} :
    decodeProgressRecord b = .ok record ↔ record.context.Valid ∧ record.ciphertext.length < 2 ^ 32 ∧
      b = lpBytes record.context.layout ++ (record.commitment.val ++ (lpBytes record.ciphertext ++
        record.rest)) := by
  simp only [decodeProgressRecord, readProgressRecord, run'_eq_ok, run_bind_eq_ok,
    run_takeLp_eq_ok, run_lift_eq_ok, ApplicationContext.decode_eq_ok_iff,
    run_takeArray_eq_ok, run_takeRest_eq_ok, run_pure_eq_ok]
  constructor
  · rintro ⟨_, _, _, ⟨-, rfl⟩, ctx, _, ⟨⟨hv, rfl⟩, rfl⟩, com, _, rfl, ct, _, ⟨hct, rfl⟩, rest, _,
      ⟨rfl, rfl⟩, rfl, rfl⟩
    exact ⟨hv, hct, rfl⟩
  · rintro ⟨hv, hct, rfl⟩
    have hlen : record.context.layout.length ≤ 2048 :=
      record.context.length_layout ▸ hv.encodedLen_le
    exact ⟨[], record.context.layout, _, ⟨by omega, rfl⟩, record.context, _, ⟨⟨hv, rfl⟩, rfl⟩,
      record.commitment, _, rfl, record.ciphertext, _, ⟨hct, rfl⟩, record.rest, [], ⟨rfl, rfl⟩, rfl,
      rfl⟩

/-! ### Records of the transcript -/

/-- What a progress record is about. -/
inductive ProgressKind where
  | prepared
  | handoff (attempts : UInt8) (final : Bool)
  | accepted
  deriving DecidableEq

namespace ProgressKind

/-- The tag of the record. -/
def tag : ProgressKind → Bytes
  | prepared => ascii "TCGP"
  | handoff _ _ => ascii "TCGH"
  | accepted => ascii "TCGA"

/-- What follows the ciphertext. -/
def suffix : ProgressKind → Bytes
  | handoff attempts final => [attempts, if final then 1 else 0]
  | _ => []

/-- The disposition that a handoff record states. -/
def disposition (final : Bool) : RecipientDisposition :=
  if final then .exhaustedUnknown else .handedOff

end ProgressKind

/-- A record of the transcript. -/
inductive Entry where
  | intent (send : LogicalSend)
  | progress (kind : ProgressKind) (context : ApplicationContext) (commitment : Digest)
      (ciphertext : Bytes)
  deriving DecidableEq

namespace Entry

/-- The logical send that the record belongs to. -/
def id : Entry → LogicalMessageId
  | intent send => send.id
  | progress _ context _ _ =>
    ⟨context.groupId, context.revision, context.sender, context.logicalSequence⟩

/-- The record can be written and read. -/
def Valid : Entry → Prop
  | intent send => send.Valid ∧ send.Fresh
  | progress _ context _ ciphertext => context.Valid ∧ ciphertext.length < 2 ^ 32

/-- The bytes of a record. -/
def layout : Entry → Bytes
  | intent send => ascii "TCGI" ++ lpBytes send.intentLayout
  | progress kind context commitment ciphertext =>
    kind.tag ++ (lpBytes context.layout ++ (commitment.val ++ (lpBytes ciphertext ++ kind.suffix)))

/-- What a progress record does to its send. -/
def stepProgress (kind : ProgressKind) (context : ApplicationContext) (commitment : Digest)
    (ciphertext : Bytes) (send : LogicalSend) : Except Error (LogicalSend × Unit) := do
  let (send, ()) ← GroupOutbox.replayPreparation ⟨context, commitment, ciphertext, kind.suffix⟩
    (kind = .accepted) send
  match kind with
  | .prepared => pure (send, ())
  | .handoff attempts final =>
    GroupOutbox.replayReservation context.recipient attempts (ProgressKind.disposition final) send
  | .accepted =>
    let (send, _) ← discarding (send.recordRelayAccepted context.recipient)
    pure (send, ())

/-- What a record does to the outbox of its group. -/
def replay (appliedRevision : Option UInt64) (payloadCommitment : Bytes → Digest)
    (o : GroupOutbox) : Entry → Except Error GroupOutbox
  | intent send => do
    let (o, disposition) ← o.insert send appliedRevision
    refuseIf (disposition ≠ .inserted) .conflict
    pure o
  | progress kind context commitment ciphertext => do
    refuseIf (commitment ≠ payloadCommitment context.layout) .conflict
    let (o, ()) ← o.sendMut (progress kind context commitment ciphertext).id
      (stepProgress kind context commitment ciphertext)
    pure o

end Entry

end Tacenta.Group
