import Tacenta.Group.Values

/-!
# The byte formats of rosters and contexts

What the profile's checks admit, as predicates, and the two byte formats as functions of the
value. Encoding succeeds exactly on the admitted values and writes their layout; decoding accepts
exactly the layouts of admitted values. Both formats are therefore lossless and canonical.

## Main definitions

* `Member.Valid`, `Roster.Valid`, `ApplicationContext.Valid`: the admitted values.
* `Roster.layout`, `ApplicationContext.layout`: the bytes of a value.

## Main results

* `Roster.encode_eq_ok_iff`, `Roster.decode_eq_ok_iff`.
* `ApplicationContext.encode_eq_ok_iff`, `ApplicationContext.decode_eq_ok_iff`.
* `Roster.layout_injective`: a roster is determined by its bytes.
-/

open ByteString Reader Result

namespace Tacenta.Group

/-! ### Byte-level helpers -/

theorem tryFrom_eq_ok {b : Bytes} {g : GroupId} : GroupId.tryFrom b = .ok g ↔ b = g.bytes.val := by
  rw [GroupId.tryFrom, map_eq_ok]
  constructor
  · rintro ⟨x, hx, rfl⟩
    exact Reader.exactly_eq_ok.mp hx
  · intro h
    exact ⟨g.bytes, Reader.exactly_eq_ok.mpr h, rfl⟩

theorem putU32_eq_ok {out b : Bytes} {n : Nat} :
    putU32 out n = .ok b ↔ n < 2 ^ 32 ∧ b = out ++ u32Bytes n.toUInt32 := by
  rw [putU32, refuseIf_bind_eq_ok, pure_eq_ok, not_le, eq_comm (a := b)]

theorem putLp_eq_ok {out value b : Bytes} :
    putLp out value = .ok b ↔ value.length < 2 ^ 32 ∧ b = out ++ lpBytes value := by
  simp only [putLp, bind_eq_ok, putU32_eq_ok, pure_eq_ok, lpBytes]
  constructor
  · rintro ⟨_, ⟨hlen, rfl⟩, rfl⟩
    exact ⟨hlen, List.append_assoc _ _ _⟩
  · rintro ⟨hlen, rfl⟩
    exact ⟨_, ⟨hlen, rfl⟩, List.append_assoc _ _ _⟩

/-! ### Members -/

namespace Member

/-- The member is within the profile's bounds. -/
structure Valid (m : Member) : Prop where
  identity_le : m.identity.length ≤ maxIdentityLen
  device_le : m.device.length ≤ maxDeviceLen

theorem validate_eq_ok_iff {m : Member} {u : Unit} : m.validate = .ok u ↔ m.Valid := by
  rw [validate, refuseIf_bind_eq_ok, refuseIf_eq_ok, not_lt, not_lt]
  exact ⟨fun h => ⟨h.1, h.2⟩, fun h => ⟨h.1, h.2⟩⟩

instance (m : Member) : Decidable m.Valid :=
  decidable_of_iff (m.identity.length ≤ maxIdentityLen ∧ m.device.length ≤ maxDeviceLen)
    ⟨fun h => ⟨h.1, h.2⟩, fun h => ⟨h.1, h.2⟩⟩

def layout (m : Member) : Bytes := lpBytes m.identity ++ lpBytes m.device

@[simp] theorem length_layout (m : Member) : m.layout.length = memberLen m := by
  rw [layout, List.length_append, length_lpBytes, length_lpBytes]
  rfl

theorem Valid.memberLen_le {m : Member} (h : m.Valid) : memberLen m ≤ 328 := by
  have h₁ : m.identity.length ≤ 256 := h.identity_le
  have h₂ : m.device.length ≤ 64 := h.device_le
  simp only [memberLen, lpLen]
  omega

end Member

theorem putMember_of_valid {m : Member} (h : m.Valid) (out : Bytes) :
    putMember out m = .ok (out ++ m.layout) := by
  have h₁ : m.identity.length ≤ 256 := h.identity_le
  have h₂ : m.device.length ≤ 64 := h.device_le
  simp only [putMember, bind_eq_ok, putLp_eq_ok]
  exact ⟨_, ⟨by omega, rfl⟩, by omega, by rw [Member.layout, List.append_assoc]⟩

theorem run_takeMember_eq_ok {s rest : Bytes} {m : Member} :
    takeMember.run s = .ok (m, rest) ↔ m.Valid ∧ s = m.layout ++ rest := by
  simp only [takeMember, run_bind_eq_ok, run_takeLp_eq_ok, run_lift_eq_ok,
    run_pure_eq_ok, Member.validate_eq_ok_iff]
  constructor
  · rintro ⟨identity, _, ⟨-, rfl⟩, device, _, ⟨-, rfl⟩, _, _, ⟨hv, rfl⟩, rfl, rfl⟩
    exact ⟨hv, (List.append_assoc _ _ _).symm⟩
  · rintro ⟨hv, rfl⟩
    have h₁ : m.identity.length ≤ 256 := hv.identity_le
    have h₂ : m.device.length ≤ 64 := hv.device_le
    exact ⟨m.identity, _, ⟨by omega, List.append_assoc _ _ _⟩, m.device, rest,
      ⟨by omega, rfl⟩, (), rest, ⟨hv, rfl⟩, rfl, rfl⟩

/-- The loop accepts exactly the lists of checked members in canonical order with distinct
identities. -/
theorem checkMembers_eq_ok_iff {check : Member → Except Error Unit} {P : Member → Prop}
    (hcheck : ∀ m u, check m = .ok u ↔ P m) {previous : Option Member} {identities : List Bytes}
    {ms : List Member} {u : Unit} :
    checkMembers check previous identities ms = .ok u ↔
      (∀ m ∈ ms, P m) ∧
      (previous.toList ++ ms).IsChain (fun a b => a.canonicalCmp b = .lt) ∧
      (ms.map Member.identity).Nodup ∧ ∀ m ∈ ms, m.identity ∉ identities := by
  induction ms generalizing previous identities with
  | nil => cases previous <;> simp [checkMembers, pure, Except.pure]
  | cons m ms ih =>
    have hbind : checkMembers check previous identities (m :: ms) = .ok u ↔
        P m ∧ (∀ p ∈ previous, p.canonicalCmp m = .lt) ∧ m.identity ∉ identities ∧
          checkMembers check (some m) (m.identity :: identities) ms = .ok u := by
      simp only [checkMembers, bind_eq_ok, hcheck, refuseIf_eq_ok]
      cases previous <;> simp
    rw [hbind, ih]
    cases previous <;> simp [List.isChain_cons_cons] <;> grind

/-! ### Rosters -/

namespace Roster

/-- The roster passes the profile's checks. -/
structure Valid (r : Roster) : Prop where
  revision_ne : r.revision ≠ Group.reservedRevision
  policyVersion_eq : r.policyVersion = policyVersionV1
  genesis : r.revision = 0 → r.predecessorDigest = FixedBytes.replicate digestLen 0 ∧
    r.closed = false ∧ r.members = [r.authority]
  members_le : r.members.length ≤ maxMembers
  authority_valid : r.authority.Valid
  members_valid : ∀ m ∈ r.members, m.Valid
  sorted : r.members.IsChain fun a b => a.canonicalCmp b = .lt
  identities_nodup : (r.members.map Member.identity).Nodup
  encodedLen_le : r.encodedLen ≤ maxRosterLen

theorem validate_eq_ok_iff {r : Roster} {u : Unit} : r.validate = .ok u ↔ r.Valid := by
  simp only [validate, bind_eq_ok, refuseIf_eq_ok, Member.validate_eq_ok_iff,
    checkMembers_eq_ok_iff fun _ _ => Member.validate_eq_ok_iff]
  constructor
  · rintro ⟨_, h₁, _, h₂, _, h₃, _, h₄, _, h₅, _, ⟨h₆, h₇, h₈, -⟩, h₉⟩
    refine ⟨h₁, not_not.mp h₂, fun h0 => ?_, not_lt.mp h₄, h₅, h₆, by simpa using h₇, h₈,
      not_lt.mp h₉⟩
    simpa [h0] using h₃
  · intro h
    refine ⟨(), h.revision_ne, (), not_not.mpr h.policyVersion_eq, (), ?_, (),
      not_lt.mpr h.members_le, (), h.authority_valid, (),
      ⟨h.members_valid, by simpa using h.sorted, h.identities_nodup, by simp⟩,
      not_lt.mpr h.encodedLen_le⟩
    rintro ⟨h0, hbad⟩
    obtain ⟨hd, hc, hm⟩ := h.genesis h0
    simp [hd, hc, hm] at hbad

instance (r : Roster) : Decidable r.Valid :=
  decidable_of_iff (r.validate = .ok ()) validate_eq_ok_iff

theorem new_eq_ok_iff {groupId : GroupId} {revision : UInt64} {digest : Digest}
    {authority : Member} {policyVersion : UInt32} {closed : Bool} {members : List Member}
    {r : Roster} :
    new groupId revision digest authority policyVersion closed members = .ok r ↔
      r = ⟨groupId, revision, digest, authority, policyVersion, closed, members⟩ ∧ r.Valid := by
  simp only [new, bind_eq_ok, validate_eq_ok_iff, pure_eq_ok]
  constructor
  · rintro ⟨_, hv, rfl⟩
    exact ⟨rfl, hv⟩
  · rintro ⟨rfl, hv⟩
    exact ⟨(), hv, rfl⟩

def layout (r : Roster) : Bytes :=
  rosterDomain ++ (lpBytes r.groupId.bytes.val ++ (u64Bytes r.revision ++
    (lpBytes r.predecessorDigest.val ++
      (r.authority.layout ++ (u32Bytes r.policyVersion ++ (r.closed.toUInt8 ::
      (u32Bytes r.members.length.toUInt32 ++ r.members.flatMap Member.layout)))))))

theorem length_layout (r : Roster) : r.layout.length = r.encodedLen := by
  have hms : (r.members.flatMap Member.layout).length = (r.members.map memberLen).sum := by
    rw [List.length_flatMap]
    simp only [Member.length_layout]
  simp only [layout, encodedLen, List.length_append, List.length_cons, length_lpBytes,
    length_u64Bytes, length_u32Bytes, Member.length_layout, hms, FixedBytes.length_val, lpLen]
  omega

theorem encode_eq_ok_iff {r : Roster} {b : Bytes} : r.encode = .ok b ↔ r.Valid ∧ b = r.layout := by
  have hiff : r.encode = .ok b ↔ r.Valid ∧ ∃ out, putMember (rosterDomain ++
      lpBytes r.groupId.bytes.val ++ u64Bytes r.revision ++ lpBytes r.predecessorDigest.val)
        r.authority = .ok out ∧ r.members.foldlM putMember (out ++ u32Bytes r.policyVersion ++
          [r.closed.toUInt8] ++ u32Bytes r.members.length.toUInt32) = .ok b ∧
            r.members.length < 2 ^ 32 := by
    simp only [encode, bind_eq_ok, validate_eq_ok_iff, putLp_eq_ok, putU32_eq_ok,
      FixedBytes.length_val, groupIdLen, digestLen]
    constructor
    · rintro ⟨_, hv, _, ⟨-, rfl⟩, _, ⟨-, rfl⟩, out, ho, _, ⟨hn, rfl⟩, hf⟩
      exact ⟨hv, out, ho, hf, hn⟩
    · rintro ⟨hv, out, ho, hf, hn⟩
      exact ⟨(), hv, _, ⟨by omega, rfl⟩, _, ⟨by omega, rfl⟩, out, ho, _, ⟨hn, rfl⟩, hf⟩
  rw [hiff]
  refine and_congr_right fun hv => ?_
  have hn : r.members.length ≤ 8 := hv.members_le
  simp only [putMember_of_valid hv.authority_valid, Except.ok.injEq, exists_eq_left',
    foldlM_append fun m hm => putMember_of_valid (hv.members_valid m hm)]
  simp only [layout, List.append_assoc, List.cons_append]
  exact ⟨fun h => h.1.symm, fun h => ⟨h.symm, by omega⟩⟩

theorem encode_of_valid {r : Roster} (h : r.Valid) : r.encode = .ok r.layout :=
  encode_eq_ok_iff.mpr ⟨h, rfl⟩

theorem run_takeClosed_eq_ok {s rest : Bytes} {c : Bool} :
    takeClosed.run s = .ok (c, rest) ↔ s = c.toUInt8 :: rest := by
  simp only [takeClosed, run_bind_eq_ok, run_takeByte_eq_ok]
  constructor
  · rintro ⟨byte, s', rfl, h⟩
    split at h
    · obtain ⟨rfl, rfl⟩ := run_pure_eq_ok.mp h
      rfl
    · obtain ⟨rfl, rfl⟩ := run_pure_eq_ok.mp h
      rfl
    · exact nomatch h
  · rintro rfl
    refine ⟨c.toUInt8, rest, rfl, ?_⟩
    cases c <;> rfl

theorem run_read_eq_ok {s rest : Bytes} {r : Roster} :
    read.run s = .ok (r, rest) ↔ r.Valid ∧ s = r.layout ∧ rest = [] := by
  simp only [read, run_bind_eq_ok, run_takeExact_eq_ok, run_takeLp_eq_ok,
    run_lift_eq_ok, tryFrom_eq_ok, run_takeU64_eq_ok, Reader.exactly_eq_ok,
    run_takeMember_eq_ok, run_takeU32_eq_ok, run_takeClosed_eq_ok, refuseIf_eq_ok,
    run_many_eq_ok fun _ _ _ => run_takeMember_eq_ok, run_finish_eq_ok,
    new_eq_ok_iff]
  constructor
  · rintro ⟨_, _, rfl, _, _, ⟨-, rfl⟩, gid, _, ⟨rfl, rfl⟩, rev, _, rfl, _, _, ⟨-, rfl⟩, dig, _,
      ⟨rfl, rfl⟩, auth, _, ⟨-, rfl⟩, pol, _, rfl, closed, _, rfl, count, _, rfl, _, _, ⟨-, rfl⟩,
      ms, _, ⟨hlen, -, rfl⟩, _, _, ⟨rfl, rfl⟩, ⟨rfl, hv⟩, rfl⟩
    refine ⟨hv, ?_, rfl⟩
    simp only [layout, hlen, Nat.toUInt32, UInt32.ofNat_toNat, List.append_nil]
  · rintro ⟨hv, rfl, rfl⟩
    have hn : r.members.length ≤ 8 := hv.members_le
    have hcount : r.members.length.toUInt32.toNat = r.members.length := by
      rw [toNat_toUInt32_of_lt (by omega)]
    refine ⟨(), _, rfl, r.groupId.bytes.val, _, ⟨?_, rfl⟩, r.groupId, _, ⟨rfl, rfl⟩, r.revision, _,
      rfl, r.predecessorDigest.val, _, ⟨?_, rfl⟩, r.predecessorDigest, _, ⟨rfl, rfl⟩, r.authority,
      _, ⟨hv.authority_valid, rfl⟩, r.policyVersion, _, rfl, r.closed, _, rfl,
      r.members.length.toUInt32, _, rfl, (), _, ⟨?_, rfl⟩, r.members, [],
      ⟨hcount.symm, hv.members_valid, (List.append_nil _).symm⟩, (), [], ⟨rfl, rfl⟩, ⟨rfl, hv⟩, rfl⟩
    · rw [FixedBytes.length_val]
      decide
    · rw [FixedBytes.length_val]
      decide
    · rw [hcount]
      exact not_lt.mpr hv.members_le

theorem decode_eq_ok_iff {b : Bytes} {r : Roster} : decode b = .ok r ↔ r.Valid ∧ b = r.layout := by
  rw [decode, refuseIf_bind_eq_ok, run'_eq_ok]
  simp only [run_read_eq_ok]
  constructor
  · rintro ⟨-, _, hv, rfl, -⟩
    exact ⟨hv, rfl⟩
  · rintro ⟨hv, rfl⟩
    refine ⟨?_, [], hv, rfl, rfl⟩
    rw [length_layout]
    exact not_lt.mpr hv.encodedLen_le

/-- A roster that passes the checks is determined by its bytes. -/
theorem layout_injective {r₁ r₂ : Roster} (h₁ : r₁.Valid) (h₂ : r₂.Valid)
    (h : r₁.layout = r₂.layout) : r₁ = r₂ := by
  have hd₁ := decode_eq_ok_iff.mpr ⟨h₁, rfl⟩
  have hd₂ := decode_eq_ok_iff.mpr ⟨h₂, h⟩
  exact Except.ok.inj (hd₁.symm.trans hd₂)

end Roster

/-! ### Application contexts -/

namespace ApplicationContext

/-- The context passes the profile's checks. -/
structure Valid (c : ApplicationContext) : Prop where
  revision_ne : c.revision ≠ Group.reservedRevision
  payload_le : c.payload.length ≤ maxPayloadLen
  sender_valid : c.sender.Valid
  recipient_valid : c.recipient.Valid
  encodedLen_le : c.encodedLen ≤ maxApplicationContextLen

theorem validate_eq_ok_iff {c : ApplicationContext} {u : Unit} :
    c.validate = .ok u ↔ c.Valid := by
  simp only [validate, bind_eq_ok, refuseIf_eq_ok, Member.validate_eq_ok_iff]
  constructor
  · rintro ⟨_, h₁, _, h₂, _, h₃, _, h₄, h₅⟩
    exact ⟨h₁, not_lt.mp h₂, h₃, h₄, not_lt.mp h₅⟩
  · intro h
    exact ⟨(), h.revision_ne, (), not_lt.mpr h.payload_le, (), h.sender_valid, (),
      h.recipient_valid, not_lt.mpr h.encodedLen_le⟩

instance (c : ApplicationContext) : Decidable c.Valid :=
  decidable_of_iff (c.validate = .ok ()) validate_eq_ok_iff

theorem new_eq_ok_iff {groupId : GroupId} {revision : UInt64} {digest : Digest}
    {sender recipient : Member} {sequence : UInt64} {payload : Bytes} {c : ApplicationContext} :
    new groupId revision digest sender recipient sequence payload = .ok c ↔
      c = ⟨groupId, revision, digest, sender, recipient, sequence, payload⟩ ∧ c.Valid := by
  simp only [new, bind_eq_ok, validate_eq_ok_iff, pure_eq_ok]
  constructor
  · rintro ⟨_, hv, rfl⟩
    exact ⟨rfl, hv⟩
  · rintro ⟨rfl, hv⟩
    exact ⟨(), hv, rfl⟩

def layout (c : ApplicationContext) : Bytes :=
  applicationDomain ++ (lpBytes c.groupId.bytes.val ++ (u64Bytes c.revision ++
    (lpBytes c.rosterDigest.val ++ (c.sender.layout ++ (c.recipient.layout ++
      (u64Bytes c.logicalSequence ++ lpBytes c.payload))))))

theorem length_layout (c : ApplicationContext) : c.layout.length = c.encodedLen := by
  simp only [layout, encodedLen, List.length_append, length_lpBytes, length_u64Bytes,
    Member.length_layout, FixedBytes.length_val, lpLen]
  omega

theorem encode_eq_ok_iff {c : ApplicationContext} {b : Bytes} :
    c.encode = .ok b ↔ c.Valid ∧ b = c.layout := by
  have hiff : c.encode = .ok b ↔ c.Valid ∧ ∃ out, putMember (applicationDomain ++
      lpBytes c.groupId.bytes.val ++ u64Bytes c.revision ++ lpBytes c.rosterDigest.val) c.sender
        = .ok out ∧ ∃ out', putMember out c.recipient = .ok out' ∧ c.payload.length < 2 ^ 32 ∧
          b = out' ++ u64Bytes c.logicalSequence ++ lpBytes c.payload := by
    simp only [encode, bind_eq_ok, validate_eq_ok_iff, putLp_eq_ok, FixedBytes.length_val,
      groupIdLen, digestLen]
    constructor
    · rintro ⟨_, hv, _, ⟨-, rfl⟩, _, ⟨-, rfl⟩, out, ho, out', ho', hlen, rfl⟩
      exact ⟨hv, out, ho, out', ho', hlen, rfl⟩
    · rintro ⟨hv, out, ho, out', ho', hlen, rfl⟩
      exact ⟨(), hv, _, ⟨by omega, rfl⟩, _, ⟨by omega, rfl⟩, out, ho, out', ho', hlen, rfl⟩
  rw [hiff]
  refine and_congr_right fun hv => ?_
  have hlen : c.payload.length ≤ 1024 := hv.payload_le
  simp only [putMember_of_valid hv.sender_valid, putMember_of_valid hv.recipient_valid,
    Except.ok.injEq, exists_eq_left', layout, List.append_assoc]
  exact ⟨fun h => h.2, fun h => ⟨by omega, h⟩⟩

theorem encode_of_valid {c : ApplicationContext} (h : c.Valid) : c.encode = .ok c.layout :=
  encode_eq_ok_iff.mpr ⟨h, rfl⟩

theorem run_read_eq_ok {s rest : Bytes} {c : ApplicationContext} :
    read.run s = .ok (c, rest) ↔ c.Valid ∧ s = c.layout ∧ rest = [] := by
  simp only [read, run_bind_eq_ok, run_takeExact_eq_ok, run_takeLp_eq_ok,
    run_lift_eq_ok, tryFrom_eq_ok, run_takeU64_eq_ok, Reader.exactly_eq_ok,
    run_takeMember_eq_ok, run_finish_eq_ok, new_eq_ok_iff]
  constructor
  · rintro ⟨_, _, rfl, _, _, ⟨-, rfl⟩, gid, _, ⟨rfl, rfl⟩, rev, _, rfl, _, _, ⟨-, rfl⟩, dig, _,
      ⟨rfl, rfl⟩, snd, _, ⟨-, rfl⟩, rcp, _, ⟨-, rfl⟩, sq, _, rfl, pay, _, ⟨-, rfl⟩, _, _,
      ⟨rfl, rfl⟩, ⟨rfl, hv⟩, rfl⟩
    exact ⟨hv, by simp only [layout, List.append_nil], rfl⟩
  · rintro ⟨hv, rfl, rfl⟩
    have hlen : c.payload.length ≤ 1024 := hv.payload_le
    refine ⟨(), _, rfl, c.groupId.bytes.val, _, ⟨?_, rfl⟩, c.groupId, _, ⟨rfl, rfl⟩, c.revision, _,
      rfl, c.rosterDigest.val, _, ⟨?_, rfl⟩, c.rosterDigest, _, ⟨rfl, rfl⟩, c.sender, _,
      ⟨hv.sender_valid, rfl⟩, c.recipient, _, ⟨hv.recipient_valid, rfl⟩, c.logicalSequence, _, rfl,
      c.payload, [], ⟨by omega, (List.append_nil _).symm⟩, (), [], ⟨rfl, rfl⟩, ⟨rfl, hv⟩, rfl⟩
    · rw [FixedBytes.length_val]
      decide
    · rw [FixedBytes.length_val]
      decide

theorem decode_eq_ok_iff {b : Bytes} {c : ApplicationContext} :
    decode b = .ok c ↔ c.Valid ∧ b = c.layout := by
  rw [decode, refuseIf_bind_eq_ok, run'_eq_ok]
  simp only [run_read_eq_ok]
  constructor
  · rintro ⟨-, _, hv, rfl, -⟩
    exact ⟨hv, rfl⟩
  · rintro ⟨hv, rfl⟩
    refine ⟨?_, [], hv, rfl, rfl⟩
    rw [length_layout]
    exact not_lt.mpr hv.encodedLen_le

/-- A context that passes the checks is determined by its bytes. -/
theorem layout_injective {c₁ c₂ : ApplicationContext} (h₁ : c₁.Valid) (h₂ : c₂.Valid)
    (h : c₁.layout = c₂.layout) : c₁ = c₂ :=
  Except.ok.inj ((decode_eq_ok_iff.mpr ⟨h₁, rfl⟩).symm.trans (decode_eq_ok_iff.mpr ⟨h₂, h⟩))

end ApplicationContext

/-! ### Sample values -/

namespace Sample

def group : GroupId := ⟨⟨ascii "bounded-group-id", by decide⟩⟩

/-- The group's authority. -/
def alice : Member := ⟨ascii "alice", [1]⟩

def bob : Member := ⟨ascii "bob", [1]⟩

/-- A commitment that separates byte strings of different lengths below 256. -/
def lengthCommitment (b : Bytes) : Digest := FixedBytes.replicate digestLen b.length.toUInt8

def genesis : Roster :=
  ⟨group, 0, FixedBytes.replicate digestLen 0, alice, policyVersionV1, false, [alice]⟩

/-- A roster of the group that follows a roster with the given digest. -/
def successor (revision : UInt64) (predecessor : Digest) (members : List Member) : Roster :=
  ⟨group, revision, predecessor, alice, policyVersionV1, false, members⟩

example : genesis.Valid := by decide

example : (successor 1 (lengthCommitment genesis.layout) [alice, bob]).Valid := by decide

example : ¬(successor 1 (lengthCommitment genesis.layout) [bob, alice]).Valid := by decide

end Sample

end Tacenta.Group
