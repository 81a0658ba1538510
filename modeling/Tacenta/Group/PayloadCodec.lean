import Tacenta.Group.InvitationCodec
import Tacenta.Group.Payload

/-!
# The byte format of group payloads

A payload is a tag and the bytes of one of five values, whose formats differ in the width of their
lengths and in the order of their checks. Each of the five accepts exactly its own encodings, and
the tag tells them apart, so the format of payloads is lossless and canonical.

## Main definitions

* `GroupPayload.Valid`: the value of a payload passes the checks of its kind.

## Main results

* `GroupPayload.decode_eq_ok_iff_encode`: decoding accepts exactly the encodings.
* `GroupPayload.format_canonical`: the format is lossless and canonical, and what it accepts is
  valid.
-/

open ByteString Result

namespace Tacenta.Group

namespace GroupPayload

/-- The value passes the checks of its kind: the bounds on its fields, the canonical order of the
members, and the agreement of an invitation with its roster. -/
def Valid : GroupPayload → Prop
  | .application context => context.Valid
  | .roster r => r.Valid
  | .invitationBootstrap bootstrap => bootstrap.Valid
  | .invitationAcceptance acceptance => acceptance.sourceRevision ≠ Group.reservedRevision
  | .invitationRevocation revocation => revocation.sourceRevision ≠ Group.reservedRevision

def valueLayout : GroupPayload → Bytes
  | .application context => context.layout
  | .roster r => r.layout
  | .invitationBootstrap bootstrap => bootstrap.layout
  | .invitationAcceptance acceptance => acceptance.layout invitationAcceptanceDomain
  | .invitationRevocation revocation => revocation.layout invitationRevocationDomain

variable {b : Bytes} {p : GroupPayload}

theorem encodeValue_eq_ok_iff :
    p.encodeValue = .ok b ↔ p.Valid ∧ b = p.valueLayout := by
  cases p with
  | application context => exact ApplicationContext.encode_eq_ok_iff
  | roster r => exact Roster.encode_eq_ok_iff
  | invitationBootstrap bootstrap => exact InvitationBootstrap.encode_eq_ok_iff
  | invitationAcceptance acceptance => exact InvitationNotice.encode_eq_ok_iff
  | invitationRevocation revocation => exact InvitationNotice.encode_eq_ok_iff

/-- A value decoded under a tag is a valid value of the kind that the tag names. -/
theorem decodeValue_eq_ok_iff {tag : UInt8} :
    decodeValue tag b = .ok p ↔ tag = p.tag ∧ p.Valid ∧ b = p.valueLayout := by
  unfold decodeValue
  split
  · simp only [map_eq_ok, ApplicationContext.decode_eq_ok_iff]
    cases p <;> simp [GroupPayload.tag, Valid, valueLayout]
  · simp only [map_eq_ok, Roster.decode_eq_ok_iff]
    cases p <;> simp [GroupPayload.tag, Valid, valueLayout]
  · simp only [map_eq_ok, InvitationBootstrap.decode_eq_ok_iff]
    cases p <;> simp [GroupPayload.tag, Valid, valueLayout]
  · simp only [map_eq_ok, InvitationAcceptance.decode, InvitationNotice.decode_eq_ok_iff]
    cases p <;> simp [GroupPayload.tag, Valid, valueLayout]
  · simp only [map_eq_ok, InvitationRevocation.decode, InvitationNotice.decode_eq_ok_iff]
    cases p <;> simp [GroupPayload.tag, Valid, valueLayout]
  · next h₁ h₂ h₃ h₄ h₅ =>
    simp only [reduceCtorEq, false_iff]
    rintro ⟨rfl, -⟩
    cases p <;> contradiction

def layout (p : GroupPayload) : Bytes :=
  groupPayloadDomain ++ (p.tag :: lpBytes p.valueLayout)

private theorem length_valueLayout_lt (h : p.layout.length ≤ maxGroupPayloadLen) :
    p.valueLayout.length < 2 ^ 32 := by
  simp only [layout, maxGroupPayloadLen, List.length_append, List.length_cons,
    length_lpBytes] at h
  omega

theorem encode_eq_ok_iff :
    p.encode = .ok b ↔ p.Valid ∧ p.layout.length ≤ maxGroupPayloadLen ∧ b = p.layout := by
  have happend : groupPayloadDomain ++ [p.tag] ++ lpBytes p.valueLayout = p.layout := by
    simp only [layout, List.append_assoc, List.singleton_append]
  simp only [encode, bind_eq_ok, encodeValue_eq_ok_iff, putLp_eq_ok, refuseIf_eq_ok, pure_eq_ok,
    not_lt]
  constructor
  · rintro ⟨_, ⟨hv, rfl⟩, _, ⟨-, rfl⟩, _, hle, rfl⟩
    exact ⟨hv, happend ▸ hle, happend⟩
  · rintro ⟨hv, hle, rfl⟩
    exact ⟨_, ⟨hv, rfl⟩, _, ⟨length_valueLayout_lt hle, happend.symm⟩, (), hle, rfl⟩

theorem decode_eq_ok_iff :
    decode b = .ok p ↔ p.Valid ∧ p.layout.length ≤ maxGroupPayloadLen ∧ b = p.layout := by
  rw [decode, refuseIf_bind_eq_ok, not_lt]
  simp only [read, Reader.run'_eq_ok, Reader.run_bind_eq_ok, Reader.run_takeExact_eq_ok,
    Reader.run_takeByte_eq_ok, Reader.run_takeLp_eq_ok, Reader.run_finish_eq_ok,
    Reader.run_lift_eq_ok, decodeValue_eq_ok_iff]
  constructor
  · rintro ⟨hle, _, _, _, rfl, tag, _, rfl, value, _, ⟨-, rfl⟩, _, _, ⟨rfl, rfl⟩,
      ⟨rfl, hv, rfl⟩, rfl⟩
    rw [List.append_nil] at hle ⊢
    exact ⟨hv, hle, rfl⟩
  · rintro ⟨hv, hle, rfl⟩
    exact ⟨hle, [], (), _, rfl, p.tag, _, rfl, p.valueLayout, [],
      ⟨length_valueLayout_lt hle, (List.append_nil _).symm⟩, (), [], ⟨rfl, rfl⟩, ⟨rfl, hv, rfl⟩,
      rfl⟩

/-- Decoding accepts exactly the encodings. -/
theorem decode_eq_ok_iff_encode :
    decode b = .ok p ↔ p.encode = .ok b := by
  rw [decode_eq_ok_iff, encode_eq_ok_iff]

/-- The format of payloads is lossless and canonical: decoding inverts encoding and encoding inverts
decoding, so different payloads have different bytes and no two byte strings decode to one payload.
What decodes passes the checks that the encoder makes. -/
theorem format_canonical :
    (∀ (p : GroupPayload) (b : Bytes), p.encode = .ok b → decode b = .ok p) ∧
    (∀ (b : Bytes) (p : GroupPayload), decode b = .ok p → p.encode = .ok b) ∧
    (∀ (p q : GroupPayload) (b : Bytes), p.encode = .ok b → q.encode = .ok b → p = q) ∧
    (∀ (b b' : Bytes) (p : GroupPayload), decode b = .ok p → decode b' = .ok p → b = b') ∧
    ∀ (b : Bytes) (p : GroupPayload), decode b = .ok p →
      p.Valid ∧ b.length ≤ maxGroupPayloadLen := by
  refine ⟨fun p b h => decode_eq_ok_iff_encode.mpr h, fun b p h => decode_eq_ok_iff_encode.mp h,
    fun p q b hp hq => ?_, fun b b' p hb hb' => ?_, fun b p h => ?_⟩
  · have hdp := decode_eq_ok_iff_encode.mpr hp
    have hdq := decode_eq_ok_iff_encode.mpr hq
    exact Except.ok.inj (hdp.symm.trans hdq)
  · obtain ⟨-, -, rfl⟩ := decode_eq_ok_iff.mp hb
    obtain ⟨-, -, rfl⟩ := decode_eq_ok_iff.mp hb'
    rfl
  · obtain ⟨hv, hle, rfl⟩ := decode_eq_ok_iff.mp h
    exact ⟨hv, hle⟩

end GroupPayload

end Tacenta.Group
