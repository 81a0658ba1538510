import Tacenta.Library.Reader

/-!
# Sealing persisted state

A sealed blob is a version, a generation, a payload and an authenticator over all of them. It is
opened only if the authenticator verifies.

Computing and verifying an authenticator are two operations of the primitive and are kept apart
here: that only authenticators which were computed verify is an assumption about a history of uses
of the key, and no function of the key and the bytes alone can meet it.

## Main definitions

* `Authenticator`: the primitive.
* `sealPayload`, `unsealPayload`: seal a payload, and verify and open a blob.

## Main results

* `unsealPayload_eq_ok`: what is opened, and to what.
-/

open ByteString Result

namespace Tacenta.Core

/-- The length of a key and of an authenticator. -/
abbrev tagLen : Nat := 32

abbrev Key := FixedBytes 32

/-- A keyed authenticator: computed over bytes, and verified against bytes. -/
structure Authenticator where
  /-- Compute. -/
  finalize : Key → Bytes → FixedBytes tagLen
  /-- Verify in constant time. -/
  verify : Key → Bytes → Bytes → Bool

/-- The version of the envelope. -/
def sealVersion : UInt8 := 1

/-- The length of a generation. -/
def generationLen : Nat := 8

/-- What a seal adds to the payload. -/
def sealOverhead : Nat := 1 + generationLen + tagLen

/-- The label that the authenticator is derived under. -/
def sealLabel : Bytes := ascii "tacenta:persisted-state:v1" ++ [255]

/-- Why a sealed blob was refused. -/
inductive SealError where
  | unknownVersion
  | tooShort
  | badAuthenticator
  deriving DecidableEq

/-- What came out of a blob that authenticated. -/
structure Unsealed where
  /-- The generation that the writer stamped. -/
  generation : UInt64
  payload : Bytes
  deriving DecidableEq

variable (A : Authenticator)

/-- The authenticator over the bytes in front of it. -/
def tagOver (key : Key) (body : Bytes) : FixedBytes tagLen := A.finalize key (sealLabel ++ body)

/-- The bytes in front of the authenticator. -/
def sealedBody (generation : UInt64) (payload : Bytes) : Bytes :=
  sealVersion :: (u64Bytes generation ++ payload)

/-- Wrap a payload with a generation and an authenticator. -/
def sealPayload (key : Key) (generation : UInt64) (payload : Bytes) : Bytes :=
  sealedBody generation payload ++ (tagOver A key (sealedBody generation payload)).val

/-- Verify and open a blob. -/
def unsealPayload (key : Key) (sealed : Bytes) : Except SealError Unsealed := do
  refuseIf (sealed.length < sealOverhead) .tooShort
  refuseIf (sealed.head? ≠ some sealVersion) .unknownVersion
  let body := sealed.take (sealed.length - tagLen)
  let tag := sealed.drop (sealed.length - tagLen)
  refuseIf (A.verify key (sealLabel ++ body) tag = false) .badAuthenticator
  pure ⟨(ofBe ((body.drop 1).take generationLen)).toUInt64, body.drop (1 + generationLen)⟩

variable {A}

theorem length_sealedBody (generation : UInt64) (payload : Bytes) :
    (sealedBody generation payload).length = 9 + payload.length := by
  rw [sealedBody, List.length_cons, List.length_append, length_u64Bytes]
  omega

theorem sealedBody_inj {g g' : UInt64} {p p' : Bytes} :
    sealedBody g p = sealedBody g' p' ↔ g = g' ∧ p = p' := by
  constructor
  · intro h
    rw [sealedBody, sealedBody, List.cons.injEq] at h
    obtain ⟨hg, rfl⟩ := List.append_inj h.2 (by rw [length_u64Bytes, length_u64Bytes])
    exact ⟨(eq_u64Bytes_iff.mp rfl).2.symm.trans (eq_u64Bytes_iff.mp hg).2, rfl⟩
  · rintro ⟨rfl, rfl⟩
    rfl

/-- A blob is opened exactly if it is the bytes of the result with an authenticator that
verifies. -/
theorem unsealPayload_eq_ok {key : Key} {sealed : Bytes} {u : Unsealed} :
    unsealPayload A key sealed = .ok u ↔
      ∃ tag : FixedBytes tagLen, sealed = sealedBody u.generation u.payload ++ tag.val ∧
        A.verify key (sealLabel ++ sealedBody u.generation u.payload) tag.val = true := by
  simp only [unsealPayload, refuseIf_bind_eq_ok, pure_eq_ok, not_lt, not_not,
    Bool.not_eq_false]
  constructor
  · rintro ⟨hlen, hhead, hverify, rfl⟩
    have hlen41 : 41 ≤ sealed.length := hlen
    obtain ⟨body, tag, hsplit, htag⟩ : ∃ body tag, sealed = body ++ tag ∧ tag.length = 32 :=
      ⟨sealed.take (sealed.length - 32), sealed.drop (sealed.length - 32),
        (List.take_append_drop _ _).symm, by rw [List.length_drop]; omega⟩
    subst hsplit
    have hfront : (body ++ tag).length - tagLen = body.length := by
      rw [List.length_append, htag]
      exact Nat.add_sub_cancel _ _
    rw [hfront, List.take_left, List.drop_left] at hverify
    rw [hfront, List.take_left]
    rw [List.length_append] at hlen41
    cases body with
    | nil =>
      rw [List.length_nil] at hlen41
      omega
    | cons version body =>
      obtain rfl : version = sealVersion := Option.some_inj.mp hhead
      have hbody : sealedBody (ofBe (body.take 8)).toUInt64 (body.drop 8) =
          sealVersion :: body := by
        have hgen : body.take 8 = u64Bytes (ofBe (body.take 8)).toUInt64 := by
          refine eq_u64Bytes_iff.mpr ⟨?_, rfl⟩
          rw [List.length_cons] at hlen41
          rw [List.length_take]
          omega
        rw [sealedBody, ← hgen, List.take_append_drop]
      refine ⟨⟨tag, htag⟩, ?_⟩
      change _ = sealedBody (ofBe (body.take 8)).toUInt64 (body.drop 8) ++ tag ∧
        A.verify key
          (sealLabel ++ sealedBody (ofBe (body.take 8)).toUInt64 (body.drop 8)) tag = true
      rw [hbody]
      exact ⟨rfl, hverify⟩
  · rintro ⟨tag, rfl, hverify⟩
    have hfront : (sealedBody u.generation u.payload ++ tag.val).length - tagLen =
        (sealedBody u.generation u.payload).length := by
      rw [List.length_append, tag.length_val]
      exact Nat.add_sub_cancel _ _
    refine ⟨?_, rfl, ?_, ?_⟩
    · rw [List.length_append, length_sealedBody, tag.length_val, sealOverhead, generationLen]
      omega
    · rw [hfront, List.take_left, List.drop_left]
      exact hverify
    · have htake : (u64Bytes u.generation ++ u.payload).take 8 = u64Bytes u.generation :=
        List.take_left' (length_u64Bytes _)
      have hdrop : (u64Bytes u.generation ++ u.payload).drop 8 = u.payload :=
        List.drop_left' (length_u64Bytes _)
      rw [hfront, List.take_left]
      change Unsealed.mk (ofBe ((u64Bytes u.generation ++ u.payload).take 8)).toUInt64
        ((u64Bytes u.generation ++ u.payload).drop 8) = u
      rw [htake, hdrop, (eq_u64Bytes_iff.mp rfl).2]

end Tacenta.Core
