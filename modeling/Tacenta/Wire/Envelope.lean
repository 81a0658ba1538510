import Tacenta.Library.Reader

/-!
# Wire envelopes

The envelope that every message travels in: a version, a kind and a payload after its length.

## Main definitions

* `Kind`, `Envelope`: an envelope and its kind.
* `encode`, `decode`: the byte format.

## Main results

* `encode_eq_some_iff`, `decode_eq_some_iff`: encoding succeeds exactly on payloads that fit their
  length, and decoding accepts exactly the encodings.
-/

open ByteString Reader Result

namespace Tacenta.Wire

/-- The version that every envelope carries. -/
def wireVersion : UInt16 := 1

/-- The kinds of envelopes. -/
inductive Kind where
  | dm
  | group
  | receipt
  deriving DecidableEq

def Kind.toByte : Kind → UInt8
  | .dm => 1
  | .group => 2
  | .receipt => 3

def Kind.fromByte : UInt8 → Option Kind
  | 1 => some .dm
  | 2 => some .group
  | 3 => some .receipt
  | _ => none

theorem Kind.fromByte_eq_some {b : UInt8} {k : Kind} : fromByte b = some k ↔ b = k.toByte := by
  unfold fromByte
  split
  · cases k <;> simp [toByte]
  · cases k <;> simp [toByte]
  · cases k <;> simp [toByte]
  · next h₁ h₂ h₃ =>
    simp only [reduceCtorEq, false_iff]
    rintro rfl
    cases k <;> contradiction

structure Envelope where
  kind : Kind
  payload : Bytes
  deriving DecidableEq

def Envelope.layout (e : Envelope) : Bytes :=
  u16Bytes wireVersion ++ (e.kind.toByte :: lpBytes e.payload)

theorem Envelope.length_layout (e : Envelope) : e.layout.length = 7 + e.payload.length := by
  simp only [layout, List.length_append, length_u16Bytes, List.length_cons, length_lpBytes]
  omega

/-- Encode an envelope; there is no encoding of a payload whose length does not fit four bytes. -/
def encode (e : Envelope) : Option Bytes :=
  if 2 ^ 32 ≤ e.payload.length then none
  else some (u16Bytes wireVersion ++ [e.kind.toByte] ++ u32Bytes e.payload.length.toUInt32 ++
    e.payload)

theorem encode_eq_some_iff {e : Envelope} {b : Bytes} :
    encode e = some b ↔ e.payload.length < 2 ^ 32 ∧ b = e.layout := by
  rw [encode]
  split
  · next h =>
    simp only [reduceCtorEq, false_iff]
    exact fun hlt => absurd hlt.1 (not_lt.mpr h)
  · next h =>
    rw [Option.some_inj, and_iff_right (not_le.mp h), eq_comm (a := b), Envelope.layout, lpBytes]
    simp only [List.append_assoc, List.cons_append, List.nil_append]

/-- The reader of `decode`. -/
def read : Reader Unit Envelope := do
  let version ← Reader.takeU16 ()
  refuseIf (version ≠ wireVersion) ()
  let kindByte ← Reader.takeByte ()
  match Kind.fromByte kindByte with
  | none => throw ()
  | some kind =>
    let length ← Reader.takeU32 ()
    let payload ← Reader.takeRest
    refuseIf (payload.length ≠ length.toNat) ()
    pure ⟨kind, payload⟩

/-- Decode exactly one envelope. -/
def decode (bytes : Bytes) : Option Envelope := (read.run' bytes).toOption

theorem decode_eq_some_iff {b : Bytes} {e : Envelope} :
    decode b = some e ↔ e.payload.length < 2 ^ 32 ∧ b = e.layout := by
  rw [decode, toOption_eq_some, run'_eq_ok]
  simp only [read, run_bind_eq_ok, run_takeU16_eq_ok, run_lift_eq_ok,
    refuseIf_eq_ok, run_takeByte_eq_ok, not_not]
  constructor
  · rintro ⟨_, version, _, rfl, _, _, ⟨rfl, rfl⟩, kindByte, _, rfl, h⟩
    split at h
    · cases h
    · next kind hkind =>
      simp only [run_bind_eq_ok, run_takeU32_eq_ok, run_takeRest_eq_ok,
        run_lift_eq_ok, refuseIf_eq_ok, run_pure_eq_ok, not_not] at h
      obtain ⟨length, _, rfl, payload, _, ⟨rfl, rfl⟩, _, _, ⟨hlen, rfl⟩, rfl, rfl⟩ := h
      obtain rfl := Kind.fromByte_eq_some.mp hkind
      refine ⟨hlen ▸ length.toNat_lt, ?_⟩
      rw [Envelope.layout, lpBytes, hlen, Nat.toUInt32, UInt32.ofNat_toNat]
  · rintro ⟨hlen, rfl⟩
    refine ⟨[], wireVersion, _, rfl, (), _, ⟨rfl, rfl⟩, e.kind.toByte, _, rfl, ?_⟩
    rw [Kind.fromByte_eq_some.mpr rfl]
    simp only [run_bind_eq_ok, run_takeU32_eq_ok, run_takeRest_eq_ok,
      run_lift_eq_ok, refuseIf_eq_ok, run_pure_eq_ok, not_not]
    refine ⟨e.payload.length.toUInt32, e.payload, rfl, e.payload, [], ⟨rfl, rfl⟩, (), [],
      ⟨?_, rfl⟩, rfl, rfl⟩
    rw [toNat_toUInt32_of_lt hlen]

end Tacenta.Wire
