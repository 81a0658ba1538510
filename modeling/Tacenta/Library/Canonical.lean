import Tacenta.Library.Reader

/-!
# Canonical formats

A format is canonical if every value that fits is read back from its encoding, and the encoding of a
value that was read is what it was read from. Then no two values share an encoding and no value has
two, so an accepted byte string cannot be turned into another one with the same meaning.

A format is shown to be canonical by a layout: the encoder writes exactly the layouts of the values
that fit, and the decoder accepts exactly these.

## Main definitions

* `Canonical`: a canonical format.
* `Reader.tagged`: read a value whose form is named by its first byte.

## Main results

* `Canonical.of_layout`: a format with a layout is canonical.
* `Reader.run'_tagged_eq_ok`: what a reader with a tag accepts.
-/

open ByteString

/-- A canonical format for the values that fit. -/
structure Canonical {α π : Type} (encode : α → Except π Bytes) (decode : Bytes → Option α)
    (Fits : α → Prop) : Prop where
  /-- A value that fits is read back from its encoding. -/
  decode_encode : ∀ v, Fits v → ∃ b, encode v = .ok b ∧ decode b = some v
  /-- A value that was read is encoded as what it was read from. -/
  encode_decode : ∀ b v, decode b = some v → encode v = .ok b
  /-- No two values have the same encoding. -/
  unambiguous : ∀ v w b, encode v = .ok b → encode w = .ok b → v = w
  /-- No two byte strings are read as the same value. -/
  unaltered : ∀ b b' v, decode b = some v → decode b' = some v → b = b'

/-- A format whose encoder and decoder agree on a layout is canonical. -/
theorem Canonical.of_layout {α π : Type} {encode : α → Except π Bytes} {decode : Bytes → Option α}
    {Fits : α → Prop} {layout : α → Bytes}
    (hencode : ∀ v b, encode v = .ok b ↔ Fits v ∧ b = layout v)
    (hdecode : ∀ b v, decode b = some v ↔ Fits v ∧ b = layout v) :
    Canonical encode decode Fits where
  decode_encode v hv := ⟨layout v, (hencode v _).mpr ⟨hv, rfl⟩, (hdecode _ v).mpr ⟨hv, rfl⟩⟩
  encode_decode b v h := (hencode v b).mpr ((hdecode b v).mp h)
  unambiguous v w b hv hw := by
    have hread (u : α) (hu : encode u = .ok b) : decode b = some u :=
      (hdecode b u).mpr ((hencode u b).mp hu)
    exact Option.some_inj.mp ((hread v hv).symm.trans (hread w hw))
  unaltered b b' v h h' := ((hdecode b v).mp h).2.trans ((hdecode b' v).mp h').2.symm

/-! ### Counts -/

namespace ByteString

/-- A count that was read is the number of what was read after it, which fits four bytes. -/
theorem count_eq {n : Nat} {count : UInt32} (h : n = count.toNat) :
    n < 2 ^ 32 ∧ count = n.toUInt32 := by
  subst h
  exact ⟨count.toNat_lt, by rw [Nat.toUInt32, UInt32.ofNat_toNat]⟩

end ByteString

/-! ### Tags -/

namespace Reader

variable {ε α : Type}

/-- Read a value whose form is named by the first byte, with nothing after it. -/
def tagged (e : ε) (take : UInt8 → Reader ε α) : Reader ε α := do
  let tag ← takeByte e
  let value ← take tag
  finish e
  pure value

theorem run'_tagged_eq_ok {e : ε} {take : UInt8 → Reader ε α} {s : Bytes} {x : α} :
    (tagged e take).run' s = .ok x ↔
      ∃ tag body, s = tag :: body ∧ (take tag).run body = .ok (x, []) := by
  simp only [run'_eq_ok, tagged, run_bind_eq_ok, run_takeByte_eq_ok, run_finish_eq_ok,
    run_pure_eq_ok]
  constructor
  · rintro ⟨_, tag, body, rfl, _, _, hrun, _, _, ⟨rfl, rfl⟩, rfl, -⟩
    exact ⟨tag, body, rfl, hrun⟩
  · rintro ⟨tag, body, rfl, hrun⟩
    exact ⟨[], tag, body, rfl, x, [], hrun, (), [], ⟨rfl, rfl⟩, rfl, rfl⟩

end Reader
