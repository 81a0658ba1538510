import Mathlib.Algebra.Order.Group.Nat
import Mathlib.Data.List.Induction
import Mathlib.Tactic.Ring

/-!
# Byte strings and big-endian integers

Byte strings as lists of bytes, fixed-width byte strings that carry their length, and the
big-endian representation of natural numbers and machine words. The representation of a fixed
width is a bijection between the words of that width and the byte strings of that length.

## Main definitions

* `Bytes`, `FixedBytes`: byte strings, and byte strings of a fixed length.
* `ByteString.toBe`, `ByteString.ofBe`: big-endian bytes of a natural number and back.
* `ByteString.u16Bytes`, `ByteString.u32Bytes`, `ByteString.u64Bytes`: the bytes of a machine word.
* `ByteString.ascii`: the bytes of a text of ASCII characters.
* `ByteString.utf8Bytes`, `ByteString.ofUtf8?`: the bytes of a text in UTF-8 and back.

## Main results

* `ByteString.ofBe_toBe`, `ByteString.toBe_ofBe`: the two directions of the bijection.
-/

/-- A byte string. -/
abbrev Bytes := List UInt8

/-- A byte string of length `n`. -/
@[ext] structure FixedBytes (n : Nat) where
  val : Bytes
  length_val : val.length = n
  deriving DecidableEq

namespace FixedBytes

variable {n : Nat}

attribute [simp] length_val

/-- The byte string with the same byte at every place. -/
def replicate (n : Nat) (byte : UInt8) : FixedBytes n :=
  ⟨List.replicate n byte, List.length_replicate⟩

/-- The byte string as one of length `n`, if that is its length. -/
def ofBytes? (n : Nat) (b : Bytes) : Option (FixedBytes n) :=
  if h : b.length = n then some ⟨b, h⟩ else none

theorem val_inj {a b : FixedBytes n} : a.val = b.val ↔ a = b := FixedBytes.ext_iff.symm

theorem ofBytes?_eq_some {b : Bytes} {x : FixedBytes n} : ofBytes? n b = some x ↔ b = x.val := by
  unfold ofBytes?
  split
  · next h => rw [Option.some_inj, ← val_inj]
  · next h =>
    simp only [reduceCtorEq, false_iff]
    rintro rfl
    exact h x.length_val

end FixedBytes

namespace ByteString

/-- The `n` low bytes of a natural number, the most significant first. -/
def toBe : Nat → Nat → Bytes
  | 0, _ => []
  | n + 1, x => toBe n (x / 256) ++ [x.toUInt8]

/-- The natural number whose big-endian bytes are given. -/
def ofBe (b : Bytes) : Nat := b.foldl (fun x byte => 256 * x + byte.toNat) 0

@[simp] theorem length_toBe (n x : Nat) : (toBe n x).length = n := by
  induction n generalizing x with
  | zero => rfl
  | succ n ih => rw [toBe, List.length_append, ih, List.length_singleton]

private theorem ofBe_concat (b : Bytes) (byte : UInt8) :
    ofBe (b ++ [byte]) = 256 * ofBe b + byte.toNat := by
  rw [ofBe, List.foldl_append]
  rfl

theorem ofBe_toBe {n x : Nat} (h : x < 256 ^ n) : ofBe (toBe n x) = x := by
  induction n generalizing x with
  | zero =>
    have hx : x = 0 := by simpa using h
    subst hx
    rfl
  | succ n ih =>
    have hdiv : x / 256 < 256 ^ n := by
      rw [pow_succ] at h
      omega
    have hmod : x.toUInt8.toNat = x % 256 := UInt8.toNat_ofNat'
    rw [toBe, ofBe_concat, ih hdiv, hmod]
    omega

theorem ofBe_lt (b : Bytes) : ofBe b < 256 ^ b.length := by
  induction b using List.reverseRecOn with
  | nil => exact Nat.one_pos
  | append_singleton b byte ih =>
    have hbyte := byte.toNat_lt
    rw [ofBe_concat, List.length_append, List.length_singleton, pow_succ]
    omega

theorem ofBe_lt_of_length {b : Bytes} {n : Nat} (h : b.length = n) : ofBe b < 256 ^ n :=
  h ▸ ofBe_lt b

theorem toBe_ofBe (b : Bytes) : toBe b.length (ofBe b) = b := by
  induction b using List.reverseRecOn with
  | nil => rfl
  | append_singleton b byte ih =>
    have hbyte := byte.toNat_lt
    have hdiv : (256 * ofBe b + byte.toNat) / 256 = ofBe b := by omega
    have hmod : (256 * ofBe b + byte.toNat).toUInt8 = byte := by
      apply UInt8.toNat_inj.mp
      rw [Nat.toUInt8, UInt8.toNat_ofNat']
      omega
    rw [List.length_append, List.length_singleton, ofBe_concat, toBe, hdiv, ih, hmod]

/-- The two big-endian bytes of a 16-bit word. -/
def u16Bytes (x : UInt16) : Bytes := toBe 2 x.toNat

/-- The four big-endian bytes of a 32-bit word. -/
def u32Bytes (x : UInt32) : Bytes := toBe 4 x.toNat

/-- The eight big-endian bytes of a 64-bit word. -/
def u64Bytes (x : UInt64) : Bytes := toBe 8 x.toNat

@[simp] theorem length_u16Bytes (x : UInt16) : (u16Bytes x).length = 2 := length_toBe _ _

@[simp] theorem length_u32Bytes (x : UInt32) : (u32Bytes x).length = 4 := length_toBe _ _

@[simp] theorem length_u64Bytes (x : UInt64) : (u64Bytes x).length = 8 := length_toBe _ _

theorem eq_toBe_iff {n x : Nat} {b : Bytes} (hx : x < 256 ^ n) :
    b = toBe n x ↔ b.length = n ∧ ofBe b = x := by
  constructor
  · rintro rfl
    exact ⟨length_toBe n x, ofBe_toBe hx⟩
  · rintro ⟨rfl, rfl⟩
    exact (toBe_ofBe b).symm

theorem toNat_toUInt8_of_lt {n : Nat} (h : n < 2 ^ 8) : n.toUInt8.toNat = n :=
  Nat.mod_eq_of_lt h

theorem toNat_toUInt32_of_lt {n : Nat} (h : n < 2 ^ 32) : n.toUInt32.toNat = n :=
  Nat.mod_eq_of_lt h

theorem toNat_toUInt64_of_lt {n : Nat} (h : n < 2 ^ 64) : n.toUInt64.toNat = n :=
  Nat.mod_eq_of_lt h

theorem eq_u16Bytes_iff {b : Bytes} {x : UInt16} :
    b = u16Bytes x ↔ b.length = 2 ∧ (ofBe b).toUInt16 = x := by
  rw [u16Bytes, eq_toBe_iff x.toNat_lt]
  refine and_congr_right fun hlen => ?_
  have hlt : ofBe b < 2 ^ 16 := ofBe_lt_of_length hlen
  rw [← UInt16.toNat_inj, Nat.toUInt16, UInt16.toNat_ofNat', Nat.mod_eq_of_lt hlt]

theorem eq_u32Bytes_iff {b : Bytes} {x : UInt32} :
    b = u32Bytes x ↔ b.length = 4 ∧ (ofBe b).toUInt32 = x := by
  rw [u32Bytes, eq_toBe_iff x.toNat_lt]
  refine and_congr_right fun hlen => ?_
  have hlt : ofBe b < 2 ^ 32 := ofBe_lt_of_length hlen
  rw [← UInt32.toNat_inj, toNat_toUInt32_of_lt hlt]

theorem eq_u64Bytes_iff {b : Bytes} {x : UInt64} :
    b = u64Bytes x ↔ b.length = 8 ∧ (ofBe b).toUInt64 = x := by
  rw [u64Bytes, eq_toBe_iff x.toNat_lt]
  refine and_congr_right fun hlen => ?_
  have hlt : ofBe b < 2 ^ 64 := ofBe_lt_of_length hlen
  rw [← UInt64.toNat_inj, toNat_toUInt64_of_lt hlt]

/-- The bytes of a text of ASCII characters. -/
def ascii (text : String) : Bytes := text.toList.map fun c => c.toNat.toUInt8

def utf8Bytes (text : String) : Bytes := text.toByteArray.data.toList

/-- The text with the given UTF-8 bytes, if they are valid. -/
def ofUtf8? (b : Bytes) : Option String := String.fromUTF8? ⟨b.toArray⟩

theorem utf8Bytes_inj {s t : String} : utf8Bytes s = utf8Bytes t ↔ s = t := by
  constructor
  · intro h
    exact String.toByteArray_inj.mp (ByteArray.ext (Array.toList_inj.mp h))
  · exact fun h => h ▸ rfl

theorem length_utf8Bytes_replicate (n : Nat) :
    (utf8Bytes (String.ofList (List.replicate n 'a'))).length = n := by
  rw [utf8Bytes, String.toByteArray_ofList]
  induction n with
  | zero => rfl
  | succ n ih =>
    rw [List.replicate_succ, List.utf8Encode_cons, ByteArray.data_append, Array.toList_append,
      List.length_append, ih, Nat.add_comm]
    rfl

theorem ofUtf8?_eq_some {b : Bytes} {text : String} :
    ofUtf8? b = some text ↔ b = utf8Bytes text := by
  rw [ofUtf8?, String.fromUTF8?]
  split
  · next h =>
    have hbytes : utf8Bytes (String.fromUTF8 ⟨b.toArray⟩ h) = b := rfl
    rw [Option.some_inj, ← utf8Bytes_inj, hbytes]
  · next h =>
    simp only [reduceCtorEq, false_iff]
    rintro rfl
    exact h text.isValidUTF8

end ByteString
