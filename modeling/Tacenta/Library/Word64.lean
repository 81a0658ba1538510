import Mathlib.Algebra.Order.Group.Nat
import Mathlib.Order.MinMax

/-!
# Saturating and checked arithmetic on 64-bit words

The saturating and checked operations on unsigned 64-bit words, with the value of each as a
natural number. A goal about words becomes a goal about naturals through the lemmas `toNat_*`
and `lt_iff`, `le_iff`, `eq_iff`, and is then linear arithmetic.

## Main definitions

* `Word64.maxValue`, `Word64.saturatingAdd`, `Word64.checkedAdd`.
* `Word64.saturate`: the value of a sum that stops at the largest word.
-/

namespace Word64

/-- The largest 64-bit word. -/
def maxValue : UInt64 := 0xFFFFFFFFFFFFFFFF

/-- Addition that stops at the largest word. -/
def saturatingAdd (a b : UInt64) : UInt64 :=
  if a.toNat + b.toNat < 2 ^ 64 then a + b else maxValue

/-- The number that a computation stopping at the largest word gives in place of a number. -/
def saturate (n : Nat) : Nat := min n (2 ^ 64 - 1)

/-- Addition that fails on overflow. -/
def checkedAdd (a b : UInt64) : Option UInt64 :=
  if a.toNat + b.toNat < 2 ^ 64 then some (a + b) else none

theorem saturate_of_lt {n : Nat} (h : n < 2 ^ 64) : saturate n = n :=
  min_eq_left (Nat.le_pred_of_lt h)

@[simp] theorem toNat_maxValue : maxValue.toNat = 2 ^ 64 - 1 := rfl

theorem lt_iff {a b : UInt64} : a < b ↔ a.toNat < b.toNat := UInt64.lt_iff_toNat_lt

theorem le_iff {a b : UInt64} : a ≤ b ↔ a.toNat ≤ b.toNat := UInt64.le_iff_toNat_le

theorem eq_iff {a b : UInt64} : a = b ↔ a.toNat = b.toNat := UInt64.toNat_inj.symm

@[simp] theorem toNat_max (a b : UInt64) : (max a b).toNat = max a.toNat b.toNat := by
  change (if a ≤ b then b else a).toNat = _
  split
  · next h => exact (max_eq_right (le_iff.mp h)).symm
  · next h =>
    rw [le_iff, not_le] at h
    exact (max_eq_left h.le).symm

instance lawfulOrderMax : Std.LawfulOrderMax UInt64 where
  max_le_iff a b c := by
    rw [le_iff, le_iff, le_iff, toNat_max]
    exact max_le_iff
  max_eq_or a b := by
    rw [eq_iff, eq_iff, toNat_max]
    exact max_choice _ _

theorem max?_any_le_iff {α : Type} {f : α → UInt64} {l : List α} {x : UInt64} :
    ((l.map f).max?.any fun m => decide (x ≤ m)) = true ↔ ∃ a ∈ l, x ≤ f a := by
  cases h : (l.map f).max? with
  | none =>
    have hnil := List.map_eq_nil_iff.mp (List.max?_eq_none_iff.mp h)
    simp [hnil]
  | some m =>
    obtain ⟨hm, hle⟩ := List.max?_eq_some_iff.mp h
    obtain ⟨largest, hlargest, rfl⟩ := List.mem_map.mp hm
    rw [Option.any_some, decide_eq_true_eq]
    constructor
    · exact fun hx => ⟨largest, hlargest, hx⟩
    · rintro ⟨a, ha, hx⟩
      have := le_iff.mp (hle _ (List.mem_map_of_mem ha))
      rw [le_iff] at hx ⊢
      omega

theorem le_maxValue (a : UInt64) : a ≤ maxValue :=
  le_iff.mpr (Nat.le_pred_of_lt a.toNat_lt)

theorem ne_maxValue_iff {a : UInt64} : a ≠ maxValue ↔ a.toNat < 2 ^ 64 - 1 := by
  have := a.toNat_lt
  rw [Ne, eq_iff, toNat_maxValue]
  omega

theorem toNat_saturatingAdd (a b : UInt64) :
    (saturatingAdd a b).toNat = min (a.toNat + b.toNat) (2 ^ 64 - 1) := by
  unfold saturatingAdd
  split
  · rw [UInt64.toNat_add]
    omega
  · rw [toNat_maxValue]
    omega

theorem checkedAdd_eq_some {a b c : UInt64} :
    checkedAdd a b = some c ↔ c.toNat = a.toNat + b.toNat := by
  have hc := c.toNat_lt
  unfold checkedAdd
  split
  · next h =>
    rw [Option.some_inj, eq_iff, UInt64.toNat_add, Nat.mod_eq_of_lt h]
    exact eq_comm
  · simp only [reduceCtorEq, false_iff]
    omega

end Word64
