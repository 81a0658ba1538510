import Mathlib.Data.List.Sort

/-!
# Sorting by a comparison

Lists sorted by a comparison function: sorting makes neighbours ascend, strictly so if no two
entries compare equal, and it does not move a list that ascends strictly.

## Main results

* `Sorting.pairwise_isLE`, `Sorting.pairwise_lt`: sorting makes a list ascend.
* `Sorting.insertionSort_eq`: a strictly ascending list is sorted.
* `Sorting.mem_take_iff`: an entry is among the first ones if enough entries come after it.
-/

namespace Sorting

variable {α : Type} {cmp : α → α → Ordering} [Std.TransCmp cmp] {l : List α}

theorem pairwise_isLE (l : List α) :
    (l.insertionSort fun a b => (cmp a b).isLE = true).Pairwise fun a b =>
      (cmp a b).isLE = true := by
  have : IsTrans α fun a b => (cmp a b).isLE = true := ⟨fun _ _ _ => Std.TransCmp.isLE_trans⟩
  have : Std.Total fun a b : α => (cmp a b).isLE = true := by
    refine ⟨fun a b => ?_⟩
    rw [show cmp b a = (cmp a b).swap from Std.OrientedCmp.eq_swap]
    cases cmp a b <;> simp
  exact List.pairwise_insertionSort _ _

/-- Sorting a list of which no two entries compare equal makes it ascend strictly. -/
theorem pairwise_lt (h : l.Pairwise fun a b => cmp a b ≠ .eq) :
    (l.insertionSort fun a b => (cmp a b).isLE = true).Pairwise fun a b => cmp a b = .lt := by
  have hne : (l.insertionSort fun a b => (cmp a b).isLE = true).Pairwise fun a b => cmp a b ≠ .eq :=
    h.perm (List.perm_insertionSort _ l).symm fun hne => mt Std.OrientedCmp.eq_symm hne
  refine (pairwise_isLE l).imp₂ (fun a b hle hne => ?_) hne
  cases hcmp : cmp a b with
  | lt => rfl
  | eq => exact absurd hcmp hne
  | gt => rw [hcmp] at hle; cases hle

omit [Std.TransCmp cmp] in
/-- A strictly ascending list is not moved by sorting. -/
theorem insertionSort_eq (h : l.Pairwise fun a b => cmp a b = .lt) :
    (l.insertionSort fun a b => (cmp a b).isLE = true) = l :=
  (h.imp fun hlt => by rw [hlt]; rfl).insertionSort_eq

/-- An entry of a strictly ascending list is among the first ones if enough larger ones follow. -/
theorem mem_take_iff (h : l.Pairwise fun a b => cmp a b = .lt) {x : α} (hx : x ∈ l) (n : Nat) :
    x ∈ l.take n ↔ l.length ≤ n + l.countP fun y => cmp x y = .lt := by
  obtain ⟨before, after, rfl⟩ := List.append_of_mem hx
  obtain ⟨-, hafter, hbefore⟩ := List.pairwise_append.mp h
  have hself : cmp x x = .eq := Std.ReflCmp.compare_self
  have hlt : ∀ y ∈ before, cmp y x = .lt := fun y hy => hbefore y hy x List.mem_cons_self
  have hgt : ∀ y ∈ after, cmp x y = .lt := (List.pairwise_cons.mp hafter).1
  have hnot : x ∉ before := fun hmem => by simpa [hself] using hlt x hmem
  have hnone : (before.countP fun y => cmp x y = .lt) = 0 := by
    refine List.countP_eq_zero.mpr fun y hy => ?_
    rw [show cmp x y = (cmp y x).swap from Std.OrientedCmp.eq_swap, hlt y hy]
    simp
  have hall : (after.countP fun y => cmp x y = .lt) = after.length :=
    List.countP_eq_length.mpr fun y hy => by simpa using hgt y hy
  have hmem : x ∈ (before ++ x :: after).take n ↔ before.length < n := by
    rw [List.take_append, List.mem_append, or_iff_right fun h => hnot (List.mem_of_mem_take h)]
    cases hn : n - before.length with
    | zero => exact iff_of_false (by simp) (by omega)
    | succ k => exact iff_of_true (by simp) (by omega)
  rw [hmem, List.countP_append, List.countP_cons_of_neg (by simp [hself]), hnone, hall,
    List.length_append, List.length_cons]
  omega

end Sorting
