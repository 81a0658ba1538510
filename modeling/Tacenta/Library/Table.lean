import Mathlib.Algebra.BigOperators.Group.List.Basic
import Mathlib.Algebra.Order.BigOperators.Group.List
import Mathlib.Algebra.Order.Group.Nat
import Mathlib.Algebra.Ring.Nat
import Mathlib.Data.List.AList

/-!
# Tables

Maps with finitely many entries as Mathlib's association lists, with what a hash map offers beyond
them: keep the entries that meet a condition, and add up a weight over the entries. Two tables that
agree on every key have the same entries up to their order, so they have the same totals.

## Main definitions

* `Table`: a map from keys to values of one type.
* `Table.retain`: keep the entries that meet a condition.
* `Table.total`: the sum of a weight over the entries.

## Main results

* `Table.lookup_retain`: what is kept of an entry.
* `Table.total_insert`: how a total changes when an entry is replaced.
-/

/-- A map with finitely many entries. -/
abbrev Table (α β : Type) := AList fun _ : α => β

namespace Table

variable {α β : Type}

/-- Keep the entries that meet the condition. -/
def retain (keep : α → β → Bool) (s : Table α β) : Table α β :=
  ⟨s.entries.filter fun entry => keep entry.1 entry.2, s.nodupKeys.sublist List.filter_sublist⟩

theorem lookup_retain [DecidableEq α] (keep : α → β → Bool) (s : Table α β) (a : α) :
    (s.retain keep).lookup a = (s.lookup a).filter (keep a) := by
  ext b
  rw [Option.filter_eq_some_iff, ← Option.mem_def, ← Option.mem_def, AList.mem_lookup_iff,
    AList.mem_lookup_iff, retain, List.mem_filter]

theorem lookup_of_lookup_retain [DecidableEq α] {keep : α → β → Bool} {s : Table α β} {a : α}
    {b : β} (h : (s.retain keep).lookup a = some b) : s.lookup a = some b ∧ keep a b = true := by
  rwa [lookup_retain, Option.filter_eq_some_iff] at h

theorem lookup_insert_eq [DecidableEq α] (s : Table α β) (a a' : α) (b : β) :
    (s.insert a b).lookup a' = if a' = a then some b else s.lookup a' := by
  split
  · next h => rw [h, AList.lookup_insert]
  · next h => rw [AList.lookup_insert_ne h]

theorem lookup_erase_eq [DecidableEq α] (s : Table α β) (a a' : α) :
    (s.erase a).lookup a' = if a' = a then none else s.lookup a' := by
  split
  · next h => rw [h, AList.lookup_erase]
  · next h => rw [AList.lookup_erase_ne h]

/-! ### Totals -/

/-- The sum of a weight over the entries. -/
def total (weight : α → β → Nat) (s : Table α β) : Nat :=
  (s.entries.map fun entry => weight entry.1 entry.2).sum

variable {weight weight' : α → β → Nat} {s s' : Table α β}

theorem total_congr [DecidableEq α] (h : ∀ a b, s.lookup a = some b → weight a b = weight' a b) :
    total weight s = total weight' s := by
  refine congrArg List.sum (List.map_congr_left fun entry hentry => h entry.1 entry.2 ?_)
  exact AList.mem_lookup_iff.mpr hentry

theorem total_eq_of_lookup [DecidableEq α] (weight : α → β → Nat)
    (h : ∀ a, s.lookup a = s'.lookup a) : total weight s = total weight s' := by
  have hperm : s.entries.Perm s'.entries := by
    refine List.lookup_ext s.nodupKeys s'.nodupKeys fun a b => ?_
    exact iff_of_eq (congrArg (b ∈ ·) (h a))
  exact (hperm.map _).sum_eq

theorem total_insert_of_lookup_none [DecidableEq α] {a : α} (h : s.lookup a = none) (b : β) :
    total weight (s.insert a b) = weight a b + total weight s := by
  rw [total, AList.entries_insert_of_notMem (AList.lookup_eq_none.mp h), List.map_cons,
    List.sum_cons]
  rfl

/-- The new entry takes the place of the old one. -/
theorem total_insert [DecidableEq α] (weight : α → β → Nat) (s : Table α β) (a : α) (b : β) :
    total weight (s.insert a b) + ((s.lookup a).map (weight a)).getD 0 =
      total weight s + weight a b := by
  cases hlookup : s.lookup a with
  | none =>
    rw [total_insert_of_lookup_none hlookup, Option.map_none, Option.getD_none, Nat.add_zero,
      Nat.add_comm]
  | some old =>
    -- both tables are what remains without the entry, and their entry
    have hnew (b' : β) : total weight ((s.erase a).insert a b') =
        weight a b' + total weight (s.erase a) :=
      total_insert_of_lookup_none (AList.lookup_erase a s) b'
    have hinsert : total weight (s.insert a b) = total weight ((s.erase a).insert a b) := by
      refine total_eq_of_lookup weight fun a' => ?_
      rw [lookup_insert_eq, lookup_insert_eq, lookup_erase_eq]
      split <;> rfl
    have hold : total weight s = total weight ((s.erase a).insert a old) := by
      refine total_eq_of_lookup weight fun a' => ?_
      rw [lookup_insert_eq, lookup_erase_eq]
      split
      · next ha => rw [ha, hlookup]
      · rfl
    rw [hinsert, hold, hnew, hnew, Option.map_some, Option.getD_some]
    omega

theorem le_total [DecidableEq α] (weight : α → β → Nat) {a : α} {b : β} (h : s.lookup a = some b) :
    weight a b ≤ total weight s :=
  List.single_le_sum (fun _ _ => Nat.zero_le _) _
    (List.mem_map_of_mem (f := fun entry => weight entry.1 entry.2) (AList.mem_lookup_iff.mp h))

theorem total_le_total (h : ∀ a b, weight a b ≤ weight' a b) : total weight s ≤ total weight' s :=
  List.sum_le_sum fun entry _ => h entry.1 entry.2

end Table
