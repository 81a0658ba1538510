import Mathlib.Data.List.Perm.Subperm
import Tacenta.Library.Table

/-!
# Tables and lists of rows

A table is filled from a list of rows, each inserted under its key. Rows with distinct keys are the
entries of the table, so that listing the entries in any order and filling a table from them gives a
table with the same entries; rows with a repeated key leave fewer entries than rows.

## Main definitions

* `Table.insertAll`: fill a table from rows.
* `Table.pairs`: the entries as pairs.
* `Table.All`: every entry meets a condition.
* `Table.Indexes`: a table maps a field of the records of another one to their keys.

## Main results

* `Table.lookup_insertAll_of_perm`: rows that list a table fill one with the same entries.
* `Table.length_insertAll_eq_iff`: as many entries as rows mean distinct keys.
-/

namespace Table

variable {α β γ : Type}

def pairs (t : Table α β) : List (α × β) := t.entries.map fun entry => (entry.1, entry.2)

theorem map_fst_pairs (t : Table α β) : t.pairs.map Prod.fst = t.keys := by
  rw [pairs, List.map_map]
  rfl

theorem nodup_pairs (t : Table α β) : t.pairs.Nodup :=
  List.Nodup.of_map Prod.fst (map_fst_pairs t ▸ t.keys_nodup)

theorem nodup_of_perm_pairs {t : Table α β} {xs : List (α × β)} (h : xs.Perm t.pairs) :
    (xs.map Prod.fst).Nodup := by
  rw [(h.map _).nodup_iff, map_fst_pairs]
  exact t.keys_nodup

variable [DecidableEq α]

theorem mem_pairs {t : Table α β} {x : α × β} : x ∈ t.pairs ↔ t.lookup x.1 = some x.2 := by
  rw [pairs, List.mem_map, ← Option.mem_def, AList.mem_lookup_iff]
  constructor
  · rintro ⟨entry, hentry, rfl⟩
    exact hentry
  · intro h
    exact ⟨_, h, rfl⟩

theorem mem_congr {t t' : Table α β} (h : ∀ k, t'.lookup k = t.lookup k) {k : α} :
    k ∈ t' ↔ k ∈ t := by
  rw [← AList.lookup_isSome, ← AList.lookup_isSome, h]

/-! ### Filling -/

/-- Insert rows one after the other. -/
def insertAll (key : γ → α) (value : γ → β) (t : Table α β) (xs : List γ) : Table α β :=
  xs.foldl (fun t x => t.insert (key x) (value x)) t

variable {key : γ → α} {value : γ → β} {t : Table α β} {xs : List γ}

theorem mem_insertAll {k : α} : k ∈ insertAll key value t xs ↔ k ∈ xs.map key ∨ k ∈ t := by
  induction xs generalizing t with
  | nil => exact (or_iff_right List.not_mem_nil).symm
  | cons x xs ih =>
    rw [insertAll, List.foldl_cons]
    refine ih.trans ?_
    rw [AList.mem_insert, List.map_cons, List.mem_cons, or_left_comm, or_assoc]

/-- Filling one table of a larger state. -/
theorem foldl_insert {σ : Type} {f : σ → γ → σ} (put : Table α β → σ)
    (h : ∀ t x, f (put t) x = put (t.insert (key x) (value x))) (t : Table α β) (xs : List γ) :
    xs.foldl f (put t) = put (insertAll key value t xs) := List.foldl_hom put h

theorem lookup_insertAll_eq_some (hnodup : (xs.map key).Nodup) {k : α} {v : β} :
    (insertAll key value ∅ xs).lookup k = some v ↔ ∃ x ∈ xs, key x = k ∧ value x = v := by
  suffices h : ∀ t : Table α β, (∀ x ∈ xs, key x ∉ t) →
      ((insertAll key value t xs).lookup k = some v ↔
        (∃ x ∈ xs, key x = k ∧ value x = v) ∨ t.lookup k = some v) by
    rw [h ∅ fun x _ => AList.notMem_empty (key x), AList.lookup_empty]
    exact or_iff_left (Option.some_ne_none v).symm
  induction xs with
  | nil => exact fun t _ => (or_iff_right (by simp)).symm
  | cons x xs ih =>
    intro t hnew
    obtain ⟨hx, hnodup⟩ := List.nodup_cons.mp hnodup
    obtain ⟨hxt, hnew⟩ := List.forall_mem_cons.mp hnew
    rw [insertAll, List.foldl_cons]
    refine (ih hnodup _ fun y hy hmem => ?_).trans ?_
    · rcases (AList.mem_insert _).mp hmem with heq | hmem
      · exact hx (heq ▸ List.mem_map_of_mem hy)
      · exact hnew y hy hmem
    · rw [lookup_insert_eq]
      constructor
      · rintro (⟨y, hy, hkey⟩ | h)
        · exact .inl ⟨y, List.mem_cons_of_mem _ hy, hkey⟩
        · split at h
          · next hk => exact .inl ⟨x, List.mem_cons_self, hk.symm, Option.some_inj.mp h⟩
          · exact .inr h
      · rintro (⟨y, hy, hkey, hvalue⟩ | h)
        · rcases List.mem_cons.mp hy with rfl | hy
          · exact .inr (by rw [if_pos hkey.symm, hvalue])
          · exact .inl ⟨y, hy, hkey, hvalue⟩
        · refine .inr ?_
          rw [if_neg, h]
          rintro rfl
          rw [AList.lookup_eq_none.mpr hxt] at h
          cases h

theorem keys_insertAll_subset : (insertAll key value ∅ xs).keys ⊆ xs.map key := fun k hk => by
  rcases mem_insertAll.mp (AList.mem_keys.mpr hk) with h | h
  · exact h
  · exact absurd h (AList.notMem_empty k)

/-- There are as many entries as rows exactly when the keys are distinct. -/
theorem length_insertAll_eq_iff :
    (insertAll key value ∅ xs).entries.length = xs.length ↔ (xs.map key).Nodup := by
  have hlength : (insertAll key value ∅ xs).keys.length =
      (insertAll key value ∅ xs).entries.length :=
    List.length_map _
  have hsubperm := (insertAll key value ∅ xs).keys_nodup.subperm keys_insertAll_subset
  rw [← hlength]
  constructor
  · intro h
    have hperm := hsubperm.perm_of_length_le (by rw [List.length_map, h])
    exact hperm.nodup_iff.mp (insertAll key value ∅ xs).keys_nodup
  · intro h
    have hall : xs.map key ⊆ (insertAll key value ∅ xs).keys := fun k hk =>
      AList.mem_keys.mp (mem_insertAll.mpr (.inl hk))
    have hle := (h.subperm hall).length_le
    rw [List.length_map] at hle
    exact Nat.le_antisymm (by simpa using hsubperm.length_le) hle

theorem pairs_insertAll_perm (hnodup : (xs.map key).Nodup) :
    (insertAll key value ∅ xs).pairs.Perm (xs.map fun x => (key x, value x)) := by
  have hrows : (xs.map fun x => (key x, value x)).Nodup := by
    refine List.Nodup.of_map Prod.fst ?_
    rwa [List.map_map]
  rw [List.perm_ext_iff_of_nodup (nodup_pairs _) hrows]
  rintro ⟨k, v⟩
  rw [mem_pairs, lookup_insertAll_eq_some hnodup, List.mem_map]
  simp only [Prod.mk.injEq]

/-- Rows that list a table fill one with the same entries. -/
theorem lookup_insertAll_of_perm (key : γ → α) (value : γ → β) (row : α × β → γ)
    (hperm : xs.Perm (t.pairs.map row))
    (hrow : ∀ k v, t.lookup k = some v → key (row (k, v)) = k ∧ value (row (k, v)) = v) :
    (xs.map key).Nodup ∧ ∀ k, (insertAll key value ∅ xs).lookup k = t.lookup k := by
  have hkeys : (t.pairs.map row).map key = t.keys := by
    rw [List.map_map, ← map_fst_pairs]
    exact List.map_congr_left fun x hx => (hrow x.1 x.2 (mem_pairs.mp hx)).1
  have hnodup : (xs.map key).Nodup := by
    rw [(hperm.map key).nodup_iff, hkeys]
    exact t.keys_nodup
  refine ⟨hnodup, fun k => Option.ext fun v => ?_⟩
  rw [lookup_insertAll_eq_some hnodup]
  constructor
  · rintro ⟨x, hx, rfl, rfl⟩
    obtain ⟨⟨k, v⟩, hpair, rfl⟩ := List.mem_map.mp (hperm.mem_iff.mp hx)
    have hlookup := mem_pairs.mp hpair
    obtain ⟨hkey, hvalue⟩ := hrow k v hlookup
    rw [hkey, hvalue]
    exact hlookup
  · intro h
    obtain ⟨hkey, hvalue⟩ := hrow k v h
    exact ⟨_, hperm.mem_iff.mpr (List.mem_map_of_mem (mem_pairs.mpr h)), hkey, hvalue⟩

/-! ### Conditions on entries -/

/-- Every entry meets the condition. -/
def All (P : α → β → Prop) (t : Table α β) : Prop := ∀ a b, t.lookup a = some b → P a b

variable {P Q : α → β → Prop}

theorem all_empty : All P (∅ : Table α β) := fun a b h => by
  rw [AList.lookup_empty] at h
  cases h

theorem All.mono (h : All P t) (hPQ : ∀ a b, P a b → Q a b) : All Q t := fun a b hb =>
  hPQ a b (h a b hb)

theorem All.of_mem (h : All P t) {xs : List (α × β)} (hperm : xs.Perm t.pairs) {x : α × β}
    (hx : x ∈ xs) : P x.1 x.2 := h x.1 x.2 (mem_pairs.mp (hperm.mem_iff.mp hx))

theorem All.insert (h : All P t) {a : α} {b : β} (hnew : P a b) : All P (t.insert a b) := by
  intro a' b' h'
  rw [lookup_insert_eq] at h'
  split at h'
  · next heq =>
    rw [heq, ← Option.some_inj.mp h']
    exact hnew
  · exact h a' b' h'

theorem All.insertAll (h : All P t) (hxs : ∀ x ∈ xs, P (key x) (value x)) :
    All P (insertAll key value t xs) := by
  induction xs generalizing t with
  | nil => exact h
  | cons x xs ih =>
    obtain ⟨hx, hxs⟩ := List.forall_mem_cons.mp hxs
    exact ih (h.insert hx) hxs

theorem All.erase (h : All P t) (a : α) : All P (t.erase a) := by
  intro a' b' h'
  rw [lookup_erase_eq] at h'
  split at h'
  · cases h'
  · exact h a' b' h'

theorem All.retain (h : All P t) (keep : α → β → Bool) : All P (t.retain keep) := fun a b hb =>
  h a b (lookup_of_lookup_retain hb).1

/-! ### Indexes -/

variable [DecidableEq γ] {field : β → γ} {index : Table γ α}

/-- The table maps a field of the records of another table to their keys. -/
def Indexes (field : β → γ) (t : Table α β) (index : Table γ α) : Prop :=
  ∀ name a, index.lookup name = some a ↔ ∃ b, t.lookup a = some b ∧ field b = name

theorem Indexes.insert (h : Indexes field t index) {a : α} {b : β} (ha : a ∉ t)
    (hname : field b ∉ index) : Indexes field (t.insert a b) (index.insert (field b) a) := by
  intro name a'
  simp only [lookup_insert_eq]
  constructor
  · intro h'
    split at h'
    · next heq =>
      obtain rfl := Option.some_inj.mp h'
      exact ⟨b, if_pos rfl, heq.symm⟩
    · obtain ⟨b', hb', hfield⟩ := (h name a').mp h'
      refine ⟨b', ?_, hfield⟩
      rw [if_neg, hb']
      rintro rfl
      rw [AList.lookup_eq_none.mpr ha] at hb'
      cases hb'
  · rintro ⟨b', hb', rfl⟩
    split at hb'
    · next heq =>
      rw [← Option.some_inj.mp hb', if_pos rfl, heq]
    · have hold := (h (field b') a').mpr ⟨b', hb', rfl⟩
      rw [if_neg, hold]
      intro heq
      rw [heq, AList.lookup_eq_none.mpr hname] at hold
      cases hold

/-- Rows with distinct keys and names fill a table and its index. -/
theorem indexes_insertAll {xs : List β} {key : β → α} (hkeys : (xs.map key).Nodup)
    (hnames : (xs.map field).Nodup) :
    Indexes field (insertAll key id ∅ xs) (insertAll field key ∅ xs) := by
  intro name a
  simp only [lookup_insertAll_eq_some hkeys, lookup_insertAll_eq_some hnames]
  constructor
  · rintro ⟨x, hx, rfl, rfl⟩
    exact ⟨x, ⟨x, hx, rfl, rfl⟩, rfl⟩
  · rintro ⟨_, ⟨x, hx, rfl, rfl⟩, rfl⟩
    exact ⟨x, hx, rfl, rfl⟩

theorem Indexes.eq_of_field_eq (h : Indexes field t index) {a a' : α} {b b' : β}
    (hb : t.lookup a = some b) (hb' : t.lookup a' = some b') (hfield : field b = field b') :
    a = a' := by
  have hname := (h (field b) a).mpr ⟨b, hb, rfl⟩
  rw [hfield, (h (field b') a').mpr ⟨b', hb', rfl⟩] at hname
  exact (Option.some_inj.mp hname).symm

/-- Rows that list a table fill its index. -/
theorem Indexes.lookup_insertAll (hindexes : Indexes field t index) {key : β → α}
    (hkey : t.All fun a b => key b = a) {xs : List β} (hperm : xs.Perm (t.pairs.map Prod.snd))
    (name : γ) : (insertAll field key ∅ xs).lookup name = index.lookup name := by
  have hmem (x : β) : x ∈ xs ↔ t.lookup (key x) = some x := by
    rw [hperm.mem_iff, List.mem_map]
    constructor
    · rintro ⟨⟨a, b⟩, hpair, rfl⟩
      have hlookup := mem_pairs.mp hpair
      rwa [hkey a b hlookup]
    · intro h
      exact ⟨(key x, x), mem_pairs.mpr h, rfl⟩
  have hnodup : (xs.map field).Nodup := by
    refine List.Nodup.map_on (fun x hx y hy hxy => ?_)
      (List.Nodup.of_map key (lookup_insertAll_of_perm key id Prod.snd hperm
        fun k v h => ⟨hkey k v h, rfl⟩).1)
    have heq := hindexes.eq_of_field_eq ((hmem x).mp hx) ((hmem y).mp hy) hxy
    exact Option.some_inj.mp (((hmem x).mp hx).symm.trans (heq ▸ (hmem y).mp hy))
  refine Option.ext fun a => ?_
  rw [lookup_insertAll_eq_some hnodup, hindexes name a]
  constructor
  · rintro ⟨x, hx, rfl, rfl⟩
    exact ⟨x, (hmem x).mp hx, rfl⟩
  · rintro ⟨x, hx, rfl⟩
    have ha := hkey a x hx
    exact ⟨x, (hmem x).mpr (ha.symm ▸ hx), rfl, ha⟩

end Table
