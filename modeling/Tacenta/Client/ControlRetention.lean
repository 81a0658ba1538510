import Tacenta.Client.GroupState

/-!
# The bound on the control records

Appending control records evicts the oldest ones beyond a bound, except the latest checkpoint of
each kind. The eviction looks for the first record that is at no such position and expects to find
one. There are six kinds, so it does.

## Main definitions

* `latestPosition`, `eviction`: the positions that the eviction looks at and the one it takes.
* `tryAppendGroupControlRecords`: appending, where a missing eviction is a failure.

## Main results

* `tryAppendGroupControlRecords_eq`: the eviction always finds a record.
* `length_appendGroupControlRecords_le`: the bound.
* `latestCheckpoint_append`: the latest checkpoint of each kind is never evicted.
-/

open ByteString

namespace Tacenta.Client

variable {tag record : Bytes} {controls records : List Bytes}

/-! ### The eviction of the source -/

/-- The position of the latest record that starts with a tag. -/
def latestPosition (controls : List Bytes) (tag : Bytes) : Option Nat :=
  (controls.reverse.findIdx? (hasTag tag)).map fun index => controls.length - 1 - index

/-- The first position that is not the latest of a kind of checkpoint. -/
def eviction (controls : List Bytes) : Option Nat :=
  (List.range controls.length).find? fun index =>
    checkpointTags.all fun tag => some index ≠ latestPosition controls tag

/-- Evict a number of records, as long as there is one to evict. -/
def tryEvict : Nat → List Bytes → Option (List Bytes)
  | 0, controls => some controls
  | count + 1, controls => (eviction controls).bind fun index =>
    tryEvict count (controls.eraseIdx index)

/-- Append records and evict the oldest ones beyond the bound, as long as there is one to evict. -/
def tryAppendGroupControlRecords (controls records : List Bytes) : Option (List Bytes) :=
  let controls := records.foldl pushControl controls
  tryEvict (controls.length - maxGroupControlRecords) controls

/-- A record that is the latest of a kind of checkpoint among those from it on. -/
def isLatest (record : Bytes) (rest : List Bytes) : Bool :=
  checkpointTags.any fun tag => hasTag tag record && !rest.any (hasTag tag)

theorem latestPosition_cons (record : Bytes) (rest : List Bytes) (tag : Bytes) :
    latestPosition (record :: rest) tag =
      ((latestPosition rest tag).map (· + 1)).or (if hasTag tag record then some 0 else none) := by
  rw [latestPosition, latestPosition, List.reverse_cons, List.findIdx?_append]
  cases hfind : rest.reverse.findIdx? (hasTag tag) with
  | none =>
    by_cases h : hasTag tag record = true
    · simp [List.findIdx?_cons, h]
    · simp [List.findIdx?_cons, h]
  | some index =>
    have hlt : index < rest.length := by
      obtain ⟨hlt, -⟩ := List.findIdx?_eq_some_iff_getElem.mp hfind
      simpa using hlt
    simp only [Option.some_or, Option.map_some, List.length_cons, Option.some_inj]
    omega

theorem latestPosition_eq_none_iff :
    latestPosition controls tag = none ↔ controls.any (hasTag tag) = false := by
  rw [latestPosition, Option.map_eq_none_iff, List.findIdx?_eq_none_iff, List.any_eq_false]
  simp only [List.mem_reverse, Bool.not_eq_true]

private theorem ne_latestPosition_zero (record : Bytes) (rest : List Bytes) :
    (checkpointTags.all fun tag => decide (some 0 ≠ latestPosition (record :: rest) tag)) =
      !isLatest record rest := by
  rw [isLatest, List.not_any_eq_all_not]
  refine List.all_congr rfl fun tag => ?_
  rw [latestPosition_cons]
  cases hrest : latestPosition rest tag with
  | none =>
    rw [latestPosition_eq_none_iff.mp hrest]
    by_cases h : hasTag tag record = true
    · simp [h]
    · simp [h]
  | some index =>
    have hany : rest.any (hasTag tag) = true := by
      rw [← Bool.not_eq_false, ← latestPosition_eq_none_iff, hrest]
      simp
    simp [hany]

/-- The eviction takes the first record, or skips it if it is the latest of a kind. -/
theorem eviction_cons (record : Bytes) (rest : List Bytes) :
    eviction (record :: rest) =
      if isLatest record rest then (eviction rest).map (· + 1) else some 0 := by
  rw [eviction, List.length_cons, List.range_succ_eq_map, List.find?_cons,
    ne_latestPosition_zero]
  cases isLatest record rest with
  | false => rfl
  | true =>
    simp only [Bool.not_true, if_true, List.find?_map, eviction]
    refine congrArg (Option.map _) (congrArg (List.find? · _) (funext fun index => ?_))
    refine List.all_congr rfl fun tag => ?_
    rw [latestPosition_cons]
    cases latestPosition rest tag with
    | none => by_cases h : hasTag tag record = true <;> simp [h]
    | some position => simp

theorem evictOldest_eq {index : Nat} (h : eviction controls = some index) :
    evictOldest controls = controls.eraseIdx index := by
  induction controls generalizing index with
  | nil => cases h
  | cons record rest ih =>
    rw [eviction_cons] at h
    rw [evictOldest]
    change (if isLatest record rest then _ else _) = _
    by_cases hlatest : isLatest record rest = true
    · rw [if_pos hlatest] at h ⊢
      obtain ⟨later, hlater, rfl⟩ := Option.map_eq_some_iff.mp h
      rw [List.eraseIdx_cons_succ, ih hlater]
    · rw [if_neg hlatest] at h ⊢
      rw [← Option.some_inj.mp h, List.eraseIdx_cons_zero]

/-! ### There is always a record to evict -/

/-- The kinds of checkpoints among the records. -/
def presentTags (controls : List Bytes) : List Bytes :=
  checkpointTags.filter fun tag => controls.any (hasTag tag)

/-- A record that is the latest of a kind adds a kind to those that follow it. -/
theorem length_presentTags_lt {rest : List Bytes} (h : isLatest record rest = true) :
    (presentTags rest).length < (presentTags (record :: rest)).length := by
  obtain ⟨tag, htag, hboth⟩ := List.any_eq_true.mp h
  rw [Bool.and_eq_true, Bool.not_eq_true'] at hboth
  have hfilter : presentTags rest =
      (presentTags (record :: rest)).filter fun tag => rest.any (hasTag tag) := by
    rw [presentTags, presentTags, List.filter_filter]
    refine List.filter_congr fun tag _ => ?_
    rw [List.any_cons]
    cases rest.any (hasTag tag) <;> simp
  have hmem : tag ∈ presentTags (record :: rest) :=
    List.mem_filter.mpr ⟨htag, by rw [List.any_cons, hboth.1, Bool.true_or]⟩
  rw [hfilter]
  exact List.length_filter_lt_length_iff_exists.mpr ⟨tag, hmem, by simp [hboth.2]⟩

/-- If there is nothing to evict, then each record is the latest of a kind of its own. -/
theorem length_le_of_eviction_eq_none (h : eviction controls = none) :
    controls.length ≤ (presentTags controls).length := by
  induction controls with
  | nil => exact Nat.zero_le _
  | cons record rest ih =>
    rw [eviction_cons] at h
    by_cases hlatest : isLatest record rest = true
    · rw [if_pos hlatest, Option.map_eq_none_iff] at h
      have hrest := ih h
      have hlt := length_presentTags_lt hlatest
      rw [List.length_cons]
      omega
    · rw [if_neg hlatest] at h
      cases h

theorem exists_eviction (h : checkpointTags.length < controls.length) :
    ∃ index, eviction controls = some index ∧ index < controls.length := by
  cases heviction : eviction controls with
  | none =>
    have hle := length_le_of_eviction_eq_none heviction
    have hpresent : (presentTags controls).length ≤ checkpointTags.length :=
      List.length_filter_le _ _
    omega
  | some index =>
    exact ⟨index, rfl, List.mem_range.mp (List.mem_of_find?_eq_some heviction)⟩

theorem length_evictOldest (h : checkpointTags.length < controls.length) :
    (evictOldest controls).length = controls.length - 1 := by
  obtain ⟨index, heviction, hlt⟩ := exists_eviction h
  rw [evictOldest_eq heviction, List.length_eraseIdx_of_lt hlt]

private theorem kinds_le_bound : checkpointTags.length ≤ maxGroupControlRecords := by decide

private theorem length_iterate_evictOldest (count : Nat)
    (h : controls.length = maxGroupControlRecords + count) :
    (evictOldest^[count] controls).length = maxGroupControlRecords := by
  induction count generalizing controls with
  | zero => exact h
  | succ count ih =>
    have hle := kinds_le_bound
    rw [Function.iterate_succ_apply]
    refine ih ?_
    rw [length_evictOldest (by omega)]
    omega

/-- **The bound.** -/
theorem length_appendGroupControlRecords_le (controls records : List Bytes) :
    (appendGroupControlRecords controls records).length ≤ maxGroupControlRecords := by
  rw [appendGroupControlRecords]
  generalize records.foldl pushControl controls = all
  by_cases h : all.length ≤ maxGroupControlRecords
  · rw [Nat.sub_eq_zero_of_le h]
    exact h
  · exact (length_iterate_evictOldest _ (by omega)).le

private theorem tryEvict_eq (count : Nat) (h : maxGroupControlRecords + count ≤ controls.length) :
    tryEvict count controls = some (evictOldest^[count] controls) := by
  induction count generalizing controls with
  | zero => rfl
  | succ count ih =>
    have hle := kinds_le_bound
    have hlength : checkpointTags.length < controls.length := by omega
    obtain ⟨index, heviction, -⟩ := exists_eviction hlength
    rw [tryEvict, heviction, Option.bind_some, ← evictOldest_eq heviction,
      Function.iterate_succ_apply]
    refine ih ?_
    rw [length_evictOldest hlength]
    omega

/-- **The eviction always finds a record.** -/
theorem tryAppendGroupControlRecords_eq (controls records : List Bytes) :
    tryAppendGroupControlRecords controls records =
      some (appendGroupControlRecords controls records) := by
  rw [tryAppendGroupControlRecords, appendGroupControlRecords]
  generalize records.foldl pushControl controls = all
  by_cases h : all.length ≤ maxGroupControlRecords
  · rw [Nat.sub_eq_zero_of_le h]
    rfl
  · exact tryEvict_eq _ (by omega)

/-! ### The latest checkpoints stay -/

theorem latestCheckpoint_concat (controls : List Bytes) (record scope : Bytes) :
    latestCheckpoint (controls ++ [record]) scope =
      if hasTag scope record then some record else latestCheckpoint controls scope := by
  rw [latestCheckpoint, List.reverse_append, List.reverse_singleton, List.singleton_append,
    List.find?_cons]
  cases hasTag scope record <;> rfl

/-- A pushed record is the latest of its kind and leaves the latest of the others. -/
theorem latestCheckpoint_pushControl (htag : tag ∈ checkpointTags) :
    latestCheckpoint (pushControl controls record) tag =
      latestCheckpoint (controls ++ [record]) tag := by
  by_cases h : hasTag tag record = true
  · rw [pushControl, latestCheckpoint_concat, latestCheckpoint_concat, if_pos h, if_pos h]
  · rw [latestCheckpoint_eq, filter_pushControl_of_not htag h, latestCheckpoint_concat, if_neg h,
      latestCheckpoint_eq]

theorem latestCheckpoint_foldl_pushControl (htag : tag ∈ checkpointTags) :
    latestCheckpoint (records.foldl pushControl controls) tag =
      latestCheckpoint (controls ++ records) tag := by
  induction records using List.reverseRecOn with
  | nil => rw [List.foldl_nil, List.append_nil]
  | append_singleton records record ih =>
    rw [List.foldl_append, List.foldl_cons, List.foldl_nil, latestCheckpoint_pushControl htag,
      latestCheckpoint_concat, ih, ← List.append_assoc, latestCheckpoint_concat]

theorem latestCheckpoint_evictOldest (htag : tag ∈ checkpointTags) :
    latestCheckpoint (evictOldest controls) tag = latestCheckpoint controls tag := by
  simp only [latestCheckpoint_eq]
  induction controls with
  | nil => rfl
  | cons record rest ih =>
    rw [evictOldest]
    change ((if isLatest record rest then _ else _ : List Bytes).filter _).getLast? = _
    by_cases hlatest : isLatest record rest = true
    · rw [if_pos hlatest, List.filter_cons, List.filter_cons]
      by_cases h : hasTag tag record = true
      · rw [if_pos h, if_pos h, List.getLast?_cons, List.getLast?_cons, ih]
      · rw [if_neg h, if_neg h, ih]
    · rw [if_neg hlatest, List.filter_cons]
      by_cases h : hasTag tag record = true
      · have hany : rest.any (hasTag tag) = true := by
          by_contra hnone
          refine hlatest (List.any_eq_true.mpr ⟨tag, htag, ?_⟩)
          rw [h, Bool.eq_false_iff.mpr hnone]
          rfl
        obtain ⟨known, hknown, hkind⟩ := List.any_eq_true.mp hany
        have hmem : known ∈ rest.filter (hasTag tag) := List.mem_filter.mpr ⟨hknown, hkind⟩
        rw [if_pos h, List.getLast?_cons, List.getLast?_eq_getLast_of_ne_nil
          (List.ne_nil_of_mem hmem)]
        rfl
      · rw [if_neg h]

/-- **Checkpoints are never evicted.** The latest checkpoint of each kind after records were
appended is the latest one among the records before and the appended ones. -/
theorem latestCheckpoint_append (htag : tag ∈ checkpointTags) (controls records : List Bytes) :
    latestCheckpoint (appendGroupControlRecords controls records) tag =
      latestCheckpoint (controls ++ records) tag := by
  rw [appendGroupControlRecords, ← latestCheckpoint_foldl_pushControl htag]
  generalize records.foldl pushControl controls = all
  generalize all.length - maxGroupControlRecords = count
  induction count generalizing all with
  | zero => rfl
  | succ count ih => rw [Function.iterate_succ_apply, ih, latestCheckpoint_evictOldest htag]

end Tacenta.Client
