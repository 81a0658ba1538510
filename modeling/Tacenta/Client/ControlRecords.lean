import Tacenta.Client.GroupRecords

/-!
# Checkpoints among the control records

The control records of a snapshot are bounded, but the latest checkpoint of each kind is never
evicted. As long as all checkpoints of a kind have one scope, there is at most one of them, and it
is the last one that was appended.

## Main results

* `filter_appendGroupControlRecords`: the checkpoint of a kind after records were appended.
* `latestGroupOutboxCancellation_eq`: the newest cancellation is read from its checkpoint.
-/

open ByteString Result Tacenta.Group

namespace Tacenta.Client

variable {tag record : Bytes} {controls records : List Bytes} {latest : Option Bytes}

theorem length_of_mem_checkpointTags (h : tag ∈ checkpointTags) : tag.length = 4 := by
  revert tag
  decide

theorem tag_unique {tag' : Bytes} (hlength : tag.length = 4) (hlength' : tag'.length = 4)
    (h : hasTag tag record = true) (h' : hasTag tag' record = true) : tag = tag' :=
  List.IsPrefix.eq_of_length (List.prefix_of_prefix_length_le (of_decide_eq_true h)
    (of_decide_eq_true h') (by omega)) (by omega)

/-- The tag that `pushControl` finds is the record's tag. -/
private theorem find_checkpointTag (htag : tag ∈ checkpointTags) (h : hasTag tag record = true) :
    (checkpointTags.find? fun tag => hasTag tag record) = some tag := by
  cases hfind : checkpointTags.find? fun tag => hasTag tag record with
  | none => exact absurd h (List.find?_eq_none.mp hfind tag htag)
  | some found =>
    rw [tag_unique (length_of_mem_checkpointTags (List.mem_of_find?_eq_some hfind))
      (length_of_mem_checkpointTags htag)
      (List.find?_some (p := fun tag => hasTag tag record) hfind) h]

/-- A record of another kind leaves the checkpoint of a kind as it is. -/
theorem filter_pushControl_of_not (htag : tag ∈ checkpointTags)
    (h : ¬hasTag tag record = true) :
    (pushControl controls record).filter (hasTag tag) = controls.filter (hasTag tag) := by
  rw [pushControl, List.filter_append, List.filter_cons_of_neg h, List.filter_nil, List.append_nil]
  cases hfind : checkpointTags.find? fun tag => hasTag tag record with
  | none => rfl
  | some other =>
    have hother := length_of_mem_checkpointTags (List.mem_of_find?_eq_some hfind)
    refine (List.filter_filter ..).trans (List.filter_congr fun known _ => ?_)
    by_cases hknown : hasTag tag known = true
    · have hreplaces : replaces other record known = false := by
        refine decide_eq_false fun hboth => h ?_
        rw [tag_unique (length_of_mem_checkpointTags htag) hother hknown hboth.1]
        exact List.find?_some (p := fun tag => hasTag tag record) hfind
      rw [hreplaces]
      exact Bool.and_true _
    · rw [Bool.not_eq_true] at hknown
      rw [hknown]
      exact Bool.false_and _

/-- A checkpoint replaces the one of its kind and scope. -/
private theorem filter_pushControl_of_hasTag (htag : tag ∈ checkpointTags)
    (h : hasTag tag record = true) (hscope : ∀ known ∈ controls, hasTag tag known = true →
      leading (checkpointScope tag) known = leading (checkpointScope tag) record) :
    (pushControl controls record).filter (hasTag tag) = [record] := by
  rw [pushControl, find_checkpointTag htag h, List.filter_append, List.filter_cons_of_pos h,
    List.filter_nil, List.filter_filter]
  refine congrArg (· ++ [record]) (List.filter_eq_nil_iff.mpr fun known hknown hboth => ?_)
  obtain ⟨htagged, hkept⟩ := Bool.and_eq_true _ _ ▸ hboth
  have hreplaces : replaces tag record known = true :=
    decide_eq_true ⟨htagged, hscope known hknown htagged⟩
  rw [hreplaces] at hkept
  exact nomatch hkept

/-- Eviction keeps the only checkpoint of a kind. -/
private theorem filter_evictOldest (htag : tag ∈ checkpointTags)
    (h : controls.filter (hasTag tag) = latest.toList) :
    (evictOldest controls).filter (hasTag tag) = latest.toList := by
  induction controls generalizing latest with
  | nil => exact h
  | cons record rest ih =>
    rw [evictOldest]
    split
    · by_cases hrecord : hasTag tag record = true
      · rw [List.filter_cons_of_pos hrecord] at h ⊢
        cases latest with
        | none => exact nomatch h
        | some _ =>
          obtain ⟨rfl, hrest⟩ := List.cons.inj h
          have hkept : (evictOldest rest).filter (hasTag tag) = (none : Option Bytes).toList :=
            ih hrest
          exact congrArg _ hkept
      · rw [List.filter_cons_of_neg hrecord] at h ⊢
        exact ih h
    · rename_i hevicted
      have hrecord : ¬hasTag tag record = true := by
        intro hrecord
        rw [List.filter_cons_of_pos hrecord] at h
        cases latest with
        | none => exact nomatch h
        | some _ =>
          have hnone := List.filter_eq_nil_iff.mp (List.cons.inj h).2
          have hrest : rest.any (hasTag tag) = false :=
            List.any_eq_false.mpr fun later hmem => hnone later hmem
          exact hevicted (List.any_eq_true.mpr ⟨tag, htag, by rw [hrecord, hrest]; rfl⟩)
      rwa [List.filter_cons_of_neg hrecord] at h

/-- Pushing records one after the other leaves the last checkpoint of a kind. -/
private theorem filter_foldl_pushControl (htag : tag ∈ checkpointTags) {key : Option Bytes}
    (h : controls.filter (hasTag tag) = latest.toList)
    (hscope : ∀ known ∈ latest.toList ++ records, hasTag tag known = true →
      leading (checkpointScope tag) known = key) :
    (records.foldl pushControl controls).filter (hasTag tag) =
      (latest.toList ++ records.filter (hasTag tag)).getLast?.toList := by
  induction records generalizing controls latest with
  | nil => cases latest <;> simpa using h
  | cons record records ih =>
    rw [List.foldl_cons]
    by_cases hrecord : hasTag tag record = true
    · have hpush : (pushControl controls record).filter (hasTag tag) = (some record).toList := by
        refine filter_pushControl_of_hasTag htag hrecord fun known hknown htagged => ?_
        have hmem : known ∈ latest.toList := h ▸ List.mem_filter.mpr ⟨hknown, htagged⟩
        rw [hscope known (List.mem_append_left _ hmem) htagged,
          hscope record (List.mem_append_right _ List.mem_cons_self) hrecord]
      have hih := ih hpush fun known hknown htagged =>
        hscope known (List.mem_append_right _ hknown) htagged
      rw [hih, List.filter_cons_of_pos hrecord, List.getLast?_append_cons]
      rfl
    · have hih := ih ((filter_pushControl_of_not htag hrecord).trans h)
          fun known hknown htagged => by
        refine hscope known ?_ htagged
        rcases List.mem_append.mp hknown with hknown | hknown
        · exact List.mem_append_left _ hknown
        · exact List.mem_append_right _ (List.mem_cons_of_mem _ hknown)
      rw [hih, List.filter_cons_of_neg hrecord]

/-- **Checkpoints survive the bound.** If the checkpoints of a kind have one scope, then after
records were appended, and the oldest records evicted, exactly the last of them is there. -/
theorem filter_appendGroupControlRecords (htag : tag ∈ checkpointTags) {key : Option Bytes}
    (h : controls.filter (hasTag tag) = latest.toList)
    (hscope : ∀ known ∈ latest.toList ++ records, hasTag tag known = true →
      leading (checkpointScope tag) known = key) :
    (appendGroupControlRecords controls records).filter (hasTag tag) =
      (latest.toList ++ records.filter (hasTag tag)).getLast?.toList := by
  rw [appendGroupControlRecords]
  have hfold := filter_foldl_pushControl htag h hscope
  generalize records.foldl pushControl controls = all at hfold ⊢
  generalize all.length - maxGroupControlRecords = count
  induction count generalizing all with
  | zero => exact hfold
  | succ count ih =>
    rw [Function.iterate_succ_apply]
    exact ih _ (filter_evictOldest htag hfold)

/-- Records of other kinds leave the only checkpoint of a kind as it is. -/
theorem filter_append_of_none (htag : tag ∈ checkpointTags)
    (hrecords : records.filter (hasTag tag) = [])
    (h : controls.filter (hasTag tag) = latest.toList) :
    (appendGroupControlRecords controls records).filter (hasTag tag) = latest.toList := by
  have hscope : ∀ known ∈ latest.toList ++ records, hasTag tag known = true →
      leading (checkpointScope tag) known =
        latest.bind fun known => leading (checkpointScope tag) known := by
    intro known hknown htagged
    rcases List.mem_append.mp hknown with hknown | hknown
    · rw [Option.mem_toList.mp hknown]
      rfl
    · exact absurd htagged (List.filter_eq_nil_iff.mp hrecords known hknown)
  rw [filter_appendGroupControlRecords htag h hscope, hrecords, List.append_nil]
  cases latest <;> rfl

theorem leading_four (hlength : tag.length = 4) (h : hasTag tag record = true) :
    leading 4 record = some tag := by
  obtain ⟨body, rfl⟩ := of_decide_eq_true h
  rw [leading, if_pos (by rw [List.length_append]; omega), List.take_left' hlength]

theorem filter_view_append (h : controls.filter (hasTag (ascii "TCGV")) = latest.toList) :
    (appendGroupControlRecords controls records).filter (hasTag (ascii "TCGV")) =
      (latest.toList ++ records.filter (hasTag (ascii "TCGV"))).getLast?.toList :=
  filter_appendGroupControlRecords (by decide) h fun _ _ htag => leading_four rfl htag

/-! ### The newest cancellation -/

theorem hasTag_cancellation (groupId : GroupId) (revision : UInt64) :
    hasTag (ascii "TCGX") (encodeGroupOutboxCancellationRecord groupId revision) = true := by
  rw [encodeGroupOutboxCancellationRecord, List.append_assoc]
  exact decide_eq_true (List.prefix_append _ _)

/-- Cancellations of one group have one scope. -/
theorem leading_cancellation (groupId : GroupId) (revision : UInt64) :
    leading (checkpointScope (ascii "TCGX"))
      (encodeGroupOutboxCancellationRecord groupId revision) =
        some (ascii "TCGX" ++ groupId.bytes.val) := by
  have hlength : (ascii "TCGX" ++ groupId.bytes.val).length = checkpointScope (ascii "TCGX") := by
    rw [List.length_append, groupId.bytes.length_val]
    rfl
  have hle : checkpointScope (ascii "TCGX") ≤
      (encodeGroupOutboxCancellationRecord groupId revision).length := by
    rw [encodeGroupOutboxCancellationRecord, List.length_append, hlength]
    exact Nat.le_add_right _ _
  rw [leading, if_pos hle, encodeGroupOutboxCancellationRecord, List.take_left' hlength]

private theorem collectCancellation_encode (groupId : GroupId) (revision : UInt64) :
    collectCancellation groupId none (encodeGroupOutboxCancellationRecord groupId revision) =
      .ok (some revision) := by
  have hgroup : groupId.bytes.val.length = groupIdLen := groupId.bytes.length_val
  have hlength : (ascii "TCGX").length = 4 := by decide
  obtain ⟨-, hrevision⟩ := eq_u64Bytes_iff.mp (rfl : u64Bytes revision = u64Bytes revision)
  have hbody : (encodeGroupOutboxCancellationRecord groupId revision).drop 4 =
      groupId.bytes.val ++ u64Bytes revision := by
    rw [encodeGroupOutboxCancellationRecord, List.append_assoc, List.drop_left' hlength]
  have hsize : (encodeGroupOutboxCancellationRecord groupId revision).length =
      4 + groupIdLen + 8 := by
    rw [encodeGroupOutboxCancellationRecord, List.length_append, List.length_append, hlength,
      hgroup, length_u64Bytes]
  rw [collectCancellation, if_pos (hasTag_cancellation groupId revision), refuseIf_neg (by
    rw [hsize]; exact not_not.mpr rfl), ok_bind, hbody, List.take_left' hgroup, if_pos rfl,
    ← List.drop_drop, hbody, List.drop_left' hgroup, hrevision]
  have hmax : max 0 revision = revision := by
    rw [Word64.eq_iff, Word64.toNat_max]
    exact Nat.max_eq_right (Nat.zero_le _)
  exact congrArg (fun r => Except.ok (some r)) hmax

/-- The newest cancellation of a group whose cancellations are all that the controls hold. -/
theorem latestGroupOutboxCancellation_eq {groupId : GroupId} {newest : Option UInt64}
    (h : controls.filter (hasTag (ascii "TCGX")) =
      (newest.map (encodeGroupOutboxCancellationRecord groupId)).toList) :
    latestGroupOutboxCancellation controls groupId = .ok newest := by
  have hskip : ∀ earlier, controls.foldlM (collectCancellation groupId) earlier =
      (controls.filter (hasTag (ascii "TCGX"))).foldlM (collectCancellation groupId) earlier := by
    clear h
    induction controls with
    | nil => exact fun _ => rfl
    | cons record rest ih =>
      intro earlier
      by_cases hrecord : hasTag (ascii "TCGX") record = true
      · rw [List.filter_cons_of_pos hrecord, List.foldlM_cons, List.foldlM_cons]
        exact bind_congr ih
      · rw [List.filter_cons_of_neg hrecord, List.foldlM_cons, collectCancellation,
          if_neg hrecord]
        exact ih earlier
  rw [latestGroupOutboxCancellation, hskip, h]
  cases newest with
  | none => rfl
  | some revision =>
    rw [Option.map_some, Option.toList_some, List.foldlM_cons, collectCancellation_encode]
    rfl

end Tacenta.Client
