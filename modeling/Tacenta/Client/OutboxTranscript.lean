import Tacenta.Client.ControlRecords
import Tacenta.Client.OutboxOperations
import Tacenta.Group.Mirror

/-!
# The transcript of a group's outbox

The records that the outbox commits append are the transcript entries of the group policy, and each
says which logical send it belongs to. Hence recovery from a snapshot whose transcript mirrors an
outbox yields that outbox, and compaction drops the oldest terminal sends from both.

## Main definitions

* `Holds`: a snapshot holds a transcript and the newest cancellation of a group.
* `Retains`: an outbox keeps the last send of another.

## Main results

* `outboxRecordId_layout`: a record names its logical send.
* `recoverGroupOutbox_eq`: recovery rebuilds the outbox that the transcript mirrors.
* `compactGroupOutbox_eq`: compaction drops the oldest terminal sends.
* `Retains.keep`: compaction keeps the last send.
-/

open ByteString Result Tacenta.Group

namespace Tacenta.Client

/-! ### Records and entries -/

theorem lengthPrefixed_lpBytes {b rest : Bytes} (h : b.length < 2 ^ 32) :
    lengthPrefixed (lpBytes b ++ rest) = .ok b :=
  Reader.run'_eq_ok.mpr ⟨rest, Reader.run_takeLp_eq_ok.mpr ⟨h, rfl⟩⟩

theorem length_layout_lt {context : ApplicationContext} (h : context.Valid) :
    context.layout.length < 2 ^ 32 := by
  have hlen : context.layout.length ≤ 2048 := context.length_layout ▸ h.encodedLen_le
  omega

private theorem outboxRecordId_tag {tag body : Bytes} (htag : tag.length = 4) :
    outboxRecordId (tag ++ body) =
      if tag = ascii "TCGI" then
        (lengthPrefixed body >>= fun intent => policy (LogicalSend.decodeIntent intent)) >>=
          fun send => pure (some send.id)
      else if tag = ascii "TCGP" ∨ tag = ascii "TCGH" ∨ tag = ascii "TCGA" then
        (lengthPrefixed body >>= fun context => policy (ApplicationContext.decode context)) >>=
          fun context => some <$> policy (logicalIdFromContext context)
      else if ascii "TCG" <+: tag ++ body then .error .policy
      else .ok none := by
  have hlen : ¬(tag ++ body).length < 4 := by rw [List.length_append]; omega
  rw [outboxRecordId, if_neg hlen, List.take_left' htag, List.drop_left' htag]
  simp only [bind_assoc]

private theorem tag_ne_intent (kind : ProgressKind) : kind.tag ≠ ascii "TCGI" := by
  cases kind <;> simp only [ProgressKind.tag] <;> decide

private theorem tag_mem_progress (kind : ProgressKind) :
    kind.tag = ascii "TCGP" ∨ kind.tag = ascii "TCGH" ∨ kind.tag = ascii "TCGA" := by
  cases kind <;> simp only [ProgressKind.tag] <;> decide

/-- A record of the transcript names its logical send. -/
theorem outboxRecordId_layout {e : Entry} (h : e.Valid) :
    outboxRecordId e.layout = .ok (some e.id) := by
  cases e with
  | intent send =>
    have hdecode := LogicalSend.decodeIntent_eq_ok_iff.mpr ⟨h.1, h.2, rfl⟩
    have hprefixed : lengthPrefixed (lpBytes send.intentLayout ++ []) = .ok send.intentLayout :=
      lengthPrefixed_lpBytes h.1.length_intentLayout_lt
    rw [List.append_nil] at hprefixed
    rw [Entry.layout, outboxRecordId_tag (by decide), if_pos rfl, hprefixed, ok_bind, hdecode]
    rfl
  | progress kind context commitment ciphertext =>
    have hdecode := ApplicationContext.decode_eq_ok_iff.mpr ⟨h.1, rfl⟩
    have hid : logicalIdFromContext context =
        .ok ⟨context.groupId, context.revision, context.sender, context.logicalSequence⟩ :=
      LogicalMessageId.new_eq_ok_iff.mpr ⟨h.1.revision_ne, rfl⟩
    rw [Entry.layout, outboxRecordId_tag (by cases kind <;> rfl),
      if_neg (tag_ne_intent kind), if_pos (tag_mem_progress kind), lengthPrefixed_lpBytes
        (length_layout_lt h.1), ok_bind, hdecode]
    simp only [policy, Except.mapError, ok_bind, hid]
    rfl

theorem encodeIntentRecord_layout {send : LogicalSend} (h : send.Valid) :
    encodeIntentRecord send.intentLayout = .ok (Entry.intent send).layout :=
  policy_eq_ok.mpr (putLp_eq_ok.mpr ⟨h.length_intentLayout_lt, rfl⟩)

theorem encodeProgressRecord_eq_ok {tag context ciphertext record : Bytes} {commitment : Digest}
    (h : encodeProgressRecord tag context commitment ciphertext = .ok record) :
    ciphertext.length < 2 ^ 32 ∧
      record = tag ++ (lpBytes context ++ (commitment.val ++ lpBytes ciphertext)) := by
  obtain ⟨head, hhead, htail⟩ := bind_eq_ok.mp h
  obtain ⟨-, rfl⟩ := putLp_eq_ok.mp (policy_eq_ok.mp hhead)
  obtain ⟨hlen, rfl⟩ := putLp_eq_ok.mp (policy_eq_ok.mp htail)
  exact ⟨hlen, by simp only [List.append_assoc]⟩

theorem layout_progress (kind : ProgressKind) (context : ApplicationContext) (commitment : Digest)
    (ciphertext : Bytes) : (Entry.progress kind context commitment ciphertext).layout =
      kind.tag ++ (lpBytes context.layout ++ (commitment.val ++ lpBytes ciphertext)) ++
        kind.suffix := by
  simp only [Entry.layout, List.append_assoc]

/-! ### Recovery -/

variable {group : GroupId} {commit : Bytes → Digest} {entries : List Entry} {c : Option UInt64}
  {live : GroupOutbox} {snapshot : OperationSnapshot}

/-- Selecting records by the send they belong to is selecting entries. -/
theorem selectRecords_layout (keep : Option LogicalMessageId → Bool)
    (h : ∀ e ∈ entries, e.Valid) :
    selectRecords keep (entries.map Entry.layout) =
      .ok ((entries.filter fun e => keep (some e.id)).map Entry.layout) := by
  have hfold : ∀ kept, (entries.map Entry.layout).foldlM (fun kept entry => do
      let id ← outboxRecordId entry
      pure (if keep id then kept ++ [entry] else kept)) kept =
        (.ok (kept ++ (entries.filter fun e => keep (some e.id)).map Entry.layout) :
          Except GroupOperationError (List Bytes)) := by
    induction entries with
    | nil => exact fun kept => congrArg Except.ok (List.append_nil kept).symm
    | cons e entries ih =>
      intro kept
      obtain ⟨he, hentries⟩ := List.forall_mem_cons.mp h
      rw [List.map_cons, List.foldlM_cons, outboxRecordId_layout he, ok_bind, pure_bind,
        ih hentries]
      by_cases hkeep : keep (some e.id) = true
      · rw [if_pos hkeep, List.filter_cons, if_pos hkeep, List.map_cons, List.append_assoc]
        rfl
      · rw [if_neg hkeep, List.filter_cons, if_neg hkeep]
  exact hfold []

/-- The snapshot holds a transcript of a group and the newest cancellation of its sends, and no
other record of sends. -/
structure Holds (snapshot : OperationSnapshot) (group : GroupId) (entries : List Entry)
    (c : Option UInt64) : Prop where
  outbox : snapshot.outbox = entries.map Entry.layout
  cancellation : snapshot.groupControls.filter (hasTag (ascii "TCGX")) =
    (c.map (encodeGroupOutboxCancellationRecord group)).toList

/-- Recovery rebuilds the outbox that the transcript mirrors. -/
theorem recoverGroupOutbox_eq (hs : Holds snapshot group entries c)
    (hm : Mirrors group commit entries c live) :
    recoverGroupOutbox commit snapshot group = .ok live := by
  have hall : (entries.filter fun e => (some e.id).any fun id => id.groupId = group) = entries :=
    List.filter_eq_self.mpr fun e he => decide_eq_true (hm.valid e he).2
  rw [recoverGroupOutbox, latestGroupOutboxCancellation_eq hs.cancellation, ok_bind, hs.outbox,
    selectRecords_layout _ fun e he => (hm.valid e he).1, ok_bind, hall]
  exact policy_eq_ok.mpr hm.recover_eq

/-! ### Compaction -/

/-- The terminal sends of an outbox, in the order in which they were recorded. -/
def terminalIds (o : GroupOutbox) : List LogicalMessageId :=
  (o.sends.map LogicalSend.id).filter fun id => (o.send id).toOption.any LogicalSend.isTerminal

/-- The sends that compaction drops. -/
def droppedIds (o : GroupOutbox) : List LogicalMessageId :=
  (terminalIds o).take ((terminalIds o).length - maxTerminalLogicalSends)

private theorem map_fst_add (groups : SendRecords) (id : LogicalMessageId) (entry : Bytes) :
    (groups.add id entry).map Prod.fst =
      if id ∈ groups.map Prod.fst then groups.map Prod.fst else groups.map Prod.fst ++ [id] := by
  have hany : (groups.any fun group => group.1 = id) = true ↔ id ∈ groups.map Prod.fst := by
    simp only [List.any_eq_true, decide_eq_true_eq, List.mem_map]
  rw [SendRecords.add]
  by_cases h : id ∈ groups.map Prod.fst
  · rw [if_pos (hany.mpr h), if_pos h, List.map_map]
    refine List.map_congr_left fun group _ => ?_
    rw [Function.comp_apply]
    split <;> rfl
  · rw [if_neg (mt hany.mp h), if_neg h, List.map_append, List.map_singleton]

/-- The sends of a replayed transcript are the sends that its records name, in the order in which
they first appear. -/
private theorem foldlM_add {o o' : GroupOutbox} {groups : SendRecords}
    (hvalid : ∀ e ∈ entries, e.Valid ∧ e.id.groupId = group)
    (hgroups : groups.map Prod.fst = o.sends.map LogicalSend.id)
    (h : entries.foldlM (Entry.replay c commit) o = .ok o') :
    ∃ groups', (entries.map Entry.layout).foldlM (fun (groups : SendRecords) entry => do
        match ← outboxRecordId entry with
        | none => pure groups
        | some id => pure (if id.groupId = group then groups.add id entry else groups)) groups =
          (.ok groups' : Except GroupOperationError SendRecords) ∧
      groups'.map Prod.fst = o'.sends.map LogicalSend.id := by
  induction entries generalizing o groups with
  | nil => exact ⟨groups, rfl, hgroups.trans (congrArg _ (congrArg _ (Except.ok.inj h)))⟩
  | cons e entries ih =>
    obtain ⟨⟨he, hgroup⟩, hvalid⟩ := List.forall_mem_cons.mp hvalid
    rw [List.foldlM_cons] at h
    obtain ⟨o₁, ho₁, h⟩ := bind_eq_ok.mp h
    rw [List.map_cons, List.foldlM_cons, outboxRecordId_layout he, ok_bind]
    simp only [if_pos hgroup, pure_bind]
    refine ih hvalid ?_ h
    rw [map_fst_add, hgroups, Entry.map_id_replay ho₁]

/-- The records of a mirrored transcript are grouped by the sends of the outbox. -/
theorem groupOutboxRecords_eq (hs : Holds snapshot group entries c)
    (hm : Mirrors group commit entries c live) :
    ∃ groups, groupOutboxRecords snapshot group = .ok groups ∧
      groups.map Prod.fst = live.sends.map LogicalSend.id := by
  obtain ⟨o, hreplay, rfl, -⟩ := hm.replayed
  have hnew : ([] : SendRecords).map Prod.fst =
      (GroupOutbox.new group).sends.map LogicalSend.id := rfl
  obtain ⟨groups, hgroups, hids⟩ := foldlM_add hm.valid hnew hreplay
  refine ⟨groups, ?_, ?_⟩
  · rw [groupOutboxRecords, hs.outbox]
    exact hgroups
  · rw [hids, GroupOutbox.sends_cancelled, List.map_map]
    exact List.map_congr_left fun s _ => (LogicalSend.id_cancelled c s).symm

/-- Dropping sends keeps what the snapshot holds. -/
theorem Holds.keep (hs : Holds snapshot group entries c) (k : LogicalMessageId → Bool) :
    Holds { snapshot with outbox := (entries.filter fun e => k e.id).map Entry.layout } group
      (entries.filter fun e => k e.id) c :=
  ⟨rfl, hs.cancellation⟩

/-- **Compaction.** It drops the oldest terminal sends from the transcript and from the outbox. -/
theorem compactGroupOutbox_eq (hs : Holds snapshot group entries c)
    (hm : Mirrors group commit entries c live) :
    ∃ compacted, compactGroupOutbox commit snapshot group =
        .ok ({ snapshot with
          outbox := (entries.filter fun e => e.id ∉ droppedIds live).map Entry.layout },
          compacted) ∧
      compacted.getD live = live.keep fun id => id ∉ droppedIds live := by
  obtain ⟨groups, hgroups, hids⟩ := groupOutboxRecords_eq hs hm
  rw [compactGroupOutbox, recoverGroupOutbox_eq hs hm, ok_bind, hgroups, ok_bind, hids]
  change ∃ compacted, (if (terminalIds live).length ≤ maxTerminalLogicalSends then _ else _) = _ ∧ _
  by_cases hfew : (terminalIds live).length ≤ maxTerminalLogicalSends
  · have hnone : droppedIds live = [] := by
      rw [droppedIds, Nat.sub_eq_zero_of_le hfew, List.take_zero]
    have hall : (fun id : LogicalMessageId => decide (id ∉ droppedIds live)) = fun _ => true := by
      funext id
      rw [hnone]
      exact decide_eq_true List.not_mem_nil
    refine ⟨none, ?_, ?_⟩
    · have hfilter : (entries.filter fun e => decide (e.id ∉ droppedIds live)) = entries :=
        List.filter_eq_self.mpr fun e _ => congrFun hall e.id
      rw [if_pos hfew, hfilter, ← hs.outbox]
      rfl
    · rw [hall, GroupOutbox.keep_true]
      rfl
  · have hkept : (entries.filter fun e => !(some e.id).any fun id =>
        decide (id.groupId = group ∧ id ∈ droppedIds live)) =
          entries.filter fun e => decide (e.id ∉ droppedIds live) := by
      refine List.filter_congr fun e he => ?_
      rw [Option.any_some, decide_not]
      simp only [(hm.valid e he).2, true_and]
    have hrecover := recoverGroupOutbox_eq (hs.keep fun id => id ∉ droppedIds live)
      (hm.keep fun id => id ∉ droppedIds live)
    refine ⟨some (live.keep fun id => id ∉ droppedIds live), ?_, rfl⟩
    rw [if_neg hfew]
    change (selectRecords (fun id => !id.any fun id =>
      decide (id.groupId = group ∧ id ∈ droppedIds live)) snapshot.outbox >>= _) = _
    rw [hs.outbox, selectRecords_layout _ fun e he => (hm.valid e he).1, ok_bind, hkept]
    exact bind_eq_ok.mpr ⟨_, hrecover, rfl⟩

/-! ### The last send is retained -/

/-- The last send of an outbox is the last send of another. -/
def Retains (o o' : GroupOutbox) : Prop :=
  ∀ last, o.sends.getLast? = some last → ∃ last', o'.sends.getLast? = some last' ∧
    last'.id = last.id

theorem Retains.trans {o₁ o₂ o₃ : GroupOutbox} (h₁ : Retains o₁ o₂) (h₂ : Retains o₂ o₃) :
    Retains o₁ o₃ := by
  intro last hlast
  obtain ⟨last₂, hlast₂, hid₂⟩ := h₁ last hlast
  obtain ⟨last₃, hlast₃, hid₃⟩ := h₂ last₂ hlast₂
  exact ⟨last₃, hlast₃, hid₃.trans hid₂⟩

theorem Retains.of_map_id {o o' : GroupOutbox}
    (h : o'.sends.map LogicalSend.id = o.sends.map LogicalSend.id) : Retains o o' := by
  intro last hlast
  have hmap : (o'.sends.map LogicalSend.id).getLast? = some last.id := by
    rw [h, List.getLast?_map, hlast]
    rfl
  rw [List.getLast?_map] at hmap
  exact Option.map_eq_some_iff.mp hmap

theorem last_not_mem_droppedIds {o : GroupOutbox} {last : LogicalSend}
    (hnodup : (o.sends.map LogicalSend.id).Nodup) (hlast : o.sends.getLast? = some last) :
    last.id ∉ droppedIds o := by
  intro hmem
  obtain ⟨before, hsends⟩ := List.getLast?_eq_some_iff.mp hlast
  have hterminal : last.id ∈ terminalIds o := List.mem_of_mem_take hmem
  have hids : o.sends.map LogicalSend.id = before.map LogicalSend.id ++ [last.id] := by
    rw [hsends, List.map_append, List.map_singleton]
  have hkept : ([last.id].filter fun id => (o.send id).toOption.any LogicalSend.isTerminal) =
      [last.id] := by
    rw [List.filter_cons, if_pos (List.mem_filter.mp hterminal).2, List.filter_nil]
  have hnodup' : (terminalIds o).Nodup := hnodup.filter _
  rw [terminalIds, hids, List.filter_append, hkept] at hnodup'
  rw [droppedIds, terminalIds, hids, List.filter_append, hkept] at hmem
  generalize (before.map LogicalSend.id).filter _ = front at hmem hnodup'
  -- At least one identifier is kept, so the dropped ones are among those before the last.
  rw [List.take_append_of_le_length (by
    rw [List.length_append, List.length_singleton, maxTerminalLogicalSends]
    omega)] at hmem
  exact List.disjoint_of_nodup_append hnodup' (List.mem_of_mem_take hmem) List.mem_cons_self

/-- Compaction retains the last send. -/
theorem Retains.keep (o : GroupOutbox) (hnodup : (o.sends.map LogicalSend.id).Nodup) :
    Retains o (o.keep fun id => id ∉ droppedIds o) := by
  intro last hlast
  have hkept := last_not_mem_droppedIds hnodup hlast
  obtain ⟨before, hsends⟩ := List.getLast?_eq_some_iff.mp hlast
  refine ⟨last, List.getLast?_eq_some_iff.mpr ⟨before.filter fun s => s.id ∉ droppedIds o, ?_⟩, rfl⟩
  change o.sends.filter _ = _
  rw [hsends, List.filter_append, List.filter_cons, if_pos (decide_eq_true hkept), List.filter_nil]

end Tacenta.Client
