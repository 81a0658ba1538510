import Tacenta.Client.ControlRecords
import Tacenta.Client.RosterOperations

/-!
# What a roster transition publishes

The candidate snapshot and the live values of a roster transition, part by part: the judgement of
the view, the held controls, the control records, the compacted transcript and the receiver.

## Main definitions

* `Transitioned`: what a published transition did.

## Main results

* `rosterTransitionPlan_publish`: every published transition did that.
* `Transitioned.view_cases`: the view stays or moves to an accepted successor.
* `Transitioned.filter_view`: the view is checkpointed.
* `RecordParts.filter_cancellation`, `RecordParts.filter_view`: the checkpoints among its control
  records.
-/

open ByteString Records Result Tacenta.Group

namespace Tacenta.Client

/-! ### Tags -/

/-- Every record has the tag. -/
def Tagged (tag : Bytes) (records : List Bytes) : Prop := ∀ record ∈ records, hasTag tag record

theorem hasTag_append (tag body : Bytes) : hasTag tag (tag ++ body) = true :=
  decide_eq_true (List.prefix_append tag body)

variable {record : Bytes} {added : List Bytes} {groupId : GroupId}

theorem hasTag_of_putLp {tag value : Bytes} (h : policy (putLp tag value) = .ok record) :
    hasTag tag record = true := by
  obtain ⟨-, rfl⟩ := putLp_eq_ok.mp (policy_eq_ok.mp h)
  exact hasTag_append tag _

theorem Tagged.singleton {tag : Bytes} (h : hasTag tag record = true) :
    Tagged tag [record] := List.forall_mem_singleton.mpr h

theorem Tagged.nil (tag : Bytes) : Tagged tag [] := fun _ h => absurd h List.not_mem_nil

theorem Tagged.filter_eq_nil {tag other : Bytes} {records : List Bytes} (h : Tagged tag records)
    (hlength : tag.length = 4) (hother : other.length = 4) (hne : other ≠ tag) :
    records.filter (hasTag other) = [] :=
  List.filter_eq_nil_iff.mpr fun record hrecord hboth =>
    hne (tag_unique hother hlength hboth (h record hrecord))

theorem Tagged.filter_eq_self {tag : Bytes} {records : List Bytes} (h : Tagged tag records) :
    records.filter (hasTag tag) = records := List.filter_eq_self.mpr h

/-! ### The control records -/

variable {commitments : Commitments} {live live' : RosterCommitState} {t : RosterTransition}
  {preimage : Bytes} {commitment : Digest} {view : RosterView} {disposition : RosterDisposition}
  {deferred : Option DeferredRosters} {records : List Bytes} {controlOutbox : Option ControlOutbox}
  {book : Option InvitationBook} {snapshot candidate : OperationSnapshot}

theorem tagged_onRequest {σ ι : Type} {value value' : Option σ}
    {f : ι → Except GroupOperationError (σ × Bytes)} {request : Option ι} {tag : Bytes}
    (hf : ∀ i a record, f i = .ok (a, record) → hasTag tag record = true)
    (h : onRequest value f request = .ok (value', added)) : Tagged tag added := by
  cases request with
  | none =>
    cases h
    exact .nil tag
  | some i =>
    obtain ⟨⟨a, record⟩, hi, h⟩ := bind_eq_ok.mp h
    cases h
    exact .singleton (hf i a record hi)

theorem hasTag_recordPreparedControl {outbox : Option ControlOutbox} {prepared : PreparedControl}
    {a : ControlOutbox}
    (h : recordPreparedControl commitments.payload disposition outbox prepared = .ok (a, record)) :
    hasTag (ascii "TCGO") record = true := by
  obtain ⟨-, h⟩ := refuseIf_bind_eq_ok.mp h
  cases outbox with
  | none => exact nomatch h
  | some outbox =>
    simp only [bind_eq_ok] at h
    obtain ⟨_, -, _, -, _, hrecord, h⟩ := h
    cases h
    exact hasTag_of_putLp hrecord

theorem hasTag_recordAdmission {admission : InvitationAdmission} {a : InvitationBook}
    (h : recordAdmission t disposition book admission = .ok (a, record)) :
    hasTag (ascii "TCGB") record = true := by
  obtain ⟨-, h⟩ := refuseIf_bind_eq_ok.mp h
  cases book with
  | none => exact nomatch h
  | some book =>
    simp only [bind_eq_ok, Prod.exists] at h
    obtain ⟨_, -, _, _, -, _, -, _, hrecord, h⟩ := h
    cases h
    exact hasTag_of_putLp hrecord

/-- The control records of a transition by their tags. -/
structure RecordParts (t : RosterTransition) (view : RosterView) (disposition : RosterDisposition)
    (records : List Bytes) : Prop where
  parts : ∃ roster accepted prepared admission effect queue,
    records = roster ++ accepted ++ prepared ++ admission ++ effect ++
      [ascii "TCGV" ++ lpBytes view.stateLayout] ++ queue ∧
    Tagged (ascii "TCGC") roster ∧ Tagged (ascii "TCGO") prepared ∧
    Tagged (ascii "TCGB") admission ∧ Tagged (ascii "TCGE") effect ∧
    Tagged (ascii "TCGQ") queue ∧
    ∃ replaced, Tagged (ascii "TCGS") replaced ∧ accepted = if disposition = .accepted then
      encodeGroupOutboxCancellationRecord t.candidate.groupId t.candidate.revision :: replaced
    else []
  view_valid : view.roster.Valid

private theorem prefix_foldlM {α : Type} {put : Bytes → α → Except Error Bytes}
    (hput : ∀ out x out', put out x = .ok out' → out <+: out') {xs : List α} {out out' : Bytes}
    (h : xs.foldlM put out = .ok out') : out <+: out' := by
  induction xs generalizing out with
  | nil => exact (Except.ok.inj h) ▸ List.prefix_rfl
  | cons x xs ih =>
    rw [List.foldlM_cons] at h
    obtain ⟨middle, hmiddle, h⟩ := bind_eq_ok.mp h
    exact (hput _ _ _ hmiddle).trans (ih h)

theorem hasTag_encodeRecord {queue : DeferredRosters}
    (h : queue.encodeRecord groupId = .ok record) : hasTag (ascii "TCGQ") record = true := by
  obtain ⟨-, h⟩ := refuseIf_bind_eq_ok.mp h
  have hprefix := prefix_foldlM (fun out roster out' hput => by
    obtain ⟨_, -, hput⟩ := bind_eq_ok.mp hput
    obtain ⟨-, rfl⟩ := putLp_eq_ok.mp hput
    exact List.prefix_append _ _) h
  refine decide_eq_true (List.IsPrefix.trans ?_ hprefix)
  rw [List.append_assoc]
  exact List.prefix_append _ _

theorem tagged_queueRecords {original : Option DeferredRosters}
    (h : queueRecords original deferred groupId = .ok added) :
    Tagged (ascii "TCGQ") added := by
  cases deferred with
  | none =>
    cases h
    exact .nil _
  | some queue =>
    rw [queueRecords] at h
    split at h
    · cases h
      exact .nil _
    · obtain ⟨record, hrecord, h⟩ := bind_eq_ok.mp h
      cases h
      exact .singleton (hasTag_encodeRecord (policy_eq_ok.mp hrecord))

private theorem acceptedRecords_eq_ok {replaced roster : Roster}
    (h : acceptedRecords disposition replaced roster = .ok added) :
    ∃ records, Tagged (ascii "TCGS") records ∧ added = if disposition = .accepted then
      encodeGroupOutboxCancellationRecord roster.groupId roster.revision :: records else [] := by
  rw [acceptedRecords] at h
  by_cases hd : disposition = .accepted
  · rw [if_pos hd] at h
    simp only [bind_eq_ok] at h
    obtain ⟨preimage, -, record, hrecord, h⟩ := h
    cases h
    refine ⟨[record], .singleton ?_, (if_pos hd).symm⟩
    obtain ⟨-, rfl⟩ := putLp_eq_ok.mp (policy_eq_ok.mp hrecord)
    rw [List.append_assoc]
    exact hasTag_append _ _
  · rw [if_neg hd] at h
    cases h
    exact ⟨[], .nil _, (if_neg hd).symm⟩

theorem hasTag_encodeRosterRecord
    (h : encodeRosterRecord preimage commitment disposition = .ok record) :
    hasTag (ascii "TCGC") record = true := by
  obtain ⟨head, hhead, h⟩ := bind_eq_ok.mp h
  obtain ⟨-, rfl⟩ := putLp_eq_ok.mp (policy_eq_ok.mp hhead)
  cases h
  simp only [List.append_assoc]
  exact hasTag_append _ _

/-- The records of a transition by their tags. -/
theorem transitionRecords_parts
    (h : transitionRecords commitments live t preimage commitment view disposition deferred =
      .ok (records, controlOutbox, book)) : RecordParts t view disposition records := by
  simp only [transitionRecords, bind_eq_ok, Prod.exists, policy_eq_ok,
    RosterView.encodeState_eq_ok_iff] at h
  obtain ⟨roster, hroster, accepted, haccepted, _, prepared, hprepared, _, admission, hadmission,
    _, ⟨hvalid, rfl⟩, viewRecord, hview, queue, hqueue, h⟩ := h
  cases h
  obtain ⟨-, rfl⟩ := putLp_eq_ok.mp (policy_eq_ok.mp hview)
  obtain ⟨replaced, hreplaced, haccepted⟩ := acceptedRecords_eq_ok haccepted
  exact ⟨⟨[roster], accepted, prepared, admission, _, queue, rfl, .singleton
    (hasTag_encodeRosterRecord hroster),
    tagged_onRequest (fun _ _ _ => hasTag_recordPreparedControl) hprepared,
    tagged_onRequest (fun _ _ _ => hasTag_recordAdmission) hadmission,
    fun record hrecord => by
      obtain ⟨provider, -, rfl⟩ := List.mem_map.mp hrecord
      exact hasTag_append _ _,
    tagged_queueRecords hqueue, replaced, hreplaced, haccepted⟩, hvalid⟩

/-- The records of a tag that is neither the cancellation's nor the view's alone. -/
private theorem RecordParts.filter_eq (h : RecordParts t view disposition records) {tag : Bytes}
    (hlength : tag.length = 4) (htag : tag ∉ [ascii "TCGC", ascii "TCGO", ascii "TCGB",
      ascii "TCGE", ascii "TCGQ", ascii "TCGS"]) :
    records.filter (hasTag tag) = (if disposition = .accepted then
      [encodeGroupOutboxCancellationRecord t.candidate.groupId t.candidate.revision].filter
        (hasTag tag) else []) ++
          [ascii "TCGV" ++ lpBytes view.stateLayout].filter (hasTag tag) := by
  obtain ⟨roster, accepted, prepared, admission, effect, queue, rfl, hroster, hprepared,
    hadmission, heffect, hqueue, replaced, hreplaced, rfl⟩ := h.parts
  simp only [List.mem_cons, List.not_mem_nil, or_false, not_or] at htag
  obtain ⟨hc, ho, hb, he, hq, hs⟩ := htag
  simp only [List.filter_append, hroster.filter_eq_nil rfl hlength hc,
    hprepared.filter_eq_nil rfl hlength ho, hadmission.filter_eq_nil rfl hlength hb,
    heffect.filter_eq_nil rfl hlength he, hqueue.filter_eq_nil rfl hlength hq, List.append_nil,
    List.nil_append]
  congr 1
  by_cases hd : disposition = .accepted
  · rw [if_pos hd, if_pos hd, List.filter_cons, List.filter_cons, List.filter_nil,
      hreplaced.filter_eq_nil rfl hlength hs]
  · rw [if_neg hd, if_neg hd, List.filter_nil]

/-- The cancellation among the records of a transition. -/
theorem RecordParts.filter_cancellation (h : RecordParts t view disposition records) :
    records.filter (hasTag (ascii "TCGX")) = if disposition = .accepted then
      [encodeGroupOutboxCancellationRecord t.candidate.groupId t.candidate.revision] else [] := by
  have hview := (Tagged.singleton (hasTag_append (ascii "TCGV")
    (lpBytes view.stateLayout))).filter_eq_nil rfl rfl (by decide : ascii "TCGX" ≠ _)
  rw [h.filter_eq rfl (by decide), hview, List.append_nil,
    (Tagged.singleton (hasTag_cancellation _ _)).filter_eq_self]

/-- The view among the records of a transition. -/
theorem RecordParts.filter_view (h : RecordParts t view disposition records) :
    records.filter (hasTag (ascii "TCGV")) = [ascii "TCGV" ++ lpBytes view.stateLayout] := by
  have hcancellation := (Tagged.singleton (hasTag_cancellation t.candidate.groupId
    t.candidate.revision)).filter_eq_nil rfl rfl (by decide : ascii "TCGV" ≠ _)
  rw [h.filter_eq rfl (by decide), hcancellation, ite_self, List.nil_append,
    (Tagged.singleton (hasTag_append _ _)).filter_eq_self]

/-! ### The published transition -/

theorem recordReceive_frame {effect : CryptoStateEffect} {context : Bytes}
    {received : ReceiveDisposition}
    (h : recordReceive snapshot effect context commitment received = .ok candidate) :
    candidate = { snapshot with inbox := candidate.inbox, dedup := candidate.dedup } := by
  obtain ⟨record, -, h⟩ := bind_eq_ok.mp h
  cases h
  rfl

theorem foldlM_recordRevalidated_frame {items : List RevalidatedReceive}
    (h : items.foldlM recordRevalidated snapshot = .ok candidate) :
    candidate = { snapshot with inbox := candidate.inbox, dedup := candidate.dedup } := by
  induction items generalizing snapshot with
  | nil =>
    cases h
    rfl
  | cons item items ih =>
    rw [List.foldlM_cons] at h
    obtain ⟨middle, hmiddle, h⟩ := bind_eq_ok.mp h
    obtain ⟨_, -, hmiddle⟩ := bind_eq_ok.mp hmiddle
    rw [ih h, recordReceive_frame hmiddle]

theorem receiveAfter_frame {roster : Roster} {receiver receiver' : Option GroupReceiver}
    {revalidated : List RevalidatedReceive}
    (h : receiveAfter disposition snapshot roster commitment receiver =
      .ok (candidate, receiver', revalidated)) :
    candidate = { snapshot with
      inbox := candidate.inbox
      dedup := candidate.dedup
      applicationState := candidate.applicationState } := by
  cases receiver with
  | none =>
    cases h
    rfl
  | some receiver =>
    simp only [receiveAfter, bind_eq_ok, Prod.exists] at h
    obtain ⟨middle, receiver, items, hmiddle, state, -, h⟩ := h
    cases h
    rw [revalidate] at hmiddle
    split at hmiddle
    · simp only [bind_eq_ok, Prod.exists] at hmiddle
      obtain ⟨_, _, -, after, hafter, hmiddle⟩ := hmiddle
      cases hmiddle
      rw [foldlM_recordRevalidated_frame hafter]
    · cases hmiddle
      rfl

/-- The snapshot of a transition before the transcript is compacted. -/
def recorded (snapshot : OperationSnapshot) (t : RosterTransition) (generation : UInt64)
    (records : List Bytes) : OperationSnapshot :=
  { snapshot with
    generation
    providerState := (t.provider.map Prod.fst).getD snapshot.providerState
    groupControls := appendGroupControlRecords snapshot.groupControls records }

/-- What a published transition did. -/
structure Transitioned (commitments : Commitments) (snapshot : OperationSnapshot)
    (live : RosterCommitState) (t : RosterTransition) (candidate : OperationSnapshot)
    (live' : RosterCommitState) (answer : RosterCommit) : Prop where
  valid : t.candidate.Valid
  judged : live.view.acceptSuccessor t.authenticatedAuthority t.candidate
    (commitments.roster t.candidate.layout) = (live'.view, answer.disposition)
  deferred_eq : live'.deferred = live.deferred.map fun queue =>
    (deferTransition live.view.roster.revision t answer.disposition queue).1
  held_eq : answer.held = live.deferred.any fun queue =>
    (deferTransition live.view.roster.revision t answer.disposition queue).2
  published : ∃ generation records middle,
    RecordParts t live'.view answer.disposition records ∧
    compactAfter commitments answer.disposition (recorded snapshot t generation records)
      t.candidate.groupId (if answer.disposition = .accepted then
        live.groupOutbox.map fun outbox => outbox.cancelForNewerRoster t.candidate.revision
      else live.groupOutbox) = .ok (middle, live'.groupOutbox) ∧
    receiveAfter answer.disposition middle t.candidate (commitments.roster t.candidate.layout)
      live.receiver = .ok (candidate, live'.receiver, answer.revalidated)

variable {S : Type} [OperationStore S] {store : S} {answer : RosterCommit}

/-- What a roster transition publishes. -/
theorem rosterTransitionPlan_publish
    (h : rosterTransitionPlan commitments store snapshot live t =
      .ok (.publish candidate live' answer)) :
    Transitioned commitments snapshot live t candidate live' answer := by
  simp only [rosterTransitionPlan, bind_eq_ok, policy_eq_ok, Roster.encode_eq_ok_iff,
    Prod.exists] at h
  obtain ⟨_, ⟨hvalid, rfl⟩, begun, hbegun, records, controlOutbox, book, hrecords, middle,
    groupOutbox, hcompact, after, receiver, revalidated, hreceive, h⟩ := h
  obtain ⟨generation, rfl⟩ := beginCandidate_eq_ok hbegun
  cases h
  refine ⟨hvalid, rfl, ?_, ?_, generation, records, middle, transitionRecords_parts hrecords, ?_,
    hreceive⟩
  · exact Option.map_map ..
  · cases live.deferred <;> rfl
  · simp only [decide_eq_true_eq] at hcompact
    exact hcompact

/-- What a transition does to the view: it stays as it is with the group outbox, or it moves to an
accepted successor. -/
theorem Transitioned.view_cases
    (h : Transitioned commitments snapshot live t candidate live' answer) :
    answer.disposition ≠ .accepted ∧ live'.view = live.view ∧
        live'.groupOutbox = live.groupOutbox ∨
      answer.disposition = .accepted ∧ t.authenticatedAuthority = live.view.roster.authority ∧
        live.view.Succeeds t.candidate ∧
          live'.view = ⟨t.candidate, commitments.roster t.candidate.layout⟩ := by
  have hoffered := live.view.acceptSuccessor_offered t.authenticatedAuthority t.candidate
    (commitments.roster t.candidate.layout)
  obtain ⟨_, _, _, -, hcompact, -⟩ := h.published
  rw [h.judged] at hoffered
  generalize hview : live'.view = view at hoffered ⊢
  generalize answer.disposition = disposition at hoffered hcompact ⊢
  cases hoffered with
  | refused hd =>
    rw [compactAfter, if_neg fun hboth => hd hboth.1, if_neg hd] at hcompact
    exact .inl ⟨hd, rfl, (Prod.mk.inj (Except.ok.inj hcompact)).2.symm⟩
  | accepted hpeer hsucceeds => exact .inr ⟨rfl, hpeer, hsucceeds, rfl⟩

theorem compactGroupOutbox_frame {commit : Bytes → Digest} {compacted : Option GroupOutbox}
    (h : compactGroupOutbox commit snapshot groupId = .ok (candidate, compacted)) :
    candidate = { snapshot with outbox := candidate.outbox } := by
  simp only [compactGroupOutbox, bind_eq_ok] at h
  obtain ⟨outbox, -, groups, -, h⟩ := h
  split at h
  · cases h
    rfl
  · simp only [bind_eq_ok] at h
    obtain ⟨_, -, _, -, h⟩ := h
    cases h
    rfl

theorem compactAfter_frame {outbox outbox' : Option GroupOutbox}
    (h : compactAfter commitments disposition snapshot groupId outbox = .ok (candidate, outbox')) :
    candidate = { snapshot with outbox := candidate.outbox } := by
  rw [compactAfter] at h
  split at h
  · obtain ⟨⟨_, _⟩, hcompacted, h⟩ := bind_eq_ok.mp h
    cases h
    exact compactGroupOutbox_frame hcompacted
  · cases h
    rfl

section

variable (h : Transitioned commitments snapshot live t candidate live' answer)
include h

theorem Transitioned.groupControls_eq :
    ∃ records, RecordParts t live'.view answer.disposition records ∧
      candidate.groupControls = appendGroupControlRecords snapshot.groupControls records := by
  obtain ⟨generation, records, middle, hparts, hcompact, hreceive⟩ := h.published
  refine ⟨records, hparts, ?_⟩
  rw [receiveAfter_frame hreceive]
  exact congrArg OperationSnapshot.groupControls (compactAfter_frame hcompact)

theorem Transitioned.providerState_eq :
    candidate.providerState = (t.provider.map Prod.fst).getD snapshot.providerState := by
  obtain ⟨generation, records, middle, -, hcompact, hreceive⟩ := h.published
  rw [receiveAfter_frame hreceive]
  exact congrArg OperationSnapshot.providerState (compactAfter_frame hcompact)

/-- A transition checkpoints its view. -/
theorem Transitioned.filter_view {latest : Option Bytes}
    (hlatest : snapshot.groupControls.filter (hasTag (ascii "TCGV")) = latest.toList) :
    candidate.groupControls.filter (hasTag (ascii "TCGV")) =
      [ascii "TCGV" ++ lpBytes live'.view.stateLayout] := by
  obtain ⟨records, hparts, hcontrols⟩ := h.groupControls_eq
  rw [hcontrols, filter_view_append hlatest, hparts.filter_view, List.getLast?_append_cons]
  rfl

end

end Tacenta.Client
