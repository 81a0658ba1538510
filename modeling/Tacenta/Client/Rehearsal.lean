import Tacenta.Client.ControlCiphertext
import Tacenta.Client.ControlOperations
import Tacenta.Client.Disk
import Tacenta.Client.OutboxRecovery

/-!
# Rehearsed commits

Before a pairwise encryption is spent, its commit is rehearsed on copies, with a store that accepts
and forgets and with a placeholder in place of the ciphertext. The two executions are compared
through every check. They differ in one handoff of the control outbox, and so in one control record
of the same kind; what the other checks read is the same.

A commit that was rehearsed is refused by nothing but its store, with two exceptions: the
placeholder may be the ciphertext that is recorded already, and the checkpoint of the control outbox
may become too long.

## Main definitions

* `Kin`, `Akin`: control records and snapshots of which a commit reads the same.
* `IsPending`: nothing is prepared yet for a recipient of a send.
* `SettledByStore`: a commit that nothing but its store refuses.

## Main results

* `Kin.append`: the same kinds of records are appended and evicted.
* `Akin.compactGroupOutbox`: the transcript is compacted alike.
* `rehearsal_sound`: what a rehearsal says about the commit.
-/

open ByteString Records Result Tacenta.Group

namespace Tacenta.Client

/-! ### Control records of the same kind -/

/-- Two control records of which a commit reads the same. -/
def Kin (a b : Bytes) : Prop :=
  a = b ∨ hasTag (ascii "TCGO") a = true ∧ hasTag (ascii "TCGO") b = true

namespace Kin

variable {tag a b record record' : Bytes} {controls controls' records records' : List Bytes}

theorem refl (a : Bytes) : Kin a a := .inl rfl

theorem hasTag_eq (h : Kin a b) (htag : tag ∈ checkpointTags) : hasTag tag a = hasTag tag b := by
  rcases h with rfl | ⟨ha, hb⟩
  · rfl
  · have hlength := length_of_mem_checkpointTags htag
    refine Bool.eq_iff_iff.mpr ⟨fun h => ?_, fun h => ?_⟩
    · rw [tag_unique hlength rfl h ha]
      exact hb
    · rw [tag_unique hlength rfl h hb]
      exact ha

/-- Records of one kind have one scope, unless they are the same. -/
theorem leading_eq (h : Kin a b) (htag : tag ∈ checkpointTags) (ha : hasTag tag a = true) :
    leading (checkpointScope tag) a = leading (checkpointScope tag) b := by
  rcases h with rfl | ⟨ha', hb⟩
  · rfl
  · rw [tag_unique (length_of_mem_checkpointTags htag) rfl ha ha']
    exact (leading_four rfl ha').trans (leading_four rfl hb).symm

theorem replaces_eq (hknown : Kin a b) (hrecord : Kin record record') (htag : tag ∈ checkpointTags)
    (htagged : hasTag tag record = true) : replaces tag record a = replaces tag record' b := by
  rw [replaces, replaces, hknown.hasTag_eq htag, ← hrecord.leading_eq htag htagged]
  cases hb : hasTag tag b with
  | false => simp only [Bool.false_eq_true, false_and]
  | true => rw [hknown.leading_eq htag ((hknown.hasTag_eq htag).trans hb)]

theorem pushControl (hcontrols : List.Forall₂ Kin controls controls') (h : Kin record record') :
    List.Forall₂ Kin (pushControl controls record) (pushControl controls' record') := by
  have hfind : (checkpointTags.find? fun tag => hasTag tag record) =
      checkpointTags.find? fun tag => hasTag tag record' := by
    rw [← List.head?_filter, ← List.head?_filter,
      List.filter_congr fun tag htag => h.hasTag_eq htag]
  rw [Client.pushControl, Client.pushControl, ← hfind]
  refine List.rel_append ?_ (.cons h .nil)
  cases htag : checkpointTags.find? fun tag => hasTag tag record with
  | none => exact hcontrols
  | some tag =>
    refine List.rel_filter (fun a b hab => ?_) hcontrols
    change (!replaces tag record a) = true ↔ (!replaces tag record' b) = true
    rw [hab.replaces_eq h (List.mem_of_find?_eq_some htag)
      (List.find?_some (p := fun tag => hasTag tag record) htag)]

theorem any_hasTag (h : List.Forall₂ Kin controls controls') (htag : tag ∈ checkpointTags) :
    controls.any (hasTag tag) = controls'.any (hasTag tag) := by
  induction h with
  | nil => rfl
  | cons hhead _ ih => rw [List.any_cons, List.any_cons, hhead.hasTag_eq htag, ih]

theorem evictOldest (h : List.Forall₂ Kin controls controls') :
    List.Forall₂ Kin (evictOldest controls) (evictOldest controls') := by
  induction h with
  | nil => exact .nil
  | @cons record record' rest rest' hhead hrest ih =>
    have hlatest : (checkpointTags.any fun tag => hasTag tag record && !rest.any (hasTag tag)) =
        checkpointTags.any fun tag => hasTag tag record' && !rest'.any (hasTag tag) := by
      refine Bool.eq_iff_iff.mpr ?_
      rw [List.any_eq_true, List.any_eq_true]
      refine exists_congr fun tag => and_congr_right fun htag => ?_
      rw [hhead.hasTag_eq htag, any_hasTag hrest htag]
    rw [Client.evictOldest, Client.evictOldest, hlatest]
    split
    · exact .cons hhead ih
    · exact hrest

/-- The same kinds of records are appended and evicted. -/
theorem append (hcontrols : List.Forall₂ Kin controls controls')
    (hrecords : List.Forall₂ Kin records records') :
    List.Forall₂ Kin (appendGroupControlRecords controls records)
      (appendGroupControlRecords controls' records') := by
  have hpushed : List.Forall₂ Kin (records.foldl Client.pushControl controls)
      (records'.foldl Client.pushControl controls') := by
    induction hrecords generalizing controls controls' with
    | nil => exact hcontrols
    | cons hhead _ ih => exact ih (pushControl hcontrols hhead)
  rw [appendGroupControlRecords, appendGroupControlRecords, hpushed.length_eq]
  generalize (records'.foldl Client.pushControl controls').length - maxGroupControlRecords = count
  generalize records.foldl Client.pushControl controls = all at hpushed ⊢
  generalize records'.foldl Client.pushControl controls' = all' at hpushed ⊢
  induction count generalizing all all' with
  | zero => exact hpushed
  | succ count ih =>
    rw [Function.iterate_succ_apply, Function.iterate_succ_apply]
    exact ih _ _ (evictOldest hpushed)

/-- The newest cancellation is read from records that are the same. -/
theorem latestGroupOutboxCancellation (h : List.Forall₂ Kin controls controls')
    (groupId : GroupId) : latestGroupOutboxCancellation controls groupId =
      latestGroupOutboxCancellation controls' groupId := by
  rw [Client.latestGroupOutboxCancellation, Client.latestGroupOutboxCancellation]
  generalize (none : Option UInt64) = latest
  induction h generalizing latest with
  | nil => rfl
  | @cons record record' rest rest' hhead _ ih =>
    have hcollect : collectCancellation groupId latest record =
        collectCancellation groupId latest record' := by
      rcases hhead with rfl | ⟨ha, hb⟩
      · rfl
      · have hnot {x : Bytes} (hx : hasTag (ascii "TCGO") x = true) :
            ¬hasTag (ascii "TCGX") x = true := fun h =>
          absurd (tag_unique rfl rfl h hx) (by decide)
        rw [collectCancellation, collectCancellation, if_neg (hnot ha), if_neg (hnot hb)]
    rw [List.foldlM_cons, List.foldlM_cons, hcollect]
    exact bind_congr ih

end Kin

/-- Two snapshots of which a commit reads the same. -/
structure Akin (s s' : OperationSnapshot) : Prop where
  outbox : s'.outbox = s.outbox
  groupControls : List.Forall₂ Kin s.groupControls s'.groupControls

section Compaction

variable {commit : Bytes → Digest} {s s' t : OperationSnapshot} {o : Option GroupOutbox}

theorem Akin.recoverGroupOutbox_eq (h : Akin s s') (groupId : GroupId) :
    recoverGroupOutbox commit s' groupId = recoverGroupOutbox commit s groupId := by
  rw [recoverGroupOutbox, recoverGroupOutbox, h.outbox,
    Kin.latestGroupOutboxCancellation h.groupControls]

/-- The transcripts of both snapshots are compacted alike. -/
theorem Akin.compactGroupOutbox (h : Akin s s') {groupId : GroupId}
    (hcompact : compactGroupOutbox commit s groupId = .ok (t, o)) :
    ∃ t', Client.compactGroupOutbox commit s' groupId = .ok (t', o) := by
  have hrecords : groupOutboxRecords s' groupId = groupOutboxRecords s groupId := by
    rw [groupOutboxRecords, groupOutboxRecords, h.outbox]
  simp only [Client.compactGroupOutbox, bind_eq_ok] at hcompact
  obtain ⟨outbox, hrecover, groups, hgroups, hcompact⟩ := hcompact
  rw [Client.compactGroupOutbox, h.recoverGroupOutbox_eq, hrecover, ok_bind, hrecords, hgroups,
    ok_bind]
  split at hcompact
  · next hfew =>
    obtain ⟨-, rfl⟩ := Prod.mk.inj (pure_eq_ok.mp hcompact)
    rw [if_pos hfew]
    exact ⟨_, rfl⟩
  · next hmany =>
    obtain ⟨kept, hkept, hcompact⟩ := bind_eq_ok.mp hcompact
    obtain ⟨rebuilt, hrebuilt, hcompact⟩ := bind_eq_ok.mp hcompact
    obtain ⟨-, rfl⟩ := Prod.mk.inj (pure_eq_ok.mp hcompact)
    have hakin : Akin { s with outbox := kept } { s' with outbox := kept } :=
      ⟨rfl, h.groupControls⟩
    rw [if_neg hmany]
    dsimp only
    rw [h.outbox, hkept, ok_bind, hakin.recoverGroupOutbox_eq, hrebuilt]
    exact ⟨_, rfl⟩

end Compaction

/-! ### The answer of the store -/

section Store

variable {S σ α : Type} [OperationStore S] {store : S} {snapshot : OperationSnapshot}

/-- The store takes another candidate. -/
def Ready (store : S) (snapshot : OperationSnapshot) : Prop :=
  OperationStore.isFrozen store = false ∧
    (OperationStore.nextGeneration store snapshot.generation).isSome = true

theorem beginCandidate_of_ready (h : Ready store snapshot) :
    ∃ generation, beginCandidate store snapshot = .ok { snapshot with generation } := by
  obtain ⟨generation, hnext⟩ := Option.isSome_iff_exists.mp h.2
  refine ⟨generation, ?_⟩
  rw [beginCandidate, h.1, refuseIf_neg Bool.false_ne_true, ok_bind, hnext]
  rfl

theorem beginCandidate_of_not_ready (h : ¬Ready store snapshot) :
    beginCandidate store snapshot = .error .frozen := by
  rw [beginCandidate]
  cases hfrozen : OperationStore.isFrozen store with
  | true => rw [refuseIf_pos rfl, error_bind]
  | false =>
    rw [refuseIf_neg Bool.false_ne_true, ok_bind]
    cases hnext : OperationStore.nextGeneration store snapshot.generation with
    | none => rfl
    | some generation => exact absurd ⟨hfrozen, by rw [hnext]; rfl⟩ h

/-- Nothing but the store refuses the commit: a store that is ready is given a candidate, and the
answer is as the store's; a store that is not ready is reported as frozen. -/
structure SettledByStore (l : Ledger S σ) (result : Ledger S σ × Except GroupOperationError α) :
    Prop where
  ready : Ready l.store l.snapshot → ∃ candidate answer,
    result.1.store = (OperationStore.commit l.store candidate).1 ∧
      result.2 = if (OperationStore.commit l.store candidate).2 = .committed then .ok answer
        else .error .frozen
  not_ready : ¬Ready l.store l.snapshot → result.2 = .error .frozen

/-- A plan that fails only with the beginning of its candidate. -/
theorem settledByStore_commit {l : Ledger S σ} {plan : Except GroupOperationError (Plan σ α)}
    (hready : ∀ generation, beginCandidate l.store l.snapshot = .ok { l.snapshot with generation } →
      ∃ candidate live answer, plan = .ok (.publish candidate live answer))
    (hfrozen : beginCandidate l.store l.snapshot = .error .frozen → plan = .error .frozen) :
    SettledByStore l (l.commit plan) := by
  refine ⟨fun h => ?_, fun h => ?_⟩
  · obtain ⟨generation, hbegun⟩ := beginCandidate_of_ready h
    obtain ⟨candidate, live, answer, rfl⟩ := hready generation hbegun
    refine ⟨candidate, answer, ?_⟩
    rw [Ledger.commit]
    rcases OperationStore.commit l.store candidate with ⟨store, outcome⟩
    cases outcome <;> exact ⟨rfl, rfl⟩
  · rw [hfrozen (beginCandidate_of_not_ready h)]
    rfl

end Store

/-! ### The control outbox -/

section Control

open ControlOutbox

variable {S : Type} [OperationStore S] {commitments : Commitments} {recipient : Member}
  {payload c : Bytes} {snapshot : OperationSnapshot} {outbox : ControlOutbox}

theorem recordedAs_of_rehearsed {p : Plan ControlOutbox Handoff}
    (h : preparedControlHandoffPlan commitments recipient payload [0] [] DiscardStore.discard
      snapshot outbox = .ok p) :
    ∃ o₀ state₀ record₀ h₀,
      RecordedAs commitments.payload outbox recipient payload placeholder o₀ state₀ record₀ ∧
        o₀.handoff commitments.payload recipient payload = .ok h₀ := by
  simp only [preparedControlHandoffPlan, bind_eq_ok, policy_eq_ok] at h
  obtain ⟨o₀, hprepared, state₀, hstate, h₀, hhandoff, _, -, record₀, hrecord, -⟩ := h
  exact ⟨o₀, state₀, record₀, h₀, ⟨hprepared, hstate, hrecord⟩, hhandoff⟩

/-- A rehearsed control handoff is settled by the store if its ciphertext has room, and refused
otherwise. -/
theorem preparedControlHandoff_rehearsed {l : Ledger S ControlOutbox} {providerState : Bytes}
    {p : Plan ControlOutbox Handoff}
    (h : preparedControlHandoffPlan commitments recipient payload [0] [] DiscardStore.discard
      l.snapshot l.live = .ok p)
    (hc : c.length < 2 ^ 32) :
    (HasRoom commitments.payload l.live recipient payload c → SettledByStore l
      (commitPreparedControlHandoff commitments recipient payload c providerState l)) ∧
    (¬HasRoom commitments.payload l.live recipient payload c → Ready l.store l.snapshot →
      (commitPreparedControlHandoff commitments recipient payload c providerState l).2 =
        .error .policy) := by
  obtain ⟨o₀, state₀, record₀, h₀, hrecorded, hhandoff⟩ := recordedAs_of_rehearsed h
  rw [commitPreparedControlHandoff, Ledger.publish, preparedControlHandoffPlan]
  refine ⟨fun hroom => ?_, fun hroom hready => ?_⟩
  · obtain ⟨o', state, record, hreal, hhandoff'⟩ := hrecorded.ciphertext hc hroom
    obtain ⟨h', hh'⟩ := hhandoff' h₀ hhandoff
    rw [policy_eq_ok.mpr hreal.prepared, ok_bind, policy_eq_ok.mpr hreal.state_eq, ok_bind,
      policy_eq_ok.mpr hh', ok_bind, hreal.record_eq]
    refine settledByStore_commit (fun generation hbegun => ?_) fun hfrozen => ?_
    · rw [hbegun]
      exact ⟨_, _, _, rfl⟩
    · rw [hfrozen, error_bind]
  · obtain ⟨generation, hbegun⟩ := beginCandidate_of_ready hready
    rcases hrecorded.refused hc hroom with hconflict | ⟨o', state, hprepared, hstate, hlong⟩
    · rw [hconflict]
      rfl
    · rw [policy_eq_ok.mpr hprepared, ok_bind, policy_eq_ok.mpr hstate, ok_bind, hbegun, hlong]
      cases o'.handoff commitments.payload recipient payload <;> rfl

end Control

/-! ### The group outbox -/

section Outbox

variable {S : Type} [OperationStore S] {commit : Bytes → Digest} {id : LogicalMessageId}
  {recipient : Member} {c : Bytes} {o : GroupOutbox}

/-- Nothing is prepared yet for the recipient of the send. -/
def IsPending (o : GroupOutbox) (id : LogicalMessageId) (recipient : Member) : Prop :=
  ∃ send p, o.send id = .ok send ∧ send.progress recipient = .ok p ∧ p.disposition = .pending

theorem exists_outboxAt_of_prepared {p : Progressed}
    (h : progressSend o id recipient (bindPreparedCiphertext commit recipient c) = .ok p) :
    ∃ pre s post rpre q rpost, OutboxAt o id recipient pre s post rpre q rpost ∧
      (s.context recipient).Valid ∧ p.context = (s.context recipient).layout ∧
        RecipientProgress.recordPrepared (commit (s.context recipient).layout) c q =
          (p.progress, .ok ()) := by
  obtain ⟨hmut, -⟩ := progressSend_eq_ok h
  obtain ⟨sends, hupdate, -⟩ := GroupOutbox.sendMut_eq_ok_iff.mp hmut
  obtain ⟨pre, s, post, t, hsends, hpre, hid, hchange, -⟩ := updateFirst_eq_ok_iff.mp hupdate
  obtain ⟨hchange, -, hbytes⟩ := changeSend_eq_ok hchange
  simp only [bindPreparedCiphertext, bind_eq_ok, LogicalSend.applicationContext_eq_ok_iff,
    ApplicationContext.encode_eq_ok_iff, discarding_eq_ok_iff] at hchange
  obtain ⟨_, ⟨-, rfl, hvalid⟩, _, ⟨-, rfl⟩, hrecord⟩ := hchange
  obtain ⟨rpre, q, rpost, hsplit, hmethod, rfl⟩ := LogicalSend.onProgress_eq_ok_iff.mp hrecord
  exact ⟨pre, s, post, rpre, q, rpost, ⟨hsends, fun x hx => of_decide_eq_false (hpre x hx),
    of_decide_eq_true hid, hsplit⟩, hvalid, hbytes, hmethod⟩

theorem OutboxAt.isPending_iff {pre post : List LogicalSend} {s : LogicalSend}
    {rpre rpost : List RecipientProgress} {q : RecipientProgress}
    (h : OutboxAt o id recipient pre s post rpre q rpost) :
    IsPending o id recipient ↔ q.disposition = .pending := by
  constructor
  · rintro ⟨send, p, hsend, hp, hpending⟩
    rw [h.send_eq] at hsend
    obtain rfl := Except.ok.inj hsend
    rw [h.splits.progress_eq] at hp
    obtain rfl := Except.ok.inj hp
    exact hpending
  · intro hpending
    exact ⟨s, q, h.send_eq, h.splits.progress_eq, hpending⟩

/-- What was prepared with the placeholder is prepared with every ciphertext, if nothing was
prepared before. -/
theorem progressSend_rehearsed {p : Progressed} {record : Bytes}
    (h : progressSend o id recipient (bindPreparedCiphertext commit recipient placeholder) = .ok p)
    (hrecord : encodePreparedRecord p.context p.commitment p.ciphertext = .ok record)
    (hc : c.length < 2 ^ 32) (hroom : c = placeholder ∨ IsPending o id recipient) :
    ∃ p' record',
      progressSend o id recipient (bindPreparedCiphertext commit recipient c) = .ok p' ∧
        encodePreparedRecord p'.context p'.commitment p'.ciphertext = .ok record' := by
  rcases hroom with rfl | hpending
  · exact ⟨p, record, h, hrecord⟩
  · obtain ⟨pre, s, post, rpre, q, rpost, hat, hvalid, -⟩ := exists_outboxAt_of_prepared h
    obtain ⟨q', hmethod, hname, hcommitment, hciphertext⟩ : ∃ q',
        RecipientProgress.recordPrepared (commit (s.context recipient).layout) c q = (q', .ok ()) ∧
          q'.recipient = q.recipient ∧
            q'.contextCommitment = some (commit (s.context recipient).layout) ∧
              q'.ciphertext = some c := by
      rw [RecipientProgress.recordPrepared, hat.isPending_iff.mp hpending]
      exact ⟨_, rfl, rfl, rfl, rfl⟩
    have hchange : bindPreparedCiphertext commit recipient c s =
        .ok ({ s with recipients := rpre ++ q' :: rpost }, q') := by
      rw [bindPreparedCiphertext, hat.splits.applicationContext_eq hvalid, ok_bind,
        ApplicationContext.encode_of_valid hvalid, ok_bind]
      exact discarding_eq_ok_iff.mpr (LogicalSend.onProgress_eq_ok_iff.mpr
        ⟨rpre, q, rpost, hat.splits, hmethod, rfl⟩)
    exact ⟨_, _, hat.progressSend_of_change hchange (hname.trans hat.splits.recipient_eq) hvalid
      hcommitment hciphertext, encodeProgressRecord_of_valid hvalid hc⟩

theorem progressSend_refused {p : Progressed}
    (h : progressSend o id recipient (bindPreparedCiphertext commit recipient placeholder) = .ok p)
    (hroom : ¬(c = placeholder ∨ IsPending o id recipient)) :
    progressSend o id recipient (bindPreparedCiphertext commit recipient c) = .error .policy := by
  rw [not_or] at hroom
  cases hreal : progressSend o id recipient (bindPreparedCiphertext commit recipient c) with
  | error e => rw [progressSend_eq_error hreal]
  | ok p' =>
    exfalso
    obtain ⟨pre, s, post, rpre, q, rpost, hat, -, -, hmethod⟩ := exists_outboxAt_of_prepared h
    obtain ⟨_, s', _, _, q', _, hat', -, -, hmethod'⟩ := exists_outboxAt_of_prepared hreal
    have hsend := hat'.send_eq
    rw [hat.send_eq] at hsend
    obtain rfl := Except.ok.inj hsend
    have hprogress := hat'.splits.progress_eq
    rw [hat.splits.progress_eq] at hprogress
    obtain rfl := Except.ok.inj hprogress
    have hstate : ∀ c p',
        RecipientProgress.recordPrepared (commit (s.context recipient).layout) c q = (p', .ok ()) →
          q.ciphertext = some c := by
      intro c p' hok
      have hnot := mt hat.isPending_iff.mpr hroom.2
      rw [RecipientProgress.recordPrepared] at hok
      split at hok
      · next hpending => exact absurd hpending hnot
      · split at hok
        · next hsame => exact hsame.2
        · cases hok
      · split at hok
        · next hsame => exact hsame.2
        · cases hok
      all_goals cases hok
    have hsame := (hstate _ _ hmethod').symm.trans (hstate _ _ hmethod)
    exact hroom.1 (Option.some_inj.mp hsame)

/-- A rehearsed preparation is settled by the store if nothing else was prepared before, and refused
otherwise. -/
theorem outboxPreparedCiphertext_rehearsed {l : Ledger S GroupOutbox} {providerState : Bytes}
    {p : Plan GroupOutbox RecipientProgress}
    (h : outboxPreparedCiphertextPlan commit DiscardStore.discard l.snapshot l.live id recipient [0]
      [] = .ok p)
    (hc : c.length < 2 ^ 32) :
    (c = placeholder ∨ IsPending l.live id recipient → SettledByStore l
      (commitOutboxPreparedCiphertext commit l id recipient c providerState)) ∧
    (¬(c = placeholder ∨ IsPending l.live id recipient) →
      (commitOutboxPreparedCiphertext commit l id recipient c providerState).2 =
        .error .policy) := by
  obtain ⟨progressed, hprogress, h⟩ := bind_eq_ok.mp h
  obtain ⟨_, -, h⟩ := bind_eq_ok.mp h
  obtain ⟨record, hrecord, -⟩ := bind_eq_ok.mp h
  rw [commitOutboxPreparedCiphertext, outboxPreparedCiphertextPlan]
  refine ⟨fun hroom => ?_, fun hroom => ?_⟩
  · obtain ⟨progressed', record', hprogress', hrecord'⟩ :=
      progressSend_rehearsed hprogress hrecord hc hroom
    rw [hprogress', ok_bind, hrecord']
    refine settledByStore_commit (fun generation hbegun => ?_) fun hfrozen => ?_
    · rw [hbegun]
      exact ⟨_, _, _, rfl⟩
    · rw [hfrozen, error_bind]
  · rw [progressSend_refused hprogress hroom, error_bind]
    rfl

end Outbox

/-! ### The roster transition -/

/-- The transition with a prepared control and the provider state that produced it. -/
def RosterTransition.preparing (t : RosterTransition) (effect : CryptoStateEffect)
    (recipient : Member) (payload ciphertext providerState : Bytes) : RosterTransition :=
  { t with
    provider := some (providerState, effect)
    preparedControl := some ⟨recipient, payload, ciphertext⟩ }

namespace RosterTransition

variable (t : RosterTransition) (effect : CryptoStateEffect) (recipient : Member)
  (payload c providerState : Bytes)

@[simp] theorem candidate_preparing :
    (t.preparing effect recipient payload c providerState).candidate = t.candidate := rfl

@[simp] theorem authenticatedAuthority_preparing :
    (t.preparing effect recipient payload c providerState).authenticatedAuthority =
      t.authenticatedAuthority := rfl

@[simp] theorem deferTransition_preparing (revision : UInt64) :
    deferTransition revision (t.preparing effect recipient payload c providerState) =
      deferTransition revision t := rfl

end RosterTransition

/-- The authority's transition is one that prepares a control. -/
theorem authorityTransition_eq_preparing (authenticatedAuthority recipient : Member)
    (successor : Roster) (payload c providerState : Bytes)
    (admission : Option InvitationAdmission) :
    authorityTransition authenticatedAuthority recipient successor payload c providerState
      admission = (⟨authenticatedAuthority, successor, none, none, admission, none⟩ :
        RosterTransition).preparing .advanced recipient payload c providerState := rfl

section Roster

open ControlOutbox

variable {S : Type} [OperationStore S] {commitments : Commitments} {live : RosterCommitState}
  {t : RosterTransition} {effect : CryptoStateEffect} {recipient : Member}
  {payload c providerState : Bytes} {disposition : RosterDisposition}

theorem recordPreparedControl_eq_ok {commit : Bytes → Digest} {outbox : Option ControlOutbox}
    {o' : ControlOutbox} {record : Bytes}
    (h : recordPreparedControl commit disposition outbox ⟨recipient, payload, c⟩ =
      .ok (o', record)) :
    disposition = .accepted ∧ ∃ o state, outbox = some o ∧
      RecordedAs commit o recipient payload c o' state record := by
  obtain ⟨haccepted, h⟩ := refuseIf_bind_eq_ok.mp h
  cases outbox with
  | none => cases h
  | some o =>
    simp only [bind_eq_ok, policy_eq_ok] at h
    obtain ⟨o'', hprepared, state, hstate, record', hrecord, h⟩ := h
    obtain ⟨rfl, rfl⟩ := Prod.mk.inj (pure_eq_ok.mp h)
    exact ⟨not_not.mp haccepted, o, state, rfl, hprepared, hstate, hrecord⟩

theorem RecordedAs.recordPreparedControl_eq {commit : Bytes → Digest} {o o' : ControlOutbox}
    {state record : Bytes} (h : RecordedAs commit o recipient payload c o' state record) :
    recordPreparedControl commit .accepted (some o) ⟨recipient, payload, c⟩ =
      .ok (o', record) := by
  rw [recordPreparedControl, refuseIf_neg (not_not.mpr rfl), ok_bind]
  dsimp only
  rw [policy_eq_ok.mpr h.prepared, ok_bind, policy_eq_ok.mpr h.state_eq, ok_bind, h.record_eq]
  rfl

/-- The control records of a transition with its ciphertext are of the kinds of the rehearsed ones
if the ciphertext has room, and refused otherwise. -/
theorem transitionRecords_rehearsed {preimage : Bytes} {commitment : Digest} {view : RosterView}
    {deferred : Option DeferredRosters} {records : List Bytes} {outbox : Option ControlOutbox}
    {book : Option InvitationBook}
    (h : transitionRecords commitments live (t.preparing effect recipient payload [0] []) preimage
      commitment view disposition deferred = .ok (records, outbox, book))
    (hc : c.length < 2 ^ 32) (providerState : Bytes) :
    ((∀ o, live.controlOutbox = some o → HasRoom commitments.payload o recipient payload c) →
      ∃ records' outbox', transitionRecords commitments live
        (t.preparing effect recipient payload c providerState) preimage commitment view disposition
          deferred = .ok (records', outbox', book) ∧ List.Forall₂ Kin records records') ∧
    ∀ o, live.controlOutbox = some o → ¬HasRoom commitments.payload o recipient payload c →
      transitionRecords commitments live (t.preparing effect recipient payload c providerState)
        preimage commitment view disposition deferred = .error .policy := by
  simp only [transitionRecords, bind_eq_ok, Prod.exists] at h
  obtain ⟨roster, hroster, accepted, haccepted, _, prepared, hprepared, admitted, admission,
    hadmission, viewState, hviewState, viewRecord, hviewRecord, queue, hqueue, h⟩ := h
  simp only [pure_eq_ok, Prod.mk.injEq] at h
  obtain ⟨rfl, rfl, rfl⟩ := h
  obtain ⟨⟨o₀, record⟩, hrecord, hpure⟩ := bind_eq_ok.mp hprepared
  obtain ⟨rfl, rfl⟩ := Prod.mk.inj (pure_eq_ok.mp hpure)
  obtain ⟨rfl, o, state, ho, hrecorded⟩ := recordPreparedControl_eq_ok hrecord
  have haccepted' : acceptedRecords .accepted live.view.roster t.candidate = .ok accepted :=
    haccepted
  refine ⟨fun hroom => ?_, fun o' ho' hroom => ?_⟩
  · obtain ⟨o', state', record', hreal, -⟩ := hrecorded.ciphertext hc (hroom o ho)
    have hrecord' := hreal.recordPreparedControl_eq
    rw [← ho] at hrecord'
    have hprepared' : onRequest live.controlOutbox
        (recordPreparedControl commitments.payload .accepted live.controlOutbox)
          (some ⟨recipient, payload, c⟩) = .ok (some o', [record']) := by
      rw [onRequest, hrecord']
      rfl
    refine ⟨[roster] ++ accepted ++ [record'] ++ admission ++ [encodeControlEffectRecord effect] ++
      [viewRecord] ++ queue, some o', ?_, ?_⟩
    · have hadmission' : onRequest live.invitationBook (recordAdmission
          (t.preparing effect recipient payload c providerState) .accepted live.invitationBook)
            t.admission = .ok (admitted, admission) := hadmission
      have hqueue' : queueRecords live.deferred deferred t.candidate.groupId = .ok queue := hqueue
      simp only [transitionRecords, RosterTransition.preparing] at hadmission' ⊢
      rw [hroster, ok_bind, haccepted', ok_bind, hprepared', ok_bind, hadmission', ok_bind,
        hviewState, ok_bind, hviewRecord, ok_bind, hqueue', ok_bind]
      rfl
    · have hkin : Kin record record' :=
        .inr ⟨hasTag_recordPreparedControl hrecord, hasTag_recordPreparedControl hrecord'⟩
      have hsame (l : List Bytes) : List.Forall₂ Kin l l := List.forall₂_same.mpr fun a _ => .refl a
      exact List.rel_append (List.rel_append (List.rel_append (List.rel_append (List.rel_append
        (hsame _) (.cons hkin .nil)) (hsame _)) (hsame _)) (hsame _)) (hsame _)
  · obtain rfl := Option.some_inj.mp (ho.symm.trans ho')
    have hrefused : recordPreparedControl commitments.payload .accepted live.controlOutbox
        ⟨recipient, payload, c⟩ = .error .policy := by
      rw [ho, recordPreparedControl, refuseIf_neg (not_not.mpr rfl), ok_bind]
      dsimp only
      rcases hrecorded.refused hc hroom with hconflict | ⟨o'', state', hrecord', hstate, hlong⟩
      · rw [hconflict]
        rfl
      · rw [policy_eq_ok.mpr hrecord', ok_bind, policy_eq_ok.mpr hstate, ok_bind, hlong]
        rfl
    have hprepared' : onRequest live.controlOutbox
        (recordPreparedControl commitments.payload .accepted live.controlOutbox)
          (t.preparing effect recipient payload c providerState).preparedControl =
            .error .policy := by
      change (recordPreparedControl _ _ _ _ >>= fun _ => _) = _
      rw [hrefused, error_bind]
    rw [transitionRecords, hroster, ok_bind, RosterTransition.candidate_preparing, haccepted',
      ok_bind, hprepared', error_bind]

theorem compactAfter_rehearsed {s s' compacted : OperationSnapshot} {groupId : GroupId}
    {o o' : Option GroupOutbox} (h : Akin s s')
    (hcompact : compactAfter commitments disposition s groupId o = .ok (compacted, o')) :
    ∃ compacted', compactAfter commitments disposition s' groupId o = .ok (compacted', o') := by
  rw [compactAfter] at hcompact ⊢
  split at hcompact
  · next hcompacts =>
    obtain ⟨⟨t, rebuilt⟩, ht, hpure⟩ := bind_eq_ok.mp hcompact
    obtain ⟨-, rfl⟩ := Prod.mk.inj (pure_eq_ok.mp hpure)
    obtain ⟨t', ht'⟩ := h.compactGroupOutbox ht
    rw [if_pos hcompacts, ht']
    exact ⟨t', rfl⟩
  · next hkept =>
    obtain ⟨-, rfl⟩ := Prod.mk.inj (pure_eq_ok.mp hcompact)
    rw [if_neg hkept]
    exact ⟨s', rfl⟩

/-- Whether the judged contexts can be recorded does not depend on the snapshot. -/
theorem foldlM_recordRevalidated {items : List RevalidatedReceive} {s t : OperationSnapshot}
    (h : items.foldlM recordRevalidated s = .ok t) (s' : OperationSnapshot) :
    ∃ t', items.foldlM recordRevalidated s' = .ok t' := by
  induction items generalizing s s' with
  | nil => exact ⟨s', rfl⟩
  | cons item items ih =>
    rw [List.foldlM_cons] at h ⊢
    obtain ⟨next, hitem, h⟩ := bind_eq_ok.mp h
    obtain ⟨context, hcontext, hrecord⟩ := bind_eq_ok.mp hitem
    obtain ⟨record, hencoded, -⟩ := bind_eq_ok.mp hrecord
    have hitem' : ∃ next', recordRevalidated s' item = .ok next' :=
      ⟨_, bind_eq_ok.mpr ⟨context, hcontext, bind_eq_ok.mpr ⟨record, hencoded, rfl⟩⟩⟩
    obtain ⟨next', hnext'⟩ := hitem'
    rw [hnext']
    exact ih h next'

theorem receiveAfter_rehearsed {s t : OperationSnapshot} {roster : Roster} {commitment : Digest}
    {receiver receiver' : Option GroupReceiver} {items : List RevalidatedReceive}
    (h : receiveAfter disposition s roster commitment receiver = .ok (t, receiver', items))
    (s' : OperationSnapshot) : ∃ t', receiveAfter disposition s' roster commitment receiver =
      .ok (t', receiver', items) := by
  cases receiver with
  | none =>
    cases h
    exact ⟨s', rfl⟩
  | some receiver =>
    obtain ⟨⟨judged, installed, items'⟩, hjudged, h⟩ := bind_eq_ok.mp h
    obtain ⟨state, hstate, h⟩ := bind_eq_ok.mp h
    obtain ⟨-, h⟩ := Prod.mk.inj (pure_eq_ok.mp h)
    obtain ⟨rfl, rfl⟩ := Prod.mk.inj h
    have hrevalidate : ∃ judged', revalidate disposition s' receiver roster commitment =
        .ok (judged', installed, items') := by
      rw [revalidate] at hjudged ⊢
      split at hjudged
      · next haccepted =>
        obtain ⟨⟨installed', items''⟩, hinstall, hjudged⟩ := bind_eq_ok.mp hjudged
        obtain ⟨recorded, hrecorded, hpure⟩ := bind_eq_ok.mp hjudged
        obtain ⟨-, hpure⟩ := Prod.mk.inj (pure_eq_ok.mp hpure)
        obtain ⟨rfl, rfl⟩ := Prod.mk.inj hpure
        obtain ⟨recorded', hrecorded'⟩ := foldlM_recordRevalidated hrecorded s'
        rw [if_pos haccepted, hinstall, ok_bind]
        dsimp only
        rw [hrecorded']
        exact ⟨_, rfl⟩
      · next hother =>
        obtain ⟨-, hpure⟩ := Prod.mk.inj (pure_eq_ok.mp hjudged)
        obtain ⟨rfl, rfl⟩ := Prod.mk.inj hpure
        rw [if_neg hother]
        exact ⟨_, rfl⟩
    obtain ⟨judged', hjudged'⟩ := hrevalidate
    rw [receiveAfter, hjudged', ok_bind]
    dsimp only
    rw [hstate]
    exact ⟨_, rfl⟩

/-- A rehearsed transition is settled by the store if its ciphertext has room, and refused
otherwise. -/
theorem rosterTransition_rehearsed {l : Ledger S RosterCommitState}
    {p : Plan RosterCommitState RosterCommit}
    (h : rosterTransitionPlan commitments DiscardStore.discard l.snapshot l.live
      (t.preparing effect recipient payload [0] []) = .ok p)
    (hc : c.length < 2 ^ 32) :
    ((∀ o, l.live.controlOutbox = some o → HasRoom commitments.payload o recipient payload c) →
      SettledByStore l (commitRosterTransition commitments l
        (t.preparing effect recipient payload c providerState))) ∧
    ∀ o, l.live.controlOutbox = some o → ¬HasRoom commitments.payload o recipient payload c →
      Ready l.store l.snapshot → (commitRosterTransition commitments l
        (t.preparing effect recipient payload c providerState)).2 = .error .policy := by
  obtain ⟨preimage, hpreimage, h⟩ := bind_eq_ok.mp h
  rcases hjudged : l.live.view.acceptSuccessor t.authenticatedAuthority t.candidate
    (commitments.roster preimage) with ⟨view, disposition⟩
  simp only [RosterTransition.candidate_preparing,
    RosterTransition.authenticatedAuthority_preparing, RosterTransition.deferTransition_preparing,
    hjudged, bind_eq_ok, Prod.exists] at h
  obtain ⟨begun₀, hbegun₀, records, outbox, book, hrecords, compacted, groupOutbox, hcompact,
    received, receiver, revalidated, hreceive, -⟩ := h
  obtain ⟨generation₀, rfl⟩ := beginCandidate_eq_ok hbegun₀
  obtain ⟨hsettled, hrefused⟩ := transitionRecords_rehearsed hrecords hc providerState
  rw [RosterTransition.candidate_preparing] at hpreimage
  rw [commitRosterTransition, rosterTransitionPlan]
  simp only [RosterTransition.candidate_preparing,
    RosterTransition.authenticatedAuthority_preparing, RosterTransition.deferTransition_preparing,
    hpreimage, ok_bind, hjudged]
  refine ⟨fun hroom => settledByStore_commit (fun generation hbegun => ?_) fun hfrozen => ?_,
    fun o ho hroom hready => ?_⟩
  · obtain ⟨records', outbox', hrecords', hkin⟩ := hsettled hroom
    have hakin : Akin { l.snapshot with
          generation := generation₀
          providerState := ((t.preparing effect recipient payload [0] []).provider.map
            Prod.fst).getD l.snapshot.providerState
          groupControls := appendGroupControlRecords l.snapshot.groupControls records }
        { l.snapshot with
          generation
          providerState := ((t.preparing effect recipient payload c providerState).provider.map
            Prod.fst).getD l.snapshot.providerState
          groupControls := appendGroupControlRecords l.snapshot.groupControls records' } :=
      ⟨rfl, Kin.append (List.forall₂_same.mpr fun a _ => .refl a) hkin⟩
    obtain ⟨compacted', hcompact'⟩ := compactAfter_rehearsed hakin hcompact
    obtain ⟨received', hreceive'⟩ := receiveAfter_rehearsed hreceive compacted'
    simp only [hbegun, ok_bind, hrecords', hcompact', hreceive']
    exact ⟨_, _, _, rfl⟩
  · rw [hfrozen, error_bind]
  · obtain ⟨generation, hbegun⟩ := beginCandidate_of_ready hready
    simp only [hbegun, ok_bind, hrefused o ho hroom, error_bind]
    rfl

end Roster

/-! ### What a rehearsal says -/

open ControlOutbox in
/-- **Rehearsals.** If one of the three commits succeeds on copies, with a store that accepts and
forgets, the placeholder and no provider state, then the commit itself is refused by nothing but its
store, whatever the store and the provider state are, if its ciphertext of fewer than `2 ^ 32` bytes
can take the place of the placeholder. Otherwise a store that is ready does not even see it. -/
theorem rehearsal_sound {S : Type} [OperationStore S] (commitments : Commitments)
    (recipient : Member) (c providerState : Bytes) (hc : c.length < 2 ^ 32) :
    (∀ (l : Ledger S ControlOutbox) (payload : Bytes) (a : Handoff),
      (commitPreparedControlHandoff commitments recipient payload [0] []
        ⟨DiscardStore.discard, l.snapshot, l.live⟩).2 = .ok a →
      let result := commitPreparedControlHandoff commitments recipient payload c providerState l
      (HasRoom commitments.payload l.live recipient payload c → SettledByStore l result) ∧
      (¬HasRoom commitments.payload l.live recipient payload c → Ready l.store l.snapshot →
        result.2 = .error .policy)) ∧
    (∀ (l : Ledger S GroupOutbox) (id : LogicalMessageId) (a : RecipientProgress),
      (commitOutboxPreparedCiphertext commitments.payload
        ⟨DiscardStore.discard, l.snapshot, l.live⟩ id recipient [0] []).2 = .ok a →
      let result :=
        commitOutboxPreparedCiphertext commitments.payload l id recipient c providerState
      (c = [0] ∨ IsPending l.live id recipient → SettledByStore l result) ∧
      (¬(c = [0] ∨ IsPending l.live id recipient) → result.2 = .error .policy)) ∧
    (∀ (l : Ledger S RosterCommitState) (t : RosterTransition) (effect : CryptoStateEffect)
        (payload : Bytes) (a : RosterCommit),
      (commitRosterTransition commitments ⟨DiscardStore.discard, l.snapshot, l.live⟩
        (t.preparing effect recipient payload [0] [])).2 = .ok a →
      let result := commitRosterTransition commitments l
        (t.preparing effect recipient payload c providerState)
      ((∀ o, l.live.controlOutbox = some o → HasRoom commitments.payload o recipient payload c) →
        SettledByStore l result) ∧
      ∀ o, l.live.controlOutbox = some o → ¬HasRoom commitments.payload o recipient payload c →
        Ready l.store l.snapshot → result.2 = .error .policy) := by
  refine ⟨fun l payload a h => ?_, fun l id a h => ?_, fun l t effect payload a h => ?_⟩
  · obtain ⟨p, hp⟩ := Ledger.exists_plan h
    exact preparedControlHandoff_rehearsed hp hc
  · obtain ⟨p, hp⟩ := Ledger.exists_plan h
    exact outboxPreparedCiphertext_rehearsed hp hc
  · obtain ⟨p, hp⟩ := Ledger.exists_plan h
    exact rosterTransition_rehearsed hp hc

section Samples

open ControlOutbox

/-- A coordinator whose control outbox holds the given handoffs. -/
def controlLedger (handoffs : List Handoff) : Ledger DiscardStore ControlOutbox :=
  ⟨.discard, .empty 0, ⟨handoffs⟩⟩

private theorem rehearsed_empty : (commitPreparedControlHandoff lengthCommitments (samplePeer 0)
    samplePayload [0] [] (controlLedger [])).2 =
      .ok ⟨samplePeer 0, samplePayload, [0], 0, .prepared, 0⟩ := by decide +kernel

/-- A coordinator whose store fails the next write. -/
def failingLedger {σ : Type} (live : σ) : Ledger Disk σ := ⟨⟨none, [], true, 0⟩, .empty 0, live⟩

/-- A control outbox with a handoff for another recipient. -/
def heldOutbox : ControlOutbox := ⟨[⟨samplePeer 1, samplePayload, [5], 1, .relayAccepted, 0⟩]⟩

/-- A send to the other member, for whom nothing is prepared. -/
def pendingSend : LogicalSend :=
  ⟨⟨Sample.group, 1, Sample.alice, 0⟩, pairView.digest, [7], [.fresh Sample.bob]⟩

def pendingOutbox : GroupOutbox := ⟨Sample.group, [pendingSend], 1⟩

/-- The authority's values while the send is pending. -/
def pairState : RosterCommitState where
  view := pairView
  receiver := none
  groupOutbox := some pendingOutbox
  controlOutbox := some heldOutbox
  invitationBook := none
  deferred := some .empty
  logicalSends := []

/-- The removal of the other member, who is told first. -/
def removal (c providerState : Bytes) : RosterTransition :=
  let successor := Sample.successor 2 pairView.digest [Sample.alice]
  authorityTransition Sample.alice Sample.bob successor
    ((GroupPayload.roster successor).encode.toOption.getD []) c providerState none

/-- A control, a send and a removal, each after its rehearsal. -/
theorem rehearsal_sample :
    SettledByStore (failingLedger heldOutbox) (commitPreparedControlHandoff lengthCommitments
      Sample.bob samplePayload [1, 2] [3] (failingLedger heldOutbox)) ∧
    SettledByStore (failingLedger pendingOutbox) (commitOutboxPreparedCiphertext
      lengthCommitments.payload (failingLedger pendingOutbox) pendingSend.id Sample.bob [1, 2]
        [3]) ∧
    SettledByStore (failingLedger pairState) (commitRosterTransition lengthCommitments
      (failingLedger pairState) (removal [1, 2] [3])) := by
  obtain ⟨hcontrol, hsend, hroster⟩ :=
    rehearsal_sound (S := Disk) lengthCommitments Sample.bob [1, 2] [3] (by decide)
  refine ⟨?_, ?_, ?_⟩
  · exact (hcontrol (failingLedger heldOutbox) samplePayload
      ⟨Sample.bob, samplePayload, [0], 0, .prepared, 1⟩ (by decide +kernel)).1 (by decide +kernel)
  · exact (hsend (failingLedger pendingOutbox) pendingSend.id
      ⟨Sample.bob, .prepared,
        some (Sample.lengthCommitment (pendingSend.context Sample.bob).layout), some [0], 0⟩
      (by decide +kernel)).1 (.inr ⟨_, _, rfl, rfl, rfl⟩)
  · rw [removal, authorityTransition_eq_preparing]
    refine (hroster (failingLedger pairState) _ _ _ ⟨.accepted, [], false⟩
      (by decide +kernel)).1 fun o ho => ?_
    obtain rfl := Option.some.inj ho
    decide +kernel

private theorem domain_lt_length {commit : Bytes → Digest} {o : ControlOutbox} {state : Bytes}
    (h : o.encodeState commit = .ok state) : controlOutboxDomain.length < state.length := by
  obtain ⟨-, -, rfl⟩ := encodeState_eq_ok_iff.mp h
  rw [layout, List.length_append, List.length_cons]
  omega

private theorem refused_of_length {c : Bytes} (hc : c.length = 4294967295) :
    (commitPreparedControlHandoff lengthCommitments (samplePeer 0) samplePayload c []
      (controlLedger [])).2 = .error .policy := by
  have hrehearsed := rehearsed_empty
  rw [commitPreparedControlHandoff, Ledger.publish] at hrehearsed
  obtain ⟨p, hp⟩ := Ledger.exists_plan hrehearsed
  obtain ⟨o', state, _, _, hrecorded, -⟩ := recordedAs_of_rehearsed hp
  refine (preparedControlHandoff_rehearsed hp (by omega)).2 (fun hroom => ?_) ⟨rfl, rfl⟩
  have hshort := hroom.short o' state hrecorded.prepared hrecorded.state_eq
  have hdomain : 37 < state.length := domain_lt_length hrecorded.state_eq
  omega

/-- Two commits that are refused after their rehearsal succeeded: the checkpoint with the ciphertext
is too long, or the placeholder itself is the ciphertext of a handoff that was accepted. -/
theorem refused_after_rehearsal :
    ((∃ a, (commitPreparedControlHandoff lengthCommitments (samplePeer 0) samplePayload [0] []
        (controlLedger [])).2 = .ok a) ∧
      (commitPreparedControlHandoff lengthCommitments (samplePeer 0) samplePayload
        (List.replicate (2 ^ 32 - 1) 0) [] (controlLedger [])).2 = .error .policy) ∧
    let accepted : Handoff := ⟨samplePeer 0, samplePayload, [0], 1, .relayAccepted, 0⟩
    (∃ a, (commitPreparedControlHandoff lengthCommitments (samplePeer 0) samplePayload [0] []
        (controlLedger [accepted])).2 = .ok a) ∧
      (commitPreparedControlHandoff lengthCommitments (samplePeer 0) samplePayload [1] []
        (controlLedger [accepted])).2 = .error .policy := by
  refine ⟨⟨⟨_, rehearsed_empty⟩, ?_⟩,
    ⟨⟨samplePeer 0, samplePayload, [0], 1, .relayAccepted, 0⟩, by decide +kernel⟩,
    by decide +kernel⟩
  exact refused_of_length (List.length_replicate.trans (by decide))

end Samples

end Tacenta.Client
