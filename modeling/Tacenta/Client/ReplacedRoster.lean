import Tacenta.Client.ControlRetention
import Tacenta.Client.GroupCommits

/-!
# The members of the replaced roster

A commit that accepts a roster checkpoints the roster that it replaced. The members of the replaced
roster are read from that checkpoint, if its commitment is the predecessor digest of the accepted
roster. Nothing but a further accepted roster writes such a checkpoint, and the bound on the control
records never evicts it.

## Main definitions

* `replacedRecord`: the checkpoint of a replaced roster.

## Main results

* `retaining_groupStep`: a commit that accepts no roster keeps the checkpoint and the view.
* `replaced_members_available`: the members of the replaced roster stay available.
-/

open ByteString Records Result Tacenta.Group

namespace Tacenta.Client

variable {S : Type} [OperationStore S] {commitments : Commitments}
  {snapshot candidate : OperationSnapshot}

/-! ### The checkpoint of the replaced roster -/

/-- The checkpoint of a replaced roster. -/
def replacedRecord (roster : Roster) : Bytes :=
  ascii "TCGS" ++ roster.groupId.bytes.val ++ lpBytes roster.layout

theorem hasTag_replacedRecord (roster : Roster) :
    hasTag (ascii "TCGS" ++ roster.groupId.bytes.val) (replacedRecord roster) = true :=
  hasTag_append _ _

theorem latestCheckpoint_append_list (controls records : List Bytes) (scope : Bytes) :
    latestCheckpoint (controls ++ records) scope =
      (latestCheckpoint records scope).or (latestCheckpoint controls scope) := by
  rw [latestCheckpoint, List.reverse_append, List.find?_append]
  rfl

theorem latestCheckpoint_scope {controls : List Bytes} {tag rest record : Bytes}
    (h : latestCheckpoint controls tag = some record)
    (hscope : hasTag (tag ++ rest) record = true) :
    latestCheckpoint controls (tag ++ rest) = some record := by
  obtain ⟨-, before, after, hsplit, hbefore⟩ := List.find?_eq_some_iff_append.mp h
  refine List.find?_eq_some_iff_append.mpr ⟨hscope, before, after, hsplit, fun known hknown => ?_⟩
  have hnot := hbefore known hknown
  rw [Bool.not_eq_true'] at hnot ⊢
  refine decide_eq_false fun hprefix => of_decide_eq_false hnot ?_
  exact (List.prefix_append tag rest).trans hprefix

theorem replacedPreimage_lpBytes {b : Bytes} (h : b.length < 2 ^ 32) :
    replacedPreimage (lpBytes b) = some b := by
  have hlength : (u32Bytes b.length.toUInt32).length = 4 := length_u32Bytes _
  have hdrop : (lpBytes b).drop 4 = b := List.drop_left' hlength
  have htake : ofBe ((lpBytes b).take 4) = b.length := by
    have hnat : b.length.toUInt32.toNat = b.length := by
      rw [toNat_toUInt32_of_lt h]
    rw [lpBytes, List.take_left' hlength, u32Bytes, hnat, ofBe_toBe h]
  simp [replacedPreimage, hdrop, htake]

theorem replacedRosterMembers_eq {roster : Roster} {view : RosterView} (hvalid : roster.Valid)
    (hlength : roster.layout.length < 2 ^ 32)
    (hlatest : latestCheckpoint snapshot.groupControls (ascii "TCGS") =
      some (replacedRecord roster))
    (hgroup : view.roster.groupId = roster.groupId)
    (hdigest : view.roster.predecessorDigest = commitments.roster roster.layout) :
    replacedRosterMembers commitments snapshot view = roster.members := by
  have hscope := latestCheckpoint_scope hlatest (hasTag_replacedRecord roster)
  have hdecode : Roster.decode roster.layout = .ok roster :=
    Roster.decode_eq_ok_iff.mpr ⟨hvalid, rfl⟩
  have hdrop : (replacedRecord roster).drop (ascii "TCGS" ++ roster.groupId.bytes.val).length =
      lpBytes roster.layout := List.drop_left' rfl
  rw [replacedRosterMembers]
  simp only [hgroup, hscope, Option.bind_some, hdrop, replacedPreimage_lpBytes hlength, hdigest,
    hdecode]
  simp

/-! ### What a roster transition writes -/

variable {live live' : RosterCommitState} {t : RosterTransition} {answer : RosterCommit}
  {store : S}

theorem acceptedRecords_of_accepted {replaced roster : Roster} {added : List Bytes}
    (hgroup : roster.groupId = replaced.groupId)
    (h : acceptedRecords .accepted replaced roster = .ok added) :
    replaced.Valid ∧ replaced.layout.length < 2 ^ 32 ∧
      added = [encodeGroupOutboxCancellationRecord roster.groupId roster.revision,
        replacedRecord replaced] := by
  rw [acceptedRecords, if_pos rfl] at h
  simp only [bind_eq_ok, policy_eq_ok, Roster.encode_eq_ok_iff] at h
  obtain ⟨_, ⟨hvalid, rfl⟩, record, hrecord, h⟩ := h
  obtain ⟨hlength, rfl⟩ := putLp_eq_ok.mp (policy_eq_ok.mp hrecord)
  cases h
  exact ⟨hvalid, hlength, by rw [hgroup]; rfl⟩

/-- The checkpoints of replaced rosters among the records of a transition are those of its accepted
successor. -/
theorem filter_transitionRecords {preimage : Bytes} {commitment : Digest} {view : RosterView}
    {disposition : RosterDisposition} {deferred : Option DeferredRosters} {records : List Bytes}
    {controlOutbox : Option ControlOutbox} {book : Option InvitationBook}
    (h : transitionRecords commitments live t preimage commitment view disposition deferred =
      .ok (records, controlOutbox, book)) :
    ∃ accepted, acceptedRecords disposition live.view.roster t.candidate = .ok accepted ∧
      records.filter (hasTag (ascii "TCGS")) = accepted.filter (hasTag (ascii "TCGS")) := by
  simp only [transitionRecords, bind_eq_ok, Prod.exists, policy_eq_ok] at h
  obtain ⟨roster, hroster, accepted, haccepted, _, prepared, hprepared, _, admission, hadmission,
    _, -, viewRecord, hview, queue, hqueue, h⟩ := h
  cases h
  refine ⟨accepted, haccepted, ?_⟩
  have hprepared := tagged_onRequest (fun _ _ _ => hasTag_recordPreparedControl) hprepared
  have hadmission := tagged_onRequest (fun _ _ _ => hasTag_recordAdmission) hadmission
  have heffect : Tagged (ascii "TCGE")
      (t.provider.toList.map fun provider => encodeControlEffectRecord provider.2) := by
    intro record hrecord
    obtain ⟨provider, -, rfl⟩ := List.mem_map.mp hrecord
    exact hasTag_append _ _
  have hqueue := tagged_queueRecords hqueue
  simp only [List.filter_append,
    (Tagged.singleton (hasTag_encodeRosterRecord hroster)).filter_eq_nil rfl rfl
      (by decide : ascii "TCGS" ≠ _),
    (Tagged.singleton (hasTag_of_putLp hview)).filter_eq_nil rfl rfl (by decide : ascii "TCGS" ≠ _),
    hprepared.filter_eq_nil rfl rfl (by decide : ascii "TCGS" ≠ _),
    hadmission.filter_eq_nil rfl rfl (by decide : ascii "TCGS" ≠ _),
    heffect.filter_eq_nil rfl rfl (by decide : ascii "TCGS" ≠ _),
    hqueue.filter_eq_nil rfl rfl (by decide : ascii "TCGS" ≠ _), List.nil_append, List.append_nil]

theorem rosterTransitionPlan_records
    (h : rosterTransitionPlan commitments store snapshot live t =
      .ok (.publish candidate live' answer)) :
    ∃ records controlOutbox book, transitionRecords commitments live t t.candidate.layout
        (commitments.roster t.candidate.layout) live'.view answer.disposition live'.deferred =
          .ok (records, controlOutbox, book) ∧
      candidate.groupControls = appendGroupControlRecords snapshot.groupControls records := by
  simp only [rosterTransitionPlan, bind_eq_ok, policy_eq_ok, Roster.encode_eq_ok_iff,
    Prod.exists] at h
  obtain ⟨_, ⟨hvalid, rfl⟩, begun, hbegun, records, controlOutbox, book, hrecords, middle,
    groupOutbox, hcompact, after, receiver, revalidated, hreceive, h⟩ := h
  obtain ⟨generation, rfl⟩ := beginCandidate_eq_ok hbegun
  cases h
  refine ⟨records, controlOutbox, book, hrecords, ?_⟩
  rw [receiveAfter_frame hreceive]
  exact congrArg OperationSnapshot.groupControls (compactAfter_frame hcompact)

theorem rosterTransitionPlan_ne_settled :
    rosterTransitionPlan commitments store snapshot live t ≠ .ok (.settled answer) := by
  intro h
  simp only [rosterTransitionPlan, bind_eq_ok, Prod.exists] at h
  obtain ⟨_, -, _, -, _, _, _, -, _, _, -, _, _, _, -, h⟩ := h
  cases h

/-! ### What the commits of the group outbox write -/

section Outbox

variable {outbox outbox' : GroupOutbox} {id : LogicalMessageId} {recipient : Member}
  {progress : RecipientProgress} {commit : Bytes → Digest}

private theorem groupControls_prepared {ciphertext providerState : Bytes}
    (h : outboxPreparedCiphertextPlan commit store snapshot outbox id recipient ciphertext
      providerState = .ok (.publish candidate outbox' progress)) :
    candidate.groupControls = snapshot.groupControls := by
  simp only [outboxPreparedCiphertextPlan, bind_eq_ok] at h
  obtain ⟨_, -, begun, hbegun, _, -, h⟩ := h
  obtain ⟨generation, rfl⟩ := beginCandidate_eq_ok hbegun
  cases h
  rfl

private theorem groupControls_compactingPlan {p : Progressed}
    {encodeRecord : Except GroupOperationError Bytes}
    (h : compactingPlan commit store snapshot id p encodeRecord =
      .ok (.publish candidate outbox' progress)) :
    candidate.groupControls = snapshot.groupControls := by
  simp only [compactingPlan, bind_eq_ok, Prod.exists] at h
  obtain ⟨begun, hbegun, record, -, compacted, _, hcompact, h⟩ := h
  obtain ⟨generation, rfl⟩ := beginCandidate_eq_ok hbegun
  have hframe := compactGroupOutbox_frame hcompact
  cases h
  rw [hframe]

end Outbox

/-- A commit of the group outbox leaves the control records and the view. -/
theorem outboxStep_of_not_roster {l : Ledger S OutboxState} {call : OutboxCall}
    (hcall : call.isRoster = false) :
    (outboxStep commitments l call).1.snapshot.groupControls = l.snapshot.groupControls ∧
      (outboxStep commitments l call).1.live.view = l.live.view := by
  have hcommit : ∀ {α : Type} (plan : Except GroupOperationError (Plan GroupOutbox α)),
      (∀ candidate live answer, plan = .ok (.publish candidate live answer) →
        candidate.groupControls = l.snapshot.groupControls) →
      ((l.withLive l.live.outbox).commit plan).1.snapshot.groupControls =
        l.snapshot.groupControls := fun plan hplan =>
    Ledger.commit_invariant (fun snapshot _ => snapshot.groupControls = l.snapshot.groupControls)
      rfl hplan
  cases call with
  | intent digest sender sequence recipients payload =>
    rw [outboxStep]
    split
    · exact ⟨rfl, rfl⟩
    · exact ⟨hcommit _ fun _ _ _ h => (logicalIntentPlan_publish h).2.2.2, rfl⟩
  | prepared id recipient ciphertext providerState =>
    exact ⟨hcommit _ fun _ _ _ h => groupControls_prepared h, rfl⟩
  | reservation id recipient =>
    refine ⟨hcommit _ fun _ _ _ h => ?_, rfl⟩
    obtain ⟨p, -, h⟩ := bind_eq_ok.mp h
    exact groupControls_compactingPlan h
  | acceptance id recipient =>
    refine ⟨hcommit _ fun _ _ _ h => ?_, rfl⟩
    obtain ⟨p, -, h⟩ := bind_eq_ok.mp h
    exact groupControls_compactingPlan h
  | roster => cases hcall

/-! ### Runs -/

/-- The outcome of a committed roster transition of the group: the ledger keeps its snapshot and its
view, or the transition was published. -/
theorem groupStep_roster_cases (l : Ledger S OutboxState) (t : RosterTransition)
    (company : RosterCompany) :
    ((groupStep commitments l (.roster t company)).1.snapshot = l.snapshot ∧
      (groupStep commitments l (.roster t company)).1.live = l.live ∧
        ∃ e, (groupStep commitments l (.roster t company)).2 = .error e) ∨
    ∃ live' answer, rosterTransitionPlan commitments l.store l.snapshot
        (l.live.toCommitState company) t = .ok (.publish
          (groupStep commitments l (.roster t company)).1.snapshot live' answer) ∧
      (groupStep commitments l (.roster t company)).1.live.view = live'.view ∧
        (groupStep commitments l (.roster t company)).2 = .ok (some answer.disposition) := by
  let c := l.withLive (l.live.toCommitState company)
  have hcases := c.commit_cases (rosterTransitionPlan commitments c.store c.snapshot c.live t)
  simp only [groupStep, commitRosterTransition]
  change Ledger.Outcome c _ ((l.withLive (l.live.toCommitState company)).commit _) at hcases
  generalize (l.withLive (l.live.toCommitState company)).commit _ = result at hcases ⊢
  cases hcases with
  | refused e => exact .inl ⟨rfl, rfl, e, rfl⟩
  | settled answer h => exact absurd h rosterTransitionPlan_ne_settled
  | lost => exact .inl ⟨rfl, rfl, .frozen, rfl⟩
  | committed candidate live' answer store h => exact .inr ⟨live', answer, h, rfl, rfl⟩

/-- The control records hold the checkpoint of a replaced roster and keep the bound. -/
structure Retaining (roster : Roster) (controls : List Bytes) : Prop where
  latest : latestCheckpoint controls (ascii "TCGS") = some (replacedRecord roster)
  length_le : controls.length ≤ maxGroupControlRecords

/-- Records of other kinds leave the checkpoint of the replaced roster. -/
theorem Retaining.append {roster : Roster} {controls records : List Bytes}
    (h : Retaining roster controls) (hnone : records.filter (hasTag (ascii "TCGS")) = []) :
    Retaining roster (appendGroupControlRecords controls records) where
  latest := by
    have hrecords : latestCheckpoint records (ascii "TCGS") = none := by
      rw [latestCheckpoint_eq, hnone]
      rfl
    rw [latestCheckpoint_append (by decide), latestCheckpoint_append_list, hrecords,
      Option.none_or, h.latest]
  length_le := length_appendGroupControlRecords_le _ _

theorem Retaining.aside {roster : Roster} (h : Retaining roster snapshot.groupControls)
    (haside : Aside snapshot candidate) : Retaining roster candidate.groupControls := by
  rcases haside.2 with hcontrols | ⟨records, hside, hcontrols⟩
  · rw [hcontrols]
    exact h
  · rw [hcontrols]
    exact h.append (hside.filter_eq_nil rfl (by decide))

/-- A commit that accepts no roster keeps the checkpoint of the replaced roster and the view. -/
theorem retaining_groupStep {l : Ledger S OutboxState} {roster : Roster}
    (h : Retaining roster l.snapshot.groupControls) {call : GroupCall}
    (hcall : (groupStep commitments l call).2 ≠ .ok (some .accepted)) :
    Retaining roster (groupStep commitments l call).1.snapshot.groupControls ∧
      (groupStep commitments l call).1.live.view = l.live.view := by
  rcases @groupStep_cases S _ commitments l call with hnone | ⟨basic, hbasic, heq⟩
  · rw [hnone]
    exact ⟨h, rfl⟩
  rw [heq] at hcall ⊢
  cases hbasic with
  | outbox call hrest =>
    obtain ⟨hcontrols, hview⟩ := @outboxStep_of_not_roster S _ commitments l call hrest
    refine ⟨?_, hview⟩
    change Retaining roster (outboxStep commitments l call).1.snapshot.groupControls
    rw [hcontrols]
    exact h
  | roster t company =>
    rcases @groupStep_roster_cases S _ commitments l t company with
      ⟨hsnapshot, hlive, -⟩ | ⟨live', answer, hplan, hview, hanswer⟩
    · rw [hsnapshot, hlive]
      exact ⟨h, rfl⟩
    have hd : answer.disposition ≠ .accepted := fun hd => hcall (by rw [hanswer, hd])
    obtain ⟨records, _, _, hrecords, hcontrols⟩ := rosterTransitionPlan_records hplan
    obtain ⟨accepted, haccepted, hfilter⟩ := filter_transitionRecords hrecords
    rw [acceptedRecords, if_neg hd] at haccepted
    cases haccepted
    refine ⟨?_, ?_⟩
    · rw [hcontrols]
      exact h.append hfilter
    · rw [hview]
      rcases (rosterTransitionPlan_publish hplan).view_cases with ⟨-, hsame, -⟩ | ⟨hd', -⟩
      · exact hsame
      · exact absurd hd' hd
  | side call =>
    refine ⟨?_, congrArg OutboxState.view (live_sideStep l call)⟩
    exact @sideStep_keeps S _ commitments (fun snapshot => Retaining roster snapshot.groupControls)
      (fun _ _ hretaining haside => hretaining.aside haside) l h call

/-- A commit that accepts a roster checkpoints the roster that it replaces. -/
theorem retaining_of_accepted {l : Ledger S OutboxState} {call : GroupCall}
    (hcall : (groupStep commitments l call).2 = .ok (some .accepted)) :
    l.live.view.roster.Valid ∧ l.live.view.roster.layout.length < 2 ^ 32 ∧
      Retaining l.live.view.roster (groupStep commitments l call).1.snapshot.groupControls ∧
        l.live.view.Succeeds (groupStep commitments l call).1.live.view.roster := by
  rcases @groupStep_cases S _ commitments l call with hnone | ⟨basic, hbasic, heq⟩
  · rw [hnone] at hcall
    cases hcall
  rw [heq] at hcall ⊢
  cases hbasic with
  | outbox call hrest =>
    simp only [groupStep] at hcall
    cases hanswer : (outboxStep commitments l call).2 <;> rw [hanswer] at hcall <;> cases hcall
  | side call =>
    simp only [groupStep] at hcall
    cases hanswer : (sideStep commitments l call).2 <;> rw [hanswer] at hcall <;> cases hcall
  | roster t company =>
    rcases @groupStep_roster_cases S _ commitments l t company with
      ⟨-, -, e, he⟩ | ⟨live', answer, hplan, hview, hanswer⟩
    · rw [he] at hcall
      cases hcall
    have hd : answer.disposition = .accepted :=
      Option.some_inj.mp (Except.ok.inj (hanswer.symm.trans hcall))
    rcases (rosterTransitionPlan_publish hplan).view_cases with ⟨hd', -⟩ | ⟨-, -, hsucceeds, hview'⟩
    · exact absurd hd hd'
    obtain ⟨records, _, _, hrecords, hcontrols⟩ := rosterTransitionPlan_records hplan
    obtain ⟨accepted, haccepted, hfilter⟩ := filter_transitionRecords hrecords
    rw [hd] at haccepted
    obtain ⟨hvalid, hlength, rfl⟩ := acceptedRecords_of_accepted hsucceeds.groupId_eq haccepted
    refine ⟨hvalid, hlength, ⟨?_, ?_⟩, ?_⟩
    · have hlatest : latestCheckpoint records (ascii "TCGS") =
          some (replacedRecord l.live.view.roster) := by
        have htag : hasTag (ascii "TCGS") (replacedRecord l.live.view.roster) = true := by
          rw [replacedRecord, List.append_assoc]
          exact hasTag_append _ _
        have hcancellation : ¬hasTag (ascii "TCGS") (encodeGroupOutboxCancellationRecord
            t.candidate.groupId t.candidate.revision) = true := fun htag' =>
          absurd (tag_unique rfl rfl htag' (hasTag_cancellation _ _)) (by decide)
        rw [latestCheckpoint_eq, hfilter, List.filter_cons_of_neg hcancellation]
        change ([replacedRecord l.live.view.roster].filter _).getLast? = _
        rw [List.filter_cons_of_pos htag]
        rfl
      rw [hcontrols, latestCheckpoint_append (by decide), latestCheckpoint_append_list, hlatest]
      rfl
    · rw [hcontrols]
      exact length_appendGroupControlRecords_le _ _
    · rw [hview, hview']
      exact hsucceeds

theorem length_groupControls_run (l : Ledger S OutboxState) (calls : List GroupCall)
    (h : l.snapshot.groupControls.length ≤ maxGroupControlRecords) :
    ((groupStep commitments).run l calls).snapshot.groupControls.length ≤
      maxGroupControlRecords := by
  refine Machine.run_preserves (fun l : Ledger S OutboxState =>
    l.snapshot.groupControls.length ≤ maxGroupControlRecords) (fun l call h => ?_) h calls
  rcases @groupStep_cases S _ commitments l call with hnone | ⟨basic, hbasic, heq⟩
  · rw [hnone]
    exact h
  rw [heq]
  cases hbasic with
  | outbox call hrest =>
    change (outboxStep commitments l call).1.snapshot.groupControls.length ≤ _
    rw [(outboxStep_of_not_roster hrest).1]
    exact h
  | roster t company =>
    rcases @groupStep_roster_cases S _ commitments l t company with
      ⟨hsnapshot, -⟩ | ⟨live', answer, hplan, -⟩
    · rw [hsnapshot]
      exact h
    · obtain ⟨records, _, _, -, hcontrols⟩ := rosterTransitionPlan_records hplan
      rw [hcontrols]
      exact length_appendGroupControlRecords_le _ _
  | side call =>
    refine @sideStep_keeps S _ commitments (fun snapshot =>
      snapshot.groupControls.length ≤ maxGroupControlRecords) (fun _ _ h haside => ?_) l h call
    rcases haside.2 with hcontrols | ⟨records, -, hcontrols⟩
    · rw [hcontrols]
      exact h
    · rw [hcontrols]
      exact length_appendGroupControlRecords_le _ _

/-- **The members of the replaced roster stay available.** After a commit accepts a successor of a
roster whose digest in the view commits to its encoding, the replaced members are exactly the
members of that roster, and they stay so through any commits of the group that accept no further
roster, whatever their number and content. In every run the control records keep their bound.
Whatever the control records are and whatever is appended, the latest checkpoint of each kind is not
evicted, and the eviction always finds a record. -/
theorem replaced_members_available (commitments : Commitments) :
    (∀ (l : Ledger S OutboxState) (first : GroupCall) (preimage : Bytes) (calls : List GroupCall),
      l.live.view.roster.encode = .ok preimage →
      l.live.view.digest = commitments.roster preimage →
      (groupStep commitments l first).2 = .ok (some .accepted) →
      (∀ entry ∈ (groupStep commitments).log (groupStep commitments l first).1 calls,
        entry.2 ≠ .ok (some .accepted)) →
      let l' := (groupStep commitments).run l (first :: calls)
      replacedRosterMembers commitments l'.snapshot l'.live.view = l.live.view.roster.members) ∧
    (∀ (l : Ledger S OutboxState) (calls : List GroupCall),
      l.snapshot.groupControls.length ≤ 64 →
      ((groupStep commitments).run l calls).snapshot.groupControls.length ≤ 64) ∧
    ∀ controls records : List Bytes,
      (∀ tag ∈ checkpointTags,
        latestCheckpoint (appendGroupControlRecords controls records) tag =
          latestCheckpoint (controls ++ records) tag) ∧
      tryAppendGroupControlRecords controls records =
        some (appendGroupControlRecords controls records) := by
  refine ⟨fun l first preimage calls hencode hdigest hfirst hcalls => ?_,
    fun l calls => length_groupControls_run l calls,
    fun controls records => ⟨fun tag htag => latestCheckpoint_append htag controls records,
      tryAppendGroupControlRecords_eq controls records⟩⟩
  obtain ⟨hvalid, hlength, hretaining, hsucceeds⟩ := retaining_of_accepted hfirst
  obtain ⟨-, rfl⟩ := Roster.encode_eq_ok_iff.mp hencode
  set l₁ := (groupStep commitments l first).1 with hl₁
  have hkept : Retaining l.live.view.roster
        ((groupStep commitments).run l₁ calls).snapshot.groupControls ∧
      ((groupStep commitments).run l₁ calls).live.view = l₁.live.view := by
    refine Machine.run_invariant (fun l' : Ledger S OutboxState =>
      Retaining l.live.view.roster l'.snapshot.groupControls ∧ l'.live.view = l₁.live.view)
      (fun l' call h hcall => ?_) ⟨hretaining, rfl⟩
      ((Machine.along_log_iff (B := fun answer => answer ≠ .ok (some .accepted))).mpr hcalls)
    obtain ⟨hretaining', hview⟩ := retaining_groupStep h.1 hcall
    exact ⟨hretaining', hview.trans h.2⟩
  change replacedRosterMembers commitments ((groupStep commitments).run l₁ calls).snapshot
    ((groupStep commitments).run l₁ calls).live.view = _
  rw [hkept.2]
  exact replacedRosterMembers_eq hvalid hlength hkept.1.latest hsucceeds.groupId_eq
    (hsucceeds.predecessor_eq.trans hdigest)

/-- The coordinator of a group at its genesis. -/
def genesisLedger : Ledger DiscardStore OutboxState :=
  ⟨.discard, .empty 0, ⟨Sample.genesis, Sample.lengthCommitment Sample.genesis.layout⟩,
    .new Sample.group⟩

/-- The transition that adds a member. -/
def memberAdded : GroupCall :=
  .roster ⟨Sample.alice, Sample.successor 1 (Sample.lengthCommitment Sample.genesis.layout)
    [Sample.alice, Sample.bob], none, none, none, none⟩ ⟨none, none, none, none, []⟩

/-- A member is added to a group of one, and the transition arrives a second time. -/
theorem replaced_members_sample :
    let l := (groupStep ⟨Sample.lengthCommitment, Sample.lengthCommitment⟩).run genesisLedger
      [memberAdded, memberAdded]
    replacedRosterMembers ⟨Sample.lengthCommitment, Sample.lengthCommitment⟩ l.snapshot
      l.live.view = [Sample.alice] :=
  (replaced_members_available ⟨Sample.lengthCommitment, Sample.lengthCommitment⟩).1 genesisLedger
    memberAdded Sample.genesis.layout [memberAdded] (by decide +kernel) (by decide +kernel)
    (by decide +kernel) (by decide +kernel)

end Tacenta.Client
