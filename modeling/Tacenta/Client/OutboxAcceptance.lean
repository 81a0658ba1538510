import Tacenta.Client.GroupCommits

/-!
# Recording the relay's acceptance

The relay accepts the bytes of a reserved handoff, and the coordinator records it. The commit of the
reservation compacts the transcript, though, and a third reservation ends its recipient. If that
ends the send, and enough sends that were recorded later have ended too, then the reservation drops
the send, and the acceptance of its bytes cannot be recorded.

## Main definitions

* `AlwaysCommits`: a store that commits every candidate.
* `advance`, `outboxEffect`: what the commits of the group outbox do to the outbox alone.
* `OthersEnded`, `endedAfter`: the rest of the send, and the sends recorded after it.

## Main results

* `mem_droppedIds_iff`: which sends compaction drops.
* `outboxStep_effect`: the commits refine their effect on the outbox.
* `acceptance_recorded_iff`: when the acceptance of a reserved handoff can be recorded.
-/

open ByteString Records Result Tacenta.Group

namespace Tacenta.Client

/-! ### Which sends are dropped -/

section Dropped

variable {o : GroupOutbox} {pre post : List LogicalSend} {t : LogicalSend}

theorem send_eq_of_mem (hnodup : (o.sends.map LogicalSend.id).Nodup) (ht : t ∈ o.sends) :
    o.send t.id = .ok t := by
  rw [GroupOutbox.send]
  cases hfind : o.sends.find? fun s => decide (s.id = t.id) with
  | none => exact absurd (decide_eq_true rfl) (List.find?_eq_none.mp hfind t ht)
  | some s =>
    have hid : s.id = t.id :=
      of_decide_eq_true (List.find?_some (p := fun s : LogicalSend => s.id = t.id) hfind)
    have hs := List.inj_on_of_nodup_map hnodup (List.mem_of_find?_eq_some hfind) ht hid
    exact congrArg Except.ok hs

theorem terminalIds_eq (hnodup : (o.sends.map LogicalSend.id).Nodup) :
    terminalIds o = (o.sends.filter LogicalSend.isTerminal).map LogicalSend.id := by
  rw [terminalIds, List.filter_map]
  refine congrArg _ (List.filter_congr fun s hs => ?_)
  rw [Function.comp_apply, send_eq_of_mem hnodup hs]
  rfl

private theorem mem_take_iff {α : Type} {a : α} {before after : List α} {count : Nat}
    (hnodup : (before ++ a :: after).Nodup) :
    a ∈ (before ++ a :: after).take count ↔ before.length < count := by
  have hbefore : a ∉ before := fun ha =>
    List.disjoint_of_nodup_append hnodup ha List.mem_cons_self
  constructor
  · intro h
    by_contra hle
    rw [List.take_append_of_le_length (by omega)] at h
    exact hbefore (List.mem_of_mem_take h)
  · intro h
    obtain ⟨extra, rfl⟩ := Nat.exists_eq_add_of_lt h
    rw [List.take_append, Nat.add_assoc, Nat.add_sub_cancel_left, List.take_succ_cons]
    exact List.mem_append_right _ List.mem_cons_self

/-- **Compaction drops a terminal send** exactly if sixteen sends that were recorded after it are
terminal too. -/
theorem mem_droppedIds_iff (hsends : o.sends = pre ++ t :: post)
    (hnodup : (o.sends.map LogicalSend.id).Nodup) :
    t.id ∈ droppedIds o ↔ t.isTerminal = true ∧
      maxTerminalLogicalSends ≤ post.countP LogicalSend.isTerminal := by
  have hterminal : ∀ s ∈ o.sends, s.id ∈ terminalIds o ↔ s.isTerminal = true := by
    intro s hs
    rw [terminalIds, List.mem_filter, send_eq_of_mem hnodup hs]
    exact and_iff_right (List.mem_map_of_mem hs)
  have ht : t ∈ o.sends := hsends ▸ List.mem_append_right _ List.mem_cons_self
  by_cases hended : t.isTerminal = true
  · have hids : terminalIds o = (pre.filter LogicalSend.isTerminal).map LogicalSend.id ++
        t.id :: (post.filter LogicalSend.isTerminal).map LogicalSend.id := by
      rw [terminalIds_eq hnodup, hsends, List.filter_append, List.filter_cons_of_pos hended,
        List.map_append, List.map_cons]
    have hnodup' : (terminalIds o).Nodup := hnodup.filter _
    rw [hids] at hnodup'
    rw [droppedIds, hids, mem_take_iff hnodup']
    simp only [hended, true_and, List.length_append, List.length_cons, List.length_map,
      ← List.countP_eq_length_filter]
    omega
  · refine iff_of_false (fun hdropped => hended ?_) fun h => hended h.1
    exact (hterminal t ht).mp (List.mem_of_mem_take hdropped)

end Dropped

/-! ### The commits on the outbox alone -/

variable {S : Type} [OperationStore S]

/-- A store that is never latched and commits every candidate. -/
structure AlwaysCommits (S : Type) [OperationStore S] : Prop where
  not_frozen : ∀ store : S, OperationStore.isFrozen store = false
  committed : ∀ (store : S) (candidate : OperationSnapshot),
    (OperationStore.commit store candidate).2 = .committed

theorem AlwaysCommits.commit_publish {σ α : Type} (h : AlwaysCommits S) (l : Ledger S σ)
    (candidate : OperationSnapshot) (live : σ) (answer : α) :
    l.commit (.ok (.publish candidate live answer)) =
      (⟨(OperationStore.commit l.store candidate).1, candidate, live⟩, .ok answer) := by
  have hcommitted := h.committed l.store candidate
  rw [Ledger.commit]
  rcases hstore : OperationStore.commit l.store candidate with ⟨store, outcome⟩
  rw [hstore] at hcommitted
  cases hcommitted
  rfl

theorem AlwaysCommits.beginCandidate_eq (h : AlwaysCommits S) (store : S)
    (snapshot : OperationSnapshot) :
    beginCandidate store snapshot =
      match OperationStore.nextGeneration store snapshot.generation with
      | some generation => .ok { snapshot with generation }
      | none => .error .frozen := by
  rw [beginCandidate, h.not_frozen, refuseIf_neg Bool.false_ne_true, ok_bind]
  rfl

/-- What a commit of progress does to the outbox alone, before compaction. -/
def advance (o : GroupOutbox) (id : LogicalMessageId) (recipient : Member)
    (change : LogicalSend → Except Error (LogicalSend × RecipientProgress)) :
    Except GroupOperationError (GroupOutbox × RecipientProgress) := do
  let p ← progressSend o id recipient change
  refuseIf (2 ^ 32 ≤ p.ciphertext.length) .policy
  pure (p.outbox, p.progress)

theorem advance_eq_ok_iff {o o' : GroupOutbox} {id : LogicalMessageId} {recipient : Member}
    {change : LogicalSend → Except Error (LogicalSend × RecipientProgress)}
    {q : RecipientProgress} :
    advance o id recipient change = .ok (o', q) ↔ ∃ p, progressSend o id recipient change = .ok p ∧
      p.ciphertext.length < 2 ^ 32 ∧ p.outbox = o' ∧ p.progress = q := by
  simp only [advance, bind_eq_ok, refuseIf_eq_ok, pure_eq_ok, Prod.mk.injEq, not_le]
  constructor
  · rintro ⟨p, hp, -, hlen, h⟩
    exact ⟨p, hp, hlen, h⟩
  · rintro ⟨p, hp, hlen, h⟩
    exact ⟨p, hp, (), hlen, h⟩

section Plans

variable {commitments : Commitments} {commit : Bytes → Digest} {group : GroupId} {c : Option UInt64}
  {store : S} {snapshot : OperationSnapshot} {o live : GroupOutbox} {id : LogicalMessageId}
  {r : Member} {q : RecipientProgress} {generation : UInt64}

section

variable {change : LogicalSend → Except Error (LogicalSend × RecipientProgress)}
  {encode : Progressed → Except GroupOperationError Bytes}
  (hc : Compacting commit id r change encode) (hr : Recoverable commit group c snapshot o)
  (hbegun : beginCandidate store snapshot = .ok { snapshot with generation })

include hc hr hbegun

/-- Progress on a recoverable outbox is published with compaction, in the next generation. -/
theorem compacting_of_advance {o' : GroupOutbox} (h : advance o id r change = .ok (o', q)) :
    ∃ candidate, (progressSend o id r change >>= fun p =>
        compactingPlan commit store snapshot id p (encode p)) =
      .ok (.publish candidate (compacted o') q) ∧ candidate.generation = generation := by
  obtain ⟨entries, hs, hm⟩ := hr
  obtain ⟨p, hp, hshort, rfl, rfl⟩ := advance_eq_ok_iff.mp h
  obtain ⟨e, he, hm'⟩ := hc.entry _ _ _ _ p hm hp hshort
  exact ⟨_, bind_eq_ok.mpr
    ⟨p, hp, compactingPlan_eq hs (groupId_of_progressSend hm hp) hbegun he hm'⟩, rfl⟩

theorem compacting_eq_ok_iff :
    (∃ candidate, (progressSend o id r change >>= fun p =>
        compactingPlan commit store snapshot id p (encode p)) = .ok (.publish candidate live q)) ↔
      ∃ o', advance o id r change = .ok (o', q) ∧ live = compacted o' := by
  constructor
  · rintro ⟨candidate, h⟩
    obtain ⟨p, hp, hcompact⟩ := bind_eq_ok.mp h
    obtain ⟨_, -, hrest⟩ := bind_eq_ok.mp hcompact
    obtain ⟨record, hrecord, -⟩ := bind_eq_ok.mp hrest
    have hadvance := advance_eq_ok_iff.mpr ⟨p, hp, hc.length_lt p record hrecord, rfl, rfl⟩
    obtain ⟨candidate', hplan, -⟩ := compacting_of_advance hc hr hbegun hadvance
    rw [h] at hplan
    obtain ⟨-, rfl, rfl⟩ := Plan.publish.inj (Except.ok.inj hplan)
    exact ⟨p.outbox, hadvance, rfl⟩
  · rintro ⟨o', hadvance, rfl⟩
    exact (compacting_of_advance hc hr hbegun hadvance).imp fun _ h => h.1

end

end Plans

/-! ### An acceptance after a reservation -/

/-- Every recipient of the send but the given one has ended. -/
def OthersEnded (o : GroupOutbox) (id : LogicalMessageId) (recipient : Member) : Prop :=
  ∀ send, o.send id = .ok send →
    (send.recipients.eraseP fun p => p.recipient = recipient).all
      (fun p => p.disposition.isTerminal) = true

/-- How many of the sends that were recorded after the send have ended. -/
def endedAfter (o : GroupOutbox) (id : LogicalMessageId) : Nat :=
  (o.sends.dropWhile fun s => s.id ≠ id).tail.countP LogicalSend.isTerminal

section Acceptance

variable {o o' : GroupOutbox} {id : LogicalMessageId} {r : Member} {pre post : List LogicalSend}
  {s : LogicalSend} {rpre rpost : List RecipientProgress} {p q : RecipientProgress}

section

variable (h : OutboxAt o id r pre s post rpre p rpost)
include h

theorem OutboxAt.othersEnded_iff :
    OthersEnded o id r ↔ (rpre ++ rpost).all (fun p => p.disposition.isTerminal) = true := by
  have herase : (s.recipients.eraseP fun p => p.recipient = r) = rpre ++ rpost := by
    rw [h.splits.recipients_eq, List.eraseP_append_right _ fun x hx => by
      simpa using h.splits.before x hx, List.eraseP_cons_of_pos]
    exact decide_eq_true h.splits.recipient_eq
  constructor
  · intro hothers
    rw [← herase]
    exact hothers s h.send_eq
  · intro hall send hsend
    rw [h.send_eq] at hsend
    cases hsend
    rw [herase]
    exact hall

theorem OutboxAt.endedAfter_eq :
    endedAfter o id = post.countP LogicalSend.isTerminal := by
  have hdrop : (o.sends.dropWhile fun s => s.id ≠ id) = s :: post := by
    rw [h.sends_eq, List.dropWhile_append_of_pos fun x hx => decide_eq_true (h.before x hx),
      List.dropWhile_cons_of_neg]
    simpa using h.id_eq
  rw [endedAfter, hdrop, List.tail_cons]

theorem OutboxAt.replaced (hq : q.recipient = r) :
    OutboxAt { o with sends := pre ++ { s with recipients := rpre ++ q :: rpost } :: post } id r pre
      { s with recipients := rpre ++ q :: rpost } post rpre q rpost :=
  ⟨rfl, h.before, h.id_eq, rfl, h.splits.before, hq⟩

theorem OutboxAt.keep {k : LogicalMessageId → Bool} (hk : k id = true) :
    OutboxAt (o.keep k) id r (pre.filter fun s => k s.id) s (post.filter fun s => k s.id) rpre p
      rpost where
  sends_eq := by
    change o.sends.filter _ = _
    rw [h.sends_eq, List.filter_append, List.filter_cons_of_pos (by rw [h.id_eq]; exact hk)]
  before x hx := h.before x (List.mem_filter.mp hx).1
  id_eq := h.id_eq
  splits := h.splits

/-- A reservation ends its send exactly if it is the final one and the others have ended. -/
private theorem isTerminal_reserved (hreserve : p.reserveHandoff = (q, .ok ())) :
    LogicalSend.isTerminal { s with recipients := rpre ++ q :: rpost } = true ↔
      p.attemptsReserved = 2 ∧ OthersEnded o id r := by
  obtain ⟨-, -, rfl⟩ := RecipientProgress.reserveHandoff_eq_ok hreserve
  rw [h.othersEnded_iff, LogicalSend.isTerminal]
  simp only [List.all_append, List.all_cons, Bool.and_eq_true]
  have hfinal : p.attemptsReserved + 1 = 3 ↔ p.attemptsReserved = 2 :=
    UInt8.add_left_inj (a := p.attemptsReserved) (b := 2) 1
  by_cases htwo : p.attemptsReserved = 2
  · simp [htwo, ProgressKind.disposition, RecipientDisposition.isTerminal]
  · simp [hfinal, htwo, ProgressKind.disposition, RecipientDisposition.isTerminal]

end

/-- After a reservation, the relay's acceptance is recorded exactly if compaction did not drop the
send with the reservation. -/
theorem advance_accepted_iff (hnodup : (o.sends.map LogicalSend.id).Nodup)
    (h : advance o id r (fun send => discarding (send.reserveHandoff r)) = .ok (o', q)) :
    ∃ s p, o.send id = .ok s ∧ s.progress r = .ok p ∧ p.ciphertext = q.ciphertext ∧
      ((∃ o'' a, advance (compacted o') id r (fun send => discarding (send.recordRelayAccepted r)) =
          .ok (o'', a) ∧ a.disposition = .relayAccepted ∧ a.ciphertext = q.ciphertext) ↔
        ¬(p.attemptsReserved = 2 ∧ OthersEnded o id r ∧
          maxTerminalLogicalSends ≤ endedAfter o id)) := by
  obtain ⟨reserved, hreserved, hlen, rfl, rfl⟩ := advance_eq_ok_iff.mp h
  obtain ⟨pre, s, post, rpre, p, rpost, hat, hmethod, hvalid, hbytes, hcommitment, hciphertext,
    houtbox⟩ := exists_outboxAt hreserved
  have hrecipient : reserved.progress.recipient = r := by
    have hname := RecipientProgress.recipient_reserveHandoff p
    rw [hmethod] at hname
    exact hname.trans hat.splits.recipient_eq
  have hat' := hat.replaced hrecipient
  rw [← houtbox] at hat'
  have hnodup' : (reserved.outbox.sends.map LogicalSend.id).Nodup := by
    have hids : reserved.outbox.sends.map LogicalSend.id = o.sends.map LogicalSend.id := by
      rw [hat'.sends_eq, hat.sends_eq, List.map_append, List.map_append, List.map_cons,
        List.map_cons]
    rw [hids]
    exact hnodup
  have hdropped : id ∈ droppedIds reserved.outbox ↔
      p.attemptsReserved = 2 ∧ OthersEnded o id r ∧
        maxTerminalLogicalSends ≤ endedAfter o id := by
    have hmem := mem_droppedIds_iff hat'.sends_eq hnodup'
    rw [isTerminal_reserved hat hmethod, hat'.id_eq] at hmem
    rw [hmem, hat.endedAfter_eq, and_assoc]
  obtain ⟨-, -, hprogress⟩ := RecipientProgress.reserveHandoff_eq_ok hmethod
  refine ⟨s, p, hat.send_eq, hat.splits.progress_eq, by rw [hprogress], ?_⟩
  rw [← hdropped]
  constructor
  · rintro ⟨o'', a, hadvance, -⟩ hmem
    obtain ⟨accepted, haccepted, -⟩ := advance_eq_ok_iff.mp hadvance
    obtain ⟨pre', s', post', _, _, _, hat'', -⟩ :=
      exists_outboxAt haccepted
    have hs' : s' ∈ (compacted reserved.outbox).sends :=
      hat''.sends_eq ▸ List.mem_append_right _ List.mem_cons_self
    have hkept := of_decide_eq_true (List.mem_filter.mp hs').2
    rw [hat''.id_eq] at hkept
    exact hkept hmem
  · intro hmem
    have hkept := hat'.keep (k := fun id => id ∉ droppedIds reserved.outbox) (decide_eq_true hmem)
    have haccept : reserved.progress.recordRelayAccepted =
        ({ reserved.progress with disposition := .relayAccepted }, .ok ()) := by
      rw [hprogress, RecipientProgress.recordRelayAccepted]
      by_cases hthird : p.attemptsReserved + 1 = 3 <;> simp [hthird, ProgressKind.disposition]
    have hchange := discarding_eq_ok_iff.mpr
      (LogicalSend.onProgress_eq_ok_iff.mpr ⟨_, _, _, hkept.splits, haccept, rfl⟩)
    have haccepted : progressSend (compacted reserved.outbox) id r
        (fun send => discarding (send.recordRelayAccepted r)) = .ok _ :=
      hkept.progressSend_of_change hchange hrecipient hvalid hcommitment hciphertext
    exact ⟨_, _, advance_eq_ok_iff.mpr ⟨_, haccepted, hlen, rfl, rfl⟩, rfl, rfl⟩

end Acceptance

/-! ### Ledgers -/

section Ledgers

variable {commit : Bytes → Digest} {store : S} {snapshot : OperationSnapshot} {o : GroupOutbox}
  {id : LogicalMessageId} {r : Member} {a : RecipientProgress}

theorem compacting_ne_settled {progressed : Except GroupOperationError Progressed}
    {encode : Progressed → Except GroupOperationError Bytes} :
    (progressed >>= fun p => compactingPlan commit store snapshot id p (encode p)) ≠
      .ok (.settled a) := by
  intro h
  simp only [compactingPlan, bind_eq_ok, Prod.exists] at h
  obtain ⟨_, -, _, -, _, -, _, _, -, h⟩ := h
  cases h

/-- A relay acceptance is committed exactly if there is a next generation and the outbox allows
it. -/
theorem commitOutboxRelayAcceptance_eq_ok_iff (hstore : AlwaysCommits S) {l : Ledger S GroupOutbox}
    {group : GroupId} {c : Option UInt64} (hr : Recoverable commit group c l.snapshot l.live) :
    (commitOutboxRelayAcceptance commit l id r).2 = .ok a ↔
      (OperationStore.nextGeneration l.store l.snapshot.generation).isSome = true ∧
        ∃ o', advance l.live id r (fun send => discarding (send.recordRelayAccepted r)) =
          .ok (o', a) := by
  have hbegin := hstore.beginCandidate_eq l.store l.snapshot
  rw [commitOutboxRelayAcceptance]
  constructor
  · intro h
    obtain ⟨candidate, live, hplan, -⟩ :=
      Ledger.exists_publish (fun _ => compacting_ne_settled) h
    obtain ⟨p, -, hcompact⟩ := bind_eq_ok.mp hplan
    obtain ⟨begun, hbegun, -⟩ := bind_eq_ok.mp hcompact
    cases hnext : OperationStore.nextGeneration l.store l.snapshot.generation with
    | none =>
      rw [hbegin, hnext] at hbegun
      cases hbegun
    | some generation =>
      rw [hnext] at hbegin
      obtain ⟨o', hadvance, -⟩ :=
        (compacting_eq_ok_iff compacting_acceptance hr hbegin).mp ⟨candidate, hplan⟩
      exact ⟨rfl, o', hadvance⟩
  · rintro ⟨hsome, o', hadvance⟩
    obtain ⟨generation, hnext⟩ := Option.isSome_iff_exists.mp hsome
    rw [hnext] at hbegin
    obtain ⟨candidate, hplan⟩ :=
      (compacting_eq_ok_iff compacting_acceptance hr hbegin).mpr ⟨o', hadvance, rfl⟩
    rw [outboxRelayAcceptancePlan, hplan, hstore.commit_publish]

end Ledgers

/-- **Recording the relay's acceptance.** In every run of the commits of a group on a store that
always commits: right after a committed reservation, the relay's acceptance of the reserved
ciphertext is recorded exactly if the store has a next generation, and unless two attempts were
reserved before, every other recipient of the send had ended, and at least sixteen sends that were
recorded after it had ended. -/
theorem acceptance_recorded_iff (commitments : Commitments) (hstore : AlwaysCommits S)
    (view : RosterView) (store : S) (generation : UInt64) (calls : List GroupCall)
    (id : LogicalMessageId) (recipient : Member) (r : RecipientProgress) :
    let l := (groupStep commitments).run
      ⟨store, .empty generation, view, .new view.roster.groupId⟩ calls
    let reserved := commitOutboxHandoffReservation commitments.payload
      (l.withLive l.live.outbox) id recipient
    let accepted := commitOutboxRelayAcceptance commitments.payload reserved.1 id recipient
    reserved.2 = .ok r →
      ∃ send p, l.live.outbox.send id = .ok send ∧ send.progress recipient = .ok p ∧
        p.ciphertext = r.ciphertext ∧
        ((∃ a, accepted.2 = .ok a ∧ a.disposition = .relayAccepted ∧
            a.ciphertext = r.ciphertext) ↔
          (OperationStore.nextGeneration reserved.1.store
              reserved.1.snapshot.generation).isSome = true ∧
            ¬(p.attemptsReserved = 2 ∧ OthersEnded l.live.outbox id recipient ∧
              16 ≤ endedAfter l.live.outbox id)) := by
  intro l reserved accepted hreserved
  have hmirrored : Mirrored commitments view.roster.groupId l.snapshot l.live :=
    Machine.run_preserves (fun l : Ledger S OutboxState =>
      Mirrored commitments view.roster.groupId l.snapshot l.live)
      (fun _ call h => mirrored_groupStep h call)
      ⟨rfl, none, fun _ h => (by cases h), [], ⟨rfl, rfl⟩, Mirrors.new _ _⟩ calls
  obtain ⟨-, c, -, hr⟩ := hmirrored
  obtain ⟨candidate, live, hplan, hsnapshot, hlive⟩ :=
    Ledger.exists_publish (fun _ => compacting_ne_settled) hreserved
  change reserved.1.snapshot = candidate at hsnapshot
  change reserved.1.live = live at hlive
  have hr' : Recoverable commitments.payload view.roster.groupId c reserved.1.snapshot
      reserved.1.live := by
    rw [hsnapshot, hlive]
    exact (hr.compacting compacting_handoff hplan).recoverable
  obtain ⟨o', hadvance, rfl⟩ : ∃ o', advance l.live.outbox id recipient
      (fun send => discarding (send.reserveHandoff recipient)) = .ok (o', r) ∧
        live = compacted o' := by
    obtain ⟨p, -, hcompact⟩ := bind_eq_ok.mp hplan
    obtain ⟨begun, hbegun, -⟩ := bind_eq_ok.mp hcompact
    obtain ⟨generation', rfl⟩ := beginCandidate_eq_ok hbegun
    exact (compacting_eq_ok_iff compacting_handoff hr hbegun).mp ⟨candidate, hplan⟩
  obtain ⟨entries, -, hm⟩ := hr
  obtain ⟨send, p, hsend, hprogress, hheld, haccepted⟩ := advance_accepted_iff hm.nodup hadvance
  rw [← hlive] at haccepted
  refine ⟨send, p, hsend, hprogress, hheld, ?_⟩
  constructor
  · rintro ⟨a, ha, hdisposition, hciphertext⟩
    obtain ⟨hsome, o'', hadvance'⟩ := (commitOutboxRelayAcceptance_eq_ok_iff hstore hr').mp ha
    exact ⟨hsome, haccepted.mp ⟨o'', a, hadvance', hdisposition, hciphertext⟩⟩
  · rintro ⟨hsome, hkept⟩
    obtain ⟨o'', a, hadvance', hdisposition, hciphertext⟩ := haccepted.mpr hkept
    exact ⟨a, (commitOutboxRelayAcceptance_eq_ok_iff hstore hr').mpr ⟨hsome, o'', hadvance'⟩,
      hdisposition, hciphertext⟩

/-! ### A first reservation -/

/-- A commit of the group outbox as a call of the group. -/
abbrev OutboxCommit := { call : OutboxCall // call.isRoster = false }

theorem alwaysCommits_discardStore : AlwaysCommits DiscardStore := ⟨fun _ => rfl, fun _ _ => rfl⟩

/-- The identifier of one of the authority's sends. -/
def sampleId (n : Nat) : LogicalMessageId := ⟨Sample.group, 1, Sample.alice, n.toUInt64⟩

/-- Record the intent of a send to the other member. -/
def intentCommit (n : Nat) : OutboxCommit :=
  ⟨.intent pairView.digest Sample.alice n.toUInt64 [Sample.bob] [], rfl⟩

/-- Prepare a send. -/
def preparedCommit (n : Nat) : OutboxCommit :=
  ⟨.prepared (sampleId n) Sample.bob [n.toUInt8] [], rfl⟩

/-- Reserve an attempt of a send. -/
def reservationCommit (n : Nat) : OutboxCommit := ⟨.reservation (sampleId n) Sample.bob, rfl⟩

/-- Record that the relay accepted a send. -/
def acceptanceCommit (n : Nat) : OutboxCommit := ⟨.acceptance (sampleId n) Sample.bob, rfl⟩

/-- The coordinator before any commit. -/
def pairLedger : Ledger DiscardStore OutboxState :=
  ⟨.discard, .empty 0, pairView, .new pairView.roster.groupId⟩

/-- The commits that prepare a first send. -/
def preparedCalls : List GroupCall :=
  [intentCommit 0, preparedCommit 0].map fun call => .outbox call.1 call.2

/-- The coordinator with a prepared send. -/
def preparedLedger : Ledger DiscardStore OutboxState :=
  (groupStep lengthCommitments).run
    ⟨.discard, .empty 0, pairView, .new pairView.roster.groupId⟩ preparedCalls

/-- The first reservation of the prepared send. -/
def firstReservation :
    Ledger DiscardStore GroupOutbox × Except GroupOperationError RecipientProgress :=
  commitOutboxHandoffReservation lengthCommitments.payload
    (preparedLedger.withLive preparedLedger.live.outbox) (sampleId 0) Sample.bob

private theorem firstReservation_answer : (firstReservation.2.toOption.any fun r =>
    r.ciphertext = some [0]) = true := by decide +kernel

private theorem endedAfter_preparedLedger :
    endedAfter preparedLedger.live.outbox (sampleId 0) = 0 := by decide +kernel

/-- The relay's acceptance right after the first reservation. -/
theorem acceptance_recorded_sample :
    ∃ a, (commitOutboxRelayAcceptance lengthCommitments.payload firstReservation.1 (sampleId 0)
      Sample.bob).2 = .ok a ∧ a.disposition = .relayAccepted ∧ a.ciphertext = some [0] := by
  cases hanswer : firstReservation.2 with
  | error e =>
    have hany := firstReservation_answer
    rw [hanswer] at hany
    cases hany
  | ok r =>
    have hany := firstReservation_answer
    rw [hanswer] at hany
    have hciphertext : r.ciphertext = some [0] := of_decide_eq_true hany
    have hnone := endedAfter_preparedLedger
    rw [← hciphertext]
    rw [firstReservation, preparedLedger] at hanswer ⊢
    rw [preparedLedger] at hnone
    obtain ⟨_, _, -, -, -, hiff⟩ := acceptance_recorded_iff lengthCommitments
      alwaysCommits_discardStore pairView .discard 0 preparedCalls (sampleId 0) Sample.bob r hanswer
    refine hiff.mpr ⟨?_, fun hended => ?_⟩
    · decide +kernel
    · have hmany := hended.2.2
      rw [hnone] at hmany
      exact absurd hmany (by decide)

/-! ### The effect of the outbox commits -/

/-- What a commit of the group outbox does to the outbox alone, if it is a new intent or progress of
a recipient. -/
def outboxEffect (commitments : Commitments) (view : RosterView) (o : GroupOutbox) :
    OutboxCall → Except GroupOperationError GroupOutbox
  | .intent digest sender sequence recipients payload => do
    let send ← policy (LogicalSend.new view.roster digest sender sequence recipients payload)
    let _ ← policy send.encodeIntent
    let (o, disposition) ← policy (o.record send)
    refuseIf (disposition ≠ .inserted) .policy
    pure o
  | .prepared id recipient ciphertext _ => do
    let (o, _) ← advance o id recipient
      (bindPreparedCiphertext commitments.payload recipient ciphertext)
    pure o
  | .reservation id recipient => do
    let (o, _) ← advance o id recipient fun send => discarding (send.reserveHandoff recipient)
    pure (compacted o)
  | .acceptance id recipient => do
    let (o, _) ← advance o id recipient fun send => discarding (send.recordRelayAccepted recipient)
    pure (compacted o)
  | .roster .. => .error .policy

section Effect

variable {commitments : Commitments} {group : GroupId} {snapshot : OperationSnapshot} {store : S}
  {o o' : GroupOutbox} {generation : UInt64}

private theorem logicalIntentPlan_effect {send : LogicalSend} {intent : Bytes}
    (hbegun : beginCandidate store snapshot = .ok { snapshot with generation })
    (hintent : send.encodeIntent = .ok intent) (hrecord : o.record send = .ok (o', .inserted)) :
    ∃ candidate, logicalIntentPlan store snapshot o send = .ok (.publish candidate o' .inserted) ∧
      candidate.generation = generation := by
  obtain ⟨hvalid, rfl⟩ := LogicalSend.encodeIntent_eq_ok_iff.mp hintent
  refine ⟨{ snapshot with
    generation
    outbox := snapshot.outbox ++ [(Entry.intent send).layout] }, ?_, rfl⟩
  rw [logicalIntentPlan, policy_eq_ok.mpr hintent, ok_bind, policy_eq_ok.mpr hrecord, ok_bind]
  simp only [reduceCtorEq, if_false, hbegun, ok_bind, encodeIntentRecord_layout hvalid]
  rfl

private theorem outboxPreparedCiphertextPlan_effect {id : LogicalMessageId} {r : Member}
    {ciphertext providerState : Bytes} {q : RecipientProgress}
    (hbegun : beginCandidate store snapshot = .ok { snapshot with generation })
    (h : advance o id r (bindPreparedCiphertext commitments.payload r ciphertext) = .ok (o', q)) :
    ∃ candidate, outboxPreparedCiphertextPlan commitments.payload store snapshot o id r ciphertext
      providerState = .ok (.publish candidate o' q) ∧ candidate.generation = generation := by
  obtain ⟨p, hp, hlen, rfl, rfl⟩ := advance_eq_ok_iff.mp h
  obtain ⟨hmut, -⟩ := progressSend_eq_ok hp
  obtain ⟨sends, hupdate, -⟩ := GroupOutbox.sendMut_eq_ok_iff.mp hmut
  obtain ⟨_, _, _, t, -, -, -, hchange, -⟩ := updateFirst_eq_ok_iff.mp hupdate
  obtain ⟨-, hvalid, hbytes⟩ := changeSend_eq_ok hchange
  rw [outboxPreparedCiphertextPlan, hp, ok_bind, hbegun, ok_bind, encodePreparedRecord, hbytes,
    encodeProgressRecord_of_valid hvalid hlen, ok_bind]
  exact ⟨_, rfl, rfl⟩

/-- **Refinement.** On a store that always commits and has a next generation, a commit whose effect
succeeds changes the outbox by its effect. -/
theorem outboxStep_effect (hstore : AlwaysCommits S) {l : Ledger S OutboxState}
    (h : Mirrored commitments group l.snapshot l.live)
    (hnext : OperationStore.nextGeneration l.store l.snapshot.generation = some generation)
    {call : OutboxCall}
    (heffect : outboxEffect commitments l.live.view l.live.outbox call = .ok o) :
    (outboxStep commitments l call).1.live = ⟨l.live.view, o⟩ ∧
      (outboxStep commitments l call).1.snapshot.generation = generation := by
  obtain ⟨-, c, -, hr⟩ := h
  have hbegun := hstore.beginCandidate_eq l.store l.snapshot
  rw [hnext] at hbegun
  -- A published plan becomes the ledger.
  have hcommit : ∀ {α : Type} {plan : Except GroupOperationError (Plan GroupOutbox α)},
      (∃ candidate a, plan = .ok (.publish candidate o a) ∧ candidate.generation = generation) →
        ((l.withLive l.live.outbox).commit plan).1.live = o ∧
          ((l.withLive l.live.outbox).commit plan).1.snapshot.generation = generation := by
    rintro α plan ⟨candidate, a, rfl, hgeneration⟩
    rw [hstore.commit_publish]
    exact ⟨rfl, hgeneration⟩
  cases call with
  | intent digest sender sequence recipients payload =>
    simp only [outboxEffect, bind_eq_ok, policy_eq_ok, Prod.exists, refuseIf_eq_ok,
      pure_eq_ok] at heffect
    obtain ⟨send, hsend, intent, hintent, _, disposition, hrecord, _, hinserted, rfl⟩ := heffect
    rw [not_not.mp hinserted] at hrecord
    obtain ⟨candidate, hplan⟩ := logicalIntentPlan_effect hbegun hintent hrecord
    obtain ⟨hlive, hgeneration⟩ := hcommit ⟨candidate, _, hplan⟩
    simp only [outboxStep, hsend]
    exact ⟨congrArg (OutboxState.mk l.live.view) hlive, hgeneration⟩
  | prepared id recipient ciphertext providerState =>
    simp only [outboxEffect, bind_eq_ok, Prod.exists, pure_eq_ok] at heffect
    obtain ⟨_, q, hadvance, rfl⟩ := heffect
    obtain ⟨candidate, hplan⟩ := outboxPreparedCiphertextPlan_effect hbegun hadvance
    obtain ⟨hlive, hgeneration⟩ := hcommit ⟨candidate, q, hplan⟩
    exact ⟨congrArg (OutboxState.mk l.live.view) hlive, hgeneration⟩
  | reservation id recipient =>
    simp only [outboxEffect, bind_eq_ok, Prod.exists, pure_eq_ok] at heffect
    obtain ⟨o', q, hadvance, rfl⟩ := heffect
    obtain ⟨candidate, hplan⟩ := compacting_of_advance compacting_handoff hr hbegun hadvance
    obtain ⟨hlive, hgeneration⟩ := hcommit ⟨candidate, q, hplan⟩
    exact ⟨congrArg (OutboxState.mk l.live.view) hlive, hgeneration⟩
  | acceptance id recipient =>
    simp only [outboxEffect, bind_eq_ok, Prod.exists, pure_eq_ok] at heffect
    obtain ⟨o', q, hadvance, rfl⟩ := heffect
    obtain ⟨candidate, hplan⟩ := compacting_of_advance compacting_acceptance hr hbegun hadvance
    obtain ⟨hlive, hgeneration⟩ := hcommit ⟨candidate, q, hplan⟩
    exact ⟨congrArg (OutboxState.mk l.live.view) hlive, hgeneration⟩
  | roster => cases heffect

/-- The outbox after commits whose effects succeed, on a store that accepts and forgets. -/
theorem run_outboxEffect {l : Ledger DiscardStore OutboxState} {calls : List OutboxCommit}
    (h : Mirrored commitments group l.snapshot l.live)
    (hroom : l.snapshot.generation.toNat + calls.length < 2 ^ 64)
    (heffect : calls.foldlM (fun o (call : OutboxCommit) => outboxEffect commitments l.live.view o
      call.1) l.live.outbox = .ok o) :
    ((groupStep commitments).run l (calls.map fun call => .outbox call.1 call.2)).live =
        ⟨l.live.view, o⟩ ∧
      ((groupStep commitments).run l
        (calls.map fun call => .outbox call.1 call.2)).snapshot.generation.toNat =
          l.snapshot.generation.toNat + calls.length := by
  induction calls generalizing l with
  | nil =>
    cases heffect
    exact ⟨rfl, rfl⟩
  | cons call calls ih =>
    rw [List.foldlM_cons] at heffect
    obtain ⟨o₁, ho₁, heffect⟩ := bind_eq_ok.mp heffect
    rw [List.length_cons] at hroom
    have hsucc : (l.snapshot.generation + 1).toNat = l.snapshot.generation.toNat + 1 := by
      have hone : (1 : UInt64).toNat = 1 := rfl
      rw [UInt64.toNat_add, hone]
      exact Nat.mod_eq_of_lt (by omega)
    have hnext : OperationStore.nextGeneration l.store l.snapshot.generation =
        some (l.snapshot.generation + 1) := Word64.checkedAdd_eq_some.mpr hsucc
    obtain ⟨hlive, hgeneration⟩ := outboxStep_effect alwaysCommits_discardStore h hnext ho₁
    have hmirrored := mirrored_groupStep h (.outbox call.1 call.2)
    change ((groupStep commitments).run (outboxStep commitments l call.1).1 _).live = _ ∧ _
    change Mirrored commitments group (outboxStep commitments l call.1).1.snapshot
      (outboxStep commitments l call.1).1.live at hmirrored
    have hview : (outboxStep commitments l call.1).1.live.view = l.live.view := by rw [hlive]
    have hrest := ih hmirrored (by rw [hgeneration, hsucc]; omega)
      (by rw [hview, hlive]; exact heffect)
    rw [hview, hgeneration, hsucc] at hrest
    refine ⟨hrest.1, hrest.2.trans ?_⟩
    rw [List.length_cons]
    omega

end Effect

/-! ### A final reservation that drops its send -/

/-- What a reservation of the first send and an acceptance do to the outbox after the commits. -/
def outcomeAfter (calls : List OutboxCommit) :
    Except GroupOperationError (Except GroupOperationError Unit) := do
  let o ← calls.foldlM
    (fun o call => outboxEffect lengthCommitments pairView o call.1) (.new pairView.roster.groupId)
  let (o, _) ← advance o (sampleId 0) Sample.bob fun send =>
    discarding (send.reserveHandoff Sample.bob)
  pure ((progressSend (compacted o) (sampleId 0) Sample.bob fun send =>
    discarding (send.recordRelayAccepted Sample.bob)).map fun _ => ())

private theorem acceptance_refused_of_outcomeAfter {calls : List OutboxCommit}
    (hroom : calls.length + 1 < 2 ^ 64) (houtcome : outcomeAfter calls = .ok (.error .policy)) :
    let l := (groupStep lengthCommitments).run pairLedger
      (calls.map fun call => .outbox call.1 call.2)
    let reserved := commitOutboxHandoffReservation lengthCommitments.payload
      (l.withLive l.live.outbox) (sampleId 0) Sample.bob
    (∃ r, reserved.2 = .ok r) ∧ (commitOutboxRelayAcceptance lengthCommitments.payload reserved.1
      (sampleId 0) Sample.bob).2 = .error .policy := by
  intro l reserved
  have hstart : Mirrored lengthCommitments pairView.roster.groupId pairLedger.snapshot
      pairLedger.live := ⟨rfl, none, fun _ h => (by cases h), [], ⟨rfl, rfl⟩, Mirrors.new _ _⟩
  have hzero : pairLedger.snapshot.generation.toNat = 0 := rfl
  obtain ⟨o, ho, houtcome⟩ := bind_eq_ok.mp houtcome
  obtain ⟨⟨o', r⟩, hadvance, houtcome⟩ := bind_eq_ok.mp houtcome
  obtain ⟨hlive, hgeneration⟩ := run_outboxEffect hstart (by omega) ho
  have houtbox : l.live.outbox = o := congrArg OutboxState.outbox hlive
  have hnext : OperationStore.nextGeneration l.store l.snapshot.generation =
      some (l.snapshot.generation + 1) := by
    have hone : (1 : UInt64).toNat = 1 := rfl
    have hcount : l.snapshot.generation.toNat = calls.length := by
      rw [hgeneration, hzero, Nat.zero_add]
    refine Word64.checkedAdd_eq_some.mpr ?_
    rw [UInt64.toNat_add, hone, hcount]
    exact Nat.mod_eq_of_lt hroom
  obtain ⟨-, c, -, hr⟩ : Mirrored lengthCommitments pairView.roster.groupId l.snapshot l.live :=
    Machine.run_preserves (fun l : Ledger DiscardStore OutboxState =>
      Mirrored lengthCommitments pairView.roster.groupId l.snapshot l.live)
      (fun _ call h => mirrored_groupStep h call) hstart _
  have hbegun := alwaysCommits_discardStore.beginCandidate_eq l.store l.snapshot
  rw [hnext] at hbegun
  obtain ⟨candidate, hplan, -⟩ :=
    compacting_of_advance compacting_handoff hr hbegun (houtbox ▸ hadvance)
  have hreserved : reserved = ((⟨l.store, candidate, compacted o'⟩ :
      Ledger DiscardStore GroupOutbox), .ok r) := by
    change (l.withLive l.live.outbox).commit _ = _
    exact (congrArg _ hplan).trans (alwaysCommits_discardStore.commit_publish _ _ _ _)
  have hrefused : progressSend (compacted o') (sampleId 0) Sample.bob
      (fun send => discarding (send.recordRelayAccepted Sample.bob)) = .error .policy := by
    cases hprogress : progressSend (compacted o') (sampleId 0) Sample.bob
        (fun send => discarding (send.recordRelayAccepted Sample.bob)) with
    | error e =>
      simp only [hprogress] at houtcome
      exact congrArg _ (Except.error.inj (Except.ok.inj houtcome))
    | ok p =>
      simp only [hprogress] at houtcome
      cases houtcome
  refine ⟨⟨r, by rw [hreserved]⟩, ?_⟩
  rw [hreserved, commitOutboxRelayAcceptance, outboxRelayAcceptancePlan, hrefused]
  rfl

/-- A first send is recorded, sixteen more are recorded and accepted by the relay, and then the
first one is prepared and handed off twice. -/
def crowdedCommits : List OutboxCommit :=
  intentCommit 0 :: (List.range 16).flatMap (fun n => [intentCommit (n + 1), preparedCommit (n + 1),
    reservationCommit (n + 1), acceptanceCommit (n + 1)]) ++
      [preparedCommit 0, reservationCommit 0, reservationCommit 0]

private theorem outcomeAfter_crowdedCommits :
    outcomeAfter crowdedCommits = .ok (.error .policy) := by decide +kernel

/-- The final reservation of the first send is committed, but the relay's acceptance of its bytes is
refused. -/
theorem final_reservation_drops_send :
    let l := (groupStep lengthCommitments).run pairLedger
      (crowdedCommits.map fun call => .outbox call.1 call.2)
    let reserved := commitOutboxHandoffReservation lengthCommitments.payload
      (l.withLive l.live.outbox) (sampleId 0) Sample.bob
    (∃ r, reserved.2 = .ok r) ∧ (commitOutboxRelayAcceptance lengthCommitments.payload reserved.1
      (sampleId 0) Sample.bob).2 = .error .policy :=
  acceptance_refused_of_outcomeAfter (by decide +kernel) outcomeAfter_crowdedCommits

end Tacenta.Client
