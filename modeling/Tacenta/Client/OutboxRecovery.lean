import Tacenta.Client.OutboxTranscript
import Tacenta.Client.RosterTransition
import Tacenta.Library.Execution

/-!
# The live outbox is the recovered outbox

Whatever a coordinator commits for one group, and whatever its store answers, the group outbox that
it works with is the one that recovery rebuilds from its snapshot. The proof carries the transcript
that mirrors the outbox through every commit.

## Main definitions

* `Recoverable`: a snapshot from which recovery rebuilds an outbox.
* `OutboxCall`, `outboxStep`: the commits that change a group outbox, as a machine.

## Main results

* `recoverGroupOutbox_run`: after any calls the live outbox is the recovered one.
-/

open ByteString Records Result Tacenta.Group

namespace Tacenta.Client

variable {S : Type} [OperationStore S] {group : GroupId} {commit : Bytes → Digest}
  {entries : List Entry} {c : Option UInt64} {outbox live : GroupOutbox}
  {snapshot candidate : OperationSnapshot} {store : S}

/-- Recovery rebuilds the outbox from the snapshot, whose newest cancellation is the given one. -/
def Recoverable (commit : Bytes → Digest) (group : GroupId) (c : Option UInt64)
    (snapshot : OperationSnapshot) (outbox : GroupOutbox) : Prop :=
  ∃ entries, Holds snapshot group entries c ∧ Mirrors group commit entries c outbox

theorem Holds.push (hs : Holds snapshot group entries c) (e : Entry)
    (houtbox : candidate.outbox = snapshot.outbox ++ [e.layout])
    (hcontrols : candidate.groupControls = snapshot.groupControls) :
    Holds candidate group (entries ++ [e]) c :=
  ⟨by rw [houtbox, hs.outbox, List.map_append, List.map_singleton],
    by rw [hcontrols, hs.cancellation]⟩

/-! ### Intents -/

theorem logicalIntentPlan_publish {send : LogicalSend} {a : OutboxDisposition}
    (h : logicalIntentPlan store snapshot outbox send = .ok (.publish candidate live a)) :
    send.Valid ∧ outbox.record send = .ok (live, .inserted) ∧
      candidate.outbox = snapshot.outbox ++ [(Entry.intent send).layout] ∧
        candidate.groupControls = snapshot.groupControls := by
  simp only [logicalIntentPlan, bind_eq_ok, policy_eq_ok, Prod.exists] at h
  obtain ⟨intent, hintent, outbox', disposition, hrecord, h⟩ := h
  obtain ⟨hvalid, rfl⟩ := LogicalSend.encodeIntent_eq_ok_iff.mp hintent
  cases disposition with
  | duplicate => exact nomatch h
  | inserted =>
    simp only [reduceCtorEq, if_false, bind_eq_ok, encodeIntentRecord_layout hvalid] at h
    obtain ⟨begun, hbegun, _, hlayout, h⟩ := h
    obtain ⟨generation, rfl⟩ := beginCandidate_eq_ok hbegun
    cases hlayout
    cases h
    exact ⟨hvalid, hrecord, rfl, rfl⟩

theorem Recoverable.intent {send : LogicalSend} {a : OutboxDisposition}
    (hr : Recoverable commit group c snapshot outbox) (hfresh : send.Fresh)
    (h : logicalIntentPlan store snapshot outbox send = .ok (.publish candidate live a)) :
    Recoverable commit group c candidate live := by
  obtain ⟨entries, hs, hm⟩ := hr
  obtain ⟨hvalid, hrecord, houtbox, hcontrols⟩ := logicalIntentPlan_publish h
  exact ⟨_, hs.push _ houtbox hcontrols, hm.intent hvalid hfresh hrecord⟩

/-! ### Progress -/

variable {id : LogicalMessageId} {r : Member} {p : Progressed}
  {change : LogicalSend → Except Error (LogicalSend × RecipientProgress)}

theorem changeSend_eq_ok {s t : LogicalSend} {q : RecipientProgress} {bytes : Bytes}
    (h : changeSend r change s = .ok (t, q, bytes)) :
    change s = .ok (t, q) ∧ (t.context r).Valid ∧ bytes = (t.context r).layout := by
  simp only [changeSend, bind_eq_ok, Prod.exists, LogicalSend.applicationContext_eq_ok_iff,
    ApplicationContext.encode_eq_ok_iff, pure_eq_ok, Prod.mk.injEq] at h
  obtain ⟨t, q, hchange, _, ⟨-, rfl, hvalid⟩, _, ⟨-, rfl⟩, rfl, rfl, rfl⟩ := h
  exact ⟨hchange, hvalid, rfl⟩

theorem progressSend_eq_ok (h : progressSend outbox id r change = .ok p) :
    outbox.sendMut id (changeSend r change) = .ok (p.outbox, p.progress, p.context) ∧
      p.progress.contextCommitment = some p.commitment ∧
        p.progress.ciphertext = some p.ciphertext := by
  simp only [progressSend, bind_eq_ok, policy_eq_ok, Prod.exists] at h
  obtain ⟨outbox', progress, context, hmut, h⟩ := h
  split at h
  · next commitment ciphertext hcommitment hciphertext =>
    cases h
    exact ⟨hmut, hcommitment, hciphertext⟩
  · exact nomatch h

theorem progressSend_eq_error {e : GroupOperationError}
    (h : progressSend outbox id r change = .error e) : e = .policy := by
  rw [progressSend] at h
  cases hmut : outbox.sendMut id (changeSend r change) with
  | error _ =>
    rw [hmut] at h
    exact (Except.error.inj h).symm
  | ok changed =>
    obtain ⟨outbox', progress, context⟩ := changed
    rw [hmut] at h
    simp only [policy, Except.mapError, ok_bind] at h
    split at h
    · cases h
    · exact (Except.error.inj h).symm

/-! ### One recipient of one send -/

section Recipient

variable {o : GroupOutbox} {m : RecipientProgress → RecipientProgress × Except Error Unit}

/-- The first send of an outbox with an identifier, and its first recipient that is the given
member, with what is around them. -/
structure OutboxAt (o : GroupOutbox) (id : LogicalMessageId) (r : Member) (pre : List LogicalSend)
    (s : LogicalSend) (post : List LogicalSend) (rpre : List RecipientProgress)
    (q : RecipientProgress) (rpost : List RecipientProgress) : Prop where
  sends_eq : o.sends = pre ++ s :: post
  before : ∀ x ∈ pre, x.id ≠ id
  id_eq : s.id = id
  splits : s.Splits r rpre q rpost

variable {q : RecipientProgress} {rpre rpost : List RecipientProgress} {s : LogicalSend}
  {pre post : List LogicalSend}

theorem OutboxAt.send_eq (h : OutboxAt o id r pre s post rpre q rpost) : o.send id = .ok s := by
  have hfind : o.sends.find? (fun s => s.id = id) = some s := by
    refine List.find?_eq_some_iff_append.mpr ⟨decide_eq_true h.id_eq, pre, post, h.sends_eq,
      fun x hx => ?_⟩
    rw [decide_eq_false (h.before x hx)]
    rfl
  rw [GroupOutbox.send, hfind]

theorem exists_outboxAt
    (h : progressSend o id r (fun send => discarding (send.onProgress r m)) = .ok p) :
    ∃ pre s post rpre q rpost, OutboxAt o id r pre s post rpre q rpost ∧
      m q = (p.progress, .ok ()) ∧ (s.context r).Valid ∧ p.context = (s.context r).layout ∧
      p.progress.contextCommitment = some p.commitment ∧
      p.progress.ciphertext = some p.ciphertext ∧
      p.outbox = { o with
        sends := pre ++ { s with recipients := rpre ++ p.progress :: rpost } :: post } := by
  obtain ⟨hmut, hcommitment, hciphertext⟩ := progressSend_eq_ok h
  obtain ⟨sends, hupdate, houtbox⟩ := GroupOutbox.sendMut_eq_ok_iff.mp hmut
  obtain ⟨pre, s, post, t, hsends, hpre, hid, hchange, rfl⟩ := updateFirst_eq_ok_iff.mp hupdate
  obtain ⟨hchange, hvalid, hbytes⟩ := changeSend_eq_ok hchange
  obtain ⟨rpre, q, rpost, hsplit, hmethod, rfl⟩ :=
    LogicalSend.onProgress_eq_ok_iff.mp (discarding_eq_ok_iff.mp hchange)
  exact ⟨pre, s, post, rpre, q, rpost,
    ⟨hsends, fun x hx => of_decide_eq_false (hpre x hx), of_decide_eq_true hid, hsplit⟩, hmethod,
    hvalid, hbytes, hcommitment, hciphertext, houtbox⟩

/-- Progress by a change of the recipient that leaves its name. -/
theorem OutboxAt.progressSend_of_change {q' : RecipientProgress} {commitment : Digest}
    {ciphertext : Bytes} (h : OutboxAt o id r pre s post rpre q rpost)
    (hchange : change s = .ok ({ s with recipients := rpre ++ q' :: rpost }, q'))
    (hname : q'.recipient = r) (hvalid : (s.context r).Valid)
    (hcommitment : q'.contextCommitment = some commitment)
    (hciphertext : q'.ciphertext = some ciphertext) :
    progressSend o id r change = .ok
      ⟨{ o with sends := pre ++ { s with recipients := rpre ++ q' :: rpost } :: post }, q',
        (s.context r).layout, commitment, ciphertext⟩ := by
  have hsplit : LogicalSend.Splits { s with recipients := rpre ++ q' :: rpost } r rpre q' rpost :=
    ⟨rfl, h.splits.before, hname⟩
  have hcontext : LogicalSend.applicationContext { s with recipients := rpre ++ q' :: rpost } r =
      .ok (s.context r) :=
    LogicalSend.applicationContext_eq_ok_iff.mpr ⟨⟨_, hsplit.progress_eq⟩, rfl, hvalid⟩
  have hchanged : changeSend r change s =
      .ok ({ s with recipients := rpre ++ q' :: rpost }, q', (s.context r).layout) := by
    rw [changeSend, hchange, ok_bind]
    simp only [hcontext, ok_bind, ApplicationContext.encode_of_valid hvalid]
    rfl
  have hmut : o.sendMut id (changeSend r change) =
      .ok ({ o with sends := pre ++ { s with recipients := rpre ++ q' :: rpost } :: post }, q',
        (s.context r).layout) :=
    GroupOutbox.sendMut_eq_ok_iff.mpr ⟨_, updateFirst_eq_ok_iff.mpr ⟨pre, s, post, _, h.sends_eq,
      fun x hx => decide_eq_false (h.before x hx), decide_eq_true h.id_eq, hchanged, rfl⟩, rfl⟩
  rw [progressSend, hmut]
  simp only [policy, Except.mapError, ok_bind, hcommitment, hciphertext]
  rfl

end Recipient

/-! ### The records of progress -/

private theorem context_of_onProgress {s t : LogicalSend} {q : RecipientProgress}
    {m : RecipientProgress → RecipientProgress × Except Error Unit}
    (h : (s.cancelled c).onProgress r m = (t, .ok q)) : t.context r = s.context r := by
  obtain ⟨_, _, _, -, -, rfl⟩ := LogicalSend.onProgress_eq_ok_iff.mp h
  exact LogicalSend.context_cancelled c s

variable {ciphertext : Bytes} {a : RecipientProgress}

/-- The transcript with an entry of this kind mirrors the outbox after the progress. -/
def Logs (group : GroupId) (commit : Bytes → Digest) (entries : List Entry) (c : Option UInt64)
    (p : Progressed) (kind : ProgressKind) : Prop :=
  ∃ context : ApplicationContext, p.context = context.layout ∧ Mirrors group commit
    (entries ++ [.progress kind context p.commitment p.ciphertext]) c p.outbox

section Logs

variable (hm : Mirrors group commit entries c outbox) (hlen : p.ciphertext.length < 2 ^ 32)

include hm hlen

theorem mirrors_progressed (hp : progressSend outbox id r change = .ok p) {kind : ProgressKind}
    (hkind : ∀ s t, s.Committed commit → change (s.cancelled c) = .ok (t, p.progress) →
      (t.context r).Valid → t.context r = s.context r ∧
        p.commitment = commit (s.context r).layout ∧ ∃ s', Entry.stepProgress kind (s.context r)
          p.commitment p.ciphertext s = .ok (s', ()) ∧ t = s'.cancelled c ∧
            s'.Committed commit) :
    Logs group commit entries c p kind := by
  obtain ⟨hmut, -⟩ := progressSend_eq_ok hp
  obtain ⟨sends, hupdate, -⟩ := GroupOutbox.sendMut_eq_ok_iff.mp hmut
  obtain ⟨_, _, _, t₀, -, -, -, hchange₀, -⟩ := updateFirst_eq_ok_iff.mp hupdate
  obtain ⟨-, hvalid₀, hbytes₀⟩ := changeSend_eq_ok hchange₀
  refine ⟨t₀.context r, hbytes₀, hm.progress hmut hlen fun s t hid hs hchange => ?_⟩
  obtain ⟨hchange, hvalid, hbytes⟩ := changeSend_eq_ok hchange
  have hcontext := ApplicationContext.layout_injective hvalid₀ hvalid (hbytes₀.symm.trans hbytes)
  obtain ⟨hsame, hcommitment, hstep⟩ := hkind s t hs hchange hvalid
  rw [hcontext, hsame]
  refine ⟨hsame ▸ hvalid, ?_, hcommitment, hstep⟩
  rw [← hid]
  rfl

theorem mirrors_prepared
    (hp : progressSend outbox id r (bindPreparedCiphertext commit r ciphertext) = .ok p) :
    Logs group commit entries c p .prepared := by
  obtain ⟨-, hcommitment, hciphertext⟩ := progressSend_eq_ok hp
  refine mirrors_progressed hm hlen hp fun s t hs hchange hvalid => ?_
  simp only [bindPreparedCiphertext, bind_eq_ok, LogicalSend.applicationContext_eq_ok_iff,
    ApplicationContext.encode_eq_ok_iff, discarding_eq_ok_iff] at hchange
  obtain ⟨_, ⟨-, rfl, -⟩, _, ⟨-, rfl⟩, hrecord⟩ := hchange
  rw [LogicalSend.context_cancelled] at hrecord
  have hsame := context_of_onProgress hrecord
  obtain ⟨hq, hq', hstep⟩ := Entry.stepProgress_prepared hs (hsame ▸ hvalid) hrecord
  rw [hcommitment, Option.some_inj] at hq
  rw [hciphertext, Option.some_inj] at hq'
  rw [hq, hq']
  exact ⟨hsame, rfl, hstep⟩

theorem mirrors_handoff
    (hp : progressSend outbox id r (fun send => discarding (send.reserveHandoff r)) = .ok p)
    {final : Bool} (hfinal : p.progress.disposition = ProgressKind.disposition final) :
    Logs group commit entries c p (.handoff p.progress.attemptsReserved final) := by
  obtain ⟨-, hcommitment, hciphertext⟩ := progressSend_eq_ok hp
  refine mirrors_progressed hm hlen hp fun s t hs hchange hvalid => ?_
  have hreserve := discarding_eq_ok_iff.mp hchange
  have hsame := context_of_onProgress hreserve
  obtain ⟨hcommit, final', hfinal', hstep⟩ :=
    Entry.stepProgress_handoff hs (hsame ▸ hvalid) hreserve hcommitment hciphertext
  have heq : final = final' := by
    rw [hfinal] at hfinal'
    cases final <;> cases final' <;> first | rfl | exact absurd hfinal' nofun
  exact ⟨hsame, hcommit, heq ▸ hstep⟩

theorem mirrors_accepted
    (hp : progressSend outbox id r (fun send => discarding (send.recordRelayAccepted r)) = .ok p) :
    Logs group commit entries c p .accepted := by
  obtain ⟨-, hcommitment, hciphertext⟩ := progressSend_eq_ok hp
  refine mirrors_progressed hm hlen hp fun s t hs hchange hvalid => ?_
  have haccept := discarding_eq_ok_iff.mp hchange
  have hsame := context_of_onProgress haccept
  obtain ⟨hcommit, hstep⟩ :=
    Entry.stepProgress_accepted hs (hsame ▸ hvalid) haccept hcommitment hciphertext
  exact ⟨hsame, hcommit, hstep⟩

end Logs

theorem encodeProgressRecord_of_valid {tag : Bytes} {context : ApplicationContext}
    {commitment : Digest} (hvalid : context.Valid) (hlen : ciphertext.length < 2 ^ 32) :
    encodeProgressRecord tag context.layout commitment ciphertext =
      .ok (tag ++ (lpBytes context.layout ++ (commitment.val ++ lpBytes ciphertext))) := by
  have hhead : putLp tag context.layout = .ok (tag ++ lpBytes context.layout) :=
    putLp_eq_ok.mpr ⟨length_layout_lt hvalid, rfl⟩
  have htail : putLp (tag ++ lpBytes context.layout ++ commitment.val) ciphertext =
      .ok (tag ++ lpBytes context.layout ++ commitment.val ++ lpBytes ciphertext) :=
    putLp_eq_ok.mpr ⟨hlen, rfl⟩
  rw [encodeProgressRecord, policy_eq_ok.mpr hhead, ok_bind, policy_eq_ok.mpr htail]
  simp only [List.append_assoc]

/-- What a commit of progress publishes: the outbox stays recoverable and keeps its last send, and
the control records stay as they are. -/
structure Advanced (commit : Bytes → Digest) (group : GroupId) (c : Option UInt64)
    (snapshot : OperationSnapshot) (outbox : GroupOutbox) (candidate : OperationSnapshot)
    (live : GroupOutbox) : Prop where
  recoverable : Recoverable commit group c candidate live
  groupControls_eq : candidate.groupControls = snapshot.groupControls
  retains : Retains outbox live

private theorem retains_progressSend (hp : progressSend outbox id r change = .ok p)
    (hid : ∀ s t q, change s = .ok (t, q) → t.id = s.id) : Retains outbox p.outbox := by
  obtain ⟨hmut, -⟩ := progressSend_eq_ok hp
  obtain ⟨sends, hupdate, hsends⟩ := GroupOutbox.sendMut_eq_ok_iff.mp hmut
  refine Retains.of_map_id ?_
  rw [hsends]
  exact map_updateFirst (fun s t _ _ h => hid s t _ (changeSend_eq_ok h).1) hupdate

private theorem id_of_discarding {s t : LogicalSend} {q : RecipientProgress}
    {m : RecipientProgress → RecipientProgress × Except Error Unit}
    (h : discarding (s.onProgress r m) = .ok (t, q)) : t.id = s.id := by
  obtain ⟨_, _, _, -, -, rfl⟩ := LogicalSend.onProgress_eq_ok_iff.mp (discarding_eq_ok_iff.mp h)
  rfl

/-- A commit of progress with compaction: it changes one recipient of a send, and the entry of its
record keeps the mirror. -/
structure Compacting (commit : Bytes → Digest) (id : LogicalMessageId) (r : Member)
    (change : LogicalSend → Except Error (LogicalSend × RecipientProgress))
    (encode : Progressed → Except GroupOperationError Bytes) : Prop where
  id_eq : ∀ s t q, change s = .ok (t, q) → t.id = s.id
  length_lt : ∀ p record, encode p = .ok record → p.ciphertext.length < 2 ^ 32
  entry : ∀ group c entries outbox p, Mirrors group commit entries c outbox →
    progressSend outbox id r change = .ok p → p.ciphertext.length < 2 ^ 32 →
      ∃ e : Entry, encode p = .ok e.layout ∧ Mirrors group commit (entries ++ [e]) c p.outbox

theorem compacting_handoff :
    Compacting commit id r (fun send => discarding (send.reserveHandoff r))
      fun p => encodeHandoffRecord p.context p.commitment p.ciphertext p.progress where
  id_eq _ _ _ := id_of_discarding
  length_lt p record hrecord := by
    obtain ⟨_, -, hbody⟩ := bind_eq_ok.mp hrecord
    obtain ⟨_, hbody, -⟩ := bind_eq_ok.mp hbody
    exact (encodeProgressRecord_eq_ok hbody).1
  entry group c entries outbox p hm hp hlen := by
    obtain ⟨pre, s, post, rpre, q, rpost, -, hmethod, hvalid, hbytes, -⟩ :=
      exists_outboxAt hp
    obtain ⟨-, -, hreserved⟩ := RecipientProgress.reserveHandoff_eq_ok hmethod
    have hfinal : p.progress.disposition =
        ProgressKind.disposition (q.attemptsReserved + 1 = 3) := by
      rw [hreserved]
    obtain ⟨context, hcontext, hm'⟩ := mirrors_handoff hm hlen hp hfinal
    refine ⟨_, ?_, hm'⟩
    have hcode : handoffCode p.progress.disposition =
        .ok (if q.attemptsReserved + 1 = 3 then 1 else 0) := by
      rw [hfinal]
      by_cases hthird : q.attemptsReserved + 1 = 3
      · rw [decide_eq_true hthird, if_pos hthird]
        rfl
      · rw [decide_eq_false hthird, if_neg hthird]
        rfl
    rw [encodeHandoffRecord, hcode, ok_bind, hbytes, encodeProgressRecord_of_valid hvalid hlen,
      ok_bind, layout_progress, ← hcontext, hbytes]
    simp only [ProgressKind.tag, ProgressKind.suffix, decide_eq_true_eq]
    rfl

theorem compacting_acceptance :
    Compacting commit id r (fun send => discarding (send.recordRelayAccepted r))
      fun p => encodeRelayAcceptanceRecord p.context p.commitment p.ciphertext where
  id_eq _ _ _ := id_of_discarding
  length_lt p record hrecord := (encodeProgressRecord_eq_ok hrecord).1
  entry group c entries outbox p hm hp hlen := by
    obtain ⟨pre, s, post, rpre, q, rpost, -, -, hvalid, hbytes, -⟩ := exists_outboxAt hp
    obtain ⟨context, hcontext, hm'⟩ := mirrors_accepted hm hlen hp
    refine ⟨_, ?_, hm'⟩
    rw [encodeRelayAcceptanceRecord, hbytes, encodeProgressRecord_of_valid hvalid hlen,
      layout_progress, ← hcontext, hbytes]
    simp only [ProgressKind.tag, ProgressKind.suffix, List.append_nil]

theorem Recoverable.prepared {providerState : Bytes}
    (hr : Recoverable commit group c snapshot outbox)
    (h : outboxPreparedCiphertextPlan commit store snapshot outbox id r ciphertext providerState =
      .ok (.publish candidate live a)) :
    Advanced commit group c snapshot outbox candidate live := by
  obtain ⟨entries, hs, hm⟩ := hr
  simp only [outboxPreparedCiphertextPlan, bind_eq_ok] at h
  obtain ⟨p, hp, begun, hbegun, record, hrecord, h⟩ := h
  obtain ⟨generation, rfl⟩ := beginCandidate_eq_ok hbegun
  obtain ⟨hlen, rfl⟩ := encodeProgressRecord_eq_ok hrecord
  obtain ⟨context, hcontext, hm'⟩ := mirrors_prepared hm hlen hp
  cases h
  refine ⟨⟨_, hs.push _ ?_ rfl, hm'⟩, rfl, retains_progressSend hp fun s t q hchange => ?_⟩
  · rw [hcontext, layout_progress]
    exact congrArg (snapshot.outbox ++ [·]) (List.append_nil _).symm
  · obtain ⟨_, -, hchange⟩ := bind_eq_ok.mp hchange
    obtain ⟨_, -, hchange⟩ := bind_eq_ok.mp hchange
    exact id_of_discarding hchange

/-- The outbox that compaction leaves. -/
def compacted (o : GroupOutbox) : GroupOutbox := o.keep fun id => id ∉ droppedIds o

/-- A progress record is published with the transcript compacted. -/
theorem compactingPlan_eq {encodeRecord : Except GroupOperationError Bytes} {e : Entry}
    {generation : UInt64} (hs : Holds snapshot group entries c) (hid : id.groupId = group)
    (hbegun : beginCandidate store snapshot = .ok { snapshot with generation })
    (hrecord : encodeRecord = .ok e.layout)
    (hm : Mirrors group commit (entries ++ [e]) c p.outbox) :
    compactingPlan commit store snapshot id p encodeRecord = .ok (.publish { snapshot with
      generation
      outbox := ((entries ++ [e]).filter fun e => e.id ∉ droppedIds p.outbox).map Entry.layout }
        (compacted p.outbox) p.progress) := by
  have hpushed : Holds { snapshot with generation, outbox := snapshot.outbox ++ [e.layout] } group
      (entries ++ [e]) c := hs.push e rfl rfl
  obtain ⟨rebuilt, hcompact, hlive⟩ := compactGroupOutbox_eq hpushed hm
  rw [compactingPlan, hbegun, ok_bind, hrecord, ok_bind, hid, hcompact, ok_bind, compacted, ← hlive]
  rfl

theorem groupId_of_progressSend (hm : Mirrors group commit entries c outbox)
    (hp : progressSend outbox id r change = .ok p) : id.groupId = group := by
  obtain ⟨hmut, -⟩ := progressSend_eq_ok hp
  obtain ⟨sends, hupdate, -⟩ := GroupOutbox.sendMut_eq_ok_iff.mp hmut
  obtain ⟨_, s, _, _, hsends, -, hid, -⟩ := updateFirst_eq_ok_iff.mp hupdate
  rw [← of_decide_eq_true hid]
  exact hm.groupId_eq s (hsends ▸ List.mem_append_right _ List.mem_cons_self)

theorem Recoverable.compacting {encode : Progressed → Except GroupOperationError Bytes}
    (hr : Recoverable commit group c snapshot outbox) (hc : Compacting commit id r change encode)
    (h : (progressSend outbox id r change >>= fun p =>
      compactingPlan commit store snapshot id p (encode p)) = .ok (.publish candidate live a)) :
    Advanced commit group c snapshot outbox candidate live := by
  obtain ⟨entries, hs, hm⟩ := hr
  obtain ⟨p, hp, h⟩ := bind_eq_ok.mp h
  obtain ⟨begun, hbegun, hrest⟩ := bind_eq_ok.mp h
  obtain ⟨record, hrecord, -⟩ := bind_eq_ok.mp hrest
  obtain ⟨generation, rfl⟩ := beginCandidate_eq_ok hbegun
  obtain ⟨e, he, hm'⟩ := hc.entry _ _ _ _ p hm hp (hc.length_lt p record hrecord)
  rw [compactingPlan_eq hs (groupId_of_progressSend hm hp) hbegun he hm'] at h
  cases h
  have hpushed : Holds { snapshot with generation, outbox := snapshot.outbox ++ [e.layout] } group
      (entries ++ [e]) c := hs.push e rfl rfl
  exact ⟨⟨_, hpushed.keep fun id => id ∉ droppedIds p.outbox, hm'.keep fun id =>
    id ∉ droppedIds p.outbox⟩, rfl,
    (retains_progressSend hp hc.id_eq).trans (.keep p.outbox hm'.nodup)⟩

/-! ### Roster transitions -/

/-- The control records of a transition keep the newest cancellation of the group. -/
theorem Holds.recorded (hs : Holds snapshot group entries c) {t : RosterTransition}
    {view : RosterView} {disposition : RosterDisposition} {records : List Bytes}
    (hparts : RecordParts t view disposition records)
    (hgroup : disposition = .accepted → t.candidate.groupId = group) (generation : UInt64) :
    Holds (recorded snapshot t generation records) group entries
      (if disposition = .accepted then some t.candidate.revision else c) := by
  refine ⟨hs.outbox, ?_⟩
  have hscope : ∀ known ∈ (c.map (encodeGroupOutboxCancellationRecord group)).toList ++ records,
      hasTag (ascii "TCGX") known = true → leading (checkpointScope (ascii "TCGX")) known =
        some (ascii "TCGX" ++ group.bytes.val) := by
    intro known hknown htag
    rcases List.mem_append.mp hknown with hknown | hknown
    · obtain ⟨revision, -, rfl⟩ := Option.map_eq_some_iff.mp (Option.mem_toList.mp hknown)
      exact leading_cancellation group revision
    · have hmem := List.mem_filter.mpr ⟨hknown, htag⟩
      rw [hparts.filter_cancellation] at hmem
      by_cases hd : disposition = .accepted
      · rw [if_pos hd, List.mem_singleton] at hmem
        rw [hmem, hgroup hd]
        exact leading_cancellation group _
      · rw [if_neg hd] at hmem
        exact absurd hmem List.not_mem_nil
  rw [Client.recorded, filter_appendGroupControlRecords (by decide) hs.cancellation hscope,
    hparts.filter_cancellation]
  by_cases hd : disposition = .accepted
  · rw [if_pos hd, if_pos hd, List.getLast?_append_cons, hgroup hd]
    rfl
  · rw [if_neg hd, if_neg hd, List.append_nil]
    cases c <;> rfl

theorem Recoverable.transition {commitments : Commitments} {state state' : RosterCommitState}
    {t : RosterTransition} {answer : RosterCommit}
    (h : Transitioned commitments snapshot state t candidate state' answer)
    (houtbox : state.groupOutbox = some outbox) (hgroup : state.view.roster.groupId = group)
    (hc : ∀ revision ∈ c, revision ≤ state.view.roster.revision)
    (hr : Recoverable commitments.payload group c snapshot outbox) :
    ∃ c' outbox', state'.groupOutbox = some outbox' ∧ state'.view.roster.groupId = group ∧
      (∀ revision ∈ c', revision ≤ state'.view.roster.revision) ∧
        Recoverable commitments.payload group c' candidate outbox' := by
  obtain ⟨entries, hs, hm⟩ := hr
  obtain ⟨generation, records, middle, hparts, hcompact, hreceive⟩ := h.published
  have hframe := receiveAfter_frame hreceive
  have hoffered := state.view.acceptSuccessor_offered t.authenticatedAuthority t.candidate
    (commitments.roster t.candidate.layout)
  rw [h.judged] at hoffered
  obtain ⟨view', receiver', groupOutbox', controlOutbox', book', deferred', sends'⟩ := state'
  obtain ⟨disposition, revalidated, held⟩ := answer
  dsimp only at hoffered hparts hcompact hreceive ⊢
  cases hoffered with
  | refused hd =>
    have hheld := hs.recorded hparts (fun hd' => absurd hd' hd) generation
    rw [if_neg hd] at hheld hcompact
    rw [compactAfter, if_neg fun hboth => hd hboth.1] at hcompact
    cases hcompact
    exact ⟨c, outbox, houtbox, hgroup, hc, entries,
      ⟨hframe ▸ hheld.outbox, hframe ▸ hheld.cancellation⟩, hm⟩
  | accepted hpeer hsucceeds =>
    have hgroup' : t.candidate.groupId = group := hsucceeds.groupId_eq.trans hgroup
    have hheld := hs.recorded hparts (fun _ => hgroup') generation
    have hnewer : ∀ revision ∈ c, revision ≤ t.candidate.revision := fun revision hrevision => by
      have hle := Word64.le_iff.mp (hc revision hrevision)
      have hnext := hsucceeds.revision_eq
      rw [Word64.le_iff]
      omega
    rw [if_pos rfl] at hheld hcompact
    obtain ⟨compacted, hcompacted, hlive⟩ := compactGroupOutbox_eq hheld (hm.cancel hnewer)
    rw [houtbox, compactAfter, if_pos ⟨rfl, rfl⟩, hgroup', hcompacted] at hcompact
    obtain ⟨rfl, rfl⟩ := Prod.mk.inj (Except.ok.inj hcompact)
    have hkept := hheld.keep fun id =>
      id ∉ droppedIds (outbox.cancelForNewerRoster t.candidate.revision)
    refine ⟨some t.candidate.revision, compacted.getD _, by cases compacted <;> rfl, hgroup',
      fun revision hrevision => ?_, _, ⟨hframe ▸ hkept.outbox, hframe ▸ hkept.cancellation⟩,
      hlive ▸ (hm.cancel hnewer).keep fun id =>
        id ∉ droppedIds (outbox.cancelForNewerRoster t.candidate.revision)⟩
    rw [Option.mem_some_iff.mp hrevision]
    exact UInt64.le_refl _

/-! ### Runs -/

/-- The live values that the commits of a group outbox share. -/
structure OutboxState where
  /-- The accepted roster view. -/
  view : RosterView
  outbox : GroupOutbox

/-- The commits that change a group outbox. An intent is a new send on the accepted roster; a roster
transition is committed with the group outbox and any other live values. -/
inductive OutboxCall where
  | intent (digest : Digest) (sender : Member) (sequence : UInt64) (recipients : List Member)
      (payload : Bytes)
  | prepared (id : LogicalMessageId) (recipient : Member) (ciphertext providerState : Bytes)
  | reservation (id : LogicalMessageId) (recipient : Member)
  | acceptance (id : LogicalMessageId) (recipient : Member)
  | roster (t : RosterTransition) (receiver : Option GroupReceiver)
      (controlOutbox : Option ControlOutbox) (invitationBook : Option InvitationBook)
      (deferred : Option DeferredRosters) (logicalSends : List LogicalSend)

/-- Commit a change of the outbox. -/
def onOutbox {α : Type} (l : Ledger S OutboxState)
    (f : Ledger S GroupOutbox → Ledger S GroupOutbox × Except GroupOperationError α) :
    Ledger S OutboxState × Except GroupOperationError Unit :=
  let (committed, answer) := f (l.withLive l.live.outbox)
  (committed.withLive { l.live with outbox := committed.live }, answer.map fun _ => ())

/-- One call. -/
def outboxStep (commitments : Commitments) :
    Machine (Ledger S OutboxState) OutboxCall (Except GroupOperationError Unit)
  | l, .intent digest sender sequence recipients payload =>
    match LogicalSend.new l.live.view.roster digest sender sequence recipients payload with
    | .error _ => (l, .error .policy)
    | .ok send => onOutbox l fun l => commitLogicalIntent l send
  | l, .prepared id recipient ciphertext providerState =>
    onOutbox l fun l => commitOutboxPreparedCiphertext commitments.payload l id recipient ciphertext
      providerState
  | l, .reservation id recipient =>
    onOutbox l fun l => commitOutboxHandoffReservation commitments.payload l id recipient
  | l, .acceptance id recipient =>
    onOutbox l fun l => commitOutboxRelayAcceptance commitments.payload l id recipient
  | l, .roster t receiver controlOutbox invitationBook deferred logicalSends =>
    let (committed, answer) := commitRosterTransition commitments
      (l.withLive ⟨l.live.view, receiver, some l.live.outbox, controlOutbox, invitationBook,
        deferred, logicalSends⟩) t
    (committed.withLive ⟨committed.live.view, committed.live.groupOutbox.getD l.live.outbox⟩,
      answer.map fun _ => ())

/-- The outbox is recoverable from the snapshot, whose cancellations the view has reached. -/
def Mirrored (commitments : Commitments) (group : GroupId) (snapshot : OperationSnapshot)
    (live : OutboxState) : Prop :=
  live.view.roster.groupId = group ∧ ∃ c : Option UInt64,
    (∀ revision ∈ c, revision ≤ live.view.roster.revision) ∧
      Recoverable commitments.payload group c snapshot live.outbox

/-- A commit of the outbox keeps the mirror if what it publishes does. -/
private theorem mirrored_onOutbox {α : Type} {commitments : Commitments} {l : Ledger S OutboxState}
    (h : Mirrored commitments group l.snapshot l.live)
    (plan : S → OperationSnapshot → GroupOutbox → Except GroupOperationError (Plan GroupOutbox α))
    (hplan : ∀ c candidate outbox a, Recoverable commitments.payload group c l.snapshot
      l.live.outbox → plan l.store l.snapshot l.live.outbox = .ok (.publish candidate outbox a) →
        Recoverable commitments.payload group c candidate outbox) :
    Mirrored commitments group
      (onOutbox l fun l => l.commit (plan l.store l.snapshot l.live)).1.snapshot
      (onOutbox l fun l => l.commit (plan l.store l.snapshot l.live)).1.live := by
  obtain ⟨hgroup, c, hc, hr⟩ := h
  refine ⟨hgroup, c, hc, ?_⟩
  exact Ledger.commit_invariant (Recoverable commitments.payload group c) hr
    fun candidate outbox a hpublish => hplan c candidate outbox a hr hpublish

theorem mirrored_step {commitments : Commitments} {l : Ledger S OutboxState}
    (h : Mirrored commitments group l.snapshot l.live) (call : OutboxCall) :
    Mirrored commitments group (outboxStep commitments l call).1.snapshot
      (outboxStep commitments l call).1.live := by
  cases call with
  | intent digest sender sequence recipients payload =>
    rw [outboxStep]
    split
    · exact h
    · next send hsend =>
      exact mirrored_onOutbox h (logicalIntentPlan · · · send) fun _ _ _ _ hr hpublish =>
        hr.intent (LogicalSend.fresh_of_new hsend) hpublish
  | prepared id recipient ciphertext providerState =>
    exact mirrored_onOutbox h (outboxPreparedCiphertextPlan commitments.payload · · · id recipient
      ciphertext providerState) fun _ _ _ _ hr hpublish => (hr.prepared hpublish).recoverable
  | reservation id recipient =>
    exact mirrored_onOutbox h (outboxHandoffReservationPlan commitments.payload · · · id recipient)
      fun _ _ _ _ hr hpublish => (hr.compacting compacting_handoff hpublish).recoverable
  | acceptance id recipient =>
    exact mirrored_onOutbox h (outboxRelayAcceptancePlan commitments.payload · · · id recipient)
      fun _ _ _ _ hr hpublish => (hr.compacting compacting_acceptance hpublish).recoverable
  | roster t receiver controlOutbox invitationBook deferred logicalSends =>
    obtain ⟨hgroup, c, hc, hr⟩ := h
    refine Ledger.commit_invariant (fun snapshot (state : RosterCommitState) =>
      Mirrored commitments group snapshot ⟨state.view, state.groupOutbox.getD l.live.outbox⟩)
      ⟨hgroup, c, hc, hr⟩
      fun candidate state' answer hpublish => ?_
    obtain ⟨c', outbox', houtbox', hgroup', hc', hr'⟩ :=
      Recoverable.transition (rosterTransitionPlan_publish hpublish) rfl hgroup hc hr
    refine ⟨hgroup', c', hc', ?_⟩
    rw [houtbox']
    exact hr'

/-- **The live outbox is the recovered outbox.** A coordinator starts with an empty snapshot and an
empty outbox for the group of its view, and makes any calls of the commits that change the outbox,
with any arguments, over any store. After every call recovery succeeds on its snapshot and yields
exactly the outbox that it works with. -/
theorem recoverGroupOutbox_run (commitments : Commitments) (view : RosterView) (store : S)
    (generation : UInt64) (calls : List OutboxCall) :
    let l := (outboxStep commitments).run
      ⟨store, .empty generation, view, .new view.roster.groupId⟩ calls
    recoverGroupOutbox commitments.payload l.snapshot view.roster.groupId = .ok l.live.outbox := by
  intro l
  have hmirrored : Mirrored commitments view.roster.groupId l.snapshot l.live :=
    Machine.run_preserves (fun l : Ledger S OutboxState =>
      Mirrored commitments view.roster.groupId l.snapshot l.live)
      (fun _ call h => mirrored_step h call)
      ⟨rfl, none, nofun, [], ⟨rfl, rfl⟩, Mirrors.new _ _⟩ calls
  obtain ⟨-, c, -, entries, hs, hm⟩ := hmirrored
  exact recoverGroupOutbox_eq hs hm

end Tacenta.Client
