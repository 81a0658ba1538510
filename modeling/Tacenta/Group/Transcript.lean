import Mathlib.Data.List.Nodup
import Tacenta.Group.SendCodec

/-!
# Replaying a send transcript

Replaying the bytes of a transcript replays its records, and replaying a record after some logical
sends were dropped, or under a later cancellation, has the same effect on what is left.

## Main results

* `GroupOutbox.replayEntry_layout`: the bytes of a record replay the record.
* `Entry.replay_keep`, `Entry.keep_replay`: replay after sends were dropped.
-/

open ByteString Records Result

namespace Tacenta.Group

/-! ### Recipients -/

namespace LogicalSend

variable {s s' : LogicalSend} {r : Member}

/-- The first recipient of a send that is the given member, with the recipients around it. -/
structure Splits (s : LogicalSend) (r : Member) (pre : List RecipientProgress)
    (p : RecipientProgress) (post : List RecipientProgress) : Prop where
  recipients_eq : s.recipients = pre ++ p :: post
  before : ∀ x ∈ pre, x.recipient ≠ r
  recipient_eq : p.recipient = r

theorem Splits.progress_eq {pre post : List RecipientProgress} {p : RecipientProgress}
    (h : s.Splits r pre p post) : s.progress r = .ok p := by
  have hfind : s.recipients.find? (fun p => p.recipient = r) = some p := by
    rw [List.find?_eq_some_iff_append]
    refine ⟨decide_eq_true h.recipient_eq, pre, post, h.recipients_eq, fun x hx => ?_⟩
    simpa using h.before x hx
  rw [progress, hfind]

theorem exists_splits {p : RecipientProgress} (h : s.progress r = .ok p) :
    ∃ pre post, s.Splits r pre p post := by
  rw [progress] at h
  split at h
  · next q hq =>
    obtain rfl := Except.ok.inj h
    obtain ⟨hr, pre, post, hs, hpre⟩ := List.find?_eq_some_iff_append.mp hq
    exact ⟨pre, post, hs, fun x hx => by simpa using hpre x hx, of_decide_eq_true hr⟩
  · exact nomatch h

def context (s : LogicalSend) (r : Member) : ApplicationContext :=
  ⟨s.id.groupId, s.id.revision, s.rosterDigest, s.id.sender, r, s.id.sequence, s.payload⟩

theorem applicationContext_eq_ok_iff {c : ApplicationContext} :
    s.applicationContext r = .ok c ↔
      (∃ p, s.progress r = .ok p) ∧ c = s.context r ∧ c.Valid := by
  simp only [applicationContext, bind_eq_ok, ApplicationContext.new_eq_ok_iff, context,
    exists_and_right]

theorem Splits.applicationContext_eq {pre post : List RecipientProgress} {p : RecipientProgress}
    (h : s.Splits r pre p post) (hv : (s.context r).Valid) :
    s.applicationContext r = .ok (s.context r) :=
  applicationContext_eq_ok_iff.mpr ⟨⟨p, h.progress_eq⟩, rfl, hv⟩

/-- A method on one recipient succeeds exactly if it succeeds on the first such recipient, and
changes nothing else. -/
theorem onProgress_eq_ok_iff {m : RecipientProgress → RecipientProgress × Except Error Unit}
    {q : RecipientProgress} :
    s.onProgress r m = (s', .ok q) ↔ ∃ pre p post, s.Splits r pre p post ∧ m p = (q, .ok ()) ∧
      s' = { s with recipients := pre ++ q :: post } := by
  rw [onProgress]
  constructor
  · intro h
    split at h
    · next recipients answer hupdate =>
      obtain ⟨rfl, rfl⟩ := Prod.mk.inj h
      obtain ⟨pre, p, post, y, hs, hpre, hp, hm, rfl⟩ := updateFirst_eq_ok_iff.mp hupdate
      obtain ⟨rfl, hanswer⟩ := Prod.mk.inj (Except.ok.inj hm)
      cases hmp : (m p).2 with
      | error e =>
        rw [hmp] at hanswer
        exact nomatch hanswer
      | ok u =>
        rw [hmp] at hanswer
        obtain rfl : (m p).1 = q := Except.ok.inj hanswer
        exact ⟨pre, p, post, ⟨hs, fun x hx => by simpa using hpre x hx, of_decide_eq_true hp⟩,
          by rw [← hmp], rfl⟩
    · exact nomatch (Prod.mk.inj h).2
  · rintro ⟨pre, p, post, hsplit, hm, rfl⟩
    have hupdate : updateFirst (fun p => decide (p.recipient = r)) Error.notMember
        (fun p => .ok ((m p).1, (m p).2.map fun _ => (m p).1)) s.recipients =
          .ok (pre ++ q :: post, .ok q) := by
      refine updateFirst_eq_ok_iff.mpr ⟨pre, p, post, q, hsplit.recipients_eq, fun x hx => ?_,
        decide_eq_true hsplit.recipient_eq, ?_, rfl⟩
      · simpa using hsplit.before x hx
      · rw [hm]
        rfl
    rw [hupdate]

end LogicalSend

/-! ### What the methods of a recipient do -/

namespace RecipientProgress

variable {p q : RecipientProgress} {commitment : Digest} {ciphertext : Bytes}

/-- The recipient is being worked on: it is prepared or handed off. -/
def InFlight (p : RecipientProgress) : Prop :=
  p.disposition = .prepared ∨ p.disposition = .handedOff

theorem recordPrepared_eq_ok (h : recordPrepared commitment ciphertext p = (q, .ok ())) :
    q.recipient = p.recipient ∧ q.contextCommitment = some commitment ∧
      q.ciphertext = some ciphertext ∧ q.InFlight ∧
      (p.disposition = .pending ∨ p.InFlight) := by
  cases hd : p.disposition <;>
    simp only [recordPrepared, hd, Prod.mk.injEq, reduceCtorEq, and_false] at h
  case pending =>
    obtain ⟨rfl, -⟩ := h
    exact ⟨rfl, rfl, rfl, .inl rfl, .inl rfl⟩
  all_goals
    split at h
    · next heq =>
      obtain ⟨rfl, -⟩ := Prod.mk.inj h
      exact ⟨rfl, heq.1, heq.2, by simp [InFlight, hd], by simp [InFlight, hd]⟩
    · exact absurd (Prod.mk.inj h).2 nofun

theorem recordPrepared_of_inFlight (h : p.InFlight)
    (hcommitment : p.contextCommitment = some commitment)
    (hciphertext : p.ciphertext = some ciphertext) :
    recordPrepared commitment ciphertext p = (p, .ok ()) := by
  rcases h with h | h <;> rw [recordPrepared, h] <;> exact if_pos ⟨hcommitment, hciphertext⟩

theorem reserveHandoff_eq_ok (h : p.reserveHandoff = (q, .ok ())) :
    p.InFlight ∧ p.attemptsReserved < 3 ∧
      q = { p with
            attemptsReserved := p.attemptsReserved + 1
            disposition := ProgressKind.disposition (p.attemptsReserved + 1 = 3) } := by
  cases hd : p.disposition <;>
    simp only [reserveHandoff, hd, Prod.mk.injEq, reduceCtorEq, and_false] at h
  all_goals
    split at h
    · exact absurd (Prod.mk.inj h).2 nofun
    split at h
    · exact absurd (Prod.mk.inj h).2 nofun
    next hattempts =>
      obtain ⟨rfl, -⟩ := Prod.mk.inj h
      exact ⟨by simp [InFlight, hd], UInt8.not_le.mp hattempts, by simp [ProgressKind.disposition]⟩

theorem recordRelayAccepted_eq_ok (h : p.recordRelayAccepted = (q, .ok ())) :
    (p.disposition = .handedOff ∨ p.disposition = .exhaustedUnknown) ∧
      q = { p with disposition := .relayAccepted } := by
  cases hd : p.disposition <;>
    simp only [recordRelayAccepted, hd, Prod.mk.injEq, reduceCtorEq, and_false] at h
  all_goals
    obtain ⟨rfl, -⟩ := h
    exact ⟨by simp, rfl⟩

theorem recipient_recordPrepared (commitment : Digest) (ciphertext : Bytes)
    (p : RecipientProgress) :
    (recordPrepared commitment ciphertext p).1.recipient = p.recipient := by
  unfold recordPrepared
  split <;> first | rfl | (split <;> rfl)

theorem recipient_reserveHandoff (p : RecipientProgress) :
    p.reserveHandoff.1.recipient = p.recipient := by
  unfold reserveHandoff
  split <;> first | rfl | (split_ifs <;> rfl)

theorem recipient_recordRelayAccepted (p : RecipientProgress) :
    p.recordRelayAccepted.1.recipient = p.recipient := by
  unfold recordRelayAccepted
  split <;> rfl

@[simp] theorem recipient_cancel (p : RecipientProgress) : p.cancel.recipient = p.recipient := by
  unfold cancel
  split <;> rfl

theorem cancel_cases (p : RecipientProgress) :
    p.cancel.disposition.isTerminal = true ∧
      (p.disposition.isTerminal = true → p.cancel = p) ∧
      (p.cancel.disposition = .exhaustedUnknown → p.cancel = p) := by
  obtain ⟨recipient, disposition, com, ct, attempts⟩ := p
  cases disposition <;> simp [cancel, RecipientDisposition.isTerminal]

theorem cancel_cancel (p : RecipientProgress) : p.cancel.cancel = p.cancel :=
  (cancel_cases p.cancel).2.1 (cancel_cases p).1

end RecipientProgress

/-! ### Changing one send of the outbox -/

namespace GroupOutbox

variable {o o' : GroupOutbox} {id : LogicalMessageId} {α β : Type}

variable {f : LogicalSend → Except Error (LogicalSend × α)}

theorem sendMut_eq_ok_iff {a : α} :
    o.sendMut id f = .ok (o', a) ↔ ∃ sends,
      updateFirst (fun s => s.id = id) Error.malformed f o.sends = .ok (sends, a) ∧
        o' = { o with sends } := by
  simp only [sendMut, bind_eq_ok, Prod.exists, pure_eq_ok, Prod.mk.injEq, eq_comm (b := o')]
  constructor
  · rintro ⟨sends, b, h, rfl, rfl⟩
    exact ⟨sends, h, rfl⟩
  · rintro ⟨sends, h, rfl⟩
    exact ⟨sends, a, h, rfl, rfl⟩

private theorem sendMut_append {g : GroupId} {applied : UInt64} {pre post : List LogicalSend}
    {s : LogicalSend} (hpre : ∀ x ∈ pre, decide (x.id = id) = false)
    (hs : decide (s.id = id) = true) :
    sendMut ⟨g, pre ++ s :: post, applied⟩ id f =
      (f s).map fun r => (⟨g, pre ++ r.1 :: post, applied⟩, r.2) := by
  rw [sendMut, updateFirst_append hpre hs]
  cases f s <;> rfl

/-- Two changes of the same send, one after the other, are one change. -/
theorem sendMut_bind {g : LogicalSend → Except Error (LogicalSend × β)}
    (hf : ∀ s s' a, f s = .ok (s', a) → s'.id = s.id) :
    (o.sendMut id f >>= fun r => r.1.sendMut id g) =
      o.sendMut id fun s => f s >>= fun r => g r.1 := by
  obtain ⟨group, sends, applied⟩ := o
  rcases split_first (fun s : LogicalSend => decide (s.id = id)) sends with
    ⟨pre, s, post, rfl, hpre, hs⟩ | hnone
  · rw [sendMut_append hpre hs, sendMut_append hpre hs]
    cases h : f s with
    | error e => rfl
    | ok r =>
      have hr : decide (r.1.id = id) = true := by rw [hf s r.1 r.2 h]; exact hs
      exact sendMut_append hpre hr
  · rw [sendMut, sendMut, updateFirst_of_forall hnone, updateFirst_of_forall hnone]
    rfl

/-- Forgetting the answer of a change inside it or after it is the same. -/
theorem sendMut_forget :
    (o.sendMut id fun s => f s >>= fun r => pure (r.1, ())) >>= (fun r => pure r.1) =
      (o.sendMut id f >>= fun r => pure r.1) := by
  obtain ⟨group, sends, applied⟩ := o
  rcases split_first (fun s : LogicalSend => decide (s.id = id)) sends with
    ⟨pre, s, post, rfl, hpre, hs⟩ | hnone
  · rw [sendMut_append hpre hs, sendMut_append hpre hs]
    cases f s <;> rfl
  · rw [sendMut, sendMut, updateFirst_of_forall hnone, updateFirst_of_forall hnone]
    rfl

end GroupOutbox

/-! ### From bytes to records -/

namespace LogicalSend

theorem id_of_onProgress {s s' : LogicalSend} {r : Member}
    {m : RecipientProgress → RecipientProgress × Except Error Unit} {q : RecipientProgress}
    (h : s.onProgress r m = (s', .ok q)) : s'.id = s.id := by
  obtain ⟨pre, p, post, -, -, rfl⟩ := onProgress_eq_ok_iff.mp h
  rfl

end LogicalSend

namespace GroupOutbox

theorem id_of_replayPreparation {record : ProgressRecord} {final : Bool} {s s' : LogicalSend}
    {u : Unit} (h : replayPreparation record final s = .ok (s', u)) : s'.id = s.id := by
  simp only [replayPreparation, bind_eq_ok, refuseIf_eq_ok] at h
  obtain ⟨_, -, _, -, stored, -, h⟩ := h
  split at h
  · obtain ⟨_, -, h⟩ := bind_eq_ok.mp h
    rw [← (Prod.mk.inj (pure_eq_ok.mp h)).1]
  · obtain ⟨⟨t, q⟩, ht, h⟩ := bind_eq_ok.mp h
    rw [← (Prod.mk.inj (pure_eq_ok.mp h)).1]
    exact LogicalSend.id_of_onProgress (discarding_eq_ok_iff.mp ht)

variable {group : GroupId} {applied : Option UInt64} {commit : Bytes → Digest} {o : GroupOutbox}

private theorem replayEntry_tag {tag body : Bytes} (htag : tag.length = 4) :
    replayEntry group applied commit o (tag ++ body) =
      if tag = ascii "TCGI" then o.replayIntent group applied body
      else if tag = ascii "TCGP" then o.replayPrepared group commit body
      else if tag = ascii "TCGH" then o.replayHandoff group commit body
      else if tag = ascii "TCGA" then o.replayAcceptance group commit body
      else if ascii "TCG" <+: tag ++ body then .error .malformed
      else .ok o := by
  have hlen : ¬(tag ++ body).length < 4 := by rw [List.length_append]; omega
  rw [replayEntry, if_neg hlen, List.take_left' htag, List.drop_left' htag]

private theorem applyRecoveredPreparation_of_valid {record : ProgressRecord} {final : Bool}
    (hv : record.context.Valid) (hgroup : record.context.groupId = group) :
    o.applyRecoveredPreparation group record commit final =
      (refuseIf (record.commitment ≠ commit record.context.layout) .conflict >>= fun _ =>
        o.sendMut ⟨record.context.groupId, record.context.revision, record.context.sender,
          record.context.logicalSequence⟩ (replayPreparation record final) >>= fun r =>
            pure r.1) := by
  rw [applyRecoveredPreparation, if_neg (not_not.mpr hgroup),
    ApplicationContext.encode_of_valid hv, logicalIdFromContext, LogicalMessageId.new,
    refuseIf_neg hv.revision_ne]
  rfl

private theorem replay_prepared {context : ApplicationContext} {commitment : Digest}
    {ciphertext : Bytes} (hv : context.Valid) (hgroup : context.groupId = group) :
    (Entry.progress .prepared context commitment ciphertext).replay applied commit o =
      o.applyRecoveredPreparation group ⟨context, commitment, ciphertext, []⟩ commit false := by
  have hstep : Entry.stepProgress .prepared context commitment ciphertext =
      replayPreparation ⟨context, commitment, ciphertext, []⟩ false := by
    funext send
    simp only [Entry.stepProgress, ProgressKind.suffix, reduceCtorEq, decide_false]
    cases replayPreparation ⟨context, commitment, ciphertext, []⟩ false send <;> rfl
  rw [applyRecoveredPreparation_of_valid hv hgroup, Entry.replay, hstep]
  rfl

/-- A record that is more than a preparation repeats the preparation and then acts on the send. -/
private theorem replay_progress {kind : ProgressKind} {context : ApplicationContext}
    {commitment : Digest} {ciphertext : Bytes} (hv : context.Valid)
    (hgroup : context.groupId = group)
    (act : LogicalSend → Except Error (LogicalSend × Unit))
    (hact : ∀ send, Entry.stepProgress kind context commitment ciphertext send =
      (replayPreparation ⟨context, commitment, ciphertext, kind.suffix⟩ (kind = .accepted) send
        >>= fun r => act r.1)) :
    (Entry.progress kind context commitment ciphertext).replay applied commit o =
      (o.applyRecoveredPreparation group ⟨context, commitment, ciphertext, kind.suffix⟩ commit
        (kind = .accepted) >>= fun o =>
          o.sendMut ⟨context.groupId, context.revision, context.sender, context.logicalSequence⟩ act
            >>= fun r => pure r.1) := by
  rw [applyRecoveredPreparation_of_valid hv hgroup, Entry.replay, funext hact,
    ← sendMut_bind fun _ _ _ h => id_of_replayPreparation h]
  simp only [bind_assoc, pure_bind]
  rfl

/-- Replaying the bytes of a record of the group replays the record. -/
theorem replayEntry_layout {e : Entry} (hv : e.Valid) (hgroup : e.id.groupId = group) :
    replayEntry group applied commit o e.layout = e.replay applied commit o := by
  cases e with
  | intent send =>
    have hgroup' : ¬send.id.groupId ≠ group := not_not.mpr hgroup
    rw [Entry.layout, replayEntry_tag (by decide), if_pos rfl, replayIntent,
      decodeIntentRecord_lpBytes hv.1 hv.2, ok_bind, if_neg hgroup']
    rfl
  | progress kind context commitment ciphertext =>
    have hdecode : decodeProgressRecord (lpBytes context.layout ++ (commitment.val ++
        (lpBytes ciphertext ++ kind.suffix))) =
          .ok ⟨context, commitment, ciphertext, kind.suffix⟩ :=
      decodeProgressRecord_eq_ok_iff.mpr ⟨hv.1, hv.2, rfl⟩
    have hgroup' : ¬context.groupId ≠ group := not_not.mpr hgroup
    have hid : logicalIdFromContext context =
        .ok ⟨context.groupId, context.revision, context.sender, context.logicalSequence⟩ :=
      LogicalMessageId.new_eq_ok_iff.mpr ⟨hv.1.revision_ne, rfl⟩
    rw [Entry.layout, replayEntry_tag (by cases kind <;> rfl)]
    cases kind with
    | prepared =>
      rw [if_neg (by decide), if_pos (by rfl), replayPrepared, hdecode,
        replay_prepared hv.1 hgroup]
      rfl
    | handoff attempts final =>
      have hsuffix : decodeHandoffSuffix (ProgressKind.handoff attempts final).suffix =
          .ok (attempts, ProgressKind.disposition final) := by cases final <;> rfl
      rw [if_neg (by change ascii "TCGH" ≠ _; decide), if_neg (by change ascii "TCGH" ≠ _; decide),
        if_pos (by rfl), replayHandoff, hdecode, replay_progress hv.1 hgroup _ fun _ => rfl]
      simp only [ok_bind, hsuffix, if_neg hgroup', hid]
      rfl
    | accepted =>
      rw [if_neg (by decide), if_neg (by decide), if_neg (by decide), if_pos (by rfl),
        replayAcceptance, hdecode, replay_progress hv.1 hgroup (fun send =>
          discarding (send.recordRelayAccepted context.recipient) >>= fun r => pure (r.1, ()))
          fun _ => rfl]
      simp only [ok_bind, ProgressKind.suffix, List.isEmpty_nil, Bool.not_true, Bool.false_eq_true,
        not_false_eq_true, refuseIf_neg, if_neg hgroup', hid]
      congr 1
      funext o
      exact sendMut_forget.symm

end GroupOutbox

/-! ### Replay of what is left -/

namespace GroupOutbox

variable {o o' : GroupOutbox} {send : LogicalSend}

/-- The retained sends of one sender at one revision are below a sequence. -/
def Below (o : GroupOutbox) (id : LogicalMessageId) : Prop :=
  ∀ s ∈ o.sends, s.id.revision = id.revision → s.id.sender = id.sender →
    s.id.sequence < id.sequence

/-- The number of live sends that a cancellation to come does not end. -/
def liveCount (cancelledBelow : Option UInt64) (o : GroupOutbox) : Nat :=
  o.sends.countP fun known => !known.isTerminal && staysLive cancelledBelow known

theorem insert_eq_inserted_iff {cancelledBelow : Option UInt64} :
    o.insert send cancelledBelow = .ok (o', .inserted) ↔
      (send.id.groupId = o.groupId ∧ (∀ s ∈ o.sends, s.id ≠ send.id) ∧
        o.appliedRevision ≤ send.id.revision ∧ o.Below send.id ∧
        (staysLive cancelledBelow send = true → o.liveCount cancelledBelow < maxLiveLogicalSends)) ∧
      o' = { o with sends := o.sends ++ [send] } := by
  have hbelow : ((o.highestSequence send.id.revision send.id.sender).any
      fun highest => decide (send.id.sequence ≤ highest)) = true ↔ ¬o.Below send.id := by
    rw [highestSequence, Word64.max?_any_le_iff, Below]
    simp only [List.mem_filter, decide_eq_true_eq, Word64.le_iff, Word64.lt_iff]
    push Not
    grind
  rw [insert, refuseIf_bind_eq_ok, not_not]
  cases hfind : o.sends.find? fun known => known.id = send.id with
  | some known =>
    have hknown := List.find?_some hfind
    have hmem := List.mem_of_find?_eq_some hfind
    simp only [refuseIf_bind_eq_ok, pure_eq_ok, Prod.mk.injEq, reduceCtorEq, and_false, false_iff]
    rintro ⟨⟨-, hne, -⟩, -⟩
    exact hne known hmem (of_decide_eq_true hknown)
  | none =>
    have hne : ∀ s ∈ o.sends, s.id ≠ send.id := fun s hs => by
      simpa using List.find?_eq_none.mp hfind s hs
    simp only [refuseIf_bind_eq_ok, pure_eq_ok, Prod.mk.injEq, and_true, hbelow, not_not, not_and,
      not_le, UInt64.not_lt, eq_comm (b := o'), liveCount]
    tauto

/-- The outbox without the sends of some identifiers. -/
def keep (k : LogicalMessageId → Bool) (o : GroupOutbox) : GroupOutbox :=
  { o with sends := o.sends.filter fun s => k s.id }

/-- A cancellation that ends at least what another one ends. -/
def Covers (later earlier : Option UInt64) : Prop :=
  ∀ s : LogicalSend, staysLive later s = true → staysLive earlier s = true

theorem liveCount_keep_le {later earlier : Option UInt64} (h : Covers later earlier)
    (k : LogicalMessageId → Bool) (o : GroupOutbox) :
    (o.keep k).liveCount later ≤ o.liveCount earlier := by
  have hmono : (o.keep k).liveCount later ≤ o.liveCount later :=
    List.Sublist.countP_le List.filter_sublist
  refine hmono.trans (List.countP_mono_left fun s _ hs => ?_)
  rw [Bool.and_eq_true] at hs ⊢
  exact ⟨hs.1, h s hs.2⟩

end GroupOutbox

namespace Entry

open GroupOutbox

variable {commit : Bytes → Digest} {o o' : GroupOutbox} {e : Entry} {earlier later : Option UInt64}

theorem id_of_stepProgress {kind : ProgressKind} {context : ApplicationContext}
    {commitment : Digest} {ciphertext : Bytes} {s s' : LogicalSend} {u : Unit}
    (h : stepProgress kind context commitment ciphertext s = .ok (s', u)) : s'.id = s.id := by
  obtain ⟨⟨t, _⟩, hprep, h⟩ := bind_eq_ok.mp h
  have ht := id_of_replayPreparation hprep
  cases kind with
  | prepared => rw [← (Prod.mk.inj (pure_eq_ok.mp h)).1, ht]
  | handoff attempts final =>
    simp only [replayReservation, bind_eq_ok, refuseIf_eq_ok, Prod.exists] at h
    obtain ⟨_, -, _, -, _, -, v, q, hv, _, -, h⟩ := h
    rw [← (Prod.mk.inj (pure_eq_ok.mp h)).1, ← ht]
    exact LogicalSend.id_of_onProgress (discarding_eq_ok_iff.mp hv)
  | accepted =>
    obtain ⟨⟨v, q⟩, hv, h⟩ := bind_eq_ok.mp h
    rw [← (Prod.mk.inj (pure_eq_ok.mp h)).1, ← ht]
    exact LogicalSend.id_of_onProgress (discarding_eq_ok_iff.mp hv)

variable {applied : Option UInt64}

theorem replay_intent_eq_ok_iff {send : LogicalSend} :
    (intent send).replay applied commit o = .ok o' ↔
      o.insert send applied = .ok (o', .inserted) := by
  simp only [replay, bind_eq_ok, Prod.exists, refuseIf_eq_ok, not_not, exists_const, pure_eq_ok]
  refine ⟨fun h => ?_, fun h => ⟨_, _, h, rfl, rfl⟩⟩
  obtain ⟨_, _, h, rfl, rfl⟩ := h
  exact h

theorem replay_progress_eq_ok_iff {kind : ProgressKind} {context : ApplicationContext}
    {commitment : Digest} {ciphertext : Bytes} :
    (progress kind context commitment ciphertext).replay applied commit o = .ok o' ↔
      commitment = commit context.layout ∧
        o.sendMut (progress kind context commitment ciphertext).id
          (stepProgress kind context commitment ciphertext) = .ok (o', ()) := by
  simp only [replay, bind_eq_ok, refuseIf_eq_ok, not_not, exists_const, Prod.exists, pure_eq_ok]
  refine and_congr_right fun _ => ⟨fun h => ?_, fun h => ⟨_, _, h, rfl⟩⟩
  obtain ⟨_, _, h, rfl⟩ := h
  exact h

/-- The sends after a replayed record: the record's send is there, in the place where it first
appeared. -/
theorem map_id_replay (h : e.replay applied commit o = .ok o') :
    o'.sends.map LogicalSend.id = if e.id ∈ o.sends.map LogicalSend.id then
      o.sends.map LogicalSend.id else o.sends.map LogicalSend.id ++ [e.id] := by
  cases e with
  | intent send =>
    rw [replay_intent_eq_ok_iff, insert_eq_inserted_iff] at h
    obtain ⟨⟨-, hne, -⟩, rfl⟩ := h
    have hnew : (intent send).id ∉ o.sends.map LogicalSend.id := by
      rw [List.mem_map]
      rintro ⟨s, hs, hid⟩
      exact hne s hs hid
    rw [if_neg hnew, List.map_append, List.map_singleton]
    rfl
  | progress kind context commitment ciphertext =>
    rw [replay_progress_eq_ok_iff, sendMut_eq_ok_iff] at h
    obtain ⟨-, sends, hupdate, rfl⟩ := h
    obtain ⟨pre, s, post, s', hsends, -, hs, -⟩ := updateFirst_eq_ok_iff.mp hupdate
    have hmem : (progress kind context commitment ciphertext).id ∈
        o.sends.map LogicalSend.id := by
      rw [hsends, ← of_decide_eq_true hs]
      exact List.mem_map_of_mem (List.mem_append_right _ List.mem_cons_self)
    rw [if_pos hmem]
    exact map_updateFirst (fun _ _ _ _ hstep => id_of_stepProgress hstep) hupdate

theorem nodup_foldlM_replay {entries : List Entry}
    (h : entries.foldlM (replay applied commit) o = .ok o')
    (ho : (o.sends.map LogicalSend.id).Nodup) : (o'.sends.map LogicalSend.id).Nodup := by
  induction entries generalizing o with
  | nil => exact Except.ok.inj h ▸ ho
  | cons e entries ih =>
    rw [List.foldlM_cons] at h
    obtain ⟨o₁, ho₁, h⟩ := bind_eq_ok.mp h
    refine ih h ?_
    rw [map_id_replay ho₁]
    by_cases hmem : e.id ∈ o.sends.map LogicalSend.id
    · rwa [if_pos hmem]
    · rw [if_neg hmem]
      exact List.nodup_append_comm.mpr (List.nodup_cons.mpr ⟨hmem, ho⟩)

/-- A record of a send that is kept replays in the same way after other sends were dropped, and
under a cancellation that ends more. -/
theorem replay_keep (hcovers : Covers later earlier) {k : LogicalMessageId → Bool}
    (hk : k e.id = true) (h : e.replay earlier commit o = .ok o') :
    e.replay later commit (o.keep k) = .ok (o'.keep k) := by
  cases e with
  | intent send =>
    rw [replay_intent_eq_ok_iff, insert_eq_inserted_iff] at h ⊢
    obtain ⟨⟨hgroup, hne, happlied, hbelow, hlive⟩, rfl⟩ := h
    refine ⟨⟨hgroup, fun s hs => hne s (List.mem_filter.mp hs).1, happlied,
      fun s hs => hbelow s (List.mem_filter.mp hs).1, fun hstays => ?_⟩, ?_⟩
    · exact (liveCount_keep_le hcovers k o).trans_lt (hlive (hcovers send hstays))
    · simp only [keep, List.filter_append, List.filter_singleton]
      rw [show k send.id = true from hk]
      rfl
  | progress kind context commitment ciphertext =>
    rw [replay_progress_eq_ok_iff, sendMut_eq_ok_iff] at h ⊢
    obtain ⟨hcommit, sends, hupdate, rfl⟩ := h
    refine ⟨hcommit, _, updateFirst_filter (fun s hs => ?_) (fun s s' u hs hstep => ?_) hupdate,
      rfl⟩
    · rw [of_decide_eq_true hs]
      exact hk
    · rw [id_of_stepProgress hstep, of_decide_eq_true hs]
      exact hk

/-- A record of a send that is dropped does not show in what is kept. -/
theorem keep_replay {k : LogicalMessageId → Bool} (hk : k e.id = false)
    (h : e.replay earlier commit o = .ok o') : o'.keep k = o.keep k := by
  cases e with
  | intent send =>
    rw [replay_intent_eq_ok_iff, insert_eq_inserted_iff] at h
    obtain ⟨-, rfl⟩ := h
    simp only [keep, List.filter_append, List.filter_singleton]
    rw [show k send.id = false from hk]
    simp
  | progress kind context commitment ciphertext =>
    rw [replay_progress_eq_ok_iff, sendMut_eq_ok_iff] at h
    obtain ⟨-, sends, hupdate, rfl⟩ := h
    have hfilter := filter_updateFirst (k := fun s : LogicalSend => k s.id) (fun s hs => ?_)
      (fun s s' u hs hstep => ?_) hupdate
    · simp only [keep, hfilter]
    · rw [of_decide_eq_true hs]
      exact hk
    · rw [id_of_stepProgress hstep, of_decide_eq_true hs]
      exact hk

/-- A transcript without the records of some sends replays to the outbox without these sends. -/
theorem foldlM_replay_keep (hcovers : Covers later earlier) (k : LogicalMessageId → Bool)
    {entries : List Entry} (h : entries.foldlM (replay earlier commit) o = .ok o') :
    (entries.filter fun e => k e.id).foldlM (replay later commit) (o.keep k) = .ok (o'.keep k) := by
  induction entries generalizing o with
  | nil => rw [List.filter_nil, List.foldlM_nil, pure_eq_ok.mp h]; rfl
  | cons e entries ih =>
    obtain ⟨mid, hmid, h⟩ := bind_eq_ok.mp h
    cases hk : k e.id with
    | true =>
      rw [List.filter_cons, if_pos hk, List.foldlM_cons, replay_keep hcovers hk hmid, ok_bind]
      exact ih h
    | false =>
      rw [List.filter_cons, hk, if_neg Bool.false_ne_true, ← keep_replay hk hmid]
      exact ih h

end Entry

end Tacenta.Group
