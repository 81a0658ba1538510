import Tacenta.Group.Transcript

/-!
# A transcript mirrors the live outbox

The live outbox cancels sends when a roster is accepted; a recovery replays the whole transcript
without cancelling and applies the newest cancellation once at the end. The transcript mirrors the
live outbox if its replay, cancelled, is the live outbox. Recording an intent or a recipient's
progress, accepting a newer roster and dropping sends all keep this.

## Main definitions

* `LogicalSend.cancelled`, `GroupOutbox.cancelled`: the effect of the newest cancellation, if any.
* `Mirrors`: the transcript mirrors the live outbox.

## Main results

* `Mirrors.recover_eq`: recovery rebuilds the live outbox.
* `Mirrors.intent`, `Mirrors.progress`, `Mirrors.keep`, `Mirrors.cancel`: what keeps the mirror.
-/

open ByteString Records Result

namespace Tacenta.Group

/-! ### Cancelled sends -/

namespace LogicalSend

variable {s : LogicalSend} {c : Option UInt64} {r : Member}

/-- A cancellation ends the sends of an identifier's revision. -/
def ended (c : Option UInt64) (id : LogicalMessageId) : Bool :=
  c.any fun revision => id.revision < revision

/-- The send after the newest cancellation, if there is one. -/
def cancelled (c : Option UInt64) (s : LogicalSend) : LogicalSend :=
  if ended c s.id then { s with recipients := s.recipients.map RecipientProgress.cancel } else s

theorem cancelForNewerRoster_eq (revision : UInt64) (s : LogicalSend) :
    s.cancelForNewerRoster revision = s.cancelled (some revision) := by
  unfold cancelForNewerRoster cancelled ended
  by_cases h : revision ≤ s.id.revision
  · have hlt : ¬s.id.revision < revision := UInt64.not_lt.mpr h
    simp only [h, if_true, Option.any_some, hlt, decide_false, Bool.false_eq_true, if_false]
  · have hlt : s.id.revision < revision := UInt64.not_le.mp h
    simp only [h, if_false, Option.any_some, hlt, decide_true, if_true]

theorem cancelled_of_ended (h : ended c s.id = true) :
    s.cancelled c = { s with recipients := s.recipients.map RecipientProgress.cancel } := if_pos h

theorem cancelled_of_not_ended (h : ended c s.id = false) : s.cancelled c = s :=
  if_neg (by rw [h]; exact Bool.false_ne_true)

theorem cancelled_with_of_ended (h : ended c s.id = true) (rs : List RecipientProgress) :
    ({ s with recipients := rs } : LogicalSend).cancelled c =
      { s with recipients := rs.map RecipientProgress.cancel } := if_pos h

theorem cancelled_with_of_not_ended (h : ended c s.id = false) (rs : List RecipientProgress) :
    ({ s with recipients := rs } : LogicalSend).cancelled c = { s with recipients := rs } :=
  if_neg (by rw [h]; exact Bool.false_ne_true)

@[simp] theorem id_cancelled (c : Option UInt64) (s : LogicalSend) : (s.cancelled c).id = s.id := by
  unfold cancelled
  split <;> rfl

@[simp] theorem context_cancelled (c : Option UInt64) (s : LogicalSend) :
    (s.cancelled c).context r = s.context r := by
  unfold cancelled
  split <;> rfl

theorem ended_mono {revision : UInt64} (h : ∀ earlier ∈ c, earlier ≤ revision)
    {id : LogicalMessageId} (hended : ended c id = true) : ended (some revision) id = true := by
  cases c with
  | none => exact nomatch hended
  | some earlier =>
    have hle := Word64.le_iff.mp (h earlier rfl)
    have hlt := Word64.lt_iff.mp (of_decide_eq_true hended)
    exact decide_eq_true (Word64.lt_iff.mpr (by omega))

theorem cancelled_cancelled {revision : UInt64} (h : ∀ earlier ∈ c, earlier ≤ revision)
    (s : LogicalSend) :
    (s.cancelled c).cancelled (some revision) = s.cancelled (some revision) := by
  cases hended : ended c s.id with
  | false => rw [cancelled_of_not_ended hended]
  | true =>
    have hended' := ended_mono h hended
    rw [cancelled_of_ended hended, cancelled_with_of_ended hended', cancelled_of_ended hended',
      List.map_map]
    simp only [Function.comp_def, RecipientProgress.cancel_cancel]

theorem staysLive_eq_not_ended (c : Option UInt64) (s : LogicalSend) :
    GroupOutbox.staysLive c s = !ended c s.id := by
  cases c with
  | none => rfl
  | some revision =>
    rw [Bool.eq_iff_iff]
    simp only [GroupOutbox.staysLive, ended, Option.all_some, Option.any_some, decide_eq_true_eq,
      Bool.not_eq_true', decide_eq_false_iff_not, UInt64.not_lt]

/-- Every commitment that the send holds is the commitment to its recipient's context. -/
def Committed (commit : Bytes → Digest) (s : LogicalSend) : Prop :=
  ∀ p ∈ s.recipients, ∀ commitment, p.contextCommitment = some commitment →
    commitment = commit (s.context p.recipient).layout

theorem Committed.replace {commit : Bytes → Digest} (hs : s.Committed commit)
    {pre post : List RecipientProgress} {p q : RecipientProgress} (hsplit : s.Splits r pre p post)
    (hq : ∀ commitment, q.contextCommitment = some commitment →
      commitment = commit (s.context q.recipient).layout) :
    ({ s with recipients := pre ++ q :: post } : LogicalSend).Committed commit := by
  intro x hx
  rcases List.mem_append.mp hx with hx | hx
  · exact hs x (hsplit.recipients_eq ▸ List.mem_append_left _ hx)
  · rcases List.mem_cons.mp hx with rfl | hx
    · exact hq
    · exact hs x (hsplit.recipients_eq ▸ List.mem_append_right _ (List.mem_cons_of_mem _ hx))

theorem Committed.of_splits {commit : Bytes → Digest} (hs : s.Committed commit)
    {pre post : List RecipientProgress} {p : RecipientProgress} (hsplit : s.Splits r pre p post) :
    ∀ commitment, p.contextCommitment = some commitment →
      commitment = commit (s.context p.recipient).layout :=
  hs p (hsplit.recipients_eq ▸ List.mem_append_right _ List.mem_cons_self)

theorem exists_splits_of_ended (h : ended c s.id = true) {pre post : List RecipientProgress}
    {p : RecipientProgress} (hsplit : (s.cancelled c).Splits r pre p post) :
    ∃ pre' p' post', s.Splits r pre' p' post' ∧ pre = pre'.map RecipientProgress.cancel ∧
      p = p'.cancel ∧ post = post'.map RecipientProgress.cancel := by
  have hrecipients := hsplit.recipients_eq
  rw [cancelled_of_ended h] at hrecipients
  obtain ⟨pre', rest, heq, hpre, hrest⟩ := List.map_eq_append_iff.mp hrecipients
  obtain ⟨p', post', rfl, hp, hpost⟩ := List.map_eq_cons_iff.mp hrest
  refine ⟨pre', p', post', ⟨heq, fun x hx => ?_, ?_⟩, hpre.symm, hp.symm, hpost.symm⟩
  · have := hsplit.before x.cancel (hpre ▸ List.mem_map_of_mem hx)
    rwa [RecipientProgress.recipient_cancel] at this
  · rw [← hsplit.recipient_eq, ← hp, RecipientProgress.recipient_cancel]

end LogicalSend

/-! ### Replaying what the live outbox did to a recipient -/

namespace Entry

open LogicalSend GroupOutbox

variable {s t : LogicalSend} {c : Option UInt64} {r : Member} {commit : Bytes → Digest}
  {p q : RecipientProgress} {pre post : List RecipientProgress} {commitment : Digest}
  {ciphertext suffix : Bytes} {final : Bool}

private theorem replayPreparation_of_recordPrepared (hv : (s.context r).Valid)
    (hsplit : s.Splits r pre p post)
    (hp : RecipientProgress.recordPrepared commitment ciphertext p = (q, .ok ())) :
    replayPreparation ⟨s.context r, commitment, ciphertext, suffix⟩ final s =
      .ok ({ s with recipients := pre ++ q :: post }, ()) := by
  have hrecord : s.recordPrepared r commitment ciphertext =
      ({ s with recipients := pre ++ q :: post }, .ok q) :=
    onProgress_eq_ok_iff.mpr ⟨pre, p, post, hsplit, hp, rfl⟩
  have hexhausted : ¬(final = true ∧ p.disposition = .exhaustedUnknown) := by
    rintro ⟨-, h⟩
    rcases (RecipientProgress.recordPrepared_eq_ok hp).2.2.2.2 with h' | h' | h' <;>
      rw [h] at h' <;> exact absurd h' nofun
  simp only [replayPreparation]
  rw [show (s.context r).recipient = r from rfl, hsplit.applicationContext_eq hv, ok_bind,
    refuseIf_neg (not_not.mpr rfl), ok_bind, hsplit.progress_eq, ok_bind, if_neg hexhausted,
    hrecord]
  rfl

private theorem replayPreparation_of_exhausted (hv : (s.context r).Valid)
    (hsplit : s.Splits r pre p post) (hp : p.disposition = .exhaustedUnknown)
    (hcommitment : p.contextCommitment = some commitment)
    (hciphertext : p.ciphertext = some ciphertext) :
    replayPreparation ⟨s.context r, commitment, ciphertext, suffix⟩ true s = .ok (s, ()) := by
  simp only [replayPreparation]
  rw [show (s.context r).recipient = r from rfl, hsplit.applicationContext_eq hv, ok_bind,
    refuseIf_neg (not_not.mpr rfl), ok_bind, hsplit.progress_eq, ok_bind, if_pos ⟨trivial, hp⟩,
    refuseIf_neg (not_not.mpr ⟨hcommitment, hciphertext⟩)]
  rfl

private theorem splits_self (hsplit : s.Splits r pre p post) :
    ({ s with recipients := pre ++ p :: post } : LogicalSend) = s := by
  rw [← hsplit.recipients_eq]

private theorem not_inFlight_cancel (p : RecipientProgress) :
    p.cancel.disposition ≠ .pending ∧ ¬p.cancel.InFlight := by
  have h := (RecipientProgress.cancel_cases p).1
  refine ⟨fun hp => ?_, fun hp => ?_⟩
  · rw [hp] at h
    exact absurd h nofun
  · rcases hp with hp | hp <;> rw [hp] at h <;> exact absurd h nofun

theorem stepProgress_prepared (hs : s.Committed commit) (hv : (s.context r).Valid)
    (h : (s.cancelled c).recordPrepared r (commit (s.context r).layout) ciphertext = (t, .ok q)) :
    q.contextCommitment = some (commit (s.context r).layout) ∧ q.ciphertext = some ciphertext ∧
      ∃ s', stepProgress .prepared (s.context r) (commit (s.context r).layout) ciphertext s =
        .ok (s', ()) ∧ t = s'.cancelled c ∧ s'.Committed commit := by
  obtain ⟨pre, p, post, hsplit, hp, rfl⟩ := onProgress_eq_ok_iff.mp h
  obtain ⟨hrecipient, hcommitment, hciphertext, -, hbefore⟩ :=
    RecipientProgress.recordPrepared_eq_ok hp
  refine ⟨hcommitment, hciphertext, ?_⟩
  cases hended : ended c s.id with
  | true =>
    obtain ⟨_, p', _, -, -, rfl, -⟩ := exists_splits_of_ended hended hsplit
    obtain ⟨hpending, hflight⟩ := not_inFlight_cancel p'
    exact absurd hbefore (not_or.mpr ⟨hpending, hflight⟩)
  | false =>
    rw [cancelled_of_not_ended hended] at hsplit
    refine ⟨{ s with recipients := pre ++ q :: post }, ?_, ?_, ?_⟩
    · rw [stepProgress, replayPreparation_of_recordPrepared hv hsplit hp]
      rfl
    · rw [cancelled_of_not_ended hended, cancelled_with_of_not_ended hended]
    · refine hs.replace hsplit fun com hcom => ?_
      rw [hrecipient, hsplit.recipient_eq]
      exact Option.some.inj (hcom.symm.trans hcommitment)

theorem stepProgress_handoff (hs : s.Committed commit) (hv : (s.context r).Valid)
    (h : (s.cancelled c).reserveHandoff r = (t, .ok q))
    (hcommitment : q.contextCommitment = some commitment)
    (hciphertext : q.ciphertext = some ciphertext) :
    commitment = commit (s.context r).layout ∧
      ∃ final, q.disposition = ProgressKind.disposition final ∧
        ∃ s', stepProgress (.handoff q.attemptsReserved final) (s.context r) commitment ciphertext s
          = .ok (s', ()) ∧ t = s'.cancelled c ∧ s'.Committed commit := by
  obtain ⟨pre, p, post, hsplit, hp, rfl⟩ := onProgress_eq_ok_iff.mp h
  obtain ⟨hflight, hattempts, rfl⟩ := RecipientProgress.reserveHandoff_eq_ok hp
  cases hended : ended c s.id with
  | true =>
    obtain ⟨_, p', _, -, -, rfl, -⟩ := exists_splits_of_ended hended hsplit
    exact absurd hflight (not_inFlight_cancel p').2
  | false =>
    rw [cancelled_of_not_ended hended] at hsplit ⊢
    have hcommit := hs.of_splits hsplit commitment hcommitment
    rw [hsplit.recipient_eq] at hcommit
    refine ⟨hcommit, _, rfl, _, ?_, (cancelled_with_of_not_ended hended _).symm,
      hs.replace hsplit fun com hcom => hs.of_splits hsplit com hcom⟩
    have hreserve : s.reserveHandoff r = (_, .ok _) :=
      onProgress_eq_ok_iff.mpr ⟨pre, p, post, hsplit, hp, rfl⟩
    have hlt : ¬256 ≤ p.attemptsReserved.toNat + 1 := by
      have := UInt8.lt_iff_toNat_lt.mp hattempts
      have h3 : (3 : UInt8).toNat = 3 := rfl
      omega
    rw [stepProgress, replayPreparation_of_recordPrepared hv hsplit
      (RecipientProgress.recordPrepared_of_inFlight hflight hcommitment hciphertext),
      splits_self hsplit]
    simp only [ok_bind, replayReservation]
    rw [show (s.context r).recipient = r from rfl, hsplit.progress_eq, ok_bind,
      refuseIf_neg hlt, ok_bind, refuseIf_neg (not_not.mpr rfl), ok_bind, hreserve]
    simp only [discarding, ok_bind, ne_eq, not_true_eq_false, or_self, not_false_eq_true,
      refuseIf_neg]
    rfl

/-- A relay acceptance that the live send recorded is replayed by its record, also if the send was
cancelled in the meantime. -/
theorem stepProgress_accepted (hs : s.Committed commit) (hv : (s.context r).Valid)
    (h : (s.cancelled c).recordRelayAccepted r = (t, .ok q))
    (hcommitment : q.contextCommitment = some commitment)
    (hciphertext : q.ciphertext = some ciphertext) :
    commitment = commit (s.context r).layout ∧
      ∃ s', stepProgress .accepted (s.context r) commitment ciphertext s = .ok (s', ()) ∧
        t = s'.cancelled c ∧ s'.Committed commit := by
  obtain ⟨pre, p, post, hsplit, hp, rfl⟩ := onProgress_eq_ok_iff.mp h
  obtain ⟨hdisposition, rfl⟩ := RecipientProgress.recordRelayAccepted_eq_ok hp
  -- The recipient of the send that was not cancelled, and what is left of the live split.
  obtain ⟨pre', post', hsplit', ht⟩ : ∃ pre' post', s.Splits r pre' p post' ∧
      ({ s.cancelled c with
          recipients := pre ++ { p with disposition := .relayAccepted } :: post } :
        LogicalSend) = ({ s with recipients := pre' ++
          { p with disposition := .relayAccepted } :: post' } : LogicalSend).cancelled c := by
    cases hended : ended c s.id with
    | true =>
      obtain ⟨pre', p', post', hsplit', rfl, rfl, rfl⟩ := exists_splits_of_ended hended hsplit
      have hp' : p'.cancel = p' := by
        rcases hdisposition with hd | hd
        · exact absurd (.inr hd) (not_inFlight_cancel p').2
        · exact (RecipientProgress.cancel_cases p').2.2 hd
      refine ⟨pre', post', hp'.symm ▸ hsplit', ?_⟩
      rw [cancelled_of_ended hended, cancelled_with_of_ended hended, List.map_append, List.map_cons]
      rfl
    | false =>
      rw [cancelled_of_not_ended hended] at hsplit ⊢
      exact ⟨pre, post, hsplit, (cancelled_with_of_not_ended hended _).symm⟩
  have hcommit := hs.of_splits hsplit' commitment hcommitment
  rw [hsplit'.recipient_eq] at hcommit
  have hprep : replayPreparation ⟨s.context r, commitment, ciphertext, []⟩ true s =
      .ok (s, ()) := by
    rcases hdisposition with hd | hd
    · rw [replayPreparation_of_recordPrepared hv hsplit'
        (RecipientProgress.recordPrepared_of_inFlight (.inr hd) hcommitment hciphertext),
        splits_self hsplit']
    · exact replayPreparation_of_exhausted hv hsplit' hd hcommitment hciphertext
  have haccept : s.recordRelayAccepted r = (_, .ok _) :=
    onProgress_eq_ok_iff.mpr ⟨pre', p, post', hsplit', hp, rfl⟩
  refine ⟨hcommit, _, ?_, ht, hs.replace hsplit' fun com hcom => hs.of_splits hsplit' com hcom⟩
  simp only [stepProgress, ProgressKind.suffix, decide_true, hprep, ok_bind]
  rw [show (s.context r).recipient = r from rfl, haccept]
  rfl

end Entry

/-! ### Cancelled outboxes -/

namespace GroupOutbox

variable {o : GroupOutbox} {c : Option UInt64}

/-- The outbox after the newest cancellation, if there is one. -/
def cancelled (c : Option UInt64) (o : GroupOutbox) : GroupOutbox :=
  match c with
  | some revision => o.cancelForNewerRoster revision
  | none => o

theorem sends_cancelled (c : Option UInt64) (o : GroupOutbox) :
    (o.cancelled c).sends = o.sends.map (LogicalSend.cancelled c) := by
  cases c with
  | none => exact (List.map_id' _).symm
  | some revision => exact List.map_congr_left fun s _ => s.cancelForNewerRoster_eq revision

theorem groupId_cancelled (c : Option UInt64) (o : GroupOutbox) :
    (o.cancelled c).groupId = o.groupId := by
  cases c <;> rfl

theorem cancelled_with (c : Option UInt64) (o : GroupOutbox) (sends : List LogicalSend) :
    ({ o with sends } : GroupOutbox).cancelled c =
      { o.cancelled c with sends := sends.map (LogicalSend.cancelled c) } := by
  cases c with
  | none => rw [show LogicalSend.cancelled none = id from rfl, List.map_id]; rfl
  | some revision =>
    have hmap : sends.map (fun s => s.cancelForNewerRoster revision) =
        sends.map (LogicalSend.cancelled (some revision)) :=
      List.map_congr_left fun s _ => s.cancelForNewerRoster_eq revision
    rw [cancelled, cancelForNewerRoster, hmap]
    rfl

theorem keep_cancelled (c : Option UInt64) (k : LogicalMessageId → Bool) (o : GroupOutbox) :
    (o.cancelled c).keep k = (o.keep k).cancelled c := by
  have hfilter : (o.cancelled c).sends.filter (fun s => k s.id) =
      (o.sends.filter fun s => k s.id).map (LogicalSend.cancelled c) := by
    rw [sends_cancelled, List.filter_map]
    simp only [Function.comp_def, LogicalSend.id_cancelled]
  change { o.cancelled c with sends := (o.cancelled c).sends.filter fun s => k s.id } = _
  rw [hfilter]
  exact (cancelled_with c o _).symm

theorem cancelled_cancelForNewerRoster {revision : UInt64} (h : ∀ earlier ∈ c, earlier ≤ revision)
    (o : GroupOutbox) :
    (o.cancelled c).cancelForNewerRoster revision = o.cancelled (some revision) := by
  cases c with
  | none => rfl
  | some earlier =>
    have hle := Word64.le_iff.mp (h earlier rfl)
    have happlied : max (max o.appliedRevision earlier) revision =
        max o.appliedRevision revision := by
      rw [Word64.eq_iff, Word64.toNat_max, Word64.toNat_max, Word64.toNat_max]
      omega
    have hsends (s : LogicalSend) : (s.cancelForNewerRoster earlier).cancelForNewerRoster revision =
        s.cancelForNewerRoster revision := by
      simp only [LogicalSend.cancelForNewerRoster_eq]
      exact LogicalSend.cancelled_cancelled (by simpa using h) s
    simp only [cancelled, cancelForNewerRoster, List.map_map, Function.comp_def, hsends, happlied]

theorem keep_true (o : GroupOutbox) : o.keep (fun _ => true) = o := by
  rw [keep, List.filter_true]

/-- No live send of the replayed outbox that stays live is missing in the cancelled one. -/
theorem liveCount_le_cancelled (c : Option UInt64) (o : GroupOutbox) :
    o.liveCount c ≤ (o.cancelled c).liveCount none := by
  rw [liveCount, liveCount, sends_cancelled, List.countP_map]
  refine List.countP_mono_left fun s _ hs => ?_
  rw [Bool.and_eq_true, LogicalSend.staysLive_eq_not_ended] at hs
  rw [Function.comp_apply, LogicalSend.cancelled_of_not_ended (by simpa using hs.2),
    Bool.and_eq_true]
  exact ⟨hs.1, rfl⟩

end GroupOutbox

/-! ### The mirror -/

/-- The transcript of a group mirrors its live outbox: it has valid records of the group, and its
replay, cancelled, is the live outbox. -/
structure Mirrors (group : GroupId) (commit : Bytes → Digest) (entries : List Entry)
    (c : Option UInt64) (live : GroupOutbox) : Prop where
  valid : ∀ e ∈ entries, e.Valid ∧ e.id.groupId = group
  replayed : ∃ o : GroupOutbox,
    entries.foldlM (Entry.replay c commit) (GroupOutbox.new group) = .ok o ∧ live = o.cancelled c ∧
      o.groupId = group ∧ o.appliedRevision = 0 ∧
        ∀ s ∈ o.sends, s.id.groupId = group ∧ s.Committed commit

namespace Mirrors

open GroupOutbox

variable {group : GroupId} {commit : Bytes → Digest} {entries : List Entry} {c : Option UInt64}
  {live live' : GroupOutbox}

/-- An empty transcript mirrors a new outbox. -/
theorem new (group : GroupId) (commit : Bytes → Digest) :
    Mirrors group commit [] none (GroupOutbox.new group) :=
  ⟨fun _ h => absurd h List.not_mem_nil,
    ⟨GroupOutbox.new group, rfl, rfl, rfl, rfl, fun _ h => absurd h List.not_mem_nil⟩⟩

theorem groupId_eq (h : Mirrors group commit entries c live) :
    ∀ s ∈ live.sends, s.id.groupId = group := by
  obtain ⟨o, -, rfl, -, -, hsends⟩ := h.replayed
  rw [sends_cancelled]
  intro s hs
  obtain ⟨s', hs', rfl⟩ := List.mem_map.mp hs
  rw [LogicalSend.id_cancelled]
  exact (hsends s' hs').1

theorem nodup (h : Mirrors group commit entries c live) :
    (live.sends.map LogicalSend.id).Nodup := by
  obtain ⟨o, hreplay, rfl, -⟩ := h.replayed
  have hids : (o.cancelled c).sends.map LogicalSend.id = o.sends.map LogicalSend.id := by
    rw [sends_cancelled, List.map_map]
    exact List.map_congr_left fun s _ => LogicalSend.id_cancelled c s
  rw [hids]
  exact Entry.nodup_foldlM_replay hreplay List.nodup_nil

/-- Replaying the bytes of the records replays the records. -/
private theorem foldlM_layout (hvalid : ∀ e ∈ entries, e.Valid ∧ e.id.groupId = group)
    (o : GroupOutbox) :
    (entries.map Entry.layout).foldlM (replayEntry group c commit) o =
      entries.foldlM (Entry.replay c commit) o := by
  induction entries generalizing o with
  | nil => rfl
  | cons e entries ih =>
    obtain ⟨he, hvalid⟩ := List.forall_mem_cons.mp hvalid
    rw [List.map_cons, List.foldlM_cons, List.foldlM_cons, replayEntry_layout he.1 he.2]
    exact bind_congr fun o => ih hvalid o

/-- Recovery rebuilds the live outbox. -/
theorem recover_eq (h : Mirrors group commit entries c live) :
    recoverFromTranscriptAtRevision group (entries.map Entry.layout) c commit = .ok live := by
  obtain ⟨o, hreplay, rfl, -⟩ := h.replayed
  rw [recoverFromTranscriptAtRevision, foldlM_layout h.valid, hreplay]
  rfl

private theorem foldlM_concat {e : Entry} {o o' : GroupOutbox}
    (hreplay : entries.foldlM (Entry.replay c commit) (GroupOutbox.new group) = .ok o)
    (he : e.replay c commit o = .ok o') :
    (entries ++ [e]).foldlM (Entry.replay c commit) (GroupOutbox.new group) = .ok o' := by
  rw [List.foldlM_append, hreplay, ok_bind, List.foldlM_cons, he]
  rfl

variable (h : Mirrors group commit entries c live)
include h

private theorem valid_concat {e : Entry} (he : e.Valid) (hgroup : e.id.groupId = group) :
    ∀ e' ∈ entries ++ [e], e'.Valid ∧ e'.id.groupId = group :=
  List.forall_mem_append.mpr ⟨h.valid, List.forall_mem_singleton.mpr ⟨he, hgroup⟩⟩

/-- A recorded intent and its record keep the mirror. -/
theorem intent {send : LogicalSend} (hv : send.Valid) (hf : send.Fresh)
    (hrecord : live.record send = .ok (live', .inserted)) :
    Mirrors group commit (entries ++ [.intent send]) c live' := by
  obtain ⟨o, hreplay, rfl, hogroup, happlied, hsends⟩ := h.replayed
  obtain ⟨⟨hgroup, hne, hrevision, hbelow, hlive⟩, rfl⟩ := insert_eq_inserted_iff.mp hrecord
  have hcancelled : (send.cancelled c) = send := by
    refine LogicalSend.cancelled_of_not_ended ?_
    cases c with
    | none => rfl
    | some revision =>
      have hmax : max o.appliedRevision revision ≤ send.id.revision := hrevision
      rw [Word64.le_iff, Word64.toNat_max] at hmax
      have hlt : ¬send.id.revision < revision := by
        rw [Word64.lt_iff]
        omega
      exact decide_eq_false hlt
  have hinsert : o.insert send c = .ok ({ o with sends := o.sends ++ [send] }, .inserted) := by
    refine insert_eq_inserted_iff.mpr ⟨⟨hgroup.trans (groupId_cancelled c o), fun s hs => ?_, ?_,
      fun s hs => ?_, fun _ => (liveCount_le_cancelled c o).trans_lt (hlive rfl)⟩, rfl⟩
    · have := hne _ (sends_cancelled c o ▸ List.mem_map_of_mem hs)
      rwa [LogicalSend.id_cancelled] at this
    · rw [happlied]
      exact UInt64.zero_le
    · have := hbelow _ (sends_cancelled c o ▸ List.mem_map_of_mem hs)
      rwa [LogicalSend.id_cancelled] at this
  have hgroup' : send.id.groupId = group := by rw [hgroup, groupId_cancelled, hogroup]
  refine ⟨h.valid_concat ⟨hv, hf⟩ hgroup', _, foldlM_concat hreplay
    (Entry.replay_intent_eq_ok_iff.mpr hinsert), ?_, hogroup, happlied, ?_⟩
  · rw [cancelled_with c o (o.sends ++ [send]), List.map_append, List.map_singleton, hcancelled,
      sends_cancelled]
  · refine List.forall_mem_append.mpr ⟨hsends, List.forall_mem_singleton.mpr
      ⟨hgroup', fun p hp => ?_⟩⟩
    rw [hf] at hp
    obtain ⟨m, -, rfl⟩ := List.mem_map.mp hp
    exact fun _ hnone => nomatch hnone

/-- Progress of a recipient in the live outbox and a record that replays it keep the mirror. -/
theorem progress {α : Type} {id : LogicalMessageId}
    {f : LogicalSend → Except Error (LogicalSend × α)} {a : α}
    (hlive : live.sendMut id f = .ok (live', a)) {kind : ProgressKind}
    {context : ApplicationContext} {commitment : Digest} {ciphertext : Bytes}
    (hciphertext : ciphertext.length < 2 ^ 32)
    (hstep : ∀ s t, s.id = id → s.Committed commit → f (s.cancelled c) = .ok (t, a) →
      context.Valid ∧ (Entry.progress kind context commitment ciphertext).id = id ∧
        commitment = commit context.layout ∧ ∃ s', Entry.stepProgress kind context commitment
          ciphertext s = .ok (s', ()) ∧ t = s'.cancelled c ∧ s'.Committed commit) :
    Mirrors group commit (entries ++ [.progress kind context commitment ciphertext]) c live' := by
  obtain ⟨o, hreplay, rfl, hogroup, happlied, hsends⟩ := h.replayed
  obtain ⟨sends, hupdate, rfl⟩ := sendMut_eq_ok_iff.mp hlive
  obtain ⟨pre, x, post, t, hlivesends, hpre, hx, hfx, rfl⟩ := updateFirst_eq_ok_iff.mp hupdate
  rw [sends_cancelled] at hlivesends
  obtain ⟨before, rest, hosends, rfl, hrest⟩ := List.map_eq_append_iff.mp hlivesends
  obtain ⟨s, after, rfl, rfl, rfl⟩ := List.map_eq_cons_iff.mp hrest
  have hid : s.id = id := by rw [← LogicalSend.id_cancelled c s]; exact of_decide_eq_true hx
  have hs : s ∈ o.sends := hosends ▸ List.mem_append_right _ List.mem_cons_self
  obtain ⟨hv, hentry, hcommit, s', hs', rfl, hs'committed⟩ := hstep s t hid (hsends s hs).2 hfx
  have hmut : o.sendMut id (Entry.stepProgress kind context commitment ciphertext) =
      .ok ({ o with sends := before ++ s' :: after }, ()) := by
    refine sendMut_eq_ok_iff.mpr ⟨_, updateFirst_eq_ok_iff.mpr ⟨before, s, after, s', hosends,
      fun z hz => ?_, decide_eq_true hid, hs', rfl⟩, rfl⟩
    have := hpre _ (List.mem_map_of_mem hz)
    rwa [LogicalSend.id_cancelled] at this
  have hgroup : (Entry.progress kind context commitment ciphertext).id.groupId = group := by
    rw [hentry, ← hid, (hsends s hs).1]
  have hs'group : s'.id.groupId = group := by
    rw [Entry.id_of_stepProgress hs', (hsends s hs).1]
  refine ⟨h.valid_concat ⟨hv, hciphertext⟩ hgroup, { o with sends := before ++ s' :: after },
    foldlM_concat hreplay (Entry.replay_progress_eq_ok_iff.mpr ⟨hcommit, hentry.symm ▸ hmut⟩), ?_,
    hogroup, happlied, ?_⟩
  · rw [cancelled_with c o (before ++ s' :: after), List.map_append, List.map_cons]
  · rw [hosends] at hsends
    obtain ⟨hbefore, hrest⟩ := List.forall_mem_append.mp hsends
    exact List.forall_mem_append.mpr ⟨hbefore, List.forall_mem_cons.mpr
      ⟨⟨hs'group, hs'committed⟩, (List.forall_mem_cons.mp hrest).2⟩⟩

/-- Dropping the records of some sends, and the sends, keeps the mirror. -/
theorem keep (k : LogicalMessageId → Bool) :
    Mirrors group commit (entries.filter fun e => k e.id) c (live.keep k) := by
  obtain ⟨o, hreplay, rfl, hogroup, happlied, hsends⟩ := h.replayed
  exact ⟨fun e he => h.valid e (List.mem_filter.mp he).1, o.keep k,
    Entry.foldlM_replay_keep (fun _ hs => hs) k hreplay, keep_cancelled c k o, hogroup, happlied,
    fun s hs => hsends s (List.mem_filter.mp hs).1⟩

/-- Accepting a newer roster keeps the mirror. -/
theorem cancel {revision : UInt64} (hrevision : ∀ earlier ∈ c, earlier ≤ revision) :
    Mirrors group commit entries (some revision) (live.cancelForNewerRoster revision) := by
  obtain ⟨o, hreplay, rfl, hogroup, happlied, hsends⟩ := h.replayed
  have hcovers : Covers (some revision) c := by
    intro s hs
    rw [LogicalSend.staysLive_eq_not_ended, Bool.not_eq_eq_eq_not, Bool.not_true] at hs ⊢
    by_contra hended
    rw [Bool.not_eq_false] at hended
    rw [LogicalSend.ended_mono hrevision hended] at hs
    exact nomatch hs
  refine ⟨h.valid, o, ?_, ?_, hogroup, happlied, hsends⟩
  · have := Entry.foldlM_replay_keep hcovers (fun _ => true) hreplay
    rwa [List.filter_true, keep_true, keep_true] at this
  · exact cancelled_cancelForNewerRoster hrevision o

end Mirrors

end Tacenta.Group
