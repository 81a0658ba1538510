import Tacenta.Group.ReceiveEvents
import Tacenta.Library.ReplayWindow

/-!
# Each message is accepted at most once

The remembered acceptances of a receiver form a sliding replay window over each sender's sequence
numbers. As long as no sequence number is the largest 64-bit word, accepting a message moves the
window as the abstract one of `ReplayWindow` does, and no message is ever accepted twice. The
largest sequence number leaves the window at once, because the width is added with saturation, and
such a message is accepted again.

## Main definitions

* `GroupReceiver.window`: the remembered sequence numbers, by sender.
* `GroupReceiver.Orderly`: installed revisions increase.
* `GroupReceiver.Answered`: the answers to a context, with the events that they rest on.

## Main results

* `GroupReceiver.window_remember`: accepting a message moves the abstract window.
* `GroupReceiver.events_accepted_once`: no message is accepted twice, and event ids count up.
* `GroupReceiver.largest_sequence_accepted_twice`: the largest sequence number is the exception.
* `GroupReceiver.answers_by_history`: what is remembered decides as all the events so far do.
-/

namespace Tacenta.Group

namespace GroupReceiver

/-- The revision, sender and sequence number of an event. -/
def Event.identity (e : Event) : UInt64 × Member × UInt64 :=
  (e.context.revision, e.context.sender, e.context.logicalSequence)

/-- A roster of the receiver's group is installed only over a lower revision. -/
def Orderly (r : GroupReceiver) : Call → Prop
  | .receive _ => True
  | .install roster _ =>
    roster.groupId = r.roster.groupId → r.roster.revision < roster.revision

instance (r : GroupReceiver) : DecidablePred r.Orderly
  | .receive _ => isTrue trivial
  | .install roster _ => inferInstanceAs (Decidable (roster.groupId = r.roster.groupId →
      r.roster.revision < roster.revision))

/-- The call does not deliver the largest sequence number. -/
def Call.BelowLargest : Call → Prop
  | .receive d => d.context.logicalSequence ≠ Word64.maxValue
  | .install _ _ => True

instance : DecidablePred Call.BelowLargest
  | .receive d => inferInstanceAs (Decidable (d.context.logicalSequence ≠ Word64.maxValue))
  | .install _ _ => isTrue trivial

/-! ### The replay window -/

def width : ℕ := dedupWindow.toNat

/-- The remembered sequence numbers, by sender. -/
def window (r : GroupReceiver) (sender : Member) : Finset ℕ :=
  ((r.accepted.filter fun item => item.key.sender = sender).map
    fun item => item.key.sequence.toNat).toFinset

variable {r : GroupReceiver} {d : Delivery} {past : List Event}

theorem mem_window {sender : Member} {n : ℕ} :
    n ∈ r.window sender ↔
      ∃ item ∈ r.accepted, item.key.sender = sender ∧ item.key.sequence.toNat = n := by
  simp only [window, List.mem_toFinset, List.mem_map, List.mem_filter, decide_eq_true_eq, and_assoc]

private theorem lt_saturatingAdd_width {a b : UInt64} (h : a ≠ Word64.maxValue) :
    a < Word64.saturatingAdd b dedupWindow ↔ a.toNat < b.toNat + width := by
  rw [Word64.ne_maxValue_iff] at h
  rw [Word64.lt_iff, Word64.toNat_saturatingAdd, width]
  omega

/-- The remembered acceptances are of the installed roster and below the largest sequence. -/
structure Bounded (r : GroupReceiver) : Prop where
  groupId_eq : ∀ item ∈ r.accepted, item.key.groupId = r.roster.groupId
  revision_eq : ∀ item ∈ r.accepted, item.key.revision = r.roster.revision
  sequence_ne : ∀ item ∈ r.accepted, item.key.sequence ≠ Word64.maxValue
  deferred_ne : ∀ item ∈ r.deferred, item.context.logicalSequence ≠ Word64.maxValue

theorem Admits.not_refuses (hb : r.Bounded) {context : ApplicationContext} {peer : Member}
    (h : r.Admits context peer) :
    ¬ReplayWindow.Refuses width r.window context.sender context.logicalSequence.toNat := by
  rintro ⟨m, hm, hrefused⟩
  obtain ⟨item, hitem, hsender, rfl⟩ := mem_window.mp hm
  have hrev : item.key.revision = context.revision := by
    rw [hb.revision_eq item hitem, h.revision_eq]
  rcases hrefused with heq | hle
  · refine h.fresh item hitem ?_
    have hgroup : item.key.groupId = context.groupId := by
      rw [hb.groupId_eq item hitem, h.groupId_eq]
    have hseq : item.key.sequence = context.logicalSequence := Word64.eq_iff.mpr heq.symm
    rw [ApplicationContext.key, ← hgroup, ← hrev, ← hsender, ← hseq]
  · have hlt := h.unexpired item (mem_fromSender.mpr ⟨hitem, hsender, hrev⟩)
    rw [lt_saturatingAdd_width (hb.sequence_ne item hitem)] at hlt
    omega

/-- Accepting a message of the installed revision moves the abstract window. -/
theorem window_remember (hb : r.Bounded) {key : Key} (commitment : Digest)
    (hrev : key.revision = r.roster.revision) (hseq : key.sequence ≠ Word64.maxValue) :
    (r.remember key commitment).window =
      ReplayWindow.accept width r.window key.sender key.sequence.toNat := by
  have hinsert : ∀ {m : ℕ}, m ∈ insert key.sequence.toNat (r.window key.sender) ↔
      m = key.sequence.toNat ∨
        ∃ item ∈ r.accepted, item.key.sender = key.sender ∧ item.key.sequence.toNat = m :=
    fun {m} => by rw [Finset.mem_insert, mem_window]
  funext sender
  ext n
  rw [mem_window]
  by_cases hs : sender = key.sender
  · subst hs
    rw [ReplayWindow.mem_accept_self, hinsert]
    constructor
    · rintro ⟨item, hitem, hsender, rfl⟩
      obtain ⟨hold, hkeep⟩ := mem_remember.mp hitem
      have hitemrev : item.key.revision = key.revision := by
        rcases hold with hold | rfl
        · rw [hb.revision_eq item hold, hrev]
        · rfl
      obtain ⟨hk, hothers⟩ := hkeep hsender hitemrev
      refine ⟨?_, fun m' hm' => ?_⟩
      · rcases hold with hold | rfl
        · exact Or.inr ⟨item, hold, hsender, rfl⟩
        · exact Or.inl rfl
      · rcases hinsert.mp hm' with rfl | ⟨other, hother, hosender, rfl⟩
        · exact (lt_saturatingAdd_width hseq).mp hk
        · refine (lt_saturatingAdd_width (hb.sequence_ne other hother)).mp (hothers other ?_)
          exact mem_fromSender.mpr ⟨hother, hosender, by rw [hb.revision_eq other hother, hrev]⟩
    · rintro ⟨hmem, hall⟩
      have hkeep : ∀ {item : Accepted}, item.key.sequence.toNat = n →
          key.sequence < Word64.saturatingAdd item.key.sequence dedupWindow ∧
            ∀ other ∈ r.fromSender key.sender key.revision,
              other.key.sequence < Word64.saturatingAdd item.key.sequence dedupWindow := by
        rintro item rfl
        refine ⟨(lt_saturatingAdd_width hseq).mpr (hall _ (hinsert.mpr (Or.inl rfl))), ?_⟩
        intro other hother
        obtain ⟨hmem, hosender, -⟩ := mem_fromSender.mp hother
        exact (lt_saturatingAdd_width (hb.sequence_ne other hmem)).mpr
          (hall _ (hinsert.mpr (Or.inr ⟨other, hmem, hosender, rfl⟩)))
      rcases hmem with rfl | ⟨item, hitem, hsender, hn⟩
      · exact ⟨⟨key, commitment, r.nextEventId⟩,
          mem_remember.mpr ⟨Or.inr rfl, fun _ _ => hkeep rfl⟩, rfl, rfl⟩
      · exact ⟨item, mem_remember.mpr ⟨Or.inl hitem, fun _ _ => hkeep hn⟩, hsender, hn⟩
  · rw [ReplayWindow.accept_of_ne _ hs, mem_window]
    constructor
    · rintro ⟨item, hitem, rfl, hn⟩
      rcases (mem_remember.mp hitem).1 with hold | rfl
      · exact ⟨item, hold, rfl, hn⟩
      · exact absurd rfl hs
    · rintro ⟨item, hitem, rfl, hn⟩
      exact ⟨item, mem_remember.mpr ⟨Or.inl hitem, fun h => absurd h hs⟩, rfl, hn⟩

/-! ### No message is accepted twice -/

/-- Every event so far is of an earlier revision or refused by the window, and no two events have
the same identity. -/
structure OnceInv (r : GroupReceiver) (past : List Event) : Prop where
  bounded : r.Bounded
  revision_le : ∀ e ∈ past, e.context.revision.toNat ≤ r.roster.revision.toNat
  refuses : ∀ e ∈ past, e.context.revision = r.roster.revision →
    ReplayWindow.Refuses width r.window e.context.sender e.context.logicalSequence.toNat
  nodup : (past.map Event.identity).Nodup

theorem OnceInv.remember (h : r.OnceInv past) (hd : d.context.logicalSequence ≠ Word64.maxValue)
    (ha : r.Admits d.context d.peer) :
    (r.remember d.context.key d.commitment).OnceInv
      (past ++ [⟨d.context, d.commitment, r.nextEventId⟩]) := by
  have hrev : d.context.key.revision = r.roster.revision := ha.revision_eq
  have hwidth : 0 < width := by decide
  have hwindow := window_remember h.bounded d.commitment hrev hd
  refine ⟨⟨?_, ?_, ?_, h.bounded.deferred_ne⟩, ?_, ?_, ?_⟩
  · intro item hitem
    rcases (mem_remember.mp hitem).1 with hold | rfl
    · exact h.bounded.groupId_eq item hold
    · exact ha.groupId_eq
  · intro item hitem
    rcases (mem_remember.mp hitem).1 with hold | rfl
    · exact h.bounded.revision_eq item hold
    · exact hrev
  · intro item hitem
    rcases (mem_remember.mp hitem).1 with hold | rfl
    · exact h.bounded.sequence_ne item hold
    · exact hd
  · intro e he
    rcases List.mem_append.mp he with he | he
    · exact h.revision_le e he
    · obtain rfl := List.mem_singleton.mp he
      exact (congrArg UInt64.toNat hrev).le
  · intro e he herev
    rw [hwindow]
    rcases List.mem_append.mp he with he | he
    · exact (h.refuses e he herev).accept hwidth
    · obtain rfl := List.mem_singleton.mp he
      exact ReplayWindow.refuses_accept_self hwidth _ _ _
  · rw [List.map_append, List.nodup_append]
    refine ⟨h.nodup, List.nodup_singleton _, ?_⟩
    rintro _ hold _ hnew rfl
    obtain ⟨e, he, heq⟩ := List.mem_map.mp hold
    rw [List.map_singleton, List.mem_singleton, ← heq] at hnew
    simp only [Event.identity, Prod.mk.injEq] at hnew
    obtain ⟨herev, hesender, heseq⟩ := hnew
    refine ha.not_refuses h.bounded ?_
    rw [← hesender, ← heseq]
    exact h.refuses e he (herev.trans hrev)

theorem OnceInv.deliver (h : r.OnceInv past) (hd : d.context.logicalSequence ≠ Word64.maxValue) :
    (deliver r d).1.OnceInv (past ++ (deliveryEvent? (d, (deliver r d).2)).toList) := by
  refine deliver_preserves OnceInv past h (h.remember hd) fun _ => ?_
  refine ⟨⟨h.bounded.groupId_eq, h.bounded.revision_eq, h.bounded.sequence_ne, ?_⟩,
    h.revision_le, h.refuses, h.nodup⟩
  intro item hitem
  rcases List.mem_append.mp hitem with hitem | hitem
  · exact h.bounded.deferred_ne item hitem
  · obtain rfl := List.mem_singleton.mp hitem
    exact hd

theorem OnceInv.machine {call : Call} (h : r.OnceInv past) (ho : r.Orderly call)
    (hcall : call.BelowLargest) :
    (machine r call).1.OnceInv (past ++ callEvents (call, (machine r call).2)) := by
  refine machine_preserves OnceInv past (A := fun d => d.context.logicalSequence ≠ Word64.maxValue)
    (fun _ _ _ hr hd => hr.deliver hd) (fun _ _ hr => hr.bounded.deferred_ne) h ?_ ?_
  · rintro d rfl
    exact hcall
  · rintro roster digest rfl hgroup
    have hlt := Word64.lt_iff.mp (ho hgroup)
    refine ⟨⟨nofun, nofun, nofun, nofun⟩, ?_, ?_, h.nodup⟩
    · intro e he
      exact (h.revision_le e he).trans hlt.le
    · intro e he herev
      have hle := h.revision_le e he
      have heq := congrArg UInt64.toNat herev
      exact absurd hlt (not_lt.mpr (heq ▸ hle))

/-! ### Event ids -/

/-- The events so far are numbered in order, up to the largest event id. -/
structure Numbered (r : GroupReceiver) (past : List Event) : Prop where
  next_eq : r.nextEventId.toNat = min past.length (2 ^ 64 - 1)
  ids_eq : past.map (fun e => e.eventId.toNat) =
    (List.range past.length).map fun n => min n (2 ^ 64 - 1)

theorem Numbered.deliver (h : r.Numbered past) :
    (deliver r d).1.Numbered (past ++ (deliveryEvent? (d, (deliver r d).2)).toList) := by
  refine deliver_preserves Numbered past h (fun _ => ⟨?_, ?_⟩) fun _ => ⟨h.next_eq, h.ids_eq⟩
  · have h1 : (1 : UInt64).toNat = 1 := rfl
    rw [List.length_append, List.length_singleton]
    change (Word64.saturatingAdd r.nextEventId 1).toNat = _
    rw [Word64.toNat_saturatingAdd, h.next_eq, h1]
    omega
  · rw [List.map_append, h.ids_eq, List.length_append, List.length_singleton, List.range_succ,
      List.map_append, List.map_singleton, List.map_singleton, h.next_eq]

theorem Numbered.machine (h : r.Numbered past) (call : Call) :
    (machine r call).1.Numbered (past ++ callEvents (call, (machine r call).2)) :=
  machine_preserves Numbered past (A := fun _ => True) (fun _ _ _ hr _ => hr.deliver)
    (fun _ _ _ _ _ => trivial) h (fun _ _ => trivial) fun _ _ _ _ => ⟨h.next_eq, h.ids_eq⟩

/-- In every run of a new receiver the events are numbered `0, 1, 2, …` in the order they are
issued, while fewer than the largest word of them have been issued; and if installed revisions
increase and no call delivers the largest sequence number, no two events have the same revision,
sender and sequence number. -/
theorem events_accepted_once (roster : Roster) (digest : Digest) (localMember : Member)
    (calls : List Call) :
    let issued := events (machine.log (new roster digest localMember) calls)
    (issued.length < 2 ^ 64 - 1 →
      issued.map (fun e => e.eventId.toNat) = List.range issued.length) ∧
    (Machine.Along machine Orderly (new roster digest localMember) calls →
      (∀ call ∈ calls, call.BelowLargest) → (issued.map Event.identity).Nodup) := by
  intro issued
  constructor
  · intro hlt
    have hrun := Machine.log_preserves (M := machine) (fun r log => r.Numbered (events log))
      (s := new roster digest localMember) ?_ ⟨rfl, rfl⟩ calls
    · have hids : issued.map (fun e => e.eventId.toNat) = _ := hrun.ids_eq
      rw [hids]
      refine (List.map_congr_left fun n hn => ?_).trans (List.map_id _)
      have hlen : n < issued.length := List.mem_range.mp hn
      exact min_eq_left (by omega)
    · intro r log call hr
      rw [events_append]
      simpa [events] using hr.machine call
  · intro ho hbelow
    have hnew : (new roster digest localMember).OnceInv (events []) :=
      ⟨⟨nofun, nofun, nofun, nofun⟩, nofun, nofun, List.nodup_nil⟩
    have hrun := Machine.log_invariant (M := machine) (fun r log => r.OnceInv (events log)) ?_ hnew
      (Machine.along_and.mpr ⟨ho, Machine.along_of_forall hbelow⟩)
    · exact hrun.nodup
    · intro r log call hr hcall
      rw [events_append]
      simpa [events] using hr.machine hcall.1 hcall.2

open Sample in
/-- A run that installs a roster and delivers two messages meets the conditions, and its events
differ. -/
theorem events_accepted_once_sample :
    let roster := successor 1 (lengthCommitment genesis.layout) [alice, bob]
    let later := successor 2 (lengthCommitment roster.layout) [alice, bob]
    let message (sequence : UInt64) : Delivery :=
      ⟨⟨group, 2, lengthCommitment later.layout, alice, bob, sequence, []⟩, alice,
        FixedBytes.replicate digestLen 5⟩
    let start := new roster (lengthCommitment roster.layout) bob
    let calls : List Call := [.receive (message 0), .install later (lengthCommitment later.layout),
      .receive (message 1), .receive (message 0)]
    (events (machine.log start calls)).length = 2 ∧
      ((events (machine.log start calls)).map Event.identity).Nodup := by
  intro roster later message start calls
  exact ⟨by decide +kernel, (events_accepted_once roster _ bob calls).2 (by decide +kernel)
    (by decide +kernel)⟩

open Sample in
/-- The message with the largest sequence number is not remembered: delivered twice to a new
receiver, it is accepted twice. -/
theorem largest_sequence_accepted_twice :
    let roster := successor 1 (lengthCommitment genesis.layout) [alice, bob]
    let digest := lengthCommitment roster.layout
    let message : Delivery :=
      ⟨⟨group, 1, digest, alice, bob, Word64.maxValue, []⟩, alice, FixedBytes.replicate digestLen 5⟩
    let start := new roster digest bob
    let calls : List Call := [.receive message, .receive message]
    roster.Valid ∧ message.context.Valid ∧ Machine.Along machine Orderly start calls ∧
      events (machine.log start calls) =
        [⟨message.context, message.commitment, 0⟩, ⟨message.context, message.commitment, 1⟩] ∧
      ¬((events (machine.log start calls)).map Event.identity).Nodup := by
  intro roster digest message start calls
  exact ⟨by decide +kernel, by decide +kernel, by decide +kernel, by decide +kernel,
    by decide +kernel⟩

/-! ### What decides an answer -/

/-- The context is of the installed roster, for this receiver, and from the peer it names. -/
structure Current (r : GroupReceiver) (d : Delivery) : Prop
    extends Addressed r d.context d.peer where
  sender_active : r.isActive d.context.sender = true
  revision_eq : d.context.revision = r.roster.revision
  digest_eq : d.context.rosterDigest = r.rosterDigest

theorem Current.deliver_eq (h : r.Current d) :
    deliver r d = r.acceptCurrent d.context.key d.commitment := by
  have hlt : ¬r.roster.revision < r.roster.revision := by simp
  simp [deliver, receive, h.peer_eq, h.groupId_eq, h.recipient_eq, h.local_active, h.sender_active,
    h.revision_eq, h.digest_eq, hlt]

/-- What is remembered are events. -/
def Recalls (r : GroupReceiver) (past : List Event) : Prop :=
  ∀ item ∈ r.accepted, ∃ e ∈ past, item = ⟨e.context.key, e.commitment, e.eventId⟩

theorem Recalls.deliver (h : r.Recalls past) :
    (deliver r d).1.Recalls (past ++ (deliveryEvent? (d, (deliver r d).2)).toList) := by
  refine deliver_preserves Recalls past h (fun _ item hitem => ?_) fun _ => h
  rcases (mem_remember.mp hitem).1 with hold | rfl
  · obtain ⟨e, he, heq⟩ := h item hold
    exact ⟨e, List.mem_append_left _ he, heq⟩
  · exact ⟨_, List.mem_append_right _ (List.mem_singleton_self _), rfl⟩

theorem Recalls.machine (h : r.Recalls past) (call : Call) :
    (machine r call).1.Recalls (past ++ callEvents (call, (machine r call).2)) :=
  machine_preserves Recalls past (A := fun _ => True) (fun _ _ _ hr _ => hr.deliver)
    (fun _ _ _ _ _ => trivial) h (fun _ _ => trivial) fun _ _ _ _ _ hitem =>
      absurd hitem List.not_mem_nil

/-- The event is of the context's sender under the same roster. -/
def Event.Rivals (e : Event) (d : Delivery) : Prop :=
  e.context.revision = d.context.revision ∧ e.context.sender = d.context.sender

/-- The possible answers to a context, and the events so far that they rest on. -/
inductive Answered (r : GroupReceiver) (past : List Event) (d : Delivery) :
    ReceiveDisposition → Prop
  | accepted (h : ∀ e ∈ past, e.Rivals d →
      e.context.logicalSequence ≠ d.context.logicalSequence ∧
        e.context.logicalSequence.toNat < d.context.logicalSequence.toNat + width) :
      Answered r past d (.accepted r.nextEventId)
  | duplicate (e : Event) (he : e ∈ past) (hkey : e.context.key = d.context.key)
      (h : e.commitment = d.commitment) : Answered r past d (.duplicate e.eventId)
  | conflict (e : Event) (he : e ∈ past) (hkey : e.context.key = d.context.key)
      (h : e.commitment ≠ d.commitment) : Answered r past d (.rejected .conflict)
  | expired (e : Event) (he : e ∈ past) (hrivals : e.Rivals d)
      (h : d.context.logicalSequence.toNat + width ≤ e.context.logicalSequence.toNat) :
      Answered r past d (.rejected .sequenceExpired)

theorem Current.answered (hd : r.Current d) (h : r.OnceInv past) (hrecalls : r.Recalls past) :
    Answered r past d (deliver r d).2 := by
  have hdeliver := hd.deliver_eq
  rw [acceptCurrent] at hdeliver
  split at hdeliver
  · next item hfound =>
    obtain ⟨e, he, rfl⟩ := hrecalls item (List.mem_of_find?_eq_some hfound)
    have hkey : e.context.key = d.context.key := by simpa using List.find?_some hfound
    rw [hdeliver]
    split
    · next hsame => exact .duplicate e he hkey hsame
    · next hother => exact .conflict e he hkey hother
  · split at hdeliver
    · next hold =>
      obtain ⟨item, hitem, hle⟩ := newest_any_le.mp hold
      obtain ⟨hmem, hsender, hrevision⟩ := mem_fromSender.mp hitem
      have hne := h.bounded.sequence_ne item hmem
      rw [Word64.ne_maxValue_iff] at hne
      rw [Word64.le_iff, Word64.toNat_saturatingAdd] at hle
      have hsequence : d.context.logicalSequence.toNat + width ≤ item.key.sequence.toNat := by
        change min (d.context.logicalSequence.toNat + width) _ ≤ _ at hle
        omega
      obtain ⟨e, he, rfl⟩ := hrecalls item hmem
      rw [hdeliver]
      exact .expired e he ⟨hrevision, hsender⟩ hsequence
    · have hreceived := r.receive_received d.context d.peer d.commitment
      change r.Received _ _ _ (deliver r d) at hreceived
      have haccepted : (deliver r d).2 = .accepted r.nextEventId := congrArg Prod.snd hdeliver
      rw [haccepted]
      generalize deliver r d = result at hreceived haccepted
      cases hreceived with
      | unchanged hne => exact absurd haccepted (hne _)
      | deferred => cases haccepted
      | accepted ha =>
        -- what the window refuses is no more than what some event refuses
        refine .accepted fun e he hrivals => ?_
        have hnot := ha.not_refuses h.bounded
        have hrefuses := h.refuses e he (hrivals.1.trans ha.revision_eq)
        rw [hrivals.2] at hrefuses
        refine ⟨fun heq => hnot (heq ▸ hrefuses), ?_⟩
        by_contra hle
        obtain ⟨m, hm, hmax⟩ := hrefuses
        exact hnot ⟨m, hm, .inr (by omega)⟩

/-- In every run in which installed revisions increase and no call delivers the largest sequence
number, what is remembered decides about a further context of the installed roster as all the events
so far do: it is accepted exactly if none of its revision and sender has its sequence number or one
a window above it, and otherwise the answer names the reason among the events. -/
theorem answers_by_history (roster : Roster) (digest : Digest) (localMember : Member)
    (calls : List Call) (horderly : machine.Along Orderly (new roster digest localMember) calls)
    (hbelow : ∀ call ∈ calls, call.BelowLargest)
    (hd : (machine.run (new roster digest localMember) calls).Current d) :
    let r := machine.run (new roster digest localMember) calls
    Answered r (events (machine.log (new roster digest localMember) calls)) d (deliver r d).2 := by
  have hnew : (new roster digest localMember).OnceInv (events []) ∧
      (new roster digest localMember).Recalls (events []) :=
    ⟨⟨⟨nofun, nofun, nofun, nofun⟩, nofun, nofun, List.nodup_nil⟩, nofun⟩
  have hrun := Machine.log_invariant (M := machine)
    (fun r log => r.OnceInv (events log) ∧ r.Recalls (events log)) (fun r log call hr hcall => ?_)
    hnew (Machine.along_and.mpr ⟨horderly, Machine.along_of_forall hbelow⟩)
  · exact hd.answered hrun.1 hrun.2
  · rw [events_append]
    exact ⟨by simpa [events] using hr.1.machine hcall.1 hcall.2,
      by simpa [events] using hr.2.machine call⟩

open Sample in
/-- A message is delivered again after its event: the answer rests on that event. -/
theorem answers_by_history_sample :
    let roster := successor 1 (lengthCommitment genesis.layout) [alice, bob]
    let digest := lengthCommitment roster.layout
    let message : Delivery :=
      ⟨⟨group, 1, digest, alice, bob, 7, []⟩, alice, FixedBytes.replicate digestLen 5⟩
    let r := machine.run (new roster digest bob) [.receive message]
    (deliver r message).2 = .duplicate 0 ∧ Answered r
      (events (machine.log (new roster digest bob) [.receive message])) message
        (deliver r message).2 := by
  intro roster digest message r
  refine ⟨by decide +kernel, answers_by_history roster digest bob [.receive message]
    (by decide +kernel) (by decide +kernel) ⟨⟨?_, ?_, ?_, ?_⟩, ?_, ?_, ?_⟩⟩ <;> decide +kernel

end GroupReceiver

end Tacenta.Group
