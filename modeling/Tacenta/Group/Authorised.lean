import Tacenta.Group.ReceiveEvents

/-!
# Every event is authorised

An event is issued only under an installed roster that is open, that the context names exactly and
that lists both its sender and the local member, and only for a context that an authenticated peer
delivered as its own, in this call or an earlier one. A deferred context may be judged again several
installations later; it keeps the provenance it was deferred with.

## Main definitions

* `GroupReceiver.Authorised`: what holds of an event when it is issued.

## Main results

* `GroupReceiver.events_authorised`: every event of every run is authorised.
-/

namespace Tacenta.Group

namespace GroupReceiver

/-- The peer delivered the context, with this commitment, as its own. -/
def Delivered (seen : List Delivery) (context : ApplicationContext) (commitment : Digest) : Prop :=
  ⟨context, context.sender, commitment⟩ ∈ seen

/-- The deliveries among the calls. -/
def deliveries (calls : List Call) : List Delivery :=
  calls.filterMap fun
    | .receive d => some d
    | .install _ _ => none

variable {d : Delivery} {seen : List Delivery} {r : GroupReceiver}

theorem mem_deliveries {calls : List Call} :
    d ∈ deliveries calls ↔ Call.receive d ∈ calls := by
  simp only [deliveries, List.mem_filterMap]
  constructor
  · rintro ⟨call, hcall, h⟩
    cases call with
    | receive d' => rwa [← Option.some.inj h]
    | install roster digest => exact nomatch h
  · exact fun h => ⟨.receive d, h, rfl⟩

/-- What holds of an event when the receiver issues it. -/
structure Authorised (r : GroupReceiver) (seen : List Delivery) (e : Event) : Prop where
  roster_open : r.roster.closed = false
  groupId_eq : e.context.groupId = r.roster.groupId
  revision_eq : e.context.revision = r.roster.revision
  digest_eq : e.context.rosterDigest = r.rosterDigest
  recipient_eq : e.context.recipient = r.localMember
  recipient_mem : e.context.recipient ∈ r.roster.members
  sender_mem : e.context.sender ∈ r.roster.members
  delivered : Delivered seen e.context e.commitment

/-- Every deferred context was delivered by its sender, and the events so far are authorised. -/
structure ProvenanceInv (seen : List Delivery) (r : GroupReceiver) (past : List Event) : Prop where
  deferred : ∀ item ∈ r.deferred, Delivered seen item.context item.commitment
  authorised : ∀ e ∈ past, r.Authorised seen e

theorem Admits.authorised (h : r.Admits d.context d.peer) (hd : d ∈ seen) (eventId : UInt64) :
    r.Authorised seen ⟨d.context, d.commitment, eventId⟩ := by
  obtain ⟨hopen, hlocal⟩ := isActive_iff.mp h.local_active
  refine ⟨hopen, h.groupId_eq, h.revision_eq, h.digest_eq, h.recipient_eq, ?_,
    (isActive_iff.mp h.sender_active).2, ?_⟩
  · rw [h.recipient_eq]
    exact hlocal
  · rw [Delivered, ← h.peer_eq]
    exact hd

theorem ProvenanceInv.deliver {past : List Event} (h : ProvenanceInv seen r past) (hd : d ∈ seen) :
    ProvenanceInv seen (deliver r d).1
      (past ++ (deliveryEvent? (d, (deliver r d).2)).toList) := by
  refine deliver_preserves (ProvenanceInv seen) past h (fun ha => ⟨h.deferred, ?_⟩)
    fun hdefers => ⟨?_, ?_⟩
  · intro e he
    have hremember : ∀ {e}, r.Authorised seen e →
        (r.remember d.context.key d.commitment).Authorised seen e :=
      fun ha => ⟨ha.1, ha.2, ha.3, ha.4, ha.5, ha.6, ha.7, ha.8⟩
    rcases List.mem_append.mp he with he | he
    · exact hremember (h.authorised e he)
    · obtain rfl := List.mem_singleton.mp he
      exact hremember (ha.authorised hd _)
  · intro item hitem
    rcases List.mem_append.mp hitem with hitem | hitem
    · exact h.deferred item hitem
    · obtain rfl := List.mem_singleton.mp hitem
      rw [Delivered, ← hdefers.peer_eq]
      exact hd
  · intro e he
    have ha := h.authorised e he
    exact ⟨ha.1, ha.2, ha.3, ha.4, ha.5, ha.6, ha.7, ha.8⟩

/-- One call issues authorised events only and keeps the provenance of what it defers. -/
theorem ProvenanceInv.machine (h : ProvenanceInv seen r []) (call : Call)
    (hcall : ∀ d, call = .receive d → d ∈ seen) :
    ProvenanceInv seen (machine r call).1 (callEvents (call, (machine r call).2)) :=
  machine_preserves (ProvenanceInv seen) [] (A := fun d => d ∈ seen)
    (fun _ _ _ hr hd => hr.deliver hd) (fun _ _ hr => hr.deferred) h hcall
    fun _ _ _ _ => ⟨nofun, nofun⟩

theorem run_provenance (roster : Roster) (digest : Digest) (localMember : Member)
    (calls : List Call) :
    ProvenanceInv (deliveries calls) (machine.run (new roster digest localMember) calls) [] := by
  have hrun := Machine.log_preserves (M := machine)
    (fun r log => ProvenanceInv (deliveries (log.map Prod.fst)) r [])
    (s := new roster digest localMember) ?_ ⟨nofun, nofun⟩ calls
  · rwa [Machine.map_fst_log] at hrun
  · intro r log call hr
    rw [List.map_append, List.map_singleton]
    have hgrow : ∀ d ∈ deliveries (log.map Prod.fst),
        d ∈ deliveries (log.map Prod.fst ++ [call]) := fun d hd =>
      mem_deliveries.mpr (List.mem_append_left _ (mem_deliveries.mp hd))
    have hgrown : ProvenanceInv (deliveries (log.map Prod.fst ++ [call])) r [] :=
      ⟨fun item hitem => hgrow _ (hr.deferred item hitem), nofun⟩
    refine ⟨(hgrown.machine call ?_).deferred, nofun⟩
    rintro d rfl
    exact mem_deliveries.mpr (List.mem_append_right _ (List.mem_singleton_self _))

/-- Whenever a call of a run issues an event, the installed roster is open, the context names its
group, revision and digest, the recipient is the local member, sender and recipient are listed, and
this or an earlier call delivered exactly this context with this commitment from its sender. -/
theorem events_authorised (roster : Roster) (digest : Digest) (localMember : Member)
    (before : List Call) (call : Call) :
    let r := machine.run (new roster digest localMember) before
    ∀ e ∈ callEvents (call, (machine r call).2),
      (machine r call).1.Authorised (deliveries (before ++ [call])) e ∧
        (machine r call).1.localMember = localMember := by
  intro r e he
  have hprov := run_provenance roster digest localMember before
  refine ⟨(ProvenanceInv.machine ⟨fun item hitem => ?_, nofun⟩ call ?_).authorised e he, ?_⟩
  · have hcall := mem_deliveries.mp (hprov.deferred item hitem)
    exact mem_deliveries.mpr (List.mem_append_left _ hcall)
  · rintro d rfl
    exact mem_deliveries.mpr (List.mem_append_right _ (List.mem_singleton_self _))
  · rw [machine_localMember]
    exact Machine.run_preserves (fun s => s.localMember = localMember)
      (s := new roster digest localMember) (fun s c hs => (machine_localMember s c).trans hs) rfl
      before

end GroupReceiver

end Tacenta.Group
