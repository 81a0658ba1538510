import Tacenta.Group.Receive

/-!
# The events of a receiver

The contexts a receiver accepts become events. A call of `receive` issues at most one; installing a
roster may issue one for each deferred context. This module lists the events of a run and reduces
what a call preserves to what one delivery and one change of roster preserve.

## Main definitions

* `GroupReceiver.Event`: an accepted context with its commitment and event id.
* `GroupReceiver.events`: the events issued along a log.

## Main results

* `GroupReceiver.machine_preserves`: an invariant of deliveries and of roster changes is an
  invariant of calls.
-/

namespace Tacenta.Group

namespace GroupReceiver

/-- An accepted context. -/
structure Event where
  context : ApplicationContext
  /-- The commitment it was accepted with. -/
  commitment : Digest
  /-- The event id it was given. -/
  eventId : UInt64
  deriving DecidableEq

/-- The event of a disposition, if it is an acceptance. -/
def Event.of? (context : ApplicationContext) (commitment : Digest) :
    ReceiveDisposition → Option Event
  | .accepted eventId => some ⟨context, commitment, eventId⟩
  | _ => none

def deliveryEvent? (entry : Delivery × ReceiveDisposition) : Option Event :=
  Event.of? entry.1.context entry.1.commitment entry.2

/-- The events of one call, in the order in which they were issued. -/
def callEvents : Call × Answer → List Event
  | (.receive d, .received disposition) => (deliveryEvent? (d, disposition)).toList
  | (.install _ _, .installed (.ok items)) =>
    items.filterMap fun item => Event.of? item.context item.commitment item.disposition
  | _ => []

/-- The events issued along a log, in order. -/
def events (log : List (Call × Answer)) : List Event := log.flatMap callEvents

theorem deliveryEvent?_eq_none {d : Delivery} {disposition : ReceiveDisposition}
    (h : ∀ eventId, disposition ≠ .accepted eventId) : deliveryEvent? (d, disposition) = none := by
  cases disposition with
  | accepted eventId => exact absurd rfl (h eventId)
  | _ => rfl

theorem events_append (log log' : List (Call × Answer)) :
    events (log ++ log') = events log ++ events log' := List.flatMap_append

private theorem filterMap_singleton {α β : Type*} (f : α → Option β) (a : α) :
    [a].filterMap f = (f a).toList := by
  cases h : f a <;> simp [h]

/-- What one delivery does to the state and to the events issued so far. -/
theorem deliver_preserves (P : GroupReceiver → List Event → Prop) (past : List Event)
    {r : GroupReceiver} {d : Delivery} (h : P r past)
    (haccept : r.Admits d.context d.peer → P (r.remember d.context.key d.commitment)
      (past ++ [⟨d.context, d.commitment, r.nextEventId⟩]))
    (hdefer : r.Defers d.context d.peer →
      P { r with deferred := r.deferred ++ [⟨d.context, d.commitment⟩] } past) :
    P (deliver r d).1 (past ++ (deliveryEvent? (d, (deliver r d).2)).toList) := by
  have hr := r.receive_received d.context d.peer d.commitment
  change r.Received d.context d.peer d.commitment (deliver r d) at hr
  generalize deliver r d = result at hr ⊢
  cases hr with
  | unchanged hd =>
    rw [deliveryEvent?_eq_none hd, Option.toList_none, List.append_nil]
    exact h
  | accepted ha => exact haccept ha
  | deferred hd =>
    change P _ (past ++ [])
    rw [List.append_nil]
    exact hdefer hd

/-- An invariant of the state and the events issued so far that every admitted delivery preserves,
whose deferred contexts are admitted, and that a change of roster preserves, is preserved by every
call. -/
theorem machine_preserves (P : GroupReceiver → List Event → Prop) (past : List Event)
    {A : Delivery → Prop}
    (hdeliver : ∀ r past d, P r past → A d →
      P (deliver r d).1 (past ++ (deliveryEvent? (d, (deliver r d).2)).toList))
    (hdeferred : ∀ r past, P r past → ∀ item ∈ r.deferred, A (.ofDeferred item))
    {r : GroupReceiver} {call : Call} (h : P r past)
    (hreceive : ∀ d, call = .receive d → A d)
    (hinstall : ∀ roster digest, call = .install roster digest →
      roster.groupId = r.roster.groupId → P (r.reset roster digest) past) :
    P (machine r call).1 (past ++ callEvents (call, (machine r call).2)) := by
  cases call with
  | receive d => exact hdeliver r past d h (hreceive d rfl)
  | install roster digest =>
    simp only [machine, installAcceptedRoster]
    split
    · simpa [callEvents] using h
    · next hgroup =>
      have hinitial : P (r.reset roster digest) (past ++ [].filterMap deliveryEvent?) := by
        simpa using hinstall roster digest rfl (not_not.mp hgroup)
      have hitems : Machine.Along deliver (fun _ d => A d) (r.reset roster digest)
          (r.deferred.map Delivery.ofDeferred) := by
        refine Machine.along_of_forall fun d hd => ?_
        obtain ⟨item, hitem, rfl⟩ := List.mem_map.mp hd
        exact hdeferred r past h item hitem
      have hrun := Machine.log_invariant (M := deliver) (A := fun _ d => A d)
        (fun r log => P r (past ++ log.filterMap deliveryEvent?)) ?_ hinitial hitems
      · rw [callEvents, List.filterMap_map]
        exact hrun
      · intro r log d hr hd
        have := hdeliver r _ d hr hd
        rwa [List.append_assoc, ← filterMap_singleton, ← List.filterMap_append] at this

theorem deliver_localMember (r : GroupReceiver) (d : Delivery) :
    (deliver r d).1.localMember = r.localMember :=
  deliver_preserves (fun s _ => s.localMember = r.localMember) [] rfl (fun _ => rfl) fun _ => rfl

theorem machine_localMember (r : GroupReceiver) (call : Call) :
    (machine r call).1.localMember = r.localMember :=
  machine_preserves (fun s _ => s.localMember = r.localMember) [] (A := fun _ => True)
    (fun s _ d hs _ => (deliver_localMember s d).trans hs) (fun _ _ _ _ _ => trivial) rfl
    (fun _ _ => trivial) fun _ _ _ _ => rfl

end GroupReceiver

end Tacenta.Group
