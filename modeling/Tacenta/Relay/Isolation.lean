import Tacenta.Relay.Budgets

/-!
# Users of the relay do not affect each other

What a user sees of the relay is the answers to the polls, acknowledgements and delivery queries of
their devices and to the sends to their devices. All of it depends on the user's own queues and byte
count, as long as the ceiling of the whole relay refuses no send to the user. Two runs with the same
such requests therefore give the same answers, whatever else is requested in them.

## Main definitions

* `requests`: runs of requests of authenticated devices.
* `Concerns`: the requests of a user's devices and the sends to them.
* `BelowCeiling`: the ceiling of the relay does not refuse a send to the user.
* `Agree`: two relays with the same queues and byte count of a user.

## Main results

* `agree_of_not_concerns`, `Agree.handle`: the two unwinding steps.
* `handle_send`, `handle_others`: what a request leaves of the queues of other devices.
* `users_isolated`: the statements over runs.
-/

open ByteString Tacenta.Wire

namespace Tacenta

namespace Relay

/-- The relay answers requests of authenticated devices. -/
def requests : Machine Relay (DeviceAddr × Request) Response := fun r i => r.handle i.1 i.2

/-- A poll, an acknowledgement or a query of a device of the user, or a send to one. -/
def Concerns (user : String) : DeviceAddr × Request → Bool
  | (_, .send recipient _) => recipient.user = user
  | (authorized, .poll _) => authorized.user = user
  | (authorized, .ack _ _) => authorized.user = user
  | (authorized, .delivered _) => authorized.user = user

/-- The ceiling of the whole relay does not refuse the send, if it is one to the user. -/
def BelowCeiling (user : String) (r : Relay) : DeviceAddr × Request → Prop
  | (authorized, .send recipient envelope) =>
    let size := (⟨authorized, envelope⟩ : StoredMessage).byteLen
    recipient.user = user → size ≤ maxEnvelopeBytes →
      Word64.saturate (r.totalBytes + size) ≤ r.maxTotalBytes
  | (_, .poll _) => True
  | (_, .ack _ _) => True
  | (_, .delivered _) => True

/-- Two relays with the same queues and byte count of a user. -/
structure Agree (user : String) (r s : Relay) : Prop where
  queues : ∀ d, d.user = user → r.queues.lookup d = s.queues.lookup d
  userBytes : (r.userBytes.lookup user).getD 0 = (s.userBytes.lookup user).getD 0

section

variable {user : String} {r s : Relay}

namespace Agree

theorem refl (user : String) (r : Relay) : Agree user r r := ⟨fun _ _ => rfl, rfl⟩

theorem symm (h : Agree user r s) : Agree user s r :=
  ⟨fun d hd => (h.queues d hd).symm, h.userBytes.symm⟩

theorem trans {t : Relay} (h : Agree user r s) (h' : Agree user s t) : Agree user r t :=
  ⟨fun d hd => (h.queues d hd).trans (h'.queues d hd), h.userBytes.trans h'.userBytes⟩

theorem pending (h : Agree user r s) {d : DeviceAddr} (hd : d.user = user) :
    r.pending d = s.pending d := by
  rw [Relay.pending, Relay.pending, h.queues d hd]

theorem cursor (h : Agree user r s) {d : DeviceAddr} (hd : d.user = user) :
    r.cursor d = s.cursor d := by
  rw [Relay.cursor, Relay.cursor, h.queues d hd]

end Agree

/-! ### Sends -/

theorem agree_enqueue {recipient : DeviceAddr} (hne : recipient.user ≠ user) (source : DeviceAddr)
    (envelope : Envelope) : Agree user (r.enqueue recipient source envelope).1 r := by
  have hqueue (queue : Queue) (d : DeviceAddr) (hd : d.user = user) :
      (r.queues.insert recipient queue).lookup d = r.queues.lookup d :=
    AList.lookup_insert_ne fun he => hne (he ▸ hd)
  rw [enqueue]
  dsimp only
  split
  · exact .refl user r
  split
  · exact .refl user r
  split
  · exact .refl user r
  split
  · exact ⟨hqueue _, congrArg (Option.getD · 0) (AList.lookup_insert_ne (Ne.symm hne))⟩
  · exact ⟨hqueue _, rfl⟩

/-- A send to the user that the ceiling does not refuse depends on the user's part only. -/
theorem Agree.enqueue (h : Agree user r s) {recipient source : DeviceAddr} {envelope : Envelope}
    (hrecipient : recipient.user = user)
    (hr : BelowCeiling user r (source, .send recipient envelope))
    (hs : BelowCeiling user s (source, .send recipient envelope)) :
    (r.enqueue recipient source envelope).2 = (s.enqueue recipient source envelope).2 ∧
      Agree user (r.enqueue recipient source envelope).1
        (s.enqueue recipient source envelope).1 := by
  have hqueue (queue : Queue) (d : DeviceAddr) (hd : d.user = user) :
      (r.queues.insert recipient queue).lookup d = (s.queues.insert recipient queue).lookup d := by
    rw [Table.lookup_insert_eq, Table.lookup_insert_eq, h.queues d hd]
  have hbytes := h.userBytes
  rw [← hrecipient] at hbytes
  rw [Relay.enqueue, Relay.enqueue]
  dsimp only
  split
  · exact ⟨rfl, h⟩
  next hsize =>
  rw [not_lt] at hsize
  rw [if_neg (hr hrecipient hsize).not_gt, if_neg (hs hrecipient hsize).not_gt, hbytes]
  split
  · exact ⟨rfl, h⟩
  rw [h.queues recipient hrecipient]
  split
  · refine ⟨rfl, hqueue _, ?_⟩
    dsimp only
    rw [hrecipient, AList.lookup_insert, AList.lookup_insert]
  · exact ⟨rfl, hqueue _, h.userBytes⟩

/-! ### Acknowledgements -/

theorem agree_ack {device : DeviceAddr} (hne : device.user ≠ user) (upTo : UInt64) :
    Agree user (r.ack device upTo).1 r := by
  have hqueue (queue : Queue) (d : DeviceAddr) (hd : d.user = user) :
      (r.queues.insert device queue).lookup d = r.queues.lookup d :=
    AList.lookup_insert_ne fun he => hne (he ▸ hd)
  rw [ack]
  cases r.queues.lookup device with
  | none => exact .refl user r
  | some queue =>
    dsimp only
    split
    · cases r.userBytes.lookup device.user with
      | none => exact ⟨hqueue _, rfl⟩
      | some bytes =>
        exact ⟨hqueue _, congrArg (Option.getD · 0) (AList.lookup_insert_ne (Ne.symm hne))⟩
    · exact .refl user r

theorem ack_of_lookup {device : DeviceAddr} {queue : Queue}
    (hlookup : r.queues.lookup device = some queue) (upTo : UInt64) :
    (r.ack device upTo).2 = (queue.ack upTo).2 ∧
      (∀ d, (r.ack device upTo).1.queues.lookup d =
        if d = device ∧ (queue.ack upTo).2 then some (queue.ack upTo).1 else r.queues.lookup d) ∧
      ((r.ack device upTo).1.userBytes.lookup device.user).getD 0 =
        (r.userBytes.lookup device.user).getD 0 -
          if (queue.ack upTo).2 then queue.pendingBytes - (queue.ack upTo).1.pendingBytes
          else 0 := by
  rw [ack, hlookup]
  dsimp only
  cases hack : (queue.ack upTo).2 with
  | false => exact ⟨rfl, fun d => by simp, rfl⟩
  | true =>
    refine ⟨rfl, fun d => ?_, ?_⟩
    · simp only [if_true, and_true]
      exact Table.lookup_insert_eq _ _ _ _
    · simp only [if_true]
      cases hbytes : r.userBytes.lookup device.user with
      | none =>
        dsimp only
        rw [hbytes]
        exact (Nat.zero_sub _).symm
      | some bytes =>
        dsimp only
        rw [AList.lookup_insert]
        rfl

/-- An acknowledgement of a device of the user depends on the user's part only. -/
theorem Agree.ack (h : Agree user r s) {device : DeviceAddr} (hdevice : device.user = user)
    (upTo : UInt64) :
    (r.ack device upTo).2 = (s.ack device upTo).2 ∧
      Agree user (r.ack device upTo).1 (s.ack device upTo).1 := by
  have hlookup := h.queues device hdevice
  cases hr : r.queues.lookup device with
  | none =>
    have hs := hlookup.symm.trans hr
    rw [Relay.ack, Relay.ack, hr, hs]
    exact ⟨rfl, h⟩
  | some queue =>
    obtain ⟨hranswer, hrqueues, hrbytes⟩ := ack_of_lookup hr upTo
    obtain ⟨hsanswer, hsqueues, hsbytes⟩ := ack_of_lookup (hlookup.symm.trans hr) upTo
    refine ⟨hranswer.trans hsanswer.symm, fun d hd => ?_, ?_⟩
    · rw [hrqueues, hsqueues, h.queues d hd]
    · rw [← hdevice, hrbytes, hsbytes, hdevice, h.userBytes]

/-! ### Requests -/

/-- A request that does not concern a user changes nothing of theirs. -/
theorem agree_of_not_concerns {i : DeviceAddr × Request} (hi : Concerns user i = false) :
    Agree user (requests r i).1 r := by
  obtain ⟨authorized, request⟩ := i
  rw [requests]
  have hhandled := r.handle_handled authorized request
  generalize r.handle authorized request = result at hhandled ⊢
  cases hhandled with
  | sent recipient envelope => exact agree_enqueue (of_decide_eq_false hi) authorized envelope
  | acked upTo => exact agree_ack (of_decide_eq_false hi) upTo
  | answered => exact .refl user r

/-- A request that concerns a user is answered the same by relays that agree on the user. -/
theorem Agree.handle (h : Agree user r s) {i : DeviceAddr × Request} (hi : Concerns user i = true)
    (hr : BelowCeiling user r i) (hs : BelowCeiling user s i) :
    (requests r i).2 = (requests s i).2 ∧ Agree user (requests r i).1 (requests s i).1 := by
  obtain ⟨authorized, request⟩ := i
  rw [requests, requests]
  cases request with
  | send recipient envelope =>
    obtain ⟨hanswer, hagree⟩ := h.enqueue (of_decide_eq_true hi) hr hs
    exact ⟨congrArg Enqueued.response hanswer, hagree⟩
  | poll device =>
    have hauthorized : authorized.user = user := of_decide_eq_true hi
    rw [Relay.handle, Relay.handle]
    split
    · next hdevice =>
      have huser : device.user = user := (congrArg DeviceAddr.user hdevice).trans hauthorized
      rw [h.cursor huser, h.pending huser]
      exact ⟨rfl, h⟩
    · exact ⟨rfl, h⟩
  | ack device upTo =>
    have hauthorized : authorized.user = user := of_decide_eq_true hi
    rw [Relay.handle, Relay.handle]
    split
    · next hdevice =>
      obtain ⟨hanswer, hagree⟩ := h.ack ((congrArg DeviceAddr.user hdevice).trans hauthorized) upTo
      exact ⟨congrArg Response.acked hanswer, hagree⟩
    · exact ⟨rfl, h⟩
  | delivered devices =>
    have hauthorized : authorized.user = user := of_decide_eq_true hi
    rw [Relay.handle, Relay.handle]
    split
    · next hdevices =>
      have hcursors : devices.map r.cursor = devices.map s.cursor := by
        refine List.map_congr_left fun d hd => h.cursor ?_
        exact (of_decide_eq_true (List.all_eq_true.mp hdevices d hd)).trans hauthorized
      rw [hcursors]
      exact ⟨rfl, h⟩
    · exact ⟨rfl, h⟩

/-! ### Other devices -/

theorem Queue.enqueue_cases (q : Queue) (m : StoredMessage) :
    (q.enqueue m).1.cursor = q.cursor ∧
      ((q.enqueue m).1.pending = q.pending ++ [m] ∧ (q.enqueue m).2 = .ok ∨
        (q.enqueue m).1.pending = q.pending ∧ (q.enqueue m).2 ≠ .ok) := by
  rw [Queue.enqueue]
  split
  · exact ⟨rfl, .inr ⟨rfl, by simp⟩⟩
  split
  · exact ⟨rfl, .inr ⟨rfl, by simp⟩⟩
  · exact ⟨rfl, .inl ⟨Queue.pending_append q m _, rfl⟩⟩

theorem Enqueued.response_eq_ok {e : Enqueued} : e.response = .ok ↔ e = .ok := by
  cases e <;> simp [Enqueued.response]

/-- A send appends its message to the queue of the recipient if it is accepted, and changes no queue
otherwise. -/
theorem handle_send (r : Relay) (authorized recipient : DeviceAddr) (envelope : Envelope)
    (d : DeviceAddr) :
    let result := r.handle authorized (.send recipient envelope)
    result.1.cursor d = r.cursor d ∧
      (recipient = d → result.2 = .ok →
        result.1.pending d = r.pending d ++ [⟨authorized, envelope⟩]) ∧
      (¬(recipient = d ∧ result.2 = .ok) → result.1.pending d = r.pending d) := by
  dsimp only
  rw [handle]
  simp only [cursor_eq_queueOf, pending_eq_queueOf, Enqueued.response_eq_ok]
  rcases r.enqueue_queueOf recipient authorized envelope with ⟨hqueue, hresult⟩ | ⟨hqueue, hnot⟩
  · rw [hqueue d, hresult]
    by_cases hrecipient : recipient = d
    · subst hrecipient
      rw [if_pos rfl]
      obtain ⟨hcursor, ⟨happend, hok⟩ | ⟨hsame, hnot⟩⟩ :=
        (r.queueOf recipient).enqueue_cases ⟨authorized, envelope⟩
      · exact ⟨hcursor, fun _ _ => happend, fun h => absurd ⟨rfl, hok⟩ h⟩
      · exact ⟨hcursor, fun _ hok => absurd hok hnot, fun _ => hsame⟩
    · rw [if_neg hrecipient]
      exact ⟨rfl, fun h => absurd h hrecipient, fun _ => rfl⟩
  · rw [hqueue d]
    exact ⟨rfl, fun _ hok => absurd hok hnot, fun _ => rfl⟩

/-- What a request leaves of the queue of another device: all of it, followed by the message of an
accepted send to the device. -/
theorem handle_others (r : Relay) (authorized : DeviceAddr) (request : Request) {d : DeviceAddr}
    (hd : d ≠ authorized) :
    let result := r.handle authorized request
    result.1.cursor d = r.cursor d ∧
      (∀ envelope, request = .send d envelope → result.2 = .ok →
        result.1.pending d = r.pending d ++ [⟨authorized, envelope⟩]) ∧
      ((∀ envelope, request = .send d envelope → result.2 ≠ .ok) →
        result.1.pending d = r.pending d) := by
  have hhandled := r.handle_handled authorized request
  generalize hresult : r.handle authorized request = result at hhandled ⊢
  cases hhandled with
  | sent recipient envelope =>
    obtain ⟨hcursor, happend, hsame⟩ := r.handle_send authorized recipient envelope d
    rw [hresult] at hcursor happend hsame
    refine ⟨hcursor, fun _ hrequest hok => ?_, fun h => hsame ?_⟩
    · cases hrequest
      exact happend rfl hok
    · rintro ⟨rfl, hok⟩
      exact h envelope rfl hok
  | acked upTo =>
    simp only [cursor_eq_queueOf, pending_eq_queueOf]
    rcases r.ack_queueOf authorized upTo with ⟨hqueue, -⟩ | ⟨hsame, -⟩
    · rw [hqueue d, if_neg hd.symm]
      exact ⟨rfl, fun _ h => (by cases h), fun _ => rfl⟩
    · rw [hsame]
      exact ⟨rfl, fun _ h => (by cases h), fun _ => rfl⟩
  | answered hsend => exact ⟨rfl, fun _ h => absurd h (hsend d _), fun _ => rfl⟩

/-! ### Runs -/

/-- The count that a query of delivered messages is answered with. -/
theorem handle_delivered {authorized : DeviceAddr} {devices : List DeviceAddr} {count : UInt64}
    (h : (r.handle authorized (.delivered devices)).2 = .deliveredCount count) :
    (∀ d ∈ devices, d.user = authorized.user) ∧ (devices = [] → count = 0) ∧
      (devices ≠ [] → (∃ d ∈ devices, r.cursor d = count) ∧ ∀ d ∈ devices, count ≤ r.cursor d) := by
  rw [handle] at h
  split at h
  · next hdevices =>
    cases h
    refine ⟨fun d hd => of_decide_eq_true (List.all_eq_true.mp hdevices d hd), ?_, fun hne => ?_⟩
    · rintro rfl
      rfl
    · cases hmin : (devices.map r.cursor).min? with
      | none => exact absurd (List.map_eq_nil_iff.mp (List.min?_eq_none_iff.mp hmin)) hne
      | some least =>
        obtain ⟨hleast, hle⟩ := List.min?_eq_some_iff.mp hmin
        obtain ⟨d, hd, rfl⟩ := List.mem_map.mp hleast
        exact ⟨⟨d, hd, rfl⟩, fun d' hd' => hle _ (List.mem_map_of_mem hd')⟩
  · cases h

/-- Users of the relay are isolated: in two runs with the same requests that concern a user, where
the ceiling of the whole relay refuses no send to the user, these requests have the same answers; a
request leaves the queues of other devices as they are, except that an accepted send appends its
message to the recipient's; and a query of delivered messages is answered for devices of the asking
user only. -/
theorem users_isolated :
    (∀ (user : String) (inputs inputs' : List (DeviceAddr × Request)),
      inputs.filter (Concerns user) = inputs'.filter (Concerns user) →
      Machine.Along requests (BelowCeiling user) Relay.new inputs →
      Machine.Along requests (BelowCeiling user) Relay.new inputs' →
      (Machine.log requests Relay.new inputs).filter (fun entry => Concerns user entry.1) =
        (Machine.log requests Relay.new inputs').filter (fun entry => Concerns user entry.1)) ∧
    ∀ (inputs : List (DeviceAddr × Request)) (authorized : DeviceAddr),
      let r := Machine.run requests Relay.new inputs
      (∀ (request : Request) (d : DeviceAddr), d ≠ authorized →
        let result := r.handle authorized request
        result.1.cursor d = r.cursor d ∧
          (∀ envelope, request = .send d envelope → result.2 = .ok →
            result.1.pending d = r.pending d ++ [⟨authorized, envelope⟩]) ∧
          ((∀ envelope, request = .send d envelope → result.2 ≠ .ok) →
            result.1.pending d = r.pending d)) ∧
      ∀ (devices : List DeviceAddr) (count : UInt64),
        (r.handle authorized (.delivered devices)).2 = .deliveredCount count →
        (∀ d ∈ devices, d.user = authorized.user) ∧ (devices = [] → count = 0) ∧
          (devices ≠ [] →
            (∃ d ∈ devices, r.cursor d = count) ∧ ∀ d ∈ devices, count ≤ r.cursor d) := by
  constructor
  · intro user inputs inputs' hsame hbelow hbelow'
    exact Machine.filter_log_eq (R := Agree user)
      (fun _ _ _ h hi => (agree_of_not_concerns hi).trans h)
      (fun _ _ _ h hi => h.trans (agree_of_not_concerns hi).symm)
      (fun _ _ _ h hi hr hs => h.handle hi hr hs) (.refl user Relay.new) hbelow hbelow' hsame
  · intro inputs authorized r
    exact ⟨fun request d hd => handle_others r authorized request hd,
      fun devices count h => handle_delivered h⟩

/-- A message and a poll of its recipient. -/
def sampleRequests : List (DeviceAddr × Request) :=
  [(⟨"alice", 1⟩, .send ⟨"bob", 1⟩ ⟨.dm, [1]⟩), (⟨"bob", 1⟩, .poll ⟨"bob", 1⟩)]

/-- The same with requests of others. -/
def busyRequests : List (DeviceAddr × Request) :=
  [(⟨"alice", 1⟩, .send ⟨"carol", 1⟩ ⟨.dm, [2]⟩), (⟨"alice", 1⟩, .send ⟨"bob", 1⟩ ⟨.dm, [1]⟩),
    (⟨"carol", 1⟩, .ack ⟨"carol", 1⟩ 1), (⟨"bob", 1⟩, .poll ⟨"bob", 1⟩)]

theorem users_isolated_sample :
    sampleRequests.filter (Concerns "bob") = busyRequests.filter (Concerns "bob") ∧
      (Machine.log requests Relay.new sampleRequests).filter (fun entry => Concerns "bob" entry.1) =
        (Machine.log requests Relay.new busyRequests).filter
          (fun entry => Concerns "bob" entry.1) ∧
      (Relay.new.handle ⟨"alice", 1⟩ (.send ⟨"bob", 1⟩ ⟨.dm, [1]⟩)).1.pending ⟨"bob", 1⟩ =
        Relay.new.pending ⟨"bob", 1⟩ ++ [⟨⟨"alice", 1⟩, ⟨.dm, [1]⟩⟩] := by
  refine ⟨by decide, users_isolated.1 "bob" sampleRequests busyRequests (by decide) ?_ ?_,
    ((users_isolated.2 [] ⟨"alice", 1⟩).1 _ ⟨"bob", 1⟩ (by decide)).2.1 _ rfl (by decide +kernel)⟩
  · exact ⟨fun _ _ => by decide +kernel, trivial, trivial⟩
  · exact ⟨fun h => absurd h (by decide), fun _ _ => by decide +kernel, trivial, trivial, trivial⟩

end

end Relay

end Tacenta
