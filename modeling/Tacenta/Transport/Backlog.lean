import Tacenta.Relay.Budgets
import Tacenta.Transport.Frame

/-!
# Fetching a backlog

A poll is answered with everything that waits for the device, in one frame. The relay's budgets
bound the messages of a queue and their bytes, the frame is bounded by the transport, and the two
bounds are not the same: a queue may hold four times what a frame can carry. A device can fetch its
backlog exactly as long as the encoding of the whole backlog fits a frame.

## Main definitions

* `serve`: the server's answer to a request, as it is written to the connection.
* `Fetched`: the answer to a poll reaches the client, which can acknowledge all of it.
* `FitsFrame`: the encoding of a device's backlog fits a frame.

## Main results

* `fetched_iff`: in every run a device can fetch its backlog exactly if it fits a frame.
* `full_backlog_not_fetched`: sixteen messages that the relay accepts cannot be fetched.
-/

open ByteString Result Tacenta.Wire Tacenta.Relay

namespace Tacenta.Transport

/-- What the server makes of a request. -/
inductive Served where
  | wrote (frame : Bytes)
  | tooLong
  | panicked (panic : Panic)
  deriving DecidableEq

/-- The response as the server writes it. -/
def written (response : Response) : Served :=
  match encodeResponse response with
  | .error panic => .panicked panic
  | .ok bytes =>
    match writeTagged tagResponse bytes with
    | none => .tooLong
    | some frame => .wrote frame

/-- Whether a request is a send to somebody who is not registered. -/
def unknownRecipient (knowsRecipient : DeviceAddr → Bool) : Request → Bool
  | .send recipient _ => !knowsRecipient recipient
  | _ => false

/-- Answer a request of an authenticated device on its connection. -/
def serve (knowsRecipient : DeviceAddr → Bool) (device : DeviceAddr) (r : Tacenta.Relay)
    (request : Request) : Tacenta.Relay × Served :=
  if unknownRecipient knowsRecipient request then (r, written .unknownRecipient)
  else
    let (r, response) := r.handle device request
    (r, written response)

/-- The device's poll is answered in a frame that the client's reader accepts, in any division of
its bytes into reads, the answer is the device's cursor and everything that waits for it, and the
client's acknowledgement of all of it is accepted and empties the queue. -/
def Fetched (knowsRecipient : DeviceAddr → Bool) (r : Tacenta.Relay) (d : DeviceAddr) : Prop :=
  ∃ response frame, encodeResponse (r.handle d (.poll d)).2 = .ok response ∧
    writeTagged tagResponse response = some frame ∧
    serve knowsRecipient d r (.poll d) = (r, .wrote frame) ∧
    (tagResponse :: response).length ≤ maxFrameLen ∧
    (∀ stream rest, (∀ part ∈ stream, part ≠ []) → stream.flatten = frame ++ rest →
      ∃ stream', (FrameReader.new.next FrameReader.readPart).run stream =
        ((.new, .ok (some (tagResponse :: response))), stream') ∧ stream'.flatten = rest) ∧
    decodeResponse response = some (.delivered (r.cursor d) (r.pending d)) ∧
    (r.pending d ≠ [] → ∃ upTo,
      Word64.checkedAdd (r.cursor d) (r.pending d).length.toUInt64 = some upTo ∧
        (r.handle d (.ack d upTo)).2 = .acked true ∧
          (r.handle d (.ack d upTo)).1.pending d = [])

/-- The encoding of the device's backlog fits a frame: nineteen bytes for each message beside those
that the budgets count, and fourteen for the answer. The positions of the messages are within the
range of cursors. -/
structure FitsFrame (r : Tacenta.Relay) (d : DeviceAddr) : Prop where
  bytes_le : 14 + (bytesOf (r.pending d) + 19 * (r.pending d).length) ≤ maxFrameLen
  positions_lt : r.pending d ≠ [] → (r.cursor d).toNat + (r.pending d).length < 2 ^ 64

/-! ### Queues of a relay that started empty -/

/-- The queue holds pending messages only, which are within the limits of count and size. -/
structure Bounded (q : Queue) : Prop where
  cursor_eq : q.inner.cursor = 0
  length_le : q.inner.log.length ≤ maxPending
  sizes_le : ∀ m ∈ q.inner.log, m.byteLen ≤ maxEnvelopeBytes

namespace Bounded

variable {q : Queue}

theorem pending_eq (h : Bounded q) : q.pending = q.inner.log := by
  rw [Queue.pending, Session.pending, h.cursor_eq, List.drop_zero]

theorem new : Bounded .new := ⟨rfl, Nat.zero_le _, fun _ hm => absurd hm List.not_mem_nil⟩

theorem enqueue (h : Bounded q) (m : StoredMessage) : Bounded (q.enqueue m).1 := by
  rw [Queue.enqueue]
  split
  · exact h
  next hsize =>
  split
  · exact h
  next hroom =>
  have hlength : q.inner.log.length < maxPending := by
    have hpending := h.pending_eq
    rw [Queue.pending] at hpending
    rw [hpending] at hroom
    exact not_le.mp fun hle => hroom (.inl hle)
  refine ⟨h.cursor_eq, ?_, ?_⟩
  · change (q.inner.log ++ [m]).length ≤ maxPending
    rw [List.length_append]
    exact hlength
  · change ∀ m' ∈ q.inner.log ++ [m], _
    rw [List.forall_mem_append, List.forall_mem_singleton]
    exact ⟨h.sizes_le, not_lt.mp hsize⟩

/-- An acknowledgement drops the part of the log that it names, and is refused if there is no such
part. -/
theorem ack_inner (h : Bounded q) (upTo : UInt64) :
    (∃ n, upTo.toNat = q.base.toNat + n ∧ (q.ack upTo).2 = true ∧
        (q.ack upTo).1.inner.log = q.inner.log.drop n ∧ (q.ack upTo).1.inner.cursor = 0) ∨
      q.ack upTo = (q, false) ∧
        ∀ n, upTo.toNat = q.base.toNat + n → 0 < n → q.inner.log.length < n := by
  have hcursor := h.cursor_eq
  rw [Queue.ack]
  split
  · next hbase =>
    rw [Word64.lt_iff] at hbase
    exact .inr ⟨rfl, fun n hn => by omega⟩
  next hbase =>
  rw [Word64.lt_iff, not_lt] at hbase
  have hsub : (upTo - q.base).toNat = upTo.toNat - q.base.toNat :=
    UInt64.toNat_sub_of_le _ _ (Word64.le_iff.mpr hbase)
  by_cases haccept : q.inner.cursor < (upTo - q.base).toNat ∧
      (upTo - q.base).toNat ≤ q.inner.log.length
  · rw [Session.ack, dif_pos haccept]
    have hpos : (upTo - q.base).toNat ≠ 0 := by omega
    refine .inl ⟨(upTo - q.base).toNat, by omega, rfl, ?_⟩
    dsimp only
    rw [if_pos rfl, Queue.compact, if_neg hpos]
    obtain ⟨hlog, hzero⟩ := foldl_append Session.new
      (q.inner.log.drop (upTo - q.base).toNat)
    exact ⟨hlog, hzero⟩
  · rw [Session.ack, dif_neg haccept]
    exact .inr ⟨rfl, fun n hn hpos => by omega⟩

theorem ack (h : Bounded q) (upTo : UInt64) : Bounded (q.ack upTo).1 := by
  rcases h.ack_inner upTo with ⟨n, -, -, hlog, hcursor⟩ | ⟨hsame, -⟩
  · refine ⟨hcursor, ?_, ?_⟩
    · rw [hlog, List.length_drop]
      exact (Nat.sub_le _ _).trans h.length_le
    · rw [hlog]
      exact fun m hm => h.sizes_le m (List.mem_of_mem_drop hm)
  · rw [hsame]
    exact h

theorem ack_all (h : Bounded q) (hne : q.pending ≠ []) {upTo : UInt64}
    (hup : upTo.toNat = q.base.toNat + q.pending.length) :
    (q.ack upTo).2 = true ∧ (q.ack upTo).1.pending = [] := by
  rw [h.pending_eq] at hne hup
  rcases h.ack_inner upTo with ⟨n, hn, hok, hlog, hcursor⟩ | ⟨-, hrefused⟩
  · have hlength : n = q.inner.log.length := by omega
    refine ⟨hok, ?_⟩
    rw [Queue.pending, Session.pending, hlog, hcursor, hlength, List.drop_length, List.drop_nil]
  · exact absurd (hrefused _ hup (List.length_pos_iff.mpr hne)) (Nat.lt_irrefl _)

theorem writable (h : Bounded q) : Writable q.pending := by
  have hlength : q.inner.log.length ≤ 65536 := h.length_le
  rw [h.pending_eq]
  refine ⟨by omega, fun m hm => ?_⟩
  have hsize : m.envelope.payload.length + (utf8Bytes m.source.user).length ≤ 1048576 :=
    h.sizes_le m hm
  refine ⟨?_, ?_⟩
  · rw [DeviceAddr.Fits]
    omega
  · rw [Envelope.length_layout]
    omega

end Bounded

/-- A device's acknowledgement of everything that waits for it is accepted and empties its queue. -/
theorem Bounded.ack_relay {r : Tacenta.Relay} {d : DeviceAddr} (h : Bounded (r.queueOf d))
    (hne : r.pending d ≠ []) {upTo : UInt64}
    (hup : upTo.toNat = (r.cursor d).toNat + (r.pending d).length) :
    Response.acked (r.ack d upTo).2 = .acked true ∧ (r.ack d upTo).1.pending d = [] := by
  have hbase : r.cursor d = (r.queueOf d).base := by
    rw [cursor_eq_queueOf, Queue.cursor, h.cursor_eq]
    exact UInt64.add_zero _
  rw [pending_eq_queueOf] at hne hup
  rw [hbase] at hup
  obtain ⟨hok, hempty⟩ := h.ack_all hne hup
  rcases r.ack_queueOf d upTo with ⟨hqueue, hacked, -⟩ | ⟨-, hno⟩
  · rw [hacked, pending_eq_queueOf, hqueue, if_pos rfl]
    exact ⟨rfl, hempty⟩
  · rw [hok] at hno
    cases hno

theorem bounded_run (inputs : List Input) (d : DeviceAddr) :
    Bounded ((Machine.run step Relay.new inputs).queueOf d) := by
  refine Machine.run_preserves (M := step) (fun r => ∀ d, Bounded (r.queueOf d)) ?_
    (s := Relay.new) (fun _ => Bounded.new) inputs d
  intro r input h d
  cases input with
  | restart =>
    rw [step]
    split
    · next r' hr =>
      obtain ⟨bytes, hq⟩ := queueOf_restart hr d
      rw [hq]
      exact ⟨(h d).cursor_eq, (h d).length_le, (h d).sizes_le⟩
    · exact h d
  | request authorized request =>
    change Bounded ((r.handle authorized request).1.queueOf d)
    have hhandled := r.handle_handled authorized request
    generalize r.handle authorized request = result at hhandled ⊢
    cases hhandled with
    | sent recipient envelope =>
      rcases r.enqueue_queueOf recipient authorized envelope with ⟨hqueue, -⟩ | ⟨hqueue, -⟩
      · rw [hqueue]
        split
        · exact (h recipient).enqueue _
        · exact h d
      · rw [hqueue]
        exact h d
    | acked upTo =>
      rcases r.ack_queueOf authorized upTo with ⟨hqueue, -, -⟩ | ⟨hsame, -⟩
      · rw [hqueue]
        split
        · exact (h authorized).ack upTo
        · exact h d
      · rw [hsame]
        exact h d
    | answered => exact h d

/-! ### Fetching -/

/-- In every run from an empty relay, a device can fetch and acknowledge its backlog exactly if the
encoding of the backlog fits a frame. -/
theorem fetched_iff (knowsRecipient : DeviceAddr → Bool) (inputs : List Input) (d : DeviceAddr) :
    Fetched knowsRecipient (Machine.run step Relay.new inputs) d ↔
      FitsFrame (Machine.run step Relay.new inputs) d := by
  have hbounded := bounded_run inputs d
  generalize Machine.run step Relay.new inputs = r at hbounded ⊢
  have hw : Writable (r.pending d) := r.pending_eq_queueOf d ▸ hbounded.writable
  have hencode := encodeResponse_delivered (r.cursor d) hw
  have hlength := length_deliveredLayout (r.cursor d) (r.pending d)
  have hhandle : r.handle d (.poll d) = (r, .delivered (r.cursor d) (r.pending d)) := by
    rw [handle, if_pos rfl]
  have hcount : (r.pending d).length.toUInt64.toNat = (r.pending d).length := by
    have := hw.length_lt
    rw [toNat_toUInt64_of_lt (by omega)]
  constructor
  · rintro ⟨response, frame, hresponse, -, -, hle, -, -, hack⟩
    rw [hhandle] at hresponse
    obtain rfl := Except.ok.inj (hencode.symm.trans hresponse)
    rw [List.length_cons, hlength] at hle
    refine ⟨by omega, fun hne => ?_⟩
    obtain ⟨upTo, hadd, -, -⟩ := hack hne
    have hsum := Word64.checkedAdd_eq_some.mp hadd
    rw [hcount] at hsum
    exact hsum ▸ upTo.toNat_lt
  · intro h
    have hle : (tagResponse :: deliveredLayout (r.cursor d) (r.pending d)).length ≤
        maxFrameLen := by
      have := h.bytes_le
      rw [List.length_cons, hlength]
      omega
    have hframe : writeTagged tagResponse (deliveredLayout (r.cursor d) (r.pending d)) = some _ :=
      writeFrame_eq_some.mpr ⟨hle.trans_lt (by decide), rfl⟩
    refine ⟨_, _, hhandle ▸ hencode, hframe, ?_, hle, ?_, decodeResponse_delivered hw, ?_⟩
    · have hserve : serve knowsRecipient d r (.poll d) =
          (r, written (.delivered (r.cursor d) (r.pending d))) := by
        rw [serve, hhandle]
        rfl
      rw [hserve, written, hencode]
      dsimp only
      rw [hframe]
    · intro stream rest hparts hstream
      exact FrameReader.next_eq_frame hframe hle hparts hstream
    · intro hne
      have hlt := h.positions_lt hne
      have hup : (((r.cursor d).toNat + (r.pending d).length).toUInt64).toNat =
          (r.cursor d).toNat + (r.pending d).length := by
        rw [toNat_toUInt64_of_lt hlt]
      refine ⟨_, Word64.checkedAdd_eq_some.mpr (hup.trans (by rw [hcount])), ?_⟩
      rw [handle, if_pos rfl]
      exact hbounded.ack_relay hne hup

/-! ### A backlog that cannot be fetched -/

/-- The sender of the backlog. -/
def sampleSender : DeviceAddr := ⟨"alice", 1⟩

/-- The device that the backlog waits for. -/
def sampleDevice : DeviceAddr := ⟨"bob", 1⟩

def sampleMessage (payload : Bytes) : StoredMessage := ⟨sampleSender, ⟨.dm, payload⟩⟩

/-- The send of the message. -/
def sampleSend (payload : Bytes) : Input :=
  .request sampleSender (.send sampleDevice ⟨.dm, payload⟩)

section

variable {payload : Bytes}

theorem byteLen_sampleMessage (hpayload : payload.length = 1048571) :
    (sampleMessage payload).byteLen = 1048576 := by
  have huser : (utf8Bytes sampleSender.user).length = 5 := by decide
  rw [StoredMessage.byteLen, sampleMessage, hpayload, huser]

/-- The relay after some sends of the message, if it accepted all of them. -/
structure Holds (payload : Bytes) (k : Nat) (r : Tacenta.Relay) : Prop where
  log_eq : (r.queueOf sampleDevice).inner.log = List.replicate k (sampleMessage payload)
  cursor_eq : (r.queueOf sampleDevice).inner.cursor = 0
  pendingBytes_eq : (r.queueOf sampleDevice).pendingBytes = k * 1048576
  userBytes_eq : (r.userBytes.lookup sampleDevice.user).getD 0 = k * 1048576
  totalBytes_eq : r.totalBytes = k * 1048576
  maxTotalBytes_eq : r.maxTotalBytes = maxTotalBytesDefault

theorem Holds.send (hpayload : payload.length = 1048571) {k : Nat} {r : Tacenta.Relay}
    (h : Holds payload k r) (hk : k < 64) :
    (step r (sampleSend payload)).2 = .response .ok ∧
      Holds payload (k + 1) (step r (sampleSend payload)).1 := by
  have hsize : (⟨sampleSender, ⟨.dm, payload⟩⟩ : StoredMessage).byteLen = 1048576 :=
    byteLen_sampleMessage hpayload
  have hpending : (r.queueOf sampleDevice).inner.pending.length = k := by
    rw [Session.pending, h.log_eq, h.cursor_eq, List.drop_zero, List.length_replicate]
  have hqueue : (r.queueOf sampleDevice).enqueue ⟨sampleSender, ⟨.dm, payload⟩⟩ =
      ({ r.queueOf sampleDevice with
        inner := (r.queueOf sampleDevice).inner.append ⟨sampleSender, ⟨.dm, payload⟩⟩
        pendingBytes := k * 1048576 + 1048576 }, .ok) := by
    rw [Queue.enqueue_eq (hsize.le.trans (by decide)) (by rw [hsize, h.pendingBytes_eq]; omega),
      Queue.pending, hpending, hsize, h.pendingBytes_eq,
      if_neg (by simp only [maxPending, maxQueueBytes]; omega)]
  have henqueue := enqueue_of_budget (hsize.le.trans (by decide))
    (by rw [hsize, h.totalBytes_eq, h.maxTotalBytes_eq, maxTotalBytesDefault, Word64.saturate]
        omega)
    (by rw [hsize, h.userBytes_eq, maxUserBytes]; omega) hqueue
  rw [sampleSend, step, handle, henqueue]
  refine ⟨rfl, ?_, ?_, ?_, ?_, ?_, h.maxTotalBytes_eq⟩
  · rw [queueOf, AList.lookup_insert, Option.getD_some, List.replicate_succ', ← h.log_eq]
    rfl
  · rw [queueOf, AList.lookup_insert, Option.getD_some]
    exact h.cursor_eq
  · rw [queueOf, AList.lookup_insert, Option.getD_some, Nat.succ_mul]
  · rw [AList.lookup_insert, Option.getD_some, h.userBytes_eq, hsize, Nat.succ_mul]
  · dsimp only
    rw [h.totalBytes_eq, hsize, Nat.mod_eq_of_lt (by omega), Nat.succ_mul]

theorem holds_run (hpayload : payload.length = 1048571) (k : Nat) (hk : k ≤ 64) :
    (∀ entry ∈ Machine.log step Relay.new (List.replicate k (sampleSend payload)),
        entry.2 = .response .ok) ∧
      Holds payload k (Machine.run step Relay.new (List.replicate k (sampleSend payload))) := by
  induction k with
  | zero =>
    have hnone : 0 = 0 * 1048576 := (Nat.zero_mul _).symm
    exact ⟨fun _ h => absurd h List.not_mem_nil, rfl, rfl, hnone, hnone, hnone, rfl⟩
  | succ k ih =>
    obtain ⟨hok, hholds⟩ := ih (by omega)
    obtain ⟨hsent, hnext⟩ := hholds.send hpayload hk
    rw [List.replicate_succ', Machine.log_append, Machine.run_append, Machine.log_cons,
      Machine.run_cons]
    refine ⟨?_, hnext⟩
    rw [List.forall_mem_append, List.forall_mem_cons]
    exact ⟨hok, hsent, fun _ h => absurd h List.not_mem_nil⟩

theorem sampleSend_fits (hpayload : payload.length = 1048571) :
    ∃ request, encodeRequest (.send sampleDevice ⟨.dm, payload⟩) = .ok request ∧
      request.length ≤ maxFrameLen := by
  have huser : (utf8Bytes sampleDevice.user).length = 3 := by decide
  have henvelope : (⟨.dm, payload⟩ : Envelope).layout.length = 1048578 := by
    rw [Envelope.length_layout, hpayload]
  refine ⟨_, bind_eq_ok.mpr ⟨_, putAddr_eq_ok_iff.mpr ⟨?_, rfl⟩,
    putEnvelope_eq_ok_iff.mpr ⟨?_, rfl⟩⟩, ?_⟩
  · rw [DeviceAddr.Fits, huser]
    decide
  · rw [henvelope]
    decide
  · simp only [List.length_append, DeviceAddr.layout, length_lpBytes, length_u32Bytes, henvelope,
      huser, List.length_singleton]
    decide

end

/-- Sixteen messages of a mebibyte each are within every budget of the relay and accepted. The
answer to the device's poll is then encoded, but it is longer than a frame, which the client's
reader refuses: the device cannot fetch its backlog. -/
theorem full_backlog_not_fetched : ∃ payload : Bytes,
    (∃ request, encodeRequest (.send sampleDevice ⟨.dm, payload⟩) = .ok request ∧
      request.length ≤ maxFrameLen) ∧
    (∀ entry ∈ Machine.log step Relay.new (List.replicate 16 (sampleSend payload)),
      entry.2 = .response .ok) ∧
    ∀ knowsRecipient,
      ¬Fetched knowsRecipient
        (Machine.run step Relay.new (List.replicate 16 (sampleSend payload))) sampleDevice := by
  obtain ⟨payload, hpayload⟩ : ∃ payload : Bytes, payload.length = 1048571 :=
    ⟨List.replicate _ 0, List.length_replicate⟩
  obtain ⟨hok, hholds⟩ := holds_run hpayload 16 (by decide)
  refine ⟨payload, sampleSend_fits hpayload, hok, fun knowsRecipient hfetched => ?_⟩
  have hle := (fetched_iff knowsRecipient _ _).mp hfetched |>.bytes_le
  rw [pending_eq_queueOf, Queue.pending, Session.pending, hholds.log_eq, hholds.cursor_eq,
    List.drop_zero, bytesOf, List.map_replicate, List.length_replicate,
    byteLen_sampleMessage hpayload] at hle
  exact absurd hle (by decide)

end Tacenta.Transport
