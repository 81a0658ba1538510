import Tacenta.Library.Execution
import Tacenta.Library.Word64
import Tacenta.Relay.ProtocolCodec

/-!
# The compacting relay refines an append-only log

The relay drops what was acknowledged and restarts from snapshots, but what a device sees is an
append-only log with a cursor: the log of the messages whose sends were answered with success, and
the position of the last accepted acknowledgement. A queue represents such a log and position
through its base; each operation keeps the relation, and so does a restart.

## Main definitions

* `Input`, `Answer`, `step`: requests of authenticated devices, and restarts from a snapshot.
* `sentLog`, `acknowledged`: a device's log and position, read off the history of a run.
* `Queue.Represents`: the queue holds the log from its base on.
* `Start`: an empty relay, or one restored from a snapshot taken before queues were compacted.

## Main results

* `run_represents`: every run keeps the relation.
* `refines_log`: what each device sees after every run.
* `not_restored_at_limits`: a relay with a queue for a handle of `2 ^ 32` bytes cannot restart, and
  neither can one from before compaction with `0x5a000000` devices.
-/

open ByteString Result Tacenta.Wire

namespace Tacenta

namespace Relay

/-! ### Runs -/

/-- What happens to the relay. -/
inductive Input where
  | request (authorized : DeviceAddr) (request : Request)
  | restart
  deriving DecidableEq

/-- What comes of it. -/
inductive Answer where
  | response (response : Response)
  | restarted
  | failed
  deriving DecidableEq

/-- The relay restored from its snapshot. -/
def restart (r : Relay) : Option Relay :=
  match r.snapshot with
  | .ok bytes => restore bytes
  | .error _ => none

/-- Answer a request or restart; a failed restart replaces nothing. -/
def step : Machine Relay Input Answer
  | r, .request authorized request =>
    let (r, response) := r.handle authorized request
    (r, .response response)
  | r, .restart =>
    match r.restart with
    | some r => (r, .restarted)
    | none => (r, .failed)

/-- The message that an accepted send adds for a device. -/
def sentTo (d : DeviceAddr) : Input × Answer → Option StoredMessage
  | (.request source (.send recipient envelope), .response .ok) =>
    if recipient = d then some ⟨source, envelope⟩ else none
  | _ => none

/-- The position of an accepted acknowledgement of a device. -/
def ackedBy (d : DeviceAddr) : Input × Answer → Option UInt64
  | (.request _ (.ack device upTo), .response (.acked true)) =>
    if device = d then some upTo else none
  | _ => none

/-- A device's log: what it was at the start, and the messages of the accepted sends. -/
def sentLog (start : Session StoredMessage) (d : DeviceAddr) (history : List (Input × Answer)) :
    List StoredMessage := start.log ++ history.filterMap (sentTo d)

/-- The position of a device's last accepted acknowledgement. -/
def acknowledged (start : Session StoredMessage) (d : DeviceAddr)
    (history : List (Input × Answer)) : Nat :=
  ((history.filterMap (ackedBy d)).getLast?.map UInt64.toNat).getD start.cursor

theorem sentLog_append (start : Session StoredMessage) (d : DeviceAddr)
    (history : List (Input × Answer)) (entry : Input × Answer) :
    sentLog start d (history ++ [entry]) = sentLog start d history ++ (sentTo d entry).toList := by
  rw [sentLog, sentLog, List.filterMap_append, List.append_assoc]
  cases h : sentTo d entry <;> simp [h]

theorem acknowledged_append (start : Session StoredMessage) (d : DeviceAddr)
    (history : List (Input × Answer)) (entry : Input × Answer) :
    acknowledged start d (history ++ [entry]) =
      ((ackedBy d entry).map UInt64.toNat).getD (acknowledged start d history) := by
  rw [acknowledged, acknowledged, List.filterMap_append]
  cases h : ackedBy d entry <;> simp [h]

/-! ### Queues -/

/-- The queue holds a log from its base on, and a position in it. -/
structure Queue.Represents (q : Queue) (log : List StoredMessage) (cur : Nat) : Prop where
  inner_log : q.inner.log = log.drop q.base.toNat
  cursor_eq : q.base.toNat + q.inner.cursor = cur
  cur_le : cur ≤ log.length

namespace Queue.Represents

variable {q : Queue} {log : List StoredMessage} {cur : Nat}

theorem base_le (h : q.Represents log cur) : q.base.toNat ≤ log.length := by
  have h₁ := h.cursor_eq
  have h₂ := h.cur_le
  omega

theorem pending_eq (h : q.Represents log cur) : q.pending = log.drop cur := by
  rw [Queue.pending, Session.pending, h.inner_log, List.drop_drop, h.cursor_eq]

theorem toNat_cursor (h : q.Represents log cur) (hlt : log.length < 2 ^ 64) :
    q.cursor.toNat = cur := by
  have h₁ := h.cursor_eq
  have h₂ := h.cur_le
  rw [Queue.cursor, UInt64.toNat_add, Nat.toUInt64, UInt64.toNat_ofNat']
  omega

theorem new : Queue.new.Represents [] 0 := ⟨rfl, rfl, Nat.le_refl 0⟩

theorem of_session (s : Session StoredMessage) (bytes : Nat) :
    (⟨0, s, bytes⟩ : Queue).Represents s.log s.cursor :=
  ⟨rfl, Nat.zero_add _, s.cursor_le⟩

theorem recounted (h : q.Represents log cur) : q.recounted.Represents log cur :=
  ⟨h.inner_log, h.cursor_eq, h.cur_le⟩

theorem enqueue (h : q.Represents log cur) (m : StoredMessage) :
    (q.enqueue m).2 = .ok ∧ (q.enqueue m).1.Represents (log ++ [m]) cur ∨
      (q.enqueue m).2 ≠ .ok ∧ (q.enqueue m).1 = q := by
  rw [Queue.enqueue]
  split
  · exact .inr ⟨nofun, rfl⟩
  split
  · exact .inr ⟨nofun, rfl⟩
  refine .inl ⟨rfl, ?_, h.cursor_eq, ?_⟩
  · change q.inner.log ++ [m] = _
    rw [h.inner_log, List.drop_append_of_le_length h.base_le]
  · rw [List.length_append]
    exact Nat.le_add_right_of_le h.cur_le

/-- Compacting moves the acknowledged messages into the base. -/
theorem compact (h : q.Represents log cur) (hlt : log.length < 2 ^ 64) :
    q.compact.Represents log cur := by
  rw [Queue.compact]
  split
  · exact h
  obtain ⟨hlog, hcursor⟩ := foldl_append Session.new q.inner.pending
  have hbase : (q.base + q.inner.cursor.toUInt64).toNat = cur := h.toNat_cursor hlt
  refine ⟨?_, ?_, h.cur_le⟩
  · dsimp only
    rw [hlog, hbase]
    exact h.pending_eq
  · dsimp only
    rw [hcursor, hbase]
    rfl

/-- An acknowledgement is accepted exactly if it advances within the log. -/
theorem ack (h : q.Represents log cur) (hlt : log.length < 2 ^ 64) (n : UInt64) :
    (cur < n.toNat ∧ n.toNat ≤ log.length) ∧ (q.ack n).2 = true ∧
        (q.ack n).1.Represents log n.toNat ∨
      ¬(cur < n.toNat ∧ n.toNat ≤ log.length) ∧ q.ack n = (q, false) := by
  have hcursor := h.cursor_eq
  have hbase := h.base_le
  have hinner : q.inner.log.length = log.length - q.base.toNat := by
    rw [h.inner_log, List.length_drop]
  rw [Queue.ack]
  split
  · next hn =>
    rw [Word64.lt_iff] at hn
    exact .inr ⟨by omega, rfl⟩
  next hn =>
  rw [Word64.lt_iff, not_lt] at hn
  have hsub : (n - q.base).toNat = n.toNat - q.base.toNat :=
    UInt64.toNat_sub_of_le _ _ (Word64.le_iff.mpr hn)
  by_cases haccept : cur < n.toNat ∧ n.toNat ≤ log.length
  · left
    rw [Session.ack, dif_pos ⟨by omega, by omega⟩]
    have hacked : ({ q with inner := ⟨q.inner.log, (n - q.base).toNat, by omega⟩ } :
        Queue).Represents log n.toNat := ⟨h.inner_log, by dsimp only; omega, haccept.2⟩
    exact ⟨haccept, rfl, (hacked.compact hlt).recounted⟩
  · right
    rw [Session.ack, dif_neg (by omega)]
    exact ⟨haccept, rfl⟩

end Queue.Represents

/-! ### The relay -/

/-- The queue of a device; a device without one has an empty queue. -/
def queueOf (r : Relay) (d : DeviceAddr) : Queue := (r.queues.lookup d).getD .new

theorem pending_eq_queueOf (r : Relay) (d : DeviceAddr) : r.pending d = (r.queueOf d).pending := by
  rw [pending, queueOf]
  cases r.queues.lookup d <;> rfl

theorem cursor_eq_queueOf (r : Relay) (d : DeviceAddr) : r.cursor d = (r.queueOf d).cursor := by
  rw [cursor, queueOf]
  cases r.queues.lookup d <;> rfl

theorem queueOf_insert {r : Relay} {queues : AList fun _ : DeviceAddr => Queue} {d e : DeviceAddr}
    {q : Queue} (h : queues = r.queues.insert e q) :
    (queues.lookup d).getD .new = if e = d then q else r.queueOf d := by
  subst h
  split
  · next hd =>
    subst hd
    rw [AList.lookup_insert]
    rfl
  · next hd =>
    rw [AList.lookup_insert_ne (Ne.symm hd)]
    rfl

/-- A send appends to the recipient's queue as the queue does, or changes no queue. -/
theorem enqueue_queueOf (r : Relay) (recipient source : DeviceAddr) (envelope : Envelope) :
    let result := r.enqueue recipient source envelope
    let queued := (r.queueOf recipient).enqueue ⟨source, envelope⟩
    (∀ d, result.1.queueOf d = if recipient = d then queued.1 else r.queueOf d) ∧
        result.2 = queued.2 ∨
      (∀ d, result.1.queueOf d = r.queueOf d) ∧ result.2 ≠ .ok := by
  dsimp only
  rw [enqueue]
  dsimp only
  split
  · exact .inr ⟨fun _ => rfl, nofun⟩
  split
  · exact .inr ⟨fun _ => rfl, nofun⟩
  split
  · exact .inr ⟨fun _ => rfl, nofun⟩
  left
  split
  · next hok => exact ⟨fun d => queueOf_insert rfl, hok.symm⟩
  · exact ⟨fun d => queueOf_insert rfl, rfl⟩

/-- An acknowledgement changes the device's queue as the queue does, or no queue. -/
theorem ack_queueOf (r : Relay) (device : DeviceAddr) (upTo : UInt64) :
    let acked := (r.queueOf device).ack upTo
    (∀ d, (r.ack device upTo).1.queueOf d = if device = d then acked.1 else r.queueOf d) ∧
        (r.ack device upTo).2 = true ∧ acked.2 = true ∨
      r.ack device upTo = (r, false) ∧ acked.2 = false := by
  dsimp only
  rw [ack]
  cases hlookup : r.queues.lookup device with
  | none =>
    have hnew : r.queueOf device = .new := by rw [queueOf, hlookup]; rfl
    right
    rcases Queue.Represents.new.ack (by decide) upTo with ⟨⟨hpos, hle⟩, -⟩ | ⟨-, hno⟩
    · exact absurd hpos (not_lt.mpr hle)
    · rw [hnew, hno]
      exact ⟨rfl, rfl⟩
  | some q =>
    have hq : r.queueOf device = q := by rw [queueOf, hlookup]; rfl
    rw [hq]
    dsimp only
    split
    · next hok => exact .inl ⟨fun d => queueOf_insert rfl, rfl, hok⟩
    · next hno => exact .inr ⟨rfl, by simpa using hno⟩

/-- Every queue holds the log and the position of its device. -/
def Represents (r : Relay) (log : DeviceAddr → List StoredMessage) (cur : DeviceAddr → Nat) :
    Prop := ∀ d, (r.queueOf d).Represents (log d) (cur d)

variable {r : Relay} {log : DeviceAddr → List StoredMessage} {cur : DeviceAddr → Nat}

theorem Represents.send (h : r.Represents log cur) (recipient source : DeviceAddr)
    (envelope : Envelope) :
    (r.enqueue recipient source envelope).2 = .ok ∧
        (r.enqueue recipient source envelope).1.Represents
          (fun d => log d ++ if recipient = d then [⟨source, envelope⟩] else []) cur ∨
      (r.enqueue recipient source envelope).2 ≠ .ok ∧
        ∀ d, (r.enqueue recipient source envelope).1.queueOf d = r.queueOf d := by
  rcases r.enqueue_queueOf recipient source envelope with ⟨hqueue, hresult⟩ | ⟨hqueue, hresult⟩
  · rcases (h recipient).enqueue ⟨source, envelope⟩ with ⟨hok, hrep⟩ | ⟨hno, hsame⟩
    · refine .inl ⟨hresult.trans hok, fun d => ?_⟩
      rw [hqueue d]
      dsimp only
      by_cases hd : recipient = d
      · subst hd
        rw [if_pos rfl, if_pos rfl]
        exact hrep
      · rw [if_neg hd, if_neg hd, List.append_nil]
        exact h d
    · refine .inr ⟨hresult ▸ hno, fun d => ?_⟩
      rw [hqueue d, hsame]
      split
      · next hd => rw [hd]
      · rfl
  · exact .inr ⟨hresult, hqueue⟩

theorem Represents.ack (h : r.Represents log cur) (hlt : ∀ d, (log d).length < 2 ^ 64)
    (device : DeviceAddr) (n : UInt64) :
    (cur device < n.toNat ∧ n.toNat ≤ (log device).length) ∧ (r.ack device n).2 = true ∧
        (r.ack device n).1.Represents log
          (fun d => if device = d then n.toNat else cur d) ∨
      ¬(cur device < n.toNat ∧ n.toNat ≤ (log device).length) ∧ r.ack device n = (r, false) := by
  rcases (h device).ack (hlt device) n with ⟨haccept, hok, hrep⟩ | ⟨hrefuse, hno⟩
  · rcases r.ack_queueOf device n with ⟨hqueue, hacked, -⟩ | ⟨-, hno⟩
    · refine .inl ⟨haccept, hacked, fun d => ?_⟩
      rw [hqueue d]
      dsimp only
      split
      · next hd => exact hd ▸ hrep
      · exact h d
    · rw [hok] at hno
      cases hno
  · rcases r.ack_queueOf device n with ⟨-, -, hok⟩ | ⟨hsame, -⟩
    · rw [hno] at hok
      cases hok
    · exact .inr ⟨hrefuse, hsame⟩

variable {r' : Relay} {start : DeviceAddr → Session StoredMessage}

theorem Represents.congr (h : r.Represents log cur) (hsame : ∀ d, r'.queueOf d = r.queueOf d) :
    r'.Represents log cur :=
  fun d => (hsame d).symm ▸ h d

/-- A restarted relay has the queues of the relay, their bytes counted anew. -/
theorem queueOf_restart (h : r.restart = some r') (d : DeviceAddr) :
    ∃ bytes, r'.queueOf d = { r.queueOf d with pendingBytes := bytes } := by
  rw [restart] at h
  split at h
  · next bytes hsnapshot =>
    obtain ⟨hstorable, rfl⟩ := snapshot_eq_ok_iff.mp hsnapshot
    obtain ⟨r'', hrestore, hlookup, -⟩ := restore_snapshotLayout hstorable
    obtain rfl := Option.some_inj.mp (h.symm.trans hrestore)
    rw [queueOf, queueOf, hlookup]
    cases r.queues.lookup d with
    | none => exact ⟨0, rfl⟩
    | some q => exact ⟨_, rfl⟩
  · cases h

theorem restart_isSome (h : r.Storable) : ∃ r', r.restart = some r' := by
  obtain ⟨r', hrestore, -⟩ := restore_snapshotLayout h
  refine ⟨r', ?_⟩
  rw [restart, snapshot_eq_ok_iff.mpr ⟨h, rfl⟩]
  exact hrestore

theorem Represents.restart (h : r.Represents log cur) (hr : r.restart = some r') :
    r'.Represents log cur := by
  intro d
  obtain ⟨bytes, hq⟩ := queueOf_restart hr d
  rw [hq]
  exact ⟨(h d).inner_log, (h d).cursor_eq, (h d).cur_le⟩

/-- Every step keeps the relation, with the log and the position that its answer adds. -/
theorem Represents.step (h : r.Represents log cur) (hlt : ∀ d, (log d).length < 2 ^ 64)
    (input : Input) :
    (step r input).1.Represents
      (fun d => log d ++ (sentTo d (input, (step r input).2)).toList)
      (fun d => ((ackedBy d (input, (step r input).2)).map UInt64.toNat).getD (cur d)) := by
  have hkeep {r' : Relay} {answer : Answer} (hsent : ∀ d, sentTo d (input, answer) = none)
      (hacked : ∀ d, ackedBy d (input, answer) = none) (hr : r'.Represents log cur) :
      r'.Represents (fun d => log d ++ (sentTo d (input, answer)).toList)
        (fun d => ((ackedBy d (input, answer)).map UInt64.toNat).getD (cur d)) := by
    intro d
    dsimp only
    rw [hsent, hacked, Option.toList_none, List.append_nil]
    exact hr d
  cases input with
  | restart =>
    rw [Relay.step]
    split
    · next r' hr => exact hkeep (fun _ => rfl) (fun _ => rfl) (h.restart hr)
    · exact hkeep (fun _ => rfl) (fun _ => rfl) h
  | request authorized request =>
    rw [Relay.step]
    have hhandled := r.handle_handled authorized request
    generalize r.handle authorized request = result at hhandled ⊢
    cases hhandled with
    | sent recipient envelope =>
      dsimp only
      rcases h.send recipient authorized envelope with ⟨hok, hrep⟩ | ⟨hno, hsame⟩
      · rw [hok]
        intro d
        have hd := hrep d
        by_cases hrecipient : recipient = d
        · simpa [Enqueued.response, sentTo, ackedBy, hrecipient] using hd
        · simpa [Enqueued.response, sentTo, ackedBy, hrecipient] using hd
      · have hanswer : ∀ d, sentTo d (.request authorized (.send recipient envelope),
            .response (r.enqueue recipient authorized envelope).2.response) = none := by
          intro d
          generalize (r.enqueue recipient authorized envelope).2 = result at hno
          cases result with
          | ok => exact absurd rfl hno
          | queueFull => rfl
          | tooLarge => rfl
        exact hkeep hanswer (fun _ => rfl) (h.congr hsame)
    | acked upTo =>
      dsimp only
      rcases h.ack hlt authorized upTo with ⟨haccept, hok, hrep⟩ | ⟨hrefuse, hno⟩
      · rw [hok]
        intro d
        have hd := hrep d
        by_cases hdevice : authorized = d
        · simpa [sentTo, ackedBy, hdevice] using hd
        · simpa [sentTo, ackedBy, hdevice] using hd
      · rw [hno]
        exact hkeep (fun _ => rfl) (fun _ => rfl) h
    | @answered _ response hsend hack =>
      refine hkeep (fun d => ?_) (fun d => ?_) h
      · cases request with
        | send recipient envelope => exact absurd rfl (hsend recipient envelope)
        | _ => rfl
      · cases response with
        | acked accepted => exact absurd rfl (hack accepted)
        | _ => cases request <;> rfl

/-- The request was refused or was not allowed. -/
def Response.refused : Response → Bool
  | .acked false | .unauthorized | .unknownRecipient | .queueFull | .tooLarge => true
  | _ => false

theorem Represents.handle_refused (h : r.Represents log cur) (hlt : ∀ d, (log d).length < 2 ^ 64)
    {authorized : DeviceAddr} {request : Request}
    (hrefused : (r.handle authorized request).2.refused = true) (d : DeviceAddr) :
    (r.handle authorized request).1.queueOf d = r.queueOf d := by
  have hhandled := r.handle_handled authorized request
  generalize r.handle authorized request = result at hrefused hhandled ⊢
  cases hhandled with
  | sent recipient envelope =>
    dsimp only at hrefused ⊢
    rcases h.send recipient authorized envelope with ⟨hok, -⟩ | ⟨-, hsame⟩
    · rw [hok] at hrefused
      cases hrefused
    · exact hsame d
  | acked upTo =>
    dsimp only at hrefused ⊢
    rcases h.ack hlt authorized upTo with ⟨-, hok, -⟩ | ⟨-, hno⟩
    · rw [hok] at hrefused
      cases hrefused
    · rw [hno]
  | answered => rfl

/-! ### Where runs start -/

/-- The bytes of a queue in a snapshot taken before queues were compacted: the whole log and the
absolute cursor. -/
def legacyQueueLayout (entry : (_ : DeviceAddr) × Session StoredMessage) : Bytes :=
  entry.1.layout ++ (u64Bytes entry.2.cursor.toUInt64 ++ logLayout entry.2.log)

/-- A snapshot taken before queues were compacted. -/
def legacySnapshot (logs : AList fun _ : DeviceAddr => Session StoredMessage) : Bytes :=
  u32Bytes logs.entries.length.toUInt32 ++ logs.entries.flatMap legacyQueueLayout

/-- The lengths of a snapshot taken before queues were compacted fit their four bytes, and the first
byte of the number of its devices is not the marker of the later format. -/
structure LegacyFits (logs : AList fun _ : DeviceAddr => Session StoredMessage) : Prop where
  devices_lt : logs.entries.length < 2 ^ 32
  devices_ne : logs.entries.length / 2 ^ 24 ≠ snapshotMarker.toNat
  handles_fit : ∀ entry ∈ logs.entries, entry.1.Fits
  logs_fit : ∀ entry ∈ logs.entries, LogFits entry.2.log

/-- A relay that was not compacted, as it is restored. -/
def Queue.ofSession (s : Session StoredMessage) : Queue := ⟨0, s, bytesOf s.pending⟩

theorem run_takeLegacyQueue {entry : (_ : DeviceAddr) × Session StoredMessage}
    (hdevice : entry.1.Fits) (hlog : LogFits entry.2.log)
    (queues : AList fun _ : DeviceAddr => Queue) (rest : Bytes) :
    (takeLegacyQueue queues).run (legacyQueueLayout entry ++ rest) =
      .ok (queues.insert entry.1 (.ofSession entry.2), rest) := by
  simp only [takeLegacyQueue, Reader.run_bind_eq_ok, run_takeAddr_eq_ok, Reader.run_takeU64_eq_ok,
    run_takeLog_eq_ok, Reader.run_lift_eq_ok, orRefuse_eq_ok, Reader.run_pure_eq_ok,
    legacyQueueLayout, List.append_assoc]
  refine ⟨entry.1, _, ⟨hdevice, rfl⟩, entry.2.cursor.toUInt64, _, rfl, entry.2.log, rest,
    ⟨hlog, rfl⟩, .ofSession entry.2, rest, ⟨?_, rfl⟩, rfl, rfl⟩
  rw [toNat_toUInt64_of_lt hlog.cursor_lt, fromParts_session]
  rfl

private theorem head?_u32Bytes_append (x : UInt32) (rest : Bytes) :
    (u32Bytes x ++ rest).head? = some (x.toNat / 2 ^ 24).toUInt8 := by
  have hdiv : x.toNat / 256 / 256 / 256 = x.toNat / 2 ^ 24 := by omega
  simp [u32Bytes, toBe, hdiv]

/-- What does not start with the marker is read in the earlier format. -/
theorem restore_of_first {bytes : Bytes} (h : bytes.head? ≠ some snapshotMarker) :
    restore bytes = restoreLegacy bytes := by
  cases bytes with
  | nil => rfl
  | cons first rest =>
    rw [restore.eq_def]
    exact if_neg fun hfirst => h (congrArg some hfirst)

/-- A snapshot taken before queues were compacted restores every log with its cursor. -/
theorem restore_legacySnapshot {logs : AList fun _ : DeviceAddr => Session StoredMessage}
    (h : LegacyFits logs) :
    ∃ r, restore (legacySnapshot logs) = some r ∧
      ∀ d, r.queues.lookup d = (logs.lookup d).map Queue.ofSession := by
  obtain ⟨r, hread, hlookup, -⟩ := run_readQueues (f := Queue.ofSession) logs.nodupKeys h.devices_lt
    fun entry hentry acc rest =>
      run_takeLegacyQueue (h.handles_fit entry hentry) (h.logs_fit entry hentry) acc rest
  refine ⟨r, ?_, hlookup⟩
  have hlegacy : restoreLegacy (legacySnapshot logs) = some r := toOption_eq_some.mpr hread
  rw [restore_of_first, hlegacy]
  rw [legacySnapshot, head?_u32Bytes_append, Nat.toUInt32, UInt32.toNat_ofNat',
    Nat.mod_eq_of_lt h.devices_lt, Option.some_inj.ne]
  intro heq
  have hlt := h.devices_lt
  have hbyte := congrArg UInt8.toNat heq
  rw [toNat_toUInt8_of_lt (by omega)] at hbyte
  exact h.devices_ne hbyte

/-- Where a run starts, with the log and the cursor of each device. -/
inductive Start : Relay → (DeviceAddr → Session StoredMessage) → Prop
  | new : Start Relay.new fun _ => .new
  | legacy {logs : AList fun _ : DeviceAddr => Session StoredMessage} {r : Relay}
      (fits : LegacyFits logs) (restored : restore (legacySnapshot logs) = some r) :
      Start r fun d => (logs.lookup d).getD .new

theorem Start.represents (h : Start r start) :
    r.Represents (fun d => (start d).log) fun d => (start d).cursor := by
  intro d
  cases h with
  | new => exact .new
  | @legacy logs _ fits restored =>
    obtain ⟨r', hrestored, hlookup⟩ := restore_legacySnapshot fits
    obtain rfl := Option.some_inj.mp (restored.symm.trans hrestored)
    rw [queueOf, hlookup]
    dsimp only
    cases logs.lookup d with
    | none => exact .new
    | some s => exact .of_session s _

/-! ### The refinement -/

/-- Every run keeps the relation between the queues and the logs of the devices. -/
theorem run_represents (hstart : Start r start) {inputs : List Input}
    (hlt : ∀ d, (sentLog (start d) d (Machine.log step r inputs)).length < 2 ^ 63) :
    (Machine.run step r inputs).Represents
      (fun d => sentLog (start d) d (Machine.log step r inputs))
      (fun d => acknowledged (start d) d (Machine.log step r inputs)) := by
  refine Machine.log_preserves (M := step) (fun r' history =>
    (∀ d, (sentLog (start d) d history).length < 2 ^ 63) →
      r'.Represents (fun d => sentLog (start d) d history)
        (fun d => acknowledged (start d) d history)) ?_ ?_ inputs hlt
  · intro r' history input ih hlt
    have hlt' (d : DeviceAddr) : (sentLog (start d) d history).length < 2 ^ 63 := by
      have := hlt d
      rw [sentLog_append, List.length_append] at this
      omega
    have hstep := (ih hlt').step (fun d => (hlt' d).trans (by decide)) input
    simpa only [sentLog_append, acknowledged_append] using hstep
  · intro _ d
    simpa [sentLog, acknowledged] using hstart.represents d

/-- The relay refines an append-only log with a cursor. Take a run of requests of authenticated
devices and of restarts, and for each device its log and the position of its last accepted
acknowledgement. After the run, what waits for a device is its log from that position on and its
cursor is that position; an acknowledgement is accepted exactly if it advances within the log; a
poll answers the position and what waits; a request that is refused changes nothing that any device
sees; and a restart succeeds if the lengths of the snapshot fit. -/
theorem refines_log (hstart : Start r start) (inputs : List Input)
    (hlt : ∀ d, (sentLog (start d) d (Machine.log step r inputs)).length < 2 ^ 63) :
    let r' := Machine.run step r inputs
    let log (d : DeviceAddr) := sentLog (start d) d (Machine.log step r inputs)
    let cur (d : DeviceAddr) := acknowledged (start d) d (Machine.log step r inputs)
    (∀ d, r'.pending d = (log d).drop (cur d) ∧ (r'.cursor d).toNat = cur d) ∧
    (∀ d n, (r'.handle d (.ack d n)).2 =
      .acked (decide (cur d < n.toNat ∧ n.toNat ≤ (log d).length))) ∧
    (∀ d, (r'.handle d (.poll d)).2 = .delivered (cur d).toUInt64 ((log d).drop (cur d))) ∧
    (∀ authorized request, (r'.handle authorized request).2.refused = true →
      ∀ d, (r'.handle authorized request).1.pending d = r'.pending d ∧
        (r'.handle authorized request).1.cursor d = r'.cursor d) ∧
    (r'.Storable → (step r' .restart).2 = .restarted) := by
  intro r' log cur
  have hrep : r'.Represents log cur := run_represents hstart hlt
  have hlt64 (d : DeviceAddr) : (log d).length < 2 ^ 64 := (hlt d).trans (by decide)
  have hpending (d : DeviceAddr) : r'.pending d = (log d).drop (cur d) :=
    (r'.pending_eq_queueOf d).trans (hrep d).pending_eq
  have hcursor (d : DeviceAddr) : (r'.cursor d).toNat = cur d := by
    rw [r'.cursor_eq_queueOf d]
    exact (hrep d).toNat_cursor (hlt64 d)
  refine ⟨fun d => ⟨hpending d, hcursor d⟩, fun d n => ?_, fun d => ?_,
    fun authorized request hrefused d => ?_, fun hstorable => ?_⟩
  · rw [handle, if_pos rfl]
    dsimp only
    rcases hrep.ack hlt64 d n with ⟨haccept, hok, -⟩ | ⟨hrefuse, hno⟩
    · rw [hok, decide_eq_true haccept]
    · rw [hno, decide_eq_false hrefuse]
  · rw [handle, if_pos rfl, hpending d, ← hcursor d, Nat.toUInt64, UInt64.ofNat_toNat]
  · have hsame := hrep.handle_refused hlt64 hrefused d
    rw [pending_eq_queueOf, cursor_eq_queueOf, hsame, ← pending_eq_queueOf, ← cursor_eq_queueOf]
    exact ⟨rfl, rfl⟩
  · obtain ⟨r'', hr⟩ := restart_isSome hstorable
    rw [step, hr]

/-- One device sends two messages to another, which acknowledges the first after a restart. -/
def sampleInputs : List Input :=
  [.request ⟨"alice", 1⟩ (.send ⟨"bob", 1⟩ ⟨.dm, [1]⟩),
    .request ⟨"alice", 1⟩ (.send ⟨"bob", 1⟩ ⟨.dm, [2]⟩), .restart,
    .request ⟨"bob", 1⟩ (.ack ⟨"bob", 1⟩ 1)]

theorem refines_log_sample :
    acknowledged .new ⟨"bob", 1⟩ (Machine.log step Relay.new sampleInputs) = 1 ∧
    (Machine.run step Relay.new sampleInputs).pending ⟨"bob", 1⟩ =
      (sentLog .new ⟨"bob", 1⟩ (Machine.log step Relay.new sampleInputs)).drop
        (acknowledged .new ⟨"bob", 1⟩ (Machine.log step Relay.new sampleInputs)) := by
  refine ⟨by decide +kernel, ((refines_log .new sampleInputs fun d => ?_).1 ⟨"bob", 1⟩).1⟩
  have hle := List.length_filterMap_le (sentTo d) (Machine.log step Relay.new sampleInputs)
  have hlen : (Machine.log step Relay.new sampleInputs).length = 4 := by
    rw [← List.length_map Prod.fst, Machine.map_fst_log]
    rfl
  have hnil : (Session.new (α := StoredMessage)).log.length = 0 := rfl
  rw [sentLog, List.length_append]
  omega

/-- There are so many devices of one user, whose logs may be empty. -/
private theorem exists_logs {n : Nat} (hn : n ≤ 2 ^ 32) :
    ∃ logs : AList fun _ : DeviceAddr => Session StoredMessage, logs.entries.length = n ∧
      ∀ entry ∈ logs.entries, entry.1.Fits ∧ LogFits entry.2.log := by
  let entry (i : Nat) : (_ : DeviceAddr) × Session StoredMessage := ⟨⟨"a", i.toUInt32⟩, .new⟩
  have hnodup : ((List.range n).map entry).NodupKeys := by
    rw [List.NodupKeys, List.keys, List.map_map]
    refine List.nodup_range.map_on fun i hi j hj heq => ?_
    have hdevice := congrArg UInt32.toNat (DeviceAddr.mk.inj heq).2
    rw [List.mem_range] at hi hj
    rwa [toNat_toUInt32_of_lt (by omega), toNat_toUInt32_of_lt (by omega)] at hdevice
  have hempty : LogFits [] :=
    ⟨⟨by decide, fun _ h => absurd h List.not_mem_nil⟩, by rw [length_messagesLayout]; decide⟩
  have hhandle : (utf8Bytes "a").length < 2 ^ 32 := by decide
  refine ⟨⟨_, hnodup⟩, by rw [List.length_map, List.length_range], fun _ hentry => ?_⟩
  obtain ⟨i, -, rfl⟩ := List.mem_map.mp hentry
  exact ⟨hhandle, hempty⟩

/-- A number of devices that starts with the marker is read as the later format. -/
theorem restore_of_marked_count {logs : AList fun _ : DeviceAddr => Session StoredMessage}
    (h : logs.entries.length = 0x5a000000) : restore (legacySnapshot logs) = none := by
  rw [legacySnapshot, h]
  rfl

/-- A queue is created for any handle, but a snapshot can only be taken of handles that fit a block.
After one message to a device whose handle has `2 ^ 32` bytes, a restart fails, although there is
one device and its log fits. -/
private theorem restart_of_long_handle :
    ∃ handle : String,
      let r := Machine.run step Relay.new
        [.request ⟨"alice", 1⟩ (.send ⟨handle, 1⟩ ⟨.dm, []⟩)]
      r.pending ⟨handle, 1⟩ = [⟨⟨"alice", 1⟩, ⟨.dm, []⟩⟩] ∧ r.queues.entries.length = 1 ∧
        (∀ entry ∈ r.queues.entries, LogFits entry.2.inner.log) ∧
          (step r .restart).2 = .failed := by
  refine ⟨String.ofList (List.replicate (2 ^ 32) 'a'), ?_⟩
  have hlength := length_utf8Bytes_replicate (2 ^ 32)
  generalize String.ofList (List.replicate (2 ^ 32) 'a') = handle at hlength
  have hrun : (Machine.run step Relay.new
      [.request ⟨"alice", 1⟩ (.send ⟨handle, 1⟩ ⟨.dm, []⟩)]).queues = AList.insert ⟨handle, 1⟩
        (⟨0, Session.new.append ⟨⟨"alice", 1⟩, ⟨.dm, []⟩⟩, 5⟩ : Queue) ∅ := rfl
  intro r
  have hentries : r.queues.entries =
      [⟨⟨handle, 1⟩, ⟨0, Session.new.append ⟨⟨"alice", 1⟩, ⟨.dm, []⟩⟩, 5⟩⟩] := by
    rw [hrun]
    rfl
  refine ⟨?_, by rw [hentries]; rfl, ?_, ?_⟩
  · rw [pending, hrun, AList.lookup_insert]
    rfl
  · rw [hentries, List.forall_mem_singleton]
    change LogFits [⟨⟨"alice", 1⟩, ⟨.dm, []⟩⟩]
    have hfits : ∀ m ∈ [(⟨⟨"alice", 1⟩, ⟨.dm, []⟩⟩ : StoredMessage)], m.Fits := by
      rw [List.forall_mem_singleton]
      exact ⟨by unfold DeviceAddr.Fits; decide, by decide⟩
    exact ⟨⟨by decide, hfits⟩, by rw [length_messagesLayout]; decide⟩
  · have hrestart : r.restart = none := by
      rw [restart]
      cases hsnapshot : r.snapshot with
      | error e => rfl
      | ok bytes =>
        obtain ⟨hstorable, -⟩ := snapshot_eq_ok_iff.mp hsnapshot
        have hfits := (hstorable.entries_fit _ (hentries ▸ List.mem_singleton_self _)).device_fits
        exact absurd hlength (Nat.ne_of_lt hfits)
    rw [step, hrestart]

/-- What the lengths of logs and the number of devices do not cover: a restart fails after a message
to a handle of `2 ^ 32` bytes, and a snapshot of `0x5a000000` devices in the format from before
compaction is not restored. -/
theorem not_restored_at_limits :
    (∃ handle : String,
      let r := Machine.run step Relay.new
        [.request ⟨"alice", 1⟩ (.send ⟨handle, 1⟩ ⟨.dm, []⟩)]
      r.pending ⟨handle, 1⟩ = [⟨⟨"alice", 1⟩, ⟨.dm, []⟩⟩] ∧ r.queues.entries.length = 1 ∧
        (∀ entry ∈ r.queues.entries, LogFits entry.2.inner.log) ∧
          (step r .restart).2 = .failed) ∧
    ∃ logs : AList fun _ : DeviceAddr => Session StoredMessage,
      logs.entries.length = 0x5a000000 ∧
        (∀ entry ∈ logs.entries, entry.1.Fits ∧ LogFits entry.2.log) ∧
          restore (legacySnapshot logs) = none := by
  obtain ⟨logs, hlength, hfit⟩ := exists_logs (n := 0x5a000000) (by decide)
  exact ⟨restart_of_long_handle, logs, hlength, hfit, restore_of_marked_count hlength⟩

end Relay

end Tacenta
