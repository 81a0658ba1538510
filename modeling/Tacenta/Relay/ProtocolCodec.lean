import Tacenta.Relay.Protocol

/-!
# The byte formats of the relay

The layouts of addresses, messages and queues, with the exact conditions under which they are
written and read. A snapshot restores every queue as it was, and so does a snapshot in the format
that was used before queues were compacted.

## Main definitions

* `DeviceAddr.Fits`, `StoredMessage.Fits`: the values that can be written.
* `messagesLayout`, `queueLayout`: the bytes of a list of messages and of a queue.
* `Storable`: the relays of which a snapshot can be taken.

## Main results

* `putMessages_eq_ok_iff`, `run_takeMessages_eq_ok`.
* `decodeResponse_delivered`: the answer to a poll is read back as it was written.
* `restore_snapshotLayout`: a snapshot restores the base and the session of every queue.
-/

open ByteString Reader Result Tacenta.Wire

namespace Tacenta

namespace Relay

/-! ### Addresses and messages -/

theorem putBytes_eq_ok_iff {out bytes b : Bytes} :
    putBytes out bytes = .ok b ↔ bytes.length < 2 ^ 32 ∧ b = out ++ lpBytes bytes := by
  rw [putBytes, refuseIf_bind_eq_ok, pure_eq_ok, not_le, lpBytes, List.append_assoc,
    eq_comm (a := b)]

/-- The user's handle fits a block. -/
def DeviceAddr.Fits (a : DeviceAddr) : Prop := (utf8Bytes a.user).length < 2 ^ 32

/-- The bytes of an address. -/
def DeviceAddr.layout (a : DeviceAddr) : Bytes := lpBytes (utf8Bytes a.user) ++ u32Bytes a.device

theorem putAddr_eq_ok_iff {out b : Bytes} {a : DeviceAddr} :
    putAddr out a = .ok b ↔ a.Fits ∧ b = out ++ a.layout := by
  simp only [putAddr, bind_eq_ok, putBytes_eq_ok_iff, pure_eq_ok, DeviceAddr.layout,
    DeviceAddr.Fits]
  constructor
  · rintro ⟨_, ⟨hfits, rfl⟩, rfl⟩
    exact ⟨hfits, List.append_assoc _ _ _⟩
  · rintro ⟨hfits, rfl⟩
    exact ⟨_, ⟨hfits, rfl⟩, List.append_assoc _ _ _⟩

theorem run_takeAddr_eq_ok {s rest : Bytes} {a : DeviceAddr} :
    takeAddr.run s = .ok (a, rest) ↔ a.Fits ∧ s = a.layout ++ rest := by
  simp only [takeAddr, run_bind_eq_ok, run_takeLp_eq_ok, run_lift_eq_ok,
    orRefuse_eq_ok, ofUtf8?_eq_some, run_takeU32_eq_ok, run_pure_eq_ok,
    DeviceAddr.layout, DeviceAddr.Fits]
  constructor
  · rintro ⟨_, _, ⟨hfits, rfl⟩, user, _, ⟨rfl, rfl⟩, device, _, rfl, rfl, rfl⟩
    exact ⟨hfits, (List.append_assoc _ _ _).symm⟩
  · rintro ⟨hfits, rfl⟩
    exact ⟨_, _, ⟨hfits, List.append_assoc _ _ _⟩, a.user, _, ⟨rfl, rfl⟩, a.device, rest, rfl, rfl,
      rfl⟩

/-- The sender and the envelope fit their blocks. -/
structure StoredMessage.Fits (m : StoredMessage) : Prop where
  source_fits : m.source.Fits
  envelope_lt : m.envelope.layout.length < 2 ^ 32

def StoredMessage.layout (m : StoredMessage) : Bytes :=
  m.source.layout ++ lpBytes m.envelope.layout

theorem StoredMessage.length_layout (m : StoredMessage) : m.layout.length = m.byteLen + 19 := by
  simp only [layout, DeviceAddr.layout, List.length_append, length_lpBytes, length_u32Bytes,
    Envelope.length_layout, byteLen]
  omega

theorem putEnvelope_eq_ok_iff {out b : Bytes} {e : Envelope} :
    putEnvelope out e = .ok b ↔ e.layout.length < 2 ^ 32 ∧ b = out ++ lpBytes e.layout := by
  have hlen := e.length_layout
  rw [putEnvelope]
  cases hencode : encode e with
  | none =>
    simp only [reduceCtorEq, false_iff]
    rintro ⟨hlt, -⟩
    have := encode_eq_some_iff.mpr ⟨show e.payload.length < 2 ^ 32 by omega, rfl⟩
    rw [hencode] at this
    cases this
  | some bytes =>
    obtain ⟨-, rfl⟩ := encode_eq_some_iff.mp hencode
    exact putBytes_eq_ok_iff

theorem run_takeEnvelope_eq_ok {s rest : Bytes} {e : Envelope} :
    takeEnvelope.run s = .ok (e, rest) ↔
      e.layout.length < 2 ^ 32 ∧ s = lpBytes e.layout ++ rest := by
  have hlen := e.length_layout
  simp only [takeEnvelope, run_bind_eq_ok, run_takeLp_eq_ok, run_lift_eq_ok,
    orRefuse_eq_ok, decode_eq_some_iff]
  constructor
  · rintro ⟨_, _, ⟨hlt, rfl⟩, ⟨-, rfl⟩, rfl⟩
    exact ⟨hlt, rfl⟩
  · rintro ⟨hlt, rfl⟩
    exact ⟨_, _, ⟨hlt, rfl⟩, ⟨by omega, rfl⟩, rfl⟩

theorem putMessage_eq_ok_iff (out : Bytes) (m : StoredMessage) (b : Bytes) :
    putMessage out m = .ok b ↔ m.Fits ∧ b = out ++ m.layout := by
  simp only [putMessage, bind_eq_ok, putAddr_eq_ok_iff, putEnvelope_eq_ok_iff,
    StoredMessage.layout]
  constructor
  · rintro ⟨_, ⟨hs, rfl⟩, he, rfl⟩
    exact ⟨⟨hs, he⟩, List.append_assoc _ _ _⟩
  · rintro ⟨⟨hs, he⟩, rfl⟩
    exact ⟨_, ⟨hs, rfl⟩, he, (List.append_assoc _ _ _).symm⟩

theorem run_takeMessage_eq_ok (s : Bytes) (m : StoredMessage) (rest : Bytes) :
    takeMessage.run s = .ok (m, rest) ↔ m.Fits ∧ s = m.layout ++ rest := by
  simp only [takeMessage, run_bind_eq_ok, run_takeAddr_eq_ok, run_takeEnvelope_eq_ok,
    run_pure_eq_ok, StoredMessage.layout]
  constructor
  · rintro ⟨source, _, ⟨hs, rfl⟩, envelope, _, ⟨he, rfl⟩, rfl, rfl⟩
    exact ⟨⟨hs, he⟩, (List.append_assoc _ _ _).symm⟩
  · rintro ⟨⟨hs, he⟩, rfl⟩
    exact ⟨m.source, _, ⟨hs, List.append_assoc _ _ _⟩, m.envelope, rest, ⟨he, rfl⟩, rfl, rfl⟩

/-- The bytes of messages after their number. -/
def messagesLayout (messages : List StoredMessage) : Bytes :=
  u32Bytes messages.length.toUInt32 ++ messages.flatMap StoredMessage.layout

/-- The messages and their number can be written. -/
structure Writable (messages : List StoredMessage) : Prop where
  length_lt : messages.length < 2 ^ 32
  fits : ∀ m ∈ messages, m.Fits

theorem putMessages_eq_ok_iff {out b : Bytes} {messages : List StoredMessage} :
    putMessages out messages = .ok b ↔ Writable messages ∧ b = out ++ messagesLayout messages := by
  rw [putMessages, refuseIf_bind_eq_ok, foldlM_eq_ok_iff putMessage_eq_ok_iff, not_le,
    messagesLayout, List.append_assoc]
  constructor
  · rintro ⟨hlen, hfits, rfl⟩
    exact ⟨⟨hlen, hfits⟩, rfl⟩
  · rintro ⟨⟨hlen, hfits⟩, rfl⟩
    exact ⟨hlen, hfits, rfl⟩

theorem run_takeMessages_eq_ok {s rest : Bytes} {messages : List StoredMessage} :
    takeMessages.run s = .ok (messages, rest) ↔
      Writable messages ∧ s = messagesLayout messages ++ rest := by
  simp only [takeMessages, run_bind_eq_ok, run_takeU32_eq_ok,
    run_many_eq_ok run_takeMessage_eq_ok, messagesLayout]
  constructor
  · rintro ⟨count, _, rfl, hlen, hfits, rfl⟩
    refine ⟨⟨hlen ▸ count.toNat_lt, hfits⟩, ?_⟩
    rw [hlen, Nat.toUInt32, UInt32.ofNat_toNat, List.append_assoc]
  · rintro ⟨⟨hlen, hfits⟩, rfl⟩
    refine ⟨messages.length.toUInt32, _, List.append_assoc _ _ _, ?_, hfits, rfl⟩
    rw [toNat_toUInt32_of_lt hlen]

theorem length_messagesLayout (messages : List StoredMessage) :
    (messagesLayout messages).length = 4 + (bytesOf messages + 19 * messages.length) := by
  rw [messagesLayout, List.length_append, length_u32Bytes]
  congr 1
  induction messages with
  | nil => rfl
  | cons m messages ih =>
    rw [List.flatMap_cons, List.length_append, ih, m.length_layout, List.length_cons, bytesOf,
      bytesOf, List.map_cons, List.sum_cons]
    omega

/-! ### The answer to a poll -/

/-- The bytes of a delivery. -/
def deliveredLayout (start : UInt64) (messages : List StoredMessage) : Bytes :=
  2 :: (u64Bytes start ++ messagesLayout messages)

theorem encodeResponse_delivered (start : UInt64) {messages : List StoredMessage}
    (h : Writable messages) :
    encodeResponse (.delivered start messages) = .ok (deliveredLayout start messages) :=
  putMessages_eq_ok_iff.mpr ⟨h, by simp [deliveredLayout]⟩

theorem decodeResponse_delivered {start : UInt64} {messages : List StoredMessage}
    (h : Writable messages) :
    decodeResponse (deliveredLayout start messages) = some (.delivered start messages) := by
  rw [decodeResponse, toOption_eq_some, run'_eq_ok]
  refine ⟨[], ?_⟩
  rw [readResponse, run_bind_eq_ok]
  refine ⟨2, _, run_takeByte_eq_ok.mpr rfl, run_bind_eq_ok.mpr
    ⟨.delivered start messages, [], ?_, ?_⟩⟩
  · change (Reader.takeU64 () >>= _).run _ = _
    simp only [run_bind_eq_ok, run_takeU64_eq_ok, run_takeMessages_eq_ok,
      run_pure_eq_ok]
    exact ⟨start, _, rfl, messages, [], ⟨h, (List.append_nil _).symm⟩, rfl, rfl⟩
  · exact run_bind_eq_ok.mpr ⟨(), [], run_finish_eq_ok.mpr ⟨rfl, rfl⟩,
      run_pure_eq_ok.mpr ⟨rfl, rfl⟩⟩

theorem length_deliveredLayout (start : UInt64) (messages : List StoredMessage) :
    (deliveredLayout start messages).length = 13 + (bytesOf messages + 19 * messages.length) := by
  rw [deliveredLayout, List.length_cons, List.length_append, length_u64Bytes,
    length_messagesLayout]
  omega

/-! ### Sessions and queues -/

theorem foldl_append (s : Session StoredMessage) (messages : List StoredMessage) :
    (messages.foldl Session.append s).log = s.log ++ messages ∧
      (messages.foldl Session.append s).cursor = s.cursor := by
  induction messages generalizing s with
  | nil => exact ⟨(List.append_nil _).symm, rfl⟩
  | cons m messages ih =>
    obtain ⟨hlog, hcursor⟩ := ih (s.append m)
    exact ⟨by rw [List.foldl_cons, hlog, Session.append, List.append_assoc, List.singleton_append],
      hcursor⟩

@[ext] theorem Session.ext {s t : Session StoredMessage} (hlog : s.log = t.log)
    (hcursor : s.cursor = t.cursor) : s = t := by
  cases s
  cases t
  cases hlog
  cases hcursor
  rfl

/-- Rebuilding a queue from its base, its log and its cursor gives its base and its session. -/
theorem fromParts_session (base : UInt64) (s : Session StoredMessage) :
    Queue.fromParts base s.log s.cursor = some ⟨base, s, bytesOf s.pending⟩ := by
  obtain ⟨hlog, hcursor⟩ := foldl_append Session.new s.log
  rw [Queue.fromParts, if_neg (not_lt.mpr s.cursor_le)]
  by_cases hzero : 0 < s.cursor
  · have hack : (s.log.foldl Session.append Session.new).ack s.cursor = (s, true) := by
      rw [Session.ack, dif_pos ⟨by rw [hcursor]; exact hzero, by rw [hlog]; exact s.cursor_le⟩]
      refine Prod.ext (Session.ext ?_ rfl) rfl
      exact hlog
    simp only [hack, hzero, if_true, not_true_eq_false, and_false, if_false]
  · have hsame : s.log.foldl Session.append Session.new = s :=
      Session.ext hlog (by rw [hcursor]; exact (Nat.eq_zero_of_not_pos hzero).symm)
    simp only [hzero, if_false, false_and, hsame]

/-- The bytes of a log as a block. -/
def logLayout (log : List StoredMessage) : Bytes := lpBytes (messagesLayout log)

/-- The log can be written as a block. -/
structure LogFits (log : List StoredMessage) : Prop where
  writable : Writable log
  layout_lt : (messagesLayout log).length < 2 ^ 32

theorem run_takeLog_eq_ok {s rest : Bytes} {log : List StoredMessage} :
    takeLog.run s = .ok (log, rest) ↔ LogFits log ∧ s = logLayout log ++ rest := by
  simp only [takeLog, run_bind_eq_ok, run_takeLp_eq_ok, run_lift_eq_ok,
    run'_eq_ok, run_takeMessages_eq_ok, run_finish_eq_ok, run_pure_eq_ok,
    logLayout]
  constructor
  · rintro ⟨_, _, ⟨hlt, rfl⟩, ⟨_, _, _, ⟨hw, rfl⟩, _, _, ⟨rfl, rfl⟩, rfl, rfl⟩, rfl⟩
    rw [List.append_nil] at hlt ⊢
    exact ⟨⟨hw, hlt⟩, rfl⟩
  · rintro ⟨⟨hw, hlt⟩, rfl⟩
    exact ⟨_, rest, ⟨hlt, rfl⟩, ⟨[], log, [], ⟨hw, (List.append_nil _).symm⟩, (), [], ⟨rfl, rfl⟩,
      rfl, rfl⟩, rfl⟩

/-- The bytes of a queue of a snapshot. -/
def queueLayout (entry : (_ : DeviceAddr) × Queue) : Bytes :=
  entry.1.layout ++ (u64Bytes entry.2.base ++ (u64Bytes entry.2.inner.cursor.toUInt64 ++
    logLayout entry.2.inner.log))

/-- The queue of a device can be written and its cursor read back. -/
structure EntryFits (entry : (_ : DeviceAddr) × Queue) : Prop where
  device_fits : entry.1.Fits
  log_fits : LogFits entry.2.inner.log

theorem putQueue_eq_ok_iff (out : Bytes) (entry : (_ : DeviceAddr) × Queue) (b : Bytes) :
    putQueue out entry = .ok b ↔ EntryFits entry ∧ b = out ++ queueLayout entry := by
  simp only [putQueue, bind_eq_ok, putAddr_eq_ok_iff, putMessages_eq_ok_iff, putBytes_eq_ok_iff,
    queueLayout, logLayout]
  constructor
  · rintro ⟨_, ⟨hd, rfl⟩, _, ⟨hw, rfl⟩, hlt, rfl⟩
    refine ⟨⟨hd, hw, hlt⟩, ?_⟩
    simp only [List.append_assoc, List.nil_append]
  · rintro ⟨⟨hd, hw, hlt⟩, rfl⟩
    refine ⟨_, ⟨hd, rfl⟩, _, ⟨hw, rfl⟩, hlt, ?_⟩
    simp only [List.append_assoc, List.nil_append]

/-- A queue as a snapshot restores it: the pending bytes are counted anew. -/
def Queue.recounted (q : Queue) : Queue := { q with pendingBytes := bytesOf q.inner.pending }

theorem LogFits.cursor_lt {s : Session StoredMessage} (h : LogFits s.log) : s.cursor < 2 ^ 64 := by
  have hle := s.cursor_le
  have hlt := h.writable.length_lt
  omega

theorem run_takeQueue {entry : (_ : DeviceAddr) × Queue} (h : EntryFits entry)
    (queues : AList fun _ : DeviceAddr => Queue) (rest : Bytes) :
    (takeQueue queues).run (queueLayout entry ++ rest) =
      .ok (queues.insert entry.1 entry.2.recounted, rest) := by
  simp only [takeQueue, run_bind_eq_ok, run_takeAddr_eq_ok, run_takeU64_eq_ok,
    run_takeLog_eq_ok, run_lift_eq_ok, orRefuse_eq_ok, run_pure_eq_ok, queueLayout,
    List.append_assoc]
  refine ⟨entry.1, _, ⟨h.device_fits, rfl⟩, entry.2.base, _, rfl, entry.2.inner.cursor.toUInt64, _,
    rfl, entry.2.inner.log, rest, ⟨h.log_fits, rfl⟩, entry.2.recounted, rest, ⟨?_, rfl⟩, rfl, rfl⟩
  rw [toNat_toUInt64_of_lt h.log_fits.cursor_lt,
    fromParts_session]
  rfl

theorem lookup_foldl_insert {α β γ : Type} [DecidableEq α] {f : β → γ}
    {entries : List ((_ : α) × β)} (hnodup : entries.NodupKeys) (acc : AList fun _ : α => γ)
    (a : α) :
    (entries.foldl (fun acc entry => acc.insert entry.1 (f entry.2)) acc).lookup a =
      ((entries.dlookup a).map f).or (acc.lookup a) := by
  induction entries generalizing acc with
  | nil => rfl
  | cons entry entries ih =>
    obtain ⟨key, value⟩ := entry
    obtain ⟨hkey, hnodup⟩ := List.nodupKeys_cons.mp hnodup
    rw [List.foldl_cons, ih hnodup]
    by_cases ha : a = key
    · subst ha
      rw [List.dlookup_eq_none.mpr hkey, List.dlookup_cons_eq, AList.lookup_insert]
      rfl
    · rw [List.dlookup_cons_ne _ _ ha, AList.lookup_insert_ne ha]

/-! ### Snapshots -/

/-- A snapshot of the relay can be taken. -/
structure Storable (r : Relay) : Prop where
  devices_lt : r.queues.entries.length < 2 ^ 32
  entries_fit : ∀ entry ∈ r.queues.entries, EntryFits entry

/-- The queues in the order of the snapshot. -/
def sortedEntries (r : Relay) : List ((_ : DeviceAddr) × Queue) :=
  r.queues.entries.insertionSort fun a b => (a.1.cmp b.1).isLE

theorem perm_sortedEntries (r : Relay) : r.sortedEntries.Perm r.queues.entries :=
  List.perm_insertionSort _ _

def snapshotLayout (r : Relay) : Bytes :=
  snapshotMarker :: snapshotVersion2 :: (u32Bytes r.queues.entries.length.toUInt32 ++
    r.sortedEntries.flatMap queueLayout)

theorem snapshot_eq_ok_iff {r : Relay} {b : Bytes} :
    r.snapshot = .ok b ↔ r.Storable ∧ b = r.snapshotLayout := by
  have hlen : r.sortedEntries.length = r.queues.entries.length := r.perm_sortedEntries.length_eq
  have hmem : (∀ entry ∈ r.sortedEntries, EntryFits entry) ↔
      ∀ entry ∈ r.queues.entries, EntryFits entry :=
    forall_congr' fun entry => by rw [r.perm_sortedEntries.mem_iff]
  have hiff : r.snapshot = .ok b ↔ ¬2 ^ 32 ≤ r.sortedEntries.length ∧
      r.sortedEntries.foldlM putQueue ([snapshotMarker, snapshotVersion2] ++
        u32Bytes r.sortedEntries.length.toUInt32) = .ok b := by
    rw [snapshot]
    exact refuseIf_bind_eq_ok
  rw [hiff, foldlM_eq_ok_iff putQueue_eq_ok_iff, hlen, hmem, not_le]
  constructor
  · rintro ⟨hlt, hfits, rfl⟩
    exact ⟨⟨hlt, hfits⟩, rfl⟩
  · rintro ⟨h, rfl⟩
    exact ⟨h.devices_lt, h.entries_fit, rfl⟩

/-- The queues of some devices, each made from what is known of it. -/
def insertAll {α : Type} (f : α → Queue) (entries : List ((_ : DeviceAddr) × α)) :
    AList fun _ : DeviceAddr => Queue :=
  entries.foldl (fun queues entry => queues.insert entry.1 (f entry.2)) ∅

theorem lookup_insertAll {α : Type} {f : α → Queue} {entries : List ((_ : DeviceAddr) × α)}
    (hnodup : entries.NodupKeys) (d : DeviceAddr) :
    (insertAll f entries).lookup d = (entries.dlookup d).map f := by
  rw [insertAll, lookup_foldl_insert hnodup, AList.lookup_empty, Option.or_none]

/-- Queues written one after the other are read back under their devices. -/
theorem run_readQueues {α : Type} {takeOne : (AList fun _ : DeviceAddr => Queue) →
      Reader Unit (AList fun _ : DeviceAddr => Queue)} {layout : (_ : DeviceAddr) × α → Bytes}
    {f : α → Queue} {entries : List ((_ : DeviceAddr) × α)} (hnodup : entries.NodupKeys)
    (hlt : entries.length < 2 ^ 32)
    (hone : ∀ entry ∈ entries, ∀ acc rest, (takeOne acc).run (layout entry ++ rest) =
      .ok (acc.insert entry.1 (f entry.2), rest)) :
    ∃ r, (readQueues takeOne).run' (u32Bytes entries.length.toUInt32 ++ entries.flatMap layout) =
        .ok r ∧ (∀ d, r.queues.lookup d = (entries.dlookup d).map f) ∧ r.rebuildUserBytes = r := by
  have hcount : entries.length.toUInt32.toNat = entries.length := by
    rw [toNat_toUInt32_of_lt hlt]
  have hloop := run_loop_foldl hone ∅ []
  rw [List.append_nil] at hloop
  refine ⟨{ Relay.new with queues := insertAll f entries }.rebuildUserBytes,
    run'_eq_ok.mpr ⟨[], ?_⟩, lookup_insertAll hnodup, rfl⟩
  rw [readQueues]
  simp only [run_bind_eq_ok, run_takeU32_eq_ok, run_finish_eq_ok,
    run_pure_eq_ok]
  exact ⟨_, _, rfl, _, [], hcount.symm ▸ hloop, (), [], ⟨rfl, rfl⟩, rfl, rfl⟩

theorem restore_snapshotLayout {r : Relay} (h : r.Storable) :
    ∃ r', restore r.snapshotLayout = some r' ∧
      (∀ d, r'.queues.lookup d = (r.queues.lookup d).map Queue.recounted) ∧
        r'.rebuildUserBytes = r' := by
  have hlen : r.sortedEntries.length = r.queues.entries.length := r.perm_sortedEntries.length_eq
  have hnodup : r.sortedEntries.NodupKeys :=
    (List.perm_nodupKeys r.perm_sortedEntries).mpr r.queues.nodupKeys
  obtain ⟨r', hread, hlookup, hrebuilt⟩ := run_readQueues (f := Queue.recounted) hnodup
    (hlen.symm ▸ h.devices_lt) fun entry hentry acc rest =>
      run_takeQueue (h.entries_fit entry (r.perm_sortedEntries.mem_iff.mp hentry)) acc rest
  refine ⟨r', ?_, fun d => ?_, hrebuilt⟩
  · have hv2 : restoreV2 (u32Bytes r.sortedEntries.length.toUInt32 ++
        r.sortedEntries.flatMap queueLayout) = some r' := toOption_eq_some.mpr hread
    rw [hlen] at hv2
    exact hv2
  · rw [hlookup, List.perm_dlookup d hnodup r.perm_sortedEntries]
    rfl

end Relay

end Tacenta
