import Tacenta.Library.Table
import Tacenta.Relay.LogRefinement

/-!
# The relay's memory budgets

The relay counts the bytes that are pending in each queue, for each user and in all. The counts are
indexes: they grow with every accepted send, shrink by what an acknowledgement frees, and are
counted anew by a restart. This module compares them with the messages that are pending.

## Main definitions

* `withMaxTotalBytes`, `stepUnder`: runs under a ceiling, which a restart sets again.
* `userPending`, `totalPending`: the bytes of the messages that are pending for a user and in all.
* `Budgeted`: the counts are exact and within the budgets.
* `Overfills`: a message would exceed a budget.
* `InRange`: no sum of a request stops at the largest word and no difference at zero.
* `LeavesRoom`: one more message brings the total to no more than the largest word.

## Main results

* `enqueue_sent`, `Budgeted.ack`, `Budgeted.restart`: one step.
* `budgets_exact`: every run under any ceiling in which there is room for one message below the
  largest word.
* `largest_ceiling_wraps`: under the largest ceiling the total can wrap.
-/

open ByteString Tacenta.Wire

namespace Tacenta

namespace Relay

/-! ### Runs under a ceiling -/

/-- Set the ceiling of the whole relay, which must leave room for the budget of one user. -/
def withMaxTotalBytes (r : Relay) (limit : UInt64) : Option Relay :=
  if limit.toNat < maxUserBytes then none else some { r with maxTotalBytes := limit.toNat }

/-- Answer a request, or restart under the ceiling; a failed restart replaces nothing. -/
def stepUnder (limit : UInt64) : Machine Relay Input Answer
  | r, .request authorized request =>
    let (r, response) := r.handle authorized request
    (r, .response response)
  | r, .restart =>
    match r.restart.bind fun r => r.withMaxTotalBytes limit with
    | some r => (r, .restarted)
    | none => (r, .failed)

/-! ### What is pending -/

/-- The bytes that are pending for a user. -/
def userPending (r : Relay) (user : String) : Nat :=
  Table.total (fun d q => if d.user = user then bytesOf q.pending else 0) r.queues

def totalPending (r : Relay) : Nat := Table.total (fun _ q => bytesOf q.pending) r.queues

/-- The counts are exact and within the budgets. -/
structure Budgeted (limit : Nat) (r : Relay) : Prop where
  queue_eq : ∀ d q, r.queues.lookup d = some q → q.pendingBytes = bytesOf q.pending
  user_eq : ∀ user, (r.userBytes.lookup user).getD 0 = r.userPending user
  total_eq : r.totalBytes = r.totalPending
  count_le : ∀ d q, r.queues.lookup d = some q → q.pending.length ≤ maxPending
  queue_le : ∀ d q, r.queues.lookup d = some q → q.pendingBytes ≤ maxQueueBytes
  user_le : ∀ user, (r.userBytes.lookup user).getD 0 ≤ maxUserBytes
  total_le : r.totalBytes ≤ limit
  ceiling : r.maxTotalBytes = limit

/-- The relay as it was: the same queues and counts. -/
structure Same (r r' : Relay) : Prop where
  queues : ∀ d, r'.queues.lookup d = r.queues.lookup d
  userBytes : ∀ user, r'.userBytes.lookup user = r.userBytes.lookup user
  totalBytes : r'.totalBytes = r.totalBytes
  maxTotalBytes : r'.maxTotalBytes = r.maxTotalBytes

theorem Same.refl (r : Relay) : r.Same r := ⟨fun _ => rfl, fun _ => rfl, rfl, rfl⟩

/-- With one more message of a size, the queue, its user or the relay would exceed a budget. -/
def Overfills (limit : Nat) (r : Relay) (recipient : DeviceAddr) (size : Nat) : Prop :=
  maxPending < (r.pending recipient).length + 1 ∨
    maxQueueBytes < bytesOf (r.pending recipient) + size ∨
      maxUserBytes < r.userPending recipient.user + size ∨ limit < r.totalPending + size

/-- What a send does. -/
inductive Sent (limit : Nat) (r : Relay) (recipient : DeviceAddr) (m : StoredMessage) :
    Relay × Enqueued → Prop where
  | tooLarge (hsize : maxEnvelopeBytes < m.byteLen) : Sent limit r recipient m (r, .tooLarge)
  | queueFull {r'} (hsize : m.byteLen ≤ maxEnvelopeBytes)
    (hfull : Overfills limit r recipient m.byteLen) (hsame : r.Same r') :
    Sent limit r recipient m (r', .queueFull)
  | ok (hsize : m.byteLen ≤ maxEnvelopeBytes) (hroom : ¬Overfills limit r recipient m.byteLen) :
    Sent limit r recipient m
      ({ r with
        queues := r.queues.insert recipient { r.queueOf recipient with
          inner := (r.queueOf recipient).inner.append m
          pendingBytes := (r.queueOf recipient).pendingBytes + m.byteLen }
        userBytes := r.userBytes.insert recipient.user (r.userPending recipient.user + m.byteLen)
        totalBytes := r.totalBytes + m.byteLen }, .ok)

/-- No sum of the request stops at the largest word, and no difference at zero. -/
def InRange (r : Relay) (authorized : DeviceAddr) : Request → Prop
  | .send recipient envelope =>
    let size := (⟨authorized, envelope⟩ : StoredMessage).byteLen
    size ≤ maxEnvelopeBytes →
      r.totalBytes + size < 2 ^ 64 ∧ (r.userBytes.lookup recipient.user).getD 0 + size < 2 ^ 64 ∧
        (r.queueOf recipient).pendingBytes + size < 2 ^ 64
  | .ack device upTo => ∀ q, r.queues.lookup device = some q → (q.ack upTo).2 = true →
    (q.ack upTo).1.pendingBytes ≤ q.pendingBytes ∧
      q.pendingBytes - (q.ack upTo).1.pendingBytes ≤ (r.userBytes.lookup device.user).getD 0 ∧
        q.pendingBytes - (q.ack upTo).1.pendingBytes ≤ r.totalBytes
  | .poll _ => True
  | .delivered _ => True

/-- Below the largest word there is room for one more message of any size: the ceiling leaves it, or
what is pending does. -/
def LeavesRoom (r : Relay) (limit : Nat) : Prop :=
  limit + maxEnvelopeBytes < 2 ^ 64 ∨ r.totalPending + maxEnvelopeBytes < 2 ^ 64

instance (limit : Nat) (r : Relay) : Decidable (r.LeavesRoom limit) :=
  inferInstanceAs (Decidable (_ ∨ _))

/-! ### Queues -/

theorem bytesOf_append (messages more : List StoredMessage) :
    bytesOf (messages ++ more) = bytesOf messages + bytesOf more := by
  rw [bytesOf, bytesOf, bytesOf, List.map_append, List.sum_append]

theorem bytesOf_le_of_suffix {messages more : List StoredMessage} (h : messages <:+ more) :
    bytesOf messages ≤ bytesOf more := by
  obtain ⟨before, rfl⟩ := h
  rw [bytesOf_append]
  exact Nat.le_add_left _ _

theorem Queue.pending_append (q : Queue) (m : StoredMessage) (bytes : Nat) :
    Queue.pending { q with inner := q.inner.append m, pendingBytes := bytes } =
      q.pending ++ [m] := by
  rw [Queue.pending, Queue.pending, Session.pending, Session.pending, Session.append]
  exact List.drop_append_of_le_length q.inner.cursor_le

theorem Queue.pending_compact (q : Queue) : q.compact.pending = q.pending := by
  rw [Queue.compact]
  split
  · rfl
  · obtain ⟨hlog, hcursor⟩ := foldl_append Session.new q.inner.pending
    rw [Queue.pending, Session.pending, hlog, hcursor]
    rfl

theorem Queue.ack_pending {q : Queue} {upTo : UInt64} (h : (q.ack upTo).2 = true) :
    (q.ack upTo).1.pending <:+ q.pending ∧
      (q.ack upTo).1.pendingBytes = bytesOf (q.ack upTo).1.pending := by
  by_cases hbase : upTo < q.base
  · rw [Queue.ack, if_pos hbase] at h
    cases h
  rw [Queue.ack, if_neg hbase, Session.ack] at h ⊢
  by_cases hn : q.inner.cursor < (upTo - q.base).toNat ∧
      (upTo - q.base).toNat ≤ q.inner.log.length
  · rw [dif_pos hn]
    refine ⟨?_, rfl⟩
    change Queue.pending (Queue.compact _) <:+ _
    rw [Queue.pending_compact, Queue.pending, Queue.pending, Session.pending, Session.pending]
    exact List.drop_suffix_drop_left _ hn.1.le
  · rw [dif_neg hn] at h
    cases h

/-! ### Replacing a queue -/

section

variable {limit : Nat} {r : Relay}

theorem pending_eq_of_lookup {d : DeviceAddr} {q : Queue} (h : r.queues.lookup d = some q) :
    r.pending d = q.pending := by
  rw [pending, h]
  rfl

theorem userPending_insert (r : Relay) (d : DeviceAddr) (q : Queue) (user : String) :
    userPending { r with queues := r.queues.insert d q } user +
        (if d.user = user then bytesOf (r.pending d) else 0) =
      r.userPending user + if d.user = user then bytesOf q.pending else 0 := by
  have h := Table.total_insert
    (fun d q => if d.user = user then bytesOf (Queue.pending q) else 0) r.queues d q
  have hold : ((r.queues.lookup d).map fun q => if d.user = user then bytesOf (Queue.pending q)
      else 0).getD 0 = if d.user = user then bytesOf (r.pending d) else 0 := by
    rw [pending]
    cases r.queues.lookup d <;> simp [bytesOf]
  rwa [hold] at h

theorem totalPending_insert (r : Relay) (d : DeviceAddr) (q : Queue) :
    totalPending { r with queues := r.queues.insert d q } + bytesOf (r.pending d) =
      r.totalPending + bytesOf q.pending := by
  have h := Table.total_insert (fun _ q => bytesOf (Queue.pending q)) r.queues d q
  have hold : ((r.queues.lookup d).map fun q => bytesOf (Queue.pending q)).getD 0 =
      bytesOf (r.pending d) := by
    rw [pending]
    cases r.queues.lookup d <;> simp [bytesOf]
  rwa [hold] at h

theorem bytesOf_pending_le_userPending (r : Relay) (d : DeviceAddr) :
    bytesOf (r.pending d) ≤ r.userPending d.user := by
  rw [pending]
  cases hlookup : r.queues.lookup d with
  | none => exact Nat.zero_le _
  | some q =>
    have h := Table.le_total (fun e q => if e.user = d.user then bytesOf (Queue.pending q) else 0)
      hlookup
    rwa [if_pos rfl] at h

theorem userPending_le_totalPending (r : Relay) (user : String) :
    r.userPending user ≤ r.totalPending := by
  refine Table.total_le_total fun d q => ?_
  split
  · exact Nat.le_refl _
  · exact Nat.zero_le _

/-! ### Sends -/

namespace Budgeted

theorem queueOf_pendingBytes (h : Budgeted limit r) (d : DeviceAddr) :
    (r.queueOf d).pendingBytes = bytesOf (r.pending d) := by
  rw [pending_eq_queueOf, queueOf]
  cases hlookup : r.queues.lookup d with
  | none => rfl
  | some q => exact h.queue_eq d q hlookup

theorem total_add_lt (h : Budgeted limit r) (hroom : r.LeavesRoom limit) :
    r.totalBytes + maxEnvelopeBytes < 2 ^ 64 := by
  rcases hroom with hlimit | hpending
  · exact (Nat.add_le_add_right h.total_le _).trans_lt hlimit
  · rwa [h.total_eq]

theorem inRange (h : Budgeted limit r) (hroom : r.LeavesRoom limit)
    (authorized : DeviceAddr) (request : Request) : r.InRange authorized request := by
  cases request with
  | send recipient envelope =>
    intro hsize
    have htotal := h.total_add_lt hroom
    have huser := h.user_le recipient.user
    have hqueue := bytesOf_pending_le_userPending r recipient
    rw [← h.user_eq] at hqueue
    rw [h.queueOf_pendingBytes]
    simp only [maxEnvelopeBytes, maxUserBytes] at *
    omega
  | ack device upTo =>
    intro q hq hack
    obtain ⟨hsuffix, hbytes⟩ := Queue.ack_pending hack
    have hle := bytesOf_le_of_suffix hsuffix
    have hqueue := h.queue_eq device q hq
    have huser := bytesOf_pending_le_userPending r device
    have htotal := userPending_le_totalPending r device.user
    rw [pending_eq_of_lookup hq] at huser
    rw [h.user_eq, h.total_eq]
    omega
  | poll => trivial
  | delivered => trivial

end Budgeted

/-- A queue within its budget takes a message unless that exceeds the budget. -/
theorem Queue.enqueue_eq {q : Queue} {m : StoredMessage} (hsize : m.byteLen ≤ maxEnvelopeBytes)
    (hbytes : q.pendingBytes + m.byteLen < 2 ^ 64) :
    q.enqueue m =
      if maxPending ≤ q.pending.length ∨ maxQueueBytes < q.pendingBytes + m.byteLen then
        (q, .queueFull)
      else ({ q with
        inner := q.inner.append m
        pendingBytes := q.pendingBytes + m.byteLen }, .ok) := by
  rw [Queue.enqueue, if_neg hsize.not_gt, Word64.saturate_of_lt hbytes]
  rfl

theorem exists_of_full {recipient : DeviceAddr} {size : Nat} (hsize : size ≤ maxEnvelopeBytes)
    (hfull : maxPending ≤ (r.pending recipient).length ∨
      maxQueueBytes < bytesOf (r.pending recipient) + size) :
    r.queues.lookup recipient = some (r.queueOf recipient) := by
  rw [pending] at hfull
  rw [queueOf]
  cases hlookup : r.queues.lookup recipient with
  | none =>
    rw [hlookup] at hfull
    have hnone : bytesOf ((none.map Queue.pending).getD []) = 0 := rfl
    rw [hnone] at hfull
    simp only [Option.map_none, Option.getD_none, List.length_nil, maxPending, maxQueueBytes,
      maxEnvelopeBytes] at hfull hsize
    omega
  | some q => rfl

theorem lookup_insert_queueOf {recipient : DeviceAddr}
    (h : r.queues.lookup recipient = some (r.queueOf recipient)) (d : DeviceAddr) :
    (r.queues.insert recipient (r.queueOf recipient)).lookup d = r.queues.lookup d := by
  rw [Table.lookup_insert_eq]
  split
  · next hd => rw [hd, h]
  · rfl

/-- A send is answered by its size and the budgets, and changes the relay only if it is accepted. -/
theorem enqueue_sent (h : Budgeted limit r) (hroom : r.LeavesRoom limit)
    (recipient source : DeviceAddr) (envelope : Envelope) :
    Sent limit r recipient ⟨source, envelope⟩ (r.enqueue recipient source envelope) := by
  have hrange := h.inRange hroom source (.send recipient envelope)
  generalize hm : (⟨source, envelope⟩ : StoredMessage) = m at hrange
  rw [enqueue, hm]
  dsimp only
  split
  · next hsize => exact .tooLarge hsize
  next hsize =>
  rw [not_lt] at hsize
  obtain ⟨htotal, huser, hqueue⟩ := hm ▸ hrange (hm ▸ hsize)
  rw [Word64.saturate_of_lt htotal, Word64.saturate_of_lt huser, Nat.mod_eq_of_lt htotal]
  split
  · next hfull =>
    rw [h.ceiling, h.total_eq] at hfull
    exact .queueFull hsize (.inr (.inr (.inr hfull))) (.refl r)
  next htotalRoom =>
  rw [h.ceiling, h.total_eq] at htotalRoom
  rw [h.user_eq]
  split
  · next hfull => exact .queueFull hsize (.inr (.inr (.inl hfull))) (.refl r)
  next huserRoom =>
  rw [show (r.queues.lookup recipient).getD .new = r.queueOf recipient from rfl,
    Queue.enqueue_eq hsize hqueue]
  split
  · next hfull =>
    rw [h.queueOf_pendingBytes, ← pending_eq_queueOf] at hfull
    refine .queueFull hsize (hfull.imp Nat.lt_succ_of_le .inl) ⟨?_, fun _ => rfl, rfl, rfl⟩
    exact lookup_insert_queueOf (exists_of_full hsize hfull)
  · next hroom =>
    rw [h.queueOf_pendingBytes, ← pending_eq_queueOf] at hroom
    refine .ok hsize ?_
    rintro (hcount | hbytes | huser | htotal)
    · exact hroom (.inl (Nat.le_of_lt_succ hcount))
    · exact hroom (.inr hbytes)
    · exact huserRoom huser
    · exact htotalRoom htotal

/-! ### Steps -/

namespace Budgeted

theorem congr (h : Budgeted limit r) {r' : Relay} (hsame : r.Same r') : Budgeted limit r' where
  queue_eq d q hq := h.queue_eq d q (hsame.queues d ▸ hq)
  user_eq user := by
    rw [hsame.userBytes, h.user_eq]
    exact Table.total_eq_of_lookup _ fun d => (hsame.queues d).symm
  total_eq := by
    rw [hsame.totalBytes, h.total_eq]
    exact Table.total_eq_of_lookup _ fun d => (hsame.queues d).symm
  count_le d q hq := h.count_le d q (hsame.queues d ▸ hq)
  queue_le d q hq := h.queue_le d q (hsame.queues d ▸ hq)
  user_le user := hsame.userBytes user ▸ h.user_le user
  total_le := hsame.totalBytes ▸ h.total_le
  ceiling := hsame.maxTotalBytes.trans h.ceiling

theorem replace (h : Budgeted limit r) {d : DeviceAddr} {q : Queue}
    {userBytes : AList fun _ : String => Nat} {totalBytes : Nat}
    (hq : q.pendingBytes = bytesOf q.pending) (hcount : q.pending.length ≤ maxPending)
    (hbytes : q.pendingBytes ≤ maxQueueBytes)
    (huser : ∀ user, (userBytes.lookup user).getD 0 +
        (if d.user = user then bytesOf (r.pending d) else 0) =
      (r.userBytes.lookup user).getD 0 + if d.user = user then bytesOf q.pending else 0)
    (huser_le : ∀ user, (userBytes.lookup user).getD 0 ≤ maxUserBytes)
    (htotal : totalBytes + bytesOf (r.pending d) = r.totalBytes + bytesOf q.pending)
    (htotal_le : totalBytes ≤ limit) :
    Budgeted limit { r with queues := r.queues.insert d q, userBytes, totalBytes } where
  queue_eq d' q' hq' := by
    rw [Table.lookup_insert_eq] at hq'
    split at hq'
    · cases hq'
      exact hq
    · exact h.queue_eq d' q' hq'
  user_eq user := by
    have hinsert := userPending_insert r d q user
    have hchange := huser user
    rw [h.user_eq] at hchange
    exact Nat.add_right_cancel (hchange.trans hinsert.symm)
  total_eq := by
    have hinsert := totalPending_insert r d q
    rw [h.total_eq] at htotal
    exact Nat.add_right_cancel (htotal.trans hinsert.symm)
  count_le d' q' hq' := by
    rw [Table.lookup_insert_eq] at hq'
    split at hq'
    · cases hq'
      exact hcount
    · exact h.count_le d' q' hq'
  queue_le d' q' hq' := by
    rw [Table.lookup_insert_eq] at hq'
    split at hq'
    · cases hq'
      exact hbytes
    · exact h.queue_le d' q' hq'
  user_le := huser_le
  total_le := htotal_le
  ceiling := h.ceiling

theorem send (h : Budgeted limit r) {recipient : DeviceAddr} {m : StoredMessage}
    {result : Relay × Enqueued} (hsent : Sent limit r recipient m result) :
    Budgeted limit result.1 := by
  cases hsent with
  | tooLarge => exact h
  | queueFull _ _ hsame => exact h.congr hsame
  | ok _ hroom =>
    simp only [Overfills, not_or, not_lt] at hroom
    obtain ⟨hcount, hqueue, huser, htotal⟩ := hroom
    have hpending : Queue.pending { r.queueOf recipient with
        inner := (r.queueOf recipient).inner.append m
        pendingBytes := (r.queueOf recipient).pendingBytes + m.byteLen } =
        r.pending recipient ++ [m] := by
      rw [Queue.pending_append, pending_eq_queueOf]
    have hbytes : bytesOf (r.pending recipient ++ [m]) =
        bytesOf (r.pending recipient) + m.byteLen := by
      rw [bytesOf_append]
      rfl
    refine h.replace ?_ ?_ ?_ (fun user => ?_) (fun user => ?_) ?_ ?_
    · rw [hpending, hbytes, h.queueOf_pendingBytes]
    · rw [hpending, List.length_append]
      exact hcount
    · rw [h.queueOf_pendingBytes]
      exact hqueue
    · rw [hpending, hbytes, Table.lookup_insert_eq]
      by_cases hu : user = recipient.user
      · rw [if_pos hu, if_pos hu.symm, if_pos hu.symm, hu, h.user_eq, Option.getD_some]
        omega
      · rw [if_neg hu, if_neg (Ne.symm hu), if_neg (Ne.symm hu)]
    · rw [Table.lookup_insert_eq]
      split
      · exact huser
      · exact h.user_le user
    · rw [hpending, hbytes]
      omega
    · rw [h.total_eq]
      exact htotal

theorem release (h : Budgeted limit r) {device : DeviceAddr} {upTo : UInt64} {q : Queue}
    (hlookup : r.queues.lookup device = some q) (hack : (q.ack upTo).2 = true)
    {userBytes : AList fun _ : String => Nat}
    (huserBytes : ∀ user, (userBytes.lookup user).getD 0 = (r.userBytes.lookup user).getD 0 -
      if user = device.user then q.pendingBytes - (q.ack upTo).1.pendingBytes else 0) :
    Budgeted limit { r with
      queues := r.queues.insert device (q.ack upTo).1
      userBytes
      totalBytes := r.totalBytes - (q.pendingBytes - (q.ack upTo).1.pendingBytes) } := by
  obtain ⟨hsuffix, hbytes⟩ := Queue.ack_pending hack
  have hle := bytesOf_le_of_suffix hsuffix
  have hq := h.queue_eq device q hlookup
  have hpending : r.pending device = q.pending := pending_eq_of_lookup hlookup
  have huser := bytesOf_pending_le_userPending r device
  have htotal := userPending_le_totalPending r device.user
  rw [← h.user_eq, hpending] at huser
  rw [← h.user_eq, ← h.total_eq] at htotal
  refine h.replace hbytes (hsuffix.length_le.trans (h.count_le device q hlookup)) ?_
    (fun user => ?_) (fun user => ?_) ?_ ?_
  · have := h.queue_le device q hlookup
    omega
  · rw [huserBytes, hpending]
    by_cases hu : user = device.user
    · subst hu
      rw [if_pos rfl, if_pos rfl, if_pos rfl]
      omega
    · rw [if_neg hu, if_neg (Ne.symm hu), if_neg (Ne.symm hu)]
      rfl
  · rw [huserBytes]
    exact (Nat.sub_le _ _).trans (h.user_le user)
  · rw [hpending]
    omega
  · exact (Nat.sub_le _ _).trans h.total_le

theorem ack (h : Budgeted limit r) (device : DeviceAddr) (upTo : UInt64) :
    Budgeted limit (r.ack device upTo).1 := by
  rw [Relay.ack]
  cases hlookup : r.queues.lookup device with
  | none => exact h
  | some q =>
    dsimp only
    split
    · next hack =>
      cases hu : r.userBytes.lookup device.user with
      | none =>
        refine h.release hlookup hack fun user => ?_
        dsimp only
        split
        · next huser =>
          rw [huser, hu]
          exact (Nat.zero_sub _).symm
        · rfl
      | some bytes =>
        refine h.release hlookup hack fun user => ?_
        rw [Table.lookup_insert_eq]
        split
        · next huser =>
          rw [huser, hu]
          rfl
        · rfl
    · exact h

theorem new (limit : Nat) : Budgeted limit { Relay.new with maxTotalBytes := limit } where
  queue_eq d q hq := by cases hq
  user_eq _ := rfl
  total_eq := rfl
  count_le d q hq := by cases hq
  queue_le d q hq := by cases hq
  user_le _ := Nat.zero_le _
  total_le := Nat.zero_le _
  ceiling := rfl

end Budgeted

/-! ### Restarts -/

/-- Counting anew gives each user the sum over their queues. -/
theorem lookup_foldl_userBytes (entries : List ((_ : DeviceAddr) × Queue))
    (totals : AList fun _ : String => Nat) (user : String) :
    (AList.lookup user (entries.foldl (fun totals entry => totals.insert entry.1.user
        ((totals.lookup entry.1.user).getD 0 + entry.2.pendingBytes)) totals)).getD 0 =
      (totals.lookup user).getD 0 +
        (entries.map fun entry => if entry.1.user = user then entry.2.pendingBytes else 0).sum := by
  induction entries generalizing totals with
  | nil => rfl
  | cons entry entries ih =>
    rw [List.foldl_cons, ih, Table.lookup_insert_eq, List.map_cons, List.sum_cons]
    by_cases hu : user = entry.1.user
    · rw [if_pos hu, if_pos hu.symm, hu, Option.getD_some]
      omega
    · rw [if_neg hu, if_neg (Ne.symm hu), Nat.zero_add]

theorem lookup_rebuildUserBytes (r : Relay) (user : String) :
    (r.rebuildUserBytes.userBytes.lookup user).getD 0 =
      Table.total (fun d q => if d.user = user then q.pendingBytes else 0) r.queues := by
  rw [rebuildUserBytes, lookup_foldl_userBytes]
  exact Nat.zero_add _

/-- A restarted relay has the same queues, and counts that are made from them. -/
theorem Budgeted.restart (h : Budgeted limit r) {r' : Relay} (hr : r.restart = some r') :
    Budgeted limit { r' with maxTotalBytes := limit } := by
  rw [Relay.restart] at hr
  split at hr
  · next bytes hsnapshot =>
    obtain ⟨hstorable, rfl⟩ := snapshot_eq_ok_iff.mp hsnapshot
    obtain ⟨r'', hrestore, hlookup, hrebuilt⟩ := restore_snapshotLayout hstorable
    obtain rfl := Option.some_inj.mp (hr.symm.trans hrestore)
    have hqueues (d : DeviceAddr) : r'.queues.lookup d = r.queues.lookup d := by
      rw [hlookup]
      cases hq : r.queues.lookup d with
      | none => rfl
      | some q =>
        rw [Option.map_some, Queue.recounted, ← Queue.pending, ← h.queue_eq d q hq]
    have hexact (d : DeviceAddr) (q : Queue) (hq : r'.queues.lookup d = some q) :
        q.pendingBytes = bytesOf q.pending := h.queue_eq d q (hqueues d ▸ hq)
    have huser (user : String) : (r'.userBytes.lookup user).getD 0 = r.userPending user := by
      rw [← hrebuilt, lookup_rebuildUserBytes]
      refine (Table.total_congr fun d q hq => ?_).trans (Table.total_eq_of_lookup _ hqueues)
      rw [hexact d q hq]
    have htotal : r'.totalBytes = r.totalPending := by
      rw [← hrebuilt]
      exact (Table.total_congr hexact).trans (Table.total_eq_of_lookup _ hqueues)
    exact
      { queue_eq := hexact
        user_eq := fun user => (huser user).trans (Table.total_eq_of_lookup _ hqueues).symm
        total_eq := htotal.trans (Table.total_eq_of_lookup _ hqueues).symm
        count_le := fun d q hq => h.count_le d q (hqueues d ▸ hq)
        queue_le := fun d q hq => h.queue_le d q (hqueues d ▸ hq)
        user_le := fun user => (huser user).trans (h.user_eq user).symm ▸ h.user_le user
        total_le := htotal.trans h.total_eq.symm ▸ h.total_le
        ceiling := rfl }
  · cases hr

/-! ### Runs -/

theorem withMaxTotalBytes_eq_some {limit : UInt64} {r' : Relay}
    (h : r.withMaxTotalBytes limit = some r') : r' = { r with maxTotalBytes := limit.toNat } := by
  rw [withMaxTotalBytes] at h
  split at h
  · cases h
  · exact (Option.some_inj.mp h).symm

theorem Budgeted.handle (h : Budgeted limit r) (hroom : r.LeavesRoom limit)
    (authorized : DeviceAddr) (request : Request) :
    Budgeted limit (r.handle authorized request).1 := by
  have hhandled := r.handle_handled authorized request
  generalize r.handle authorized request = result at hhandled ⊢
  cases hhandled with
  | sent recipient envelope => exact h.send (enqueue_sent h hroom recipient authorized envelope)
  | acked upTo => exact h.ack authorized upTo
  | answered => exact h

theorem Budgeted.step {limit : UInt64} (h : Budgeted limit.toNat r)
    (hroom : r.LeavesRoom limit.toNat) (input : Input) :
    Budgeted limit.toNat (stepUnder limit r input).1 := by
  cases input with
  | request authorized request => exact h.handle hroom authorized request
  | restart =>
    rw [stepUnder]
    split
    · next r' hr =>
      obtain ⟨r'', hrestart, hlimited⟩ := Option.bind_eq_some_iff.mp hr
      rw [withMaxTotalBytes_eq_some hlimited]
      exact h.restart hrestart
    · exact h

/-- In every run under a ceiling in which there is always room for one more message below the
largest word, the counts are exact and within the budgets, no sum or difference leaves its range,
and a send is answered by its size and the budgets and changes nothing if it is refused. -/
theorem budgets_exact (limit : UInt64) {start : Relay}
    (hstart : Relay.new.withMaxTotalBytes limit = some start) (inputs : List Input)
    (hroom : Machine.Along (stepUnder limit) (fun r _ => r.LeavesRoom limit.toNat) start inputs) :
    let r := Machine.run (stepUnder limit) start inputs
    Budgeted limit.toNat r ∧ (r.LeavesRoom limit.toNat →
      (∀ authorized request, r.InRange authorized request) ∧
      ∀ authorized recipient envelope, ∃ r' answer,
        r.handle authorized (.send recipient envelope) = (r', answer) ∧
          let size := (⟨authorized, envelope⟩ : StoredMessage).byteLen
          (answer = .tooLarge ↔ maxEnvelopeBytes < size) ∧
          (answer = .queueFull ↔
            size ≤ maxEnvelopeBytes ∧ Overfills limit.toNat r recipient size) ∧
          (answer = .ok ↔
            size ≤ maxEnvelopeBytes ∧ ¬Overfills limit.toNat r recipient size) ∧
          (answer ≠ .ok → r.Same r')) := by
  intro r
  have h : Budgeted limit.toNat r :=
    Machine.run_invariant (Budgeted limit.toNat) (fun _ input h hroom => h.step hroom input)
      (withMaxTotalBytes_eq_some hstart ▸ Budgeted.new limit.toNat) hroom
  refine ⟨h, fun hroom => ⟨h.inRange hroom, fun authorized recipient envelope => ?_⟩⟩
  have hsent := enqueue_sent h hroom recipient authorized envelope
  rw [handle]
  generalize r.enqueue recipient authorized envelope = result at hsent
  refine ⟨result.1, result.2.response, rfl, ?_⟩
  cases hsent with
  | tooLarge hsize => simp [Enqueued.response, hsize, Same.refl, hsize.not_ge]
  | queueFull hsize hfull hsame =>
    simp [Enqueued.response, hsize, hfull, hsame, hsize.not_gt]
  | ok hsize hroom => simp [Enqueued.response, hsize, hroom, hsize.not_gt]

/-- Under the largest ceiling, six bytes are pending after a run, and the sums are in range. -/
theorem budgets_exact_sample :
    let start := { Relay.new with maxTotalBytes := 2 ^ 64 - 1 }
    let r := Machine.run (stepUnder Word64.maxValue) start sampleInputs
    Machine.Along (stepUnder Word64.maxValue) (fun r _ => r.LeavesRoom (2 ^ 64 - 1)) start
        sampleInputs ∧
      Budgeted (2 ^ 64 - 1) r ∧ r.totalPending = 6 ∧
        ∀ authorized request, r.InRange authorized request := by
  intro start r
  have hroom : Machine.Along (stepUnder Word64.maxValue)
      (fun r _ => r.LeavesRoom (2 ^ 64 - 1)) start sampleInputs := by decide +kernel
  obtain ⟨hbudgeted, hnext⟩ := budgets_exact Word64.maxValue (by rfl) sampleInputs hroom
  have hpending : r.totalPending = 6 := by decide +kernel
  refine ⟨hroom, hbudgeted, hpending, (hnext (.inr ?_)).1⟩
  exact hpending ▸ (by decide : 6 + maxEnvelopeBytes < 2 ^ 64)

/-! ### The largest ceiling -/

/-- A send within the relay's budgets is stored as the queue stores it. -/
theorem enqueue_of_budget {recipient source : DeviceAddr} {envelope : Envelope} {queue : Queue}
    (hsize : (⟨source, envelope⟩ : StoredMessage).byteLen ≤ maxEnvelopeBytes)
    (htotal : Word64.saturate (r.totalBytes + (⟨source, envelope⟩ : StoredMessage).byteLen) ≤
      r.maxTotalBytes)
    (huser : (r.userBytes.lookup recipient.user).getD 0 +
      (⟨source, envelope⟩ : StoredMessage).byteLen ≤ maxUserBytes)
    (hqueue : (r.queueOf recipient).enqueue ⟨source, envelope⟩ = (queue, .ok)) :
    r.enqueue recipient source envelope =
      ({ r with
        queues := r.queues.insert recipient queue
        userBytes := r.userBytes.insert recipient.user
          ((r.userBytes.lookup recipient.user).getD 0 +
            (⟨source, envelope⟩ : StoredMessage).byteLen)
        totalBytes :=
          (r.totalBytes + (⟨source, envelope⟩ : StoredMessage).byteLen) % 2 ^ 64 }, .ok) := by
  have hstored : ((r.queues.lookup recipient).getD .new).enqueue ⟨source, envelope⟩ =
      (queue, .ok) := hqueue
  have huserRoom : ¬maxUserBytes < Word64.saturate ((r.userBytes.lookup recipient.user).getD 0 +
      (⟨source, envelope⟩ : StoredMessage).byteLen) :=
    ((min_le_left _ _).trans huser).not_gt
  rw [enqueue, if_neg hsize.not_gt, if_neg htotal.not_gt, if_neg huserRoom, hstored]
  rfl

/-- The devices of distinct users, one for each number. -/
def manyDevices (i : Nat) : DeviceAddr := ⟨String.ofList (List.replicate i 'a'), 0⟩

theorem user_manyDevices_injective {i j : Nat} (h : (manyDevices i).user = (manyDevices j).user) :
    i = j := by
  have hchars := congrArg (fun s => s.toList.length) h
  simpa [manyDevices] using hchars

/-- One message to each of the first users. -/
def manySends (payload : Bytes) (n : Nat) : List Input :=
  (List.range n).map fun i => .request ⟨"", 0⟩ (.send (manyDevices i) ⟨.dm, payload⟩)

/-- The relay after one largest message to each of the first users. -/
structure Filled (n : Nat) (r : Relay) : Prop where
  totalBytes_eq : r.totalBytes = n * maxEnvelopeBytes % 2 ^ 64
  totalPending_eq : r.totalPending = n * maxEnvelopeBytes
  ceiling_eq : r.maxTotalBytes = 2 ^ 64 - 1
  queues_eq : ∀ i, n ≤ i → r.queues.lookup (manyDevices i) = none
  userBytes_eq : ∀ i, n ≤ i → r.userBytes.lookup (manyDevices i).user = none

theorem byteLen_largest {payload : Bytes} (hpayload : payload.length = maxEnvelopeBytes) :
    (⟨⟨"", 0⟩, ⟨.dm, payload⟩⟩ : StoredMessage).byteLen = maxEnvelopeBytes := by
  have huser : (utf8Bytes "").length = 0 := rfl
  rw [StoredMessage.byteLen, hpayload, huser, Nat.add_zero]

theorem Filled.send {payload : Bytes} (hpayload : payload.length = maxEnvelopeBytes) {n : Nat}
    (h : Filled n r) :
    Filled (n + 1) (r.handle ⟨"", 0⟩ (.send (manyDevices n) ⟨.dm, payload⟩)).1 := by
  have hsize := byteLen_largest hpayload
  have hnone := h.queues_eq n (Nat.le_refl n)
  have hempty : r.queueOf (manyDevices n) = .new := by rw [queueOf, hnone]; rfl
  have hpending : r.pending (manyDevices n) = [] := by rw [pending, hnone]; rfl
  have hqueue : (r.queueOf (manyDevices n)).enqueue ⟨⟨"", 0⟩, ⟨.dm, payload⟩⟩ =
      (⟨0, Session.new.append ⟨⟨"", 0⟩, ⟨.dm, payload⟩⟩, maxEnvelopeBytes⟩, .ok) := by
    rw [hempty, Queue.enqueue_eq hsize.le (by rw [hsize]; decide), hsize]
    rfl
  have henqueue := enqueue_of_budget (r := r) hsize.le (h.ceiling_eq ▸ min_le_right _ _)
    (by rw [h.userBytes_eq n (Nat.le_refl n), hsize]; decide) hqueue
  rw [Relay.handle, henqueue]
  refine ⟨?_, ?_, h.ceiling_eq, fun i hi => ?_, fun i hi => ?_⟩
  · dsimp only
    rw [h.totalBytes_eq, hsize, Nat.succ_mul, Nat.mod_add_mod]
  · have hinsert := totalPending_insert r (manyDevices n)
      ⟨0, Session.new.append ⟨⟨"", 0⟩, ⟨.dm, payload⟩⟩, maxEnvelopeBytes⟩
    have hbytes : bytesOf (Queue.pending ⟨0, Session.new.append ⟨⟨"", 0⟩, ⟨.dm, payload⟩⟩,
        maxEnvelopeBytes⟩) = maxEnvelopeBytes := hsize
    rw [hpending, hbytes, h.totalPending_eq, ← Nat.succ_mul] at hinsert
    exact hinsert
  · have hne : manyDevices i ≠ manyDevices n := fun he =>
      absurd (user_manyDevices_injective (congrArg DeviceAddr.user he)) (by omega)
    exact (AList.lookup_insert_ne hne).trans (h.queues_eq i (Nat.le_of_succ_le hi))
  · have hne : (manyDevices i).user ≠ (manyDevices n).user := fun he =>
      absurd (user_manyDevices_injective he) (by omega)
    exact (AList.lookup_insert_ne hne).trans (h.userBytes_eq i (Nat.le_of_succ_le hi))

theorem filled_run {payload : Bytes} (hpayload : payload.length = maxEnvelopeBytes) (n : Nat) :
    Filled n (Machine.run (stepUnder Word64.maxValue)
      { Relay.new with maxTotalBytes := 2 ^ 64 - 1 } (manySends payload n)) := by
  induction n with
  | zero =>
    refine ⟨?_, (Nat.zero_mul _).symm, rfl, fun _ _ => rfl, fun _ _ => rfl⟩
    rw [Nat.zero_mul]
    rfl
  | succ n ih =>
    rw [manySends, List.range_succ, List.map_append, Machine.run_append]
    exact ih.send hpayload

/-- Under the largest ceiling the sum over all queues can stop at the largest word, and the total
then wraps: the relay counts nothing while `2 ^ 64` bytes are pending. -/
theorem largest_ceiling_wraps : ∃ (start : Relay) (inputs : List Input) (authorized : DeviceAddr)
    (request : Request), Relay.new.withMaxTotalBytes Word64.maxValue = some start ∧
      let r := Machine.run (stepUnder Word64.maxValue) start inputs
      ¬r.InRange authorized request ∧ (r.handle authorized request).1.totalBytes = 0 ∧
        (r.handle authorized request).1.totalPending = 2 ^ 64 := by
  obtain ⟨payload, hpayload⟩ : ∃ payload : Bytes, payload.length = maxEnvelopeBytes :=
    ⟨List.replicate maxEnvelopeBytes 0, List.length_replicate⟩
  have hfilled := filled_run hpayload (2 ^ 44 - 1)
  have hnext := hfilled.send hpayload
  refine ⟨{ Relay.new with maxTotalBytes := 2 ^ 64 - 1 }, manySends payload (2 ^ 44 - 1), ⟨"", 0⟩,
    .send (manyDevices (2 ^ 44 - 1)) ⟨.dm, payload⟩, rfl, fun hrange => ?_,
    hnext.totalBytes_eq, hnext.totalPending_eq⟩
  have hlt := (hrange (byteLen_largest hpayload).le).1
  rw [hfilled.totalBytes_eq, byteLen_largest hpayload] at hlt
  exact absurd hlt (by decide)

end

end Relay

end Tacenta
