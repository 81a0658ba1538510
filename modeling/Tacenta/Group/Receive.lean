import Tacenta.Group.Codec
import Tacenta.Library.Execution
import Tacenta.Library.Word64

/-!
# Receiving group messages

The policy state of one member for one accepted roster. `receive` judges an authenticated context
and answers with a disposition; a context ahead of the accepted roster is deferred and judged again
when `installAcceptedRoster` installs a later roster. The state is checkpointed by `encodeState`
and restored by `decodeState`.

## Main definitions

* `GroupReceiver`: the state.
* `GroupReceiver.receive`, `GroupReceiver.installAcceptedRoster`: its transitions.
* `GroupReceiver.encodeState`, `GroupReceiver.decodeState`: its checkpoint.
* `GroupReceiver.machine`: the receiver as a machine that takes calls.

## Main results

* `GroupReceiver.receive_received`: everything that `receive` can do.
-/

open ByteString Result

namespace Tacenta.Group

/-- How far below the newest sequence of a sender an accepted sequence is remembered. -/
def dedupWindow : UInt64 := 64

/-- How many revisions ahead a context may be. -/
def futureRevisions : UInt64 := 2

/-- How many contexts are deferred at most. -/
def maxDeferred : Nat := 4

/-- How many deferred contexts may have a sender that the roster does not list. -/
def maxDeferredUnlisted : Nat := 2

/-- Domain of a receiver's checkpoint. -/
def receiverStateDomain : Bytes := ascii "Tacenta Group Receiver State v1"

/-- Largest checkpoint. -/
def maxReceiverStateLen : Nat := 262144

/-- Why a context is refused. -/
inductive ReceiveRefusal where
  | malformed
  | wrongPeer
  | wrongGroup
  | wrongRecipient
  | notActive
  | oldRevision
  | invalidRoster
  | futureOutOfRange
  | sequenceExpired
  | conflict
  | deferredFull
  deriving DecidableEq

/-- The answer to a context. -/
inductive ReceiveDisposition where
  | accepted (eventId : UInt64)
  | duplicate (eventId : UInt64)
  | deferred
  | rejected (refusal : ReceiveRefusal)
  deriving DecidableEq

/-- A formerly deferred context after it was checked against an accepted roster. -/
structure RevalidatedReceive where
  context : ApplicationContext
  /-- The commitment recorded when it was deferred. -/
  commitment : Digest
  /-- The new disposition. -/
  disposition : ReceiveDisposition
  deriving DecidableEq

/-- What identifies a logical message. -/
structure Key where
  groupId : GroupId
  /-- The roster revision. -/
  revision : UInt64
  sender : Member
  /-- The sender's sequence number. -/
  sequence : UInt64
  deriving DecidableEq

/-- A remembered acceptance. -/
structure Accepted where
  /-- The message. -/
  key : Key
  /-- The commitment it was accepted with. -/
  commitment : Digest
  /-- The event it became. -/
  eventId : UInt64
  deriving DecidableEq

/-- A context that waits for a later roster. -/
structure Deferred where
  context : ApplicationContext
  /-- The commitment it arrived with. -/
  commitment : Digest
  deriving DecidableEq

def ApplicationContext.key (c : ApplicationContext) : Key :=
  ⟨c.groupId, c.revision, c.sender, c.logicalSequence⟩

/-- Policy state for one locally accepted roster view. -/
structure GroupReceiver where
  /-- The installed roster. -/
  roster : Roster
  rosterDigest : Digest
  localMember : Member
  /-- Remembered acceptances of the installed revision. -/
  accepted : List Accepted
  /-- Deferred contexts. -/
  deferred : List Deferred
  nextEventId : UInt64
  deriving DecidableEq

namespace GroupReceiver

/-- A receiver that has received nothing. -/
def new (roster : Roster) (rosterDigest : Digest) (localMember : Member) : GroupReceiver :=
  { roster, rosterDigest, localMember, accepted := [], deferred := [], nextEventId := 0 }

/-- How many events the receiver has issued. -/
def eventsIssued (r : GroupReceiver) : UInt64 := r.nextEventId

/-- Whether the installed roster grants the member application membership. -/
def isActive (r : GroupReceiver) (member : Member) : Bool :=
  !r.roster.closed && decide (member ∈ r.roster.members)

/-- The scan of `unlistedSlotIsOpenTo`: `held` counts the unlisted contexts passed so far. -/
def scanUnlisted (r : GroupReceiver) (sender : Member) : Nat → List Deferred → Bool
  | held, [] => held < maxDeferredUnlisted
  | held, item :: items =>
    if r.isActive item.context.sender then scanUnlisted r sender held items
    else if item.context.sender.identity = sender.identity then false
    else scanUnlisted r sender (held + 1) items

/-- Whether a deferred slot is open to a sender that the roster does not list. -/
def unlistedSlotIsOpenTo (r : GroupReceiver) (sender : Member) : Bool :=
  r.scanUnlisted sender 0 r.deferred

/-- The remembered acceptances of a sender at a revision. -/
def fromSender (r : GroupReceiver) (sender : Member) (revision : UInt64) : List Accepted :=
  r.accepted.filter fun item => item.key.sender = sender ∧ item.key.revision = revision

/-- The newest remembered sequence of a sender at a revision. -/
def newest (r : GroupReceiver) (sender : Member) (revision : UInt64) : Option UInt64 :=
  ((r.fromSender sender revision).map fun item => item.key.sequence).max?

/-- The newest sequence of a sender once a message is accepted. -/
def newestSequence (r : GroupReceiver) (key : Key) : UInt64 :=
  max ((r.newest key.sender key.revision).getD key.sequence) key.sequence

/-- Remember an acceptance and forget what has left the sender's window. -/
def remember (r : GroupReceiver) (key : Key) (commitment : Digest) : GroupReceiver :=
  { r with
    nextEventId := Word64.saturatingAdd r.nextEventId 1
    accepted := (r.accepted ++ [(⟨key, commitment, r.nextEventId⟩ : Accepted)]).filter fun item =>
      item.key.sender ≠ key.sender ∨ item.key.revision ≠ key.revision ∨
        r.newestSequence key < Word64.saturatingAdd item.key.sequence dedupWindow }

/-- Judge a context of the installed revision. -/
def acceptCurrent (r : GroupReceiver) (key : Key) (commitment : Digest) :
    GroupReceiver × ReceiveDisposition :=
  match r.accepted.find? fun item => item.key = key with
  | some existing =>
    if existing.commitment = commitment then (r, .duplicate existing.eventId)
    else (r, .rejected .conflict)
  | none =>
    if (r.newest key.sender key.revision).any fun sequence =>
        Word64.saturatingAdd key.sequence dedupWindow ≤ sequence then
      (r, .rejected .sequenceExpired)
    else (r.remember key commitment, .accepted r.nextEventId)

/-- Keep a context that is ahead of the installed roster. -/
def defer (r : GroupReceiver) (context : ApplicationContext) (commitment : Digest) :
    GroupReceiver × ReceiveDisposition :=
  match r.deferred.find? fun item => item.context.key = context.key with
  | some existing =>
    if existing.commitment = commitment then (r, .deferred) else (r, .rejected .conflict)
  | none =>
    if r.deferred.length = maxDeferred then (r, .rejected .deferredFull)
    else if !r.isActive context.sender && !r.unlistedSlotIsOpenTo context.sender then
      (r, .rejected .deferredFull)
    else ({ r with deferred := r.deferred ++ [⟨context, commitment⟩] }, .deferred)

/-- Judge a context that an authenticated peer delivered. -/
def receive (r : GroupReceiver) (context : ApplicationContext) (authenticatedPeer : Member)
    (commitment : Digest) : GroupReceiver × ReceiveDisposition :=
  if authenticatedPeer ≠ context.sender then (r, .rejected .wrongPeer)
  else if context.groupId ≠ r.roster.groupId then (r, .rejected .wrongGroup)
  else if context.recipient ≠ r.localMember then (r, .rejected .wrongRecipient)
  else if ¬r.isActive r.localMember then (r, .rejected .notActive)
  else if r.roster.revision < context.revision then
    if Word64.saturatingAdd r.roster.revision futureRevisions < context.revision then
      (r, .rejected .futureOutOfRange)
    else r.defer context commitment
  else if ¬r.isActive context.sender then (r, .rejected .notActive)
  else if context.revision < r.roster.revision then (r, .rejected .oldRevision)
  else if context.rosterDigest ≠ r.rosterDigest then (r, .rejected .invalidRoster)
  else r.acceptCurrent context.key commitment

/-! ### Installing a roster -/

/-- A context with the peer that delivered it and its commitment. -/
structure Delivery where
  context : ApplicationContext
  /-- The authenticated peer. -/
  peer : Member
  /-- The commitment to the context. -/
  commitment : Digest
  deriving DecidableEq

def deliver : Machine GroupReceiver Delivery ReceiveDisposition :=
  fun r d => r.receive d.context d.peer d.commitment

/-- A deferred context as it is delivered again: its recorded sender stands for the peer. -/
def Delivery.ofDeferred (item : Deferred) : Delivery :=
  ⟨item.context, item.context.sender, item.commitment⟩

/-- The receiver after a roster replaced the installed one, before deferred contexts are judged. -/
def reset (r : GroupReceiver) (roster : Roster) (rosterDigest : Digest) : GroupReceiver :=
  { r with roster, rosterDigest, accepted := [], deferred := [] }

/-- Install an accepted roster of the group and judge every deferred context again. -/
def installAcceptedRoster (r : GroupReceiver) (roster : Roster) (rosterDigest : Digest) :
    GroupReceiver × Except ReceiveRefusal (List RevalidatedReceive) :=
  if roster.groupId ≠ r.roster.groupId then (r, .error .wrongGroup)
  else
    let items := r.deferred.map Delivery.ofDeferred
    (deliver.run (r.reset roster rosterDigest) items,
      .ok ((deliver.log (r.reset roster rosterDigest) items).map fun (d, disposition) =>
        ⟨d.context, d.commitment, disposition⟩))

/-! ### Checkpoints -/

/-- Append a remembered acceptance. -/
def putAccepted (out : Bytes) (item : Accepted) : Except Error Bytes := do
  let out := out ++ u64Bytes item.key.revision
  let out ← putMember out item.key.sender
  let out := out ++ u64Bytes item.key.sequence
  let out := out ++ item.commitment.val
  pure (out ++ u64Bytes item.eventId)

/-- Append a deferred context. -/
def putDeferred (out : Bytes) (item : Deferred) : Except Error Bytes := do
  let out ← putLp out (← item.context.encode)
  pure (out ++ item.commitment.val)

/-- The receiver's checkpoint. -/
def encodeState (r : GroupReceiver) : Except Error Bytes := do
  let roster ← r.roster.encode
  r.localMember.validate
  let out := receiverStateDomain
  let out ← putLp out roster
  let out := out ++ r.rosterDigest.val
  let out ← putMember out r.localMember
  let out := out ++ u64Bytes r.nextEventId
  let out ← putU32 out r.accepted.length
  let out ← r.accepted.foldlM putAccepted out
  let out ← putU32 out r.deferred.length
  let out ← r.deferred.foldlM putDeferred out
  refuseIf (maxReceiverStateLen < out.length) .malformed
  pure out

/-- Take one remembered acceptance and check it against the ones before it. -/
def takeAccepted (roster : Roster) (nextEventId : UInt64) (accepted : List Accepted) :
    Reader Error (List Accepted) := do
  let revision ← Reader.takeU64 .malformed
  let sender ← takeMember
  let sequence ← Reader.takeU64 .malformed
  let commitment ← Reader.takeArray .malformed digestLen
  let eventId ← Reader.takeU64 .malformed
  refuseIf (revision ≠ roster.revision ∨ sender ∉ roster.members ∨ nextEventId ≤ eventId)
    Error.malformed
  let key : Key := ⟨roster.groupId, revision, sender, sequence⟩
  refuseIf ((∃ item ∈ accepted, item.key = key) ∨ ∃ item ∈ accepted, item.eventId = eventId)
    Error.conflict
  pure (accepted ++ [⟨key, commitment, eventId⟩])

/-- Take one deferred context and check it against the ones before it. -/
def takeDeferred (roster : Roster) (localMember : Member) (payloadCommitment : Bytes → Digest)
    (deferred : List Deferred) : Reader Error (List Deferred) := do
  let contextBytes ← Reader.takeLp .malformed
  refuseIf (maxApplicationContextLen < contextBytes.length) Error.contextTooLarge
  let context ← ApplicationContext.decode contextBytes
  let commitment ← Reader.takeArray .malformed digestLen
  refuseIf (context.groupId ≠ roster.groupId ∨ context.recipient ≠ localMember
    ∨ context.revision ≤ roster.revision
    ∨ Word64.saturatingAdd roster.revision futureRevisions < context.revision
    ∨ commitment ≠ payloadCommitment contextBytes) Error.conflict
  refuseIf (∃ item ∈ deferred, item.context.key = context.key) Error.conflict
  pure (deferred ++ [⟨context, commitment⟩])

/-- The deferred contexts whose sender is not an active member of the roster. -/
def unlistedOf (roster : Roster) (deferred : List Deferred) : List Deferred :=
  deferred.filter fun item => roster.closed ∨ item.context.sender ∉ roster.members

/-- Take the installed roster with its digest, the local member and the next event id. -/
def takeHeader (rosterCommitment : Bytes → Digest) :
    Reader Error (Roster × Digest × Member × UInt64) := do
  let rosterBytes ← Reader.takeLp .malformed
  refuseIf (maxRosterLen < rosterBytes.length) Error.rosterTooLarge
  let roster ← Roster.decode rosterBytes
  let rosterDigest ← Reader.takeArray .malformed digestLen
  refuseIf (rosterDigest ≠ rosterCommitment rosterBytes) Error.conflict
  let localMember ← takeMember
  let nextEventId ← Reader.takeU64 .malformed
  pure (roster, rosterDigest, localMember, nextEventId)

/-- The reader of `decodeState`, after the domain. -/
def takeState (rosterCommitment payloadCommitment : Bytes → Digest) :
    Reader Error GroupReceiver := do
  let (roster, rosterDigest, localMember, nextEventId) ← takeHeader rosterCommitment
  let terminal := roster.closed ∨ localMember ∉ roster.members
  let acceptedCount ← Reader.takeU32 .malformed
  refuseIf (maxMembers * dedupWindow.toNat < acceptedCount.toNat) Error.malformed
  refuseIf (terminal ∧ acceptedCount.toNat ≠ 0) Error.nonCanonical
  let accepted ← Reader.loop (takeAccepted roster nextEventId) acceptedCount.toNat []
  let deferredCount ← Reader.takeU32 .malformed
  refuseIf (maxDeferred < deferredCount.toNat) Error.malformed
  refuseIf (terminal ∧ deferredCount.toNat ≠ 0) Error.nonCanonical
  let deferred ← Reader.loop (takeDeferred roster localMember payloadCommitment)
    deferredCount.toNat []
  let unlisted := unlistedOf roster deferred
  refuseIf (maxDeferredUnlisted < unlisted.length ∨ ¬unlisted.Pairwise fun earlier item =>
    earlier.context.sender.identity ≠ item.context.sender.identity) Error.conflict
  Reader.finish .malformed
  pure { roster, rosterDigest, localMember, accepted, deferred, nextEventId }

/-- Restore a checkpoint whose commitments the caller's functions reproduce. -/
def decodeState (bytes : Bytes) (rosterCommitment payloadCommitment : Bytes → Digest) :
    Except Error GroupReceiver := do
  refuseIf (maxReceiverStateLen < bytes.length ∨ ¬receiverStateDomain <+: bytes) .malformed
  (takeState rosterCommitment payloadCommitment).run' (bytes.drop receiverStateDomain.length)

/-! ### Calls -/

/-- A call of the receiver. -/
inductive Call where
  | receive (delivery : Delivery)
  | install (roster : Roster) (rosterDigest : Digest)

/-- The answer to a call. -/
inductive Answer where
  | received (disposition : ReceiveDisposition)
  | installed (result : Except ReceiveRefusal (List RevalidatedReceive))

/-- The receiver as a machine that takes calls. -/
def machine : Machine GroupReceiver Call Answer
  | r, .receive d => ((deliver r d).1, .received (deliver r d).2)
  | r, .install roster digest =>
    ((r.installAcceptedRoster roster digest).1,
      .installed (r.installAcceptedRoster roster digest).2)

/-! ### What `receive` can do -/

theorem isActive_iff {r : GroupReceiver} {m : Member} :
    r.isActive m = true ↔ r.roster.closed = false ∧ m ∈ r.roster.members := by
  simp only [isActive, Bool.and_eq_true, Bool.not_eq_true', decide_eq_true_eq]

theorem unlistedOf_eq (r : GroupReceiver) :
    unlistedOf r.roster r.deferred =
      r.deferred.filter fun item => !r.isActive item.context.sender := by
  refine List.filter_congr fun item _ => ?_
  rw [Bool.eq_iff_iff, Bool.not_eq_true', ← Bool.not_eq_true, isActive_iff, not_and,
    decide_eq_true_eq]
  cases r.roster.closed <;> simp

variable {sender : Member}

private theorem scanUnlisted_eq_true {r : GroupReceiver} {held : Nat} {items : List Deferred} :
    r.scanUnlisted sender held items = true ↔
      held + (items.filter fun item => !r.isActive item.context.sender).length
          < maxDeferredUnlisted ∧
        ∀ item ∈ items.filter fun item => !r.isActive item.context.sender,
          item.context.sender.identity ≠ sender.identity := by
  induction items generalizing held with
  | nil => simp [scanUnlisted]
  | cons item items ih =>
    rw [scanUnlisted]
    by_cases ha : r.isActive item.context.sender = true
    · rw [if_pos ha, ih, List.filter_cons_of_neg (by simpa using ha)]
    · rw [if_neg ha, List.filter_cons_of_pos (by simpa using ha)]
      by_cases hi : item.context.sender.identity = sender.identity
      · rw [if_pos hi]
        simp [hi]
      · rw [if_neg hi, ih]
        simp only [List.length_cons, List.forall_mem_cons, ne_eq, hi, not_false_eq_true, true_and]
        rw [Nat.add_assoc, Nat.add_comm 1]

theorem unlistedSlotIsOpenTo_eq_true {r : GroupReceiver} :
    r.unlistedSlotIsOpenTo sender = true ↔
      (unlistedOf r.roster r.deferred).length < maxDeferredUnlisted ∧
        ∀ item ∈ unlistedOf r.roster r.deferred,
          item.context.sender.identity ≠ sender.identity := by
  rw [unlistedSlotIsOpenTo, scanUnlisted_eq_true, unlistedOf_eq, Nat.zero_add]

theorem mem_fromSender {r : GroupReceiver} {revision : UInt64} {item : Accepted} :
    item ∈ r.fromSender sender revision ↔
      item ∈ r.accepted ∧ item.key.sender = sender ∧ item.key.revision = revision := by
  rw [fromSender, List.mem_filter, decide_eq_true_eq]

/-- The window test compares with every remembered sequence of the sender. -/
theorem newest_any_le {r : GroupReceiver} {revision x : UInt64} :
    ((r.newest sender revision).any fun sequence => decide (x ≤ sequence)) = true ↔
      ∃ item ∈ r.fromSender sender revision, x ≤ item.key.sequence :=
  Word64.max?_any_le_iff

theorem newestSequence_lt_iff {r : GroupReceiver} {key : Key} {x : UInt64} :
    r.newestSequence key < x ↔
      key.sequence < x ∧ ∀ item ∈ r.fromSender key.sender key.revision, item.key.sequence < x := by
  rw [newestSequence, Word64.lt_iff, Word64.toNat_max]
  cases h : r.newest key.sender key.revision with
  | none =>
    have hnil := List.map_eq_nil_iff.mp (List.max?_eq_none_iff.mp h)
    simp [hnil, Word64.lt_iff]
  | some m =>
    obtain ⟨hm, hle⟩ := List.max?_eq_some_iff.mp h
    obtain ⟨newest, hnewest, rfl⟩ := List.mem_map.mp hm
    rw [Option.getD_some, Word64.lt_iff]
    constructor
    · refine fun hx => ⟨by omega, fun item hitem => ?_⟩
      have := hle _ (List.mem_map_of_mem hitem)
      rw [Word64.le_iff] at this
      rw [Word64.lt_iff]
      omega
    · rintro ⟨hkey, hall⟩
      have := hall _ hnewest
      rw [Word64.lt_iff] at this
      omega

theorem mem_remember {r : GroupReceiver} {key : Key} {commitment : Digest} {item : Accepted} :
    item ∈ (r.remember key commitment).accepted ↔
      (item ∈ r.accepted ∨ item = ⟨key, commitment, r.nextEventId⟩) ∧
        (item.key.sender = key.sender → item.key.revision = key.revision →
          key.sequence < Word64.saturatingAdd item.key.sequence dedupWindow ∧
            ∀ other ∈ r.fromSender key.sender key.revision,
              other.key.sequence < Word64.saturatingAdd item.key.sequence dedupWindow) := by
  rw [remember, List.mem_filter, List.mem_append, List.mem_singleton, decide_eq_true_eq,
    newestSequence_lt_iff]
  tauto

/-- The context is for this receiver and from the peer it names. -/
structure Addressed (r : GroupReceiver) (context : ApplicationContext) (peer : Member) : Prop where
  peer_eq : peer = context.sender
  groupId_eq : context.groupId = r.roster.groupId
  recipient_eq : context.recipient = r.localMember
  local_active : r.isActive r.localMember = true

/-- What an accepted context has been checked for. -/
structure Admits (r : GroupReceiver) (context : ApplicationContext) (peer : Member) : Prop
    extends Addressed r context peer where
  sender_active : r.isActive context.sender = true
  revision_eq : context.revision = r.roster.revision
  digest_eq : context.rosterDigest = r.rosterDigest
  fresh : ∀ item ∈ r.accepted, item.key ≠ context.key
  unexpired : ∀ item ∈ r.fromSender context.sender context.revision,
    item.key.sequence < Word64.saturatingAdd context.logicalSequence dedupWindow

/-- What a newly deferred context has been checked for. -/
structure Defers (r : GroupReceiver) (context : ApplicationContext) (peer : Member) : Prop
    extends Addressed r context peer where
  ahead : r.roster.revision < context.revision
  inRange : context.revision ≤ Word64.saturatingAdd r.roster.revision futureRevisions
  fresh : ∀ item ∈ r.deferred, item.context.key ≠ context.key
  room : r.deferred.length ≠ maxDeferred
  slot : r.isActive context.sender = true ∨ r.unlistedSlotIsOpenTo context.sender = true

/-- Everything that `receive` can do. -/
inductive Received (r : GroupReceiver) (context : ApplicationContext) (peer : Member)
    (commitment : Digest) : GroupReceiver × ReceiveDisposition → Prop
  | unchanged {d : ReceiveDisposition} (h : ∀ eventId, d ≠ .accepted eventId) :
      Received r context peer commitment (r, d)
  | accepted (h : r.Admits context peer) :
      Received r context peer commitment
        (r.remember context.key commitment, .accepted r.nextEventId)
  | deferred (h : r.Defers context peer) :
      Received r context peer commitment
        ({ r with deferred := r.deferred ++ [⟨context, commitment⟩] }, .deferred)

private theorem acceptCurrent_received {r : GroupReceiver} {context : ApplicationContext}
    {peer : Member} {commitment : Digest} (ha : r.Addressed context peer)
    (hs : r.isActive context.sender = true) (hrev : context.revision = r.roster.revision)
    (hd : context.rosterDigest = r.rosterDigest) :
    r.Received context peer commitment (r.acceptCurrent context.key commitment) := by
  unfold acceptCurrent
  split
  · exact iteInduction (fun _ => .unchanged nofun) fun _ => .unchanged nofun
  · next hnone =>
    refine iteInduction (fun _ => .unchanged nofun) fun hexp => .accepted ⟨ha, hs, hrev, hd, ?_, ?_⟩
    · intro item hitem
      simpa using List.find?_eq_none.mp hnone item hitem
    · intro item hitem
      rw [newest_any_le, not_exists] at hexp
      have := hexp item
      rw [not_and, Word64.le_iff, not_le] at this
      exact Word64.lt_iff.mpr (this hitem)

private theorem defer_received {r : GroupReceiver} {context : ApplicationContext} {peer : Member}
    {commitment : Digest} (ha : r.Addressed context peer)
    (hahead : r.roster.revision < context.revision)
    (hrange : ¬Word64.saturatingAdd r.roster.revision futureRevisions < context.revision) :
    r.Received context peer commitment (r.defer context commitment) := by
  unfold defer
  split
  · exact iteInduction (fun _ => .unchanged nofun) fun _ => .unchanged nofun
  · next hnone =>
    refine iteInduction (fun _ => .unchanged nofun) fun hroom => ?_
    refine iteInduction (fun _ => .unchanged nofun) fun hslot =>
      .deferred ⟨ha, hahead, ?_, ?_, hroom, ?_⟩
    · rw [Word64.lt_iff, not_lt] at hrange
      exact Word64.le_iff.mpr hrange
    · intro item hitem
      simpa using List.find?_eq_none.mp hnone item hitem
    · by_contra hn
      rw [not_or, Bool.not_eq_true, Bool.not_eq_true] at hn
      exact hslot (by rw [hn.1, hn.2]; rfl)

theorem receive_received (r : GroupReceiver) (context : ApplicationContext) (peer : Member)
    (commitment : Digest) :
    r.Received context peer commitment (r.receive context peer commitment) := by
  unfold receive
  refine iteInduction (fun _ => .unchanged nofun) fun hpeer => ?_
  refine iteInduction (fun _ => .unchanged nofun) fun hgroup => ?_
  refine iteInduction (fun _ => .unchanged nofun) fun hrecipient => ?_
  refine iteInduction (fun _ => .unchanged nofun) fun hlocal => ?_
  have ha : r.Addressed context peer :=
    ⟨not_not.mp hpeer, not_not.mp hgroup, not_not.mp hrecipient, not_not.mp hlocal⟩
  refine iteInduction (fun hahead => ?_) fun hahead => ?_
  · exact iteInduction (fun _ => .unchanged nofun) fun hrange => defer_received ha hahead hrange
  refine iteInduction (fun _ => .unchanged nofun) fun hsender => ?_
  refine iteInduction (fun _ => .unchanged nofun) fun hold => ?_
  refine iteInduction (fun _ => .unchanged nofun) fun hdigest => ?_
  refine acceptCurrent_received ha (not_not.mp hsender) ?_ (not_not.mp hdigest)
  rw [Word64.lt_iff] at hahead hold
  exact Word64.eq_iff.mpr (by omega)

end GroupReceiver

end Tacenta.Group
