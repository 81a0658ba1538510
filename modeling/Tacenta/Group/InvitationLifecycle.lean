import Tacenta.Group.InvitationCodec
import Tacenta.Library.Execution

/-!
# The lifecycle of invitations

Runs of the four calls of an invitation book, with arbitrary arguments and clocks. `Moves` says
what a call does to the invitation that it names, also when it is then refused, and `Stepped` what
it does to the book. Everything else about runs is derived from these two.

An invitation is given to `create` with its status, which is not checked. What needs a pending
invitation, or one that passes the checks of `Invitation.new`, is stated for the runs in which every
call of `create` is given such an invitation.

## Main definitions

* `InvitationBook.Call`, `InvitationBook.step`: the calls and the machine they drive.
* `InvitationBook.Moves`, `InvitationBook.Stepped`: the effect of a call.

## Main results

* `InvitationBook.lifecycle`: what holds in every run.
* `InvitationBook.admitted_unaccepted`: `create` admits an invitation that nobody accepted.
-/

open Result

namespace Tacenta.Group

/-- The invitation has reached one of its three last states. -/
def InvitationStatus.settled : InvitationStatus → Bool
  | .pending | .acceptedPendingAdmission => false
  | .admitted _ | .revoked | .expired => true

namespace InvitationBook

/-- A call of a book. -/
inductive Call where
  | create (authenticatedAuthority authority : Member) (activeMembers : List Member)
      (invitation : Invitation) (now : UInt64)
  | accept (id : InvitationId) (authenticatedTarget : Member) (observedRevision : UInt64)
      (observedRosterDigest : Digest) (now : UInt64)
  | revoke (id : InvitationId) (authenticatedAuthority authority : Member) (now : UInt64)
  | admit_ (id : InvitationId) (authenticatedAuthority authority : Member)
      (acceptedRevision : UInt64) (now : UInt64)
  deriving DecidableEq

def step : Machine InvitationBook Call (Except Error Invitation)
  | b, .create authenticated authority members invitation now =>
    b.create authenticated authority members invitation now
  | b, .accept id target revision digest now => b.accept id target revision digest now
  | b, .revoke id authenticated authority now => b.revoke id authenticated authority now
  | b, .admit_ id authenticated authority revision now =>
    b.admit_ id authenticated authority revision now

/-! ### One call -/

/-- What a call does to the invitation with its identifier, and what it answers. -/
inductive Moves (i : Invitation) : Call → Invitation × Except Error Invitation → Prop
  | stays {call : Call} {answer : Except Error Invitation}
      (revoked : ∀ id a a' now j, call = .revoke id a a' now → answer = .ok j →
        i.status = .revoked) : Moves i call (i, answer)
  | expires {call : Call} {e : Error} (unsettled : i.status.settled = false) :
      Moves i call ({ i with status := .expired }, .error e)
  | accepts {now : UInt64} {answer : Invitation} (pending : i.status = .pending)
      (due : now < i.expiresAt) :
      Moves i (.accept i.id i.target i.sourceRevision i.sourceRosterDigest now)
        ({ i with status := .acceptedPendingAdmission }, .ok answer)
  | revokes {authority : Member} {now : UInt64} {answer : Invitation}
      (unsettled : i.status.settled = false) :
      Moves i (.revoke i.id authority authority now) ({ i with status := .revoked }, .ok answer)
  | admits {authority : Member} {revision now : UInt64} {answer : Except Error Invitation}
      (accepted : i.status = .acceptedPendingAdmission) (later : i.sourceRevision < revision)
      (revision_ne : revision ≠ Group.reservedRevision) (due : now < i.expiresAt) :
      Moves i (.admit_ i.id authority authority revision now)
        ({ i with status := .admitted revision }, answer)

/-- An invitation that is looked at either is not due, or has expired already or now. -/
private theorem expireIfDue_cases (i : Invitation) (now : UInt64) :
    i.expireIfDue now = i ∧ (i.status.settled = false → now < i.expiresAt) ∨
      i.expireIfDue now = { i with status := .expired } ∧ i.status.settled = false := by
  have hopen : (i.status = .pending ∨ i.status = .acceptedPendingAdmission) ↔
      i.status.settled = false := by
    cases i.status <;> simp [InvitationStatus.settled]
  rw [Invitation.expireIfDue]
  split
  · next h => exact .inr ⟨rfl, hopen.mp h.2⟩
  · next h => exact .inl ⟨rfl, fun hs => UInt64.not_le.mp fun hle => h ⟨hle, hopen.mpr hs⟩⟩

theorem accept_moves (i : Invitation) (target : Member) (revision : UInt64) (digest : Digest)
    (now : UInt64) :
    Moves i (.accept i.id target revision digest now) (i.accept target revision digest now) := by
  rw [Invitation.accept]
  split
  · exact .stays nofun
  next htarget =>
  split
  · exact .stays nofun
  next hsource =>
  obtain rfl := not_not.mp htarget
  obtain ⟨rfl, rfl⟩ : i.sourceRevision = revision ∧ i.sourceRosterDigest = digest := by
    simpa [Invitation.sourceMatches] using hsource
  rcases expireIfDue_cases i now with ⟨hsame, hdue⟩ | ⟨hexp, hopen⟩
  · rw [hsame]
    dsimp only
    cases hs : i.status with
    | pending => exact .accepts hs (hdue (by rw [hs]; rfl))
    | _ => exact .stays nofun
  · rw [hexp]
    exact .expires hopen

theorem revoke_moves (i : Invitation) (authority : Member) (now : UInt64) :
    Moves i (.revoke i.id authority authority now) (i.revoke now) := by
  rw [Invitation.revoke]
  rcases expireIfDue_cases i now with ⟨hsame, -⟩ | ⟨hexp, hopen⟩
  · rw [hsame]
    dsimp only
    cases hs : i.status with
    | pending => exact .revokes (by rw [hs]; rfl)
    | acceptedPendingAdmission => exact .revokes (by rw [hs]; rfl)
    | revoked => exact .stays fun _ _ _ _ _ _ _ => hs
    | expired => exact .stays fun _ _ _ _ _ _ h => nomatch h
    | admitted r => exact .stays fun _ _ _ _ _ _ h => nomatch h
  · rw [hexp]
    exact .expires hopen

theorem admission_moves (i : Invitation) (authority : Member) {revision : UInt64}
    (hne : revision ≠ Group.reservedRevision) (now : UInt64) :
    Moves i (.admit_ i.id authority authority revision now) (i.admit_ revision now) := by
  rw [Invitation.admit_]
  rcases expireIfDue_cases i now with ⟨hsame, hdue⟩ | ⟨hexp, hopen⟩
  · rw [hsame]
    dsimp only
    cases hs : i.status with
    | acceptedPendingAdmission =>
      dsimp only
      split
      · exact .stays nofun
      · next hlater => exact .admits hs (UInt64.not_le.mp hlater) hne (hdue (by rw [hs]; rfl))
    | admitted r =>
      dsimp only
      split
      · exact .stays nofun
      · exact .stays nofun
    | _ => exact .stays nofun
  · rw [hexp]
    exact .expires hopen

/-- What a call does to the book, and what it answers. -/
inductive Stepped (b : InvitationBook) :
    Call → InvitationBook × Except Error Invitation → Prop
  | refused {call : Call} (e : Error) : Stepped b call (b, .error e)
  | retried {a a' : Member} {ms : List Member} {i : Invitation} {now : UInt64} (j : Invitation) :
      Stepped b (.create a a' ms i now) (b, .ok j)
  | created {authority : Member} {ms : List Member} {i : Invitation} {now : UInt64}
      (fresh : ∀ j ∈ b.invitations, j.id ≠ i.id) (groupId_eq : i.groupId = b.groupId)
      (room : b.invitations.length ≠ maxInvitationRecords) :
      Stepped b (.create authority authority ms i now)
        ({ b with invitations := b.invitations ++ [i] }, .ok i)
  | changed {call : Call} {pre post : List Invitation} {i j : Invitation}
      {answer : Except Error Invitation} (split : b.invitations = pre ++ i :: post)
      (id_eq : ∀ id a a' now, call = .revoke id a a' now → i.id = id)
      (moves : Moves i call (j, answer)) :
      Stepped b call ({ b with invitations := pre ++ j :: post }, answer)

theorem findMut_stepped {b : InvitationBook} {id : InvitationId} {call : Call}
    {method : Invitation → Invitation × Except Error Invitation}
    (hcall : ∀ id' a a' now, call = .revoke id' a a' now → id' = id)
    (hmoves : ∀ i, i.id = id → Moves i call (method i)) : Stepped b call (b.findMut id method) := by
  rw [findMut]
  split
  · next invitations answer h =>
    obtain ⟨pre, i, post, j, hsplit, -, hid, hmethod, rfl⟩ := Records.updateFirst_eq_ok_iff.mp h
    obtain hid : i.id = id := by simpa using hid
    have hm := hmoves i hid
    rw [Except.ok.inj hmethod] at hm
    exact .changed hsplit (fun id' a a' now hc => hid.trans (hcall id' a a' now hc).symm) hm
  · exact .refused _

/-- Every call of a book does one of these things. -/
theorem step_stepped (b : InvitationBook) (call : Call) : Stepped b call (step b call) := by
  cases call with
  | create authenticated authority members i now =>
    rw [step, create]
    split
    · exact .refused _
    next hauth =>
    obtain rfl := not_not.mp hauth
    split
    · exact .refused _
    next hgroup =>
    split
    · exact .refused _
    split
    · exact .refused _
    cases hfind : b.invitations.find? fun existing => existing.id = i.id with
    | some existing =>
      dsimp only
      split
      · exact .retried _
      · exact .refused _
    | none =>
      dsimp only
      split
      · exact .refused _
      split
      · exact .refused _
      next hfull =>
      refine .created (fun j hj hid => ?_) (not_not.mp hgroup) hfull
      simpa [hid] using List.find?_eq_none.mp hfind j hj
  | accept id target revision digest now =>
    exact findMut_stepped nofun fun i hi => hi ▸ accept_moves i target revision digest now
  | revoke id authenticated authority now =>
    rw [step, revoke]
    split
    · exact .refused _
    next hauth =>
    obtain rfl := not_not.mp hauth
    refine findMut_stepped (fun id' a a' now' h => ?_) fun i hi => hi ▸ revoke_moves i _ now
    exact (Call.revoke.inj h).1.symm
  | admit_ id authenticated authority revision now =>
    rw [step, admit_]
    split
    · exact .refused _
    next hauth =>
    obtain rfl := not_not.mp hauth
    split
    · exact .refused _
    next hne => exact findMut_stepped nofun fun i hi => hi ▸ admission_moves i _ hne now

/-! ### Runs -/

/-- A later form of an invitation: only where it stands may differ, and no settled invitation moves
again. -/
structure Leads (i j : Invitation) : Prop where
  fields_eq : j = { i with status := j.status }
  settled : i.status.settled = true → j.status = i.status

theorem Leads.refl (i : Invitation) : Leads i i := ⟨rfl, fun _ => rfl⟩

variable {j : Invitation} {log : List (Call × Except Error Invitation)}

theorem Leads.id_eq {i : Invitation} (h : Leads i j) : j.id = i.id := by rw [h.fields_eq]

theorem Leads.trans {i k : Invitation} (hij : Leads i j) (hjk : Leads j k) : Leads i k := by
  refine ⟨?_, fun hi => ?_⟩
  · rw [hjk.fields_eq, hij.fields_eq]
  · have hj := hij.settled hi
    rw [hjk.settled (hj ▸ hi), hj]

theorem Moves.leads {i : Invitation} {call : Call} {answer : Except Error Invitation}
    (h : Moves i call (j, answer)) : Leads i j := by
  cases h with
  | stays _ => exact .refl _
  | expires hopen => exact ⟨rfl, fun hi => by rw [hopen] at hi; cases hi⟩
  | accepts hs _ => exact ⟨rfl, fun hi => by rw [hs] at hi; cases hi⟩
  | revokes hopen => exact ⟨rfl, fun hi => by rw [hopen] at hi; cases hi⟩
  | admits hs _ _ _ => exact ⟨rfl, fun hi => by rw [hs] at hi; cases hi⟩

/-- Every invitation of the first book is in the second, in a later form. -/
def Extends (b b' : InvitationBook) : Prop :=
  ∀ i ∈ b.invitations, ∃ j ∈ b'.invitations, Leads i j

theorem Extends.refl (b : InvitationBook) : Extends b b := fun i hi => ⟨i, hi, .refl i⟩

theorem Extends.trans {b₁ b₂ b₃ : InvitationBook} (h₁ : Extends b₁ b₂) (h₂ : Extends b₂ b₃) :
    Extends b₁ b₃ := by
  intro i hi
  obtain ⟨j, hj, hij⟩ := h₁ i hi
  obtain ⟨k, hk, hjk⟩ := h₂ j hj
  exact ⟨k, hk, hij.trans hjk⟩

theorem extends_step (b : InvitationBook) (call : Call) : Extends b (step b call).1 := by
  have h := step_stepped b call
  generalize step b call = result at h ⊢
  cases h with
  | refused e => exact .refl b
  | retried j => exact .refl b
  | created _ _ _ => exact fun i hi => ⟨i, List.mem_append_left _ hi, .refl i⟩
  | @changed call pre post i j answer hsplit _ hm =>
    intro k hk
    rw [hsplit] at hk
    rcases List.mem_append.mp hk with hk | hk
    · exact ⟨k, List.mem_append_left _ hk, .refl k⟩
    rcases List.mem_cons.mp hk with rfl | hk
    · exact ⟨j, List.mem_append_right _ List.mem_cons_self, hm.leads⟩
    · exact ⟨k, List.mem_append_right _ (List.mem_cons_of_mem _ hk), .refl k⟩

theorem extends_run (b : InvitationBook) (calls : List Call) :
    Extends b (Machine.run step b calls) :=
  Machine.run_preserves (Extends b) (fun s call h => h.trans (extends_step s call)) (.refl b) calls

/-- The bounds of a book: distinct identifiers, at most 32 invitations, all of its group. -/
structure Bounded (g : GroupId) (b : InvitationBook) : Prop where
  groupId_eq : b.groupId = g
  ids_nodup : (b.invitations.map Invitation.id).Nodup
  length_le : b.invitations.length ≤ maxInvitationRecords
  groups_eq : ∀ i ∈ b.invitations, i.groupId = g

theorem Bounded.step {g : GroupId} {b : InvitationBook} (h : b.Bounded g) (call : Call) :
    (step b call).1.Bounded g := by
  have hstep := step_stepped b call
  generalize InvitationBook.step b call = result at hstep ⊢
  cases hstep with
  | refused e => exact h
  | retried j => exact h
  | @created authority ms i now hfresh hgroup hroom =>
    refine ⟨h.groupId_eq, ?_, ?_, ?_⟩
    · rw [List.map_append, List.map_singleton, List.nodup_append]
      refine ⟨h.ids_nodup, List.nodup_singleton _, fun id hid id' hid' => ?_⟩
      obtain ⟨j, hj, rfl⟩ := List.mem_map.mp hid
      rw [List.mem_singleton.mp hid']
      exact hfresh j hj
    · rw [List.length_append, List.length_singleton]
      exact lt_of_le_of_ne h.length_le hroom
    · rw [List.forall_mem_append, List.forall_mem_singleton]
      exact ⟨h.groups_eq, hgroup.trans h.groupId_eq⟩
  | @changed call pre post i j answer hsplit _ hm =>
    obtain ⟨hg, hn, hl, hgs⟩ := h
    rw [hsplit] at hn hl hgs
    have hj := hm.leads
    refine ⟨hg, ?_, ?_, ?_⟩
    · rwa [List.map_append, List.map_cons, hj.id_eq, ← List.map_cons, ← List.map_append]
    · simpa only [List.length_append, List.length_cons] using hl
    · rw [List.forall_mem_append, List.forall_mem_cons] at hgs ⊢
      refine ⟨hgs.1, ?_, hgs.2.2⟩
      rw [hj.fields_eq]
      exact hgs.2.1

theorem bounded_new (g : GroupId) : (new g).Bounded g :=
  ⟨rfl, List.nodup_nil, Nat.zero_le _, fun _ hi => absurd hi List.not_mem_nil⟩

theorem bounded_run (g : GroupId) (calls : List Call) :
    (Machine.run step (new g) calls).Bounded g :=
  Machine.run_preserves (Bounded g) (fun _ call h => h.step call) (bounded_new g) calls

theorem Bounded.canonical_sorted {g : GroupId} {b : InvitationBook} (h : b.Bounded g)
    (hst : ∀ i ∈ b.invitations, i.Storable) : b.sorted.Canonical g := by
  obtain rfl := h.groupId_eq
  exact InvitationBook.canonical_sorted h.length_le h.ids_nodup h.groups_eq hst

theorem Bounded.eq_of_id {g : GroupId} {b : InvitationBook} (h : b.Bounded g) {i : Invitation}
    (hi : i ∈ b.invitations) (hj : j ∈ b.invitations) (hid : i.id = j.id) : i = j :=
  List.inj_on_of_nodup_map h.ids_nodup hi hj hid

theorem revoked_of_ok {b : InvitationBook} {id : InvitationId} {a a' : Member} {now : UInt64}
    {answer : Invitation} (h : (step b (.revoke id a a' now)).2 = .ok answer) :
    ∃ j ∈ (step b (.revoke id a a' now)).1.invitations, j.id = id ∧ j.status = .revoked := by
  have hstep := step_stepped b (.revoke id a a' now)
  generalize step b (.revoke id a a' now) = result at h hstep ⊢
  cases hstep with
  | refused e => exact nomatch h
  | @changed call pre post i j answer' hsplit hid hm =>
    have hi : i.id = id := hid _ _ _ _ rfl
    refine ⟨j, List.mem_append_right _ List.mem_cons_self, hm.leads.id_eq.trans hi, ?_⟩
    cases hm with
    | stays hr => exact hr _ _ _ _ _ rfl h
    | expires _ => exact nomatch h
    | revokes _ => rfl

/-- The call gives `create` an invitation as `Invitation.new` returns it. -/
def Call.Issued : Call → Prop
  | .create _ _ _ invitation _ => invitation.status = .pending ∧ invitation.Valid
  | _ => True

/-- The invitation's target accepted it before it was due. -/
def Accepted (log : List (Call × Except Error Invitation)) (i : Invitation) : Prop :=
  ∃ now answer,
    (.accept i.id i.target i.sourceRevision i.sourceRosterDigest now, .ok answer) ∈ log ∧
      now < i.expiresAt

/-- What holds of a book with the log of its calls, if only issued invitations were created. -/
structure Recorded (b : InvitationBook) (log : List (Call × Except Error Invitation)) : Prop where
  storable : ∀ i ∈ b.invitations, i.Storable
  accepted : ∀ i ∈ b.invitations, i.status = .acceptedPendingAdmission → Accepted log i

theorem Accepted.mono {i : Invitation} (h : Accepted log i)
    (entry : Call × Except Error Invitation) : Accepted (log ++ [entry]) i := by
  obtain ⟨now, answer, hmem, hdue⟩ := h
  exact ⟨now, answer, List.mem_append_left _ hmem, hdue⟩

theorem Moves.storable {i : Invitation} {call : Call} {answer : Except Error Invitation}
    (h : Moves i call (j, answer)) (hi : i.Storable) : j.Storable := by
  cases h with
  | stays _ => exact hi
  | expires _ => exact ⟨hi.valid.withStatus _, nofun⟩
  | accepts _ _ => exact ⟨hi.valid.withStatus _, nofun⟩
  | revokes _ => exact ⟨hi.valid.withStatus _, nofun⟩
  | admits _ _ hne _ =>
    exact ⟨hi.valid.withStatus _, fun h => hne (InvitationStatus.admitted.inj h)⟩

theorem Recorded.step {b : InvitationBook} (h : b.Recorded log) {call : Call}
    (hissued : call.Issued) :
    (step b call).1.Recorded (log ++ [(call, (step b call).2)]) := by
  have hkeep {entry} (hb : b.Recorded log) : b.Recorded (log ++ [entry]) :=
    ⟨hb.storable, fun i hi hs => (hb.accepted i hi hs).mono entry⟩
  have hstep := step_stepped b call
  generalize InvitationBook.step b call = result at hstep ⊢
  cases hstep with
  | refused e => exact hkeep h
  | retried j => exact hkeep h
  | @created authority ms i now _ _ _ =>
    obtain ⟨hpending, hvalid⟩ := hissued
    constructor
    · rw [List.forall_mem_append, List.forall_mem_singleton]
      exact ⟨h.storable, hvalid, by rw [hpending]; nofun⟩
    · rw [List.forall_mem_append, List.forall_mem_singleton]
      exact ⟨(hkeep h).accepted, fun hs => by rw [hpending] at hs; cases hs⟩
  | @changed call pre post i j answer hsplit _ hm =>
    obtain ⟨hst, hacc⟩ := h
    rw [hsplit, List.forall_mem_append, List.forall_mem_cons] at hst hacc
    constructor
    · rw [List.forall_mem_append, List.forall_mem_cons]
      exact ⟨hst.1, hm.storable hst.2.1, hst.2.2⟩
    · rw [List.forall_mem_append, List.forall_mem_cons]
      refine ⟨fun k hk hs => (hacc.1 k hk hs).mono _, fun hs => ?_,
        fun k hk hs => (hacc.2.2 k hk hs).mono _⟩
      -- the invitation was accepted before, or this call is its acceptance
      cases hm with
      | stays _ => exact (hacc.2.1 hs).mono _
      | expires _ => cases hs
      | @accepts now answer _ hdue =>
        exact ⟨now, answer, List.mem_append_right _ (List.mem_singleton_self _), hdue⟩
      | revokes _ => cases hs
      | admits _ _ _ _ => cases hs

theorem recorded_new (g : GroupId) : (new g).Recorded [] :=
  ⟨fun _ hi => absurd hi List.not_mem_nil, fun _ hi => absurd hi List.not_mem_nil⟩

theorem recorded_run (g : GroupId) {calls : List Call} (h : ∀ call ∈ calls, call.Issued) :
    (Machine.run step (new g) calls).Recorded (Machine.log step (new g) calls) :=
  Machine.log_invariant (A := fun _ call => call.Issued) Recorded
    (fun _ _ _ hs hissued => hs.step hissued) (recorded_new g)
    (Machine.along_of_forall h)

/-- An invitation becomes admitted only by an admission of the authority, before it is due, with a
later revision, and after its target accepted it. -/
theorem admitted_of_step {b : InvitationBook} (h : b.Recorded log) {call : Call}
    (hissued : call.Issued) (hj : j ∈ (step b call).1.invitations) {r : UInt64}
    (hs : j.status = .admitted r) (hnew : j ∉ b.invitations) :
    (∃ authority now, call = .admit_ j.id authority authority r now ∧ now < j.expiresAt) ∧
      j.sourceRevision < r ∧ r ≠ Group.reservedRevision ∧ Accepted log j := by
  have hstep := step_stepped b call
  generalize InvitationBook.step b call = result at hj hstep
  cases hstep with
  | refused e => exact absurd hj hnew
  | retried k => exact absurd hj hnew
  | @created authority ms i now _ _ _ =>
    rcases List.mem_append.mp hj with hj | hj
    · exact absurd hj hnew
    · rw [List.mem_singleton.mp hj, hissued.1] at hs
      cases hs
  | @changed call pre post i k answer hsplit _ hm =>
    have hi : i ∈ b.invitations := hsplit ▸ List.mem_append_right _ List.mem_cons_self
    obtain rfl : j = k := by
      rcases List.mem_append.mp hj with hj | hj
      · exact absurd (hsplit ▸ List.mem_append_left _ hj) hnew
      rcases List.mem_cons.mp hj with rfl | hj
      · rfl
      · exact absurd (hsplit ▸ List.mem_append_right _ (List.mem_cons_of_mem _ hj)) hnew
    cases hm with
    | stays _ => exact absurd hi hnew
    | expires _ => cases hs
    | accepts _ _ => cases hs
    | revokes _ => cases hs
    | @admits authority revision now answer haccepted hlater hne hdue =>
      obtain rfl := InvitationStatus.admitted.inj hs
      obtain ⟨now', answer', hmem, hdue'⟩ := h.accepted i hi haccepted
      exact ⟨⟨authority, now, rfl, hdue⟩, hlater, hne, now', answer', hmem, hdue'⟩

/-- The lifecycle of the invitations of a book, over every run of its calls from an empty book.

Identifiers stay distinct, there are at most 32 invitations, none is removed or changed other than
in where it stands, and none that is admitted, revoked or expired moves again. A successful
revocation is final. If every invitation given to `create` is one that `Invitation.new` returns,
then an invitation becomes admitted only by an admission of the authority, before it is due and with
a later revision, after its target accepted it, and the checkpoint of the book restores it sorted.
Every checkpoint that is accepted is the checkpoint of the book it restores. -/
theorem lifecycle (g : GroupId) (calls : List Call) :
    ((Machine.run step (new g) calls).invitations.map Invitation.id).Nodup ∧
    (Machine.run step (new g) calls).invitations.length ≤ maxInvitationRecords ∧
    (∀ before after, calls = before ++ after →
      ∀ i ∈ (Machine.run step (new g) before).invitations,
        ∃ j ∈ (Machine.run step (new g) calls).invitations, j = { i with status := j.status } ∧
          (i.status.settled = true → j.status = i.status)) ∧
    (∀ before after id authenticated authority now answer,
      calls = before ++ .revoke id authenticated authority now :: after →
      (step (Machine.run step (new g) before) (.revoke id authenticated authority now)).2
        = .ok answer →
      ∀ j ∈ (Machine.run step (new g) calls).invitations, j.id = id → j.status = .revoked) ∧
    ((∀ call ∈ calls, call.Issued) →
      (∀ before after call r, calls = before ++ call :: after →
        ∀ j ∈ (Machine.run step (new g) (before ++ [call])).invitations, j.status = .admitted r →
          j ∉ (Machine.run step (new g) before).invitations →
          (∃ authority now, call = .admit_ j.id authority authority r now ∧
            now < j.expiresAt) ∧ j.sourceRevision < r ∧ r ≠ Group.reservedRevision ∧
              Accepted (Machine.log step (new g) before) j) ∧
      ∃ bytes, (Machine.run step (new g) calls).encodeState = .ok bytes ∧
        decodeState bytes g = .ok (Machine.run step (new g) calls).sorted) ∧
    ∀ bytes b, decodeState bytes g = .ok b → b.encodeState = .ok bytes := by
  have hbounded := bounded_run g calls
  refine ⟨hbounded.ids_nodup, hbounded.length_le, ?_, ?_, fun hissued => ⟨?_, ?_⟩, ?_⟩
  · rintro before after rfl i hi
    rw [Machine.run_append]
    obtain ⟨j, hj, hij⟩ := extends_run (Machine.run step (new g) before) after i hi
    exact ⟨j, hj, hij.fields_eq, hij.settled⟩
  · rintro before after id a a' now answer rfl hok j hj hid
    obtain ⟨i, hi, rfl, hs⟩ := revoked_of_ok hok
    rw [Machine.run_append, Machine.run_cons] at hj hbounded
    obtain ⟨k, hk, hik⟩ := extends_run _ after i hi
    obtain rfl := hbounded.eq_of_id hj hk (hid.trans hik.id_eq.symm)
    rw [hik.settled (by rw [hs]; rfl), hs]
  · rintro before after call r rfl j hj hs hnew
    rw [List.forall_mem_append, List.forall_mem_cons] at hissued
    rw [Machine.run_append] at hj
    exact admitted_of_step (recorded_run g hissued.1) hissued.2.1 hj hs hnew
  · have hst := (recorded_run g hissued).storable
    refine ⟨_, encodeState_eq_ok_iff.mpr ⟨hbounded.length_le, hst, rfl⟩, ?_⟩
    exact decodeState_eq_ok_iff.mpr ⟨hbounded.canonical_sorted hst, rfl⟩
  · intro bytes b h
    obtain ⟨hcan, rfl⟩ := decodeState_eq_ok_iff.mp h
    exact encodeState_eq_ok_iff.mpr ⟨hcan.length_le, hcan.storable, by rw [hcan.sorted_eq]⟩

/-- A pending invitation of a member, due at time ten. -/
def sampleInvitation : Invitation :=
  ⟨⟨FixedBytes.replicate 16 7⟩, Sample.group, Sample.bob, 0, FixedBytes.replicate digestLen 0,
    policyVersionV1, 10, .pending⟩

/-- The invitation is created, accepted at time one and admitted with revision one at time two. -/
def sampleCalls : List Call :=
  [.create Sample.alice Sample.alice [Sample.alice] sampleInvitation 0,
    .accept sampleInvitation.id Sample.bob 0 sampleInvitation.sourceRosterDigest 1,
    .admit_ sampleInvitation.id Sample.alice Sample.alice 1 2]

theorem lifecycle_sample :
    (Machine.run step (new Sample.group) sampleCalls).invitations =
      [{ sampleInvitation with status := .admitted 1 }] ∧
    ∃ bytes, (Machine.run step (new Sample.group) sampleCalls).encodeState = .ok bytes ∧
      decodeState bytes Sample.group
        = .ok (Machine.run step (new Sample.group) sampleCalls).sorted := by
  have hissued : ∀ call ∈ sampleCalls, call.Issued := by
    simp only [sampleCalls, List.forall_mem_cons, Call.Issued]
    exact ⟨⟨rfl, by decide⟩, trivial, trivial, nofun⟩
  exact ⟨by decide, ((lifecycle Sample.group sampleCalls).2.2.2.2.1 hissued).2⟩

/-- `create` checks neither the status nor the fields of the invitation that it records. An
invitation given to it as accepted is admitted although there was no acceptance, and a book with an
invitation of an unknown policy has no checkpoint. -/
theorem admitted_unaccepted :
    let accepted := { sampleInvitation with status := .acceptedPendingAdmission }
    let calls : List Call := [.create Sample.alice Sample.alice [Sample.alice] accepted 0,
      .admit_ accepted.id Sample.alice Sample.alice 1 0]
    (Machine.run step (new Sample.group) calls).invitations =
        [{ sampleInvitation with status := .admitted 1 }] ∧
      (∀ call ∈ calls, ∀ id target revision digest now,
        call ≠ .accept id target revision digest now) ∧
      (Machine.run step (new Sample.group) [.create Sample.alice Sample.alice [Sample.alice]
        { sampleInvitation with policyVersion := 2 } 0]).encodeState
          = .error .unsupportedPolicy := by
  refine ⟨by decide, ?_, by decide⟩
  simp only [List.forall_mem_cons]
  exact ⟨nofun, nofun, nofun⟩

end InvitationBook

end Tacenta.Group
