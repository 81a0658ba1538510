import Tacenta.Client.GroupClient

/-!
# What the commits of a coordinator change

Most commits of a coordinator leave alone what was received and the checkpoint of the view: they
change the provider state, the invitation book, the control outbox or the held controls.

## Main definitions

* `Appended`: a candidate adds control records that say nothing about the view and the sends.

## Main results

* `appended_*`: the commits that publish such a candidate.
-/

open ByteString Records Result Tacenta.Group

namespace Tacenta.Client

variable {S σ α : Type} [OperationStore S] {commitments : Commitments} {store : S}
  {snapshot candidate : OperationSnapshot}

/-! ### Control records beside the view -/

/-- The tags of the records that say nothing about the view and the sends. -/
def sideTags : List Bytes := [ascii "TCGB", ascii "TCGO", ascii "TCGE", ascii "TCGQ"]

/-- Records that say nothing about the view and the sends. -/
def SideRecords (records : List Bytes) : Prop :=
  ∀ record ∈ records, ∃ tag ∈ sideTags, hasTag tag record = true

/-- The candidate has a new generation and provider state, and records appended that say nothing
about the view and the sends. -/
def Appended (snapshot candidate : OperationSnapshot) : Prop :=
  ∃ generation providerState records, SideRecords records ∧ candidate =
    { snapshot with
      generation
      providerState
      groupControls := appendGroupControlRecords snapshot.groupControls records }

theorem SideRecords.nil : SideRecords [] := fun _ h => absurd h List.not_mem_nil

theorem SideRecords.cons {tag record : Bytes} {records : List Bytes} (htag : tag ∈ sideTags)
    (h : hasTag tag record = true) (hrecords : SideRecords records) :
    SideRecords (record :: records) :=
  List.forall_mem_cons.mpr ⟨⟨tag, htag, h⟩, hrecords⟩

theorem SideRecords.filter_eq_nil {tag : Bytes} {records : List Bytes} (h : SideRecords records)
    (hlength : tag.length = 4) (htag : tag ∉ sideTags) : records.filter (hasTag tag) = [] := by
  refine List.filter_eq_nil_iff.mpr fun record hrecord htagged => htag ?_
  obtain ⟨other, hother, hboth⟩ := h record hrecord
  have hlengths : ∀ tag ∈ sideTags, tag.length = 4 := by decide
  rw [tag_unique hlength (hlengths other hother) htagged hboth]
  exact hother

private theorem hasTag_effect (effect : CryptoStateEffect) :
    hasTag (ascii "TCGE") (encodeControlEffectRecord effect) = true := hasTag_append _ _

theorem providerStatePlan_publish {providerState : Bytes} {live live' : σ} {a : Unit}
    (h : providerStatePlan providerState store snapshot live = .ok (.publish candidate live' a)) :
    live' = live ∧ ∃ generation, candidate = { snapshot with generation, providerState } := by
  obtain ⟨begun, hbegun, h⟩ := bind_eq_ok.mp h
  obtain ⟨generation, rfl⟩ := beginCandidate_eq_ok hbegun
  cases h
  exact ⟨rfl, generation, rfl⟩

theorem appended_invitationTransition {provider : Option (Bytes × CryptoStateEffect)}
    {transition : InvitationBook → InvitationBook × Except Error α} {book book' : InvitationBook}
    {a : α} (h : invitationTransitionPlan provider transition store snapshot book =
      .ok (.publish candidate book' a)) : Appended snapshot candidate := by
  simp only [invitationTransitionPlan, bind_eq_ok, Prod.exists] at h
  obtain ⟨_, _, -, state, -, begun, hbegun, record, hrecord, h⟩ := h
  obtain ⟨generation, rfl⟩ := beginCandidate_eq_ok hbegun
  cases h
  refine ⟨generation, _, _, .cons (by decide) (hasTag_of_putLp hrecord) ?_, rfl⟩
  cases provider with
  | none => exact .nil
  | some provider => exact .cons (by decide) (hasTag_effect provider.2) .nil

theorem appended_controlOutboxTransition
    {transition : ControlOutbox → Except Error (ControlOutbox × α)} {outbox outbox' : ControlOutbox}
    {a : α} (h : controlOutboxTransitionPlan commitments transition store snapshot outbox =
      .ok (.publish candidate outbox' a)) : Appended snapshot candidate := by
  simp only [controlOutboxTransitionPlan, bind_eq_ok, Prod.exists] at h
  obtain ⟨_, _, -, state, -, begun, hbegun, record, hrecord, h⟩ := h
  obtain ⟨generation, rfl⟩ := beginCandidate_eq_ok hbegun
  cases h
  exact ⟨generation, _, _, .cons (by decide) (hasTag_of_putLp hrecord) .nil, rfl⟩

theorem appended_preparedControlHandoff {recipient : Member}
    {payload ciphertext providerState : Bytes} {outbox outbox' : ControlOutbox} {a : Handoff}
    (h : preparedControlHandoffPlan commitments recipient payload ciphertext providerState store
      snapshot outbox = .ok (.publish candidate outbox' a)) : Appended snapshot candidate := by
  simp only [preparedControlHandoffPlan, bind_eq_ok] at h
  obtain ⟨_, -, state, -, handoff, -, begun, hbegun, record, hrecord, h⟩ := h
  obtain ⟨generation, rfl⟩ := beginCandidate_eq_ok hbegun
  cases h
  exact ⟨generation, _, _, .cons (by decide) (hasTag_of_putLp hrecord) .nil, rfl⟩

theorem appended_authorityInvitationRevocation {authority : Member} {invitationId : InvitationId}
    {now : UInt64} {live live' : InvitationBook × ControlOutbox} {a : Invitation}
    (h : authorityInvitationRevocationPlan commitments authority invitationId now store snapshot
      live = .ok (.publish candidate live' a)) : Appended snapshot candidate := by
  simp only [authorityInvitationRevocationPlan, bind_eq_ok, Prod.exists] at h
  obtain ⟨_, _, -, _, -, _, -, begun, hbegun, book, hbook, outbox, houtbox, h⟩ := h
  obtain ⟨generation, rfl⟩ := beginCandidate_eq_ok hbegun
  cases h
  exact ⟨generation, _, _, .cons (by decide) (hasTag_of_putLp hbook)
    (.cons (by decide) (hasTag_of_putLp houtbox) .nil), rfl⟩

theorem appended_holdRosterWithoutView {queue queue' : DeferredRosters} {authority : Member}
    {groupId : GroupId} {control : Roster} {provider : Bytes × CryptoStateEffect} {a : Unit}
    (h : holdRosterWithoutViewPlan store snapshot queue authority groupId control provider =
      .ok (.publish candidate queue' a)) : Appended snapshot candidate := by
  obtain ⟨-, h⟩ := refuseIf_bind_eq_ok.mp h
  obtain ⟨-, h⟩ := refuseIf_bind_eq_ok.mp h
  simp only [bind_eq_ok] at h
  obtain ⟨begun, hbegun, record, hrecord, h⟩ := h
  obtain ⟨generation, rfl⟩ := beginCandidate_eq_ok hbegun
  obtain ⟨rfl, -, -⟩ := Plan.publish.inj (Except.ok.inj h)
  exact ⟨generation, _, _, .cons (by decide) (hasTag_effect provider.2)
    (.cons (by decide) (hasTag_encodeRecord (policy_eq_ok.mp hrecord)) .nil), rfl⟩

theorem appended_pruneDeferredRosters {queue queue' : DeferredRosters} {view : RosterView}
    {groupId : GroupId} {a : Bool}
    (h : pruneDeferredRostersPlan store snapshot view groupId queue =
      .ok (.publish candidate queue' a)) : Appended snapshot candidate := by
  rw [pruneDeferredRostersPlan] at h
  split at h
  · cases h
  · simp only [bind_eq_ok] at h
    obtain ⟨begun, hbegun, record, hrecord, h⟩ := h
    obtain ⟨generation, rfl⟩ := beginCandidate_eq_ok hbegun
    cases h
    exact ⟨generation, _, _, .cons (by decide) (hasTag_encodeRecord (policy_eq_ok.mp hrecord)) .nil,
      rfl⟩

end Tacenta.Client
