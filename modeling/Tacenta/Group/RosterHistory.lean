import Tacenta.Group.RosterView
import Tacenta.Library.HashChain

/-!
# Histories of roster views

A view driven by any sequence of offers passes through rosters that are linked by their digests.
If commitments are collision-free on what two views have held and the views agree on their current
digest, they have held the same roster at every revision that both have held.

## Main definitions

* `RosterView.machine`: a view as a machine that takes offers.
* `RosterView.Starts`: the views from which a run starts.
* `RosterView.Disciplined`: what never changes along a run, and what each step may change.

## Main results

* `RosterView.exists_linked`: the views held along a run form a chain linked by digests.
* `RosterView.shared_history`: views that agree on a digest agree on their shared history.
-/

open ByteString Result

namespace Tacenta.Group

namespace RosterView

/-- A roster offered to a view by an authenticated peer, with the digest computed for it. -/
structure Offer where
  /-- The authenticated peer. -/
  peer : Member
  /-- The offered roster. -/
  candidate : Roster
  /-- The digest the caller computed. -/
  digest : Digest

/-- A view as a machine that takes offers. -/
def machine : Machine RosterView Offer RosterDisposition :=
  fun v o => v.acceptSuccessor o.peer o.candidate o.digest

variable (commitment : Bytes → Digest)

/-- The offered roster can be encoded and the digest is the commitment to its encoding. -/
def Offer.Computed (o : Offer) : Prop := commitment <$> o.candidate.encode = .ok o.digest

/-- The view was started by `acceptGenesis` or `acceptSource`, with the commitment to the roster's
encoding as its digest. -/
def Starts (v : RosterView) : Prop :=
  ∃ peer roster digest, commitment <$> roster.encode = .ok digest ∧
    (acceptGenesis peer roster digest = .ok v ∨ acceptSource peer roster digest = .ok v)

/-- What a view keeps along a run and what each offer may change. -/
structure Disciplined (v : RosterView) (offers : List Offer) : Prop where
  fixed : ∀ w ∈ machine.states v offers, w.roster.groupId = v.roster.groupId ∧
    w.roster.authority = v.roster.authority ∧ w.roster.policyVersion = v.roster.policyVersion
  authority_mem : ∀ w ∈ machine.states v offers, w.roster.authority ∈ w.roster.members
  accepted : ∀ before o after, offers = before ++ o :: after →
    (machine (machine.run v before) o).2 = .accepted →
      (machine (machine.run v before) o).1.roster.revision.toNat =
        (machine.run v before).roster.revision.toNat + 1
  unaccepted : ∀ before o after, offers = before ++ o :: after →
    (machine (machine.run v before) o).2 ≠ .accepted →
      (machine (machine.run v before) o).1 = machine.run v before
  closed : ∀ before after, offers = before ++ after → (machine.run v before).roster.closed = true →
    (machine.run v offers).roster.closed = true

/-! ### One step -/

variable {commitment}

private theorem commitment_map_encode {r : Roster} {d : Digest} :
    commitment <$> r.encode = .ok d ↔ r.Valid ∧ d = commitment r.layout := by
  rw [map_eq_ok]
  constructor
  · rintro ⟨b, hb, rfl⟩
    obtain ⟨hv, rfl⟩ := Roster.encode_eq_ok_iff.mp hb
    exact ⟨hv, rfl⟩
  · rintro ⟨hv, rfl⟩
    exact ⟨r.layout, Roster.encode_of_valid hv, rfl⟩

variable (commitment) in
/-- The view holds a valid roster that lists its authority, with the roster's own digest. -/
structure Sound (v : RosterView) : Prop where
  roster_valid : v.roster.Valid
  digest_eq : v.digest = commitment v.roster.layout
  authority_mem : v.roster.authority ∈ v.roster.members

theorem Starts.sound {v : RosterView} (h : Starts commitment v) : v.Sound commitment := by
  obtain ⟨peer, roster, digest, hd, h⟩ := h
  obtain ⟨hv, rfl⟩ := commitment_map_encode.mp hd
  rcases h with h | h
  · obtain ⟨rfl, -, -, -, -, hm⟩ := acceptGenesis_eq_ok_iff.mp h
    exact ⟨hv, rfl, by rw [hm]; exact List.mem_cons_self⟩
  · obtain ⟨rfl, -, -, hm⟩ := acceptSource_eq_ok h
    exact ⟨hv, rfl, hm⟩

theorem machine_offered (v : RosterView) (o : Offer) :
    v.Offered o.peer o.candidate o.digest (machine v o) :=
  v.acceptSuccessor_offered o.peer o.candidate o.digest

theorem machine_sound {v : RosterView} {o : Offer} (hv : v.Sound commitment)
    (ho : o.Computed commitment) : (machine v o).1.Sound commitment := by
  obtain ⟨hc, hd⟩ := commitment_map_encode.mp ho
  have h := machine_offered v o
  generalize machine v o = result at h ⊢
  cases h with
  | refused _ => exact hv
  | accepted _ hs => exact ⟨hc, hd, hs.authority_mem⟩

/-- What a step keeps of a view: the group, the authority, the policy version and closure. -/
structure Keeps (v w : RosterView) : Prop where
  groupId_eq : w.roster.groupId = v.roster.groupId
  authority_eq : w.roster.authority = v.roster.authority
  policyVersion_eq : w.roster.policyVersion = v.roster.policyVersion
  closed_of_closed : v.roster.closed = true → w.roster.closed = true

theorem Keeps.refl (v : RosterView) : v.Keeps v := ⟨rfl, rfl, rfl, id⟩

theorem Keeps.trans {u v w : RosterView} (h₁ : u.Keeps v) (h₂ : v.Keeps w) : u.Keeps w :=
  ⟨h₂.1.trans h₁.1, h₂.2.trans h₁.2, h₂.3.trans h₁.3, fun h => h₂.4 (h₁.4 h)⟩

theorem machine_keeps (v : RosterView) (o : Offer) : v.Keeps (machine v o).1 := by
  have h := machine_offered v o
  generalize machine v o = result at h ⊢
  cases h with
  | refused _ => exact .refl v
  | accepted _ hs =>
    exact ⟨hs.groupId_eq, hs.authority_eq, hs.policyVersion_eq, hs.closed_of_closed⟩

theorem machine_accepted {v : RosterView} {o : Offer} (h : (machine v o).2 = .accepted) :
    (machine v o).1 = ⟨o.candidate, o.digest⟩ ∧ v.Succeeds o.candidate := by
  have hoff := machine_offered v o
  generalize machine v o = result at hoff h ⊢
  cases hoff with
  | refused hd => exact absurd h hd
  | accepted _ hs => exact ⟨rfl, hs⟩

theorem machine_unaccepted {v : RosterView} {o : Offer} (h : (machine v o).2 ≠ .accepted) :
    (machine v o).1 = v := by
  have hoff := machine_offered v o
  generalize machine v o = result at hoff h ⊢
  cases hoff with
  | refused _ => rfl
  | accepted _ _ => exact absurd rfl h

/-! ### Whole runs -/

theorem run_keeps (v : RosterView) (offers : List Offer) : v.Keeps (machine.run v offers) :=
  Machine.run_preserves _ (fun w o hw => hw.trans (machine_keeps w o)) (.refl v) offers

theorem states_sound {v : RosterView} {offers : List Offer} (hv : v.Sound commitment)
    (ho : ∀ o ∈ offers, o.Computed commitment) :
    ∀ w ∈ machine.states v offers, w.Sound commitment :=
  Machine.states_invariant _ (fun _ _ hw hi => machine_sound hw hi) hv (Machine.along_of_forall ho)

theorem disciplined {v : RosterView} {offers : List Offer} (hv : v.Sound commitment)
    (ho : ∀ o ∈ offers, o.Computed commitment) : v.Disciplined offers where
  fixed w hw := by
    obtain ⟨before, after, rfl, rfl⟩ := Machine.mem_states_iff.mp hw
    have h := run_keeps v before
    exact ⟨h.groupId_eq, h.authority_eq, h.policyVersion_eq⟩
  authority_mem w hw := (states_sound hv ho w hw).authority_mem
  accepted before o after _ h := by
    obtain ⟨heq, hs⟩ := machine_accepted h
    rw [heq]
    exact hs.revision_eq
  unaccepted before o after _ h := machine_unaccepted h
  closed before after h hc := by
    rw [h, Machine.run_append]
    exact (run_keeps _ after).closed_of_closed hc

/-- A newest-first list of views, each of which is the successor of the next. -/
abbrev Linked (views : List RosterView) : Prop :=
  HashChain.Linked RosterView.digest (fun v => v.roster.predecessorDigest)
    (fun v => v.roster.revision.toNat) views

/-- The views held along a run, together with the ones held before it, form a chain linked by
digests. -/
theorem exists_linked {v : RosterView} {older : List RosterView} (offers : List Offer)
    (h : Linked (v :: older)) :
    ∃ older', Linked (machine.run v offers :: older') ∧
      ∀ w, w ∈ machine.run v offers :: older' ↔ w ∈ machine.states v offers ∨ w ∈ older := by
  induction offers generalizing v older with
  | nil => exact ⟨older, h, fun w => by simp [Machine.states]⟩
  | cons o offers ih =>
    by_cases ha : (machine v o).2 = .accepted
    · obtain ⟨heq, hs⟩ := machine_accepted ha
      have hlink : Linked ((machine v o).1 :: v :: older) := by
        refine List.isChain_cons_cons.mpr ⟨?_, h⟩
        rw [heq]
        exact ⟨hs.predecessor_eq, hs.revision_eq⟩
      obtain ⟨older', hl, hmem⟩ := ih hlink
      refine ⟨older', hl, fun w => ?_⟩
      simp only [Machine.run_cons, hmem, Machine.states, List.mem_cons]
      tauto
    · have hsame := machine_unaccepted ha
      obtain ⟨older', hl, hmem⟩ := ih (hsame.symm ▸ h)
      have hhead : v ∈ machine.states (machine v o).1 offers :=
        Machine.mem_states_iff.mpr ⟨[], offers, rfl, hsame.symm⟩
      refine ⟨older', hl, fun w => ?_⟩
      simp only [Machine.run_cons, hmem, Machine.states, List.mem_cons]
      constructor
      · rintro (hw | hw)
        · exact Or.inl (Or.inr hw)
        · exact Or.inr hw
      · rintro ((rfl | hw) | hw)
        · exact Or.inl hhead
        · exact Or.inl hw
        · exact Or.inr hw

/-- Two views that start soundly and are driven by any offers: if commitments are collision-free on
the rosters they have held and their current digests are equal, they have held the identical roster
at every revision that both have held. Every run keeps its group, authority and policy, moves by
one revision at each acceptance, always lists its authority, stays closed once closed, and is not
changed by a call that is not accepted. -/
theorem shared_history {v₁ v₂ : RosterView} {offers₁ offers₂ : List Offer}
    (hv₁ : Starts commitment v₁) (hv₂ : Starts commitment v₂)
    (ho₁ : ∀ o ∈ offers₁, o.Computed commitment) (ho₂ : ∀ o ∈ offers₂, o.Computed commitment)
    (hinj : Set.InjOn commitment {b | ∃ w, (w ∈ machine.states v₁ offers₁ ∨
      w ∈ machine.states v₂ offers₂) ∧ w.roster.encode = .ok b})
    (hdigest : (machine.run v₁ offers₁).digest = (machine.run v₂ offers₂).digest) :
    (∀ w₁ ∈ machine.states v₁ offers₁, ∀ w₂ ∈ machine.states v₂ offers₂,
      w₁.roster.revision = w₂.roster.revision → w₁.roster = w₂.roster) ∧
    v₁.Disciplined offers₁ ∧ v₂.Disciplined offers₂ := by
  have hs₁ := states_sound hv₁.sound ho₁
  have hs₂ := states_sound hv₂.sound ho₂
  refine ⟨?_, disciplined hv₁.sound ho₁, disciplined hv₂.sound ho₂⟩
  obtain ⟨older₁, hl₁, hmem₁⟩ := exists_linked offers₁ (List.isChain_singleton v₁)
  obtain ⟨older₂, hl₂, hmem₂⟩ := exists_linked offers₂ (List.isChain_singleton v₂)
  simp only [List.not_mem_nil, or_false] at hmem₁ hmem₂
  -- Equal digests are equal commitments, hence equal encodings, hence equal rosters.
  have hviews : Set.InjOn RosterView.digest {w | w ∈ machine.run v₁ offers₁ :: older₁ ∨
      w ∈ machine.run v₂ offers₂ :: older₂} := by
    have hsound : ∀ w, (w ∈ machine.states v₁ offers₁ ∨ w ∈ machine.states v₂ offers₂) →
        w.Sound commitment := fun w hw => hw.elim (hs₁ w) (hs₂ w)
    intro a ha b hb hab
    simp only [Set.mem_ofPred_eq, hmem₁, hmem₂] at ha hb
    have sa := hsound a ha
    have sb := hsound b hb
    rw [sa.digest_eq, sb.digest_eq] at hab
    have hlayout := hinj ⟨a, ha, Roster.encode_of_valid sa.roster_valid⟩
      ⟨b, hb, Roster.encode_of_valid sb.roster_valid⟩ hab
    have hroster := Roster.layout_injective sa.roster_valid sb.roster_valid hlayout
    have hd : a.digest = b.digest := by rw [sa.digest_eq, sb.digest_eq, hab]
    cases a
    cases b
    cases hroster
    cases hd
    rfl
  intro w₁ hw₁ w₂ hw₂ hrev
  exact congrArg RosterView.roster (hl₁.eq_of_height_eq hl₂ hviews hdigest
    ((hmem₁ w₁).mpr hw₁) ((hmem₂ w₂).mpr hw₂) (congrArg UInt64.toNat hrev))

open Sample in
/-- A member that followed the group from its genesis and one that joined at revision one agree on
revision one. -/
theorem shared_history_sample :
    let first : Roster := successor 1 (lengthCommitment genesis.layout) [alice, bob]
    let v₁ : RosterView := ⟨genesis, lengthCommitment genesis.layout⟩
    let v₂ : RosterView := ⟨first, lengthCommitment first.layout⟩
    let offers : List Offer := [⟨alice, first, lengthCommitment first.layout⟩]
    Starts lengthCommitment v₁ ∧ Starts lengthCommitment v₂ ∧ machine.run v₁ offers = v₂ ∧
      ∀ w₁ ∈ machine.states v₁ offers, ∀ w₂ ∈ machine.states v₂ [],
        w₁.roster.revision = w₂.roster.revision → w₁.roster = w₂.roster := by
  intro first v₁ v₂ offers
  have h₁ : Starts lengthCommitment v₁ :=
    ⟨alice, genesis, lengthCommitment genesis.layout, by decide +kernel, Or.inl (by decide +kernel)⟩
  have h₂ : Starts lengthCommitment v₂ :=
    ⟨alice, first, lengthCommitment first.layout, by decide +kernel, Or.inr (by decide +kernel)⟩
  have ho : ∀ o ∈ offers, o.Computed lengthCommitment := by
    intro o ho
    obtain rfl := List.mem_singleton.mp ho
    change lengthCommitment <$> first.encode = _
    decide +kernel
  have hstates : ∀ w, w ∈ machine.states v₁ offers ∨ w ∈ machine.states v₂ [] →
      w.roster = genesis ∨ w.roster = first := by
    have hv₁ : machine.states v₁ offers = [v₁, v₂] := by decide +kernel
    intro w hw
    rw [hv₁] at hw
    simp only [Machine.states, List.mem_cons, List.not_mem_nil, or_false] at hw
    rcases hw with (rfl | rfl) | rfl
    · exact Or.inl rfl
    · exact Or.inr rfl
    · exact Or.inr rfl
  have hinj : Set.InjOn lengthCommitment {b | ∃ w, (w ∈ machine.states v₁ offers ∨
      w ∈ machine.states v₂ []) ∧ w.roster.encode = .ok b} := by
    have hne : lengthCommitment genesis.layout ≠ lengthCommitment first.layout := by decide +kernel
    rintro a ⟨w, hw, ha⟩ b ⟨w', hw', hb⟩ hab
    obtain ⟨-, rfl⟩ := Roster.encode_eq_ok_iff.mp ha
    obtain ⟨-, rfl⟩ := Roster.encode_eq_ok_iff.mp hb
    rcases hstates w hw with h | h <;> rcases hstates w' hw' with h' | h' <;>
      simp only [h, h'] at hab ⊢
    · exact absurd hab hne
    · exact absurd hab.symm hne
  have hnone : ∀ o ∈ ([] : List Offer), o.Computed lengthCommitment := fun _ h =>
    absurd h List.not_mem_nil
  exact ⟨h₁, h₂, by decide +kernel,
    (shared_history h₁ h₂ ho hnone hinj (by decide +kernel)).1⟩

end RosterView

end Tacenta.Group
