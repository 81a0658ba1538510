import Tacenta.Client.ControlOutboxRuns
import Tacenta.Group.Codec
import Tacenta.Library.Word64

/-!
# Checkpoints of the control outbox

A checkpoint lists the handoffs in canonical order. Restoring it checks each handoff by itself and
against those before it, and accepts only bytes that the restored outbox writes again. The outbox
of every run whose ciphertexts can be written has a checkpoint, and is restored from it.

## Main definitions

* `Handoff.Storable`, `Handoff.layout`: the handoffs that a checkpoint holds and their bytes.
* `ControlOutbox.allocations`: the number of handoffs that a run allocated.

## Main results

* `ControlOutbox.encodeState_eq_ok_iff`: when an outbox has a checkpoint.
* `ControlOutbox.outbox_state_lossless`: the checkpoints of every run.
-/

open ByteString Reader Records Result Tacenta.Group

namespace Tacenta.Client

theorem Disposition.ofCode_eq_some_iff {code : UInt8} {d : Disposition} :
    ofCode code = some d ↔ code = d.code := by
  constructor
  · intro h
    unfold ofCode at h
    split at h <;> simp only [Option.some_inj, reduceCtorEq] at h <;> subst h <;> rfl
  · rintro rfl
    cases d <;> rfl

namespace Handoff

/-- The fields of a handoff can be written. -/
structure Writable (h : Handoff) : Prop where
  identity : h.recipient.identity.length < 2 ^ 32
  device : h.recipient.device.length < 2 ^ 32
  payload : h.payload.length < 2 ^ 32
  ciphertext : h.ciphertext.length < 2 ^ 32

/-- A checkpoint holds the handoff. -/
structure Storable (h : Handoff) : Prop extends h.Writable where
  recipient_valid : h.recipient.Valid
  fits : ControlOutbox.attemptsFit h.attemptsReserved h.disposition = true
  control : isControlPayload h.payload = true

def layout (h : Handoff) : Bytes :=
  lpBytes h.recipient.identity ++ (lpBytes h.recipient.device ++ (lpBytes h.payload ++
    (lpBytes h.ciphertext ++ (h.attemptsReserved :: h.disposition.code :: u64Bytes h.sequence))))

/-- Two handoffs of one outbox. -/
def Apart (commit : Bytes → Digest) (a b : Handoff) : Prop :=
  a.sequence ≠ b.sequence ∧ a.isFor commit b.recipient b.payload = false

theorem length_of_isControlPayload {payload : Bytes} (h : isControlPayload payload = true) :
    payload.length ≤ maxGroupPayloadLen := by
  cases hdecode : GroupPayload.decode payload with
  | error e =>
    rw [isControlPayload, hdecode] at h
    cases h
  | ok p =>
    obtain ⟨hle, -⟩ := refuseIf_bind_eq_ok.mp hdecode
    exact Nat.not_lt.mp hle

end Handoff

/-- What a call prepares is for a recipient within the member limits, and its ciphertext can be
written. -/
def ControlCall.Bounded : ControlCall → Prop
  | .recordPrepared recipient _ ciphertext => recipient.Valid ∧ ciphertext.length < 2 ^ 32
  | _ => True

namespace ControlOutbox

variable {commit : Bytes → Digest} {o o' : ControlOutbox}

variable {b : Bytes} {n : Nat}

theorem putHandoff_eq_ok_iff {out : Bytes} {h : Handoff} :
    putHandoff out h = .ok b ↔ h.Writable ∧ b = out ++ h.layout := by
  simp only [putHandoff, bind_eq_ok, putLp_eq_ok, pure_eq_ok, Handoff.layout]
  constructor
  · rintro ⟨_, ⟨hidentity, rfl⟩, _, ⟨hdevice, rfl⟩, _, ⟨hpayload, rfl⟩, _, ⟨hciphertext, rfl⟩, rfl⟩
    exact ⟨⟨hidentity, hdevice, hpayload, hciphertext⟩, by simp⟩
  · rintro ⟨hw, rfl⟩
    exact ⟨_, ⟨hw.identity, rfl⟩, _, ⟨hw.device, rfl⟩, _, ⟨hw.payload, rfl⟩, _,
      ⟨hw.ciphertext, rfl⟩, by simp⟩

/-- The bytes of a checkpoint. -/
def layout (o : ControlOutbox) : Bytes :=
  controlOutboxDomain ++ o.handoffs.length.toUInt8 :: o.handoffs.flatMap Handoff.layout

theorem length_eq_live_add_terminal (o : ControlOutbox) :
    o.handoffs.length = o.live + terminal o.handoffs := by
  rw [live, terminal, Nat.add_comm,
    List.length_eq_countP_add_countP fun h : Handoff => h.disposition.isTerminal]
  simp only [Bool.not_eq_true, Bool.decide_eq_false]

/-- An outbox has a checkpoint exactly if it keeps its bounds and its handoffs can be written. -/
theorem encodeState_eq_ok_iff :
    o.encodeState commit = .ok b ↔
      (o.live ≤ 8 ∧ terminal o.handoffs ≤ 16) ∧ (∀ h ∈ o.handoffs, h.Writable) ∧
        b = layout ⟨sort commit o.handoffs⟩ := by
  have hput : ∀ out h b, putHandoff out h = .ok b ↔ h.Writable ∧ b = out ++ h.layout :=
    fun _ _ _ => putHandoff_eq_ok_iff
  have hperm := @perm_sort commit o.handoffs
  have hlength : (sort commit o.handoffs).length = o.live + terminal o.handoffs := by
    rw [hperm.length_eq, length_eq_live_add_terminal]
  change (refuseIf _ _ >>= fun _ => refuseIf (2 ^ 8 ≤ (sort commit o.handoffs).length) _ >>=
    fun _ => _) = _ ↔ _
  rw [refuseIf_bind_eq_ok, refuseIf_bind_eq_ok, not_or, Nat.not_lt, Nat.not_lt, maxLiveHandoffs,
    maxTerminalHandoffs]
  refine and_congr_right fun hbounds => ?_
  have hshort : ¬2 ^ 8 ≤ (sort commit o.handoffs).length := by
    rw [hlength]
    omega
  rw [and_iff_right hshort]
  change (sort commit o.handoffs).foldlM putHandoff _ = _ ↔ _
  rw [foldlM_eq_ok_iff hput, layout, List.append_assoc, List.singleton_append]
  exact and_congr_left fun _ => forall_congr' fun h => imp_congr_left hperm.mem_iff

theorem Sound.sort_eq (ho : Sound commit o) : sort commit o.handoffs = o.handoffs :=
  Sorting.insertionSort_eq ho.sorted

/-- An outbox of a run has a checkpoint exactly if its handoffs can be written. -/
theorem Sound.encodeState_eq_ok_iff (ho : Sound commit o) :
    o.encodeState commit = .ok b ↔ (∀ h ∈ o.handoffs, h.Writable) ∧ b = o.layout := by
  rw [ControlOutbox.encodeState_eq_ok_iff, ho.sort_eq,
    and_iff_right ⟨ho.live_le, ho.terminal_le⟩]

/-! ### Restoring -/

theorem run_takeHandoff_eq_ok {acc acc' : List Handoff} {s rest : Bytes} :
    (takeHandoff commit acc).run s = .ok (acc', rest) ↔
      ∃ h : Handoff, (h.Storable ∧ ∀ known ∈ acc, known.Apart commit h) ∧ acc' = acc ++ [h] ∧
        s = h.layout ++ rest := by
  have hapart (recipient : Member) (payload : Bytes) (sequence : UInt64) :
      (¬(acc.any fun known => decide (known.sequence = sequence ∨
        known.isFor commit recipient payload = true)) = true) ↔ ∀ known ∈ acc,
          known.sequence ≠ sequence ∧ known.isFor commit recipient payload = false := by
    simp only [List.any_eq_true, decide_eq_true_eq, not_exists, not_and, not_or,
      Bool.not_eq_true, ne_eq]
  simp only [takeHandoff, run_bind_eq_ok, run_takeLp_eq_ok, run_lift_eq_ok,
    refuseIf_eq_ok, run_takeByte_eq_ok]
  constructor
  · rintro ⟨identity, _, ⟨hidentity, rfl⟩, device, _, ⟨hdevice, rfl⟩, _, _, ⟨hsizes, rfl⟩, payload,
      _, ⟨hpayload, rfl⟩, ciphertext, _, ⟨hciphertext, rfl⟩, attempts, _, rfl, code, _, rfl, h⟩
    cases hcode : Disposition.ofCode code with
    | none =>
      rw [hcode] at h
      cases h
    | some disposition =>
      rw [hcode] at h
      obtain rfl := Disposition.ofCode_eq_some_iff.mp hcode
      simp only [run_bind_eq_ok, run_takeU64_eq_ok, run_lift_eq_ok,
        refuseIf_eq_ok, run_pure_eq_ok, hapart] at h
      obtain ⟨sequence, _, rfl, _, _, ⟨hchecks, rfl⟩, _, _, ⟨hknown, rfl⟩, rfl, rfl⟩ := h
      simp only [not_or, Bool.not_eq_true, Bool.not_eq_false', Nat.not_lt] at hchecks hsizes
      refine ⟨⟨⟨identity, device⟩, payload, ciphertext, attempts, disposition, sequence⟩,
        ⟨⟨⟨hidentity, hdevice, hpayload, hciphertext⟩, ⟨hsizes.1, hsizes.2⟩, hchecks.1, hchecks.2⟩,
          hknown⟩, rfl, ?_⟩
      simp [Handoff.layout]
  · rintro ⟨h, ⟨hst, hknown⟩, rfl, rfl⟩
    have hvalid := hst.recipient_valid
    simp only [Handoff.layout, List.append_assoc, List.cons_append]
    refine ⟨h.recipient.identity, _, ⟨hst.identity, rfl⟩, h.recipient.device, _, ⟨hst.device, rfl⟩,
      (), _, ⟨?_, rfl⟩, h.payload, _, ⟨hst.payload, rfl⟩, h.ciphertext, _, ⟨hst.ciphertext, rfl⟩,
      h.attemptsReserved, _, rfl, h.disposition.code, _, rfl, ?_⟩
    · rw [not_or, Nat.not_lt, Nat.not_lt]
      exact ⟨hvalid.identity_le, hvalid.device_le⟩
    · rw [Disposition.ofCode_eq_some_iff.mpr rfl]
      simp only [run_bind_eq_ok, run_takeU64_eq_ok, run_lift_eq_ok,
        refuseIf_eq_ok, run_pure_eq_ok, hapart]
      refine ⟨h.sequence, rest, rfl, (), rest, ⟨?_, rfl⟩, (), rest, ⟨hknown, rfl⟩, rfl, rfl⟩
      simp [hst.fits, hst.control]

theorem run_readState_layout (hcount : o.handoffs.length ≤ 24)
    (hst : ∀ h ∈ o.handoffs, h.Storable) (hapart : o.handoffs.Pairwise (Handoff.Apart commit)) :
    (readState commit).run o.layout = .ok (o, []) := by
  have htoNat : o.handoffs.length.toUInt8.toNat = o.handoffs.length := by
    rw [toNat_toUInt8_of_lt (by omega)]
  simp only [readState, layout, run_bind_eq_ok, run_takeExact_eq_ok,
    run_takeByte_eq_ok, run_refuseIf_eq_ok,
    run_loop_eq_ok fun _ _ _ _ => run_takeHandoff_eq_ok, run_finish_eq_ok,
    run_pure_eq_ok]
  refine ⟨(), _, rfl, o.handoffs.length.toUInt8, _, rfl, (), _, ⟨?_, rfl⟩, o.handoffs, [],
    ⟨o.handoffs, htoNat.symm, rfl, (List.append_nil _).symm, hst, hapart,
      fun _ h => absurd h List.not_mem_nil⟩, (), [], ⟨rfl, rfl⟩, rfl, rfl⟩
  rw [htoNat, maxLiveHandoffs, maxTerminalHandoffs]
  omega

theorem encodeState_of_decodeState (h : decodeState commit b = .ok o) :
    o.encodeState commit = .ok b := by
  simp only [decodeState, bind_eq_ok, refuseIf_eq_ok, pure_eq_ok, not_not] at h
  obtain ⟨_, -, canonical, hencode, _, rfl, rfl⟩ := h
  exact hencode

/-! ### Allocation numbers -/

/-- Whether a call allocates a handoff: there is none for the recipient and payload, and the call
succeeds. -/
def allocates (commit : Bytes → Digest) (o : ControlOutbox) : ControlCall → Bool
  | .recordPrepared recipient payload ciphertext =>
    (o.handoffs.all fun h => !h.isFor commit recipient payload) &&
      (o.recordPrepared commit recipient payload ciphertext).isOk
  | _ => false

/-- The number of handoffs that a run allocates. -/
def allocations (commit : Bytes → Digest) : ControlOutbox → List ControlCall → Nat
  | _, [] => 0
  | o, call :: calls => (if allocates commit o call then 1 else 0) +
      allocations commit (controlCalls commit o call).1 calls

/-- Every handoff has an allocation number of its own below a bound. -/
structure Numbered (n : Nat) (o : ControlOutbox) : Prop where
  lt : ∀ h ∈ o.handoffs, h.sequence.toNat < n
  nodup : (o.handoffs.map Handoff.sequence).Nodup

theorem Numbered.mono {m : Nat} (h : Numbered m o) (hmn : m ≤ n) : Numbered n o :=
  ⟨fun x hx => Nat.lt_of_lt_of_le (h.lt x hx) hmn, h.nodup⟩

theorem numbered_reclaim {l : List Handoff} (h : Numbered n ⟨l⟩) :
    Numbered n (reclaim l) :=
  ⟨fun x hx => h.lt x ((sublist_reclaim l).mem hx), h.nodup.sublist ((sublist_reclaim l).map _)⟩

theorem Numbered.nextSequence (h : Numbered n o) (hn : n < 2 ^ 64 - 1) :
    o.nextSequence.toNat ≤ n ∧ ∀ x ∈ o.handoffs, x.sequence.toNat < o.nextSequence.toNat := by
  rw [ControlOutbox.nextSequence]
  cases hmax : (o.handoffs.map Handoff.sequence).max? with
  | none =>
    have hnil := List.map_eq_nil_iff.mp (List.max?_eq_none_iff.mp hmax)
    exact ⟨Nat.zero_le n, fun x hx => absurd (hnil ▸ hx) List.not_mem_nil⟩
  | some highest =>
    obtain ⟨hmem, hle⟩ := List.max?_eq_some_iff.mp hmax
    obtain ⟨y, hy, rfl⟩ := List.mem_map.mp hmem
    have hlt := h.lt y hy
    have hsucc : (Word64.saturatingAdd y.sequence 1).toNat = y.sequence.toNat + 1 := by
      rw [Word64.toNat_saturatingAdd]
      exact Word64.saturate_of_lt (show y.sequence.toNat + 1 < _ by omega)
    simp only [hsucc]
    refine ⟨hlt, fun x hx => ?_⟩
    have hx' := UInt64.le_iff_toNat_le.mp (hle x.sequence (List.mem_map_of_mem hx))
    omega

theorem allocates_of_recorded {recipient : Member} {payload ciphertext : Bytes}
    (hnew : ∀ h ∈ o.handoffs, h.isFor commit recipient payload = false) (hlive : o.live < 8)
    (hcontrol : Handoff.isControlPayload payload = true) :
    allocates commit o (.recordPrepared recipient payload ciphertext) = true := by
  have hfind : o.handoffs.find? (Handoff.isFor commit recipient payload) = none :=
    List.find?_eq_none.mpr fun x hx => by simp [hnew x hx]
  have hadmitted : ¬(maxLiveHandoffs ≤ o.live ∨
      (!Handoff.isControlPayload payload) = true) := by
    rw [hcontrol, maxLiveHandoffs]
    simp only [Bool.not_true, Bool.false_eq_true, or_false, Nat.not_le]
    exact hlive
  rw [allocates, recordPrepared, hfind]
  simp only [refuseIf_neg hadmitted, ok_bind, Bool.and_eq_true, List.all_eq_true]
  exact ⟨fun x hx => by rw [hnew x hx]; rfl, rfl⟩

/-- One call keeps the allocation numbers apart, as long as there are numbers left. -/
theorem Numbered.step (h : Numbered n o) (call : ControlCall)
    (hn : n + (if allocates commit o call then 1 else 0) < 2 ^ 64) :
    Numbered (n + if allocates commit o call then 1 else 0) (controlCalls commit o call).1 := by
  generalize hnext : (controlCalls commit o call).1 = next
  have hstep := stepped commit o call
  rw [hnext] at hstep
  cases hstep with
  | same => exact h.mono (Nat.le_add_right _ _)
  | @moved _ l hmoved =>
    have hmap : l.map Handoff.sequence = o.handoffs.map Handoff.sequence := by
      have hfixed := congrArg (List.map fun x => x.2.2.2) (map_fixed_of_moved hmoved)
      rwa [List.map_map, List.map_map] at hfixed
    refine (numbered_reclaim ⟨fun x hx => ?_, ?_⟩).mono (Nat.le_add_right n _)
    · have hx' : x.sequence ∈ o.handoffs.map Handoff.sequence := hmap ▸ List.mem_map_of_mem hx
      obtain ⟨y, hy, heq⟩ := List.mem_map.mp hx'
      exact heq ▸ h.lt y hy
    · change (l.map Handoff.sequence).Nodup
      rw [hmap]
      exact h.nodup
  | recorded recipient payload ciphertext hnew hlive hcontrol =>
    rw [allocates_of_recorded hnew hlive hcontrol, if_pos rfl] at hn ⊢
    obtain ⟨hle, hlt⟩ := h.nextSequence (by omega)
    refine numbered_reclaim ⟨fun x hx => ?_, ?_⟩
    · rcases List.mem_append.mp ((perm_sort _).mem_iff.mp hx) with hx | hx
      · exact Nat.lt_succ_of_lt (h.lt x hx)
      · obtain rfl := List.mem_singleton.mp hx
        exact Nat.lt_succ_of_le hle
    · change ((sort commit _).map Handoff.sequence).Nodup
      rw [((perm_sort _).map _).nodup_iff, List.map_append, List.map_singleton,
        List.nodup_append]
      refine ⟨h.nodup, List.nodup_singleton _, fun a ha b hb => ?_⟩
      obtain ⟨x, hx, rfl⟩ := List.mem_map.mp ha
      obtain rfl := List.mem_singleton.mp hb
      intro heq
      exact Nat.lt_irrefl _ (heq ▸ hlt x hx)

theorem numbered_run (h : Numbered n o) (calls : List ControlCall)
    (hn : n + allocations commit o calls < 2 ^ 64) :
    Numbered (n + allocations commit o calls) ((controlCalls commit).run o calls) := by
  induction calls generalizing o n with
  | nil => exact h
  | cons call calls ih =>
    rw [allocations, ← Nat.add_assoc] at hn ⊢
    exact ih (h.step call (by omega)) hn

/-! ### Runs -/

/-- The handoffs are of valid recipients, and their ciphertexts can be written. -/
def Bounded (o : ControlOutbox) : Prop :=
  ∀ h ∈ o.handoffs, h.recipient.Valid ∧ h.ciphertext.length < 2 ^ 32

theorem Bounded.step {call : ControlCall} (h : Bounded o) (hcall : call.Bounded)
    (hstep : Stepped commit o call o') : Bounded o' := by
  intro x hx
  cases hstep with
  | same => exact h x hx
  | moved _ hmoved =>
    obtain ⟨y, hy, hxy⟩ := exists_of_moved hmoved ((sublist_reclaim _).mem hx)
    obtain ⟨hrecipient, hrest⟩ := Prod.mk.inj hxy.fixed_eq
    rw [hrecipient, (Prod.mk.inj (Prod.mk.inj hrest).2).1]
    exact h y hy
  | recorded recipient payload ciphertext =>
    rcases List.mem_append.mp ((perm_sort _).mem_iff.mp ((sublist_reclaim _).mem hx)) with hx | hx
    · exact h x hx
    · obtain rfl := List.mem_singleton.mp hx
      exact hcall

theorem bounded_run {calls : List ControlCall} (hcalls : ∀ call ∈ calls, call.Bounded) :
    Bounded ((controlCalls commit).run empty calls) :=
  Machine.run_invariant (A := fun _ call => call.Bounded) Bounded
    (fun o call h hcall => h.step hcall (stepped commit o call))
    (fun _ h => absurd h List.not_mem_nil) (Machine.along_of_forall hcalls)

/-- The handoffs of a sound outbox are told apart by their allocation numbers and by recipient and
payload. -/
theorem Sound.apart (ho : Sound commit o) (hn : Numbered n o) :
    o.handoffs.Pairwise (Handoff.Apart commit) := by
  refine ho.sorted.imp₂ (fun a b hlt hne => ⟨hne, ?_⟩) (List.pairwise_map.mp hn.nodup)
  by_contra hfor
  rw [Bool.not_eq_false] at hfor
  rw [Handoff.canonicalOrder_eq_iff.mpr hfor] at hlt
  cases hlt

/-- **Checkpoints.** The outbox of every run of preparations with valid recipients and ciphertexts
that can be written is sound, and its checkpoint restores it; bytes that are restored are the
checkpoint of what they restore. -/
theorem outbox_state_lossless (commit : Bytes → Digest) (calls : List ControlCall)
    (hcalls : ∀ call ∈ calls, call.Bounded)
    (hn : allocations commit empty calls < 2 ^ 64 - 1) :
    (∃ b, ((controlCalls commit).run empty calls).encodeState commit = .ok b ∧
      decodeState commit b = .ok ((controlCalls commit).run empty calls)) ∧
    (∀ b o, decodeState commit b = .ok o → o.encodeState commit = .ok b) ∧
    ((controlCalls commit).run empty calls).handoffs.Pairwise
      (fun a b => Handoff.canonicalOrder commit a b = .lt) ∧
    (((controlCalls commit).run empty calls).handoffs.map
      fun h => (h.recipient, h.payload)).Nodup ∧
    (((controlCalls commit).run empty calls).handoffs.map Handoff.sequence).Nodup ∧
    ((controlCalls commit).run empty calls).live ≤ maxLiveHandoffs ∧
    terminal ((controlCalls commit).run empty calls).handoffs ≤ maxTerminalHandoffs ∧
    ∀ h ∈ ((controlCalls commit).run empty calls).handoffs,
      attemptsFit h.attemptsReserved h.disposition = true := by
  have ho := sound_run commit calls
  have hbounded : Bounded ((controlCalls commit).run empty calls) := bounded_run hcalls
  have hnumbered : Numbered (0 + allocations commit empty calls)
      ((controlCalls commit).run empty calls) :=
    numbered_run (o := empty) ⟨fun _ h => absurd h List.not_mem_nil, List.nodup_nil⟩ calls
      (by omega)
  generalize (controlCalls commit).run empty calls = o at ho hbounded hnumbered
  have hst : ∀ h ∈ o.handoffs, h.Storable := by
    intro h hh
    obtain ⟨hvalid, hciphertext⟩ := hbounded h hh
    have hidentity : h.recipient.identity.length ≤ 256 := hvalid.identity_le
    have hdevice : h.recipient.device.length ≤ 64 := hvalid.device_le
    have hpayload : h.payload.length ≤ 8192 :=
      Handoff.length_of_isControlPayload (ho.control h hh)
    exact ⟨⟨by omega, by omega, by omega, hciphertext⟩, hvalid, ho.fits h hh, ho.control h hh⟩
  have hcount : o.handoffs.length ≤ 24 := by
    have hlive := ho.live_le
    have hterminal := ho.terminal_le
    rw [length_eq_live_add_terminal]
    omega
  have hencode : o.encodeState commit = .ok o.layout :=
    ho.encodeState_eq_ok_iff.mpr ⟨fun h hh => (hst h hh).toWritable, rfl⟩
  have hapart := ho.apart hnumbered
  refine ⟨⟨o.layout, hencode, ?_⟩, fun b o => encodeState_of_decodeState, ho.sorted, ?_,
    hnumbered.nodup, ho.live_le, ho.terminal_le, ho.fits⟩
  · have hread : (readState commit).run' o.layout = .ok o :=
      run'_eq_ok.mpr ⟨[], run_readState_layout hcount hst hapart⟩
    rw [decodeState, hread, ok_bind, hencode, ok_bind, refuseIf_neg (by simp)]
    rfl
  · refine List.pairwise_map.mpr (hapart.imp fun {a b} hab heq => ?_)
    obtain ⟨hrecipient, hpayload⟩ := Prod.mk.inj heq
    have hfor : a.isFor commit b.recipient b.payload = true := by
      simp [Handoff.isFor, hrecipient, hpayload]
    rw [hab.2] at hfor
    cases hfor

/-- Two ciphertexts are prepared, and an attempt of the second one is reserved. -/
def preparedCalls : List ControlCall :=
  [.recordPrepared (samplePeer 1) samplePayload [1],
    .recordPrepared (samplePeer 0) samplePayload [0], .reserve (samplePeer 0) samplePayload]

/-- The second recipient comes first in the canonical order. -/
theorem outbox_state_lossless_sample :
    let o := (controlCalls Sample.lengthCommitment).run empty preparedCalls
    o.handoffs.map (fun h => (h.recipient, h.sequence)) = [(samplePeer 0, 1), (samplePeer 1, 0)] ∧
      o.handoffs.Pairwise (fun a b => Handoff.canonicalOrder Sample.lengthCommitment a b = .lt) ∧
      ∃ b, o.encodeState Sample.lengthCommitment = .ok b ∧
        decodeState Sample.lengthCommitment b = .ok o := by
  have hcalls : ∀ call ∈ preparedCalls, call.Bounded := by
    simp only [preparedCalls, List.forall_mem_cons, ControlCall.Bounded]
    exact ⟨⟨⟨by decide, by decide⟩, by decide⟩, ⟨⟨by decide, by decide⟩, by decide⟩, trivial,
      fun _ h => absurd h List.not_mem_nil⟩
  obtain ⟨hstate, -, hsorted, -⟩ :=
    outbox_state_lossless Sample.lengthCommitment _ hcalls (by decide +kernel)
  exact ⟨by decide +kernel, hsorted, hstate⟩

theorem recordPrepared_empty {recipient : Member} {payload : Bytes} (ciphertext : Bytes)
    (hcontrol : Handoff.isControlPayload payload = true) :
    empty.recordPrepared commit recipient payload ciphertext =
      .ok ⟨[⟨recipient, payload, ciphertext, 0, .prepared, 0⟩]⟩ := by
  have hadmitted : ¬(maxLiveHandoffs ≤ empty.live ∨
      (!Handoff.isControlPayload payload) = true) := by
    rw [hcontrol]
    decide
  change (refuseIf _ _ >>= fun _ => _) = _
  rw [refuseIf_neg hadmitted]
  rfl

/-- An outbox with a ciphertext that cannot be written has no checkpoint. -/
theorem encodeState_single {h : Handoff} (hidentity : h.recipient.identity.length < 2 ^ 32)
    (hdevice : h.recipient.device.length < 2 ^ 32) (hpayload : h.payload.length < 2 ^ 32)
    (hciphertext : 2 ^ 32 ≤ h.ciphertext.length) :
    (⟨[h]⟩ : ControlOutbox).encodeState commit = .error .malformed := by
  have hbounds : ¬(maxLiveHandoffs < (⟨[h]⟩ : ControlOutbox).live ∨
      maxTerminalHandoffs < terminal [h]) := by
    have hlive : (⟨[h]⟩ : ControlOutbox).live ≤ 1 := List.countP_le_length
    have hterminal : terminal [h] ≤ 1 := List.countP_le_length
    rw [maxLiveHandoffs, maxTerminalHandoffs]
    omega
  have hput (out : Bytes) : putHandoff out h = .error .malformed := by
    rw [putHandoff, putLp_eq_ok.mpr ⟨hidentity, rfl⟩, ok_bind, putLp_eq_ok.mpr ⟨hdevice, rfl⟩,
      ok_bind, putLp_eq_ok.mpr ⟨hpayload, rfl⟩, ok_bind, putLp, putU32, refuseIf_pos hciphertext]
    rfl
  rw [encodeState, refuseIf_neg hbounds, ok_bind]
  change ([h].foldlM putHandoff _) = _
  rw [List.foldlM_cons, hput, error_bind]

/-- A ciphertext of four gigabytes is recorded, and the outbox has no checkpoint. -/
theorem long_ciphertext_not_encoded :
    ((controlCalls Sample.lengthCommitment).run empty
      [.recordPrepared (samplePeer 0) samplePayload (List.replicate (2 ^ 32) 0)]).encodeState
        Sample.lengthCommitment = .error .malformed := by
  have hcontrol : Handoff.isControlPayload samplePayload = true := by decide +kernel
  rw [Machine.run_cons, Machine.run_nil, controlCalls, recordPrepared_empty _ hcontrol]
  exact encodeState_single (by decide) (by decide) (by decide +kernel) (List.length_replicate.ge)

end ControlOutbox

end Tacenta.Client
