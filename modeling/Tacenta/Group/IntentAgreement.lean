import Tacenta.Group.SendCodec

/-!
# Refusals of intents

Encoding an intent validates it and then writes its layout. The layout is written here without the
validation, for sends that no constructor builds too, and read back: reading meets the same checks
in the same order, so that it refuses with the reason that encoding gives.

## Main definitions

* `LogicalSend.rawIntent`: the layout that `encodeIntent` writes, without its checks.

## Main results

* `LogicalSend.decodeIntent_rawIntent`: decoding the layout is validating the send.
* `LogicalSend.intent_agreement`: encoding and decoding agree on every value and every refusal.
-/

open ByteString Reader Result

namespace Tacenta.Group

/-- The fields of a member can be written. -/
def Member.Writable (m : Member) : Prop := m.identity.length < 2 ^ 32 ∧ m.device.length < 2 ^ 32

theorem putMember_eq_ok_iff {out b : Bytes} {m : Member} :
    putMember out m = .ok b ↔ m.Writable ∧ b = out ++ m.layout := by
  simp only [putMember, bind_eq_ok, putLp_eq_ok, Member.Writable, Member.layout]
  constructor
  · rintro ⟨_, ⟨hidentity, rfl⟩, hdevice, rfl⟩
    exact ⟨⟨hidentity, hdevice⟩, List.append_assoc _ _ _⟩
  · rintro ⟨⟨hidentity, hdevice⟩, rfl⟩
    exact ⟨_, ⟨hidentity, rfl⟩, hdevice, (List.append_assoc _ _ _).symm⟩

theorem foldlM_putMember_eq_ok_iff {ms : List Member} {out b : Bytes} :
    ms.foldlM putMember out = .ok b ↔
      (∀ m ∈ ms, m.Writable) ∧ b = out ++ ms.flatMap Member.layout := by
  have hput : ∀ out (m : Member) b, putMember out m = .ok b ↔ m.Writable ∧ b = out ++ m.layout :=
    fun _ _ _ => putMember_eq_ok_iff
  exact foldlM_eq_ok_iff hput

theorem run_takeMember_layout {m : Member} (h : m.Writable) (rest : Bytes) :
    takeMember.run (m.layout ++ rest) = m.validate >>= fun _ => .ok (m, rest) := by
  rw [takeMember, Member.layout, List.append_assoc,
    run_bind_of_ok (run_takeLp_eq_ok.mpr ⟨h.1, rfl⟩),
    run_bind_of_ok (run_takeLp_eq_ok.mpr ⟨h.2, rfl⟩), run_lift_bind]
  rfl

namespace LogicalSend

variable {s : LogicalSend}

/-- The bytes that `encodeIntent` writes, without its checks. -/
def rawIntent (s : LogicalSend) : Except Error Bytes := do
  let out := logicalSendDomain
  let out ← putLp out s.id.groupId.bytes.val
  let out := out ++ u64Bytes s.id.revision
  let out ← putMember out s.id.sender
  let out := out ++ u64Bytes s.id.sequence
  let out ← putLp out s.rosterDigest.val
  let out ← putLp out s.payload
  let out ← putU32 out s.recipients.length
  (s.recipients.map RecipientProgress.recipient).foldlM putMember out

theorem encodeIntent_eq (s : LogicalSend) :
    s.encodeIntent = s.validateIntent >>= fun _ => s.rawIntent := rfl

/-- The fields of a send can be written. -/
structure Writable (s : LogicalSend) : Prop where
  sender : s.id.sender.Writable
  payload : s.payload.length < 2 ^ 32
  count : s.recipients.length < 2 ^ 32
  members : ∀ m ∈ s.members, m.Writable

theorem rawIntent_eq_ok_iff {b : Bytes} :
    s.rawIntent = .ok b ↔ s.Writable ∧ b = s.intentLayout := by
  simp only [rawIntent, bind_eq_ok, putLp_eq_ok, putMember_eq_ok_iff, putU32_eq_ok,
    foldlM_putMember_eq_ok_iff, FixedBytes.length_val, intentLayout]
  constructor
  · rintro ⟨_, ⟨-, rfl⟩, _, ⟨hsender, rfl⟩, _, ⟨-, rfl⟩, _, ⟨hpayload, rfl⟩, _, ⟨hcount, rfl⟩,
      hmembers, rfl⟩
    refine ⟨⟨hsender, hpayload, hcount, hmembers⟩, ?_⟩
    simp only [members, List.length_map, List.append_assoc]
  · rintro ⟨h, rfl⟩
    refine ⟨_, ⟨by decide, rfl⟩, _, ⟨h.sender, rfl⟩, _, ⟨by decide, rfl⟩, _, ⟨h.payload, rfl⟩, _,
      ⟨h.count, rfl⟩, h.members, ?_⟩
    simp only [members, List.length_map, List.append_assoc]

/-- The send as decoding returns it: nothing has happened to its recipients. -/
def refreshed (s : LogicalSend) : LogicalSend :=
  { s with recipients := s.members.map RecipientProgress.fresh }

/-- Decoding a layout meets the checks of `validateIntent`, in their order. -/
theorem decodeIntent_rawIntent {raw : Bytes} (h : s.rawIntent = .ok raw) :
    decodeIntent raw = s.validateIntent >>= fun _ => .ok s.refreshed := by
  obtain ⟨hw, rfl⟩ := rawIntent_eq_ok_iff.mp h
  have hgroup : s.id.groupId.bytes.val.length < 2 ^ 32 := by
    rw [FixedBytes.length_val]
    decide
  have hdigest : s.rosterDigest.val.length < 2 ^ 32 := by
    rw [FixedBytes.length_val]
    decide
  have hlength : s.members.length = s.recipients.length := List.length_map _
  have hcount : s.members.length.toUInt32.toNat = s.members.length := by
    rw [toNat_toUInt32_of_lt (hlength ▸ hw.count)]
  have hempty : refuseIf (s.members.length.toUInt32 = 0) Error.emptyRecipients =
      refuseIf s.recipients.isEmpty Error.emptyRecipients := by
    refine if_congr ?_ rfl rfl
    rw [List.isEmpty_iff_length_eq_zero, ← hlength, ← UInt32.toNat_inj, hcount]
    rfl
  have hvalidate : s.members.forM Member.validate =
      s.recipients.forM fun p => p.recipient.validate := List.forM_map
  have hrun : readIntent.run s.intentLayout =
      s.validateIntent >>= fun _ => .ok (s.refreshed, []) := by
    simp only [readIntent, intentLayout, validateIntent, bind_assoc]
    rw [run_bind_of_ok (run_takeExact_eq_ok (u := ()) |>.mpr rfl),
      run_bind_of_ok (run_takeLp_eq_ok.mpr ⟨hgroup, rfl⟩),
      run_bind_of_ok (run_lift_eq_ok.mpr ⟨tryFrom_eq_ok.mpr rfl, rfl⟩),
      run_bind_of_ok (run_takeU64_eq_ok.mpr rfl), StateT.run_bind,
      run_takeMember_layout hw.sender, bind_assoc]
    refine bind_congr fun _ => ?_
    rw [ok_bind, run_bind_of_ok (run_takeU64_eq_ok.mpr rfl),
      run_bind_of_ok (run_takeLp_eq_ok.mpr ⟨hdigest, rfl⟩),
      run_bind_of_ok (run_lift_eq_ok.mpr ⟨Reader.exactly_eq_ok.mpr rfl, rfl⟩),
      run_bind_of_ok (run_takeLp_eq_ok.mpr ⟨hw.payload, rfl⟩), run_lift_bind]
    refine bind_congr fun _ => ?_
    rw [run_bind_of_ok (run_takeU32_eq_ok.mpr rfl), run_lift_bind, hempty]
    refine bind_congr fun _ => ?_
    rw [run_lift_bind, hcount, hlength]
    refine bind_congr fun _ => ?_
    rw [← hlength, StateT.run_bind, ← List.append_nil (s.members.flatMap Member.layout),
      run_many_of_checked fun m hm => run_takeMember_layout (hw.members m hm), bind_assoc,
      hvalidate]
    refine bind_congr fun _ => ?_
    rw [ok_bind, run_bind_of_ok (run_finish_eq_ok (u := ()) |>.mpr ⟨rfl, rfl⟩),
      run_lift_bind]
    refine bind_congr fun _ => ?_
    rw [run_lift_bind, LogicalMessageId.new, bind_assoc]
    rfl
  rw [decodeIntent, StateT.run'_eq, hrun]
  cases s.validateIntent <;> rfl

/-- **Intents.** Encoding accepts a send exactly if decoding accepts its layout, with the layout as
its bytes, and otherwise both give the same reason. Every accepted byte string encodes again. -/
theorem intent_agreement :
    (∀ s : LogicalSend,
      (∃ raw, s.rawIntent = .ok raw) ↔ (s.id.sender.identity.length < 2 ^ 32 ∧
        s.id.sender.device.length < 2 ^ 32) ∧ s.payload.length < 2 ^ 32 ∧
        s.recipients.length < 2 ^ 32 ∧ ∀ p ∈ s.recipients,
          p.recipient.identity.length < 2 ^ 32 ∧ p.recipient.device.length < 2 ^ 32) ∧
    (∀ (s : LogicalSend) (raw : Bytes), s.rawIntent = .ok raw →
      (∀ b, s.encodeIntent = .ok b ↔ (∃ t, decodeIntent raw = .ok t) ∧ b = raw) ∧
      (∀ t, decodeIntent raw = .ok t → t.id = s.id ∧ t.rosterDigest = s.rosterDigest ∧
        t.payload = s.payload ∧
        t.recipients = s.recipients.map fun p => ⟨p.recipient, .pending, none, none, 0⟩) ∧
      ∀ e, s.encodeIntent = .error e ↔ decodeIntent raw = .error e) ∧
    ∀ (b : Bytes) (s : LogicalSend), decodeIntent b = .ok s → s.encodeIntent = .ok b := by
  refine ⟨fun s => ?_, fun s raw hraw => ?_, fun b s h => ?_⟩
  · constructor
    · rintro ⟨raw, hraw⟩
      obtain ⟨hw, -⟩ := rawIntent_eq_ok_iff.mp hraw
      exact ⟨hw.sender, hw.payload, hw.count, List.forall_mem_map.mp hw.members⟩
    · rintro ⟨hsender, hpayload, hcount, hmembers⟩
      exact ⟨_, rawIntent_eq_ok_iff.mpr
        ⟨⟨hsender, hpayload, hcount, List.forall_mem_map.mpr hmembers⟩, rfl⟩⟩
  · rw [encodeIntent_eq, decodeIntent_rawIntent hraw, hraw]
    cases hv : s.validateIntent with
    | error e => simp
    | ok u => simp [refreshed, members, RecipientProgress.fresh, eq_comm]
  · obtain ⟨hv, -, rfl⟩ := decodeIntent_eq_ok_iff.mp h
    exact encodeIntent_eq_ok_iff.mpr ⟨hv, rfl⟩

end LogicalSend

end Tacenta.Group
