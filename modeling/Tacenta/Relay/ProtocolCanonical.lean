import Tacenta.Library.Canonical
import Tacenta.Relay.ProtocolCodec

/-!
# The relay's messages are canonical

Layouts of the relay's requests, responses and authentication frames. Each of them is written
exactly if it fits, and only the layouts of values that fit are accepted.

An envelope is written as a block after its length, so it is the encoding of the envelope, seven
bytes longer than its payload, that has to fit four bytes.

## Main definitions

* `Request.FieldsFit`: the strings, byte fields and counts of a request fit four bytes.
* `Request.Fits`, `Response.Fits`, `AuthFits`: the values that are written.

## Main results

* `canonical_request`, `canonical_response`, `canonical_auth`.
* `not_encoded_of_length`: a send whose envelope does not fit is not written.
-/

open ByteString Reader Result Tacenta.Wire

namespace Tacenta.Relay

/-! ### Requests -/

/-- The strings, the byte fields and the counts of a request fit four bytes. -/
def Request.FieldsFit : Request → Prop
  | .send recipient envelope => recipient.Fits ∧ envelope.payload.length < 2 ^ 32
  | .poll device => device.Fits
  | .ack device _ => device.Fits
  | .delivered devices => devices.length < 2 ^ 32 ∧ ∀ device ∈ devices, device.Fits

/-- The strings, the counts and the encoded envelope of a request fit four bytes. -/
def Request.Fits : Request → Prop
  | .send recipient envelope => recipient.Fits ∧ envelope.layout.length < 2 ^ 32
  | .poll device => device.Fits
  | .ack device _ => device.Fits
  | .delivered devices => devices.length < 2 ^ 32 ∧ ∀ device ∈ devices, device.Fits

def Request.layout : Request → Bytes
  | .send recipient envelope => 1 :: (recipient.layout ++ lpBytes envelope.layout)
  | .poll device => 2 :: device.layout
  | .ack device upTo => 3 :: (device.layout ++ u64Bytes upTo)
  | .delivered devices =>
    4 :: (u32Bytes devices.length.toUInt32 ++ devices.flatMap DeviceAddr.layout)

theorem encodeRequest_eq_ok_iff (request : Request) (b : Bytes) :
    encodeRequest request = .ok b ↔ request.Fits ∧ b = request.layout := by
  cases request with
  | send recipient envelope =>
    simp only [encodeRequest, bind_eq_ok, putAddr_eq_ok_iff, putEnvelope_eq_ok_iff, Request.Fits,
      Request.layout]
    constructor
    · rintro ⟨_, ⟨hrecipient, rfl⟩, henvelope, rfl⟩
      exact ⟨⟨hrecipient, henvelope⟩, by simp⟩
    · rintro ⟨⟨hrecipient, henvelope⟩, rfl⟩
      exact ⟨_, ⟨hrecipient, rfl⟩, henvelope, by simp⟩
  | poll device => exact putAddr_eq_ok_iff
  | ack device upTo =>
    simp only [encodeRequest, bind_eq_ok, putAddr_eq_ok_iff, pure_eq_ok, Request.Fits,
      Request.layout]
    constructor
    · rintro ⟨_, ⟨hdevice, rfl⟩, rfl⟩
      exact ⟨hdevice, by simp⟩
    · rintro ⟨hdevice, rfl⟩
      exact ⟨_, ⟨hdevice, rfl⟩, by simp⟩
  | delivered devices =>
    have hput : ∀ out (device : DeviceAddr) b,
        putAddr out device = .ok b ↔ device.Fits ∧ b = out ++ device.layout :=
      fun _ _ _ => putAddr_eq_ok_iff
    rw [encodeRequest, refuseIf_bind_eq_ok, not_le, foldlM_eq_ok_iff hput, ← and_assoc]
    exact Iff.rfl

/-- A send is not written if the encoding of its envelope does not fit four bytes. -/
theorem not_encoded_of_length {recipient : DeviceAddr} {envelope : Envelope} {b : Bytes}
    (h : 2 ^ 32 ≤ envelope.layout.length) : encodeRequest (.send recipient envelope) ≠ .ok b := by
  rw [Ne, encodeRequest_eq_ok_iff]
  rintro ⟨⟨-, hlt⟩, -⟩
  exact absurd hlt (not_lt.mpr h)

theorem decodeRequest_eq_some_iff (b : Bytes) (request : Request) :
    decodeRequest b = some request ↔ request.Fits ∧ b = request.layout := by
  simp only [decodeRequest, toOption_eq_some, run'_eq_ok, readRequest, run_bind_eq_ok,
    run_takeByte_eq_ok]
  constructor
  · rintro ⟨_, tag, _, rfl, h⟩
    split at h
    · simp only [run_bind_eq_ok, run_takeAddr_eq_ok, run_takeLp_eq_ok,
        run_finish_eq_ok, run_lift_eq_ok, orRefuse_eq_ok, decode_eq_some_iff,
        run_pure_eq_ok] at h
      obtain ⟨recipient, _, ⟨hr, rfl⟩, _, _, ⟨hb, rfl⟩, _, _, ⟨rfl, rfl⟩, envelope, _,
        ⟨⟨-, rfl⟩, rfl⟩, rfl, rfl⟩ := h
      exact ⟨⟨hr, hb⟩, by rw [List.append_nil]; rfl⟩
    · simp only [run_bind_eq_ok, run_takeAddr_eq_ok, run_finish_eq_ok,
        run_pure_eq_ok] at h
      obtain ⟨device, _, ⟨hd, rfl⟩, _, _, ⟨rfl, rfl⟩, rfl, rfl⟩ := h
      exact ⟨hd, by rw [List.append_nil]; rfl⟩
    · simp only [run_bind_eq_ok, run_takeAddr_eq_ok, run_takeU64_eq_ok,
        run_finish_eq_ok, run_pure_eq_ok] at h
      obtain ⟨device, _, ⟨hd, rfl⟩, upTo, _, rfl, _, _, ⟨rfl, rfl⟩, rfl, rfl⟩ := h
      exact ⟨hd, by rw [List.append_nil]; rfl⟩
    · simp only [run_bind_eq_ok, run_takeU32_eq_ok,
        run_many_eq_ok fun _ _ _ => run_takeAddr_eq_ok, run_finish_eq_ok,
        run_pure_eq_ok] at h
      obtain ⟨count, _, rfl, devices, _, ⟨hlen, hfits, rfl⟩, _, _, ⟨rfl, rfl⟩, rfl, rfl⟩ := h
      obtain ⟨hlt, rfl⟩ := count_eq hlen
      exact ⟨⟨hlt, hfits⟩, by rw [List.append_nil]; rfl⟩
    · cases h
  · rintro ⟨hfits, rfl⟩
    cases request with
    | send recipient envelope =>
      have hlen := envelope.length_layout
      obtain ⟨hrecipient, henvelope⟩ := hfits
      refine ⟨[], 1, _, rfl, ?_⟩
      simp only [run_bind_eq_ok, run_takeAddr_eq_ok, run_takeLp_eq_ok,
        run_finish_eq_ok, run_lift_eq_ok, orRefuse_eq_ok, decode_eq_some_iff,
        run_pure_eq_ok]
      exact ⟨recipient, _, ⟨hrecipient, rfl⟩, envelope.layout, [],
        ⟨henvelope, (List.append_nil _).symm⟩, (), [], ⟨rfl, rfl⟩, envelope, [],
        ⟨⟨by omega, rfl⟩, rfl⟩, rfl, rfl⟩
    | poll device =>
      refine ⟨[], 2, _, rfl, ?_⟩
      simp only [run_bind_eq_ok, run_takeAddr_eq_ok, run_finish_eq_ok,
        run_pure_eq_ok]
      exact ⟨device, [], ⟨hfits, (List.append_nil _).symm⟩, (), [], ⟨rfl, rfl⟩, rfl, rfl⟩
    | ack device upTo =>
      refine ⟨[], 3, _, rfl, ?_⟩
      simp only [run_bind_eq_ok, run_takeAddr_eq_ok, run_takeU64_eq_ok,
        run_finish_eq_ok, run_pure_eq_ok]
      exact ⟨device, _, ⟨hfits, rfl⟩, upTo, [], (List.append_nil _).symm, (), [], ⟨rfl, rfl⟩, rfl,
        rfl⟩
    | delivered devices =>
      obtain ⟨hlt, hdevices⟩ := hfits
      refine ⟨[], 4, _, rfl, ?_⟩
      simp only [run_bind_eq_ok, run_takeU32_eq_ok,
        run_many_eq_ok fun _ _ _ => run_takeAddr_eq_ok, run_finish_eq_ok,
        run_pure_eq_ok]
      exact ⟨_, _, rfl, devices, [],
        ⟨(toNat_toUInt32_of_lt hlt).symm, hdevices, (List.append_nil _).symm⟩, (), [], ⟨rfl, rfl⟩,
        rfl, rfl⟩

theorem canonical_request : Canonical encodeRequest decodeRequest Request.Fits :=
  .of_layout encodeRequest_eq_ok_iff decodeRequest_eq_some_iff

/-! ### Responses -/

/-- The strings, the counts and the encoded envelopes of a response fit four bytes. -/
def Response.Fits : Response → Prop
  | .delivered _ messages => Writable messages
  | _ => True

def Response.layout : Response → Bytes
  | .ok => [1]
  | .delivered start messages => deliveredLayout start messages
  | .acked accepted => [3, accepted.toUInt8]
  | .unauthorized => [4]
  | .deliveredCount count => 5 :: u64Bytes count
  | .unknownRecipient => [6]
  | .queueFull => [7]
  | .tooLarge => [8]

theorem encodeResponse_eq_ok_iff (response : Response) (b : Bytes) :
    encodeResponse response = .ok b ↔ response.Fits ∧ b = response.layout := by
  cases response with
  | delivered start messages =>
    rw [encodeResponse, putMessages_eq_ok_iff, List.append_assoc]
    exact Iff.rfl
  | _ =>
    rw [encodeResponse, pure_eq_ok, eq_comm]
    exact (and_iff_right trivial).symm

theorem run_takeAccepted_eq_ok {s rest : Bytes} {accepted : Bool} :
    takeAccepted.run s = .ok (accepted, rest) ↔ s = accepted.toUInt8 :: rest := by
  simp only [takeAccepted, run_bind_eq_ok, run_takeByte_eq_ok]
  constructor
  · rintro ⟨byte, _, rfl, h⟩
    split at h
    · obtain ⟨rfl, rfl⟩ := run_pure_eq_ok.mp h
      rfl
    · obtain ⟨rfl, rfl⟩ := run_pure_eq_ok.mp h
      rfl
    · cases h
  · rintro rfl
    refine ⟨_, rest, rfl, ?_⟩
    cases accepted <;> rfl

theorem decodeResponse_eq_some_iff (b : Bytes) (response : Response) :
    decodeResponse b = some response ↔ response.Fits ∧ b = response.layout := by
  have hread : decodeResponse b = some response ↔
      ∃ tag body, b = tag :: body ∧ (takeResponse tag).run body = .ok (response, []) := by
    rw [decodeResponse, toOption_eq_some]
    exact run'_tagged_eq_ok
  rw [hread]
  constructor
  · rintro ⟨tag, body, rfl, h⟩
    unfold takeResponse at h
    split at h
    case h_2 =>
      simp only [run_bind_eq_ok, run_takeU64_eq_ok, run_takeMessages_eq_ok,
        run_pure_eq_ok] at h
      obtain ⟨start, _, rfl, messages, _, ⟨hw, rfl⟩, rfl, rfl⟩ := h
      exact ⟨hw, by rw [List.append_nil]; rfl⟩
    case h_3 =>
      simp only [run_bind_eq_ok, run_takeAccepted_eq_ok, run_pure_eq_ok] at h
      obtain ⟨accepted, _, rfl, rfl, rfl⟩ := h
      exact ⟨trivial, rfl⟩
    case h_5 =>
      simp only [run_bind_eq_ok, run_takeU64_eq_ok, run_pure_eq_ok] at h
      obtain ⟨count, _, rfl, rfl, rfl⟩ := h
      exact ⟨trivial, by rw [List.append_nil]; rfl⟩
    case h_9 => cases h
    all_goals
      obtain ⟨rfl, rfl⟩ := run_pure_eq_ok.mp h
      exact ⟨trivial, rfl⟩
  · rintro ⟨hfits, rfl⟩
    cases response with
    | delivered start messages => exact hread.mp (decodeResponse_delivered hfits)
    | acked accepted =>
      refine ⟨3, _, rfl, run_bind_eq_ok.mpr ⟨accepted, [], ?_, rfl⟩⟩
      exact run_takeAccepted_eq_ok.mpr rfl
    | deliveredCount count =>
      refine ⟨5, _, rfl, run_bind_eq_ok.mpr ⟨count, [], ?_, rfl⟩⟩
      exact run_takeU64_eq_ok.mpr (List.append_nil _).symm
    | _ => exact ⟨_, [], rfl, rfl⟩

theorem canonical_response : Canonical encodeResponse decodeResponse Response.Fits :=
  .of_layout encodeResponse_eq_ok_iff decodeResponse_eq_some_iff

/-! ### Authentication -/

/-- The string and the byte field of an authentication fit four bytes. -/
def AuthFits (auth : DeviceAddr × Bytes) : Prop := auth.1.Fits ∧ auth.2.length < 2 ^ 32

theorem canonical_auth :
    Canonical (fun auth => encodeAuth auth.1 auth.2) decodeAuth AuthFits := by
  have hencode : ∀ (auth : DeviceAddr × Bytes) b, encodeAuth auth.1 auth.2 = .ok b ↔
      AuthFits auth ∧ b = auth.1.layout ++ lpBytes auth.2 := by
    intro auth b
    simp only [encodeAuth, bind_eq_ok, putAddr_eq_ok_iff, putBytes_eq_ok_iff, List.nil_append,
      AuthFits]
    constructor
    · rintro ⟨_, ⟨hdevice, rfl⟩, hsignature, rfl⟩
      exact ⟨⟨hdevice, hsignature⟩, rfl⟩
    · rintro ⟨⟨hdevice, hsignature⟩, rfl⟩
      exact ⟨_, ⟨hdevice, rfl⟩, hsignature, rfl⟩
  refine .of_layout hencode fun b auth => ?_
  simp only [decodeAuth, toOption_eq_some, run'_eq_ok, readAuth, run_bind_eq_ok,
    run_takeAddr_eq_ok, run_takeLp_eq_ok, run_finish_eq_ok, run_pure_eq_ok]
  constructor
  · rintro ⟨_, device, _, ⟨hdevice, rfl⟩, signature, _, ⟨hsignature, rfl⟩, _, _, ⟨rfl, rfl⟩, rfl, -⟩
    exact ⟨⟨hdevice, hsignature⟩, by rw [List.append_nil]⟩
  · rintro ⟨⟨hdevice, hsignature⟩, rfl⟩
    exact ⟨[], auth.1, _, ⟨hdevice, rfl⟩, auth.2, [], ⟨hsignature, (List.append_nil _).symm⟩, (),
      [], ⟨rfl, rfl⟩, rfl, rfl⟩

end Tacenta.Relay
