import Tacenta.Accounts.Protocol
import Tacenta.Directory.ProtocolCanonical
import Tacenta.Relay.ProtocolCanonical
import Tacenta.Server.Provisioning
import Tacenta.Transport.FrameRuns

/-!
# The protocols between clients and servers

The byte formats of provisioning, and the four protocols together: the relay with its authentication
frame, the directory, the account service and provisioning. All their formats are canonical.

## Main definitions

* `encodeProvisionRequest`, `decodeProvisionRequest`, `encodeProvisionOutcome`,
  `decodeProvisionOutcome`.

## Main results

* `protocols_canonical`: every message that fits is read back, and only what is written is read.
* `oversized_not_encoded`: a relay request with a payload that fits four bytes, in an envelope that
  does not, is not written.
* `requests_received`: requests that are written as frames are decoded on the other side.
-/

open ByteString Reader Result

namespace Tacenta.Transport

open Server (ProvisionRequest ProvisionOutcome)
open Accounts (StrFits strBytes takeStr run_takeStr_eq_ok)
open Directory (BlockFits)

/-- The expectation of the encoders: a field fits its length. -/
inductive ProvisionPanic where
  | fieldFitsU32
  deriving DecidableEq

/-- Append a field after its length in four bytes. -/
def putField (out field : Bytes) : Except ProvisionPanic Bytes := do
  refuseIf (2 ^ 32 ≤ field.length) .fieldFitsU32
  pure (out ++ u32Bytes field.length.toUInt32 ++ field)

theorem putField_eq_ok_iff {out field b : Bytes} :
    putField out field = .ok b ↔ BlockFits field ∧ b = out ++ lpBytes field := by
  rw [putField, refuseIf_bind_eq_ok, pure_eq_ok, not_le, lpBytes, List.append_assoc,
    eq_comm (a := b)]
  exact Iff.rfl

/-! ### Requests -/

def encodeProvisionRequest (request : ProvisionRequest) : Except ProvisionPanic Bytes := do
  let out ← putField [] (utf8Bytes request.sessionToken)
  let out ← putField (out ++ u32Bytes request.device) request.identity
  let out ← putField out request.bundle
  putField out request.possessionSig

/-- The reader of `decodeProvisionRequest`. -/
def readProvisionRequest : Reader Unit ProvisionRequest := do
  let sessionToken ← takeStr
  let device ← Reader.takeU32 ()
  let identity ← Reader.takeLp ()
  let bundle ← Reader.takeLp ()
  let possessionSig ← Reader.takeLp ()
  Reader.finish ()
  pure ⟨sessionToken, device, identity, bundle, possessionSig⟩

def decodeProvisionRequest (bytes : Bytes) : Option ProvisionRequest :=
  (readProvisionRequest.run' bytes).toOption

/-- The text and the byte fields of a request fit four bytes. -/
structure RequestFits (request : ProvisionRequest) : Prop where
  sessionToken : StrFits request.sessionToken
  identity : BlockFits request.identity
  bundle : BlockFits request.bundle
  possessionSig : BlockFits request.possessionSig

def requestLayout (request : ProvisionRequest) : Bytes :=
  strBytes request.sessionToken ++ (u32Bytes request.device ++ (lpBytes request.identity ++
    (lpBytes request.bundle ++ lpBytes request.possessionSig)))

theorem encodeProvisionRequest_eq_ok_iff (request : ProvisionRequest) (b : Bytes) :
    encodeProvisionRequest request = .ok b ↔ RequestFits request ∧ b = requestLayout request := by
  simp only [encodeProvisionRequest, bind_eq_ok, putField_eq_ok_iff, requestLayout, strBytes]
  constructor
  · rintro ⟨_, ⟨htoken, rfl⟩, _, ⟨hidentity, rfl⟩, _, ⟨hbundle, rfl⟩, hsig, rfl⟩
    exact ⟨⟨htoken, hidentity, hbundle, hsig⟩, by simp⟩
  · rintro ⟨⟨htoken, hidentity, hbundle, hsig⟩, rfl⟩
    exact ⟨_, ⟨htoken, rfl⟩, _, ⟨hidentity, rfl⟩, _, ⟨hbundle, rfl⟩, hsig, by simp⟩

theorem decodeProvisionRequest_eq_some_iff (b : Bytes) (request : ProvisionRequest) :
    decodeProvisionRequest b = some request ↔ RequestFits request ∧ b = requestLayout request := by
  simp only [decodeProvisionRequest, toOption_eq_some, run'_eq_ok, readProvisionRequest,
    run_bind_eq_ok, run_takeStr_eq_ok, run_takeU32_eq_ok, run_takeLp_eq_ok,
    run_finish_eq_ok, run_pure_eq_ok]
  constructor
  · rintro ⟨_, sessionToken, _, ⟨htoken, rfl⟩, device, _, rfl, identity, _, ⟨hidentity, rfl⟩,
      bundle, _, ⟨hbundle, rfl⟩, possessionSig, _, ⟨hsig, rfl⟩, _, _, ⟨rfl, rfl⟩, rfl, -⟩
    exact ⟨⟨htoken, hidentity, hbundle, hsig⟩, by rw [List.append_nil]; rfl⟩
  · rintro ⟨⟨htoken, hidentity, hbundle, hsig⟩, rfl⟩
    exact ⟨[], request.sessionToken, _, ⟨htoken, rfl⟩, request.device, _, rfl, request.identity, _,
      ⟨hidentity, rfl⟩, request.bundle, _, ⟨hbundle, rfl⟩, request.possessionSig, [],
      ⟨hsig, (List.append_nil _).symm⟩, (), [], ⟨rfl, rfl⟩, rfl, rfl⟩

/-! ### Outcomes -/

def encodeProvisionOutcome : ProvisionOutcome → Except ProvisionPanic Bytes
  | .provisioned handle => putField [1] (utf8Bytes handle)
  | .badSession => pure [2]
  | .possessionFailed => pure [3]
  | .rejected => pure [4]
  | .serverError => pure [5]

/-- Take the outcome that a tag names. -/
def takeProvisionOutcome (tag : UInt8) : Reader Unit ProvisionOutcome :=
  match tag with
  | 1 => do
    let handle ← takeStr
    pure (.provisioned handle)
  | 2 => pure .badSession
  | 3 => pure .possessionFailed
  | 4 => pure .rejected
  | 5 => pure .serverError
  | _ => throw ()

def decodeProvisionOutcome (bytes : Bytes) : Option ProvisionOutcome :=
  ((Reader.tagged () takeProvisionOutcome).run' bytes).toOption

/-- The text of an outcome fits four bytes. -/
def OutcomeFits : ProvisionOutcome → Prop
  | .provisioned handle => StrFits handle
  | _ => True

def outcomeLayout : ProvisionOutcome → Bytes
  | .provisioned handle => 1 :: strBytes handle
  | .badSession => [2]
  | .possessionFailed => [3]
  | .rejected => [4]
  | .serverError => [5]

theorem encodeProvisionOutcome_eq_ok_iff (outcome : ProvisionOutcome) (b : Bytes) :
    encodeProvisionOutcome outcome = .ok b ↔ OutcomeFits outcome ∧ b = outcomeLayout outcome := by
  cases outcome with
  | provisioned handle => exact putField_eq_ok_iff
  | _ =>
    rw [encodeProvisionOutcome, pure_eq_ok, eq_comm]
    exact (and_iff_right trivial).symm

theorem decodeProvisionOutcome_eq_some_iff (b : Bytes) (outcome : ProvisionOutcome) :
    decodeProvisionOutcome b = some outcome ↔ OutcomeFits outcome ∧ b = outcomeLayout outcome := by
  rw [decodeProvisionOutcome, toOption_eq_some, run'_tagged_eq_ok]
  constructor
  · rintro ⟨tag, body, rfl, h⟩
    unfold takeProvisionOutcome at h
    split at h
    case h_1 =>
      simp only [run_bind_eq_ok, run_takeStr_eq_ok, run_pure_eq_ok] at h
      obtain ⟨handle, _, ⟨hfits, rfl⟩, rfl, rfl⟩ := h
      exact ⟨hfits, by rw [List.append_nil]; rfl⟩
    case h_6 => cases h
    all_goals
      obtain ⟨rfl, rfl⟩ := run_pure_eq_ok.mp h
      exact ⟨trivial, rfl⟩
  · rintro ⟨hfits, rfl⟩
    cases outcome with
    | provisioned handle =>
      refine ⟨1, _, rfl, run_bind_eq_ok.mpr ⟨handle, [], ?_, rfl⟩⟩
      exact run_takeStr_eq_ok.mpr ⟨hfits, (List.append_nil _).symm⟩
    | _ => exact ⟨_, [], rfl, rfl⟩

/-! ### The four protocols -/

/-- Every message of the relay, the directory, the account service and provisioning that fits is
read back from its encoding, and every byte string that is accepted is the encoding of what was
read. -/
theorem protocols_canonical :
    (Canonical Relay.encodeRequest Relay.decodeRequest Relay.Request.Fits ∧
      Canonical Relay.encodeResponse Relay.decodeResponse Relay.Response.Fits ∧
      Canonical (fun auth => Relay.encodeAuth auth.1 auth.2) Relay.decodeAuth Relay.AuthFits) ∧
    (Canonical Directory.encodeDirRequest Directory.decodeDirRequest Directory.Request.Fits ∧
      Canonical Directory.encodeDirResponse Directory.decodeDirResponse Directory.Response.Fits) ∧
    (Canonical Accounts.encodeAccountRequest Accounts.decodeAccountRequest
        Accounts.AccountRequest.Fits ∧
      Canonical Accounts.encodeAccountResponse Accounts.decodeAccountResponse
        Accounts.AccountResponse.Fits) ∧
    (Canonical encodeProvisionRequest decodeProvisionRequest RequestFits ∧
      Canonical encodeProvisionOutcome decodeProvisionOutcome OutcomeFits) :=
  ⟨⟨Relay.canonical_request, Relay.canonical_response, Relay.canonical_auth⟩,
    ⟨Directory.canonical_dirRequest, Directory.canonical_dirResponse⟩,
    ⟨Accounts.canonical_accountRequest, Accounts.canonical_accountResponse⟩,
    .of_layout encodeProvisionRequest_eq_ok_iff decodeProvisionRequest_eq_some_iff,
    .of_layout encodeProvisionOutcome_eq_ok_iff decodeProvisionOutcome_eq_some_iff⟩

/-- A send with the longest payload that an envelope carries. -/
def oversized : Relay.Request :=
  .send ⟨"", 0⟩ ⟨.dm, List.replicate (2 ^ 32 - 1) 0⟩

/-- The string and the byte field of a send fit four bytes, and its envelope does not: the encoder
panics. -/
theorem oversized_not_encoded :
    oversized.FieldsFit ∧
      ¬∃ b, Relay.encodeRequest oversized = .ok b ∧ Relay.decodeRequest b = some oversized := by
  have hlen : (List.replicate (2 ^ 32 - 1) (0 : UInt8)).length = 2 ^ 32 - 1 :=
    List.length_replicate
  rw [oversized]
  refine ⟨⟨?_, ?_⟩, ?_⟩
  · rw [Relay.DeviceAddr.Fits]
    decide
  · rw [hlen]
    omega
  · rintro ⟨b, hb, -⟩
    refine Relay.not_encoded_of_length ?_ hb
    rw [Wire.Envelope.length_layout, hlen]
    omega

/-! ### Requests over frames -/

/-- A request of the relay with its encoding, which fits a frame. -/
structure SentRequest where
  request : Relay.Request
  body : Bytes
  encoded : Relay.encodeRequest request = .ok body
  fits : body.length ≤ maxFrameLen

/-- The bytes that are written for a request. -/
def SentRequest.frame (s : SentRequest) : Bytes := (writeFrame s.body).getD []

theorem parse_sent (sent : List SentRequest) :
    parse (sent.flatMap SentRequest.frame) = ⟨sent.map SentRequest.body, .clean, []⟩ := by
  induction sent with
  | nil => exact parse_of_length_lt (by decide)
  | cons s sent ih =>
    have hlt : ¬2 ^ 32 ≤ s.body.length := by
      have := s.fits
      rw [maxFrameLen] at this
      omega
    have hframe : writeFrame s.body = some s.frame := by
      rw [SentRequest.frame, writeFrame, if_neg hlt]
      rfl
    rw [List.flatMap_cons, parse_writeFrame hframe s.fits, ih]
    rfl

/-- Requests that were encoded and written as frames are decoded on the other side one after the
other and nothing else is, however the bytes are divided into reads and whichever calls of the
reader are dropped. -/
theorem requests_received (sent : List SentRequest) (events : List Reading.Event) :
    let results := Reading.results (sent.flatMap SentRequest.frame) events
    results.map (Except.map fun frame => frame.bind Relay.decodeRequest) =
      ((sent.map fun s : SentRequest => Except.ok (some s.request)) ++
        List.replicate results.length (Except.ok none)).take results.length := by
  intro results
  have hresults := (Reading.followed_run (sent.flatMap SentRequest.frame) events).answers_eq 0
  rw [Parsed.answers_zero, List.append_nil, Nat.add_zero, parse_sent, Parsed.answers] at hresults
  have hdecoded (s : SentRequest) : Relay.decodeRequest s.body = some s.request :=
    (Relay.decodeRequest_eq_some_iff _ _).mpr ((Relay.encodeRequest_eq_ok_iff _ _).mp s.encoded)
  change List.take results.length (_ ++ List.replicate results.length _) = results at hresults
  conv_lhs => rw [← hresults]
  simp [List.map_take, Except.map, Ending.result, Function.comp_def, hdecoded]

/-- A poll and a send. -/
def sampleRequests : List SentRequest :=
  [⟨.poll ⟨"b", 1⟩, [2, 0, 0, 0, 1, 98, 0, 0, 0, 1], by decide +kernel, by decide⟩,
    ⟨.send ⟨"b", 1⟩ ⟨.dm, [7]⟩, [1, 0, 0, 0, 1, 98, 0, 0, 0, 1, 0, 0, 0, 8, 0, 1, 1, 0, 0, 0, 1, 7],
      by decide +kernel, by decide⟩]

/-- A call that is dropped in the length of the poll, and three that complete. -/
def sampleEvents : List Reading.Event :=
  [.call, .read 1, .drop, .call, .read 0, .read 9, .read 3, .read 20, .call, .read 9, .read 9,
    .read 20, .call, .read 0]

theorem requests_received_sample :
    (Reading.results (sampleRequests.flatMap SentRequest.frame) sampleEvents).map
        (Except.map fun frame => frame.bind Relay.decodeRequest) =
      [.ok (some (.poll ⟨"b", 1⟩)), .ok (some (.send ⟨"b", 1⟩ ⟨.dm, [7]⟩)), .ok none] := by
  have hlength : (Reading.results (sampleRequests.flatMap SentRequest.frame)
      sampleEvents).length = 3 := by decide +kernel
  rw [requests_received sampleRequests sampleEvents, hlength]
  rfl

end Tacenta.Transport
