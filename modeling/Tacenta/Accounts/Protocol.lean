import Tacenta.Accounts.PersistCodec
import Tacenta.Library.Canonical

/-!
# The protocol of the account service

The requests to the account service and its answers, with their byte formats. Texts are written
after their length, as in a snapshot; the encoders panic where a length does not fit its four bytes,
which is modelled as an error.

## Main definitions

* `AccountRequest`, `AccountResponse`, `SignupReason`: the messages.
* `encodeAccountRequest`, `decodeAccountRequest`, `encodeAccountResponse`, `decodeAccountResponse`.

## Main results

* `canonical_accountRequest`, `canonical_accountResponse`: the formats are canonical.
-/

open ByteString Reader Result

namespace Tacenta.Accounts

/-- A request to the account service. -/
inductive AccountRequest where
  | signUpTenant (username email password : String)
  | signUpUser (apiKey username password : String)
  | signIn (apiKey identifier password : String)
  deriving DecidableEq

/-- Why a signup was refused. -/
inductive SignupReason where
  | usernameTaken
  | emailTaken
  | invalidUsername
  | invalidEmail
  | weakPassword
  deriving DecidableEq

/-- An answer of the account service. -/
inductive AccountResponse where
  | tenantCreated (tenantId apiKey : String)
  | userCreated (username : String)
  | signedIn (username token : String)
  | signupRefused (reason : SignupReason)
  | signInRefused
  | unknownTenant
  | serverError
  | rateLimited
  deriving DecidableEq

/-! ### Writing -/

def encodeAccountRequest : AccountRequest → Except SnapshotPanic Bytes
  | .signUpTenant username email password => do
    let out ← putStr [1] username
    let out ← putStr out email
    putStr out password
  | .signUpUser apiKey username password => do
    let out ← putStr [2] apiKey
    let out ← putStr out username
    putStr out password
  | .signIn apiKey identifier password => do
    let out ← putStr [3] apiKey
    let out ← putStr out identifier
    putStr out password

/-- The byte of a reason. -/
def reasonTag : SignupReason → UInt8
  | .usernameTaken => 1
  | .emailTaken => 2
  | .invalidUsername => 3
  | .invalidEmail => 4
  | .weakPassword => 5

/-- The bytes of an answer. -/
def encodeAccountResponse : AccountResponse → Except SnapshotPanic Bytes
  | .tenantCreated tenantId apiKey => do
    let out ← putStr [1] tenantId
    putStr out apiKey
  | .userCreated username => putStr [2] username
  | .signedIn username token => do
    let out ← putStr [3] username
    putStr out token
  | .signupRefused reason => pure [4, reasonTag reason]
  | .signInRefused => pure [5]
  | .unknownTenant => pure [6]
  | .serverError => pure [7]
  | .rateLimited => pure [8]

/-! ### Reading -/

/-- Take the request that a tag names. -/
def takeAccountRequest (tag : UInt8) : Reader Unit AccountRequest :=
  match tag with
  | 1 => do
    let username ← takeStr
    let email ← takeStr
    let password ← takeStr
    pure (.signUpTenant username email password)
  | 2 => do
    let apiKey ← takeStr
    let username ← takeStr
    let password ← takeStr
    pure (.signUpUser apiKey username password)
  | 3 => do
    let apiKey ← takeStr
    let identifier ← takeStr
    let password ← takeStr
    pure (.signIn apiKey identifier password)
  | _ => throw ()

def decodeAccountRequest (bytes : Bytes) : Option AccountRequest :=
  ((Reader.tagged () takeAccountRequest).run' bytes).toOption

/-- The reason of a byte. -/
def tagReason : UInt8 → Option SignupReason
  | 1 => some .usernameTaken
  | 2 => some .emailTaken
  | 3 => some .invalidUsername
  | 4 => some .invalidEmail
  | 5 => some .weakPassword
  | _ => none

/-- Take the answer that a tag names. -/
def takeAccountResponse (tag : UInt8) : Reader Unit AccountResponse :=
  match tag with
  | 1 => do
    let tenantId ← takeStr
    let apiKey ← takeStr
    pure (.tenantCreated tenantId apiKey)
  | 2 => do
    let username ← takeStr
    pure (.userCreated username)
  | 3 => do
    let username ← takeStr
    let token ← takeStr
    pure (.signedIn username token)
  | 4 => do
    let code ← Reader.takeByte ()
    let reason ← orRefuse (tagReason code) ()
    pure (.signupRefused reason)
  | 5 => pure .signInRefused
  | 6 => pure .unknownTenant
  | 7 => pure .serverError
  | 8 => pure .rateLimited
  | _ => throw ()

/-- Decode an answer. -/
def decodeAccountResponse (bytes : Bytes) : Option AccountResponse :=
  ((Reader.tagged () takeAccountResponse).run' bytes).toOption

/-! ### Requests -/

/-- The texts of a request fit four bytes. -/
def AccountRequest.Fits : AccountRequest → Prop
  | .signUpTenant username email password => StrFits username ∧ StrFits email ∧ StrFits password
  | .signUpUser apiKey username password => StrFits apiKey ∧ StrFits username ∧ StrFits password
  | .signIn apiKey identifier password => StrFits apiKey ∧ StrFits identifier ∧ StrFits password

def AccountRequest.layout : AccountRequest → Bytes
  | .signUpTenant username email password =>
    1 :: (strBytes username ++ (strBytes email ++ strBytes password))
  | .signUpUser apiKey username password =>
    2 :: (strBytes apiKey ++ (strBytes username ++ strBytes password))
  | .signIn apiKey identifier password =>
    3 :: (strBytes apiKey ++ (strBytes identifier ++ strBytes password))

theorem putStrs_eq_ok_iff {tag : UInt8} {s t u : String} {b : Bytes} :
    (do
      let out ← putStr [tag] s
      let out ← putStr out t
      putStr out u) = .ok b ↔
      (StrFits s ∧ StrFits t ∧ StrFits u) ∧
        b = tag :: (strBytes s ++ (strBytes t ++ strBytes u)) := by
  simp only [bind_eq_ok, putStr_eq_ok_iff]
  constructor
  · rintro ⟨_, ⟨hs, rfl⟩, _, ⟨ht, rfl⟩, hu, rfl⟩
    exact ⟨⟨hs, ht, hu⟩, by simp⟩
  · rintro ⟨⟨hs, ht, hu⟩, rfl⟩
    exact ⟨_, ⟨hs, rfl⟩, _, ⟨ht, rfl⟩, hu, by simp⟩

theorem encodeAccountRequest_eq_ok_iff (request : AccountRequest) (b : Bytes) :
    encodeAccountRequest request = .ok b ↔ request.Fits ∧ b = request.layout := by
  cases request <;> exact putStrs_eq_ok_iff

theorem run_takeStrs_eq_ok {α : Type} {make : String → String → String → α} {s : Bytes} {x : α} :
    (do
      let a ← takeStr
      let b ← takeStr
      let c ← takeStr
      pure (make a b c) : Reader Unit α).run s = .ok (x, []) ↔
      ∃ a b c, (StrFits a ∧ StrFits b ∧ StrFits c) ∧ x = make a b c ∧
        s = strBytes a ++ (strBytes b ++ strBytes c) := by
  simp only [run_bind_eq_ok, run_takeStr_eq_ok, run_pure_eq_ok]
  constructor
  · rintro ⟨a, _, ⟨ha, rfl⟩, b, _, ⟨hb, rfl⟩, c, _, ⟨hc, rfl⟩, rfl, rfl⟩
    exact ⟨a, b, c, ⟨ha, hb, hc⟩, rfl, by rw [List.append_nil]⟩
  · rintro ⟨a, b, c, ⟨ha, hb, hc⟩, rfl, rfl⟩
    exact ⟨a, _, ⟨ha, rfl⟩, b, _, ⟨hb, rfl⟩, c, [], ⟨hc, (List.append_nil _).symm⟩, rfl, rfl⟩

theorem decodeAccountRequest_eq_some_iff (b : Bytes) (request : AccountRequest) :
    decodeAccountRequest b = some request ↔ request.Fits ∧ b = request.layout := by
  rw [decodeAccountRequest, toOption_eq_some, run'_tagged_eq_ok]
  constructor
  · rintro ⟨tag, body, rfl, h⟩
    unfold takeAccountRequest at h
    split at h
    case h_4 => cases h
    all_goals
      obtain ⟨_, _, _, hfits, rfl, rfl⟩ := run_takeStrs_eq_ok.mp h
      exact ⟨hfits, rfl⟩
  · rintro ⟨hfits, rfl⟩
    cases request <;> exact ⟨_, _, rfl, run_takeStrs_eq_ok.mpr ⟨_, _, _, hfits, rfl, rfl⟩⟩

theorem canonical_accountRequest :
    Canonical encodeAccountRequest decodeAccountRequest AccountRequest.Fits :=
  .of_layout encodeAccountRequest_eq_ok_iff decodeAccountRequest_eq_some_iff

/-! ### Answers -/

/-- The texts of an answer fit four bytes. -/
def AccountResponse.Fits : AccountResponse → Prop
  | .tenantCreated tenantId apiKey => StrFits tenantId ∧ StrFits apiKey
  | .userCreated username => StrFits username
  | .signedIn username token => StrFits username ∧ StrFits token
  | _ => True

/-- The bytes of an answer. -/
def AccountResponse.layout : AccountResponse → Bytes
  | .tenantCreated tenantId apiKey => 1 :: (strBytes tenantId ++ strBytes apiKey)
  | .userCreated username => 2 :: strBytes username
  | .signedIn username token => 3 :: (strBytes username ++ strBytes token)
  | .signupRefused reason => [4, reasonTag reason]
  | .signInRefused => [5]
  | .unknownTenant => [6]
  | .serverError => [7]
  | .rateLimited => [8]

theorem tagReason_eq_some {tag : UInt8} {reason : SignupReason} :
    tagReason tag = some reason ↔ tag = reasonTag reason := by
  constructor
  · intro h
    unfold tagReason at h
    split at h
    case h_6 => cases h
    all_goals
      obtain rfl := Option.some_inj.mp h
      rfl
  · rintro rfl
    cases reason <;> rfl

theorem putPair_eq_ok_iff {tag : UInt8} {s t : String} {b : Bytes} :
    (do
      let out ← putStr [tag] s
      putStr out t) = .ok b ↔
      (StrFits s ∧ StrFits t) ∧ b = tag :: (strBytes s ++ strBytes t) := by
  simp only [bind_eq_ok, putStr_eq_ok_iff]
  constructor
  · rintro ⟨_, ⟨hs, rfl⟩, ht, rfl⟩
    exact ⟨⟨hs, ht⟩, rfl⟩
  · rintro ⟨⟨hs, ht⟩, rfl⟩
    exact ⟨_, ⟨hs, rfl⟩, ht, rfl⟩

theorem encodeAccountResponse_eq_ok_iff (response : AccountResponse) (b : Bytes) :
    encodeAccountResponse response = .ok b ↔ response.Fits ∧ b = response.layout := by
  cases response with
  | tenantCreated tenantId apiKey => exact putPair_eq_ok_iff
  | userCreated username => exact putStr_eq_ok_iff
  | signedIn username token => exact putPair_eq_ok_iff
  | _ =>
    rw [encodeAccountResponse, pure_eq_ok, eq_comm]
    exact (and_iff_right trivial).symm

theorem run_takePair_eq_ok {α : Type} {make : String → String → α} {s : Bytes} {x : α} :
    (do
      let a ← takeStr
      let b ← takeStr
      pure (make a b) : Reader Unit α).run s = .ok (x, []) ↔
      ∃ a b, (StrFits a ∧ StrFits b) ∧ x = make a b ∧ s = strBytes a ++ strBytes b := by
  simp only [run_bind_eq_ok, run_takeStr_eq_ok, run_pure_eq_ok]
  constructor
  · rintro ⟨a, _, ⟨ha, rfl⟩, b, _, ⟨hb, rfl⟩, rfl, rfl⟩
    exact ⟨a, b, ⟨ha, hb⟩, rfl, by rw [List.append_nil]⟩
  · rintro ⟨a, b, ⟨ha, hb⟩, rfl, rfl⟩
    exact ⟨a, _, ⟨ha, rfl⟩, b, [], ⟨hb, (List.append_nil _).symm⟩, rfl, rfl⟩

theorem decodeAccountResponse_eq_some_iff (b : Bytes) (response : AccountResponse) :
    decodeAccountResponse b = some response ↔ response.Fits ∧ b = response.layout := by
  rw [decodeAccountResponse, toOption_eq_some, run'_tagged_eq_ok]
  constructor
  · rintro ⟨tag, body, rfl, h⟩
    unfold takeAccountResponse at h
    split at h
    case h_1 | h_3 =>
      obtain ⟨_, _, hfits, rfl, rfl⟩ := run_takePair_eq_ok.mp h
      exact ⟨hfits, rfl⟩
    case h_2 =>
      simp only [run_bind_eq_ok, run_takeStr_eq_ok, run_pure_eq_ok] at h
      obtain ⟨username, _, ⟨hfits, rfl⟩, rfl, rfl⟩ := h
      exact ⟨hfits, by rw [List.append_nil]; rfl⟩
    case h_4 =>
      simp only [run_bind_eq_ok, run_takeByte_eq_ok, run_lift_eq_ok,
        orRefuse_eq_ok, tagReason_eq_some, run_pure_eq_ok] at h
      obtain ⟨_, _, rfl, reason, _, ⟨rfl, rfl⟩, rfl, rfl⟩ := h
      exact ⟨trivial, rfl⟩
    case h_9 => cases h
    all_goals
      obtain ⟨rfl, rfl⟩ := run_pure_eq_ok.mp h
      exact ⟨trivial, rfl⟩
  · rintro ⟨hfits, rfl⟩
    cases response with
    | tenantCreated tenantId apiKey =>
      exact ⟨1, _, rfl, run_takePair_eq_ok.mpr ⟨_, _, hfits, rfl, rfl⟩⟩
    | userCreated username =>
      refine ⟨2, _, rfl, run_bind_eq_ok.mpr ⟨username, [], ?_, rfl⟩⟩
      exact run_takeStr_eq_ok.mpr ⟨hfits, (List.append_nil _).symm⟩
    | signedIn username token =>
      exact ⟨3, _, rfl, run_takePair_eq_ok.mpr ⟨_, _, hfits, rfl, rfl⟩⟩
    | signupRefused reason =>
      refine ⟨4, _, rfl, ?_⟩
      simp only [takeAccountResponse, run_bind_eq_ok, run_takeByte_eq_ok,
        run_lift_eq_ok, orRefuse_eq_ok, tagReason_eq_some, run_pure_eq_ok]
      exact ⟨_, [], rfl, reason, [], ⟨rfl, rfl⟩, rfl, rfl⟩
    | _ => exact ⟨_, [], rfl, rfl⟩

theorem canonical_accountResponse :
    Canonical encodeAccountResponse decodeAccountResponse AccountResponse.Fits :=
  .of_layout encodeAccountResponse_eq_ok_iff decodeAccountResponse_eq_some_iff

end Tacenta.Accounts
