import Tacenta.Accounts.StoreInvariant
import Tacenta.Directory.Server
import Tacenta.Library.Concurrent

/-!
# Account provisioning

A deployment has one account store and one directory. Its calls are those of the account store, the
requests of the directory service, and the provisioning of a device: resolve the session token to
the handle of its account, check the possession of the key, and register it under that handle. The
steps of a provisioning are atomic one by one, and other calls may run between them.

## Main definitions

* `provision`: the provisioning of a device.
* `deployment`: any number of calls, from an empty store and an empty directory on.
* `ChangeAuthorised`, `OwnSession`: why a binding changed, and why a handle of an account was bound.

## Main results

* `recoveryKey_origin`, `session_origin`: where recovery keys and sessions come from.
* `bindings_authorised`: bindings change by authorised requests only, and the handle of an account
  is bound by a session of that account only.
-/

open ByteString Result Tacenta.Accounts

namespace Tacenta.Server

open Relay (DeviceAddr)
open Directory (Possession RegistrationPolicy RegistrationLimiter)

variable {κ : Type} (V : Possession) (X : Platform) (C : CoreRules κ)

/-- A request to provision a device. -/
structure ProvisionRequest where
  sessionToken : String
  device : UInt32
  identity : Bytes
  bundle : Bytes
  possessionSig : Bytes

/-- The outcome of provisioning. -/
inductive ProvisionOutcome where
  | provisioned (handle : String)
  | badSession
  | possessionFailed
  | rejected
  | serverError

/-- The account store and the directory with its service. -/
structure Deployment where
  accounts : Store
  server : Directory.Server

/-- An atomic operation. -/
inductive Operation where
  | account (call : AccountCall)
  | directory (policy : RegistrationPolicy) (now : UInt64) (challenge : Bytes) (source : String)
    (request : Directory.Request)
  | register (device : DeviceAddr) (identity bundle : Bytes)

/-- What an operation answers. -/
abbrev Operation.Answer (κ : Type) : Operation → Type
  | account call => call.Answer κ
  | directory .. => Directory.Response
  | register .. => Directory.Registration

/-- Run an operation. -/
def Deployment.operate (d : Deployment) : (i : Operation) → Deployment × i.Answer κ
  | .account call =>
    let (accounts, answer) := d.accounts.perform X C call
    ({ d with accounts }, answer)
  | .directory policy now challenge source request =>
    let (server, response) := d.server.handle V policy now challenge source request
    ({ d with server }, response)
  | .register device identity bundle =>
    let (directory, outcome) := d.server.directory.register device identity bundle
    ({ d with server := { d.server with directory } }, outcome)

/-- Provision a device. -/
def provision (now : UInt64) (challenge : Bytes) (request : ProvisionRequest) :
    Program Operation (Operation.Answer κ) ProvisionOutcome := do
  let user ← Program.perform (Operation.account (.validateSessionAt now request.sessionToken))
  match user with
  | none => pure .badSession
  | some (tenant, username) =>
    let found ← Program.perform (Operation.account (.handle tenant username))
    match found with
    | none => pure .badSession
    | some handle =>
      if V request.identity challenge request.possessionSig = false then pure .possessionFailed
      else
        let outcome ← Program.perform
          (Operation.register ⟨handle, request.device⟩ request.identity request.bundle)
        match outcome with
        | .registered => pure (.provisioned handle)
        | .refreshed => pure (.provisioned handle)
        | .rejected => pure .rejected

/-- A call of the deployment. -/
inductive Service where
  | account (call : AccountCall)
  | directory (policy : RegistrationPolicy) (now : UInt64) (challenge : Bytes) (source : String)
    (request : Directory.Request)
  | provision (now : UInt64) (challenge : Bytes) (request : ProvisionRequest)

/-- What a call returns. -/
abbrev Service.Result (κ : Type) : Service → Type
  | account call => call.Answer κ
  | directory .. => Directory.Response
  | provision .. => ProvisionOutcome

/-- The calls of a deployment. -/
def deployment :
    Concurrent.System Deployment Operation (Operation.Answer κ) Service (Service.Result κ) where
  operate i d := d.operate V X C i
  program
    | .account call => Program.perform (Operation.account call)
    | .directory policy now challenge source request =>
      Program.perform (Operation.directory policy now challenge source request)
    | .provision now challenge request => Server.provision V now challenge request

/-- A deployment without accounts and bindings. -/
def Deployment.new (limiter : RegistrationLimiter) : Deployment := ⟨.new, .new, limiter⟩

/-! ### Which call runs an operation -/

variable {V X C} {at_ : Nat → Deployment} {n m : Nat}

/-- A provisioning reads the account store, and what it saw before it registers a key. -/
theorem provision_observed {now : UInt64} {challenge : Bytes} {request : ProvisionRequest}
    {i : Operation} {next}
    (h : (deployment V X C).Observed at_ n m (provision V now challenge request) (.call i next)) :
    (∃ call, i = .account call ∧ ∀ a : Store, (a.perform X C call).1 = a) ∨ ∃ handle,
      i = .register ⟨handle, request.device⟩ request.identity request.bundle ∧
        V request.identity challenge request.possessionSig = true ∧
          ∃ t t' tenant username, (t < t' ∧ t' < n) ∧
            (at_ t).accounts.validateSessionAt X now request.sessionToken =
              some (tenant, username) ∧
              (at_ t').accounts.handle X tenant username = some handle := by
  obtain rfl | ⟨t, -, h⟩ := Concurrent.System.observed_perform_bind_call h
  · exact .inl ⟨_, rfl, fun _ => rfl⟩
  generalize huser : (Concurrent.System.operate _ _ _).2 = user at h
  cases user with
  | none => exact (Concurrent.System.not_observed_pure_call h).elim
  | some user =>
    obtain ⟨tenant, username⟩ := user
    obtain rfl | ⟨t', ht', h⟩ := Concurrent.System.observed_perform_bind_call h
    · exact .inl ⟨_, rfl, fun _ => rfl⟩
    generalize hfound : (Concurrent.System.operate _ _ _).2 = found at h
    cases found with
    | none => exact (Concurrent.System.not_observed_pure_call h).elim
    | some handle =>
      simp only at h
      split at h
      · exact (Concurrent.System.not_observed_pure_call h).elim
      next hpossession =>
      obtain rfl | ⟨_, -, h⟩ := Concurrent.System.observed_perform_bind_call h
      · exact .inr ⟨handle, rfl, by simpa using hpossession, t, t', tenant, username, ht', huser,
          hfound⟩
      · generalize (Concurrent.System.operate _ _ _).2 = outcome at h
        cases outcome <;> exact (Concurrent.System.not_observed_pure_call h).elim

section Runs

variable (V X C) (limiter : RegistrationLimiter) (events : List (Concurrent.Event Service))

/-- The deployment at a time. -/
abbrev deploymentAt (t : Nat) : Deployment := (deployment V X C).stateAt (.new limiter) events t

/-- The directory at a time. -/
abbrev directoryAt (t : Nat) : Directory := (deploymentAt V X C limiter events t).server.directory

/-- The account store at a time. -/
abbrev accountsAt (t : Nat) : Store := (deploymentAt V X C limiter events t).accounts

/-- The call runs an operation at this time. -/
def RunsAt (t : Nat) (service : Service) : Prop :=
  ∃ since i, (deployment V X C).Ran (.new limiter) events t service since i

/-- The directory service handles the request at this time. -/
def HandledAt (t : Nat) (challenge : Bytes) (request : Directory.Request) : Prop :=
  ∃ policy now source, RunsAt V X C limiter events t
    (.directory policy now challenge source request)

/-- The operation of a provisioning that registers a key. -/
structure ProvisionedAt (t : Nat) (now : UInt64) (challenge : Bytes) (request : ProvisionRequest)
    (handle : String) : Prop where
  runs : RunsAt V X C limiter events t (.provision now challenge request)
  possession : V request.identity challenge request.possessionSig = true
  session : ∃ t₁ t₂ tenant username, (t₁ < t₂ ∧ t₂ < t) ∧
    (accountsAt V X C limiter events t₁).validateSessionAt X now request.sessionToken =
      some (tenant, username) ∧
    (accountsAt V X C limiter events t₂).handle X tenant username = some handle

variable {V X C limiter events}

variable (V X C limiter events) in
/-- What can happen at a time: the account store changes by its own calls only, and the directory by
its requests and by provisioning. -/
theorem deploymentAt_succ (t : Nat) :
    (accountsAt V X C limiter events (t + 1) = accountsAt V X C limiter events t ∨
      ∃ call, RunsAt V X C limiter events t (.account call) ∧
        accountsAt V X C limiter events (t + 1) =
          ((accountsAt V X C limiter events t).perform X C call).1) ∧
    ((directoryAt V X C limiter events t).Keeps (directoryAt V X C limiter events (t + 1)) ∨
    (∃ challenge request, HandledAt V X C limiter events t challenge request ∧
      Directory.Server.Bound V challenge (directoryAt V X C limiter events t)
        (directoryAt V X C limiter events (t + 1)) request) ∨
    ∃ now challenge request handle,
      ProvisionedAt V X C limiter events t now challenge request handle ∧
        directoryAt V X C limiter events (t + 1) = ((directoryAt V X C limiter events t).register
          ⟨handle, request.device⟩ request.identity request.bundle).1) := by
  rw [accountsAt, accountsAt, directoryAt, directoryAt]
  rcases (deployment V X C).stateAt_succ (.new limiter) events t with
    h | ⟨service, since, i, hran, h⟩
  · have hnext : deploymentAt V X C limiter events (t + 1) = deploymentAt V X C limiter events t :=
      h
    rw [hnext]
    exact ⟨.inl rfl, .inl (.refl _)⟩
  have hnext : deploymentAt V X C limiter events (t + 1) =
    ((deploymentAt V X C limiter events t).operate V X C i).1 := h
  obtain ⟨next, hobserved⟩ := hran.observed
  have hruns : RunsAt V X C limiter events t service := ⟨since, i, hran⟩
  rw [hnext]
  cases service with
  | account call =>
    obtain rfl := Concurrent.System.eq_of_observed_perform hobserved
    exact ⟨.inr ⟨call, hruns, rfl⟩, .inl (.refl _)⟩
  | directory policy now challenge source request =>
    obtain rfl := Concurrent.System.eq_of_observed_perform hobserved
    exact ⟨.inl rfl, .inr (.inl ⟨challenge, request, ⟨policy, now, source, hruns⟩,
      Directory.Server.handle_bound request⟩)⟩
  | provision now challenge request =>
    obtain ⟨call, rfl, hsame⟩ | ⟨handle, rfl, hpossession, hsession⟩ := provision_observed hobserved
    · exact ⟨.inl (hsame _), .inl (.refl _)⟩
    · exact ⟨.inl rfl,
        .inr (.inr ⟨now, challenge, request, handle, ⟨hruns, hpossession, hsession⟩, rfl⟩)⟩

/-- A recovery key was set by a request that the key bound at that time authorised. -/
theorem recoveryKey_origin {t : Nat} {device : DeviceAddr} {key : Bytes}
    (h : (directoryAt V X C limiter events t).recoveryKey device = some key) :
    ∃ t' < t, ∃ challenge signature bound,
      HandledAt V X C limiter events t' challenge (.setRecovery device key signature) ∧
        (directoryAt V X C limiter events t').identity device = some bound ∧
          V bound challenge signature = true := by
  induction t with
  | zero => cases h
  | succ t ih =>
    -- the key was set before, or now
    have hbefore (h : (directoryAt V X C limiter events t).recoveryKey device = some key) :
        ∃ t' < t + 1, ∃ challenge signature bound,
          HandledAt V X C limiter events t' challenge (.setRecovery device key signature) ∧
            (directoryAt V X C limiter events t').identity device = some bound ∧
              V bound challenge signature = true := by
      obtain ⟨t', ht', hset⟩ := ih h
      exact ⟨t', ht'.trans (Nat.lt_succ_self t), hset⟩
    rcases (deploymentAt_succ V X C limiter events t).2 with
      hkeeps | ⟨challenge, request, hhandled, hbound⟩ | ⟨_, _, _, _, -, hregister⟩
    · exact hbefore (hkeeps.recoveryKey device ▸ h)
    · cases hbound with
      | kept hkeeps => exact hbefore (hkeeps.recoveryKey device ▸ h)
      | registered _ _ _ _ hrecovery => exact hbefore (hrecovery device ▸ h)
      | rotated _ _ _ _ hrecovery => exact hbefore (hrecovery device ▸ h)
      | recovered _ _ _ _ _ hrecovery => exact hbefore (hrecovery device ▸ h)
      | recoverable hcurrent hauthorised _ hrecovery =>
        rcases hrecovery device with hsame | ⟨rfl, hset⟩
        · exact hbefore (hsame ▸ h)
        · rw [h, Option.some_inj] at hset
          subst hset
          exact ⟨t, Nat.lt_succ_self t, challenge, _, _, hhandled, hcurrent, hauthorised⟩
    · rw [hregister] at h
      rcases Directory.register_bound (directoryAt V X C limiter events t) _ _ _ with
        ⟨-, -, hrecovery⟩ | hkeeps
      · exact hbefore (hrecovery device ▸ h)
      · exact hbefore (hkeeps.recoveryKey device ▸ h)

variable (V X C limiter events) in
theorem accounts_oneHistory : OneHistory X (accountsAt V X C limiter events) where
  sound t := by
    induction t with
    | zero => exact Store.sound_new
    | succ t ih =>
      rcases (deploymentAt_succ V X C limiter events t).1 with h | ⟨call, -, h⟩
      · exact h ▸ ih
      · exact h ▸ ih.changes (Store.perform_changes _ call)
  grows {t u} h := by
    induction u, h using Nat.le_induction with
    | base => exact .refl _
    | succ u _ ih =>
      refine ih.trans ?_
      rcases (deploymentAt_succ V X C limiter events u).1 with h | ⟨call, -, h⟩
      · rw [h]
        exact .refl _
      · rw [h]
        exact (Store.perform_changes _ call).grows

/-- A session was issued by a sign-in with the password of its user. -/
theorem session_origin {t : Nat} {hash : FixedBytes 32} {session : Session}
    (h : (accountsAt V X C limiter events t).sessions.lookup hash = some session) :
    ∃ t' < t, ∃ call, RunsAt V X C limiter events t' (.account call) ∧
      Store.IssuedBy X (accountsAt V X C limiter events t') call hash session := by
  induction t with
  | zero => cases h
  | succ t ih =>
    have hbefore (h : (accountsAt V X C limiter events t).sessions.lookup hash = some session) :
        ∃ t' < t + 1, ∃ call, RunsAt V X C limiter events t' (.account call) ∧
          Store.IssuedBy X (accountsAt V X C limiter events t') call hash session := by
      obtain ⟨t', ht', hissued⟩ := ih h
      exact ⟨t', ht'.trans (Nat.lt_succ_self t), hissued⟩
    rcases (deploymentAt_succ V X C limiter events t).1 with hsame | ⟨call, hruns, hnext⟩
    · exact hbefore (hsame ▸ h)
    · rw [hnext] at h
      rcases (Store.perform_changes _ call).sessions hash session h with h | hissued
      · exact hbefore h
      · exact ⟨t, Nat.lt_succ_self t, call, hruns, hissued⟩

/-! ### Why a binding changed -/

section Authorisation

variable (V X C) (limiter : RegistrationLimiter) (events : List (Concurrent.Event Service))

/-- The key was bound to the device at this time by a request that was entitled to it. -/
inductive ChangeAuthorised (t : Nat) (device : DeviceAddr) (new : Bytes) : Prop where
  | registered {challenge bundle signature}
    (first : (directoryAt V X C limiter events t).identity device = none)
    (handled : HandledAt V X C limiter events t challenge (.register device new bundle signature))
    (possession : V new challenge signature = true)
  | provisioned {now challenge request}
    (first : (directoryAt V X C limiter events t).identity device = none)
    (runs : RunsAt V X C limiter events t (.provision now challenge request))
    (identity : request.identity = new)
    (possession : V new challenge request.possessionSig = true)
  | rotated {challenge bundle possessionSig rotationSig current}
    (handled : HandledAt V X C limiter events t challenge
      (.rotate device new bundle possessionSig rotationSig))
    (possession : V new challenge possessionSig = true)
    (bound : (directoryAt V X C limiter events t).identity device = some current)
    (authorised : V current (challenge ++ new) rotationSig = true)
  | recovered {challenge bundle possessionSig recoverySig recovery t' challenge' signature current}
    (handled : HandledAt V X C limiter events t challenge
      (.recover device new bundle possessionSig recoverySig))
    (possession : V new challenge possessionSig = true)
    (authorised : V recovery (challenge ++ new) recoverySig = true)
    (earlier : t' < t)
    (set : HandledAt V X C limiter events t' challenge' (.setRecovery device recovery signature))
    (bound : (directoryAt V X C limiter events t').identity device = some current)
    (entitled : V current challenge' signature = true)

/-- The key was bound to the device at this time by a provisioning with a session of the account
whose handle the device has: the token was returned by a sign-in with the password of the account,
it authorised the account when it was resolved, and the handle is of no other account at any
time. -/
def OwnSession (t : Nat) (device : DeviceAddr) (new : Bytes) : Prop :=
  ∃ now challenge request tenant username,
    RunsAt V X C limiter events t (.provision now challenge request) ∧
      request.device = device.device ∧ request.identity = new ∧
        ∃ t₀ t₁ t₂, (t₀ < t₁ ∧ t₁ < t₂ ∧ t₂ < t) ∧
          (∃ issued identifier password record,
            RunsAt V X C limiter events t₀
              (.account (.signInAt request.sessionToken issued tenant identifier password)) ∧
            X.normalize identifier = username ∧
            (accountsAt V X C limiter events t₀).users.lookup (tenant, username) = some record ∧
            X.verifyPassword password record.passwordHash = true ∧
            ((accountsAt V X C limiter events t₀).signInAt X request.sessionToken issued tenant
              identifier password).2 = .ok (⟨tenant, username⟩, request.sessionToken)) ∧
          (accountsAt V X C limiter events t₁).validateSessionAt X now request.sessionToken =
            some (tenant, username) ∧
          (accountsAt V X C limiter events t₂).handle X tenant username = some device.user ∧
          ∀ t' tenant' username',
            (accountsAt V X C limiter events t').handle X tenant' username' = some device.user →
              tenant' = tenant ∧ X.normalize username' = username

/-- The session tokens of a run: those that sign-ins generate and those that are presented. -/
def tokens (events : List (Concurrent.Event Service)) : Set String :=
  {token |
    (∃ id now tenant identifier password,
      .call id (.account (.signInAt token now tenant identifier password)) ∈ events) ∨
    ∃ id now challenge request,
      .call id (.provision now challenge request) ∈ events ∧ request.sessionToken = token}

variable {V X C limiter events}

theorem eq_of_changed {d d' : Directory} {device bound : DeviceAddr} {new : Bytes}
    (h : ∀ device', d'.identity device' = if device' = bound then some new else d.identity device')
    (hchanged : d'.identity device ≠ d.identity device) :
    device = bound ∧ d'.identity device = some new := by
  by_cases heq : device = bound
  · exact ⟨heq, (h device).trans (if_pos heq)⟩
  · exact absurd ((h device).trans (if_neg heq)) hchanged

/-- A provisioning used a session of the account whose handle it binds. -/
theorem ProvisionedAt.ownSession {t : Nat} {now : UInt64} {challenge : Bytes}
    {request : ProvisionRequest} {handle : String}
    (h : ProvisionedAt V X C limiter events t now challenge request handle)
    (hsha : Set.InjOn (fun token => X.sha256 (utf8Bytes token)) (tokens events)) :
    OwnSession V X C limiter events t ⟨handle, request.device⟩ request.identity := by
  have hat := accounts_oneHistory V X C limiter events
  obtain ⟨t₁, t₂, tenant, username, ht, hvalid, hhandle⟩ := h.session
  obtain ⟨session, hsession, hnames⟩ := Option.map_eq_some_iff.mp hvalid
  obtain ⟨hlookup, -⟩ := Option.filter_eq_some_iff.mp hsession
  obtain ⟨t₀, ht₀, _, hruns, token, issued, tenant', identifier, password, record, rfl, hhash,
    hrecord, hpassword, hanswer, rfl⟩ := session_origin hlookup
  -- the session is that of the token that was presented
  obtain ⟨_, _, hsigned⟩ := hruns
  obtain ⟨_, _, hprovision⟩ := h.runs
  obtain ⟨id, hcalled⟩ := hsigned.called
  obtain ⟨id', hcalled'⟩ := hprovision.called
  obtain rfl : token = request.sessionToken :=
    hsha (.inl ⟨id, issued, tenant', identifier, password, hcalled⟩)
      (.inr ⟨id', now, challenge, request, hcalled', rfl⟩) hhash.symm
  -- and its account that of the sign-in
  obtain ⟨hrtenant, hrusername⟩ := (hat.sound t₀).user_record _ record hrecord
  obtain ⟨rfl, rfl⟩ := Prod.mk.inj hnames
  rw [hrtenant, hrusername] at hanswer hvalid hhandle
  refine ⟨now, challenge, request, tenant', X.normalize identifier, h.runs, rfl, rfl, t₀, t₁, t₂,
    ⟨ht₀, ht⟩, ⟨issued, identifier, password, record, ⟨_, _, hsigned⟩, rfl, hrecord, hpassword,
      hanswer⟩, hvalid, hhandle, fun t' tenant'' username'' hother => ?_⟩
  obtain ⟨htenant, husername⟩ := hat.account_of_handle hother hhandle
  exact ⟨htenant, husername.trans (X.normalize_normalize identifier)⟩

/-- Only the right keys change a binding, and only a session of an account binds its handle. -/
theorem bindings_authorised
    (hsha : Set.InjOn (fun token => X.sha256 (utf8Bytes token)) (tokens events)) (t : Nat)
    (device : DeviceAddr)
    (hchanged : (directoryAt V X C limiter events (t + 1)).identity device ≠
      (directoryAt V X C limiter events t).identity device) :
    ∃ new, (directoryAt V X C limiter events (t + 1)).identity device = some new ∧
      ChangeAuthorised V X C limiter events t device new ∧
        ((directoryAt V X C limiter events t).identity device = none →
          Directory.isReservedHandle device.user = true →
            OwnSession V X C limiter events t device new) := by
  rcases (deploymentAt_succ V X C limiter events t).2 with
    hkeeps | ⟨challenge, request, hhandled, hbound⟩ |
      ⟨now, challenge, request, handle, hprov, hnext⟩
  · exact absurd (hkeeps.identity device) hchanged
  · -- a request that changes the binding of a device is about this device
    cases hbound with
    | kept hkeeps => exact absurd (hkeeps.identity device) hchanged
    | registered hraw hpossession hnew hidentity _ =>
      obtain ⟨rfl, hbound⟩ := eq_of_changed hidentity hchanged
      refine ⟨_, hbound, .registered hnew hhandled hpossession, fun _ hreserved => ?_⟩
      rw [hraw] at hreserved
      cases hreserved
    | rotated hpossession hcurrent hauthorised hidentity _ =>
      obtain ⟨rfl, hbound⟩ := eq_of_changed hidentity hchanged
      refine ⟨_, hbound, .rotated hhandled hpossession hcurrent hauthorised, fun hfirst => ?_⟩
      rw [hfirst] at hcurrent
      cases hcurrent
    | recovered hpossession hknown hkey hauthorised hidentity _ =>
      obtain ⟨rfl, hbound⟩ := eq_of_changed hidentity hchanged
      obtain ⟨t', ht', _, _, _, hset, hbound', hentitled⟩ := recoveryKey_origin hkey
      exact ⟨_, hbound, .recovered hhandled hpossession hauthorised ht' hset hbound' hentitled,
        fun hfirst => absurd hfirst hknown⟩
    | recoverable _ _ hidentity _ => exact absurd (hidentity device) hchanged
  · rcases Directory.register_bound (directoryAt V X C limiter events t) ⟨handle, request.device⟩
      request.identity request.bundle with ⟨hnew, hidentity, -⟩ | hkeeps
    · rw [← hnext] at hidentity
      obtain ⟨rfl, hbound⟩ := eq_of_changed hidentity hchanged
      exact ⟨_, hbound, .provisioned hnew hprov.runs rfl hprov.possession,
        fun _ _ => hprov.ownSession hsha⟩
    · rw [← hnext] at hkeeps
      exact absurd (hkeeps.identity device) hchanged

/-- A run in which a user signs up, signs in and provisions a device. -/
def sampleEvents : List (Concurrent.Event Service) :=
  [.call 0 (.account (.signUpTenant "t" "k" [] 0 "acme" "root@acme.test" "correct horse")),
    .advance 0, .call 1 (.account (.signUpUser [] "t" "alice" "battery staple")), .advance 1,
    .call 2 (.account (.signInAt "token" 10 "t" "alice" "battery staple")), .advance 2,
    .call 3 (.provision 20 [7] ⟨"token", 1, [1], [2], [3]⟩), .advance 3, .advance 3, .advance 3]

theorem bindings_authorised_sample :
    OwnSession (fun _ _ signature => signature = [3]) Platform.sample CoreRules.sample (.withMax 1)
      sampleEvents 9 ⟨"acme/alice", 1⟩ [1] := by
  have htokens (token) (h : token ∈ tokens sampleEvents) : token = "token" := by
    obtain ⟨_, _, _, _, _, h⟩ | ⟨_, _, _, _, h, rfl⟩ := h <;> simp [sampleEvents] at h <;> simp [h]
  have hbefore : (directoryAt (fun _ _ signature => signature = [3]) Platform.sample
      CoreRules.sample (.withMax 1) sampleEvents 9).identity ⟨"acme/alice", 1⟩ = none := by
    decide +kernel
  have hafter : (directoryAt (fun _ _ signature => signature = [3]) Platform.sample
      CoreRules.sample (.withMax 1) sampleEvents 10).identity ⟨"acme/alice", 1⟩ = some [1] := by
    decide +kernel
  obtain ⟨new, hnew, -, hown⟩ := bindings_authorised
    (fun _ h _ h' _ => (htokens _ h).trans (htokens _ h').symm) 9 ⟨"acme/alice", 1⟩
    (by rw [hbefore, hafter]; simp)
  rw [hafter, Option.some_inj] at hnew
  rw [hnew]
  exact hown hbefore (by decide)

end Authorisation

end Runs

end Tacenta.Server
