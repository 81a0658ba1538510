import Tacenta.Accounts.PersistRuns

/-!
# Sessions and handles over runs of the store

A session token authorises a user only while the store holds a session that a sign-in with the
user's password issued for it. What ends a session is read off the call alone: its token or all
sessions of its user are revoked, or the sessions that have ended are swept. The handle of an
account is its own for good.

## Main definitions

* `Store.Ends`: the calls that end a session.

## Main results

* `Store.session_authorised`: after a run of the store, whom a token authorises and why.
* `Store.handle_not_reassigned`: no other account ever gets a handle.
-/

open ByteString Result

namespace Tacenta.Accounts.Store

variable {κ : Type} {X : Platform} {C : CoreRules κ} {a : Store} {i : AccountCall}
  {hash : FixedBytes 32} {session : Session}

/-- The call ends the session, whatever else the store holds. -/
def Ends (X : Platform) (hash : FixedBytes 32) (session : Session) : AccountCall → Prop
  | .revokeSession token => X.sha256 (utf8Bytes token) = hash
  | .revokeUserSessions tenant username =>
    session.tenant = tenant ∧ session.username = X.normalize username
  | .sweepExpiredSessionsAt now => ¬now < session.expiresAt
  | _ => False

/-- A session that is there after a call was not ended by it. -/
theorem not_ends (h : (a.perform X C i).1.sessions.lookup hash = some session) :
    ¬Ends X hash session i := by
  intro hends
  cases i with
  | revokeSession token =>
    subst hends
    change (a.sessions.erase _).lookup _ = _ at h
    rw [AList.lookup_erase] at h
    cases h
  | revokeUserSessions tenant username =>
    exact of_decide_eq_true (Table.lookup_of_lookup_retain h).2 hends
  | sweepExpiredSessionsAt now =>
    exact hends (of_decide_eq_true (Table.lookup_of_lookup_retain h).2)
  | _ => exact hends

/-- If a token authorises a user after a run of the store, then for a session that a sign-in of the
run with the user's password issued for a token with its hash, that has not expired, and that no
call since has ended. -/
theorem session_authorised (calls : List AccountCall) (now : UInt64) (token : String)
    {user : TenantId × String}
    (h : ((Store.after X C).run .new calls).validateSessionAt X now token = some user) :
    let store := (Store.after X C).run .new
    let hash := X.sha256 (utf8Bytes token)
    ∃ before i after session, calls = before ++ i :: after ∧
      IssuedBy X (store before) i hash session ∧ now < session.expiresAt ∧
        (∀ j ∈ after, ¬Ends X hash session j) ∧ user = (session.tenant, session.username) := by
  intro store hash
  obtain ⟨session, hvalid, rfl⟩ := Option.map_eq_some_iff.mp h
  obtain ⟨hlookup, hnow⟩ := Option.filter_eq_some_iff.mp hvalid
  obtain ⟨before, i, after, rfl, hnot, hissued, hafter⟩ := Machine.exists_last_change
    (fun s : Store => s.sessions.lookup hash = some session) (by simp [new]) hlookup
  have hchanges := perform_changes (X := X) (C := C) (store before) i
  refine ⟨before, i, after, session, rfl, ?_, of_decide_eq_true hnow, fun j hj => ?_, rfl⟩
  · exact (hchanges.sessions hash session hissued).resolve_left hnot
  · obtain ⟨t, ht⟩ := hafter j hj
    exact not_ends ht

/-- Two users sign up, and one of them signs in. -/
def signedInCalls : List AccountCall :=
  firstCalls ++ [.signUpUser [] "t" "bob" "password", .signInAt "token" 5 "t" "alice" "password",
    .revokeUserSessions "t" "bob"]

theorem session_authorised_sample :
    let store := (Store.after Platform.sample CoreRules.sample).run .new
    (store signedInCalls).validateSessionAt Platform.sample 6 "token" = some ("t", "alice") ∧
      ∃ before i after session, signedInCalls = before ++ i :: after ∧
        IssuedBy Platform.sample (store before) i (Platform.sample.sha256 (utf8Bytes "token"))
          session ∧ 6 < session.expiresAt ∧
            ("t", "alice") = (session.tenant, session.username) := by
  intro store
  have hvalid : (store signedInCalls).validateSessionAt Platform.sample 6 "token" =
      some ("t", "alice") := by decide +kernel
  obtain ⟨before, i, after, session, hcalls, hissued, hnow, -, huser⟩ :=
    session_authorised signedInCalls 6 "token" hvalid
  exact ⟨hvalid, before, i, after, session, hcalls, hissued, hnow, huser⟩

/-- A handle does not pass to another account: accounts that have one handle, at two times of a run,
are the same. -/
theorem handle_not_reassigned (before after : List AccountCall) {tenant tenant' : TenantId}
    {username username' handle : String}
    (h : ((Store.after X C).run .new before).handle X tenant username = some handle)
    (h' : ((Store.after X C).run .new (before ++ after)).handle X tenant' username' = some handle) :
    tenant = tenant' ∧ X.normalize username = X.normalize username' := by
  set store := (Store.after X C).run .new
  have hsound : Sound X (store before) := Machine.run_preserves (Sound X)
    (fun s call hs => hs.changes (perform_changes (C := C) s call)) sound_new before
  have hrun : store (before ++ after) = (Store.after X C).run (store before) after :=
    Machine.run_append ..
  obtain ⟨hlater, hgrows⟩ : Sound X (store (before ++ after)) ∧
      Grows (store before) (store (before ++ after)) := by
    rw [hrun]
    refine Machine.run_preserves (fun s => Sound X s ∧ Grows (store before) s) (fun s call hs => ?_)
      ⟨hsound, .refl _⟩ after
    have hchanges := perform_changes (X := X) (C := C) s call
    exact ⟨hs.1.changes hchanges, hs.2.trans hchanges.grows⟩
  exact account_of_handle hsound hlater hgrows h h'

/-- A handle is still that of its account, and another account has another one. -/
theorem handle_not_reassigned_sample :
    let later := (Store.after Platform.sample CoreRules.sample).run .new (firstCalls ++
      [.signUpUser [] "t" "bob" "password"])
    (Platform.sample.normalize "alice" = Platform.sample.normalize "alice" ∧
        later.handle Platform.sample "t" "alice" = some "acme/alice") ∧
      later.handle Platform.sample "t" "bob" ≠ some "acme/alice" := by
  intro later
  have hfirst : ((Store.after Platform.sample CoreRules.sample).run .new firstCalls).handle
      Platform.sample "t" "alice" = some "acme/alice" := by decide +kernel
  have hlater : later.handle Platform.sample "t" "alice" = some "acme/alice" := by decide +kernel
  refine ⟨⟨(handle_not_reassigned firstCalls _ hfirst hlater).2, hlater⟩, fun hbob => ?_⟩
  exact absurd (handle_not_reassigned firstCalls _ hfirst hbob).2 (by decide)

end Tacenta.Accounts.Store
