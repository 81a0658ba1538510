import Tacenta.Accounts.Store
import Tacenta.Directory.Store
import Tacenta.Library.Execution

/-!
# The limiters over whole runs

Sign-ins are refused without a check while five failures of their key are in the window, and new
registrations while their source has as many in the window as are allowed. A limiter remembers a
bounded number of keys. When a further one fails, the key whose last failure is the oldest is
forgotten, and with it its block. A refused attempt is not recorded, so a blocked key does not stay
young.

The failures of a key are read from the answers of a run. As long as no record displaces the key,
the limiter remembers exactly those that count, whatever happens to other keys.

## Main definitions

* `Server.signIns`, `Server.registrations`: the machines that take one attempt after the other.
* `Server.failures`, `Server.accepted`: the failures of a key and the registrations of a source,
  from the answers of a run.
* `Server.signInDisplaces`, `Server.registrationDisplaces`: an attempt whose record displaces a key.

## Main results

* `Server.limits_hold`: a block lasts until its failures are old, and no more than the allowed
  number of failed checks or registrations lie within the window, unless a record displaces the key.
* `Server.flood_clears_block`: sign-ins of other tenants clear a block within a second, and
  registrations of other sources let a source register again.
-/

open SlidingWindow

namespace Tacenta.Server

/-! ### Sign-ins -/

section SignIns

open Accounts

/-- A sign-in: the token it would issue, its time and what is given. -/
structure SignIn where
  token : String
  now : UInt64
  tenant : TenantId
  identifier : String
  password : String

/-- A sign-in with its answer. -/
abbrev AnsweredSignIn := SignIn × Except AuthError (User × String)

/-- The key of the sign-in with the limiter. -/
def SignIn.key (X : Platform) (call : SignIn) : String := ratelimitKey X call.tenant call.identifier

variable (X : Platform) (key : String)

/-- The store takes one sign-in after the other. -/
def signIns : Machine Store SignIn (Except AuthError (User × String)) := fun a call =>
  a.signInAt X call.token call.now call.tenant call.identifier call.password

/-- Five of the failures are in the window. -/
abbrev Blocking (times : List UInt64) (now : UInt64) : Prop :=
  5 ≤ (times.filter (within 60 · now)).length

/-- The failures of the key since its last success, after one more answer. While the key is blocked
nothing is recorded. -/
def failuresAfter (times : List UInt64) (entry : AnsweredSignIn) : List UInt64 :=
  if entry.1.key X ≠ key ∨ Blocking times entry.1.now then times
  else if entry.2.isOk then []
  else times ++ [entry.1.now]

/-- The failures of the key since its last success. -/
def failures (log : List AnsweredSignIn) : List UInt64 := log.foldl (failuresAfter X key) []

/-- The sign-in is recorded as a failure, and the record displaces the key. -/
def signInDisplaces (a : Store) (call : SignIn) : Prop :=
  a.limiter.isBlocked (call.key X) call.now = false ∧ (signIns X a call).2.isOk = false ∧
    Displaces RateLimiter.maxKeys 60 a.limiter.failures (call.key X) call.now key

/-- The credentials were checked and refused. -/
def checkFailed : Except AuthError (User × String) → Bool
  | .ok _ => false
  | .error e => e ≠ .rateLimited

/-- The times at which the credentials of the key were checked and refused. -/
def failedChecks (log : List AnsweredSignIn) : List UInt64 :=
  (log.filter fun entry => entry.1.key X = key && checkFailed entry.2).map fun entry => entry.1.now

/-- No sign-in of the run displaces the key. -/
abbrev Undisplaced (a : Store) (calls : List SignIn) : Prop :=
  (signIns X).Along (fun a call => ¬signInDisplaces X key a call) a calls

variable {X key} {a : Store} {past : List AnsweredSignIn} {clock : UInt64} {call : SignIn}

theorem signIns_cases (X : Platform) (a : Store) (call : SignIn) :
    (a.limiter.isBlocked (call.key X) call.now = true ∧
      signIns X a call = (a, .error .rateLimited)) ∨
    (a.limiter.isBlocked (call.key X) call.now = false ∧ (signIns X a call).2.isOk = false ∧
      (signIns X a call).1.limiter = a.limiter.recordFailure (call.key X) call.now) ∨
    (a.limiter.isBlocked (call.key X) call.now = false ∧ (signIns X a call).2.isOk = true ∧
      (signIns X a call).1.limiter = a.limiter.recordSuccess (call.key X)) := by
  rw [signIns, Store.signInAt, SignIn.key]
  cases hblocked : a.limiter.isBlocked (ratelimitKey X call.tenant call.identifier) call.now with
  | true => exact .inl ⟨rfl, rfl⟩
  | false =>
    refine .inr ?_
    rw [if_neg Bool.false_ne_true]
    split
    · exact .inl ⟨rfl, rfl, rfl⟩
    · split
      · exact .inr ⟨rfl, rfl, rfl⟩
      · exact .inl ⟨rfl, rfl, rfl⟩

theorem failures_append (log log' : List AnsweredSignIn) :
    failures X key (log ++ log') = log'.foldl (failuresAfter X key) (failures X key log) :=
  List.foldl_append

/-- The limiter remembers what counts of the failures of the key. -/
structure Remembers (X : Platform) (key : String) (a : Store) (past : List AnsweredSignIn)
    (clock : UInt64) : Prop where
  ceiling : a.limiter.maxFailures = 5
  window : a.limiter.windowSecs = 60
  follows : Follows 5 60 a.limiter.failures key (failures X key past) clock

namespace Remembers

theorem start (ha : a.limiter = .default) : Remembers X key a [] 0 where
  ceiling := by rw [ha]; rfl
  window := by rw [ha]; rfl
  follows := .empty _ _ _ (by rw [ha]; rfl)

theorem isBlocked_iff (h : Remembers X key a past clock) {now : UInt64} (hle : clock ≤ now) :
    a.limiter.isBlocked key now = true ↔ Blocking (failures X key past) now := by
  rw [RateLimiter.isBlocked, RateLimiter.recentFailures, decide_eq_true_iff, h.ceiling, h.window,
    h.follows.recent_eq now hle]

theorem step (h : Remembers X key a past clock) (hle : clock ≤ call.now)
    (hstay : ¬signInDisplaces X key a call) :
    Remembers X key (signIns X a call).1 (past ++ [(call, (signIns X a call).2)]) call.now := by
  have hfailures : failures X key (past ++ [(call, (signIns X a call).2)]) =
      failuresAfter X key (failures X key past) (call, (signIns X a call).2) := failures_append _ _
  have hiff := h.isBlocked_iff hle
  rcases signIns_cases X a call with ⟨hblocked, heq⟩ | ⟨hblocked, hok, heq⟩ | ⟨hblocked, hok, heq⟩
  · have hsame : failuresAfter X key (failures X key past) (call, (signIns X a call).2) =
        failures X key past := by
      refine if_pos ?_
      rw [or_iff_not_imp_left, not_not]
      exact fun hkey => hiff.mp (hkey ▸ hblocked)
    refine ⟨heq ▸ h.ceiling, heq ▸ h.window, ?_⟩
    rw [hfailures, hsame, heq]
    exact h.follows.mono hle
  · have hroom : (recent 60 a.limiter.failures (call.key X) call.now).length < 5 := by
      rw [RateLimiter.isBlocked, RateLimiter.recentFailures, decide_eq_false_iff_not, h.ceiling,
        h.window, Nat.not_le] at hblocked
      exact hblocked
    refine ⟨heq ▸ h.ceiling, heq ▸ h.window, ?_⟩
    have hrecord := h.follows.record hle hroom fun hdisplaces => hstay ⟨hblocked, hok, hdisplaces⟩
    rw [hfailures, heq, failuresAfter, RateLimiter.recordFailure, h.window, hok]
    convert hrecord using 1
    grind
  · refine ⟨heq ▸ h.ceiling, heq ▸ h.window, ?_⟩
    have herase := (h.follows.mono hle).erase (call.key X)
    rw [hfailures, heq, failuresAfter, RateLimiter.recordSuccess, hok]
    convert herase using 1
    grind

/-- The limiter remembers the key over a run that never displaces it. -/
theorem run (ha : a.limiter = .default) {calls : List SignIn}
    (hsorted : (calls.map SignIn.now).Pairwise (· ≤ ·))
    (hstay : Undisplaced X key a calls)
    {later : UInt64} (hlater : ∀ call ∈ calls, call.now ≤ later) :
    Remembers X key ((signIns X).run a calls) ((signIns X).log a calls) later :=
  Machine.clocked_invariant (Remembers X key)
    (fun _ _ _ _ h hle => ⟨h.ceiling, h.window, h.follows.mono hle⟩)
    (fun _ _ _ _ h hle hstay => h.step hle hstay) (start ha) hsorted (fun _ _ => UInt64.zero_le)
    hstay UInt64.zero_le hlater

end Remembers

/-- While the failures still block at the end, no answer changes them. -/
theorem failures_append_of_blocking {log : List AnsweredSignIn} {later : UInt64}
    (hblocking : Blocking (failures X key past) later)
    (hlater : ∀ entry ∈ log, entry.1.now ≤ later) :
    failures X key (past ++ log) = failures X key past := by
  rw [failures_append]
  induction log with
  | nil => rfl
  | cons entry log ih =>
    rw [List.forall_mem_cons] at hlater
    have hstill : Blocking (failures X key past) entry.1.now := by
      refine hblocking.trans ?_
      rw [← List.countP_eq_length_filter, ← List.countP_eq_length_filter]
      exact List.countP_mono_left fun t _ => within_of_le hlater.1
    rw [List.foldl_cons, failuresAfter, if_pos (.inr hstill)]
    exact ih hlater.2

theorem failedChecks_append (log log' : List AnsweredSignIn) :
    failedChecks X key (log ++ log') = failedChecks X key log ++ failedChecks X key log' := by
  rw [failedChecks, List.filter_append, List.map_append]
  rfl

theorem Remembers.failedCheck_recorded (h : Remembers X key a past clock) (hle : clock ≤ call.now)
    (hnone : call.key X = key → (signIns X a call).2.isOk = false) :
    (failures X key past ++ failedChecks X key [(call, (signIns X a call).2)]).Sublist
      (failures X key (past ++ [(call, (signIns X a call).2)])) := by
  rw [failures_append, List.foldl_cons, List.foldl_nil, failuresAfter]
  split
  · next hsame =>
    -- another key, or a refusal without a check
    have hunchecked : call.key X = key → checkFailed (signIns X a call).2 = false := by
      intro hkey
      have hblocked := (h.isBlocked_iff hle).mpr (hsame.resolve_left (not_not.mpr hkey))
      rcases signIns_cases X a call with ⟨-, heq⟩ | ⟨hfree, -⟩ | ⟨hfree, -⟩
      · rw [heq]; rfl
      · rw [hkey, hblocked] at hfree; cases hfree
      · rw [hkey, hblocked] at hfree; cases hfree
    have hnil : failedChecks X key [(call, (signIns X a call).2)] = [] := by
      rw [failedChecks, List.filter_singleton]
      by_cases hkey : call.key X = key <;> simp [hkey, hunchecked]
    rw [hnil, List.append_nil]
  · next hother =>
    have hkey : call.key X = key := by_contra fun hne => hother (.inl hne)
    rw [hnone hkey, if_neg Bool.false_ne_true]
    refine List.Sublist.append_left ?_ _
    exact (List.filter_sublist (l := [(call, (signIns X a call).2)])).map fun entry => entry.1.now

/-- The failed checks of a stretch without a success are among the failures after it. -/
theorem failedChecks_sublist {calls : List SignIn} (h : Remembers X key a past clock)
    (hsorted : (calls.map SignIn.now).Pairwise (· ≤ ·)) (hle : ∀ call ∈ calls, clock ≤ call.now)
    (hstay : Undisplaced X key a calls)
    (hnone : ∀ entry ∈ (signIns X).log a calls, entry.1.key X = key → entry.2.isOk = false) :
    (failures X key past ++ failedChecks X key ((signIns X).log a calls)).Sublist
      (failures X key (past ++ (signIns X).log a calls)) := by
  induction calls generalizing a past clock with
  | nil => simp [failedChecks]
  | cons call calls ih =>
    rw [List.map_cons, List.pairwise_cons] at hsorted
    rw [Machine.log_cons, List.forall_mem_cons] at hnone
    rw [List.forall_mem_cons] at hle
    have hnext : ∀ next ∈ calls, call.now ≤ next.now := fun next hmem =>
      hsorted.1 _ (List.mem_map_of_mem hmem)
    have hrest := ih (h.step hle.1 hstay.1) hsorted.2 hnext hstay.2 hnone.2
    rw [Machine.log_cons, ← List.singleton_append, ← List.append_assoc, failedChecks_append,
      ← List.append_assoc]
    exact ((h.failedCheck_recorded hle.1 hnone.1).append_right _).trans hrest

/-- A key is blocked while five of its failures are in the window. -/
theorem block_lasts (ha : a.limiter = .default) {before between after : List SignIn}
    (hsorted : ((before ++ between ++ call :: after).map SignIn.now).Pairwise (· ≤ ·))
    (hstay : Undisplaced X key a (before ++ between ++ call :: after))
    (hkey : call.key X = key)
    (hblocking : Blocking (failures X key ((signIns X).log a before)) call.now) :
    (signIns X ((signIns X).run a (before ++ between)) call).2 = .error .rateLimited := by
  rw [List.map_append, List.pairwise_append] at hsorted
  have hearlier : ∀ c ∈ before ++ between, c.now ≤ call.now := fun c hc =>
    hsorted.2.2 _ (List.mem_map_of_mem hc) _ List.mem_cons_self
  have h := Remembers.run ha hsorted.1 (Machine.along_append.mp hstay).1 hearlier
  have hsame : failures X key ((signIns X).log a (before ++ between)) =
      failures X key ((signIns X).log a before) := by
    rw [Machine.log_append]
    refine failures_append_of_blocking hblocking fun entry hentry => hearlier _ ?_
    have hmem := List.mem_map_of_mem (f := Prod.fst) hentry
    rw [Machine.map_fst_log] at hmem
    exact List.mem_append_right _ hmem
  have hblocked := (h.isBlocked_iff (UInt64.le_refl _)).mpr (hsame ▸ hblocking)
  rcases signIns_cases X ((signIns X).run a (before ++ between)) call with
    ⟨-, heq⟩ | ⟨hfree, -⟩ | ⟨hfree, -⟩
  · rw [heq]
  · rw [hkey, hblocked] at hfree; cases hfree
  · rw [hkey, hblocked] at hfree; cases hfree

/-- At most five failed checks of a key without a success between them lie within 60 seconds. -/
theorem failedChecks_spaced (ha : a.limiter = .default) {before stretch : List SignIn}
    (hsorted : ((before ++ stretch).map SignIn.now).Pairwise (· ≤ ·))
    (hstay : Undisplaced X key a (before ++ stretch))
    (hnone : ∀ entry ∈ (signIns X).log ((signIns X).run a before) stretch,
      entry.1.key X = key → entry.2.isOk = false) (start : UInt64) :
    ((failedChecks X key ((signIns X).log ((signIns X).run a before) stretch)).countP fun t =>
      start ≤ t && within 60 start t) ≤ 5 := by
  cases stretch with
  | nil => exact Nat.zero_le _
  | cons call rest =>
    have hall := Remembers.run ha hsorted hstay fun c _ => Word64.le_maxValue c.now
    rw [List.map_append, List.pairwise_append] at hsorted
    replace hstay := Machine.along_append.mp hstay
    have hearlier : ∀ c ∈ before, c.now ≤ call.now := fun c hc =>
      hsorted.2.2 _ (List.mem_map_of_mem hc) _ List.mem_cons_self
    have hnext : ∀ c ∈ call :: rest, call.now ≤ c.now := by
      rw [List.forall_mem_cons]
      exact ⟨UInt64.le_refl _, fun c hc =>
        (List.pairwise_cons.mp hsorted.2.1).1 _ (List.mem_map_of_mem hc)⟩
    have h := Remembers.run ha hsorted.1 hstay.1 hearlier
    have hsublist := failedChecks_sublist h hsorted.2.1 hnext hstay.2 hnone
    rw [← Machine.log_append] at hsublist
    have hspaced := hall.follows.spaced start
    exact (((List.sublist_append_right _ _).trans hsublist).countP_le).trans hspaced

end SignIns

/-! ### Registrations -/

section Registrations

open Directory

/-- The limiter takes one new registration after the other, each with its source and time. -/
def registrations : Machine RegistrationLimiter (String × UInt64) Bool := fun l call =>
  l.overLimitAt call.1 call.2

/-- The times of the registrations of the source that were accepted. -/
def accepted (source : String) (log : List ((String × UInt64) × Bool)) : List UInt64 :=
  (log.filter fun entry => entry.1.1 = source && !entry.2).map fun entry => entry.1.2

/-- The registration is recorded, and the record displaces the source. -/
def registrationDisplaces (source : String) (l : RegistrationLimiter) (call : String × UInt64) :
    Prop :=
  (registrations l call).2 = false ∧
    Displaces RegistrationLimiter.maxKeys l.window l.seen call.1 call.2 source

variable {source : String} {max : Nat} {l : RegistrationLimiter} {call : String × UInt64}
  {past : List ((String × UInt64) × Bool)} {clock : UInt64}

theorem accepted_append (log log' : List ((String × UInt64) × Bool)) :
    accepted source (log ++ log') = accepted source log ++ accepted source log' := by
  rw [accepted, List.filter_append, List.map_append]
  rfl

/-- The limiter remembers what counts of the registrations of the source. -/
structure Counts (source : String) (max : Nat) (l : RegistrationLimiter)
    (past : List ((String × UInt64) × Bool)) (clock : UInt64) : Prop where
  ceiling : l.max = max
  window : l.window = 3600
  follows : Follows max 3600 l.seen source (accepted source past) clock

theorem Counts.step (h : Counts source max l past clock) (hle : clock ≤ call.2)
    (hstay : ¬registrationDisplaces source l call) :
    Counts source max (registrations l call).1
      (past ++ [(call, (registrations l call).2)]) call.2 := by
  by_cases hover : l.max ≤ (recent l.window l.seen call.1 call.2).length
  · have heq : registrations l call =
        ({ l with seen := l.seen.insert call.1 (recent l.window l.seen call.1 call.2) }, true) :=
      if_pos hover
    refine ⟨heq ▸ h.ceiling, heq ▸ h.window, ?_⟩
    rw [accepted_append, heq]
    have := h.follows.prune call.1 hle
    simpa [accepted, h.window] using this
  · have heq : registrations l call = ({ l with
        seen := record RegistrationLimiter.maxKeys l.window l.seen call.1 call.2 }, false) :=
      if_neg hover
    refine ⟨heq ▸ h.ceiling, heq ▸ h.window, ?_⟩
    rw [registrationDisplaces, heq, h.window] at hstay
    rw [h.ceiling, h.window, Nat.not_le] at hover
    have := h.follows.record hle hover fun hdisplaces => hstay ⟨rfl, hdisplaces⟩
    rw [accepted_append, heq, h.window]
    convert this using 1
    by_cases hsource : call.1 = source <;> simp [accepted, hsource]

end Registrations

/-! ### Both limiters -/

/-- In runs with a clock that does not go back, and in which no record displaces the key: sign-ins
are refused from the fifth failure in the window on, until fewer than five of these failures are at
most 60 seconds old, and at most five failed checks without a success between them lie within 60
seconds; and at most as many registrations of a source as are allowed lie within 3600 seconds. -/
theorem limits_hold (X : Accounts.Platform) (key source : String) (max : Nat) :
    (∀ (a : Accounts.Store) (calls : List SignIn),
      a.limiter = .default → (calls.map SignIn.now).Pairwise (· ≤ ·) →
      Undisplaced X key a calls →
      (∀ before call rest, calls = before ++ call :: rest → call.key X = key →
        Blocking (failures X key ((signIns X).log a before)) call.now →
        (signIns X ((signIns X).run a before) call).2 = .error .rateLimited ∧
        ∀ between again after, call :: rest = between ++ again :: after → again.key X = key →
          Blocking (failures X key ((signIns X).log a before)) again.now →
          (signIns X ((signIns X).run a (before ++ between)) again).2 = .error .rateLimited) ∧
      ∀ before stretch after, calls = before ++ stretch ++ after →
        (∀ entry ∈ (signIns X).log ((signIns X).run a before) stretch,
          entry.1.key X = key → entry.2.isOk = false) →
        ∀ start : UInt64,
          ((failedChecks X key ((signIns X).log ((signIns X).run a before) stretch)).countP fun t =>
            start ≤ t ∧ t.toNat ≤ start.toNat + 60) ≤ 5) ∧
    ∀ calls : List (String × UInt64), (calls.map Prod.snd).Pairwise (· ≤ ·) →
      registrations.Along (fun l call => ¬registrationDisplaces source l call)
        (Directory.RegistrationLimiter.withMax max) calls →
      ∀ start : UInt64,
        ((accepted source (registrations.log (Directory.RegistrationLimiter.withMax max)
          calls)).countP fun t => start ≤ t ∧ t.toNat ≤ start.toNat + 3600) ≤ Nat.max max 1 := by
  have hspan (window start t : UInt64) : (start ≤ t && within window start t) =
      decide (start ≤ t ∧ t.toNat ≤ start.toNat + window.toNat) := by
    simp only [Bool.decide_and, ← within_iff, Bool.decide_eq_true]
  constructor
  · intro a calls ha hsorted hstay
    constructor
    · rintro before call rest rfl hkey hblocking
      refine ⟨?_, ?_⟩
      · rw [← List.append_nil before] at hsorted hstay ⊢
        exact block_lasts ha hsorted hstay hkey hblocking
      · intro between again after hrest hkey' hblocking'
        rw [hrest, ← List.append_assoc] at hsorted hstay
        exact block_lasts ha hsorted hstay hkey' hblocking'
    · rintro before stretch after rfl hnone start
      rw [List.map_append, List.pairwise_append] at hsorted
      have := failedChecks_spaced ha hsorted.1 (Machine.along_append.mp hstay).1 hnone start
      simp only [hspan] at this
      exact this
  · intro calls hsorted hstay start
    have hstart : Counts source (Nat.max max 1) (.withMax max) [] 0 :=
      ⟨rfl, rfl, .empty _ _ _ rfl⟩
    have h := Machine.clocked_invariant (Counts source (Nat.max max 1))
      (fun _ _ _ _ h hle => ⟨h.ceiling, h.window, h.follows.mono hle⟩)
      (fun _ _ _ _ h hle hstay => h.step hle hstay) hstart hsorted (fun _ _ => UInt64.zero_le)
      hstay UInt64.zero_le fun call _ => Word64.le_maxValue call.2
    have := h.follows.spaced start
    simp only [hspan, List.nil_append] at this
    exact this

/-! ### A block -/

instance (X : Accounts.Platform) (key : String) (a : Accounts.Store) (call : SignIn) :
    Decidable (signInDisplaces X key a call) :=
  inferInstanceAs (Decidable (_ ∧ _ ∧ Crowded _ _ _ _ _))

instance (source : String) (l : Directory.RegistrationLimiter) (call : String × UInt64) :
    Decidable (registrationDisplaces source l call) :=
  inferInstanceAs (Decidable (_ ∧ Crowded _ _ _ _ _))

/-- A sign-in of an account. -/
def guess (now : UInt64) : SignIn := ⟨"", now, "t", "u", ""⟩

/-- Five failures block the account up to a minute later, with a sign-in of another account between
them; and of two registrations of a source within the hour one is accepted. -/
theorem limits_hold_sample :
    let key := (guess 0).key .sample
    let calls := List.replicate 5 (guess 0) ++ [guess 1, ⟨"", 2, "s", "u", ""⟩, guess 60]
    let sources : List (String × UInt64) := [("v", 0), ("w", 1), ("v", 2)]
    Undisplaced .sample key .new calls ∧
    (signIns .sample ((signIns .sample).run .new (List.replicate 5 (guess 0))) (guess 1)).2 =
      .error .rateLimited ∧
    (signIns .sample ((signIns .sample).run .new
      (List.replicate 5 (guess 0) ++ [guess 1, ⟨"", 2, "s", "u", ""⟩])) (guess 60)).2 =
        .error .rateLimited ∧
    registrations.Along (fun l call => ¬registrationDisplaces "v" l call) (.withMax 1) sources ∧
    (accepted "v" (registrations.log (.withMax 1) sources)).countP
      (fun t => (0 : UInt64) ≤ t ∧ t.toNat ≤ (0 : UInt64).toNat + 3600) ≤ 1 := by
  intro key calls sources
  have hstay : Undisplaced .sample key .new calls := by decide +kernel
  have hcounts : registrations.Along (fun l call => ¬registrationDisplaces "v" l call)
      (.withMax 1) sources := by decide +kernel
  obtain ⟨hsignIns, hregistrations⟩ := limits_hold .sample key "v" 1
  obtain ⟨hfirst, hlater⟩ := (hsignIns .new calls rfl (by decide) hstay).1
    (List.replicate 5 (guess 0)) (guess 1) _ rfl rfl (by decide +kernel)
  exact ⟨hstay, hfirst, hlater [guess 1, ⟨"", 2, "s", "u", ""⟩] (guess 60) [] rfl rfl
    (by decide +kernel), hcounts, hregistrations sources (by decide) hcounts 0⟩

/-! ### A flood that clears a block -/

namespace Flooded

open Accounts Directory

/-- A sign-in of another tenant, a second later. -/
def attempt (n : Nat) : SignIn := ⟨"", 1, "f", String.ofList (List.replicate n 'x'), ""⟩

/-- Six sign-ins of the account, and as many of the other tenant as keys are remembered. -/
def calls : List SignIn :=
  List.replicate 6 (guess 0) ++ (List.range RateLimiter.maxKeys).map attempt

/-- A registration of another source, a second later. -/
def other (n : Nat) : String × UInt64 := (String.ofList (List.replicate n 'x'), 1)

/-- A registration of one source, and of as many others as are remembered. -/
def sources : List (String × UInt64) :=
  ("v", 0) :: (List.range RegistrationLimiter.maxKeys).map other

variable {stamps : Stamps} {n : Nat}

theorem key_attempt (n : Nat) :
    ((attempt n).key .sample).toList = 'f' :: '\x00' :: List.replicate n 'x' := by
  simp [attempt, SignIn.key, ratelimitKey, Platform.sample]

/-- The account with its five failures, and the keys of the other tenant. -/
def signInFlood : Flood 60 1 where
  victim := (guess 0).key .sample
  times := [0, 0, 0, 0, 0]
  intruder n := (attempt n).key .sample
  counts := rfl
  older := by decide
  injective i j h := by
    have hlengths := congrArg (fun key => key.toList.length) h
    simpa only [key_attempt, List.length_cons, List.length_replicate,
      Nat.add_right_cancel_iff] using hlengths
  ne_victim n h := by
    have hheads := congrArg (fun key => key.toList.head?) h
    rw [key_attempt] at hheads
    cases hheads

/-- The source with its registration, and the other sources. -/
def registrationFlood : Flood 3600 1 where
  victim := "v"
  times := [0]
  intruder n := (other n).1
  counts := rfl
  older := by decide
  injective i j h := by
    have hlengths := congrArg (fun key => key.toList.length) h
    simpa [other] using hlengths
  ne_victim n h := by
    have hmem : 'v' ∈ (other n).1.toList := by rw [h]; decide
    rw [other, String.toList_ofList] at hmem
    exact absurd (List.eq_of_mem_replicate hmem) (by decide)

/-! #### The sign-ins -/

/-- A sign-in of an unknown tenant that is not blocked fails, with or without a check. -/
theorem signIns_of_unknown {X : Platform} {a : Store} {call : SignIn}
    (htenant : call.tenant ∉ a.tenants)
    (hfree : a.limiter.isBlocked (call.key X) call.now = false) :
    signIns X a call = ({ a with limiter := a.limiter.recordFailure (call.key X) call.now },
      .error (if a.limiter.tenantIsFlooded (tenantKeyStart call.tenant) call.now then .rateLimited
        else .unknownTenant)) := by
  have hunknown : a.authenticateUser X call.tenant call.identifier call.password =
      .error .unknownTenant := by
    rw [Store.authenticateUser, Result.refuseIf, if_pos htenant]
    rfl
  rw [signIns, Store.signInAt]
  rw [SignIn.key] at hfree ⊢
  rw [hfree, if_neg Bool.false_ne_true, hunknown]
  split <;> rfl

/-- A store without tenants, with what the limiter remembers. -/
def store (stamps : Stamps) : Store := { Store.new with limiter := ⟨stamps, 5, 60⟩ }

/-- A key that is not remembered is not blocked. -/
theorem isBlocked_store {key : String} {now : UInt64} (h : stamps.lookup key = none) :
    (store stamps).limiter.isBlocked key now = false := by
  rw [RateLimiter.isBlocked, RateLimiter.recentFailures, recent,
    show (store stamps).limiter.failures = stamps from rfl, h]
  rfl

theorem signIns_guesses : ∃ stamps, stamps.entries = signInFlood.entries 0 ∧
    (signIns .sample).run .new (List.replicate 6 (guess 0)) = store stamps :=
  ⟨_, by decide +kernel, rfl⟩

theorem signIns_attempt (h : stamps.entries = signInFlood.entries n) :
    (signIns .sample (store stamps) (attempt n)).1 =
      store (record RateLimiter.maxKeys 60 stamps (signInFlood.intruder n) 1) := by
  rw [signIns_of_unknown (AList.notMem_empty _) (isBlocked_store (Flood.intruder_fresh h))]
  rfl

theorem signIns_attempts (hn : n < RateLimiter.maxKeys) : ∃ stamps,
    stamps.entries = signInFlood.entries n ∧ (signIns .sample).run .new
      (List.replicate 6 (guess 0) ++ (List.range n).map attempt) = store stamps := by
  induction n with
  | zero => simpa using signIns_guesses
  | succ n ih =>
    obtain ⟨stamps, hentries, hrun⟩ := ih (Nat.lt_of_succ_lt hn)
    refine ⟨_, Flood.record_intruder hentries hn, ?_⟩
    rw [List.range_succ, List.map_append, ← List.append_assoc, Machine.run_append, hrun]
    exact signIns_attempt hentries

/-- Once as many keys of the other tenant are remembered as can be, the account is checked again. -/
theorem guess_checked (hn : n + 1 = RateLimiter.maxKeys) :
    (signIns .sample ((signIns .sample).run .new
      (List.replicate 6 (guess 0) ++ (List.range (n + 1)).map attempt)) (guess 1)).2 =
        .error .unknownTenant := by
  obtain ⟨stamps, hentries, hrun⟩ := signIns_attempts (Nat.lt_of_succ_le hn.le)
  rw [List.range_succ, List.map_append, ← List.append_assoc, Machine.run_append, hrun,
    List.map_singleton, Machine.run_cons, Machine.run_nil, signIns_attempt hentries]
  have hvictim := Flood.lookup_victim hentries hn.ge
  have hothers : ∀ key times, (record RateLimiter.maxKeys 60 stamps (signInFlood.intruder n)
      1).lookup key = some times → key.toList.head? = some 'f' := by
    intro key times hlookup
    obtain ⟨i, rfl⟩ := Flood.record_last hentries hn.ge hlookup
    exact congrArg List.head? (key_attempt i)
  generalize record RateLimiter.maxKeys 60 stamps (signInFlood.intruder n) 1 = last
    at hothers hvictim
  have hflooded : (store last).limiter.tenantIsFlooded (tenantKeyStart "t") 1 = false := by
    have hnone : (store last).limiter.failures.entries.filter (fun entry =>
        (tenantKeyStart "t").toList <+: entry.1.toList) = [] := by
      refine List.filter_eq_nil_iff.mpr fun entry hentry hstart => ?_
      have hhead := hothers _ _ (AList.mem_lookup_iff.mpr hentry)
      obtain ⟨rest, hrest⟩ := of_decide_eq_true hstart
      rw [← hrest] at hhead
      cases hhead
    rw [RateLimiter.tenantIsFlooded, hnone]
    rfl
  have hfree : (store last).limiter.isBlocked ((guess 1).key .sample) 1 = false :=
    isBlocked_store hvictim
  rw [signIns_of_unknown (AList.notMem_empty _) hfree]
  show Except.error (if (store last).limiter.tenantIsFlooded (tenantKeyStart "t") 1 = true then
    AuthError.rateLimited else AuthError.unknownTenant) = _
  rw [hflooded]
  rfl

/-! #### The registrations -/

/-- A limiter that allows one registration, with what it remembers. -/
def limiter (stamps : Stamps) : RegistrationLimiter := ⟨stamps, 1, 3600⟩

/-- The registration of a source that is not remembered is recorded. -/
theorem registrations_of_fresh {source : String} {now : UInt64} (h : stamps.lookup source = none) :
    registrations (limiter stamps) (source, now) =
      (limiter (record RegistrationLimiter.maxKeys 3600 stamps source now), false) := by
  have hnone : recent (limiter stamps).window (limiter stamps).seen source now = [] := by
    rw [recent, show (limiter stamps).seen = stamps from rfl, h]
    rfl
  rw [registrations, RegistrationLimiter.overLimitAt, hnone]
  rfl

theorem registrations_others (hn : n < RegistrationLimiter.maxKeys) : ∃ stamps,
    stamps.entries = registrationFlood.entries n ∧
      registrations.run (.withMax 1) (("v", 0) :: (List.range n).map other) = limiter stamps := by
  induction n with
  | zero => exact ⟨_, rfl, rfl⟩
  | succ n ih =>
    obtain ⟨stamps, hentries, hrun⟩ := ih (Nat.lt_of_succ_lt hn)
    refine ⟨_, Flood.record_intruder hentries hn, ?_⟩
    rw [List.range_succ, List.map_append, ← List.cons_append, Machine.run_append, hrun]
    exact congrArg Prod.fst (registrations_of_fresh (Flood.intruder_fresh hentries))

/-- Once as many other sources are remembered as can be, the source registers again. -/
theorem registered_again (hn : n + 1 = RegistrationLimiter.maxKeys) :
    (registrations (registrations.run (.withMax 1) (("v", 0) :: (List.range (n + 1)).map other))
      ("v", 1)).2 = false := by
  obtain ⟨stamps, hentries, hrun⟩ := registrations_others (Nat.lt_of_succ_le hn.le)
  rw [List.range_succ, List.map_append, ← List.cons_append, Machine.run_append, hrun]
  have hlast : registrations.run (limiter stamps) ([n].map other) =
      limiter (record RegistrationLimiter.maxKeys 3600 stamps (registrationFlood.intruder n) 1) :=
    congrArg Prod.fst (registrations_of_fresh (Flood.intruder_fresh hentries))
  rw [hlast]
  exact congrArg Prod.snd (registrations_of_fresh (Flood.lookup_victim hentries hn.ge))

/-- The registrations of other sources are not of the source. -/
theorem accepted_others (n : Nat) (l : RegistrationLimiter) :
    accepted "v" (registrations.log l ((List.range n).map other)) = [] := by
  rw [accepted, List.map_eq_nil_iff, List.filter_eq_nil_iff]
  rintro ⟨call, limited⟩ hentry
  have hmem := List.mem_map_of_mem (f := Prod.fst) hentry
  rw [Machine.map_fst_log, List.mem_map] at hmem
  obtain ⟨i, -, rfl⟩ := hmem
  simp [show (other i).1 ≠ "v" from registrationFlood.ne_victim i]

theorem accepted_sources (hn : n + 1 = RegistrationLimiter.maxKeys) :
    accepted "v" (registrations.log (.withMax 1)
      (("v", 0) :: (List.range (n + 1)).map other ++ [("v", 1)])) = [0, 1] := by
  have hlast : registrations.log (registrations.run (.withMax 1)
      (("v", 0) :: (List.range (n + 1)).map other)) [("v", 1)] = [(("v", 1), false)] := by
    rw [Machine.log_cons, registered_again hn, Machine.log_nil]
  rw [Machine.log_append, hlast, accepted_append, Machine.log_cons, ← List.singleton_append,
    accepted_append, accepted_others]
  rfl

/-! #### The clock -/

theorem pairwise_times (m n : Nat) :
    (List.replicate m (0 : UInt64) ++ List.replicate n 1 ++ [1]).Pairwise (· ≤ ·) := by
  rw [List.append_assoc, ← List.replicate_succ', List.pairwise_append]
  refine ⟨List.pairwise_replicate.mpr (.inr (by decide)), List.pairwise_replicate.mpr
    (.inr (by decide)), fun t ht t' ht' => ?_⟩
  rw [List.eq_of_mem_replicate ht, List.eq_of_mem_replicate ht']
  decide

theorem pairwise_now (n : Nat) :
    ((List.replicate 6 (guess 0) ++ (List.range n).map attempt ++ [guess 1]).map
      SignIn.now).Pairwise (· ≤ ·) := by
  have hones : ((List.range n).map attempt).map SignIn.now = List.replicate n 1 := by
    rw [List.map_map]
    exact List.eq_replicate_iff.mpr ⟨by simp, by simp [attempt]⟩
  rw [List.map_append, List.map_append, hones]
  exact pairwise_times 6 n

theorem pairwise_sources (n : Nat) :
    ((("v", 0) :: (List.range n).map other ++ [("v", 1)]).map Prod.snd).Pairwise (· ≤ ·) := by
  have hones : ((List.range n).map other).map Prod.snd = List.replicate n 1 := by
    rw [List.map_map]
    exact List.eq_replicate_iff.mpr ⟨by simp, by simp [other]⟩
  rw [List.map_append, List.map_cons, hones]
  exact pairwise_times 1 n

end Flooded

/-- Five failures block an account, and a second later sign-ins of another tenant have cleared the
block: the next one is checked. Likewise a source that may register once an hour registers again a
second later, after registrations of other sources. -/
theorem flood_clears_block :
    (((Flooded.calls ++ [guess 1]).map SignIn.now).Pairwise (· ≤ ·) ∧
    Blocking (failures .sample ((guess 0).key .sample)
      ((signIns .sample).log .new (List.replicate 5 (guess 0)))) 1 ∧
    (signIns .sample ((signIns .sample).run .new (List.replicate 5 (guess 0)))
      (guess 0)).2 = .error .rateLimited ∧
    (signIns .sample ((signIns .sample).run .new Flooded.calls) (guess 1)).2 =
      .error .unknownTenant) ∧
    ((Flooded.sources ++ [("v", 1)]).map Prod.snd).Pairwise (· ≤ ·) ∧
    accepted "v" (registrations.log (Directory.RegistrationLimiter.withMax 1)
      (Flooded.sources ++ [("v", 1)])) = [0, 1] :=
  ⟨⟨Flooded.pairwise_now _, by decide +kernel, by decide +kernel, Flooded.guess_checked rfl⟩,
    Flooded.pairwise_sources _, Flooded.accepted_sources rfl⟩

end Tacenta.Server
