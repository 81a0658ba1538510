import Tacenta.Accounts.Store

/-!
# What operations of the account store change

Each operation changes one thing: it signs up a tenant or a user, issues a session, replaces the
inventory of an account by one of the next generation, or does none of these, where sessions may
end. From that follow the invariants of the store and what is never taken back: the name of a tenant
is its own for good, so a handle is the handle of one account for good, and the inventory of an
account only changes to a higher generation.

## Main definitions

* `Store.Changes`: everything that an operation can change.
* `Store.Sound`: the invariants of the store.
* `Store.Grows`: what a later store kept of an earlier one, and `OneHistory`: the stores of a run.

## Main results

* `Store.perform_changes`, `Store.Sound.changes`, `Store.Changes.grows`.
* `OneHistory.account_of_handle`: a handle is of one account.
-/

open ByteString Result

namespace Tacenta.Accounts

variable {κ : Type} {X : Platform} {C : CoreRules κ}

/-- The characters of a username, none of which is the separator of a handle. -/
def PlainName (s : String) : Prop := ∀ c ∈ s.toList, c ≠ '/'

theorem normalizeUsername_eq_ok {s u : String} (h : normalizeUsername X s = .ok u) :
    u = X.normalize s ∧ PlainName u := by
  simp only [normalizeUsername, refuseIf_bind_eq_ok, pure_eq_ok, not_not] at h
  obtain ⟨⟨-, hchars⟩, rfl⟩ := h
  refine ⟨rfl, fun c hc => ?_⟩
  rintro rfl
  have := List.all_eq_true.mp hchars _ hc
  revert this
  decide

namespace Store

def inventoryOf (a : Store) (account : Account) : DeviceInventory :=
  (a.deviceInventories.lookup account).getD .default

/-- A mutation is recorded under a retry key that was not used. -/
inductive Recorded (links links' : Table (Account × IdempotencyKey) InventoryMutation)
    (others others' : Table (Account × IdempotencyKey) LifecycleMutation) (account : Account)
    (next : DeviceInventory) : Prop where
  | link {key predecessor binding} (hnew : (account, key) ∉ links)
    (hunused : (account, key) ∉ others)
    (hlinks : links' = links.insert (account, key) ⟨predecessor, binding, next⟩)
    (hothers : others' = others)
  | lifecycle {key request} (hunused : (account, key) ∉ links) (hlinks : links' = links)
    (hothers : others' = others.insert (account, key) ⟨request, next⟩)

/-- The operation is a sign-in with the password of a user, and issues this session. -/
def IssuedBy (X : Platform) (a : Store) (i : AccountCall) (hash : FixedBytes 32)
    (session : Session) : Prop :=
  ∃ token now tenant identifier password record,
    i = .signInAt token now tenant identifier password ∧ hash = X.sha256 (utf8Bytes token) ∧
      a.users.lookup (tenant, X.normalize identifier) = some record ∧
        X.verifyPassword password record.passwordHash = true ∧
          (a.signInAt X token now tenant identifier password).2 =
            .ok (⟨record.tenant, record.username⟩, token) ∧
          session = ⟨record.tenant, record.username, Word64.saturatingAdd now sessionTtlSecs⟩

/-- Everything that an operation can change, part by part. -/
structure Changes (X : Platform) (a : Store) (i : AccountCall) (a' : Store) : Prop where
  tenants : a'.tenants = a.tenants ∧ a'.tenantByUsername = a.tenantByUsername ∨
    ∃ id username email hash, PlainName username ∧ a.tenantByUsername.lookup username = none ∧
      a'.tenants = a.tenants.insert id ⟨id, username, email, hash⟩ ∧
        a'.tenantByUsername = a.tenantByUsername.insert username id
  users : a'.users = a.users ∨
    ∃ tenant username hash, tenant ∈ a.tenants ∧ PlainName username ∧
      X.normalize username = username ∧
        a'.users = a.users.insert (tenant, username) ⟨tenant, username, hash⟩
  sessions : ∀ hash session, a'.sessions.lookup hash = some session →
    a.sessions.lookup hash = some session ∨ IssuedBy X a i hash session
  inventories : a'.deviceInventories = a.deviceInventories ∧
      a'.inventoryMutations = a.inventoryMutations ∧
        a'.inventoryLifecycleMutations = a.inventoryLifecycleMutations ∨
    ∃ account next, account ∈ a.users ∧ (a.inventoryOf account).generation < next.generation ∧
      a'.deviceInventories = a.deviceInventories.insert account next ∧
        Recorded a.inventoryMutations a'.inventoryMutations a.inventoryLifecycleMutations
          a'.inventoryLifecycleMutations account next

theorem Changes.refl (X : Platform) (a : Store) (i : AccountCall) : Changes X a i a :=
  ⟨.inl ⟨rfl, rfl⟩, .inl rfl, fun _ _ h => .inl h, .inl ⟨rfl, rfl, rfl⟩⟩

/-- An operation that may be refused changes what it changes when it is not. -/
theorem changes_settle {a : Store} {i : AccountCall} {ε α : Type} {x : Except ε (Store × α)}
    (h : ∀ a' r, x = .ok (a', r) → Changes X a i a') : Changes X a i (a.settle x).1 := by
  cases x with
  | error e => exact .refl X a _
  | ok x => exact h x.1 x.2 rfl

theorem signUpTenant_changes {a a' : Store} {i : AccountCall}
    {id apiKey salt now username email password r}
    (h : a.signUpTenant X id apiKey salt now username email password = .ok (a', r)) :
    Changes X a i a' := by
  simp only [signUpTenant, bind_eq_ok, refuseIf_eq_ok, pure_eq_ok, Prod.mk.injEq] at h
  obtain ⟨name, hname, email, -, _, -, _, hnew, _, -, rfl, -⟩ := h
  exact { Changes.refl X a _ with
    tenants := .inr ⟨id, name, email, _, (normalizeUsername_eq_ok hname).2,
      AList.lookup_eq_none.mpr hnew, rfl, rfl⟩ }

theorem signUpUser_changes {a a' : Store} {i : AccountCall} {salt tenant username password r}
    (h : a.signUpUser X salt tenant username password = .ok (a', r)) : Changes X a i a' := by
  simp only [signUpUser, bind_eq_ok, refuseIf_eq_ok, pure_eq_ok, Prod.mk.injEq, not_not] at h
  obtain ⟨_, htenant, name, hname, _, -, _, -, rfl, -⟩ := h
  obtain ⟨rfl, hplain⟩ := normalizeUsername_eq_ok hname
  exact { Changes.refl X a _ with
    users := .inr ⟨tenant, _, _, htenant, hplain, X.normalize_normalize _, rfl⟩ }

theorem createApiKey_changes {a a' : Store} {i : AccountCall} {apiKey now tenant label r}
    (h : a.createApiKey X apiKey now tenant label = .ok (a', r)) : Changes X a i a' := by
  simp only [createApiKey, bind_eq_ok, pure_eq_ok, Prod.mk.injEq] at h
  obtain ⟨_, -, rfl, -⟩ := h
  exact { Changes.refl X a _ with }

theorem authenticateUser_eq_ok {a : Store} {tenant username password user}
    (h : a.authenticateUser X tenant username password = .ok user) :
    ∃ record, a.users.lookup (tenant, X.normalize username) = some record ∧
      X.verifyPassword password record.passwordHash = true ∧
        user = ⟨record.tenant, record.username⟩ := by
  simp only [authenticateUser, bind_eq_ok, refuseIf_eq_ok, orRefuse_eq_ok, pure_eq_ok,
    Bool.not_eq_false] at h
  obtain ⟨_, -, record, hrecord, _, hpassword, rfl⟩ := h
  exact ⟨record, hrecord, hpassword, rfl⟩

theorem signInAt_changes (a : Store) (token : String) (now : UInt64) (tenant : TenantId)
    (identifier password : String) :
    Changes X a (.signInAt token now tenant identifier password)
      (a.signInAt X token now tenant identifier password).1 := by
  generalize hx : a.signInAt X token now tenant identifier password = x
  have hanswer : (a.signInAt X token now tenant identifier password).2 = x.2 := congrArg Prod.snd hx
  rw [signInAt] at hx
  subst x
  split
  · exact .refl X a _
  split
  · exact { Changes.refl X a _ with }
  split
  · next hblocked hflooded _ user huser =>
    rw [if_neg hblocked, if_neg hflooded, huser] at hanswer
    obtain ⟨record, hrecord, hpassword, rfl⟩ := authenticateUser_eq_ok huser
    refine { Changes.refl X a (.signInAt token now tenant identifier password) with
      sessions := fun hash session hs => ?_ }
    rw [Table.lookup_insert_eq] at hs
    split at hs
    · next hhash =>
      exact .inr ⟨token, now, tenant, identifier, password, record, rfl, hhash, hrecord, hpassword,
        hanswer, (Option.some_inj.mp hs).symm⟩
    · exact .inl hs
  · exact { Changes.refl X a _ with }

theorem lt_of_advances {predecessor : UInt64} {current next : DeviceInventory}
    (h : Advances C.toLifecycleRules predecessor current next) :
    current.generation < next.generation := by
  rw [Word64.lt_iff, h.generation_succ]
  exact Nat.lt_succ_self _

theorem linkDeviceBinding_changes {a a' : Store} {i : AccountCall}
    {tenant username predecessor key binding r}
    (h : a.linkDeviceBinding X C tenant username predecessor key binding = .ok (a', r)) :
    Changes X a i a' := by
  simp only [linkDeviceBinding, bind_eq_ok, refuseIf_eq_ok, not_not] at h
  obtain ⟨_, huser, _, hunused, h⟩ := h
  split at h
  · simp only [bind_eq_ok, pure_eq_ok, Prod.mk.injEq] at h
    obtain ⟨_, -, rfl, -⟩ := h
    exact .refl X a _
  · next hnew =>
    simp only [bind_eq_ok, pure_eq_ok, Prod.mk.injEq] at h
    obtain ⟨_, -, next, hnext, rfl, -⟩ := h
    exact { Changes.refl X a _ with
      inventories := .inr ⟨_, next, huser, lt_of_advances (linkInventory_advances hnext), rfl,
        .link (AList.lookup_eq_none.mp hnew) hunused rfl rfl⟩ }

theorem lt_of_transition {handle : String} {current next : DeviceInventory}
    {request : LifecycleRequest} (h : request.transition C handle current = .ok next) :
    current.generation < next.generation := by
  cases request with
  | revoke predecessor retired => exact lt_of_advances (revokeInventory_advances h).1
  | replace predecessor retired replacement => exact lt_of_advances (replaceInventory_advances h)

theorem applyLifecycleMutation_changes {a a' : Store} {i : AccountCall}
    {tenant username key request r}
    (h : a.applyLifecycleMutation X C tenant username key request = .ok (a', r)) :
    Changes X a i a' := by
  simp only [applyLifecycleMutation, bind_eq_ok, refuseIf_eq_ok, not_not] at h
  obtain ⟨_, huser, _, hunused, h⟩ := h
  split at h
  · simp only [bind_eq_ok, pure_eq_ok, Prod.mk.injEq] at h
    obtain ⟨_, -, rfl, -⟩ := h
    exact .refl X a _
  · simp only [bind_eq_ok, pure_eq_ok, Prod.mk.injEq] at h
    obtain ⟨_, -, next, hnext, rfl, -⟩ := h
    exact { Changes.refl X a _ with
      inventories := .inr
        ⟨_, next, huser, lt_of_transition hnext, rfl, .lifecycle hunused rfl rfl⟩ }

theorem changes_of_sessions {a : Store} {i : AccountCall} {sessions : Table (FixedBytes 32) Session}
    (h : ∀ hash session, sessions.lookup hash = some session →
      a.sessions.lookup hash = some session) : Changes X a i { a with sessions } :=
  { Changes.refl X a i with sessions := fun hash session hs => .inl (h hash session hs) }

theorem perform_changes (a : Store) (i : AccountCall) : Changes X a i (a.perform X C i).1 := by
  cases i with
  | signUpTenant => exact changes_settle fun _ _ h => signUpTenant_changes h
  | createApiKey => exact changes_settle fun _ _ h => createApiKey_changes h
  | revokeApiKey => exact { Changes.refl X a _ with }
  | signUpUser => exact changes_settle fun _ _ h => signUpUser_changes h
  | signInAt => exact signInAt_changes ..
  | revokeSession token =>
    refine changes_of_sessions fun hash session h => ?_
    rw [Table.lookup_erase_eq] at h
    split at h
    · cases h
    · exact h
  | revokeUserSessions =>
    exact changes_of_sessions fun hash session h => (Table.lookup_of_lookup_retain h).1
  | sweepExpiredSessionsAt =>
    exact changes_of_sessions fun hash session h => (Table.lookup_of_lookup_retain h).1
  | validateSessionAt | handle | deviceInventory => exact .refl X a _
  | linkDeviceBinding => exact changes_settle fun _ _ h => linkDeviceBinding_changes h
  | revokeDeviceBinding => exact changes_settle fun _ _ h => applyLifecycleMutation_changes h
  | replaceDeviceBinding => exact changes_settle fun _ _ h => applyLifecycleMutation_changes h

/-! ### What is never taken back -/

/-- What a later store kept of an earlier one: the names of tenants, the tenants and users, and the
inventories, which only change to a higher generation. -/
structure Grows (a a' : Store) : Prop where
  name : ∀ username id, a.tenantByUsername.lookup username = some id →
    a'.tenantByUsername.lookup username = some id
  tenant : ∀ id, id ∈ a.tenants → id ∈ a'.tenants
  user : ∀ account, account ∈ a.users → account ∈ a'.users
  inventory : ∀ account, a'.inventoryOf account = a.inventoryOf account ∨
    (a.inventoryOf account).generation < (a'.inventoryOf account).generation
  link : ∀ key mutation, a.inventoryMutations.lookup key = some mutation →
    a'.inventoryMutations.lookup key = some mutation

/-- An inventory that was current or older is current or older later. -/
theorem later_of_later {old current current' : DeviceInventory}
    (h : current = old ∨ old.generation < current.generation)
    (h' : current' = current ∨ current.generation < current'.generation) :
    current' = old ∨ old.generation < current'.generation := by
  rcases h with rfl | h
  · exact h'
  rcases h' with rfl | h'
  · exact .inr h
  · rw [Word64.lt_iff] at h h' ⊢
    exact .inr (h.trans h')

theorem Grows.refl (a : Store) : Grows a a :=
  ⟨fun _ _ h => h, fun _ h => h, fun _ h => h, fun _ => .inl rfl, fun _ _ h => h⟩

theorem Grows.trans {a b c : Store} (hab : Grows a b) (hbc : Grows b c) : Grows a c := by
  refine ⟨fun n i h => hbc.name n i (hab.name n i h), fun i h => hbc.tenant i (hab.tenant i h),
    fun u h => hbc.user u (hab.user u h), fun account => ?_,
    fun k m h => hbc.link k m (hab.link k m h)⟩
  exact later_of_later (hab.inventory account) (hbc.inventory account)

theorem Changes.grows {a a' : Store} {i : AccountCall} (hc : Changes X a i a') : Grows a a' := by
  refine ⟨fun name id h => ?_, fun id h => ?_, fun account h => ?_, fun account => ?_,
    fun key mutation h => ?_⟩
  · rcases hc.tenants with ⟨-, hnames⟩ | ⟨id', username, _, _, -, hnew, -, hnames⟩
    · rwa [hnames]
    · rw [hnames, AList.lookup_insert_ne, h]
      rintro rfl
      rw [hnew] at h
      cases h
  · rcases hc.tenants with ⟨htenants, -⟩ | ⟨_, _, _, _, -, -, htenants, -⟩
    · rwa [htenants]
    · rw [htenants]
      exact (AList.mem_insert _).mpr (.inr h)
  · rcases hc.users with husers | ⟨_, _, _, -, -, -, husers⟩
    · rwa [husers]
    · rw [husers]
      exact (AList.mem_insert _).mpr (.inr h)
  · rcases hc.inventories with ⟨hinventories, -⟩ | ⟨account', next, -, hnext, hinventories, -⟩
    · rw [inventoryOf, inventoryOf, hinventories]
      exact .inl rfl
    · rw [inventoryOf, hinventories, Table.lookup_insert_eq]
      split
      · next h =>
        rw [h]
        exact .inr hnext
      · exact .inl rfl
  · rcases hc.inventories with ⟨-, hlinks, -⟩ | ⟨account, next, -, -, -, hrecorded⟩
    · rwa [hlinks]
    · cases hrecorded with
      | link hnew _ hlinks _ =>
        rw [hlinks, AList.lookup_insert_ne, h]
        rintro rfl
        rw [AList.lookup_eq_none.mpr hnew] at h
        cases h
      | lifecycle _ hlinks _ => rwa [hlinks]

/-! ### Invariants -/

/-- The invariants of the store. -/
structure Sound (X : Platform) (a : Store) : Prop where
  tenant_named : ∀ id record, a.tenants.lookup id = some record →
    PlainName record.username ∧ a.tenantByUsername.lookup record.username = some id
  user_record : ∀ account record, a.users.lookup account = some record →
    record.tenant = account.1 ∧ record.username = account.2
  user_normal : ∀ account, account ∈ a.users →
    PlainName account.2 ∧ X.normalize account.2 = account.2 ∧ account.1 ∈ a.tenants
  session_user : ∀ hash session, a.sessions.lookup hash = some session →
    (session.tenant, session.username) ∈ a.users
  linked : ∀ account key mutation, a.inventoryMutations.lookup (account, key) = some mutation →
    account ∈ a.users ∧ (account, key) ∉ a.inventoryLifecycleMutations ∧
      (a.inventoryOf account = mutation.result ∨
        mutation.result.generation < (a.inventoryOf account).generation)

theorem sound_new : Sound X .new := by
  constructor <;> intro _ <;> simp [new]

theorem Sound.changes {a a' : Store} {i : AccountCall} (h : Sound X a) (hc : Changes X a i a') :
    Sound X a' := by
  refine ⟨fun id record hrecord => ?_, fun account record hrecord => ?_, fun account haccount => ?_,
    fun hash session hs => hc.grows.user _ ?_, fun account key mutation hmutation => ?_⟩
  · rcases hc.tenants with ⟨htenants, hnames⟩ | ⟨id', username, _, _, hplain, -, htenants, hnames⟩
    · rw [htenants] at hrecord
      rw [hnames]
      exact h.tenant_named id record hrecord
    · rw [htenants, Table.lookup_insert_eq] at hrecord
      split at hrecord
      · next hid =>
        cases hrecord
        rw [hid, hnames, AList.lookup_insert]
        exact ⟨hplain, rfl⟩
      · obtain ⟨hplain', hname⟩ := h.tenant_named id record hrecord
        exact ⟨hplain', hc.grows.name _ _ hname⟩
  · rcases hc.users with husers | ⟨tenant, username, _, -, -, -, husers⟩
    · exact h.user_record account record (husers ▸ hrecord)
    · rw [husers, Table.lookup_insert_eq] at hrecord
      split at hrecord
      · next haccount =>
        cases hrecord
        rw [haccount]
        exact ⟨rfl, rfl⟩
      · exact h.user_record account record hrecord
  · rcases hc.users with husers | ⟨tenant, username, _, htenant, hplain, hnormal, husers⟩
    · obtain ⟨hplain, hnormal, htenant⟩ := h.user_normal account (husers ▸ haccount)
      exact ⟨hplain, hnormal, hc.grows.tenant _ htenant⟩
    · rw [husers, AList.mem_insert] at haccount
      rcases haccount with rfl | haccount
      · exact ⟨hplain, hnormal, hc.grows.tenant _ htenant⟩
      · obtain ⟨hplain, hnormal, htenant⟩ := h.user_normal account haccount
        exact ⟨hplain, hnormal, hc.grows.tenant _ htenant⟩
  · rcases hc.sessions hash session hs with hs | ⟨_, _, _, _, _, record, -, -, hrecord, -, -, rfl⟩
    · exact h.session_user hash session hs
    · obtain ⟨htenant, husername⟩ := h.user_record _ record hrecord
      rw [htenant, husername]
      exact AList.lookup_isSome.mp (by rw [hrecord]; rfl)
  · rcases hc.inventories with ⟨hinventories, hlinks, hothers⟩ |
      ⟨account', next, huser, hnext, hinventories, hrecorded⟩
    · rw [hlinks] at hmutation
      obtain ⟨huser, hunused, hresult⟩ := h.linked account key mutation hmutation
      rw [hothers, inventoryOf, hinventories]
      exact ⟨hc.grows.user _ huser, hunused, hresult⟩
    · have hlater := hc.grows.inventory account
      cases hrecorded with
      | @link key' predecessor binding hnew hunused hlinks hothers =>
        rw [hlinks, Table.lookup_insert_eq] at hmutation
        rw [hothers]
        split at hmutation
        · next hkey =>
          cases hmutation
          obtain ⟨rfl, rfl⟩ := Prod.mk.inj hkey
          refine ⟨hc.grows.user _ huser, hunused, .inl ?_⟩
          rw [inventoryOf, hinventories, AList.lookup_insert, Option.getD_some]
        · obtain ⟨huser, hunused, hresult⟩ := h.linked account key mutation hmutation
          exact ⟨hc.grows.user _ huser, hunused, later_of_later hresult hlater⟩
      | @lifecycle key' request hunused' hlinks hothers =>
        rw [hlinks] at hmutation
        obtain ⟨huser, hunused, hresult⟩ := h.linked account key mutation hmutation
        rw [hothers]
        refine ⟨hc.grows.user _ huser, fun hmem => ?_, later_of_later hresult hlater⟩
        rcases (AList.mem_insert _).mp hmem with hkey | hmem
        · rw [hkey, AList.lookup_eq_none.mpr hunused'] at hmutation
          cases hmutation
        · exact hunused hmem

/-! ### Inventories and retries -/

theorem deviceInventory_eq_some {a : Store} {tenant : TenantId} {username : String}
    {inventory : DeviceInventory} :
    a.deviceInventory X tenant username = some inventory ↔
      (tenant, X.normalize username) ∈ a.users ∧
        a.inventoryOf (tenant, X.normalize username) = inventory := by
  simp only [deviceInventory]
  split
  · next h => simp only [h, true_and, Option.some_inj, inventoryOf]
  · next h => simp only [h, reduceCtorEq, false_and]

/-- A retry of a completed link is answered with its result. -/
theorem linkDeviceBinding_of_recorded {a : Store} (ha : Sound X a) {tenant : TenantId}
    {username : String} {key : IdempotencyKey} {prior : InventoryMutation}
    (h : a.inventoryMutations.lookup ((tenant, X.normalize username), key) = some prior) :
    a.linkDeviceBinding X C tenant username prior.predecessorGeneration key prior.binding =
      .ok (a, prior.result) := by
  obtain ⟨huser, hunused, -⟩ := ha.linked _ _ _ h
  rw [linkDeviceBinding, refuseIf_neg (by simpa using huser), ok_bind, refuseIf_neg hunused,
    ok_bind, h]
  simp only [and_self, not_true_eq_false, refuseIf_neg, ok_bind, not_false_eq_true]
  rfl

/-! ### Handles -/

theorem append_cons_inj {α : Type} {c : α} {l l' r r' : List α} (hl : c ∉ l) (hl' : c ∉ l')
    (h : l ++ c :: r = l' ++ c :: r') : l = l' ∧ r = r' := by
  induction l generalizing l' with
  | nil =>
    cases l' with
    | nil => exact ⟨rfl, (List.cons.inj h).2⟩
    | cons d l' => exact absurd (List.cons.inj h).1 (List.ne_of_not_mem_cons hl')
  | cons d l ih =>
    cases l' with
    | nil => exact absurd (List.cons.inj h).1.symm (List.ne_of_not_mem_cons hl)
    | cons e l' =>
      obtain ⟨rfl, htail⟩ := List.cons.inj h
      obtain ⟨rfl, rfl⟩ :=
        ih (List.not_mem_of_not_mem_cons hl) (List.not_mem_of_not_mem_cons hl') htail
      exact ⟨rfl, rfl⟩

theorem eq_of_joined {s s' u u' : String} (hs : PlainName s) (hs' : PlainName s')
    (h : s ++ "/" ++ u = s' ++ "/" ++ u') : s = s' ∧ u = u' := by
  have hlist := congrArg String.toList h
  simp only [String.toList_append, List.append_assoc] at hlist
  obtain ⟨heq, heq'⟩ :=
    append_cons_inj (fun hmem => hs _ hmem rfl) (fun hmem => hs' _ hmem rfl) hlist
  exact ⟨String.toList_inj.mp heq, String.toList_inj.mp heq'⟩

/-- A handle is of one account, also when the stores are of different times. -/
theorem account_of_handle {a a' : Store} (ha : Sound X a) (ha' : Sound X a') (hgrows : Grows a a')
    {tenant tenant' : TenantId} {username username' name : String}
    (h : a.handle X tenant username = some name) (h' : a'.handle X tenant' username' = some name) :
    tenant = tenant' ∧ X.normalize username = X.normalize username' := by
  obtain ⟨record, hrecord, hname⟩ := Option.map_eq_some_iff.mp h
  obtain ⟨record', hrecord', hname'⟩ := Option.map_eq_some_iff.mp h'
  obtain ⟨hplain, hindex⟩ := ha.tenant_named tenant record hrecord
  obtain ⟨hplain', hindex'⟩ := ha'.tenant_named tenant' record' hrecord'
  obtain ⟨heq, husername⟩ := eq_of_joined hplain hplain' (hname.trans hname'.symm)
  have := hgrows.name _ _ hindex
  rw [heq, hindex', Option.some_inj] at this
  exact ⟨this.symm, husername⟩

end Store

/-! ### One history -/

variable {at_ : Nat → Store}

/-- Stores of increasing times, each of which keeps what the ones before it had. -/
structure OneHistory (X : Platform) (at_ : Nat → Store) : Prop where
  sound : ∀ t, (at_ t).Sound X
  grows : ∀ {t u}, t ≤ u → (at_ t).Grows (at_ u)

namespace OneHistory

/-- A handle is of one account at all times. -/
theorem account_of_handle (hat : OneHistory X at_) {t t' : Nat} {tenant tenant' : TenantId}
    {username username' name : String} (h : (at_ t).handle X tenant username = some name)
    (h' : (at_ t').handle X tenant' username' = some name) :
    tenant = tenant' ∧ X.normalize username = X.normalize username' := by
  rcases Nat.le_total t t' with hle | hle
  · exact Store.account_of_handle (hat.sound t) (hat.sound t') (hat.grows hle) h h'
  · obtain ⟨htenant, husername⟩ :=
      Store.account_of_handle (hat.sound t') (hat.sound t) (hat.grows hle) h' h
    exact ⟨htenant.symm, husername.symm⟩

theorem inventory_eq_of_generation (hat : OneHistory X at_) {account : Account} {t u : Nat}
    (h : ((at_ t).inventoryOf account).generation = ((at_ u).inventoryOf account).generation) :
    (at_ t).inventoryOf account = (at_ u).inventoryOf account := by
  rcases Nat.le_total t u with hle | hle
  · rcases (hat.grows hle).inventory account with heq | hlt
    · exact heq.symm
    · exact absurd hlt (by rw [h]; exact UInt64.lt_irrefl _)
  · rcases (hat.grows hle).inventory account with heq | hlt
    · exact heq
    · exact absurd hlt (by rw [h]; exact UInt64.lt_irrefl _)

theorem generation_le (hat : OneHistory X at_) (account : Account) {t u : Nat} (h : t ≤ u) :
    ((at_ t).inventoryOf account).generation ≤ ((at_ u).inventoryOf account).generation := by
  rcases (hat.grows h).inventory account with heq | hlt
  · rw [heq]
    exact UInt64.le_refl _
  · exact UInt64.le_of_lt hlt

end OneHistory

end Tacenta.Accounts
