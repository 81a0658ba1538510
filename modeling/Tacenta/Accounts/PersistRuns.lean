import Tacenta.Accounts.InventoryBackends
import Tacenta.Accounts.PersistRows
import Tacenta.Accounts.StoreInvariant

/-!
# Snapshots of reachable account stores

Every operation keeps the records of the store consistent with each other, so that a snapshot of any
store that operations lead to restores it. New tenants are under new identifiers, and labels are not
empty.

## Main definitions

* `Store.after`: the operations, as a machine.
* `AccountCall.Fresh`: what is known of the arguments of an operation.
* `Rows.Uncut`: how the prefixes of a snapshot are refused.

## Main results

* `Store.Restorable.perform`: the operations keep the store restorable.
* `Store.snapshots_lossless`: a snapshot restores the store, and no proper prefix of it is restored.
* `Store.not_restored_beyond_limits`: what is not limited may not be snapshotted or restored.
-/

open ByteString Result

namespace Tacenta.Accounts

variable {κ : Type} {X : Platform} {C : CoreRules κ}

/-- The tenant is new, and the label is not empty. -/
def AccountCall.Fresh (a : Store) : AccountCall → Prop
  | .signUpTenant id .. => id ∉ a.tenants
  | .createApiKey _ _ _ label => label ≠ some ""
  | _ => True

namespace Store

variable {a a' : Store}

/-- The operations, as a machine. -/
def after (X : Platform) (C : CoreRules κ) : Machine Store AccountCall Unit := fun a call =>
  ((a.perform X C call).1, ())

theorem Vouches.mono {account : Account} {inventory : DeviceInventory}
    (h : a.Vouches X C account inventory) (husers : account ∈ a.users → account ∈ a'.users)
    (htenants : ∀ id record, a.tenants.lookup id = some record →
      a'.tenants.lookup id = some record) :
    a'.Vouches X C account inventory := by
  obtain ⟨huser, handle, hhandle, hencodes⟩ := h
  obtain ⟨record, hrecord, hname⟩ := Option.map_eq_some_iff.mp hhandle
  refine ⟨husers huser, handle, ?_, hencodes⟩
  rw [Store.handle, htenants _ _ hrecord, Option.map_some, hname]

namespace Restorable

theorem new : Restorable X C .new where
  tenants := Table.all_empty
  tenantByUsername name id := by simp [Store.new]
  tenantByEmail name id := by simp [Store.new]
  apiKeys := Table.all_empty
  users := Table.all_empty
  sessions := Table.all_empty
  deviceInventories := Table.all_empty
  inventoryMutations := Table.all_empty
  inventoryLifecycleMutations := Table.all_empty

theorem settle {ε α : Type} {x : Except ε (Store × α)} (h : a.Restorable X C)
    (hok : ∀ a' r, x = .ok (a', r) → a'.Restorable X C) : (a.settle x).1.Restorable X C := by
  cases x with
  | error e => exact h
  | ok x => exact hok x.1 x.2 rfl

/-! ### Accounts -/

theorem signUpTenant (h : a.Restorable X C) {id apiKey salt now username email password r}
    (hid : id ∉ a.tenants)
    (hok : a.signUpTenant X id apiKey salt now username email password = .ok (a', r)) :
    a'.Restorable X C := by
  simp only [Store.signUpTenant, bind_eq_ok, refuseIf_eq_ok, pure_eq_ok, Prod.mk.injEq] at hok
  obtain ⟨name, -, address, -, _, -, _, hname, _, haddress, rfl, -⟩ := hok
  have htenants (id' : TenantId) (record : TenantRecord)
      (hrecord : a.tenants.lookup id' = some record) :
      (a.tenants.insert id ⟨id, name, address, X.hashPassword salt password⟩).lookup id' =
        some record := by
    rw [AList.lookup_insert_ne, hrecord]
    rintro rfl
    rw [AList.lookup_eq_none.mpr hid] at hrecord
    cases hrecord
  have hmem {id' : TenantId} (hid' : id' ∈ a.tenants) :
      id' ∈ a.tenants.insert id ⟨id, name, address, X.hashPassword salt password⟩ :=
    (AList.mem_insert _).mpr (.inr hid')
  exact {
    tenants := h.tenants.insert rfl
    tenantByUsername := h.tenantByUsername.insert hid hname
    tenantByEmail := h.tenantByEmail.insert hid haddress
    apiKeys := (h.apiKeys.mono fun _ _ hkey => ⟨hmem hkey.1, hkey.2⟩).insert
      ⟨(AList.mem_insert _).mpr (.inl rfl), by simp⟩
    users := h.users.mono fun _ _ huser => ⟨huser.1, hmem huser.2⟩
    sessions := h.sessions
    deviceInventories := h.deviceInventories.mono fun _ _ hheld =>
      ⟨hheld.1.mono (fun hu => hu) htenants, hheld.2⟩
    inventoryMutations := h.inventoryMutations.mono fun _ _ hheld =>
      ⟨⟨hheld.1.1.mono (fun hu => hu) htenants, hheld.1.2⟩, hheld.2⟩
    inventoryLifecycleMutations := h.inventoryLifecycleMutations.mono fun _ _ hheld =>
      ⟨⟨hheld.1.1.mono (fun hu => hu) htenants, hheld.1.2⟩, hheld.2⟩ }

theorem createApiKey (h : a.Restorable X C) {apiKey now tenant label r} (hlabel : label ≠ some "")
    (hok : a.createApiKey X apiKey now tenant label = .ok (a', r)) : a'.Restorable X C := by
  simp only [Store.createApiKey, bind_eq_ok, refuseIf_eq_ok, pure_eq_ok, Prod.mk.injEq,
    not_not] at hok
  obtain ⟨_, htenant, rfl, -⟩ := hok
  exact { h with apiKeys := h.apiKeys.insert ⟨htenant, hlabel⟩ }

theorem signUpUser (h : a.Restorable X C) {salt tenant username password r}
    (hok : a.signUpUser X salt tenant username password = .ok (a', r)) : a'.Restorable X C := by
  simp only [Store.signUpUser, bind_eq_ok, refuseIf_eq_ok, pure_eq_ok, Prod.mk.injEq,
    not_not] at hok
  obtain ⟨_, htenant, name, -, _, -, _, -, rfl, -⟩ := hok
  have hmem {account : Account} (haccount : account ∈ a.users) :
      account ∈ a.users.insert (tenant, name) ⟨tenant, name, X.hashPassword salt password⟩ :=
    (AList.mem_insert _).mpr (.inr haccount)
  exact { h with
    users := h.users.insert ⟨rfl, htenant⟩
    sessions := h.sessions.mono fun _ _ hsession => hmem hsession
    deviceInventories := h.deviceInventories.mono fun _ _ hheld =>
      ⟨hheld.1.mono hmem fun _ _ hrecord => hrecord, hheld.2⟩
    inventoryMutations := h.inventoryMutations.mono fun _ _ hheld =>
      ⟨⟨hheld.1.1.mono hmem fun _ _ hrecord => hrecord, hheld.1.2⟩, hheld.2⟩
    inventoryLifecycleMutations := h.inventoryLifecycleMutations.mono fun _ _ hheld =>
      ⟨⟨hheld.1.1.mono hmem fun _ _ hrecord => hrecord, hheld.1.2⟩, hheld.2⟩ }

theorem signInAt (h : a.Restorable X C) (token : String) (now : UInt64) (tenant : TenantId)
    (identifier password : String) :
    (a.signInAt X token now tenant identifier password).1.Restorable X C := by
  rw [Store.signInAt]
  split
  · exact h
  split
  · exact { h with }
  split
  · next user huser =>
    obtain ⟨record, hrecord, -, rfl⟩ := authenticateUser_eq_ok huser
    have haccount : (record.tenant, record.username) = (tenant, X.normalize identifier) :=
      (h.users _ record hrecord).1
    have hmem : (record.tenant, record.username) ∈ a.users :=
      haccount ▸ AList.lookup_isSome.mp (by rw [hrecord]; rfl)
    exact { h with sessions := h.sessions.insert hmem }
  · exact { h with }

/-! ### Inventories -/

variable {account : Account} {handle : String} {next : DeviceInventory}

theorem length_revoked_le (h : a.Restorable X C) (account : Account) :
    ((a.deviceInventories.lookup account).getD .default).revoked.length ≤
      C.maxRecentRevocations := by
  cases hlookup : a.deviceInventories.lookup account with
  | none => exact Nat.zero_le _
  | some inventory => exact (h.deviceInventories account inventory hlookup).2.2

variable (hlimit : ∀ handle i, C.encodes handle i = true → i.active.length ≤ C.maxActiveBindings)
include hlimit

theorem transition (h : a.Restorable X C) {request : Request} (huser : account ∈ a.users)
    (hhandle : a.handle X account.1 account.2 = some handle)
    (hnext : request.transition C.toLifecycleRules handle
      ((a.deviceInventories.lookup account).getD .default) = .ok next) :
    (a.Vouches X C account next ∧ Limited C next) ∧
      request.predecessorGeneration < next.generation := by
  have hadvances := Request.transition_advances hnext
  have hencodes := Request.encodes_of_transition hnext
  refine ⟨⟨⟨huser, handle, hhandle, hencodes⟩, hlimit handle next hencodes, ?_⟩, ?_⟩
  · exact hadvances.length_revoked.trans (max_le (h.length_revoked_le account) (Nat.le_refl _))
  · rw [← hadvances.generation_eq, Word64.lt_iff, hadvances.generation_succ]
    exact Nat.lt_succ_self _

theorem linkDeviceBinding (h : a.Restorable X C) {tenant username predecessor key binding r}
    (hok : a.linkDeviceBinding X C tenant username predecessor key binding = .ok (a', r)) :
    a'.Restorable X C := by
  simp only [Store.linkDeviceBinding, bind_eq_ok, refuseIf_eq_ok, not_not] at hok
  obtain ⟨_, huser, _, hunused, hok⟩ := hok
  split at hok
  · simp only [bind_eq_ok, pure_eq_ok, Prod.mk.injEq] at hok
    obtain ⟨_, -, rfl, -⟩ := hok
    exact h
  · simp only [bind_eq_ok, pure_eq_ok, orRefuse_eq_ok, Prod.mk.injEq] at hok
    obtain ⟨handle, hhandle, next, hnext, rfl, -⟩ := hok
    have hlink : (Request.link predecessor binding).transition C.toLifecycleRules handle
        ((a.deviceInventories.lookup (tenant, X.normalize username)).getD .default) =
          .ok next := hnext
    obtain ⟨hheld, hlt⟩ := h.transition hlimit huser hhandle hlink
    exact { h with
      deviceInventories := h.deviceInventories.insert hheld
      inventoryMutations := h.inventoryMutations.insert ⟨hheld, hlt⟩
      inventoryLifecycleMutations := fun id mutation hid => by
        obtain ⟨hheld, hlt, hnew⟩ := h.inventoryLifecycleMutations id mutation hid
        refine ⟨hheld, hlt, fun hmem => ?_⟩
        rcases (AList.mem_insert _).mp hmem with rfl | hmem
        · rw [AList.lookup_eq_none.mpr hunused] at hid
          cases hid
        · exact hnew hmem }

theorem applyLifecycleMutation (h : a.Restorable X C) {tenant username key request r}
    (hok : a.applyLifecycleMutation X C tenant username key request = .ok (a', r)) :
    a'.Restorable X C := by
  simp only [Store.applyLifecycleMutation, bind_eq_ok, refuseIf_eq_ok, not_not] at hok
  obtain ⟨_, huser, _, hunused, hok⟩ := hok
  split at hok
  · simp only [bind_eq_ok, pure_eq_ok, Prod.mk.injEq] at hok
    obtain ⟨_, -, rfl, -⟩ := hok
    exact h
  · simp only [bind_eq_ok, pure_eq_ok, orRefuse_eq_ok, Prod.mk.injEq] at hok
    obtain ⟨handle, hhandle, next, hnext, rfl, -⟩ := hok
    rw [LifecycleRequest.transition_eq] at hnext
    obtain ⟨hheld, hlt⟩ := h.transition hlimit huser hhandle hnext
    have hpredecessor : request.toRequest.predecessorGeneration =
        request.predecessorGeneration := by
      cases request <;> rfl
    exact { h with
      deviceInventories := h.deviceInventories.insert hheld
      inventoryLifecycleMutations :=
        h.inventoryLifecycleMutations.insert ⟨hheld, hpredecessor ▸ hlt, hunused⟩ }

/-- The operations keep the store restorable. -/
theorem perform (h : a.Restorable X C) {call : AccountCall} (hfresh : call.Fresh a) :
    (a.perform X C call).1.Restorable X C := by
  cases call with
  | signUpTenant => exact h.settle fun _ _ hok => h.signUpTenant hfresh hok
  | createApiKey => exact h.settle fun _ _ hok => h.createApiKey hfresh hok
  | revokeApiKey => exact { h with apiKeys := h.apiKeys.retain _ }
  | signUpUser => exact h.settle fun _ _ hok => h.signUpUser hok
  | signInAt => exact h.signInAt ..
  | revokeSession => exact { h with sessions := h.sessions.erase _ }
  | revokeUserSessions => exact { h with sessions := h.sessions.retain _ }
  | sweepExpiredSessionsAt => exact { h with sessions := h.sessions.retain _ }
  | validateSessionAt | handle | deviceInventory => exact h
  | linkDeviceBinding => exact h.settle fun _ _ hok => h.linkDeviceBinding hlimit hok
  | revokeDeviceBinding => exact h.settle fun _ _ hok => h.applyLifecycleMutation hlimit hok
  | replaceDeviceBinding => exact h.settle fun _ _ hok => h.applyLifecycleMutation hlimit hok

end Restorable

theorem restorable_run (hlimit : ∀ handle i, C.encodes handle i = true →
      i.active.length ≤ C.maxActiveBindings) {calls : List AccountCall}
    (hfresh : Machine.Along (after X C) (fun a call => call.Fresh a) .new calls) :
    (Machine.run (after X C) .new calls).Restorable X C :=
  Machine.run_invariant _ (fun _ _ h hcall => h.perform hlimit hcall) Restorable.new hfresh

end Store

/-! ### Snapshots of reachable stores -/

/-- A proper prefix of the snapshot is malformed, or truncated after the section at whose end it
ends. -/
def Rows.Uncut (X : Platform) (C : CoreRules κ) (rows : Rows) (headed : Bool) : Prop :=
  ∀ q, q <+: rows.layout headed → q ≠ rows.layout headed →
    (Store.tryRestore X C q = .error .malformed ∨
        ∃ last, Store.tryRestore X C q = .error (.truncated last)) ∧
      ∀ last, Store.tryRestore X C q = .error (.truncated last) ↔
        EndsAfter rows.part (parts headed) last q

namespace Rows

variable {rows : Rows} {b : Bytes} {a : Store}

theorem isPrefixOf_layout_true : snapshotHeader.isPrefixOf (rows.layout true) = true :=
  List.isPrefixOf_iff_prefix.mpr (List.prefix_append _ _)

/-- No number of tenants looks like the start of the header, but the largest one. -/
theorem isPrefixOf_layout_false (h : (rows .tenants).length < 2 ^ 32 - 1) :
    snapshotHeader.isPrefixOf (rows.layout false) = false := by
  rw [← Bool.not_eq_true, List.isPrefixOf_iff_prefix]
  rintro ⟨rest, hrest⟩
  have hcount : u32Bytes (rows .tenants).length.toUInt32 = u32Bytes 0xffffffff := by
    have htake := congrArg (List.take 4) hrest.symm
    rw [layout_false, sections, accountSections, List.cons_append, List.flatMap_cons, sectionBytes,
      List.append_assoc, List.take_append_of_le_length (length_u32Bytes _).ge,
      List.take_of_length_le (length_u32Bytes _).le] at htake
    exact htake
  have heq := congrArg UInt32.toNat (Reader.eq_of_append_eq
    (fun _ _ _ => Reader.run_takeU32_eq_ok (e := ())) (congrArg (· ++ ([] : Bytes)) hcount)).1
  rw [toNat_toUInt32_of_lt (h.trans (by decide))] at heq
  exact absurd heq h.ne

theorem Accepted.headless (h : rows.Accepted X C true) : rows.Accepted X C false where
  written t ht := h.written t
    (List.mem_append_left deviceSections (List.append_nil accountSections ▸ ht))
  admitted := by
    obtain ⟨htenants, hkeys, husers, hsessions, -⟩ := h.admitted
    exact ⟨htenants, hkeys, husers, hsessions, trivial⟩

/-- A snapshot that is restored cannot be cut. -/
theorem Of.uncut (hrows : rows.Of C b) (h : Store.tryRestore X C b = .ok a) :
    rows.Uncut X C (snapshotHeader.isPrefixOf b) := fun _ hq hne =>
  Store.tryRestore_cut (hrows.accepted h).1 (by rw [← hrows.layout]) hq hne

end Rows

namespace Store

/-- A snapshot of a store that operations lead to restores it, in any order of the records, and no
proper prefix of it is restored; nor is one of any other snapshot that is restored, with or without
the header. -/
theorem snapshots_lossless (hlimit : ∀ handle i, C.encodes handle i = true →
      i.active.length ≤ C.maxActiveBindings) (calls : List AccountCall)
    (hfresh : Machine.Along (after X C) (fun a call => call.Fresh a) .new calls) :
    let a := Machine.run (after X C) .new calls
    (∀ rows : Rows, rows.Lists a → (∀ t, (rows t).length < 2 ^ 32 - 1) →
      (∀ t, ∀ record ∈ rows t, TextsFit t record) →
        (∃ b a', rows.snapshot = .ok b ∧ b = rows.layout true ∧ tryRestore X C b = .ok a' ∧
          a.Same a') ∧
        (∃ a', tryRestore X C (rows.layout false) = .ok a') ∧
        ∀ headed, rows.Uncut X C headed) ∧
    ∀ b a' (rows : Rows), tryRestore X C b = .ok a' → rows.Of C b →
      rows.Uncut X C (snapshotHeader.isPrefixOf b) := by
  intro a
  have hrestorable : a.Restorable X C := restorable_run hlimit hfresh
  refine ⟨fun rows hlists hlength hfit => ?_, fun b a' rows h hrows => hrows.uncut h⟩
  have hlt (t : SnapshotSection) : (rows t).length < 2 ^ 32 := (hlength t).trans (by decide)
  have hheadless := Rows.isPrefixOf_layout_false (hlength .tenants)
  have haccepted := hrestorable.accepted hlists hlt hfit
  obtain ⟨hsnapshot, a', hrestored, hsame⟩ := hrestorable.tryRestore_snapshot hlists hlt hfit
  refine ⟨⟨_, a', hsnapshot, rfl, hrestored, hsame⟩, ⟨rows.restored false, ?_⟩, fun headed => ?_⟩
  · rw [tryRestore_eq_ok, hheadless]
    exact ⟨rows, haccepted.headless, rfl, rfl⟩
  · cases headed with
    | true => exact fun _ => tryRestore_cut haccepted Rows.isPrefixOf_layout_true
    | false => exact fun _ => tryRestore_cut haccepted.headless hheadless

/-- A tenant and a user sign up. -/
def firstCalls : List AccountCall :=
  [.signUpTenant "t" "k" [] 0 "acme" "a@b.c" "password", .signUpUser [] "t" "alice" "password"]

/-- The store of a tenant and a user. -/
theorem snapshots_lossless_sample :
    let a := Machine.run (after Platform.sample CoreRules.sample) .new firstCalls
    (a.rows .users).length = 1 ∧ ∃ b a', a.rows.snapshot = .ok b ∧
      tryRestore Platform.sample CoreRules.sample b = .ok a' ∧ a.Same a' := by
  intro a
  refine ⟨rfl, ?_⟩
  have h := (snapshots_lossless (C := CoreRules.sample) (X := Platform.sample)
    (fun _ _ => of_decide_eq_true) firstCalls ⟨AList.notMem_empty "t", trivial, trivial⟩).1 a.rows
    a.lists_rows
    (fun t => by cases t <;> decide +kernel) (fun t => by cases t <;> decide +kernel)
  obtain ⟨⟨b, a', hsnapshot, -, hrestored, hsame⟩, -⟩ := h
  exact ⟨b, a', hsnapshot, hrestored, hsame⟩

/-- A tenant signs up and makes an API key with a label. -/
def labelCalls (label : String) : List AccountCall :=
  [.signUpTenant "t" "k" [] 0 "acme" "a@b.c" "password", .createApiKey "l" 0 "t" (some label)]

/-- Rules that accept every inventory, also one with more bindings than are restored. -/
def unlimited : CoreRules Unit :=
  { CoreRules.sample with
    maxActiveBindings := 1
    maxActiveBindings_lt := by decide
    encodes := fun _ _ => true }

/-- The user links two devices. -/
def linkCalls : List AccountCall :=
  firstCalls ++ [.linkDeviceBinding "t" "alice" 0 (.replicate 32 7) ⟨1, .replicate 32 1, 0, none⟩,
    .linkDeviceBinding "t" "alice" 1 (.replicate 32 8) ⟨2, .replicate 32 2, 0, none⟩]

/-- The store after the two links. -/
def linkedStore : Store := Machine.run (after Platform.sample unlimited) .new linkCalls

theorem tryRestore_of_unlimited : ∃ b, linkedStore.rows.snapshot = .ok b ∧
    (tryRestore Platform.sample unlimited b).map (fun _ => ()) = .error .malformed :=
  ⟨linkedStore.rows.snapshot.toOption.getD [], by decide +kernel, by decide +kernel⟩

/-- Beyond the limits. A label of `2 ^ 32` bytes is accepted, but there is no snapshot of the store
then. An inventory with too many bindings is accepted by rules that accept every one, but the
snapshot of the store is not restored then. -/
theorem not_restored_beyond_limits :
    (∃ label, label ≠ "" ∧
      let a := Machine.run (after Platform.sample CoreRules.sample) .new (labelCalls label)
      Machine.Along (after Platform.sample CoreRules.sample) (fun a call => call.Fresh a) .new
        (labelCalls label) ∧
      a.apiKeys.entries.length = 2 ∧ ∀ b, a.rows.snapshot ≠ .ok b) ∧
    Machine.Along (after Platform.sample unlimited) (fun a call => call.Fresh a) .new linkCalls ∧
      ∃ b, linkedStore.rows.snapshot = .ok b ∧
        (tryRestore Platform.sample unlimited b).map (fun _ => ()) = .error .malformed := by
  refine ⟨⟨String.ofList (List.replicate (2 ^ 32) 'a'), ?_⟩,
    ⟨AList.notMem_empty "t", trivial, trivial, trivial, trivial⟩, tryRestore_of_unlimited⟩
  have hlength := length_utf8Bytes_replicate (2 ^ 32)
  generalize String.ofList (List.replicate (2 ^ 32) 'a') = label at hlength
  have hlabel : label ≠ "" := by
    rintro rfl
    cases hlength
  refine ⟨hlabel, ⟨AList.notMem_empty "t", fun h => hlabel (Option.some_inj.mp h), trivial⟩, rfl,
    fun b hsnapshot => ?_⟩
  obtain ⟨hfit, -⟩ := Rows.snapshot_eq_ok_iff.mp hsnapshot
  have hkeys := hfit .apiKeys (by decide) (.replicate 32 108, ⟨"t", "l", some label, 0⟩)
    List.mem_cons_self
  have hfits : StrFits label := hkeys label (by simp [texts])
  exact absurd hlength (Nat.ne_of_lt hfits)

end Store

end Tacenta.Accounts
