import Tacenta.Accounts.PersistCodec

/-!
# What a snapshot restores

The store that is restored has the records of the snapshot, each under its key. It is complete if no
key of a section, and no username or email of a tenant, is repeated. A store whose records are
consistent with each other is restored from any listing of its records.

## Main definitions

* `Store.Same`: two stores hold the same, except for the failed sign-ins.
* `Store.Restorable`: what the records of a store have to satisfy.
* `Rows.Distinct`: the keys of the records are distinct.

## Main results

* `Store.Restorable.accepted`: a restorable store is restored from any listing of its records.
* `Store.restored_complete_iff`: a restored store is complete if and only if the keys are distinct.
-/

open ByteString Result

namespace Tacenta.Accounts

variable {κ : Type} {X : Platform} {C : CoreRules κ}

/-! ### The restored store -/

/-- The key of a user. -/
def UserRecord.account (record : UserRecord) : Account := (record.tenant, record.username)

/-- The store with the records, each under its key. -/
def Rows.store (rows : Rows) : Store where
  tenants := Table.insertAll TenantRecord.id id ∅ (rows .tenants)
  tenantByUsername := Table.insertAll TenantRecord.username TenantRecord.id ∅ (rows .tenants)
  tenantByEmail := Table.insertAll TenantRecord.email TenantRecord.id ∅ (rows .tenants)
  apiKeys := Table.insertAll Prod.fst Prod.snd ∅ (rows .apiKeys)
  users := Table.insertAll UserRecord.account id ∅ (rows .users)
  deviceInventories := Table.insertAll Prod.fst Prod.snd ∅ (rows .inventories)
  inventoryMutations := Table.insertAll Prod.fst Prod.snd ∅ (rows .linkRecords)
  inventoryLifecycleMutations := Table.insertAll Prod.fst Prod.snd ∅ (rows .lifecycleRecords)
  sessions := Table.insertAll Prod.fst Prod.snd ∅ (rows .sessions)
  limiter := .default

section Tables

variable (a : Store)

theorem foldl_add_tenants (xs : List (SnapshotSection.Record .tenants)) :
    xs.foldl (Store.add .tenants) a = { a with
      tenants := a.tenants.insertAll TenantRecord.id id xs
      tenantByUsername := a.tenantByUsername.insertAll TenantRecord.username TenantRecord.id xs
      tenantByEmail := a.tenantByEmail.insertAll TenantRecord.email TenantRecord.id xs } := by
  induction xs generalizing a with
  | nil => rfl
  | cons x xs ih => exact ih _

theorem foldl_add_apiKeys (xs : List (SnapshotSection.Record .apiKeys)) :
    xs.foldl (Store.add .apiKeys) a =
      { a with apiKeys := a.apiKeys.insertAll Prod.fst Prod.snd xs } :=
  Table.foldl_insert (fun t => { a with apiKeys := t }) (fun _ _ => rfl) a.apiKeys xs

theorem foldl_add_users (xs : List (SnapshotSection.Record .users)) :
    xs.foldl (Store.add .users) a =
      { a with users := a.users.insertAll UserRecord.account id xs } :=
  Table.foldl_insert (fun t => { a with users := t }) (fun _ _ => rfl) a.users xs

theorem foldl_add_sessions (xs : List (SnapshotSection.Record .sessions)) :
    xs.foldl (Store.add .sessions) a =
      { a with sessions := a.sessions.insertAll Prod.fst Prod.snd xs } :=
  Table.foldl_insert (fun t => { a with sessions := t }) (fun _ _ => rfl) a.sessions xs

theorem foldl_add_inventories (xs : List (SnapshotSection.Record .inventories)) :
    xs.foldl (Store.add .inventories) a =
      { a with deviceInventories := a.deviceInventories.insertAll Prod.fst Prod.snd xs } :=
  Table.foldl_insert (fun t => { a with deviceInventories := t }) (fun _ _ => rfl)
    a.deviceInventories xs

theorem foldl_add_linkRecords (xs : List (SnapshotSection.Record .linkRecords)) :
    xs.foldl (Store.add .linkRecords) a =
      { a with inventoryMutations := a.inventoryMutations.insertAll Prod.fst Prod.snd xs } :=
  Table.foldl_insert (fun t => { a with inventoryMutations := t }) (fun _ _ => rfl)
    a.inventoryMutations xs

theorem foldl_add_lifecycleRecords (xs : List (SnapshotSection.Record .lifecycleRecords)) :
    xs.foldl (Store.add .lifecycleRecords) a =
      { a with inventoryLifecycleMutations :=
          a.inventoryLifecycleMutations.insertAll Prod.fst Prod.snd xs } :=
  Table.foldl_insert (fun t => { a with inventoryLifecycleMutations := t }) (fun _ _ => rfl)
    a.inventoryLifecycleMutations xs

end Tables

theorem Rows.restored_true (rows : Rows) : rows.restored true = rows.store := by
  simp only [Rows.restored, sections, accountSections, deviceSections, if_true, List.cons_append,
    List.nil_append, List.foldl_cons, List.foldl_nil]
  rw [foldl_add_tenants, foldl_add_apiKeys, foldl_add_users, foldl_add_sessions,
    foldl_add_inventories, foldl_add_linkRecords, foldl_add_lifecycleRecords]
  rfl

/-- The records are consistent with each other and with the store that they are in. -/
structure Rows.Consistent (X : Platform) (C : CoreRules κ) (rows : Rows) (a : Store) : Prop where
  apiKeys : ∀ x ∈ rows .apiKeys, x.2.tenant ∈ a.tenants
  users : ∀ x ∈ rows .users, x.tenant ∈ a.tenants
  sessions : ∀ x ∈ rows .sessions, (x.2.tenant, x.2.username) ∈ a.users
  inventories : ∀ x ∈ rows .inventories, a.Vouches X C x.1 x.2
  inventories_nodup : ((rows .inventories).map Prod.fst).Nodup
  linkRecords : ∀ x ∈ rows .linkRecords, a.Vouches X C x.1.1 x.2.result ∧
    x.2.predecessorGeneration < x.2.result.generation
  linkRecords_nodup : ((rows .linkRecords).map Prod.fst).Nodup
  lifecycleRecords : ∀ x ∈ rows .lifecycleRecords, a.Vouches X C x.1.1 x.2.result ∧
    x.2.request.predecessorGeneration < x.2.result.generation ∧ x.1 ∉ a.inventoryMutations
  lifecycleRecords_nodup : ((rows .lifecycleRecords).map Prod.fst).Nodup

namespace Store

variable {a : Store}

theorem admitted_tenants (xs : List (SnapshotSection.Record .tenants)) :
    (codec X C).Admitted .tenants a xs :=
  (Reader.along_adding_of_const (f := add .tenants) (A := Admits X C .tenants)
    fun _ _ _ => Iff.rfl).mpr fun _ _ => trivial

theorem admitted_apiKeys {xs : List (SnapshotSection.Record .apiKeys)} :
    (codec X C).Admitted .apiKeys a xs ↔ ∀ x ∈ xs, x.2.tenant ∈ a.tenants :=
  Reader.along_adding_of_const (f := add .apiKeys) (A := Admits X C .apiKeys) fun _ _ _ => Iff.rfl

theorem admitted_users {xs : List (SnapshotSection.Record .users)} :
    (codec X C).Admitted .users a xs ↔ ∀ x ∈ xs, x.tenant ∈ a.tenants :=
  Reader.along_adding_of_const (f := add .users) (A := Admits X C .users) fun _ _ _ => Iff.rfl

theorem admitted_sessions {xs : List (SnapshotSection.Record .sessions)} :
    (codec X C).Admitted .sessions a xs ↔ ∀ x ∈ xs, (x.2.tenant, x.2.username) ∈ a.users :=
  Reader.along_adding_of_const (f := add .sessions) (A := Admits X C .sessions) fun _ _ _ => Iff.rfl

theorem admitted_inventories {xs : List (SnapshotSection.Record .inventories)}
    (hempty : a.deviceInventories = ∅) :
    (codec X C).Admitted .inventories a xs ↔
      (∀ x ∈ xs, a.Vouches X C x.1 x.2) ∧ (xs.map Prod.fst).Nodup := by
  refine (Reader.along_adding_of_keys (f := add .inventories) (A := Admits X C .inventories)
    (P := fun a x => Vouches X C a x.1 x.2) Prod.fst (fun a k => k ∈ a.deviceInventories)
    (fun _ _ => Iff.rfl) (fun _ _ _ => Iff.rfl) fun _ _ _ => AList.mem_insert _).trans ?_
  simp only [hempty, AList.notMem_empty, not_false_eq_true, and_true]

theorem admitted_linkRecords {xs : List (SnapshotSection.Record .linkRecords)}
    (hempty : a.inventoryMutations = ∅) :
    (codec X C).Admitted .linkRecords a xs ↔
      (∀ x ∈ xs, a.Vouches X C x.1.1 x.2.result ∧
        x.2.predecessorGeneration < x.2.result.generation) ∧ (xs.map Prod.fst).Nodup := by
  refine (Reader.along_adding_of_keys (f := add .linkRecords) (A := Admits X C .linkRecords)
    (P := fun a x => Vouches X C a x.1.1 x.2.result ∧
      x.2.predecessorGeneration < x.2.result.generation)
    Prod.fst (fun a k => k ∈ a.inventoryMutations)
    (fun _ _ => Iff.rfl) (fun _ _ _ => Iff.rfl) fun _ _ _ => AList.mem_insert _).trans ?_
  simp only [hempty, AList.notMem_empty, not_false_eq_true, and_true]

theorem admitted_lifecycleRecords {xs : List (SnapshotSection.Record .lifecycleRecords)}
    (hempty : a.inventoryLifecycleMutations = ∅) :
    (codec X C).Admitted .lifecycleRecords a xs ↔
      (∀ x ∈ xs, a.Vouches X C x.1.1 x.2.result ∧
        x.2.request.predecessorGeneration < x.2.result.generation ∧ x.1 ∉ a.inventoryMutations) ∧
        (xs.map Prod.fst).Nodup := by
  refine (Reader.along_adding_of_keys (f := add .lifecycleRecords)
    (A := Admits X C .lifecycleRecords) (P := fun a x => Vouches X C a x.1.1 x.2.result ∧
      x.2.request.predecessorGeneration < x.2.result.generation ∧ x.1 ∉ a.inventoryMutations)
    Prod.fst (fun a k => k ∈ a.inventoryLifecycleMutations)
    (fun _ _ => Iff.rfl) (fun _ _ _ => Iff.rfl) fun _ _ _ => AList.mem_insert _).trans ?_
  simp only [hempty, AList.notMem_empty, not_false_eq_true, and_true]

end Store

theorem Rows.admitted_iff (rows : Rows) :
    (Store.codec X C).RowsAdmitted rows (sections true) .new ↔ rows.Consistent X C rows.store := by
  have haddAll (t : SnapshotSection) (a : Store) (xs : List t.Record) :
      (Store.codec X C).addAll t a xs = xs.foldl (Store.add t) a := rfl
  simp only [sections, accountSections, deviceSections, if_true, List.cons_append, List.nil_append,
    SectionFormat.Codec.RowsAdmitted, and_true, haddAll]
  rw [foldl_add_tenants, foldl_add_apiKeys, foldl_add_users, foldl_add_sessions,
    foldl_add_inventories, foldl_add_linkRecords, Store.admitted_apiKeys, Store.admitted_users,
    Store.admitted_sessions, Store.admitted_inventories rfl, Store.admitted_linkRecords rfl,
    Store.admitted_lifecycleRecords rfl]
  constructor
  · rintro ⟨-, hkeys, husers, hsessions, ⟨hinventories, hinventoriesNodup⟩, ⟨hlinks, hlinksNodup⟩,
      hlifecycles, hlifecyclesNodup⟩
    exact ⟨hkeys, husers, hsessions, hinventories, hinventoriesNodup, hlinks, hlinksNodup,
      hlifecycles, hlifecyclesNodup⟩
  · intro h
    exact ⟨Store.admitted_tenants _, h.apiKeys, h.users, h.sessions,
      ⟨h.inventories, h.inventories_nodup⟩, ⟨h.linkRecords, h.linkRecords_nodup⟩,
      h.lifecycleRecords,
      h.lifecycleRecords_nodup⟩

/-! ### Restorable stores -/

namespace Store

/-- The stores hold the same, except for the failed sign-ins. -/
structure Same (a a' : Store) : Prop where
  tenants : ∀ id, a'.tenants.lookup id = a.tenants.lookup id
  tenantByUsername : ∀ username, a'.tenantByUsername.lookup username =
    a.tenantByUsername.lookup username
  tenantByEmail : ∀ email, a'.tenantByEmail.lookup email = a.tenantByEmail.lookup email
  apiKeys : ∀ hash, a'.apiKeys.lookup hash = a.apiKeys.lookup hash
  users : ∀ account, a'.users.lookup account = a.users.lookup account
  deviceInventories : ∀ account, a'.deviceInventories.lookup account =
    a.deviceInventories.lookup account
  inventoryMutations : ∀ key, a'.inventoryMutations.lookup key = a.inventoryMutations.lookup key
  inventoryLifecycleMutations : ∀ key, a'.inventoryLifecycleMutations.lookup key =
    a.inventoryLifecycleMutations.lookup key
  sessions : ∀ hash, a'.sessions.lookup hash = a.sessions.lookup hash

/-- What the records of a store have to satisfy for a snapshot of it to be restored. -/
structure Restorable (X : Platform) (C : CoreRules κ) (a : Store) : Prop where
  tenants : a.tenants.All fun id record => record.id = id
  tenantByUsername : Table.Indexes TenantRecord.username a.tenants a.tenantByUsername
  tenantByEmail : Table.Indexes TenantRecord.email a.tenants a.tenantByEmail
  apiKeys : a.apiKeys.All fun _ record => record.tenant ∈ a.tenants ∧ record.label ≠ some ""
  users : a.users.All fun account record => record.account = account ∧ account.1 ∈ a.tenants
  sessions : a.sessions.All fun _ session => (session.tenant, session.username) ∈ a.users
  deviceInventories : a.deviceInventories.All fun account inventory =>
    a.Vouches X C account inventory ∧ Limited C inventory
  inventoryMutations : a.inventoryMutations.All fun key mutation =>
    (a.Vouches X C key.1 mutation.result ∧ Limited C mutation.result) ∧
      mutation.predecessorGeneration < mutation.result.generation
  inventoryLifecycleMutations : a.inventoryLifecycleMutations.All fun key mutation =>
    (a.Vouches X C key.1 mutation.result ∧ Limited C mutation.result) ∧
      mutation.request.predecessorGeneration < mutation.result.generation ∧
        key ∉ a.inventoryMutations

theorem Same.vouches {a a' : Store} (h : a.Same a') {account : Account}
    {inventory : DeviceInventory}
    (hv : a.Vouches X C account inventory) : a'.Vouches X C account inventory := by
  obtain ⟨huser, handle, hhandle, hencodes⟩ := hv
  refine ⟨(Table.mem_congr h.users).mpr huser, handle, ?_, hencodes⟩
  rwa [Store.handle, h.tenants]

end Store

namespace Store.Restorable

variable {a : Store} {rows : Rows}

/-- Any listing of the records makes a store that holds the same. -/
theorem same (h : a.Restorable X C) (hlists : rows.Lists a) : a.Same rows.store := by
  have hpairs {α β : Type} [DecidableEq α] {t : Table α β} {xs : List (α × β)}
      (hperm : xs.Perm t.pairs)
      (k : α) : (Table.insertAll Prod.fst Prod.snd ∅ xs).lookup k = t.lookup k :=
    (Table.lookup_insertAll_of_perm Prod.fst Prod.snd id (by rwa [List.map_id])
      fun _ _ _ => ⟨rfl, rfl⟩).2 k
  exact {
    tenants := (Table.lookup_insertAll_of_perm TenantRecord.id id Prod.snd hlists.tenants
      fun k v hk => ⟨h.tenants k v hk, rfl⟩).2
    tenantByUsername := h.tenantByUsername.lookup_insertAll h.tenants hlists.tenants
    tenantByEmail := h.tenantByEmail.lookup_insertAll h.tenants hlists.tenants
    apiKeys := hpairs hlists.apiKeys
    users := (Table.lookup_insertAll_of_perm UserRecord.account id Prod.snd hlists.users
      fun k v hk => ⟨(h.users k v hk).1, rfl⟩).2
    deviceInventories := hpairs hlists.inventories
    inventoryMutations := hpairs hlists.linkRecords
    inventoryLifecycleMutations := hpairs hlists.lifecycleRecords
    sessions := hpairs hlists.sessions }

/-- Any listing of the records is consistent. -/
theorem consistent (h : a.Restorable X C) (hlists : rows.Lists a) :
    rows.Consistent X C rows.store := by
  have hsame := h.same hlists
  exact {
    apiKeys := fun x hx => (Table.mem_congr hsame.tenants).mpr
      (h.apiKeys.of_mem hlists.apiKeys hx).1
    users := fun x hx => by
      obtain ⟨⟨account, record⟩, hpair, rfl⟩ := List.mem_map.mp (hlists.users.mem_iff.mp hx)
      obtain ⟨rfl, htenant⟩ := h.users account record (Table.mem_pairs.mp hpair)
      exact (Table.mem_congr hsame.tenants).mpr htenant
    sessions := fun x hx => (Table.mem_congr hsame.users).mpr (h.sessions.of_mem hlists.sessions hx)
    inventories := fun x hx =>
      hsame.vouches (h.deviceInventories.of_mem hlists.inventories hx).1
    inventories_nodup := Table.nodup_of_perm_pairs hlists.inventories
    linkRecords := fun x hx => by
      obtain ⟨⟨hvouches, -⟩, hlt⟩ := h.inventoryMutations.of_mem hlists.linkRecords hx
      exact ⟨hsame.vouches hvouches, hlt⟩
    linkRecords_nodup := Table.nodup_of_perm_pairs hlists.linkRecords
    lifecycleRecords := fun x hx => by
      obtain ⟨⟨hvouches, -⟩, hlt, hnew⟩ :=
        h.inventoryLifecycleMutations.of_mem hlists.lifecycleRecords hx
      exact ⟨hsame.vouches hvouches, hlt, fun hkey =>
        hnew ((Table.mem_congr hsame.inventoryMutations).mp hkey)⟩
    lifecycleRecords_nodup := Table.nodup_of_perm_pairs hlists.lifecycleRecords }

theorem readable (h : a.Restorable X C) (hlists : rows.Lists a) (t : SnapshotSection)
    (x : t.Record) (hx : x ∈ rows t) : Readable C t x := by
  cases t with
  | header | tenants | users | sessions => trivial
  | apiKeys => exact (h.apiKeys.of_mem hlists.apiKeys hx).2
  | inventories => exact (h.deviceInventories.of_mem hlists.inventories hx).2
  | linkRecords => exact (h.inventoryMutations.of_mem hlists.linkRecords hx).1.2
  | lifecycleRecords =>
    exact (h.inventoryLifecycleMutations.of_mem hlists.lifecycleRecords hx).1.2

/-- A listing of the records whose texts fit is accepted. -/
theorem accepted (h : a.Restorable X C) (hlists : rows.Lists a)
    (hlength : ∀ t, (rows t).length < 2 ^ 32) (hfit : ∀ t, ∀ x ∈ rows t, TextsFit t x) :
    rows.Accepted X C true where
  written t _ := ⟨hlength t, fun x hx => ⟨hfit t x hx, h.readable hlists t x hx⟩⟩
  admitted := rows.admitted_iff.mpr (h.consistent hlists)

/-- The snapshot of a listing of the records is restored to a store that holds the same. -/
theorem tryRestore_snapshot (h : a.Restorable X C) (hlists : rows.Lists a)
    (hlength : ∀ t, (rows t).length < 2 ^ 32) (hfit : ∀ t, ∀ x ∈ rows t, TextsFit t x) :
    rows.snapshot = .ok (rows.layout true) ∧
      ∃ a', tryRestore X C (rows.layout true) = .ok a' ∧ a.Same a' := by
  have hheaded : snapshotHeader.isPrefixOf (rows.layout true) = true :=
    List.isPrefixOf_iff_prefix.mpr (List.prefix_append _ _)
  refine ⟨Rows.snapshot_eq_ok_iff.mpr ⟨fun t _ => hfit t, rfl⟩, rows.store,
    tryRestore_eq_ok.mpr ⟨rows, ?_⟩, h.same hlists⟩
  rw [hheaded, Rows.restored_true]
  exact ⟨h.accepted hlists hlength hfit, rfl, rfl⟩

end Store.Restorable

/-! ### Complete snapshots -/

/-- No key of a record is repeated within its section, and no two tenants share a username or an
email. -/
structure Rows.Distinct (rows : Rows) : Prop where
  tenants : ((rows .tenants).map TenantRecord.id).Nodup
  usernames : ((rows .tenants).map TenantRecord.username).Nodup
  emails : ((rows .tenants).map TenantRecord.email).Nodup
  apiKeys : ((rows .apiKeys).map Prod.fst).Nodup
  users : ((rows .users).map UserRecord.account).Nodup
  sessions : ((rows .sessions).map Prod.fst).Nodup

/-- The records of a snapshot with these bytes. -/
structure Rows.Of (C : CoreRules κ) (rows : Rows) (b : Bytes) : Prop where
  layout : b = rows.layout (snapshotHeader.isPrefixOf b)
  shaped : snapshotHeader.isPrefixOf b = false → ∀ t ∈ deviceSections, rows t = []
  length_lt : ∀ t, (rows t).length < 2 ^ 32
  valid : ∀ t, ∀ record ∈ rows t, TextsFit t record ∧ Readable C t record

namespace Rows

variable {rows rows' : Rows} {headed : Bool} {b : Bytes} {a : Store}

theorem sections_true_eq : sections true = sections false ++ deviceSections := rfl

theorem exists_of (h : Store.tryRestore X C b = .ok a) : ∃ rows : Rows, rows.Of C b := by
  obtain ⟨rows, haccepted, hlayout, -⟩ := Store.tryRestore_eq_ok.mp h
  generalize hheaded : snapshotHeader.isPrefixOf b = headed at haccepted hlayout
  -- the sections that the snapshot does not have are without records
  let only : Rows := fun t => if t ∈ sections headed then rows t else []
  have honly : ∀ t ∈ sections headed, rows t = only t := fun t ht => (if_pos ht).symm
  have hrest : ∀ t ∉ sections headed, only t = [] := fun t ht => if_neg ht
  have hwritten (t : SnapshotSection) : (Store.codec X C).Written t (only t) := by
    by_cases ht : t ∈ sections headed
    · exact honly t ht ▸ haccepted.written t ht
    · rw [hrest t ht]
      exact ⟨by simp, fun _ h => absurd h List.not_mem_nil⟩
  refine ⟨only, ?_, fun hfalse t ht => hrest t ?_, fun t => (hwritten t).length_lt,
    fun t => (hwritten t).valid⟩
  · rw [hheaded, hlayout]
    cases headed with
    | true =>
      rw [layout_true, layout_true]
      exact congrArg (snapshotHeader ++ ·)
        (SectionFormat.Codec.bytes_congr (K := Store.codec X C) honly)
    | false => exact SectionFormat.Codec.bytes_congr (K := Store.codec X C) honly
  · rw [← hheaded, hfalse]
    revert t
    decide

/-- The records of a snapshot that is restored are accepted. -/
theorem Of.accepted (hrows : rows.Of C b) (h : Store.tryRestore X C b = .ok a) :
    rows.Accepted X C (snapshotHeader.isPrefixOf b) ∧
      a = rows.restored (snapshotHeader.isPrefixOf b) := by
  obtain ⟨rows', haccepted, hlayout, rfl⟩ := Store.tryRestore_eq_ok.mp h
  have hbytes := hrows.layout
  generalize snapshotHeader.isPrefixOf b = headed at haccepted hlayout hbytes ⊢
  have hcodec : (Store.codec X C).bytes rows' (sections headed) =
      (Store.codec X C).bytes rows (sections headed) := by
    rw [hlayout] at hbytes
    cases headed with
    | true => exact List.append_cancel_left hbytes
    | false => exact hbytes
  have hwritten (t : SnapshotSection) : (Store.codec X C).Written t (rows t) :=
    ⟨hrows.length_lt t, hrows.valid t⟩
  have hsame := SectionFormat.Codec.rows_eq_of_bytes_eq haccepted.written
    (fun t _ => hwritten t) hcodec
  exact ⟨⟨fun t _ => hwritten t, haccepted.admitted.congr hsame⟩,
    SectionFormat.Codec.addRows_congr (K := Store.codec X C) hsame .new⟩

/-- The records of a snapshot that is restored are consistent, and make the restored store. -/
theorem Of.restored (hrows : rows.Of C b) (h : Store.tryRestore X C b = .ok a) :
    rows.Consistent X C rows.store ∧ a = rows.store := by
  obtain ⟨haccepted, rfl⟩ := hrows.accepted h
  have hshaped := hrows.shaped
  generalize snapshotHeader.isPrefixOf b = headed at haccepted hshaped ⊢
  rw [← rows.admitted_iff, ← rows.restored_true]
  cases headed with
  | true => exact ⟨haccepted.admitted, rfl⟩
  | false =>
    refine ⟨haccepted.admitted.append_empty (hshaped rfl), ?_⟩
    rw [Rows.restored, Rows.restored, sections_true_eq, List.foldl_append]
    have hempty := hshaped rfl
    simp only [deviceSections, List.forall_mem_cons] at hempty
    obtain ⟨hinventories, hlinks, hlifecycles, -⟩ := hempty
    simp only [deviceSections, List.foldl_cons, List.foldl_nil, hinventories, hlinks, hlifecycles]

/-- Consistent records with distinct keys make a restorable store. -/
theorem Consistent.restorable (h : rows.Consistent X C rows.store) (hdistinct : rows.Distinct)
    (hreadable : ∀ t, ∀ record ∈ rows t, Readable C t record) : rows.store.Restorable X C where
  tenants := Table.all_empty.insertAll fun _ _ => rfl
  tenantByUsername := Table.indexes_insertAll hdistinct.tenants hdistinct.usernames
  tenantByEmail := Table.indexes_insertAll hdistinct.tenants hdistinct.emails
  apiKeys := Table.all_empty.insertAll fun x hx => ⟨h.apiKeys x hx, hreadable .apiKeys x hx⟩
  users := Table.all_empty.insertAll fun x hx => ⟨rfl, h.users x hx⟩
  sessions := Table.all_empty.insertAll h.sessions
  deviceInventories := Table.all_empty.insertAll fun x hx =>
    ⟨h.inventories x hx, hreadable .inventories x hx⟩
  inventoryMutations := Table.all_empty.insertAll fun x hx =>
    ⟨⟨(h.linkRecords x hx).1, hreadable .linkRecords x hx⟩, (h.linkRecords x hx).2⟩
  inventoryLifecycleMutations := Table.all_empty.insertAll fun x hx =>
    ⟨⟨(h.lifecycleRecords x hx).1, hreadable .lifecycleRecords x hx⟩, (h.lifecycleRecords x hx).2⟩

/-- A listing of the store that the records make has the same records. -/
theorem Consistent.perm_of_lists (h : rows.Consistent X C rows.store) (hdistinct : rows.Distinct)
    (hlists : rows'.Lists rows.store) (t : SnapshotSection) : (rows' t).Perm (rows t) := by
  have hpairs {α β : Type} [DecidableEq α] {xs ys : List (α × β)} (hnodup : (xs.map Prod.fst).Nodup)
      (hperm : ys.Perm (Table.insertAll Prod.fst Prod.snd ∅ xs).pairs) : ys.Perm xs := by
    have hrows := hperm.trans (Table.pairs_insertAll_perm hnodup)
    rwa [List.map_id'] at hrows
  have hvalues {α β : Type} [DecidableEq α] {key : β → α} {xs ys : List β}
      (hnodup : (xs.map key).Nodup)
      (hperm : ys.Perm ((Table.insertAll key id ∅ xs).pairs.map Prod.snd)) : ys.Perm xs := by
    have hrows := hperm.trans ((Table.pairs_insertAll_perm hnodup).map Prod.snd)
    rw [List.map_map] at hrows
    exact hrows.trans (.of_eq (List.map_id xs))
  cases t with
  | header =>
    have hnone (xs : List Empty) : xs = [] := List.eq_nil_iff_forall_not_mem.mpr fun x => x.elim
    rw [hnone (rows' .header), hnone (rows .header)]
  | tenants => exact hvalues hdistinct.tenants hlists.tenants
  | apiKeys => exact hpairs hdistinct.apiKeys hlists.apiKeys
  | users => exact hvalues hdistinct.users hlists.users
  | sessions => exact hpairs hdistinct.sessions hlists.sessions
  | inventories => exact hpairs h.inventories_nodup hlists.inventories
  | linkRecords => exact hpairs h.linkRecords_nodup hlists.linkRecords
  | lifecycleRecords => exact hpairs h.lifecycleRecords_nodup hlists.lifecycleRecords

theorem length_layout_of_perm (h : ∀ t, (rows' t).Perm (rows t)) :
    (rows'.layout true).length = (rows.layout true).length := by
  have hsection (t : SnapshotSection) :
      (rows'.sectionBytes t).length = (rows.sectionBytes t).length := by
    rw [sectionBytes, sectionBytes, List.length_append, List.length_append, length_u32Bytes,
      length_u32Bytes, ((h t).flatMap_right _).length_eq]
  rw [layout_true, layout_true, List.length_append, List.length_append, List.length_flatMap,
    List.length_flatMap]
  simp only [hsection]

end Rows

namespace Store

/-- The restored store has the records of the snapshot, its indexes are exact, and a snapshot of it
has the same length and restores the same again. -/
structure Complete (X : Platform) (C : CoreRules κ) (b : Bytes) (rows : Rows) (a : Store) :
    Prop where
  tenants : a.tenants.entries.length = (rows .tenants).length
  apiKeys : a.apiKeys.entries.length = (rows .apiKeys).length
  users : a.users.entries.length = (rows .users).length
  sessions : a.sessions.entries.length = (rows .sessions).length
  inventories : a.deviceInventories.entries.length = (rows .inventories).length
  linkRecords : a.inventoryMutations.entries.length = (rows .linkRecords).length
  lifecycleRecords : a.inventoryLifecycleMutations.entries.length = (rows .lifecycleRecords).length
  usernames : a.tenantByUsername.entries.length = a.tenants.entries.length ∧
    a.tenants.All fun id record => a.tenantByUsername.lookup record.username = some id
  emails : a.tenantByEmail.entries.length = a.tenants.entries.length ∧
    a.tenants.All fun id record => a.tenantByEmail.lookup record.email = some id
  again : snapshotHeader.isPrefixOf b = true → ∀ rows' : Rows, rows'.Lists a →
    ∃ b' a', rows'.snapshot = .ok b' ∧ b'.length = b.length ∧ tryRestore X C b' = .ok a' ∧ a.Same a'

theorem Complete.distinct {b : Bytes} {rows : Rows} (h : Complete X C b rows rows.store) :
    rows.Distinct where
  tenants := Table.length_insertAll_eq_iff.mp h.tenants
  usernames := Table.length_insertAll_eq_iff.mp (h.usernames.1.trans h.tenants)
  emails := Table.length_insertAll_eq_iff.mp (h.emails.1.trans h.tenants)
  apiKeys := Table.length_insertAll_eq_iff.mp h.apiKeys
  users := Table.length_insertAll_eq_iff.mp h.users
  sessions := Table.length_insertAll_eq_iff.mp h.sessions

theorem complete_of_distinct {b : Bytes} {rows : Rows} (hrows : rows.Of C b)
    (hconsistent : rows.Consistent X C rows.store) (h : rows.Distinct) :
    Complete X C b rows rows.store := by
  have hrestorable := hconsistent.restorable h fun t x hx => (hrows.valid t x hx).2
  have htenants : rows.store.tenants.entries.length = (rows .tenants).length :=
    Table.length_insertAll_eq_iff.mpr h.tenants
  refine ⟨htenants, Table.length_insertAll_eq_iff.mpr h.apiKeys,
    Table.length_insertAll_eq_iff.mpr h.users, Table.length_insertAll_eq_iff.mpr h.sessions,
    Table.length_insertAll_eq_iff.mpr hconsistent.inventories_nodup,
    Table.length_insertAll_eq_iff.mpr hconsistent.linkRecords_nodup,
    Table.length_insertAll_eq_iff.mpr hconsistent.lifecycleRecords_nodup,
    ⟨(Table.length_insertAll_eq_iff.mpr h.usernames).trans htenants.symm, fun id record hrecord =>
      (hrestorable.tenantByUsername _ id).mpr ⟨record, hrecord, rfl⟩⟩,
    ⟨(Table.length_insertAll_eq_iff.mpr h.emails).trans htenants.symm, fun id record hrecord =>
      (hrestorable.tenantByEmail _ id).mpr ⟨record, hrecord, rfl⟩⟩, fun hheaded rows' hlists => ?_⟩
  have hperm := hconsistent.perm_of_lists h hlists
  obtain ⟨hsnapshot, a', hrestored, hsame⟩ := hrestorable.tryRestore_snapshot hlists
    (fun t => (hperm t).length_eq ▸ hrows.length_lt t)
    fun t x hx => (hrows.valid t x ((hperm t).mem_iff.mp hx)).1
  refine ⟨_, a', hsnapshot, ?_, hrestored, hsame⟩
  rw [Rows.length_layout_of_perm hperm, hrows.layout, hheaded]

/-- A restored store is complete if and only if no key, no username and no email is repeated. -/
theorem restored_complete_iff {b : Bytes} {a : Store} (h : tryRestore X C b = .ok a) :
    (∃ rows : Rows, rows.Of C b) ∧
      ∀ rows : Rows, rows.Of C b → (Complete X C b rows a ↔ rows.Distinct) := by
  refine ⟨Rows.exists_of h, fun rows hrows => ?_⟩
  obtain ⟨hconsistent, rfl⟩ := hrows.restored h
  exact ⟨Complete.distinct, complete_of_distinct hrows hconsistent⟩

/-- Two tenants with one username. -/
def sharedUsername : Rows
  | .header => []
  | .tenants => [⟨"a", "n", "e", "h"⟩, ⟨"b", "n", "f", "h"⟩]
  | .apiKeys => []
  | .users => []
  | .sessions => []
  | .inventories => []
  | .linkRecords => []
  | .lifecycleRecords => []

/-- Two tenants, with a key and a user of one of them and the user's session. -/
def twoTenants : Rows
  | .header => []
  | .tenants => [⟨"a", "m", "e", "h"⟩, ⟨"b", "n", "f", "h"⟩]
  | .apiKeys => [(.replicate 32 1, ⟨"a", "k", some "l", 0⟩)]
  | .users => [⟨"a", "u", "h"⟩]
  | .sessions => [(.replicate 32 2, ⟨"a", "u", 7⟩)]
  | .inventories => []
  | .linkRecords => []
  | .lifecycleRecords => []

theorem twoTenants_of : twoTenants.Of CoreRules.sample (twoTenants.layout true) where
  layout := rfl
  shaped h := by cases h
  length_lt t := by cases t <;> decide
  valid t := by cases t <;> decide

theorem sharedUsername_of : sharedUsername.Of CoreRules.sample (sharedUsername.layout false) where
  layout := rfl
  shaped _ := by decide
  length_lt t := by cases t <;> decide
  valid t := by cases t <;> decide

set_option maxRecDepth 4000 in
/-- Records with distinct keys, usernames and emails are restored completely, and those of two
tenants with one username are not. -/
theorem restored_complete_iff_sample :
    (∃ a, tryRestore Platform.sample CoreRules.sample (twoTenants.layout true) = .ok a ∧
      Complete Platform.sample CoreRules.sample (twoTenants.layout true) twoTenants a) ∧
    ∃ a, tryRestore Platform.sample CoreRules.sample (sharedUsername.layout false) = .ok a ∧
      ¬Complete Platform.sample CoreRules.sample (sharedUsername.layout false) sharedUsername
        a := by
  have htwo : tryRestore Platform.sample CoreRules.sample (twoTenants.layout true) =
      .ok (twoTenants.restored true) := rfl
  have hshared : tryRestore Platform.sample CoreRules.sample (sharedUsername.layout false) =
      .ok (sharedUsername.restored false) := rfl
  refine ⟨⟨_, htwo, ?_⟩, _, hshared, fun h => ?_⟩
  · refine ((restored_complete_iff htwo).2 twoTenants twoTenants_of).mpr ?_
    constructor <;> decide
  · have hdistinct := ((restored_complete_iff hshared).2 sharedUsername sharedUsername_of).mp h
    exact absurd hdistinct.usernames (by decide)

/-- A snapshot with two tenants of one username is restored, and one of them has no entry in the
index. -/
theorem restored_of_shared_username :
    ∃ a, tryRestore Platform.sample CoreRules.sample (sharedUsername.layout false) = .ok a ∧
      a.tenants.entries.length = 2 ∧ a.tenantByUsername.entries.length = 1 ∧
        a.tenantByUsername.lookup "n" = some "b" :=
  ⟨sharedUsername.restored false, rfl, rfl, rfl, rfl⟩

end Store

end Tacenta.Accounts
