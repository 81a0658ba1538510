import Tacenta.Accounts.Persist

/-!
# The bytes of account snapshots

The bytes of a snapshot are those of its records, section by section. A record is read back if its
texts fit, and the limits of inventories hold; an empty label is read as none. Which snapshots are
restored, and how prefixes of them are refused, is said in terms of their records.

## Main definitions

* `Rows.layout`: the bytes of a snapshot with or without the header.
* `Store.codec`: the encodings that the readers of the sections invert.

## Main results

* `Rows.snapshot_eq_ok_iff`: when a snapshot can be written, and its bytes.
* `Store.tryRestore_eq_ok`: which snapshots are restored, and to what.
* `Store.tryRestore_cut`: how proper prefixes of them are refused.
-/

open ByteString Reader Result

namespace Tacenta.Accounts

variable {κ : Type} {X : Platform} {C : CoreRules κ}

/-! ### Texts -/

/-- The bytes of a text. -/
def strBytes (s : String) : Bytes := lpBytes (utf8Bytes s)

/-- The text fits its length. -/
def StrFits (s : String) : Prop := (utf8Bytes s).length < 2 ^ 32

instance (s : String) : Decidable (StrFits s) :=
  inferInstanceAs (Decidable ((utf8Bytes s).length < 2 ^ 32))

theorem putStr_eq_ok_iff {out b : Bytes} {s : String} :
    putStr out s = .ok b ↔ StrFits s ∧ b = out ++ strBytes s := by
  rw [putStr, refuseIf_bind_eq_ok, pure_eq_ok, not_le, eq_comm]
  rfl

theorem run_takeStr_eq_ok {s rest : Bytes} {x : String} :
    takeStr.run s = .ok (x, rest) ↔ StrFits x ∧ s = strBytes x ++ rest := by
  simp only [takeStr, run_bind_eq_ok, run_takeLp_eq_ok, run_lift_eq_ok,
    orRefuse_eq_ok, ofUtf8?_eq_some]
  constructor
  · rintro ⟨_, _, ⟨hfits, rfl⟩, rfl, rfl⟩
    exact ⟨hfits, rfl⟩
  · rintro ⟨hfits, rfl⟩
    exact ⟨_, _, ⟨hfits, rfl⟩, rfl, rfl⟩

theorem exact_takeStr : takeStr.Exact () := Exact.takeLp.bind fun _ => .lift _

/-! ### Records -/

def texts : (t : SnapshotSection) → t.Record → List String
  | .header, _ => []
  | .tenants, record => [record.id, record.username, record.email, record.passwordHash]
  | .apiKeys, (_, record) => [record.tenant, record.keyStart, record.label.getD ""]
  | .users, record => [record.tenant, record.username, record.passwordHash]
  | .sessions, (_, session) => [session.tenant, session.username]
  | .inventories, (account, _) => [account.1, account.2]
  | .linkRecords, (key, _) => [key.1.1, key.1.2]
  | .lifecycleRecords, (key, _) => [key.1.1, key.1.2]

def TextsFit (t : SnapshotSection) (record : t.Record) : Prop := ∀ s ∈ texts t record, StrFits s

instance (t : SnapshotSection) (record : t.Record) : Decidable (TextsFit t record) :=
  List.decidableBAll _ (texts t record)

theorem textsFit_iff {t : SnapshotSection} {record : t.Record} :
    TextsFit t record ↔ (texts t record).Forall StrFits := List.forall_iff_forall_mem.symm

/-- The lists of an inventory are within the limits. -/
def Limited (C : CoreRules κ) (i : DeviceInventory) : Prop :=
  i.active.length ≤ C.maxActiveBindings ∧ i.revoked.length ≤ C.maxRecentRevocations

/-- What is read back of a record is what was written. -/
def Readable (C : CoreRules κ) : (t : SnapshotSection) → t.Record → Prop
  | .header, _ => True
  | .tenants, _ => True
  | .apiKeys, (_, record) => record.label ≠ some ""
  | .users, _ => True
  | .sessions, _ => True
  | .inventories, (_, inventory) => Limited C inventory
  | .linkRecords, (_, mutation) => Limited C mutation.result
  | .lifecycleRecords, (_, mutation) => Limited C mutation.result

instance (C : CoreRules κ) (i : DeviceInventory) : Decidable (Limited C i) :=
  inferInstanceAs (Decidable (_ ∧ _))

instance (C : CoreRules κ) :
    (t : SnapshotSection) → (record : t.Record) → Decidable (Readable C t record)
  | .header, _ | .tenants, _ | .users, _ | .sessions, _ => isTrue trivial
  | .apiKeys, (_, record) => inferInstanceAs (Decidable (record.label ≠ some ""))
  | .inventories, (_, inventory) => inferInstanceAs (Decidable (Limited C inventory))
  | .linkRecords, (_, mutation) => inferInstanceAs (Decidable (Limited C mutation.result))
  | .lifecycleRecords, (_, mutation) => inferInstanceAs (Decidable (Limited C mutation.result))

def encodeRecord : (t : SnapshotSection) → t.Record → Bytes
  | .header, _ => []
  | .tenants, record =>
    strBytes record.id ++ (strBytes record.username ++
      (strBytes record.email ++ strBytes record.passwordHash))
  | .apiKeys, (hash, record) =>
    hash.val ++ (strBytes record.tenant ++ (strBytes record.keyStart ++
      (strBytes (record.label.getD "") ++ u64Bytes record.createdAt)))
  | .users, record =>
    strBytes record.tenant ++ (strBytes record.username ++ strBytes record.passwordHash)
  | .sessions, (hash, session) =>
    hash.val ++ (strBytes session.tenant ++ (strBytes session.username ++
      u64Bytes session.expiresAt))
  | .inventories, (account, inventory) =>
    strBytes account.1 ++ (strBytes account.2 ++ encodeInventory inventory)
  | .linkRecords, (key, mutation) =>
    strBytes key.1.1 ++ (strBytes key.1.2 ++ (key.2.val ++
      (u64Bytes mutation.predecessorGeneration ++ (bindingBytes mutation.binding ++
        encodeInventory mutation.result))))
  | .lifecycleRecords, (key, mutation) =>
    strBytes key.1.1 ++ (strBytes key.1.2 ++ (key.2.val ++
      (lifecycleRequestBytes mutation.request ++ encodeInventory mutation.result)))

theorem putRecord_eq_ok_iff (t : SnapshotSection) (out : Bytes) (record : t.Record) (b : Bytes) :
    putRecord t out record = .ok b ↔ TextsFit t record ∧ b = out ++ encodeRecord t record := by
  cases t with
  | header => exact record.elim
  | tenants =>
    simp only [putRecord, bind_eq_ok, putStr_eq_ok_iff, textsFit_iff, texts, List.Forall,
      encodeRecord]
    constructor
    · rintro ⟨_, ⟨h1, rfl⟩, _, ⟨h2, rfl⟩, _, ⟨h3, rfl⟩, h4, rfl⟩
      exact ⟨⟨h1, h2, h3, h4⟩, by simp only [List.append_assoc]⟩
    · rintro ⟨⟨h1, h2, h3, h4⟩, rfl⟩
      exact ⟨_, ⟨h1, rfl⟩, _, ⟨h2, rfl⟩, _, ⟨h3, rfl⟩, h4, by simp only [List.append_assoc]⟩
  | apiKeys =>
    simp only [putRecord, bind_eq_ok, putStr_eq_ok_iff, pure_eq_ok, textsFit_iff, texts,
      List.Forall, encodeRecord]
    constructor
    · rintro ⟨_, ⟨h1, rfl⟩, _, ⟨h2, rfl⟩, _, ⟨h3, rfl⟩, rfl⟩
      exact ⟨⟨h1, h2, h3⟩, by simp only [List.append_assoc]⟩
    · rintro ⟨⟨h1, h2, h3⟩, rfl⟩
      exact ⟨_, ⟨h1, rfl⟩, _, ⟨h2, rfl⟩, _, ⟨h3, rfl⟩, by simp only [List.append_assoc]⟩
  | users =>
    simp only [putRecord, bind_eq_ok, putStr_eq_ok_iff, textsFit_iff, texts, List.Forall,
      encodeRecord]
    constructor
    · rintro ⟨_, ⟨h1, rfl⟩, _, ⟨h2, rfl⟩, h3, rfl⟩
      exact ⟨⟨h1, h2, h3⟩, by simp only [List.append_assoc]⟩
    · rintro ⟨⟨h1, h2, h3⟩, rfl⟩
      exact ⟨_, ⟨h1, rfl⟩, _, ⟨h2, rfl⟩, h3, by simp only [List.append_assoc]⟩
  | sessions | inventories | linkRecords | lifecycleRecords =>
    simp only [putRecord, bind_eq_ok, putStr_eq_ok_iff, pure_eq_ok, textsFit_iff, texts,
      List.Forall, encodeRecord]
    constructor
    · rintro ⟨_, ⟨h1, rfl⟩, _, ⟨h2, rfl⟩, rfl⟩
      exact ⟨⟨h1, h2⟩, by simp only [List.append_assoc]⟩
    · rintro ⟨⟨h1, h2⟩, rfl⟩
      exact ⟨_, ⟨h1, rfl⟩, _, ⟨h2, rfl⟩, by simp only [List.append_assoc]⟩

/-! ### Reading records -/

theorem run_takeAccount_eq_ok {s rest : Bytes} {account : Account} :
    takeAccount.run s = .ok (account, rest) ↔
      (StrFits account.1 ∧ StrFits account.2) ∧
        s = strBytes account.1 ++ (strBytes account.2 ++ rest) := by
  simp only [takeAccount, run_bind_eq_ok, run_takeStr_eq_ok, run_pure_eq_ok]
  constructor
  · rintro ⟨_, _, ⟨htenant, rfl⟩, _, _, ⟨husername, rfl⟩, rfl, rfl⟩
    exact ⟨⟨htenant, husername⟩, rfl⟩
  · rintro ⟨⟨htenant, husername⟩, rfl⟩
    exact ⟨_, _, ⟨htenant, rfl⟩, _, _, ⟨husername, rfl⟩, rfl, rfl⟩

theorem exact_takeAccount : takeAccount.Exact () :=
  exact_takeStr.bind fun _ => exact_takeStr.bind fun _ => .pure _

theorem run_takeInventoryField_eq_ok {s rest : Bytes} {i : DeviceInventory} :
    (takeInventoryField C).run s = .ok (i, rest) ↔ Limited C i ∧ s = encodeInventory i ++ rest := by
  have hactive : C.maxActiveBindings < 2 ^ 32 := (Nat.lt_succ_self _).trans C.maxActiveBindings_lt
  simp only [takeInventoryField, run_bind_eq_ok, run_takeU64_eq_ok,
    run_takeLimited_eq_ok hactive fun _ _ _ => run_takeBinding_eq_ok,
    run_takeLimited_eq_ok C.maxRecentRevocations_lt fun _ _ _ => run_takeRevocation_eq_ok,
    run_pure_eq_ok, encodeInventory, List.append_assoc]
  constructor
  · rintro ⟨generation, _, rfl, active, _, ⟨hactive, rfl⟩, floor, _, rfl, revoked, _,
      ⟨hrevoked, rfl⟩, rfl, rfl⟩
    exact ⟨⟨hactive, hrevoked⟩, rfl⟩
  · rintro ⟨⟨hactive, hrevoked⟩, rfl⟩
    exact ⟨_, _, rfl, _, _, ⟨hactive, rfl⟩, _, _, rfl, _, _, ⟨hrevoked, rfl⟩, rfl, rfl⟩

theorem exact_takePredecessor : takePredecessor.Exact () := by
  refine Exact.takeByte.bind fun present => ?_
  split
  · exact .pure _
  split
  · exact (Exact.takeArray _).bind fun _ => .pure _
  · exact .throw ()

theorem exact_takeBinding : takeBinding.Exact () :=
  Exact.takeU32.bind fun _ => (Exact.takeArray _).bind fun _ =>
    Exact.takeU64.bind fun _ => exact_takePredecessor.bind fun _ => .pure _

theorem exact_takeRevocation : takeRevocation.Exact () :=
  exact_takeBinding.bind fun _ => Exact.takeU64.bind fun _ => .pure _

theorem exact_takeLimited {α : Type} {p : Reader Unit α} (hp : p.Exact ()) (limit : Nat) :
    (takeLimited limit p).Exact () :=
  Exact.takeU32.bind fun _ => (Exact.lift _).bind fun _ => .many hp _

theorem exact_takeInventoryField : (takeInventoryField C).Exact () :=
  Exact.takeU64.bind fun _ => (exact_takeLimited exact_takeBinding _).bind fun _ =>
    Exact.takeU64.bind fun _ => (exact_takeLimited exact_takeRevocation _).bind fun _ =>
      .pure _

theorem run_takeLifecycleRequest_eq_ok {s rest : Bytes} {request : LifecycleRequest} :
    takeLifecycleRequest.run s = .ok (request, rest) ↔
      s = lifecycleRequestBytes request ++ rest := by
  simp only [takeLifecycleRequest, run_bind_eq_ok, run_takeByte_eq_ok,
    run_takeU64_eq_ok]
  constructor
  · rintro ⟨tag, _, rfl, predecessor, _, rfl, h⟩
    split at h
    · next htag =>
      simp only [run_bind_eq_ok, run_takeBinding_eq_ok, run_pure_eq_ok] at h
      obtain ⟨retired, _, rfl, replacement, _, rfl, rfl, rfl⟩ := h
      simp only [htag, lifecycleRequestBytes, List.cons_append, List.append_assoc]
    split at h
    · next htag =>
      simp only [run_bind_eq_ok, run_takeBinding_eq_ok, run_pure_eq_ok] at h
      obtain ⟨retired, _, rfl, rfl, rfl⟩ := h
      simp only [htag, lifecycleRequestBytes, List.cons_append, List.append_assoc]
    · cases h
  · rintro rfl
    cases request with
    | replace predecessor retired replacement =>
      refine ⟨1, _, rfl, predecessor, _, List.append_assoc _ _ _, ?_⟩
      rw [if_pos rfl]
      simp only [run_bind_eq_ok, run_takeBinding_eq_ok, run_pure_eq_ok]
      exact ⟨retired, _, List.append_assoc _ _ _, replacement, rest, rfl, rfl, rfl⟩
    | revoke predecessor retired =>
      refine ⟨2, _, rfl, predecessor, _, List.append_assoc _ _ _, ?_⟩
      rw [if_neg (by decide), if_pos rfl]
      simp only [run_bind_eq_ok, run_takeBinding_eq_ok, run_pure_eq_ok]
      exact ⟨retired, rest, rfl, rfl, rfl⟩

theorem exact_takeLifecycleRequest : takeLifecycleRequest.Exact () := by
  refine Exact.takeByte.bind fun tag => Exact.takeU64.bind fun predecessor => ?_
  split
  · exact exact_takeBinding.bind fun _ => exact_takeBinding.bind fun _ => .pure _
  split
  · exact exact_takeBinding.bind fun _ => .pure _
  · exact .throw ()

theorem label_eq_iff {label : String} {read : Option String} :
    (if label = "" then none else some label) = read ↔ read ≠ some "" ∧ label = read.getD "" := by
  by_cases h : label = ""
  · rw [if_pos h, h]
    cases read with
    | none => simp
    | some text =>
      simp only [reduceCtorEq, ne_eq, Option.some_inj, Option.getD_some, false_iff, not_and]
      exact fun hne heq => hne heq.symm
  · rw [if_neg h]
    cases read with
    | none => simpa using h
    | some text =>
      simp only [Option.some_inj, ne_eq, Option.getD_some]
      exact ⟨fun heq => ⟨heq ▸ h, heq⟩, And.right⟩

theorem run_takeRecord_eq_ok (t : SnapshotSection) (s : Bytes) (record : t.Record) (rest : Bytes) :
    (takeRecord C t).run s = .ok (record, rest) ↔
      (TextsFit t record ∧ Readable C t record) ∧ s = encodeRecord t record ++ rest := by
  cases t with
  | header => exact record.elim
  | tenants =>
    simp only [takeRecord, run_bind_eq_ok, run_takeStr_eq_ok, run_pure_eq_ok, textsFit_iff, texts,
      List.Forall, Readable, encodeRecord, List.append_assoc, and_true]
    constructor
    · rintro ⟨_, _, ⟨h1, rfl⟩, _, _, ⟨h2, rfl⟩, _, _, ⟨h3, rfl⟩, _, _, ⟨h4, rfl⟩, rfl, rfl⟩
      exact ⟨⟨h1, h2, h3, h4⟩, rfl⟩
    · rintro ⟨⟨h1, h2, h3, h4⟩, rfl⟩
      exact ⟨_, _, ⟨h1, rfl⟩, _, _, ⟨h2, rfl⟩, _, _, ⟨h3, rfl⟩, _, _, ⟨h4, rfl⟩, rfl, rfl⟩
  | apiKeys =>
    obtain ⟨hash, tenant, keyStart, label, createdAt⟩ := record
    simp only [takeRecord, run_bind_eq_ok, run_takeStr_eq_ok, run_takeArray_eq_ok,
      run_takeU64_eq_ok, run_pure_eq_ok, textsFit_iff, texts, List.Forall, Readable, encodeRecord,
      List.append_assoc, Prod.mk.injEq, ApiKeyRecord.mk.injEq, label_eq_iff]
    constructor
    · rintro ⟨_, _, rfl, _, _, ⟨h1, rfl⟩, _, _, ⟨h2, rfl⟩, _, _, ⟨h3, rfl⟩, _, _, rfl,
        ⟨rfl, rfl, rfl, ⟨hlabel, rfl⟩, rfl⟩, rfl⟩
      exact ⟨⟨⟨h1, h2, h3⟩, hlabel⟩, rfl⟩
    · rintro ⟨⟨⟨h1, h2, h3⟩, hlabel⟩, rfl⟩
      exact ⟨_, _, rfl, _, _, ⟨h1, rfl⟩, _, _, ⟨h2, rfl⟩, _, _, ⟨h3, rfl⟩, _, _, rfl,
        ⟨rfl, rfl, rfl, ⟨hlabel, rfl⟩, rfl⟩, rfl⟩
  | users =>
    simp only [takeRecord, run_bind_eq_ok, run_takeStr_eq_ok, run_pure_eq_ok, textsFit_iff, texts,
      List.Forall, Readable, encodeRecord, List.append_assoc, and_true]
    constructor
    · rintro ⟨_, _, ⟨h1, rfl⟩, _, _, ⟨h2, rfl⟩, _, _, ⟨h3, rfl⟩, rfl, rfl⟩
      exact ⟨⟨h1, h2, h3⟩, rfl⟩
    · rintro ⟨⟨h1, h2, h3⟩, rfl⟩
      exact ⟨_, _, ⟨h1, rfl⟩, _, _, ⟨h2, rfl⟩, _, _, ⟨h3, rfl⟩, rfl, rfl⟩
  | sessions =>
    simp only [takeRecord, run_bind_eq_ok, run_takeStr_eq_ok, run_takeArray_eq_ok,
      run_takeU64_eq_ok, run_pure_eq_ok, textsFit_iff, texts, List.Forall, Readable, encodeRecord,
      List.append_assoc, and_true]
    constructor
    · rintro ⟨_, _, rfl, _, _, ⟨h1, rfl⟩, _, _, ⟨h2, rfl⟩, _, _, rfl, rfl, rfl⟩
      exact ⟨⟨h1, h2⟩, rfl⟩
    · rintro ⟨⟨h1, h2⟩, rfl⟩
      exact ⟨_, _, rfl, _, _, ⟨h1, rfl⟩, _, _, ⟨h2, rfl⟩, _, _, rfl, rfl, rfl⟩
  | inventories =>
    simp only [takeRecord, run_bind_eq_ok, run_takeAccount_eq_ok, run_takeInventoryField_eq_ok,
      run_pure_eq_ok, textsFit_iff, texts, List.Forall, Readable, encodeRecord, List.append_assoc]
    constructor
    · rintro ⟨_, _, ⟨haccount, rfl⟩, _, _, ⟨hlimited, rfl⟩, rfl, rfl⟩
      exact ⟨⟨haccount, hlimited⟩, rfl⟩
    · rintro ⟨⟨haccount, hlimited⟩, rfl⟩
      exact ⟨_, _, ⟨haccount, rfl⟩, _, _, ⟨hlimited, rfl⟩, rfl, rfl⟩
  | linkRecords =>
    simp only [takeRecord, run_bind_eq_ok, run_takeAccount_eq_ok, run_takeArray_eq_ok,
      run_takeU64_eq_ok, run_takeBinding_eq_ok, run_takeInventoryField_eq_ok, run_pure_eq_ok,
      textsFit_iff, texts, List.Forall, Readable, encodeRecord, List.append_assoc]
    constructor
    · rintro ⟨_, _, ⟨haccount, rfl⟩, _, _, rfl, _, _, rfl, _, _, rfl, _, _, ⟨hlimited, rfl⟩, rfl,
        rfl⟩
      exact ⟨⟨haccount, hlimited⟩, rfl⟩
    · rintro ⟨⟨haccount, hlimited⟩, rfl⟩
      exact ⟨_, _, ⟨haccount, rfl⟩, _, _, rfl, _, _, rfl, _, _, rfl, _, _, ⟨hlimited, rfl⟩, rfl,
        rfl⟩
  | lifecycleRecords =>
    simp only [takeRecord, run_bind_eq_ok, run_takeAccount_eq_ok, run_takeArray_eq_ok,
      run_takeLifecycleRequest_eq_ok, run_takeInventoryField_eq_ok, run_pure_eq_ok, textsFit_iff,
      texts, List.Forall, Readable, encodeRecord, List.append_assoc]
    constructor
    · rintro ⟨_, _, ⟨haccount, rfl⟩, _, _, rfl, _, _, rfl, _, _, ⟨hlimited, rfl⟩, rfl, rfl⟩
      exact ⟨⟨haccount, hlimited⟩, rfl⟩
    · rintro ⟨⟨haccount, hlimited⟩, rfl⟩
      exact ⟨_, _, ⟨haccount, rfl⟩, _, _, rfl, _, _, rfl, _, _, ⟨hlimited, rfl⟩, rfl, rfl⟩

theorem exact_takeRecord (t : SnapshotSection) : (takeRecord C t).Exact () := by
  cases t with
  | header => exact .throw ()
  | tenants =>
    exact exact_takeStr.bind fun _ => exact_takeStr.bind fun _ => exact_takeStr.bind fun _ =>
      exact_takeStr.bind fun _ => .pure _
  | apiKeys =>
    exact (Exact.takeArray _).bind fun _ => exact_takeStr.bind fun _ =>
      exact_takeStr.bind fun _ => exact_takeStr.bind fun _ => Exact.takeU64.bind fun _ =>
        .pure _
  | users =>
    exact exact_takeStr.bind fun _ => exact_takeStr.bind fun _ =>
      exact_takeStr.bind fun _ => .pure _
  | sessions =>
    exact (Exact.takeArray _).bind fun _ => exact_takeStr.bind fun _ =>
      exact_takeStr.bind fun _ => Exact.takeU64.bind fun _ => .pure _
  | inventories =>
    exact exact_takeAccount.bind fun _ => exact_takeInventoryField.bind fun _ => .pure _
  | linkRecords =>
    exact exact_takeAccount.bind fun _ => (Exact.takeArray _).bind fun _ =>
      Exact.takeU64.bind fun _ => exact_takeBinding.bind fun _ =>
        exact_takeInventoryField.bind fun _ => .pure _
  | lifecycleRecords =>
    exact exact_takeAccount.bind fun _ => (Exact.takeArray _).bind fun _ =>
      exact_takeLifecycleRequest.bind fun _ => exact_takeInventoryField.bind fun _ => .pure _

/-! ### Restoring records -/

namespace Store

/-- The account exists, and the inventory has a statement for its handle. -/
def Vouches (X : Platform) (C : CoreRules κ) (a : Store) (account : Account)
    (inventory : DeviceInventory) : Prop :=
  account ∈ a.users ∧ ∃ handle, a.handle X account.1 account.2 = some handle ∧
    C.encodes handle inventory = true

theorem checkInventory_eq_ok {a : Store} {part : SnapshotSection} {account : Account}
    {inventory : DeviceInventory} {u : Unit} :
    a.checkInventory X C part account inventory = .ok u ↔ a.Vouches X C account inventory := by
  simp only [checkInventory, Vouches, bind_eq_ok, refuseIf_eq_ok, not_not, orRefuse_eq_ok,
    mapError_eq_ok, validateInventory, Bool.not_eq_false, exists_const]

def Admits (X : Platform) (C : CoreRules κ) : (t : SnapshotSection) → Store → t.Record → Prop
  | .header, _, _ => True
  | .tenants, _, _ => True
  | .apiKeys, a, (_, record) => record.tenant ∈ a.tenants
  | .users, a, record => record.tenant ∈ a.tenants
  | .sessions, a, (_, session) => (session.tenant, session.username) ∈ a.users
  | .inventories, a, (account, inventory) =>
    a.Vouches X C account inventory ∧ account ∉ a.deviceInventories
  | .linkRecords, a, (key, mutation) =>
    (a.Vouches X C key.1 mutation.result ∧
      mutation.predecessorGeneration < mutation.result.generation) ∧ key ∉ a.inventoryMutations
  | .lifecycleRecords, a, (key, mutation) =>
    (a.Vouches X C key.1 mutation.result ∧
      mutation.request.predecessorGeneration < mutation.result.generation ∧
        key ∉ a.inventoryMutations) ∧ key ∉ a.inventoryLifecycleMutations

/-- The store with one more record. -/
def add : (t : SnapshotSection) → Store → t.Record → Store
  | .header, a, _ => a
  | .tenants, a, record =>
    { a with
      tenantByUsername := a.tenantByUsername.insert record.username record.id
      tenantByEmail := a.tenantByEmail.insert record.email record.id
      tenants := a.tenants.insert record.id record }
  | .apiKeys, a, (hash, record) => { a with apiKeys := a.apiKeys.insert hash record }
  | .users, a, record =>
    { a with users := a.users.insert (record.tenant, record.username) record }
  | .sessions, a, (hash, session) => { a with sessions := a.sessions.insert hash session }
  | .inventories, a, (account, inventory) =>
    { a with deviceInventories := a.deviceInventories.insert account inventory }
  | .linkRecords, a, (key, mutation) =>
    { a with inventoryMutations := a.inventoryMutations.insert key mutation }
  | .lifecycleRecords, a, (key, mutation) =>
    { a with inventoryLifecycleMutations := a.inventoryLifecycleMutations.insert key mutation }

theorem restoreRecord_eq_ok (t : SnapshotSection) (a : Store) (record : t.Record) (a' : Store) :
    restoreRecord X C t a record = .ok a' ↔ Admits X C t a record ∧ a' = add t a record := by
  cases t with
  | header => exact record.elim
  | tenants => simp only [restoreRecord, pure_eq_ok, Admits, add, true_and, eq_comm (a := a')]
  | apiKeys | users | sessions =>
    simp only [restoreRecord, bind_eq_ok, refuseIf_eq_ok, pure_eq_ok, not_not, Admits, add,
      exists_const, eq_comm (a := a')]
  | inventories =>
    simp only [restoreRecord, bind_eq_ok, refuseIf_eq_ok, pure_eq_ok, checkInventory_eq_ok, Admits,
      add, exists_const, eq_comm (a := a'), and_assoc]
  | linkRecords | lifecycleRecords =>
    simp only [restoreRecord, bind_eq_ok, refuseIf_eq_ok, pure_eq_ok, checkInventory_eq_ok, Admits,
      add, exists_const, eq_comm (a := a'), UInt64.not_le, and_assoc]

/-- The encodings that the readers of the sections invert. -/
def codec (X : Platform) (C : CoreRules κ) : (format X C).Codec where
  encode := encodeRecord
  Valid t record := TextsFit t record ∧ Readable C t record
  Admits := Admits X C
  add := add
  run_take_eq_ok t s record rest :=
    run_mapError_eq_ok.trans (run_takeRecord_eq_ok t s record rest)
  exact_take t := (exact_takeRecord t).mapError
  restore_eq_ok := restoreRecord_eq_ok
  truncated_injective _ _ h := RestoreError.truncated.inj h
  truncated_ne_malformed t h := by cases h

end Store

/-! ### Snapshots -/

namespace Rows

/-- The bytes of the records of a section, after their number. -/
def sectionBytes (rows : Rows) (t : SnapshotSection) : Bytes :=
  u32Bytes (rows t).length.toUInt32 ++ (rows t).flatMap (encodeRecord t)

def part (rows : Rows) : SnapshotSection → Bytes
  | .header => snapshotHeader
  | .tenants => rows.sectionBytes .tenants
  | .apiKeys => rows.sectionBytes .apiKeys
  | .users => rows.sectionBytes .users
  | .sessions => rows.sectionBytes .sessions
  | .inventories => rows.sectionBytes .inventories
  | .linkRecords => rows.sectionBytes .linkRecords
  | .lifecycleRecords => rows.sectionBytes .lifecycleRecords

end Rows

/-- The sections of a snapshot with or without the header. -/
def sections (headed : Bool) : List SnapshotSection :=
  accountSections ++ if headed then deviceSections else []

/-- The parts of a snapshot with or without the header. -/
def parts (headed : Bool) : List SnapshotSection :=
  if headed then .header :: sections true else sections false

/-- The bytes of a snapshot with or without the header. -/
def Rows.layout (rows : Rows) (headed : Bool) : Bytes := (parts headed).flatMap rows.part

/-- The store that the records of a snapshot make. -/
def Rows.restored (rows : Rows) (headed : Bool) : Store :=
  (sections headed).foldl (fun a t => (rows t).foldl (Store.add t) a) .new

/-- The records can be written and are admitted. -/
structure Rows.Accepted (X : Platform) (C : CoreRules κ) (rows : Rows) (headed : Bool) : Prop where
  written : ∀ t ∈ sections headed, (Store.codec X C).Written t (rows t)
  admitted : (Store.codec X C).RowsAdmitted rows (sections headed) .new

namespace Rows

variable {rows : Rows} {headed : Bool}

theorem layout_true :
    rows.layout true = snapshotHeader ++ (sections true).flatMap rows.sectionBytes :=
  rfl

theorem layout_false : rows.layout false = (sections false).flatMap rows.sectionBytes := rfl

theorem part_eq {t : SnapshotSection} (h : t ∈ sections headed) :
    rows.part t = rows.sectionBytes t := by
  cases t with
  | header => exact absurd h (by cases headed <;> decide)
  | _ => rfl

theorem nodup_sections : (sections headed).Nodup := by cases headed <;> decide

theorem putSection_eq_ok_iff (rows : Rows) (out : Bytes) (t : SnapshotSection) (b : Bytes) :
    putSection t out (rows t) = .ok b ↔
      (∀ record ∈ rows t, TextsFit t record) ∧ b = out ++ rows.sectionBytes t := by
  rw [putSection, foldlM_eq_ok_iff (putRecord_eq_ok_iff t), sectionBytes, List.append_assoc]

/-- A snapshot can be written if all texts fit. -/
theorem snapshot_eq_ok_iff {b : Bytes} :
    rows.snapshot = .ok b ↔
      (∀ t ∈ sections true, ∀ record ∈ rows t, TextsFit t record) ∧ b = rows.layout true :=
  foldlM_eq_ok_iff rows.putSection_eq_ok_iff

end Rows

namespace Store

variable {rows : Rows} {headed : Bool}

/-- The run of the sections, whose first one has to be present only after a header. -/
theorem run_accountSections {s : Bytes} (h : s ≠ []) :
    ((format X C).readSection .tenants .new >>=
      (format X C).readSections .tenants [.apiKeys, .users, .sessions]).run s =
      ((format X C).readSections .header (sections false) .new).run s :=
  (SectionFormat.Codec.run_readSections_cons h).symm

theorem tryRestore_headed (s : Bytes) :
    tryRestore X C (snapshotHeader ++ s) =
      ((format X C).readSections .header (sections true) .new).run' s := by
  rw [tryRestore, if_pos (by rw [List.isPrefixOf_iff_prefix]; exact List.prefix_append _ _),
    List.drop_left]
  rfl

theorem tryRestore_headless {s : Bytes} (h : snapshotHeader.isPrefixOf s = false) :
    tryRestore X C s = if s = [] then .error .malformed
      else ((format X C).readSections .header (sections false) .new).run' s := by
  rw [tryRestore, if_neg (by rw [h]; exact Bool.false_ne_true)]
  split
  · next hnil =>
    rw [hnil]
    rfl
  · next hne => rw [StateT.run'_eq, StateT.run'_eq, run_accountSections hne]

/-- The snapshots that are restored, and to what. -/
theorem tryRestore_eq_ok {b : Bytes} {a : Store} :
    tryRestore X C b = .ok a ↔
      ∃ rows : Rows, rows.Accepted X C (snapshotHeader.isPrefixOf b) ∧
        b = rows.layout (snapshotHeader.isPrefixOf b) ∧
          a = rows.restored (snapshotHeader.isPrefixOf b) := by
  have hread (headed : Bool) (s : Bytes) :
      ((format X C).readSections .header (sections headed) .new).run' s = .ok a ↔
        ∃ rows : Rows, rows.Accepted X C headed ∧ s = (sections headed).flatMap rows.sectionBytes ∧
          a = rows.restored headed := by
    rw [run'_eq_ok]
    simp only [SectionFormat.Codec.run_readSections_eq_ok (K := codec X C) Rows.nodup_sections]
    constructor
    · rintro ⟨_, rows, hwritten, hadmitted, ha, hs, -⟩
      exact ⟨rows, ⟨hwritten, hadmitted⟩, hs, ha⟩
    · rintro ⟨rows, haccepted, hs, ha⟩
      exact ⟨[], rows, haccepted.written, haccepted.admitted, ha, hs, rfl⟩
  cases hheaded : snapshotHeader.isPrefixOf b with
  | true =>
    obtain ⟨s, rfl⟩ := List.isPrefixOf_iff_prefix.mp hheaded
    simp only [tryRestore_headed, hread, Rows.layout_true, List.append_cancel_left_eq]
  | false =>
    rw [tryRestore_headless hheaded]
    split
    · next hnil =>
      subst hnil
      refine iff_of_false (fun h => by cases h) ?_
      rintro ⟨rows, -, hs, -⟩
      exact absurd (List.append_eq_nil_iff.mp hs.symm).1
        (SectionFormat.Codec.layout_ne_nil (K := codec X C) .tenants (rows .tenants))
    · exact hread false b

theorem tryRestore_of_prefix_header {q : Bytes} (hq : q <+: snapshotHeader)
    (hne : q ≠ snapshotHeader) : tryRestore X C q = .error .malformed := by
  have hlength : q.length < 8 := Nat.lt_of_le_of_ne hq.length_le fun h => hne (hq.eq_of_length h)
  rw [List.prefix_iff_eq_take.mp hq]
  generalize q.length = n at hlength
  obtain rfl | rfl | rfl | rfl | rfl | rfl | rfl | rfl :
      n = 0 ∨ n = 1 ∨ n = 2 ∨ n = 3 ∨ n = 4 ∨ n = 5 ∨ n = 6 ∨ n = 7 := by omega
  all_goals rfl

theorem run'_readSections_cut (h : rows.Accepted X C headed) {q : Bytes}
    (hq : q <+: (sections headed).flatMap rows.sectionBytes)
    (hne : q ≠ (sections headed).flatMap rows.sectionBytes) :
    (((format X C).readSections .header (sections headed) .new).run' q = .error .malformed ∨
        ∃ last, ((format X C).readSections .header (sections headed) .new).run' q =
          .error (.truncated last)) ∧
      ∀ last, ((format X C).readSections .header (sections headed) .new).run' q =
          .error (.truncated last) ↔
        EndsAfter rows.part (.header :: sections headed) last (snapshotHeader ++ q) := by
  simp only [run'_eq_error]
  exact SectionFormat.Codec.run_readSections_cut (K := codec X C) (fun _ => Rows.part_eq) h.written
    h.admitted hq hne .header

/-- A proper prefix of a snapshot is malformed, or truncated after the section at whose end it
ends. -/
theorem tryRestore_cut (h : rows.Accepted X C headed)
    (hshape : snapshotHeader.isPrefixOf (rows.layout headed) = headed) {q : Bytes}
    (hq : q <+: rows.layout headed) (hne : q ≠ rows.layout headed) :
    (tryRestore X C q = .error .malformed ∨ ∃ last, tryRestore X C q = .error (.truncated last)) ∧
      ∀ last, tryRestore X C q = .error (.truncated last) ↔
        EndsAfter rows.part (parts headed) last q := by
  cases headed with
  | true =>
    rw [Rows.layout_true] at hq hne
    obtain ⟨hq, hne⟩ | ⟨q', rfl, hq', hne'⟩ := Reader.prefix_append_cases hq hne
    · rw [tryRestore_of_prefix_header hq hne]
      refine ⟨.inl rfl, fun last => iff_of_false (fun h => by cases h) fun hends => hne ?_⟩
      exact hq.eq_of_length_le hends.starts.length_le
    · rw [tryRestore_headed]
      exact run'_readSections_cut h hq' hne'
  | false =>
    have hheadless : snapshotHeader.isPrefixOf q = false := by
      rw [← Bool.not_eq_true, List.isPrefixOf_iff_prefix]
      intro hstart
      rw [List.isPrefixOf_iff_prefix.mpr (hstart.trans hq)] at hshape
      cases hshape
    rw [tryRestore_headless hheadless]
    split
    · next hnil =>
      refine ⟨.inl rfl, fun last => iff_of_false (fun h => by cases h) fun hends => ?_⟩
      have htenants := hnil ▸ hends.starts
      exact SectionFormat.Codec.layout_ne_nil (K := codec X C) .tenants (rows .tenants)
        (List.prefix_nil.mp htenants)
    · next hnonempty =>
      obtain ⟨hrefused, hcut⟩ := run'_readSections_cut h hq hne
      refine ⟨hrefused, fun last => (hcut last).trans ?_⟩
      rw [endsAfter_cons_iff]
      constructor
      · rintro (⟨-, hends⟩ | ⟨q', hends, h⟩)
        · exact absurd (List.append_right_eq_self.mp hends) hnonempty
        · rwa [List.append_cancel_left hends]
      · exact fun h => .inr ⟨q, rfl, h⟩

end Store

end Tacenta.Accounts
