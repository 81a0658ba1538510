import Mathlib.Data.List.Sort
import Tacenta.Directory.Protocol

/-!
# Snapshots of the directory

A snapshot has three sections: the entries with their pools, the recovery keys and the generations,
each in the order of the devices. It is restored by replaying the entries through `register` and
`depositPrekeys` and the keys through `setRecovery`; the devices of the users are indexed anew.

## Main definitions

* `Directory.snapshot`, `Directory.restore`.
* `Directory.Storable`: the directories of which a snapshot can be taken.
* `Directory.Same`: two directories hold the same.

## Main results

* `Directory.snapshot_eq_ok_iff`: when a snapshot can be taken, and its bytes.
* `Directory.restore_eq_replayed`, `Directory.replayed_same`: a snapshot restores what the directory
  holds.
-/

open ByteString Reader Result

namespace Tacenta

open Relay (DeviceAddr)

namespace Directory

/-! ### Writing -/

/-- The version of the snapshots that are written. -/
def snapshotVersion : UInt8 := 0x03

/-- The version before it, without generations. -/
def snapshotVersionV2 : UInt8 := 0x02

/-- Append the entry of a device. -/
def putEntry (out : Bytes) (entry : (_ : DeviceAddr) × Entry) : Except Panic Bytes := do
  let out ← putAddr out entry.1
  let out ← putBytes out entry.2.identity
  let out ← putBytes out entry.2.bundle
  refuseIf (2 ^ 32 ≤ entry.2.pool.length) .poolDepth
  entry.2.pool.foldlM putBytes (out ++ u32Bytes entry.2.pool.length.toUInt32)

/-- Append the recovery key of a device. -/
def putRecovery (out : Bytes) (entry : (_ : DeviceAddr) × Bytes) : Except Panic Bytes := do
  let out ← putAddr out entry.1
  putBytes out entry.2

/-- Append the generation of a device. -/
def putGeneration (out : Bytes) (entry : (_ : DeviceAddr) × UInt64) : Except Panic Bytes := do
  let out ← putAddr out entry.1
  pure (out ++ u64Bytes entry.2)

/-- The entries of a table in the order of the devices. -/
def sorted {β : Type} (t : Table DeviceAddr β) : List ((_ : DeviceAddr) × β) :=
  t.entries.insertionSort fun a b => (a.1.cmp b.1).isLE

/-- Append the entries of a table after their number. -/
def putSection {β : Type} (tooMany : Panic)
    (put : Bytes → (_ : DeviceAddr) × β → Except Panic Bytes) (out : Bytes)
    (t : Table DeviceAddr β) :
    Except Panic Bytes := do
  refuseIf (2 ^ 32 ≤ (sorted t).length) tooMany
  (sorted t).foldlM put (out ++ u32Bytes (sorted t).length.toUInt32)

def snapshot (d : Directory) : Except Panic Bytes := do
  let out ← putSection .entryCount putEntry [snapshotVersion] d.entries
  let out ← putSection .recoveryCount putRecovery out d.recovery
  putSection .generationCount putGeneration out d.generations

/-! ### Reading -/

/-- Take an entry and replay it. -/
def takeEntry (d : Directory) : Reader Unit Directory := do
  let device ← Relay.takeAddr
  let identity ← Reader.takeLp ()
  let bundle ← Reader.takeLp ()
  let poolLen ← Reader.takeU32 ()
  let d := (d.register device identity bundle).1
  let pool ← Reader.many (Reader.takeLp ()) poolLen.toNat
  pure (if pool.isEmpty then d else (d.depositPrekeys device identity pool).1)

/-- Take a recovery key and set it. -/
def takeRecovery (d : Directory) : Reader Unit Directory := do
  let device ← Relay.takeAddr
  let key ← Reader.takeLp ()
  pure (d.setRecovery device key).1

def restoreGeneration (d : Directory) (device : DeviceAddr) (generation : UInt64) : Directory :=
  { d with generations := d.generations.insert device generation }

def takeGeneration (d : Directory) : Reader Unit Directory := do
  let device ← Relay.takeAddr
  let generation ← Reader.takeU64 ()
  pure (d.restoreGeneration device generation)

/-- Take a section: as many times as its number says. -/
def takeSection (takeOne : Directory → Reader Unit Directory) (d : Directory) :
    Reader Unit Directory := do
  let count ← Reader.takeU32 ()
  Reader.loop takeOne count.toNat d

def readDirectory : Reader Unit Directory := do
  let version ← Reader.takeByte ()
  refuseIf (version ≠ snapshotVersion ∧ version ≠ snapshotVersionV2) ()
  let d ← takeSection takeEntry .new
  let d ← takeSection takeRecovery d
  let d ← if version = snapshotVersion then takeSection takeGeneration d else pure d
  Reader.finish ()
  pure d

/-- Restore a snapshot. -/
def restore (bytes : Bytes) : Option Directory := (readDirectory.run' bytes).toOption

/-! ### The bytes of a snapshot -/

def entryLayout (entry : (_ : DeviceAddr) × Entry) : Bytes :=
  entry.1.layout ++ (lpBytes entry.2.identity ++ (lpBytes entry.2.bundle ++
    (u32Bytes entry.2.pool.length.toUInt32 ++ entry.2.pool.flatMap lpBytes)))

/-- The bytes of a recovery key. -/
def recoveryLayout (entry : (_ : DeviceAddr) × Bytes) : Bytes := entry.1.layout ++ lpBytes entry.2

def generationLayout (entry : (_ : DeviceAddr) × UInt64) : Bytes :=
  entry.1.layout ++ u64Bytes entry.2

def sectionLayout {β : Type} (layout : (_ : DeviceAddr) × β → Bytes) (t : Table DeviceAddr β) :
    Bytes := u32Bytes (sorted t).length.toUInt32 ++ (sorted t).flatMap layout

def snapshotLayout (d : Directory) : Bytes :=
  snapshotVersion :: (sectionLayout entryLayout d.entries ++
    (sectionLayout recoveryLayout d.recovery ++ sectionLayout generationLayout d.generations))

/-- The entry of a device can be written. -/
structure EntryFits (entry : (_ : DeviceAddr) × Entry) : Prop where
  device_fits : entry.1.Fits
  identity_lt : entry.2.identity.length < 2 ^ 32
  bundle_lt : entry.2.bundle.length < 2 ^ 32
  pool_lt : entry.2.pool.length < 2 ^ 32
  pooled_lt : ∀ bundle ∈ entry.2.pool, bundle.length < 2 ^ 32

/-- The recovery key of a device can be written. -/
structure RecoveryFits (entry : (_ : DeviceAddr) × Bytes) : Prop where
  device_fits : entry.1.Fits
  key_lt : entry.2.length < 2 ^ 32

/-- The generation of a device can be written. -/
def GenerationFits (entry : (_ : DeviceAddr) × UInt64) : Prop := entry.1.Fits

/-- The section of a table can be written. -/
structure SectionFits {β : Type} (fits : (_ : DeviceAddr) × β → Prop) (t : Table DeviceAddr β) :
    Prop where
  count_lt : t.entries.length < 2 ^ 32
  entries_fit : ∀ entry ∈ t.entries, fits entry

/-- A snapshot of the directory can be taken. -/
structure Storable (d : Directory) : Prop where
  entries : SectionFits EntryFits d.entries
  recovery : SectionFits RecoveryFits d.recovery
  generations : SectionFits GenerationFits d.generations

variable {β : Type} {d' : Directory}

theorem perm_sorted (t : Table DeviceAddr β) : (sorted t).Perm t.entries :=
  List.perm_insertionSort _ _

theorem nodupKeys_sorted (t : Table DeviceAddr β) : (sorted t).NodupKeys :=
  (List.perm_nodupKeys (perm_sorted t)).mpr t.nodupKeys

theorem dlookup_sorted (t : Table DeviceAddr β) (device : DeviceAddr) :
    (sorted t).dlookup device = t.lookup device :=
  List.perm_dlookup device (nodupKeys_sorted t) (perm_sorted t)

theorem putEntry_eq_ok_iff (out : Bytes) (entry : (_ : DeviceAddr) × Entry) (b : Bytes) :
    putEntry out entry = .ok b ↔ EntryFits entry ∧ b = out ++ entryLayout entry := by
  simp only [putEntry, bind_eq_ok, putAddr_eq_ok_iff, putBytes_eq_ok_iff, refuseIf_eq_ok, not_le,
    foldlM_eq_ok_iff putBytes_eq_ok_iff, entryLayout]
  constructor
  · rintro ⟨_, ⟨hdevice, rfl⟩, _, ⟨hidentity, rfl⟩, _, ⟨hbundle, rfl⟩, _, hpool, hpooled, rfl⟩
    refine ⟨⟨hdevice, hidentity, hbundle, hpool, hpooled⟩, ?_⟩
    simp only [List.append_assoc]
  · rintro ⟨h, rfl⟩
    refine ⟨_, ⟨h.device_fits, rfl⟩, _, ⟨h.identity_lt, rfl⟩, _, ⟨h.bundle_lt, rfl⟩, (), h.pool_lt,
      h.pooled_lt, ?_⟩
    simp only [List.append_assoc]

theorem putRecovery_eq_ok_iff (out : Bytes) (entry : (_ : DeviceAddr) × Bytes) (b : Bytes) :
    putRecovery out entry = .ok b ↔ RecoveryFits entry ∧ b = out ++ recoveryLayout entry := by
  simp only [putRecovery, bind_eq_ok, putAddr_eq_ok_iff, putBytes_eq_ok_iff, recoveryLayout]
  constructor
  · rintro ⟨_, ⟨hdevice, rfl⟩, hkey, rfl⟩
    exact ⟨⟨hdevice, hkey⟩, List.append_assoc _ _ _⟩
  · rintro ⟨h, rfl⟩
    exact ⟨_, ⟨h.device_fits, rfl⟩, h.key_lt, (List.append_assoc _ _ _).symm⟩

theorem putGeneration_eq_ok_iff (out : Bytes) (entry : (_ : DeviceAddr) × UInt64) (b : Bytes) :
    putGeneration out entry = .ok b ↔ GenerationFits entry ∧ b = out ++ generationLayout entry := by
  simp only [putGeneration, bind_eq_ok, putAddr_eq_ok_iff, pure_eq_ok, generationLayout,
    GenerationFits]
  constructor
  · rintro ⟨_, ⟨hdevice, rfl⟩, rfl⟩
    exact ⟨hdevice, List.append_assoc _ _ _⟩
  · rintro ⟨hdevice, rfl⟩
    exact ⟨_, ⟨hdevice, rfl⟩, List.append_assoc _ _ _⟩

theorem putSection_eq_ok_iff {tooMany : Panic}
    {put : Bytes → (_ : DeviceAddr) × β → Except Panic Bytes}
    {fits : (_ : DeviceAddr) × β → Prop} {layout : (_ : DeviceAddr) × β → Bytes}
    (hput : ∀ out entry b, put out entry = .ok b ↔ fits entry ∧ b = out ++ layout entry)
    {out b : Bytes} {t : Table DeviceAddr β} :
    putSection tooMany put out t = .ok b ↔
      SectionFits fits t ∧ b = out ++ sectionLayout layout t := by
  have hmem : (∀ entry ∈ sorted t, fits entry) ↔ ∀ entry ∈ t.entries, fits entry :=
    forall_congr' fun entry => by rw [(perm_sorted t).mem_iff]
  rw [putSection, refuseIf_bind_eq_ok, foldlM_eq_ok_iff hput, hmem, not_le,
    (perm_sorted t).length_eq, sectionLayout, (perm_sorted t).length_eq, List.append_assoc]
  constructor
  · rintro ⟨hlt, hfits, rfl⟩
    exact ⟨⟨hlt, hfits⟩, rfl⟩
  · rintro ⟨h, rfl⟩
    exact ⟨h.count_lt, h.entries_fit, rfl⟩

/-- A snapshot can be taken of a storable directory, and of no other. -/
theorem snapshot_eq_ok_iff {d : Directory} {b : Bytes} :
    d.snapshot = .ok b ↔ d.Storable ∧ b = d.snapshotLayout := by
  simp only [snapshot, bind_eq_ok, putSection_eq_ok_iff putEntry_eq_ok_iff,
    putSection_eq_ok_iff putRecovery_eq_ok_iff, putSection_eq_ok_iff putGeneration_eq_ok_iff,
    snapshotLayout]
  constructor
  · rintro ⟨_, ⟨hentries, rfl⟩, _, ⟨hrecovery, rfl⟩, hgenerations, rfl⟩
    refine ⟨⟨hentries, hrecovery, hgenerations⟩, ?_⟩
    simp only [List.append_assoc, List.cons_append, List.nil_append]
  · rintro ⟨h, rfl⟩
    refine ⟨_, ⟨h.entries, rfl⟩, _, ⟨h.recovery, rfl⟩, h.generations, ?_⟩
    simp only [List.append_assoc, List.cons_append, List.nil_append]

/-! ### Restoring -/

def replayEntry (d : Directory) (entry : (_ : DeviceAddr) × Entry) : Directory :=
  let d := (d.register entry.1 entry.2.identity entry.2.bundle).1
  if entry.2.pool.isEmpty then d else (d.depositPrekeys entry.1 entry.2.identity entry.2.pool).1

theorem run_takeEntry {entry : (_ : DeviceAddr) × Entry} (h : EntryFits entry) (d : Directory)
    (rest : Bytes) :
    (takeEntry d).run (entryLayout entry ++ rest) = .ok (d.replayEntry entry, rest) := by
  have hpool (n : Nat) (s : Bytes) (pool : List Bytes) (rest : Bytes) :
      (Reader.many (Reader.takeLp ()) n).run s = .ok (pool, rest) ↔
        pool.length = n ∧ (∀ b ∈ pool, b.length < 2 ^ 32) ∧ s = pool.flatMap lpBytes ++ rest :=
    run_many_eq_ok fun _ _ _ => run_takeLp_eq_ok
  simp only [takeEntry, run_bind_eq_ok, Relay.run_takeAddr_eq_ok, run_takeLp_eq_ok,
    run_takeU32_eq_ok, hpool, run_pure_eq_ok, entryLayout, List.append_assoc]
  exact ⟨entry.1, _, ⟨h.device_fits, rfl⟩, entry.2.identity, _, ⟨h.identity_lt, rfl⟩,
    entry.2.bundle, _, ⟨h.bundle_lt, rfl⟩, _, _, rfl, entry.2.pool, rest,
    ⟨(toNat_toUInt32_of_lt h.pool_lt).symm, h.pooled_lt, rfl⟩, rfl,
    rfl⟩

theorem run_takeRecovery {entry : (_ : DeviceAddr) × Bytes} (h : RecoveryFits entry) (d : Directory)
    (rest : Bytes) :
    (takeRecovery d).run (recoveryLayout entry ++ rest) =
      .ok ((d.setRecovery entry.1 entry.2).1, rest) := by
  simp only [takeRecovery, run_bind_eq_ok, Relay.run_takeAddr_eq_ok, run_takeLp_eq_ok,
    run_pure_eq_ok, recoveryLayout, List.append_assoc]
  exact ⟨entry.1, _, ⟨h.device_fits, rfl⟩, entry.2, rest, ⟨h.key_lt, rfl⟩, rfl, rfl⟩

theorem run_takeGeneration {entry : (_ : DeviceAddr) × UInt64} (h : GenerationFits entry)
    (d : Directory) (rest : Bytes) :
    (takeGeneration d).run (generationLayout entry ++ rest) =
      .ok (d.restoreGeneration entry.1 entry.2, rest) := by
  simp only [takeGeneration, run_bind_eq_ok, Relay.run_takeAddr_eq_ok,
    run_takeU64_eq_ok, run_pure_eq_ok, generationLayout, List.append_assoc]
  exact ⟨entry.1, _, ⟨h, rfl⟩, entry.2, rest, rfl, rfl, rfl⟩

theorem run_takeSection {takeOne : Directory → Reader Unit Directory}
    {layout : (_ : DeviceAddr) × β → Bytes} {fits : (_ : DeviceAddr) × β → Prop}
    {f : Directory → (_ : DeviceAddr) × β → Directory}
    (hone : ∀ entry, fits entry → ∀ d rest, (takeOne d).run (layout entry ++ rest) =
      .ok (f d entry, rest)) {t : Table DeviceAddr β} (h : SectionFits fits t) (d : Directory)
    (rest : Bytes) :
    (takeSection takeOne d).run (sectionLayout layout t ++ rest) =
      .ok ((sorted t).foldl f d, rest) := by
  have hlength : (sorted t).length.toUInt32.toNat = (sorted t).length :=
    toNat_toUInt32_of_lt ((perm_sorted t).length_eq ▸ h.count_lt)
  have hentries : ∀ entry ∈ sorted t, ∀ d rest,
      (takeOne d).run (layout entry ++ rest) = .ok (f d entry, rest) := fun entry hentry =>
    hone entry (h.entries_fit entry ((perm_sorted t).mem_iff.mp hentry))
  rw [takeSection, run_bind_eq_ok]
  refine ⟨_, _, run_takeU32_eq_ok.mpr (List.append_assoc _ _ _), ?_⟩
  rw [hlength]
  exact run_loop_foldl hentries d rest

/-- The directory that a snapshot restores. -/
def replayed (d : Directory) : Directory :=
  let d' := (sorted d.entries).foldl replayEntry .new
  let d' := (sorted d.recovery).foldl (fun d' entry => (d'.setRecovery entry.1 entry.2).1) d'
  (sorted d.generations).foldl (fun d' entry => d'.restoreGeneration entry.1 entry.2) d'

theorem restore_eq_replayed {d : Directory} (h : d.Storable) :
    restore d.snapshotLayout = some d.replayed := by
  rw [restore, toOption_eq_some, run'_eq_ok]
  refine ⟨[], ?_⟩
  have hgenerations := run_takeSection (fun _ => run_takeGeneration) h.generations
    ((sorted d.recovery).foldl (fun d' entry => (d'.setRecovery entry.1 entry.2).1)
      ((sorted d.entries).foldl replayEntry .new)) []
  rw [List.append_nil] at hgenerations
  refine run_bind_eq_ok.mpr ⟨snapshotVersion, _, run_takeByte_eq_ok.mpr rfl, ?_⟩
  refine run_bind_eq_ok.mpr ⟨(), _, run_lift_eq_ok.mpr
    ⟨refuseIf_eq_ok.mpr (by decide), rfl⟩, ?_⟩
  refine run_bind_eq_ok.mpr
    ⟨_, _, run_takeSection (fun _ => run_takeEntry) h.entries .new _, ?_⟩
  refine run_bind_eq_ok.mpr
    ⟨_, _, run_takeSection (fun _ => run_takeRecovery) h.recovery _ _, ?_⟩
  refine run_bind_eq_ok.mpr ⟨d.replayed, [], hgenerations, ?_⟩
  exact run_bind_eq_ok.mpr ⟨(), [], run_finish_eq_ok.mpr ⟨rfl, rfl⟩,
    run_pure_eq_ok.mpr ⟨rfl, rfl⟩⟩

/-! ### What is restored -/

/-- The devices of a user are those with an entry, in order. -/
def Indexed (d : Directory) : Prop :=
  ∀ user, (d.devicesOf user).Pairwise (· < ·) ∧
    ∀ n, n ∈ d.devicesOf user ↔ (⟨user, n⟩ : DeviceAddr) ∈ d.entries

/-- Two directories hold the same. -/
structure Same (d d' : Directory) : Prop where
  entries : ∀ device, d'.entries.lookup device = d.entries.lookup device
  recovery : ∀ device, d'.recovery.lookup device = d.recovery.lookup device
  generations : ∀ device, d'.generations.lookup device = d.generations.lookup device
  devicesOf : ∀ user, d'.devicesOf user = d.devicesOf user

theorem mem_entries_iff {d : Directory} {device : DeviceAddr} :
    device ∈ d.entries ↔ (d.entries.lookup device).isSome := AList.lookup_isSome.symm

theorem Indexed.congr {d : Directory} (h : d.Indexed) (hdevices : d'.devices = d.devices)
    (hentries : ∀ device, device ∈ d'.entries ↔ device ∈ d.entries) : d'.Indexed := by
  intro user
  have hsame : d'.devicesOf user = d.devicesOf user := by rw [devicesOf, hdevices, devicesOf]
  rw [hsame]
  exact ⟨(h user).1, fun n => ((h user).2 n).trans (hentries _).symm⟩

theorem pairwise_lt_insert {list : List UInt32} (h : list.Pairwise (· < ·)) (n : UInt32) :
    (if n ∈ list then list else (list ++ [n]).insertionSort (· ≤ ·)).Pairwise (· < ·) := by
  split
  · exact h
  · next hn =>
    have hnodup : ((list ++ [n]).insertionSort (· ≤ ·)).Nodup := by
      rw [(List.perm_insertionSort _ _).nodup_iff, List.nodup_append]
      refine ⟨h.imp fun hlt => UInt32.ne_of_lt hlt, List.nodup_singleton n, fun a ha b hb => ?_⟩
      rw [List.mem_singleton.mp hb]
      exact ne_of_mem_of_not_mem ha hn
    have hsorted := List.pairwise_insertionSort (· ≤ ·) (list ++ [n])
    exact (hsorted.and hnodup).imp fun hab => UInt32.lt_of_le_of_ne hab.1 hab.2

theorem mem_insert_iff {list : List UInt32} {n m : UInt32} :
    m ∈ (if n ∈ list then list else (list ++ [n]).insertionSort (· ≤ ·)) ↔ m = n ∨ m ∈ list := by
  split
  · next hn =>
    refine ⟨.inr, fun h => h.elim (fun hm => hm ▸ hn) id⟩
  · rw [List.mem_insertionSort, List.mem_append, List.mem_singleton, or_comm]

theorem Indexed.insert {d : Directory} (h : d.Indexed) {device : DeviceAddr}
    (hdevices : d'.devices = d.indexDevice device)
    (hentries : ∀ device', device' ∈ d'.entries ↔ device' = device ∨ device' ∈ d.entries) :
    d'.Indexed := by
  have hlist (user : String) : d'.devicesOf user = if user = device.user then
      (if device.device ∈ d.devicesOf device.user then d.devicesOf device.user
        else (d.devicesOf device.user ++ [device.device]).insertionSort (· ≤ ·))
      else d.devicesOf user := by
    rw [devicesOf, hdevices, indexDevice, Table.lookup_insert_eq]
    split <;> rfl
  intro user
  rw [hlist]
  split
  · next huser =>
    subst huser
    refine ⟨pairwise_lt_insert (h _).1 _, fun n => ?_⟩
    rw [mem_insert_iff, hentries, (h _).2]
    refine or_congr ⟨fun hn => hn ▸ rfl, fun hn => congrArg DeviceAddr.device hn⟩ Iff.rfl
  · next huser =>
    refine ⟨(h user).1, fun n => ?_⟩
    rw [(h user).2, hentries]
    exact ⟨.inr, fun hn => hn.resolve_left fun heq => huser (congrArg DeviceAddr.user heq)⟩

/-- Directories with the same entries have the same devices. -/
theorem Indexed.devicesOf_eq {d : Directory} (h : d.Indexed) (h' : d'.Indexed)
    (hentries : ∀ device, device ∈ d'.entries ↔ device ∈ d.entries) (user : String) :
    d'.devicesOf user = d.devicesOf user := by
  refine List.Perm.eq_of_pairwise (fun a b _ _ hab hba => absurd hab (UInt32.lt_asymm hba))
    (h' user).1 (h user).1 ?_
  refine (List.perm_ext_iff_of_nodup ?_ ?_).mpr fun n => ?_
  · exact (h' user).1.imp fun hlt => UInt32.ne_of_lt hlt
  · exact (h user).1.imp fun hlt => UInt32.ne_of_lt hlt
  · rw [(h' user).2, (h user).2, hentries]

theorem replayEntry_of_new {d : Directory} {entry : (_ : DeviceAddr) × Entry}
    (h : d.entries.lookup entry.1 = none) :
    (∀ device, (d.replayEntry entry).entries.lookup device =
      if device = entry.1 then some entry.2 else d.entries.lookup device) ∧
      (d.replayEntry entry).devices = d.indexDevice entry.1 ∧
        (d.replayEntry entry).recovery = d.recovery ∧
          (d.replayEntry entry).generations = d.generations := by
  obtain ⟨device, identity, bundle, pool⟩ := entry
  have hregister : (d.register device identity bundle).1 =
      { d with
        devices := d.indexDevice device
        entries := d.entries.insert device ⟨identity, bundle, []⟩ } := by
    rw [register, Directory.identity, h]
    rfl
  cases pool with
  | nil =>
    refine ⟨fun device' => ?_, ?_⟩
    · rw [replayEntry, hregister]
      exact Table.lookup_insert_eq _ _ _ _
    · rw [replayEntry, hregister]
      exact ⟨rfl, rfl, rfl⟩
  | cons first pool =>
    have hdeposit : d.replayEntry ⟨device, identity, bundle, first :: pool⟩ =
        { d with
          devices := d.indexDevice device
          entries := (d.entries.insert device ⟨identity, bundle, []⟩).insert device
            ⟨identity, bundle, first :: pool⟩ } := by
      simp only [replayEntry, hregister, List.isEmpty_cons, depositPrekeys, AList.lookup_insert,
        ne_eq, not_true_eq_false, if_false, Bool.false_eq_true, List.nil_append]
    rw [hdeposit]
    refine ⟨fun device' => ?_, rfl, rfl, rfl⟩
    simp only [Table.lookup_insert_eq]
    split <;> rfl

theorem foldl_replayEntry {entries : List ((_ : DeviceAddr) × Entry)} (hnodup : entries.NodupKeys)
    {d : Directory} (hnew : ∀ entry ∈ entries, d.entries.lookup entry.1 = none) (h : d.Indexed) :
    (∀ device, (entries.foldl replayEntry d).entries.lookup device =
      (entries.dlookup device).or (d.entries.lookup device)) ∧
      (entries.foldl replayEntry d).Indexed ∧
        (entries.foldl replayEntry d).recovery = d.recovery ∧
          (entries.foldl replayEntry d).generations = d.generations := by
  induction entries generalizing d with
  | nil => exact ⟨fun _ => rfl, h, rfl, rfl⟩
  | cons entry entries ih =>
    obtain ⟨key, value⟩ := entry
    obtain ⟨hkey, hnodup⟩ := List.nodupKeys_cons.mp hnodup
    obtain ⟨hlookup, hdevices, hrecovery, hgenerations⟩ :=
      replayEntry_of_new (hnew _ List.mem_cons_self)
    have hindexed : (d.replayEntry ⟨key, value⟩).Indexed := by
      refine h.insert hdevices fun device => ?_
      rw [mem_entries_iff, mem_entries_iff, hlookup]
      by_cases hdevice : device = key <;> simp [hdevice]
    have hothers : ∀ entry ∈ entries,
        (d.replayEntry ⟨key, value⟩).entries.lookup entry.1 = none := by
      intro entry hentry
      rw [hlookup, if_neg, hnew entry (List.mem_cons_of_mem _ hentry)]
      intro heq
      exact hkey (heq ▸ List.mem_map_of_mem hentry)
    obtain ⟨hall, hall', hallRecovery, hallGenerations⟩ := ih hnodup hothers hindexed
    refine ⟨fun device => ?_, hall', hallRecovery.trans hrecovery,
      hallGenerations.trans hgenerations⟩
    rw [List.foldl_cons, hall, hlookup]
    by_cases hdevice : device = key
    · subst hdevice
      rw [List.dlookup_eq_none.mpr hkey, List.dlookup_cons_eq, if_pos rfl]
      rfl
    · rw [List.dlookup_cons_ne _ _ hdevice, if_neg hdevice]

theorem foldl_setRecovery {entries : List ((_ : DeviceAddr) × Bytes)} {d : Directory}
    (h : ∀ entry ∈ entries, entry.1 ∈ d.entries) :
    entries.foldl (fun d entry => (d.setRecovery entry.1 entry.2).1) d =
      { d with
        recovery := entries.foldl (fun keys entry => keys.insert entry.1 entry.2) d.recovery } := by
  induction entries generalizing d with
  | nil => rfl
  | cons entry entries ih =>
    have hset : (d.setRecovery entry.1 entry.2).1 =
        { d with recovery := d.recovery.insert entry.1 entry.2 } := by
      rw [setRecovery, if_neg (not_not.mpr (h entry List.mem_cons_self))]
    rw [List.foldl_cons, hset]
    exact ih fun entry hentry => h entry (List.mem_cons_of_mem _ hentry)

theorem foldl_restoreGeneration (entries : List ((_ : DeviceAddr) × UInt64)) (d : Directory) :
    entries.foldl (fun d entry => d.restoreGeneration entry.1 entry.2) d =
      { d with
        generations :=
          entries.foldl (fun keys entry => keys.insert entry.1 entry.2) d.generations } := by
  induction entries generalizing d with
  | nil => rfl
  | cons entry entries ih => rw [List.foldl_cons, ih]; rfl

/-- What was inserted in the order of the devices is what the table holds. -/
theorem lookup_foldl_sorted (t : Table DeviceAddr β) (device : DeviceAddr) :
    ((sorted t).foldl (fun keys entry => keys.insert entry.1 entry.2)
      (∅ : Table DeviceAddr β)).lookup device = t.lookup device := by
  have hlookup := Relay.lookup_foldl_insert (f := fun value : β => value)
    (nodupKeys_sorted t) ∅ device
  rwa [dlookup_sorted, AList.lookup_empty, Option.map_id', Option.or_none] at hlookup

theorem indexed_new : Directory.new.Indexed := by
  intro user
  refine ⟨List.Pairwise.nil, fun n => ?_⟩
  exact iff_of_false List.not_mem_nil (AList.notMem_empty _)

/-- A snapshot restores what the directory holds, if it has recovery keys only of devices with an
entry. -/
theorem replayed_same {d : Directory} (h : d.Indexed)
    (hrecovery : ∀ device, device ∈ d.recovery → device ∈ d.entries) : d.Same d.replayed := by
  obtain ⟨hentries, hindexed, hnone, hnone'⟩ := foldl_replayEntry (nodupKeys_sorted d.entries)
    (fun entry _ => AList.lookup_empty entry.1) indexed_new
  have hlookup (device : DeviceAddr) :
      ((sorted d.entries).foldl replayEntry .new).entries.lookup device =
        d.entries.lookup device := by
    rw [hentries, dlookup_sorted]
    exact Option.or_none
  have hregistered : ∀ entry ∈ sorted d.recovery,
      entry.1 ∈ ((sorted d.entries).foldl replayEntry .new).entries := by
    intro entry hentry
    rw [mem_entries_iff, hlookup, ← mem_entries_iff]
    exact hrecovery _ (List.mem_map_of_mem ((perm_sorted d.recovery).mem_iff.mp hentry))
  have hreplayed : d.replayed =
      { (sorted d.entries).foldl replayEntry .new with
        recovery := (sorted d.recovery).foldl (fun keys entry => keys.insert entry.1 entry.2) ∅
        generations :=
          (sorted d.generations).foldl (fun keys entry => keys.insert entry.1 entry.2) ∅ } := by
    rw [replayed, foldl_restoreGeneration, foldl_setRecovery hregistered, hnone, hnone']
    rfl
  rw [hreplayed]
  refine ⟨hlookup, lookup_foldl_sorted d.recovery, lookup_foldl_sorted d.generations, ?_⟩
  refine h.devicesOf_eq (hindexed.congr rfl fun _ => Iff.rfl) fun device => ?_
  rw [mem_entries_iff, mem_entries_iff]
  exact iff_of_eq (congrArg (Option.isSome · = true) (hlookup device))

end Directory

end Tacenta
