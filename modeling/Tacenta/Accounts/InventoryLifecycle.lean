import Mathlib.Data.List.DropRight
import Tacenta.Accounts.Inventory
import Tacenta.Library.Execution

/-!
# The lifecycle of a device inventory

An inventory starts empty and is changed by linking, revoking and replacing devices. It remembers
the most recent revocations only; the floor says which ones it may have forgotten. This module
relates the inventory to the whole history of the revocations that led to it.

## Main definitions

* `mutate`: mutations of one inventory, a refused one leaves it as it is.
* `revocations`: the revocations of a history of mutations, in order.
* `Lifecycle`: what an inventory has to do with the revocations that led to it.

## Main results

* `compactRevocations_recent`: compaction keeps the most recent revocations.
* `Lifecycle.link`, `Lifecycle.revoke`, `Lifecycle.replace`: one mutation.
* `inventory_lifecycle`: every history of mutations.
-/

open Result

namespace Tacenta.Accounts

variable {κ : Type} (C : LifecycleRules κ)

/-! ### Histories -/

/-- Apply a mutation for a handle; a refused one leaves the inventory as it is. -/
def mutate : Machine DeviceInventory (String × Request)
    (Except (InventoryError κ) DeviceInventory) := fun current input =>
  match input.2.transition C input.1 current with
  | .ok next => (next, .ok next)
  | .error e => (current, .error e)

/-- The revocation that a successful mutation makes. -/
def revocationOf : (String × Request) × Except (InventoryError κ) DeviceInventory →
    Option Revocation
  | ((_, .link _ _), _) => none
  | ((_, .revoke _ retired), .ok next) => some ⟨retired, next.generation⟩
  | ((_, .replace _ retired _), .ok next) => some ⟨retired, next.generation⟩
  | ((_, .revoke _ _), .error _) => none
  | ((_, .replace _ _ _), .error _) => none

/-- The revocations of a history, in order. -/
def revocations (history : List ((String × Request) × Except (InventoryError κ) DeviceInventory)) :
    List Revocation := history.filterMap revocationOf

/-- The bindings that are active and those that are remembered as revoked: no device and no key
occurs twice. -/
structure Distinct (i : DeviceInventory) : Prop where
  active_ids : (i.active.map DeviceBinding.deviceId).Nodup
  active_keys : (i.active.map DeviceBinding.identityPublicKey).Nodup
  revoked_ids : (i.revoked.map fun r => r.binding.deviceId).Nodup
  revoked_keys : (i.revoked.map fun r => r.binding.identityPublicKey).Nodup
  ids_disjoint : ∀ b ∈ i.active, ∀ r ∈ i.revoked, b.deviceId ≠ r.binding.deviceId
  keys_disjoint : ∀ b ∈ i.active, ∀ r ∈ i.revoked,
    b.identityPublicKey ≠ r.binding.identityPublicKey

/-- What an inventory has to do with all the revocations that led to it: it remembers the most
recent ones, and its floor is the highest generation of the others. -/
structure Lifecycle (all : List Revocation) (i : DeviceInventory) : Prop extends Distinct i where
  revoked_perm : i.revoked.Perm (all.rtake C.maxRecentRevocations)
  floor_eq : i.revocationFloorGeneration =
    ((all.rdrop C.maxRecentRevocations).map Revocation.terminalGeneration).max?.getD 0
  increasing : all.Pairwise fun r r' => r.terminalGeneration < r'.terminalGeneration
  generation_le : ∀ r ∈ all, r.terminalGeneration ≤ i.generation
  generation_pos : ∀ r ∈ all, 0 < r.terminalGeneration

variable {C}

/-! ### Compaction -/

theorem splitOldest_eq_some {rs others : List Revocation} {oldest : Revocation}
    (h : splitOldest rs = some (oldest, others)) :
    rs.Perm (oldest :: others) ∧ ∀ r ∈ rs, oldest.terminalGeneration ≤ r.terminalGeneration := by
  induction rs generalizing oldest others with
  | nil => cases h
  | cons r rs ih =>
    rw [splitOldest] at h
    split at h
    · next hnone =>
      obtain ⟨rfl, rfl⟩ := Prod.mk.inj (Option.some_inj.mp h)
      rw [splitOldest_eq_none hnone]
      exact ⟨.refl _, fun r' hr' => (List.mem_singleton.mp hr') ▸ UInt64.le_refl _⟩
    · next oldest' others' hsome =>
      obtain ⟨hperm, hle⟩ := ih hsome
      split at h
      · next hr =>
        obtain ⟨rfl, rfl⟩ := Prod.mk.inj (Option.some_inj.mp h)
        refine ⟨.refl _, fun r' hr' => ?_⟩
        rcases List.mem_cons.mp hr' with rfl | hr'
        · exact UInt64.le_refl _
        · exact UInt64.le_trans hr (hle r' hr')
      · next hr =>
        obtain ⟨rfl, rfl⟩ := Prod.mk.inj (Option.some_inj.mp h)
        refine ⟨(hperm.cons r).trans (.swap _ _ _), fun r' hr' => ?_⟩
        rcases List.mem_cons.mp hr' with rfl | hr'
        · rw [Word64.le_iff] at hr ⊢
          omega
        · exact hle r' hr'

theorem dropOldest_one {rs rest : List Revocation} {first : Revocation} (floor : UInt64)
    (hperm : rs.Perm (first :: rest))
    (holdest : ∀ r ∈ rest, first.terminalGeneration < r.terminalGeneration) :
    (dropOldest 1 floor rs).1 = max floor first.terminalGeneration ∧
      (dropOldest 1 floor rs).2.Perm rest := by
  rw [dropOldest]
  split
  · next hnone =>
    rw [splitOldest_eq_none hnone] at hperm
    cases hperm.nil_eq
  · next oldest others hsome =>
    obtain ⟨hsplit, hle⟩ := splitOldest_eq_some hsome
    have heq : oldest = first := by
      have hmem : oldest ∈ first :: rest :=
        (hsplit.symm.trans hperm).mem_iff.mp List.mem_cons_self
      rcases List.mem_cons.mp hmem with heq | hmem
      · exact heq
      · have hlt := holdest oldest hmem
        have hge := hle first (hperm.mem_iff.mpr List.mem_cons_self)
        rw [Word64.lt_iff] at hlt
        rw [Word64.le_iff] at hge
        omega
    subst heq
    exact ⟨rfl, (hsplit.symm.trans hperm).cons_inv⟩

theorem getD_max?_concat (l : List UInt64) (x : UInt64) :
    (l ++ [x]).max?.getD 0 = max (l.max?.getD 0) x := by
  cases l with
  | nil => exact Word64.eq_iff.mpr (by simp)
  | cons y l =>
    rw [List.cons_append, List.max?_cons', List.max?_cons', List.foldl_append]
    rfl

/-- With one more revocation, compaction keeps the most recent ones, and the floor is the highest
generation of those it does not keep. -/
theorem compactRevocations_recent {all : List Revocation} {i : DeviceInventory} {r : Revocation}
    (hperm : i.revoked.Perm (all.rtake C.maxRecentRevocations))
    (hfloor : i.revocationFloorGeneration =
      ((all.rdrop C.maxRecentRevocations).map Revocation.terminalGeneration).max?.getD 0)
    (hincreasing : (all ++ [r]).Pairwise fun r r' => r.terminalGeneration < r'.terminalGeneration) :
    let next := compactRevocations C { i with revoked := i.revoked ++ [r] }
    next.revoked.Perm ((all ++ [r]).rtake C.maxRecentRevocations) ∧
      next.revocationFloorGeneration =
        (((all ++ [r]).rdrop C.maxRecentRevocations).map
          Revocation.terminalGeneration).max?.getD 0 := by
  have hlength := hperm.length_eq
  rw [List.rtake, List.length_drop] at hlength
  rw [List.rtake] at hperm
  rw [List.rdrop] at hfloor
  dsimp only
  rw [compactRevocations, List.rtake, List.rdrop, List.length_append, List.length_append,
    List.length_singleton]
  have hsort (rs : List Revocation) :
      (rs.insertionSort fun a b => (C.compareRevocation a b).isLE).Perm rs :=
    List.perm_insertionSort _ _
  by_cases hroom : all.length < C.maxRecentRevocations
  · -- nothing is dropped
    have hzero : i.revoked.length + 1 - C.maxRecentRevocations = 0 := by omega
    have hnone : all.length - C.maxRecentRevocations = 0 := by omega
    have hnone' : all.length + 1 - C.maxRecentRevocations = 0 := by omega
    rw [hnone] at hperm hfloor
    rw [hzero, hnone']
    exact ⟨(hsort _).trans (hperm.append_right [r]), hfloor⟩
  · -- the oldest of what was kept is dropped
    have hone : i.revoked.length + 1 - C.maxRecentRevocations = 1 := by omega
    have hnext : all.length + 1 - C.maxRecentRevocations =
      all.length - C.maxRecentRevocations + 1 := by omega
    have hlt : all.length - C.maxRecentRevocations < (all ++ [r]).length := by
      rw [List.length_append, List.length_singleton]
      omega
    have hkept : (i.revoked ++ [r]).Perm
        ((all ++ [r]).drop (all.length - C.maxRecentRevocations)) := by
      rw [List.drop_append_of_le_length (Nat.sub_le _ _)]
      exact hperm.append_right [r]
    rw [List.drop_eq_getElem_cons hlt] at hkept
    have hlater := hincreasing.drop (i := all.length - C.maxRecentRevocations)
    rw [List.drop_eq_getElem_cons hlt, List.pairwise_cons] at hlater
    obtain ⟨hmax, hrest⟩ := dropOldest_one i.revocationFloorGeneration hkept hlater.1
    rw [hone, hnext]
    refine ⟨(hsort _).trans hrest, hmax.trans ?_⟩
    rw [List.take_succ_eq_append_getElem hlt, List.map_append, List.map_singleton,
      getD_max?_concat, List.take_append_of_le_length (Nat.sub_le _ _), ← hfloor]

theorem dropOldest_perm (n : Nat) (floor : UInt64) (rs : List Revocation) :
    ∃ dropped, rs.Perm (dropped ++ (dropOldest n floor rs).2) := by
  induction n generalizing floor rs with
  | zero => exact ⟨[], .refl _⟩
  | succ n ih =>
    rw [dropOldest]
    split
    · exact ⟨[], .refl _⟩
    · next oldest others hsome =>
      obtain ⟨dropped, hdropped⟩ := ih (max floor oldest.terminalGeneration) others
      exact ⟨oldest :: dropped, (splitOldest_eq_some hsome).1.trans (hdropped.cons oldest)⟩

theorem compactRevocations_perm (i : DeviceInventory) :
    ∃ dropped, i.revoked.Perm (dropped ++ (compactRevocations C i).revoked) := by
  obtain ⟨dropped, h⟩ := dropOldest_perm (i.revoked.length - C.maxRecentRevocations)
    i.revocationFloorGeneration i.revoked
  exact ⟨dropped, h.trans ((List.perm_insertionSort _ _).symm.append_left dropped)⟩

/-! ### New bindings -/

/-- No device or key of the inventory is that of the binding. -/
structure IsNew (current : DeviceInventory) (binding : DeviceBinding) : Prop where
  active_id : ∀ b ∈ current.active, b.deviceId ≠ binding.deviceId
  active_key : ∀ b ∈ current.active, b.identityPublicKey ≠ binding.identityPublicKey
  revoked_id : ∀ r ∈ current.revoked, r.binding.deviceId ≠ binding.deviceId
  revoked_key : ∀ r ∈ current.revoked, r.binding.identityPublicKey ≠ binding.identityPublicKey

theorem bindingIsNew_eq_ok {current : DeviceInventory} {binding : DeviceBinding}
    (h : (bindingIsNew current binding : Except (InventoryError κ) Unit) = .ok ()) :
    IsNew current binding := by
  simp only [bindingIsNew, bind_eq_ok, refuseIf_eq_ok, List.any_eq_true, decide_eq_true_eq,
    not_exists, not_and] at h
  obtain ⟨_, -, _, hid, _, hkey, _, -, _, hrid, hrkey⟩ := h
  exact ⟨hid, hkey, hrid, hrkey⟩

theorem perm_insertBinding (active : List DeviceBinding) (binding : DeviceBinding) :
    (insertBinding C active binding).Perm (binding :: active) :=
  (List.perm_insertionSort _ _).trans (List.perm_append_singleton binding active)

theorem Distinct.insert {i : DeviceInventory} (h : Distinct i) {binding : DeviceBinding}
    (hnew : IsNew i binding) (generation : UInt64) :
    Distinct { i with generation, active := insertBinding C i.active binding } := by
  have hperm := perm_insertBinding (C := C) i.active binding
  refine ⟨?_, ?_, h.revoked_ids, h.revoked_keys, fun b hb r hr => ?_, fun b hb r hr => ?_⟩
  · refine (hperm.map _).nodup_iff.mpr (List.nodup_cons.mpr ⟨?_, h.active_ids⟩)
    rw [List.mem_map]
    rintro ⟨b, hb, hid⟩
    exact hnew.active_id b hb hid
  · refine (hperm.map _).nodup_iff.mpr (List.nodup_cons.mpr ⟨?_, h.active_keys⟩)
    rw [List.mem_map]
    rintro ⟨b, hb, hkey⟩
    exact hnew.active_key b hb hkey
  · rcases List.mem_cons.mp (hperm.mem_iff.mp hb) with rfl | hb
    · exact (hnew.revoked_id r hr).symm
    · exact h.ids_disjoint b hb r hr
  · rcases List.mem_cons.mp (hperm.mem_iff.mp hb) with rfl | hb
    · exact (hnew.revoked_key r hr).symm
    · exact h.keys_disjoint b hb r hr

theorem Distinct.retire {i : DeviceInventory} (h : Distinct i) {retired : DeviceBinding}
    (hactive : retired ∈ i.active) (generation : UInt64) :
    Distinct { i with
      generation
      active := i.active.erase retired
      revoked := i.revoked ++ [⟨retired, generation⟩] } := by
  have hperm : i.active.Perm (retired :: i.active.erase retired) := List.perm_cons_erase hactive
  have hids := (hperm.map DeviceBinding.deviceId).nodup_iff.mp h.active_ids
  have hkeys := (hperm.map DeviceBinding.identityPublicKey).nodup_iff.mp h.active_keys
  rw [List.map_cons, List.nodup_cons] at hids hkeys
  have hrest {b : DeviceBinding} (hb : b ∈ i.active.erase retired) : b ∈ i.active :=
    List.mem_of_mem_erase hb
  refine ⟨hids.2, hkeys.2, ?_, ?_, fun b hb r hr => ?_, fun b hb r hr => ?_⟩
  · rw [List.map_append, List.map_singleton, List.nodup_append_comm, List.singleton_append,
      List.nodup_cons]
    refine ⟨?_, h.revoked_ids⟩
    rw [List.mem_map]
    rintro ⟨r, hr, hid⟩
    exact h.ids_disjoint retired hactive r hr hid.symm
  · rw [List.map_append, List.map_singleton, List.nodup_append_comm, List.singleton_append,
      List.nodup_cons]
    refine ⟨?_, h.revoked_keys⟩
    rw [List.mem_map]
    rintro ⟨r, hr, hkey⟩
    exact h.keys_disjoint retired hactive r hr hkey.symm
  · rcases List.mem_append.mp hr with hr | hr
    · exact h.ids_disjoint b (hrest hb) r hr
    · rw [List.mem_singleton.mp hr]
      exact fun hid => hids.1 (hid ▸ List.mem_map_of_mem hb)
  · rcases List.mem_append.mp hr with hr | hr
    · exact h.keys_disjoint b (hrest hb) r hr
    · rw [List.mem_singleton.mp hr]
      exact fun hkey => hkeys.1 (hkey ▸ List.mem_map_of_mem hb)

theorem Distinct.compact {i : DeviceInventory} (h : Distinct i) :
    Distinct (compactRevocations C i) := by
  obtain ⟨dropped, hperm⟩ := compactRevocations_perm (C := C) i
  have hmem {r : Revocation} (hr : r ∈ (compactRevocations C i).revoked) : r ∈ i.revoked :=
    hperm.mem_iff.mpr (List.mem_append_right dropped hr)
  have hids := (hperm.map fun r => r.binding.deviceId).nodup_iff.mp h.revoked_ids
  have hkeys := (hperm.map fun r => r.binding.identityPublicKey).nodup_iff.mp h.revoked_keys
  rw [List.map_append] at hids hkeys
  exact ⟨h.active_ids, h.active_keys, hids.of_append_right, hkeys.of_append_right,
    fun b hb r hr => h.ids_disjoint b hb r (hmem hr),
    fun b hb r hr => h.keys_disjoint b hb r (hmem hr)⟩

/-! ### One mutation -/

namespace Lifecycle

variable {all : List Revocation} {i next : DeviceInventory} {handle : String} {predecessor : UInt64}

theorem default : Lifecycle C [] .default where
  active_ids := .nil
  active_keys := .nil
  revoked_ids := .nil
  revoked_keys := .nil
  ids_disjoint b hb := absurd hb List.not_mem_nil
  keys_disjoint b hb := absurd hb List.not_mem_nil
  revoked_perm := by rw [List.rtake_nil]; exact .refl _
  floor_eq := by rw [List.rdrop_nil]; rfl
  increasing := .nil
  generation_le r hr := absurd hr List.not_mem_nil
  generation_pos r hr := absurd hr List.not_mem_nil

theorem link (h : Lifecycle C all i) {binding : DeviceBinding}
    (hlink : linkInventory C handle i predecessor binding = .ok next) : Lifecycle C all next := by
  simp only [linkInventory, bind_eq_ok, refuseIf_eq_ok, pure_eq_ok, nextGeneration_eq_ok] at hlink
  obtain ⟨_, -, _, -, _, -, _, -, _, hnew, generation, hgeneration, _, -, rfl⟩ := hlink
  exact { h.toDistinct.insert (bindingIsNew_eq_ok hnew) generation with
    revoked_perm := h.revoked_perm
    floor_eq := h.floor_eq
    increasing := h.increasing
    generation_le := fun r hr => by
      have hle := h.generation_le r hr
      rw [Word64.le_iff] at hle ⊢
      dsimp only
      omega
    generation_pos := h.generation_pos }

theorem revoke (h : Lifecycle C all i) {retired : DeviceBinding}
    (hrevoke : revokeInventory C handle i predecessor retired = .ok next) :
    Lifecycle C (all ++ [⟨retired, next.generation⟩]) next := by
  simp only [revokeInventory, bind_eq_ok, refuseIf_eq_ok, pure_eq_ok, nextGeneration_eq_ok]
    at hrevoke
  obtain ⟨_, -, _, -, _, hactive, generation, hgeneration, _, -, rfl⟩ := hrevoke
  have hmem : retired ∈ i.active := by simpa using hactive
  have hlt (r : Revocation) (hr : r ∈ all) : r.terminalGeneration < generation := by
    have hle := h.generation_le r hr
    rw [Word64.le_iff] at hle
    rw [Word64.lt_iff]
    omega
  have hincreasing : (all ++ [(⟨retired, generation⟩ : Revocation)]).Pairwise
      fun r r' => r.terminalGeneration < r'.terminalGeneration := by
    rw [List.pairwise_append]
    refine ⟨h.increasing, List.pairwise_singleton _ _, fun r hr r' hr' => ?_⟩
    rw [List.mem_singleton.mp hr']
    exact hlt r hr
  obtain ⟨hperm, hfloor⟩ := compactRevocations_recent (C := C) (i := { i with
    generation
    active := i.active.erase retired }) (r := ⟨retired, generation⟩) h.revoked_perm h.floor_eq
    hincreasing
  exact { (h.toDistinct.retire hmem generation).compact with
    revoked_perm := hperm
    floor_eq := hfloor
    increasing := hincreasing
    generation_le := fun r hr => by
      rcases List.mem_append.mp hr with hr | hr
      · exact UInt64.le_of_lt (hlt r hr)
      · rw [List.mem_singleton.mp hr]
        exact UInt64.le_refl _
    generation_pos := fun r hr => by
      rcases List.mem_append.mp hr with hr | hr
      · exact h.generation_pos r hr
      · rw [List.mem_singleton.mp hr, Word64.lt_iff]
        change 0 < generation.toNat
        omega }

theorem replace (h : Lifecycle C all i) {retired replacement : DeviceBinding}
    (hreplace : replaceInventory C handle i predecessor retired replacement = .ok next) :
    Lifecycle C (all ++ [⟨retired, next.generation⟩]) next := by
  simp only [replaceInventory, bind_eq_ok, refuseIf_eq_ok, pure_eq_ok] at hreplace
  obtain ⟨_, -, _, -, _, -, _, -, revoked, hrevoked, _, hnew, _, -, rfl⟩ := hreplace
  have hnext := h.revoke hrevoked
  exact { hnext.toDistinct.insert (bindingIsNew_eq_ok hnew) revoked.generation with
    revoked_perm := hnext.revoked_perm
    floor_eq := hnext.floor_eq
    increasing := hnext.increasing
    generation_le := hnext.generation_le
    generation_pos := hnext.generation_pos }

/-- What is remembered was revoked after everything that was dropped. -/
theorem floor_lt (h : Lifecycle C all i) {r : Revocation} (hr : r ∈ i.revoked) :
    i.revocationFloorGeneration < r.terminalGeneration := by
  have hkept : r ∈ all.rtake C.maxRecentRevocations := h.revoked_perm.mem_iff.mp hr
  have hsplit : all.rdrop C.maxRecentRevocations ++ all.rtake C.maxRecentRevocations = all :=
    List.take_append_drop _ _
  have hincreasing := h.increasing
  rw [← hsplit, List.pairwise_append] at hincreasing
  rw [h.floor_eq]
  cases hmax : ((all.rdrop C.maxRecentRevocations).map Revocation.terminalGeneration).max? with
  | none => exact h.generation_pos r (hsplit ▸ List.mem_append_right _ hkept)
  | some highest =>
    obtain ⟨dropped, hdropped, rfl⟩ := List.mem_map.mp (List.max?_mem hmax)
    exact hincreasing.2.2 dropped hdropped r hkept

theorem generations_nodup (h : Lifecycle C all i) :
    (i.revoked.map Revocation.terminalGeneration).Nodup := by
  refine (h.revoked_perm.map _).nodup_iff.mpr ?_
  refine ((List.pairwise_map.mpr h.increasing).sublist
    ((List.drop_sublist _ all).map _)).imp fun hlt heq => ?_
  rw [heq, Word64.lt_iff] at hlt
  exact Nat.lt_irrefl _ hlt

/-- The revocations after a mutation are those before and the one that it makes. -/
theorem transition (h : Lifecycle C all i) {request : Request}
    (hrequest : request.transition C handle i = .ok next) :
    Lifecycle C (all ++ (revocationOf ((handle, request),
      (.ok next : Except (InventoryError κ) DeviceInventory))).toList) next := by
  cases request with
  | link predecessor binding =>
    rw [revocationOf, Option.toList_none, List.append_nil]
    exact h.link hrequest
  | revoke predecessor retired => exact h.revoke hrequest
  | replace predecessor retired replacement => exact h.replace hrequest

theorem mutate (h : Lifecycle C all i) (input : String × Request) :
    Lifecycle C (all ++ (revocationOf (input, (mutate C i input).2)).toList)
      (mutate C i input).1 := by
  obtain ⟨handle, request⟩ := input
  rw [Accounts.mutate]
  cases hrequest : request.transition C handle i with
  | error e =>
    have hnone : revocationOf ((handle, request),
        (.error e : Except (InventoryError κ) DeviceInventory)) = none := by
      cases request <;> rfl
    rw [hnone, Option.toList_none, List.append_nil]
    exact h
  | ok next => exact h.transition hrequest

end Lifecycle

/-! ### The floor -/

theorem le_dropOldest_floor (n : Nat) (floor : UInt64) (rs : List Revocation) :
    floor ≤ (dropOldest n floor rs).1 := by
  induction n generalizing floor rs with
  | zero => exact UInt64.le_refl _
  | succ n ih =>
    rw [dropOldest]
    split
    · exact UInt64.le_refl _
    · refine UInt64.le_trans ?_ (ih _ _)
      rw [Word64.le_iff, Word64.toNat_max]
      exact Nat.le_max_left _ _

theorem revokeInventory_floor {handle : String} {current next : DeviceInventory}
    {predecessor : UInt64} {retired : DeviceBinding}
    (h : revokeInventory C handle current predecessor retired = .ok next) :
    current.revocationFloorGeneration ≤ next.revocationFloorGeneration := by
  simp only [revokeInventory, bind_eq_ok, pure_eq_ok] at h
  obtain ⟨_, -, _, -, _, -, _, -, _, -, rfl⟩ := h
  exact le_dropOldest_floor _ _ _

theorem Request.transition_floor {handle : String} {current next : DeviceInventory}
    {request : Request} (h : request.transition C handle current = .ok next) :
    current.revocationFloorGeneration ≤ next.revocationFloorGeneration := by
  cases request with
  | link predecessor binding =>
    simp only [Request.transition, linkInventory, bind_eq_ok, pure_eq_ok] at h
    obtain ⟨_, -, _, -, _, -, _, -, _, -, _, -, _, -, rfl⟩ := h
    exact UInt64.le_refl _
  | revoke predecessor retired => exact revokeInventory_floor h
  | replace predecessor retired replacement =>
    simp only [Request.transition, replaceInventory, bind_eq_ok, pure_eq_ok] at h
    obtain ⟨_, -, _, -, _, -, _, -, revoked, hrevoked, _, -, _, -, rfl⟩ := h
    have hfloor := revokeInventory_floor hrevoked
    exact hfloor

/-! ### Whole histories -/

theorem revocations_append
    (history : List ((String × Request) × Except (InventoryError κ) DeviceInventory))
    (entry : (String × Request) × Except (InventoryError κ) DeviceInventory) :
    revocations (history ++ [entry]) = revocations history ++ (revocationOf entry).toList := by
  rw [revocations, revocations, List.filterMap_append]
  cases h : revocationOf entry <;> simp [h]

/-- In every history of mutations of an inventory that was empty at first: no device and no key
occurs twice; the revocations that are remembered are the most recent ones of the history, and the
floor is the highest generation of the others; a successful mutation raises the generation by one
and never lowers the floor, and a refused one changes nothing. -/
theorem inventory_lifecycle (C : LifecycleRules κ) (inputs : List (String × Request)) :
    let i := Machine.run (mutate C) .default inputs
    let all := revocations (Machine.log (mutate C) .default inputs)
    Distinct i ∧ (i.revoked.map Revocation.terminalGeneration).Nodup ∧
      i.revoked.Perm (all.rtake C.maxRecentRevocations) ∧
      (all.Pairwise fun r r' => r.terminalGeneration < r'.terminalGeneration) ∧
      (∀ r ∈ i.revoked, r.terminalGeneration ≤ i.generation ∧
        i.revocationFloorGeneration < r.terminalGeneration) ∧
      i.revocationFloorGeneration =
        ((all.rdrop C.maxRecentRevocations).map Revocation.terminalGeneration).max?.getD 0 ∧
      (∀ handle request next, request.transition C handle i = .ok next →
        mutate C i (handle, request) = (next, .ok next) ∧
          next.generation.toNat = i.generation.toNat + 1 ∧
            i.revocationFloorGeneration ≤ next.revocationFloorGeneration) ∧
      ∀ handle request e, request.transition C handle i = .error e →
        mutate C i (handle, request) = (i, .error e) := by
  intro i all
  have h : Lifecycle C all i := by
    refine Machine.log_preserves (fun i history => Lifecycle C (revocations history) i)
      (fun i history input h => ?_) .default inputs
    rw [revocations_append]
    exact h.mutate input
  refine ⟨h.toDistinct, h.generations_nodup, h.revoked_perm, h.increasing, fun r hr => ⟨?_, ?_⟩,
    h.floor_eq, fun handle request next hnext => ⟨?_, ?_, ?_⟩, fun handle request e he => ?_⟩
  · have hkept := h.revoked_perm.mem_iff.mp hr
    exact h.generation_le r (List.mem_of_mem_drop hkept)
  · exact h.floor_lt hr
  · rw [mutate, hnext]
  · exact (request.transition_advances hnext).generation_succ
  · exact request.transition_floor hnext
  · rw [mutate, he]

end Tacenta.Accounts
