import Mathlib.Data.List.DropRight
import Tacenta.Directory.Snapshot
import Tacenta.Library.Execution

/-!
# The directory over whole runs

What happens to a device is a history of events: it was registered or rotated, bundles were
deposited for it, one was served, a generation was shown. Each registration and each rotation starts
an epoch of the device. What the directory holds of a device is a function of its history, and
restarting the directory from a snapshot is no event.

## Main definitions

* `Directory.step`: the operations and restarts, as a machine.
* `Directory.Event`, `Directory.history`: what happened to a device along a run.
* `Directory.binding`, `Directory.shelf`, `Directory.shown`: the keys of the epoch, its bundles, and
  the generations since the last rotation.

## Main results

* `Directory.Tracks.step`: the directory holds what the histories say.
* `Directory.contract`: what each operation answers, in terms of the histories.
* `Directory.restart_of_long_bundle`: a bundle that fits no block cannot be restarted with.
-/

open ByteString Result

namespace Tacenta

open Relay (DeviceAddr)

namespace Directory

/-! ### Runs -/

/-- What is done to the directory. -/
inductive Command where
  | register (device : DeviceAddr) (identity bundle : Bytes)
  | rotate (device : DeviceAddr) (newIdentity newBundle : Bytes)
  | depositPrekeys (device : DeviceAddr) (identity : Bytes) (bundles : List Bytes)
  | lookup (device : DeviceAddr)
  | setRecovery (device : DeviceAddr) (key : Bytes)
  | witness (device : DeviceAddr) (generation : UInt64)
  | restart

/-- What comes of it. -/
inductive Answer where
  | registration (outcome : Registration)
  | rotation (outcome : Rotation)
  | deposit (outcome : Deposit)
  | found (material : Option (Bytes × Bytes))
  | recoverySet (outcome : RecoverySet)
  | witnessed (verdict : Witness)
  | restarted
  | failed
  deriving DecidableEq

/-- The directory restored from its snapshot. -/
def restart (d : Directory) : Option Directory :=
  match d.snapshot with
  | .ok bytes => restore bytes
  | .error _ => none

/-- Run an operation or restart; a failed restart replaces nothing. -/
def step : Machine Directory Command Answer
  | d, .register device identity bundle =>
    ((d.register device identity bundle).1, .registration (d.register device identity bundle).2)
  | d, .rotate device newIdentity newBundle =>
    ((d.rotate device newIdentity newBundle).1, .rotation (d.rotate device newIdentity newBundle).2)
  | d, .depositPrekeys device identity bundles =>
    ((d.depositPrekeys device identity bundles).1,
      .deposit (d.depositPrekeys device identity bundles).2)
  | d, .lookup device => ((d.lookup device).1, .found (d.lookup device).2)
  | d, .setRecovery device key =>
    ((d.setRecovery device key).1, .recoverySet (d.setRecovery device key).2)
  | d, .witness device generation =>
    ((d.witness device generation).1, .witnessed (d.witness device generation).2)
  | d, .restart =>
    match d.restart with
    | some d' => (d', .restarted)
    | none => (d, .failed)

/-! ### Histories -/

/-- What happened to a device. -/
inductive Event where
  /-- It was registered or rotated, which starts an epoch. -/
  | opened (identity bundle : Bytes) (rotated : Bool)
  | deposited (bundles : List Bytes)
  | served (bundle : Bytes)
  | shown (generation : UInt64)

/-- What happened to the device, if anything. -/
def eventOf (device : DeviceAddr) : Command × Answer → Option Event
  | (.register device' identity bundle, .registration .registered) =>
    if device' = device then some (.opened identity bundle false) else none
  | (.register device' identity bundle, .registration .refreshed) =>
    if device' = device then some (.opened identity bundle false) else none
  | (.rotate device' identity bundle, .rotation .rotated) =>
    if device' = device then some (.opened identity bundle true) else none
  | (.depositPrekeys device' _ bundles, .deposit (.deposited _)) =>
    if device' = device then some (.deposited bundles) else none
  | (.lookup device', .found (some material)) =>
    if device' = device then some (.served material.2) else none
  | (.witness device' generation, .witnessed .fresh) =>
    if device' = device then some (.shown generation) else none
  | (.witness device' generation, .witnessed .rolledBack) =>
    if device' = device then some (.shown generation) else none
  | _ => none

/-- What happened to the device along a run. -/
def history (device : DeviceAddr) (log : List (Command × Answer)) : List Event :=
  log.filterMap (eventOf device)

/-- The keys with which an epoch starts. -/
def Event.opening : Event → Option (Bytes × Bytes)
  | opened identity bundle _ => some (identity, bundle)
  | deposited _ => none
  | served _ => none
  | shown _ => none

/-- The event is a rotation. -/
def Event.rotates : Event → Bool
  | opened _ _ rotated => rotated
  | deposited _ => false
  | served _ => false
  | shown _ => false

/-- The bundles that are deposited. -/
def Event.bundles : Event → List Bytes
  | opened _ _ _ => []
  | deposited bundles => bundles
  | served _ => []
  | shown _ => []

/-- The generation that is shown. -/
def Event.generation : Event → Option UInt64
  | opened _ _ _ => none
  | deposited _ => none
  | served _ => none
  | shown generation => some generation

/-- The identity key and the bundle of the current epoch. -/
def binding (events : List Event) : Option (Bytes × Bytes) :=
  (events.filterMap Event.opening).getLast?

/-- The events of the current epoch. -/
def epoch (events : List Event) : List Event := events.rtakeWhile fun e => e.opening.isNone

/-- The bundles that were deposited in the current epoch. -/
def deposits (events : List Event) : List Bytes := (epoch events).flatMap Event.bundles

/-- The deposited bundles: those that were served and those that were not yet. -/
structure Shelf where
  served : List Bytes
  waiting : List Bytes

/-- A deposit waits behind the others. While something waits, what is served takes the place of the
first that waits. -/
def Shelf.next (s : Shelf) : Event → Shelf
  | .opened _ _ _ => s
  | .deposited bundles => ⟨s.served, s.waiting ++ bundles⟩
  | .served bundle => if s.waiting = [] then s else ⟨s.served ++ [bundle], s.waiting.tail⟩
  | .shown _ => s

/-- The deposited bundles of the current epoch. -/
def shelf (events : List Event) : Shelf := (epoch events).foldl Shelf.next ⟨[], []⟩

/-- The generations that were shown since the last rotation. -/
def shown (events : List Event) : List UInt64 :=
  (events.rtakeWhile fun e => !e.rotates).filterMap Event.generation

section Append

variable (events : List Event)

@[simp] theorem binding_opened (identity bundle : Bytes) (rotated : Bool) :
    binding (events ++ [.opened identity bundle rotated]) = some (identity, bundle) := by
  simp [binding, Event.opening]

@[simp] theorem epoch_opened (identity bundle : Bytes) (rotated : Bool) :
    epoch (events ++ [.opened identity bundle rotated]) = [] :=
  List.rtakeWhile_concat_neg _ _ _ (by simp [Event.opening])

variable {e : Event}

theorem binding_append (h : e.opening = none) : binding (events ++ [e]) = binding events := by
  simp [binding, h]

theorem epoch_append (h : e.opening = none) :
    epoch (events ++ [e]) = epoch events ++ [e] :=
  List.rtakeWhile_concat_pos _ _ _ (by rw [h]; rfl)

theorem shelf_append (h : e.opening = none) :
    shelf (events ++ [e]) = (shelf events).next e := by
  rw [shelf, epoch_append events h, List.foldl_append]
  rfl

theorem deposits_append (h : e.opening = none) :
    deposits (events ++ [e]) = deposits events ++ e.bundles := by
  rw [deposits, epoch_append events h, List.flatMap_append, List.flatMap_singleton, deposits]

theorem shown_append (h : e.rotates = false) :
    shown (events ++ [e]) = shown events ++ e.generation.toList := by
  rw [shown, List.rtakeWhile_concat_pos _ _ _ (by rw [h]; rfl), List.filterMap_append, shown]
  cases hgeneration : e.generation <;> simp [hgeneration]

@[simp] theorem shown_rotated (identity bundle : Bytes) :
    shown (events ++ [.opened identity bundle true]) = [] := by
  rw [shown, List.rtakeWhile_concat_neg _ _ _ (by simp [Event.rotates]), List.filterMap_nil]

end Append

/-! ### What the directory holds -/

/-- The highest of the generations that were shown. -/
def Highest (generations : List UInt64) : Option UInt64 → Prop
  | none => generations = []
  | some highest => highest ∈ generations ∧ ∀ g ∈ generations, g ≤ highest

/-- The directory holds of the device what its history says. -/
structure Holds (d : Directory) (device : DeviceAddr) (events : List Event) : Prop where
  entry : d.entries.lookup device =
    (binding events).map fun keys => ⟨keys.1, keys.2, (shelf events).waiting⟩
  conserved : (shelf events).served ++ (shelf events).waiting = deposits events
  highest : Highest (shown events) (d.generations.lookup device)
  generation_bound : d.generations.lookup device ≠ none → binding events ≠ none
  recovery_bound : d.recovery.lookup device ≠ none → binding events ≠ none

/-- What two directories hold of a device is the same. -/
structure SameAt (device : DeviceAddr) (d d' : Directory) : Prop where
  entries : d'.entries.lookup device = d.entries.lookup device
  recovery : d'.recovery.lookup device = d.recovery.lookup device
  generations : d'.generations.lookup device = d.generations.lookup device

namespace Holds

variable {d d' : Directory} {device : DeviceAddr} {events : List Event}

theorem congr (h : d.Holds device events) (hsame : SameAt device d d') :
    d'.Holds device events where
  entry := hsame.entries.trans h.entry
  conserved := h.conserved
  highest := hsame.generations.symm ▸ h.highest
  generation_bound hne := h.generation_bound (hsame.generations ▸ hne)
  recovery_bound hne := h.recovery_bound (hsame.recovery ▸ hne)

theorem empty (device : DeviceAddr) : Directory.new.Holds device [] where
  entry := AList.lookup_empty device
  conserved := rfl
  highest := rfl
  generation_bound hne := absurd (AList.lookup_empty device) hne
  recovery_bound hne := absurd (AList.lookup_empty device) hne

/-- A registration or a rotation starts an epoch. A rotation forgets the generations. -/
theorem opened (h : d.Holds device events) {identity bundle : Bytes} (rotated : Bool)
    (hentry : d'.entries.lookup device = some ⟨identity, bundle, []⟩)
    (hgenerations : d'.generations.lookup device =
      if rotated then none else d.generations.lookup device) :
    d'.Holds device (events ++ [.opened identity bundle rotated]) where
  entry := by
    rw [hentry, binding_opened, shelf, epoch_opened]
    rfl
  conserved := by
    rw [shelf, deposits, epoch_opened]
    rfl
  highest := by
    rw [hgenerations]
    cases rotated with
    | false =>
      rw [shown_append events rfl, Event.generation, Option.toList_none, List.append_nil]
      exact h.highest
    | true =>
      rw [shown_rotated]
      rfl
  generation_bound _ := by simp
  recovery_bound _ := by simp

/-- Something else happens to a device with a binding. -/
theorem appended (h : d.Holds device events) (hbound : binding events ≠ none) {e : Event}
    (hopening : e.opening = none) (hrotates : e.rotates = false)
    (hentry : d'.entries.lookup device =
      (binding events).map fun keys => ⟨keys.1, keys.2, ((shelf events).next e).waiting⟩)
    (hconserved : ((shelf events).next e).served ++ ((shelf events).next e).waiting =
      (shelf events).served ++ (shelf events).waiting ++ e.bundles)
    (hhighest : Highest (shown events ++ e.generation.toList) (d'.generations.lookup device)) :
    d'.Holds device (events ++ [e]) where
  entry := by rw [hentry, binding_append events hopening, shelf_append events hopening]
  conserved := by
    rw [shelf_append events hopening, hconserved, h.conserved, deposits_append events hopening]
  highest := shown_append events hrotates ▸ hhighest
  generation_bound _ := binding_append events hopening ▸ hbound
  recovery_bound _ := binding_append events hopening ▸ hbound

variable {entry : Entry}

theorem entry_eq (h : d.Holds device events) (hentry : d.entries.lookup device = some entry) :
    binding events = some (entry.identity, entry.bundle) ∧ (shelf events).waiting = entry.pool := by
  rw [h.entry, Option.map_eq_some_iff] at hentry
  obtain ⟨keys, hkeys, rfl⟩ := hentry
  exact ⟨hkeys, rfl⟩

theorem bound (h : d.Holds device events) (hentry : d.entries.lookup device = some entry) :
    binding events ≠ none := by
  rw [(h.entry_eq hentry).1]
  exact Option.some_ne_none _

section

variable (h : d.Holds device events) (hold : d.entries.lookup device = some entry)

include h hold

/-- Deposited bundles wait behind the others. -/
theorem deposited {bundles : List Bytes}
    (hentry : d'.entries.lookup device = some { entry with pool := entry.pool ++ bundles })
    (hgenerations : d'.generations.lookup device = d.generations.lookup device) :
    d'.Holds device (events ++ [.deposited bundles]) := by
  obtain ⟨hbinding, hwaiting⟩ := h.entry_eq hold
  refine h.appended (h.bound hold) rfl rfl ?_ (List.append_assoc _ _ _).symm ?_
  · rw [hentry, hbinding, Shelf.next, hwaiting]
    rfl
  · rw [Event.generation, Option.toList_none, List.append_nil, hgenerations]
    exact h.highest

theorem served_waiting {oneTime : Bytes} {pool : List Bytes} (hpool : entry.pool = oneTime :: pool)
    (hentry : d'.entries.lookup device = some { entry with pool })
    (hgenerations : d'.generations.lookup device = d.generations.lookup device) :
    d'.Holds device (events ++ [.served oneTime]) := by
  obtain ⟨hbinding, hwaiting⟩ := h.entry_eq hold
  have hshelf : (shelf events).next (.served oneTime) =
      ⟨(shelf events).served ++ [oneTime], pool⟩ := by
    rw [Shelf.next, hwaiting, hpool, if_neg (List.cons_ne_nil _ _), List.tail_cons]
  refine h.appended (h.bound hold) rfl rfl ?_ ?_ ?_
  · rw [hentry, hbinding, hshelf]
    rfl
  · rw [hshelf, hwaiting, hpool, Event.bundles, List.append_nil, List.append_assoc,
      List.singleton_append]
  · rw [Event.generation, Option.toList_none, List.append_nil, hgenerations]
    exact h.highest

theorem served_bundle (hpool : entry.pool = []) :
    d.Holds device (events ++ [.served entry.bundle]) := by
  have hshelf : (shelf events).next (.served entry.bundle) = shelf events := by
    rw [Shelf.next, (h.entry_eq hold).2, if_pos hpool]
  refine h.appended (h.bound hold) rfl rfl ?_ ?_ ?_
  · rw [h.entry, hshelf]
  · rw [hshelf, Event.bundles, List.append_nil]
  · rw [Event.generation, Option.toList_none, List.append_nil]
    exact h.highest

end

end Holds

theorem Highest.witnessCore {generations : List UInt64} {stored : Option UInt64}
    (h : Highest generations stored) (offered : UInt64) :
    Highest (generations ++ [offered]) (some (witnessCore stored offered).2) ∧
      (Directory.witnessCore stored offered).1 =
        if generations.all (· ≤ offered) then .fresh else .rolledBack := by
  cases stored with
  | none =>
    rw [Highest] at h
    subst h
    refine ⟨⟨List.mem_singleton_self offered, fun g hg => ?_⟩, ?_⟩
    · rw [List.mem_singleton.mp hg]
      exact UInt64.le_refl _
    · rw [List.all_nil, if_pos rfl]
      rfl
  | some highest =>
    obtain ⟨hmem, hle⟩ := h
    by_cases hfresh : highest ≤ offered
    · have hall : ∀ g ∈ generations, g ≤ offered := fun g hg => UInt64.le_trans (hle g hg) hfresh
      rw [Directory.witnessCore, if_pos hfresh, if_pos (by simpa using hall)]
      refine ⟨⟨List.mem_append_right _ (List.mem_singleton_self _), fun g hg => ?_⟩, rfl⟩
      rcases List.mem_append.mp hg with hg | hg
      · exact hall g hg
      · rw [List.mem_singleton.mp hg]
        exact UInt64.le_refl _
    · have hrolled : ¬generations.all (· ≤ offered) := fun hall =>
        hfresh (of_decide_eq_true (List.all_eq_true.mp hall highest hmem))
      rw [Directory.witnessCore, if_neg hfresh, if_neg hrolled]
      refine ⟨⟨List.mem_append_left _ hmem, fun g hg => ?_⟩, rfl⟩
      rcases List.mem_append.mp hg with hg | hg
      · exact hle g hg
      · rw [List.mem_singleton.mp hg]
        exact UInt64.le_of_lt (UInt64.not_le.mp hfresh)

/-- A generation is shown. -/
theorem Holds.shown {d d' : Directory} {device : DeviceAddr} {events : List Event}
    (h : d.Holds device events) {entry : Entry} (hold : d.entries.lookup device = some entry)
    (generation : UInt64) (hentry : d'.entries.lookup device = d.entries.lookup device)
    (hgenerations : d'.generations.lookup device =
      some (witnessCore (d.generations.lookup device) generation).2) :
    d'.Holds device (events ++ [.shown generation]) := by
  refine h.appended (h.bound hold) rfl rfl (hentry.trans h.entry) (List.append_nil _).symm ?_
  rw [hgenerations]
  exact (h.highest.witnessCore generation).1

/-! ### Steps -/

/-- The directory holds of every device what its history says, and indexes the devices. -/
structure Tracks (d : Directory) (log : List (Command × Answer)) : Prop where
  indexed : d.Indexed
  holds : ∀ device, d.Holds device (history device log)

theorem history_append (device : DeviceAddr) (log : List (Command × Answer))
    (entry : Command × Answer) :
    history device (log ++ [entry]) = history device log ++ (eventOf device entry).toList := by
  rw [history, history, List.filterMap_append]
  cases h : eventOf device entry <;> simp [h]

namespace Tracks

variable {d d' : Directory} {log : List (Command × Answer)}

theorem new : Directory.new.Tracks [] := ⟨indexed_new, Holds.empty⟩

theorem silent {entry : Command × Answer}
    (hevent : ∀ device, eventOf device entry = none) (hindexed : d'.Indexed)
    (hsame : ∀ device, d'.Holds device (history device log)) : d'.Tracks (log ++ [entry]) := by
  refine ⟨hindexed, fun device => ?_⟩
  rw [history_append, hevent, Option.toList_none, List.append_nil]
  exact hsame device

/-- The directory after a command holds what the histories after it say. -/
def After (d : Directory) (log : List (Command × Answer)) (c : Command) : Prop :=
  (step d c).1.Tracks (log ++ [(c, (step d c).2)])

theorem sameAt_of_insert {device device' : DeviceAddr} {entry : Entry} (hne : device' ≠ device)
    (hentries : d'.entries = d.entries.insert device entry) (hrecovery : d'.recovery = d.recovery)
    (hgenerations : d'.generations.lookup device' = d.generations.lookup device') :
    SameAt device' d d' :=
  ⟨by rw [hentries, AList.lookup_insert_ne hne], by rw [hrecovery], hgenerations⟩

variable (h : d.Tracks log)

include h

/-- Something happened to one device. -/
theorem event {entry : Command × Answer} {device : DeviceAddr} {e : Event}
    (hevent : ∀ device', eventOf device' entry = if device = device' then some e else none)
    (hindexed : d'.Indexed) (hothers : ∀ device', device' ≠ device → SameAt device' d d')
    (hdevice : d'.Holds device (history device log ++ [e])) : d'.Tracks (log ++ [entry]) := by
  refine ⟨hindexed, fun device' => ?_⟩
  rw [history_append, hevent]
  by_cases hne : device = device'
  · rw [if_pos hne, Option.toList_some, ← hne]
    exact hdevice
  · rw [if_neg hne, Option.toList_none, List.append_nil]
    exact (h.holds device').congr (hothers device' fun heq => hne heq.symm)

/-- Something happened to a device with an entry, which is replaced. -/
theorem replaced {entry : Command × Answer} {device : DeviceAddr} {e : Event} {old new : Entry}
    (hold : d.entries.lookup device = some old)
    {generations : AList fun _ : DeviceAddr => UInt64}
    (hgenerations : ∀ device', device' ≠ device →
      generations.lookup device' = d.generations.lookup device')
    (hevent : ∀ device', eventOf device' entry = if device = device' then some e else none)
    (hdevice : { d with entries := d.entries.insert device new, generations }.Holds device
      (history device log ++ [e])) :
    { d with entries := d.entries.insert device new, generations }.Tracks (log ++ [entry]) := by
  refine h.event hevent (h.indexed.congr rfl fun device' => ?_)
    (fun device' hne => sameAt_of_insert hne rfl rfl (hgenerations device' hne)) hdevice
  rw [AList.mem_insert]
  refine ⟨fun hmem => hmem.elim (fun heq => ?_) id, .inr⟩
  rw [heq, mem_entries_iff, hold, Option.isSome_some]

theorem register (device : DeviceAddr) (identity bundle : Bytes) :
    After d log (.register device identity bundle) := by
  rw [After, step]
  cases hentry : d.entries.lookup device with
  | none =>
    have hregister : d.register device identity bundle =
        ({ d with
          devices := d.indexDevice device
          entries := d.entries.insert device ⟨identity, bundle, []⟩ }, .registered) := by
      rw [Directory.register, Directory.identity, hentry]
      rfl
    rw [hregister]
    refine h.event (fun _ => rfl) (h.indexed.insert rfl fun device' => ?_)
      (fun device' hne => sameAt_of_insert hne rfl rfl rfl)
      ((h.holds device).opened false (AList.lookup_insert _) rfl)
    exact AList.mem_insert _
  | some entry =>
    by_cases hidentity : entry.identity = identity
    · have hregister : d.register device identity bundle =
          ({ d with entries := d.entries.insert device ⟨identity, bundle, []⟩ }, .refreshed) := by
        rw [Directory.register, Directory.identity, hentry, Option.map_some, registerCore,
          if_pos hidentity]
      rw [hregister]
      exact h.replaced hentry (fun _ _ => rfl) (fun _ => rfl)
        ((h.holds device).opened false (AList.lookup_insert _) rfl)
    · have hregister : d.register device identity bundle = (d, .rejected) := by
        rw [Directory.register, Directory.identity, hentry, Option.map_some, registerCore,
          if_neg hidentity]
      rw [hregister]
      exact .silent (fun _ => rfl) h.indexed h.holds

theorem rotate (device : DeviceAddr) (identity bundle : Bytes) :
    After d log (.rotate device identity bundle) := by
  rw [After, step]
  cases hentry : d.entries.lookup device with
  | none =>
    have hrotate : d.rotate device identity bundle = (d, .unregistered) := by
      rw [Directory.rotate, Directory.identity, hentry]
      rfl
    rw [hrotate]
    exact .silent (fun _ => rfl) h.indexed h.holds
  | some entry =>
    have hrotate : d.rotate device identity bundle =
        ({ d with
          entries := d.entries.insert device ⟨identity, bundle, []⟩
          generations := d.generations.erase device }, .rotated) := by
      rw [Directory.rotate, Directory.identity, hentry]
      rfl
    rw [hrotate]
    exact h.replaced hentry (fun _ hne => AList.lookup_erase_ne hne) (fun _ => rfl)
      ((h.holds device).opened true (AList.lookup_insert _) (AList.lookup_erase _ _))

theorem depositPrekeys (device : DeviceAddr) (identity : Bytes)
    (bundles : List Bytes) :
    After d log (.depositPrekeys device identity bundles) := by
  rw [After, step]
  cases hentry : d.entries.lookup device with
  | none =>
    have hdeposit : d.depositPrekeys device identity bundles = (d, .unregistered) := by
      rw [Directory.depositPrekeys, hentry]
    rw [hdeposit]
    exact .silent (fun _ => rfl) h.indexed h.holds
  | some entry =>
    by_cases hidentity : entry.identity = identity
    · have hdeposit : d.depositPrekeys device identity bundles =
          ({ d with
            entries := d.entries.insert device { entry with pool := entry.pool ++ bundles } },
            .deposited (entry.pool ++ bundles).length) := by
        rw [Directory.depositPrekeys, hentry]
        exact if_neg (not_not.mpr hidentity)
      rw [hdeposit]
      exact h.replaced hentry (fun _ _ => rfl) (fun _ => rfl)
        ((h.holds device).deposited hentry (AList.lookup_insert _) rfl)
    · have hdeposit : d.depositPrekeys device identity bundles = (d, .rejected) := by
        rw [Directory.depositPrekeys, hentry]
        exact if_pos hidentity
      rw [hdeposit]
      exact .silent (fun _ => rfl) h.indexed h.holds

theorem lookup (device : DeviceAddr) : After d log (.lookup device) := by
  rw [After, step]
  cases hentry : d.entries.lookup device with
  | none =>
    have hlookup : d.lookup device = (d, none) := by
      rw [Directory.lookup, Directory.identity, hentry]
      rfl
    rw [hlookup]
    exact .silent (fun _ => rfl) h.indexed h.holds
  | some entry =>
    cases hpool : entry.pool with
    | nil =>
      have hlookup : d.lookup device = (d, some (entry.identity, entry.bundle)) := by
        simp only [Directory.lookup, Directory.identity, takeBundle, hentry, hpool, Option.map_some]
      rw [hlookup]
      exact h.event (fun _ => rfl) h.indexed (fun _ _ => ⟨rfl, rfl, rfl⟩)
        ((h.holds device).served_bundle hentry hpool)
    | cons oneTime pool =>
      have hlookup : d.lookup device =
          ({ d with entries := d.entries.insert device { entry with pool } },
            some (entry.identity, oneTime)) := by
        simp only [Directory.lookup, Directory.identity, takeBundle, hentry, hpool, Option.map_some]
      rw [hlookup]
      exact h.replaced hentry (fun _ _ => rfl) (fun _ => rfl)
        ((h.holds device).served_waiting hentry hpool (AList.lookup_insert _) rfl)

theorem setRecovery (device : DeviceAddr) (key : Bytes) :
    After d log (.setRecovery device key) := by
  rw [After, step, Directory.setRecovery]
  split
  · exact .silent (fun _ => rfl) h.indexed h.holds
  · next hmem =>
    refine .silent (fun _ => rfl) (h.indexed.congr rfl fun _ => Iff.rfl) fun device' => ?_
    have hdevice := h.holds device'
    refine ⟨hdevice.entry, hdevice.conserved, hdevice.highest, hdevice.generation_bound,
      fun hne => ?_⟩
    by_cases heq : device' = device
    · rw [not_not, mem_entries_iff, ← heq, hdevice.entry, Option.isSome_map] at hmem
      exact Option.isSome_iff_ne_none.mp hmem
    · exact hdevice.recovery_bound (AList.lookup_insert_ne heq ▸ hne)

theorem witness (device : DeviceAddr) (generation : UInt64) :
    After d log (.witness device generation) := by
  rw [After, step, Directory.witness]
  split
  · exact .silent (fun _ => rfl) h.indexed h.holds
  · next hmem =>
    obtain ⟨entry, hentry⟩ := Option.isSome_iff_exists.mp (mem_entries_iff.mp (not_not.mp hmem))
    have hverdict := ((h.holds device).highest.witnessCore generation).2
    refine h.event (e := .shown generation) (fun device' => ?_)
      (h.indexed.congr rfl fun _ => Iff.rfl)
      (fun device' hne => ⟨rfl, rfl, AList.lookup_insert_ne hne⟩)
      ((h.holds device).shown hentry generation rfl (AList.lookup_insert _))
    simp only [hverdict]
    split <;> rfl

/-- A restarted directory holds the same. -/
theorem same_of_restart (hrestart : d.restart = some d') : d.Same d' := by
  have hrecovery (device : DeviceAddr) (hmem : device ∈ d.recovery) : device ∈ d.entries := by
    have hbound := (h.holds device).recovery_bound
      (Option.isSome_iff_ne_none.mp (AList.lookup_isSome.mpr hmem))
    rw [mem_entries_iff, (h.holds device).entry, Option.isSome_map]
    exact Option.isSome_iff_ne_none.mpr hbound
  rw [Directory.restart] at hrestart
  split at hrestart
  · next bytes hsnapshot =>
    obtain ⟨hstorable, rfl⟩ := snapshot_eq_ok_iff.mp hsnapshot
    rw [restore_eq_replayed hstorable] at hrestart
    exact Option.some_inj.mp hrestart ▸ replayed_same h.indexed hrecovery
  · cases hrestart

theorem restart : After d log .restart := by
  cases hrestart : d.restart with
  | none =>
    rw [After, step, hrestart]
    exact .silent (fun _ => rfl) h.indexed h.holds
  | some d' =>
    have hsame := h.same_of_restart hrestart
    rw [After, step, hrestart]
    refine .silent (fun _ => rfl) (fun user => ?_) fun device =>
      (h.holds device).congr ⟨hsame.entries device, hsame.recovery device, hsame.generations device⟩
    rw [hsame.devicesOf]
    refine ⟨(h.indexed user).1, fun n => ((h.indexed user).2 n).trans ?_⟩
    rw [mem_entries_iff, mem_entries_iff, hsame.entries]

/-- Every step keeps the directory as the histories say. -/
theorem step (c : Command) : After d log c := by
  cases c with
  | register device identity bundle => exact h.register device identity bundle
  | rotate device identity bundle => exact h.rotate device identity bundle
  | depositPrekeys device identity bundles => exact h.depositPrekeys device identity bundles
  | lookup device => exact h.lookup device
  | setRecovery device key => exact h.setRecovery device key
  | witness device generation => exact h.witness device generation
  | restart => exact h.restart

theorem lookup_answer (device : DeviceAddr) :
    (d.lookup device).2 = (binding (history device log)).map fun keys =>
      (keys.1, (shelf (history device log)).waiting.headD keys.2) := by
  cases hentry : d.entries.lookup device with
  | none =>
    have hnone := (h.holds device).entry.symm.trans hentry
    rw [Option.map_eq_none_iff.mp hnone, Directory.lookup, Directory.identity, hentry]
    rfl
  | some entry =>
    obtain ⟨hbinding, hwaiting⟩ := (h.holds device).entry_eq hentry
    simp only [Directory.lookup, Directory.identity, takeBundle, hentry, hbinding, hwaiting,
      Option.map_some]
    cases entry.pool <;> rfl

theorem deposit_answer (device : DeviceAddr) (identity : Bytes)
    (bundles : List Bytes) :
    (∃ depth, (d.depositPrekeys device identity bundles).2 = .deposited depth) ↔
      (binding (history device log)).map Prod.fst = some identity := by
  rw [Directory.depositPrekeys]
  cases hentry : d.entries.lookup device with
  | none =>
    have hnone := (h.holds device).entry.symm.trans hentry
    rw [Option.map_eq_none_iff.mp hnone]
    simp
  | some entry =>
    obtain ⟨hbinding, -⟩ := (h.holds device).entry_eq hentry
    rw [hbinding, Option.map_some, Option.some_inj]
    by_cases hidentity : entry.identity = identity <;> simp [hidentity]

theorem witness_answer (device : DeviceAddr) (generation : UInt64) :
    (d.witness device generation).2 =
      if binding (history device log) = none then .unregistered
      else if (shown (history device log)).all (· ≤ generation) then .fresh else .rolledBack := by
  have hverdict := ((h.holds device).highest.witnessCore generation).2
  have hmem : device ∉ d.entries ↔ binding (history device log) = none := by
    rw [mem_entries_iff, (h.holds device).entry, Option.isSome_map, Bool.not_eq_true,
      Option.isSome_eq_false_iff, Option.isNone_iff_eq_none]
  rw [Directory.witness]
  by_cases hbound : binding (history device log) = none
  · rw [if_pos (hmem.mpr hbound), if_pos hbound]
  · rw [if_neg (mt hmem.mp hbound), if_neg hbound]
    exact hverdict

end Tracks

theorem tracks_run (commands : List Command) :
    (Machine.run step Directory.new commands).Tracks (Machine.log step Directory.new commands) :=
  Machine.log_preserves Tracks (fun _ _ c h => h.step c) Tracks.new commands

theorem restart_isSome {d : Directory} (h : d.Storable) : ∃ d', d.restart = some d' := by
  refine ⟨d.replayed, ?_⟩
  rw [restart, snapshot_eq_ok_iff.mpr ⟨h, rfl⟩]
  exact restore_eq_replayed h

/-- After every run of operations and restarts: a directory whose blocks fit a snapshot can be
restarted, and then holds the same. A lookup answers with the bound identity key and the oldest
bundle of the epoch that was not served, or the bundle of the epoch if none waits; what was served
while something waited, and what waits, is what was deposited in the epoch, in order. A deposit is
accepted exactly if the bound key is presented. A generation is fresh exactly if none that was shown
since the last rotation is higher. Only devices with a binding have recovery keys and generations,
and the devices of a user are those with a binding, in order. -/
theorem contract (commands : List Command) :
    let d := Machine.run step Directory.new commands
    let log := Machine.log step Directory.new commands
    (d.Storable → ∃ d', d.restart = some d' ∧ d.Same d') ∧
    (∀ device,
      let events := history device log
      (d.lookup device).2 =
          (binding events).map (fun keys => (keys.1, (shelf events).waiting.headD keys.2)) ∧
        (shelf events).served ++ (shelf events).waiting = deposits events ∧
        (∀ identity bundles,
          (∃ depth, (d.depositPrekeys device identity bundles).2 = .deposited depth) ↔
            (binding events).map Prod.fst = some identity) ∧
        (∀ generation, (d.witness device generation).2 =
          if binding events = none then .unregistered
          else if (shown events).all (· ≤ generation) then .fresh else .rolledBack) ∧
        (d.recovery.lookup device ≠ none → binding events ≠ none) ∧
        (d.generations.lookup device ≠ none → binding events ≠ none)) ∧
    ∀ user, (d.devicesOf user).Pairwise (· < ·) ∧
      ∀ n, n ∈ d.devicesOf user ↔ binding (history ⟨user, n⟩ log) ≠ none := by
  intro d log
  have h : d.Tracks log := tracks_run commands
  refine ⟨fun hstorable => ?_, fun device => ⟨h.lookup_answer device, (h.holds device).conserved,
    h.deposit_answer device, h.witness_answer device, (h.holds device).recovery_bound,
    (h.holds device).generation_bound⟩, fun user => ⟨(h.indexed user).1, fun n => ?_⟩⟩
  · obtain ⟨d', hrestart⟩ := restart_isSome hstorable
    exact ⟨d', hrestart, h.same_of_restart hrestart⟩
  · rw [(h.indexed user).2, mem_entries_iff, (h.holds _).entry, Option.isSome_map,
      Option.isSome_iff_ne_none]

/-- A bundle of `2 ^ 32` bytes can be registered, but a snapshot cannot be taken then. -/
theorem restart_of_long_bundle :
    ∃ bundle : Bytes,
      let d := Machine.run step Directory.new [.register ⟨"alice", 1⟩ [1] bundle]
      (step Directory.new (.register ⟨"alice", 1⟩ [1] bundle)).2 = .registration .registered ∧
        (step d .restart).2 = .failed := by
  refine ⟨List.replicate (2 ^ 32) 0, ?_⟩
  have hlength : (List.replicate (2 ^ 32) (0 : UInt8)).length = 2 ^ 32 := List.length_replicate
  generalize List.replicate (2 ^ 32) (0 : UInt8) = bundle at hlength
  intro d
  have hentries : d.entries.entries = [⟨⟨"alice", 1⟩, ⟨[1], bundle, []⟩⟩] := rfl
  have hrestart : d.restart = none := by
    rw [restart]
    cases hsnapshot : d.snapshot with
    | error e => rfl
    | ok bytes =>
      obtain ⟨hstorable, -⟩ := snapshot_eq_ok_iff.mp hsnapshot
      have hfits :=
        (hstorable.entries.entries_fit _ (hentries ▸ List.mem_singleton_self _)).bundle_lt
      exact absurd hlength (Nat.ne_of_lt hfits)
  exact ⟨rfl, by rw [step, hrestart]⟩

end Directory

end Tacenta
