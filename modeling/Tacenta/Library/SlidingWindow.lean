import Mathlib.Data.List.Count
import Mathlib.Data.List.Sort
import Tacenta.Library.Sorting
import Tacenta.Library.Table
import Tacenta.Library.Word64

/-!
# Sliding windows of time stamps

What a limiter remembers: for each key the times of its recent events. An event counts for the
length of the window. What cannot count any more is dropped, and if there are still too many keys,
those whose last event is the oldest.

## Main definitions

* `SlidingWindow.Stamps`: the times of the events of each key.
* `SlidingWindow.within`, `SlidingWindow.record`, `SlidingWindow.shed`: what counts, how an event is
  added and what is dropped.
* `SlidingWindow.Crowded`, `SlidingWindow.Displaces`: enough other keys have a later last event, and
  the record of an event after which this is so.
* `SlidingWindow.Flood`: a key, and other keys without end that have one later event each.
* `SlidingWindow.Follows`: what is remembered of a key is all that counts of its events, and at most
  `max` of these lie within the length of the window.

## Main results

* `SlidingWindow.lookup_shed`: of the keys that can count, exactly the crowded ones are dropped.
* `SlidingWindow.Flood.record_last`: a flood leaves nothing but its own keys.
* `SlidingWindow.Follows.record`: recording events keeps a key followed that is not displaced.
-/

namespace SlidingWindow

/-- The times of the events of each key. -/
abbrev Stamps := Table String (List UInt64)

/-- An event at the time `t` still counts. -/
def within (window t now : UInt64) : Bool := now ≤ Word64.saturatingAdd t window

/-- The events of a key that still count. -/
def recent (window : UInt64) (stamps : Stamps) (key : String) (now : UInt64) : List UInt64 :=
  ((stamps.lookup key).getD []).filter (within window · now)

/-- The last event of an entry, with the key. -/
def lastSeen (entry : (_ : String) × List UInt64) : UInt64 × String :=
  (entry.2.max?.getD 0, entry.1)

/-- Compare by the last event, then by the key. -/
def compareLastSeen (a b : UInt64 × String) : Ordering :=
  (compare a.1 b.1).then (compare a.2 b.2)

instance : Std.TransCmp compareLastSeen :=
  inferInstanceAs (Std.TransCmp (compareLex (compareOn Prod.fst) (compareOn Prod.snd)))

/-- Order by the last event, then by the key. -/
def lastSeenLe (a b : UInt64 × String) : Prop := (compareLastSeen a b).isLE = true

instance : DecidableRel lastSeenLe := fun a b =>
  inferInstanceAs (Decidable ((compareLastSeen a b).isLE = true))

/-- Drop the keys without an event that counts. If there are still more than `maxKeys`, drop those
whose last event is the oldest. -/
def shed (maxKeys : Nat) (window : UInt64) (stamps : Stamps) (now : UInt64) : Stamps :=
  let kept := stamps.retain fun _ times => times.any (within window · now)
  if kept.entries.length ≤ maxKeys then kept
  else
    let newest := (kept.entries.map lastSeen).insertionSort lastSeenLe
    (newest.take (kept.entries.length - maxKeys)).foldl (fun s entry => s.erase entry.2) kept

/-- Add an event to those of the key that still count, and drop what can be dropped. -/
def record (maxKeys : Nat) (window : UInt64) (stamps : Stamps) (key : String) (now : UInt64) :
    Stamps :=
  shed maxKeys window (stamps.insert key (recent window stamps key now ++ [now])) now

/-! ### What is dropped -/

/-- At least `maxKeys` keys with an event that counts come after the key in the order of the last
events. -/
def Crowded (maxKeys : Nat) (window : UInt64) (stamps : Stamps) (now : UInt64) (key : String) :
    Prop :=
  maxKeys ≤ stamps.entries.countP fun entry => entry.2.any (within window · now) &&
    compareLastSeen (lastSeen ⟨key, (stamps.lookup key).getD []⟩) (lastSeen entry) = .lt

instance (maxKeys : Nat) (window : UInt64) (stamps : Stamps) (now : UInt64) (key : String) :
    Decidable (Crowded maxKeys window stamps now key) :=
  inferInstanceAs (Decidable (_ ≤ _))

/-- Recording an event of one key crowds the other one out. -/
def Displaces (maxKeys : Nat) (window : UInt64) (stamps : Stamps) (recorded : String) (now : UInt64)
    (key : String) : Prop :=
  Crowded maxKeys window
    (stamps.insert recorded (recent window stamps recorded now ++ [now])) now key

theorem compareLastSeen_ne_of_key_ne {a b : UInt64 × String} (h : a.2 ≠ b.2) :
    compareLastSeen a b ≠ .eq := by
  intro heq
  rw [compareLastSeen, Ordering.then_eq_eq, Std.LawfulEqCmp.compare_eq_iff_eq] at heq
  exact h (Std.LawfulEqCmp.compare_eq_iff_eq.mp heq.2)

theorem pairwise_lastSeen (stamps : Stamps) :
    (stamps.entries.map lastSeen).Pairwise fun a b => compareLastSeen a b ≠ .eq := by
  have hkeys : stamps.entries.Pairwise fun e e' => e.1 ≠ e'.1 :=
    List.pairwise_map.mp stamps.nodupKeys
  exact List.pairwise_map.mpr (hkeys.imp compareLastSeen_ne_of_key_ne)

theorem lookup_foldl_erase (dropped : List (UInt64 × String)) (stamps : Stamps) (key : String) :
    (dropped.foldl (fun s entry => s.erase entry.2) stamps).lookup key =
      if key ∈ dropped.map Prod.snd then none else stamps.lookup key := by
  induction dropped generalizing stamps with
  | nil => rfl
  | cons entry dropped ih =>
    rw [List.foldl_cons, ih, Table.lookup_erase_eq, List.map_cons]
    grind

/-- The keys that leave are those with enough keys after them. -/
theorem mem_dropped_iff {maxKeys : Nat} {kept : Stamps} {key : String} {times : List UInt64}
    (hkept : kept.lookup key = some times) (hmany : maxKeys < kept.entries.length) :
    key ∈ (((kept.entries.map lastSeen).insertionSort lastSeenLe).take
        (kept.entries.length - maxKeys)).map Prod.snd ↔
      maxKeys ≤ (kept.entries.map lastSeen).countP fun last =>
        compareLastSeen (lastSeen ⟨key, times⟩) last = .lt := by
  have hperm := List.perm_insertionSort lastSeenLe (kept.entries.map lastSeen)
  have hsorted : ((kept.entries.map lastSeen).insertionSort lastSeenLe).Pairwise fun a b =>
      compareLastSeen a b = .lt := Sorting.pairwise_lt (pairwise_lastSeen kept)
  have hlast : lastSeen ⟨key, times⟩ ∈ (kept.entries.map lastSeen).insertionSort lastSeenLe :=
    hperm.mem_iff.mpr (List.mem_map_of_mem (AList.mem_lookup_iff.mp hkept))
  -- an entry with this key is this entry
  have honly : ∀ last ∈ (kept.entries.map lastSeen).insertionSort lastSeenLe, last.2 = key →
      last = lastSeen ⟨key, times⟩ := by
    intro last hmem hkey
    obtain ⟨entry, hentry, rfl⟩ := List.mem_map.mp (hperm.mem_iff.mp hmem)
    have hlookup : kept.lookup entry.1 = some entry.2 := AList.mem_lookup_iff.mpr hentry
    rw [show entry.1 = key from hkey, hkept, Option.some.injEq] at hlookup
    rw [lastSeen, lastSeen, ← hlookup, show entry.1 = key from hkey]
  have hmem : key ∈ (((kept.entries.map lastSeen).insertionSort lastSeenLe).take
      (kept.entries.length - maxKeys)).map Prod.snd ↔
      lastSeen ⟨key, times⟩ ∈ ((kept.entries.map lastSeen).insertionSort lastSeenLe).take
        (kept.entries.length - maxKeys) := by
    constructor
    · intro hkey
      obtain ⟨last, hlast, hkey⟩ := List.mem_map.mp hkey
      exact honly last (List.mem_of_mem_take hlast) hkey ▸ hlast
    · exact fun h => List.mem_map.mpr ⟨_, h, rfl⟩
  rw [hmem, Sorting.mem_take_iff hsorted hlast, hperm.countP_eq, hperm.length_eq, List.length_map]
  omega

/-- Of the keys that can still count, exactly the crowded ones are dropped. -/
theorem lookup_shed (maxKeys : Nat) (window : UInt64) (stamps : Stamps) (now : UInt64)
    (key : String) :
    (shed maxKeys window stamps now).lookup key =
      if Crowded maxKeys window stamps now key then none
      else (stamps.lookup key).filter fun times => times.any (within window · now) := by
  have hretain := Table.lookup_retain (fun _ times => times.any (within window · now)) stamps key
  cases hkept : (stamps.retain fun _ times => times.any (within window · now)).lookup key with
  | none =>
    rw [← hretain, hkept, ite_self, shed]
    dsimp only
    split
    · exact hkept
    · rw [lookup_foldl_erase, hkept, ite_self]
  | some times =>
    have hlookup := (Table.lookup_of_lookup_retain hkept).1
    have hcount : Crowded maxKeys window stamps now key ↔ maxKeys ≤
        ((stamps.retain fun _ times => times.any (within window · now)).entries.map
          lastSeen).countP fun last => compareLastSeen (lastSeen ⟨key, times⟩) last = .lt := by
      rw [Crowded, hlookup, Option.getD_some, List.countP_map, Table.retain, List.countP_filter]
      exact iff_of_eq (congrArg (maxKeys ≤ ·) (List.countP_congr fun entry _ => by
        rw [Bool.and_comm, Function.comp]))
    simp only [shed, hcount, ← hretain]
    generalize stamps.retain (fun _ times => times.any (within window · now)) = kept at hkept
    rw [hkept]
    split
    · next hfew =>
      have hself : lastSeen ⟨key, times⟩ ∈ kept.entries.map lastSeen :=
        List.mem_map_of_mem (AList.mem_lookup_iff.mp hkept)
      have heq : compareLastSeen (lastSeen ⟨key, times⟩) (lastSeen ⟨key, times⟩) = .eq :=
        Std.ReflCmp.compare_self
      have hlt : ((kept.entries.map lastSeen).countP fun last =>
          compareLastSeen (lastSeen ⟨key, times⟩) last = .lt) <
            (kept.entries.map lastSeen).length :=
        List.countP_lt_length_iff.mpr ⟨_, hself, by simp [heq]⟩
      rw [List.length_map] at hlt
      rw [hkept, if_neg (by omega)]
    · next hmany =>
      rw [lookup_foldl_erase, hkept]
      simp only [← mem_dropped_iff hkept (Nat.not_le.mp hmany)]

theorem within_iff {window t now : UInt64} :
    within window t now = true ↔ now.toNat ≤ t.toNat + window.toNat := by
  rw [within, decide_eq_true_iff, Word64.le_iff, Word64.toNat_saturatingAdd]
  have := now.toNat_lt
  omega

theorem within_of_le {window t now now' : UInt64} (hle : now ≤ now')
    (h : within window t now' = true) : within window t now = true := by
  rw [within_iff] at h ⊢
  exact (Word64.le_iff.mp hle).trans h

theorem filter_recent (window : UInt64) (stamps : Stamps) (key : String) {now now' : UInt64}
    (hle : now ≤ now') :
    (recent window stamps key now).filter (within window · now') =
      recent window stamps key now' := by
  rw [recent, recent, List.filter_filter]
  refine List.filter_congr fun t _ => ?_
  cases hwithin : within window t now' with
  | false => rfl
  | true => rw [within_of_le hle hwithin]; rfl

/-! ### Floods -/

/-- A key with events that count, and other keys without end with one event each, which is later. -/
structure Flood (window now : UInt64) where
  victim : String
  times : List UInt64
  intruder : Nat → String
  counts : times.any (within window · now) = true
  older : times.max?.getD 0 < now
  injective : Function.Injective intruder
  ne_victim : ∀ n, intruder n ≠ victim

namespace Flood

variable {window now : UInt64} {maxKeys : Nat} (F : Flood window now)

/-- What is remembered after so many events of the flood, if nothing is dropped. -/
def entries : Nat → List ((_ : String) × List UInt64)
  | 0 => [⟨F.victim, F.times⟩]
  | n + 1 => ⟨F.intruder n, [now]⟩ :: entries n

variable {F} {stamps : Stamps} {n : Nat}

theorem mem_entries {entry : (_ : String) × List UInt64} (h : entry ∈ F.entries n) :
    entry = ⟨F.victim, F.times⟩ ∨ ∃ i < n, entry = ⟨F.intruder i, [now]⟩ := by
  induction n with
  | zero => exact .inl (List.mem_singleton.mp h)
  | succ n ih =>
    rcases List.mem_cons.mp h with rfl | h
    · exact .inr ⟨n, Nat.lt_succ_self n, rfl⟩
    · exact (ih h).imp_right fun ⟨i, hi, heq⟩ => ⟨i, hi.trans (Nat.lt_succ_self n), heq⟩

theorem length_entries (n : Nat) : (F.entries n).length = n + 1 := by
  induction n with
  | zero => rfl
  | succ n ih => rw [entries, List.length_cons, ih]

theorem intruder_fresh (h : stamps.entries = F.entries n) :
    stamps.lookup (F.intruder n) = none := by
  cases hlookup : stamps.lookup (F.intruder n) with
  | none => rfl
  | some times =>
    have hmem := AList.mem_lookup_iff.mp hlookup
    rw [h] at hmem
    rcases mem_entries hmem with heq | ⟨i, hi, heq⟩
    · exact absurd (congrArg Sigma.fst heq) (F.ne_victim n)
    · exact absurd (F.injective (congrArg Sigma.fst heq)) hi.ne'

/-- An event of the flood adds its key, before what can be dropped is. -/
theorem entries_insert (h : stamps.entries = F.entries n) :
    (stamps.insert (F.intruder n) (recent window stamps (F.intruder n) now ++ [now])).entries =
      F.entries (n + 1) := by
  have hfresh := intruder_fresh h
  rw [AList.entries_insert_of_notMem (AList.lookup_eq_none.mp hfresh), h, recent, hfresh]
  rfl

theorem counts_of_mem {entry : (_ : String) × List UInt64} (h : entry ∈ F.entries n) :
    entry.2.any (within window · now) = true := by
  rcases mem_entries h with rfl | ⟨i, -, rfl⟩
  · exact F.counts
  · rw [List.any_cons, within_iff.mpr (Nat.le_add_right _ _), Bool.true_or]

/-- While there is room, the flood drops nothing. -/
theorem record_intruder (h : stamps.entries = F.entries n) (hn : n + 1 < maxKeys) :
    (record maxKeys window stamps (F.intruder n) now).entries = F.entries (n + 1) := by
  have hinsert := entries_insert h
  rw [record, shed]
  generalize stamps.insert _ _ = inserted at hinsert
  have hkept : (Table.retain (fun _ times => times.any (within window · now)) inserted).entries =
      F.entries (n + 1) := by
    refine (List.filter_eq_self.mpr fun entry hentry => ?_).trans hinsert
    exact counts_of_mem (hinsert ▸ hentry)
  dsimp only
  rw [if_pos (by rw [hkept, length_entries]; omega), hkept]

theorem le_countP_entries (n : Nat) : n ≤ (F.entries n).countP fun entry =>
    entry.2.any (within window · now) &&
      compareLastSeen (lastSeen ⟨F.victim, F.times⟩) (lastSeen entry) = .lt := by
  induction n with
  | zero => exact Nat.zero_le _
  | succ n ih =>
    rw [entries, List.countP_cons_of_pos]
    · exact Nat.succ_le_succ ih
    · have hcounts : [now].any (within window · now) = true :=
        counts_of_mem (F := F) (n := n + 1) List.mem_cons_self
      have hlast : compare (F.times.max?.getD 0) now = .lt :=
        Std.compare_eq_lt.mpr F.older
      rw [hcounts, Bool.true_and, decide_eq_true_iff, compareLastSeen]
      change (compare (F.times.max?.getD 0) now).then _ = .lt
      rw [hlast]
      rfl

/-- With one event too many the victim is dropped, and only keys of the flood are left. -/
theorem record_last (h : stamps.entries = F.entries n) (hn : maxKeys ≤ n + 1) {key : String}
    {times : List UInt64}
    (hlookup : (record maxKeys window stamps (F.intruder n) now).lookup key = some times) :
    ∃ i, key = F.intruder i := by
  have hinsert := entries_insert h
  rw [record] at hlookup
  generalize stamps.insert _ _ = inserted at hinsert hlookup
  rw [lookup_shed] at hlookup
  split at hlookup
  · cases hlookup
  · next hstay =>
    have hinserted := (Option.filter_eq_some_iff.mp hlookup).1
    have hmem := AList.mem_lookup_iff.mp hinserted
    rw [hinsert] at hmem
    rcases mem_entries hmem with heq | ⟨i, -, heq⟩
    · refine absurd ?_ hstay
      obtain ⟨rfl, hheq⟩ := Sigma.mk.inj heq
      rw [Crowded, hinserted, hinsert, eq_of_heq hheq]
      exact hn.trans (le_countP_entries (n + 1))
    · exact ⟨i, (Sigma.mk.inj heq).1⟩

theorem lookup_victim (h : stamps.entries = F.entries n) (hn : maxKeys ≤ n + 1) :
    (record maxKeys window stamps (F.intruder n) now).lookup F.victim = none := by
  cases hlookup : (record maxKeys window stamps (F.intruder n) now).lookup F.victim with
  | none => rfl
  | some times =>
    obtain ⟨i, hi⟩ := record_last h hn hlookup
    exact absurd hi.symm (F.ne_victim i)

end Flood

/-! ### What is remembered of a key -/

/-- Shedding takes nothing that counts from a key that is not crowded. -/
theorem recent_shed {maxKeys : Nat} {window : UInt64} {stamps : Stamps} {key : String}
    {now now' : UInt64} (hle : now ≤ now') (hroom : ¬Crowded maxKeys window stamps now key) :
    recent window (shed maxKeys window stamps now) key now' = recent window stamps key now' := by
  rw [recent, lookup_shed, if_neg hroom, recent]
  cases stamps.lookup key with
  | none => rfl
  | some times =>
    rw [Option.filter_some]
    split
    · rfl
    · next hany =>
      refine (List.filter_eq_nil_iff.mpr fun t ht hwithin => hany ?_).symm
      exact List.any_eq_true.mpr ⟨t, ht, within_of_le hle hwithin⟩

/-- What is remembered of the key is all that counts of these events, none of which is later than
the clock, and at most `max` of them lie within the length of the window. -/
structure Follows (max : Nat) (window : UInt64) (stamps : Stamps) (key : String)
    (times : List UInt64) (clock : UInt64) : Prop where
  recent_eq : ∀ now, clock ≤ now →
    recent window stamps key now = times.filter (within window · now)
  le_clock : ∀ t ∈ times, t ≤ clock
  spaced : ∀ start : UInt64, (times.countP fun t => start ≤ t && within window start t) ≤ max

namespace Follows

variable {max maxKeys : Nat} {window : UInt64} {stamps : Stamps} {key : String}
  {times : List UInt64} {clock : UInt64}

theorem empty (max : Nat) (window : UInt64) {stamps : Stamps} {key : String} (clock : UInt64)
    (h : stamps.lookup key = none) : Follows max window stamps key [] clock where
  recent_eq now _ := by rw [recent, h]; rfl
  le_clock _ ht := absurd ht List.not_mem_nil
  spaced _ := Nat.zero_le _

variable (h : Follows max window stamps key times clock)
include h

theorem mono {clock' : UInt64} (hle : clock ≤ clock') :
    Follows max window stamps key times clock' where
  recent_eq now hnow := h.recent_eq now (UInt64.le_trans hle hnow)
  le_clock t ht := UInt64.le_trans (h.le_clock t ht) hle
  spaced := h.spaced

/-- A change of what is remembered that takes nothing from the key. -/
theorem of_recent_eq {stamps' : Stamps}
    (heq : ∀ now, clock ≤ now → recent window stamps' key now = recent window stamps key now) :
    Follows max window stamps' key times clock where
  recent_eq now hnow := (heq now hnow).trans (h.recent_eq now hnow)
  le_clock := h.le_clock
  spaced := h.spaced

/-- A new event, if there is room for it within the window. -/
theorem push {now : UInt64} (hle : clock ≤ now)
    (hroom : (recent window stamps key now).length < max) {stamps' : Stamps}
    (heq : ∀ now', now ≤ now' → recent window stamps' key now' =
      (recent window stamps key now ++ [now]).filter (within window · now')) :
    Follows max window stamps' key (times ++ [now]) now where
  recent_eq now' hnow := by
    rw [heq now' hnow, List.filter_append, List.filter_append, filter_recent _ _ _ hnow,
      h.recent_eq now' (UInt64.le_trans hle hnow)]
  le_clock t ht := by
    rcases List.mem_append.mp ht with ht | ht
    · exact UInt64.le_trans (h.le_clock t ht) hle
    · exact List.mem_singleton.mp ht ▸ UInt64.le_refl _
  spaced start := by
    rw [List.countP_append]
    cases hnow : (start ≤ now && within window start now : Bool) with
    | false =>
      rw [List.countP_singleton, hnow]
      exact h.spaced start
    | true =>
      -- what counts from the start on still counts now
      rw [h.recent_eq now hle, ← List.countP_eq_length_filter] at hroom
      have hmono : (times.countP fun t => start ≤ t && within window start t) ≤
          times.countP (within window · now) := by
        refine List.countP_mono_left fun t _ ht => ?_
        rw [Bool.and_eq_true, decide_eq_true_iff, Word64.le_iff] at ht
        rw [Bool.and_eq_true] at hnow
        have := within_iff.mp hnow.2
        exact within_iff.mpr (by omega)
      rw [List.countP_singleton, hnow]
      simp only [if_true]
      omega

/-- Recording an event of any key keeps a key followed that it does not crowd out. -/
theorem record {recorded : String} {now : UInt64} (hle : clock ≤ now)
    (hroom : (recent window stamps recorded now).length < max)
    (hstay : ¬Displaces maxKeys window stamps recorded now key) :
    Follows max window (record maxKeys window stamps recorded now) key
      (if recorded = key then times ++ [now] else times) now := by
  have hshed (now' : UInt64) (hnow : now ≤ now') := recent_shed hnow hstay
  split
  · next heq =>
    subst heq
    refine h.push hle hroom fun now' hnow => ?_
    rw [SlidingWindow.record, hshed now' hnow, recent, Table.lookup_insert_eq, if_pos rfl]
    rfl
  · next hne =>
    refine (h.mono hle).of_recent_eq fun now' hnow => ?_
    rw [SlidingWindow.record, hshed now' hnow, recent, Table.lookup_insert_eq, if_neg (Ne.symm hne)]
    rfl

theorem prune (pruned : String) {now : UInt64} (hle : clock ≤ now) :
    Follows max window (stamps.insert pruned (recent window stamps pruned now)) key times now := by
  refine (h.mono hle).of_recent_eq fun now' hnow => ?_
  rw [recent, Table.lookup_insert_eq]
  split
  · next heq => rw [heq, Option.getD_some, filter_recent _ _ _ hnow]
  · rfl

theorem erase (erased : String) :
    Follows max window (stamps.erase erased) key (if erased = key then [] else times) clock := by
  split
  · next heq => exact heq ▸ empty _ _ _ (AList.lookup_erase _ _)
  · next hne =>
    refine h.of_recent_eq fun now' _ => ?_
    rw [recent, Table.lookup_erase_eq, if_neg (Ne.symm hne)]
    rfl

end Follows

end SlidingWindow
