import Mathlib.Logic.Function.Basic
import Tacenta.Client.OperationStore
import Tacenta.Library.Execution

/-!
# Handles publish only over what they have seen

Several handles share one store. The store compares the durable generation and writes in one atomic
step and reports a write as committed only if it was applied, but it may report a failed or unknown
write whether or not it was applied. Every interleaving of commits and recoveries is allowed, as
long as each committed snapshot carries the generation that its handle prescribes.

## Main definitions

* `Medium`: the shared store, with the fate of the next write.
* `World`, `World.step`: any number of handles over one store.
* `World.Sequenced`: each committed snapshot carries the prescribed generation.

## Main results

* `World.step_stepped`: everything that one call of a handle can do.
* `World.store_fence`: the fence.
-/

namespace Tacenta.Client

/-- A write that a store was asked for. -/
structure Write where
  snapshot : OperationSnapshot
  /-- Whether it was applied. -/
  applied : Bool
  deriving DecidableEq

/-- The shared store during one call: its durable snapshot, the fate of a write, whether it can be
read, and the writes it was asked for. -/
structure Medium where
  durable : Option OperationSnapshot
  /-- The fate of a write. -/
  fate : Fate
  /-- Whether the store can be read. -/
  readable : Bool
  /-- The writes asked for. -/
  writes : List Write

namespace Medium

/-- Write a snapshot as the fate says. -/
def write (m : Medium) (snapshot : OperationSnapshot) : Medium × CommitOutcome :=
  ({ m with
      durable := if m.fate.applied then some snapshot else m.durable
      writes := m.writes ++ [⟨snapshot, m.fate.applied⟩] }, m.fate.outcome)

/-- Refuse a write: it is not applied and not reported as committed. -/
def refuse (m : Medium) (snapshot : OperationSnapshot) : Medium × CommitOutcome :=
  ({ m with writes := m.writes ++ [⟨snapshot, false⟩] },
    if m.fate.outcome = .committed then .failed else m.fate.outcome)

instance : OperationStore Medium where
  commit := write
  recover m := (m, if m.readable then .ok m.durable else .error .storeError)
  commitAfter m expected snapshot :=
    if m.durable.map OperationSnapshot.generation = expected then m.write snapshot
    else m.refuse snapshot

end Medium

/-! ### Handles over one store -/

/-- One handle, with the snapshot that it last recovered or published. -/
structure Holder where
  /-- What the handle remembers. -/
  latch : Latch
  /-- The snapshot last recovered or published. -/
  seen : Option OperationSnapshot

/-- The durable snapshot and the handles. -/
structure World where
  durable : Option OperationSnapshot
  /-- The handles. -/
  holders : ℕ → Holder

/-- A call of a handle, with what the store does in it. -/
inductive Op where
  | commit (snapshot : OperationSnapshot) (fate : Fate)
  | recover (readable : Bool)
  | recoverNotBehind (readable : Bool)

/-- A call of one of the handles. -/
structure Action where
  handle : ℕ
  /-- The call. -/
  op : Op

/-- What a call did: the writes forwarded to the store, the outcome of a commit, and the snapshot of
a successful recovery. -/
structure Report where
  /-- The writes forwarded to the store. -/
  writes : List Write
  outcome : Option CommitOutcome
  /-- What a successful recovery returned. -/
  recovered : Option (Option OperationSnapshot)

namespace World

/-- A store with new handles. -/
def initial (durable : Option OperationSnapshot) : World := ⟨durable, fun _ => ⟨Latch.new, none⟩⟩

/-- The world after a handle's call. -/
def put (w : World) (handle : ℕ) (store : DurableStore Medium) (seen : Option OperationSnapshot) :
    World :=
  ⟨store.inner.durable, Function.update w.holders handle ⟨store.latch, seen⟩⟩

/-- A handle over the shared store, for one call. -/
def open' (w : World) (handle : ℕ) (fate : Fate) (readable : Bool) : DurableStore Medium :=
  ⟨⟨w.durable, fate, readable, []⟩, (w.holders handle).latch⟩

/-- A fate for calls that do not write. -/
def noFate : Fate := ⟨false, .failed, nofun⟩

/-- One call of a handle. -/
def step : Machine World Action Report
  | w, ⟨handle, .commit snapshot fate⟩ =>
    let (store, outcome) := OperationStore.commit (w.open' handle fate true) snapshot
    let seen := if outcome = .committed then some snapshot else (w.holders handle).seen
    (w.put handle store seen, ⟨store.inner.writes, some outcome, none⟩)
  | w, ⟨handle, .recover readable⟩ =>
    match OperationStore.recover (w.open' handle noFate readable) with
    | (store, .ok recovered) =>
      (w.put handle store recovered, ⟨store.inner.writes, none, some recovered⟩)
    | (store, .error _) =>
      (w.put handle store (w.holders handle).seen, ⟨store.inner.writes, none, none⟩)
  | w, ⟨handle, .recoverNotBehind readable⟩ =>
    match (w.open' handle noFate readable).recoverNotBehind with
    | (store, .ok recovered) =>
      (w.put handle store recovered, ⟨store.inner.writes, none, some recovered⟩)
    | (store, .error _) =>
      (w.put handle store (w.holders handle).seen, ⟨store.inner.writes, none, none⟩)

/-- A committed snapshot carries the generation that follows the snapshot its handle last recovered
or published. -/
def Sequenced (w : World) : Action → Prop
  | ⟨handle, .commit snapshot _⟩ =>
    ∃ g, (∀ s ∈ (w.holders handle).seen, g = s.generation) ∧
      (w.holders handle).latch.nextGeneration g = some snapshot.generation
  | _ => True

/-! ### What a call can do -/

/-- Replace what one handle remembers. -/
def setHolder (w : World) (handle : ℕ) (holder : Holder) : World :=
  { w with holders := Function.update w.holders handle holder }

/-- Everything that one call can do. -/
inductive Stepped (w : World) : Action → World × Report → Prop
  | frozen {handle snapshot fate} (h : (w.holders handle).latch.frozen = true) :
      Stepped w ⟨handle, .commit snapshot fate⟩ (w, ⟨[], some .failed, none⟩)
  | unapplied {handle snapshot fate} {outcome : CommitOutcome}
      (hfrozen : (w.holders handle).latch.frozen = false) (houtcome : outcome ≠ .committed) :
      Stepped w ⟨handle, .commit snapshot fate⟩
        (w.setHolder handle
          ⟨(w.holders handle).latch.attempt snapshot outcome, (w.holders handle).seen⟩,
          ⟨[⟨snapshot, false⟩], some outcome, none⟩)
  | applied {handle snapshot fate} {outcome : CommitOutcome}
      (hfrozen : (w.holders handle).latch.frozen = false)
      (hmatch : w.durable.map OperationSnapshot.generation = (w.holders handle).latch.observed) :
      Stepped w ⟨handle, .commit snapshot fate⟩
        (⟨some snapshot, Function.update w.holders handle
          ⟨(w.holders handle).latch.attempt snapshot outcome,
            if outcome = .committed then some snapshot else (w.holders handle).seen⟩⟩,
          ⟨[⟨snapshot, true⟩], some outcome, none⟩)
  | recovered {handle op} (hop : ∀ snapshot fate, op ≠ .commit snapshot fate) :
      Stepped w ⟨handle, op⟩
        (w.setHolder handle ⟨(w.holders handle).latch.adopt w.durable, w.durable⟩,
          ⟨[], none, some w.durable⟩)
  | unrecovered {handle op} (frozen : Bool) (hop : ∀ snapshot fate, op ≠ .commit snapshot fate)
      (hfrozen : (w.holders handle).latch.frozen = true → frozen = true) :
      Stepped w ⟨handle, op⟩
        (w.setHolder handle ⟨{ (w.holders handle).latch with frozen }, (w.holders handle).seen⟩,
          ⟨[], none, none⟩)

private theorem step_commit {w : World} {handle : ℕ} {snapshot : OperationSnapshot} {fate : Fate}
    {store : DurableStore Medium} {outcome : CommitOutcome}
    (h : (w.open' handle fate true).commit snapshot = (store, outcome)) :
    step w ⟨handle, .commit snapshot fate⟩ =
      (w.put handle store (if outcome = .committed then some snapshot else (w.holders handle).seen),
        ⟨store.inner.writes, some outcome, none⟩) := by
  have hcommit : OperationStore.commit (w.open' handle fate true) snapshot = (store, outcome) := h
  simp only [step, hcommit]

private theorem commit_stepped (w : World) (handle : ℕ) (snapshot : OperationSnapshot)
    (fate : Fate) : Stepped w ⟨handle, .commit snapshot fate⟩
      (step w ⟨handle, .commit snapshot fate⟩) := by
  set store := w.open' handle fate true
  by_cases hfrozen : (w.holders handle).latch.frozen = true
  · have hput : w.put handle store (w.holders handle).seen = w := by
      change World.mk w.durable (Function.update w.holders handle (w.holders handle)) = w
      rw [Function.update_eq_self]
    rw [step_commit (DurableStore.commit_of_frozen hfrozen snapshot), if_neg nofun, hput]
    exact .frozen hfrozen
  rw [Bool.not_eq_true] at hfrozen
  by_cases hmatch : w.durable.map OperationSnapshot.generation = (w.holders handle).latch.observed
  · have hinner : OperationStore.commitAfter store.inner store.latch.observed snapshot =
        (⟨if fate.applied then some snapshot else w.durable, fate, true,
          [⟨snapshot, fate.applied⟩]⟩, fate.outcome) := if_pos hmatch
    rw [step_commit (DurableStore.commit_of_not_frozen hfrozen hinner)]
    by_cases happlied : fate.applied = true
    · rw [happlied, if_pos rfl]
      exact .applied hfrozen hmatch
    · have hnot : fate.outcome ≠ .committed := fun h => happlied (fate.applied_of_committed h)
      rw [Bool.not_eq_true] at happlied
      rw [happlied, if_neg Bool.false_ne_true, if_neg hnot]
      exact .unapplied hfrozen hnot
  · have hinner : OperationStore.commitAfter store.inner store.latch.observed snapshot =
        (⟨w.durable, fate, true, [⟨snapshot, false⟩]⟩,
          if fate.outcome = .committed then .failed else fate.outcome) := if_neg hmatch
    have hnot : (if fate.outcome = .committed then .failed else fate.outcome) ≠
        CommitOutcome.committed := by
      split
      · exact nofun
      · assumption
    rw [step_commit (DurableStore.commit_of_not_frozen hfrozen hinner), if_neg hnot]
    exact .unapplied hfrozen hnot

theorem step_stepped (w : World) (a : Action) : Stepped w a (step w a) := by
  obtain ⟨handle, op⟩ := a
  cases op with
  | commit snapshot fate => exact commit_stepped w handle snapshot fate
  | recover readable =>
    cases readable with
    | true => exact .recovered (fun _ _ => nofun)
    | false => exact .unrecovered (w.holders handle).latch.frozen (fun _ _ => nofun) id
  | recoverNotBehind readable =>
    cases readable with
    | true =>
      simp only [step, DurableStore.recoverNotBehind, open', OperationStore.recover, if_true]
      by_cases hbehind : (w.holders handle).latch.isBehind w.durable = true
      · simp only [hbehind, if_true]
        exact .unrecovered true (fun _ _ => nofun) fun _ => rfl
      · simp only [hbehind, Bool.false_eq_true, if_false]
        exact .recovered (fun _ _ => nofun)
    | false => exact .unrecovered (w.holders handle).latch.frozen (fun _ _ => nofun) id

/-! ### The invariant -/

/-- The snapshots that were applied, in order. -/
def published (log : List (Action × Report)) : List OperationSnapshot :=
  log.flatMap fun entry => (entry.2.writes.filter Write.applied).map Write.snapshot

/-- The snapshots that a handle forwarded to the store, in order. -/
def attempts (handle : ℕ) (log : List (Action × Report)) : List OperationSnapshot :=
  (log.filter fun entry => entry.1.handle = handle).flatMap fun entry =>
    entry.2.writes.map Write.snapshot

/-- The snapshots that were ever durable, in order. -/
def epochs (first : Option OperationSnapshot) (log : List (Action × Report)) :
    List OperationSnapshot := first.toList ++ published log

theorem published_concat (log : List (Action × Report)) (entry : Action × Report) :
    published (log ++ [entry]) =
      published log ++ (entry.2.writes.filter Write.applied).map Write.snapshot := by
  simp only [published, List.flatMap_append, List.flatMap_singleton]

theorem epochs_concat (first : Option OperationSnapshot) (log : List (Action × Report))
    (entry : Action × Report) :
    epochs first (log ++ [entry]) =
      epochs first log ++ (entry.2.writes.filter Write.applied).map Write.snapshot := by
  rw [epochs, published_concat, epochs, List.append_assoc]

theorem attempts_concat (handle : ℕ) (log : List (Action × Report)) (entry : Action × Report) :
    attempts handle (log ++ [entry]) = attempts handle log ++
      if entry.1.handle = handle then entry.2.writes.map Write.snapshot else [] := by
  simp only [attempts, List.filter_append, List.flatMap_append]
  by_cases h : entry.1.handle = handle <;> simp [h]

/-- A handle has seen a snapshot that was durable, and the generations of its attempts increase up
to its high water. -/
structure HolderInv (first : Option OperationSnapshot) (past : List (Action × Report))
    (handle : ℕ) (holder : Holder) : Prop where
  observed_eq : holder.latch.observed = holder.seen.map OperationSnapshot.generation
  seen_mem : ∀ s ∈ holder.seen, s ∈ epochs first past
  attempts_le : ∀ s ∈ attempts handle past,
    s.generation.toNat ≤ holder.latch.highWater.toNat
  attempts_increasing : (attempts handle past).Pairwise fun a b => a.generation < b.generation

/-- Generations increase along what was ever durable, and the newest such snapshot is the durable
one. -/
structure FenceInv (first : Option OperationSnapshot) (w : World) (past : List (Action × Report)) :
    Prop where
  increasing : (epochs first past).Pairwise fun a b => a.generation < b.generation
  durable_eq : w.durable = (epochs first past).getLast?
  holder : ∀ handle, HolderInv first past handle (w.holders handle)

variable {first : Option OperationSnapshot} {w : World} {past : List (Action × Report)}

private theorem eq_of_generation_eq {l : List OperationSnapshot}
    (h : l.Pairwise fun a b => a.generation < b.generation) {a b : OperationSnapshot} (ha : a ∈ l)
    (hb : b ∈ l) (hab : a.generation = b.generation) : a = b := by
  induction l with
  | nil => exact absurd ha List.not_mem_nil
  | cons x l ih =>
    obtain ⟨hx, hl⟩ := List.pairwise_cons.mp h
    have hne : ∀ y ∈ l, x.generation ≠ y.generation := fun y hy heq => by
      have := Word64.lt_iff.mp (hx y hy)
      rw [heq] at this
      exact lt_irrefl _ this
    rcases List.mem_cons.mp ha with hax | hal <;> rcases List.mem_cons.mp hb with hbx | hbl
    · rw [hax, hbx]
    · exact absurd (hax ▸ hab) (hne b hbl)
    · exact absurd (hbx ▸ hab.symm) (hne a hal)
    · exact ih hl hal hbl

private theorem generation_le_getLast {l : List OperationSnapshot}
    (h : l.Pairwise fun a b => a.generation < b.generation) {last : OperationSnapshot}
    (hlast : l.getLast? = some last) : ∀ a ∈ l, a.generation.toNat ≤ last.generation.toNat := by
  obtain ⟨before, rfl⟩ := List.getLast?_eq_some_iff.mp hlast
  intro a ha
  rcases List.mem_append.mp ha with ha | ha
  · exact (Word64.lt_iff.mp ((List.pairwise_append.mp h).2.2 a ha last
      (List.mem_singleton_self last))).le
  · rw [List.mem_singleton.mp ha]

private theorem lt_of_nextGeneration {l : Latch} {g next : UInt64}
    (h : l.nextGeneration g = some next) :
    g.toNat < next.toNat ∧ l.highWater.toNat < next.toNat := by
  rw [Latch.nextGeneration, Word64.checkedAdd_eq_some, Word64.toNat_max] at h
  have h1 : (1 : UInt64).toNat = 1 := rfl
  omega

/-- A write that meets the expected generation replaces what its handle has seen. -/
theorem FenceInv.durable_eq_seen (h : FenceInv first w past) {handle : ℕ}
    (hmatch : w.durable.map OperationSnapshot.generation = (w.holders handle).latch.observed) :
    w.durable = (w.holders handle).seen := by
  rw [(h.holder handle).observed_eq] at hmatch
  cases hdurable : w.durable with
  | none =>
    rw [hdurable] at hmatch
    exact (Option.map_eq_none_iff.mp hmatch.symm).symm
  | some d =>
    rw [hdurable, Option.map_some, eq_comm, Option.map_eq_some_iff] at hmatch
    obtain ⟨s, hs, hgeneration⟩ := hmatch
    have hd : d ∈ epochs first past :=
      List.mem_of_getLast? (h.durable_eq.symm.trans hdurable)
    rw [hs, eq_of_generation_eq h.increasing hd ((h.holder handle).seen_mem s hs) hgeneration.symm]

/-! ### One step -/

theorem HolderInv.other {handle : ℕ} {holder : Holder} (h : HolderInv first past handle holder)
    {entry : Action × Report} (hne : entry.1.handle ≠ handle) :
    HolderInv first (past ++ [entry]) handle holder := by
  have hattempts : attempts handle (past ++ [entry]) = attempts handle past := by
    rw [attempts_concat, if_neg hne, List.append_nil]
  refine ⟨h.observed_eq, fun s hs => ?_, hattempts ▸ h.attempts_le,
    hattempts ▸ h.attempts_increasing⟩
  rw [epochs_concat]
  exact List.mem_append_left _ (h.seen_mem s hs)

/-- A call that forwards no write and lowers no high water. -/
theorem HolderInv.unwritten {handle : ℕ} {old new : Holder} (h : HolderInv first past handle old)
    {entry : Action × Report} (hwrites : entry.2.writes = [])
    (hobserved : new.latch.observed = new.seen.map OperationSnapshot.generation)
    (hseen : ∀ s ∈ new.seen, s ∈ epochs first past)
    (hhigh : old.latch.highWater.toNat ≤ new.latch.highWater.toNat) :
    HolderInv first (past ++ [entry]) handle new := by
  have hattempts : attempts handle (past ++ [entry]) = attempts handle past := by
    rw [attempts_concat, hwrites, List.map_nil, ite_self, List.append_nil]
  have hepochs : epochs first (past ++ [entry]) = epochs first past := by
    rw [epochs_concat, hwrites]
    exact List.append_nil _
  refine ⟨hobserved, hepochs ▸ hseen, ?_, hattempts ▸ h.attempts_increasing⟩
  rw [hattempts]
  exact fun s hs => (h.attempts_le s hs).trans hhigh

/-- A forwarded write above the handle's high water. -/
theorem HolderInv.written {handle : ℕ} {old new : Holder} (h : HolderInv first past handle old)
    {entry : Action × Report} {write : Write} (hhandle : entry.1.handle = handle)
    (hwrites : entry.2.writes = [write])
    (hobserved : new.latch.observed = new.seen.map OperationSnapshot.generation)
    (hseen : ∀ s ∈ new.seen, s ∈ epochs first (past ++ [entry]))
    (hnew : old.latch.highWater.toNat < write.snapshot.generation.toNat)
    (hhigh : new.latch.highWater = max old.latch.highWater write.snapshot.generation) :
    HolderInv first (past ++ [entry]) handle new := by
  have hattempts :
      attempts handle (past ++ [entry]) = attempts handle past ++ [write.snapshot] := by
    rw [attempts_concat, if_pos hhandle, hwrites, List.map_singleton]
  refine ⟨hobserved, hseen, ?_, ?_⟩
  · rw [hattempts, hhigh, Word64.toNat_max]
    intro s hs
    rcases List.mem_append.mp hs with hs | hs
    · exact (h.attempts_le s hs).trans (le_max_left _ _)
    · rw [List.mem_singleton.mp hs]
      exact le_max_right _ _
  · rw [hattempts]
    refine List.pairwise_append.mpr ⟨h.attempts_increasing, List.pairwise_singleton _ _, ?_⟩
    intro s hs last hlast
    rw [List.mem_singleton.mp hlast]
    exact Word64.lt_iff.mpr ((h.attempts_le s hs).trans_lt hnew)

/-- The invariant after a call, from what the call did to its own handle. -/
theorem FenceInv.update (h : FenceInv first w past) (a : Action) (report : Report)
    {durable : Option OperationSnapshot} {holder : Holder}
    (hincreasing : (epochs first (past ++ [(a, report)])).Pairwise
      fun a b => a.generation < b.generation)
    (hdurable : durable = (epochs first (past ++ [(a, report)])).getLast?)
    (hholder : HolderInv first (past ++ [(a, report)]) a.handle holder) :
    FenceInv first ⟨durable, Function.update w.holders a.handle holder⟩
      (past ++ [(a, report)]) := by
  refine ⟨hincreasing, hdurable, fun k => ?_⟩
  rcases eq_or_ne k a.handle with rfl | hk
  · simpa only [Function.update_self] using hholder
  · simpa only [Function.update_of_ne hk] using (h.holder k).other hk.symm

theorem FenceInv.update_unapplied (h : FenceInv first w past) (a : Action) (report : Report)
    {holder : Holder} (hreport : report.writes.filter Write.applied = [])
    (hholder : HolderInv first (past ++ [(a, report)]) a.handle holder) :
    FenceInv first (w.setHolder a.handle holder) (past ++ [(a, report)]) := by
  have hepochs : epochs first (past ++ [(a, report)]) = epochs first past := by
    rw [epochs_concat, hreport]
    exact List.append_nil _
  exact h.update a report (hepochs ▸ h.increasing) (hepochs ▸ h.durable_eq) hholder

theorem FenceInv.step (h : FenceInv first w past) {a : Action} (ha : w.Sequenced a) :
    FenceInv first (step w a).1 (past ++ [(a, (step w a).2)]) := by
  have hs := step_stepped w a
  generalize World.step w a = result at hs ⊢
  cases hs with
  | @frozen handle snapshot fate hfrozen =>
    have hself : w.setHolder handle (w.holders handle) = w := by
      rw [setHolder, Function.update_eq_self]
    have hholder := h.holder handle
    have hupdate := h.update_unapplied ⟨handle, .commit snapshot fate⟩ ⟨[], some .failed, none⟩ rfl
      (hholder.unwritten rfl hholder.observed_eq hholder.seen_mem le_rfl)
    rwa [hself] at hupdate
  | @unapplied handle snapshot fate outcome hfrozen houtcome =>
    obtain ⟨g, -, hnext⟩ := ha
    have hholder := h.holder handle
    refine h.update_unapplied ⟨handle, .commit snapshot fate⟩ _ rfl ?_
    refine hholder.written rfl rfl ?_ (fun s hs => ?_) (lt_of_nextGeneration hnext).2 rfl
    · simpa only [Latch.attempt, houtcome, if_false] using hholder.observed_eq
    · rw [epochs_concat]
      exact List.mem_append_left _ (hholder.seen_mem s hs)
  | @applied handle snapshot fate outcome hfrozen hmatch =>
    obtain ⟨g, hg, hnext⟩ := ha
    obtain ⟨hgt, hhigh⟩ := lt_of_nextGeneration hnext
    have hseen := h.durable_eq_seen hmatch
    have hepochs : epochs first (past ++ [(⟨handle, .commit snapshot fate⟩,
        ⟨[⟨snapshot, true⟩], some outcome, none⟩)]) = epochs first past ++ [snapshot] :=
      epochs_concat _ _ _
    refine h.update ⟨handle, .commit snapshot fate⟩ _ ?_ ?_ ?_
    · rw [hepochs]
      refine List.pairwise_append.mpr ⟨h.increasing, List.pairwise_singleton _ _, ?_⟩
      intro e he new hnew
      rw [List.mem_singleton.mp hnew]
      cases hdurable : w.durable with
      | none =>
        have hnil := List.getLast?_eq_none_iff.mp (h.durable_eq.symm.trans hdurable)
        rw [hnil] at he
        exact absurd he List.not_mem_nil
      | some d =>
        have hle := generation_le_getLast h.increasing (h.durable_eq.symm.trans hdurable) e he
        rw [hg d (hseen ▸ hdurable)] at hgt
        exact Word64.lt_iff.mpr (hle.trans_lt hgt)
    · rw [hepochs, List.getLast?_concat]
    · refine (h.holder handle).written rfl rfl ?_ ?_ hhigh rfl
      · by_cases hcommitted : outcome = .committed
        · simp only [Latch.attempt, hcommitted, if_true, Option.map_some]
        · simpa only [Latch.attempt, hcommitted, if_false] using (h.holder handle).observed_eq
      · rw [hepochs]
        intro s hs
        by_cases hcommitted : outcome = .committed
        · rw [if_pos hcommitted] at hs
          rw [← Option.some.inj hs]
          exact List.mem_append_right _ (List.mem_singleton_self _)
        · rw [if_neg hcommitted] at hs
          exact List.mem_append_left _ ((h.holder handle).seen_mem s hs)
  | @recovered handle op hop =>
    refine h.update_unapplied ⟨handle, op⟩ _ rfl ?_
    refine (h.holder handle).unwritten rfl rfl (fun s hs => ?_) ?_
    · exact List.mem_of_getLast? (h.durable_eq.symm.trans hs)
    · cases w.durable with
      | none => exact le_rfl
      | some d =>
        simp only [Latch.adopt, Word64.toNat_max]
        exact le_max_left _ _
  | @unrecovered handle op frozen hop hfrozen =>
    have hholder := h.holder handle
    exact h.update_unapplied ⟨handle, op⟩ _ rfl
      (hholder.unwritten rfl hholder.observed_eq hholder.seen_mem le_rfl)

/-! ### The latch -/

/-- A call of another handle, or one that is not a successful recovery, keeps a latched handle
latched. -/
theorem step_frozen {handle : ℕ} {a : Action} (h : (w.holders handle).latch.frozen = true)
    (hrecovered : a.handle = handle → (step w a).2.recovered = none) :
    ((step w a).1.holders handle).latch.frozen = true := by
  have hs := step_stepped w a
  generalize World.step w a = result at hs hrecovered ⊢
  cases hs with
  | frozen _ => exact h
  | @unapplied k snapshot fate outcome hopen houtcome =>
    rcases eq_or_ne handle k with rfl | hk
    · exact absurd h (by rw [hopen]; exact Bool.false_ne_true)
    · simpa only [setHolder, Function.update_of_ne hk] using h
  | @applied k snapshot fate outcome hopen hmatch =>
    rcases eq_or_ne handle k with rfl | hk
    · exact absurd h (by rw [hopen]; exact Bool.false_ne_true)
    · simpa only [Function.update_of_ne hk] using h
  | @recovered k op hop =>
    rcases eq_or_ne handle k with rfl | hk
    · exact nomatch hrecovered rfl
    · simpa only [setHolder, Function.update_of_ne hk] using h
  | @unrecovered k op frozen hop hfrozen =>
    rcases eq_or_ne handle k with rfl | hk
    · simpa only [setHolder, Function.update_self] using hfrozen h
    · simpa only [setHolder, Function.update_of_ne hk] using h

theorem step_latches {a : Action} {outcome : CommitOutcome}
    (h : (step w a).2.outcome = some outcome) (hne : outcome ≠ .committed) :
    ((step w a).1.holders a.handle).latch.frozen = true := by
  have hs := step_stepped w a
  generalize World.step w a = result at hs h ⊢
  cases hs with
  | frozen hfrozen => exact hfrozen
  | unapplied _ houtcome => simp only [setHolder, Function.update_self, Latch.attempt, houtcome,
      if_false]
  | applied _ _ =>
    obtain rfl := Option.some.inj h
    simp only [Function.update_self, Latch.attempt, hne, if_false]
  | recovered _ => exact nomatch h
  | unrecovered _ _ _ => exact nomatch h

theorem step_writes_of_frozen {a : Action} (h : (w.holders a.handle).latch.frozen = true) :
    (step w a).2.writes = [] := by
  have hs := step_stepped w a
  generalize World.step w a = result at hs ⊢
  cases hs with
  | frozen _ => rfl
  | unapplied hopen _ => exact absurd h (by rw [hopen]; exact Bool.false_ne_true)
  | applied hopen _ => exact absurd h (by rw [hopen]; exact Bool.false_ne_true)
  | recovered _ => rfl
  | unrecovered _ _ _ => rfl

/-- A latched handle stays latched along calls among which it has no successful recovery. -/
theorem run_frozen {handle : ℕ} (actions : List Action)
    (h : (w.holders handle).latch.frozen = true)
    (hrecovered : ∀ entry ∈ step.log w actions, entry.1.handle = handle →
      entry.2.recovered = none) :
    ((step.run w actions).holders handle).latch.frozen = true := by
  induction actions generalizing w with
  | nil => exact h
  | cons a actions ih =>
    obtain ⟨hhead, htail⟩ := List.forall_mem_cons.mp hrecovered
    exact ih (step_frozen h hhead) htail

/-- For every interleaving of the calls of any number of handles over one store, in which each
committed snapshot carries the generation prescribed to its handle: an applied write replaces
exactly the snapshot that its handle last recovered or published; the snapshots that were ever
durable have strictly increasing generations and the newest is the durable one; the generations of
the snapshots a handle forwards strictly increase; and after a commit that is not reported as
committed a handle forwards no write until it has recovered. -/
theorem store_fence (first : Option OperationSnapshot) (actions : List Action)
    (hactions : Machine.Along step Sequenced (initial first) actions) :
    (∀ before a after, actions = before ++ a :: after →
      (∃ write ∈ (step (step.run (initial first) before) a).2.writes, write.applied = true) →
        (step.run (initial first) before).durable =
          ((step.run (initial first) before).holders a.handle).seen) ∧
    ((epochs first (step.log (initial first) actions)).Pairwise
        (fun a b => a.generation < b.generation) ∧
      (step.run (initial first) actions).durable =
        (epochs first (step.log (initial first) actions)).getLast?) ∧
    (∀ handle, (attempts handle (step.log (initial first) actions)).Pairwise
      fun a b => a.generation < b.generation) ∧
    (∀ before a middle b after, actions = before ++ a :: middle ++ b :: after →
      a.handle = b.handle → ∀ outcome, outcome ≠ .committed →
        (step (step.run (initial first) before) a).2.outcome = some outcome →
        (step (step.run (initial first) (before ++ a :: middle)) b).2.writes ≠ [] →
        ∃ entry ∈ step.log (step (step.run (initial first) before) a).1 middle,
          entry.1.handle = b.handle ∧ entry.2.recovered ≠ none) := by
  have hnew : FenceInv first (initial first) [] := by
    refine ⟨?_, ?_, fun _ => ⟨rfl, nofun, nofun, List.Pairwise.nil⟩⟩
    · cases first with
      | none => exact List.Pairwise.nil
      | some s => exact List.pairwise_singleton _ s
    · cases first <;> rfl
  have hinv {actions : List Action}
      (h : Machine.Along step Sequenced (initial first) actions) :
      FenceInv first (step.run (initial first) actions) (step.log (initial first) actions) :=
    Machine.log_invariant (FenceInv first) (fun _ _ _ hw ha => hw.step ha) hnew h
  refine ⟨?_, ⟨(hinv hactions).increasing, (hinv hactions).durable_eq⟩,
    fun handle => ((hinv hactions).holder handle).attempts_increasing, ?_⟩
  · rintro before a after rfl ⟨write, hwrite, happlied⟩
    have hbefore := hinv (Machine.along_append.mp hactions).1
    have hs := step_stepped (step.run (initial first) before) a
    generalize World.step (step.run (initial first) before) a = result at hs hwrite
    cases hs with
    | frozen _ => exact absurd hwrite List.not_mem_nil
    | unapplied _ _ =>
      rw [List.mem_singleton.mp hwrite] at happlied
      exact nomatch happlied
    | applied _ hmatch => exact hbefore.durable_eq_seen hmatch
    | recovered _ => exact absurd hwrite List.not_mem_nil
    | unrecovered _ _ _ => exact absurd hwrite List.not_mem_nil
  · rintro before a middle b after rfl hhandle outcome hne houtcome hwrites
    by_contra hnone
    have hlatched := step_latches houtcome hne
    have hfrozen := run_frozen middle hlatched fun entry hentry hentryhandle => by
      by_contra hrecovered
      exact hnone ⟨entry, hentry, hentryhandle.trans hhandle, hrecovered⟩
    rw [hhandle] at hfrozen
    refine hwrites (step_writes_of_frozen ?_)
    rw [Machine.run_append]
    exact hfrozen

/-- Handle 1 publishes over what handle 0 published, in a write whose outcome is unknown; the next
write of handle 0 is refused, and it publishes again only after a recovery. -/
def sampleActions : List Action :=
  [⟨0, .commit (.empty 1) ⟨true, .committed, fun _ => rfl⟩⟩,
    ⟨1, .recover true⟩,
    ⟨1, .commit (.empty 2) ⟨true, .unknown, nofun⟩⟩,
    ⟨0, .commit (.empty 2) ⟨true, .committed, fun _ => rfl⟩⟩,
    ⟨0, .recoverNotBehind true⟩,
    ⟨0, .commit (.empty 3) ⟨true, .committed, fun _ => rfl⟩⟩]

theorem store_fence_sample :
    Machine.Along step Sequenced (initial none) sampleActions ∧
      epochs none (step.log (initial none) sampleActions) = [.empty 1, .empty 2, .empty 3] ∧
      (step.run (initial none) sampleActions).durable = some (.empty 3) := by
  have hsequenced : Machine.Along step Sequenced (initial none) sampleActions := by
    refine ⟨⟨0, nofun, rfl⟩, trivial, ⟨1, ?_, rfl⟩, ⟨1, ?_, rfl⟩, trivial, ⟨2, ?_, rfl⟩,
      trivial⟩ <;>
      exact fun s hs => by rw [← Option.some.inj hs]; rfl
  refine ⟨hsequenced, rfl, ?_⟩
  exact (store_fence none sampleActions hsequenced).2.1.2

end World

end Tacenta.Client
