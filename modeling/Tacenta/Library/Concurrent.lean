import Mathlib.Algebra.Order.Group.Nat
import Mathlib.Data.List.AList
import Mathlib.Data.List.TakeDrop
import Tacenta.Library.Execution
import Tacenta.Library.Program

/-!
# Concurrent calls over a shared state

A call runs a program over a shared state. Each operation of the program is atomic, and between two
of them other calls may run theirs: the events of an execution open a call, let it run its next
operation or return, or drop it. The time is the number of events so far.

What a returned call saw is stated with `Observed`: its program went from one point to another by
operations at increasing times, each of them on the state at that time.

## Main definitions

* `Concurrent.System`: the operations and the programs of the calls.
* `Concurrent.System.step`: one event, with the call that returned.
* `Concurrent.System.stateAt`: the shared state at a time.
* `Concurrent.System.Observed`: how a program went on.

## Main results

* `Concurrent.System.returned_observed`: a call that returned went through its program.
* `Concurrent.System.stateAt_succ`: the state changes by the next operation of a call only.
* `Concurrent.System.stateAt_invariant`, `Concurrent.System.stateAt_le`: what every operation
  preserves.
-/

namespace Concurrent

/-- Atomic operations on a shared state, and calls that run programs made of them. -/
structure System (σ ι : Type) (ρ : ι → Type) (κ : Type) (α : κ → Type) where
  operate : (i : ι) → σ → σ × ρ i
  program : (k : κ) → Program ι ρ (α k)

/-- A call that has not returned: when it was opened and what is left of its program. -/
structure Pending (ι : Type) (ρ : ι → Type) (κ : Type) (α : κ → Type) where
  call : κ
  since : Nat
  rest : Program ι ρ (α call)

/-- The shared state, the time and the calls that have not returned. -/
structure World (σ ι : Type) (ρ : ι → Type) (κ : Type) (α : κ → Type) where
  shared : σ
  now : Nat
  pending : AList fun _ : Nat => Pending ι ρ κ α

/-- What can happen to calls. -/
inductive Event (κ : Type) where
  | call (id : Nat) (k : κ)
  | advance (id : Nat)
  | drop (id : Nat)

/-- A call that returned: when it was opened, when it returned and its result. -/
structure Return (κ : Type) (α : κ → Type) where
  call : κ
  since : Nat
  upto : Nat
  result : α call

namespace System

variable {σ ι κ : Type} {ρ : ι → Type} {α : κ → Type} (S : System σ ι ρ κ α)

/-- No call was opened. -/
def start (s : σ) : World σ ι ρ κ α := ⟨s, 0, ∅⟩

def step : Machine (World σ ι ρ κ α) (Event κ) (Option (Return κ α))
  | w, .call id k =>
    if id ∈ w.pending then ({ w with now := w.now + 1 }, none)
    else ({ w with now := w.now + 1, pending := w.pending.insert id ⟨k, w.now, S.program k⟩ }, none)
  | w, .advance id =>
    match w.pending.lookup id with
    | none => ({ w with now := w.now + 1 }, none)
    | some ⟨k, since, .done a⟩ =>
      ({ w with now := w.now + 1, pending := w.pending.erase id }, some ⟨k, since, w.now, a⟩)
    | some ⟨k, since, .call i next⟩ =>
      let (shared, answer) := S.operate i w.shared
      (⟨shared, w.now + 1, w.pending.insert id ⟨k, since, next answer⟩⟩, none)
  | w, .drop id => ({ w with now := w.now + 1, pending := w.pending.erase id }, none)

/-- The shared state at a time. -/
def stateAt (s : σ) (events : List (Event κ)) (t : Nat) : σ :=
  (S.step.run (start s) (events.take t)).shared

/-- The calls that returned. -/
def returns (s : σ) (events : List (Event κ)) : List (Return κ α) :=
  (S.step.log (start s) events).filterMap Prod.snd

/-- A program went on from one point to another by operations at increasing times, from one time on
and before another, each of them on the state at that time. -/
inductive Observed (at_ : Nat → σ) (n : Nat) {β : Type} :
    Nat → Program ι ρ β → Program ι ρ β → Prop where
  | refl {m p} (h : m ≤ n) : Observed at_ n m p p
  | call {m t i next q} (hm : m ≤ t) (hn : t < n)
    (h : Observed at_ n (t + 1) (next (S.operate i (at_ t)).2) q) :
    Observed at_ n m (.call i next) q

variable {S}

section Observed

variable {at_ : Nat → σ} {n m : Nat} {β : Type} {p q : Program ι ρ β}

theorem Observed.congr {at' : Nat → σ} {n' : Nat} (h : S.Observed at_ n m p q) (hn : n ≤ n')
    (hat : ∀ t < n, at' t = at_ t) : S.Observed at' n' m p q := by
  induction h with
  | refl h => exact .refl (Nat.le_trans h hn)
  | call hm ht _ ih =>
    refine .call hm (Nat.lt_of_lt_of_le ht hn) ?_
    rw [hat _ ht]
    exact ih

variable {i j : ι}

theorem Observed.concat {next : ρ i → Program ι ρ β} {t n' : Nat}
    (h : S.Observed at_ n m p (.call i next)) (hn : n ≤ t) (ht : t < n') :
    S.Observed at_ n' m p (next (S.operate i (at_ t)).2) := by
  generalize hq : Program.call i next = q at h
  induction h with
  | refl hm =>
    subst hq
    exact .call (Nat.le_trans hm hn) ht (.refl ht)
  | call hm hlt _ ih => exact .call hm (by omega) (ih hq)

/-- A program that starts with an operation and went on to its end ran that operation. -/
theorem observed_perform_bind {γ : Type} {f : ρ i → Program ι ρ γ} {a : γ}
    (h : S.Observed at_ n m (Program.perform i >>= f) (.done a)) :
    ∃ t, (m ≤ t ∧ t < n) ∧ S.Observed at_ n (t + 1) (f (S.operate i (at_ t)).2) (.done a) := by
  change S.Observed at_ n m (.call i f) (.done a) at h
  cases h with
  | call hm hn h => exact ⟨_, ⟨hm, hn⟩, h⟩

/-- A program that starts with an operation and went on to an operation is at its first one, or ran
it. -/
theorem observed_perform_bind_call {γ : Type} {f : ρ i → Program ι ρ γ}
    {next : ρ j → Program ι ρ γ}
    (h : S.Observed at_ n m (Program.perform i >>= f) (.call j next)) :
    i = j ∨ ∃ t, (m ≤ t ∧ t < n) ∧
      S.Observed at_ n (t + 1) (f (S.operate i (at_ t)).2) (.call j next) := by
  change S.Observed at_ n m (.call i f) (.call j next) at h
  cases h with
  | refl => exact .inl rfl
  | call hm hn h => exact .inr ⟨_, ⟨hm, hn⟩, h⟩

theorem not_observed_pure_call {a : β} {next : ρ j → Program ι ρ β} :
    ¬S.Observed at_ n m (pure a) (.call j next) := by
  intro h
  cases h

/-- A program of one operation can only be at that operation. -/
theorem eq_of_observed_perform {next : ρ j → Program ι ρ (ρ i)}
    (h : S.Observed at_ n m (Program.perform i) (.call j next)) : i = j := by
  change S.Observed at_ n m (.call i .done) (.call j next) at h
  cases h with
  | refl => rfl
  | call _ _ h => cases h

theorem eq_of_observed_pure {a b : β} (h : S.Observed at_ n m (pure a) (.done b)) : b = a := by
  cases h
  rfl

end Observed

/-! ### What an execution keeps -/

variable {s : σ} {events : List (Event κ)}

theorem stateAt_append {t : Nat} (ht : t ≤ events.length) (more : List (Event κ)) :
    S.stateAt s (events ++ more) t = S.stateAt s events t := by
  rw [stateAt, stateAt, List.take_append_of_le_length ht]

theorem stateAt_length (S : System σ ι ρ κ α) (s : σ) (events : List (Event κ)) :
    S.stateAt s events events.length = (S.step.run (start s) events).shared := by
  rw [stateAt, List.take_length]

/-- Everything that an event does. -/
inductive Stepped (S : System σ ι ρ κ α) (w : World σ ι ρ κ α) :
    World σ ι ρ κ α × Option (Return κ α) → Prop where
  | ignored : Stepped S w ({ w with now := w.now + 1 }, none)
  | called {id k} (hnew : w.pending.lookup id = none) : Stepped S w
      ({ w with now := w.now + 1, pending := w.pending.insert id ⟨k, w.now, S.program k⟩ }, none)
  | returned {id k since a} (hopen : w.pending.lookup id = some ⟨k, since, .done a⟩) : Stepped S w
      ({ w with now := w.now + 1, pending := w.pending.erase id }, some ⟨k, since, w.now, a⟩)
  | operated {id k since i next} (hopen : w.pending.lookup id = some ⟨k, since, .call i next⟩) :
    Stepped S w (⟨(S.operate i w.shared).1, w.now + 1,
      w.pending.insert id ⟨k, since, next (S.operate i w.shared).2⟩⟩, none)
  | dropped {id} : Stepped S w ({ w with now := w.now + 1, pending := w.pending.erase id }, none)

theorem step_stepped (w : World σ ι ρ κ α) (event : Event κ) : Stepped S w (S.step w event) := by
  cases event with
  | call id k =>
    rw [step]
    split
    · exact .ignored
    · next hnew => exact .called (AList.lookup_eq_none.mpr hnew)
  | advance id =>
    rw [step]
    split
    · exact .ignored
    · next hopen => exact .returned hopen
    · next hopen => exact .operated hopen
  | drop id => exact .dropped

/-- What holds after an execution: pending calls and calls that returned went through their
programs. -/
structure Traced (S : System σ ι ρ κ α) (s : σ) (w : World σ ι ρ κ α)
    (past : List (Event κ × Option (Return κ α))) : Prop where
  world : w = S.step.run (start s) (past.map Prod.fst)
  now : w.now = past.length
  pending : ∀ id k since rest, w.pending.lookup id = some ⟨k, since, rest⟩ →
    S.Observed (S.stateAt s (past.map Prod.fst)) past.length since (S.program k) rest
  returned : ∀ r ∈ past.filterMap Prod.snd, r.upto < past.length ∧
    S.Observed (S.stateAt s (past.map Prod.fst)) r.upto r.since (S.program r.call) (.done r.result)

variable {past : List (Event κ × Option (Return κ α))}

theorem Traced.observed_stable {n m : Nat} {β : Type} {p q : Program ι ρ β}
    (hn : n ≤ past.length) (h : S.Observed (S.stateAt s (past.map Prod.fst)) n m p q) {n' : Nat}
    (hn' : n ≤ n') (last : Event κ × Option (Return κ α)) :
    S.Observed (S.stateAt s ((past ++ [last]).map Prod.fst)) n' m p q := by
  refine h.congr hn' fun t ht => ?_
  rw [List.map_append]
  exact stateAt_append (by rw [List.length_map]; omega) _

theorem traced_start : Traced S s (start s) [] :=
  ⟨rfl, rfl, fun _ _ _ _ h => (by simp [start] at h), fun _ h => (by simp at h)⟩

theorem traced_step {w : World σ ι ρ κ α} (h : Traced S s w past) (event : Event κ) :
    Traced S s (S.step w event).1 (past ++ [(event, (S.step w event).2)]) := by
  generalize hstep : S.step w event = next
  have hstepped := hstep ▸ step_stepped (S := S) w event
  have hworld : next.1 = S.step.run (start s) ((past ++ [(event, next.2)]).map Prod.fst) := by
    rw [List.map_append, Machine.run_append, ← h.world, ← hstep]
    rfl
  -- the state on which an operation of the event runs
  have hshared : S.stateAt s ((past ++ [(event, next.2)]).map Prod.fst) past.length = w.shared := by
    have := stateAt_length S s (past.map Prod.fst)
    rw [List.length_map, ← h.world] at this
    rw [List.map_append, stateAt_append (by simp), this]
  have hlength : (past ++ [(event, next.2)]).length = past.length + 1 := by simp
  have hpending (id k since rest) (hopen : w.pending.lookup id = some ⟨k, since, rest⟩) :
      S.Observed (S.stateAt s ((past ++ [(event, next.2)]).map Prod.fst)) past.length since
        (S.program k) rest :=
    Traced.observed_stable (Nat.le_refl _) (h.pending id k since rest hopen) (Nat.le_refl _) _
  have hlater (id k since rest) (hopen : w.pending.lookup id = some ⟨k, since, rest⟩) :
      S.Observed (S.stateAt s ((past ++ [(event, next.2)]).map Prod.fst))
        (past ++ [(event, next.2)]).length since (S.program k) rest :=
    (hpending id k since rest hopen).congr (by omega) fun _ _ => rfl
  have hreturned (r) (hr : r ∈ past.filterMap Prod.snd) :
      r.upto < (past ++ [(event, next.2)]).length ∧
        S.Observed (S.stateAt s ((past ++ [(event, next.2)]).map Prod.fst)) r.upto r.since
          (S.program r.call) (.done r.result) := by
    obtain ⟨hlt, hobserved⟩ := h.returned r hr
    exact ⟨by omega, Traced.observed_stable (by omega) hobserved (Nat.le_refl _) _⟩
  have hnow : w.now + 1 = (past ++ [(event, next.2)]).length := by rw [h.now, hlength]
  cases hstepped with
  | ignored => exact ⟨hworld, hnow, hlater, by simpa using hreturned⟩
  | @called id k hnew =>
    refine ⟨hworld, hnow, fun id' k' since rest hopen => ?_, by simpa using hreturned⟩
    by_cases hid : id' = id
    · subst hid
      rw [AList.lookup_insert, Option.some_inj] at hopen
      cases hopen
      exact .refl (by omega)
    · rw [AList.lookup_insert_ne hid] at hopen
      exact hlater id' k' since rest hopen
  | @returned id k since a hopen =>
    refine ⟨hworld, hnow, fun id' k' since' rest hopen' => ?_, fun r hr => ?_⟩
    · by_cases hid : id' = id
      · rw [hid, AList.lookup_erase] at hopen'
        cases hopen'
      · rw [AList.lookup_erase_ne hid] at hopen'
        exact hlater id' k' since' rest hopen'
    · rw [List.filterMap_append, List.mem_append] at hr
      rcases hr with hr | hr
      · exact hreturned r hr
      · obtain rfl := List.mem_singleton.mp hr
        have hobserved := hpending id k since _ hopen
        rw [← h.now] at hobserved
        exact ⟨(Nat.lt_succ_self w.now).trans_eq hnow, hobserved⟩
  | @operated id k since i next hopen =>
    refine ⟨hworld, hnow, fun id' k' since' rest hopen' => ?_, by simpa using hreturned⟩
    by_cases hid : id' = id
    · subst hid
      rw [AList.lookup_insert, Option.some_inj] at hopen'
      cases hopen'
      have hobserved := (hpending _ _ _ _ hopen).concat (Nat.le_refl _)
        ((Nat.lt_succ_self _).trans_eq hlength.symm)
      rwa [hshared] at hobserved
    · rw [AList.lookup_insert_ne hid] at hopen'
      exact hlater id' k' since' rest hopen'
  | @dropped id =>
    refine ⟨hworld, hnow, fun id' k' since' rest hopen' => ?_, by simpa using hreturned⟩
    by_cases hid : id' = id
    · rw [hid, AList.lookup_erase] at hopen'
      cases hopen'
    · rw [AList.lookup_erase_ne hid] at hopen'
      exact hlater id' k' since' rest hopen'

theorem traced (S : System σ ι ρ κ α) (s : σ) (events : List (Event κ)) :
    Traced S s (S.step.run (start s) events) (S.step.log (start s) events) :=
  S.step.log_preserves (Traced S s) (fun _ _ event h => traced_step h event) traced_start events

/-- A call that returned went through its program while it was open. -/
theorem returned_observed {r : Return κ α} (hr : r ∈ S.returns s events) :
    r.upto < events.length ∧
      S.Observed (S.stateAt s events) r.upto r.since (S.program r.call) (.done r.result) := by
  obtain ⟨hlt, hobserved⟩ := (traced S s events).returned r hr
  have hlength := congrArg List.length (S.step.map_fst_log (start s) events)
  rw [List.length_map] at hlength
  rw [Machine.map_fst_log] at hobserved
  exact ⟨hlt.trans_eq hlength, hobserved⟩

/-- What is pending at a time went through its program so far. -/
theorem pending_observed {t : Nat} (ht : t ≤ events.length) {id : Nat} {c : Pending ι ρ κ α}
    (hopen : (S.step.run (start s) (events.take t)).pending.lookup id = some c) :
    S.Observed (S.stateAt s events) t c.since (S.program c.call) c.rest := by
  have h := (traced S s (events.take t)).pending id c.call c.since c.rest hopen
  have hlength := congrArg List.length (S.step.map_fst_log (start s) (events.take t))
  rw [List.length_map, List.length_take_of_le ht] at hlength
  rw [Machine.map_fst_log, hlength] at h
  refine h.congr (Nat.le_refl _) fun t' ht' => ?_
  rw [stateAt, stateAt, List.take_take, Nat.min_eq_left ht'.le]

/-- At this time a call that was opened ran this operation. -/
def Ran (S : System σ ι ρ κ α) (s : σ) (events : List (Event κ)) (t : Nat) (k : κ) (since : Nat)
    (i : ι) : Prop :=
  ∃ id next, events[t]? = some (.advance id) ∧
    (S.step.run (start s) (events.take t)).pending.lookup id = some ⟨k, since, .call i next⟩

/-- The state changes by operations of calls only. -/
theorem stateAt_succ (S : System σ ι ρ κ α) (s : σ) (events : List (Event κ)) (t : Nat) :
    S.stateAt s events (t + 1) = S.stateAt s events t ∨
      ∃ k since i, S.Ran s events t k since i ∧
        S.stateAt s events (t + 1) = (S.operate i (S.stateAt s events t)).1 := by
  by_cases ht : t < events.length
  · have hrun : S.stateAt s events (t + 1) =
        (S.step (S.step.run (start s) (events.take t)) events[t]).1.shared := by
      rw [stateAt, List.take_succ_eq_append_getElem ht, Machine.run_append]
      rfl
    have hevent := List.getElem?_eq_getElem ht
    rw [hrun, stateAt]
    generalize hw : S.step.run (start s) (events.take t) = w
    generalize events[t] = event at hevent
    cases event with
    | call id k =>
      rw [step]
      split <;> exact .inl rfl
    | drop id => exact .inl rfl
    | advance id =>
      cases hopen : w.pending.lookup id with
      | none => simp only [step, hopen, true_or]
      | some c =>
        obtain ⟨k, since, rest⟩ := c
        cases rest with
        | done a => simp only [step, hopen, true_or]
        | call i next =>
          simp only [step, hopen]
          exact .inr ⟨k, since, i, ⟨id, next, hevent, hw ▸ hopen⟩, rfl⟩
  · refine .inl ?_
    rw [stateAt, stateAt, List.take_of_length_le (by omega), List.take_of_length_le (by omega)]

theorem called_step {w : World σ ι ρ κ α}
    (h : ∀ id c, w.pending.lookup id = some c → ∃ id', .call id' c.call ∈ past.map Prod.fst)
    (event : Event κ) (id : Nat) (c : Pending ι ρ κ α)
    (hc : (S.step w event).1.pending.lookup id = some c) :
    ∃ id', .call id' c.call ∈ (past ++ [(event, (S.step w event).2)]).map Prod.fst := by
  rw [List.map_append, List.map_singleton]
  -- a call that is pending was pending, or the event opened it
  have hold (c' : Pending ι ρ κ α) (id : Nat) (hc' : w.pending.lookup id = some c') :
      ∃ id', .call id' c'.call ∈ past.map Prod.fst ++ [event] :=
    (h id c' hc').imp fun _ hmem => List.mem_append_left _ hmem
  cases event with
  | call id' k =>
    rw [step] at hc
    split at hc
    · exact hold c id hc
    · by_cases hid : id = id'
      · subst hid
        rw [AList.lookup_insert, Option.some_inj] at hc
        subst hc
        exact ⟨id, List.mem_append_right _ List.mem_cons_self⟩
      · rw [AList.lookup_insert_ne hid] at hc
        exact hold c id hc
  | drop id' =>
    by_cases hid : id = id'
    · rw [step, hid, AList.lookup_erase] at hc
      cases hc
    · rw [step, AList.lookup_erase_ne hid] at hc
      exact hold c id hc
  | advance id' =>
    rw [step] at hc
    split at hc
    · exact hold c id hc
    · by_cases hid : id = id'
      · rw [hid, AList.lookup_erase] at hc
        cases hc
      · rw [AList.lookup_erase_ne hid] at hc
        exact hold c id hc
    · next k since i next hopen =>
      by_cases hid : id = id'
      · subst hid
        rw [AList.lookup_insert, Option.some_inj] at hc
        subst hc
        exact hold ⟨k, since, .call i next⟩ id hopen
      · rw [AList.lookup_insert_ne hid] at hc
        exact hold c id hc

theorem Ran.called {t : Nat} {k : κ} {since : Nat} {i : ι} (h : S.Ran s events t k since i) :
    ∃ id, .call id k ∈ events := by
  obtain ⟨id, next, -, hopen⟩ := h
  have hcalled := S.step.log_preserves (s := start s)
    (fun w past => ∀ id c, w.pending.lookup id = some c →
      ∃ id', .call id' c.call ∈ past.map Prod.fst)
    (fun _ _ event h => called_step h event) (fun _ _ h => by simp [start] at h) (events.take t)
    id _ hopen
  rw [Machine.map_fst_log] at hcalled
  exact hcalled.imp fun _ hmem => List.mem_of_mem_take hmem

/-- A call that ran an operation went through its program up to it. -/
theorem Ran.observed {t : Nat} {k : κ} {since : Nat} {i : ι} (h : S.Ran s events t k since i) :
    ∃ next, S.Observed (S.stateAt s events) t since (S.program k) (.call i next) := by
  obtain ⟨id, next, hevent, hopen⟩ := h
  have ht : t < events.length := (List.getElem?_eq_some_iff.mp hevent).1
  exact ⟨next, pending_observed ht.le hopen⟩

/-- What every operation preserves holds at all times. -/
theorem stateAt_invariant (P : σ → Prop) (hop : ∀ i s, P s → P (S.operate i s).1) (hs : P s)
    (events : List (Event κ)) (t : Nat) : P (S.stateAt s events t) := by
  induction t with
  | zero => exact hs
  | succ t ih =>
    rcases stateAt_succ S s events t with h | ⟨_, _, i, -, h⟩
    · exact h ▸ ih
    · exact h ▸ hop i _ ih

/-- What every operation leaves behind or raises only grows. -/
theorem stateAt_le (R : σ → σ → Prop) (hrefl : ∀ s, R s s)
    (htrans : ∀ a b c, R a b → R b c → R a c) (hop : ∀ i s, R s (S.operate i s).1) {t u : Nat}
    (htu : t ≤ u) : R (S.stateAt s events t) (S.stateAt s events u) := by
  induction u, htu using Nat.le_induction with
  | base => exact hrefl _
  | succ u _ ih =>
    refine htrans _ _ _ ih ?_
    rcases stateAt_succ S s events u with h | ⟨_, _, i, -, h⟩
    · exact h ▸ hrefl _
    · exact h ▸ hop i _

end System

end Concurrent
