import Mathlib.Data.List.Basic
import Mathlib.Data.List.Induction

/-!
# Executions of deterministic machines

A machine takes one input at a time, changes its state and answers. An execution is the list of
inputs given to it; its log pairs each input with the answer. The rules `run_invariant` and
`log_invariant` turn what one step preserves into what a whole execution preserves, where the
inputs may be restricted by a condition on the state in which they are taken.

## Main definitions

* `Machine`: a step function from a state and an input to a state and an answer.
* `Machine.run`, `Machine.log`, `Machine.states`: the final state, the log and the states passed
  through.
* `Machine.Along`: a condition on each input at the state in which it is taken.

## Main results

* `Machine.run_invariant`, `Machine.log_invariant`: invariants of whole executions.
* `Machine.exists_last_change`: the step that brought about what holds after an execution.
* `Machine.log_eq_of_simulates`: a machine that simulates another one gives the same answers.
* `Machine.filter_log_eq`: two executions with the same visible inputs have the same visible
  answers, if a relation of their states is kept by each hidden step alone and by a visible step of
  both.
-/

universe u v w

/-- A deterministic machine: a state and an input give the next state and an answer. -/
abbrev Machine (σ : Type u) (ι : Type v) (ο : Type w) := σ → ι → σ × ο

namespace Machine

variable {σ : Type u} {ι : Type v} {ο : Type w} (M : Machine σ ι ο)

/-- The state after the inputs. -/
def run : σ → List ι → σ
  | s, [] => s
  | s, i :: is => run (M s i).1 is

/-- Each input with its answer, in order. -/
def log : σ → List ι → List (ι × ο)
  | _, [] => []
  | s, i :: is => (i, (M s i).2) :: log (M s i).1 is

/-- The states passed through, from the first to the last. -/
def states : σ → List ι → List σ
  | s, [] => [s]
  | s, i :: is => s :: states (M s i).1 is

/-- Every input meets the condition at the state in which it is taken. -/
def Along (A : σ → ι → Prop) : σ → List ι → Prop
  | _, [] => True
  | s, i :: is => A s i ∧ Along A (M s i).1 is

instance decidableAlong (A : σ → ι → Prop) [∀ s i, Decidable (A s i)] :
    ∀ (s : σ) (is : List ι), Decidable (Along M A s is)
  | _, [] => isTrue trivial
  | s, i :: is => @instDecidableAnd _ _ _ (decidableAlong A (M s i).1 is)

variable {M}

@[simp] theorem run_nil (s : σ) : run M s [] = s := rfl

@[simp] theorem run_cons (s : σ) (i : ι) (is : List ι) : run M s (i :: is) = run M (M s i).1 is :=
  rfl

@[simp] theorem log_nil (s : σ) : log M s [] = [] := rfl

@[simp] theorem log_cons (s : σ) (i : ι) (is : List ι) :
    log M s (i :: is) = (i, (M s i).2) :: log M (M s i).1 is := rfl

theorem run_append (s : σ) (is js : List ι) : run M s (is ++ js) = run M (run M s is) js := by
  induction is generalizing s with
  | nil => rfl
  | cons i is ih => exact ih _

theorem log_append (s : σ) (is js : List ι) :
    log M s (is ++ js) = log M s is ++ log M (run M s is) js := by
  induction is generalizing s with
  | nil => rfl
  | cons i is ih => rw [List.cons_append, log_cons, log_cons, ih, run_cons, List.cons_append]

theorem map_fst_log (s : σ) (is : List ι) : (log M s is).map Prod.fst = is := by
  induction is generalizing s with
  | nil => rfl
  | cons i is ih => rw [log_cons, List.map_cons, ih]

/-- What every admitted step preserves holds after every execution, of the state and of the log
so far. -/
theorem log_invariant {A : σ → ι → Prop} (P : σ → List (ι × ο) → Prop)
    (hstep : ∀ s past i, P s past → A s i → P (M s i).1 (past ++ [(i, (M s i).2)]))
    {s : σ} {past : List (ι × ο)} (h : P s past) {is : List ι} (hA : Along M A s is) :
    P (run M s is) (past ++ log M s is) := by
  induction is generalizing s past with
  | nil => simpa using h
  | cons i is ih =>
    have := ih (hstep s past i h hA.1) hA.2
    rwa [List.append_assoc, List.singleton_append] at this

/-- What every admitted step preserves holds of the state after every execution. -/
theorem run_invariant {A : σ → ι → Prop} (P : σ → Prop)
    (hstep : ∀ s i, P s → A s i → P (M s i).1) {s : σ} (h : P s) {is : List ι}
    (hA : Along M A s is) : P (run M s is) := by
  induction is generalizing s with
  | nil => exact h
  | cons i is ih => exact ih (hstep s i h hA.1) hA.2

theorem along_of_forall {A : ι → Prop} {s : σ} {is : List ι} (h : ∀ i ∈ is, A i) :
    Along M (fun _ i => A i) s is := by
  induction is generalizing s with
  | nil => trivial
  | cons i is ih =>
    exact ⟨h i List.mem_cons_self, ih fun j hj => h j (List.mem_cons_of_mem _ hj)⟩

theorem run_preserves (P : σ → Prop) (hstep : ∀ s i, P s → P (M s i).1) {s : σ} (h : P s)
    (is : List ι) : P (run M s is) :=
  run_invariant (A := fun _ _ => True) P (fun s i hs _ => hstep s i hs) h
    (along_of_forall (A := fun _ => True) fun _ _ => trivial)

/-- What every step preserves of the state and the log so far holds after every execution. -/
theorem log_preserves (P : σ → List (ι × ο) → Prop)
    (hstep : ∀ s past i, P s past → P (M s i).1 (past ++ [(i, (M s i).2)])) {s : σ}
    (h : P s []) (is : List ι) : P (run M s is) (log M s is) :=
  log_invariant (A := fun _ _ => True) P (fun s past i hs _ => hstep s past i hs) h
    (along_of_forall (A := fun _ => True) fun _ _ => trivial)

/-- What every admitted step preserves up to the time of its input, over an execution whose times do
not go back. -/
theorem clocked_invariant {τ : Type} [LE τ] {time : ι → τ} {A : σ → ι → Prop}
    (P : σ → List (ι × ο) → τ → Prop)
    (hmono : ∀ s past clock clock', P s past clock → clock ≤ clock' → P s past clock')
    (hstep : ∀ s past clock i, P s past clock → clock ≤ time i → A s i →
      P (M s i).1 (past ++ [(i, (M s i).2)]) (time i))
    {s : σ} {past : List (ι × ο)} {clock later : τ} (h : P s past clock) {is : List ι}
    (hsorted : (is.map time).Pairwise (· ≤ ·)) (hle : ∀ i ∈ is, clock ≤ time i)
    (hA : Along M A s is) (hclock : clock ≤ later) (hlater : ∀ i ∈ is, time i ≤ later) :
    P (run M s is) (past ++ log M s is) later := by
  induction is generalizing s past clock with
  | nil => simpa using hmono s past clock later h hclock
  | cons i is ih =>
    rw [List.map_cons, List.pairwise_cons] at hsorted
    rw [List.forall_mem_cons] at hle hlater
    have hnext : ∀ j ∈ is, time i ≤ time j := fun j hj => hsorted.1 _ (List.mem_map_of_mem hj)
    have := ih (hstep s past clock i h hle.1 hA.1) hsorted.2 hnext hA.2 hlater.1 hlater.2
    rwa [List.append_assoc, List.singleton_append] at this

theorem along_and {A B : σ → ι → Prop} {s : σ} {is : List ι} :
    Along M (fun s i => A s i ∧ B s i) s is ↔ Along M A s is ∧ Along M B s is := by
  induction is generalizing s with
  | nil => exact (and_self _).symm ▸ Iff.rfl
  | cons i is ih =>
    simp only [Along, ih]
    tauto

/-- A condition on the answers, along an execution and in its log. -/
theorem along_log_iff {B : ο → Prop} {s : σ} {is : List ι} :
    Along M (fun s i => B (M s i).2) s is ↔ ∀ entry ∈ log M s is, B entry.2 := by
  induction is generalizing s with
  | nil => exact ⟨fun _ _ h => absurd h List.not_mem_nil, fun _ => trivial⟩
  | cons i is ih => rw [Along, ih, log_cons, List.forall_mem_cons]

theorem along_append {A : σ → ι → Prop} {s : σ} {is js : List ι} :
    Along M A s (is ++ js) ↔ Along M A s is ∧ Along M A (run M s is) js := by
  induction is generalizing s with
  | nil => exact (true_and _).symm ▸ Iff.rfl
  | cons i is ih => rw [List.cons_append, Along, ih, Along, run_cons, and_assoc]

theorem mem_states_iff {s t : σ} {is : List ι} :
    t ∈ states M s is ↔ ∃ before after, is = before ++ after ∧ t = run M s before := by
  induction is generalizing s with
  | nil =>
    simp only [states, List.mem_singleton]
    constructor
    · rintro rfl
      exact ⟨[], [], rfl, rfl⟩
    · rintro ⟨before, after, h, rfl⟩
      obtain ⟨rfl, -⟩ := List.append_eq_nil_iff.mp h.symm
      rfl
  | cons i is ih =>
    simp only [states, List.mem_cons, ih]
    constructor
    · rintro (rfl | ⟨before, after, rfl, rfl⟩)
      · exact ⟨[], i :: is, rfl, rfl⟩
      · exact ⟨i :: before, after, rfl, rfl⟩
    · rintro ⟨before, after, h, rfl⟩
      cases before with
      | nil => exact Or.inl rfl
      | cons j before =>
        obtain ⟨rfl, rfl⟩ := List.cons_eq_cons.mp h
        exact Or.inr ⟨before, after, rfl, rfl⟩

theorem states_invariant {A : σ → ι → Prop} (P : σ → Prop)
    (hstep : ∀ s i, P s → A s i → P (M s i).1) {s : σ} (h : P s) {is : List ι}
    (hA : Along M A s is) : ∀ t ∈ states M s is, P t := by
  intro t ht
  obtain ⟨before, after, rfl, rfl⟩ := mem_states_iff.mp ht
  exact run_invariant P hstep h (along_append.mp hA).1

/-- What holds after an execution and not before it was brought about by one step, after which every
step kept it. -/
theorem exists_last_change (P : σ → Prop) {s : σ} (h : ¬P s) {is : List ι} (hrun : P (run M s is)) :
    ∃ before i after, is = before ++ i :: after ∧ ¬P (run M s before) ∧
      P (M (run M s before) i).1 ∧ ∀ j ∈ after, ∃ t, P (M t j).1 := by
  induction is using List.reverseRecOn with
  | nil => exact absurd hrun h
  | append_singleton is i ih =>
    have hlast : P (M (run M s is) i).1 := by rwa [run_append] at hrun
    by_cases hbefore : P (run M s is)
    · obtain ⟨before, j, after, rfl, hnot, hj, hafter⟩ := ih hbefore
      refine ⟨before, j, after ++ [i], by simp, hnot, hj, List.forall_mem_append.mpr ⟨hafter, ?_⟩⟩
      exact List.forall_mem_singleton.mpr ⟨_, hlast⟩
    · exact ⟨is, i, [], rfl, hbefore, hlast, fun _ hj => absurd hj List.not_mem_nil⟩

/-! ### Two executions -/

/-- A machine whose answers are those of another one, step by step, has its answers along every
execution. -/
theorem log_eq_of_simulates {σ' ο' : Type*} {N : Machine σ' ι ο'} {R : σ' → σ → Prop} {g : ο → ο'}
    (hstep : ∀ s t i, R s t → (N s i).2 = g (M t i).2 ∧ R (N s i).1 (M t i).1) {s : σ'} {t : σ}
    (h : R s t) (is : List ι) :
    log N s is = (log M t is).map (Prod.map id g) ∧ R (run N s is) (run M t is) := by
  induction is generalizing s t with
  | nil => exact ⟨rfl, h⟩
  | cons i is ih =>
    obtain ⟨hanswer, hnext⟩ := hstep s t i h
    obtain ⟨hlog, hrun⟩ := ih hnext
    rw [log_cons, log_cons, hanswer, hlog]
    exact ⟨rfl, hrun⟩

section Unwinding

variable {visible : ι → Bool} {A : σ → ι → Prop} {R : σ → σ → Prop}

/-- An execution without visible inputs answers nothing visible. -/
theorem filter_log_of_hidden {s : σ} {is : List ι} (h : is.filter visible = []) :
    (log M s is).filter (fun entry => visible entry.1) = [] := by
  rw [List.filter_eq_nil_iff] at h ⊢
  intro entry hentry
  refine h entry.1 ?_
  rw [← map_fst_log (M := M) s is]
  exact List.mem_map_of_mem hentry

/-- Two executions with the same visible inputs give the same visible answers. -/
theorem filter_log_eq (hleft : ∀ s t i, R s t → visible i = false → R (M s i).1 t)
    (hright : ∀ s t i, R s t → visible i = false → R s (M t i).1)
    (hboth : ∀ s t i, R s t → visible i = true → A s i → A t i →
      (M s i).2 = (M t i).2 ∧ R (M s i).1 (M t i).1)
    {s t : σ} (h : R s t) {is js : List ι} (his : Along M A s is) (hjs : Along M A t js)
    (hvisible : is.filter visible = js.filter visible) :
    (log M s is).filter (fun entry => visible entry.1) =
      (log M t js).filter (fun entry => visible entry.1) := by
  induction is generalizing s t js with
  | nil => rw [log_nil, filter_log_of_hidden hvisible.symm, List.filter_nil]
  | cons i is ih =>
    cases hi : visible i with
    | false =>
      rw [List.filter_cons_of_neg (by simp [hi])] at hvisible
      rw [log_cons, List.filter_cons_of_neg (by simp [hi])]
      exact ih (hleft s t i h hi) his.2 hjs hvisible
    | true =>
      rw [List.filter_cons_of_pos hi] at hvisible
      -- the hidden inputs of the other execution up to the same visible one
      induction js generalizing t with
      | nil => cases hvisible
      | cons j js ihjs =>
        cases hj : visible j with
        | false =>
          rw [List.filter_cons_of_neg (by simp [hj])] at hvisible
          rw [log_cons (i := j), List.filter_cons_of_neg (by simp [hj])]
          exact ihjs (hright s t j h hj) hjs.2 hvisible
        | true =>
          rw [List.filter_cons_of_pos hj] at hvisible
          obtain ⟨rfl, hrest⟩ := List.cons_eq_cons.mp hvisible
          obtain ⟨hanswer, hnext⟩ := hboth s t i h hi his.1 hjs.1
          simp only [log_cons, List.filter_cons, hi, if_true, hanswer,
            ih hnext his.2 hjs.2 hrest]

end Unwinding

end Machine
