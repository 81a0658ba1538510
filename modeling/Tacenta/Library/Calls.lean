import Tacenta.Library.Execution
import Tacenta.Library.Guards

/-!
# Calls that can be dropped

A call runs a program over a shared state. Its operations are answered by its surroundings, which
decide how each of them turns out, act on their own between the operations, and keep the result of a
call that returned. Calls are open under names, one call under each name: with a single name the
calls follow one another, as those of a caller that owns what they work on. A call may be dropped
before any of its operations, and what it did until then stays.

A program is checked against an interference relation for its call: the surroundings and the calls
under other names change the shared state only as the relation says. The rule `Calls.Rules.steady`
says that in every run the operations of guarded programs are called in states that meet their
guards, and that their results come in states that meet their postconditions.

## Main definitions

* `Calls.Setting`: the programs of the calls and their surroundings.
* `Calls.Setting.step`: one event, with what a call did at it.
* `Calls.Rules`: what the programs are checked against.

## Main results

* `Calls.Rules.ran`: what the checks give in every run.
-/

namespace Calls

/-- Programs of calls, and their surroundings. -/
structure Setting (σ ι : Type) (ρ : ι → Type) (κ : Type) (α : κ → Type) (χ η : Type) where
  program : (k : κ) → Program ι ρ (α k)
  /-- How an operation of a call turns out as the surroundings decide; it cannot turn out so if
  there is no answer. -/
  answer : Nat → κ → (i : ι) → χ → σ → Option (σ × ρ i)
  /-- The result of a call is kept. -/
  keep : (k : κ) → α k → σ → σ
  /-- The surroundings act on their own. -/
  act : η → σ → σ

/-- A call that has not returned: its number and what is left of its program. -/
structure Pending (ι : Type) (ρ : ι → Type) (κ : Type) (α : κ → Type) where
  number : Nat
  call : κ
  rest : Program ι ρ (α call)

/-- The shared state, how many calls were opened, and those that have not returned. -/
structure World (γ σ ι : Type) (ρ : ι → Type) (κ : Type) (α : κ → Type) where
  shared : σ
  opened : Nat
  pending : γ → Option (Pending ι ρ κ α)

/-- No call was opened. -/
def World.start {γ σ ι κ : Type} {ρ : ι → Type} {α : κ → Type} (s : σ) : World γ σ ι ρ κ α :=
  ⟨s, 0, fun _ => none⟩

/-- What can happen. -/
inductive Event (γ κ χ η : Type) where
  | call (id : γ) (k : κ)
  | advance (id : γ) (choice : χ)
  | drop (id : γ)
  | act (e : η)

/-- What a call did. -/
inductive Output (ι : Type) (ρ : ι → Type) (κ : Type) (α : κ → Type) where
  | opened (number : Nat) (k : κ)
  | ran (number : Nat) (k : κ) (i : ι) (answer : ρ i)
  | returned (number : Nat) (k : κ) (result : α k)

namespace Setting

variable {γ σ ι κ χ η : Type} [DecidableEq γ] {ρ : ι → Type} {α : κ → Type}
  (S : Setting σ ι ρ κ α χ η)

def step : Machine (World γ σ ι ρ κ α) (Event γ κ χ η) (Option (Output ι ρ κ α))
  | w, .call id k =>
    match w.pending id with
    | some _ => (w, none)
    | none =>
      (⟨w.shared, w.opened + 1, Function.update w.pending id (some ⟨w.opened, k, S.program k⟩)⟩,
        some (.opened w.opened k))
  | w, .advance id choice =>
    match w.pending id with
    | none => (w, none)
    | some ⟨n, k, .done a⟩ =>
      (⟨S.keep k a w.shared, w.opened, Function.update w.pending id none⟩, some (.returned n k a))
    | some ⟨n, k, .call i next⟩ =>
      match S.answer n k i choice w.shared with
      | none => (w, none)
      | some (shared, answer) =>
        (⟨shared, w.opened, Function.update w.pending id (some ⟨n, k, next answer⟩)⟩,
          some (.ran n k i answer))
  | w, .drop id => ({ w with pending := Function.update w.pending id none }, none)
  | w, .act e => ({ w with shared := S.act e w.shared }, none)

/-- Everything that an event does. -/
inductive Stepped (w : World γ σ ι ρ κ α) :
    Event γ κ χ η → World γ σ ι ρ κ α × Option (Output ι ρ κ α) → Prop where
  | ignored {event} : Stepped w event (w, none)
  | opened {id k} (hnew : w.pending id = none) : Stepped w (.call id k)
      (⟨w.shared, w.opened + 1, Function.update w.pending id (some ⟨w.opened, k, S.program k⟩)⟩,
        some (.opened w.opened k))
  | returned {id choice n k a} (hopen : w.pending id = some ⟨n, k, .done a⟩) :
    Stepped w (.advance id choice)
      (⟨S.keep k a w.shared, w.opened, Function.update w.pending id none⟩, some (.returned n k a))
  | ran {id choice n k i next shared answer} (hopen : w.pending id = some ⟨n, k, .call i next⟩)
    (hanswer : S.answer n k i choice w.shared = some (shared, answer)) :
    Stepped w (.advance id choice)
      (⟨shared, w.opened, Function.update w.pending id (some ⟨n, k, next answer⟩)⟩,
        some (.ran n k i answer))
  | dropped {id} : Stepped w (.drop id)
      ({ w with pending := Function.update w.pending id none }, none)
  | acted {e} : Stepped w (.act e) ({ w with shared := S.act e w.shared }, none)

theorem step_stepped (w : World γ σ ι ρ κ α) (event : Event γ κ χ η) :
    S.Stepped w event (S.step w event) := by
  cases event with
  | call id k =>
    rw [step]
    split
    · exact .ignored
    · next hnew => exact .opened hnew
  | advance id choice =>
    rw [step]
    split
    · exact .ignored
    · next hopen => exact .returned hopen
    · next hopen =>
      split
      · exact .ignored
      · next hanswer => exact .ran hopen hanswer
  | drop id => exact .dropped
  | act e => exact .acted

/-- The answers of an operation of a call, after interference. -/
def Answers (Rely : Nat → σ → σ → Prop) (n : Nat) (k : κ) (i : ι) (s : σ) (answer : ρ i) (s' : σ) :
    Prop :=
  ∃ t choice, Rely n s t ∧ S.answer n k i choice t = some (s', answer)

end Setting

variable {γ σ ι κ χ η : Type} [DecidableEq γ] {ρ : ι → Type} {α : κ → Type}
  {S : Setting σ ι ρ κ α χ η}

/-- Programs are checked against an interference relation for each call, the guards of operations,
the postconditions of calls, and what holds while no call is open. Of the events only admitted ones
are considered. -/
structure Rules (S : Setting σ ι ρ κ α χ η)
    (Admitted : World γ σ ι ρ κ α → Event γ κ χ η → Prop) (Rely : Nat → σ → σ → Prop)
    (P : Nat → κ → ι → σ → Prop) (Q : Nat → (k : κ) → α k → σ → Prop) (J : σ → Prop) : Prop where
  refl : ∀ n s, Rely n s s
  trans : ∀ n s t u, Rely n s t → Rely n t u → Rely n s u
  act : ∀ n e s, Rely n s (S.act e s)
  /-- Operations of calls under other names. -/
  other : ∀ id id' : γ, id ≠ id' → ∀ n n' k i choice s s' answer, n ≠ n' →
    S.answer n' k i choice s = some (s', answer) → Rely n s s'
  /-- Results of calls under other names. -/
  kept : ∀ id id' : γ, id ≠ id' → ∀ n k a s, Rely n s (S.keep k a s)
  guard_stable : ∀ n k i s t, Rely n s t → P n k i s → P n k i t
  post_stable : ∀ n k a s t, Rely n s t → Q n k a s → Q n k a t
  /-- The program of a call that is opened is guarded. -/
  call : ∀ w id k, w.pending id = none → Admitted w (.call id k) →
    ((∀ id, w.pending id = none) → J w.shared) →
    Program.Guards (S.Answers Rely w.opened k) (P w.opened k) (Q w.opened k) (S.program k) w.shared
  settle : ∀ n k a s, Q n k a s → J (S.keep k a s)
  idle : ∀ e s, J s → J (S.act e s)
  drop : ∀ w id, Admitted w (.drop id) → J w.shared

/-- Pending calls have different numbers, below the number of calls that were opened. -/
structure Numbered (opened : Nat) (pending : γ → Option (Pending ι ρ κ α)) : Prop where
  lt : ∀ id c, pending id = some c → c.number < opened
  inj : ∀ id id' c c', pending id = some c → pending id' = some c' → c.number = c'.number → id = id'

/-- A pending call after one name was updated is the new one or was pending. -/
theorem update_eq_some {f : γ → Option (Pending ι ρ κ α)} {id id' : γ}
    {new : Option (Pending ι ρ κ α)} {c : Pending ι ρ κ α}
    (h : Function.update f id new id' = some c) :
    id' = id ∧ new = some c ∨ id' ≠ id ∧ f id' = some c := by
  by_cases hid : id' = id
  · subst hid
    rw [Function.update_self] at h
    exact .inl ⟨rfl, h⟩
  · rw [Function.update_of_ne hid] at h
    exact .inr ⟨hid, h⟩

namespace Numbered

variable {opened : Nat} {pending : γ → Option (Pending ι ρ κ α)}

/-- A call under a name has a number that no call under another name has. -/
theorem replace (h : Numbered opened pending) {id : γ} {new : Option (Pending ι ρ κ α)}
    (hlt : ∀ c, new = some c → c.number < opened)
    (hne : ∀ c id' c', new = some c → id' ≠ id → pending id' = some c' → c.number ≠ c'.number) :
    Numbered opened (Function.update pending id new) := by
  refine ⟨fun id' c hc => ?_, fun id₁ id₂ c₁ c₂ h₁ h₂ heq => ?_⟩
  · obtain ⟨-, hc⟩ | ⟨-, hc⟩ := update_eq_some hc
    · exact hlt c hc
    · exact h.lt id' c hc
  · obtain ⟨rfl, hc₁⟩ | ⟨hid₁, hc₁⟩ := update_eq_some h₁ <;>
      obtain ⟨rfl, hc₂⟩ | ⟨hid₂, hc₂⟩ := update_eq_some h₂
    · rfl
    · exact absurd heq (hne c₁ id₂ c₂ hc₁ hid₂ hc₂)
    · exact absurd heq.symm (hne c₂ id₁ c₁ hc₂ hid₁ hc₁)
    · exact h.inj id₁ id₂ c₁ c₂ hc₁ hc₂ heq

theorem opened_succ (h : Numbered opened pending) {id : γ} {c : Pending ι ρ κ α}
    (hc : c.number = opened) : Numbered (opened + 1) (Function.update pending id (some c)) := by
  have hgrown : Numbered (opened + 1) pending :=
    ⟨fun id' c' hc' => Nat.lt_succ_of_lt (h.lt id' c' hc'), h.inj⟩
  refine hgrown.replace (fun c' hc' => ?_) fun c' id' other hc' _ hother => ?_
  · cases hc'
    exact hc ▸ Nat.lt_succ_self _
  · cases hc'
    exact hc ▸ Nat.ne_of_gt (h.lt id' other hother)

theorem closed (h : Numbered opened pending) (id : γ) :
    Numbered opened (Function.update pending id none) :=
  h.replace (fun _ hc => by cases hc) fun _ _ _ hc => by cases hc

theorem continued (h : Numbered opened pending) {id : γ} {c c' : Pending ι ρ κ α}
    (hc : pending id = some c) (hnumber : c'.number = c.number) :
    Numbered opened (Function.update pending id (some c')) := by
  refine h.replace (fun c'' hc'' => ?_) fun c'' id' other hc'' hid hother => ?_
  · cases hc''
    exact hnumber ▸ h.lt id c hc
  · cases hc''
    rw [hnumber]
    exact fun heq => hid (h.inj id' id other c hother hc heq.symm)

end Numbered

/-- What is left of every pending call is guarded, and what is to hold while no call is open
does. -/
structure Steady (S : Setting σ ι ρ κ α χ η) (Rely : Nat → σ → σ → Prop)
    (P : Nat → κ → ι → σ → Prop) (Q : Nat → (k : κ) → α k → σ → Prop) (J : σ → Prop)
    (w : World γ σ ι ρ κ α) : Prop where
  guards : ∀ id n k rest, w.pending id = some ⟨n, k, rest⟩ →
    Program.Guards (S.Answers Rely n k) (P n k) (Q n k) rest w.shared
  numbered : Numbered w.opened w.pending
  idle : (∀ id, w.pending id = none) → J w.shared

variable {Admitted : World γ σ ι ρ κ α → Event γ κ χ η → Prop} {Rely : Nat → σ → σ → Prop}
  {P : Nat → κ → ι → σ → Prop} {Q : Nat → (k : κ) → α k → σ → Prop} {J : σ → Prop}

omit [DecidableEq γ] in
theorem steady_start {s : σ} (hs : J s) :
    Steady S Rely P Q J (World.start s : World γ σ ι ρ κ α) where
  guards _ _ _ _ h := by cases h
  numbered := ⟨fun _ _ h => (by cases h), fun _ _ _ _ h => (by cases h)⟩
  idle _ := hs

theorem not_idle {pending : γ → Option (Pending ι ρ κ α)} {id : γ} {c : Pending ι ρ κ α}
    (h : ∀ id', Function.update pending id (some c) id' = none) : False := by
  have := h id
  rw [Function.update_self] at this
  cases this

namespace Rules

section

variable (h : Rules S Admitted Rely P Q J)
include h

omit [DecidableEq γ] in
theorem guards_rely {n : Nat} {k : κ} {rest : Program ι ρ (α k)} {s t : σ} (hst : Rely n s t)
    (hs : Program.Guards (S.Answers Rely n k) (P n k) (Q n k) rest s) :
    Program.Guards (S.Answers Rely n k) (P n k) (Q n k) rest t :=
  hs.rely (fun i => h.guard_stable n k i s t hst) (fun a => h.post_stable n k a s t hst)
    fun _ _ _ ⟨u, choice, hu, hanswer⟩ => ⟨u, choice, h.trans n s t u hst hu, hanswer⟩

theorem step {w : World γ σ ι ρ κ α} (hw : Steady S Rely P Q J w) {event : Event γ κ χ η}
    (hadmitted : Admitted w event) : Steady S Rely P Q J (S.step w event).1 := by
  have hstepped := S.step_stepped w event
  generalize S.step w event = result at hstepped
  cases hstepped with
  | ignored => exact hw
  | @opened id k hnew =>
    refine ⟨fun id' n' k' rest' hopen => ?_, hw.numbered.opened_succ rfl,
      fun hidle => (not_idle hidle).elim⟩
    obtain ⟨-, hc⟩ | ⟨-, hc⟩ := update_eq_some hopen
    · cases hc
      exact h.call w id k hnew hadmitted hw.idle
    · exact hw.guards id' n' k' rest' hc
  | @returned id choice n k a hopen =>
    refine ⟨fun id' n' k' rest' hopen' => ?_, hw.numbered.closed id,
      fun _ => h.settle n k a w.shared (hw.guards id n k _ hopen)⟩
    obtain ⟨-, hc⟩ | ⟨hid, hc⟩ := update_eq_some hopen'
    · cases hc
    · exact h.guards_rely (h.kept id' id hid n' k a _) (hw.guards id' n' k' rest' hc)
  | @ran id choice n k i next shared answer hopen hanswer =>
    refine ⟨fun id' n' k' rest' hopen' => ?_, hw.numbered.continued hopen rfl,
      fun hidle => (not_idle hidle).elim⟩
    obtain ⟨-, hc⟩ | ⟨hid, hc⟩ := update_eq_some hopen'
    · cases hc
      exact (hw.guards id n k _ hopen).2 answer shared ⟨w.shared, choice, h.refl n _, hanswer⟩
    · have hne : n' ≠ n := fun heq => hid (hw.numbered.inj id' id _ _ hc hopen heq)
      exact h.guards_rely (h.other id' id hid n' n k i choice _ _ answer hne hanswer)
        (hw.guards id' n' k' rest' hc)
  | @dropped id =>
    refine ⟨fun id' n' k' rest' hopen => ?_, hw.numbered.closed id, fun _ => h.drop w id hadmitted⟩
    obtain ⟨-, hc⟩ | ⟨-, hc⟩ := update_eq_some hopen
    · cases hc
    · exact hw.guards id' n' k' rest' hc
  | @acted e =>
    exact ⟨fun id n k rest hopen => h.guards_rely (h.act n e _) (hw.guards id n k rest hopen),
      hw.numbered, fun hidle => h.idle e _ (hw.idle hidle)⟩

/-- In every run what is left of the pending calls is guarded. -/
theorem steady {w : World γ σ ι ρ κ α} (hw : Steady S Rely P Q J w) {events : List (Event γ κ χ η)}
    (hadmitted : S.step.Along Admitted w events) : Steady S Rely P Q J (S.step.run w events) :=
  Machine.run_invariant (Steady S Rely P Q J) (fun _ _ hw ha => h.step hw ha) hw hadmitted

end

/-- An operation that a call ran was called in a state that meets its guard. -/
theorem ran {w : World γ σ ι ρ κ α} (hw : Steady S Rely P Q J w) {event : Event γ κ χ η} {n : Nat}
    {k : κ} {i : ι} {answer : ρ i} (hstep : (S.step w event).2 = some (.ran n k i answer)) :
    P n k i w.shared := by
  have hstepped := S.step_stepped w event
  generalize S.step w event = result at hstepped hstep
  cases hstepped with
  | ran hopen hanswer =>
    cases hstep
    exact (hw.guards _ _ _ _ hopen).1
  | _ => cases hstep

end Rules

end Calls
