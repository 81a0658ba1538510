import Mathlib.Data.List.Forall2
import Tacenta.Library.Result

/-!
# Lists of records

Changing the first record of a list that meets a condition, as a search by key followed by a change
in place does. A fallible change leaves no list behind when it fails; a method that changes a value
and then refuses keeps the change, and `discarding` forgets it.

## Main definitions

* `Records.updateFirst`: change the first record that meets a condition.
* `Records.discarding`: the result of a method whose value is dropped when it refuses.

## Main results

* `Records.updateFirst_eq_ok_iff`: when a change succeeds and what it leaves.
* `Records.updateFirst_filter`, `Records.filter_updateFirst`: a change of a kept or of a dropped
  record, seen through a filter.
-/

namespace Records

variable {ε α β σ κ : Type}

/-- The value and the answer of a method, or its refusal. -/
def discarding (result : σ × Except ε α) : Except ε (σ × α) :=
  match result.2 with
  | .ok a => .ok (result.1, a)
  | .error e => .error e

theorem discarding_eq_ok_iff {result : σ × Except ε α} {s : σ} {a : α} :
    discarding result = .ok (s, a) ↔ result = (s, .ok a) := by
  obtain ⟨s', answer⟩ := result
  cases answer <;> simp [discarding]

/-- Change the first record that meets a condition; refuse if there is none. -/
def updateFirst (p : α → Bool) (missing : ε) (f : α → Except ε (α × β)) :
    List α → Except ε (List α × β)
  | [] => .error missing
  | x :: xs =>
    if p x then do
      let (y, b) ← f x
      pure (y :: xs, b)
    else do
      let (ys, b) ← updateFirst p missing f xs
      pure (x :: ys, b)

variable {p : α → Bool} {missing : ε} {f : α → Except ε (α × β)}

private theorem updateFirst_cons_pos {x : α} {xs : List α} (h : p x = true) :
    updateFirst p missing f (x :: xs) = (f x).map fun r => (r.1 :: xs, r.2) := by
  rw [updateFirst, if_pos h]
  cases f x <;> rfl

private theorem updateFirst_cons_neg {x : α} {xs : List α} (h : p x = false) :
    updateFirst p missing f (x :: xs) =
      (updateFirst p missing f xs).map fun r => (x :: r.1, r.2) := by
  rw [updateFirst, if_neg (by rw [h]; exact Bool.false_ne_true)]
  cases updateFirst p missing f xs <;> rfl

theorem updateFirst_append {pre post : List α} {x : α} (hpre : ∀ y ∈ pre, p y = false)
    (hx : p x = true) :
    updateFirst p missing f (pre ++ x :: post) =
      (f x).map fun r => (pre ++ r.1 :: post, r.2) := by
  induction pre with
  | nil => exact updateFirst_cons_pos hx
  | cons y pre ih =>
    obtain ⟨hy, hpre⟩ := List.forall_mem_cons.mp hpre
    rw [List.cons_append, updateFirst_cons_neg hy, ih hpre]
    cases f x <;> rfl

theorem updateFirst_of_forall {l : List α} (h : ∀ x ∈ l, p x = false) :
    updateFirst p missing f l = .error missing := by
  induction l with
  | nil => rfl
  | cons x l ih =>
    obtain ⟨hx, hl⟩ := List.forall_mem_cons.mp h
    rw [updateFirst_cons_neg hx, ih hl]
    rfl

/-- A list either has a first record that meets the condition, or none that does. -/
theorem split_first (p : α → Bool) (l : List α) :
    (∃ pre x post, l = pre ++ x :: post ∧ (∀ y ∈ pre, p y = false) ∧ p x = true) ∨
      ∀ x ∈ l, p x = false := by
  induction l with
  | nil => exact .inr fun _ h => absurd h List.not_mem_nil
  | cons x l ih =>
    by_cases hx : p x = true
    · exact .inl ⟨[], x, l, rfl, fun _ h => absurd h List.not_mem_nil, hx⟩
    · rw [Bool.not_eq_true] at hx
      rcases ih with ⟨pre, y, post, rfl, hpre, hy⟩ | hl
      · exact .inl ⟨x :: pre, y, post, rfl, List.forall_mem_cons.mpr ⟨hx, hpre⟩, hy⟩
      · exact .inr (List.forall_mem_cons.mpr ⟨hx, hl⟩)

theorem updateFirst_eq_ok_iff {l l' : List α} {b : β} :
    updateFirst p missing f l = .ok (l', b) ↔
      ∃ pre x post y, l = pre ++ x :: post ∧ (∀ z ∈ pre, p z = false) ∧ p x = true ∧
        f x = .ok (y, b) ∧ l' = pre ++ y :: post := by
  constructor
  · intro h
    rcases split_first p l with ⟨pre, x, post, rfl, hpre, hx⟩ | hl
    · rw [updateFirst_append hpre hx] at h
      cases hf : f x with
      | error e => rw [hf] at h; exact nomatch h
      | ok r =>
        rw [hf] at h
        obtain ⟨rfl, rfl⟩ := Prod.mk.inj (Except.ok.inj h)
        exact ⟨pre, x, post, r.1, rfl, hpre, hx, hf, rfl⟩
    · rw [updateFirst_of_forall hl] at h
      exact nomatch h
  · rintro ⟨pre, x, post, y, rfl, hpre, hx, hf, rfl⟩
    rw [updateFirst_append hpre hx, hf]
    rfl

/-- A change of a record that a filter keeps, before and after, is the same change of the filtered
list. -/
theorem updateFirst_filter {keep : α → Bool} (hkeep : ∀ x, p x = true → keep x = true)
    (hf : ∀ x y b, p x = true → f x = .ok (y, b) → keep y = true) {l l' : List α} {b : β}
    (h : updateFirst p missing f l = .ok (l', b)) :
    updateFirst p missing f (l.filter keep) = .ok (l'.filter keep, b) := by
  obtain ⟨pre, x, post, y, rfl, hpre, hx, hfx, rfl⟩ := updateFirst_eq_ok_iff.mp h
  refine updateFirst_eq_ok_iff.mpr ⟨pre.filter keep, x, post.filter keep, y, ?_, ?_, hx, hfx, ?_⟩
  · rw [List.filter_append, List.filter_cons_of_pos (hkeep x hx)]
  · exact fun z hz => hpre z (List.mem_filter.mp hz).1
  · rw [List.filter_append, List.filter_cons_of_pos (hf x y b hx hfx)]

/-- A change of a record that a filter drops, before and after, does not show in the filtered
list. -/
theorem filter_updateFirst {k : α → Bool} (hdrop : ∀ x, p x = true → k x = false)
    (hf : ∀ x y b, p x = true → f x = .ok (y, b) → k y = false) {l l' : List α} {b : β}
    (h : updateFirst p missing f l = .ok (l', b)) : l'.filter k = l.filter k := by
  obtain ⟨pre, x, post, y, rfl, hpre, hx, hfx, rfl⟩ := updateFirst_eq_ok_iff.mp h
  have hx' : ¬k x = true := by rw [hdrop x hx]; exact Bool.false_ne_true
  have hy' : ¬k y = true := by rw [hf x y b hx hfx]; exact Bool.false_ne_true
  rw [List.filter_append, List.filter_append, List.filter_cons_of_neg hx',
    List.filter_cons_of_neg hy']

theorem map_updateFirst {key : α → κ} (hf : ∀ x y b, p x = true → f x = .ok (y, b) → key y = key x)
    {l l' : List α} {b : β} (h : updateFirst p missing f l = .ok (l', b)) :
    l'.map key = l.map key := by
  obtain ⟨pre, x, post, y, rfl, hpre, hx, hfx, rfl⟩ := updateFirst_eq_ok_iff.mp h
  rw [List.map_append, List.map_append, List.map_cons, List.map_cons, hf x y b hx hfx]

end Records
