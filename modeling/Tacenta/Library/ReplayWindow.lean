import Mathlib.Data.Finset.Max
import Mathlib.Order.Interval.Finset.Nat

/-!
# Sliding replay windows

A replay window remembers, for each source, the accepted numbers that are less than `width` below
the newest one. It refuses a number that it remembers or that is `width` or more below a remembered
number, so forgetting a number never makes it acceptable again: whatever was accepted once is
refused ever after.

## Main definitions

* `ReplayWindow.Refuses`: the numbers a window refuses.
* `ReplayWindow.accept`: the window after an acceptance.

## Main results

* `ReplayWindow.refuses_accept_self`, `ReplayWindow.Refuses.accept`: an accepted number is refused
  from then on.
* `ReplayWindow.card_le_width`: numbers within one window are at most `width` many.
-/

namespace ReplayWindow

variable {ι : Type*} [DecidableEq ι] (width : ℕ)

/-- The window refuses the number: it remembers it, or remembers one that is `width` above it. -/
def Refuses (W : ι → Finset ℕ) (i : ι) (n : ℕ) : Prop := ∃ m ∈ W i, n = m ∨ n + width ≤ m

/-- The window after a number is accepted: numbers `width` below the newest one are forgotten. -/
def accept (W : ι → Finset ℕ) (i : ι) (n : ℕ) : ι → Finset ℕ :=
  Function.update W i ((insert n (W i)).filter fun m => ∀ m' ∈ insert n (W i), m' < m + width)

variable {width}

theorem mem_accept_self {W : ι → Finset ℕ} {i : ι} {n m : ℕ} :
    m ∈ accept width W i n i ↔
      m ∈ insert n (W i) ∧ ∀ m' ∈ insert n (W i), m' < m + width := by
  rw [accept, Function.update_self, Finset.mem_filter]

theorem accept_of_ne {W : ι → Finset ℕ} {i j : ι} (n : ℕ) (h : j ≠ i) :
    accept width W i n j = W j := Function.update_of_ne h _ _

/-- Every number of the window before the acceptance, and the accepted one, is remembered or is
`width` below the newest one, which is remembered. -/
private theorem refuses_accept_of_mem (hw : 0 < width) {W : ι → Finset ℕ} {i : ι} {n m k : ℕ}
    (hm : m ∈ insert n (W i)) (hk : k = m ∨ k + width ≤ m) :
    Refuses width (accept width W i n) i k := by
  obtain ⟨newest, hnewest, hmax⟩ := (insert n (W i)).exists_max_image id ⟨m, hm⟩
  simp only [id] at hmax
  have hkept : newest ∈ accept width W i n i := by
    refine mem_accept_self.mpr ⟨hnewest, fun m' hm' => ?_⟩
    have := hmax m' hm'
    omega
  by_cases hret : ∀ m' ∈ insert n (W i), m' < m + width
  · exact ⟨m, mem_accept_self.mpr ⟨hm, hret⟩, hk⟩
  · push Not at hret
    obtain ⟨m', hm', hle⟩ := hret
    have := hmax m' hm'
    exact ⟨newest, hkept, Or.inr (by omega)⟩

/-- An accepted number is refused from then on. -/
theorem refuses_accept_self (hw : 0 < width) (W : ι → Finset ℕ) (i : ι) (n : ℕ) :
    Refuses width (accept width W i n) i n :=
  refuses_accept_of_mem hw (Finset.mem_insert_self n (W i)) (Or.inl rfl)

/-- What is refused stays refused after any acceptance. -/
theorem Refuses.accept (hw : 0 < width) {W : ι → Finset ℕ} {i j : ι} {n k : ℕ}
    (h : Refuses width W j k) : Refuses width (accept width W i n) j k := by
  obtain ⟨m, hm, hk⟩ := h
  by_cases hij : j = i
  · subst hij
    exact refuses_accept_of_mem hw (Finset.mem_insert_of_mem hm) hk
  · exact ⟨m, by rwa [accept_of_ne n hij], hk⟩

/-- Numbers that are pairwise less than `width` apart are at most `width` many. -/
theorem card_le_width {s : Finset ℕ} (h : ∀ m ∈ s, ∀ m' ∈ s, m' < m + width) : s.card ≤ width := by
  rcases s.eq_empty_or_nonempty with rfl | hne
  · exact Nat.zero_le _
  · have hsub : s ⊆ Finset.Ico (s.min' hne) (s.min' hne + width) := fun m hm =>
      Finset.mem_Ico.mpr ⟨s.min'_le m hm, h _ (s.min'_mem hne) m hm⟩
    calc s.card ≤ (Finset.Ico (s.min' hne) (s.min' hne + width)).card := Finset.card_le_card hsub
      _ = width := by rw [Nat.card_Ico, Nat.add_sub_cancel_left]

end ReplayWindow
