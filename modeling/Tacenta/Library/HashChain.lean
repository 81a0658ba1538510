import Mathlib.Data.List.Chain
import Mathlib.Data.Set.Function

/-!
# Chains linked by digests

A chain of values, newest first, in which each value carries the digest of the value before it and
has the next height. If digests are collision-free on two chains and the chains end in the same
digest, they agree at every height that both contain.

## Main definitions

* `HashChain.Linked`: a newest-first chain.

## Main results

* `HashChain.Linked.eq_of_height_eq`: two chains with the same newest digest agree.
-/

namespace HashChain

variable {α κ : Type*} (digest link : α → κ) (height : α → ℕ)

/-- A newest-first list in which each value carries the digest of the next one and is one higher. -/
def Linked (chain : List α) : Prop :=
  chain.IsChain fun newer older => link newer = digest older ∧ height newer = height older + 1

variable {digest link height}

theorem Linked.tail {a : α} {chain : List α} (h : Linked digest link height (a :: chain)) :
    Linked digest link height chain := List.IsChain.tail h

theorem Linked.height_lt {a x : α} {chain : List α} (h : Linked digest link height (a :: chain))
    (hx : x ∈ chain) : height x < height a := by
  induction chain generalizing a with
  | nil => exact absurd hx List.not_mem_nil
  | cons b chain ih =>
    have hab := (List.isChain_cons_cons.mp h).1.2
    rcases List.mem_cons.mp hx with rfl | hx
    · omega
    · have := ih h.tail hx
      omega

/-- Two chains whose newest values have the same digest hold the same value at every height that
both contain. -/
theorem Linked.eq_of_height_eq {a b : α} {as bs : List α}
    (ha : Linked digest link height (a :: as)) (hb : Linked digest link height (b :: bs))
    (hinj : Set.InjOn digest {x | x ∈ a :: as ∨ x ∈ b :: bs}) (hab : digest a = digest b)
    {x y : α} (hx : x ∈ a :: as) (hy : y ∈ b :: bs) (hxy : height x = height y) : x = y := by
  induction as generalizing a b bs with
  | nil =>
    obtain rfl : x = a := List.mem_singleton.mp hx
    obtain rfl : x = b := hinj (Or.inl hx) (Or.inr List.mem_cons_self) hab
    rcases List.mem_cons.mp hy with rfl | hy
    · rfl
    · have := hb.height_lt hy
      omega
  | cons a' as ih =>
    obtain rfl : a = b :=
      hinj (Or.inl List.mem_cons_self) (Or.inr List.mem_cons_self) hab
    rcases List.mem_cons.mp hx with rfl | hx'
    · rcases List.mem_cons.mp hy with rfl | hy
      · rfl
      · have := hb.height_lt hy
        omega
    · rcases List.mem_cons.mp hy with rfl | hy'
      · have := ha.height_lt hx'
        omega
      · cases bs with
        | nil => exact absurd hy' List.not_mem_nil
        | cons b' bs =>
          have hlink : digest a' = digest b' :=
            (List.isChain_cons_cons.mp ha).1.1.symm.trans (List.isChain_cons_cons.mp hb).1.1
          refine ih ha.tail hb.tail (hinj.mono ?_) hlink hx' hy'
          rintro z (hz | hz)
          · exact Or.inl (List.mem_cons_of_mem _ hz)
          · exact Or.inr (List.mem_cons_of_mem _ hz)

end HashChain
