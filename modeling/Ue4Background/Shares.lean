import Mathlib.Algebra.Order.BigOperators.Group.Finset
import Mathlib.Data.Fintype.BigOperators

/-!
Shares of a resource held by finitely many holders. Replacing what one holder holds changes the
sum by the difference of the two shares. Of a resource with one share in all, one holder at most
has a share.
-/

namespace Ue4Background.Shares

variable {T A : Type*} [Fintype T]

theorem sum_update [DecidableEq T] (f : A → ℕ) (held : T → A) (t : T) (x : A) :
    ∑ i, f (Function.update held t x i) + f (held t) = ∑ i, f (held i) + f x := by
  have hrest : ∑ i ∈ Finset.univ.erase t, f (Function.update held t x i) =
      ∑ i ∈ Finset.univ.erase t, f (held i) := by
    refine Finset.sum_congr rfl fun i hi => ?_
    rw [Function.update_of_ne (Finset.ne_of_mem_erase hi)]
  rw [← Finset.add_sum_erase _ _ (Finset.mem_univ t), hrest, Function.update_self,
    ← Finset.add_sum_erase _ (fun i => f (held i)) (Finset.mem_univ t)]
  omega

theorem le_sum (f : A → ℕ) (held : T → A) (t : T) : f (held t) ≤ ∑ i, f (held i) :=
  Finset.single_le_sum (fun i _ => Nat.zero_le (f (held i))) (Finset.mem_univ t)

theorem eq_of_sum_le_one [DecidableEq T] {f : A → ℕ} {held : T → A}
    (hsum : ∑ i, f (held i) ≤ 1) {t u : T} (ht : 0 < f (held t)) (hu : 0 < f (held u)) : t = u := by
  by_contra hne
  have hpair : ∑ i ∈ {t, u}, f (held i) ≤ ∑ i, f (held i) :=
    Finset.sum_le_sum_of_subset (Finset.subset_univ _)
  rw [Finset.sum_pair hne] at hpair
  omega

theorem exists_of_sum_pos {f : A → ℕ} {held : T → A} (hsum : 0 < ∑ i, f (held i)) :
    ∃ t, 0 < f (held t) := by
  by_contra hnone
  push Not at hnone
  have hzero : ∑ i, f (held i) = 0 :=
    Finset.sum_eq_zero fun i _ => Nat.le_zero.mp (hnone i)
  omega

end Ue4Background.Shares
