import Mathlib.Data.Nat.Basic

/-!
Walks of a graph and best-first search. A search has closed some vertices and opened
others at a cost. If every edge out of a closed vertex leads to a closed vertex or to one
opened at no more than the length of the walk, every walk from the start to a vertex that
is not closed passes an open one. With a heuristic that an edge lowers by at most one, the
least sum of cost and heuristic among the open vertices bounds all such walks from below.
-/

namespace Ue4Background.ShortestWalk

variable {V : Type*} {adj : V → V → Prop}

/-- A walk of `n` edges from `u`. -/
inductive Walk (adj : V → V → Prop) (u : V) : ℕ → V → Prop
  | nil : Walk adj u 0 u
  | snoc {n : ℕ} {v w : V} : Walk adj u n v → adj v w → Walk adj u (n + 1) w

theorem Walk.eq_of_zero {u v : V} (hwalk : Walk adj u 0 v) : u = v := by
  cases hwalk
  rfl

/-- An edge lowers the heuristic by at most one. -/
def Consistent (adj : V → V → Prop) (h : V → ℕ) : Prop :=
  ∀ u v, adj u v → h u ≤ h v + 1

theorem Walk.estimate {h : V → ℕ} (hcons : Consistent adj h) {n : ℕ} {u v : V}
    (hwalk : Walk adj u n v) : h u ≤ n + h v := by
  induction hwalk with
  | nil => exact Nat.le_add_left _ _
  | snoc _ hedge ih =>
    have hlast := hcons _ _ hedge
    omega

/-- What a search has closed and opened when it started from `s`. -/
structure Frontier (adj : V → V → Prop) (s : V) (closed : V → Prop) (opened : V → ℕ → Prop) :
    Prop where
  start : closed s
  next : ∀ n x y, closed x → Walk adj s n x → adj x y → closed y ∨ ∃ c ≤ n + 1, opened y c

namespace Frontier

variable {s : V} {closed : V → Prop} {opened : V → ℕ → Prop}

/-- A walk out of the closed vertices passes an open one, which costs no more than the part
of the walk that leads to it. -/
theorem exists_open (hf : Frontier adj s closed opened) {n : ℕ} {t : V}
    (hwalk : Walk adj s n t) (ht : ¬ closed t) :
    ∃ i j y c, opened y c ∧ c ≤ i ∧ Walk adj y j t ∧ i + j = n := by
  induction hwalk with
  | nil => exact absurd hf.start ht
  | snoc hwalk hedge ih =>
    rename_i n x t
    by_cases hx : closed x
    · rcases hf.next n x t hx hwalk hedge with hclosed | ⟨c, hc, hopen⟩
      · exact absurd hclosed ht
      · exact ⟨n + 1, 0, t, c, hopen, hc, Walk.nil, rfl⟩
    · obtain ⟨i, j, y, c, hopen, hc, hrest, hsum⟩ := ih hx
      exact ⟨i, j + 1, y, c, hopen, hc, hrest.snoc hedge, by omega⟩

/-- An open vertex with the least sum of cost and heuristic bounds every walk from the start
to a vertex that is not closed. -/
theorem lower_bound (hf : Frontier adj s closed opened) {h : V → ℕ} (hcons : Consistent adj h)
    {u : V} {c : ℕ} (hbest : ∀ y d, opened y d → c + h u ≤ d + h y) {n : ℕ} {t : V}
    (hwalk : Walk adj s n t) (ht : ¬ closed t) : c + h u ≤ n + h t := by
  obtain ⟨i, j, y, d, hopen, hd, hrest, hsum⟩ := hf.exists_open hwalk ht
  have hopened := hbest y d hopen
  have hestimate := hrest.estimate hcons
  omega

end Frontier

end Ue4Background.ShortestWalk
