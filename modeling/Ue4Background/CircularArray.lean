import Mathlib.Data.List.Basic
import Mathlib.Logic.Function.Basic
import Mathlib.Order.Nat
import Mathlib.Tactic.SplitIfs

/-!
Lists laid out in a circular array. The array has a head, a tail and one cell more than it can
hold. A value written at the tail goes to the end of the list; a value read at the head is its
first. When the tail meets the head, the array is copied in order to a larger one.
-/

namespace Ue4Background.CircularArray

variable {α : Type*}

/-- The cell after a cell. -/
def advance (cap i : ℕ) : ℕ := if i + 1 ≥ cap then 0 else i + 1

/-- The list stands in the cells from the head to the tail. -/
structure Laid (cells : ℕ → α) (cap head tail : ℕ) (l : List α) : Prop where
  head_lt : head < cap
  length_lt : l.length < cap
  tail_eq : tail = (head + l.length) % cap
  cell : ∀ i (hi : i < l.length), cells ((head + i) % cap) = l[i]

theorem mod_eq_ite {cap head i : ℕ} (hhead : head < cap) (hi : i ≤ cap) :
    (head + i) % cap = if head + i < cap then head + i else head + i - cap := by
  split
  · rename_i hlt
    exact Nat.mod_eq_of_lt hlt
  · rename_i hge
    rw [Nat.mod_eq_sub_mod (by omega), Nat.mod_eq_of_lt (by omega)]

namespace Laid

variable {cells : ℕ → α} {cap head tail : ℕ} {l : List α}

theorem nil (hcap : 0 < cap) : Laid cells cap 0 0 [] :=
  ⟨hcap, hcap, by simp, by simp⟩

theorem advance_tail (h : Laid cells cap head tail l) :
    advance cap tail = (head + (l.length + 1)) % cap := by
  have hhead := h.head_lt
  have hlength := h.length_lt
  have htail := h.tail_eq
  rw [mod_eq_ite hhead hlength.le] at htail
  rw [mod_eq_ite hhead (by omega), advance]
  split_ifs at htail ⊢ <;> omega

/-- After a write the tail meets the head when one cell was free. -/
theorem full_iff (h : Laid cells cap head tail l) :
    head = advance cap tail ↔ l.length + 1 = cap := by
  have hhead := h.head_lt
  have hlength := h.length_lt
  rw [h.advance_tail, mod_eq_ite hhead (by omega)]
  split <;> omega

theorem head_eq_tail_iff (h : Laid cells cap head tail l) : head = tail ↔ l = [] := by
  have hhead := h.head_lt
  have hlength := h.length_lt
  rw [h.tail_eq, mod_eq_ite hhead hlength.le, ← List.length_eq_zero_iff]
  split <;> omega

/-- The written array holds the longer list, also where it is full. -/
theorem cell_push (h : Laid cells cap head tail l) (m : α) (i : ℕ) (hi : i < (l ++ [m]).length) :
    Function.update cells tail m ((head + i) % cap) = (l ++ [m])[i] := by
  have hhead := h.head_lt
  have hlength := h.length_lt
  have hi' : i < l.length + 1 := by simpa using hi
  rcases Nat.lt_succ_iff_lt_or_eq.mp hi' with hlt | rfl
  · have hne : (head + i) % cap ≠ tail := by
      rw [h.tail_eq, mod_eq_ite hhead (by omega), mod_eq_ite hhead hlength.le]
      split_ifs <;> omega
    rw [Function.update_of_ne hne, h.cell i hlt, List.getElem_append_left hlt]
  · rw [← h.tail_eq, Function.update_self, List.getElem_append_right le_rfl]
    simp

theorem push (h : Laid cells cap head tail l) (m : α) (hroom : head ≠ advance cap tail) :
    Laid (Function.update cells tail m) cap head (advance cap tail) (l ++ [m]) := by
  have hlength := h.length_lt
  have hne : l.length + 1 ≠ cap := fun heq => hroom (h.full_iff.mpr heq)
  refine ⟨h.head_lt, ?_, ?_, h.cell_push m⟩
  · rw [List.length_append, List.length_singleton]
    omega
  · rw [h.advance_tail, List.length_append, List.length_singleton]

/-- A full array, copied from its head on to one twice as large. -/
theorem expand (h : Laid cells cap head tail l) (m : α) (hfull : head = advance cap tail)
    {larger : ℕ → α}
    (hcopy : ∀ i < cap, larger i = Function.update cells tail m ((head + i) % cap)) :
    Laid larger (cap * 2) 0 cap (l ++ [m]) := by
  have hhead := h.head_lt
  have hlength : (l ++ [m]).length = cap := by
    rw [List.length_append, List.length_singleton]
    exact h.full_iff.mp hfull
  refine ⟨by omega, by omega, ?_, ?_⟩
  · rw [hlength, Nat.zero_add, Nat.mod_eq_of_lt (by omega)]
  · intro i hi
    rw [Nat.zero_add, Nat.mod_eq_of_lt (by omega), hcopy i (by omega)]
    exact h.cell_push m i hi

theorem pop {m : α} (h : Laid cells cap head tail (m :: l)) :
    cells head = m ∧ Laid cells cap (advance cap head) tail l := by
  have hhead := h.head_lt
  have hlength := h.length_lt
  rw [List.length_cons] at hlength
  have hadvance : advance cap head = (head + 1) % cap := by
    rw [mod_eq_ite hhead (by omega), advance]
    split_ifs <;> omega
  have hshift : ∀ i, (advance cap head + i) % cap = (head + (i + 1)) % cap := by
    intro i
    rw [hadvance, Nat.mod_add_mod]
    congr 1
    omega
  refine ⟨?_, ?_, by omega, ?_, ?_⟩
  · have hfirst := h.cell 0 (by simp)
    rwa [Nat.add_zero, Nat.mod_eq_of_lt hhead] at hfirst
  · rw [hadvance]
    exact Nat.mod_lt _ (Nat.zero_lt_of_lt hhead)
  · rw [hshift, h.tail_eq, List.length_cons]
  · intro i hi
    rw [hshift, h.cell (i + 1) (by simpa using hi)]
    rfl

/-- The number of values, from the positions of the head and the tail alone. -/
theorem length_eq (h : Laid cells cap head tail l) :
    (if head ≤ tail then tail - head else tail + cap - head) = l.length := by
  have hhead := h.head_lt
  have hlength := h.length_lt
  rw [h.tail_eq, mod_eq_ite hhead hlength.le]
  split_ifs <;> omega

end Laid

end Ue4Background.CircularArray
