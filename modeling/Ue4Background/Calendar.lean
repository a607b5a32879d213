import Mathlib.Data.List.Basic
import Mathlib.Logic.Function.Basic

/-!
Queues kept in slots. A function places each key in a slot; the nodes of one key stand in the slot
of their key, in the order of the queue, and nowhere else. Linking a node and clearing a slot keep
this. So does refiling the nodes of one slot under a new placement that moves only keys of that
slot. A queue whose nodes are due at given times is emptied in the order of these times.
-/

namespace Ue4Background.Calendar

variable {Slot Node Key : Type*} [DecidableEq Slot] [DecidableEq Key]

/-- Every key has its nodes in its own slot, in the order of the queue. -/
def Placed (key : Node → Key) (place : Key → Slot) (slots : Slot → List Node)
    (queue : List Node) : Prop :=
  ∀ s k, (slots s).filter (fun n => key n = k) =
    if place k = s then queue.filter (fun n => key n = k) else []

/-- A node at the end of a slot. -/
def link (slots : Slot → List Node) (s : Slot) (n : Node) : Slot → List Node :=
  Function.update slots s (slots s ++ [n])

/-- Nodes linked one after the other, each in the slot of its key. -/
def refile (key : Node → Key) (place : Key → Slot) (slots : Slot → List Node)
    (nodes : List Node) : Slot → List Node :=
  nodes.foldl (fun slots n => link slots (place (key n)) n) slots

variable {key : Node → Key} {place place' : Key → Slot} {slots : Slot → List Node}
  {queue : List Node}

theorem filter_link (p : Node → Bool) (s s' : Slot) (n : Node) :
    (link slots s n s').filter p = (slots s').filter p ++ if s = s' ∧ p n then [n] else [] := by
  by_cases hs : s = s'
  · subst hs
    cases hp : p n <;> simp [link, hp]
  · simp [link, hs, Function.update_of_ne (Ne.symm hs)]

theorem filter_refile (nodes : List Node) (s : Slot) (k : Key) :
    (refile key place slots nodes s).filter (fun n => key n = k) =
      (slots s).filter (fun n => key n = k) ++
        if place k = s then nodes.filter (fun n => key n = k) else [] := by
  induction nodes generalizing slots with
  | nil => simp [refile]
  | cons n nodes ih =>
    have hstep : refile key place slots (n :: nodes) =
        refile key place (link slots (place (key n)) n) nodes := rfl
    rw [hstep, ih, filter_link, List.append_assoc]
    by_cases hk : key n = k
    · subst hk
      by_cases hs : place (key n) = s <;> simp [hs]
    · simp [hk]

namespace Placed

theorem nil : Placed key place (fun _ => []) [] := by
  intro s k
  simp

theorem mem (h : Placed key place slots queue) {s : Slot} {n : Node} (hn : n ∈ slots s) :
    place (key n) = s ∧ n ∈ queue := by
  have hmem : n ∈ (slots s).filter (fun m => key m = key n) := by simp [hn]
  rw [h s (key n)] at hmem
  split at hmem
  · rename_i hs
    exact ⟨hs, (List.mem_filter.mp hmem).1⟩
  · simp at hmem

theorem link (h : Placed key place slots queue) (n : Node) :
    Placed key place (link slots (place (key n)) n) (queue ++ [n]) := by
  intro s k
  rw [filter_link, h s k, List.filter_append]
  by_cases hk : key n = k
  · subst hk
    by_cases hs : place (key n) = s <;> simp [hs]
  · simp [hk]

/-- A slot that one key alone may use holds the nodes of that key. -/
theorem slot_eq (h : Placed key place slots queue) {s : Slot} {k : Key}
    (honly : ∀ n ∈ queue, place (key n) = s → key n = k) (hk : place k = s) :
    slots s = queue.filter (fun n => key n = k) := by
  have hall : ∀ n ∈ slots s, decide (key n = k) = true := by
    intro n hn
    obtain ⟨hs, hq⟩ := h.mem hn
    exact decide_eq_true (honly n hq hs)
  have hslot := h s k
  rwa [List.filter_eq_self.mpr hall, if_pos hk] at hslot

/-- Clearing the slot of a key takes its nodes out of the queue. -/
theorem clear (h : Placed key place slots queue) {s : Slot} {k : Key}
    (honly : ∀ n ∈ queue, place (key n) = s → key n = k) (hk : place k = s) :
    Placed key place (Function.update slots s []) (queue.filter (fun n => key n ≠ k)) := by
  intro s' k'
  rw [List.filter_filter]
  by_cases hs : s' = s
  · subst hs
    rw [Function.update_self]
    split
    · rename_i hk'
      symm
      rw [List.filter_nil, List.filter_eq_nil_iff]
      intro n hn
      simp only [Bool.and_eq_true, decide_eq_true_eq, not_and]
      rintro rfl hne
      exact hne (honly n hn hk')
    · rfl
  · rw [Function.update_of_ne hs, h s' k']
    split
    · rename_i hk'
      refine List.filter_congr fun n hn => ?_
      have hne : k' ≠ k := fun heq => hs (by rw [← hk', heq, hk])
      by_cases hn : key n = k' <;> simp [hn, hne]
    · rfl

/-- Refiling one slot follows a change of the placement that moves only keys of that slot. -/
theorem refile (h : Placed key place slots queue) (s : Slot)
    (hmoved : ∀ n ∈ queue, place (key n) = s ∨ place' (key n) = place (key n)) :
    Placed key place' (refile key place' (Function.update slots s []) (slots s)) queue := by
  intro s' k
  rw [filter_refile, h s k]
  by_cases hk : ∃ n ∈ queue, key n = k
  · obtain ⟨n, hn, rfl⟩ := hk
    by_cases hs : place (key n) = s
    · have hcleared : (Function.update slots s [] s').filter (fun m => key m = key n) = [] := by
        by_cases hs' : s' = s
        · simp [hs']
        · rw [Function.update_of_ne hs', h s' (key n), if_neg]
          exact fun heq => hs' (heq.symm.trans hs)
      rw [hcleared, if_pos hs, List.nil_append]
    · have hsame := (hmoved n hn).resolve_left hs
      rw [if_neg hs, hsame, ite_self, List.append_nil]
      by_cases hs' : s' = s
      · subst hs'
        simp [hs]
      · rw [Function.update_of_ne hs', h s' (key n)]
  · have hnone : queue.filter (fun n => key n = k) = [] := by
      rw [List.filter_eq_nil_iff]
      intro n hn
      simpa using fun heq => hk ⟨n, hn, heq⟩
    have hslots : (slots s').filter (fun n => key n = k) = [] := by
      rw [h s' k, hnone, ite_self]
    by_cases hs' : s' = s
    · simp [hs', hnone]
    · simp [Function.update_of_ne hs', hslots, hnone]

/-- A change of the placement that moves no key of the queue. -/
theorem same (h : Placed key place slots queue)
    (hsame : ∀ n ∈ queue, place' (key n) = place (key n)) :
    Placed key place' slots queue := by
  intro s k
  rw [h s k]
  by_cases hk : ∃ n ∈ queue, key n = k
  · obtain ⟨n, hn, rfl⟩ := hk
    rw [hsame n hn]
  · have hnone : queue.filter (fun n => key n = k) = [] := by
      rw [List.filter_eq_nil_iff]
      intro n hn
      simpa using fun heq => hk ⟨n, hn, heq⟩
    rw [hnone, ite_self, ite_self]

end Placed

section Due

variable {Event : Type*}

/-- What is due at one time, in the order of the entries. -/
def dueAt (entries : List (ℕ × Event)) (time : ℕ) : List (ℕ × Event) :=
  entries.filter fun e => e.1 = time

/-- What is due up to a time, by its time and then in the order of the entries. -/
def dueBy (entries : List (ℕ × Event)) (time : ℕ) : List (ℕ × Event) :=
  (List.range (time + 1)).flatMap (dueAt entries)

/-- What is due later. -/
def dueAfter (entries : List (ℕ × Event)) (time : ℕ) : List (ℕ × Event) :=
  entries.filter fun e => time < e.1

theorem dueBy_succ (entries : List (ℕ × Event)) (time : ℕ) :
    dueBy entries (time + 1) = dueBy entries time ++ dueAt entries (time + 1) := by
  rw [dueBy, List.range_succ, List.flatMap_append]
  simp [dueBy]

theorem dueBy_append_later (entries : List (ℕ × Event)) {time : ℕ} {e : ℕ × Event}
    (he : time < e.1) : dueBy (entries ++ [e]) time = dueBy entries time := by
  have hat : ∀ t, t ≤ time → dueAt (entries ++ [e]) t = dueAt entries t := by
    intro t ht
    have hne : e.1 ≠ t := by omega
    simp [dueAt, hne]
  unfold dueBy
  rw [List.flatMap_def, List.flatMap_def]
  congr 1
  exact List.map_congr_left fun t ht => hat t (by have := List.mem_range.mp ht; omega)

theorem dueAfter_append_later (entries : List (ℕ × Event)) {time : ℕ} {e : ℕ × Event}
    (he : time < e.1) : dueAfter (entries ++ [e]) time = dueAfter entries time ++ [e] := by
  simp [dueAfter, he]

theorem dueAfter_succ (entries : List (ℕ × Event)) (time : ℕ) :
    dueAfter entries (time + 1) =
      (dueAfter entries time).filter fun e => e.1 ≠ time + 1 := by
  unfold dueAfter
  rw [List.filter_filter]
  refine List.filter_congr fun e _ => ?_
  rw [Bool.eq_iff_iff]
  simp only [decide_eq_true_eq, Bool.and_eq_true]
  omega

theorem dueAt_succ (entries : List (ℕ × Event)) (time : ℕ) :
    dueAt entries (time + 1) =
      (dueAfter entries time).filter fun e => e.1 = time + 1 := by
  unfold dueAfter dueAt
  rw [List.filter_filter]
  refine List.filter_congr fun e _ => ?_
  rw [Bool.eq_iff_iff]
  simp only [decide_eq_true_eq, Bool.and_eq_true]
  omega

end Due

end Ue4Background.Calendar
