import Mathlib.Data.List.Basic

/-!
Sequences whose elements belong to lanes. Inside a lane the order counts; elements of different
lanes may pass each other. A sequence comes in order from another one when every lane of it is what
is left of the lane there after some elements are taken out.
-/

namespace Ue4Background.Lanes

variable {A K : Type*} [DecidableEq K] {key : A → K}

/-- The elements of one lane. -/
def lane (key : A → K) (k : K) (l : List A) : List A := l.filter fun a => key a = k

theorem lane_append (k : K) (l m : List A) : lane key k (l ++ m) = lane key k l ++ lane key k m :=
  List.filter_append ..

theorem lane_eq_nil {k : K} {l : List A} (h : ∀ a ∈ l, key a ≠ k) : lane key k l = [] := by
  apply List.filter_eq_nil_iff.mpr
  intro a ha
  simpa using h a ha

def InOrder (key : A → K) (l m : List A) : Prop := ∀ k, (lane key k l).Sublist (lane key k m)

namespace InOrder

variable {l l' m m' n : List A}

theorem refl (l : List A) : InOrder key l l := fun _ => List.Sublist.refl _

theorem trans (h : InOrder key l m) (h' : InOrder key m n) : InOrder key l n :=
  fun k => (h k).trans (h' k)

theorem of_sublist (h : l.Sublist m) : InOrder key l m := fun _ => h.filter _

theorem append (h : InOrder key l m) (h' : InOrder key l' m') :
    InOrder key (l ++ l') (m ++ m') := by
  intro k
  rw [lane_append, lane_append]
  exact (h k).append (h' k)

/-- Sequences without a common lane may change places. -/
theorem swap (h : ∀ a ∈ l, ∀ b ∈ m, key a ≠ key b) : InOrder key (l ++ m) (m ++ l) := by
  intro k
  rw [lane_append, lane_append]
  by_cases hk : ∃ a ∈ l, key a = k
  · obtain ⟨a, ha, hak⟩ := hk
    have hm : lane key k m = [] := lane_eq_nil fun b hb => by
      rw [← hak]
      exact (h a ha b hb).symm
    rw [hm, List.append_nil, List.nil_append]
  · have hl : lane key k l = [] := lane_eq_nil fun a ha hak => hk ⟨a, ha, hak⟩
    rw [hl, List.append_nil, List.nil_append]

/-- A new element may overtake those of other lanes. -/
theorem insert {a : A} (h : ∀ b ∈ m, key a ≠ key b) (hl : InOrder key (l ++ m) n) :
    InOrder key (l ++ a :: m) (n ++ [a]) := by
  have hswap : InOrder key ([a] ++ m) (m ++ [a]) := swap fun b hb => by
    rw [List.mem_singleton.mp hb]
    exact h
  have hmoved : InOrder key (l ++ ([a] ++ m)) (l ++ (m ++ [a])) := (refl l).append hswap
  rw [← List.append_assoc l m [a]] at hmoved
  exact hmoved.trans (hl.append (refl [a]))

end InOrder

/-- Nothing is taken out when the elements are the same. -/
theorem lane_eq {l m : List A} (h : InOrder key l m) (hperm : l.Perm m) (k : K) :
    lane key k l = lane key k m :=
  (h k).eq_of_length (hperm.filter _).length_eq

end Ue4Background.Lanes
