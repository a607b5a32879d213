import Mathlib.Data.List.Infix
import Ue4Background.LuaValues

/-!
Cutting a text at every occurrence of a separator, with the lazy match over and over. What
has been cut off does not change when more text is appended, so the pieces do not depend on
how a text arrives; and the pieces, each followed by the separator, spell the text again.
-/

namespace Ue4Background.LuaValues

variable {sep : Bytes}

theorem cut_spells {s a r : Bytes} (h : cut sep s = some (a, r)) : s = a ++ sep ++ r := by
  induction s generalizing a with
  | nil =>
    unfold cut at h
    split at h
    · rename_i hsep
      cases h
      rw [hsep]
      rfl
    · cases h
  | cons b s ih =>
    unfold cut at h
    split at h
    · rename_i hstarts
      cases h
      obtain ⟨t, ht⟩ := hstarts
      rw [← ht, List.drop_left, List.nil_append]
    · obtain ⟨⟨a', r'⟩, hrest, heq⟩ := Option.map_eq_some_iff.mp h
      cases heq
      rw [ih hrest]
      simp

/-- A match is found again when more text follows. -/
theorem cut_append {s a r : Bytes} (h : cut sep s = some (a, r)) (t : Bytes) :
    cut sep (s ++ t) = some (a, r ++ t) := by
  induction s generalizing a with
  | nil =>
    unfold cut at h
    split at h
    · rename_i hsep
      cases h
      subst hsep
      cases t <;> simp [cut]
    · cases h
  | cons b s ih =>
    unfold cut at h
    split at h
    · rename_i hstarts
      cases h
      have hstarts' : sep <+: b :: (s ++ t) := hstarts.trans (List.prefix_append (b :: s) t)
      rw [List.cons_append, cut, if_pos hstarts', ← List.cons_append,
        List.drop_append_of_le_length hstarts.length_le]
    · rename_i hstarts
      obtain ⟨⟨a', r'⟩, hrest, heq⟩ := Option.map_eq_some_iff.mp h
      cases heq
      have hlength : sep.length ≤ (b :: s).length := by
        rw [cut_spells hrest]
        simp
        omega
      have hstarts' : ¬ sep <+: b :: (s ++ t) := fun hpre =>
        hstarts (List.prefix_of_prefix_length_le hpre (List.prefix_append (b :: s) t) hlength)
      rw [List.cons_append, cut, if_neg hstarts', ih hrest]
      rfl

/-- Nothing before the first match contains the separator. -/
theorem cut_free (hsep : sep ≠ []) {s a r : Bytes} (h : cut sep s = some (a, r)) :
    ¬ sep <:+: a := by
  induction s generalizing a with
  | nil =>
    unfold cut at h
    rw [if_neg hsep] at h
    cases h
  | cons b s ih =>
    unfold cut at h
    split at h
    · cases h
      simpa using hsep
    · rename_i hstarts
      obtain ⟨⟨a', r'⟩, hrest, heq⟩ := Option.map_eq_some_iff.mp h
      cases heq
      intro hwithin
      rcases List.infix_cons_iff.mp hwithin with hpre | hrest'
      · refine hstarts (hpre.trans ?_)
        rw [cut_spells hrest]
        exact ⟨sep ++ r', by simp⟩
      · exact ih hrest hrest'

theorem cut_eq_none (hsep : sep ≠ []) {s : Bytes} : cut sep s = none ↔ ¬ sep <:+: s := by
  induction s with
  | nil => simp [cut, hsep]
  | cons b s ih =>
    unfold cut
    split
    · rename_i hstarts
      simp [hstarts.isInfix]
    · rename_i hstarts
      rw [Option.map_eq_none_iff, ih, List.infix_cons_iff, not_or]
      exact ⟨fun h => ⟨hstarts, h⟩, fun h => h.2⟩

/-- A text that cannot take part in a separator is cut off in front of one. -/
theorem cut_first {a : Bytes} (ha : ¬ sep <:+: a ++ sep.dropLast) (r : Bytes) :
    cut sep (a ++ sep ++ r) = some (a, r) := by
  induction a with
  | nil =>
    cases sep with
    | nil => cases r <;> simp [cut]
    | cons c sep => simp [cut]
  | cons b a ih =>
    have hstarts : ¬ sep <+: b :: (a ++ sep ++ r) := by
      intro hpre
      have hpre' : sep <+: b :: a ++ sep.dropLast := by
        refine List.prefix_of_prefix_length_le hpre ?_ ?_
        · rw [← List.cons_append, ← List.cons_append, List.append_assoc]
          refine List.prefix_append_right_inj _ |>.mpr ?_
          exact (List.dropLast_prefix sep).trans (List.prefix_append _ _)
        · simp
          omega
      exact ha hpre'.isInfix
    have ha' : ¬ sep <:+: a ++ sep.dropLast := fun hwithin =>
      ha (hwithin.trans (List.suffix_cons b _).isInfix)
    rw [List.cons_append, List.cons_append, cut, if_neg hstarts, ih ha']
    rfl

/-- A text with its pieces, and what is left when there is no match. -/
inductive Cuts (sep : Bytes) : Bytes → List Bytes → Bytes → Prop
  | stop {s : Bytes} (h : cut sep s = none) : Cuts sep s [] s
  | more {s a r rest : Bytes} {pieces : List Bytes} (h : cut sep s = some (a, r))
      (hrest : Cuts sep r pieces rest) : Cuts sep s (a :: pieces) rest

namespace Cuts

variable {s rest t : Bytes} {pieces pieces' : List Bytes}

/-- A text that arrives in two parts is cut as if it had come at once. -/
theorem append {rest' : Bytes} (h : Cuts sep s pieces rest)
    (h' : Cuts sep (rest ++ t) pieces' rest') : Cuts sep (s ++ t) (pieces ++ pieces') rest' := by
  induction h with
  | stop _ => exact h'
  | more hcut _ ih => exact Cuts.more (cut_append hcut t) (ih h')

theorem unique {rest' : Bytes} (h : Cuts sep s pieces rest) (h' : Cuts sep s pieces' rest') :
    pieces = pieces' ∧ rest = rest' := by
  induction h generalizing pieces' with
  | stop hcut =>
    cases h' with
    | stop => exact ⟨rfl, rfl⟩
    | more hcut' _ => cases hcut.symm.trans hcut'
  | more hcut _ ih =>
    cases h' with
    | stop hcut' => cases hcut.symm.trans hcut'
    | more hcut' hrest' =>
      cases hcut.symm.trans hcut'
      obtain ⟨rfl, rfl⟩ := ih hrest'
      exact ⟨rfl, rfl⟩

theorem spells (h : Cuts sep s pieces rest) : pieces.flatMap (· ++ sep) ++ rest = s := by
  induction h with
  | stop _ => rfl
  | more hcut _ ih => rw [List.flatMap_cons, List.append_assoc, ih, ← cut_spells hcut]

theorem free (hsep : sep ≠ []) (h : Cuts sep s pieces rest) :
    (∀ a ∈ pieces, ¬ sep <:+: a) ∧ ¬ sep <:+: rest := by
  induction h with
  | stop hcut => exact ⟨by simp, (cut_eq_none hsep).mp hcut⟩
  | more hcut _ ih => exact ⟨List.forall_mem_cons.mpr ⟨cut_free hsep hcut, ih.1⟩, ih.2⟩

/-- Pieces that cannot take part in a separator are the pieces of what they spell. -/
theorem of_pieces (hsep : sep ≠ []) (hpieces : ∀ a ∈ pieces, ¬ sep <:+: a ++ sep.dropLast)
    (hrest : ¬ sep <:+: rest) : Cuts sep (pieces.flatMap (· ++ sep) ++ rest) pieces rest := by
  induction pieces with
  | nil => exact Cuts.stop ((cut_eq_none hsep).mpr hrest)
  | cons a pieces ih =>
    obtain ⟨ha, hpieces⟩ := List.forall_mem_cons.mp hpieces
    refine Cuts.more ?_ (ih hpieces)
    rw [List.flatMap_cons, List.append_assoc]
    exact cut_first ha _

theorem exists_pieces (hsep : sep ≠ []) (s : Bytes) : ∃ pieces rest, Cuts sep s pieces rest := by
  induction hlength : s.length using Nat.strongRecOn generalizing s with
  | ind n ih =>
    cases hcut : cut sep s with
    | none => exact ⟨[], s, Cuts.stop hcut⟩
    | some entry =>
      obtain ⟨a, r⟩ := entry
      have hspells := congrArg List.length (cut_spells hcut)
      have hpos := List.length_pos_iff.mpr hsep
      simp only [List.length_append] at hspells
      obtain ⟨pieces, rest, hrest⟩ := ih r.length (by omega) r rfl
      exact ⟨a :: pieces, rest, Cuts.more hcut hrest⟩

end Cuts

theorem intercalate_append (sep : Bytes) (pieces : List Bytes) (rest : Bytes) :
    sep.intercalate (pieces ++ [rest]) = pieces.flatMap (· ++ sep) ++ rest := by
  induction pieces with
  | nil => simp
  | cons a pieces ih =>
    cases hpieces : pieces ++ [rest] with
    | nil => simp at hpieces
    | cons b tail =>
      rw [List.cons_append, hpieces, List.intercalate_cons_cons, ← hpieces, ih,
        List.flatMap_cons]
      simp

section Pair

variable {a b c : UInt8} {x y : Bytes}

/-- A pair of bytes stands in one of two parts, or where they meet. -/
theorem pair_infix_iff : [a, b] <:+: x ++ y ↔
    [a, b] <:+: x ∨ [a, b] <:+: y ∨ x.getLast? = some a ∧ y.head? = some b := by
  induction x with
  | nil => simp
  | cons d x ih =>
    rw [List.cons_append, List.infix_cons_iff, List.infix_cons_iff, ih]
    cases x with
    | nil =>
      cases y with
      | nil => simp
      | cons e y =>
        simp only [List.nil_append, List.cons_prefix_cons, List.nil_prefix, List.infix_nil,
          List.prefix_nil, List.getLast?_nil, List.getLast?_singleton, List.head?_cons,
          Option.some.injEq, reduceCtorEq, and_false, false_and, false_or, or_false, and_true,
          eq_comm (a := a), eq_comm (a := b)]
        exact or_comm
    | cons e x =>
      have hstarts : [a, b] <+: d :: (e :: x ++ y) ↔ [a, b] <+: d :: e :: x := by
        simp [List.cons_prefix_cons]
      rw [hstarts, List.getLast?_cons_cons]
      exact or_assoc.symm

/-- A byte that is in neither place of a pair of bytes parts the pairs before and after it. -/
theorem pair_infix_append (ha : c ≠ a) (hb : c ≠ b) (h : [a, b] <:+: x ++ c :: y) :
    [a, b] <:+: x ∨ [a, b] <:+: y := by
  rcases pair_infix_iff.mp h with hx | hy | ⟨_, hhead⟩
  · exact Or.inl hx
  · rcases List.infix_cons_iff.mp hy with hstarts | hwithin
    · exact absurd (List.cons_prefix_cons.mp hstarts).1.symm ha
    · exact Or.inr hwithin
  · exact absurd (Option.some.inj hhead) hb

theorem pair_infix_concat (hb : c ≠ b) (h : [a, b] <:+: x ++ [c]) : [a, b] <:+: x := by
  rcases pair_infix_iff.mp h with hx | hy | ⟨_, hhead⟩
  · exact hx
  · have hlength := hy.length_le
    simp at hlength
  · exact absurd (Option.some.inj hhead) hb

end Pair

end Ue4Background.LuaValues
