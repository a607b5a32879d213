import Mathlib.Data.List.Basic
import Mathlib.Logic.Function.Basic
import Mathlib.Order.Lattice
import Mathlib.Order.Nat
import Mathlib.Tactic.Tauto

/-!
Tables kept sorted by their keys. Halving finds the entry of a key or the place where it belongs.
An entry inserted at its place keeps the table sorted, and so does the removal of entries.
-/

namespace Ue4Background.SortedTable

variable {K V : Type*} [LinearOrder K] {table : List (K × V)} {key : K}

/-- The keys of the table increase. -/
def Sorted (table : List (K × V)) : Prop := table.Pairwise fun e e' => e.1 < e'.1

/-- The search between two positions, with the turns it may take: the value of the key, or the
position where the key belongs. -/
def searchFrom (table : List (K × V)) (key : K) : ℕ → ℕ → ℕ → V ⊕ ℕ
  | 0, first, _ => .inr first
  | n + 1, first, stop =>
    if first < stop then
      let mid := (first + (stop - 1)) / 2
      match table[mid]? with
      | none => .inr first
      | some e =>
        if e.1 = key then .inl e.2
        else if e.1 < key then searchFrom table key n (mid + 1) stop
        else searchFrom table key n first mid
    else .inr first

def search (table : List (K × V)) (key : K) : V ⊕ ℕ :=
  searchFrom table key table.length 0 table.length

/-- The entries before a position have smaller keys. -/
def Below (table : List (K × V)) (key : K) (i : ℕ) : Prop :=
  ∀ j e, j < i → table[j]? = some e → e.1 < key

/-- The entries from a position on have larger keys. -/
def Above (table : List (K × V)) (key : K) (i : ℕ) : Prop :=
  ∀ j e, i ≤ j → table[j]? = some e → key < e.1

/-- What a search finds. -/
def Finds (table : List (K × V)) (key : K) : V ⊕ ℕ → Prop
  | .inl v => (key, v) ∈ table
  | .inr i => Below table key i ∧ Above table key i

theorem Sorted.lt_of_getElem (hs : Sorted table) {i j : ℕ} (hij : i < j) {e e' : K × V}
    (hi : table[i]? = some e) (hj : table[j]? = some e') : e.1 < e'.1 := by
  obtain ⟨hi', rfl⟩ := List.getElem?_eq_some_iff.mp hi
  obtain ⟨hj', rfl⟩ := List.getElem?_eq_some_iff.mp hj
  exact List.pairwise_iff_getElem.mp hs i j hi' hj' hij

/-- Halving keeps the place of the key between its two positions. -/
theorem searchFrom_finds (hs : Sorted table) (n : ℕ) {first stop : ℕ} (hle : first ≤ stop)
    (hstop : stop ≤ table.length) (hn : stop - first ≤ n) (hbelow : Below table key first)
    (habove : Above table key stop) : Finds table key (searchFrom table key n first stop) := by
  induction n generalizing first stop with
  | zero =>
    have hend : first = stop := by omega
    subst hend
    exact ⟨hbelow, habove⟩
  | succ n ih =>
    rw [searchFrom]
    split
    · rename_i hlt
      have hmid : (first + (stop - 1)) / 2 < stop ∧ first ≤ (first + (stop - 1)) / 2 := by omega
      generalize (first + (stop - 1)) / 2 = mid at hmid
      obtain ⟨hmid, hfirst⟩ := hmid
      have hsome : table[mid]? = some table[mid] := List.getElem?_eq_getElem (by omega)
      simp only [hsome]
      split
      · rename_i heq
        have hmem : table[mid] ∈ table := List.getElem_mem _
        rw [← heq]
        exact hmem
      · rename_i hne
        split
        · rename_i hless
          refine ih (by omega) hstop (by omega) ?_ habove
          intro j e hj he
          rcases Nat.lt_succ_iff_lt_or_eq.mp hj with hj | rfl
          · exact lt_trans (hs.lt_of_getElem hj he hsome) hless
          · rw [hsome] at he
            exact Option.some.inj he ▸ hless
        · rename_i hnless
          have hmore : key < table[mid].1 := lt_of_le_of_ne (not_lt.mp hnless) (Ne.symm hne)
          refine ih hfirst (by omega) (by omega) hbelow ?_
          intro j e hj he
          rcases Nat.lt_or_eq_of_le hj with hj | rfl
          · exact lt_trans hmore (hs.lt_of_getElem hj hsome he)
          · rw [hsome] at he
            exact Option.some.inj he ▸ hmore
    · have hend : first = stop := by omega
      subst hend
      exact ⟨hbelow, habove⟩

theorem search_finds (hs : Sorted table) (key : K) : Finds table key (search table key) := by
  refine searchFrom_finds hs _ (Nat.zero_le _) le_rfl le_rfl ?_ ?_
  · intro j e hj
    omega
  · intro j e hj he
    rw [List.getElem?_eq_none hj] at he
    cases he

/-- A search finds the value of a key of the table. -/
theorem search_eq_inl_iff (hs : Sorted table) (v : V) :
    search table key = .inl v ↔ (key, v) ∈ table := by
  have hfinds := search_finds hs key
  constructor
  · intro h
    rwa [h] at hfinds
  · intro hmem
    obtain ⟨j, hj⟩ := List.mem_iff_getElem?.mp hmem
    cases hsearch : search table key with
    | inl w =>
      rw [hsearch] at hfinds
      obtain ⟨i, hi⟩ := List.mem_iff_getElem?.mp hfinds
      rcases Nat.lt_trichotomy i j with hij | rfl | hij
      · exact absurd (hs.lt_of_getElem hij hi hj) (lt_irrefl _)
      · rw [hi] at hj
        obtain ⟨-, rfl⟩ := Prod.mk.inj (Option.some.inj hj)
        rfl
      · exact absurd (hs.lt_of_getElem hij hj hi) (lt_irrefl _)
    | inr i =>
      rw [hsearch] at hfinds
      obtain ⟨hbelow, habove⟩ := hfinds
      rcases Nat.lt_or_ge j i with hij | hij
      · exact absurd (hbelow j _ hij hj) (lt_irrefl _)
      · exact absurd (habove j _ hij hj) (lt_irrefl _)

/-- An entry inserted before a position. -/
def insertBefore (table : List (K × V)) (e : K × V) (i : ℕ) : List (K × V) :=
  table.take i ++ e :: table.drop i

theorem mem_insertBefore (e e' : K × V) (i : ℕ) :
    e' ∈ insertBefore table e i ↔ e' = e ∨ e' ∈ table := by
  have hparts : e' ∈ table ↔ e' ∈ table.take i ∨ e' ∈ table.drop i := by
    rw [← List.mem_append, List.take_append_drop]
  rw [insertBefore, List.mem_append, List.mem_cons, hparts]
  tauto

/-- An entry inserted at the place of its key keeps the table sorted. -/
theorem Sorted.insertBefore (hs : Sorted table) {i : ℕ} (v : V) (hbelow : Below table key i)
    (habove : Above table key i) : Sorted (insertBefore table (key, v) i) := by
  have hlow : ∀ e ∈ table.take i, e.1 < key := by
    intro e he
    obtain ⟨j, hj⟩ := List.mem_iff_getElem?.mp he
    rw [List.getElem?_take] at hj
    split at hj
    · exact hbelow j e (by assumption) hj
    · cases hj
  have hhigh : ∀ e ∈ table.drop i, key < e.1 := by
    intro e he
    obtain ⟨j, hj⟩ := List.mem_iff_getElem?.mp he
    rw [List.getElem?_drop] at hj
    exact habove (i + j) e (Nat.le_add_right ..) hj
  refine List.pairwise_append.mpr ⟨hs.sublist (List.take_sublist ..), ?_, ?_⟩
  · exact List.pairwise_cons.mpr ⟨hhigh, hs.sublist (List.drop_sublist ..)⟩
  · intro e he e' he'
    rcases List.mem_cons.mp he' with rfl | he'
    · exact hlow e he
    · exact lt_trans (hlow e he) (hhigh e' he')

theorem Sorted.filter (hs : Sorted table) (p : K × V → Bool) : Sorted (table.filter p) :=
  List.Pairwise.sublist List.filter_sublist hs

/-- The value of a key. -/
def value (table : List (K × V)) (key : K) : Option V :=
  match search table key with
  | .inl v => some v
  | .inr _ => none

theorem value_eq_some_iff (hs : Sorted table) (v : V) :
    value table key = some v ↔ (key, v) ∈ table := by
  rw [← search_eq_inl_iff hs, value]
  cases search table key <;> simp

theorem value_insertBefore [DecidableEq K] (hs : Sorted table) {i : ℕ} (v : V)
    (hbelow : Below table key i) (habove : Above table key i) :
    value (SortedTable.insertBefore table (key, v) i) =
      Function.update (value table) key (some v) := by
  have hs' := hs.insertBefore v hbelow habove
  funext key'
  refine Option.ext fun w => ?_
  rw [value_eq_some_iff hs', mem_insertBefore]
  by_cases hkey : key' = key
  · subst hkey
    have hnot : (key', w) ∉ table := by
      intro hmem
      obtain ⟨j, hj⟩ := List.mem_iff_getElem?.mp hmem
      rcases Nat.lt_or_ge j i with hij | hij
      · exact lt_irrefl _ (hbelow j _ hij hj)
      · exact lt_irrefl _ (habove j _ hij hj)
    rw [Function.update_self]
    simp [hnot, eq_comm]
  · rw [Function.update_of_ne hkey, value_eq_some_iff hs]
    simp [hkey]

theorem value_filter (hs : Sorted table) (p : V → Bool) (key : K) :
    value (table.filter fun e => p e.2) key = (value table key).filter p := by
  refine Option.ext fun v => ?_
  rw [value_eq_some_iff (hs.filter _), List.mem_filter, Option.filter_eq_some_iff,
    value_eq_some_iff hs]

end Ue4Background.SortedTable
