import Mathlib.Algebra.Ring.Nat
import Mathlib.Data.List.Flatten
import Mathlib.Data.List.Infix

/-!
Readers of a list from its front. A reader codes a value when it reads one spelling as that value,
whatever follows, and nothing from any shorter beginning of the spelling. Codes compose along the
sequence of two readers, a counted repetition, pairs up to an end mark, and a whole input. A reader
extends another when it reads at least what the other reads.
-/

namespace Ue4Background.Readers

variable {σ α β : Type}

abbrev Reader (σ : Type) := StateT (List σ) Option

/-- `r` reads `b` as `a`, and no less than `b`. -/
structure Codes (r : Reader σ α) (b : List σ) (a : α) : Prop where
  reads : ∀ rest, r (b ++ rest) = some (a, rest)
  short : ∀ s, s <+: b → s ≠ b → r s = none

def Extends (r r' : Reader σ α) : Prop := ∀ s x, r s = some x → r' s = some x

/-- The next `n` tokens. -/
def take (n : ℕ) : Reader σ (List σ) := fun s =>
  if s.length < n then none else some (s.take n, s.drop n)

/-- `n` values in a row. -/
def many (r : Reader σ α) : ℕ → Reader σ (List α)
  | 0 => pure []
  | n + 1 => do
    let a ← r
    let l ← many r n
    return a :: l

/-- Keys with their values up to a key that stops; the number bounds the pairs. -/
def pairs (r : Reader σ α) (stop : α → Bool) : ℕ → Reader σ (List (α × α))
  | 0 => failure
  | n + 1 => do
    let k ← r
    if stop k then return [] else do
      let v ← r
      let l ← pairs r stop n
      return (k, v) :: l

/-- Values up to the end of the input; the number bounds them. -/
def whole (r : Reader σ α) : ℕ → List σ → Option (List α)
  | _, [] => some []
  | 0, _ :: _ => none
  | n + 1, t :: s => (r (t :: s)).bind fun x => (whole r n x.2).map (x.1 :: ·)

theorem bind_apply (r : Reader σ α) (f : α → Reader σ β) (s : List σ) :
    (r >>= f) s = (r s).bind fun x => f x.1 x.2 := rfl

theorem prefix_append_cases {s b c : List σ} (h : s <+: b ++ c) :
    (s <+: b ∧ s ≠ b) ∨ ∃ t, s = b ++ t ∧ t <+: c := by
  rcases Nat.lt_or_ge s.length b.length with hlength | hlength
  · have hbegins := List.prefix_of_prefix_length_le h (List.prefix_append b c) hlength.le
    refine Or.inl ⟨hbegins, ?_⟩
    rintro rfl
    omega
  · obtain ⟨t, rfl⟩ := List.prefix_of_prefix_length_le (List.prefix_append b c) h hlength
    exact Or.inr ⟨t, rfl, (List.prefix_append_right_inj b).1 h⟩

namespace Codes

variable {r : Reader σ α} {b c : List σ} {a : α}

theorem pure (a : α) : Codes (Pure.pure a : Reader σ α) [] a where
  reads _ := rfl
  short _ hbegins hne := absurd (List.prefix_nil.1 hbegins) hne

theorem bind {f : α → Reader σ β} {d : β} (hr : Codes r b a) (hf : Codes (f a) c d) :
    Codes (r >>= f) (b ++ c) d where
  reads rest := by
    rw [bind_apply, List.append_assoc, hr.reads, Option.bind_some, hf.reads]
  short s hbegins hne := by
    rw [bind_apply]
    rcases prefix_append_cases hbegins with ⟨hfirst, hfirst'⟩ | ⟨t, rfl, hsecond⟩
    · rw [hr.short s hfirst hfirst', Option.bind_none]
    · rw [hr.reads, Option.bind_some]
      refine hf.short t hsecond ?_
      rintro rfl
      exact hne rfl

theorem map (f : α → β) (hr : Codes r b a) : Codes (f <$> r) b (f a) where
  reads rest := by
    change (r (b ++ rest)).bind (fun x => some (f x.1, x.2)) = _
    rw [hr.reads, Option.bind_some]
  short s hbegins hne := by
    change (r s).bind (fun x => some (f x.1, x.2)) = _
    rw [hr.short s hbegins hne, Option.bind_none]

theorem take (b : List σ) : Codes (take b.length) b b where
  reads rest := by
    rw [Readers.take, if_neg (by rw [List.length_append]; omega), List.take_left, List.drop_left]
  short s hbegins hne := by
    have hlength : s.length < b.length := by
      refine Nat.lt_of_le_of_ne hbegins.length_le fun heq => hne ?_
      exact hbegins.eq_of_length heq
    rw [Readers.take, if_pos hlength]

theorem many {enc : α → List σ} {l : List α} (h : ∀ a ∈ l, Codes r (enc a) a) :
    Codes (many r l.length) (l.flatMap enc) l := by
  induction l with
  | nil => exact pure []
  | cons a l ih =>
    have hhead := h a (List.mem_cons_self ..)
    have htail := ih fun a' ha' => h a' (List.mem_cons_of_mem a ha')
    have hboth := hhead.bind (f := fun a => List.cons a <$> Readers.many r l.length)
      (htail.map (List.cons a))
    exact hboth

/-- The end mark is the spelling of a value that stops. -/
theorem pairs {enc : α → List σ} {stop : α → Bool} {l : List (α × α)}
    (h : ∀ p ∈ l, Codes r (enc p.1) p.1 ∧ Codes r (enc p.2) p.2 ∧ stop p.1 = false)
    (hend : Codes r b a) (hstop : stop a = true) {n : ℕ} (hn : l.length < n) :
    Codes (pairs r stop n) (l.flatMap (fun p => enc p.1 ++ enc p.2) ++ b) l := by
  induction l generalizing n with
  | nil =>
    obtain ⟨n, rfl⟩ := Nat.exists_eq_succ_of_ne_zero (Nat.pos_iff_ne_zero.1 hn)
    have hmark := hend.bind (f := fun k => if stop k then Pure.pure [] else do
      let v ← r
      let l ← Readers.pairs r stop n
      return (k, v) :: l) (c := []) (d := []) (by rw [if_pos hstop]; exact pure [])
    rwa [List.append_nil] at hmark
  | cons p l ih =>
    obtain ⟨n, rfl⟩ := Nat.exists_eq_succ_of_ne_zero (Nat.ne_of_gt (Nat.zero_lt_of_lt hn))
    obtain ⟨hkey, hvalue, hgoes⟩ := h p (List.mem_cons_self ..)
    have hrest := ih (fun p' hp' => h p' (List.mem_cons_of_mem p hp')) (Nat.lt_of_succ_lt_succ hn)
    have htail := hvalue.bind (f := fun v => (fun l => (p.1, v) :: l) <$> Readers.pairs r stop n)
      (hrest.map fun l => (p.1, p.2) :: l)
    have hall := hkey.bind (f := fun k => if stop k then Pure.pure [] else do
      let v ← r
      let l ← Readers.pairs r stop n
      return (k, v) :: l) (by
        rw [hgoes]
        exact htail)
    rw [List.flatMap_cons, List.append_assoc, List.append_assoc]
    exact hall

end Codes

namespace Extends

variable {r r' : Reader σ α}

theorem refl (r : Reader σ α) : Extends r r := fun _ _ h => h

theorem bind {f g : α → Reader σ β} (hr : Extends r r') (hf : ∀ a, Extends (f a) (g a)) :
    Extends (r >>= f) (r' >>= g) := by
  intro s x h
  rw [bind_apply] at h ⊢
  obtain ⟨y, hy, hx⟩ := Option.bind_eq_some_iff.1 h
  rw [hr s y hy, Option.bind_some]
  exact hf y.1 y.2 x hx

theorem many (hr : Extends r r') (n : ℕ) : Extends (many r n) (many r' n) := by
  induction n with
  | zero => exact refl _
  | succ n ih => exact hr.bind fun a => ih.bind fun l => refl _

theorem pairs (hr : Extends r r') (stop : α → Bool) {n n' : ℕ} (hn : n ≤ n') :
    Extends (pairs r stop n) (pairs r' stop n') := by
  induction n generalizing n' with
  | zero => exact nofun
  | succ n ih =>
    obtain ⟨n', rfl⟩ := Nat.exists_eq_succ_of_ne_zero (by omega : n' ≠ 0)
    refine hr.bind fun k => ?_
    split
    · exact refl _
    · exact hr.bind fun v => (ih (Nat.le_of_succ_le_succ hn)).bind fun l => refl _

end Extends

theorem whole_mono {r r' : Reader σ α} (hr : Extends r r') {n : ℕ} {s : List σ} {l : List α}
    (h : whole r n s = some l) : whole r' n s = some l := by
  induction n generalizing s l with
  | zero => cases s <;> exact h
  | succ n ih =>
    cases s with
    | nil => exact h
    | cons t s =>
      rw [whole] at h ⊢
      obtain ⟨x, hx, htail⟩ := Option.bind_eq_some_iff.1 h
      obtain ⟨l', hl', rfl⟩ := Option.map_eq_some_iff.1 htail
      rw [hr _ x hx, Option.bind_some, ih hl', Option.map_some]

section Whole

variable {r : Reader σ α} {enc : α → List σ} {l : List α}

theorem whole_step (n : ℕ) {s : List σ} (hs : s ≠ []) :
    whole r (n + 1) s = (r s).bind fun x => (whole r n x.2).map (x.1 :: ·) := by
  cases s with
  | nil => exact absurd rfl hs
  | cons t s => rfl

/-- The values spelled in a row are read back. -/
theorem whole_reads (h : ∀ a ∈ l, Codes r (enc a) a ∧ enc a ≠ []) {n : ℕ} (hn : l.length ≤ n) :
    whole r n (l.flatMap enc) = some l := by
  induction l generalizing n with
  | nil => cases n <;> rfl
  | cons a l ih =>
    obtain ⟨n, rfl⟩ := Nat.exists_eq_succ_of_ne_zero (Nat.ne_of_gt (Nat.zero_lt_of_lt hn))
    obtain ⟨hcode, hne⟩ := h a (List.mem_cons_self ..)
    have hne' : (a :: l).flatMap enc ≠ [] := by
      rw [List.flatMap_cons]
      exact List.append_ne_nil_of_left_ne_nil hne _
    have hrest := ih (fun a' ha' => h a' (List.mem_cons_of_mem a ha')) (Nat.le_of_succ_le_succ hn)
    rw [whole_step n hne', List.flatMap_cons, hcode.reads, Option.bind_some, hrest, Option.map_some]

/-- An input that is cut off is read as fewer values, or not at all. -/
theorem whole_short (h : ∀ a ∈ l, Codes r (enc a) a ∧ enc a ≠ []) {n : ℕ} {s : List σ}
    (hbegins : s <+: l.flatMap enc) (hne : s ≠ l.flatMap enc) {l' : List α}
    (hread : whole r n s = some l') : l' <+: l ∧ l' ≠ l := by
  induction l generalizing n s l' with
  | nil => exact absurd (List.prefix_nil.1 hbegins) hne
  | cons a l ih =>
    obtain ⟨hcode, hcode'⟩ := h a (List.mem_cons_self ..)
    by_cases hs : s = []
    · subst hs
      have hl : l' = [] := by cases n <;> exact (Option.some.inj hread).symm
      subst hl
      exact ⟨List.nil_prefix, nofun⟩
    · cases n with
      | zero =>
        cases s with
        | nil => exact absurd rfl hs
        | cons t s => cases hread
      | succ n =>
        rw [whole_step n hs] at hread
        obtain ⟨x, hx, htail⟩ := Option.bind_eq_some_iff.1 hread
        obtain ⟨l'', hl'', rfl⟩ := Option.map_eq_some_iff.1 htail
        rw [List.flatMap_cons] at hbegins hne
        rcases prefix_append_cases hbegins with ⟨hfirst, hfirst'⟩ | ⟨t, rfl, hsecond⟩
        · rw [hcode.short s hfirst hfirst'] at hx
          cases hx
        · rw [hcode.reads] at hx
          cases hx
          have hne' : t ≠ l.flatMap enc := by
            rintro rfl
            exact hne rfl
          obtain ⟨hrest, hrest'⟩ :=
            ih (fun a' ha' => h a' (List.mem_cons_of_mem a ha')) hsecond hne' hl''
          refine ⟨List.cons_prefix_cons.2 ⟨rfl, hrest⟩, fun heq => hrest' ?_⟩
          exact (List.cons.inj heq).2

end Whole

/-- The `k` bytes of a number, the lowest first. -/
def leBytes : ℕ → ℕ → List UInt8
  | 0, _ => []
  | k + 1, n => UInt8.ofNat (n % 256) :: leBytes k (n / 256)

def leNat : List UInt8 → ℕ
  | [] => 0
  | b :: s => b.toNat + 256 * leNat s

/-- A number of `k` bytes. -/
def word (k : ℕ) : Reader UInt8 ℕ := leNat <$> take k

theorem length_leBytes (k n : ℕ) : (leBytes k n).length = k := by
  induction k generalizing n with
  | zero => rfl
  | succ k ih => rw [leBytes, List.length_cons, ih]

theorem leNat_leBytes {k n : ℕ} (h : n < 256 ^ k) : leNat (leBytes k n) = n := by
  induction k generalizing n with
  | zero =>
    rw [pow_zero] at h
    rw [leBytes, leNat]
    omega
  | succ k ih =>
    have hdiv : n / 256 < 256 ^ k := by
      rw [pow_succ] at h
      omega
    have hdigit : (UInt8.ofNat (n % 256)).toNat = n % 256 := by
      rw [UInt8.toNat_ofNat']
      omega
    rw [leBytes, leNat, hdigit, ih hdiv]
    omega

theorem Codes.word {k n : ℕ} (h : n < 256 ^ k) : Codes (word k) (leBytes k n) n := by
  have hcode := (Codes.take (leBytes k n)).map leNat
  rwa [leNat_leBytes h, length_leBytes] at hcode

end Ue4Background.Readers
