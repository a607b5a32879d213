import Mathlib.Algebra.Ring.Nat
import Mathlib.Data.Nat.Bitwise
import Ue4Background.SortedTable

/-!
The storage of the handles of a node (`skynet_handle.c`). A context stands in the slot its handle
is hashed to. A registration takes the next handle whose slot is free; when it finds none, it
doubles the slots, which reads every slot without a test. The handles have 24 bits and start anew
at 1, so the search misses the slot 0 when it passes the end. The context takes its handle together
with its slot; `skynet_context_new` assigns it a little later, outside the lock.
-/

namespace Ue4Background.Kernel

open SortedTable

def handleMask : ℕ := 0xffffff

def defaultSlotSize : ℕ := 4

def maxSlotSize : ℕ := 0x40000000

/-- What stops a registration: a failed assertion, or the read of an empty slot through `NULL`. The
loop that doubles the slots does not use up its turns. -/
inductive RegisterFault
  | assertion
  | nullSlot
  | turns
  deriving DecidableEq

/-- A context in a slot stands with its handle. -/
structure Storage (Name C : Type*) where
  harbor : ℕ
  handleIndex : ℕ
  slotSize : ℕ
  slot : ℕ → Option (ℕ × C)
  nameCap : ℕ
  name : List (Name × ℕ)

namespace Storage

variable {Name C : Type*}

/-- `skynet_handle_init`. -/
def init (harbor : ℕ) : Storage Name C :=
  { harbor := (harbor &&& 0xff) <<< 24, handleIndex := 1, slotSize := defaultSlotSize,
    slot := fun _ => none, nameCap := 2, name := [] }

/-- The search of `skynet_handle_register` for a handle with a free slot, with `n` turns left. -/
def probe (s : Storage Name C) : ℕ → ℕ → Option ℕ
  | 0, _ => none
  | n + 1, handle =>
    let handle := if handle > handleMask then 1 else handle
    if (s.slot (handle &&& (s.slotSize - 1))).isNone then some handle
    else probe s n (handle + 1)

/-- One turn of the loop that fills the new slots. -/
def rehash (s : Storage Name C) (slot : ℕ → Option (ℕ × C)) (i : ℕ) :
    Except RegisterFault (ℕ → Option (ℕ × C)) :=
  match s.slot i with
  | none => .error .nullSlot
  | some ctx =>
    let hash := ctx.1 &&& (s.slotSize * 2 - 1)
    if (slot hash).isNone then .ok (Function.update slot hash (some ctx)) else .error .assertion

/-- Doubling the slots. -/
def double (s : Storage Name C) : Except RegisterFault (Storage Name C) :=
  if s.slotSize * 2 - 1 ≤ handleMask then
    ((List.range s.slotSize).foldlM s.rehash fun _ => none).map fun slot =>
      { s with slot, slotSize := s.slotSize * 2 }
  else .error .assertion

/-- The loop of `skynet_handle_register`, with the turns it may take. -/
def registerLoop (ctx : C) : ℕ → Storage Name C → Except RegisterFault (ℕ × Storage Name C)
  | 0, _ => .error .turns
  | n + 1, s =>
    match s.probe s.slotSize s.handleIndex with
    | some handle =>
      let h := handle ||| s.harbor
      .ok (h, { s with
        slot := Function.update s.slot (handle &&& (s.slotSize - 1)) (some (h, ctx))
        handleIndex := handle + 1 })
    | none => s.double.bind (registerLoop ctx n)

/-- `skynet_handle_register`, with the assignment of the handle to the context. -/
def register (s : Storage Name C) (ctx : C) : Except RegisterFault (ℕ × Storage Name C) :=
  registerLoop ctx 2 s

/-- `skynet_handle_grab`. -/
def grab (s : Storage Name C) (handle : ℕ) : Option C :=
  match s.slot (handle &&& (s.slotSize - 1)) with
  | some ctx => if ctx.1 = handle then some ctx.2 else none
  | none => none

/-- `skynet_handle_retire`. -/
def retire (s : Storage Name C) (handle : ℕ) : Storage Name C × Bool :=
  if (s.grab handle).isSome then
    ({ s with
        slot := Function.update s.slot (handle &&& (s.slotSize - 1)) none
        name := s.name.filter fun e => e.2 ≠ handle }, true)
  else (s, false)

/-- `skynet_handle_findname`. -/
def findname [LinearOrder Name] (s : Storage Name C) (name : Name) : ℕ :=
  match search s.name name with
  | .inl handle => handle
  | .inr _ => 0

/-- `skynet_handle_namehandle`. -/
def namehandle [LinearOrder Name] (s : Storage Name C) (handle : ℕ) (name : Name) :
    Option (Storage Name C × Bool) :=
  match search s.name name with
  | .inl _ => some (s, false)
  | .inr i =>
    let name' := insertBefore s.name (name, handle) i
    if s.name.length ≥ s.nameCap then
      if s.nameCap * 2 ≤ maxSlotSize then
        some ({ s with name := name', nameCap := s.nameCap * 2 }, true)
      else none
    else some ({ s with name := name' }, true)

/-- The slots and the names of a storage in use. -/
structure Kept [LinearOrder Name] (s : Storage Name C) : Prop where
  size : ∃ k, 2 ≤ k ∧ k ≤ 24 ∧ s.slotSize = 2 ^ k
  harbor : ∃ a, s.harbor = 2 ^ 24 * a
  index : 1 ≤ s.handleIndex ∧ s.handleIndex ≤ 2 ^ 24
  slots : ∀ i h c, s.slot i = some (h, c) →
    h % s.slotSize = i ∧ ∃ low, 1 ≤ low ∧ low < 2 ^ 24 ∧ h = s.harbor + low
  names : Sorted s.name

/-- The handle after `i` turns of the search. -/
def turn (handle i : ℕ) : ℕ := (handle - 1 + i) % handleMask + 1

theorem turn_zero {handle : ℕ} (hpos : 1 ≤ handle) (hle : handle ≤ 2 ^ 24) :
    turn handle 0 = if handle > handleMask then 1 else handle := by
  unfold turn handleMask
  split <;> omega

theorem turn_succ {handle : ℕ} (hpos : 1 ≤ handle) (hle : handle ≤ 2 ^ 24) (i : ℕ) :
    turn handle (i + 1) = turn ((if handle > handleMask then 1 else handle) + 1) i := by
  unfold turn handleMask
  split <;> omega

theorem and_size {s : Storage Name C} {k : ℕ} (hsize : s.slotSize = 2 ^ k) (x : ℕ) :
    x &&& (s.slotSize - 1) = x % s.slotSize := by
  rw [hsize]
  exact Nat.and_two_pow_sub_one_eq_mod x k

theorem probe_eq_none_iff {s : Storage Name C} {k : ℕ} (hsize : s.slotSize = 2 ^ k) (n : ℕ)
    {handle : ℕ} (hpos : 1 ≤ handle) (hle : handle ≤ 2 ^ 24) :
    s.probe n handle = none ↔ ∀ i < n, (s.slot (turn handle i % s.slotSize)).isSome := by
  induction n generalizing handle with
  | zero => simp [probe]
  | succ n ih =>
    have hnext : 1 ≤ (if handle > handleMask then 1 else handle) + 1 ∧
        (if handle > handleMask then 1 else handle) + 1 ≤ 2 ^ 24 := by
      unfold handleMask
      split <;> omega
    have hhead : s.slot ((if handle > handleMask then 1 else handle) &&& (s.slotSize - 1)) =
        s.slot (turn handle 0 % s.slotSize) := by
      rw [and_size hsize, turn_zero hpos hle]
    rw [probe, hhead]
    constructor
    · intro h i hi
      split at h
      · cases h
      · rename_i hfull
        cases i with
        | zero => simpa [Option.isSome_iff_ne_none] using hfull
        | succ i =>
          rw [turn_succ hpos hle]
          exact (ih hnext.1 hnext.2).mp h i (by omega)
    · intro h
      have hfull := h 0 (by omega)
      rw [if_neg (by simpa [Option.isSome_iff_ne_none] using hfull)]
      refine (ih hnext.1 hnext.2).mpr fun i hi => ?_
      rw [← turn_succ hpos hle]
      exact h (i + 1) (by omega)

theorem probe_eq_some {s : Storage Name C} {k : ℕ} (hsize : s.slotSize = 2 ^ k) (n : ℕ)
    {handle h : ℕ} (hpos : 1 ≤ handle) (hle : handle ≤ 2 ^ 24)
    (hprobe : s.probe n handle = some h) :
    1 ≤ h ∧ h < 2 ^ 24 ∧ s.slot (h % s.slotSize) = none := by
  induction n generalizing handle with
  | zero => cases hprobe
  | succ n ih =>
    have hnext : 1 ≤ (if handle > handleMask then 1 else handle) ∧
        (if handle > handleMask then 1 else handle) < 2 ^ 24 := by
      unfold handleMask
      split <;> omega
    rw [probe] at hprobe
    generalize (if handle > handleMask then 1 else handle) = g at hprobe hnext
    split at hprobe
    · rename_i hfree
      obtain rfl := Option.some.inj hprobe
      refine ⟨hnext.1, hnext.2, ?_⟩
      rw [and_size hsize] at hfree
      exact Option.isNone_iff_eq_none.mp hfree
    · exact ih (by omega) (by omega) hprobe

/-- The first handle of the search. -/
def first (s : Storage Name C) : ℕ := if s.handleIndex > handleMask then 1 else s.handleIndex

/-- The search of one turn for each slot meets every slot, but for the slot 0 when it passes the
end of the handles. -/
theorem turn_covers {size k handle r : ℕ} (hsize : size = 2 ^ k) (hk : k ≤ 24)
    (hpos : 1 ≤ handle) (hle : handle ≤ 2 ^ 24) (hr : r < size) :
    (∃ i < size, turn handle i % size = r) ↔
      r ≠ 0 ∨ (if handle > handleMask then 1 else handle) + size ≤ 2 ^ 24 := by
  obtain ⟨m, hm⟩ : ∃ m, 2 ^ 24 = size * m := by
    rw [hsize]
    exact ⟨2 ^ (24 - k), by rw [← pow_add]; congr 1; omega⟩
  have hfirst : ∀ i, turn handle i =
      ((if handle > handleMask then 1 else handle) - 1 + i) % handleMask + 1 := by
    intro i
    unfold turn handleMask
    split <;> omega
  have hbounds : 1 ≤ (if handle > handleMask then 1 else handle) ∧
      (if handle > handleMask then 1 else handle) < 2 ^ 24 := by
    unfold handleMask
    split <;> omega
  simp only [hfirst]
  generalize (if handle > handleMask then 1 else handle) = n at hbounds
  obtain ⟨hn, hn'⟩ := hbounds
  have hsplit := Nat.div_add_mod n size
  have ha : n % size < size := Nat.mod_lt _ (by omega)
  generalize hq : n / size = q at hsplit
  generalize n % size = a at hsplit ha
  have hqm : q + 1 ≤ m := by
    by_contra hlt
    have hmul : size * m ≤ size * q := Nat.mul_le_mul_left _ (by omega)
    omega
  have hblock : size * (q + 1) ≤ 2 ^ 24 := by
    rw [hm]
    exact Nat.mul_le_mul_left _ hqm
  have hmod : ∀ x, x < size → ∀ y, (size * y + x) % size = x := by
    intro x hx y
    rw [Nat.mul_add_mod, Nat.mod_eq_of_lt hx]
  have hsucc : size * (q + 1) = size * q + size := Nat.mul_succ ..
  constructor
  · rintro ⟨i, hi, hturn⟩
    by_contra hnot
    push Not at hnot
    obtain ⟨rfl, hpass⟩ := hnot
    have hend : size * (q + 1) = 2 ^ 24 := by
      by_contra hne
      have hlt : q + 1 < m := by
        by_contra hge
        have heq : q + 1 = m := by omega
        rw [heq, ← hm] at hne
        exact hne rfl
      have hmul : size * (q + 1 + 1) ≤ size * m := Nat.mul_le_mul_left _ hlt
      have hsucc' : size * (q + 1 + 1) = size * (q + 1) + size := Nat.mul_succ ..
      omega
    have hapos : 0 < a := by omega
    by_cases hwrap : n - 1 + i < handleMask
    · rw [Nat.mod_eq_of_lt hwrap] at hturn
      have hx : a + i < size := by
        unfold handleMask at hwrap
        omega
      have hval : n - 1 + i + 1 = size * q + (a + i) := by omega
      rw [hval, hmod _ hx] at hturn
      omega
    · have hval : (n - 1 + i) % handleMask + 1 = a + i - size + 1 := by
        unfold handleMask at hwrap ⊢
        omega
      rw [hval, Nat.mod_eq_of_lt (by omega)] at hturn
      omega
  · intro hcover
    by_cases hra : a ≤ r
    · refine ⟨r - a, by omega, ?_⟩
      have hval : (n - 1 + (r - a)) % handleMask + 1 = size * q + r := by
        unfold handleMask
        omega
      rw [hval, hmod _ hr]
    · by_cases hroom : size * (q + 1) + r < 2 ^ 24
      · refine ⟨r + size - a, by omega, ?_⟩
        have hval : (n - 1 + (r + size - a)) % handleMask + 1 = size * (q + 1) + r := by
          unfold handleMask
          omega
        rw [hval, hmod _ hr]
      · have hend : size * (q + 1) = 2 ^ 24 := by
          by_contra hne
          have hlt : q + 1 < m := by
            by_contra hge
            have heq : q + 1 = m := by omega
            rw [heq, ← hm] at hne
            exact hne rfl
          have hmul : size * (q + 1 + 1) ≤ size * m := Nat.mul_le_mul_left _ hlt
          have hsucc' : size * (q + 1 + 1) = size * (q + 1) + size := Nat.mul_succ ..
          omega
        have hrpos : r ≠ 0 := by
          rcases hcover with hcover | hcover
          · exact hcover
          · omega
        refine ⟨r + size - a - 1, by omega, ?_⟩
        have hval : (n - 1 + (r + size - a - 1)) % handleMask + 1 = r := by
          unfold handleMask
          omega
        rw [hval, Nat.mod_eq_of_lt hr]

/-- The new slots after the first `n` old slots have been moved. -/
def moved (s : Storage Name C) (n j : ℕ) : Option (ℕ × C) :=
  if j % s.slotSize < n then
    (s.slot (j % s.slotSize)).filter fun ctx => ctx.1 % (s.slotSize * 2) = j
  else none

theorem double_large {s : Storage Name C} (hlarge : 2 ^ 24 ≤ s.slotSize) :
    s.double = .error .assertion := by
  rw [double, if_neg]
  unfold handleMask
  omega

/-- The doubling reads the slot 0 first. -/
theorem double_empty {s : Storage Name C} {k : ℕ} (hsize : s.slotSize = 2 ^ k)
    (hempty : s.slot 0 = none) :
    s.double = .error (if s.slotSize < 2 ^ 24 then .nullSlot else .assertion) := by
  split
  · rename_i hroom
    have hlt : k < 24 := by
      rw [hsize] at hroom
      exact (Nat.pow_lt_pow_iff_right (by decide)).mp hroom
    have hmask : s.slotSize * 2 - 1 ≤ handleMask := by
      have hle : s.slotSize * 2 ≤ 2 ^ 24 := by
        rw [hsize, ← pow_succ]
        exact Nat.pow_le_pow_right (by decide) hlt
      unfold handleMask
      omega
    obtain ⟨n, hn⟩ : ∃ n, s.slotSize = n + 1 :=
      Nat.exists_eq_add_one.mpr (hsize ▸ Nat.two_pow_pos k)
    have hread : s.rehash (fun _ => none) 0 = .error .nullSlot := by
      rw [rehash, hempty]
    rw [double, if_pos hmask, hn, List.range_succ_eq_map, List.foldlM_cons, hread]
    rfl
  · rename_i hlarge
    exact double_large (not_lt.mp hlarge)

theorem register_eq (s : Storage Name C) (ctx : C) (n : ℕ) :
    registerLoop ctx (n + 1) s =
      match s.probe s.slotSize s.handleIndex with
      | some low => .ok (low ||| s.harbor, { s with
          slot := Function.update s.slot (low &&& (s.slotSize - 1)) (some (low ||| s.harbor, ctx))
          handleIndex := low + 1 })
      | none => s.double.bind (registerLoop ctx n) := rfl

section Double

variable [LinearOrder Name] {s : Storage Name C}

/-- Moving one slot finds its new place free. -/
theorem rehash_moved (h : s.Kept) {n : ℕ} {ctx : ℕ × C} (hn : s.slot n = some ctx) :
    s.rehash (s.moved n) n = .ok (s.moved (n + 1)) := by
  obtain ⟨k, hk, -, hsize⟩ := h.size
  obtain ⟨hhash, -⟩ := h.slots n ctx.1 ctx.2 hn
  have hand : ctx.1 &&& (s.slotSize * 2 - 1) = ctx.1 % (s.slotSize * 2) := by
    rw [hsize, ← pow_succ]
    exact Nat.and_two_pow_sub_one_eq_mod _ _
  have hlow : ctx.1 % (s.slotSize * 2) % s.slotSize = n := by
    rw [Nat.mod_mul_right_mod, hhash]
  have hfree : s.moved n (ctx.1 % (s.slotSize * 2)) = none := by
    rw [moved, hlow, if_neg (lt_irrefl n)]
  unfold rehash
  simp only [hn, hand, hfree, Option.isNone_none, if_true, Except.ok.injEq]
  funext j
  by_cases hj : j = ctx.1 % (s.slotSize * 2)
  · subst hj
    rw [Function.update_self, moved, hlow, if_pos (Nat.lt_succ_self n), hn]
    simp [Option.filter]
  · rw [Function.update_of_ne hj]
    unfold moved
    by_cases hjn : j % s.slotSize = n
    · rw [hjn, if_neg (lt_irrefl n), if_pos (Nat.lt_succ_self n), hn]
      simp [Option.filter, Ne.symm hj]
    · by_cases hlt : j % s.slotSize < n
      · rw [if_pos hlt, if_pos (by omega)]
      · rw [if_neg hlt, if_neg (by omega)]

theorem foldlM_rehash (h : s.Kept) (n : ℕ) (hfull : ∀ i < n, (s.slot i).isSome) :
    (List.range n).foldlM s.rehash (fun _ => none) = .ok (s.moved n) := by
  induction n with
  | zero =>
    refine congrArg Except.ok (funext fun j => ?_)
    simp [moved]
  | succ n ih =>
    obtain ⟨ctx, hctx⟩ := Option.isSome_iff_exists.mp (hfull n (Nat.lt_succ_self n))
    rw [List.range_succ, List.foldlM_append, ih fun i hi => hfull i (by omega)]
    change List.foldlM s.rehash (s.moved n) [n] = _
    rw [List.foldlM_cons, rehash_moved h hctx]
    rfl

/-- Doubling full slots keeps every context where its handle is hashed to. -/
theorem double_full (h : s.Kept) (hfull : ∀ i < s.slotSize, (s.slot i).isSome)
    (hroom : s.slotSize < 2 ^ 24) :
    s.double = .ok { s with slot := s.moved s.slotSize, slotSize := s.slotSize * 2 } ∧
      Kept { s with slot := s.moved s.slotSize, slotSize := s.slotSize * 2 } ∧
      (∀ handle, grab { s with slot := s.moved s.slotSize, slotSize := s.slotSize * 2 } handle =
        s.grab handle) := by
  obtain ⟨k, hk, hk', hsize⟩ := h.size
  have hpos : 0 < s.slotSize := hsize ▸ Nat.two_pow_pos k
  have hk'' : k < 24 := by
    by_contra hge
    have heq : k = 24 := by omega
    rw [hsize, heq] at hroom
    exact lt_irrefl _ hroom
  have hmask : s.slotSize * 2 - 1 ≤ handleMask := by
    have hle : s.slotSize * 2 ≤ 2 ^ 24 := by
      rw [hsize, ← pow_succ]
      exact Nat.pow_le_pow_right (by decide) (by omega)
    unfold handleMask
    omega
  have hmoved : ∀ j, s.moved s.slotSize j =
      (s.slot (j % s.slotSize)).filter fun ctx => ctx.1 % (s.slotSize * 2) = j :=
    fun j => if_pos (Nat.mod_lt _ hpos)
  refine ⟨?_, ⟨⟨k + 1, by omega, by omega, ?_⟩, h.harbor, h.index, ?_, h.names⟩, ?_⟩
  · rw [double, if_pos hmask, foldlM_rehash h _ hfull]
    rfl
  · rw [pow_succ, ← hsize]
  · intro j g c hj
    dsimp only at hj
    rw [hmoved] at hj
    obtain ⟨hslot, hplace⟩ := Option.filter_eq_some_iff.mp hj
    exact ⟨by simpa using hplace, (h.slots _ g c hslot).2⟩
  · intro handle
    have hand : handle &&& (s.slotSize * 2 - 1) = handle % (s.slotSize * 2) := by
      rw [hsize, ← pow_succ]
      exact Nat.and_two_pow_sub_one_eq_mod _ _
    unfold grab
    dsimp only
    rw [hand, hmoved, Nat.mod_mul_right_mod, and_size hsize]
    cases hslot : s.slot (handle % s.slotSize) with
    | none => rfl
    | some ctx =>
      by_cases hctx : ctx.1 = handle
      · simp [Option.filter, hctx]
      · by_cases hplace : ctx.1 % (s.slotSize * 2) = handle % (s.slotSize * 2)
        · simp [Option.filter, hctx, hplace]
        · simp [Option.filter, hctx, hplace]

end Double

section Register

variable [LinearOrder Name] {s : Storage Name C}

theorem Kept.harbor_mod (h : s.Kept) (low : ℕ) :
    (s.harbor + low) % s.slotSize = low % s.slotSize := by
  obtain ⟨k, -, hk, hsize⟩ := h.size
  obtain ⟨a, ha⟩ := h.harbor
  have hpow : 2 ^ 24 = s.slotSize * 2 ^ (24 - k) := by
    rw [hsize, ← pow_add]
    congr 1
    omega
  rw [ha, hpow, Nat.mul_assoc, Nat.mul_add_mod]

/-- What a registration has done to the storage. -/
structure Registered (s s' : Storage Name C) (h : ℕ) (ctx : C) : Prop where
  kept : s'.Kept
  handle : h ≠ 0
  fresh : s.grab h = none
  grab : ∀ handle, s'.grab handle = if handle = h then some ctx else s.grab handle
  name : s'.name = s.name

/-- A context put in a free slot is found under its handle and moves no other. -/
theorem registered_of_probe (h : s.Kept) {n low : ℕ} (ctx : C)
    (hprobe : s.probe n s.handleIndex = some low) :
    Registered s { s with
      slot := Function.update s.slot (low &&& (s.slotSize - 1)) (some (low ||| s.harbor, ctx))
      handleIndex := low + 1 } (low ||| s.harbor) ctx := by
  obtain ⟨k, hk, hk', hsize⟩ := h.size
  obtain ⟨a, ha⟩ := h.harbor
  obtain ⟨hpos, hlt, hfree⟩ := probe_eq_some hsize n h.index.1 h.index.2 hprobe
  have hor : low ||| s.harbor = s.harbor + low := by
    rw [Nat.or_comm, ha, Nat.two_pow_add_eq_or_of_lt hlt]
  rw [hor, and_size hsize]
  refine ⟨⟨⟨k, hk, hk', hsize⟩, ⟨a, ha⟩, ?_, ?_, h.names⟩, ?_, ?_, ?_, rfl⟩
  · dsimp only
    omega
  · intro i g c hi
    dsimp only at hi ⊢
    by_cases hslot : i = low % s.slotSize
    · subst hslot
      rw [Function.update_self] at hi
      obtain ⟨rfl, rfl⟩ := Prod.mk.inj (Option.some.inj hi)
      exact ⟨h.harbor_mod low, low, hpos, hlt, rfl⟩
    · rw [Function.update_of_ne hslot] at hi
      exact h.slots i g c hi
  · omega
  · rw [grab, and_size hsize, h.harbor_mod, hfree]
  · intro handle
    unfold grab
    dsimp only
    rw [and_size hsize]
    by_cases hslot : handle % s.slotSize = low % s.slotSize
    · rw [hslot, Function.update_self, hfree]
      dsimp only
      by_cases heq : handle = s.harbor + low
      · rw [if_pos heq, if_pos heq.symm]
      · rw [if_neg heq, if_neg (Ne.symm heq)]
    · rw [Function.update_of_ne hslot, if_neg]
      rintro rfl
      exact hslot (h.harbor_mod low)

theorem probe_full (h : s.Kept) :
    s.probe s.slotSize s.handleIndex = none ↔
      ∀ r < s.slotSize, (r ≠ 0 ∨ s.first + s.slotSize ≤ 2 ^ 24) → (s.slot r).isSome := by
  obtain ⟨k, -, hk, hsize⟩ := h.size
  rw [probe_eq_none_iff hsize _ h.index.1 h.index.2]
  constructor
  · intro hall r hr hcover
    obtain ⟨i, hi, rfl⟩ := (turn_covers hsize hk h.index.1 h.index.2 hr).mpr hcover
    exact hall i hi
  · intro hall i hi
    have hr : turn s.handleIndex i % s.slotSize < s.slotSize :=
      Nat.mod_lt _ (Nat.zero_lt_of_lt hi)
    exact hall _ hr ((turn_covers hsize hk h.index.1 h.index.2 hr).mp ⟨i, hi, rfl⟩)

/-- After doubling full slots the search finds a free slot. -/
theorem probe_double (h : s.Kept) (hfull : ∀ i < s.slotSize, (s.slot i).isSome)
    (hroom : s.slotSize < 2 ^ 24) :
    ∃ low, probe { s with slot := s.moved s.slotSize, slotSize := s.slotSize * 2 }
      (s.slotSize * 2) s.handleIndex = some low := by
  obtain ⟨k, hk, -, hsize⟩ := h.size
  obtain ⟨-, hkept, -⟩ := double_full h hfull hroom
  have hsmall : 1 < s.slotSize := by
    rw [hsize]
    exact Nat.one_lt_two_pow (by omega)
  obtain ⟨ctx, hctx⟩ := Option.isSome_iff_exists.mp (hfull 1 hsmall)
  by_contra hnone
  have hprobe : probe { s with slot := s.moved s.slotSize, slotSize := s.slotSize * 2 }
      (s.slotSize * 2) s.handleIndex = none := by
    rw [Option.eq_none_iff_forall_ne_some]
    exact fun low hlow => hnone ⟨low, hlow⟩
  have hall := (probe_full hkept).mp hprobe
  have hone := hall 1 (by dsimp only; omega) (Or.inl (by decide))
  have hother := hall (1 + s.slotSize) (by dsimp only; omega) (Or.inl (by omega))
  dsimp only at hone hother
  have hmod : (1 + s.slotSize) % s.slotSize = 1 := by
    rw [Nat.add_mod_right, Nat.mod_eq_of_lt hsmall]
  rw [moved, Nat.mod_eq_of_lt hsmall, if_pos hsmall, hctx] at hone
  rw [moved, hmod, if_pos hsmall, hctx] at hother
  by_cases hplace : ctx.1 % (s.slotSize * 2) = 1
  · have hne : ctx.1 % (s.slotSize * 2) ≠ 1 + s.slotSize := by omega
    simp [Option.filter, hne] at hother
  · simp [Option.filter, hplace] at hone

/-- A search in vain with the slot 0 taken has met every slot, and the slots are not the most: no
handle is hashed to the slot 0 of these. -/
theorem full_of_probe (h : s.Kept) (hprobe : s.probe s.slotSize s.handleIndex = none)
    (hsome : s.slot 0 ≠ none) :
    (∀ i < s.slotSize, (s.slot i).isSome) ∧ s.slotSize < 2 ^ 24 := by
  have hall := (probe_full h).mp hprobe
  refine ⟨fun i hi => ?_, ?_⟩
  · rcases Nat.eq_zero_or_pos i with rfl | hpos
    · exact Option.isSome_iff_ne_none.mpr hsome
    · exact hall i hi (Or.inl (by omega))
  · by_contra hlarge
    obtain ⟨k, -, hk, hsize⟩ := h.size
    have hle : s.slotSize ≤ 2 ^ 24 := hsize ▸ Nat.pow_le_pow_right (by decide) hk
    have heq : s.slotSize = 2 ^ 24 := by omega
    obtain ⟨⟨g, c⟩, hslot⟩ := Option.ne_none_iff_exists'.mp hsome
    obtain ⟨hhash, low, hpos, hlt, rfl⟩ := h.slots 0 g c hslot
    rw [h.harbor_mod, heq, Nat.mod_eq_of_lt hlt] at hhash
    omega

theorem register_of_full (h : s.Kept) (ctx : C) (n : ℕ)
    (hprobe : s.probe s.slotSize s.handleIndex = none)
    (hfull : ∀ i < s.slotSize, (s.slot i).isSome) (hroom : s.slotSize < 2 ^ 24) :
    ∃ low, probe { s with slot := s.moved s.slotSize, slotSize := s.slotSize * 2 }
        (s.slotSize * 2) s.handleIndex = some low ∧
      registerLoop ctx (n + 2) s = .ok (low ||| s.harbor, { s with
        slotSize := s.slotSize * 2
        slot := Function.update (s.moved s.slotSize) (low &&& (s.slotSize * 2 - 1))
          (some (low ||| s.harbor, ctx))
        handleIndex := low + 1 }) := by
  obtain ⟨hdouble, -⟩ := double_full h hfull hroom
  obtain ⟨low, hlow⟩ := probe_double h hfull hroom
  refine ⟨low, hlow, ?_⟩
  rw [register_eq, hprobe, hdouble]
  dsimp only [Except.bind]
  rw [register_eq]
  dsimp only
  rw [hlow]

theorem register_of_empty (h : s.Kept) (ctx : C) (n : ℕ)
    (hprobe : s.probe s.slotSize s.handleIndex = none) (hempty : s.slot 0 = none) :
    registerLoop ctx (n + 1) s =
      .error (if s.slotSize < 2 ^ 24 then .nullSlot else .assertion) := by
  obtain ⟨k, -, -, hsize⟩ := h.size
  rw [register_eq, hprobe, double_empty hsize hempty]
  rfl

/-- The search ends before the second turn of the loop that doubles the slots is over. -/
theorem registerLoop_succ (h : s.Kept) (ctx : C) (n : ℕ) :
    registerLoop ctx (n + 2) s = s.register ctx := by
  cases hprobe : s.probe s.slotSize s.handleIndex with
  | some low =>
    rw [register, register_eq, register_eq, hprobe]
  | none =>
    by_cases hempty : s.slot 0 = none
    · rw [register, register_of_empty h ctx _ hprobe hempty,
        register_of_empty h ctx _ hprobe hempty]
    · obtain ⟨hfull, hroom⟩ := full_of_probe h hprobe hempty
      obtain ⟨low, hlow, hloop⟩ := register_of_full h ctx n hprobe hfull hroom
      obtain ⟨low', hlow', hregister⟩ := register_of_full h ctx 0 hprobe hfull hroom
      obtain rfl := Option.some.inj (hlow.symm.trans hlow')
      rw [register, hloop, hregister]

/-- A registration is found under a new handle and moves no other context. -/
theorem registered_of_register (h : s.Kept) {ctx : C} {handle : ℕ} {s' : Storage Name C}
    (hregister : s.register ctx = .ok (handle, s')) : Registered s s' handle ctx := by
  cases hprobe : s.probe s.slotSize s.handleIndex with
  | some low =>
    rw [register, register_eq, hprobe] at hregister
    obtain ⟨rfl, rfl⟩ := Prod.mk.inj (Except.ok.inj hregister)
    exact registered_of_probe h ctx hprobe
  | none =>
    by_cases hempty : s.slot 0 = none
    · rw [register, register_of_empty h ctx _ hprobe hempty] at hregister
      cases hregister
    · obtain ⟨hfull, hroom⟩ := full_of_probe h hprobe hempty
      obtain ⟨-, hkept, hgrab⟩ := double_full h hfull hroom
      obtain ⟨low, hlow, hloop⟩ := register_of_full h ctx 0 hprobe hfull hroom
      rw [register, hloop] at hregister
      obtain ⟨rfl, rfl⟩ := Prod.mk.inj (Except.ok.inj hregister)
      obtain ⟨h1, h2, h3, h4, h5⟩ := registered_of_probe hkept ctx hlow
      exact ⟨h1, h2, (hgrab _).symm.trans h3, fun g => by rw [h4, hgrab], h5⟩

/-- A registration fails exactly when every slot but the slot 0 is taken and the search passes the
end of the handles. With fewer than the most slots the doubling then reads the empty slot 0 through
`NULL`; with the most slots its first assertion fails. -/
theorem register_fails_iff (h : s.Kept) (ctx : C) (fault : RegisterFault) :
    s.register ctx = .error fault ↔
      (∀ i, 0 < i → i < s.slotSize → (s.slot i).isSome) ∧ s.slot 0 = none ∧
        2 ^ 24 < s.first + s.slotSize ∧
        fault = if s.slotSize < 2 ^ 24 then .nullSlot else .assertion := by
  obtain ⟨k, -, -, hsize⟩ := h.size
  have hpos : 0 < s.slotSize := hsize ▸ Nat.two_pow_pos k
  constructor
  · intro hfault
    have hprobe : s.probe s.slotSize s.handleIndex = none := by
      rw [register, register_eq] at hfault
      split at hfault
      · cases hfault
      · assumption
    have hall := (probe_full h).mp hprobe
    have hempty : s.slot 0 = none := by
      by_contra hsome
      obtain ⟨hfull, hroom⟩ := full_of_probe h hprobe hsome
      obtain ⟨low, -, hloop⟩ := register_of_full h ctx 0 hprobe hfull hroom
      rw [register, hloop] at hfault
      cases hfault
    rw [register, register_of_empty h ctx _ hprobe hempty] at hfault
    refine ⟨fun i hi hlt => hall i hlt (Or.inl (by omega)), hempty, ?_,
      (Except.error.inj hfault).symm⟩
    by_contra hroom
    have hzero := hall 0 hpos (Or.inr (by omega))
    rw [hempty] at hzero
    cases hzero
  · rintro ⟨hothers, hempty, hpass, rfl⟩
    refine register_of_empty h ctx 1 ((probe_full h).mpr fun r hr hcover => ?_) hempty
    rcases Nat.eq_zero_or_pos r with rfl | hrpos
    · omega
    · exact hothers r hrpos hr

/-- Three services are left when the handles come to their end. -/
def nearEnd : Storage ℕ Unit :=
  { harbor := 0, handleIndex := 0xfffffd, slotSize := 4,
    slot := fun i => if 0 < i ∧ i < 4 then some (i, ()) else none, nameCap := 2, name := [] }

theorem kept_nearEnd : nearEnd.Kept := by
  refine ⟨⟨2, le_rfl, by decide, rfl⟩, ⟨0, rfl⟩, ?_, ?_, List.Pairwise.nil⟩
  · unfold nearEnd
    decide
  · intro i h c hi
    simp only [nearEnd] at hi ⊢
    split at hi
    · rename_i hbounds
      obtain ⟨rfl, -⟩ := Prod.mk.inj (Option.some.inj hi)
      exact ⟨Nat.mod_eq_of_lt hbounds.2, i, hbounds.1, by omega, by omega⟩
    · cases hi

theorem register_fails_near_end : nearEnd.register () = .error .nullSlot := by
  refine (register_fails_iff kept_nearEnd () .nullSlot).mpr ⟨fun i hi hlt => ?_, rfl, ?_, rfl⟩
  · simp only [nearEnd] at hlt ⊢
    rw [if_pos ⟨hi, hlt⟩]
    rfl
  · unfold nearEnd first
    decide

end Register

end Storage

end Ue4Background.Kernel
