import Mathlib.Algebra.Ring.Nat
import Mathlib.Data.Nat.Bitwise
import Mathlib.Tactic.SplitIfs
import Ue4Background.Calendar

/-!
The timing wheel of `skynet_timer.c`. A timer stands in the near list of its tick or in a list of
one of four levels; whenever the clock passes a boundary of a level, one list of that level is
filed anew. The clock and the expiry times have 32 bits and wrap. As long as every timer expires
within `2 ^ 31` ticks, each stands where its expiry and the clock place it.
-/

namespace Ue4Background.Timer

open Calendar

def timeNearShift : ℕ := 8

def timeNear : ℕ := 1 <<< timeNearShift

def timeLevelShift : ℕ := 6

def timeLevel : ℕ := 1 <<< timeLevelShift

def timeNearMask : ℕ := timeNear - 1

def timeLevelMask : ℕ := timeLevel - 1

structure TimerEvent where
  handle : ℕ
  session : ℤ
  deriving DecidableEq

structure TimerNode where
  expire : ℕ
  event : TimerEvent
  deriving DecidableEq

/-- An index of the array `near` or of the array `t`. -/
inductive Slot
  | near (idx : ℕ)
  | t (i idx : ℕ)
  deriving DecidableEq

structure Wheel where
  lists : Slot → List TimerNode
  time : ℕ

/-- The loop of `add_node` over the levels with `n` turns left. -/
def findLevel (time currentTime : ℕ) : ℕ → ℕ → ℕ → ℕ
  | 0, _, i => i
  | n + 1, mask, i =>
    if time ||| (mask - 1) = currentTime ||| (mask - 1) then i
    else findLevel time currentTime n (mask <<< timeLevelShift) (i + 1)

/-- The list `add_node` links a node to. -/
def slotFor (currentTime time : ℕ) : Slot :=
  if time ||| timeNearMask = currentTime ||| timeNearMask then .near (time &&& timeNearMask)
  else
    let i := findLevel time currentTime 3 (timeNear <<< timeLevelShift) 0
    .t i ((time >>> (timeNearShift + i * timeLevelShift)) &&& timeLevelMask)

namespace Wheel

def addNode (T : Wheel) (node : TimerNode) : Wheel :=
  { T with lists := link T.lists (slotFor T.time node.expire) node }

def timerAdd (T : Wheel) (event : TimerEvent) (time : ℕ) : Wheel :=
  T.addNode ⟨(time + T.time) % 2 ^ 32, event⟩

def moveList (T : Wheel) (level idx : ℕ) : Wheel :=
  (T.lists (.t level idx)).foldl addNode
    { T with lists := Function.update T.lists (.t level idx) [] }

/-- The loop of `timer_shift` from level `i` on, with `n` turns left. -/
def shiftLoop (T : Wheel) (ct : ℕ) : ℕ → ℕ → ℕ → ℕ → Wheel
  | 0, _, _, _ => T
  | n + 1, mask, time, i =>
    if ct &&& (mask - 1) = 0 then
      let idx := time &&& timeLevelMask
      if idx ≠ 0 then T.moveList i idx
      else shiftLoop T ct n (mask <<< timeLevelShift) (time >>> timeLevelShift) (i + 1)
    else T

def timerShift (T : Wheel) : Wheel :=
  let ct := (T.time + 1) % 2 ^ 32
  let T := { T with time := ct }
  if ct = 0 then T.moveList 3 0
  else T.shiftLoop ct 4 timeNear (ct >>> timeNearShift) 0

/-- The list of the current tick. -/
def nearSlot (T : Wheel) : Slot := .near (T.time &&& timeNearMask)

/-- `link_clear` on the list of the current tick. -/
def clearNear (T : Wheel) : Wheel :=
  { T with lists := Function.update T.lists T.nearSlot [] }

/-- `timer_create_timer`. -/
def create : Wheel := ⟨fun _ => [], 0⟩

end Wheel

theorem and_mask (x k : ℕ) : x &&& (2 ^ k - 1) = x % 2 ^ k := Nat.and_two_pow_sub_one_eq_mod x k

/-- Filling the low bits of two numbers makes them equal when the rest agrees. -/
theorem or_mask_eq_iff (x y k : ℕ) :
    x ||| (2 ^ k - 1) = y ||| (2 ^ k - 1) ↔ x / 2 ^ k = y / 2 ^ k := by
  constructor
  · intro h
    refine Nat.eq_of_testBit_eq fun i => ?_
    have hbit := congrArg (fun z => z.testBit (i + k)) h
    simp only [Nat.testBit_or, Nat.testBit_two_pow_sub_one] at hbit
    simpa [Nat.testBit_div_two_pow, show ¬ i + k < k by omega] using hbit
  · intro h
    refine Nat.eq_of_testBit_eq fun i => ?_
    simp only [Nat.testBit_or, Nat.testBit_two_pow_sub_one]
    by_cases hi : i < k
    · simp [hi]
    · have hbit := congrArg (fun z => z.testBit (i - k)) h
      simp only [Nat.testBit_div_two_pow, show i - k + k = i by omega] at hbit
      simp [hi, hbit]

/-- The list of a timer, read off the quotients of its time and the clock. -/
def slotBy (c e : ℕ) : Slot :=
  if e / 2 ^ 8 = c / 2 ^ 8 then .near (e % 2 ^ 8)
  else if e / 2 ^ 14 = c / 2 ^ 14 then .t 0 (e / 2 ^ 8 % 2 ^ 6)
  else if e / 2 ^ 20 = c / 2 ^ 20 then .t 1 (e / 2 ^ 14 % 2 ^ 6)
  else if e / 2 ^ 26 = c / 2 ^ 26 then .t 2 (e / 2 ^ 20 % 2 ^ 6)
  else .t 3 (e / 2 ^ 26 % 2 ^ 6)

theorem slotFor_eq (c e : ℕ) : slotFor c e = slotBy c e := by
  have hnear : timeNearMask = 2 ^ 8 - 1 := rfl
  have hlevel : timeLevelMask = 2 ^ 6 - 1 := rfl
  have h14 : timeNear <<< timeLevelShift = 2 ^ 14 := rfl
  have h20 : 2 ^ 14 <<< timeLevelShift = 2 ^ 20 := rfl
  have h26 : 2 ^ 20 <<< timeLevelShift = 2 ^ 26 := rfl
  unfold slotFor slotBy
  simp only [findLevel, hnear, hlevel, h14, h20, h26, or_mask_eq_iff, and_mask,
    Nat.shiftRight_eq_div_pow]
  split_ifs <;> rfl

/-- Wrapping the clock and the time of a timer that expires soon changes no list. -/
theorem slotFor_wrap {c e : ℕ} (hce : c ≤ e) (hsoon : e < c + 2 ^ 31) :
    slotFor (c % 2 ^ 32) (e % 2 ^ 32) = slotBy c e := by
  have h8 : e % 2 ^ 32 / 2 ^ 8 = c % 2 ^ 32 / 2 ^ 8 ↔ e / 2 ^ 8 = c / 2 ^ 8 := by omega
  have h14 : e % 2 ^ 32 / 2 ^ 14 = c % 2 ^ 32 / 2 ^ 14 ↔ e / 2 ^ 14 = c / 2 ^ 14 := by omega
  have h20 : e % 2 ^ 32 / 2 ^ 20 = c % 2 ^ 32 / 2 ^ 20 ↔ e / 2 ^ 20 = c / 2 ^ 20 := by omega
  have h26 : e % 2 ^ 32 / 2 ^ 26 = c % 2 ^ 32 / 2 ^ 26 ↔ e / 2 ^ 26 = c / 2 ^ 26 := by omega
  have hm8 : e % 2 ^ 32 % 2 ^ 8 = e % 2 ^ 8 := by omega
  have hm0 : e % 2 ^ 32 / 2 ^ 8 % 2 ^ 6 = e / 2 ^ 8 % 2 ^ 6 := by omega
  have hm1 : e % 2 ^ 32 / 2 ^ 14 % 2 ^ 6 = e / 2 ^ 14 % 2 ^ 6 := by omega
  have hm2 : e % 2 ^ 32 / 2 ^ 20 % 2 ^ 6 = e / 2 ^ 20 % 2 ^ 6 := by omega
  have hm3 : e % 2 ^ 32 / 2 ^ 26 % 2 ^ 6 = e / 2 ^ 26 % 2 ^ 6 := by omega
  rw [slotFor_eq]
  simp only [slotBy, h8, h14, h20, h26, hm8, hm0, hm1, hm2, hm3]

/-- The list filed anew when the clock becomes `c`. -/
def crossed (c : ℕ) : Option (ℕ × ℕ) :=
  if c % 2 ^ 8 ≠ 0 then none
  else if c % 2 ^ 14 ≠ 0 then some (0, c / 2 ^ 8 % 2 ^ 6)
  else if c % 2 ^ 20 ≠ 0 then some (1, c / 2 ^ 14 % 2 ^ 6)
  else if c % 2 ^ 26 ≠ 0 then some (2, c / 2 ^ 20 % 2 ^ 6)
  else some (3, c / 2 ^ 26 % 2 ^ 6)

namespace Wheel

theorem shiftLoop_succ (T : Wheel) (ct n k time i : ℕ) :
    T.shiftLoop ct (n + 1) (2 ^ k) time i =
      if ct % 2 ^ k = 0 then
        if time % 2 ^ 6 ≠ 0 then T.moveList i (time % 2 ^ 6)
        else T.shiftLoop ct n (2 ^ (k + 6)) (time / 2 ^ 6) (i + 1)
      else T := by
  have hlevel : timeLevelMask = 2 ^ 6 - 1 := rfl
  have hmask : 2 ^ k <<< timeLevelShift = 2 ^ (k + 6) := by
    rw [Nat.shiftLeft_eq, pow_add]
    rfl
  simp only [shiftLoop, hlevel, and_mask, hmask, Nat.shiftRight_eq_div_pow]
  rfl

/-- The loop ends on one of the four levels. -/
theorem shiftLoop_fuel (T : Wheel) (n : ℕ) {ct : ℕ} (hpos : ct ≠ 0) (hct : ct < 2 ^ 32) :
    T.shiftLoop ct (4 + n) (2 ^ 8) (ct / 2 ^ 8) 0 = T.shiftLoop ct 4 (2 ^ 8) (ct / 2 ^ 8) 0 := by
  have hend : ct % 2 ^ 8 = 0 → ct / 2 ^ 8 % 2 ^ 6 = 0 → ct % 2 ^ 14 = 0 →
      ct / 2 ^ 8 / 2 ^ 6 % 2 ^ 6 = 0 → ct % 2 ^ 20 = 0 →
      ct / 2 ^ 8 / 2 ^ 6 / 2 ^ 6 % 2 ^ 6 = 0 → ct % 2 ^ 26 = 0 →
      ct / 2 ^ 8 / 2 ^ 6 / 2 ^ 6 / 2 ^ 6 % 2 ^ 6 = 0 → False := by omega
  rw [show 4 + n = n + 1 + 1 + 1 + 1 by omega, show (4 : ℕ) = 0 + 1 + 1 + 1 + 1 by rfl]
  simp only [shiftLoop_succ, Nat.reduceAdd, ne_eq, ite_not]
  split_ifs <;> first | rfl | (exfalso; apply hend <;> assumption)

theorem timerShift_eq {T : Wheel} {c : ℕ} (hT : T.time = c % 2 ^ 32) :
    T.timerShift =
      match crossed (c + 1) with
      | none => { T with time := (c + 1) % 2 ^ 32 }
      | some (level, idx) => { T with time := (c + 1) % 2 ^ 32 : Wheel }.moveList level idx := by
  have hct : (T.time + 1) % 2 ^ 32 = (c + 1) % 2 ^ 32 := by omega
  have hnear : timeNear = 2 ^ 8 := rfl
  have hshift : timeNearShift = 8 := rfl
  unfold timerShift
  simp only [hct, hnear, hshift, Nat.shiftRight_eq_div_pow]
  generalize hnew : (c + 1) % 2 ^ 32 = ct
  by_cases hzero : ct = 0
  · rw [if_pos hzero]
    have hcrossed : crossed (c + 1) = some (3, 0) := by
      have h8 : (c + 1) % 2 ^ 8 = 0 := by omega
      have h14 : (c + 1) % 2 ^ 14 = 0 := by omega
      have h20 : (c + 1) % 2 ^ 20 = 0 := by omega
      have h26 : (c + 1) % 2 ^ 26 = 0 := by omega
      have hidx : (c + 1) / 2 ^ 26 % 2 ^ 6 = 0 := by omega
      simp only [crossed, h8, h14, h20, h26, hidx, ne_eq, not_true_eq_false, if_false]
    rw [hcrossed]
  · rw [if_neg hzero]
    have h8 : (c + 1) % 2 ^ 8 = ct % 2 ^ 8 := by omega
    have h14 : (c + 1) % 2 ^ 14 = ct % 2 ^ 14 := by omega
    have h20 : (c + 1) % 2 ^ 20 = ct % 2 ^ 20 := by omega
    have h26 : (c + 1) % 2 ^ 26 = ct % 2 ^ 26 := by omega
    have hi0 : (c + 1) / 2 ^ 8 % 2 ^ 6 = ct / 2 ^ 8 % 2 ^ 6 := by omega
    have hi1 : (c + 1) / 2 ^ 14 % 2 ^ 6 = ct / 2 ^ 8 / 2 ^ 6 % 2 ^ 6 := by omega
    have hi2 : (c + 1) / 2 ^ 20 % 2 ^ 6 = ct / 2 ^ 8 / 2 ^ 6 / 2 ^ 6 % 2 ^ 6 := by omega
    have hi3 : (c + 1) / 2 ^ 26 % 2 ^ 6 = ct / 2 ^ 8 / 2 ^ 6 / 2 ^ 6 / 2 ^ 6 % 2 ^ 6 := by omega
    have hbound : ct < 2 ^ 32 := by omega
    clear hnew hct hT
    simp only [shiftLoop_succ, crossed, Nat.reduceAdd, h8, h14, h20, h26, hi0, hi1, hi2, hi3]
    by_cases z8 : ct % 2 ^ 8 = 0
    · by_cases z14 : ct % 2 ^ 14 = 0
      · have e0 : ct / 2 ^ 8 % 2 ^ 6 = 0 := by omega
        by_cases z20 : ct % 2 ^ 20 = 0
        · have e1 : ct / 2 ^ 8 / 2 ^ 6 % 2 ^ 6 = 0 := by omega
          by_cases z26 : ct % 2 ^ 26 = 0
          · have e2 : ct / 2 ^ 8 / 2 ^ 6 / 2 ^ 6 % 2 ^ 6 = 0 := by omega
            have e3 : ct / 2 ^ 8 / 2 ^ 6 / 2 ^ 6 / 2 ^ 6 % 2 ^ 6 ≠ 0 := by omega
            simp only [z8, z14, z20, z26, e0, e1, e2, e3, ne_eq, not_true_eq_false,
              not_false_eq_true, if_true, if_false]
          · have e2 : ct / 2 ^ 8 / 2 ^ 6 / 2 ^ 6 % 2 ^ 6 ≠ 0 := by omega
            simp only [z8, z14, z20, z26, e0, e1, e2, ne_eq, not_true_eq_false,
              not_false_eq_true, if_true, if_false]
        · have e1 : ct / 2 ^ 8 / 2 ^ 6 % 2 ^ 6 ≠ 0 := by omega
          simp only [z8, z14, z20, e0, e1, ne_eq, not_true_eq_false, not_false_eq_true,
            if_true, if_false]
      · have e0 : ct / 2 ^ 8 % 2 ^ 6 ≠ 0 := by omega
        simp only [z8, z14, e0, ne_eq, not_true_eq_false, not_false_eq_true, if_true, if_false]
    · simp only [z8, ne_eq, not_false_eq_true, if_true, if_false]

end Wheel

/-- When the clock goes on by one, the place of a timer that is not yet due changes only from the
list that is filed anew. -/
theorem slotBy_succ {c e : ℕ} (hce : c < e) :
    slotBy (c + 1) e = slotBy c e ∨
      ∃ level idx, crossed (c + 1) = some (level, idx) ∧ slotBy c e = .t level idx := by
  by_cases z8 : (c + 1) % 2 ^ 8 = 0
  · have n8 : e / 2 ^ 8 ≠ c / 2 ^ 8 := by omega
    by_cases z14 : (c + 1) % 2 ^ 14 = 0
    · have n14 : e / 2 ^ 14 ≠ c / 2 ^ 14 := by omega
      by_cases z20 : (c + 1) % 2 ^ 20 = 0
      · have n20 : e / 2 ^ 20 ≠ c / 2 ^ 20 := by omega
        by_cases z26 : (c + 1) % 2 ^ 26 = 0
        · have n26 : e / 2 ^ 26 ≠ c / 2 ^ 26 := by omega
          by_cases hnow : e / 2 ^ 26 = (c + 1) / 2 ^ 26
          · refine Or.inr ⟨3, (c + 1) / 2 ^ 26 % 2 ^ 6, ?_, ?_⟩
            · simp only [crossed, z8, z14, z20, z26, ne_eq, not_true_eq_false, if_false]
            · rw [slotBy, if_neg n8, if_neg n14, if_neg n20, if_neg n26, hnow]
          · have m8 : e / 2 ^ 8 ≠ (c + 1) / 2 ^ 8 := by omega
            have m14 : e / 2 ^ 14 ≠ (c + 1) / 2 ^ 14 := by omega
            have m20 : e / 2 ^ 20 ≠ (c + 1) / 2 ^ 20 := by omega
            refine Or.inl ?_
            rw [slotBy, slotBy, if_neg n8, if_neg n14, if_neg n20, if_neg n26, if_neg m8,
              if_neg m14, if_neg m20, if_neg hnow]
        · have q26 : (c + 1) / 2 ^ 26 = c / 2 ^ 26 := by omega
          by_cases hnow : e / 2 ^ 20 = (c + 1) / 2 ^ 20
          · have h26 : e / 2 ^ 26 = c / 2 ^ 26 := by omega
            refine Or.inr ⟨2, (c + 1) / 2 ^ 20 % 2 ^ 6, ?_, ?_⟩
            · simp only [crossed, z8, z14, z20, z26, ne_eq, not_true_eq_false, not_false_eq_true,
                if_true, if_false]
            · rw [slotBy, if_neg n8, if_neg n14, if_neg n20, if_pos h26, hnow]
          · have m8 : e / 2 ^ 8 ≠ (c + 1) / 2 ^ 8 := by omega
            have m14 : e / 2 ^ 14 ≠ (c + 1) / 2 ^ 14 := by omega
            refine Or.inl ?_
            rw [slotBy, slotBy, if_neg n8, if_neg n14, if_neg n20, if_neg m8, if_neg m14,
              if_neg hnow, q26]
      · have q20 : (c + 1) / 2 ^ 20 = c / 2 ^ 20 := by omega
        have q26 : (c + 1) / 2 ^ 26 = c / 2 ^ 26 := by omega
        by_cases hnow : e / 2 ^ 14 = (c + 1) / 2 ^ 14
        · have h20 : e / 2 ^ 20 = c / 2 ^ 20 := by omega
          refine Or.inr ⟨1, (c + 1) / 2 ^ 14 % 2 ^ 6, ?_, ?_⟩
          · simp only [crossed, z8, z14, z20, ne_eq, not_true_eq_false, not_false_eq_true,
              if_true, if_false]
          · rw [slotBy, if_neg n8, if_neg n14, if_pos h20, hnow]
        · have m8 : e / 2 ^ 8 ≠ (c + 1) / 2 ^ 8 := by omega
          refine Or.inl ?_
          rw [slotBy, slotBy, if_neg n8, if_neg n14, if_neg m8, if_neg hnow, q20, q26]
    · have q14 : (c + 1) / 2 ^ 14 = c / 2 ^ 14 := by omega
      have q20 : (c + 1) / 2 ^ 20 = c / 2 ^ 20 := by omega
      have q26 : (c + 1) / 2 ^ 26 = c / 2 ^ 26 := by omega
      by_cases hnow : e / 2 ^ 8 = (c + 1) / 2 ^ 8
      · have h14 : e / 2 ^ 14 = c / 2 ^ 14 := by omega
        refine Or.inr ⟨0, (c + 1) / 2 ^ 8 % 2 ^ 6, ?_, ?_⟩
        · simp only [crossed, z8, z14, ne_eq, not_true_eq_false, not_false_eq_true, if_true,
            if_false]
        · rw [slotBy, if_neg n8, if_pos h14, hnow]
      · refine Or.inl ?_
        rw [slotBy, slotBy, if_neg n8, if_neg hnow, q14, q20, q26]
  · have q8 : (c + 1) / 2 ^ 8 = c / 2 ^ 8 := by omega
    have q14 : (c + 1) / 2 ^ 14 = c / 2 ^ 14 := by omega
    have q20 : (c + 1) / 2 ^ 20 = c / 2 ^ 20 := by omega
    have q26 : (c + 1) / 2 ^ 26 = c / 2 ^ 26 := by omega
    refine Or.inl ?_
    simp only [slotBy, q8, q14, q20, q26]

theorem slotBy_now (c : ℕ) : slotBy c c = .near (c % 2 ^ 8) := if_pos rfl

/-- The list of the current tick is the place of nothing that is due later. -/
theorem eq_of_slotBy_now {c e : ℕ} (h : slotBy c e = .near (c % 2 ^ 8)) : e = c := by
  unfold slotBy at h
  split_ifs at h with h8
  have hlow : e % 2 ^ 8 = c % 2 ^ 8 := Slot.near.inj h
  omega

/-- The node of an event and the tick it is due at. -/
def nodeOf (e : ℕ × TimerEvent) : TimerNode := ⟨e.1 % 2 ^ 32, e.2⟩

/-- The wheel holds the pending events at the clock `c`, which never wraps. -/
structure Holds (T : Wheel) (c : ℕ) (pending : List (ℕ × TimerEvent)) : Prop where
  time : T.time = c % 2 ^ 32
  soon : ∀ e ∈ pending, c ≤ e.1 ∧ e.1 < c + 2 ^ 31
  placed : Placed TimerNode.expire (slotFor T.time) T.lists (pending.map nodeOf)

namespace Holds

variable {T : Wheel} {c : ℕ} {pending : List (ℕ × TimerEvent)}

theorem create : Holds Wheel.create 0 [] :=
  ⟨rfl, by simp, Placed.nil⟩

theorem slotFor_pending (h : Holds T c pending) {e : ℕ × TimerEvent} (he : e ∈ pending) :
    slotFor T.time (nodeOf e).expire = slotBy c e.1 := by
  obtain ⟨hce, hsoon⟩ := h.soon e he
  rw [h.time]
  exact slotFor_wrap hce hsoon

theorem timerAdd (h : Holds T c pending) (event : TimerEvent) {time : ℕ} (htime : time < 2 ^ 31) :
    Holds (T.timerAdd event time) c (pending ++ [(c + time, event)]) := by
  have hexpire : (time + T.time) % 2 ^ 32 = (c + time) % 2 ^ 32 := by
    rw [h.time]
    omega
  refine ⟨h.time, ?_, ?_⟩
  · intro e he
    rcases List.mem_append.mp he with he | he
    · exact h.soon e he
    · rw [List.mem_singleton.mp he]
      constructor <;> dsimp only <;> omega
  · have hplaced := h.placed.link (nodeOf (c + time, event))
    rw [List.map_append]
    unfold Wheel.timerAdd Wheel.addNode
    rw [hexpire]
    exact hplaced

theorem nearSlot_eq (h : Holds T c pending) : T.nearSlot = .near (c % 2 ^ 8) := by
  have hnear : timeNearMask = 2 ^ 8 - 1 := rfl
  rw [Wheel.nearSlot, h.time, hnear, and_mask]
  exact congrArg Slot.near (by omega)

theorem slotFor_now (h : Holds T c pending) : slotFor T.time (c % 2 ^ 32) = T.nearSlot := by
  rw [h.nearSlot_eq, h.time, slotFor_wrap le_rfl (by omega), slotBy_now]

theorem expire_eq_iff (h : Holds T c pending) {e : ℕ × TimerEvent} (he : e ∈ pending) :
    (nodeOf e).expire = c % 2 ^ 32 ↔ e.1 = c := by
  obtain ⟨hce, hsoon⟩ := h.soon e he
  change e.1 % 2 ^ 32 = c % 2 ^ 32 ↔ e.1 = c
  omega

theorem only_now (h : Holds T c pending) :
    ∀ n ∈ pending.map nodeOf, slotFor T.time n.expire = T.nearSlot →
      n.expire = c % 2 ^ 32 := by
  intro n hn hslot
  obtain ⟨e, he, rfl⟩ := List.mem_map.mp hn
  rw [h.slotFor_pending he, h.nearSlot_eq] at hslot
  exact (h.expire_eq_iff he).mpr (eq_of_slotBy_now hslot)

/-- The list of the current tick holds what is due now, in the order it was added. -/
theorem near_eq (h : Holds T c pending) :
    T.lists T.nearSlot = (pending.filter fun e => e.1 = c).map nodeOf := by
  rw [h.placed.slot_eq h.only_now h.slotFor_now, List.filter_map]
  congr 1
  exact List.filter_congr fun e he => decide_eq_decide.mpr (h.expire_eq_iff he)

theorem clearNear (h : Holds T c pending) :
    Holds T.clearNear c (pending.filter fun e => e.1 ≠ c) := by
  refine ⟨h.time, fun e he => h.soon e (List.mem_filter.mp he).1, ?_⟩
  have hplaced := h.placed.clear h.only_now h.slotFor_now
  have hqueue : (pending.map nodeOf).filter (fun n => n.expire ≠ c % 2 ^ 32) =
      (pending.filter fun e => e.1 ≠ c).map nodeOf := by
    rw [List.filter_map]
    congr 1
    exact List.filter_congr fun e he =>
      decide_eq_decide.mpr (not_congr (h.expire_eq_iff he))
  rwa [hqueue] at hplaced

end Holds

theorem foldl_addNode (T : Wheel) (nodes : List TimerNode) :
    nodes.foldl Wheel.addNode T =
      { T with lists := refile TimerNode.expire (slotFor T.time) T.lists nodes } := by
  induction nodes generalizing T with
  | nil => rfl
  | cons n nodes ih => exact ih (T.addNode n)

/-- The clock goes on while nothing that is due now is left. -/
theorem Holds.timerShift {T : Wheel} {c : ℕ} {pending : List (ℕ × TimerEvent)}
    (h : Holds T c pending) (hlater : ∀ e ∈ pending, c < e.1) :
    Holds T.timerShift (c + 1) pending := by
  have hsoon : ∀ e ∈ pending, c + 1 ≤ e.1 ∧ e.1 < c + 1 + 2 ^ 31 := by
    intro e he
    obtain ⟨-, hlt⟩ := h.soon e he
    have hce := hlater e he
    omega
  have hnow : ∀ e ∈ pending, slotFor T.time (nodeOf e).expire = slotBy c e.1 :=
    fun e he => h.slotFor_pending he
  have hnext : ∀ e ∈ pending,
      slotFor ((c + 1) % 2 ^ 32) (nodeOf e).expire = slotBy (c + 1) e.1 :=
    fun e he => slotFor_wrap (hsoon e he).1 (hsoon e he).2
  rw [Wheel.timerShift_eq h.time]
  cases hcrossed : crossed (c + 1) with
  | none =>
    refine ⟨rfl, hsoon, h.placed.same fun n hn => ?_⟩
    obtain ⟨e, he, rfl⟩ := List.mem_map.mp hn
    rcases slotBy_succ (hlater e he) with hsame | ⟨level, idx, hsome, -⟩
    · rw [hnow e he, ← hsame]
      exact hnext e he
    · rw [hcrossed] at hsome
      exact absurd hsome (by simp)
  | some place =>
    obtain ⟨level, idx⟩ := place
    dsimp only
    rw [Wheel.moveList, foldl_addNode]
    refine ⟨rfl, hsoon, h.placed.refile (.t level idx) fun n hn => ?_⟩
    obtain ⟨e, he, rfl⟩ := List.mem_map.mp hn
    rcases slotBy_succ (hlater e he) with hsame | ⟨level', idx', hsome, hslot⟩
    · right
      rw [hnow e he, ← hsame]
      exact hnext e he
    · left
      rw [hcrossed] at hsome
      obtain ⟨rfl, rfl⟩ := Prod.mk.inj (Option.some.inj hsome)
      rw [hnow e he, hslot]

end Ue4Background.Timer
