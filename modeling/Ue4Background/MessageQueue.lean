import Mathlib.Algebra.Ring.Nat
import Ue4Background.CircularArray
import Ue4Background.LuaValues
import Ue4Background.Transition

/-!
The queue of one service (`skynet_mq.c`). Its messages lie in a circular array that is doubled
when it is full. What stands in a cell that was never written is arbitrary. A push says whether
the queue has to go to the global queue; a pop that finds no message takes it out of there.
-/

namespace Ue4Background.Kernel

open CircularArray LuaValues Transition

/-- A message; the field `sz` of the source holds the length of the data and the type. -/
structure SkynetMessage where
  source : ℕ
  session : ℤ
  data : Bytes
  type : ℕ
  deriving DecidableEq

def ptypeResponse : ℕ := 1

def ptypeError : ℕ := 7

def defaultQueueSize : ℕ := 64

def mqOverload : ℕ := 1024

structure MessageQueue where
  handle : ℕ
  cap : ℕ
  head : ℕ
  tail : ℕ
  release : Bool
  inGlobal : Bool
  overload : ℕ
  overloadThreshold : ℕ
  queue : ℕ → SkynetMessage

namespace MessageQueue

/-- `skynet_mq_create`; the array is not initialised. -/
def create (handle : ℕ) (queue : ℕ → SkynetMessage) : MessageQueue :=
  { handle, cap := defaultQueueSize, head := 0, tail := 0, release := false, inGlobal := true,
    overload := 0, overloadThreshold := mqOverload, queue }

/-- `skynet_mq_length`. -/
def length (q : MessageQueue) : ℕ :=
  if q.head ≤ q.tail then q.tail - q.head else q.tail + q.cap - q.head

/-- `skynet_mq_overload`. -/
def takeOverload (q : MessageQueue) : ℕ × MessageQueue := (q.overload, { q with overload := 0 })

/-- The loop of `skynet_mq_pop` that doubles the threshold, with the turns it may take. -/
def raiseThreshold (length : ℕ) : ℕ → ℕ → ℕ → ℕ × ℕ
  | 0, overload, threshold => (overload, threshold)
  | n + 1, overload, threshold =>
    if length > threshold then raiseThreshold length n length (threshold * 2)
    else (overload, threshold)

/-- `skynet_mq_pop`. -/
def pop (q : MessageQueue) : Option SkynetMessage × MessageQueue :=
  if q.head ≠ q.tail then
    let message := q.queue q.head
    let head := advance q.cap q.head
    let length := if head ≤ q.tail then q.tail - head else q.tail + q.cap - head
    let raised := raiseThreshold length length q.overload q.overloadThreshold
    (some message, { q with head, overload := raised.1, overloadThreshold := raised.2 })
  else (none, { q with overloadThreshold := mqOverload, inGlobal := false })

/-- `expand_queue`. -/
def expandQueue (q : MessageQueue) : MessageQueue :=
  { q with
    queue := fun i => if i < q.cap then q.queue ((q.head + i) % q.cap) else q.queue i
    head := 0, tail := q.cap, cap := q.cap * 2 }

/-- `skynet_mq_push`, with whether the queue goes to the global queue. -/
def push (q : MessageQueue) (message : SkynetMessage) : MessageQueue × Bool :=
  let q := { q with
    queue := Function.update q.queue q.tail message, tail := advance q.cap q.tail }
  let q := if q.head = q.tail then q.expandQueue else q
  ({ q with inGlobal := true }, !q.inGlobal)

/-- `skynet_mq_mark_release`, with whether the queue goes to the global queue. -/
def markRelease (q : MessageQueue) : MessageQueue × Bool :=
  ({ q with release := true }, !q.inGlobal)

/-- The messages that wait in the queue, oldest first. -/
structure Holds (q : MessageQueue) (l : List SkynetMessage) : Prop where
  laid : Laid q.queue q.cap q.head q.tail l
  threshold : ∃ k, q.overloadThreshold = mqOverload * 2 ^ k
  dormant : q.inGlobal = false → l = []

@[simp] theorem push_handle (q : MessageQueue) (m : SkynetMessage) :
    (q.push m).1.handle = q.handle := by
  unfold push expandQueue
  dsimp only
  split <;> rfl

@[simp] theorem push_release (q : MessageQueue) (m : SkynetMessage) :
    (q.push m).1.release = q.release := by
  unfold push expandQueue
  dsimp only
  split <;> rfl

@[simp] theorem push_inGlobal (q : MessageQueue) (m : SkynetMessage) :
    (q.push m).1.inGlobal = true := rfl

@[simp] theorem push_snd (q : MessageQueue) (m : SkynetMessage) :
    (q.push m).2 = !q.inGlobal := by
  unfold push expandQueue
  dsimp only
  split <;> rfl

@[simp] theorem pop_handle (q : MessageQueue) : q.pop.2.handle = q.handle := by
  unfold pop
  split <;> rfl

@[simp] theorem pop_release (q : MessageQueue) : q.pop.2.release = q.release := by
  unfold pop
  split <;> rfl

/-- A pop that returns a message leaves the flag alone, any other clears it. -/
theorem pop_inGlobal (q : MessageQueue) :
    q.pop.2.inGlobal = (q.pop.1.isSome && q.inGlobal) := by
  unfold pop
  split <;> simp

theorem raiseThreshold_power (length n overload threshold : ℕ)
    (h : ∃ k, threshold = mqOverload * 2 ^ k) :
    ∃ k, (raiseThreshold length n overload threshold).2 = mqOverload * 2 ^ k := by
  induction n generalizing overload threshold with
  | zero => exact h
  | succ n ih =>
    rw [raiseThreshold]
    split
    · obtain ⟨k, rfl⟩ := h
      exact ih length _ ⟨k + 1, by rw [pow_succ, Nat.mul_assoc]⟩
    · exact h

/-- The loop ends because the threshold has reached the length, not for want of turns. -/
theorem le_raiseThreshold (length n overload threshold : ℕ) (hpos : 0 < threshold)
    (hn : length ≤ threshold + n) :
    length ≤ (raiseThreshold length n overload threshold).2 := by
  induction n generalizing overload threshold with
  | zero => exact hn
  | succ n ih =>
    rw [raiseThreshold]
    split
    · exact ih length _ (by omega) (by omega)
    · omega

namespace Holds

variable {q : MessageQueue} {l : List SkynetMessage}

theorem create (handle : ℕ) (queue : ℕ → SkynetMessage) : (create handle queue).Holds [] :=
  ⟨Laid.nil (Nat.succ_pos 63), ⟨0, by simp [MessageQueue.create]⟩, fun _ => rfl⟩

theorem length (h : q.Holds l) : q.length = l.length := h.laid.length_eq

theorem push (h : q.Holds l) (m : SkynetMessage) : (q.push m).1.Holds (l ++ [m]) := by
  refine ⟨?_, ?_, fun hdormant => absurd hdormant (by simp)⟩
  · unfold MessageQueue.push
    dsimp only
    split
    · rename_i hfull
      refine h.laid.expand m hfull fun i hi => ?_
      exact if_pos hi
    · rename_i hroom
      exact h.laid.push m hroom
  · unfold MessageQueue.push expandQueue
    dsimp only
    split <;> exact h.threshold

theorem pop_nil (h : q.Holds []) :
    q.pop = (none, { q with overloadThreshold := mqOverload, inGlobal := false }) := by
  have hempty : q.head = q.tail := h.laid.head_eq_tail_iff.mpr rfl
  rw [pop, if_neg (not_not_intro hempty)]

theorem pop_nil_holds (h : q.Holds []) : q.pop.2.Holds [] := by
  rw [h.pop_nil]
  exact ⟨h.laid, ⟨0, by simp⟩, fun _ => rfl⟩

/-- A pop returns the oldest message and leaves the others. -/
theorem pop_cons {m : SkynetMessage} (h : q.Holds (m :: l)) :
    q.pop.1 = some m ∧ q.pop.2.Holds l ∧ q.pop.2.inGlobal = q.inGlobal ∧
      l.length ≤ q.pop.2.overloadThreshold := by
  have hne : q.head ≠ q.tail := fun heq => by simpa using h.laid.head_eq_tail_iff.mp heq
  obtain ⟨hcell, hlaid⟩ := h.laid.pop
  rw [pop, if_pos hne]
  refine ⟨congrArg some hcell, ⟨hlaid, raiseThreshold_power _ _ _ _ h.threshold, ?_⟩, rfl, ?_⟩
  · intro hdormant
    exact absurd (h.dormant hdormant) (by simp)
  · obtain ⟨k, hk⟩ := h.threshold
    have hpos : 0 < q.overloadThreshold := by
      rw [hk]
      exact Nat.mul_pos (by decide) (Nat.two_pow_pos k)
    have hlength := hlaid.length_eq
    dsimp only
    rw [hlength]
    exact le_raiseThreshold _ _ _ _ hpos (by omega)

theorem takeOverload (h : q.Holds l) : q.takeOverload.2.Holds l :=
  ⟨h.laid, h.threshold, h.dormant⟩

theorem markRelease (h : q.Holds l) : q.markRelease.1.Holds l :=
  ⟨h.laid, h.threshold, h.dormant⟩

end Holds

end MessageQueue

inductive MqEvent
  | push (message : SkynetMessage)
  | pop
  | length
  | overload

/-- What the calls return; a push says whether it puts the queue in the global queue. -/
inductive MqOutput
  | pushed (global : Bool)
  | popped (message : Option SkynetMessage)
  | number (n : ℕ)

namespace MessageQueue

def next (q : MessageQueue) : MqEvent → MessageQueue × MqOutput
  | .push m => ((q.push m).1, .pushed (q.push m).2)
  | .pop => (q.pop.2, .popped q.pop.1)
  | .length => (q, .number q.length)
  | .overload => (q.takeOverload.2, .number q.takeOverload.1)

def pushedBy : MqEvent × MqOutput → Option SkynetMessage
  | (.push m, _) => some m
  | _ => none

def poppedBy : MqEvent × MqOutput → Option SkynetMessage
  | (_, .popped m) => m
  | _ => none

theorem next_holds {q q' : MessageQueue} {l : List SkynetMessage} {e : MqEvent} {o : MqOutput}
    (h : q.Holds l) (hnext : next q e = (q', o)) :
    ∃ l', q'.Holds l' ∧ l ++ (pushedBy (e, o)).toList = (poppedBy (e, o)).toList ++ l' := by
  cases e with
  | push m =>
    obtain ⟨rfl, rfl⟩ := Prod.mk.inj hnext
    exact ⟨l ++ [m], h.push m, rfl⟩
  | pop =>
    obtain ⟨rfl, rfl⟩ := Prod.mk.inj hnext
    cases l with
    | nil =>
      refine ⟨[], h.pop_nil_holds, ?_⟩
      rw [h.pop_nil]
      rfl
    | cons m l =>
      obtain ⟨hpop, hholds, -⟩ := h.pop_cons
      refine ⟨l, hholds, ?_⟩
      rw [hpop]
      simp [pushedBy, poppedBy]
  | length =>
    obtain ⟨rfl, rfl⟩ := Prod.mk.inj hnext
    exact ⟨l, h, by simp [pushedBy, poppedBy]⟩
  | overload =>
    obtain ⟨rfl, rfl⟩ := Prod.mk.inj hnext
    exact ⟨l, h.takeOverload, by simp [pushedBy, poppedBy]⟩

/-- What was pushed has been returned in this order, or waits in the queue. -/
def Delivers (hist : List (MqEvent × MqOutput)) (q : MessageQueue) : Prop :=
  ∃ l, q.Holds l ∧ hist.filterMap pushedBy = hist.filterMap poppedBy ++ l

theorem delivers_step {hist : List (MqEvent × MqOutput)} {q q' : MessageQueue}
    {l : MqEvent × MqOutput} (h : Delivers hist q)
    (hstep : Fires (fun _ _ => True) next q l q') : Delivers (hist ++ [l]) q' := by
  obtain ⟨waiting, hholds, hhist⟩ := h
  obtain ⟨waiting', hholds', heq⟩ := next_holds hholds hstep.2
  have hone : ∀ f : MqEvent × MqOutput → Option SkynetMessage,
      [l].filterMap f = (f l).toList := by
    intro f
    cases hf : f l <;> simp [hf]
  refine ⟨waiting', hholds', ?_⟩
  rw [List.filterMap_append, List.filterMap_append, hone, hone, hhist, List.append_assoc,
    List.append_assoc, heq]

/-- Over any calls, the queue returns the messages in the order they were pushed, and what it
has not returned waits in it. -/
theorem fifo {handle : ℕ} {queue : ℕ → SkynetMessage} {ls : List (MqEvent × MqOutput)}
    {q : MessageQueue} (hrun : Run (Fires (fun _ _ => True) next) (create handle queue) ls q) :
    ∃ l, q.Holds l ∧ ls.filterMap pushedBy = ls.filterMap poppedBy ++ l ∧
      q.length = l.length := by
  have hstart : Delivers [] (create handle queue) := ⟨[], Holds.create handle queue, rfl⟩
  obtain ⟨l, hholds, hl⟩ : Delivers ([] ++ ls) q :=
    Run.invariant_history (fun _ _ _ _ h hstep => delivers_step h hstep) hstart hrun
  exact ⟨l, hholds, hl, hholds.length⟩

def numbered (n : ℕ) : SkynetMessage := ⟨n, 0, [], 0⟩

/-- Forty messages arrive, thirty leave, and sixty more run past the end of the array and fill
it, so that it is doubled; then ten more leave. -/
def wrapped : List MqEvent :=
  (List.range 40).map (.push ∘ numbered) ++ List.replicate 30 .pop ++
    (List.range 60).map (fun n => .push (numbered (40 + n))) ++ List.replicate 10 .pop

def unused : MessageQueue := create 1 fun _ => numbered 0

theorem fifo_wrapped : (exec next unused wrapped).cap = 2 * defaultQueueSize ∧
    ∃ l, (exec next unused wrapped).Holds l ∧
      (List.range 100).map numbered = (List.range 40).map numbered ++ l ∧
      (exec next unused wrapped).length = l.length := by
  have hrun : Run (Fires (fun _ _ => True) next) unused _ _ :=
    run_exec wrapped (by decide +kernel)
  have hpushed : (trace next unused wrapped).filterMap pushedBy =
      (List.range 100).map numbered := by decide +kernel
  have hpopped : (trace next unused wrapped).filterMap poppedBy =
      (List.range 40).map numbered := by decide +kernel
  obtain ⟨l, hholds, hl, hlength⟩ := fifo hrun
  rw [hpushed, hpopped] at hl
  exact ⟨by decide +kernel, l, hholds, hl, hlength⟩

end MessageQueue

end Ue4Background.Kernel
