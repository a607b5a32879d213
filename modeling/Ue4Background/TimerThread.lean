import Ue4Background.MessageQueue
import Ue4Background.TimerWheel

/-!
The timer thread (`skynet_updatetime`, `timer_update`, `timer_execute`, `dispatch_list`) beside
the services that set timers (`skynet_timeout`). The thread gives the lock up while it sends the
messages of a tick, and a service waits for the lock to add a timer. In every interleaving the
messages go out by the tick they are due at, and within a tick in the order of the calls.
-/

namespace Ue4Background.Timer

open Calendar Kernel Transition

/-- Where the timer thread stands in `skynet_updatetime`. In `loop` it has `turns` turns left; in
`execute` it holds the lock and tests the list of the tick, before or after the shift; in
`dispatch` it sends a list without the lock. -/
inductive Phase
  | idle
  | loop (turns : ℕ)
  | execute (shifted : Bool) (turns : ℕ)
  | dispatch (shifted : Bool) (nodes : List TimerNode) (turns : ℕ)

structure TimerState where
  wheel : Wheel
  current : ℕ
  currentPoint : ℕ
  phase : Phase

inductive TimerStep
  | timeout (handle : ℕ) (time : ℤ) (session : ℤ)
  | updatetime (cp : ℕ)
  | finish
  | lock
  | shift
  | take
  | send
  | relock
  | unlock

/-- The message of a timer, with the service it goes to. -/
def response (event : TimerEvent) : ℕ × SkynetMessage :=
  (event.handle, { source := 0, session := event.session, data := [], type := ptypeResponse })

namespace TimerState

/-- `skynet_timer_init`. -/
def init (current currentPoint : ℕ) : TimerState := ⟨Wheel.create, current, currentPoint, .idle⟩

/-- The list of the tick. -/
def near (s : TimerState) : List TimerNode := s.wheel.lists s.wheel.nearSlot

/-- The nodes that the thread is sending. -/
def sending (s : TimerState) : List TimerNode :=
  match s.phase with
  | .dispatch _ nodes _ => nodes
  | _ => []

def locked (s : TimerState) : Bool :=
  match s.phase with
  | .execute _ _ => true
  | _ => false

/-- `int time` has 32 bits; a positive one needs the lock. -/
def Enabled (s : TimerState) : TimerStep → Prop
  | .timeout _ time _ => time < 2 ^ 31 ∧ (0 < time → s.locked = false)
  | .updatetime _ => s.phase = .idle
  | .finish => s.phase = .loop 0
  | .lock => ∃ turns, s.phase = .loop (turns + 1)
  | .shift => (∃ turns, s.phase = .execute false turns) ∧ s.near = []
  | .take => (∃ shifted turns, s.phase = .execute shifted turns) ∧ s.near ≠ []
  | .send => ∃ shifted node nodes turns, s.phase = .dispatch shifted (node :: nodes) turns
  | .relock => ∃ shifted turns, s.phase = .dispatch shifted [] turns
  | .unlock => (∃ turns, s.phase = .execute true turns) ∧ s.near = []

/-- `skynet_timeout`. -/
def timeout (s : TimerState) (event : TimerEvent) (time : ℤ) :
    TimerState × Option (ℕ × SkynetMessage) :=
  if time ≤ 0 then (s, some (response event))
  else ({ s with wheel := s.wheel.timerAdd event time.toNat }, none)

/-- `skynet_updatetime` up to its loop. -/
def updatetime (s : TimerState) (cp : ℕ) : TimerState :=
  if cp < s.currentPoint then { s with currentPoint := cp }
  else if cp ≠ s.currentPoint then
    let diff := (cp - s.currentPoint) % 2 ^ 32
    { s with currentPoint := cp, current := s.current + diff, phase := .loop diff }
  else s

def next (s : TimerState) : TimerStep → TimerState × Option (ℕ × SkynetMessage)
  | .timeout handle time session => s.timeout ⟨handle, session⟩ time
  | .updatetime cp => (s.updatetime cp, none)
  | .finish => ({ s with phase := .idle }, none)
  | .lock =>
    match s.phase with
    | .loop (turns + 1) => ({ s with phase := .execute false turns }, none)
    | _ => (s, none)
  | .shift =>
    match s.phase with
    | .execute _ turns =>
      ({ s with wheel := s.wheel.timerShift, phase := .execute true turns }, none)
    | _ => (s, none)
  | .take =>
    match s.phase with
    | .execute shifted turns =>
      ({ s with wheel := s.wheel.clearNear, phase := .dispatch shifted s.near turns }, none)
    | _ => (s, none)
  | .send =>
    match s.phase with
    | .dispatch shifted (node :: nodes) turns =>
      ({ s with phase := .dispatch shifted nodes turns }, some (response node.event))
    | _ => (s, none)
  | .relock =>
    match s.phase with
    | .dispatch shifted _ turns => ({ s with phase := .execute shifted turns }, none)
    | _ => (s, none)
  | .unlock =>
    match s.phase with
    | .execute _ turns => ({ s with phase := .loop turns }, none)
    | _ => (s, none)

end TimerState

/-- The ticks of the wheel so far. -/
def ticks : List (TimerStep × Option (ℕ × SkynetMessage)) → ℕ
  | [] => 0
  | (.shift, _) :: ls => ticks ls + 1
  | _ :: ls => ticks ls

/-- The timers that were added, with the tick each is due at, when the wheel starts at `c`. -/
def added (c : ℕ) : List (TimerStep × Option (ℕ × SkynetMessage)) → List (ℕ × TimerEvent)
  | [] => []
  | (.timeout handle time session, _) :: ls =>
    if 0 < time then (c + time.toNat, ⟨handle, session⟩) :: added c ls else added c ls
  | (.shift, _) :: ls => added (c + 1) ls
  | _ :: ls => added c ls

/-- The messages the timer thread has sent. -/
def fired (ls : List (TimerStep × Option (ℕ × SkynetMessage))) : List (ℕ × SkynetMessage) :=
  ls.filterMap fun l =>
    match l.1 with
    | .send => l.2
    | _ => none

theorem ticks_append (ls ms : List (TimerStep × Option (ℕ × SkynetMessage))) :
    ticks (ls ++ ms) = ticks ls + ticks ms := by
  induction ls with
  | nil => simp [ticks]
  | cons l ls ih =>
    obtain ⟨step, out⟩ := l
    cases step with
    | shift =>
      simp only [List.cons_append, ticks, ih]
      exact Nat.add_right_comm ..
    | _ => simp only [List.cons_append, ticks, ih]

theorem added_append (c : ℕ) (ls ms : List (TimerStep × Option (ℕ × SkynetMessage))) :
    added c (ls ++ ms) = added c ls ++ added (c + ticks ls) ms := by
  induction ls generalizing c with
  | nil => simp [added, ticks]
  | cons l ls ih =>
    obtain ⟨step, out⟩ := l
    cases step with
    | timeout handle time session =>
      simp only [List.cons_append, added, ticks, ih]
      split <;> rfl
    | shift =>
      simp only [List.cons_append, added, ticks, ih]
      rw [Nat.add_right_comm, Nat.add_assoc]
    | _ => simp only [List.cons_append, added, ticks, ih]

theorem fired_append (ls ms : List (TimerStep × Option (ℕ × SkynetMessage))) :
    fired (ls ++ ms) = fired ls ++ fired ms := List.filterMap_append ..

/-- The turns of the loop whose tick is still to come. -/
def Phase.turnsLeft : Phase → ℕ
  | .idle => 0
  | .loop turns => turns
  | .execute shifted turns => if shifted then turns else turns + 1
  | .dispatch shifted _ turns => if shifted then turns else turns + 1

/-- The wheel holds what is due later, and after a shift also what is due at this tick. -/
structure Keeps (current : ℕ) (hist : List (TimerStep × Option (ℕ × SkynetMessage)))
    (s : TimerState) (pending : List (ℕ × TimerEvent)) : Prop where
  holds : Holds s.wheel (ticks hist) pending
  later : dueAfter (added 0 hist) (ticks hist) = pending.filter fun e => e.1 ≠ ticks hist
  sent : fired hist ++ s.sending.map (fun n => response n.event) ++
      (pending.filter fun e => e.1 = ticks hist).map (fun e => response e.2) =
    (dueBy (added 0 hist) (ticks hist)).map fun e => response e.2
  settled : (∀ turns, s.phase ≠ .execute true turns) → ∀ e ∈ pending, ticks hist < e.1
  clock : s.current = current + ticks hist + s.phase.turnsLeft

namespace Keeps

variable {current : ℕ} {hist : List (TimerStep × Option (ℕ × SkynetMessage))} {s : TimerState}
  {pending : List (ℕ × TimerEvent)}

theorem start (current currentPoint : ℕ) : Keeps current [] (.init current currentPoint) [] :=
  ⟨Holds.create, rfl, rfl, by simp, rfl⟩

theorem near_eq (h : Keeps current hist s pending) :
    s.near = (pending.filter fun e => e.1 = ticks hist).map nodeOf := h.holds.near_eq

/-- A step that leaves the wheel and what is being sent alone. -/
theorem pass (h : Keeps current hist s pending) {l : TimerStep × Option (ℕ × SkynetMessage)}
    {s' : TimerState} (hwheel : s'.wheel = s.wheel) (hticks : ticks [l] = 0)
    (hadded : ∀ c, added c [l] = [])
    (hsent : fired [l] ++ s'.sending.map (fun n => response n.event) =
      s.sending.map fun n => response n.event)
    (hsettled : (∀ turns, s'.phase ≠ .execute true turns) → ∀ e ∈ pending, ticks hist < e.1)
    (hclock : s'.current = current + ticks hist + s'.phase.turnsLeft) :
    Keeps current (hist ++ [l]) s' pending := by
  have hticks' : ticks (hist ++ [l]) = ticks hist := by rw [ticks_append, hticks, Nat.add_zero]
  have hadded' : added 0 (hist ++ [l]) = added 0 hist := by
    rw [added_append, hadded, List.append_nil]
  refine ⟨?_, ?_, ?_, ?_, ?_⟩
  · rw [hwheel, hticks']
    exact h.holds
  · rw [hadded', hticks']
    exact h.later
  · rw [hadded', hticks', fired_append, List.append_assoc, List.append_assoc,
      ← List.append_assoc (fired [l]), hsent, ← List.append_assoc]
    exact h.sent
  · rw [hticks']
    exact hsettled
  · rw [hticks']
    exact hclock

theorem settled_of_near (h : Keeps current hist s pending) (hnear : s.near = []) :
    ∀ e ∈ pending, ticks hist < e.1 := by
  intro e he
  rw [h.near_eq, List.map_eq_nil_iff, List.filter_eq_nil_iff] at hnear
  have hne : e.1 ≠ ticks hist := by simpa using hnear e he
  obtain ⟨hle, -⟩ := h.holds.soon e he
  omega

theorem timeout (h : Keeps current hist s pending) (handle : ℕ) {time : ℤ} (session : ℤ)
    (out : Option (ℕ × SkynetMessage)) (hpos : 0 < time) (hbound : time < 2 ^ 31) :
    Keeps current (hist ++ [(.timeout handle time session, out)])
      { s with wheel := s.wheel.timerAdd ⟨handle, session⟩ time.toNat }
      (pending ++ [(ticks hist + time.toNat, ⟨handle, session⟩)]) := by
  have hlater : ticks hist < ticks hist + time.toNat := by omega
  have hticks : ticks (hist ++ [(.timeout handle time session, out)]) = ticks hist := by
    rw [ticks_append]
    rfl
  have hadded : added 0 (hist ++ [(.timeout handle time session, out)]) =
      added 0 hist ++ [(ticks hist + time.toNat, ⟨handle, session⟩)] := by
    rw [added_append]
    simp [added, hpos]
  have hfired : fired (hist ++ [(.timeout handle time session, out)]) = fired hist := by
    rw [fired_append]
    exact List.append_nil _
  have hnow : ∀ p : ℕ → Bool, (pending ++ [(ticks hist + time.toNat,
        (⟨handle, session⟩ : TimerEvent))]).filter (fun e => p e.1) =
      pending.filter (fun e => p e.1) ++
        if p (ticks hist + time.toNat) then [(ticks hist + time.toNat, ⟨handle, session⟩)]
        else [] := by
    intro p
    cases hp : p (ticks hist + time.toNat) <;> simp [hp]
  refine ⟨?_, ?_, ?_, ?_, ?_⟩
  · rw [hticks]
    exact h.holds.timerAdd _ (by omega)
  · rw [hadded, hticks, dueAfter_append_later _ hlater, h.later,
      hnow fun time => time ≠ ticks hist, if_pos (by simpa using hlater.ne')]
  · rw [hadded, hticks, hfired, dueBy_append_later _ hlater, hnow fun time => time = ticks hist,
      if_neg (by simpa using hlater.ne'), List.append_nil]
    exact h.sent
  · rw [hticks]
    intro hphase e he
    rcases List.mem_append.mp he with he | he
    · exact h.settled hphase e he
    · rw [List.mem_singleton.mp he]
      exact hlater
  · rw [hticks]
    exact h.clock

theorem shift (h : Keeps current hist s pending) {turns : ℕ}
    (hphase : s.phase = .execute false turns) (out : Option (ℕ × SkynetMessage)) :
    Keeps current (hist ++ [(.shift, out)])
      { s with wheel := s.wheel.timerShift, phase := .execute true turns } pending := by
  have hlater : ∀ e ∈ pending, ticks hist < e.1 := by
    refine h.settled fun turns' hshifted => ?_
    rw [hphase] at hshifted
    cases hshifted
  have hticks : ticks (hist ++ [(.shift, out)]) = ticks hist + 1 := ticks_append ..
  have hadded : added 0 (hist ++ [(.shift, out)]) = added 0 hist := by
    rw [added_append]
    exact List.append_nil _
  have hfired : fired (hist ++ [(.shift, out)]) = fired hist := by
    rw [fired_append]
    exact List.append_nil _
  have hpending : dueAfter (added 0 hist) (ticks hist) = pending := by
    rw [h.later, List.filter_eq_self]
    intro e he
    simpa using (hlater e he).ne'
  have hnow : (pending.filter fun e => e.1 = ticks hist) = [] := by
    rw [List.filter_eq_nil_iff]
    intro e he
    simpa using (hlater e he).ne'
  have hsending : s.sending = [] := by rw [TimerState.sending, hphase]
  refine ⟨?_, ?_, ?_, ?_, ?_⟩
  · rw [hticks]
    exact h.holds.timerShift hlater
  · rw [hadded, hticks, dueAfter_succ, hpending]
  · rw [hadded, hticks, hfired, dueBy_succ, dueAt_succ, hpending, List.map_append]
    congr 1
    rw [← h.sent, hsending, hnow]
    simp [TimerState.sending]
  · intro hshifted
    exact absurd rfl (hshifted turns)
  · rw [hticks]
    have hclock := h.clock
    rw [hphase] at hclock
    simp only [Phase.turnsLeft] at hclock ⊢
    simp only [if_false, if_true, Bool.false_eq_true] at hclock ⊢
    omega

theorem take (h : Keeps current hist s pending) {shifted : Bool} {turns : ℕ}
    (hphase : s.phase = .execute shifted turns) (out : Option (ℕ × SkynetMessage)) :
    Keeps current (hist ++ [(.take, out)])
      { s with wheel := s.wheel.clearNear, phase := .dispatch shifted s.near turns }
      (pending.filter fun e => e.1 ≠ ticks hist) := by
  have hticks : ticks (hist ++ [(.take, out)]) = ticks hist := by
    rw [ticks_append]
    rfl
  have hadded : added 0 (hist ++ [(.take, out)]) = added 0 hist := by
    rw [added_append]
    exact List.append_nil _
  have hfired : fired (hist ++ [(.take, out)]) = fired hist := by
    rw [fired_append]
    exact List.append_nil _
  have hnow : ((pending.filter fun e => e.1 ≠ ticks hist).filter
      fun e => e.1 = ticks hist) = [] := by
    rw [List.filter_eq_nil_iff]
    intro e he
    simpa using (List.mem_filter.mp he).2
  refine ⟨?_, ?_, ?_, ?_, ?_⟩
  · rw [hticks]
    exact h.holds.clearNear
  · rw [hadded, hticks, h.later, List.filter_filter]
    simp
  · rw [hadded, hticks, hfired, hnow, ← h.sent, TimerState.sending, TimerState.sending, hphase]
    dsimp only
    rw [h.near_eq, List.map_map, List.map_nil, List.append_nil, List.map_nil, List.append_nil]
    rfl
  · intro _ e he
    rw [hticks]
    obtain ⟨hmem, hne⟩ := List.mem_filter.mp he
    obtain ⟨hle, -⟩ := h.holds.soon e hmem
    have hne' : e.1 ≠ ticks hist := by simpa using hne
    omega
  · rw [hticks]
    have hclock := h.clock
    rw [hphase] at hclock
    exact hclock

theorem step (h : Keeps current hist s pending) {l : TimerStep × Option (ℕ × SkynetMessage)}
    {s' : TimerState} (hstep : Fires TimerState.Enabled TimerState.next s l s') :
    ∃ pending', Keeps current (hist ++ [l]) s' pending' := by
  obtain ⟨e, out⟩ := l
  obtain ⟨henabled, hnext⟩ := hstep
  cases e with
  | timeout handle time session =>
    rw [TimerState.next, TimerState.timeout] at hnext
    split at hnext
    · rename_i htime
      obtain ⟨rfl, -⟩ := Prod.mk.inj hnext
      exact ⟨pending, h.pass rfl rfl (fun c => by simp [added, htime]) rfl h.settled h.clock⟩
    · rename_i htime
      obtain ⟨rfl, -⟩ := Prod.mk.inj hnext
      exact ⟨_, h.timeout handle session out (by omega) henabled.1⟩
  | updatetime cp =>
    have hidle : s.phase = .idle := henabled
    obtain ⟨rfl, -⟩ := Prod.mk.inj hnext
    have hsending : s.sending = [] := by rw [TimerState.sending, hidle]
    have hlater := h.settled fun turns => by rw [hidle]; simp
    have hclock := h.clock
    rw [hidle] at hclock
    unfold TimerState.updatetime
    split
    · refine ⟨pending, h.pass rfl rfl (fun _ => rfl) rfl (fun _ => hlater) ?_⟩
      rw [h.clock]
    · split
      · refine ⟨pending, h.pass rfl rfl (fun _ => rfl) ?_ (fun _ => hlater) ?_⟩
        · rw [hsending]
          rfl
        · simp only [Phase.turnsLeft] at hclock ⊢
          omega
      · exact ⟨pending, h.pass rfl rfl (fun _ => rfl) rfl (fun _ => hlater) h.clock⟩
  | finish =>
    have hloop : s.phase = .loop 0 := henabled
    obtain ⟨rfl, -⟩ := Prod.mk.inj hnext
    refine ⟨pending, h.pass rfl rfl (fun _ => rfl) ?_ (fun _ => h.settled ?_) ?_⟩
    · rw [TimerState.sending, TimerState.sending, hloop]
      rfl
    · intro turns
      rw [hloop]
      simp
    · have hclock := h.clock
      rwa [hloop] at hclock
  | lock =>
    obtain ⟨turns, hloop⟩ := henabled
    rw [TimerState.next, hloop] at hnext
    obtain ⟨rfl, -⟩ := Prod.mk.inj hnext
    refine ⟨pending, h.pass rfl rfl (fun _ => rfl) ?_ (fun _ => h.settled ?_) ?_⟩
    · rw [TimerState.sending, TimerState.sending, hloop]
      rfl
    · intro turns
      rw [hloop]
      simp
    · have hclock := h.clock
      rwa [hloop] at hclock
  | shift =>
    obtain ⟨⟨turns, hphase⟩, -⟩ := henabled
    rw [TimerState.next, hphase] at hnext
    obtain ⟨rfl, -⟩ := Prod.mk.inj hnext
    exact ⟨pending, h.shift hphase out⟩
  | take =>
    obtain ⟨⟨shifted, turns, hphase⟩, -⟩ := henabled
    rw [TimerState.next, hphase] at hnext
    obtain ⟨rfl, -⟩ := Prod.mk.inj hnext
    exact ⟨_, h.take hphase out⟩
  | send =>
    obtain ⟨shifted, node, nodes, turns, hphase⟩ := henabled
    rw [TimerState.next, hphase] at hnext
    obtain ⟨rfl, rfl⟩ := Prod.mk.inj hnext
    refine ⟨pending, h.pass rfl rfl (fun _ => rfl) ?_ (fun _ => h.settled ?_) ?_⟩
    · rw [TimerState.sending, TimerState.sending, hphase]
      rfl
    · intro turns
      rw [hphase]
      simp
    · have hclock := h.clock
      rwa [hphase] at hclock
  | relock =>
    obtain ⟨shifted, turns, hphase⟩ := henabled
    rw [TimerState.next, hphase] at hnext
    obtain ⟨rfl, -⟩ := Prod.mk.inj hnext
    refine ⟨pending, h.pass rfl rfl (fun _ => rfl) ?_ (fun _ => h.settled ?_) ?_⟩
    · rw [TimerState.sending, TimerState.sending, hphase]
      rfl
    · intro turns
      rw [hphase]
      simp
    · have hclock := h.clock
      rwa [hphase] at hclock
  | unlock =>
    obtain ⟨⟨turns, hphase⟩, hnear⟩ := henabled
    rw [TimerState.next, hphase] at hnext
    obtain ⟨rfl, -⟩ := Prod.mk.inj hnext
    refine ⟨pending, h.pass rfl rfl (fun _ => rfl) ?_ (fun _ => h.settled_of_near hnear) ?_⟩
    · rw [TimerState.sending, TimerState.sending, hphase]
      rfl
    · have hclock := h.clock
      rwa [hphase] at hclock

end Keeps

theorem keeps_run {current currentPoint : ℕ} {ls : List (TimerStep × Option (ℕ × SkynetMessage))}
    {s : TimerState}
    (hrun : Run (Fires TimerState.Enabled TimerState.next) (.init current currentPoint) ls s) :
    ∃ pending, Keeps current ls s pending := by
  have hstart : ∃ pending, Keeps current [] (.init current currentPoint) pending :=
    ⟨[], Keeps.start current currentPoint⟩
  exact Run.invariant_history (I := fun hist s => ∃ pending, Keeps current hist s pending)
    (fun _ _ _ _ ⟨_, h⟩ hstep => h.step hstep) hstart hrun

/-- Two timers are set and one tick passes. -/
def oneTick : List TimerStep :=
  [.timeout 8 1 3, .timeout 9 300 4, .updatetime 1, .lock, .shift, .take, .send, .relock,
    .unlock, .finish]

theorem oneTick_enabled : Along TimerState.Enabled TimerState.next (.init 20 0) oneTick :=
  ⟨⟨by decide, fun _ => rfl⟩, ⟨by decide, fun _ => rfl⟩, rfl, ⟨0, rfl⟩,
    ⟨⟨0, rfl⟩, by decide⟩, ⟨⟨true, 0, rfl⟩, by decide⟩, ⟨true, _, _, 0, rfl⟩,
    ⟨true, 0, rfl⟩, ⟨⟨0, rfl⟩, by decide⟩, rfl, trivial⟩

/-- What was sent, what is being sent and what stands in the list of the tick are the timers due
so far: each once, by the tick it is due at and then in the order of the calls. -/
theorem fired_exactly {current currentPoint : ℕ}
    {ls : List (TimerStep × Option (ℕ × SkynetMessage))} {s : TimerState}
    (hrun : Run (Fires TimerState.Enabled TimerState.next) (.init current currentPoint) ls s) :
    fired ls ++ s.sending.map (fun n => response n.event) ++
        s.near.map (fun n => response n.event) =
      (dueBy (added 0 ls) (ticks ls)).map fun e => response e.2 := by
  obtain ⟨pending, h⟩ := keeps_run hrun
  rw [← h.sent, h.near_eq, List.map_map]
  rfl

theorem fired_exactly_one_tick :
    fired (trace TimerState.next (.init 20 0) oneTick) = [response ⟨8, 3⟩] := by
  have h := fired_exactly (run_exec oneTick oneTick_enabled)
  have hsending : (exec TimerState.next (.init 20 0) oneTick).sending = [] := rfl
  have hnear : (exec TimerState.next (.init 20 0) oneTick).near = [] := by decide
  have hticks : ticks (trace TimerState.next (.init 20 0) oneTick) = 1 := rfl
  rw [hsending, hnear, hticks, List.map_nil, List.append_nil, List.append_nil] at h
  rw [h]
  rfl

/-- Whenever the thread is outside `skynet_updatetime`, the wheel stands at the elapsed time and
exactly the timers due by then have been sent. -/
theorem fired_at_rest {current currentPoint : ℕ}
    {ls : List (TimerStep × Option (ℕ × SkynetMessage))} {s : TimerState}
    (hrun : Run (Fires TimerState.Enabled TimerState.next) (.init current currentPoint) ls s)
    (hidle : s.phase = .idle) :
    current ≤ s.current ∧ s.wheel.time = (s.current - current) % 2 ^ 32 ∧
      fired ls = (dueBy (added 0 ls) (s.current - current)).map fun e => response e.2 := by
  obtain ⟨pending, h⟩ := keeps_run hrun
  have hclock := h.clock
  rw [hidle] at hclock
  simp only [Phase.turnsLeft] at hclock
  have hticks : s.current - current = ticks ls := by omega
  have hlater := h.settled fun turns => by rw [hidle]; simp
  have hnow : (pending.filter fun e => e.1 = ticks ls) = [] := by
    rw [List.filter_eq_nil_iff]
    intro e he
    simpa using (hlater e he).ne'
  have hsent := h.sent
  rw [TimerState.sending, hidle, hnow] at hsent
  rw [hticks]
  refine ⟨by omega, h.holds.time, ?_⟩
  rw [← hsent]
  simp

theorem fired_at_rest_one_tick :
    (exec TimerState.next (.init 20 0) oneTick).current = 21 ∧
      fired (trace TimerState.next (.init 20 0) oneTick) = [response ⟨8, 3⟩] := by
  have h := fired_at_rest (run_exec oneTick oneTick_enabled) rfl
  exact ⟨rfl, h.2.2⟩

end Ue4Background.Timer
