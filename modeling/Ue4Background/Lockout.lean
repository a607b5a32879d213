import Ue4Background.Displacement

/-!
What a failed remote call leaves behind. `dispatch` swallows a fault, so a handler whose call
raises ends without undoing its mark on the record. A later `reqlogin` succeeds exactly when no
record of the player is left: it refuses a mark, and a record in the game sends it to a nil
address.
-/

namespace Ue4Background.AgentMgr

open LuaValues Transition

variable {Num Node Addr Caller : Type}

/-- The player for whom a handler waits in a remote call. -/
def Task.calling : Task Num Node Addr Caller → Option Num
  | .kickOld _ p _ _ _ _ _ _ => some p
  | .kickGate _ p _ _ => some p
  | .newservice _ p _ _ => some p
  | .kickAgent _ p _ _ _ _ => some p
  | .forked _ => none
  | .sleeping _ _ _ => none

def Idle (m : State Num Node Addr Caller) (p : Num) : Prop :=
  ∀ h t, m.tasks h = some t → t.calling ≠ some p

/-- A `reqkick` that waits for the agent. -/
def Task.Kicks : Task Num Node Addr Caller → Prop
  | .kickAgent _ _ _ _ _ _ => True
  | _ => False

/-- The call raised, or it returned nothing, as it does when the remote handler raised. -/
def Reply.Failed (reply : Reply Addr) : Prop :=
  reply = .raised ∨ reply = .returned none

/-- The call returned, and a new service has an address. -/
def Task.Served (reply : Reply Addr) : Task Num Node Addr Caller → Prop
  | .newservice _ _ _ _ => ∃ agent, reply = .returned (some agent)
  | _ => ∃ value, reply = .returned value

/-- The remote calls of the handler `h` succeed. -/
def Serves (h : Handler) (m : State Num Node Addr Caller) (l : Label Num Node Addr Caller) :
    Prop :=
  ∀ reply t, l.1 = .answer h reply → m.tasks h = some t → t.Served reply

variable [DecidableEq Num]

/-- A `reqlogin` all of whose remote calls succeed is possible, and it always answers true and
leaves a record in the game. -/
structure Readmits (m : State Num Node Addr Caller) (caller : Caller) (p : Num) (node : Node)
    (gate : Addr) : Prop where
  suspends : (next m (.reqlogin caller (some p) node gate)).1.tasks m.taskCount ≠ none
  possible : ∃ ls u l v,
    Run (Guarded Step (Serves m.taskCount)) (next m (.reqlogin caller (some p) node gate)).1 ls u ∧
      u.tasks m.taskCount ≠ none ∧ Guarded Step (Serves m.taskCount) u l v ∧
        v.tasks m.taskCount = none
  grants : ∀ ls u l v,
    Run (Guarded Step (Serves m.taskCount)) (next m (.reqlogin caller (some p) node gate)).1 ls u →
      u.tasks m.taskCount ≠ none → Guarded Step (Serves m.taskCount) u l v →
        v.tasks m.taskCount = none →
          ∃ agent r mp, .ret caller (.granted (some agent)) ∈ l.2 ∧ Stored v p r mp ∧
            mp.status = .game

variable {m m' : State Num Node Addr Caller}

/-- A handler that has ended does not come back. -/
theorem ended_kept {l : Label Num Node Addr Caller} (hl : Locks m) (hstep : Step m l m')
    {k : Handler} (hlt : k < m.taskCount) (hk : m.tasks k = none) : m'.tasks k = none := by
  have hne : k ≠ m.taskCount := Nat.ne_of_lt hlt
  have hbusy : ∀ {h t}, m.tasks h = some t → k ≠ h := by
    rintro h t ht rfl
    rw [ht] at hk
    cases hk
  have hfinish : ∀ h, (m.finish h).tasks k = none := fun h => by
    by_cases hkh : k = h
    · rw [hkh]
      exact Function.update_self ..
    · exact (Function.update_of_ne hkh _ _).trans hk
  have hchange := step_change hstep
  obtain ⟨ev, outs⟩ := l
  dsimp only at hchange
  cases hchange
  case displacing => exact (Function.update_of_ne hne _ _).trans hk
  case registered => exact (Function.update_of_ne hne _ _).trans hk
  case kicking => exact (Function.update_of_ne hne _ _).trans hk
  case shutdown num order =>
    have hforks := tasks_forkLoop (m := m.start) num order 0 (Nat.lt_succ_of_lt hlt)
    exact (Function.update_of_ne hne _ _).trans (hforks.trans hk)
  case forkNotKicked h _ _ _ => exact hfinish h
  case forkKicking h _ _ _ htask _ =>
    exact (Function.update_of_ne (hbusy htask) _ _).trans (hfinish h)
  case drained h _ _ _ _ => exact hfinish h
  case fault h _ _ _ => exact hfinish h
  case oldKicked htask => cases hl.holds _ _ htask
  case gateKicked htask => cases hl.holds _ _ htask
  case granted h _ _ _ _ _ _ => exact hfinish h
  case kicked h _ _ _ _ _ _ _ _ => exact hfinish h
  all_goals exact hk

/-- The answer to a call ends its handler: a second login never gets past its first call. -/
theorem answer_ends {h : Handler} {reply : Reply Addr} {outs : List (Out Num Node Addr Caller)}
    (hl : Locks m) (hstep : Step m (.answer h reply, outs) m') : m'.tasks h = none := by
  have hchange := step_change hstep
  dsimp only at hchange
  cases hchange
  case fault => exact Function.update_self ..
  case oldKicked htask => cases hl.holds _ _ htask
  case gateKicked htask => cases hl.holds _ _ htask
  case granted => exact Function.update_self ..
  case kicked => exact Function.update_self ..

/-- A handler waits in its call, or has ended. -/
theorem waits_or_ended {k : Handler} {t : Task Num Node Addr Caller} (hl : Locks m)
    (hk : m.tasks k = some t) (hwakes : ¬ t.Wakes) {ls : List (Label Num Node Addr Caller)}
    {u : State Num Node Addr Caller} (hrun : Run Step m ls u) :
    Locks u ∧ (u.tasks k = some t ∨ u.tasks k = none ∧ k < u.taskCount) := by
  refine Run.invariant (I := fun u => Locks u ∧ (u.tasks k = some t ∨
    u.tasks k = none ∧ k < u.taskCount)) (fun u l v hu hstep => ?_) ⟨hl, Or.inl hk⟩ hrun
  obtain ⟨hlocks, hwaits | ⟨hended, hlt⟩⟩ := hu
  · refine ⟨hlocks.step hstep, ?_⟩
    rcases task_kept hlocks hstep hwaits with hkept | ⟨reply, hev⟩ | ⟨_, hwake⟩
    · exact Or.inl hkept
    · obtain ⟨ev, outs⟩ := l
      obtain rfl : ev = .answer k reply := hev
      have hlt := hlocks.task_lt k t hwaits
      exact Or.inr ⟨answer_ends hlocks hstep, Nat.lt_of_lt_of_le hlt (taskCount_step hstep)⟩
    · exact absurd hwake hwakes
  · exact ⟨hlocks.step hstep, Or.inr ⟨ended_kept hlocks hstep hlt hended,
      Nat.lt_of_lt_of_le hlt (taskCount_step hstep)⟩⟩

/-- The step that ends a waiting handler is the answer to its call. -/
theorem ends_answered {k : Handler} {t : Task Num Node Addr Caller} (hl : Locks m)
    (hk : m.tasks k = some t) (hwakes : ¬ t.Wakes) {l : Label Num Node Addr Caller}
    (hstep : Step m l m') (hend : m'.tasks k = none) : ∃ reply, l.1 = .answer k reply := by
  rcases task_kept hl hstep hk with hkept | hanswer | ⟨_, hwake⟩
  · rw [hend] at hkept
    cases hkept
  · exact hanswer
  · exact absurd hwake hwakes

/-- An agent for the record that waits for one takes it into the game. -/
theorem granted_stored {h : Handler} {caller : Caller} {p : Num} {node : Node} {r : Ref}
    {value : Option Addr} {outs : List (Out Num Node Addr Caller)} (hl : Locks m)
    (htask : m.tasks h = some (.newservice caller p node r))
    (hstep : Step m (.answer h (.returned value), outs) m') :
    outs = [.ret caller (.granted value)] ∧
      ∃ gate, Stored m' p r ⟨p, node, value, .game, gate⟩ := by
  have hchange := step_change hstep
  dsimp only at hchange
  cases hchange
  case oldKicked htask' => cases htask.symm.trans htask'
  case gateKicked htask' => cases htask.symm.trans htask'
  case kicked htask' => cases htask.symm.trans htask'
  case granted htask' =>
    cases htask.symm.trans htask'
    obtain ⟨gate, hlookup, hheap⟩ := hl.holds h _ htask
    exact ⟨rfl, gate, hlookup, by simp [State.finish, State.setGame, State.modify, hheap]⟩

section Readmits

variable {caller : Caller} {p : Num} {node : Node} {gate : Addr}

/-- A player without a record logs in as a new player does. -/
theorem readmits_absent (hl : Locks m) (habsent : m.players.lookup p = none) :
    Readmits m caller p node gate := by
  have hrecord : m.start.record p = none := by
    simp only [State.record, State.start, habsent, Option.bind_none]
  have hlogin : (next m (.reqlogin caller (some p) node gate)).1 =
      m.start.registering m.taskCount caller p node gate := by
    simp only [next, reqlogin, hrecord, register]
    rfl
  have hrecord : m.record p = none := hrecord
  have hlocks : Locks (m.start.registering m.taskCount caller p node gate) :=
    hl.start.registering node gate (Nat.lt_succ_self m.taskCount) hrecord
  have hwaits : (m.start.registering m.taskCount caller p node gate).tasks m.taskCount =
      some (.newservice caller p node m.count) := Function.update_self ..
  have hserved : ∀ {ls : List (Label Num Node Addr Caller)} {u : State Num Node Addr Caller},
      Run (Guarded Step (Serves m.taskCount)) (m.start.registering m.taskCount caller p node gate)
        ls u → u.tasks m.taskCount ≠ none → Locks u ∧
          u.tasks m.taskCount = some (.newservice caller p node m.count) := fun hrun hu => by
    obtain ⟨hlocks, hold | ⟨hended, -⟩⟩ := waits_or_ended hlocks hwaits id hrun.unguarded
    · exact ⟨hlocks, hold⟩
    · exact absurd hended hu
  refine ⟨?_, ?_, fun ls u l v hrun hu hlast hend => ?_⟩
  · rw [hlogin, hwaits]
    exact Option.some_ne_none _
  · rw [hlogin]
    have hstep : Step (m.start.registering m.taskCount caller p node gate)
        (.answer m.taskCount (.returned (some gate)), _) _ := ⟨⟨_, hwaits, trivial⟩, rfl⟩
    refine ⟨[], _, _, _, Run.nil, by rw [hwaits]; exact Option.some_ne_none _, ⟨hstep, ?_⟩,
      answer_ends hlocks hstep⟩
    rintro reply t ⟨⟩ ht
    cases hwaits.symm.trans ht
    exact ⟨gate, rfl⟩
  · rw [hlogin] at hrun
    obtain ⟨hlocks, htask⟩ := hserved hrun hu
    obtain ⟨reply, hev⟩ := ends_answered hlocks htask id hlast.1 hend
    obtain ⟨agent, rfl⟩ := hlast.2 reply _ hev htask
    obtain ⟨ev, outs⟩ := l
    obtain rfl : ev = .answer m.taskCount (.returned (some agent)) := hev
    obtain ⟨houts, gate', hstored⟩ := granted_stored hlocks htask hlast.1
    exact ⟨agent, _, _, by rw [houts]; exact List.mem_singleton_self _, hstored, rfl⟩

theorem lookup_none_of_readmits (hl : Locks m) (h : Readmits m caller p node gate) :
    m.players.lookup p = none := by
  cases hlookup : m.players.lookup p with
  | none => rfl
  | some r =>
    exfalso
    obtain ⟨mp, hheap, -⟩ := hl.stored p r hlookup
    have hstored : Stored m p r mp := ⟨hlookup, hheap⟩
    have hrecord : m.start.record p = some (r, mp) := record_eq_some.mpr hstored
    cases hstatus : mp.status with
    | login =>
      refine h.suspends ?_
      simp only [next, reqlogin, hrecord, hstatus]
      exact hl.fresh
    | logout =>
      refine h.suspends ?_
      simp only [next, reqlogin, hrecord, hstatus]
      exact hl.fresh
    | game =>
      obtain ⟨ls, u, l, v, hrun, hwaits, hlast, hend⟩ := h.possible
      have hlogin : (next m (.reqlogin caller (some p) node gate)).1 =
          m.start.suspend m.taskCount (.kickOld caller p node gate r mp.node none mp.gate) := by
        simp only [next, reqlogin, hrecord, hstatus]
      rw [hlogin] at hrun
      have hsuspended := hl.start.suspend (h := m.taskCount)
        (t := .kickOld caller p node gate r mp.node none mp.gate) (Nat.lt_succ_self _) rfl
        fun _ h => by cases h
      obtain ⟨hlocks, hold | ⟨hended, -⟩⟩ :=
        waits_or_ended hsuspended (Function.update_self ..) id hrun.unguarded
      · obtain ⟨reply, hev⟩ := ends_answered hlocks hold id hlast.1 hend
        obtain ⟨value, hreply⟩ := hlast.2 reply _ hev hold
        obtain ⟨ev, outs⟩ := l
        obtain rfl : ev = .answer m.taskCount reply := hev
        obtain ⟨t, ht, hanswers⟩ := hlast.1.1
        cases hold.symm.trans ht
        cases hreply.symm.trans (hanswers rfl)
      · exact hwaits hended

/-- A later login succeeds exactly when no record of the player is left. -/
theorem readmits_iff (hl : Locks m) :
    Readmits m caller p node gate ↔ m.players.lookup p = none :=
  ⟨lookup_none_of_readmits hl, readmits_absent hl⟩

end Readmits

/-- Of the failed calls only a `reqkick` whose kick did not raise still removes the record. -/
theorem lookup_failed {p : Num} {u : State Num Node Addr Caller} {h : Handler}
    {t : Task Num Node Addr Caller} {reply : Reply Addr} {outs : List (Out Num Node Addr Caller)}
    (hl : Locks m) (htask : m.tasks h = some t) (hcalling : t.calling = some p)
    (hstep : Step m (.answer h reply, outs) u) :
    u.players.lookup p = none ↔ m.players.lookup p = none ∨ t.Kicks ∧ reply ≠ .raised := by
  have hchange := step_change hstep
  dsimp only at hchange
  cases hchange
  case fault => simp [State.finish]
  case oldKicked htask' => cases hl.holds _ _ htask'
  case gateKicked htask' => cases hl.holds _ _ htask'
  case granted htask' =>
    cases htask.symm.trans htask'
    simp [State.finish, State.setGame, State.modify, Task.Kicks]
  case kicked htask' =>
    cases htask.symm.trans htask'
    cases hcalling
    simp [State.finish, State.removePlayer, Task.Kicks]

/-- After a failed call a later login succeeds exactly when no record of the player is left.
Right after the failure that is so when there was none before it, or when the failed call was
the kick of a `reqkick` and did not raise. -/
theorem readmits_after_failure {caller : Caller} {p : Num} {node : Node} {gate : Addr}
    {ls ls' : List (Label Num Node Addr Caller)} {u v : State Num Node Addr Caller} {h : Handler}
    {t : Task Num Node Addr Caller} {reply : Reply Addr} {outs : List (Out Num Node Addr Caller)}
    (hrun : Run Step init ls m) (htask : m.tasks h = some t) (hcalling : t.calling = some p)
    (hstep : Step m (.answer h reply, outs) u) (hlater : Run Step u ls' v) :
    u.tasks h = none ∧ (Readmits v caller p node gate ↔ v.players.lookup p = none) ∧
      (Readmits u caller p node gate ↔
        m.players.lookup p = none ∨ t.Kicks ∧ reply ≠ .raised) := by
  have hl := Locks.run hrun
  have hlater := Locks.run (Run.append (Run.snoc hrun hstep) hlater)
  refine ⟨answer_ends hl hstep, readmits_iff hlater, ?_⟩
  rw [readmits_iff (hl.step hstep), lookup_failed hl htask hcalling hstep]

/-- A player in the game is kicked, and his agent raises. -/
def failedKick : List (Event ℕ ℕ ℕ ℕ) :=
  [.reqlogin 0 (some 7) 1 10, .answer 0 (.returned (some 100)), .reqkick 3 7 []]

theorem task_failedKick :
    (exec next (init : State ℕ ℕ ℕ ℕ) failedKick).tasks 1 =
      some (.kickAgent (some 3) 7 0 1 (some 100) 10) :=
  rfl

theorem readmits_after_failed_kick :
    let m := exec next (init : State ℕ ℕ ℕ ℕ) failedKick
    let u := (next m (.answer 1 .raised)).1
    u.tasks 1 = none ∧ (Readmits u 0 7 1 10 ↔ u.players.lookup 7 = none) ∧
      (Readmits u 0 7 1 10 ↔ m.players.lookup 7 = none ∨
        (Task.kickAgent (some 3) 7 0 1 (some 100) 10 : Task ℕ ℕ ℕ ℕ).Kicks ∧
          (.raised : Reply ℕ) ≠ .raised) :=
  readmits_after_failure (run_exec failedKick (by decide)) task_failedKick rfl
    ⟨⟨_, task_failedKick, nofun⟩, rfl⟩ Run.nil

/-- His record stays marked, and no handler is left that works for him. -/
theorem locked_out :
    let m := exec next (init : State ℕ ℕ ℕ ℕ) failedKick
    let u := (next m (.answer 1 .raised)).1
    Run Step init (trace next init (failedKick ++ [.answer 1 .raised])) u ∧
      (.raised : Reply ℕ).Failed ∧ Idle u 7 ∧ ¬ Readmits u 0 7 1 10 := by
  have hrun : Run Step (init : State ℕ ℕ ℕ ℕ)
      (trace next init (failedKick ++ [.answer 1 .raised]))
      (exec next init (failedKick ++ [.answer 1 .raised])) :=
    run_exec (failedKick ++ [.answer 1 .raised]) (by decide)
  refine ⟨hrun, Or.inl rfl, fun j t ht => ?_, fun h => ?_⟩
  · match j with
    | 0 => cases ht
    | 1 => cases ht
    | j + 2 => cases ht
  · have habsent := lookup_none_of_readmits (Locks.run hrun) h
    exact absurd habsent (by decide)

end Ue4Background.AgentMgr
