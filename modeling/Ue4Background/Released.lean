import Ue4Background.Issuing

/-!
How agents go. The agent manager sends `exit` only to an agent that it has kicked before,
and an agent of a player who is not in `players` has been sent `exit`. In the composed
system, as long as no call fails, the agent manager makes a run of its own, and what it
sends in it joins the wire.
-/

namespace Ue4Background

open LuaValues Transition

namespace AgentMgr.World

variable {Num Node Addr Caller : Type} [DecidableEq Num]

/-- The kick of the agent was sent. -/
def Kicked (ls : List (Label Num Node Addr Caller)) (node : Node) (agent : Option Addr) : Prop :=
  ∃ l ∈ ls, ∃ h, .callKick h node agent ∈ l.2

omit [DecidableEq Num] in
theorem Kicked.append {ls : List (Label Num Node Addr Caller)} {node : Node}
    {agent : Option Addr} (h : Kicked ls node agent) (l : Label Num Node Addr Caller) :
    Kicked (ls ++ [l]) node agent := by
  obtain ⟨l', hl', hkick⟩ := h
  exact ⟨l', List.mem_append_left _ hl', hkick⟩

/-- A handler that waits for the kick of an agent has sent it. -/
def Waits (ls : List (Label Num Node Addr Caller)) (m : State Num Node Addr Caller) : Prop :=
  ∀ h caller p r node agent gate, m.tasks h = some (.kickAgent caller p r node agent gate) →
    Kicked ls node agent

/-- A handler begins to wait for the kick of an agent when it sends it. -/
theorem kickAgent_step {m m' : State Num Node Addr Caller} {l : AgentMgr.Label Num Node Addr Caller}
    (hl : Locks m) (hstep : AgentMgr.Step m l m') {k : Handler} {caller : Option Caller} {p : Num}
    {r : Ref} {node : Node} {agent : Option Addr} {gate : Addr}
    (ht : m'.tasks k = some (.kickAgent caller p r node agent gate)) :
    m.tasks k = some (.kickAgent caller p r node agent gate) ∨ .callKick k node agent ∈ l.2 := by
  have hsame := tasks_step hl hstep ht
  have hchange := step_change hstep
  obtain ⟨ev, outs⟩ := l
  dsimp only at hchange hsame ⊢
  cases hchange
  case displacing => exact hsame.imp_right nofun
  case registered => exact hsame.imp_right nofun
  case shutdown => exact hsame.imp_right nofun
  case kicking c q reason s mp _ =>
    rcases tasks_suspend (m := m.start.setLogout s) ht with hold | ⟨rfl, heq⟩
    · exact Or.inl hold
    · cases heq
      exact Or.inr (List.mem_singleton.mpr rfl)
  case forkKicking j q s mp _ _ =>
    rcases tasks_suspend (m := (m.finish j).setLogout s) ht with hold | ⟨rfl, heq⟩
    · exact Or.inl (tasks_finish (m := m) hold).2
    · cases heq
      exact Or.inr (List.mem_singleton.mpr rfl)
  case forkNotKicked => exact Or.inl (tasks_finish ht).2
  case drained => exact Or.inl (tasks_finish ht).2
  case fault => exact Or.inl (tasks_finish ht).2
  case oldKicked htask => cases hl.holds _ _ htask
  case gateKicked htask => cases hl.holds _ _ htask
  case granted value _ _ _ s _ => exact Or.inl (tasks_finish (m := m.setGame s value) ht).2
  case kicked q _ _ _ _ _ => exact Or.inl (tasks_finish (m := m.removePlayer q) ht).2
  all_goals exact Or.inl ht

theorem waits_step {ls : List (Label Num Node Addr Caller)} {w w' : World Num Node Addr Caller}
    {l : Label Num Node Addr Caller} (hl : Locks w.mgr) (h : Waits ls w.mgr)
    (hstep : Step w l w') : Waits (ls ++ [l]) w'.mgr := by
  intro k caller p r node agent gate htask
  rcases step_cases hstep with ⟨ev, m, _, hmgr, _, rfl⟩ | ⟨_, _, _, _, _, _, _, rfl⟩
  · rcases kickAgent_step hl hmgr htask with hold | hsent
    · exact (h k caller p r node agent gate hold).append l
    · exact ⟨l, by simp, k, hsent⟩
  · exact (h k caller p r node agent gate htask).append l

/-- Only a handler that has waited for the kick of an agent sends it `exit`. -/
theorem exit_step {m m' : State Num Node Addr Caller} {l : AgentMgr.Label Num Node Addr Caller}
    (hl : Locks m) (hstep : AgentMgr.Step m l m') {node : Node} {agent : Option Addr}
    (hexit : .sendExit node agent ∈ l.2) :
    ∃ h caller p r gate, m.tasks h = some (.kickAgent caller p r node agent gate) := by
  have hchange := step_change hstep
  obtain ⟨ev, outs⟩ := l
  dsimp only at hchange hexit
  cases hchange
  case oldKicked htask => cases hl.holds _ _ htask
  case kicked h value caller p r pnode agent' pgate htask =>
    rcases List.mem_append.mp hexit with hsent | hsent
    · simp only [List.mem_cons, Out.sendExit.injEq, reduceCtorEq, List.not_mem_nil,
        or_false] at hsent
      obtain ⟨rfl, rfl⟩ := hsent
      exact ⟨h, caller, p, r, pgate, htask⟩
    · obtain ⟨_, _, heq⟩ := List.mem_map.mp hsent
      cases heq
  case fault h t _ _ =>
    cases t with
    | kickAgent caller => cases caller <;> simp [fault, reply] at hexit
    | _ => simp [fault] at hexit
  all_goals simp at hexit

/-- Whoever is sent `exit` was kicked before. -/
structure Parting (ls : List (Label Num Node Addr Caller)) (w : World Num Node Addr Caller) :
    Prop where
  locks : Locks w.mgr
  waits : Waits ls w.mgr
  kicked : ∀ l ∈ ls, ∀ node agent, .sendExit node agent ∈ l.2 → Kicked ls node agent

theorem Parting.step {ls : List (Label Num Node Addr Caller)} {w w' : World Num Node Addr Caller}
    {l : Label Num Node Addr Caller} (h : Parting ls w) (hstep : Step w l w') :
    Parting (ls ++ [l]) w' := by
  refine ⟨?_, waits_step h.locks h.waits hstep, fun l' hl' node agent hexit => ?_⟩
  · rcases step_cases hstep with ⟨ev, m, _, hmgr, _, rfl⟩ | ⟨_, _, _, _, _, _, _, rfl⟩
    · exact h.locks.step hmgr
    · exact h.locks
  · rcases List.mem_append.mp hl' with hold | hnew
    · exact (h.kicked l' hold node agent hexit).append l
    · rw [List.mem_singleton.mp hnew] at hexit
      rcases step_cases hstep with ⟨ev, m, _, hmgr, _, rfl⟩ | ⟨_, _, _, _, rfl, _⟩
      · obtain ⟨k, caller, p, r, gate, htask⟩ := exit_step h.locks hmgr hexit
        exact (h.waits k caller p r node agent gate htask).append l
      · cases hexit

theorem Parting.run {ls : List (Label Num Node Addr Caller)} {w : World Num Node Addr Caller}
    (hrun : Run Step init ls w) : Parting ls w := by
  have hinit : Parting [] (init : World Num Node Addr Caller) :=
    ⟨Locks.init, (fun _ _ _ _ _ _ _ htask => by cases htask), nofun⟩
  have h : Parting ([] ++ ls) w :=
    Run.invariant_history (I := Parting) (fun _ _ _ _ hu hstep => hu.step hstep) hinit hrun
  exact h

/-- An agent of a player who is not in `players` has been kicked and told to exit. -/
theorem released {ls : List (Label Num Node Addr Caller)} {w : World Num Node Addr Caller}
    (hrun : Run Step init ls w) {ag : Agent Num Node Addr} (hag : ag ∈ w.agents)
    (hgone : w.mgr.players.lookup ag.playerid = none) :
    Kicked ls ag.node (some ag.addr) ∧ ∃ l ∈ ls, .sendExit ag.node (some ag.addr) ∈ l.2 := by
  have hexit : ∃ l ∈ ls, Out.sendExit ag.node (some ag.addr) ∈ l.2 := by
    by_contra hno
    push Not at hno
    exact (Tended.run hrun).absent ag.playerid ag hgone ⟨hag, rfl, hno⟩
  obtain ⟨l, hl, hsent⟩ := hexit
  exact ⟨(Parting.run hrun).kicked l hl _ _ hsent, l, hl, hsent⟩

end AgentMgr.World

namespace System

open AgentMgr (Handler)

variable {Num Node Addr : Type} [DecidableEq Num]

/-- `newservice` answers the agent that it has created. -/
theorem Issues.truthful {w : World Num Node Addr} (h : Issues w) {e : Event Num Node Addr}
    {ev : AgentMgr.Event Num Node Addr (Caller Node Addr)} (hinput : MgrInput w e ev) :
    w.manager.Truthful ev := by
  cases hinput
  case launched node k value t htaken htask hcall =>
    cases t with
    | newservice caller p home r =>
      obtain ⟨addr, rfl, hspawned⟩ :=
        h.launched_spawned (MgrInput.launched node k value _ htaken htask hcall) htask
      exact fun _ => hspawned
    | _ => cases hcall
  all_goals trivial

/-- What the agent manager sends in a step of its own. -/
def mgrSent (ms : List (AgentMgr.World.Label Num Node Addr (Caller Node Addr))) :
    List (Packet Num Node Addr) :=
  ms.flatMap fun l => l.2.flatMap mgrPackets

/-- The calls and agents of the system are in order, and the agent manager has come to its
state by itself; what it sent on the way is among `sent`. -/
structure Managed (sent : List (Packet Num Node Addr)) (w : World Num Node Addr) : Prop where
  calls : Calls w
  issues : Issues w
  run : ∃ ms, Run AgentMgr.World.Step AgentMgr.World.init ms w.manager ∧ mgrSent ms ⊆ sent

namespace Managed

variable [LuaNumber Num] {sent : List (Packet Num Node Addr)} {w : World Num Node Addr}

theorem init : Managed [] (init : World Num Node Addr) where
  calls := Calls.init
  issues := Issues.init
  run := ⟨[], Run.nil, fun _ hq => hq⟩

variable [DecidableEq Node] [DecidableEq Addr]

theorem step {users : List (Num × Bytes)} {w' : World Num Node Addr} {l : Label Num Node Addr}
    (h : Managed sent w) (hstep : Step users w l w') (hreliable : Reliable w l) :
    Managed (sent ++ l.2) w' := by
  refine ⟨h.calls.step hstep hreliable, h.issues.step h.calls hstep hreliable, ?_⟩
  obtain ⟨ms, hrun, hsent⟩ := h.run
  have hold : mgrSent ms ⊆ sent ++ l.2 := fun q hq => List.mem_append_left _ (hsent hq)
  have hsame : w'.manager = w.manager → ∃ ms, Run AgentMgr.World.Step AgentMgr.World.init ms
      w'.manager ∧ mgrSent ms ⊆ sent ++ l.2 := by
    intro hmanager
    rw [hmanager]
    exact ⟨ms, hrun, hold⟩
  have hchange := step_change hstep
  obtain ⟨e, pkts⟩ := l
  dsimp only at hchange hold hsame ⊢
  cases hchange
  case gate hmanager _ => exact hsame hmanager
  case started hmanager _ _ => exact hsame hmanager
  case login hmanager _ => exact hsame hmanager
  case failed hmanager _ => exact hsame hmanager
  case quiet hmanager _ _ => exact hsame hmanager
  case mgr ev hinput henabled _ _ hmanager _ =>
    refine ⟨ms ++ [(.mgr ev, (AgentMgr.next w.manager.mgr ev).2)], Run.snoc hrun ?_, ?_⟩
    · exact ⟨⟨henabled, h.issues.truthful hinput⟩, by rw [hmanager]; rfl⟩
    · simp only [mgrSent, List.flatMap_append, List.flatMap_singleton]
      exact List.append_subset.mpr ⟨hold, fun q hq => List.mem_append_right _ hq⟩
  case spawn i node k addr _ henabled _ _ hmanager _ =>
    have ⟨_, ⟨p, home⟩, hk, _⟩ := henabled
    rw [Option.mem_def] at hk
    refine ⟨ms ++ [(.spawn k addr, [])], Run.snoc hrun ⟨henabled, ?_⟩, ?_⟩
    · simp only [hmanager, AgentMgr.World.next, hk]
    · simpa only [mgrSent, List.flatMap_append, List.flatMap_singleton, List.flatMap_nil,
        List.append_nil] using hold

end Managed

end System

end Ue4Background
