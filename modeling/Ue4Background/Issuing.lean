import Ue4Background.Calls
import Ue4Background.SessionBinding

/-!
Where the address of an agent may turn up. `nodemgr` creates it for one handler of the
agent manager, and until that handler goes on nobody else has it. A gateway, a `sure_agent`
or an answer that names an agent names one whose handler has gone on.
-/

namespace Ue4Background

open LuaValues Transition

namespace Gateway

variable {Num Addr : Type} {g : State Num Addr}

/-- The agent that the gateway has for `p`, if `p` is in its table. -/
def agentOf (g : State Num Addr) (p : Num) : Option (Option Addr) :=
  (g.players p).map fun r => (g.playerHeap r).agent

theorem agentOf_setConn (r : PlayerRef) (conn : Option ConnRef) :
    agentOf (g.setConn r conn) = agentOf g := by
  funext p
  exact congrArg (fun f => (g.players p).map f) (funext (field_kept GatePlayer.agent (by rfl)))

theorem agentOf_setCache (r : PlayerRef) (cache : List (Msg Num)) :
    agentOf (g.setCache r cache) = agentOf g := by
  funext p
  exact congrArg (fun f => (g.players p).map f) (funext (field_kept GatePlayer.agent (by rfl)))

variable [DecidableEq Num]

theorem agentOf_addPlayer (h : Shape g) (p : Num) (gplayer : GatePlayer Num Addr) :
    agentOf (g.addPlayer p gplayer) = Function.update (agentOf g) p (some gplayer.agent) := by
  funext q
  by_cases hq : q = p
  · subst hq
    simp [agentOf, State.addPlayer]
  · rw [Function.update_of_ne hq]
    have hplayers : (g.addPlayer p gplayer).players q = g.players q := by
      simp [State.addPlayer, hq]
    simp only [agentOf, hplayers]
    cases hr : g.players q with
    | none => rfl
    | some r =>
      have hne : r ≠ g.playerCount := Nat.ne_of_lt (h.player_lt q r hr)
      simp [State.addPlayer, hne]

theorem agentOf_removePlayer (p : Num) :
    agentOf (g.removePlayer p) = Function.update (agentOf g) p none := by
  funext q
  by_cases hq : q = p
  · subst hq
    simp [agentOf, State.removePlayer]
  · simp [agentOf, State.removePlayer, hq]

variable [LuaNumber Num]

/-- What a step does to the agents of a gateway. -/
inductive Assigns (g g' : State Num Addr) : Event Num Addr → List (Out Num Addr) → Prop
  | bound (fd : Fd) (p : Num) (agent : Option Addr) (key : Num) (c : ConnRef)
      (outs : List (Out Num Addr)) (hconn : g.conns fd = some c)
      (hagents : agentOf g' = Function.update (agentOf g) p (some agent)) :
      Assigns g g' (.sureAgent fd p agent key) outs
  | offline (fd : Fd) (p : Num) (agent : Option Addr) (key : Num) (hconn : g.conns fd = none)
      (hagents : agentOf g' = agentOf g) :
      Assigns g g' (.sureAgent fd p agent key) [.reqkick p offlineReason .offline]
  | kicked (p : Num) (outs : List (Out Num Addr))
      (hagents : agentOf g' = Function.update (agentOf g) p none) : Assigns g g' (.kick p) outs
  | same (ev : Event Num Addr) (outs : List (Out Num Addr)) (hagents : agentOf g' = agentOf g)
      (hsure : ∀ fd p agent key, ev ≠ .sureAgent fd p agent key) (hkick : ∀ p, ev ≠ .kick p) :
      Assigns g g' ev outs

theorem assigns_step {g' : State Num Addr} {l : Label Num Addr} (h : Shape g)
    (hstep : Step g l g') : Assigns g g' l.1 l.2 := by
  have hchange := step_change hstep
  obtain ⟨ev, outs⟩ := l
  dsimp only at hchange
  cases hchange
  case rebound p r c _ _ =>
    refine Assigns.same _ _ ?_ (by simp) (by simp)
    rw [agentOf_setCache]
    exact agentOf_setConn r (some c)
  case reboundFault p r c _ _ =>
    exact Assigns.same _ _ (agentOf_setConn r (some c)) (by simp) (by simp)
  case broken r _ _ _ => exact Assigns.same _ _ (agentOf_setConn r none) (by simp) (by simp)
  case cached => exact Assigns.same _ _ (agentOf_setCache _ _) (by simp) (by simp)
  case offline fd p agent key hconn => exact Assigns.offline fd p agent key hconn rfl
  case bound fd p agent key c hconn =>
    exact Assigns.bound fd p agent key c _ hconn (agentOf_addPlayer h.setPlayerid p _)
  case notKicked p hplayer =>
    refine Assigns.kicked p _ ?_
    rw [Function.update_eq_self_iff.mpr]
    simp [agentOf, hplayer]
  case kickedLost p r _ _ => exact Assigns.kicked p _ (agentOf_removePlayer p)
  case kicked p r c _ _ => exact Assigns.kicked p _ (agentOf_removePlayer p)
  all_goals exact Assigns.same _ _ rfl (by simp) (by simp)

end Gateway

namespace System

open AgentMgr (Handler held spawning spawning_eq_some)
open Gateway (Shape agentOf)

variable {Num Node Addr : Type}

/-- An agent that `nodemgr` has created, and that no handler still waits for. -/
def Issued (w : World Num Node Addr) (node : Node) (agent : Option Addr) : Prop :=
  ∃ addr, agent = some addr ∧ (∃ p, ⟨node, addr, p⟩ ∈ w.manager.agents) ∧
    ∀ h p, spawning w.manager.mgr h = some (p, node) → w.manager.spawned h ≠ some addr

/-- The agents that a packet names may be named. -/
def Vouched (w : World Num Node Addr) : Packet Num Node Addr → Prop
  | .launched _ h value => ∃ addr, value = some addr ∧ w.manager.spawned h = some addr
  | .sureAgent _ g _ _ agent => Issued w g.node agent
  | .answered c (.granted agent) => Issued w c.login.node agent
  | _ => True

/-- What holds of the addresses of agents. -/
structure Issues [DecidableEq Num] (w : World Num Node Addr) : Prop where
  shape : ∀ g, Shape (w.gates g)
  spawn_lt : ∀ h addr, w.manager.spawned h = some addr → h < w.manager.mgr.taskCount
  known : ∀ h p node addr, spawning w.manager.mgr h = some (p, node) →
    w.manager.spawned h = some addr → ⟨node, addr, p⟩ ∈ w.manager.agents
  apart : ∀ h h' p p' node addr, spawning w.manager.mgr h = some (p, node) →
    spawning w.manager.mgr h' = some (p', node) → w.manager.spawned h = some addr →
      w.manager.spawned h' = some addr → h = h'
  packets : ∀ q ∈ w.wire, Vouched w q
  bound : ∀ g p agent, agentOf (w.gates g) p = some agent → Issued w g.node agent
  recorded : ∀ p mp, held w.manager.mgr p = some mp → mp.status ≠ .login →
    Issued w mp.node mp.agent

variable {w w' : World Num Node Addr}

theorem Issued.of_spawning {node : Node} {agent : Option Addr} (h : Issued w node agent)
    (hagents : w.manager.agents ⊆ w'.manager.agents)
    (hspawning : ∀ k p addr, ⟨node, addr, p⟩ ∈ w.manager.agents →
      ∀ q, spawning w'.manager.mgr k = some (q, node) → w'.manager.spawned k = some addr →
        spawning w.manager.mgr k = some (q, node) ∧ w.manager.spawned k = some addr) :
    Issued w' node agent := by
  obtain ⟨addr, rfl, ⟨p, hknown⟩, hnot⟩ := h
  refine ⟨addr, rfl, ⟨p, hagents hknown⟩, fun k q hk hspawned => ?_⟩
  obtain ⟨hold, hspawned'⟩ := hspawning k p addr hknown q hk hspawned
  exact hnot k q hold hspawned'

theorem Vouched.of_issued {q : Packet Num Node Addr} (h : Vouched w q)
    (hissued : ∀ node agent, Issued w node agent → Issued w' node agent)
    (hspawned : ∀ k addr, w.manager.spawned k = some addr → w'.manager.spawned k = some addr) :
    Vouched w' q := by
  cases q with
  | launched node k value =>
    obtain ⟨addr, hvalue, hk⟩ := h
    exact ⟨addr, hvalue, hspawned k addr hk⟩
  | sureAgent c g fd p agent => exact hissued _ _ h
  | answered c answer =>
    cases answer with
    | granted agent => exact hissued _ _ h
    | _ => trivial
  | _ => trivial

/-- The packets of a gateway name no agent. -/
theorem vouched_gate {g : Site Node Addr} {session : ℕ} {back : Option (LoginCall Node)}
    {outs : List (Gateway.Out Num Addr)} {q : Packet Num Node Addr}
    (hq : q ∈ outs.flatMap (gatePackets g session back)) : Vouched w q := by
  have hsender := sender_gate hq
  cases q with
  | answered => cases hsender
  | sureAgent => cases hsender
  | launched => cases hsender
  | _ => trivial

namespace Issues

variable [DecidableEq Num] {e : Event Num Node Addr} {pkts : List (Packet Num Node Addr)}

/-- A step that leaves the agent manager and `nodemgr` alone. -/
theorem still (h : Issues w) (hmanager : w'.manager = w.manager)
    (hshape : ∀ g, Shape (w'.gates g)) (hposts : Posts w e pkts w')
    (hpkts : ∀ q ∈ pkts, Vouched w q)
    (hbound : ∀ g p agent, agentOf (w'.gates g) p = some agent →
      agentOf (w.gates g) p = some agent ∨ Issued w g.node agent) : Issues w' := by
  have hissued : ∀ node agent, Issued w node agent → Issued w' node agent := by
    rintro node agent hold
    unfold Issued at hold ⊢
    rwa [hmanager]
  have hspawned : ∀ k addr, w.manager.spawned k = some addr → w'.manager.spawned k = some addr := by
    intro k addr hk
    rwa [hmanager]
  refine ⟨hshape, ?_, ?_, ?_, ?_, ?_, ?_⟩
  · rw [hmanager]
    exact h.spawn_lt
  · rw [hmanager]
    exact h.known
  · rw [hmanager]
    exact h.apart
  · intro q hq
    rw [hposts.wire] at hq
    rcases List.mem_append.mp hq with hold | hnew
    · exact (h.packets q (left_subset e hold)).of_issued hissued hspawned
    · exact (hpkts q hnew).of_issued hissued hspawned
  · intro g p agent hagent
    rcases hbound g p agent hagent with hold | hold
    · exact hissued _ _ (h.bound g p agent hold)
    · exact hissued _ _ hold
  · intro p mp hheld hstatus
    rw [hmanager] at hheld
    exact hissued _ _ (h.recorded p mp hheld hstatus)

/-- What `newservice` answers is the agent that it has created for the handler. -/
theorem launched_spawned (h : Issues w) {k : Handler} {value : Option Addr}
    {caller : Caller Node Addr} {p : Num} {node : Node} {r : AgentMgr.Ref}
    (hinput : MgrInput w e (.answer k (.returned value)))
    (htask : w.manager.mgr.tasks k = some (.newservice caller p node r)) :
    ∃ addr, value = some addr ∧ w.manager.spawned k = some addr := by
  cases hinput with
  | kicked g _ t htaken ht hcall =>
    rw [htask, Option.some.injEq] at ht
    rw [← ht] at hcall
    cases hcall
  | agentKicked a _ t htaken ht hcall =>
    rw [htask, Option.some.injEq] at ht
    rw [← ht] at hcall
    cases hcall
  | launched node' _ _ t htaken ht hcall => exact h.packets _ (mem_wire.mpr (Or.inl htaken))

/-- The agent that reaches its handler has not been issued before. -/
theorem launched_fresh (h : Issues w) {k : Handler} {value : Option Addr}
    {caller : Caller Node Addr} {p : Num} {node : Node} {r : AgentMgr.Ref}
    (hinput : MgrInput w e (.answer k (.returned value)))
    (htask : w.manager.mgr.tasks k = some (.newservice caller p node r)) :
    ¬ Issued w node value := by
  obtain ⟨addr, rfl, hspawned⟩ := h.launched_spawned hinput htask
  rintro ⟨addr', heq, _, hnot⟩
  cases heq
  exact hnot k p (by simp only [spawning, htask]) hspawned

/-- A handler that has its agent leaves it to the record and to the answer. -/
theorem launched (h : Issues w) {k : Handler} {value : Option Addr} {caller : Caller Node Addr}
    {p : Num} {node : Node} {r : AgentMgr.Ref} (hinput : MgrInput w e (.answer k (.returned value)))
    (htask : w.manager.mgr.tasks k = some (.newservice caller p node r))
    (hended : w'.manager.mgr.tasks k = none) (hagents : w'.manager.agents = w.manager.agents)
    (hspawning : ∀ k' call addr, spawning w'.manager.mgr k' = some call →
      w'.manager.spawned k' = some addr →
        spawning w.manager.mgr k' = some call ∧ w.manager.spawned k' = some addr) :
    Issued w' node value := by
  obtain ⟨addr, rfl, hspawned⟩ := h.launched_spawned hinput htask
  have hk : spawning w.manager.mgr k = some (p, node) := by simp only [spawning, htask]
  refine ⟨addr, rfl, ⟨p, by rw [hagents]; exact h.known k p node addr hk hspawned⟩, ?_⟩
  intro k' q hk' hspawned'
  obtain ⟨hold, hold'⟩ := hspawning k' _ addr hk' hspawned'
  have hkk : k' = k := h.apart k' k q p node addr hold hk hold' hspawned
  rw [hkk] at hk'
  simp [spawning, hended] at hk'

/-- A step of the agent manager. -/
theorem mgr (h : Issues w) (hc : Calls w)
    {ev : AgentMgr.Event Num Node Addr (Caller Node Addr)}
    {outs : List (AgentMgr.Out Num Node Addr (Caller Node Addr))} (hinput : MgrInput w e ev)
    (hstep : AgentMgr.Step w.manager.mgr (ev, outs) w'.manager.mgr)
    (hagents : w'.manager.agents = w.manager.agents)
    (hspawned : w'.manager.spawned = w.manager.spawned) (hgates : w'.gates = w.gates)
    (hposts : Posts w e (outs.flatMap mgrPackets) w') : Issues w' := by
  have hspawning : ∀ k call addr, spawning w'.manager.mgr k = some call →
      w'.manager.spawned k = some addr →
        spawning w.manager.mgr k = some call ∧ w.manager.spawned k = some addr := by
    intro k call addr hk hs
    rw [hspawned] at hs
    refine ⟨?_, hs⟩
    obtain ⟨p, node⟩ := call
    obtain ⟨caller, r, htask⟩ := spawning_eq_some hk
    rcases AgentMgr.spawning_step hc.locks hstep htask with hold | rfl
    · simp only [spawning, hold]
    · exact absurd (h.spawn_lt _ addr hs) (Nat.lt_irrefl _)
  have hissued : ∀ node agent, Issued w node agent → Issued w' node agent := fun node agent hold =>
    hold.of_spawning (by rw [hagents]; exact fun _ ha => ha) fun k _ addr _ _ => hspawning k _ addr
  refine ⟨?_, ?_, ?_, ?_, ?_, ?_, ?_⟩
  · rw [hgates]
    exact h.shape
  · intro k addr hs
    rw [hspawned] at hs
    exact Nat.lt_of_lt_of_le (h.spawn_lt k addr hs) (AgentMgr.taskCount_step hstep)
  · intro k p node addr hk hs
    rw [hagents]
    obtain ⟨hold, hold'⟩ := hspawning k _ addr hk hs
    exact h.known k p node addr hold hold'
  · intro k k' p p' node addr hk hk' hs hs'
    obtain ⟨hold, holds⟩ := hspawning k _ addr hk hs
    obtain ⟨hold', holds'⟩ := hspawning k' _ addr hk' hs'
    exact h.apart k k' p p' node addr hold hold' holds holds'
  · intro q hq
    rw [hposts.wire] at hq
    rcases List.mem_append.mp hq with hold | hnew
    · exact (h.packets q (left_subset e hold)).of_issued hissued (by rw [hspawned]; simp)
    · cases q with
      | answered c answer =>
        cases answer with
        | granted agent =>
          obtain ⟨k, p, node, r, hev, htask, hended⟩ :=
            AgentMgr.granted_step hstep (answered_sent hnew)
          dsimp only at hev
          subst hev
          obtain ⟨d, gate, hd, hnode, _, _⟩ := hc.spawning k _ p node r htask
          cases hd
          have hissue := h.launched hinput htask hended hagents hspawning
          rwa [← hnode] at hissue
        | _ => trivial
      | launched => cases sender_mgr hnew
      | sureAgent => cases sender_mgr hnew
      | _ => trivial
  · rw [hgates]
    exact fun g p agent hagent => hissued _ _ (h.bound g p agent hagent)
  · intro p mp hheld hstatus
    have hold : held w.manager.mgr p = some mp → Issued w' mp.node mp.agent := fun hmp =>
      hissued _ _ (h.recorded p mp hmp hstatus)
    have hmoved := AgentMgr.moved_step hc.locks hstep
    dsimp only at hmoved
    cases hmoved with
    | same _ _ hsame _ _ => exact hold (by rw [← hheld, hsame])
    | registered caller q node gate hnone hupdate =>
      rw [hupdate] at hheld
      rcases entry_assigned hheld with ⟨_, rfl⟩ | ⟨_, hwas⟩
      · exact absurd rfl hstatus
      · exact hold hwas
    | marked _ k q mp' hq hgame hupdate _ _ =>
      rw [hupdate] at hheld
      rcases entry_assigned hheld with ⟨_, rfl⟩ | ⟨_, hwas⟩
      · exact hissued _ _ (h.recorded q mp' hq (by simp [hgame]))
      · exact hold hwas
    | granted k value caller q node gate r htask hq hended hupdate =>
      rw [hupdate] at hheld
      rcases entry_assigned hheld with ⟨_, rfl⟩ | ⟨_, hwas⟩
      · exact h.launched hinput htask hended hagents hspawning
      · exact hold hwas
    | removed k value caller q pnode agent pgate hq hupdate =>
      rw [hupdate] at hheld
      exact hold (entry_erased hheld).2

/-- `nodemgr` creates an agent, at an address that its node has not used. -/
theorem spawn (h : Issues w) (hc : Calls w) {node : Node} {k : Handler} {addr : Addr}
    (henabled : AgentMgr.World.Enabled w.manager (.spawn k addr))
    (hmanager : w'.manager = (AgentMgr.World.next w.manager (.spawn k addr)).1)
    (hgates : w'.gates = w.gates) (hposts : Posts w e [.launched node k (some addr)] w') :
    Issues w' := by
  obtain ⟨hnone, ⟨p, home⟩, hk, hfresh⟩ := henabled
  rw [Option.mem_def] at hk
  have hmgr : w'.manager.mgr = w.manager.mgr := by rw [hmanager, AgentMgr.World.spawn_mgr]
  have hagents : w'.manager.agents = w.manager.agents ++ [⟨home, addr, p⟩] := by
    simp only [hmanager, AgentMgr.World.next, hk]
  have hspawned : w'.manager.spawned = Function.update w.manager.spawned k (some addr) := by
    simp only [hmanager, AgentMgr.World.next, hk]
  have hlt : k < w.manager.mgr.taskCount := by
    obtain ⟨caller, r, htask⟩ := spawning_eq_some hk
    exact hc.locks.task_lt k _ htask
  have hkeep : ∀ k' addr', w.manager.spawned k' = some addr' →
      w'.manager.spawned k' = some addr' := by
    intro k' addr' hk'
    have hne : k' ≠ k := by
      rintro rfl
      rw [hnone] at hk'
      cases hk'
    rw [hspawned, Function.update_of_ne hne, hk']
  -- another handler cannot have the new address, for its node has used it
  have hother : ∀ k' q node' addr', spawning w.manager.mgr k' = some (q, node') →
      w'.manager.spawned k' = some addr' →
        (k' = k ∧ addr' = addr ∧ node' = home ∧ q = p) ∨
          w.manager.spawned k' = some addr' ∧ (node' = home → addr' ≠ addr) := by
    intro k' q node' addr' hk' hs
    rw [hspawned] at hs
    rcases entry_assigned hs with ⟨rfl, haddr⟩ | ⟨_, hwas⟩
    · rw [hk, Option.some.injEq, Prod.mk.injEq] at hk'
      exact Or.inl ⟨rfl, haddr, hk'.2.symm, hk'.1.symm⟩
    · exact Or.inr ⟨hwas, hfresh _ (h.known k' q node' addr' hk' hwas)⟩
  have hissued : ∀ node agent, Issued w node agent → Issued w' node agent := by
    intro node agent hold
    refine hold.of_spawning (by rw [hagents]; exact fun _ => List.mem_append_left _) ?_
    intro k' q addr' hused q' hk' hs
    rw [hmgr] at hk'
    rcases hother k' q' node addr' hk' hs with ⟨_, rfl, rfl, _⟩ | ⟨hs, _⟩
    · exact absurd rfl (hfresh _ hused rfl)
    · exact ⟨hk', hs⟩
  refine ⟨?_, ?_, ?_, ?_, ?_, ?_, ?_⟩
  · rw [hgates]
    exact h.shape
  · intro k' addr' hs
    rw [hmgr]
    rw [hspawned] at hs
    rcases entry_assigned hs with ⟨rfl, _⟩ | ⟨_, hwas⟩
    · exact hlt
    · exact h.spawn_lt k' addr' hwas
  · intro k' q node' addr' hk' hs
    rw [hmgr] at hk'
    rw [hagents]
    rcases hother k' q node' addr' hk' hs with ⟨_, rfl, rfl, rfl⟩ | ⟨hs, _⟩
    · exact List.mem_append_right _ (List.mem_singleton.mpr rfl)
    · exact List.mem_append_left _ (h.known k' q node' addr' hk' hs)
  · intro k₁ k₂ p₁ p₂ node' addr' hk₁ hk₂ hs₁ hs₂
    rw [hmgr] at hk₁ hk₂
    rcases hother k₁ p₁ node' addr' hk₁ hs₁ with ⟨rfl, rfl, rfl, _⟩ | ⟨hs₁, hne₁⟩
    · rcases hother k₂ p₂ _ _ hk₂ hs₂ with ⟨rfl, _⟩ | ⟨_, hne₂⟩
      · rfl
      · exact absurd rfl (hne₂ rfl)
    · rcases hother k₂ p₂ node' addr' hk₂ hs₂ with ⟨_, rfl, rfl, _⟩ | ⟨hs₂, _⟩
      · exact absurd rfl (hne₁ rfl)
      · exact h.apart k₁ k₂ p₁ p₂ node' addr' hk₁ hk₂ hs₁ hs₂
  · intro q hq
    rw [hposts.wire] at hq
    rcases List.mem_append.mp hq with hold | hnew
    · exact (h.packets q (left_subset e hold)).of_issued hissued hkeep
    · rw [List.mem_singleton.mp hnew]
      exact ⟨addr, rfl, by rw [hspawned, Function.update_self]⟩
  · rw [hgates]
    exact fun g q agent hagent => hissued _ _ (h.bound g q agent hagent)
  · intro q mp hheld hstatus
    rw [hmgr] at hheld
    exact hissued _ _ (h.recorded q mp hheld hstatus)

variable [LuaNumber Num] {users : List (Num × Bytes)}

theorem init : Issues (init : World Num Node Addr) where
  shape _ := Shape.init
  spawn_lt _ _ h := by cases h
  known _ _ _ _ h := by cases h
  apart _ _ _ _ _ _ h := by cases h
  packets _ h := by cases h
  bound _ _ _ h := by cases h
  recorded _ _ h := by cases h

variable [DecidableEq Node] [DecidableEq Addr]

theorem step {l : Label Num Node Addr} (h : Issues w) (hc : Calls w) (hstep : Step users w l w')
    (hreliable : Reliable w l) : Issues w' := by
  have hchange := step_change hstep
  obtain ⟨e, pkts⟩ := l
  dsimp only at hchange
  cases hchange
  case gate g ev back tail hinput henabled htail hgates _ hmanager hposts =>
    have hsite : Gateway.Step (w.gates g) (ev, (Gateway.handle (w.gates g) ev).outs)
        (w'.gates g) := ⟨henabled, by rw [hgates, Function.update_self]; rfl⟩
    have hother : ∀ k, k ≠ g → w'.gates k = w.gates k := fun k hk => by
      rw [hgates, Function.update_of_ne hk]
    refine h.still hmanager ?_ hposts ?_ ?_
    · intro k
      by_cases hk : k = g
      · subst hk
        exact (h.shape k).step hsite
      · rw [hother k hk]
        exact h.shape k
    · intro q hq
      rcases List.mem_append.mp hq with hsent | hsent
      · exact vouched_gate hsent
      · rcases htail with rfl | ⟨k, rfl⟩
        · cases hsent
        · rw [List.mem_singleton.mp hsent]
          trivial
    · intro k p agent hagent
      by_cases hk : k = g
      · subst hk
        have hassigns := Gateway.assigns_step (h.shape k) hsite
        generalize (Gateway.handle (w.gates k) ev).outs = outs at hassigns
        cases hassigns with
        | bound fd q agent' key c _ _ hagents =>
          rw [hagents] at hagent
          rcases entry_assigned hagent with ⟨_, rfl⟩ | ⟨_, hwas⟩
          · cases hinput with
            | external _ _ hext => cases hext
            | sureAgent c fd q agent' key htaken =>
              exact Or.inr (h.packets _ (mem_wire.mpr (Or.inl htaken)))
          · exact Or.inl hwas
        | offline _ _ _ _ _ hagents => exact Or.inl (by rwa [hagents] at hagent)
        | kicked q _ hagents =>
          rw [hagents] at hagent
          exact Or.inl (entry_erased hagent).2
        | same _ _ hagents _ _ => exact Or.inl (by rwa [hagents] at hagent)
      · rw [hother k hk] at hagent
        exact Or.inl hagent
  case started hgates _ hmanager _ hposts =>
    exact h.still hmanager (by rw [hgates]; exact h.shape) hposts (by simp)
      fun g p agent hagent => Or.inl (by rwa [hgates] at hagent)
  case login c t response next outs hinput htask hresume hgates hlogins hmanager hposts =>
    refine h.still hmanager (by rw [hgates]; exact h.shape) hposts ?_
      fun g p agent hagent => Or.inl (by rwa [hgates] at hagent)
    intro q hq
    have hsender := sender_login hq
    cases q with
    | answered => cases hsender
    | launched => cases hsender
    | sureAgent d g fd p agent =>
      obtain ⟨d', gate, htaken, hsession, hlookup, rfl⟩ := sureAgent_sent (step_change hstep) hq
      obtain ⟨playerid, gate', fd', hreq⟩ := hc.answered d' _ (mem_wire.mpr (Or.inl htaken))
      rw [hsession, hlookup, Option.some.injEq, Prod.mk.injEq] at hreq
      have hissued : Issued w d'.login.node agent := h.packets _ (mem_wire.mpr (Or.inl htaken))
      rwa [← hreq.1] at hissued
    | _ => trivial
  case mgr ev hinput henabled hgates hlogins hmanager hposts =>
    exact h.mgr hc hinput ⟨henabled, by rw [hmanager]⟩ (by rw [hmanager]) (by rw [hmanager]) hgates
      hposts
  case spawn i node k addr _ henabled hgates hlogins hmanager hposts =>
    exact h.spawn hc henabled hmanager hgates hposts
  case failed i _ _ he _ _ _ _ =>
    subst he
    exact hreliable.elim
  case quiet hgates _ hmanager hpkts hposts =>
    refine h.still hmanager (by rw [hgates]; exact h.shape) hposts ?_
      fun g p agent hagent => Or.inl (by rwa [hgates] at hagent)
    intro q hq
    cases hpkts q hq <;> trivial

end Issues

end System

end Ue4Background
