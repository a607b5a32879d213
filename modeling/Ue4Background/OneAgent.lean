import Ue4Background.Records

/-!
One agent per player. The world around the agent manager is `nodemgr`, which creates at
most one agent for a call of `newservice`, at an address its node has not used before; the
call then answers that agent, nothing, or a fault. An agent is live until the agent
manager has sent it `exit`.
-/

namespace Ue4Background.AgentMgr

open LuaValues Transition

variable {Num Node Addr Caller : Type}

structure Agent (Num Node Addr : Type) where
  node : Node
  addr : Addr
  playerid : Num
  deriving DecidableEq

/-- `spawned h` is the agent created for the `newservice` of the handler `h`. -/
structure World (Num Node Addr Caller : Type) where
  mgr : State Num Node Addr Caller
  agents : List (Agent Num Node Addr)
  spawned : Handler → Option Addr

/-- The player and the node of a handler that waits for a new agent. -/
def spawning (m : State Num Node Addr Caller) (h : Handler) : Option (Num × Node) :=
  match m.tasks h with
  | some (.newservice _ p node _) => some (p, node)
  | _ => none

theorem spawning_eq_some {m : State Num Node Addr Caller} {h : Handler} {p : Num} {node : Node}
    (hspawning : spawning m h = some (p, node)) :
    ∃ caller r, m.tasks h = some (.newservice caller p node r) := by
  unfold spawning at hspawning
  split at hspawning
  · rename_i caller q node' r htask
    simp only [Option.some.injEq, Prod.mk.injEq] at hspawning
    obtain ⟨rfl, rfl⟩ := hspawning
    exact ⟨caller, r, htask⟩
  · cases hspawning

/-- A task that does not wait for a new agent hides none that does. -/
theorem spawning_suspend {m : State Num Node Addr Caller} {h k : Handler}
    {t : Task Num Node Addr Caller} {call : Num × Node}
    (hspawning : spawning (m.suspend h t) k = some call)
    (ht : ∀ caller p node r, t ≠ .newservice caller p node r) : spawning m k = some call := by
  obtain ⟨p, node⟩ := call
  obtain ⟨caller, r, htask⟩ := spawning_eq_some hspawning
  rcases tasks_suspend htask with hold | ⟨_, heq⟩
  · simp only [spawning, hold]
  · exact absurd heq.symm (ht caller p node r)

theorem spawning_finish {m : State Num Node Addr Caller} {h k : Handler} {call : Num × Node}
    (hspawning : spawning (m.finish h) k = some call) : spawning m k = some call := by
  obtain ⟨p, node⟩ := call
  obtain ⟨caller, r, htask⟩ := spawning_eq_some hspawning
  simp only [spawning, (tasks_finish htask).2]

namespace World

inductive Event (Num Node Addr Caller : Type)
  | mgr (ev : AgentMgr.Event Num Node Addr Caller)
  | spawn (h : Handler) (addr : Addr)

def init : World Num Node Addr Caller := ⟨AgentMgr.init, [], fun _ => none⟩

/-- A `newservice` that returns an agent returns the one created for it. -/
def Truthful (w : World Num Node Addr Caller) : AgentMgr.Event Num Node Addr Caller → Prop
  | .answer h (.returned (some addr)) =>
    (spawning w.mgr h).isSome = true → w.spawned h = some addr
  | _ => True

abbrev Label (Num Node Addr Caller : Type) :=
  Event Num Node Addr Caller × List (Out Num Node Addr Caller)

instance Truthful.decidable [DecidableEq Addr] (w : World Num Node Addr Caller) :
    ∀ ev, Decidable (w.Truthful ev)
  | .answer h (.returned (some addr)) => inferInstanceAs
      (Decidable ((spawning w.mgr h).isSome = true → w.spawned h = some addr))
  | .answer _ (.returned none) | .answer _ .raised | .wake _ | .reqlogin _ _ _ _
  | .reqkick _ _ _ | .shutdown _ _ _ => inferInstanceAs (Decidable True)

/-- An agent of `p` to which the history `ls` has not sent `exit`. -/
def Live (ls : List (Label Num Node Addr Caller)) (w : World Num Node Addr Caller) (p : Num)
    (ag : Agent Num Node Addr) : Prop :=
  ag ∈ w.agents ∧ ag.playerid = p ∧ ∀ l ∈ ls, Out.sendExit ag.node (some ag.addr) ∉ l.2

theorem Live.of_step {ls : List (Label Num Node Addr Caller)} {w w' : World Num Node Addr Caller}
    {l : Label Num Node Addr Caller} {p : Num} {ag : Agent Num Node Addr}
    (h : Live (ls ++ [l]) w' p ag) (hagents : w'.agents = w.agents) :
    Live ls w p ag ∧ Out.sendExit ag.node (some ag.addr) ∉ l.2 := by
  obtain ⟨hmem, hid, hexit⟩ := h
  refine ⟨⟨by rwa [hagents] at hmem, hid, ?_⟩, hexit l (by simp)⟩
  intro l' hl'
  exact hexit l' (List.mem_append_left _ hl')

variable [DecidableEq Num]

def Enabled (w : World Num Node Addr Caller) : Event Num Node Addr Caller → Prop
  | .mgr ev => AgentMgr.Enabled w.mgr ev ∧ w.Truthful ev
  | .spawn h addr => w.spawned h = none ∧ ∃ call ∈ spawning w.mgr h,
      ∀ ag ∈ w.agents, ag.node = call.2 → ag.addr ≠ addr

instance Enabled.decidable [DecidableEq Node] [DecidableEq Addr] (w : World Num Node Addr Caller) :
    ∀ ev, Decidable (Enabled w ev)
  | .mgr ev => inferInstanceAs (Decidable (AgentMgr.Enabled w.mgr ev ∧ w.Truthful ev))
  | .spawn h addr => inferInstanceAs (Decidable (w.spawned h = none ∧
      ∃ call ∈ spawning w.mgr h, ∀ ag ∈ w.agents, ag.node = call.2 → ag.addr ≠ addr))

def next (w : World Num Node Addr Caller) :
    Event Num Node Addr Caller →
      World Num Node Addr Caller × List (Out Num Node Addr Caller)
  | .mgr ev => ({ w with mgr := (AgentMgr.next w.mgr ev).1 }, (AgentMgr.next w.mgr ev).2)
  | .spawn h addr =>
    match spawning w.mgr h with
    | none => (w, [])
    | some (p, node) =>
      ({ w with
          agents := w.agents ++ [⟨node, addr, p⟩]
          spawned := Function.update w.spawned h (some addr) }, [])

/-- `nodemgr` leaves the tables of the agent manager alone. -/
theorem spawn_mgr (w : World Num Node Addr Caller) (h : Handler) (addr : Addr) :
    (next w (.spawn h addr)).1.mgr = w.mgr := by
  simp only [next]
  split <;> rfl

abbrev Step : World Num Node Addr Caller → Label Num Node Addr Caller →
    World Num Node Addr Caller → Prop :=
  Fires Enabled next

/-- The `newservice` that was called for the record `r` has returned `value`. -/
def Returned (w : World Num Node Addr Caller) (r : Ref) (value : Option Addr) : Prop :=
  ∃ before u h caller p node outs v after, Run Step init before u ∧
    u.mgr.tasks h = some (.newservice caller p node r) ∧
    Step u (.mgr (.answer h (.returned value)), outs) v ∧ Run Step v after w

/-- What the marks on the records are for. -/
structure OneAgent (ls : List (Label Num Node Addr Caller)) (w : World Num Node Addr Caller) :
    Prop where
  one_live : ∀ p ag ag', Live ls w p ag → Live ls w p ag' → ag = ag'
  agent_of_game : ∀ p r mp, Stored w.mgr p r mp → mp.status = .game →
    Returned w r mp.agent ∧ ∀ value, Returned w r value → mp.agent = value
  removes_own : ∀ h caller p r pnode pagent pgate value outs w',
    w.mgr.tasks h = some (.kickAgent caller p r pnode pagent pgate) →
      Step w (.mgr (.answer h (.returned value)), outs) w' →
        Stored w.mgr p r ⟨p, pnode, pagent, .logout, pgate⟩ ∧
          w'.mgr.players.lookup p = none ∧
          ∀ q, q ≠ p → w'.mgr.players.lookup q = w.mgr.players.lookup q

/-- The live agents of each player are those its record or its handler accounts for. -/
structure Tended (ls : List (Label Num Node Addr Caller)) (w : World Num Node Addr Caller) :
    Prop where
  locks : Locks w.mgr
  spawn_lt : ∀ h addr, w.spawned h = some addr → h < w.mgr.taskCount
  absent : ∀ p ag, w.mgr.players.lookup p = none → ¬ Live ls w p ag
  recorded : ∀ p r mp addr ag, Stored w.mgr p r mp → mp.agent = some addr → Live ls w p ag →
    ag = ⟨mp.node, addr, p⟩
  spawning : ∀ h p node ag, spawning w.mgr h = some (p, node) → Live ls w p ag →
    w.spawned h = some ag.addr ∧ ag.node = node
  one_live : ∀ p ag ag', Live ls w p ag → Live ls w p ag' → ag = ag'

theorem step_cases {w w' : World Num Node Addr Caller} {l : Label Num Node Addr Caller}
    (hstep : Step w l w') :
    (∃ ev m, l.1 = .mgr ev ∧ AgentMgr.Step w.mgr (ev, l.2) m ∧ w.Truthful ev ∧
      w' = { w with mgr := m }) ∨
    (∃ h addr p node, l = (.spawn h addr, []) ∧ w.spawned h = none ∧
      AgentMgr.spawning w.mgr h = some (p, node) ∧
      w' = { w with
        agents := w.agents ++ [⟨node, addr, p⟩]
        spawned := Function.update w.spawned h (some addr) }) := by
  obtain ⟨ev, outs⟩ := l
  obtain ⟨henabled, hnext⟩ := hstep
  cases ev with
  | mgr ev =>
    simp only [next, Prod.mk.injEq] at hnext
    obtain ⟨rfl, rfl⟩ := hnext
    exact Or.inl ⟨ev, _, rfl, ⟨henabled.1, rfl⟩, henabled.2, rfl⟩
  | spawn h addr =>
    obtain ⟨hnone, ⟨p, node⟩, hspawning, _⟩ := henabled
    rw [Option.mem_def] at hspawning
    simp only [next, hspawning, Prod.mk.injEq] at hnext
    obtain ⟨rfl, rfl⟩ := hnext
    exact Or.inr ⟨h, addr, p, node, rfl, hnone, hspawning, rfl⟩

namespace Tended

theorem init : Tended [] (World.init : World Num Node Addr Caller) where
  locks := Locks.init
  spawn_lt h addr hspawned := by cases hspawned
  absent p ag _ hlive := by cases hlive.1
  recorded p r mp addr ag _ _ hlive := by cases hlive.1
  spawning h p node ag _ hlive := by cases hlive.1
  one_live p ag ag' hlive := by cases hlive.1

variable {ls : List (Label Num Node Addr Caller)} {w : World Num Node Addr Caller}

/-- A step of the agent manager that leaves the entries of `players`, the agents of the
records and the handlers that wait for an agent. -/
theorem quiet (ht : Tended ls w) {m : State Num Node Addr Caller}
    (l : Label Num Node Addr Caller) (hlocks : Locks m)
    (hcount : w.mgr.taskCount ≤ m.taskCount) (hplayers : m.players = w.mgr.players)
    (hstored : ∀ p r mp, Stored m p r mp →
      ∃ mp', Stored w.mgr p r mp' ∧ mp'.agent = mp.agent ∧ mp'.node = mp.node)
    (hspawning : ∀ h call, AgentMgr.spawning m h = some call →
      AgentMgr.spawning w.mgr h = some call) :
    Tended (ls ++ [l]) { w with mgr := m } where
  locks := hlocks
  spawn_lt h addr hspawned := Nat.lt_of_lt_of_le (ht.spawn_lt h addr hspawned) hcount
  absent p ag hnone hlive := by
    dsimp only at hnone
    rw [hplayers] at hnone
    exact ht.absent p ag hnone (hlive.of_step rfl).1
  recorded p r mp addr ag hmp hagent hlive := by
    obtain ⟨mp', hmp', hagent', hnode⟩ := hstored p r mp hmp
    rw [← hnode]
    exact ht.recorded p r mp' addr ag hmp' (hagent'.trans hagent) (hlive.of_step rfl).1
  spawning h p node ag hcall hlive :=
    ht.spawning h p node ag (hspawning h _ hcall) (hlive.of_step rfl).1
  one_live p ag ag' hlive hlive' :=
    ht.one_live p ag ag' (hlive.of_step rfl).1 (hlive'.of_step rfl).1

theorem registered (ht : Tended ls w) {caller : Caller} {p : Num} (node : Node) (gate : Addr)
    (l : Label Num Node Addr Caller) (hrecord : w.mgr.record p = none) :
    Tended (ls ++ [l])
      { w with mgr := w.mgr.start.registering w.mgr.taskCount caller p node gate } where
  locks := ht.locks.start.registering node gate (Nat.lt_succ_self _) hrecord
  spawn_lt h addr hspawned := Nat.lt_succ_of_lt (ht.spawn_lt h addr hspawned)
  absent q ag hnone hlive := by
    have hold : w.mgr.players.lookup q = none := by
      by_cases hq : q = p
      · simp [hq, State.registering, State.suspend, State.addPlayer] at hnone
      · simpa [State.registering, State.suspend, State.addPlayer, State.start,
          AList.lookup_insert_ne hq] using hnone
    exact ht.absent q ag hold (hlive.of_step rfl).1
  recorded q r mp addr ag hmp hagent hlive := by
    rcases stored_addPlayer ht.locks.start hmp with ⟨_, rfl⟩ | ⟨_, hold⟩
    · cases hagent
    · exact ht.recorded q r mp addr ag hold hagent (hlive.of_step rfl).1
  spawning h q node' ag hcall hlive := by
    obtain ⟨caller', r, htask⟩ := spawning_eq_some hcall
    rcases tasks_suspend htask with hold | ⟨_, heq⟩
    · have hcall' : AgentMgr.spawning w.mgr h = some (q, node') := by
        have hold' : w.mgr.tasks h = some (.newservice caller' q node' r) := hold
        simp only [AgentMgr.spawning, hold']
      exact ht.spawning h q node' ag hcall' (hlive.of_step rfl).1
    · simp only [Task.newservice.injEq] at heq
      rw [heq.2.1] at hlive
      exact absurd (hlive.of_step rfl).1 (ht.absent p ag (ht.locks.lookup_none hrecord))
  one_live q ag ag' hlive hlive' :=
    ht.one_live q ag ag' (hlive.of_step rfl).1 (hlive'.of_step rfl).1

theorem granted (ht : Tended ls w) {h : Handler} {value : Option Addr} {caller : Caller} {p : Num}
    {node : Node} {r : Ref} (l : Label Num Node Addr Caller)
    (htask : w.mgr.tasks h = some (.newservice caller p node r))
    (htruthful : w.Truthful (.answer h (.returned value))) :
    Tended (ls ++ [l]) { w with mgr := (w.mgr.setGame r value).finish h } where
  locks := by
    obtain ⟨gate, hlookup, _⟩ := ht.locks.holds h _ htask
    exact (ht.locks.finish h).modify hlookup (ht.locks.unmarked_finish htask rfl) fun _ => rfl
  spawn_lt := ht.spawn_lt
  absent q ag hnone hlive := ht.absent q ag hnone (hlive.of_step rfl).1
  recorded q r' mp addr ag hmp hagent hlive := by
    have hlive' := (hlive.of_step rfl).1
    obtain ⟨mp', hold, rfl | ⟨rfl, rfl⟩⟩ := stored_modify (m := w.mgr) hmp
    · exact ht.recorded q r' mp addr ag hold hagent hlive'
    · obtain ⟨gate, hmarked⟩ := ht.locks.holds h _ htask
      have hp : q = p := by
        obtain ⟨mp'', hheap, hid⟩ := ht.locks.stored q r' hold.1
        rw [← hid, Option.some.inj (hheap.symm.trans hmarked.2)]
      subst hp
      dsimp only at hagent ⊢
      subst hagent
      have hcall : AgentMgr.spawning w.mgr h = some (q, node) := by
        simp only [AgentMgr.spawning, htask]
      obtain ⟨hspawned, hnode⟩ := ht.spawning h q node ag hcall hlive'
      have haddr : w.spawned h = some addr := htruthful (by rw [hcall]; rfl)
      have hag : ag.addr = addr := Option.some.inj (hspawned.symm.trans haddr)
      rw [(hmarked.eq hold).2]
      dsimp only
      rw [← hnode, ← hag, ← hlive'.2.1]
  spawning k q node' ag hcall hlive :=
    ht.spawning k q node' ag (spawning_finish hcall) (hlive.of_step rfl).1
  one_live q ag ag' hlive hlive' :=
    ht.one_live q ag ag' (hlive.of_step rfl).1 (hlive'.of_step rfl).1

theorem kicked (ht : Tended ls w) {h : Handler} {caller : Option Caller} {p : Num} {r : Ref}
    {pnode : Node} {agent pgate : Addr} (l : Label Num Node Addr Caller)
    (htask : w.mgr.tasks h = some (.kickAgent caller p r pnode (some agent) pgate))
    (hexit : Out.sendExit pnode (some agent) ∈ l.2) :
    Tended (ls ++ [l]) { w with mgr := (w.mgr.removePlayer p).finish h } where
  locks := (ht.locks.finish h).removePlayer (ht.locks.unmarked_finish htask rfl)
  spawn_lt := ht.spawn_lt
  absent q ag hnone hlive := by
    obtain ⟨hlive', hnot⟩ := hlive.of_step rfl
    by_cases hq : q = p
    · subst hq
      have hstored : Stored w.mgr q r ⟨q, pnode, some agent, .logout, pgate⟩ :=
        ht.locks.holds h _ htask
      rw [ht.recorded q r _ agent ag hstored rfl hlive'] at hnot
      exact hnot hexit
    · refine ht.absent q ag ?_ hlive'
      simpa [State.finish, State.removePlayer, AList.lookup_erase_ne hq] using hnone
  recorded q r' mp addr ag hmp hagent hlive := by
    obtain ⟨hlookup, hheap⟩ := hmp
    by_cases hq : q = p
    · subst hq
      simp [State.finish, State.removePlayer] at hlookup
    · refine ht.recorded q r' mp addr ag ⟨?_, hheap⟩ hagent (hlive.of_step rfl).1
      simpa [State.finish, State.removePlayer, AList.lookup_erase_ne hq] using hlookup
  spawning k q node' ag hcall hlive :=
    ht.spawning k q node' ag (spawning_finish hcall) (hlive.of_step rfl).1
  one_live q ag ag' hlive hlive' :=
    ht.one_live q ag ag' (hlive.of_step rfl).1 (hlive'.of_step rfl).1

/-- `nodemgr` creates the agent of a handler that waits for one and has none yet. -/
theorem spawn (ht : Tended ls w) {h : Handler} {addr : Addr} {p : Num} {node : Node}
    (hnone : w.spawned h = none) (hcall : AgentMgr.spawning w.mgr h = some (p, node)) :
    Tended (ls ++ [(.spawn h addr, [])])
      { w with
        agents := w.agents ++ [⟨node, addr, p⟩]
        spawned := Function.update w.spawned h (some addr) } := by
  have hlive : ∀ q ag, Live (ls ++ [(.spawn h addr, [])])
      { w with
        agents := w.agents ++ [⟨node, addr, p⟩]
        spawned := Function.update w.spawned h (some addr) } q ag →
      Live ls w q ag ∨ (q = p ∧ ag = ⟨node, addr, p⟩) := by
    rintro q ag ⟨hmem, hid, hexit⟩
    rcases List.mem_append.mp hmem with hold | hnew
    · exact Or.inl ⟨hold, hid, fun l hl => hexit l (List.mem_append_left _ hl)⟩
    · have hag := List.mem_singleton.mp hnew
      subst hag
      exact Or.inr ⟨hid.symm, rfl⟩
  have hbefore : ∀ ag, ¬ Live ls w p ag := by
    intro ag hag
    have hspawned := (ht.spawning h p node ag hcall hag).1
    rw [hnone] at hspawned
    cases hspawned
  obtain ⟨caller, r, htask⟩ := spawning_eq_some hcall
  obtain ⟨gate, hstored⟩ := ht.locks.holds h _ htask
  refine ⟨ht.locks, ?_, ?_, ?_, ?_, ?_⟩
  · intro k addr' hspawned
    by_cases hk : k = h
    · rw [hk]
      exact ht.locks.task_lt h _ htask
    · exact ht.spawn_lt k addr' (by simpa [hk] using hspawned)
  · intro q ag hlookup hag
    rcases hlive q ag hag with hold | ⟨rfl, _⟩
    · exact ht.absent q ag hlookup hold
    · rw [hstored.1] at hlookup
      cases hlookup
  · intro q r' mp addr' ag hmp hagent hag
    rcases hlive q ag hag with hold | ⟨rfl, _⟩
    · exact ht.recorded q r' mp addr' ag hmp hagent hold
    · rw [(hstored.eq hmp).2] at hagent
      cases hagent
  · intro k q node' ag hcall' hag
    obtain ⟨caller', r', htask'⟩ := spawning_eq_some hcall'
    rcases hlive q ag hag with hold | ⟨rfl, rfl⟩
    · have hk : k ≠ h := by
        rintro rfl
        have hqp := congrArg Prod.fst (Option.some.inj (hcall.symm.trans hcall'))
        dsimp only at hqp
        subst hqp
        exact hbefore ag hold
      obtain ⟨hspawned, hnode⟩ := ht.spawning k q node' ag hcall' hold
      exact ⟨by simpa [hk] using hspawned, hnode⟩
    · have hk : k = h := ht.locks.unique k h _ _ q htask' htask rfl rfl
      subst hk
      have hnode := congrArg Prod.snd (Option.some.inj (hcall.symm.trans hcall'))
      exact ⟨by simp, hnode⟩
  · intro q ag ag' hag hag'
    rcases hlive q ag hag with hold | ⟨rfl, rfl⟩
    · rcases hlive q ag' hag' with hold' | ⟨rfl, _⟩
      · exact ht.one_live q ag ag' hold hold'
      · exact absurd hold (hbefore ag)
    · rcases hlive q ag' hag' with hold' | ⟨_, rfl⟩
      · exact absurd hold' (hbefore ag')
      · rfl

theorem step (ht : Tended ls w) {w' : World Num Node Addr Caller}
    {l : Label Num Node Addr Caller} (hstep : Step w l w') : Tended (ls ++ [l]) w' := by
  rcases step_cases hstep with ⟨ev, m, hl, hmgr, htruthful, rfl⟩ |
    ⟨h, addr, p, node, rfl, hnone, hcall, rfl⟩
  · have hlocks := ht.locks.step hmgr
    have hchange := step_change hmgr
    dsimp only at hchange
    have hsame : ∀ p r mp, Stored w.mgr p r mp →
        ∃ mp', Stored w.mgr p r mp' ∧ mp'.agent = mp.agent ∧ mp'.node = mp.node :=
      fun p r mp hmp => ⟨mp, hmp, rfl, rfl⟩
    have hmarked : ∀ k p r mp, Stored (w.mgr.setLogout k) p r mp →
        ∃ mp', Stored w.mgr p r mp' ∧ mp'.agent = mp.agent ∧ mp'.node = mp.node := by
      intro k p r mp hmp
      obtain ⟨mp', hmp', rfl | ⟨_, rfl⟩⟩ := stored_modify hmp
      · exact ⟨mp, hmp', rfl, rfl⟩
      · exact ⟨mp', hmp', rfl, rfl⟩
    generalize hev : l.2 = outs at hchange
    cases hchange
    case noId => exact ht.quiet l hlocks (Nat.le_succ _) rfl hsame fun _ _ hcall => hcall
    case refused => exact ht.quiet l hlocks (Nat.le_succ _) rfl hsame fun _ _ hcall => hcall
    case displacing =>
      refine ht.quiet l hlocks (Nat.le_succ _) rfl hsame fun k call hcall => ?_
      exact spawning_suspend (m := w.mgr.start) hcall (by simp)
    case registered caller p node gate hrecord => exact ht.registered node gate l hrecord
    case notKicked => exact ht.quiet l hlocks (Nat.le_succ _) rfl hsame fun _ _ hcall => hcall
    case kicking =>
      refine ht.quiet l hlocks (Nat.le_succ _) rfl (hmarked _) fun k call hcall => ?_
      exact spawning_suspend (m := w.mgr.start) hcall (by simp)
    case shutdown caller num order =>
      have hforked := forked_forkLoop w.mgr.start num order 0
      refine ht.quiet l hlocks (Nat.le_of_succ_le hforked.taskCount_le) hforked.players ?_
        fun k call hcall => ?_
      · exact fun p r mp hmp => hsame p r mp (hforked.stored.mp hmp)
      · obtain ⟨p, node⟩ := call
        obtain ⟨caller', r, htask⟩ := spawning_eq_some (spawning_suspend hcall (by simp))
        rcases hforked.tasks k _ htask with hold | ⟨_, heq⟩
        · have hold' : w.mgr.tasks k = some (.newservice caller' p node r) := hold
          simp only [AgentMgr.spawning, hold']
        · cases heq
    case forkNotKicked =>
      exact ht.quiet l hlocks (Nat.le_refl _) rfl hsame fun _ _ hcall => spawning_finish hcall
    case forkKicking h p r mp htask hrecord =>
      refine ht.quiet l hlocks (Nat.le_refl _) rfl (hmarked _) fun k call hcall => ?_
      exact spawning_finish (spawning_suspend (m := w.mgr.finish h) hcall (by simp))
    case drained =>
      exact ht.quiet l hlocks (Nat.le_refl _) rfl hsame fun _ _ hcall => spawning_finish hcall
    case online => exact ht.quiet l hlocks (Nat.le_refl _) rfl hsame fun _ _ hcall => hcall
    case fault =>
      exact ht.quiet l hlocks (Nat.le_refl _) rfl hsame fun _ _ hcall => spawning_finish hcall
    case oldKicked htask => cases ht.locks.holds _ _ htask
    case gateKicked htask => cases ht.locks.holds _ _ htask
    case granted h value caller p node r htask => exact ht.granted l htask htruthful
    case kicked h value caller p r pnode agent pgate htask =>
      exact ht.kicked l htask (by rw [hev]; simp)
  · exact ht.spawn hnone hcall

theorem run (hrun : Run Step World.init ls w) : Tended ls w := by
  have h : Tended ([] ++ ls) w :=
    Run.invariant_history (I := Tended) (fun _ _ _ _ hu hstep => hu.step hstep) Tended.init hrun
  exact h

end Tended

theorem Returned.step {w w' : World Num Node Addr Caller} {l : Label Num Node Addr Caller}
    {r : Ref} {value : Option Addr} (h : Returned w r value) (hstep : Step w l w') :
    Returned w' r value := by
  obtain ⟨before, u, k, caller, p, node, outs, v, after, hbefore, htask, hanswer, hafter⟩ := h
  exact ⟨before, u, k, caller, p, node, outs, v, after ++ [l], hbefore, htask, hanswer,
    hafter.snoc hstep⟩

/-- The answer to `newservice` is what its record keeps as its agent. -/
theorem Returned.agent {w : World Num Node Addr Caller} {r : Ref} {value : Option Addr}
    (h : Returned w r value) : Settled w.mgr r value := by
  obtain ⟨before, u, k, caller, p, node, outs, v, after, hbefore, htask, hanswer, hafter⟩ := h
  have hu := (Tended.run hbefore).locks
  have hstart : Locks v.mgr ∧ Settled v.mgr r value := by
    rcases step_cases hanswer with ⟨ev, m, hl, hmgr, _, rfl⟩ | ⟨_, _, _, _, hl, _⟩
    · have hev : ev = .answer k (.returned value) := by simpa using hl.symm
      subst hev
      have hnext : ((u.mgr.setGame r value).finish k, [.ret caller (.granted value)]) =
          ((m, outs) : Result Num Node Addr Caller) := by
        have hfires := hmgr.2
        simpa only [AgentMgr.next, answer, htask, proceed] using hfires
      refine ⟨hu.step hmgr, ?_⟩
      have hm := congrArg Prod.fst hnext
      dsimp only at hm ⊢
      obtain ⟨gate, hstored⟩ := hu.holds k _ htask
      subst hm
      refine ⟨⟨⟨p, node, value, .game, gate⟩, ?_, rfl⟩, ?_⟩
      · simp [State.setGame, State.modify, State.finish, hstored.2]
      intro k' caller' p' node' htask'
      obtain ⟨hne, hold⟩ := tasks_finish htask'
      obtain ⟨gate', hstored'⟩ := hu.holds k' _ hold
      have hp : p' = p := congrArg MgrPlayer.playerid
        (Option.some.inj (hstored'.2.symm.trans hstored.2))
      subst hp
      exact hne (hu.unique k' k _ _ p' hold htask rfl rfl)
    · cases hl
  have hend : Locks w.mgr ∧ Settled w.mgr r value := by
    refine Run.invariant (I := fun w => Locks w.mgr ∧ Settled w.mgr r value) ?_ hstart hafter
    rintro u l v ⟨hlocks, hsettled⟩ hstep
    rcases step_cases hstep with ⟨ev, m, _, hmgr, _, rfl⟩ | ⟨_, _, _, _, _, _, _, rfl⟩
    · exact ⟨hlocks.step hmgr, hsettled.step hlocks hmgr⟩
    · exact ⟨hlocks, hsettled⟩
  exact hend.2

/-- Every record in the game has had an answer to its own `newservice`. -/
theorem returned_of_game {ls : List (Label Num Node Addr Caller)}
    {w : World Num Node Addr Caller} (hrun : Run Step init ls w) {p : Num} {r : Ref}
    {mp : MgrPlayer Num Node Addr} (hstored : Stored w.mgr p r mp) (hgame : mp.status = .game) :
    Returned w r mp.agent := by
  induction hrun with
  | nil => cases hstored.2
  | snoc hrun hstep ih =>
    rename_i before u v l
    have hstep' := hstep
    rcases step_cases hstep with ⟨ev, m, hl, hmgr, _, rfl⟩ | ⟨_, _, _, _, _, _, _, rfl⟩
    · rcases game_step (Tended.run hrun).locks hmgr hstored hgame with
        hold | ⟨k, caller, q, node, hev, htask⟩
      · exact (ih hold).step hstep'
      · dsimp only at hev
        subst hev
        obtain ⟨ev, outs⟩ := l
        dsimp only at hl
        subst hl
        exact ⟨before, u, k, caller, q, node, outs, _, [], hrun, htask, hstep', Run.nil⟩
    · exact (ih hstored).step hstep'

/-- In every reachable state a player has at most one live agent, a record in the game has
the agent that `newservice` returned, and a kick removes the record it has marked. -/
theorem one_agent_per_player {ls : List (Label Num Node Addr Caller)}
    {w : World Num Node Addr Caller} (hrun : Run Step init ls w) : OneAgent ls w := by
  have ht := Tended.run hrun
  refine ⟨ht.one_live, ?_, ?_⟩
  · intro p r mp hstored hgame
    refine ⟨returned_of_game hrun hstored hgame, fun value hreturned => ?_⟩
    obtain ⟨⟨mp', hheap, hagent⟩, _⟩ := hreturned.agent
    rw [Option.some.inj (hstored.2.symm.trans hheap)]
    exact hagent
  · intro h caller p r pnode pagent pgate value outs w' htask hstep
    refine ⟨ht.locks.holds h _ htask, ?_⟩
    rcases step_cases hstep with ⟨ev, m, hl, hmgr, _, rfl⟩ | ⟨_, _, _, _, hl, _⟩
    · have hev : ev = .answer h (.returned value) := by simpa using hl.symm
      subst hev
      have hm : (w.mgr.removePlayer p).finish h = m := by
        have hfires := congrArg Prod.fst hmgr.2
        simpa only [AgentMgr.next, answer, htask, proceed] using hfires
      subst hm
      refine ⟨by simp [State.finish, State.removePlayer], fun q hq => ?_⟩
      simp [State.finish, State.removePlayer, AList.lookup_erase_ne hq]
    · cases hl

/-- A player who logs in, is kicked and logs in again. -/
def loginTwice : List (Event ℕ ℕ ℕ ℕ) :=
  [.mgr (.reqlogin 0 (some 7) 1 10), .spawn 0 100, .mgr (.answer 0 (.returned (some 100))),
    .mgr (.reqkick 1 7 []), .mgr (.answer 1 (.returned none)),
    .mgr (.reqlogin 2 (some 7) 1 10), .spawn 2 101, .mgr (.answer 2 (.returned (some 101)))]

theorem one_agent_login_twice :
    OneAgent (trace next (init : World ℕ ℕ ℕ ℕ) loginTwice) (exec next init loginTwice) :=
  one_agent_per_player (run_exec _ (by decide))

end World

end Ue4Background.AgentMgr
