import Ue4Background.Login
import Ue4Background.OneAgent
import Ue4Background.Wire

/-!
The composed system: any number of gateways, the login services, the agent manager, and
`nodemgr` and the agents as far as these call them. Every service handles one message at a
time; what it sends joins the wire, and so does the answer of a call. Packets from one
service to another arrive in the order they were sent, and otherwise in any order. A call
may raise at its caller at any time; a response to a handler that has ended is dropped.

The commands of clients to their agents are other parts of the program. An agent may at
any time send a message for its player to a gateway that it has had a command from.
-/

namespace Ue4Background.System

open LuaValues Transition
open Gateway (Fd Waiting)
open AgentMgr (Handler)

/-- A gateway or an agent, by its node and its address there. -/
structure Site (Node Addr : Type) where
  node : Node
  addr : Addr
  deriving DecidableEq

structure LoginId (Node : Type) where
  node : Node
  id : ℕ
  deriving DecidableEq

/-- A suspended handler of a login service. -/
structure LoginCall (Node : Type) where
  login : LoginId Node
  session : ℕ
  deriving DecidableEq

/-- Who waits for an answer of the agent manager. -/
inductive Caller (Node Addr : Type)
  | login (c : LoginCall Node)
  | gateway (g : Site Node Addr) (session : ℕ)
  | admin
  deriving DecidableEq

inductive Service (Node Addr : Type)
  | gateway (g : Site Node Addr)
  | login (l : LoginId Node)
  | agentmgr
  | nodemgr (node : Node)
  | agent (a : Site Node Addr)
  deriving DecidableEq

inductive Packet (Num Node Addr : Type)
  | client (g : Site Node Addr) (loginid : ℕ) (fd : Fd) (cmd : Bytes) (msg : List Bytes)
  | command (g a : Site Node Addr) (cmd : Bytes) (msg : List Bytes)
  | reqlogin (c : LoginCall Node) (playerid : Option Num) (gate : Addr)
  | answered (c : LoginCall Node) (answer : AgentMgr.Answer Addr)
  | sureAgent (c : LoginCall Node) (g : Site Node Addr) (fd : Fd) (playerid : Num)
      (agent : Option Addr)
  | sured (g : Site Node Addr) (c : LoginCall Node) (isok : Bool)
  | sendByFd (l : LoginId Node) (g : Site Node Addr) (fd : Fd) (msg : Msg Num)
  | send (source : Service Node Addr) (g : Site Node Addr) (playerid : Num) (msg : Msg Num)
  | reqkick (g : Site Node Addr) (session : ℕ) (playerid : Num) (reason : Bytes)
  | returned (g : Site Node Addr) (session : ℕ)
  | kick (g : Site Node Addr) (playerid : Num)
  | callKick (g : Site Node Addr) (h : Handler) (playerid : Num)
  | kicked (g : Site Node Addr) (h : Handler)
  | kickAgent (a : Site Node Addr) (h : Handler)
  | agentKicked (a : Site Node Addr) (h : Handler)
  | exit (a : Site Node Addr)
  | newservice (node : Node) (h : Handler) (playerid : Num)
  | launched (node : Node) (h : Handler) (agent : Option Addr)
  deriving DecidableEq

/-- The sender and the receiver. -/
def Packet.channel {Num Node Addr : Type} :
    Packet Num Node Addr → Service Node Addr × Service Node Addr
  | .client g loginid _ _ _ => (.gateway g, .login ⟨g.node, loginid⟩)
  | .command g a _ _ => (.gateway g, .agent a)
  | .reqlogin c _ _ => (.login c.login, .agentmgr)
  | .answered c _ => (.agentmgr, .login c.login)
  | .sureAgent c g _ _ _ => (.login c.login, .gateway g)
  | .sured g c _ => (.gateway g, .login c.login)
  | .sendByFd l g _ _ => (.login l, .gateway g)
  | .send source g _ _ => (source, .gateway g)
  | .reqkick g _ _ _ => (.gateway g, .agentmgr)
  | .returned g _ => (.agentmgr, .gateway g)
  | .kick g _ => (.agentmgr, .gateway g)
  | .callKick g _ _ => (.agentmgr, .gateway g)
  | .kicked g _ => (.gateway g, .agentmgr)
  | .kickAgent a _ => (.agentmgr, .agent a)
  | .agentKicked a _ => (.agent a, .agentmgr)
  | .exit a => (.agentmgr, .agent a)
  | .newservice node _ _ => (.agentmgr, .nodemgr node)
  | .launched node _ _ => (.nodemgr node, .agentmgr)

/-- A handler of a gateway that waits for a `reqkick`; its own caller is a login, if any. -/
structure Wait (Node Addr : Type) where
  gate : Site Node Addr
  waiting : Waiting
  back : Option (LoginCall Node)

/-- A call that an agent or `nodemgr` is handling. -/
inductive Job (Num Node Addr : Type)
  | kick (a : Site Node Addr) (h : Handler)
  | newservice (node : Node) (h : Handler) (playerid : Num)
  deriving DecidableEq

/-- The gateways an agent has had commands from, until it exits. -/
structure Agent (Node Addr : Type) where
  sources : List (Site Node Addr)
  exited : Bool

structure World (Num Node Addr : Type) where
  gates : Site Node Addr → Gateway.State Num Addr
  waits : Table ℕ (Wait Node Addr)
  logins : Table ℕ (LoginId Node × Login.Task Num Addr)
  manager : AgentMgr.World Num Node Addr (Caller Node Addr)
  jobs : List (Job Num Node Addr)
  agents : Site Node Addr → Agent Node Addr
  sessions : ℕ
  wire : List (Packet Num Node Addr)

/-- The remote calls that a handler of the agent manager makes, each at most once. -/
inductive Call
  | agentKick
  | gateKick
  | newservice
  deriving DecidableEq

def Task.call {Num Node Addr Caller : Type} : AgentMgr.Task Num Node Addr Caller → Option Call
  | .kickOld _ _ _ _ _ _ _ _ => some .agentKick
  | .kickGate _ _ _ _ => some .gateKick
  | .newservice _ _ _ _ => some .newservice
  | .kickAgent _ _ _ _ _ _ => some .agentKick
  | .forked _ => none
  | .sleeping _ _ _ => none

/-- What happens in the system: a client or a timer at a gateway, a packet that arrives, the
answer of the database, an operator's `shutdown`, and what services do by themselves. `key`
is what `math.random` draws when the packet is a `sure_agent`. -/
inductive Event (Num Node Addr : Type)
  | gate (g : Site Node Addr) (ev : Gateway.Event Num Addr)
  | deliver (i : ℕ) (key : Num)
  | query (session : ℕ)
  | shutdown (num : ℤ) (order : List Num)
  | wake (h : Handler)
  | kicked (i : ℕ)
  | spawn (i : ℕ) (addr : Addr)
  | push (a g : Site Node Addr) (playerid : Num) (msg : Msg Num)
  | raiseMgr (h : Handler)
  | raiseLogin (session : ℕ)
  | raiseGate (session : ℕ)
  | raiseJob (i : ℕ)

/-- The state a service leaves and the packets it sends. -/
abbrev Reaction (Num Node Addr : Type) := World Num Node Addr × List (Packet Num Node Addr)

section Packets

variable {Num Node Addr : Type}

/-- What a handler of the gateway `g` sends; `session` numbers its `reqkick`. -/
def gatePackets (g : Site Node Addr) (session : ℕ) (back : Option (LoginCall Node)) :
    Gateway.Out Num Addr → List (Packet Num Node Addr)
  | .write _ _ _ => []
  | .toLogin loginid fd cmd msg => [.client g loginid fd cmd msg]
  | .toAgent agent cmd msg => [.command g ⟨g.node, agent⟩ cmd msg]
  | .reqkick p reason _ => [.reqkick g session p reason]
  | .close _ => []
  | .ret isok => back.toList.map fun c => .sured g c isok

def loginPackets (c : LoginCall Node) : Login.Out Num Node Addr → List (Packet Num Node Addr)
  | .query => []
  | .callReqlogin playerid _ gate => [.reqlogin c playerid gate]
  | .callSureAgent gate fd p agent => [.sureAgent c ⟨c.login.node, gate⟩ fd p agent]
  | .sendByFd gate fd msg => [.sendByFd c.login ⟨c.login.node, gate⟩ fd msg]

/-- A send or call to a nil address goes nowhere. -/
def mgrPackets : AgentMgr.Out Num Node Addr (Caller Node Addr) → List (Packet Num Node Addr)
  | .callKick h node agent => agent.toList.map fun a => .kickAgent ⟨node, a⟩ h
  | .sendExit node agent => agent.toList.map fun a => .exit ⟨node, a⟩
  | .sendGate node gate p msg => [.send .agentmgr ⟨node, gate⟩ p msg]
  | .callGateKick h node gate p => [.callKick ⟨node, gate⟩ h p]
  | .sendGateKick node gate p => [.kick ⟨node, gate⟩ p]
  | .callNewservice h node p => [.newservice node h p]
  | .ret (.login c) answer => [.answered c answer]
  | .ret (.gateway g session) _ => [.returned g session]
  | .ret .admin _ => []

/-- The `reqkick` that a handler of a gateway waits for. -/
def waitingOf : Gateway.Out Num Addr → Option Waiting
  | .reqkick _ _ waiting => some waiting
  | _ => none

end Packets

section Logins

variable {Num Node Addr : Type}

/-- A handler of a login service waits in its next call, or has ended. -/
def store (logins : Table ℕ (LoginId Node × Login.Task Num Addr)) (c : LoginCall Node) :
    Option (Login.Task Num Addr) → Table ℕ (LoginId Node × Login.Task Num Addr)
  | some t => logins.insert c.session (c.login, t)
  | none => logins.erase c.session

theorem lookup_store (logins : Table ℕ (LoginId Node × Login.Task Num Addr))
    (c : LoginCall Node) (next : Option (Login.Task Num Addr)) (s : ℕ) :
    (store logins c next).lookup s =
      if s = c.session then next.map fun t => (c.login, t) else logins.lookup s := by
  cases next with
  | none =>
    by_cases hs : s = c.session
    · subst hs
      simp [store]
    · simp [store, AList.lookup_erase_ne hs, hs]
  | some t =>
    by_cases hs : s = c.session
    · subst hs
      simp [store]
    · simp [store, AList.lookup_insert_ne hs, hs]

end Logins

variable {Num Node Addr : Type} [DecidableEq Num] [DecidableEq Node] [DecidableEq Addr]
  [LuaNumber Num]

def init : World Num Node Addr where
  gates := fun _ => Gateway.init
  waits := ∅
  logins := ∅
  manager := AgentMgr.World.init
  jobs := []
  agents := fun _ => ⟨[], false⟩
  sessions := 0
  wire := []

namespace World

/-- A handler of the gateway `g` runs; `back` is the login that called it, if any. -/
def atGate (w : World Num Node Addr) (g : Site Node Addr) (ev : Gateway.Event Num Addr)
    (back : Option (LoginCall Node)) : Reaction Num Node Addr :=
  let res := Gateway.handle (w.gates g) ev
  let w' := { w with gates := Function.update w.gates g res.state }
  let pkts := res.outs.flatMap (gatePackets g w.sessions back)
  match res.outs.findSome? waitingOf with
  | none => (w', pkts)
  | some waiting =>
    ({ w' with
        waits := w.waits.insert w.sessions ⟨g, waiting, back⟩
        sessions := w.sessions + 1 }, pkts)

/-- The `reqkick` of a handler of a gateway has been answered. -/
def returned (w : World Num Node Addr) (session : ℕ) : Reaction Num Node Addr :=
  match w.waits.lookup session with
  | none => (w, [])
  | some wait =>
    { w with waits := w.waits.erase session }.atGate wait.gate (.returned wait.waiting) wait.back

/-- A handler of a login service goes on as `res` says, or ends. -/
def proceed (w : World Num Node Addr) (c : LoginCall Node) (res : Login.Result Num Node Addr) :
    Reaction Num Node Addr :=
  ({ w with logins := store w.logins c res.1 }, res.2.flatMap (loginPackets c))

/-- A message of a client begins a handler of a login service. -/
def startLogin (w : World Num Node Addr) (l : LoginId Node) (res : Login.Result Num Node Addr) :
    Reaction Num Node Addr :=
  { w with sessions := w.sessions + 1 }.proceed ⟨l, w.sessions⟩ res

def resumeLogin (w : World Num Node Addr) (session : ℕ) (response : Login.Response Addr) :
    Reaction Num Node Addr :=
  match w.logins.lookup session with
  | none => (w, [])
  | some (l, t) => w.proceed ⟨l, session⟩ (Login.resume l.node t response)

def atMgr (w : World Num Node Addr) (ev : AgentMgr.Event Num Node Addr (Caller Node Addr)) :
    Reaction Num Node Addr :=
  let res := AgentMgr.World.next w.manager (.mgr ev)
  ({ w with manager := res.1 }, res.2.flatMap mgrPackets)

/-- A response reaches the handler of the agent manager that waits in this call. -/
def answer (w : World Num Node Addr) (h : Handler) (call : Call) (value : Option Addr) :
    Reaction Num Node Addr :=
  if ∃ t ∈ w.manager.mgr.tasks h, Task.call t = some call ∧ t.Answers (.returned value) then
    w.atMgr (.answer h (.returned value))
  else (w, [])

/-- The receiver of a packet handles it. -/
def receive (w : World Num Node Addr) (key : Num) : Packet Num Node Addr → Reaction Num Node Addr
  | .client g loginid fd cmd msg =>
    w.startLogin ⟨g.node, loginid⟩ (Login.client fd cmd msg g.addr)
  | .command g a _ _ =>
    ({ w with
        agents := Function.update w.agents a ⟨g :: (w.agents a).sources, (w.agents a).exited⟩ }, [])
  | .reqlogin c playerid gate => w.atMgr (.reqlogin (.login c) playerid c.login.node gate)
  | .answered c answer => w.resumeLogin c.session (.reqlogin answer)
  | .sureAgent c g fd p agent => w.atGate g (.sureAgent fd p agent key) (some c)
  | .sured _ c isok => w.resumeLogin c.session (.sureAgent isok)
  | .sendByFd _ g fd msg => w.atGate g (.sendByFd fd msg) none
  | .send _ g p msg => w.atGate g (.send p msg) none
  | .reqkick g session p reason => w.atMgr (.reqkick (.gateway g session) p reason)
  | .returned _ session => w.returned session
  | .kick g p => w.atGate g (.kick p) none
  | .callKick g h p =>
    let res := w.atGate g (.kick p) none
    (res.1, res.2 ++ [.kicked g h])
  | .kicked _ h => w.answer h .gateKick none
  | .kickAgent a h => ({ w with jobs := w.jobs ++ [.kick a h] }, [])
  | .agentKicked _ h => w.answer h .agentKick none
  | .exit a =>
    ({ w with agents := Function.update w.agents a ⟨(w.agents a).sources, true⟩ }, [])
  | .newservice node h p => ({ w with jobs := w.jobs ++ [.newservice node h p] }, [])
  | .launched _ h value => w.answer h .newservice value

/-- A handler of an agent or of `nodemgr` raises and answers nothing. -/
def raiseJob (w : World Num Node Addr) (i : ℕ) : Reaction Num Node Addr :=
  let w' := { w with jobs := w.jobs.eraseIdx i }
  match w.jobs[i]? with
  | none => (w, [])
  | some (.kick a h) => (w', [.agentKicked a h])
  | some (.newservice node h _) => (w', [.launched node h none])

/-- `users` are the rows of the user table, each a `user_id` and a password. -/
def react (users : List (Num × Bytes)) (w : World Num Node Addr) :
    Event Num Node Addr → Reaction Num Node Addr
  | .gate g ev => w.atGate g ev none
  | .deliver i key =>
    match w.wire[i]? with
    | none => (w, [])
    | some pkt => { w with wire := w.wire.eraseIdx i }.receive key pkt
  | .query session => w.resumeLogin session (.rows (Login.select users))
  | .shutdown num order => w.atMgr (.shutdown .admin num order)
  | .wake h => w.atMgr (.wake h)
  | .kicked i =>
    match w.jobs[i]? with
    | some (.kick a h) => ({ w with jobs := w.jobs.eraseIdx i }, [.agentKicked a h])
    | _ => (w, [])
  | .spawn i addr =>
    match w.jobs[i]? with
    | some (.newservice node h _) =>
      ({ w with
          jobs := w.jobs.eraseIdx i
          manager := (AgentMgr.World.next w.manager (.spawn h addr)).1 },
        [.launched node h (some addr)])
    | _ => (w, [])
  | .push a g p msg => (w, [.send (.agent a) g p msg])
  | .raiseMgr h => w.atMgr (.answer h .raised)
  | .raiseLogin session => w.resumeLogin session .raised
  | .raiseGate session =>
    match w.waits.lookup session with
    | none => (w, [])
    | some wait =>
      ({ w with waits := w.waits.erase session },
        wait.back.toList.map fun c => .sured wait.gate c false)
  | .raiseJob i => w.raiseJob i

/-- What a reaction sends joins the wire. -/
def next (users : List (Num × Bytes)) (w : World Num Node Addr) (ev : Event Num Node Addr) :
    Reaction Num Node Addr :=
  let res := w.react users ev
  ({ res.1 with wire := res.1.wire ++ res.2 }, res.2)

/-- What clients, sockets, timers and an operator can make happen at a gateway. -/
def External : Gateway.Event Num Addr → Prop
  | .connect _ | .line _ _ _ | .eof _ | .hangup _ | .shutdown | .timer _ | .tick => True
  | .send _ _ | .sendByFd _ _ | .sureAgent _ _ _ _ | .kick _ | .returned _ => False

instance External.decidable : ∀ ev : Gateway.Event Num Addr, Decidable (External ev)
  | .connect _ | .line _ _ _ | .eof _ | .hangup _ | .shutdown | .timer _ | .tick =>
    inferInstanceAs (Decidable True)
  | .send _ _ | .sendByFd _ _ | .sureAgent _ _ _ _ | .kick _ | .returned _ =>
    inferInstanceAs (Decidable False)

/-- `nodemgr` uses no address of its node twice; an agent pushes messages for its player. -/
def Enabled (w : World Num Node Addr) : Event Num Node Addr → Prop
  | .gate g ev => External ev ∧ Gateway.Enabled (w.gates g) ev
  | .deliver i _ =>
    match w.wire[i]? with
    | none => False
    | some pkt => ∀ q ∈ w.wire.take i, q.channel ≠ pkt.channel
  | .query _ => True
  | .shutdown num order => AgentMgr.Enabled w.manager.mgr (.shutdown .admin num order)
  | .wake h => AgentMgr.Enabled w.manager.mgr (.wake h)
  | .kicked _ => True
  | .spawn i addr =>
    match w.jobs[i]? with
    | some (.newservice _ h _) => AgentMgr.World.Enabled w.manager (.spawn h addr)
    | _ => False
  | .push a g p _ => ⟨a.node, a.addr, p⟩ ∈ w.manager.agents ∧ g ∈ (w.agents a).sources ∧
      (w.agents a).exited = false
  | .raiseMgr h => AgentMgr.Enabled w.manager.mgr (.answer h .raised)
  | .raiseLogin _ | .raiseGate _ | .raiseJob _ => True

instance Enabled.decidable (w : World Num Node Addr) : ∀ ev, Decidable (w.Enabled ev)
  | .gate g ev => inferInstanceAs (Decidable (External ev ∧ Gateway.Enabled (w.gates g) ev))
  | .deliver i _ =>
    match hpkt : w.wire[i]? with
    | none => .isFalse (by simp [Enabled, hpkt])
    | some pkt => decidable_of_iff (∀ q ∈ w.wire.take i, q.channel ≠ pkt.channel)
        (by simp [Enabled, hpkt])
  | .shutdown num order => inferInstanceAs
      (Decidable (AgentMgr.Enabled w.manager.mgr (.shutdown .admin num order)))
  | .wake h => inferInstanceAs (Decidable (AgentMgr.Enabled w.manager.mgr (.wake h)))
  | .spawn i addr =>
    match hjob : w.jobs[i]? with
    | some (.newservice _ h _) => decidable_of_iff
        (AgentMgr.World.Enabled w.manager (.spawn h addr)) (by simp [Enabled, hjob])
    | some (.kick _ _) => .isFalse (by simp [Enabled, hjob])
    | none => .isFalse (by simp [Enabled, hjob])
  | .push a g p _ => inferInstanceAs (Decidable (⟨a.node, a.addr, p⟩ ∈ w.manager.agents ∧
      g ∈ (w.agents a).sources ∧ (w.agents a).exited = false))
  | .raiseMgr h => inferInstanceAs
      (Decidable (AgentMgr.Enabled w.manager.mgr (.answer h .raised)))
  | .query _ | .kicked _ | .raiseLogin _ | .raiseGate _ | .raiseJob _ =>
    inferInstanceAs (Decidable True)

end World

abbrev Label (Num Node Addr : Type) := Event Num Node Addr × List (Packet Num Node Addr)

abbrev Step (users : List (Num × Bytes)) :
    World Num Node Addr → Label Num Node Addr → World Num Node Addr → Prop :=
  Fires World.Enabled (World.next users)

/-- No remote call fails. A call to a nil address is not one; it raises at once. -/
def Reliable (w : World Num Node Addr) (l : Label Num Node Addr) : Prop :=
  match l.1 with
  | .raiseMgr h => ∀ t ∈ w.manager.mgr.tasks h, ¬ t.Answers (.returned none)
  | .raiseLogin _ | .raiseGate _ | .raiseJob _ => False
  | .gate _ _ | .deliver _ _ | .query _ | .shutdown _ _ | .wake _ | .kicked _ | .spawn _ _
  | .push _ _ _ _ => True

instance Reliable.decidable (w : World Num Node Addr) : ∀ l, Decidable (Reliable w l)
  | (.raiseMgr h, _) => inferInstanceAs
      (Decidable (∀ t ∈ w.manager.mgr.tasks h, ¬ t.Answers (.returned none)))
  | (.raiseLogin _, _) | (.raiseGate _, _) | (.raiseJob _, _) => inferInstanceAs (Decidable False)
  | (.gate _ _, _) | (.deliver _ _, _) | (.query _, _) | (.shutdown _ _, _) | (.wake _, _)
  | (.kicked _, _) | (.spawn _ _, _) | (.push _ _ _ _, _) => inferInstanceAs (Decidable True)

/-- The gateway of the examples. -/
def gate1 : Site ℕ ℕ := ⟨1, 10⟩

/-- A client connects and sends one login line, up to the `sure_agent` that answers it. -/
def loginWith (line : Bytes) : List (Event ℕ ℕ ℕ) :=
  [.gate gate1 (.connect 1), .gate gate1 (.line 1 line 1), .deliver 0 0, .query 0, .deliver 0 0,
    .deliver 0 0, .spawn 0 100, .deliver 0 0, .deliver 0 0]

end Ue4Background.System
