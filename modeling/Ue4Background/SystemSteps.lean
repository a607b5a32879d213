import Ue4Background.System

/-!
What one event can do to the composed system. A step takes at most one packet off the wire
and lets one service work; each constructor of `Change` says which service, on what input,
and what joins the wire. The tables of the other services stay as they are.
-/

namespace Ue4Background.System

open LuaValues Transition
open Gateway (Fd)
open AgentMgr (Handler)

variable {Num Node Addr : Type}

/-- The packet that an event takes off the wire. -/
def taken (w : World Num Node Addr) : Event Num Node Addr → Option (Packet Num Node Addr)
  | .deliver i _ => w.wire[i]?
  | _ => none

/-- The wire without the packet that an event takes. -/
def left (w : World Num Node Addr) : Event Num Node Addr → List (Packet Num Node Addr)
  | .deliver i _ => w.wire.eraseIdx i
  | _ => w.wire

theorem mem_wire {w : World Num Node Addr} {e : Event Num Node Addr}
    {q : Packet Num Node Addr} : q ∈ w.wire ↔ taken w e = some q ∨ q ∈ left w e := by
  cases e with
  | deliver i key =>
    cases hpkt : w.wire[i]? with
    | none =>
      have hlen := List.getElem?_eq_none_iff.mp hpkt
      simp [taken, left, hpkt, List.eraseIdx_of_length_le hlen]
    | some pkt =>
      simp only [taken, left, hpkt, Wire.mem_delivered hpkt, Option.some.injEq, eq_comm]
  | _ => simp [taken, left]

theorem left_subset {w : World Num Node Addr} (e : Event Num Node Addr)
    {q : Packet Num Node Addr} (hq : q ∈ left w e) : q ∈ w.wire :=
  mem_wire.mpr (Or.inr hq)

theorem unique_left {w : World Num Node Addr} {T : Type} {token : Packet Num Node Addr → Option T}
    (hu : Wire.Unique token w.wire) (e : Event Num Node Addr) :
    Wire.Unique token (left w e) := by
  cases e with
  | deliver i key => exact hu.erase i
  | _ => exact hu

theorem unique_taken {w : World Num Node Addr} {T : Type} {token : Packet Num Node Addr → Option T}
    (hu : Wire.Unique token w.wire) {e : Event Num Node Addr} {pkt : Packet Num Node Addr}
    (htaken : taken w e = some pkt) {c : T} (hc : token pkt = some c) :
    ∀ q ∈ left w e, token q ≠ some c := by
  cases e with
  | deliver i key => exact hu.delivered htaken hc
  | _ => cases htaken

/-- What runs a handler of the gateway `g`. -/
inductive GateInput (w : World Num Node Addr) (e : Event Num Node Addr) (g : Site Node Addr) :
    Gateway.Event Num Addr → Option (LoginCall Node) → Prop
  | external (ev : Gateway.Event Num Addr) (hev : e = .gate g ev) (hext : World.External ev) :
      GateInput w e g ev none
  | sureAgent (c : LoginCall Node) (fd : Fd) (p : Num) (agent : Option Addr) (key : Num)
      (htaken : taken w e = some (.sureAgent c g fd p agent)) :
      GateInput w e g (.sureAgent fd p agent key) (some c)
  | sendByFd (l : LoginId Node) (fd : Fd) (msg : Msg Num)
      (htaken : taken w e = some (.sendByFd l g fd msg)) : GateInput w e g (.sendByFd fd msg) none
  | send (source : Service Node Addr) (p : Num) (msg : Msg Num)
      (htaken : taken w e = some (.send source g p msg)) : GateInput w e g (.send p msg) none
  | returned (g' : Site Node Addr) (session : ℕ) (waiting : Gateway.Waiting)
      (back : Option (LoginCall Node)) (htaken : taken w e = some (.returned g' session)) :
      GateInput w e g (.returned waiting) back
  | kick (p : Num) (htaken : taken w e = some (.kick g p)) : GateInput w e g (.kick p) none
  | callKick (h : Handler) (p : Num) (htaken : taken w e = some (.callKick g h p)) :
      GateInput w e g (.kick p) none

/-- What resumes the handler `session` of a login service. -/
inductive LoginInput (rows : List Bytes) (w : World Num Node Addr) (e : Event Num Node Addr)
    (session : ℕ) : Login.Response Addr → Prop
  | answered (c : LoginCall Node) (answer : AgentMgr.Answer Addr)
      (htaken : taken w e = some (.answered c answer)) (hsession : c.session = session) :
      LoginInput rows w e session (.reqlogin answer)
  | sured (g : Site Node Addr) (c : LoginCall Node) (isok : Bool)
      (htaken : taken w e = some (.sured g c isok)) (hsession : c.session = session) :
      LoginInput rows w e session (.sureAgent isok)
  | query (he : e = .query session) : LoginInput rows w e session (.rows rows)
  | raised (he : e = .raiseLogin session) : LoginInput rows w e session .raised

/-- What runs a handler of the agent manager. -/
inductive MgrInput (w : World Num Node Addr) (e : Event Num Node Addr) :
    AgentMgr.Event Num Node Addr (Caller Node Addr) → Prop
  | reqlogin (c : LoginCall Node) (playerid : Option Num) (gate : Addr)
      (htaken : taken w e = some (.reqlogin c playerid gate)) :
      MgrInput w e (.reqlogin (.login c) playerid c.login.node gate)
  | reqkick (g : Site Node Addr) (session : ℕ) (p : Num) (reason : Bytes)
      (htaken : taken w e = some (.reqkick g session p reason)) :
      MgrInput w e (.reqkick (.gateway g session) p reason)
  | shutdown (num : ℤ) (order : List Num) (he : e = .shutdown num order) :
      MgrInput w e (.shutdown .admin num order)
  | wake (h : Handler) (he : e = .wake h) : MgrInput w e (.wake h)
  | raised (h : Handler) (he : e = .raiseMgr h) : MgrInput w e (.answer h .raised)
  | kicked (g : Site Node Addr) (h : Handler)
      (t : AgentMgr.Task Num Node Addr (Caller Node Addr))
      (htaken : taken w e = some (.kicked g h)) (htask : w.manager.mgr.tasks h = some t)
      (hcall : Task.call t = some .gateKick) : MgrInput w e (.answer h (.returned none))
  | agentKicked (a : Site Node Addr) (h : Handler)
      (t : AgentMgr.Task Num Node Addr (Caller Node Addr))
      (htaken : taken w e = some (.agentKicked a h)) (htask : w.manager.mgr.tasks h = some t)
      (hcall : Task.call t = some .agentKick) : MgrInput w e (.answer h (.returned none))
  | launched (node : Node) (h : Handler) (value : Option Addr)
      (t : AgentMgr.Task Num Node Addr (Caller Node Addr))
      (htaken : taken w e = some (.launched node h value))
      (htask : w.manager.mgr.tasks h = some t) (hcall : Task.call t = some .newservice) :
      MgrInput w e (.answer h (.returned value))

/-- A packet that changes no table of a gateway, of a login service or of the manager. -/
def Inert (w : World Num Node Addr) : Packet Num Node Addr → Prop
  | .answered c _ => w.logins.lookup c.session = none
  | .sured _ c _ => w.logins.lookup c.session = none
  | .kicked _ _ | .agentKicked _ _ | .launched _ _ _ => True
  | .command _ _ _ _ | .returned _ _ | .kickAgent _ _ | .exit _ | .newservice _ _ _ => True
  | .client _ _ _ _ _ | .reqlogin _ _ _ | .sureAgent _ _ _ _ _ | .sendByFd _ _ _ _
  | .send _ _ _ _ | .reqkick _ _ _ _ | .kick _ _ | .callKick _ _ _ => False

/-- What a step sends that lets none of these three work. -/
inductive Passive : Packet Num Node Addr → Prop
  | send (source : Service Node Addr) (g : Site Node Addr) (p : Num) (msg : Msg Num) :
      Passive (.send source g p msg)
  | agentKicked (a : Site Node Addr) (h : Handler) : Passive (.agentKicked a h)
  | sured (g : Site Node Addr) (c : LoginCall Node) (isok : Bool) : Passive (.sured g c isok)

/-- What a service sends bears it as the sender. -/
theorem sender_gate {g : Site Node Addr} {session : ℕ} {back : Option (LoginCall Node)}
    {outs : List (Gateway.Out Num Addr)} {q : Packet Num Node Addr}
    (hq : q ∈ outs.flatMap (gatePackets g session back)) : q.channel.1 = .gateway g := by
  obtain ⟨o, _, hq⟩ := List.mem_flatMap.mp hq
  cases o <;> simp only [gatePackets, List.not_mem_nil, List.mem_singleton] at hq
  case ret => obtain ⟨c, _, rfl⟩ := List.mem_map.mp hq; rfl
  all_goals subst hq; rfl

theorem sender_login {c : LoginCall Node} {outs : List (Login.Out Num Node Addr)}
    {q : Packet Num Node Addr} (hq : q ∈ outs.flatMap (loginPackets c)) :
    q.channel.1 = .login c.login := by
  obtain ⟨o, _, hq⟩ := List.mem_flatMap.mp hq
  cases o <;> simp only [loginPackets, List.not_mem_nil, List.mem_singleton] at hq
  all_goals subst hq; rfl

theorem sender_mgr {outs : List (AgentMgr.Out Num Node Addr (Caller Node Addr))}
    {q : Packet Num Node Addr} (hq : q ∈ outs.flatMap mgrPackets) :
    q.channel.1 = .agentmgr := by
  obtain ⟨o, _, hq⟩ := List.mem_flatMap.mp hq
  cases o with
  | callKick h node agent => obtain ⟨a, _, rfl⟩ := List.mem_map.mp hq; rfl
  | sendExit node agent => obtain ⟨a, _, rfl⟩ := List.mem_map.mp hq; rfl
  | ret caller answer =>
    cases caller with
    | login c => rw [List.mem_singleton.mp hq]; rfl
    | gateway g session => rw [List.mem_singleton.mp hq]; rfl
    | admin => cases hq
  | _ => rw [List.mem_singleton.mp hq]; rfl

variable [DecidableEq Num] [DecidableEq Node] [DecidableEq Addr] [LuaNumber Num]

/-- The step took what `e` takes off the wire and put `pkts` on it. -/
structure Posts (w : World Num Node Addr) (e : Event Num Node Addr)
    (pkts : List (Packet Num Node Addr)) (w' : World Num Node Addr) : Prop where
  wire : w'.wire = left w e ++ pkts
  sessions : w.sessions ≤ w'.sessions

inductive Change (users : List (Num × Bytes)) (w : World Num Node Addr)
    (e : Event Num Node Addr) (w' : World Num Node Addr) : List (Packet Num Node Addr) → Prop
  | gate (g : Site Node Addr) (ev : Gateway.Event Num Addr) (back : Option (LoginCall Node))
      (tail : List (Packet Num Node Addr)) (hinput : GateInput w e g ev back)
      (henabled : Gateway.Enabled (w.gates g) ev)
      (htail : tail = [] ∨ ∃ h, tail = [.kicked g h])
      (hgates : w'.gates = Function.update w.gates g (Gateway.handle (w.gates g) ev).state)
      (hlogins : w'.logins = w.logins) (hmanager : w'.manager = w.manager)
      (hposts : Posts w e ((Gateway.handle (w.gates g) ev).outs.flatMap
        (gatePackets g w.sessions back) ++ tail) w') :
      Change users w e w' ((Gateway.handle (w.gates g) ev).outs.flatMap
        (gatePackets g w.sessions back) ++ tail)
  | started (g : Site Node Addr) (loginid : ℕ) (fd : Fd) (cmd : Bytes) (msg : List Bytes)
      (htaken : taken w e = some (.client g loginid fd cmd msg)) (hgates : w'.gates = w.gates)
      (hlogins : w'.logins = store w.logins ⟨⟨g.node, loginid⟩, w.sessions⟩
        (Login.client fd cmd msg g.addr : Login.Result Num Node Addr).1)
      (hmanager : w'.manager = w.manager) (hsessions : w'.sessions = w.sessions + 1)
      (hposts : Posts w e [] w') : Change users w e w' []
  | login (c : LoginCall Node) (t : Login.Task Num Addr) (response : Login.Response Addr)
      (next : Option (Login.Task Num Addr)) (outs : List (Login.Out Num Node Addr))
      (hinput : LoginInput (Login.select users) w e c.session response)
      (htask : w.logins.lookup c.session = some (c.login, t))
      (hresume : Login.Change c.login.node t response next outs) (hgates : w'.gates = w.gates)
      (hlogins : w'.logins = store w.logins c next) (hmanager : w'.manager = w.manager)
      (hposts : Posts w e (outs.flatMap (loginPackets c)) w') :
      Change users w e w' (outs.flatMap (loginPackets c))
  | mgr (ev : AgentMgr.Event Num Node Addr (Caller Node Addr)) (hinput : MgrInput w e ev)
      (henabled : AgentMgr.Enabled w.manager.mgr ev) (hgates : w'.gates = w.gates)
      (hlogins : w'.logins = w.logins)
      (hmanager : w'.manager = { w.manager with mgr := (AgentMgr.next w.manager.mgr ev).1 })
      (hposts : Posts w e ((AgentMgr.next w.manager.mgr ev).2.flatMap mgrPackets) w') :
      Change users w e w' ((AgentMgr.next w.manager.mgr ev).2.flatMap mgrPackets)
  | spawn (i : ℕ) (node : Node) (h : Handler) (addr : Addr) (he : e = .spawn i addr)
      (henabled : AgentMgr.World.Enabled w.manager (.spawn h addr)) (hgates : w'.gates = w.gates)
      (hlogins : w'.logins = w.logins)
      (hmanager : w'.manager = (AgentMgr.World.next w.manager (.spawn h addr)).1)
      (hposts : Posts w e [.launched node h (some addr)] w') :
      Change users w e w' [.launched node h (some addr)]
  | failed (i : ℕ) (node : Node) (h : Handler) (he : e = .raiseJob i)
      (hgates : w'.gates = w.gates) (hlogins : w'.logins = w.logins)
      (hmanager : w'.manager = w.manager) (hposts : Posts w e [.launched node h none] w') :
      Change users w e w' [.launched node h none]
  | quiet (pkts : List (Packet Num Node Addr))
      (htaken : ∀ pkt, taken w e = some pkt → Inert w pkt) (hpkts : ∀ q ∈ pkts, Passive q)
      (hgates : w'.gates = w.gates) (hlogins : w'.logins = w.logins)
      (hmanager : w'.manager = w.manager) (hposts : Posts w e pkts w') : Change users w e w' pkts

/-- The state in which a service handles what the event `e` brings. -/
structure Begins (w : World Num Node Addr) (e : Event Num Node Addr)
    (w₁ : World Num Node Addr) : Prop where
  gates : w₁.gates = w.gates
  logins : w₁.logins = w.logins
  manager : w₁.manager = w.manager
  sessions : w₁.sessions = w.sessions
  wire : w₁.wire = left w e

omit [DecidableEq Num] [DecidableEq Node] [DecidableEq Addr] [LuaNumber Num] in
theorem begins (w : World Num Node Addr) (e : Event Num Node Addr) :
    Begins w e { w with wire := left w e } := ⟨rfl, rfl, rfl, rfl, rfl⟩

/-- The world after a reaction, once what it sends has joined the wire. -/
def post (res : Reaction Num Node Addr) : World Num Node Addr :=
  { res.1 with wire := res.1.wire ++ res.2 }

section Reactions

variable {users : List (Num × Bytes)} {w w₁ : World Num Node Addr} {e : Event Num Node Addr}

theorem atGate_change (hw : Begins w e w₁) {g : Site Node Addr} {ev : Gateway.Event Num Addr}
    {back : Option (LoginCall Node)} (hinput : GateInput w e g ev back)
    (henabled : Gateway.Enabled (w.gates g) ev) {tail : List (Packet Num Node Addr)}
    (htail : tail = [] ∨ ∃ h, tail = [.kicked g h]) :
    Change users w e
      (post ((w₁.atGate g ev back).1, (w₁.atGate g ev back).2 ++ tail))
      ((w₁.atGate g ev back).2 ++ tail) := by
  have hsame : (w₁.atGate g ev back).2 =
        (Gateway.handle (w.gates g) ev).outs.flatMap (gatePackets g w.sessions back) ∧
      (w₁.atGate g ev back).1.gates =
        Function.update w.gates g (Gateway.handle (w.gates g) ev).state ∧
      (w₁.atGate g ev back).1.logins = w.logins ∧ (w₁.atGate g ev back).1.manager = w.manager ∧
      (w₁.atGate g ev back).1.wire = left w e ∧
      w.sessions ≤ (w₁.atGate g ev back).1.sessions := by
    cases hwaiting : (Gateway.handle (w.gates g) ev).outs.findSome? waitingOf with
    | none =>
      simp only [World.atGate, hw.gates, hw.sessions, hwaiting]
      exact ⟨trivial, trivial, hw.logins, hw.manager, hw.wire, Nat.le_refl _⟩
    | some waiting =>
      simp only [World.atGate, hw.gates, hw.sessions, hwaiting]
      exact ⟨trivial, trivial, hw.logins, hw.manager, hw.wire, Nat.le_succ _⟩
  obtain ⟨hpkts, hgates, hlogins, hmanager, hwire, hsessions⟩ := hsame
  rw [hpkts]
  refine Change.gate g ev back tail hinput henabled htail hgates hlogins hmanager
    ⟨?_, hsessions⟩
  rw [← hwire]
  rfl

theorem atGate_change_nil (hw : Begins w e w₁) {g : Site Node Addr}
    {ev : Gateway.Event Num Addr} {back : Option (LoginCall Node)}
    (hinput : GateInput w e g ev back) (henabled : Gateway.Enabled (w.gates g) ev) :
    Change users w e (post (w₁.atGate g ev back)) (w₁.atGate g ev back).2 := by
  have h : Change users w e
      (post ((w₁.atGate g ev back).1, (w₁.atGate g ev back).2 ++ []))
      ((w₁.atGate g ev back).2 ++ []) := atGate_change hw hinput henabled (Or.inl rfl)
  simpa only [List.append_nil] using h

theorem atMgr_change (hw : Begins w e w₁)
    {ev : AgentMgr.Event Num Node Addr (Caller Node Addr)} (hinput : MgrInput w e ev)
    (henabled : AgentMgr.Enabled w.manager.mgr ev) :
    Change users w e (post (w₁.atMgr ev)) (w₁.atMgr ev).2 := by
  have hnext : AgentMgr.World.next w₁.manager (.mgr ev) =
      ({ w.manager with mgr := (AgentMgr.next w.manager.mgr ev).1 },
        (AgentMgr.next w.manager.mgr ev).2) := by
    rw [hw.manager]
    rfl
  unfold post World.atMgr
  rw [hnext]
  exact Change.mgr ev hinput henabled hw.gates hw.logins rfl
    ⟨by rw [hw.wire], Nat.le_of_eq hw.sessions.symm⟩

theorem quiet_change {res : Reaction Num Node Addr} (hw : Begins w e res.1)
    (htaken : ∀ pkt, taken w e = some pkt → Inert w pkt) (hpkts : ∀ q ∈ res.2, Passive q) :
    Change users w e (post res) res.2 :=
  Change.quiet res.2 htaken hpkts hw.gates hw.logins hw.manager
    ⟨by rw [post, hw.wire], Nat.le_of_eq hw.sessions.symm⟩

theorem answer_change (hw : Begins w e w₁) {h : Handler} {call : Call} {value : Option Addr}
    (hinput : ∀ t, w.manager.mgr.tasks h = some t → Task.call t = some call →
      MgrInput w e (.answer h (.returned value)))
    (hinert : ∀ pkt, taken w e = some pkt → Inert w pkt) :
    Change users w e (post (w₁.answer h call value)) (w₁.answer h call value).2 := by
  unfold World.answer
  split
  · rename_i hwaits
    rw [hw.manager] at hwaits
    obtain ⟨t, htask, hcall, hanswers⟩ := hwaits
    exact atMgr_change hw (hinput t htask hcall) ⟨t, htask, hanswers⟩
  · exact quiet_change hw hinert (by simp)

theorem resumeLogin_change (hw : Begins w e w₁) {session : ℕ} {response : Login.Response Addr}
    (hinput : LoginInput (Login.select users) w e session response)
    (hinert : w.logins.lookup session = none → ∀ pkt, taken w e = some pkt → Inert w pkt) :
    Change users w e (post (w₁.resumeLogin session response))
      (w₁.resumeLogin session response).2 := by
  unfold World.resumeLogin
  rw [hw.logins]
  cases htask : w.logins.lookup session with
  | none => exact quiet_change hw (hinert htask) (by simp)
  | some entry =>
    obtain ⟨l, t⟩ := entry
    exact Change.login ⟨l, session⟩ t response _ _ hinput htask
      (Login.resume_change l.node t response) hw.gates
      (by simp only [post, World.proceed, hw.logins]) hw.manager
      ⟨by simp only [post, World.proceed, hw.wire], Nat.le_of_eq hw.sessions.symm⟩

theorem returned_change (hw : Begins w e w₁) {g : Site Node Addr} {session : ℕ}
    (htaken : taken w e = some (.returned g session)) :
    Change users w e (post (w₁.returned session)) (w₁.returned session).2 := by
  unfold World.returned
  cases w₁.waits.lookup session with
  | none =>
    refine quiet_change hw (fun pkt hpkt => ?_) (by simp)
    rw [htaken] at hpkt
    cases hpkt
    exact trivial
  | some wait =>
    have hw' : Begins w e { w₁ with waits := w₁.waits.erase session } :=
      ⟨hw.gates, hw.logins, hw.manager, hw.sessions, hw.wire⟩
    exact atGate_change_nil hw'
      (GateInput.returned g session wait.waiting wait.back htaken) trivial

theorem startLogin_change (hw : Begins w e w₁) {g : Site Node Addr} {loginid : ℕ} {fd : Fd}
    {cmd : Bytes} {msg : List Bytes}
    (htaken : taken w e = some (.client g loginid fd cmd msg)) :
    Change users w e
      (post (w₁.startLogin ⟨g.node, loginid⟩ (Login.client fd cmd msg g.addr)))
      (w₁.startLogin ⟨g.node, loginid⟩ (Login.client fd cmd msg g.addr)).2 := by
  have hpkts : (w₁.startLogin ⟨g.node, loginid⟩ (Login.client fd cmd msg g.addr)).2 = [] := by
    simp only [World.startLogin, World.proceed, Login.client]
    split <;> rfl
  unfold post
  rw [hpkts]
  refine Change.started g loginid fd cmd msg htaken hw.gates ?_ hw.manager ?_ ⟨?_, ?_⟩
  · simp only [World.startLogin, World.proceed, hw.logins, hw.sessions]
  · simp only [World.startLogin, World.proceed, hw.sessions]
  · simp only [World.startLogin, World.proceed, hw.wire]
  · simp only [World.startLogin, World.proceed, hw.sessions]
    exact Nat.le_succ _

/-- What the arrival of a packet changes. -/
theorem receive_change {i : ℕ} {key : Num} {pkt : Packet Num Node Addr}
    (hpkt : w.wire[i]? = some pkt) :
    Change users w (.deliver i key)
      (post ({ w with wire := w.wire.eraseIdx i }.receive key pkt))
      ({ w with wire := w.wire.eraseIdx i }.receive key pkt).2 := by
  have hw : Begins w (.deliver i key) { w with wire := w.wire.eraseIdx i } := begins w _
  have htaken : taken w (.deliver i key) = some pkt := hpkt
  have hinert : Inert w pkt → ∀ q, taken w (.deliver i key) = some q → Inert w q := by
    intro h q hq
    rw [htaken] at hq
    cases hq
    exact h
  cases pkt with
  | client g loginid fd cmd msg => exact startLogin_change hw htaken
  | command g a cmd msg =>
    exact quiet_change ⟨rfl, rfl, rfl, rfl, rfl⟩ (hinert trivial) (by simp [World.receive])
  | reqlogin c playerid gate =>
    exact atMgr_change hw (MgrInput.reqlogin c playerid gate htaken) trivial
  | answered c answer =>
    exact resumeLogin_change hw (LoginInput.answered c answer htaken rfl) hinert
  | sureAgent c g fd p agent =>
    exact atGate_change_nil hw (GateInput.sureAgent c fd p agent key htaken) trivial
  | sured g c isok => exact resumeLogin_change hw (LoginInput.sured g c isok htaken rfl) hinert
  | sendByFd l g fd msg =>
    exact atGate_change_nil hw (GateInput.sendByFd l fd msg htaken) trivial
  | send source g p msg => exact atGate_change_nil hw (GateInput.send source p msg htaken) trivial
  | reqkick g session p reason =>
    exact atMgr_change hw (MgrInput.reqkick g session p reason htaken) trivial
  | returned g session => exact returned_change hw htaken
  | kick g p => exact atGate_change_nil hw (GateInput.kick p htaken) trivial
  | callKick g h p =>
    exact atGate_change hw (GateInput.callKick h p htaken) trivial (Or.inr ⟨h, rfl⟩)
  | kicked g h =>
    exact answer_change hw (fun t ht hcall => MgrInput.kicked g h t htaken ht hcall)
      (hinert trivial)
  | kickAgent a h =>
    exact quiet_change ⟨rfl, rfl, rfl, rfl, rfl⟩ (hinert trivial) (by simp [World.receive])
  | agentKicked a h =>
    exact answer_change hw (fun t ht hcall => MgrInput.agentKicked a h t htaken ht hcall)
      (hinert trivial)
  | exit a =>
    exact quiet_change ⟨rfl, rfl, rfl, rfl, rfl⟩ (hinert trivial) (by simp [World.receive])
  | newservice node h p =>
    exact quiet_change ⟨rfl, rfl, rfl, rfl, rfl⟩ (hinert trivial) (by simp [World.receive])
  | launched node h value =>
    exact answer_change hw (fun t ht hcall => MgrInput.launched node h value t htaken ht hcall)
      (hinert trivial)

/-- Every step of the system is one of the listed changes. -/
theorem next_change (henabled : w.Enabled e) :
    Change users w e (post (w.react users e)) (w.react users e).2 := by
  have hnone : ∀ {e' : Event Num Node Addr}, taken w e' = none →
      ∀ pkt, taken w e' = some pkt → Inert w pkt := by
    intro e' h pkt hpkt
    rw [h] at hpkt
    cases hpkt
  cases e with
  | gate g ev =>
    exact atGate_change_nil (begins w (.gate g ev)) (GateInput.external ev rfl henabled.1)
      henabled.2
  | deliver i key =>
    cases hpkt : w.wire[i]? with
    | none => simp only [World.Enabled, hpkt] at henabled
    | some pkt =>
      simp only [World.react, hpkt]
      exact receive_change hpkt
  | query session =>
    exact resumeLogin_change (begins w (.query session)) (LoginInput.query rfl)
      fun _ => hnone rfl
  | shutdown num order =>
    exact atMgr_change (begins w (.shutdown num order)) (MgrInput.shutdown num order rfl)
      henabled
  | wake h => exact atMgr_change (begins w (.wake h)) (MgrInput.wake h rfl) henabled
  | kicked i =>
    simp only [World.react]
    split
    · refine quiet_change ⟨rfl, rfl, rfl, rfl, rfl⟩ (hnone rfl) fun q hq => ?_
      rw [List.mem_singleton] at hq
      subst hq
      exact Passive.agentKicked _ _
    · exact quiet_change (begins w (.kicked i)) (hnone rfl) (by simp)
  | spawn i addr =>
    cases hjob : w.jobs[i]? with
    | none => simp only [World.Enabled, hjob] at henabled
    | some job =>
      cases job with
      | kick a h => simp only [World.Enabled, hjob] at henabled
      | newservice node h p =>
        simp only [World.Enabled, hjob] at henabled
        simp only [World.react, hjob]
        exact Change.spawn i node h addr rfl henabled rfl rfl rfl ⟨rfl, Nat.le_refl _⟩
  | push a g p msg =>
    refine quiet_change (begins w (.push a g p msg)) (hnone rfl) fun q hq => ?_
    simp only [World.react] at hq
    rw [List.mem_singleton] at hq
    subst hq
    exact Passive.send _ _ _ _
  | raiseMgr h =>
    exact atMgr_change (begins w (.raiseMgr h)) (MgrInput.raised h rfl) henabled
  | raiseLogin session =>
    exact resumeLogin_change (begins w (.raiseLogin session)) (LoginInput.raised rfl)
      fun _ => hnone rfl
  | raiseGate session =>
    simp only [World.react]
    split
    · exact quiet_change (begins w (.raiseGate session)) (hnone rfl) (by simp)
    · rename_i wait _
      refine quiet_change ⟨rfl, rfl, rfl, rfl, rfl⟩ (hnone rfl) fun q hq => ?_
      obtain ⟨c, _, rfl⟩ := List.mem_map.mp hq
      exact Passive.sured _ _ _
  | raiseJob i =>
    simp only [World.react, World.raiseJob]
    split
    · exact quiet_change (begins w (.raiseJob i)) (hnone rfl) (by simp)
    · refine quiet_change ⟨rfl, rfl, rfl, rfl, rfl⟩ (hnone rfl) fun q hq => ?_
      rw [List.mem_singleton] at hq
      subst hq
      exact Passive.agentKicked _ _
    · rename_i node h p _
      exact Change.failed i node h rfl rfl rfl rfl ⟨rfl, Nat.le_refl _⟩

end Reactions

theorem step_change {users : List (Num × Bytes)} {w w' : World Num Node Addr}
    {l : Label Num Node Addr} (hstep : Step users w l w') : Change users w l.1 w' l.2 := by
  obtain ⟨henabled, hnext⟩ := hstep
  have hchange : Change users w l.1 (post (w.react users l.1)) (w.react users l.1).2 :=
    next_change henabled
  have hworld : post (w.react users l.1) = w' := congrArg Prod.fst hnext
  have hpkts : (w.react users l.1).2 = l.2 := congrArg Prod.snd hnext
  rwa [hworld, hpkts] at hchange

theorem Change.posts {users : List (Num × Bytes)} {w w' : World Num Node Addr}
    {e : Event Num Node Addr} {pkts : List (Packet Num Node Addr)}
    (hchange : Change users w e w' pkts) : Posts w e pkts w' := by
  cases hchange <;> assumption

/-- A gateway only ever makes steps of its own. -/
theorem Change.gate_step {users : List (Num × Bytes)} {w w' : World Num Node Addr}
    {e : Event Num Node Addr} {pkts : List (Packet Num Node Addr)}
    (hchange : Change users w e w' pkts) (g : Site Node Addr) :
    w'.gates g = w.gates g ∨
      ∃ ev back, GateInput w e g ev back ∧
        Gateway.Step (w.gates g) (ev, (Gateway.handle (w.gates g) ev).outs) (w'.gates g) := by
  cases hchange
  case gate g' ev back tail hinput henabled _ hgates _ _ _ =>
    by_cases hg : g = g'
    · subst hg
      refine Or.inr ⟨ev, back, hinput, henabled, ?_⟩
      rw [hgates, Function.update_self]
      rfl
    · left
      rw [hgates, Function.update_of_ne hg]
  case started hgates _ _ _ _ => exact Or.inl (congrFun hgates g)
  case login hgates _ _ _ => exact Or.inl (congrFun hgates g)
  case mgr hgates _ _ _ => exact Or.inl (congrFun hgates g)
  case spawn hgates _ _ _ => exact Or.inl (congrFun hgates g)
  case failed hgates _ _ _ => exact Or.inl (congrFun hgates g)
  case quiet hgates _ _ _ _ => exact Or.inl (congrFun hgates g)

section Logins

variable {users : List (Num × Bytes)} {w w' : World Num Node Addr} {e : Event Num Node Addr}
  {pkts : List (Packet Num Node Addr)}

/-- A handler of a login service was there, begins with a message, or goes on. -/
theorem login_tasks (hchange : Change users w e w' pkts) {s : ℕ} {i : LoginId Node}
    {t : Login.Task Num Addr} (ht : w'.logins.lookup s = some (i, t)) :
    w.logins.lookup s = some (i, t) ∨
      (∃ g loginid fd cmd msg, taken w e = some (.client g loginid fd cmd msg) ∧
        i = ⟨g.node, loginid⟩ ∧
          (Login.client fd cmd msg g.addr : Login.Result Num Node Addr).1 = some t) ∨
      ∃ t₀ response outs, LoginInput (Login.select users) w e s response ∧
        w.logins.lookup s = some (i, t₀) ∧
          Login.Change i.node t₀ response (some t) (outs : List (Login.Out Num Node Addr)) := by
  cases hchange
  case gate hlogins _ _ => exact Or.inl (by rwa [hlogins] at ht)
  case mgr hlogins _ _ => exact Or.inl (by rwa [hlogins] at ht)
  case spawn hlogins _ _ => exact Or.inl (by rwa [hlogins] at ht)
  case failed hlogins _ _ => exact Or.inl (by rwa [hlogins] at ht)
  case quiet hlogins _ _ _ => exact Or.inl (by rwa [hlogins] at ht)
  case started g loginid fd cmd msg htaken _ hlogins _ _ _ =>
    rw [hlogins, lookup_store] at ht
    split at ht
    · obtain ⟨t', ht', heq⟩ := Option.map_eq_some_iff.mp ht
      obtain ⟨rfl, rfl⟩ := Prod.mk.inj heq
      exact Or.inr (Or.inl ⟨g, loginid, fd, cmd, msg, htaken, rfl, ht'⟩)
    · exact Or.inl ht
  case login c t₀ response next outs hinput htask hresume _ hlogins _ _ =>
    rw [hlogins, lookup_store] at ht
    split at ht
    · rename_i hs
      subst hs
      obtain ⟨t', rfl, heq⟩ := Option.map_eq_some_iff.mp ht
      obtain ⟨rfl, rfl⟩ := Prod.mk.inj heq
      exact Or.inr (Or.inr ⟨t₀, response, outs, hinput, htask, hresume⟩)
    · exact Or.inl ht

/-- A login service sends when it goes on in a handler. -/
theorem login_sent (hchange : Change users w e w' pkts) {q : Packet Num Node Addr}
    (hq : q ∈ pkts) {l : LoginId Node} (hsender : q.channel.1 = .login l) (hactive : ¬ Passive q) :
    ∃ c t response next outs, LoginInput (Login.select users) w e c.session response ∧
      w.logins.lookup c.session = some (c.login, t) ∧
        Login.Change c.login.node t response next outs ∧ q ∈ outs.flatMap (loginPackets c) := by
  cases hchange
  case gate htail _ _ _ _ =>
    rcases List.mem_append.mp hq with hsent | hsent
    · cases (sender_gate hsent).symm.trans hsender
    · rcases htail with rfl | ⟨h, rfl⟩
      · cases hsent
      · rw [List.mem_singleton.mp hsent] at hsender
        cases hsender
  case started => cases hq
  case login c t response next outs hinput htask hresume _ _ _ _ =>
    exact ⟨c, t, response, next, outs, hinput, htask, hresume, hq⟩
  case mgr => cases (sender_mgr hq).symm.trans hsender
  case spawn =>
    rw [List.mem_singleton.mp hq] at hsender
    cases hsender
  case failed =>
    rw [List.mem_singleton.mp hq] at hsender
    cases hsender
  case quiet hpkts _ => exact absurd (hpkts q hq) hactive

/-- A login service asks a gateway to bind what the agent manager has granted. -/
theorem sureAgent_sent (hchange : Change users w e w' pkts) {c : LoginCall Node}
    {g : Site Node Addr} {fd : Fd} {p : Num} {agent : Option Addr}
    (hq : .sureAgent c g fd p agent ∈ pkts) :
    ∃ c' gate, taken w e = some (.answered c' (.granted agent)) ∧ c'.session = c.session ∧
      w.logins.lookup c.session = some (c.login, .requesting fd (some p) gate) ∧
        g = ⟨c.login.node, gate⟩ := by
  obtain ⟨d, t, response, next, outs, hinput, htask, hresume, hsent⟩ :=
    login_sent hchange hq rfl nofun
  cases hresume
  case granted fd' p' gate agent' =>
    simp only [List.flatMap_cons, List.flatMap_nil, loginPackets, List.append_nil,
      List.mem_singleton, Packet.sureAgent.injEq] at hsent
    obtain ⟨rfl, rfl, rfl, rfl, rfl⟩ := hsent
    cases hinput with
    | answered c' _ htaken hsession => exact ⟨c', gate, htaken, hsession, htask, rfl⟩
  all_goals simp [loginPackets] at hsent

/-- A login service asks the agent manager for a player after the password has passed. -/
theorem reqlogin_sent (hchange : Change users w e w' pkts) {c : LoginCall Node}
    {playerid : Option Num} {gate : Addr} (hq : .reqlogin c playerid gate ∈ pkts) :
    ∃ fd pw, w.logins.lookup c.session = some (c.login, .querying fd playerid pw gate) ∧
      (Login.select users).head? = some pw := by
  obtain ⟨d, t, response, next, outs, hinput, htask, hresume, hsent⟩ :=
    login_sent hchange hq rfl nofun
  cases hresume
  case passed fd playerid' pw gate' rest =>
    simp only [List.flatMap_cons, List.flatMap_nil, loginPackets, List.append_nil,
      List.mem_singleton, Packet.reqlogin.injEq] at hsent
    obtain ⟨rfl, rfl, rfl⟩ := hsent
    generalize hrows : Login.select users = rows at hinput
    cases hinput
    exact ⟨fd, pw, htask, rfl⟩
  all_goals simp [loginPackets] at hsent

end Logins

end Ue4Background.System
