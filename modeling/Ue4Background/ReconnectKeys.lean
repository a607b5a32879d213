import Ue4Background.SessionBinding
import Ue4Background.System

/-!
The key of a reconnect. `gateplayer` draws it and `process_reconnect` asks for it, but no message
carries it. As long as nobody reconnects, nothing that any service does depends on a key: two runs
that differ in one draw send and write the same, and end with different keys.
-/

namespace Ue4Background.Gateway

open LuaValues

variable {Num Addr : Type} [LuaNumber Num]

def GatePlayer.forgetKey (gplayer : GatePlayer Num Addr) : GatePlayer Num Addr :=
  { gplayer with key := LuaNumber.ofNat 0 }

def State.forgetKeys (g : State Num Addr) : State Num Addr :=
  { g with playerHeap := fun r => (g.playerHeap r).forgetKey }

/-- The event, whatever `math.random` draws in it. -/
def Event.forgetKey : Event Num Addr → Event Num Addr
  | .sureAgent fd p agent _ => .sureAgent fd p agent (LuaNumber.ofNat 0)
  | ev => ev

def Result.forgetKeys (res : Result Num Addr) : Result Num Addr :=
  ⟨res.state.forgetKeys, res.outs, res.raised⟩

def Event.IsReconnect : Event Num Addr → Prop
  | .line _ msgstr _ => (strUnpack msgstr).headD [] = bytes "reconnect"
  | _ => False

theorem forgetKeys_update (g : State Num Addr) (r : PlayerRef) (gplayer : GatePlayer Num Addr) :
    ({ g with playerHeap := Function.update g.playerHeap r gplayer } : State Num Addr).forgetKeys =
      { g.forgetKeys with
        playerHeap := Function.update g.forgetKeys.playerHeap r gplayer.forgetKey } := by
  have hheap : (fun r' => (Function.update g.playerHeap r gplayer r').forgetKey) =
      Function.update (fun r' => (g.playerHeap r').forgetKey) r gplayer.forgetKey :=
    Function.comp_update GatePlayer.forgetKey g.playerHeap r gplayer
  simp only [State.forgetKeys, hheap]

section Updates

variable (g : State Num Addr) (r : PlayerRef)

@[simp] theorem forgetKeys_conns : g.forgetKeys.conns = g.conns := rfl

@[simp] theorem forgetKeys_players : g.forgetKeys.players = g.players := rfl

@[simp] theorem forgetKeys_connHeap : g.forgetKeys.connHeap = g.connHeap := rfl

@[simp] theorem forgetKeys_closing : g.forgetKeys.closing = g.closing := rfl

@[simp] theorem forgetKeys_timers : g.forgetKeys.timers = g.timers := rfl

@[simp] theorem forgetKeys_conn : (g.forgetKeys.playerHeap r).conn = (g.playerHeap r).conn := rfl

@[simp] theorem forgetKeys_agent : (g.forgetKeys.playerHeap r).agent = (g.playerHeap r).agent := rfl

@[simp] theorem forgetKeys_msgcache :
    (g.forgetKeys.playerHeap r).msgcache = (g.playerHeap r).msgcache := rfl

@[simp] theorem forgetKeys_setConn (conn : Option ConnRef) :
    (g.setConn r conn).forgetKeys = g.forgetKeys.setConn r conn :=
  forgetKeys_update g r _

@[simp] theorem forgetKeys_setCache (cache : List (Msg Num)) :
    (g.setCache r cache).forgetKeys = g.forgetKeys.setCache r cache :=
  forgetKeys_update g r _

@[simp] theorem forgetKeys_addTimer (p : Num) :
    (g.addTimer r p).forgetKeys = g.forgetKeys.addTimer r p := rfl

@[simp] theorem forgetKeys_addPlayer [DecidableEq Num] (p : Num)
    (gplayer : GatePlayer Num Addr) :
    (g.addPlayer p gplayer).forgetKeys = g.forgetKeys.addPlayer p gplayer.forgetKey :=
  congrArg (fun g' : State Num Addr =>
    { g' with
      players := Function.update g.players p (some g.playerCount)
      playerCount := g.playerCount + 1 }) (forgetKeys_update g g.playerCount gplayer)

@[simp] theorem forgetKeys_removePlayer [DecidableEq Num] (p : Num) :
    (g.removePlayer p).forgetKeys = g.forgetKeys.removePlayer p := rfl

@[simp] theorem forgetKeys_removeConn (fd : Fd) :
    (g.removeConn fd).forgetKeys = g.forgetKeys.removeConn fd := rfl

@[simp] theorem forgetKeys_setPlayerid (c : ConnRef) (p : Num) :
    (g.setPlayerid c p).forgetKeys = g.forgetKeys.setPlayerid c p := rfl

@[simp] theorem forgetKeys_setLoop (fd : Fd) (loop : Loop) :
    (g.setLoop fd loop).forgetKeys = g.forgetKeys.setLoop fd loop := rfl

@[simp] theorem sendByFd_forgetKeys (fd : Fd) (msg : Msg Num) :
    sendByFd g.forgetKeys fd msg = sendByFd g fd msg := rfl

end Updates

theorem disconnect_forgetKeys (g : State Num Addr) (fd : Fd) :
    disconnect g.forgetKeys fd = (disconnect g fd).forgetKeys := by
  cases hc : g.conns fd with
  | none => simp [disconnect, Result.forgetKeys, hc]
  | some c =>
    cases hp : (g.connHeap c).playerid with
    | none => simp [disconnect, Result.forgetKeys, hc, hp]
    | some p => cases hr : g.players p <;> simp [disconnect, Result.forgetKeys, hc, hp, hr]

theorem send_forgetKeys (g : State Num Addr) (p : Num) (msg : Msg Num) :
    send g.forgetKeys p msg = (send g p msg).forgetKeys := by
  cases hr : g.players p with
  | none => simp [send, Result.forgetKeys, hr]
  | some r => cases hc : (g.playerHeap r).conn <;> simp [send, Result.forgetKeys, hr, hc]

theorem recvEof_forgetKeys (g : State Num Addr) (fd : Fd) :
    recvEof g.forgetKeys fd = (recvEof g fd).forgetKeys := by
  rw [recvEof, recvEof, disconnect_forgetKeys]
  rcases disconnect g fd with ⟨g', outs, _ | _⟩ <;> rfl

variable [DecidableEq Num]

theorem kick_forgetKeys (g : State Num Addr) (p : Num) :
    kick g.forgetKeys p = (kick g p).forgetKeys := by
  cases hr : g.players p with
  | none => simp [kick, Result.forgetKeys, hr]
  | some r =>
    cases hc : (g.playerHeap r).conn with
    | none => simp [kick, Result.forgetKeys, hr, hc]
    | some c => simp [kick, Result.forgetKeys, hr, hc, disconnect_removed]

theorem recvLine_forgetKeys (g : State Num Addr) (fd : Fd) {msgstr : Bytes} (loginid : ℕ)
    (hcmd : (strUnpack msgstr).headD [] ≠ bytes "reconnect") :
    recvLine g.forgetKeys fd msgstr loginid = (recvLine g fd msgstr loginid).forgetKeys := by
  cases hc : g.conns fd with
  | none =>
    simp only [recvLine, processMsg, forgetKeys_conns, hc]
    rfl
  | some c =>
    simp only [recvLine, processMsg, forgetKeys_conns, forgetKeys_connHeap, forgetKeys_players, hc,
      if_neg hcmd]
    cases hp : (g.connHeap c).playerid with
    | none => rfl
    | some p =>
      simp only [forgetKeys_agent]
      cases ha : (g.players p).bind fun r => (g.playerHeap r).agent with
      | none =>
        simp only
        rfl
      | some agent =>
        simp only
        rfl

/-- Without a reconnect a gateway does the same whatever its keys are. -/
theorem handle_forgetKeys (g : State Num Addr) {ev : Event Num Addr} (hev : ¬ ev.IsReconnect) :
    handle g.forgetKeys ev.forgetKey = (handle g ev).forgetKeys := by
  cases ev with
  | connect fd =>
    cases h : g.closing with
    | true =>
      simp only [handle, connect, Event.forgetKey, forgetKeys_closing, h, if_true]
      rfl
    | false =>
      simp only [handle, connect, Event.forgetKey, forgetKeys_closing, h, Bool.false_eq_true,
        if_false]
      rfl
  | line fd msgstr loginid => exact recvLine_forgetKeys g fd loginid hev
  | eof fd => exact recvEof_forgetKeys g fd
  | hangup fd => rfl
  | send p msg => exact send_forgetKeys g p msg
  | sendByFd fd msg => rfl
  | sureAgent fd p agent key =>
    cases hc : g.conns fd <;>
      simp [handle, sureAgent, Event.forgetKey, Result.forgetKeys, GatePlayer.forgetKey, hc]
  | kick p => exact kick_forgetKeys g p
  | shutdown => rfl
  | returned waiting => rfl
  | timer i =>
    cases ht : g.timers[i]? with
    | none => simp [handle, Event.forgetKey, Result.forgetKeys, ht]
    | some t =>
      cases hc : (g.playerHeap t.gplayer).conn with
      | none =>
        simp only [handle, expire, Event.forgetKey, forgetKeys_timers, forgetKeys_conn, ht, hc]
        rfl
      | some c =>
        simp only [handle, expire, Event.forgetKey, forgetKeys_timers, forgetKeys_conn, ht, hc]
        rfl
  | tick => rfl

omit [LuaNumber Num] [DecidableEq Num] in
theorem key_setConn (g : State Num Addr) (r r' : PlayerRef) (conn : Option ConnRef) :
    ((g.setConn r conn).playerHeap r').key = (g.playerHeap r').key :=
  field_kept GatePlayer.key (by rfl) r'

omit [LuaNumber Num] [DecidableEq Num] in
theorem key_setCache (g : State Num Addr) (r r' : PlayerRef) (cache : List (Msg Num)) :
    ((g.setCache r cache).playerHeap r').key = (g.playerHeap r').key :=
  field_kept GatePlayer.key (by rfl) r'

/-- A player object keeps its key. -/
theorem key_kept (g : State Num Addr) (ev : Event Num Addr) :
    g.playerCount ≤ (handle g ev).state.playerCount ∧
      ∀ r < g.playerCount, ((handle g ev).state.playerHeap r).key = (g.playerHeap r).key := by
  have hchange := handle_change g ev
  generalize (handle g ev).outs = outs at hchange
  generalize (handle g ev).state = g' at hchange ⊢
  cases hchange
  case rebound p r c htarget _ =>
    exact ⟨le_rfl, fun r' _ => (key_setCache (g.rebind p r c) r r' _).trans (key_setConn g r r' _)⟩
  case reboundFault p r c _ _ => exact ⟨le_rfl, fun r' _ => key_setConn g r r' _⟩
  case broken r _ _ _ => exact ⟨le_rfl, fun r' _ => key_setConn g r r' _⟩
  case cached r _ _ _ => exact ⟨le_rfl, fun r' _ => key_setCache g r r' _⟩
  case bound fd p agent key c hconn =>
    refine ⟨Nat.le_succ _, fun r hr => ?_⟩
    show (Function.update g.playerHeap g.playerCount _ r).key = _
    rw [Function.update_of_ne (Nat.ne_of_lt hr)]
  all_goals exact ⟨le_rfl, fun _ _ => rfl⟩

end Ue4Background.Gateway

namespace Ue4Background.System

open LuaValues Transition
open Gateway (Fd PlayerRef)

variable {Num Node Addr : Type} [LuaNumber Num]

def World.forgetKeys (w : World Num Node Addr) : World Num Node Addr :=
  { w with gates := fun g => (w.gates g).forgetKeys }

def Event.forgetKey : Event Num Node Addr → Event Num Node Addr
  | .gate g ev => .gate g ev.forgetKey
  | .deliver i _ => .deliver i (LuaNumber.ofNat 0)
  | e => e

/-- A client sends a reconnect line. -/
def Event.IsReconnect : Event Num Node Addr → Prop
  | .gate _ ev => ev.IsReconnect
  | _ => False

/-- The handler that a packet starts at a gateway. -/
def packetInput (w : World Num Node Addr) (key : Num) :
    Packet Num Node Addr → Option (Site Node Addr × Gateway.Event Num Addr)
  | .sureAgent _ g fd p agent => some (g, .sureAgent fd p agent key)
  | .sendByFd _ g fd msg => some (g, .sendByFd fd msg)
  | .send _ g p msg => some (g, .send p msg)
  | .returned _ session =>
    (w.waits.lookup session).map fun wait => (wait.gate, .returned wait.waiting)
  | .kick g p => some (g, .kick p)
  | .callKick g _ p => some (g, .kick p)
  | _ => none

/-- The handler of a gateway that an event starts or resumes. -/
def gateInput (w : World Num Node Addr) :
    Event Num Node Addr → Option (Site Node Addr × Gateway.Event Num Addr)
  | .gate g ev => some (g, ev)
  | .deliver i key => (w.wire[i]?).bind (packetInput w key)
  | _ => none

variable [DecidableEq Num] [DecidableEq Node] [DecidableEq Addr]

/-- What the gateways write to their connections in one event. -/
def written (w : World Num Node Addr) (e : Event Num Node Addr) :
    List (Site Node Addr × Fd × Msg Num) :=
  match gateInput w e with
  | none => []
  | some (g, ev) => (Gateway.handle (w.gates g) ev).outs.filterMap fun
      | .write fd msg _ => some (g, fd, msg)
      | _ => none

/-- What they write in a run. -/
def writes (users : List (Num × Bytes)) :
    World Num Node Addr → List (Event Num Node Addr) → List (Site Node Addr × Fd × Msg Num)
  | _, [] => []
  | w, e :: es => written w e ++ writes users (World.next users w e).1 es

section Reactions

variable {users : List (Num × Bytes)} {w : World Num Node Addr}

omit [DecidableEq Addr] in
theorem atGate_gates (g : Site Node Addr) (ev : Gateway.Event Num Addr)
    (back : Option (LoginCall Node)) [DecidableEq Addr] : (w.atGate g ev back).1.gates =
      Function.update w.gates g (Gateway.handle (w.gates g) ev).state := by
  unfold World.atGate
  dsimp only
  split <;> rfl

omit [DecidableEq Num] [DecidableEq Node] [DecidableEq Addr] in
theorem resumeLogin_gates (session : ℕ) (response : Login.Response Addr) :
    (w.resumeLogin session response).1.gates = w.gates := by
  unfold World.resumeLogin
  split <;> rfl

omit [LuaNumber Num] [DecidableEq Node] in
theorem answer_gates (h : AgentMgr.Handler) (call : Call) (value : Option Addr) :
    (w.answer h call value).1.gates = w.gates := by
  unfold World.answer
  split <;> rfl

omit [DecidableEq Num] [DecidableEq Node] [DecidableEq Addr] [LuaNumber Num] in
theorem raiseJob_gates (i : ℕ) : (w.raiseJob i).1.gates = w.gates := by
  unfold World.raiseJob
  split <;> rfl

theorem receive_gates (key : Num) (pkt : Packet Num Node Addr) :
    (w.receive key pkt).1.gates = match packetInput w key pkt with
      | none => w.gates
      | some (g, ev) => Function.update w.gates g (Gateway.handle (w.gates g) ev).state := by
  cases pkt with
  | sureAgent c g fd p agent => exact atGate_gates g _ _
  | sendByFd l g fd msg => exact atGate_gates g _ _
  | send source g p msg => exact atGate_gates g _ _
  | kick g p => exact atGate_gates g _ _
  | callKick g h p => exact atGate_gates g _ _
  | returned g session =>
    simp only [World.receive, World.returned, packetInput]
    cases w.waits.lookup session with
    | none => rfl
    | some wait => exact atGate_gates wait.gate _ _
  | answered c answer => exact resumeLogin_gates _ _
  | sured g c isok => exact resumeLogin_gates _ _
  | kicked g h => exact answer_gates _ _ _
  | agentKicked a h => exact answer_gates _ _ _
  | launched node h value => exact answer_gates _ _ _
  | _ => rfl

/-- The gateways change only by the handlers that run at them. -/
theorem react_gates (e : Event Num Node Addr) : (w.react users e).1.gates =
    match gateInput w e with
    | none => w.gates
    | some (g, ev) => Function.update w.gates g (Gateway.handle (w.gates g) ev).state := by
  cases e with
  | gate g ev => exact atGate_gates g ev none
  | deliver i key =>
    simp only [World.react, gateInput]
    cases w.wire[i]? with
    | none => rfl
    | some pkt => exact receive_gates key pkt
  | query session => exact resumeLogin_gates _ _
  | kicked i =>
    simp only [World.react, gateInput]
    split <;> rfl
  | spawn i addr =>
    simp only [World.react, gateInput]
    split <;> rfl
  | raiseLogin session => exact resumeLogin_gates _ _
  | raiseGate session =>
    simp only [World.react, gateInput]
    split <;> rfl
  | raiseJob i => exact raiseJob_gates i
  | _ => rfl

end Reactions

section Forgetting

variable {users : List (Num × Bytes)} {w : World Num Node Addr}

theorem atGate_forgetKeys (g : Site Node Addr) (ev : Gateway.Event Num Addr)
    (back : Option (LoginCall Node)) (hev : ¬ ev.IsReconnect) :
    w.forgetKeys.atGate g ev.forgetKey back =
      ((w.atGate g ev back).1.forgetKeys, (w.atGate g ev back).2) := by
  have hhandle := Gateway.handle_forgetKeys (w.gates g) hev
  have hgates : ∀ g' : Gateway.State Num Addr,
      Function.update w.forgetKeys.gates g g'.forgetKeys =
        fun s => (Function.update w.gates g g' s).forgetKeys := fun g' =>
    (Function.comp_update Gateway.State.forgetKeys w.gates g g').symm
  have hgate : w.forgetKeys.gates g = (w.gates g).forgetKeys := rfl
  unfold World.atGate
  simp only [hgate, hhandle, Gateway.Result.forgetKeys, hgates]
  split <;> rfl

omit [DecidableEq Num] [DecidableEq Node] [DecidableEq Addr] in
theorem resumeLogin_forgetKeys (session : ℕ) (response : Login.Response Addr) :
    w.forgetKeys.resumeLogin session response =
      ((w.resumeLogin session response).1.forgetKeys, (w.resumeLogin session response).2) := by
  have hlogins : w.forgetKeys.logins = w.logins := rfl
  unfold World.resumeLogin
  rw [hlogins]
  cases w.logins.lookup session with
  | none => rfl
  | some entry => rfl

omit [DecidableEq Node] in
theorem answer_forgetKeys (h : AgentMgr.Handler) (call : Call) (value : Option Addr) :
    w.forgetKeys.answer h call value =
      ((w.answer h call value).1.forgetKeys, (w.answer h call value).2) := by
  have hmanager : w.forgetKeys.manager = w.manager := rfl
  unfold World.answer
  simp only [hmanager]
  split <;> rfl

theorem receive_forgetKeys (key : Num) (pkt : Packet Num Node Addr) :
    w.forgetKeys.receive (LuaNumber.ofNat 0) pkt =
      ((w.receive key pkt).1.forgetKeys, (w.receive key pkt).2) := by
  cases pkt with
  | sureAgent c g fd p agent => exact atGate_forgetKeys g (.sureAgent fd p agent key) _ id
  | sendByFd l g fd msg => exact atGate_forgetKeys g (.sendByFd fd msg) _ id
  | send source g p msg => exact atGate_forgetKeys g (.send p msg) _ id
  | kick g p => exact atGate_forgetKeys g (.kick p) _ id
  | callKick g h p =>
    have hgate : w.forgetKeys.atGate g (.kick p) none = _ :=
      atGate_forgetKeys g (.kick p) none id
    simp only [World.receive, hgate]
  | returned g session =>
    have hwaits : w.forgetKeys.waits = w.waits := rfl
    simp only [World.receive, World.returned, hwaits]
    cases w.waits.lookup session with
    | none => rfl
    | some wait =>
      exact atGate_forgetKeys (w := { w with waits := w.waits.erase session }) wait.gate
        (.returned wait.waiting) wait.back id
  | answered c answer => exact resumeLogin_forgetKeys _ _
  | sured g c isok => exact resumeLogin_forgetKeys _ _
  | kicked g h => exact answer_forgetKeys _ _ _
  | agentKicked a h => exact answer_forgetKeys _ _ _
  | launched node h value => exact answer_forgetKeys _ _ _
  | _ => rfl

/-- Without a reconnect line the system does the same whatever its keys are. -/
theorem react_forgetKeys {e : Event Num Node Addr} (he : ¬ e.IsReconnect) :
    w.forgetKeys.react users e.forgetKey =
      ((w.react users e).1.forgetKeys, (w.react users e).2) := by
  have hjobs : w.forgetKeys.jobs = w.jobs := rfl
  have hwaits : w.forgetKeys.waits = w.waits := rfl
  have hwire : w.forgetKeys.wire = w.wire := rfl
  cases e with
  | gate g ev => exact atGate_forgetKeys g ev none he
  | deliver i key =>
    simp only [World.react, Event.forgetKey, hwire]
    cases w.wire[i]? with
    | none => rfl
    | some pkt => exact receive_forgetKeys (w := { w with wire := w.wire.eraseIdx i }) key pkt
  | query session => exact resumeLogin_forgetKeys _ _
  | kicked i =>
    simp only [World.react, Event.forgetKey, hjobs]
    rcases w.jobs[i]? with _ | _ | _ <;> rfl
  | spawn i addr =>
    simp only [World.react, Event.forgetKey, hjobs]
    rcases w.jobs[i]? with _ | _ | _ <;> rfl
  | raiseLogin session => exact resumeLogin_forgetKeys _ _
  | raiseGate session =>
    simp only [World.react, Event.forgetKey, hwaits]
    cases w.waits.lookup session <;> rfl
  | raiseJob i =>
    simp only [World.react, Event.forgetKey, World.raiseJob, hjobs]
    rcases w.jobs[i]? with _ | _ | _ <;> rfl
  | _ => rfl

theorem next_forgetKeys {e : Event Num Node Addr} (he : ¬ e.IsReconnect) :
    World.next users w.forgetKeys e.forgetKey =
      ((World.next users w e).1.forgetKeys, (World.next users w e).2) := by
  simp only [World.next, react_forgetKeys he]
  rfl

omit [DecidableEq Node] [DecidableEq Addr] [DecidableEq Num] in
theorem gateInput_forgetKeys (e : Event Num Node Addr) :
    gateInput w.forgetKeys e.forgetKey =
      (gateInput w e).map fun input => (input.1, input.2.forgetKey) := by
  cases e with
  | deliver i key =>
    show (w.wire[i]?).bind _ = ((w.wire[i]?).bind _).map _
    cases w.wire[i]? with
    | none => rfl
    | some pkt =>
      cases pkt with
      | returned g session =>
        show (w.waits.lookup session).map _ = ((w.waits.lookup session).map _).map _
        cases w.waits.lookup session <;> rfl
      | _ => rfl
  | _ => rfl

omit [LuaNumber Num] [DecidableEq Node] [DecidableEq Addr] [DecidableEq Num] in
theorem gateInput_not_reconnect {e : Event Num Node Addr} (he : ¬ e.IsReconnect)
    {g : Site Node Addr} {ev : Gateway.Event Num Addr} (hinput : gateInput w e = some (g, ev)) :
    ¬ ev.IsReconnect := by
  cases e with
  | gate g' ev' =>
    cases hinput
    exact he
  | deliver i key =>
    obtain ⟨pkt, -, hpkt⟩ := Option.bind_eq_some_iff.mp hinput
    cases pkt with
    | returned g' session =>
      obtain ⟨wait, -, hwait⟩ := Option.map_eq_some_iff.mp hpkt
      cases hwait
      exact id
    | sureAgent => cases hpkt; exact id
    | sendByFd => cases hpkt; exact id
    | send => cases hpkt; exact id
    | kick => cases hpkt; exact id
    | callKick => cases hpkt; exact id
    | _ => cases hpkt
  | _ => cases hinput

omit [DecidableEq Node] [DecidableEq Addr] in
theorem written_forgetKeys {e : Event Num Node Addr} (he : ¬ e.IsReconnect) :
    written w.forgetKeys e.forgetKey = written w e := by
  unfold written
  rw [gateInput_forgetKeys]
  cases hinput : gateInput w e with
  | none => rfl
  | some input =>
    obtain ⟨g, ev⟩ := input
    have hhandle := Gateway.handle_forgetKeys (w.gates g) (gateInput_not_reconnect he hinput)
    have hgate : w.forgetKeys.gates g = (w.gates g).forgetKeys := rfl
    simp only [Option.map_some, hgate, hhandle]
    rfl

omit [DecidableEq Num] [DecidableEq Node] [DecidableEq Addr] in
theorem enabled_forgetKeys (e : Event Num Node Addr) :
    World.Enabled w.forgetKeys e.forgetKey ↔ World.Enabled w e := by
  cases e with
  | gate g ev => cases ev <;> exact Iff.rfl
  | _ => exact Iff.rfl

variable (users w) in
/-- A run without reconnect lines does not look at the keys. -/
theorem run_forgetKeys {es : List (Event Num Node Addr)} (hes : ∀ e ∈ es, ¬ e.IsReconnect) :
    (Along World.Enabled (World.next users) w.forgetKeys (es.map Event.forgetKey) ↔
      Along World.Enabled (World.next users) w es) ∧
    writes users w.forgetKeys (es.map Event.forgetKey) = writes users w es := by
  induction es generalizing w with
  | nil => exact ⟨Iff.rfl, rfl⟩
  | cons e es ih =>
    have he := hes e List.mem_cons_self
    obtain ⟨halong, hwrites⟩ := ih (World.next users w e).1
      fun e' he' => hes e' (List.mem_cons_of_mem _ he')
    have hnext : (World.next users w.forgetKeys e.forgetKey).1 =
        (World.next users w e).1.forgetKeys := by rw [next_forgetKeys he]
    refine ⟨?_, ?_⟩
    · rw [List.map_cons, Along, Along, enabled_forgetKeys, hnext, halong]
    · rw [List.map_cons, writes, writes, written_forgetKeys he, hnext, hwrites]

variable (users w) in
/-- Two runs that differ in the keys they draw are possible together and write the same. -/
theorem runs_same {es es' : List (Event Num Node Addr)}
    (hsame : es.map Event.forgetKey = es'.map Event.forgetKey)
    (hes : ∀ e ∈ es, ¬ e.IsReconnect) (hes' : ∀ e ∈ es', ¬ e.IsReconnect) :
    (Along World.Enabled (World.next users) w es ↔
      Along World.Enabled (World.next users) w es') ∧
    writes users w es = writes users w es' := by
  obtain ⟨halong, hwrites⟩ := run_forgetKeys users w hes
  obtain ⟨halong', hwrites'⟩ := run_forgetKeys users w hes'
  rw [hsame] at halong hwrites
  exact ⟨halong.symm.trans halong', hwrites.symm.trans hwrites'⟩

end Forgetting

section Session

variable {users : List (Num × Bytes)} {w : World Num Node Addr} {g : Site Node Addr}

variable (users w g) in
theorem key_next (e : Event Num Node Addr) :
    (w.gates g).playerCount ≤ ((World.next users w e).1.gates g).playerCount ∧
      ∀ r < (w.gates g).playerCount,
        (((World.next users w e).1.gates g).playerHeap r).key =
          ((w.gates g).playerHeap r).key := by
  have hgates : (World.next users w e).1.gates = (w.react users e).1.gates := rfl
  rw [hgates, react_gates]
  cases gateInput w e with
  | none => exact ⟨le_rfl, fun _ _ => rfl⟩
  | some input =>
    obtain ⟨g', ev⟩ := input
    by_cases hg : g = g'
    · subst hg
      simp only [Function.update_self]
      exact Gateway.key_kept (w.gates g) ev
    · simp only [Function.update_of_ne hg]
      exact ⟨le_rfl, fun _ _ => trivial⟩

/-- A session keeps its key. -/
theorem key_exec {r : PlayerRef} (es : List (Event Num Node Addr))
    (hr : r < (w.gates g).playerCount) :
    (((exec (World.next users) w es).gates g).playerHeap r).key =
      ((w.gates g).playerHeap r).key := by
  induction es generalizing w with
  | nil => rfl
  | cons e es ih =>
    obtain ⟨hcount, hkey⟩ := key_next users w g e
    exact (ih (Nat.lt_of_lt_of_le hr hcount)).trans (hkey r hr)

variable (users) in
/-- The object that a `sure_agent` creates has the key that was drawn. -/
theorem key_drawn {i : ℕ} (key : Num) {c : LoginCall Node} {fd : Fd} {p : Num}
    {agent : Option Addr} (hpkt : w.wire[i]? = some (.sureAgent c g fd p agent))
    (hconn : ((w.gates g).conns fd).isSome) :
    (w.gates g).playerCount <
        ((World.next users w (.deliver i key)).1.gates g).playerCount ∧
      (((World.next users w (.deliver i key)).1.gates g).playerHeap
        (w.gates g).playerCount).key = key := by
  have hgates : (World.next users w (.deliver i key)).1.gates =
      (w.react users (.deliver i key)).1.gates := rfl
  have hinput : gateInput w (.deliver i key) = some (g, .sureAgent fd p agent key) := by
    simp only [gateInput, hpkt, Option.bind_some, packetInput]
  obtain ⟨conn, hconn⟩ := Option.isSome_iff_exists.mp hconn
  rw [hgates, react_gates, hinput]
  simp only [Function.update_self, Gateway.handle, Gateway.sureAgent, hconn]
  refine ⟨Nat.lt_succ_self _, ?_⟩
  simp only [Gateway.State.addPlayer, Gateway.State.setPlayerid, Function.update_self]

end Session

/-- The gateways of a run write the same whatever key `math.random` draws for a session, and no
line reconnects to the session under two keys. -/
theorem key_never_written {users : List (Num × Bytes)}
    {before after : List (Event Num Node Addr)} {i : ℕ} {key key' : Num} {c : LoginCall Node}
    {g : Site Node Addr} {fd : Fd} {p : Num} {agent : Option Addr}
    (hrun : Along World.Enabled (World.next users) init (before ++ .deliver i key :: after))
    (hlines : ∀ e ∈ before ++ after, ¬ e.IsReconnect)
    (hpkt : (exec (World.next users) init before).wire[i]? = some (.sureAgent c g fd p agent))
    (hconn : (((exec (World.next users) init before).gates g).conns fd).isSome) :
    let session := ((exec (World.next users) init before).gates g).playerCount
    let w := exec (World.next users) init (before ++ .deliver i key :: after)
    let w' := exec (World.next users) init (before ++ .deliver i key' :: after)
    Along World.Enabled (World.next users) init (before ++ .deliver i key' :: after) ∧
      writes users init (before ++ .deliver i key :: after) =
        writes users init (before ++ .deliver i key' :: after) ∧
      ((w.gates g).playerHeap session).key = key ∧
      ((w'.gates g).playerHeap session).key = key' ∧
      (key ≠ key' → ∀ fd' msg q d q' d',
        Gateway.reconnectTarget (w.gates g) fd' msg = some (q, session, d) →
          Gateway.reconnectTarget (w'.gates g) fd' msg ≠ some (q', session, d')) := by
  intro session w w'
  have hes : ∀ k : Num, ∀ e ∈ before ++ .deliver i k :: after, ¬ e.IsReconnect := fun k e he => by
    rcases List.mem_append.mp he with he | he
    · exact hlines e (List.mem_append_left _ he)
    · rcases List.mem_cons.mp he with rfl | he
      · exact id
      · exact hlines e (List.mem_append_right _ he)
  have hsame : (before ++ .deliver i key :: after).map Event.forgetKey =
      (before ++ .deliver i key' :: after).map Event.forgetKey := by
    simp only [List.map_append, List.map_cons]
    rfl
  obtain ⟨halong, hwrites⟩ := runs_same users init hsame (hes key) (hes key')
  have hkey : ∀ k : Num, (((exec (World.next users) init
      (before ++ .deliver i k :: after)).gates g).playerHeap session).key = k := fun k => by
    obtain ⟨hlt, hdrawn⟩ := key_drawn users k hpkt hconn
    rw [exec_append]
    exact (key_exec after hlt).trans hdrawn
  refine ⟨halong.mp hrun, hwrites, hkey key, hkey key', fun hne fd' msg q d q' d' h h' => ?_⟩
  have hline := (Gateway.reconnectTarget_eq_some h).2.2.2.2
  have hline' := (Gateway.reconnectTarget_eq_some h').2.2.2.2
  rw [hkey key] at hline
  rw [hkey key', hline] at hline'
  exact hne (Option.some.inj hline')

/-- A client logs in and gets the answer to his login; `key` is drawn for his session. -/
def answeredLogin (key : ℕ) : List (Event ℕ ℕ ℕ) :=
  loginWith (bytes "login,7,secret") ++ .deliver 0 key :: [.deliver 0 0, .deliver 0 0]

def secretUsers : List (ℕ × Bytes) := [(1, bytes "secret")]

theorem no_reconnect_answeredLogin :
    ∀ e ∈ loginWith (bytes "login,7,secret") ++ [.deliver 0 0, .deliver 0 0],
      ¬ e.IsReconnect := by
  intro e he
  simp only [loginWith, List.cons_append, List.nil_append, List.mem_cons, List.not_mem_nil,
    or_false] at he
  rcases he with rfl | rfl | rfl | rfl | rfl | rfl | rfl | rfl | rfl | rfl | rfl
  all_goals first
    | exact id
    | exact (by decide :
        ¬ (Gateway.strUnpack (bytes "login,7,secret")).headD [] = bytes "reconnect")

theorem sureAgent_answeredLogin :
    (exec (World.next secretUsers) init (loginWith (bytes "login,7,secret"))).wire[0]? =
      some (.sureAgent ⟨⟨1, 1⟩, 0⟩ gate1 1 7 (some 100)) := by
  decide +kernel

theorem key_never_written_answered_login :
    let w := fun key : ℕ => exec (World.next secretUsers) init (answeredLogin key)
    Along World.Enabled (World.next secretUsers) init (answeredLogin 32) ∧
      writes secretUsers init (answeredLogin 31) = writes secretUsers init (answeredLogin 32) ∧
      (((w 31).gates gate1).playerHeap 0).key = 31 ∧
      (((w 32).gates gate1).playerHeap 0).key = 32 ∧
      (31 ≠ 32 → ∀ fd' msg q d q' d',
        Gateway.reconnectTarget ((w 31).gates gate1) fd' msg = some (q, 0, d) →
          Gateway.reconnectTarget ((w 32).gates gate1) fd' msg ≠ some (q', 0, d')) :=
  key_never_written (by decide +kernel) no_reconnect_answeredLogin sureAgent_answeredLogin
    (by decide +kernel)

/-- Two draws for one session give two keys, and the client is sent the same. -/
theorem key_not_determined :
    let w := fun key : ℕ => exec (World.next secretUsers) init (answeredLogin key)
    Along World.Enabled (World.next secretUsers) init (answeredLogin 31) ∧
      Along World.Enabled (World.next secretUsers) init (answeredLogin 32) ∧
      writes secretUsers init (answeredLogin 31) =
        [(gate1, 1, Login.loginReply 0 "登陆成功")] ∧
      writes secretUsers init (answeredLogin 32) =
        [(gate1, 1, Login.loginReply 0 "登陆成功")] ∧
      (((w 31).gates gate1).playerHeap 0).key ≠ (((w 32).gates gate1).playerHeap 0).key := by
  decide +kernel

end Ue4Background.System
