import Mathlib.Logic.Function.Basic
import Ue4Background.LuaValues
import Ue4Background.Transition

/-!
The gateway service (`service/gateway/init.lua`). Connection and player objects are
Lua tables shared by reference, so `conns` and `players` hold references into two
heaps. A handler runs atomically up to a remote call or its end; no continuation of a
remote call touches the tables. Every handler answers the state it leaves behind, what
it sent, and whether it raised part way. Socket ids come from the counter of the socket
server and are not handed out twice.
-/

namespace Ue4Background.Gateway

open LuaValues Transition

abbrev Fd := ℕ

abbrev ConnRef := ℕ

abbrev PlayerRef := ℕ

structure Conn (Num : Type) where
  fd : Fd
  playerid : Option Num

structure GatePlayer (Num Addr : Type) where
  playerid : Num
  agent : Option Addr
  conn : Option ConnRef
  key : Num
  msgcache : List (Msg Num)

/-- A pending `skynet.timeout` of `disconnect` with the variables it captured. -/
structure Timer (Num : Type) where
  expire : ℕ
  gplayer : PlayerRef
  playerid : Num

/-- `closed` once `socket.read` has answered false, `dead` after a fault in `process_msg`, and
`lost` when the client of a dead loop hangs up, which nobody sees. -/
inductive Loop
  | reading
  | closed
  | dead
  | lost
  deriving DecidableEq

structure State (Num Addr : Type) where
  closing : Bool
  conns : Fd → Option ConnRef
  players : Num → Option PlayerRef
  connHeap : ConnRef → Conn Num
  connCount : ℕ
  playerHeap : PlayerRef → GatePlayer Num Addr
  playerCount : ℕ
  loops : Fd → Option Loop
  lastFd : Fd
  timers : List (Timer Num)
  now : ℕ

/-- Which handler waits for the answer of a `reqkick`. -/
inductive Waiting
  | overflow
  | offline
  | expired
  deriving DecidableEq

inductive Out (Num Addr : Type)
  | write (fd : Fd) (msg : Msg Num) (buff : Bytes)
  | toLogin (loginid : ℕ) (fd : Fd) (cmd : Bytes) (msg : List Bytes)
  | toAgent (agent : Addr) (cmd : Bytes) (msg : List Bytes)
  | reqkick (playerid : Num) (reason : Bytes) (waiting : Waiting)
  | close (fd : Fd)
  | ret (ok : Bool)
  deriving DecidableEq

structure Result (Num Addr : Type) where
  state : State Num Addr
  outs : List (Out Num Addr)
  raised : Bool

variable {Num Addr : Type} [DecidableEq Num] [LuaNumber Num]

def init : State Num Addr where
  closing := false
  conns := fun _ => none
  players := fun _ => none
  connHeap := fun _ => ⟨0, none⟩
  connCount := 0
  playerHeap := fun _ => ⟨LuaNumber.ofNat 0, none, none, LuaNumber.ofNat 0, []⟩
  playerCount := 0
  loops := fun _ => none
  lastFd := 0
  timers := []
  now := 0

namespace State

/-- `conns[fd] = conn()`, with its `recv_loop` forked. -/
def openConn (g : State Num Addr) (fd : Fd) : State Num Addr :=
  { g with
    conns := Function.update g.conns fd (some g.connCount)
    connHeap := Function.update g.connHeap g.connCount ⟨fd, none⟩
    connCount := g.connCount + 1
    loops := Function.update g.loops fd (some .reading) }

/-- `conn.playerid = playerid` -/
def setPlayerid (g : State Num Addr) (c : ConnRef) (p : Num) : State Num Addr :=
  { g with connHeap := Function.update g.connHeap c { g.connHeap c with playerid := some p } }

/-- `players[playerid] = gplayer` for a new object. -/
def addPlayer (g : State Num Addr) (p : Num) (gplayer : GatePlayer Num Addr) :
    State Num Addr :=
  { g with
    players := Function.update g.players p (some g.playerCount)
    playerHeap := Function.update g.playerHeap g.playerCount gplayer
    playerCount := g.playerCount + 1 }

/-- `gplayer.conn = conn` -/
def setConn (g : State Num Addr) (r : PlayerRef) (conn : Option ConnRef) : State Num Addr :=
  { g with playerHeap := Function.update g.playerHeap r { g.playerHeap r with conn := conn } }

/-- `gplayer.msgcache = cache` -/
def setCache (g : State Num Addr) (r : PlayerRef) (cache : List (Msg Num)) : State Num Addr :=
  { g with
    playerHeap := Function.update g.playerHeap r { g.playerHeap r with msgcache := cache } }

/-- `skynet.timeout(30*100, ...)` -/
def addTimer (g : State Num Addr) (r : PlayerRef) (p : Num) : State Num Addr :=
  { g with timers := g.timers ++ [⟨g.now + 30 * 100, r, p⟩] }

/-- `players[playerid] = nil` -/
def removePlayer (g : State Num Addr) (p : Num) : State Num Addr :=
  { g with players := Function.update g.players p none }

/-- `conns[fd] = nil` -/
def removeConn (g : State Num Addr) (fd : Fd) : State Num Addr :=
  { g with conns := Function.update g.conns fd none }

def setLoop (g : State Num Addr) (fd : Fd) (loop : Loop) : State Num Addr :=
  { g with loops := Function.update g.loops fd (some loop) }

end State

def overflowReason : Bytes := bytes "gate缓存信息过多"

def offlineReason : Bytes := bytes "未完成登陆即下线"

def expiredReason : Bytes := bytes "断线超时"

def strPack (msg : Msg Num) : Bytes := concat comma msg ++ crlf

/-- Every match removes at least the comma, so the length bounds the iterations. -/
def unpackLoop : ℕ → Bytes → List Bytes
  | 0, msgstr => [msgstr]
  | fuel + 1, msgstr =>
    match cut comma msgstr with
    | some (arg, rest) => arg :: unpackLoop fuel rest
    | none => [msgstr]

/-- The list of `str_unpack`; its command is the first element. -/
def strUnpack (msgstr : Bytes) : List Bytes := unpackLoop msgstr.length msgstr

/-- What is written, and whether the log line faults on the nil `msg[1]`. -/
def sendByFd (g : State Num Addr) (fd : Fd) (msg : Msg Num) : List (Out Num Addr) × Bool :=
  match g.conns fd with
  | none => ([], false)
  | some _ =>
    match msg with
    | [] => ([], true)
    | _ :: _ => ([.write fd msg (strPack msg)], false)

def send (g : State Num Addr) (p : Num) (msg : Msg Num) : Result Num Addr :=
  match g.players p with
  | none => ⟨g, [], false⟩
  | some r =>
    match (g.playerHeap r).conn with
    | none =>
      let cache := (g.playerHeap r).msgcache ++ [msg]
      ⟨g.setCache r cache,
        if cache.length > 500 then [.reqkick p overflowReason .overflow] else [], false⟩
    | some c =>
      let (outs, raised) := sendByFd g (g.connHeap c).fd msg
      ⟨g, outs, raised⟩

def sureAgent (g : State Num Addr) (fd : Fd) (p : Num) (agent : Option Addr) (key : Num) :
    Result Num Addr :=
  match g.conns fd with
  | none => ⟨g, [.reqkick p offlineReason .offline], false⟩
  | some c => ⟨(g.setPlayerid c p).addPlayer p ⟨p, agent, some c, key, []⟩, [.ret true], false⟩

/-- What follows the `reqkick` of each handler once it has answered. -/
def resume : Waiting → List (Out Num Addr)
  | .overflow => []
  | .offline => [.ret false]
  | .expired => []

/-- A conn whose player is gone faults on the nil `gplayer`. -/
def disconnect (g : State Num Addr) (fd : Fd) : Result Num Addr :=
  match g.conns fd with
  | none => ⟨g, [], false⟩
  | some c =>
    match (g.connHeap c).playerid with
    | none => ⟨g, [], false⟩
    | some p =>
      match g.players p with
      | none => ⟨g, [], true⟩
      | some r => ⟨(g.setConn r none).addTimer r p, [], false⟩

def expire (g : State Num Addr) (t : Timer Num) : Result Num Addr :=
  match (g.playerHeap t.gplayer).conn with
  | some _ => ⟨g, [], false⟩
  | none => ⟨g, [.reqkick t.playerid expiredReason .expired], false⟩

def kick (g : State Num Addr) (p : Num) : Result Num Addr :=
  match g.players p with
  | none => ⟨g, [], false⟩
  | some r =>
    match (g.playerHeap r).conn with
    | none => ⟨g.removePlayer p, [], false⟩
    | some c =>
      let fd := (g.connHeap c).fd
      match disconnect ((g.removePlayer p).removeConn fd) fd with
      | ⟨g', outs, true⟩ => ⟨g', outs, true⟩
      | ⟨g', outs, false⟩ => ⟨g', outs ++ [.close fd], false⟩

/-- The loop over `msgcache`, left at the first message that faults. -/
def replay (g : State Num Addr) (fd : Fd) : List (Msg Num) → List (Out Num Addr) × Bool
  | [] => ([], false)
  | cmsg :: rest =>
    match sendByFd g fd cmsg with
    | (outs, true) => (outs, true)
    | (outs, false) => (outs ++ (replay g fd rest).1, (replay g fd rest).2)

/-- The answer to a successful reconnect. -/
def reconnected : Msg Num := [.str (bytes "reconnect"), .num (LuaNumber.ofNat 0)]

/-- The player object that a reconnect line on `fd` may take over, with the connection. -/
def reconnectTarget (g : State Num Addr) (fd : Fd) (msg : List Bytes) :
    Option (Num × PlayerRef × ConnRef) := do
  let c ← g.conns fd
  let p ← msg[1]?.bind tonumber
  let r ← g.players p
  if (g.playerHeap r).conn.isSome then none
  else if msg[2]?.bind tonumber = some (g.playerHeap r).key then some (p, r, c)
  else none

def processReconnect (g : State Num Addr) (fd : Fd) (msg : List Bytes) : Result Num Addr :=
  match reconnectTarget g fd msg with
  | none => ⟨g, [], false⟩
  | some (p, r, c) =>
    let g' := (g.setConn r (some c)).setPlayerid c p
    match replay g' fd (reconnected :: (g'.playerHeap r).msgcache) with
    | (outs, true) => ⟨g', outs, true⟩
    | (outs, false) => ⟨g'.setCache r [], outs, false⟩

/-- `loginid` is the draw of `math.random(1, #nodecfg.login)`. -/
def processMsg (g : State Num Addr) (fd : Fd) (msgstr : Bytes) (loginid : ℕ) :
    Result Num Addr :=
  let msg := strUnpack msgstr
  let cmd := msg.headD []
  match g.conns fd with
  | none => ⟨g, [], true⟩
  | some c =>
    if cmd = bytes "reconnect" then processReconnect g fd msg
    else
      match (g.connHeap c).playerid with
      | none => ⟨g, [.toLogin loginid fd cmd msg], false⟩
      | some p =>
        match (g.players p).bind fun r => (g.playerHeap r).agent with
        | none => ⟨g, [], true⟩
        | some agent => ⟨g, [.toAgent agent cmd msg], false⟩

def connect (g : State Num Addr) (fd : Fd) : State Num Addr :=
  if g.closing then g else g.openConn fd

/-- A fault in `process_msg` ends the coroutine of `recv_loop`. -/
def recvLine (g : State Num Addr) (fd : Fd) (msgstr : Bytes) (loginid : ℕ) :
    Result Num Addr :=
  match processMsg g fd msgstr loginid with
  | ⟨g', outs, true⟩ => ⟨g'.setLoop fd .dead, outs, true⟩
  | ⟨g', outs, false⟩ => ⟨g', outs, false⟩

/-- The last turn of `recv_loop`, after `socket.read` has answered false. -/
def recvEof (g : State Num Addr) (fd : Fd) : Result Num Addr :=
  match disconnect g fd with
  | ⟨g', outs, true⟩ => ⟨g'.setLoop fd .closed, outs, true⟩
  | ⟨g', outs, false⟩ => ⟨g'.setLoop fd .closed, outs ++ [.close fd], false⟩

/-- What can happen at a gateway. `line` is one line cut from the data of the socket
and `eof` the false answer of `socket.read`, both inside the `recv_loop` of `fd`; `hangup` is
the close of a socket whose `recv_loop` is dead. -/
inductive Event (Num Addr : Type)
  | connect (fd : Fd)
  | line (fd : Fd) (msgstr : Bytes) (loginid : ℕ)
  | eof (fd : Fd)
  | hangup (fd : Fd)
  | send (p : Num) (msg : Msg Num)
  | sendByFd (fd : Fd) (msg : Msg Num)
  | sureAgent (fd : Fd) (p : Num) (agent : Option Addr) (key : Num)
  | kick (p : Num)
  | shutdown
  | returned (waiting : Waiting)
  | timer (i : ℕ)
  | tick

def Enabled (g : State Num Addr) : Event Num Addr → Prop
  | .connect fd => g.lastFd < fd
  | .line fd _ _ => g.loops fd = some .reading
  | .eof fd => g.loops fd = some .reading
  | .hangup fd => g.loops fd = some .dead
  | .timer i => g.timers[i]?.any (fun t => decide (t.expire ≤ g.now)) = true
  | _ => True

instance Enabled.decidable (g : State Num Addr) : ∀ ev, Decidable (Enabled g ev)
  | .connect fd => inferInstanceAs (Decidable (g.lastFd < fd))
  | .line fd _ _ => inferInstanceAs (Decidable (g.loops fd = some .reading))
  | .eof fd => inferInstanceAs (Decidable (g.loops fd = some .reading))
  | .hangup fd => inferInstanceAs (Decidable (g.loops fd = some .dead))
  | .timer i => inferInstanceAs
      (Decidable (g.timers[i]?.any (fun t => decide (t.expire ≤ g.now)) = true))
  | .send _ _ | .sendByFd _ _ | .sureAgent _ _ _ _ | .kick _ | .shutdown | .returned _ | .tick =>
    inferInstanceAs (Decidable True)

def handle (g : State Num Addr) : Event Num Addr → Result Num Addr
  | .connect fd => ⟨{ connect g fd with lastFd := fd }, [], false⟩
  | .line fd msgstr loginid => recvLine g fd msgstr loginid
  | .eof fd => recvEof g fd
  | .hangup fd => ⟨g.setLoop fd .lost, [], false⟩
  | .send p msg => send g p msg
  | .sendByFd fd msg => ⟨g, (sendByFd g fd msg).1, (sendByFd g fd msg).2⟩
  | .sureAgent fd p agent key => sureAgent g fd p agent key
  | .kick p => kick g p
  | .shutdown => ⟨{ g with closing := true }, [], false⟩
  | .returned waiting => ⟨g, resume waiting, false⟩
  | .timer i =>
    match g.timers[i]? with
    | none => ⟨g, [], false⟩
    | some t => expire { g with timers := g.timers.eraseIdx i } t
  | .tick => ⟨{ g with now := g.now + 1 }, [], false⟩

def next (g : State Num Addr) (ev : Event Num Addr) : State Num Addr × List (Out Num Addr) :=
  ((handle g ev).state, (handle g ev).outs)

abbrev Label (Num Addr : Type) := Event Num Addr × List (Out Num Addr)

abbrev Step : State Num Addr → Label Num Addr → State Num Addr → Prop := Fires Enabled next

end Ue4Background.Gateway
