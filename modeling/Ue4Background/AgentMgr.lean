import Mathlib.Logic.Function.Basic
import Ue4Background.LuaValues
import Ue4Background.Transition

/-!
The agent manager (`service/agentmgr/init.lua`). A player record is a Lua table shared by
reference, so `players` holds references into a heap. A handler runs atomically up to its
next remote call and leaves a task, which holds the locals it still needs and goes on
with the answer of the call. A remote call answers a value, nothing, or raises; a call to
a nil address can only raise. A handler that raises answers nothing to its caller.
-/

namespace Ue4Background.AgentMgr

open LuaValues Transition

abbrev Ref := ℕ

abbrev Handler := ℕ

inductive Status
  | login
  | game
  | logout
  deriving DecidableEq

structure MgrPlayer (Num Node Addr : Type) where
  playerid : Num
  node : Node
  agent : Option Addr
  status : Status
  gate : Addr
  deriving DecidableEq

/-- What a suspended handler has still to do. `kickOld` and `kickGate` wait inside a
`reqlogin` for the kick of the old agent and of its gate, `newservice` for the new agent.
`kickAgent` waits inside a `reqkick`, which has no caller when it was forked. -/
inductive Task (Num Node Addr Caller : Type)
  | kickOld (caller : Caller) (playerid : Num) (node : Node) (gate : Addr) (mplayer : Ref)
      (pnode : Node) (pagent : Option Addr) (pgate : Addr)
  | kickGate (caller : Caller) (playerid : Num) (node : Node) (gate : Addr)
  | newservice (caller : Caller) (playerid : Num) (node : Node) (player : Ref)
  | kickAgent (caller : Option Caller) (playerid : Num) (mplayer : Ref) (pnode : Node)
      (pagent : Option Addr) (pgate : Addr)
  | forked (playerid : Num)
  | sleeping (caller : Caller) (num : ℤ) (count : ℕ)

structure State (Num Node Addr Caller : Type) where
  players : Table Num Ref
  heap : Ref → Option (MgrPlayer Num Node Addr)
  count : ℕ
  tasks : Handler → Option (Task Num Node Addr Caller)
  taskCount : ℕ

/-- How a remote call ends at its caller. -/
inductive Reply (Addr : Type)
  | raised
  | returned (value : Option Addr)
  deriving DecidableEq

/-- What a handler answers to its own caller; `nothing` after a fault. -/
inductive Answer (Addr : Type)
  | nothing
  | refused
  | granted (agent : Option Addr)
  | kicked
  | online (count : ℕ)
  deriving DecidableEq

inductive Out (Num Node Addr Caller : Type)
  | callKick (h : Handler) (node : Node) (agent : Option Addr)
  | sendExit (node : Node) (agent : Option Addr)
  | sendGate (node : Node) (gate : Addr) (playerid : Num) (msg : Msg Num)
  | callGateKick (h : Handler) (node : Node) (gate : Addr) (playerid : Num)
  | sendGateKick (node : Node) (gate : Addr) (playerid : Num)
  | callNewservice (h : Handler) (node : Node) (playerid : Num)
  | ret (caller : Caller) (answer : Answer Addr)
  deriving DecidableEq

abbrev Result (Num Node Addr Caller : Type) :=
  State Num Node Addr Caller × List (Out Num Node Addr Caller)

variable {Num Node Addr Caller : Type}

def init : State Num Node Addr Caller where
  players := ∅
  heap := fun _ => none
  count := 0
  tasks := fun _ => none
  taskCount := 0

namespace State

/-- A handler begins; its number has not been used before. -/
def start (m : State Num Node Addr Caller) : State Num Node Addr Caller :=
  { m with taskCount := m.taskCount + 1 }

def suspend (m : State Num Node Addr Caller) (h : Handler) (t : Task Num Node Addr Caller) :
    State Num Node Addr Caller :=
  { m with tasks := Function.update m.tasks h (some t) }

def finish (m : State Num Node Addr Caller) (h : Handler) : State Num Node Addr Caller :=
  { m with tasks := Function.update m.tasks h none }

/-- `skynet.fork(s.resp.reqkick, nil, playerid, "close server")` -/
def fork (m : State Num Node Addr Caller) (p : Num) : State Num Node Addr Caller :=
  m.start.suspend m.taskCount (.forked p)

/-- Assignments to fields of the record `r`. -/
def modify (m : State Num Node Addr Caller) (r : Ref)
    (f : MgrPlayer Num Node Addr → MgrPlayer Num Node Addr) : State Num Node Addr Caller :=
  { m with heap := Function.update m.heap r ((m.heap r).map f) }

/-- `mplayer.status = STATUS.LOGOUT` -/
def setLogout (m : State Num Node Addr Caller) (r : Ref) : State Num Node Addr Caller :=
  m.modify r fun mp => { mp with status := .logout }

/-- `player.agent = agent` and `player.status = STATUS.GAME` -/
def setGame (m : State Num Node Addr Caller) (r : Ref) (agent : Option Addr) :
    State Num Node Addr Caller :=
  m.modify r fun mp => { mp with agent := agent, status := .game }

variable [DecidableEq Num]

/-- `players[playerid]` with the record it refers to. -/
def record (m : State Num Node Addr Caller) (p : Num) :
    Option (Ref × MgrPlayer Num Node Addr) :=
  (m.players.lookup p).bind fun r => (m.heap r).map fun mp => (r, mp)

/-- `players[playerid] = player` for a new record. -/
def addPlayer (m : State Num Node Addr Caller) (p : Num) (player : MgrPlayer Num Node Addr) :
    State Num Node Addr Caller :=
  { m with
    players := m.players.insert p m.count
    heap := Function.update m.heap m.count (some player)
    count := m.count + 1 }

/-- `players[playerid] = nil` -/
def removePlayer (m : State Num Node Addr Caller) (p : Num) : State Num Node Addr Caller :=
  { m with players := m.players.erase p }

end State

/-- The message to a client whose player logs in elsewhere. -/
def displaced : Msg Num := [.str (bytes "kick"), .str (bytes "顶替下线")]

/-- A forked handler has nobody to answer. -/
def reply (caller : Option Caller) (answer : Answer Addr) : List (Out Num Node Addr Caller) :=
  caller.toList.map fun c => .ret c answer

def getOnlineCount (m : State Num Node Addr Caller) : ℕ := m.players.entries.length

/-- The loop of `shutdown` over `pairs(players)`, in the order `pairs` gives them. -/
def forkLoop (m : State Num Node Addr Caller) (num : ℤ) (n : ℕ) :
    List Num → State Num Node Addr Caller
  | [] => m
  | playerid :: rest =>
    if ((n + 1 : ℕ) : ℤ) > num then m.fork playerid
    else forkLoop (m.fork playerid) num (n + 1) rest

def shutdown (m : State Num Node Addr Caller) (h : Handler) (caller : Caller) (num : ℤ)
    (order : List Num) : Result Num Node Addr Caller :=
  ((forkLoop m num 0 order).suspend h (.sleeping caller num (getOnlineCount m)), [])

/-- One turn of the wait loop of `shutdown`. -/
def drain (m : State Num Node Addr Caller) (h : Handler) (caller : Caller) (num : ℤ)
    (count : ℕ) : Result Num Node Addr Caller :=
  let newCount := getOnlineCount m
  if newCount ≤ 0 ∨ (newCount : ℤ) ≤ count - num then
    (m.finish h, [.ret caller (.online newCount)])
  else (m, [])

variable [DecidableEq Num]

/-- The end of `reqlogin`, from the new record to the call of `newservice`. -/
def register (m : State Num Node Addr Caller) (h : Handler) (caller : Caller) (p : Num)
    (node : Node) (gate : Addr) : Result Num Node Addr Caller :=
  ((m.addPlayer p ⟨p, node, none, .login, gate⟩).suspend h (.newservice caller p node m.count),
    [.callNewservice h node p])

/-- A nil `playerid` faults at `players[playerid] = player`. -/
def reqlogin (m : State Num Node Addr Caller) (h : Handler) (caller : Caller)
    (playerid : Option Num) (node : Node) (gate : Addr) : Result Num Node Addr Caller :=
  match playerid with
  | none => (m, [.ret caller .nothing])
  | some p =>
    match m.record p with
    | none => register m h caller p node gate
    | some (r, mplayer) =>
      match mplayer.status with
      | .logout => (m, [.ret caller .refused])
      | .login => (m, [.ret caller .refused])
      | .game =>
        -- `mplayer.agnet` is not a field of the record, so `pagent` is nil; the call is
        -- evaluated before `mplayer.status` is assigned
        let pagent : Option Addr := none
        (m.suspend h (.kickOld caller p node gate r mplayer.node pagent mplayer.gate),
          [.callKick h mplayer.node pagent])

/-- The reason is not used. -/
def reqkick (m : State Num Node Addr Caller) (h : Handler) (caller : Option Caller)
    (p : Num) : Result Num Node Addr Caller :=
  match m.record p with
  | none => (m, reply caller .refused)
  | some (r, mplayer) =>
    match mplayer.status with
    | .login => (m, reply caller .refused)
    | .logout => (m, reply caller .refused)
    | .game =>
      ((m.setLogout r).suspend h
          (.kickAgent caller p r mplayer.node mplayer.agent mplayer.gate),
        [.callKick h mplayer.node mplayer.agent])

/-- The rest of a handler after a call has raised. -/
def fault (m : State Num Node Addr Caller) (h : Handler) :
    Task Num Node Addr Caller → Result Num Node Addr Caller
  | .kickOld caller _ _ _ _ _ _ _ => (m.finish h, [.ret caller .nothing])
  | .kickGate caller _ _ _ => (m.finish h, [.ret caller .nothing])
  | .newservice caller _ _ _ => (m.finish h, [.ret caller .nothing])
  | .kickAgent caller _ _ _ _ _ => (m.finish h, reply caller .nothing)
  | .forked _ => (m, [])
  | .sleeping _ _ _ => (m, [])

/-- The rest of a handler, up to its next call, after a call has returned `value`. -/
def proceed (m : State Num Node Addr Caller) (h : Handler) (value : Option Addr) :
    Task Num Node Addr Caller → Result Num Node Addr Caller
  | .kickOld caller p node gate r pnode pagent pgate =>
    ((m.setLogout r).suspend h (.kickGate caller p node gate),
      [.sendExit pnode pagent, .sendGate pnode pgate p displaced,
        .callGateKick h pnode pgate p])
  | .kickGate caller p node gate => register m h caller p node gate
  | .newservice caller _ _ r =>
    ((m.setGame r value).finish h, [.ret caller (.granted value)])
  | .kickAgent caller p _ pnode pagent pgate =>
    ((m.removePlayer p).finish h,
      [.sendExit pnode pagent, .sendGateKick pnode pgate p] ++ reply caller .kicked)
  | .forked _ => (m, [])
  | .sleeping _ _ _ => (m, [])

/-- What reaches the agent manager. `wake` starts a forked handler or ends a sleep, and
`answer` ends the remote call a handler is suspended in. -/
inductive Event (Num Node Addr Caller : Type)
  | reqlogin (caller : Caller) (playerid : Option Num) (node : Node) (gate : Addr)
  | reqkick (caller : Caller) (playerid : Num) (reason : Bytes)
  | shutdown (caller : Caller) (num : ℤ) (order : List Num)
  | wake (h : Handler)
  | answer (h : Handler) (reply : Reply Addr)

/-- A task waits for an answer, which can only be a fault if it calls a nil address. -/
def Task.Answers (reply : Reply Addr) : Task Num Node Addr Caller → Prop
  | .kickOld _ _ _ _ _ _ pagent _ => pagent = none → reply = .raised
  | .kickAgent _ _ _ _ pagent _ => pagent = none → reply = .raised
  | .kickGate _ _ _ _ => True
  | .newservice _ _ _ _ => True
  | .forked _ => False
  | .sleeping _ _ _ => False

def Task.Wakes : Task Num Node Addr Caller → Prop
  | .forked _ => True
  | .sleeping _ _ _ => True
  | _ => False

instance Task.Answers.decidable [DecidableEq Addr] (reply : Reply Addr) :
    ∀ t : Task Num Node Addr Caller, Decidable (t.Answers reply)
  | .kickOld _ _ _ _ _ _ pagent _ =>
    inferInstanceAs (Decidable (pagent = none → reply = .raised))
  | .kickAgent _ _ _ _ pagent _ =>
    inferInstanceAs (Decidable (pagent = none → reply = .raised))
  | .kickGate _ _ _ _ | .newservice _ _ _ _ => inferInstanceAs (Decidable True)
  | .forked _ | .sleeping _ _ _ => inferInstanceAs (Decidable False)

instance Task.Wakes.decidable : ∀ t : Task Num Node Addr Caller, Decidable t.Wakes
  | .forked _ | .sleeping _ _ _ => inferInstanceAs (Decidable True)
  | .kickOld _ _ _ _ _ _ _ _ | .kickGate _ _ _ _ | .newservice _ _ _ _
  | .kickAgent _ _ _ _ _ _ => inferInstanceAs (Decidable False)

def Enabled (m : State Num Node Addr Caller) : Event Num Node Addr Caller → Prop
  | .shutdown _ _ order => order.Perm m.players.keys
  | .wake h => ∃ t ∈ m.tasks h, t.Wakes
  | .answer h reply => ∃ t ∈ m.tasks h, t.Answers reply
  | _ => True

instance Enabled.decidable [DecidableEq Addr] (m : State Num Node Addr Caller) :
    ∀ ev, Decidable (Enabled m ev)
  | .shutdown _ _ order => inferInstanceAs (Decidable (order.Perm m.players.keys))
  | .wake h => inferInstanceAs (Decidable (∃ t ∈ m.tasks h, t.Wakes))
  | .answer h reply => inferInstanceAs (Decidable (∃ t ∈ m.tasks h, t.Answers reply))
  | .reqlogin _ _ _ _ | .reqkick _ _ _ => inferInstanceAs (Decidable True)

def wake (m : State Num Node Addr Caller) (h : Handler) : Result Num Node Addr Caller :=
  match m.tasks h with
  | some (.forked p) => reqkick (m.finish h) h none p
  | some (.sleeping caller num count) => drain m h caller num count
  | _ => (m, [])

def answer (m : State Num Node Addr Caller) (h : Handler) (reply : Reply Addr) :
    Result Num Node Addr Caller :=
  match m.tasks h with
  | none => (m, [])
  | some t =>
    match reply with
    | .raised => fault m h t
    | .returned value => proceed m h value t

def next (m : State Num Node Addr Caller) :
    Event Num Node Addr Caller → Result Num Node Addr Caller
  | .reqlogin caller p node gate => reqlogin m.start m.taskCount caller p node gate
  | .reqkick caller p _ => reqkick m.start m.taskCount (some caller) p
  | .shutdown caller num order => shutdown m.start m.taskCount caller num order
  | .wake h => wake m h
  | .answer h reply => answer m h reply

abbrev Label (Num Node Addr Caller : Type) :=
  Event Num Node Addr Caller × List (Out Num Node Addr Caller)

abbrev Step : State Num Node Addr Caller → Label Num Node Addr Caller →
    State Num Node Addr Caller → Prop :=
  Fires Enabled next

end Ue4Background.AgentMgr
