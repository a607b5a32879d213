import Ue4Background.AgentMgr
import Ue4Background.Gateway

/-!
The login service (`service/login/init.lua`). Its handlers share no state, so a suspended
handler is the task it has still to do. A handler waits in turn for the rows of the
database, for the answer of the agent manager and for the answer of the gateway. A call
that raises ends its handler, which has nobody to answer.
-/

namespace Ue4Background.Login

open LuaValues
open Gateway (Fd)

inductive Task (Num Addr : Type)
  | querying (fd : Fd) (playerid : Option Num) (pw : Bytes) (gate : Addr)
  | requesting (fd : Fd) (playerid : Option Num) (gate : Addr)
  | binding (fd : Fd) (playerid : Num) (gate : Addr)
  deriving DecidableEq

/-- How a call that a handler waits for ends. -/
inductive Response (Addr : Type)
  | rows (passwords : List Bytes)
  | reqlogin (answer : AgentMgr.Answer Addr)
  | sureAgent (isok : Bool)
  | raised

inductive Out (Num Node Addr : Type)
  | query
  | callReqlogin (playerid : Option Num) (node : Node) (gate : Addr)
  | callSureAgent (gate : Addr) (fd : Fd) (playerid : Num) (agent : Option Addr)
  | sendByFd (gate : Addr) (fd : Fd) (msg : Msg Num)

abbrev Result (Num Node Addr : Type) := Option (Task Num Addr) × List (Out Num Node Addr)

variable {Num Node Addr : Type} [LuaNumber Num]

/-- `{"login", code, text}` -/
def loginReply (code : ℕ) (text : String) : Msg Num :=
  [.str (bytes "login"), .num (LuaNumber.ofNat code), .str (bytes text)]

/-- `tostring(msg[3])` -/
def passwordText (msg : List Bytes) : Bytes := msg[2]?.getD (bytes "nil")

/-- `tonumber(msg[2])` -/
def playeridOf (msg : List Bytes) : Option Num := msg[1]?.bind tonumber

/-- The rows of `select password from user where user_id = 1`. -/
def select [DecidableEq Num] (users : List (Num × Bytes)) : List Bytes :=
  (users.filter fun row => row.1 = LuaNumber.ofNat 1).map Prod.snd

/-- The only client command of the service is `login`. -/
def client (fd : Fd) (cmd : Bytes) (msg : List Bytes) (source : Addr) : Result Num Node Addr :=
  if cmd = bytes "login" then
    (some (.querying fd (playeridOf msg) (passwordText msg) source), [.query])
  else (none, [])

theorem client_task {fd : Fd} {cmd : Bytes} {msg : List Bytes} {source : Addr}
    {t : Task Num Addr} (h : (client fd cmd msg source : Result Num Node Addr).1 = some t) :
    cmd = bytes "login" ∧ t = .querying fd (playeridOf msg) (passwordText msg) source := by
  unfold client at h
  split at h
  · rename_i hlogin
    exact ⟨hlogin, (Option.some.inj h).symm⟩
  · cases h

/-- The handler after the query; it raises when there is no row. -/
def queried (node : Node) (fd : Fd) (playerid : Option Num) (pw : Bytes) (gate : Addr) :
    List Bytes → Result Num Node Addr
  | [] => (none, [])
  | password :: _ =>
    if pw ≠ password then (none, [.sendByFd gate fd (loginReply 1 "密码错误")])
    else (some (.requesting fd playerid gate), [.callReqlogin playerid node gate])

/-- The agent manager grants no request without a player id. -/
def requested (fd : Fd) (playerid : Option Num) (gate : Addr) (answer : AgentMgr.Answer Addr) :
    Result Num Node Addr :=
  match answer, playerid with
  | .granted agent, some p => (some (.binding fd p gate), [.callSureAgent gate fd p agent])
  | _, _ => (none, [.sendByFd gate fd (loginReply 1 "请求mgr失败")])

def sured (fd : Fd) (gate : Addr) : Bool → Result Num Node Addr
  | false => (none, [.sendByFd gate fd (loginReply 1 "gate注册失败")])
  | true => (none, [.sendByFd gate fd (loginReply 0 "登陆成功")])

/-- A response belongs to the call that the handler waits for. -/
def resume (node : Node) : Task Num Addr → Response Addr → Result Num Node Addr
  | _, .raised => (none, [])
  | .querying fd playerid pw gate, .rows passwords => queried node fd playerid pw gate passwords
  | .requesting fd playerid gate, .reqlogin answer => requested fd playerid gate answer
  | .binding fd _ gate, .sureAgent isok => sured fd gate isok
  | t, _ => (some t, [])

/-- The call that a handler waits for is the one that the response belongs to. -/
def Expects : Task Num Addr → Response Addr → Prop
  | _, .raised => True
  | .querying _ _ _ _, .rows _ => True
  | .requesting _ _ _, .reqlogin _ => True
  | .binding _ _ _, .sureAgent _ => True
  | _, _ => False

/-- What a response can do to the handler it reaches. -/
inductive Change (node : Node) : Task Num Addr → Response Addr → Option (Task Num Addr) →
    List (Out Num Node Addr) → Prop
  | raised (t : Task Num Addr) : Change node t .raised none []
  | noRow (fd : Fd) (playerid : Option Num) (pw : Bytes) (gate : Addr) :
      Change node (.querying fd playerid pw gate) (.rows []) none []
  | refused (fd : Fd) (playerid : Option Num) (pw : Bytes) (gate : Addr) (password : Bytes)
      (rest : List Bytes) (hpw : pw ≠ password) :
      Change node (.querying fd playerid pw gate) (.rows (password :: rest)) none
        [.sendByFd gate fd (loginReply 1 "密码错误")]
  | passed (fd : Fd) (playerid : Option Num) (pw : Bytes) (gate : Addr) (rest : List Bytes) :
      Change node (.querying fd playerid pw gate) (.rows (pw :: rest))
        (some (.requesting fd playerid gate)) [.callReqlogin playerid node gate]
  | granted (fd : Fd) (p : Num) (gate : Addr) (agent : Option Addr) :
      Change node (.requesting fd (some p) gate) (.reqlogin (.granted agent))
        (some (.binding fd p gate)) [.callSureAgent gate fd p agent]
  | denied (fd : Fd) (playerid : Option Num) (gate : Addr) (answer : AgentMgr.Answer Addr)
      (hdenied : ∀ agent p, answer = .granted agent → playerid ≠ some p) :
      Change node (.requesting fd playerid gate) (.reqlogin answer) none
        [.sendByFd gate fd (loginReply 1 "请求mgr失败")]
  | sured (fd : Fd) (p : Num) (gate : Addr) (isok : Bool) (msg : Msg Num) :
      Change node (.binding fd p gate) (.sureAgent isok) none [.sendByFd gate fd msg]
  | ignored (t : Task Num Addr) (response : Response Addr) (hexpects : ¬ Expects t response) :
      Change node t response (some t) []

theorem resume_change (node : Node) (t : Task Num Addr) (response : Response Addr) :
    Change node t response (resume node t response).1 (resume node t response).2 := by
  cases response with
  | raised => cases t <;> exact Change.raised _
  | rows passwords =>
    cases t with
    | querying fd playerid pw gate =>
      cases passwords with
      | nil => exact Change.noRow fd playerid pw gate
      | cons password rest =>
        simp only [resume, queried]
        split
        · rename_i hpw
          exact Change.refused fd playerid pw gate password rest hpw
        · rename_i hpw
          rw [not_not] at hpw
          subst hpw
          exact Change.passed fd playerid pw gate rest
    | requesting => exact Change.ignored _ _ fun h => h
    | binding => exact Change.ignored _ _ fun h => h
  | reqlogin answer =>
    cases t with
    | querying => exact Change.ignored _ _ fun h => h
    | requesting fd playerid gate =>
      simp only [resume, requested]
      split
      · exact Change.granted fd _ gate _
      · rename_i hdenied
        exact Change.denied fd playerid gate answer fun agent p ha hp => hdenied agent p ha hp
    | binding => exact Change.ignored _ _ fun h => h
  | sureAgent isok =>
    cases t with
    | querying => exact Change.ignored _ _ fun h => h
    | requesting => exact Change.ignored _ _ fun h => h
    | binding fd p gate =>
      cases isok with
      | false => exact Change.sured fd p gate false _
      | true => exact Change.sured fd p gate true _

end Ue4Background.Login
