import Ue4Background.SceneFrames

/-!
One agent and the scenes it calls (`service/agent/scene.lua`, and `s.resp.client`, `s.resp.kick`
and `s.resp.exit` of `service/agent/init.lua`). A handler of the agent is suspended in each of
its calls; any scene may take any of the calls next, and any answer may be the next to arrive.
The agent manager kicks the agent once, and lets it exit when the kick has returned. The other
players of the scenes come and go.
-/

namespace Ue4Background.AgentScenes

open LuaValues Transition

/-- `s.id`, `mynode` and `skynet.self()` -/
structure Agent (Num Node Addr : Type) where
  id : Num
  mynode : Node
  self : Addr

inductive Request (Num : Type)
  | enter
  | leave
  | shift (x y : Value Num)
  deriving DecidableEq

/-- A call to a scene, with the answer of the scene when it has given one. -/
structure Call (Sid Num : Type) where
  scene : Sid
  request : Request Num
  answer : Option (Option Bool)
  deriving DecidableEq

/-- `leaving i` is the kick that waits in the call `i`, and `sleeping` the kick in its sleep. -/
inductive Phase
  | alive
  | leaving (i : ℕ)
  | sleeping
  | kicked
  | exited
  deriving DecidableEq

/-- `sname` stands for `s.snode` and `s.sname`, which are written together. -/
structure State (Sid Num Node Addr : Type) where
  sname : Option Sid
  phase : Phase
  calls : ℕ → Option (Call Sid Num)
  sessions : ℕ
  scenes : Sid → Scene.State Num Node Addr

/-- The answers of `s.client.enter`: `{"enter",1,"已在场景"}` and `{"enter",1,"进入失败"}`. -/
inductive Reply
  | present
  | failed
  deriving DecidableEq

/-- `scene` is what `random_scene` has drawn; `x` and `y` are the draws for a new ball. -/
inductive Event (Sid Num Node Addr : Type)
  | enter (scene : Sid)
  | shift (msg : List Bytes)
  | kick
  | wake
  | exit
  | serve (i : ℕ) (orders : Scene.Orders Num) (x y : Num)
  | resume (i : ℕ)
  | other (scene : Sid) (ev : Scene.Event Num Node Addr)

variable {Sid Num Node Addr : Type}

/-- The state of an agent that has just been created. -/
def init (scenes : Sid → Scene.State Num Node Addr) : State Sid Num Node Addr :=
  ⟨none, .alive, fun _ => none, 0, scenes⟩

namespace State

variable (st : State Sid Num Node Addr)

def call (scene : Sid) (request : Request Num) : State Sid Num Node Addr :=
  { st with
    calls := Function.update st.calls st.sessions (some ⟨scene, request, none⟩)
    sessions := st.sessions + 1 }

def finish (i : ℕ) : State Sid Num Node Addr :=
  { st with calls := Function.update st.calls i none }

/-- `s.leave_scene`, with which `s.resp.kick` begins. -/
def leaveScene : State Sid Num Node Addr :=
  match st.sname with
  | none => { st with phase := .sleeping }
  | some scene => { st.call scene .leave with phase := .leaving st.sessions }

def clientEnter (scene : Sid) : State Sid Num Node Addr × Option Reply :=
  match st.sname with
  | some _ => (st, some .present)
  | none => (st.call scene .enter, none)

/-- A handler goes on when its call returns, unless the agent has exited. -/
def resume (i : ℕ) (c : Call Sid Num) (answer : Option Bool) :
    State Sid Num Node Addr × Option Reply :=
  if st.phase = .exited then (st.finish i, none)
  else match c.request with
    | .enter =>
      if answer = some true then ({ st.finish i with sname := some c.scene }, none)
      else (st.finish i, some .failed)
    | .leave => ({ st.finish i with sname := none, phase := .sleeping }, none)
    | .shift _ _ => (st.finish i, none)

end State

/-- What an operation of a scene returns to its caller. -/
def answer (outs : List (Scene.Out Num Node Addr)) : Option (Option Bool) :=
  outs.findSome? fun
    | .ret a => some a
    | .send _ _ => none

variable [LuaArith Num]

/-- `s.client.shift` -/
def State.clientShift (st : State Sid Num Node Addr) (msg : List Bytes) :
    State Sid Num Node Addr :=
  match st.sname with
  | none => st
  | some scene => st.call scene (.shift (Scene.given msg[1]?) (Scene.given msg[2]?))

/-- What a call asks of its scene. -/
def Request.op (me : Agent Num Node Addr) (x y : Num) : Request Num → Scene.Op Num Node Addr
  | .enter => .enter me.id me.mynode me.self x y
  | .leave => .leave me.id
  | .shift speedx speedy => .shift me.id speedx speedy

variable [DecidableEq Sid] [DecidableEq Num]

def State.operate (st : State Sid Num Node Addr) (scene : Sid) (ev : Scene.Event Num Node Addr) :
    State Sid Num Node Addr :=
  { st with scenes := Function.update st.scenes scene (Scene.next (st.scenes scene) ev).1 }

/-- The scene of the call `c` takes it, and answers. -/
def State.serve (st : State Sid Num Node Addr) (me : Agent Num Node Addr) (i : ℕ)
    (c : Call Sid Num) (orders : Scene.Orders Num) (x y : Num) : State Sid Num Node Addr :=
  let ev : Scene.Event Num Node Addr := (c.request.op me x y, orders)
  { st.operate c.scene ev with
    calls := Function.update st.calls i
      (some { c with answer := answer (Scene.next (st.scenes c.scene) ev).2 }) }

/-- The operations that do not come from the player. -/
def Foreign (p : Num) : Scene.Op Num Node Addr → Prop
  | .enter q _ _ _ _ | .leave q | .shift q _ _ => q ≠ p
  | .update _ _ _ => True

instance Foreign.decidable (p : Num) : ∀ op : Scene.Op Num Node Addr, Decidable (Foreign p op)
  | .enter q _ _ _ _ | .leave q | .shift q _ _ => inferInstanceAs (Decidable (q ≠ p))
  | .update _ _ _ => inferInstanceAs (Decidable True)

def Enabled (me : Agent Num Node Addr) (st : State Sid Num Node Addr) :
    Event Sid Num Node Addr → Prop
  | .enter _ | .shift _ => st.phase ≠ .exited
  | .kick => st.phase = .alive
  | .wake => st.phase = .sleeping
  | .exit => st.phase = .kicked
  | .serve i _ _ _ => (st.calls i).map Call.answer = some none
  | .resume i => ((st.calls i).bind Call.answer).isSome
  | .other _ ev => Foreign me.id ev.1

instance Enabled.decidable (me : Agent Num Node Addr) (st : State Sid Num Node Addr) :
    ∀ ev, Decidable (Enabled me st ev)
  | .enter _ | .shift _ => inferInstanceAs (Decidable (st.phase ≠ .exited))
  | .kick => inferInstanceAs (Decidable (st.phase = .alive))
  | .wake => inferInstanceAs (Decidable (st.phase = .sleeping))
  | .exit => inferInstanceAs (Decidable (st.phase = .kicked))
  | .serve i _ _ _ => inferInstanceAs (Decidable ((st.calls i).map Call.answer = some none))
  | .resume i => inferInstanceAs (Decidable (((st.calls i).bind Call.answer).isSome = true))
  | .other _ ev => inferInstanceAs (Decidable (Foreign me.id ev.1))

def next (me : Agent Num Node Addr) (st : State Sid Num Node Addr) :
    Event Sid Num Node Addr → State Sid Num Node Addr × Option Reply
  | .enter scene => st.clientEnter scene
  | .shift msg => (st.clientShift msg, none)
  | .kick => (st.leaveScene, none)
  | .wake => ({ st with phase := .kicked }, none)
  | .exit => ({ st with phase := .exited }, none)
  | .serve i orders x y =>
    match st.calls i with
    | none => (st, none)
    | some c => (st.serve me i c orders x y, none)
  | .resume i =>
    match st.calls i with
    | some ⟨scene, request, some a⟩ => st.resume i ⟨scene, request, some a⟩ a
    | _ => (st, none)
  | .other scene ev => (st.operate scene ev, none)

abbrev Label (Sid Num Node Addr : Type) := Event Sid Num Node Addr × Option Reply

abbrev Step (me : Agent Num Node Addr) : State Sid Num Node Addr → Label Sid Num Node Addr →
    State Sid Num Node Addr → Prop :=
  Fires (Enabled me) (next me)

end Ue4Background.AgentScenes
