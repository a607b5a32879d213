import Ue4Background.System

/-!
The admin service (`service/admin/init.lua`) beside the composed system. Every operator who
enters `stop` starts a handler. It calls `shutdown` at the gateways of the cluster, one after
the other in the order `pairs` gives them, and then at the agent manager, again and again
until the answer is that nobody is online; then it aborts. The other services go on while it
waits, and so they may between an answer and its arrival. They may also after the abort,
which ends one process of the cluster.
-/

namespace Ue4Background.Admin

open LuaValues Transition
open AgentMgr (Handler)
open Ue4Background.System (Site Packet)

/-- How far a handler of `stop` is: it waits for the `shutdown` of the next gateway, for that
of the agent manager, for the arrival of its answer, or for the end of its `sleep`. -/
inductive Stop (Node Addr : Type)
  | idle
  | gates (rest : List (Site Node Addr))
  | asking (h : Handler)
  | told (onlineNum : ℕ)
  | sleeping
  | aborted
  deriving DecidableEq

structure World (Num Node Addr : Type) where
  system : System.World Num Node Addr
  stops : ℕ → Stop Node Addr

inductive Event (Num Node Addr : Type)
  | system (ev : System.Event Num Node Addr)
  | stop (i : ℕ) (order : List (Site Node Addr))
  | shutdownGate (i : ℕ) (g : Site Node Addr) (rest : List (Site Node Addr))
  | shutdownAgent (i : ℕ) (order : List Num)
  | answered (i : ℕ) (onlineNum : ℕ)

variable {Num Node Addr : Type}

/-- The count that the agent manager returns to `stop`. -/
def online : AgentMgr.Out Num Node Addr (System.Caller Node Addr) → Option ℕ
  | .ret .admin (.online count) => some count
  | _ => none

variable [DecidableEq Num] [DecidableEq Node] [DecidableEq Addr] [LuaNumber Num]

def init : World Num Node Addr := ⟨System.init, fun _ => .idle⟩

/-- What the `shutdown` that runs in the handler `h` returns in this event, if it ends. -/
def returned (w : System.World Num Node Addr) (h : Handler) : System.Event Num Node Addr → Option ℕ
  | .wake k => if k = h then (AgentMgr.wake w.manager.mgr h).2.findSome? online else none
  | _ => none

/-- A handler of `stop` while the other services handle an event. -/
def Stop.hear (w : System.World Num Node Addr) (ev : System.Event Num Node Addr) :
    Stop Node Addr → Stop Node Addr
  | .asking h =>
    match returned w h ev with
    | some onlineNum => .told onlineNum
    | none => .asking h
  | s => s

namespace World

def setStop (w : World Num Node Addr) (i : ℕ) (s : Stop Node Addr) : World Num Node Addr :=
  { w with stops := Function.update w.stops i s }

omit [DecidableEq Num] [DecidableEq Node] [DecidableEq Addr] [LuaNumber Num] in
theorem setStop_stops (w : World Num Node Addr) (i : ℕ) (s : Stop Node Addr) :
    (w.setStop i s).stops = Function.update w.stops i s := rfl

def next (users : List (Num × Bytes)) (w : World Num Node Addr) :
    Event Num Node Addr → World Num Node Addr × List (Packet Num Node Addr)
  | .system ev =>
    let res := System.World.next users w.system ev
    (⟨res.1, fun i => (w.stops i).hear w.system ev⟩, res.2)
  | .stop i order => (w.setStop i (.gates order), [])
  | .shutdownGate i g rest =>
    let res := System.World.next users w.system (.gate g .shutdown)
    ({ w with system := res.1 }.setStop i (.gates rest), res.2)
  | .shutdownAgent i order =>
    let res := System.World.next users w.system (.shutdown 3 order)
    ({ w with system := res.1 }.setStop i (.asking w.system.manager.mgr.taskCount), res.2)
  | .answered i onlineNum => (w.setStop i (if onlineNum ≤ 0 then .aborted else .sleeping), [])

/-- Gateways run where the configuration has them, and only `stop` calls `shutdown`. -/
def Configured (cluster : List (Site Node Addr)) : System.Event Num Node Addr → Prop
  | .gate _ .shutdown => False
  | .gate g _ => g ∈ cluster
  | .shutdown _ _ => False
  | _ => True

instance Configured.decidable (cluster : List (Site Node Addr)) :
    ∀ ev : System.Event Num Node Addr, Decidable (Configured cluster ev)
  | .gate g ev =>
    match ev with
    | .shutdown => inferInstanceAs (Decidable False)
    | .connect _ | .line _ _ _ | .eof _ | .hangup _ | .send _ _ | .sendByFd _ _
    | .sureAgent _ _ _ _ | .kick _ | .returned _ | .timer _ | .tick =>
      inferInstanceAs (Decidable (g ∈ cluster))
  | .shutdown _ _ => inferInstanceAs (Decidable False)
  | .deliver _ _ | .query _ | .wake _ | .kicked _ | .spawn _ _ | .push _ _ _ _ | .raiseMgr _
  | .raiseLogin _ | .raiseGate _ | .raiseJob _ => inferInstanceAs (Decidable True)

def Enabled (cluster : List (Site Node Addr)) (w : World Num Node Addr) :
    Event Num Node Addr → Prop
  | .system ev => w.system.Enabled ev ∧ Configured cluster ev
  | .stop i order => w.stops i = .idle ∧ order.Perm cluster
  | .shutdownGate i g rest => w.stops i = .gates (g :: rest)
  | .shutdownAgent i order =>
    (w.stops i = .gates [] ∨ w.stops i = .sleeping) ∧ w.system.Enabled (.shutdown 3 order)
  | .answered i onlineNum => w.stops i = .told onlineNum

instance Enabled.decidable (cluster : List (Site Node Addr)) (w : World Num Node Addr) :
    ∀ ev, Decidable (w.Enabled cluster ev)
  | .system ev => inferInstanceAs (Decidable (w.system.Enabled ev ∧ Configured cluster ev))
  | .stop i order => inferInstanceAs (Decidable (w.stops i = .idle ∧ order.Perm cluster))
  | .shutdownGate i g rest => inferInstanceAs (Decidable (w.stops i = .gates (g :: rest)))
  | .shutdownAgent i order => inferInstanceAs (Decidable
      ((w.stops i = .gates [] ∨ w.stops i = .sleeping) ∧ w.system.Enabled (.shutdown 3 order)))
  | .answered i onlineNum => inferInstanceAs (Decidable (w.stops i = .told onlineNum))

end World

abbrev Label (Num Node Addr : Type) := Event Num Node Addr × List (Packet Num Node Addr)

abbrev Step (users : List (Num × Bytes)) (cluster : List (Site Node Addr)) :
    World Num Node Addr → Label Num Node Addr → World Num Node Addr → Prop :=
  Fires (World.Enabled cluster) (World.next users)

/-- No remote call of the other services fails. -/
def Reliable (w : World Num Node Addr) (l : Label Num Node Addr) : Prop :=
  match l.1 with
  | .system ev => System.Reliable w.system (ev, l.2)
  | .stop _ _ | .shutdownGate _ _ _ | .shutdownAgent _ _ | .answered _ _ => True

instance Reliable.decidable (w : World Num Node Addr) : ∀ l, Decidable (Reliable w l)
  | (.system ev, pkts) => inferInstanceAs (Decidable (System.Reliable w.system (ev, pkts)))
  | (.stop _ _, _) | (.shutdownGate _ _ _, _) | (.shutdownAgent _ _, _) | (.answered _ _, _) =>
    inferInstanceAs (Decidable True)

end Ue4Background.Admin
