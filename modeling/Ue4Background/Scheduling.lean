import Mathlib.Algebra.Ring.Int.Defs
import Ue4Background.MessageQueue

/-!
The threads of a node and the queues of its services (`skynet_context_push`,
`skynet_context_new`, `skynet_context_release`, `delete_context`, `skynet_handle_retire` and
`skynet_mq_release`, and the loop of a worker, `skynet_context_message_dispatch`). A thread
executes one action at a time, each of them under one lock. The callback of a service and its
initialisation may send messages, launch and retire services. A launch registers the service and
creates its queue in one step, under a handle that was never issued before: the source issues
retired handles again once the storage has gone round all `2 ^ 24`, and such runs are left out.
-/

namespace Ue4Background.Kernel

open Transition

/-- What a thread still has to do in the calls it is in, one locked section each. -/
inductive Action
  | send (h : ℕ) (m : SkynetMessage)
  | push (h : ℕ) (m : SkynetMessage)
  | release (h : ℕ)
  | delete (h : ℕ)
  | retire (h : ℕ)
  | init (h : ℕ)
  | globalPush (h : ℕ)
  | mqRelease (h : ℕ)
  | drop (h : ℕ)
  deriving DecidableEq

/-- Where a thread stands in the loop of a worker. -/
inductive Pc
  | outside
  | fetch
  | hold (q : ℕ)
  | loop (q i n : ℕ)
  | taken (q i n : ℕ)
  | dispatching (q i n : ℕ)
  | finish (q : ℕ)
  deriving DecidableEq

structure Thread where
  todo : List Action
  pc : Pc

/-- A service with its queue; the storage of handles finds it while it is registered. -/
structure Service where
  issued : Bool
  registered : Bool
  freed : Bool
  ref : ℕ
  queue : MessageQueue

/-- A handle that was never issued. -/
def Service.absent (queue : ℕ → SkynetMessage) : Service :=
  { issued := false, registered := false, freed := true, ref := 0,
    queue := (MessageQueue.create 0 queue).markRelease.1 }

/-- `skynet_context_new` up to the initialisation of the module. -/
def Service.new (h : ℕ) (queue : ℕ → SkynetMessage) : Service :=
  { issued := true, registered := true, freed := false, ref := 2,
    queue := MessageQueue.create h queue }

structure Node (T : Type*) where
  services : ℕ → Service
  globalQueue : List ℕ
  threads : T → Thread

inductive NodeEvent (T : Type*)
  | send (t : T) (h : ℕ) (m : SkynetMessage)
  | launch (t : T) (h : ℕ) (queue : ℕ → SkynetMessage)
  | retire (t : T) (h : ℕ)
  | inited (t : T) (ok : Bool)
  | act (t : T)
  | work (t : T)

inductive Note
  | none
  | accepted (h : ℕ) (m : SkynetMessage)
  | dispatched (h : ℕ) (m : SkynetMessage)
  | dropped (h : ℕ) (m : SkynetMessage)

/-- `drop_message` reports the error to the source, unless that is the system. -/
def dropMessage (h : ℕ) (m : SkynetMessage) : List Action :=
  if m.source = 0 then []
  else [.send m.source { source := h, session := 0, data := [], type := ptypeError }]

def Action.isInit : Action → Bool
  | .init _ => true
  | _ => false

/-- The thread runs code of a service, or code outside of the services. -/
def Thread.calls (th : Thread) : Bool :=
  match th.todo with
  | [] =>
    match th.pc with
    | .outside => true
    | .dispatching _ _ _ => true
    | _ => false
  | a :: _ => a.isInit

namespace Node

variable {T : Type*}

def setService (s : Node T) (h : ℕ) (sv : Service) : Node T :=
  { s with services := Function.update s.services h sv }

def setThread [DecidableEq T] (s : Node T) (t : T) (th : Thread) : Node T :=
  { s with threads := Function.update s.threads t th }

/-- `skynet_globalmq_push`, where a flag says so. -/
def pushGlobal (s : Node T) (global : Bool) (h : ℕ) : Node T :=
  if global then { s with globalQueue := s.globalQueue ++ [h] } else s

/-- The next action of a thread, with what it does afterwards. -/
def act [DecidableEq T] (s : Node T) (t : T) (pc : Pc) (rest : List Action) : Action → Node T × Note
  | .send h m =>
    let sv := s.services h
    if sv.registered then
      ((s.setService h { sv with ref := sv.ref + 1 }).setThread t ⟨.push h m :: rest, pc⟩, .none)
    else (s.setThread t ⟨rest, pc⟩, .none)
  | .push h m =>
    let sv := s.services h
    let pushed := sv.queue.push m
    (((s.setService h { sv with queue := pushed.1 }).pushGlobal pushed.2 h).setThread t
      ⟨.release h :: rest, pc⟩, .accepted h m)
  | .release h =>
    let sv := s.services h
    ((s.setService h { sv with ref := sv.ref - 1 }).setThread t
      ⟨if sv.ref = 1 then .delete h :: rest else rest, pc⟩, .none)
  | .delete h =>
    let sv := s.services h
    let marked := sv.queue.markRelease
    (((s.setService h { sv with queue := marked.1 }).pushGlobal marked.2 h).setThread t
      ⟨rest, pc⟩, .none)
  | .retire h =>
    let sv := s.services h
    if sv.registered then
      ((s.setService h { sv with registered := false }).setThread t ⟨.release h :: rest, pc⟩,
        .none)
    else (s.setThread t ⟨rest, pc⟩, .none)
  | .init _ => (s, .none)
  | .globalPush h => ((s.pushGlobal true h).setThread t ⟨rest, pc⟩, .none)
  | .mqRelease h =>
    if (s.services h).queue.release then (s.setThread t ⟨.drop h :: rest, pc⟩, .none)
    else ((s.pushGlobal true h).setThread t ⟨rest, pc⟩, .none)
  | .drop h =>
    let sv := s.services h
    match sv.queue.pop with
    | (some m, queue) =>
      ((s.setService h { sv with queue }).setThread t ⟨dropMessage h m ++ .drop h :: rest, pc⟩,
        .dropped h m)
    | (none, queue) =>
      ((s.setService h { sv with queue, freed := true }).setThread t ⟨rest, pc⟩, .none)

/-- The loop of a worker of the given weight. -/
def work [DecidableEq T] (s : Node T) (weight : ℤ) (t : T) : Pc → Node T × Note
  | .outside => (s, .none)
  | .fetch =>
    match s.globalQueue with
    | [] => (s, .none)
    | h :: rest => (({ s with globalQueue := rest } : Node T).setThread t ⟨[], .hold h⟩, .none)
  | .hold q =>
    let sv := s.services q
    if sv.registered then
      ((s.setService q { sv with ref := sv.ref + 1 }).setThread t ⟨[], .loop q 0 1⟩, .none)
    else (s.setThread t ⟨[.mqRelease q], .fetch⟩, .none)
  | .loop q i n =>
    let sv := s.services q
    match sv.queue.pop with
    | (some m, queue) =>
      ((s.setService q { sv with queue }).setThread t ⟨[], .taken q i n⟩, .dispatched q m)
    | (none, queue) =>
      ((s.setService q { sv with queue }).setThread t ⟨[.release q], .fetch⟩, .none)
  | .taken q i n =>
    let sv := s.services q
    let n := if i = 0 ∧ weight ≥ 0 then sv.queue.length >>> weight.toNat else n
    ((s.setService q { sv with queue := sv.queue.takeOverload.2 }).setThread t
      ⟨[], .dispatching q i n⟩, .none)
  | .dispatching q i n =>
    (s.setThread t ⟨[], if i + 1 < n then .loop q (i + 1) n else .finish q⟩, .none)
  | .finish q =>
    match s.globalQueue with
    | [] => (s.setThread t ⟨[.release q], .hold q⟩, .none)
    | h :: rest =>
      (({ s with globalQueue := rest } : Node T).setThread t
        ⟨[.globalPush q, .release q], .hold h⟩, .none)

/-- A launch takes a handle that no service has had. -/
def Enabled (s : Node T) : NodeEvent T → Prop
  | .send t _ _ => (s.threads t).calls = true
  | .launch t h _ => (s.threads t).calls = true ∧ (s.services h).issued = false
  | .retire t _ => (s.threads t).calls = true
  | .inited t _ => (s.threads t).todo.head?.any Action.isInit = true
  | .act t => (s.threads t).todo.head?.any (fun a => !a.isInit) = true
  | .work t => (s.threads t).todo.isEmpty = true

instance Enabled.decidable (s : Node T) : ∀ e, Decidable (Enabled s e)
  | .send _ _ _ => inferInstanceAs (Decidable (_ = true))
  | .launch _ _ _ => inferInstanceAs (Decidable (_ = true ∧ _ = false))
  | .retire _ _ => inferInstanceAs (Decidable (_ = true))
  | .inited _ _ => inferInstanceAs (Decidable (_ = true))
  | .act _ => inferInstanceAs (Decidable (_ = true))
  | .work _ => inferInstanceAs (Decidable (_ = true))

/-- The calls a thread makes come before what it has to do. -/
def next [DecidableEq T] (weights : T → ℤ) (s : Node T) : NodeEvent T → Node T × Note
  | .send t h m =>
    (s.setThread t ⟨.send h m :: (s.threads t).todo, (s.threads t).pc⟩, .none)
  | .launch t h queue =>
    ((s.setService h (.new h queue)).setThread t
      ⟨.init h :: (s.threads t).todo, (s.threads t).pc⟩, .none)
  | .retire t h =>
    (s.setThread t ⟨.retire h :: (s.threads t).todo, (s.threads t).pc⟩, .none)
  | .inited t ok =>
    match (s.threads t).todo with
    | .init h :: rest =>
      if ok then
        (s.setThread t ⟨.release h :: .globalPush h :: rest, (s.threads t).pc⟩, .none)
      else
        (s.setThread t ⟨.release h :: .retire h :: .mqRelease h :: rest, (s.threads t).pc⟩, .none)
    | _ => (s, .none)
  | .act t =>
    match (s.threads t).todo with
    | a :: rest => s.act t (s.threads t).pc rest a
    | [] => (s, .none)
  | .work t => s.work (weights t) t (s.threads t).pc

/-- `skynet_mq_init`; the given threads are workers. -/
def start (queue : ℕ → SkynetMessage) (worker : T → Bool) : Node T :=
  { services := fun _ => .absent queue
    globalQueue := []
    threads := fun t => ⟨[], if worker t then .fetch else .outside⟩ }

theorem exists_action {p : Action → Bool} {todo : List Action}
    (h : todo.head?.any p = true) : ∃ a rest, todo = a :: rest ∧ p a = true := by
  cases todo with
  | nil => cases h
  | cons a rest => exact ⟨a, rest, rfl, h⟩

theorem exists_init {todo : List Action} (h : todo.head?.any Action.isInit = true) :
    ∃ g rest, todo = .init g :: rest := by
  obtain ⟨a, rest, rfl, ha⟩ := exists_action h
  cases a with
  | init g => exact ⟨g, rest, rfl⟩
  | _ => cases ha

end Node

end Ue4Background.Kernel
