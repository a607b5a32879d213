import Ue4Background.Admin
import Ue4Background.Credentials
import Ue4Background.Released

/-!
Closing the server. A gateway tests `closing` where it accepts a connection and nowhere
else. A login line that was under way when the last gateway closed, or that comes later on
a connection accepted before, still brings a player into the table of the agent manager,
also between the count that `stop` has been told and its abort. When no such line is there,
nobody enters any more, and the abort finds the table empty and every agent gone.
-/

namespace Ue4Background

open LuaValues Transition

namespace AgentMgr

variable {Num Node Addr Caller : Type} [DecidableEq Num]

theorem absent_of_count {m : State Num Node Addr Caller}
    (hcount : getOnlineCount m = 0) (p : Num) : m.players.lookup p = none := by
  have hnil : m.players.entries = [] := List.eq_nil_of_length_eq_zero hcount
  have hempty : m.players = ∅ := AList.ext hnil
  rw [hempty]
  exact AList.lookup_empty p

theorem empty_of_absent {m : State Num Node Addr Caller}
    (habsent : ∀ p, m.players.lookup p = none) : m.players = ∅ := by
  refine AList.ext (List.eq_nil_iff_forall_not_mem.mpr ?_)
  rintro ⟨p, r⟩ hr
  rw [← AList.mem_lookup_iff, habsent p] at hr
  cases hr

end AgentMgr

namespace Gateway

variable {Num Addr : Type} [DecidableEq Num] [LuaNumber Num]

/-- A gateway closes by `shutdown` and does not open again. -/
theorem closing_step {g g' : State Num Addr} {l : Label Num Addr} (hstep : Step g l g') :
    g'.closing = true ↔ g.closing = true ∨ l.1 = .shutdown := by
  have hchange := step_change hstep
  obtain ⟨ev, outs⟩ := l
  dsimp only at hchange ⊢
  cases hchange
  case shut => simp
  case opened => simp [State.openConn]
  all_goals simp [State.setLoop, State.setCache, State.rebind, State.setConn, State.setPlayerid,
    State.addPlayer, State.addTimer, State.removePlayer, State.removeConn]

end Gateway

namespace System

open Gateway (strUnpack)
open Login (playeridOf passwordText select)

variable {Num Node Addr : Type} [DecidableEq Num] [LuaNumber Num]

/-- A line that names a player and has the password that passes. -/
def Passes (users : List (Num × Bytes)) (msg : List Bytes) : Prop :=
  (playeridOf msg : Option Num).isSome = true ∧
    (select users).head? = some (passwordText msg)

instance Passes.decidable (users : List (Num × Bytes)) (msg : List Bytes) :
    Decidable (Passes users msg) :=
  inferInstanceAs (Decidable ((playeridOf msg : Option Num).isSome = true ∧
    (select users).head? = some (passwordText msg)))

/-- A packet by which a player may still enter. -/
def Admits (users : List (Num × Bytes)) : Packet Num Node Addr → Prop
  | .client _ _ _ cmd msg => cmd = bytes "login" ∧ Passes users msg
  | .reqlogin _ playerid _ => playerid.isSome = true
  | _ => False

instance Admits.decidable (users : List (Num × Bytes)) :
    ∀ q : Packet Num Node Addr, Decidable (Admits users q)
  | .client _ _ _ cmd msg => inferInstanceAs (Decidable (cmd = bytes "login" ∧ Passes users msg))
  | .reqlogin _ playerid _ => inferInstanceAs (Decidable (playerid.isSome = true))
  | .command _ _ _ _ | .answered _ _ | .sureAgent _ _ _ _ _ | .sured _ _ _ | .sendByFd _ _ _ _
  | .send _ _ _ _ | .reqkick _ _ _ _ | .returned _ _ | .kick _ _ | .callKick _ _ _ | .kicked _ _
  | .kickAgent _ _ | .agentKicked _ _ | .exit _ | .newservice _ _ _ | .launched _ _ _ =>
    inferInstanceAs (Decidable False)

/-- A handler of a login service that will ask for a player. -/
def WillAsk (users : List (Num × Bytes)) : Login.Task Num Addr → Prop
  | .querying _ playerid pw _ => playerid.isSome = true ∧ (select users).head? = some pw
  | _ => False

instance WillAsk.decidable (users : List (Num × Bytes)) :
    ∀ t : Login.Task Num Addr, Decidable (WillAsk users t)
  | .querying _ playerid pw _ =>
    inferInstanceAs (Decidable (playerid.isSome = true ∧ (select users).head? = some pw))
  | .requesting _ _ _ | .binding _ _ _ => inferInstanceAs (Decidable False)

/-- No login is under way from which a player may enter. -/
structure Calm (users : List (Num × Bytes)) (w : World Num Node Addr) : Prop where
  wire : ∀ q ∈ w.wire, ¬ Admits users q
  logins : ∀ s ∈ w.logins.entries, ¬ WillAsk users s.2.2

instance Calm.decidable (users : List (Num × Bytes)) (w : World Num Node Addr) :
    Decidable (Calm users w) :=
  decidable_of_iff
    ((∀ q ∈ w.wire, ¬ Admits users q) ∧ ∀ s ∈ w.logins.entries, ¬ WillAsk users s.2.2)
    ⟨fun h => ⟨h.1, h.2⟩, fun h => ⟨h.wire, h.logins⟩⟩

/-- A login line that passes comes on a connection without a player. -/
def LogsIn (users : List (Num × Bytes)) (w : World Num Node Addr) : Event Num Node Addr → Prop
  | .gate g (.line fd msgstr _) => Gateway.Unbound (w.gates g) fd ∧
      (strUnpack msgstr).headD [] = bytes "login" ∧ Passes users (strUnpack msgstr)
  | _ => False

instance LogsIn.decidable (users : List (Num × Bytes)) (w : World Num Node Addr) :
    ∀ ev, Decidable (LogsIn users w ev)
  | .gate g (.line fd msgstr _) => inferInstanceAs (Decidable (Gateway.Unbound (w.gates g) fd ∧
      (strUnpack msgstr).headD [] = bytes "login" ∧ Passes users (strUnpack msgstr)))
  | .gate _ (.connect _) | .gate _ (.eof _) | .gate _ (.hangup _) | .gate _ (.send _ _)
  | .gate _ (.sendByFd _ _) | .gate _ (.sureAgent _ _ _ _) | .gate _ (.kick _)
  | .gate _ .shutdown | .gate _ (.returned _) | .gate _ (.timer _) | .gate _ .tick
  | .deliver _ _ | .query _ | .shutdown _ _ | .wake _
  | .kicked _ | .spawn _ _ | .push _ _ _ _ | .raiseMgr _ | .raiseLogin _ | .raiseGate _
  | .raiseJob _ => inferInstanceAs (Decidable False)

namespace Calm

variable {users : List (Num × Bytes)} {w w' : World Num Node Addr} {l : Label Num Node Addr}

theorem init : Calm users (init : World Num Node Addr) where
  wire _ hq := by cases hq
  logins _ hs := by cases hs

theorem task (h : Calm users w) {s : ℕ} {i : LoginId Node} {t : Login.Task Num Addr}
    (ht : w.logins.lookup s = some (i, t)) : ¬ WillAsk users t :=
  h.logins _ (AList.mem_lookup_iff.mp ht)

variable [DecidableEq Node] [DecidableEq Addr]

/-- What the login services hold after a step in the calm. -/
theorem task_step (h : Calm users w) (hstep : Step users w l w') {s : ℕ} {i : LoginId Node}
    {t : Login.Task Num Addr} (ht : w'.logins.lookup s = some (i, t)) : ¬ WillAsk users t := by
  rcases login_tasks (step_change hstep) ht with
    hold | ⟨g, loginid, fd, cmd, msg, htaken, _, hclient⟩ | ⟨t₀, response, outs, _, hold, hchange⟩
  · exact h.task hold
  · obtain ⟨hlogin, rfl⟩ := Login.client_task hclient
    exact fun hasks => h.wire _ (mem_wire.mpr (Or.inl htaken)) ⟨hlogin, hasks⟩
  · cases hchange with
    | passed => exact fun hasks => hasks
    | granted => exact fun hasks => hasks
    | ignored => exact h.task hold

/-- Only a line that passes can end the calm. -/
theorem step (h : Calm users w) (hstep : Step users w l w') (hline : ¬ LogsIn users w l.1) :
    Calm users w' := by
  have hchange := step_change hstep
  refine ⟨fun q hq hadmits => ?_, fun s hs => ?_⟩
  · rw [hchange.posts.wire] at hq
    rcases List.mem_append.mp hq with hold | hnew
    · exact h.wire q (left_subset l.1 hold) hadmits
    · cases q with
      | client g loginid fd cmd msg =>
        obtain ⟨msgstr, draw, he, rfl, hcmd, hunbound⟩ := client_sent hchange hnew
        rw [he] at hline
        exact hline ⟨hunbound, hcmd.trans hadmits.1, hadmits.2⟩
      | reqlogin c playerid gate =>
        obtain ⟨fd, pw, htask, hpw⟩ := reqlogin_sent hchange hnew
        exact h.task htask ⟨hadmits, hpw⟩
      | _ => exact hadmits
  · obtain ⟨s, i, t⟩ := s
    exact h.task_step hstep (AList.mem_lookup_iff.mpr hs)

/-- In the calm no player comes to the table of the agent manager. -/
theorem absent_step (h : Calm users w) (hc : Calls w) (hstep : Step users w l w') {p : Num}
    (hp : w.manager.mgr.players.lookup p = none) : w'.manager.mgr.players.lookup p = none := by
  have hchange := step_change hstep
  generalize l.2 = pkts at hchange
  cases hchange
  case gate hmanager _ => rwa [hmanager]
  case started hmanager _ _ => rwa [hmanager]
  case login hmanager _ => rwa [hmanager]
  case failed hmanager _ => rwa [hmanager]
  case quiet hmanager _ _ => rwa [hmanager]
  case spawn hmanager _ => rwa [hmanager, AgentMgr.World.spawn_mgr]
  case mgr ev hinput henabled _ _ hmanager _ =>
    have hown : AgentMgr.Step w.manager.mgr (ev, (AgentMgr.next w.manager.mgr ev).2)
        w'.manager.mgr := ⟨henabled, by rw [hmanager]⟩
    refine AgentMgr.absent_step hc.locks hown (fun caller node gate hev => ?_) hp
    dsimp only at hev
    subst hev
    cases hinput with
    | reqlogin c _ _ htaken => exact h.wire _ (mem_wire.mpr (Or.inl htaken)) rfl

end Calm

section Closing

variable [DecidableEq Node] [DecidableEq Addr] {users : List (Num × Bytes)}
  {w w' : World Num Node Addr} {l : Label Num Node Addr}

theorem closing_kept (hstep : Step users w l w') {g : Site Node Addr}
    (hg : (w.gates g).closing = true) : (w'.gates g).closing = true := by
  rcases (step_change hstep).gate_step g with hsame | ⟨ev, _, _, hgate⟩
  · rwa [hsame]
  · exact (Gateway.closing_step hgate).mpr (Or.inl hg)

/-- A gateway closes when the admin service shuts it down. -/
theorem closing_step (hstep : Step users w l w') {g : Site Node Addr}
    (hg : (w'.gates g).closing = true) :
    (w.gates g).closing = true ∨ l.1 = .gate g .shutdown := by
  rcases (step_change hstep).gate_step g with hsame | ⟨ev, _, hinput, hgate⟩
  · exact Or.inl (by rwa [hsame] at hg)
  · rcases (Gateway.closing_step hgate).mp hg with hold | hev
    · exact Or.inl hold
    · dsimp only at hev
      subst hev
      cases hinput with
      | external _ hev _ => exact Or.inr hev

theorem shutdown_closes {g : Site Node Addr} {pkts : List (Packet Num Node Addr)}
    (hstep : Step users w (.gate g .shutdown, pkts) w') : (w'.gates g).closing = true := by
  have hstate : (World.next users w (.gate g .shutdown)).1 = w' := congrArg Prod.fst hstep.2
  rw [← hstate]
  simp [World.next, World.react, World.atGate, Gateway.handle]

end Closing

end System

namespace Admin

open AgentMgr (Handler)
open Ue4Background.System (Site Packet Calm LogsIn Calls Managed)

variable {Num Node Addr : Type}

/-- Every gateway has handled the `shutdown` of the admin service. -/
def Closed (cluster : List (Site Node Addr)) (w : System.World Num Node Addr) : Prop :=
  ∀ g ∈ cluster, (w.gates g).closing = true

instance Closed.decidable (cluster : List (Site Node Addr)) (w : System.World Num Node Addr) :
    Decidable (Closed cluster w) :=
  inferInstanceAs (Decidable (∀ g ∈ cluster, (w.gates g).closing = true))

/-- The agent has been sent `kick` and `exit`. -/
def Released (ls : List (Label Num Node Addr)) (a : Site Node Addr) : Prop :=
  (∃ l ∈ ls, ∃ h, .kickAgent a h ∈ l.2) ∧ ∃ l ∈ ls, .exit a ∈ l.2

/-- The gateways that a handler of `stop` has still to shut down. -/
def Stop.remaining : Stop Node Addr → Option (List (Site Node Addr))
  | .idle => none
  | .gates rest => some rest
  | .asking _ | .told _ | .sleeping | .aborted => some []

/-- The handler has been told that nobody is online. -/
def Stop.Done : Stop Node Addr → Prop
  | .told onlineNum => onlineNum = 0
  | .aborted => True
  | .idle | .gates _ | .asking _ | .sleeping => False

theorem remaining_of_done {s : Stop Node Addr} (hdone : s.Done) : s.remaining = some [] := by
  cases s with
  | idle => cases hdone
  | gates => cases hdone
  | _ => rfl

variable [DecidableEq Num]

/-- The `shutdown` of the agent manager returns the number of players that it has. -/
theorem returned_eq {u : System.World Num Node Addr} {ev : System.Event Num Node Addr}
    (henabled : u.Enabled ev) {h : Handler} {onlineNum : ℕ}
    (hreturned : returned u h ev = some onlineNum) :
    onlineNum = AgentMgr.getOnlineCount u.manager.mgr := by
  cases ev with
  | wake k =>
    simp only [returned] at hreturned
    split at hreturned
    · rename_i hk
      subst hk
      have hchange := AgentMgr.wake_change u.manager.mgr k henabled
      revert hreturned hchange
      generalize (AgentMgr.wake u.manager.mgr k).2 = outs
      generalize (AgentMgr.wake u.manager.mgr k).1 = m
      intro hreturned hchange
      cases hchange
      case drained caller num count htask =>
        cases caller <;> simp [online] at hreturned
        exact hreturned.symm
      all_goals simp [online] at hreturned
    · cases hreturned
  | _ => cases hreturned

variable [DecidableEq Node] [DecidableEq Addr] [LuaNumber Num]

/-- What an event is to the composed system. -/
def Event.inner : Event Num Node Addr → Option (System.Event Num Node Addr)
  | .system ev => some ev
  | .shutdownGate _ g _ => some (.gate g .shutdown)
  | .shutdownAgent _ order => some (.shutdown 3 order)
  | .stop _ _ | .answered _ _ => none

/-- No login is under way when the last gateway closes, and no login line passes after it. -/
def Undisturbed (users : List (Num × Bytes)) (cluster : List (Site Node Addr))
    (w : World Num Node Addr) (l : Label Num Node Addr) : Prop :=
  match l.1 with
  | .system ev => Closed cluster w.system → ¬ LogsIn users w.system ev
  | .shutdownGate _ g _ =>
    (∀ k ∈ cluster, k ≠ g → (w.system.gates k).closing = true) → Calm users w.system
  | .stop _ _ | .shutdownAgent _ _ | .answered _ _ => True

instance Undisturbed.decidable (users : List (Num × Bytes)) (cluster : List (Site Node Addr))
    (w : World Num Node Addr) : ∀ l, Decidable (Undisturbed users cluster w l)
  | (.system ev, _) =>
    inferInstanceAs (Decidable (Closed cluster w.system → ¬ LogsIn users w.system ev))
  | (.shutdownGate _ g _, _) => inferInstanceAs (Decidable
      ((∀ k ∈ cluster, k ≠ g → (w.system.gates k).closing = true) → Calm users w.system))
  | (.stop _ _, _) | (.shutdownAgent _ _, _) | (.answered _ _, _) =>
    inferInstanceAs (Decidable True)

/-- What closing the gateways is for, in the runs whose steps meet the condition. -/
structure AdmitsNobody (meets : World Num Node Addr → Label Num Node Addr → Prop)
    (users : List (Num × Bytes)) (cluster : List (Site Node Addr))
    (ls : List (Label Num Node Addr)) (w : World Num Node Addr) : Prop where
  admits : Closed cluster w.system → ∀ ms w', Run (Guarded (Step users cluster) meets) w ms w' →
    ∀ p, w.system.manager.mgr.players.lookup p = none →
      w'.system.manager.mgr.players.lookup p = none
  empty : ∀ i, w.stops i = .aborted → w.system.manager.mgr.players = ∅
  released : ∀ i, w.stops i = .aborted → ∀ ag ∈ w.system.manager.agents,
    Released ls ⟨ag.node, ag.addr⟩

section Steps

variable {users : List (Num × Bytes)} {cluster : List (Site Node Addr)}
  {w w' : World Num Node Addr} {l : Label Num Node Addr}

/-- The composed system makes a step of its own, or rests. -/
theorem inner_step (hstep : Step users cluster w l w') :
    (∃ ev, l.1.inner = some ev ∧ System.Step users w.system (ev, l.2) w'.system) ∨
      (l.1.inner = none ∧ w'.system = w.system ∧ l.2 = []) := by
  obtain ⟨e, pkts⟩ := l
  obtain ⟨henabled, hnext⟩ := hstep
  dsimp only at henabled hnext ⊢
  cases e with
  | system ev =>
    obtain ⟨rfl, rfl⟩ := Prod.mk.inj hnext
    exact Or.inl ⟨ev, rfl, henabled.1, rfl⟩
  | stop i order =>
    obtain ⟨rfl, rfl⟩ := Prod.mk.inj hnext
    exact Or.inr ⟨rfl, rfl, rfl⟩
  | shutdownGate i g rest =>
    obtain ⟨rfl, rfl⟩ := Prod.mk.inj hnext
    exact Or.inl ⟨.gate g .shutdown, rfl, ⟨trivial, trivial⟩, rfl⟩
  | shutdownAgent i order =>
    obtain ⟨rfl, rfl⟩ := Prod.mk.inj hnext
    exact Or.inl ⟨.shutdown 3 order, rfl, henabled.2, rfl⟩
  | answered i onlineNum =>
    obtain ⟨rfl, rfl⟩ := Prod.mk.inj hnext
    exact Or.inr ⟨rfl, rfl, rfl⟩

theorem Managed.step {sent : List (Packet Num Node Addr)} (h : Managed sent w.system)
    (hstep : Step users cluster w l w') (hreliable : Reliable w l) :
    Managed (sent ++ l.2) w'.system := by
  rcases inner_step hstep with ⟨ev, hev, hown⟩ | ⟨_, hsame, hnil⟩
  · refine h.step hown ?_
    obtain ⟨e, pkts⟩ := l
    dsimp only at hev
    cases e <;> cases hev
    · exact hreliable
    · trivial
    · trivial
  · rwa [hsame, hnil, List.append_nil]

/-- What holds of every handler of `stop` and of the gateways that it has shut down. -/
structure Stopping (users : List (Num × Bytes)) (cluster : List (Site Node Addr))
    (w : World Num Node Addr) : Prop where
  gates : ∀ i rest, (w.stops i).remaining = some rest → ∀ g ∈ cluster, g ∉ rest →
    (w.system.gates g).closing = true
  calm : Closed cluster w.system → Calm users w.system
  empty : ∀ i, (w.stops i).Done → ∀ p, w.system.manager.mgr.players.lookup p = none

/-- The last gateway closes in the calm, and no line disturbs it. -/
theorem Stopping.undisturbed (h : Stopping users cluster w) (hstep : Step users cluster w l w')
    (hquiet : Undisturbed users cluster w l) (hclosed : Closed cluster w'.system) :
    Calm users w.system ∧ ∀ ev, l.1.inner = some ev → ¬ LogsIn users w.system ev := by
  rcases inner_step hstep with ⟨ev, hev, hown⟩ | ⟨hnone, hsame, _⟩
  · have hback : ∀ g ∈ cluster, (w.system.gates g).closing = true ∨ ev = .gate g .shutdown :=
      fun g hg => System.closing_step hown (hclosed g hg)
    obtain ⟨e, pkts⟩ := l
    dsimp only at hev
    cases e with
    | system e =>
      cases hev
      have hold : Closed cluster w.system := by
        intro g hg
        refine (hback g hg).resolve_right ?_
        rintro rfl
        exact hstep.1.2
      refine ⟨h.calm hold, ?_⟩
      rintro _ ⟨⟩
      exact hquiet hold
    | shutdownGate i g rest =>
      cases hev
      refine ⟨hquiet fun k hk hne => (hback k hk).resolve_right ?_, ?_⟩
      · rintro ⟨⟩
        exact hne rfl
      · rintro _ ⟨⟩ hline
        exact hline
    | shutdownAgent i order =>
      cases hev
      have hold : Closed cluster w.system := fun g hg => (hback g hg).resolve_right nofun
      refine ⟨h.calm hold, ?_⟩
      rintro _ ⟨⟩ hline
      exact hline
    | stop => cases hev
    | answered => cases hev
  · rw [hsame] at hclosed
    refine ⟨h.calm hclosed, fun ev hev => ?_⟩
    rw [hnone] at hev
    cases hev

theorem closing_kept (hstep : Step users cluster w l w') {g : Site Node Addr}
    (hg : (w.system.gates g).closing = true) : (w'.system.gates g).closing = true := by
  rcases inner_step hstep with ⟨ev, _, hown⟩ | ⟨_, hsame, _⟩
  · exact System.closing_kept hown hg
  · rwa [hsame]

/-- What a step does to a handler of `stop`. -/
inductive Move (cluster : List (Site Node Addr)) (w : World Num Node Addr)
    (e : Event Num Node Addr) : Stop Node Addr → Stop Node Addr → Prop
  | same (s : Stop Node Addr) : Move cluster w e s s
  | stopped (order : List (Site Node Addr)) (hperm : order.Perm cluster) :
      Move cluster w e .idle (.gates order)
  | gateShut (g : Site Node Addr) (rest : List (Site Node Addr))
      (hinner : e.inner = some (.gate g .shutdown)) :
      Move cluster w e (.gates (g :: rest)) (.gates rest)
  | asked (s : Stop Node Addr) (h : Handler) (hs : s.remaining = some []) :
      Move cluster w e s (.asking h)
  | told (h : Handler) (onlineNum : ℕ) (ev : System.Event Num Node Addr)
      (hinner : e.inner = some ev) (hreturned : returned w.system h ev = some onlineNum) :
      Move cluster w e (.asking h) (.told onlineNum)
  | aborted (onlineNum : ℕ) (hzero : onlineNum = 0) : Move cluster w e (.told onlineNum) .aborted
  | slept (onlineNum : ℕ) : Move cluster w e (.told onlineNum) .sleeping

omit [DecidableEq Node] [DecidableEq Addr] [LuaNumber Num] in
/-- A step moves a handler of its own, if any, and leaves the others. -/
theorem move_setStop {u : World Num Node Addr} {e : Event Num Node Addr} {j : ℕ}
    {s : Stop Node Addr} (hmove : Move cluster w e (w.stops j) s) (hstops : u.stops = w.stops)
    (i : ℕ) : Move cluster w e (w.stops i) ((u.setStop j s).stops i) := by
  by_cases hij : i = j
  · rw [hij, World.setStop_stops, Function.update_self]
    exact hmove
  · rw [World.setStop_stops, Function.update_of_ne hij, hstops]
    exact Move.same _

theorem stop_move (hstep : Step users cluster w l w') (i : ℕ) :
    Move cluster w l.1 (w.stops i) (w'.stops i) := by
  obtain ⟨e, pkts⟩ := l
  obtain ⟨henabled, hnext⟩ := hstep
  dsimp only at henabled hnext ⊢
  cases e with
  | system ev =>
    obtain ⟨rfl, rfl⟩ := Prod.mk.inj hnext
    dsimp only
    cases hs : w.stops i with
    | asking h =>
      simp only [Stop.hear]
      cases hreturned : returned w.system h ev with
      | none => exact Move.same _
      | some onlineNum => exact Move.told h onlineNum ev rfl hreturned
    | _ => exact Move.same _
  | stop j order =>
    obtain ⟨rfl, rfl⟩ := Prod.mk.inj hnext
    refine move_setStop ?_ rfl i
    rw [henabled.1]
    exact Move.stopped order henabled.2
  | shutdownGate j g rest =>
    obtain ⟨rfl, rfl⟩ := Prod.mk.inj hnext
    refine move_setStop ?_ rfl i
    rw [show w.stops j = .gates (g :: rest) from henabled]
    exact Move.gateShut g rest rfl
  | shutdownAgent j order =>
    obtain ⟨rfl, rfl⟩ := Prod.mk.inj hnext
    refine move_setStop (Move.asked _ _ ?_) rfl i
    rcases henabled.1 with hs | hs <;> rw [hs] <;> rfl
  | answered j onlineNum =>
    obtain ⟨rfl, rfl⟩ := Prod.mk.inj hnext
    refine move_setStop ?_ rfl i
    rw [show w.stops j = .told onlineNum from henabled]
    split
    · rename_i hzero
      exact Move.aborted onlineNum (Nat.le_zero.mp hzero)
    · exact Move.slept onlineNum

/-- A handler that has no gateway left has closed them all. -/
theorem Stopping.gates_step (h : Stopping users cluster w) (hstep : Step users cluster w l w')
    {i : ℕ} {rest : List (Site Node Addr)} (hrest : (w'.stops i).remaining = some rest)
    {g : Site Node Addr} (hg : g ∈ cluster) (hnot : g ∉ rest) :
    (w'.system.gates g).closing = true := by
  have hold : ∀ rest', (w.stops i).remaining = some rest' → g ∉ rest' →
      (w'.system.gates g).closing = true :=
    fun rest' hwas hg' => closing_kept hstep (h.gates i rest' hwas g hg hg')
  have hmove := stop_move hstep i
  revert hmove hrest hold
  generalize w.stops i = s
  generalize w'.stops i = s'
  intro hrest hold hmove
  cases hmove with
  | same => exact hold rest hrest hnot
  | stopped order hperm =>
    cases hrest
    exact absurd (hperm.mem_iff.mpr hg) hnot
  | gateShut k rest' hinner =>
    cases hrest
    by_cases hgk : g = k
    · subst hgk
      rcases inner_step hstep with ⟨ev, hev, hown⟩ | ⟨hnone, _⟩
      · rw [hinner] at hev
        cases hev
        exact System.shutdown_closes hown
      · rw [hinner] at hnone
        cases hnone
    · exact hold (k :: rest) rfl (by simp [hgk, hnot])
  | asked s h hs => exact hold [] hs (by simp)
  | told h onlineNum ev _ _ => exact hold [] rfl (by simp)
  | aborted onlineNum _ => exact hold [] rfl (by simp)
  | slept onlineNum => exact hold [] rfl (by simp)

theorem Stopping.absent_step (h : Stopping users cluster w) (hc : Calls w.system)
    (hstep : Step users cluster w l w') (hquiet : Undisturbed users cluster w l)
    (hclosed : Closed cluster w'.system) {p : Num}
    (hp : w.system.manager.mgr.players.lookup p = none) :
    w'.system.manager.mgr.players.lookup p = none := by
  have hcalm := (h.undisturbed hstep hquiet hclosed).1
  rcases inner_step hstep with ⟨ev, _, hown⟩ | ⟨_, hsame, _⟩
  · exact hcalm.absent_step hc hown hp
  · rwa [hsame]

/-- Whoever has been told that nobody is online has been told so when it was true. -/
theorem Stopping.done_step (h : Stopping users cluster w) (hstep : Step users cluster w l w')
    {i : ℕ} (hdone : (w'.stops i).Done) (p : Num) :
    w.system.manager.mgr.players.lookup p = none := by
  have hold : (w.stops i).Done → w.system.manager.mgr.players.lookup p = none :=
    fun hwas => h.empty i hwas p
  have hmove := stop_move hstep i
  revert hmove hdone hold
  generalize w.stops i = s
  generalize w'.stops i = s'
  intro hdone hold hmove
  cases hmove with
  | same => exact hold hdone
  | stopped => cases hdone
  | gateShut => cases hdone
  | asked => cases hdone
  | told k onlineNum ev hinner hreturned =>
    rcases inner_step hstep with ⟨ev', hev, hown⟩ | ⟨hnone, _⟩
    · rw [hinner] at hev
      cases hev
      have hcount := returned_eq hown.1 hreturned
      exact AgentMgr.absent_of_count (hcount.symm.trans hdone) p
    · rw [hinner] at hnone
      cases hnone
  | aborted onlineNum hzero => exact hold hzero
  | slept => cases hdone

theorem Stopping.step (h : Stopping users cluster w) (hc : Calls w.system)
    (hstep : Step users cluster w l w') (hquiet : Undisturbed users cluster w l) :
    Stopping users cluster w' where
  gates i rest hrest g hg hnot := h.gates_step hstep hrest hg hnot
  calm hclosed := by
    obtain ⟨hcalm, hline⟩ := h.undisturbed hstep hquiet hclosed
    rcases inner_step hstep with ⟨ev, hev, hown⟩ | ⟨_, hsame, _⟩
    · exact hcalm.step hown (hline ev hev)
    · rwa [hsame]
  empty i hdone p := by
    have hclosed : Closed cluster w'.system := fun g hg =>
      h.gates_step hstep (remaining_of_done hdone) hg (by simp)
    exact h.absent_step hc hstep hquiet hclosed (h.done_step hstep hdone p)

omit [DecidableEq Node] [DecidableEq Addr] in
theorem Stopping.init : Stopping users cluster (init : World Num Node Addr) where
  gates i rest hrest := by cases hrest
  calm _ := Calm.init
  empty i hdone := by cases hdone

/-- The calls have no failures, and no login gets past the gateways that are closed. -/
def Orderly (users : List (Num × Bytes)) (cluster : List (Site Node Addr))
    (w : World Num Node Addr) (l : Label Num Node Addr) : Prop :=
  Reliable w l ∧ Undisturbed users cluster w l

instance Orderly.decidable (users : List (Num × Bytes)) (cluster : List (Site Node Addr))
    (w : World Num Node Addr) (l : Label Num Node Addr) :
    Decidable (Orderly users cluster w l) :=
  inferInstanceAs (Decidable (Reliable w l ∧ Undisturbed users cluster w l))

/-- The handlers of `stop` and the services that they rely on. -/
structure InOrder (users : List (Num × Bytes)) (cluster : List (Site Node Addr))
    (ls : List (Label Num Node Addr)) (w : World Num Node Addr) : Prop where
  managed : Managed (ls.flatMap Prod.snd) w.system
  stopping : Stopping users cluster w

theorem InOrder.step {ls : List (Label Num Node Addr)} (h : InOrder users cluster ls w)
    (hstep : Guarded (Step users cluster) (Orderly users cluster) w l w') :
    InOrder users cluster (ls ++ [l]) w' := by
  obtain ⟨hown, hreliable, hquiet⟩ := hstep
  refine ⟨?_, h.stopping.step h.managed.calls hown hquiet⟩
  rw [List.flatMap_append, List.flatMap_singleton]
  exact Managed.step h.managed hown hreliable

theorem InOrder.later {ls ms : List (Label Num Node Addr)} (h : InOrder users cluster ls w)
    (hrun : Run (Guarded (Step users cluster) (Orderly users cluster)) w ms w') :
    InOrder users cluster (ls ++ ms) w' :=
  Run.invariant_history (I := InOrder users cluster) (fun _ _ _ _ hu hstep => hu.step hstep) h hrun

theorem InOrder.run {ls : List (Label Num Node Addr)}
    (hrun : Run (Guarded (Step users cluster) (Orderly users cluster)) init ls w) :
    InOrder users cluster ls w := by
  have hinit : InOrder users cluster [] (init : World Num Node Addr) :=
    ⟨Managed.init, Stopping.init⟩
  exact hinit.later hrun

/-- Behind closed gateways nobody comes to the table of the agent manager. -/
theorem InOrder.absent_later {ls ms : List (Label Num Node Addr)} (h : InOrder users cluster ls w)
    (hrun : Run (Guarded (Step users cluster) (Orderly users cluster)) w ms w')
    (hclosed : Closed cluster w.system) {p : Num}
    (hp : w.system.manager.mgr.players.lookup p = none) :
    Closed cluster w'.system ∧ w'.system.manager.mgr.players.lookup p = none := by
  induction hrun with
  | nil => exact ⟨hclosed, hp⟩
  | snoc hrun hlast ih =>
    obtain ⟨hbefore, habsent⟩ := ih
    have hu := h.later hrun
    have hafter : Closed cluster _ := fun g hg => closing_kept hlast.1 (hbefore g hg)
    exact ⟨hafter,
      hu.stopping.absent_step hu.managed.calls hlast.1 hlast.2.2 hafter habsent⟩

/-- In every run without failed calls in which no login is under way when the last gateway
closes, and none passes after it, nobody enters any more, and the abort finds no player in
the table and no agent that has not been kicked and told to exit. -/
theorem shutdown_admits_nobody {ls : List (Label Num Node Addr)}
    (hrun : Run (Guarded (Step users cluster) (Orderly users cluster)) init ls w) :
    AdmitsNobody (Orderly users cluster) users cluster ls w := by
  have h := InOrder.run hrun
  have hempty : ∀ i, w.stops i = .aborted → ∀ p,
      w.system.manager.mgr.players.lookup p = none := by
    intro i hi
    exact h.stopping.empty i (by rw [hi]; trivial)
  refine ⟨fun hclosed ms w' hlater p hp => ?_, fun i hi => ?_, fun i hi ag hag => ?_⟩
  · exact (h.absent_later hlater hclosed hp).2
  · exact AgentMgr.empty_of_absent (hempty i hi)
  · obtain ⟨ms, hown, hsent⟩ := h.managed.run
    obtain ⟨⟨l, hl, k, hkick⟩, l', hl', hexit⟩ :=
      AgentMgr.World.released hown hag (hempty i hi ag.playerid)
    have hpost : ∀ l ∈ ms, ∀ o ∈ l.2, ∀ q ∈ System.mgrPackets o, ∃ l ∈ ls, q ∈ l.2 := by
      intro l hl o ho q hq
      refine List.mem_flatMap.mp (hsent ?_)
      exact List.mem_flatMap.mpr ⟨l, hl, List.mem_flatMap.mpr ⟨o, ho, hq⟩⟩
    obtain ⟨m, hm, hkicked⟩ := hpost l hl _ hkick (.kickAgent ⟨ag.node, ag.addr⟩ k)
      (by simp [System.mgrPackets])
    exact ⟨⟨m, hm, k, hkicked⟩, hpost l' hl' _ hexit _ (by simp [System.mgrPackets])⟩

end Steps

open Ue4Background.System (gate1 loginWith)

/-- The user table of the examples. -/
def oneUser : List (ℕ × Bytes) := [(1, bytes "pw")]

/-- Player 7 is online when an operator enters `stop`; it is kicked, and nobody is left. -/
def drained : List (Event ℕ ℕ ℕ) :=
  (loginWith (bytes "login,7,pw")).map .system ++
    [.system (.deliver 0 31), .system (.deliver 0 0), .system (.deliver 0 0), .stop 0 [gate1],
      .shutdownGate 0 gate1 [], .shutdownAgent 0 [7], .system (.wake 2), .system (.deliver 0 0),
      .system (.kicked 0), .system (.deliver 0 0), .system (.wake 1), .answered 0 0]

theorem shutdown_admits_nobody_drained :
    AdmitsNobody (Orderly oneUser [gate1]) oneUser [gate1]
        (trace (World.next oneUser) init drained) (exec (World.next oneUser) init drained) ∧
      (exec (World.next oneUser) init drained).stops 0 = .aborted ∧
      (exec (World.next oneUser) init drained).system.manager.agents = [⟨1, 100, 7⟩] :=
  ⟨shutdown_admits_nobody (run_exec_guarded (by decide +kernel)), by decide +kernel,
    by decide +kernel⟩

/-- The client of player 7 has connected before the gateway closes and logs in afterwards; the
agent manager counts before the login reaches it. -/
def lateLogin : List (Event ℕ ℕ ℕ) :=
  [.system (.gate gate1 (.connect 1)), .stop 0 [gate1], .shutdownGate 0 gate1 [],
    .system (.gate gate1 (.line 1 (bytes "login,7,pw") 1)), .system (.deliver 0 0),
    .system (.query 0), .shutdownAgent 0 [], .system (.wake 0), .system (.deliver 0 0),
    .system (.deliver 0 0), .system (.spawn 0 100), .answered 0 0]

/-- The abort finds player 7 in the table. -/
theorem login_after_shutdown :
    ¬ ∀ (users : List (ℕ × Bytes)) (cluster : List (Site ℕ ℕ)) (ls : List (Label ℕ ℕ ℕ))
      (w : World ℕ ℕ ℕ), Run (Guarded (Step users cluster) Reliable) init ls w →
        AdmitsNobody Reliable users cluster ls w := by
  intro h
  have hrun : Run (Guarded (Step oneUser [gate1]) Reliable) init _
      (exec (World.next oneUser) init lateLogin) := run_exec_guarded (by decide +kernel)
  have hempty := (h _ _ _ _ hrun).empty 0 (by decide +kernel)
  have hgone : (exec (World.next oneUser) init lateLogin).system.manager.mgr.players.lookup 7 =
      none := by
    rw [hempty]
    exact AList.lookup_empty 7
  exact absurd hgone (by decide +kernel)

end Admin

end Ue4Background
