import Ue4Background.SessionBinding
import Ue4Background.SystemSteps

/-!
Who may be bound to a player. The login service compares the password of a login line with
that of the row `user_id = 1`, whoever the line names. In runs where every login line it
accepts carries the password of the player that it names, a gateway binds a connection only
after its client has sent that password, or the key of the player's session.
-/

namespace Ue4Background

open LuaValues Transition

namespace Gateway

variable {Num Addr : Type} {g g' : State Num Addr}

/-- The object `r` of the player `p` has the connection `c`. -/
def Seated (g : State Num Addr) (p : Num) (r : PlayerRef) (c : ConnRef) : Prop :=
  g.players p = some r ∧ (g.playerHeap r).conn = some c

theorem seated_setConn {q p : Num} {s r : PlayerRef} {conn : Option ConnRef} {c : ConnRef}
    (h : Seated (g.setConn s conn) p r c) (hs : Shape g) (hq : g.players q = some s) :
    Seated g p r c ∨ (p = q ∧ r = s ∧ conn = some c) := by
  obtain ⟨hplayer, hconn⟩ := h
  by_cases hr : r = s
  · subst hr
    exact Or.inr ⟨hs.players_injective hplayer hq, rfl, by simpa [State.setConn] using hconn⟩
  · exact Or.inl ⟨hplayer, by simpa [State.setConn, hr] using hconn⟩

theorem seated_setCache {p : Num} {s r : PlayerRef} {cache : List (Msg Num)} {c : ConnRef} :
    Seated (g.setCache s cache) p r c ↔ Seated g p r c := by
  by_cases hr : r = s
  · subst hr
    simp [Seated, State.setCache]
  · simp [Seated, State.setCache, hr]

variable [DecidableEq Num]

theorem seated_removePlayer {q p : Num} {r : PlayerRef} {c : ConnRef}
    (h : Seated (g.removePlayer q) p r c) : Seated g p r c := by
  obtain ⟨hplayer, hconn⟩ := h
  exact ⟨(entry_erased hplayer).2, hconn⟩

variable [LuaNumber Num]

/-- A player gets a connection by a `sure_agent` or by a reconnect line. -/
theorem seated_change (hs : Shape g) {ev : Event Num Addr} {outs : List (Out Num Addr)}
    (hchange : Change g ev outs g') {p : Num} {r : PlayerRef} {c : ConnRef}
    (h : Seated g' p r c) :
    Seated g p r c ∨
      (∃ fd agent key, ev = .sureAgent fd p agent key ∧ g'.conns fd = some c) ∨
      ∃ fd msgstr loginid, ev = .line fd msgstr loginid ∧ Reconnects g fd msgstr p r c ∧
        g'.conns fd = some c := by
  cases hchange
  case rebound fd msgstr loginid q s d htarget _ =>
    obtain ⟨hconn, _, hplayer, _⟩ := reconnectTarget_eq_some htarget.2
    have h' : Seated (g.setConn s (some d)) p r c := seated_setCache.mp h
    rcases seated_setConn h' hs hplayer with hold | ⟨rfl, rfl, hcd⟩
    · exact Or.inl hold
    · cases hcd
      exact Or.inr (Or.inr ⟨fd, msgstr, loginid, rfl, htarget, hconn⟩)
  case reboundFault fd msgstr loginid q s d htarget _ =>
    obtain ⟨hconn, _, hplayer, _⟩ := reconnectTarget_eq_some htarget.2
    have h' : Seated (g.setConn s (some d)) p r c := h
    rcases seated_setConn h' hs hplayer with hold | ⟨rfl, rfl, hcd⟩
    · exact Or.inl hold
    · cases hcd
      exact Or.inr (Or.inr ⟨fd, msgstr, loginid, rfl, htarget, hconn⟩)
  case broken fd d q s _ _ hplayer =>
    have h' : Seated (g.setConn s none) p r c := h
    rcases seated_setConn h' hs hplayer with hold | ⟨_, _, hnone⟩
    · exact Or.inl hold
    · cases hnone
  case cached => exact Or.inl (seated_setCache.mp h)
  case bound fd q agent key d hconn =>
    obtain ⟨hplayer, hseat⟩ := h
    by_cases hp : p = q
    · subst hp
      have hr : g.playerCount = r := by
        simpa [State.addPlayer, State.setPlayerid] using hplayer
      subst hr
      have hcd : d = c := by simpa [State.addPlayer, State.setPlayerid] using hseat
      subst hcd
      exact Or.inr (Or.inl ⟨fd, agent, key, rfl, hconn⟩)
    · have hold : g.players p = some r := by
        simpa [State.addPlayer, State.setPlayerid, hp] using hplayer
      have hr : r ≠ g.playerCount := Nat.ne_of_lt (hs.player_lt p r hold)
      exact Or.inl ⟨hold, by simpa [State.addPlayer, State.setPlayerid, hr] using hseat⟩
  case kickedLost => exact Or.inl (seated_removePlayer h)
  case kicked d _ _ => exact Or.inl (seated_removePlayer h)
  all_goals exact Or.inl h

/-- The connection has been accepted and has no player yet. -/
def Unbound (g : State Num Addr) (fd : Fd) : Prop :=
  ∃ c ∈ g.conns fd, (g.connHeap c).playerid = none

instance Unbound.decidable (g : State Num Addr) (fd : Fd) : Decidable (Unbound g fd) :=
  inferInstanceAs (Decidable (∃ c ∈ g.conns fd, (g.connHeap c).playerid = none))

/-- A gateway hands to a login service the lines that its clients send, as it unpacks them,
as long as they have no player. -/
theorem toLogin_line {ev : Event Num Addr} {loginid : ℕ} {fd : Fd} {cmd : Bytes}
    {msg : List Bytes} (h : Out.toLogin loginid fd cmd msg ∈ (handle g ev).outs) :
    ∃ msgstr draw, ev = .line fd msgstr draw ∧ strUnpack msgstr = msg ∧ msg.headD [] = cmd ∧
      Unbound g fd := by
  have hchange := handle_change g ev
  revert h hchange
  generalize (handle g ev).outs = outs
  generalize (handle g ev).state = g'
  intro h hchange
  cases hchange
  case routed fd' msgstr draw hforwards =>
    cases hforwards with
    | nothing => cases h
    | login c hconn hplayerid =>
      simp only [List.mem_singleton, Out.toLogin.injEq] at h
      obtain ⟨rfl, rfl, rfl, rfl⟩ := h
      exact ⟨msgstr, loginid, rfl, rfl, rfl, c, hconn, hplayerid⟩
    | agent a => simp at h
  case rebound => exact absurd (mem_replay h) (by simp)
  case reboundFault => exact absurd (mem_replay h) (by simp)
  case sent => exact absurd (mem_sendByFd h) (by simp)
  case sentByFd => exact absurd (mem_sendByFd h) (by simp)
  case cached houts => rcases houts with rfl | rfl <;> simp at h
  case resumed waiting => cases waiting <;> simp [resume] at h
  all_goals simp at h

end Gateway

namespace System

open Gateway (Fd Seated Shape strUnpack)
open Login (playeridOf passwordText select)

variable {Num Node Addr : Type}

/-- The gateway `g` has received this line from the client on `fd`. -/
def Received (ls : List (Label Num Node Addr)) (g : Site Node Addr) (fd : Fd)
    (msg : List Bytes) : Prop :=
  ∃ l ∈ ls, ∃ msgstr draw, l.1 = .gate g (.line fd msgstr draw) ∧ strUnpack msgstr = msg

theorem Received.append {ls : List (Label Num Node Addr)} {g : Site Node Addr} {fd : Fd}
    {msg : List Bytes} (h : Received ls g fd msg) (l : Label Num Node Addr) :
    Received (ls ++ [l]) g fd msg := by
  obtain ⟨l', hl', hline⟩ := h
  exact ⟨l', List.mem_append_left _ hl', hline⟩

variable [LuaNumber Num]

/-- A login line with the player `p` and the password of the row of `p`. -/
def LoginLine (users : List (Num × Bytes)) (msg : List Bytes) (p : Num) : Prop :=
  msg.headD [] = bytes "login" ∧ playeridOf msg = some p ∧ ∃ pw ∈ msg[2]?, (p, pw) ∈ users

/-- A reconnect line with the player `p` and the key of the current session of `p`. -/
def ReconnectLine (gate : Gateway.State Num Addr) (msg : List Bytes) (p : Num) : Prop :=
  msg.headD [] = bytes "reconnect" ∧ playeridOf msg = some p ∧
    ∃ r, gate.players p = some r ∧ msg[2]?.bind tonumber = some (gate.playerHeap r).key

/-- The client on `fd` has shown that it may play `p`. -/
def Authorised (users : List (Num × Bytes)) (ls : List (Label Num Node Addr))
    (g : Site Node Addr) (gate : Gateway.State Num Addr) (fd : Fd) (p : Num) : Prop :=
  ∃ msg, Received ls g fd msg ∧ (LoginLine users msg p ∨ ReconnectLine gate msg p)

/-- The client on `fd` has sent the password of `p`. -/
def Owned (users : List (Num × Bytes)) (ls : List (Label Num Node Addr)) (g : Site Node Addr)
    (fd : Fd) (p : Num) : Prop :=
  ∃ msg, Received ls g fd msg ∧ LoginLine users msg p

theorem Owned.append {users : List (Num × Bytes)} {ls : List (Label Num Node Addr)}
    {g : Site Node Addr} {fd : Fd} {p : Num} (h : Owned users ls g fd p)
    (l : Label Num Node Addr) : Owned users (ls ++ [l]) g fd p := by
  obtain ⟨msg, hreceived, hline⟩ := h
  exact ⟨msg, hreceived.append l, hline⟩

variable [DecidableEq Num]

/-- The password that passes, that of the row `user_id = 1`, is that of the player the line
names, if it names one. -/
def OwnPassword (users : List (Num × Bytes)) (msg : List Bytes) : Prop :=
  ∀ p ∈ (playeridOf msg : Option Num), (select users).head? = some (passwordText msg) →
    ∃ pw ∈ msg[2]?, (p, pw) ∈ users

instance OwnPassword.decidable (users : List (Num × Bytes)) (msg : List Bytes) :
    Decidable (OwnPassword users msg) :=
  inferInstanceAs (Decidable (∀ p ∈ (playeridOf msg : Option Num),
    (select users).head? = some (passwordText msg) → ∃ pw ∈ msg[2]?, (p, pw) ∈ users))

/-- The login line that a packet takes to a login service. -/
def loginLine : Packet Num Node Addr → Option (List Bytes)
  | .client _ _ _ cmd msg => if cmd = bytes "login" then some msg else none
  | _ => none

/-- A login line that reaches a login service passes only with the password of its player. -/
def OwnPasswords (users : List (Num × Bytes)) (w : World Num Node Addr)
    (l : Label Num Node Addr) : Prop :=
  ∀ pkt ∈ taken w l.1, ∀ msg ∈ loginLine pkt, OwnPassword users msg

instance OwnPasswords.decidable (users : List (Num × Bytes)) (w : World Num Node Addr)
    (l : Label Num Node Addr) : Decidable (OwnPasswords users w l) :=
  inferInstanceAs (Decidable (∀ pkt ∈ taken w l.1, ∀ msg ∈ loginLine pkt, OwnPassword users msg))

/-- What a suspended handler of a login service at `l` has checked. -/
def Checked (users : List (Num × Bytes)) (ls : List (Label Num Node Addr)) (l : LoginId Node) :
    Login.Task Num Addr → Prop
  | .querying fd playerid pw gate => ∃ msg, Received ls ⟨l.node, gate⟩ fd msg ∧
      msg.headD [] = bytes "login" ∧ playerid = playeridOf msg ∧ pw = passwordText msg ∧
        OwnPassword users msg
  | .requesting fd playerid gate => ∀ p, playerid = some p → Owned users ls ⟨l.node, gate⟩ fd p
  | .binding _ _ _ => True

/-- The lines behind the tables of the gateways, the login services and the wire. -/
structure Traced (users : List (Num × Bytes)) (ls : List (Label Num Node Addr))
    (w : World Num Node Addr) : Prop where
  shape : ∀ g, Shape (w.gates g)
  client : ∀ g loginid fd cmd msg, .client g loginid fd cmd msg ∈ w.wire →
    Received ls g fd msg ∧ msg.headD [] = cmd
  task : ∀ s l t, w.logins.lookup s = some (l, t) → Checked users ls l t
  sureAgent : ∀ c g fd p agent, .sureAgent c g fd p agent ∈ w.wire → Owned users ls g fd p

theorem Checked.append {users : List (Num × Bytes)} {ls : List (Label Num Node Addr)}
    {l : LoginId Node} {t : Login.Task Num Addr} (h : Checked users ls l t)
    (lab : Label Num Node Addr) : Checked users (ls ++ [lab]) l t := by
  cases t with
  | querying fd playerid pw gate =>
    obtain ⟨msg, hreceived, hchecked⟩ := h
    exact ⟨msg, hreceived.append lab, hchecked⟩
  | requesting fd playerid gate => exact fun p hp => (h p hp).append lab
  | binding fd p gate => trivial

theorem Traced.init {users : List (Num × Bytes)} :
    Traced users [] (init : World Num Node Addr) where
  shape _ := Shape.init
  client _ _ _ _ _ h := by cases h
  task s l t h := by simp [System.init] at h
  sureAgent _ _ _ _ _ h := by cases h

variable [DecidableEq Node] [DecidableEq Addr]

/-- A message for a login service leaves a gateway as the line it came in. -/
theorem client_sent {users : List (Num × Bytes)} {w w' : World Num Node Addr}
    {e : Event Num Node Addr} {pkts : List (Packet Num Node Addr)}
    (hchange : Change users w e w' pkts) {g : Site Node Addr} {loginid : ℕ} {fd : Fd}
    {cmd : Bytes} {msg : List Bytes} (hq : .client g loginid fd cmd msg ∈ pkts) :
    ∃ msgstr draw, e = .gate g (.line fd msgstr draw) ∧ strUnpack msgstr = msg ∧
      msg.headD [] = cmd ∧ Gateway.Unbound (w.gates g) fd := by
  cases hchange
  case gate g' ev back tail hinput _ htail _ _ _ _ =>
    rcases List.mem_append.mp hq with hsent | hsent
    · obtain ⟨o, ho, hpkt⟩ := List.mem_flatMap.mp hsent
      cases o with
      | toLogin loginid' fd' cmd' msg' =>
        simp only [gatePackets, List.mem_singleton, Packet.client.injEq] at hpkt
        obtain ⟨rfl, rfl, rfl, rfl, rfl⟩ := hpkt
        obtain ⟨msgstr, draw, rfl, hmsg, hcmd, hunbound⟩ := Gateway.toLogin_line ho
        cases hinput with
        | external ev hev _ => exact ⟨msgstr, draw, hev, hmsg, hcmd, hunbound⟩
      | ret isok => simp [gatePackets] at hpkt
      | _ => simp [gatePackets] at hpkt
    · rcases htail with rfl | ⟨h, rfl⟩ <;> simp at hsent
  case started => cases hq
  case login => cases sender_login hq
  case mgr => cases sender_mgr hq
  case spawn => simp at hq
  case failed => simp at hq
  case quiet hpkts _ => cases hpkts _ hq

namespace Traced

variable {users : List (Num × Bytes)} {ls : List (Label Num Node Addr)}
  {w w' : World Num Node Addr} {l : Label Num Node Addr}

/-- What the login services hold after a step has been checked. -/
theorem checked (h : Traced users ls w) (hchange : Change users w l.1 w' l.2)
    (howns : OwnPasswords users w l) {s : ℕ} {i : LoginId Node} {t : Login.Task Num Addr}
    (ht : w'.logins.lookup s = some (i, t)) : Checked users (ls ++ [l]) i t := by
  rcases login_tasks hchange ht with
    hold | ⟨g, loginid, fd, cmd, msg, htaken, rfl, hclient⟩ |
      ⟨t₀, response, outs, hinput, hold, hresume⟩
  · exact (h.task s i t hold).append l
  · obtain ⟨hreceived, hcmd⟩ := h.client g loginid fd cmd msg (mem_wire.mpr (Or.inl htaken))
    obtain ⟨hlogin, rfl⟩ := Login.client_task hclient
    have hline : msg ∈ loginLine (.client g loginid fd cmd msg : Packet Num Node Addr) := by
      simp [loginLine, hlogin]
    exact ⟨msg, hreceived.append l, hcmd.trans hlogin, rfl, rfl, howns _ htaken msg hline⟩
  · have hchecked := (h.task s i t₀ hold).append l
    cases hresume with
    | passed fd playerid pw gate rest =>
      obtain ⟨msg, hreceived, hlogin, rfl, rfl, hown⟩ := hchecked
      intro p hp
      have hhead : (select users).head? = some (passwordText msg) := by
        generalize hrows : select users = rows at hinput
        cases hinput
        rfl
      exact ⟨msg, hreceived, hlogin, hp, hown p hp hhead⟩
    | granted => exact trivial
    | ignored => exact hchecked

theorem step (h : Traced users ls w)
    (hstep : Guarded (Step users) (OwnPasswords users) w l w') : Traced users (ls ++ [l]) w' := by
  have hchange := step_change hstep.1
  have hwire := hchange.posts.wire
  refine ⟨fun g => ?_, ?_, fun s i t ht => h.checked hchange hstep.2 ht, ?_⟩
  · rcases hchange.gate_step g with heq | ⟨ev, back, _, hgate⟩
    · rw [heq]
      exact h.shape g
    · exact (h.shape g).step hgate
  · intro g loginid fd cmd msg hq
    rw [hwire] at hq
    rcases List.mem_append.mp hq with hold | hnew
    · obtain ⟨hreceived, hcmd⟩ := h.client g loginid fd cmd msg (left_subset _ hold)
      exact ⟨hreceived.append l, hcmd⟩
    · obtain ⟨msgstr, draw, he, hmsg, hcmd, _⟩ := client_sent hchange hnew
      exact ⟨⟨l, by simp, msgstr, draw, he, hmsg⟩, hcmd⟩
  · intro c g fd p agent hq
    rw [hwire] at hq
    rcases List.mem_append.mp hq with hold | hnew
    · exact (h.sureAgent c g fd p agent (left_subset _ hold)).append l
    · obtain ⟨c', gate, _, _, htask, rfl⟩ := sureAgent_sent hchange hnew
      exact ((h.task _ _ _ htask) p rfl).append l

theorem run (hrun : Run (Guarded (Step users) (OwnPasswords users)) System.init ls w) :
    Traced users ls w := by
  have h : Traced users ([] ++ ls) w :=
    Run.invariant_history (I := Traced users) (fun _ _ _ _ hu hstep => hu.step hstep) Traced.init
      hrun
  exact h

end Traced

/-- When every login line that passes carries the password of the player it names, a client
whose connection is bound to `p` has sent the password of `p` or the key of its session. -/
theorem bindings_authorised {users : List (Num × Bytes)} {ls : List (Label Num Node Addr)}
    {w w' : World Num Node Addr} {l : Label Num Node Addr}
    (hrun : Run (Guarded (Step users) (OwnPasswords users)) System.init ls w)
    (hstep : Guarded (Step users) (OwnPasswords users) w l w') {g : Site Node Addr} {p : Num}
    {r : Gateway.PlayerRef} {c : Gateway.ConnRef} (hbound : Seated (w'.gates g) p r c)
    (hnew : ¬ Seated (w.gates g) p r c) :
    Authorised users (ls ++ [l]) g (w.gates g) ((w'.gates g).connHeap c).fd p := by
  have ht := Traced.run hrun
  have ht' := ht.step hstep
  rcases (step_change hstep.1).gate_step g with heq | ⟨ev, back, hinput, hgate⟩
  · rw [heq] at hbound
    exact absurd hbound hnew
  · rcases Gateway.seated_change (ht.shape g) (Gateway.step_change hgate) hbound with
      hold | ⟨fd, agent, key, hev, hconn⟩ | ⟨fd, msgstr, draw, hev, hreconnects, hconn⟩
    · exact absurd hold hnew
    · dsimp only at hev
      subst hev
      rw [(ht'.shape g).conn_fd fd c hconn]
      cases hinput with
      | external _ _ hext => cases hext
      | sureAgent d _ _ _ _ htaken =>
        obtain ⟨msg, hreceived, hline⟩ := ht.sureAgent d g fd p agent
          (mem_wire.mpr (Or.inl htaken))
        exact ⟨msg, hreceived.append l, Or.inl hline⟩
    · dsimp only at hev
      subst hev
      rw [(ht'.shape g).conn_fd fd c hconn]
      obtain ⟨_, hp, hplayer, _, hkey⟩ := Gateway.reconnectTarget_eq_some hreconnects.2
      cases hinput with
      | external _ he _ =>
        exact ⟨strUnpack msgstr, ⟨l, by simp, msgstr, draw, he, rfl⟩,
          Or.inr ⟨hreconnects.1, hp, r, hplayer, hkey⟩⟩

def afterLogin (users : List (ℕ × Bytes)) (line : Bytes) : World ℕ ℕ ℕ :=
  exec (World.next users) System.init (loginWith line)

/-- The `sure_agent` arrives at the gateway. -/
def binds : Event ℕ ℕ ℕ := .deliver 0 31

def afterBind (users : List (ℕ × Bytes)) (line : Bytes) : Reaction ℕ ℕ ℕ :=
  World.next users (afterLogin users line) binds

def samePasswords : List (ℕ × Bytes) := [(1, bytes "pw"), (7, bytes "pw")]

theorem bindings_authorised_same_passwords :
    Authorised samePasswords
      (trace (World.next samePasswords) System.init (loginWith (bytes "login,7,pw")) ++
        [(binds, (afterBind samePasswords (bytes "login,7,pw")).2)])
      gate1 ((afterLogin samePasswords (bytes "login,7,pw")).gates gate1) 1 7 := by
  have hrun : Run (Guarded (Step samePasswords) (OwnPasswords samePasswords)) System.init _
      (afterLogin samePasswords (bytes "login,7,pw")) := run_exec_guarded (by decide)
  have hstep : Guarded (Step samePasswords) (OwnPasswords samePasswords)
      (afterLogin samePasswords (bytes "login,7,pw"))
      (binds, (afterBind samePasswords (bytes "login,7,pw")).2)
      (afterBind samePasswords (bytes "login,7,pw")).1 := ⟨⟨by decide, rfl⟩, by decide⟩
  have hbound : Seated ((afterBind samePasswords (bytes "login,7,pw")).1.gates gate1) 7 0 0 :=
    ⟨by decide, by decide⟩
  exact bindings_authorised hrun hstep hbound fun h => absurd h.1 (by decide)

def ownPasswords : List (ℕ × Bytes) := [(1, bytes "secret"), (7, bytes "mine")]

/-- Whoever knows the password of the row `user_id = 1` plays any player. -/
theorem binding_without_own_password :
    ¬ ∀ (users : List (ℕ × Bytes)) (ls : List (Label ℕ ℕ ℕ)) (w w' : World ℕ ℕ ℕ)
      (l : Label ℕ ℕ ℕ), Run (Step users) System.init ls w → Step users w l w' →
        ∀ g p r c, Seated (w'.gates g) p r c → ¬ Seated (w.gates g) p r c →
          Authorised users (ls ++ [l]) g (w.gates g) ((w'.gates g).connHeap c).fd p := by
  intro h
  have hrun : Run (Step ownPasswords) System.init _
      (afterLogin ownPasswords (bytes "login,7,secret")) := run_exec _ (by decide)
  have hstep : Step ownPasswords (afterLogin ownPasswords (bytes "login,7,secret")) (binds, _)
      (afterBind ownPasswords (bytes "login,7,secret")).1 := ⟨by decide, rfl⟩
  have hbound : Seated ((afterBind ownPasswords (bytes "login,7,secret")).1.gates gate1) 7 0 0 :=
    ⟨by decide, by decide⟩
  obtain ⟨msg, ⟨l, hl, msgstr, draw, hline, rfl⟩, hown⟩ :=
    h _ _ _ _ _ hrun hstep gate1 7 0 0 hbound fun hseated => absurd hseated.1 (by decide)
  have hsent : msgstr = bytes "login,7,secret" := by
    rcases List.mem_append.mp hl with hl | hl
    · have he := mem_trace hl
      rw [hline] at he
      simp only [loginWith, List.mem_cons, List.not_mem_nil, Event.gate.injEq,
        Gateway.Event.line.injEq, reduceCtorEq, and_false, false_or, or_false] at he
      exact he.2.2.1
    · rw [List.mem_singleton.mp hl] at hline
      cases hline
  subst hsent
  rcases hown with ⟨_, _, pw, hpw, hrow⟩ | ⟨hcmd, _⟩
  · have hsecret : pw = bytes "secret" := by
      have hthird : (strUnpack (bytes "login,7,secret"))[2]? = some (bytes "secret") := by decide
      exact Option.some.inj (hpw.symm.trans hthird)
    subst hsecret
    exact absurd hrow (by decide)
  · exact absurd hcmd (by decide)

end System

end Ue4Background
