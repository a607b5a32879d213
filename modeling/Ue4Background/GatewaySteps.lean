import Ue4Background.Gateway

/-!
What one event can do to a gateway. Each constructor of `Change` is one branch of a
handler, with the facts the branch has tested, what it sends, and the state it leaves.
Invariants of the gateway are proved by cases on it, without unfolding a handler again.
-/

namespace Ue4Background.Gateway

open LuaValues Transition

variable {Num Addr : Type}

/-- After its entry of `conns` is gone, a connection leaves without effect. -/
theorem disconnect_removed (g : State Num Addr) (fd : Fd) :
    disconnect (g.removeConn fd) fd = ⟨g.removeConn fd, [], false⟩ := by
  simp [disconnect, State.removeConn]

theorem disconnect_idle {g : State Num Addr} {fd : Fd}
    (hconn : ∀ c, g.conns fd = some c → (g.connHeap c).playerid = none) :
    disconnect g fd = ⟨g, [], false⟩ := by
  unfold disconnect
  split
  · rfl
  · rename_i c hc
    rw [hconn c hc]

theorem disconnect_fault {g : State Num Addr} {fd : Fd} {c : ConnRef} {p : Num}
    (hconn : g.conns fd = some c) (hplayerid : (g.connHeap c).playerid = some p)
    (hplayer : g.players p = none) : disconnect g fd = ⟨g, [], true⟩ := by
  simp only [disconnect, hconn, hplayerid, hplayer]

theorem disconnect_broken {g : State Num Addr} {fd : Fd} {c : ConnRef} {p : Num} {r : PlayerRef}
    (hconn : g.conns fd = some c) (hplayerid : (g.connHeap c).playerid = some p)
    (hplayer : g.players p = some r) :
    disconnect g fd = ⟨(g.setConn r none).addTimer r p, [], false⟩ := by
  simp only [disconnect, hconn, hplayerid, hplayer]

/-- What a line other than a successful reconnect makes the gateway send. -/
inductive Forwards (g : State Num Addr) (fd : Fd) (msgstr : Bytes) (loginid : ℕ) :
    List (Out Num Addr) → Prop
  | nothing : Forwards g fd msgstr loginid []
  | login (c : ConnRef) (hconn : g.conns fd = some c)
      (hplayerid : (g.connHeap c).playerid = none) :
      Forwards g fd msgstr loginid
        [.toLogin loginid fd ((strUnpack msgstr).headD []) (strUnpack msgstr)]
  | agent (a : Addr) :
      Forwards g fd msgstr loginid
        [.toAgent a ((strUnpack msgstr).headD []) (strUnpack msgstr)]

theorem Forwards.not_write {g : State Num Addr} {fd : Fd} {msgstr : Bytes} {loginid : ℕ}
    {outs : List (Out Num Addr)} (h : Forwards g fd msgstr loginid outs) :
    ∀ o ∈ outs, ∀ fd' m b, o ≠ .write fd' m b := by
  cases h <;> simp

variable [LuaNumber Num]

theorem mem_sendByFd {g : State Num Addr} {fd : Fd} {msg : Msg Num} {o : Out Num Addr}
    (h : o ∈ (sendByFd g fd msg).1) : ∃ m b, o = .write fd m b := by
  unfold sendByFd at h
  split at h
  · cases h
  · split at h
    · cases h
    · exact ⟨_, _, List.mem_singleton.mp h⟩

theorem mem_replay {g : State Num Addr} {fd : Fd} {msgs : List (Msg Num)} {o : Out Num Addr}
    (h : o ∈ (replay g fd msgs).1) : ∃ m b, o = .write fd m b := by
  induction msgs with
  | nil => cases h
  | cons msg rest ih =>
    have hmsg := @mem_sendByFd _ _ _ g fd msg o
    rcases hsend : sendByFd g fd msg with ⟨outs, _ | _⟩
    · rw [hsend] at hmsg
      simp only [replay, hsend, List.mem_append] at h
      exact h.elim hmsg ih
    · rw [hsend] at hmsg
      simp only [replay, hsend] at h
      exact hmsg h

theorem empty_of_replay_fault {g : State Num Addr} {fd : Fd} {msgs : List (Msg Num)}
    (h : (replay g fd msgs).2 = true) : [] ∈ msgs := by
  induction msgs with
  | nil => cases h
  | cons msg rest ih =>
    cases msg with
    | nil => exact List.mem_cons_self
    | cons v vs =>
      have hsend : (sendByFd g fd (v :: vs)).2 = false := by
        unfold sendByFd
        split <;> rfl
      rcases hresult : sendByFd g fd (v :: vs) with ⟨outs, raised⟩
      rw [hresult] at hsend
      dsimp only at hsend
      subst hsend
      rw [replay, hresult] at h
      exact List.mem_cons_of_mem _ (ih h)

variable [DecidableEq Num]

/-- The objects bound to each other by a successful reconnect, before the replay. -/
def State.rebind (g : State Num Addr) (p : Num) (r : PlayerRef) (c : ConnRef) : State Num Addr :=
  (g.setConn r (some c)).setPlayerid c p

/-- What the replay of a reconnect writes. -/
def replayed (g : State Num Addr) (fd : Fd) (p : Num) (r : PlayerRef) (c : ConnRef) :
    List (Out Num Addr) × Bool :=
  replay (g.rebind p r c) fd (reconnected :: ((g.rebind p r c).playerHeap r).msgcache)

/-- The command and the arguments of a line let it take over a player object. -/
def Reconnects (g : State Num Addr) (fd : Fd) (msgstr : Bytes) (p : Num) (r : PlayerRef)
    (c : ConnRef) : Prop :=
  (strUnpack msgstr).headD [] = bytes "reconnect" ∧
    reconnectTarget g fd (strUnpack msgstr) = some (p, r, c)

/-- A line, other than a reconnect, of a connection whose player is gone or has no agent. -/
def Unroutable (g : State Num Addr) (fd : Fd) (msgstr : Bytes) : Prop :=
  (strUnpack msgstr).headD [] ≠ bytes "reconnect" ∧
    ∃ c p, g.conns fd = some c ∧ (g.connHeap c).playerid = some p ∧
      ((g.players p).bind fun r => (g.playerHeap r).agent) = none

omit [DecidableEq Num] in
/-- The replay of a reconnect raises at an empty message of the cache. -/
theorem empty_of_replayed_fault {g : State Num Addr} {fd : Fd} {p : Num} {r : PlayerRef}
    {c : ConnRef} (h : (replayed g fd p r c).2 = true) : [] ∈ (g.playerHeap r).msgcache := by
  have hcache : ((g.rebind p r c).playerHeap r).msgcache = (g.playerHeap r).msgcache := by
    simp [State.rebind, State.setConn, State.setPlayerid]
  have hempty := empty_of_replay_fault h
  rw [hcache] at hempty
  exact (List.mem_cons.mp hempty).resolve_left nofun

inductive Change (g : State Num Addr) :
    Event Num Addr → List (Out Num Addr) → State Num Addr → Prop
  | refused (fd : Fd) (hclosing : g.closing = true) :
      Change g (.connect fd) [] { g with lastFd := fd }
  | opened (fd : Fd) (hclosing : g.closing = false) :
      Change g (.connect fd) [] { g.openConn fd with lastFd := fd }
  | routed (fd : Fd) (msgstr : Bytes) (loginid : ℕ) (outs : List (Out Num Addr))
      (hforwards : Forwards g fd msgstr loginid outs) :
      Change g (.line fd msgstr loginid) outs g
  | lineFault (fd : Fd) (msgstr : Bytes) (loginid : ℕ)
      (hfault : g.conns fd = none ∨ Unroutable g fd msgstr) :
      Change g (.line fd msgstr loginid) [] (g.setLoop fd .dead)
  | rebound (fd : Fd) (msgstr : Bytes) (loginid : ℕ) (p : Num) (r : PlayerRef) (c : ConnRef)
      (htarget : Reconnects g fd msgstr p r c) (hreplay : (replayed g fd p r c).2 = false) :
      Change g (.line fd msgstr loginid) (replayed g fd p r c).1
        ((g.rebind p r c).setCache r [])
  | reboundFault (fd : Fd) (msgstr : Bytes) (loginid : ℕ) (p : Num) (r : PlayerRef)
      (c : ConnRef) (htarget : Reconnects g fd msgstr p r c)
      (hreplay : (replayed g fd p r c).2 = true) :
      Change g (.line fd msgstr loginid) (replayed g fd p r c).1
        ((g.rebind p r c).setLoop fd .dead)
  | left (fd : Fd) (hconn : ∀ c, g.conns fd = some c → (g.connHeap c).playerid = none) :
      Change g (.eof fd) [.close fd] (g.setLoop fd .closed)
  | leftFault (fd : Fd) (c : ConnRef) (p : Num) (hconn : g.conns fd = some c)
      (hplayerid : (g.connHeap c).playerid = some p) (hplayer : g.players p = none) :
      Change g (.eof fd) [] (g.setLoop fd .closed)
  | broken (fd : Fd) (c : ConnRef) (p : Num) (r : PlayerRef) (hconn : g.conns fd = some c)
      (hplayerid : (g.connHeap c).playerid = some p) (hplayer : g.players p = some r) :
      Change g (.eof fd) [.close fd] (((g.setConn r none).addTimer r p).setLoop fd .closed)
  | hungUp (fd : Fd) : Change g (.hangup fd) [] (g.setLoop fd .lost)
  | unsent (p : Num) (msg : Msg Num) (hplayer : g.players p = none) :
      Change g (.send p msg) [] g
  | cached (p : Num) (msg : Msg Num) (r : PlayerRef) (outs : List (Out Num Addr))
      (hplayer : g.players p = some r) (hconn : (g.playerHeap r).conn = none)
      (houts : outs = [] ∨ outs = [.reqkick p overflowReason .overflow]) :
      Change g (.send p msg) outs (g.setCache r ((g.playerHeap r).msgcache ++ [msg]))
  | sent (p : Num) (msg : Msg Num) (r : PlayerRef) (c : ConnRef) (hplayer : g.players p = some r)
      (hconn : (g.playerHeap r).conn = some c) :
      Change g (.send p msg) (sendByFd g (g.connHeap c).fd msg).1 g
  | sentByFd (fd : Fd) (msg : Msg Num) : Change g (.sendByFd fd msg) (sendByFd g fd msg).1 g
  | offline (fd : Fd) (p : Num) (agent : Option Addr) (key : Num) (hconn : g.conns fd = none) :
      Change g (.sureAgent fd p agent key) [.reqkick p offlineReason .offline] g
  | bound (fd : Fd) (p : Num) (agent : Option Addr) (key : Num) (c : ConnRef)
      (hconn : g.conns fd = some c) :
      Change g (.sureAgent fd p agent key) [.ret true]
        ((g.setPlayerid c p).addPlayer p ⟨p, agent, some c, key, []⟩)
  | notKicked (p : Num) (hplayer : g.players p = none) : Change g (.kick p) [] g
  | kickedLost (p : Num) (r : PlayerRef) (hplayer : g.players p = some r)
      (hconn : (g.playerHeap r).conn = none) : Change g (.kick p) [] (g.removePlayer p)
  | kicked (p : Num) (r : PlayerRef) (c : ConnRef) (hplayer : g.players p = some r)
      (hconn : (g.playerHeap r).conn = some c) :
      Change g (.kick p) [.close (g.connHeap c).fd]
        ((g.removePlayer p).removeConn (g.connHeap c).fd)
  | shut : Change g .shutdown [] { g with closing := true }
  | resumed (waiting : Waiting) : Change g (.returned waiting) (resume waiting) g
  | noTimer (i : ℕ) (htimer : g.timers[i]? = none) : Change g (.timer i) [] g
  | timerIdle (i : ℕ) (t : Timer Num) (c : ConnRef) (htimer : g.timers[i]? = some t)
      (hconn : (g.playerHeap t.gplayer).conn = some c) :
      Change g (.timer i) [] { g with timers := g.timers.eraseIdx i }
  | timerKick (i : ℕ) (t : Timer Num) (htimer : g.timers[i]? = some t)
      (hconn : (g.playerHeap t.gplayer).conn = none) :
      Change g (.timer i) [.reqkick t.playerid expiredReason .expired]
        { g with timers := g.timers.eraseIdx i }
  | ticked : Change g .tick [] { g with now := g.now + 1 }

theorem send_change (g : State Num Addr) (p : Num) (msg : Msg Num) :
    Change g (.send p msg) (send g p msg).outs (send g p msg).state := by
  unfold send
  split
  · rename_i hplayer
    exact Change.unsent p msg hplayer
  · rename_i r hplayer
    split
    · rename_i hconn
      refine Change.cached p msg r _ hplayer hconn ?_
      dsimp only
      split
      · exact Or.inr rfl
      · exact Or.inl rfl
    · rename_i c hconn
      exact Change.sent p msg r c hplayer hconn

theorem sureAgent_change (g : State Num Addr) (fd : Fd) (p : Num) (agent : Option Addr)
    (key : Num) :
    Change g (.sureAgent fd p agent key) (sureAgent g fd p agent key).outs
      (sureAgent g fd p agent key).state := by
  unfold sureAgent
  split
  · rename_i hconn
    exact Change.offline fd p agent key hconn
  · rename_i c hconn
    exact Change.bound fd p agent key c hconn

theorem kick_change (g : State Num Addr) (p : Num) :
    Change g (.kick p) (kick g p).outs (kick g p).state := by
  cases hplayer : g.players p with
  | none =>
    simp only [kick, hplayer]
    exact Change.notKicked p hplayer
  | some r =>
    cases hconn : (g.playerHeap r).conn with
    | none =>
      simp only [kick, hplayer, hconn]
      exact Change.kickedLost p r hplayer hconn
    | some c =>
      simp only [kick, hplayer, hconn, disconnect_removed]
      exact Change.kicked p r c hplayer hconn

theorem recvEof_change (g : State Num Addr) (fd : Fd) :
    Change g (.eof fd) (recvEof g fd).outs (recvEof g fd).state := by
  by_cases hidle : ∀ c, g.conns fd = some c → (g.connHeap c).playerid = none
  · simp only [recvEof, disconnect_idle hidle]
    exact Change.left fd hidle
  · push Not at hidle
    obtain ⟨c, hconn, hne⟩ := hidle
    obtain ⟨p, hplayerid⟩ := Option.ne_none_iff_exists'.mp hne
    cases hplayer : g.players p with
    | none =>
      simp only [recvEof, disconnect_fault hconn hplayerid hplayer]
      exact Change.leftFault fd c p hconn hplayerid hplayer
    | some r =>
      simp only [recvEof, disconnect_broken hconn hplayerid hplayer]
      exact Change.broken fd c p r hconn hplayerid hplayer

theorem processReconnect_target {g : State Num Addr} {fd : Fd} {msg : List Bytes} {p : Num}
    {r : PlayerRef} {c : ConnRef} {outs : List (Out Num Addr)}
    (htarget : reconnectTarget g fd msg = some (p, r, c))
    (hreplay : replayed g fd p r c = (outs, false)) :
    processReconnect g fd msg = ⟨(g.rebind p r c).setCache r [], outs, false⟩ := by
  unfold replayed State.rebind at hreplay
  simp only [processReconnect, htarget, hreplay, State.rebind]

theorem processReconnect_fault {g : State Num Addr} {fd : Fd} {msg : List Bytes} {p : Num}
    {r : PlayerRef} {c : ConnRef} {outs : List (Out Num Addr)}
    (htarget : reconnectTarget g fd msg = some (p, r, c))
    (hreplay : replayed g fd p r c = (outs, true)) :
    processReconnect g fd msg = ⟨g.rebind p r c, outs, true⟩ := by
  unfold replayed State.rebind at hreplay
  simp only [processReconnect, htarget, hreplay, State.rebind]

theorem recvLine_change (g : State Num Addr) (fd : Fd) (msgstr : Bytes) (loginid : ℕ) :
    Change g (.line fd msgstr loginid) (recvLine g fd msgstr loginid).outs
      (recvLine g fd msgstr loginid).state := by
  cases hconn : g.conns fd with
  | none =>
    simp only [recvLine, processMsg, hconn]
    exact Change.lineFault fd msgstr loginid (Or.inl hconn)
  | some c =>
    by_cases hcmd : (strUnpack msgstr).headD [] = bytes "reconnect"
    · simp only [recvLine, processMsg, hconn, if_pos hcmd]
      cases htarget : reconnectTarget g fd (strUnpack msgstr) with
      | none =>
        simp only [processReconnect, htarget]
        exact Change.routed fd msgstr loginid [] Forwards.nothing
      | some target =>
        obtain ⟨p, r, c'⟩ := target
        rcases hreplay : replayed g fd p r c' with ⟨outs, _ | _⟩
        · have h := Change.rebound fd msgstr loginid p r c' ⟨hcmd, htarget⟩ (by rw [hreplay])
          rw [processReconnect_target htarget hreplay]
          rwa [hreplay] at h
        · have h := Change.reboundFault fd msgstr loginid p r c' ⟨hcmd, htarget⟩
            (by rw [hreplay])
          rw [processReconnect_fault htarget hreplay]
          rwa [hreplay] at h
    · simp only [recvLine, processMsg, hconn, if_neg hcmd]
      cases hplayerid : (g.connHeap c).playerid with
      | none => exact Change.routed fd msgstr loginid _ (Forwards.login c hconn hplayerid)
      | some p =>
        cases hagent : (g.players p).bind fun r => (g.playerHeap r).agent with
        | none =>
          simp only [hagent]
          exact Change.lineFault fd msgstr loginid
            (Or.inr ⟨hcmd, c, p, hconn, hplayerid, hagent⟩)
        | some agent =>
          simp only [hagent]
          exact Change.routed fd msgstr loginid _ (Forwards.agent agent)

theorem timer_change (g : State Num Addr) (i : ℕ) :
    Change g (.timer i) (handle g (.timer i)).outs (handle g (.timer i)).state := by
  simp only [handle]
  cases htimer : g.timers[i]? with
  | none => exact Change.noTimer i htimer
  | some t =>
    simp only [expire]
    cases hconn : (g.playerHeap t.gplayer).conn with
    | none => exact Change.timerKick i t htimer hconn
    | some c => exact Change.timerIdle i t c htimer hconn

theorem connect_change (g : State Num Addr) (fd : Fd) :
    Change g (.connect fd) (handle g (.connect fd)).outs (handle g (.connect fd)).state := by
  simp only [handle, connect]
  cases hclosing : g.closing with
  | true => exact Change.refused fd hclosing
  | false => exact Change.opened fd hclosing

/-- Every step of a gateway is one of the listed changes. -/
theorem handle_change (g : State Num Addr) (ev : Event Num Addr) :
    Change g ev (handle g ev).outs (handle g ev).state := by
  cases ev with
  | connect fd => exact connect_change g fd
  | line fd msgstr loginid => exact recvLine_change g fd msgstr loginid
  | eof fd => exact recvEof_change g fd
  | hangup fd => exact Change.hungUp fd
  | send p msg => exact send_change g p msg
  | sendByFd fd msg => exact Change.sentByFd fd msg
  | sureAgent fd p agent key => exact sureAgent_change g fd p agent key
  | kick p => exact kick_change g p
  | shutdown => exact Change.shut
  | returned waiting => exact Change.resumed waiting
  | timer i => exact timer_change g i
  | tick => exact Change.ticked

theorem step_change {g g' : State Num Addr} {l : Label Num Addr} (h : Step g l g') :
    Change g l.1 l.2 g' := by
  have hchange := handle_change g l.1
  have hnext := h.2
  simp only [next, Prod.mk.injEq] at hnext
  rwa [hnext.1, hnext.2] at hchange

end Ue4Background.Gateway
