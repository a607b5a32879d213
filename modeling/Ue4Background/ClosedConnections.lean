import Ue4Background.SessionBinding

/-!
Logins and sockets that close. `sure_agent` takes a missing entry of `conns` as the sign
that the client has gone, but `disconnect` leaves the entry of a connection that has not
finished its login, and a fault of `process_msg` ends the `recv_loop`, so that nobody sees the
socket close. A login is never completed on a closed connection in runs where no `sure_agent`
meets the entry of a `recv_loop` that has ended, where no fault ends the `recv_loop` of a
player, and where no connection is taken from another player.
-/

namespace Ue4Background.Gateway

open LuaValues Transition

variable {Num Addr : Type}

/-- The entry of a `recv_loop` that has ended is not there when a login on it is confirmed. -/
def EntryOfReading (g : State Num Addr) (l : Label Num Addr) : Prop :=
  match l.1 with
  | .sureAgent fd _ _ _ => g.loops fd ≠ some .reading → g.conns fd = none
  | _ => True

/-- Every player's connection is read by its `recv_loop`. -/
def ConnsReading (g : State Num Addr) : Prop :=
  ∀ p c, HasConn g p c → g.loops (g.connHeap c).fd = some .reading

/-- A `recv_loop` that serves no player may end. -/
theorem ConnsReading.setLoop {g : State Num Addr} (h : ConnsReading g) {fd : Fd} (loop : Loop)
    (hnone : ∀ p c, HasConn g p c → (g.connHeap c).fd ≠ fd) :
    ConnsReading (g.setLoop fd loop) := by
  intro p c hp
  change Function.update g.loops fd (some loop) (g.connHeap c).fd = some .reading
  rw [Function.update_of_ne (hnone p c hp)]
  exact h p c hp

/-- The player who has a registered connection is the one it names. -/
theorem Consistent.owner {g : State Num Addr} (h : Consistent g) {fd : Fd} {c d : ConnRef}
    {q : Num} (hconn : g.conns fd = some c) (hq : HasConn g q d)
    (hfd : (g.connHeap d).fd = fd) : d = c ∧ (g.connHeap c).playerid = some q := by
  obtain ⟨hreg, hid⟩ := h q d hq
  rw [hfd] at hreg
  have hdc : c = d := Option.some.inj (hconn.symm.trans hreg)
  subst d
  exact ⟨rfl, hid⟩

theorem ConnsReading.rebind {g : State Num Addr} (hs : Shape g) (h : ConnsReading g)
    {fd : Fd} {p : Num} {r : PlayerRef} {c : ConnRef} (hloop : g.loops fd = some .reading)
    (hconn : g.conns fd = some c) (hplayer : g.players p = some r) :
    ConnsReading (g.rebind p r c) := by
  intro q d hq
  change g.loops ((g.setPlayerid c p).connHeap d).fd = some .reading
  rw [setPlayerid_fd]
  have hcases : HasConn (g.setConn r (some c)) q d := hq
  rcases (hasConn_setConn hs hplayer (some c)).mp hcases with ⟨_, hcd⟩ | ⟨_, hold⟩
  · have hdc : c = d := Option.some.inj hcd
    subst d
    rw [hs.conn_fd fd c hconn]
    exact hloop
  · exact h q d hold

variable [DecidableEq Num] [LuaNumber Num]

/-- A line at which `process_msg` raises on a player's connection, or on one that a reconnect has
just made a player's: the player has no agent, or its cache holds an empty message. -/
def EndsPlayerLoop (g : State Num Addr) (fd : Fd) (msgstr : Bytes) : Prop :=
  (Unroutable g fd msgstr ∧ ∃ p c, HasConn g p c ∧ (g.connHeap c).fd = fd) ∨
    ∃ p r c, Reconnects g fd msgstr p r c ∧ [] ∈ (g.playerHeap r).msgcache

def KeepsPlayerLoops (g : State Num Addr) (l : Label Num Addr) : Prop :=
  match l.1 with
  | .line fd msgstr _ => ¬ EndsPlayerLoop g fd msgstr
  | _ => True

theorem ConnsReading.step {g g' : State Num Addr} {l : Label Num Addr} (hs : Shape g)
    (hc : Consistent g) (h : ConnsReading g) (hstep : Step g l g') (hentry : EntryOfReading g l)
    (hloops : KeepsPlayerLoops g l) : ConnsReading g' := by
  have henabled := hstep.1
  have hchange := step_change hstep
  obtain ⟨ev, outs⟩ := l
  dsimp only at henabled hchange
  cases hchange
  case opened fd _ =>
    intro p c hp
    have hreg := (hc p c hp).1
    have hne : c ≠ g.connCount := Nat.ne_of_lt (hs.conn_lt _ c hreg)
    have hfd : (g.connHeap c).fd ≠ fd :=
      Nat.ne_of_lt (Nat.lt_of_le_of_lt (hs.fd_le hreg) henabled)
    simpa [State.openConn, hne, hfd] using h p c hp
  case lineFault fd _ _ hfault =>
    refine h.setLoop .dead fun q d hq hfd => ?_
    rcases hfault with hnone | hunroutable
    · have hconn := (hc q d hq).1
      rw [hfd, hnone] at hconn
      cases hconn
    · exact hloops (Or.inl ⟨hunroutable, q, d, hq, hfd⟩)
  case rebound fd _ _ p r c htarget _ =>
    obtain ⟨hconn, _, hplayer, _⟩ := reconnectTarget_eq_some htarget.2
    have hrebind := h.rebind hs henabled hconn hplayer
    intro q d hq
    exact hrebind q d ((hasConn_setCache []).mp hq)
  case reboundFault fd _ _ p r c htarget hreplay =>
    exact absurd (Or.inr ⟨p, r, c, htarget, empty_of_replayed_fault hreplay⟩) hloops
  case left fd hnone =>
    refine h.setLoop .closed fun q d hq hfd => ?_
    have hconn := (hc q d hq).1
    rw [hfd] at hconn
    have hid := (hc q d hq).2
    rw [hnone d hconn] at hid
    cases hid
  case leftFault fd c p hconn hid hplayer =>
    refine h.setLoop .closed fun q d hq hfd => ?_
    obtain ⟨_, hqid⟩ := hc.owner hconn hq hfd
    have hqp : p = q := Option.some.inj (hid.symm.trans hqid)
    subst q
    obtain ⟨r, hr, _⟩ := hq
    rw [hplayer] at hr
    cases hr
  case broken fd c p r hconn hid hplayer =>
    have hsplit : ∀ q d, HasConn ((g.setConn r none).addTimer r p) q d →
        q ≠ p ∧ HasConn g q d := by
      intro q d hq
      have hcases : HasConn (g.setConn r none) q d := hq
      rcases (hasConn_setConn hs hplayer none).mp hcases with ⟨_, hnone⟩ | hold
      · cases hnone
      · exact hold
    have hreading : ConnsReading ((g.setConn r none).addTimer r p) :=
      fun q d hq => h q d (hsplit q d hq).2
    refine hreading.setLoop .closed fun q d hq hfd => ?_
    obtain ⟨hqp, hold⟩ := hsplit q d hq
    obtain ⟨_, hqid⟩ := hc.owner hconn hold hfd
    exact hqp (Option.some.inj (hqid.symm.trans hid))
  case hungUp fd =>
    refine h.setLoop .lost fun q d hq hfd => ?_
    have hreading := h q d hq
    rw [hfd] at hreading
    cases hreading.symm.trans henabled
  case cached =>
    intro q d hq
    exact h q d ((hasConn_setCache _).mp hq)
  case bound fd p agent key c hconn =>
    intro q d hq
    change g.loops ((g.setPlayerid c p).connHeap d).fd = some .reading
    rw [setPlayerid_fd]
    rcases (hasConn_addPlayer hs.setPlayerid _).mp hq with ⟨_, hcd⟩ | ⟨_, hold⟩
    · have hdc : c = d := Option.some.inj hcd
      subst d
      rw [hs.conn_fd fd c hconn]
      by_contra hended
      rw [hentry hended] at hconn
      cases hconn
    · exact h q d hold
  case kickedLost =>
    intro q d hq
    exact h q d (hasConn_removePlayer.mp hq).2
  case kicked =>
    intro q d hq
    exact h q d (hasConn_removePlayer.mp hq).2
  all_goals exact h

-- a line raises on a connection whose player has no agent, and nobody sees the client hang up
example : HasConn (exec next (init : State ℕ ℕ)
      [.connect 1, .line 1 (bytes "login,7,pw") 1, .sureAgent 1 7 none 31,
        .line 1 (bytes "shift,5") 1, .hangup 1]) 7 0 ∧
    (exec next (init : State ℕ ℕ)
      [.connect 1, .line 1 (bytes "login,7,pw") 1, .sureAgent 1 7 none 31,
        .line 1 (bytes "shift,5") 1, .hangup 1]).loops 1 = some .lost :=
  ⟨⟨0, by decide, by decide⟩, by decide⟩

end Ue4Background.Gateway
