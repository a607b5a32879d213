import Ue4Background.SessionBinding

/-!
The message stream of one player session across disconnects and reconnects. Messages
reach the client directly or through the cache that a reconnect replays. What has been
written to the player's connections, followed by the cache, is what was passed to `send`.
A session may be followed through any run of the gateway that neither ends it nor lets
another player use its connection. A message without a command is never written, so the
stream is about messages with at least one element.
-/

namespace Ue4Background.Gateway

open LuaValues Transition

variable {Num Addr : Type}

/-- The messages of the writes, in order. -/
def written (outs : List (Out Num Addr)) : List (Msg Num) :=
  outs.filterMap fun o =>
    match o with
    | .write _ msg _ => some msg
    | _ => none

theorem written_eq_nil {outs : List (Out Num Addr)}
    (h : ∀ o ∈ outs, ∀ fd m b, o ≠ .write fd m b) : written outs = [] := by
  apply List.filterMap_eq_nil_iff.mpr
  intro o ho
  cases o with
  | write fd m b => exact absurd rfl (h _ ho fd m b)
  | _ => rfl

/-- `players[p].msgcache`, empty when there is no such player. -/
def cache (g : State Num Addr) (p : Num) : List (Msg Num) :=
  match g.players p with
  | none => []
  | some r => (g.playerHeap r).msgcache

theorem cache_stored {g : State Num Addr} {p : Num} {r : PlayerRef}
    (hplayer : g.players p = some r) : cache g p = (g.playerHeap r).msgcache := by
  simp only [cache, hplayer]

/-- Messages for `p` have a command. -/
def HasCommand (p : Num) (_ : State Num Addr) (l : Label Num Addr) : Prop :=
  ∀ msg, l.1 = .send p msg → msg ≠ []

/-- The event neither ends the session of `p` nor starts another. -/
def KeepsSession (p : Num) (ev : Event Num Addr) : Prop :=
  match ev with
  | .sureAgent _ q _ _ => q ≠ p
  | .kick q => q ≠ p
  | _ => True

/-- The session of `p` goes on, and no other player has its connection. -/
def SessionGoesOn (p : Num) (g : State Num Addr) (l : Label Num Addr) : Prop :=
  (∀ c, HasConn g p c → ¬ OtherOwner g p c) ∧ KeepsSession p l.1

/-- A step of another session leaves the objects of the session of `p` as they are. -/
structure Untouched (p : Num) (g g' : State Num Addr) : Prop where
  players : g'.players p = g.players p
  heap : ∀ r, g.players p = some r → g'.playerHeap r = g.playerHeap r
  conns : ∀ c d, HasConn g p c → g.conns (g.connHeap c).fd = some d →
    g'.conns (g'.connHeap c).fd = some d

theorem Untouched.refl (p : Num) (g : State Num Addr) : Untouched p g g :=
  ⟨rfl, fun _ _ => rfl, fun _ _ _ h => h⟩

theorem Untouched.cache {p : Num} {g g' : State Num Addr} (h : Untouched p g g') :
    cache g' p = cache g p := by
  cases hplayer : g.players p with
  | none => simp only [Gateway.cache, h.players, hplayer]
  | some r => simp only [Gateway.cache, h.players, hplayer, h.heap r hplayer]

theorem Untouched.hasConn {p : Num} {g g' : State Num Addr} (h : Untouched p g g') {c : ConnRef}
    (hc : HasConn g' p c) : HasConn g p c := by
  obtain ⟨r, hplayer, hconn⟩ := hc
  rw [h.players] at hplayer
  exact ⟨r, hplayer, by rwa [h.heap r hplayer] at hconn⟩

/-- A reconnect of another player leaves the session alone. -/
theorem untouched_rebind {p q : Num} {g : State Num Addr} {r : PlayerRef} {c : ConnRef}
    (hs : Shape g) (hplayer : g.players q = some r) (hqp : q ≠ p) :
    Untouched p g (g.rebind q r c) where
  players := rfl
  heap r' hr' := by
    have hne := hs.refs_ne hplayer hr' hqp
    simp [State.rebind, State.setConn, State.setPlayerid, hne]
  conns d e hd he := by
    change g.conns ((g.setPlayerid c q).connHeap d).fd = some e
    rw [setPlayerid_fd]
    exact he

theorem untouched_setCache {p q : Num} {g : State Num Addr} {r : PlayerRef}
    (msgs : List (Msg Num)) (hs : Shape g) (hplayer : g.players q = some r) (hqp : q ≠ p) :
    Untouched p g (g.setCache r msgs) where
  players := rfl
  heap r' hr' := by
    have hne := hs.refs_ne hplayer hr' hqp
    simp [State.setCache, hne]
  conns _ _ _ he := he

theorem Untouched.trans {p : Num} {g g' g'' : State Num Addr} (h : Untouched p g g')
    (h' : Untouched p g' g'') : Untouched p g g'' where
  players := h'.players.trans h.players
  heap r hr := by
    have hr' : g'.players p = some r := by rw [h.players]; exact hr
    rw [h'.heap r hr', h.heap r hr]
  conns c d hc hd := by
    obtain ⟨r, hplayer, hconn⟩ := hc
    have hc' : HasConn g' p c :=
      ⟨r, by rw [h.players]; exact hplayer, by rw [h.heap r hplayer]; exact hconn⟩
    exact h'.conns c d hc' (h.conns c d ⟨r, hplayer, hconn⟩ hd)

/-- The connection that a kick of another player removes is not the session's. -/
theorem untouched_kicked [DecidableEq Num] {p q : Num} {g : State Num Addr} {r : PlayerRef}
    {c : ConnRef} (hs : Shape g) (hplayer : g.players q = some r)
    (hconn : (g.playerHeap r).conn = some c) (hqp : q ≠ p)
    (hown : ∀ d, HasConn g p d → ¬ OtherOwner g p d) :
    Untouched p g ((g.removePlayer q).removeConn (g.connHeap c).fd) where
  players := by simp [State.removePlayer, State.removeConn, Ne.symm hqp]
  heap _ _ := rfl
  conns d e hd he := by
    have hfd : (g.connHeap d).fd ≠ (g.connHeap c).fd := by
      intro hfd
      have hc : HasConn g q c := ⟨r, hplayer, hconn⟩
      have hdc := hs.heap_inj d c (hs.player_conn p d hd) (hs.player_conn q c hc) hfd
      subst d
      exact hown c hd ⟨q, hqp, hc⟩
    change Function.update g.conns (g.connHeap c).fd none (g.connHeap d).fd = some e
    rw [Function.update_of_ne hfd]
    exact he

section Messages

variable [LuaNumber Num]

/-- To an fd that is registered, a message with a command is written. -/
theorem sendByFd_registered {g : State Num Addr} {fd : Fd} {c : ConnRef} {msg : Msg Num}
    (hconn : g.conns fd = some c) (hmsg : msg ≠ []) :
    sendByFd g fd msg = ([.write fd msg (strPack msg)], false) := by
  cases msg with
  | nil => exact absurd rfl hmsg
  | cons f rest => simp only [sendByFd, hconn]

theorem replay_registered {g : State Num Addr} {fd : Fd} {c : ConnRef} {msgs : List (Msg Num)}
    (hconn : g.conns fd = some c) (hmsgs : ∀ msg ∈ msgs, msg ≠ []) :
    replay g fd msgs = (msgs.map fun msg => .write fd msg (strPack msg), false) := by
  induction msgs with
  | nil => rfl
  | cons msg rest ih =>
    have hrest := ih fun m hm => hmsgs m (List.mem_cons_of_mem _ hm)
    have hmsg := hmsgs msg (List.mem_cons_self ..)
    simp [replay, sendByFd_registered hconn hmsg, hrest]

theorem written_writes (fd : Fd) (msgs : List (Msg Num)) :
    written (msgs.map fun msg => (.write fd msg (strPack msg) : Out Num Addr)) = msgs := by
  induction msgs with
  | nil => rfl
  | cons msg rest ih => simp [written]

end Messages

variable [DecidableEq Num]

def passedBy (p : Num) (l : Label Num Addr) : List (Msg Num) :=
  match l.1 with
  | .send q msg => if q = p then [msg] else []
  | _ => []

def passed (p : Num) (ls : List (Label Num Addr)) : List (Msg Num) := ls.flatMap (passedBy p)

theorem passed_append (p : Num) (ls : List (Label Num Addr)) (l : Label Num Addr) :
    passed p (ls ++ [l]) = passed p ls ++ passedBy p l := by
  simp [passed]

variable [LuaNumber Num]

/-- A line that asks to reconnect as `p`. -/
def ReconnectLine (p : Num) (msgstr : Bytes) : Prop :=
  (strUnpack msgstr).headD [] = bytes "reconnect" ∧
    (strUnpack msgstr)[1]?.bind tonumber = some p

instance (p : Num) (msgstr : Bytes) : Decidable (ReconnectLine p msgstr) :=
  inferInstanceAs (Decidable (_ ∧ _))

/-- What a step wrote for the session: a reconnect writes its acknowledgement first. -/
def deliveredBy (p : Num) (l : Label Num Addr) : List (Msg Num) :=
  match l.1 with
  | .send q _ => if q = p then written l.2 else []
  | .line _ msgstr _ => if ReconnectLine p msgstr then (written l.2).tail else []
  | _ => []

def delivered (p : Num) (ls : List (Label Num Addr)) : List (Msg Num) :=
  ls.flatMap (deliveredBy p)

theorem delivered_append (p : Num) (ls : List (Label Num Addr)) (l : Label Num Addr) :
    delivered p (ls ++ [l]) = delivered p ls ++ deliveredBy p l := by
  simp [delivered]

/-- What the session of `p` has written and cached, after the history of its steps. -/
structure Stream (p : Num) (hist : List (Label Num Addr)) (g : State Num Addr) : Prop where
  stored : ∃ r, g.players p = some r
  conserved : delivered p hist ++ cache g p = passed p hist
  commands : ∀ msg ∈ cache g p, msg ≠ []
  direct : ∀ c, HasConn g p c → cache g p = [] ∧ ∃ d, g.conns (g.connHeap c).fd = some d

/-- A step that neither writes nor passes a message of the session, and leaves its
objects alone, keeps the stream. -/
theorem Stream.untouched {p : Num} {hist : List (Label Num Addr)} {g g' : State Num Addr}
    {l : Label Num Addr} (h : Stream p hist g) (hsame : Untouched p g g')
    (hdelivered : deliveredBy p l = []) (hpassed : passedBy p l = []) :
    Stream p (hist ++ [l]) g' where
  stored := by rw [hsame.players]; exact h.stored
  conserved := by
    rw [delivered_append, passed_append, hdelivered, hpassed, hsame.cache, List.append_nil,
      List.append_nil]
    exact h.conserved
  commands := by rw [hsame.cache]; exact h.commands
  direct c hc := by
    have hold := hsame.hasConn hc
    obtain ⟨hempty, d, hd⟩ := h.direct c hold
    exact ⟨by rw [hsame.cache]; exact hempty, d, hsame.conns c d hold hd⟩

theorem deliveredBy_line {p : Num} {fd : Fd} {msgstr : Bytes} {loginid : ℕ}
    {outs : List (Out Num Addr)} (hwritten : written outs = []) :
    deliveredBy p (.line fd msgstr loginid, outs) = [] := by
  simp [deliveredBy, hwritten]

/-- The line of a reconnect of `q` is a reconnect line of nobody else. -/
theorem reconnectLine_iff {g : State Num Addr} {fd : Fd} {msgstr : Bytes} {p q : Num}
    {r : PlayerRef} {c : ConnRef} (htarget : Reconnects g fd msgstr q r c) :
    ReconnectLine p msgstr ↔ q = p := by
  obtain ⟨_, hq, _⟩ := reconnectTarget_eq_some htarget.2
  unfold ReconnectLine
  rw [hq]
  exact ⟨fun h => Option.some.inj h.2, fun h => ⟨htarget.1, congrArg some h⟩⟩

/-- The messages that a reconnect of the session writes, with its acknowledgement. -/
theorem Stream.replayed_eq {p : Num} {hist : List (Label Num Addr)} {g : State Num Addr}
    {r : PlayerRef} {c : ConnRef} {fd : Fd} (h : Stream p hist g) (hconn : g.conns fd = some c)
    (hplayer : g.players p = some r) :
    replayed g fd p r c =
      ((reconnected :: cache g p).map fun msg => .write fd msg (strPack msg), false) := by
  have hcache : ((g.rebind p r c).playerHeap r).msgcache = cache g p := by
    rw [cache_stored hplayer]
    simp [State.rebind, State.setConn, State.setPlayerid]
  unfold replayed
  rw [hcache]
  have hreg : (g.rebind p r c).conns fd = some c := hconn
  apply replay_registered hreg
  intro msg hmsg
  rcases List.mem_cons.mp hmsg with rfl | hold
  · simp [reconnected]
  · exact h.commands msg hold

/-- The session takes a new connection: its cache is written there and emptied. -/
theorem Stream.rebound {p : Num} {hist : List (Label Num Addr)} {g : State Num Addr}
    {r : PlayerRef} {c : ConnRef} {fd : Fd} {msgstr : Bytes} {loginid : ℕ} (hs : Shape g)
    (h : Stream p hist g) (htarget : Reconnects g fd msgstr p r c) :
    Stream p (hist ++ [(.line fd msgstr loginid, (replayed g fd p r c).1)])
      ((g.rebind p r c).setCache r []) := by
  obtain ⟨hconn, _, hplayer, _⟩ := reconnectTarget_eq_some htarget.2
  have hcache : cache ((g.rebind p r c).setCache r []) p = [] := by
    rw [cache_stored (g := (g.rebind p r c).setCache r []) hplayer]
    simp [State.setCache]
  have hdelivered :
      deliveredBy p (.line fd msgstr loginid, (replayed g fd p r c).1) = cache g p := by
    rw [h.replayed_eq hconn hplayer]
    simp only [deliveredBy, if_pos ((reconnectLine_iff htarget).mpr rfl)]
    rw [written_writes, List.tail_cons]
  refine ⟨⟨r, hplayer⟩, ?_, ?_, ?_⟩
  · rw [delivered_append, passed_append, hdelivered, hcache, List.append_nil]
    simpa [passedBy] using h.conserved
  · rw [hcache]
    simp
  · intro d hd
    refine ⟨hcache, c, ?_⟩
    have hold : HasConn (g.setConn r (some c)) p d := (hasConn_setCache []).mp hd
    rcases (hasConn_setConn hs hplayer (some c)).mp hold with ⟨_, hcd⟩ | ⟨hne, _⟩
    · have hdc : c = d := Option.some.inj hcd
      subst d
      exact (setPlayerid_registered hs hconn).1
    · exact absurd rfl hne

/-- A message for a session without a connection goes to its cache. -/
theorem Stream.cached {p : Num} {hist : List (Label Num Addr)} {g : State Num Addr}
    {r : PlayerRef} {msg : Msg Num} {outs : List (Out Num Addr)} (h : Stream p hist g)
    (hplayer : g.players p = some r) (hconn : (g.playerHeap r).conn = none)
    (hwrites : written outs = []) (hmsg : msg ≠ []) :
    Stream p (hist ++ [(.send p msg, outs)])
      (g.setCache r ((g.playerHeap r).msgcache ++ [msg])) := by
  have hcache : cache (g.setCache r ((g.playerHeap r).msgcache ++ [msg])) p =
      cache g p ++ [msg] := by
    rw [cache_stored (g := g.setCache r ((g.playerHeap r).msgcache ++ [msg])) hplayer,
      cache_stored hplayer]
    simp [State.setCache]
  refine ⟨⟨r, hplayer⟩, ?_, ?_, ?_⟩
  · rw [delivered_append, passed_append, hcache]
    simp only [deliveredBy, passedBy, if_pos, hwrites, List.append_nil]
    rw [← List.append_assoc, h.conserved]
  · rw [hcache]
    intro m hm
    rcases List.mem_append.mp hm with hold | hnew
    · exact h.commands m hold
    · rw [List.mem_singleton.mp hnew]
      exact hmsg
  · intro c hc
    obtain ⟨r', hr', hsome⟩ := (hasConn_setCache _).mp hc
    have heq : r = r' := Option.some.inj (hplayer.symm.trans hr')
    subst r'
    rw [hconn] at hsome
    cases hsome

/-- A message for a session with a connection is written at once. -/
theorem Stream.sent {p : Num} {hist : List (Label Num Addr)} {g : State Num Addr}
    {r : PlayerRef} {c : ConnRef} {msg : Msg Num} (h : Stream p hist g)
    (hplayer : g.players p = some r) (hconn : (g.playerHeap r).conn = some c)
    (hmsg : msg ≠ []) :
    Stream p (hist ++ [(.send p msg, (sendByFd g (g.connHeap c).fd msg).1)]) g := by
  obtain ⟨hempty, d, hd⟩ := h.direct c ⟨r, hplayer, hconn⟩
  refine ⟨h.stored, ?_, h.commands, h.direct⟩
  rw [delivered_append, passed_append, sendByFd_registered hd hmsg]
  have hconserved := h.conserved
  rw [hempty, List.append_nil] at hconserved ⊢
  simp [deliveredBy, passedBy, written, hconserved]

/-- The session loses its connection: its cache and what it has written stay. -/
theorem Stream.broken {p : Num} {hist : List (Label Num Addr)} {g g' : State Num Addr}
    {l : Label Num Addr} (h : Stream p hist g) (hplayers : g'.players = g.players)
    (hcache : cache g' p = cache g p) (hnone : ∀ c, ¬ HasConn g' p c)
    (hdelivered : deliveredBy p l = []) (hpassed : passedBy p l = []) :
    Stream p (hist ++ [l]) g' where
  stored := by rw [hplayers]; exact h.stored
  conserved := by
    rw [delivered_append, passed_append, hdelivered, hpassed, hcache, List.append_nil,
      List.append_nil]
    exact h.conserved
  commands := by rw [hcache]; exact h.commands
  direct c hc := absurd hc (hnone c)

theorem Stream.step {p : Num} {hist : List (Label Num Addr)} {g g' : State Num Addr}
    {l : Label Num Addr} (hs : Shape g) (h : Stream p hist g) (hstep : Step g l g')
    (hgoes : SessionGoesOn p g l) (hcommand : HasCommand p g l) : Stream p (hist ++ [l]) g' := by
  have henabled := hstep.1
  have hchange := step_change hstep
  obtain ⟨hown, hgoes⟩ := hgoes
  obtain ⟨ev, outs⟩ := l
  dsimp only at henabled hchange hgoes
  cases hchange
  case opened fd _ =>
    refine h.untouched ⟨rfl, fun _ _ => rfl, ?_⟩ rfl rfl
    intro c d hc hd
    have hlt := hs.player_conn p c hc
    have hfd : (g.connHeap c).fd ≠ fd :=
      Nat.ne_of_lt (Nat.lt_of_le_of_lt (hs.heap_le c hlt) henabled)
    simpa [State.openConn, Nat.ne_of_lt hlt, hfd] using hd
  case routed fd msgstr loginid hforwards =>
    exact h.untouched (Untouched.refl p g)
      (deliveredBy_line (written_eq_nil hforwards.not_write)) rfl
  case lineFault fd msgstr loginid _ =>
    exact h.untouched ⟨rfl, fun _ _ => rfl, fun _ _ _ hd => hd⟩ (deliveredBy_line rfl) rfl
  case rebound fd msgstr loginid q r c htarget _ =>
    by_cases hqp : q = p
    · subst q
      exact h.rebound hs htarget
    · obtain ⟨hconn, _, hplayer, _⟩ := reconnectTarget_eq_some htarget.2
      have hrebind := untouched_rebind (c := c) hs hplayer hqp
      have hclear := untouched_setCache [] (hs.rebind hconn hplayer) hplayer hqp
      refine h.untouched (hrebind.trans hclear) ?_ rfl
      simp only [deliveredBy, if_neg fun hline => hqp ((reconnectLine_iff htarget).mp hline)]
  case reboundFault fd msgstr loginid q r c htarget hreplay =>
    obtain ⟨hconn, _, hplayer, _⟩ := reconnectTarget_eq_some htarget.2
    by_cases hqp : q = p
    · subst q
      rw [h.replayed_eq hconn hplayer] at hreplay
      cases hreplay
    · have hrebind := untouched_rebind (c := c) hs hplayer hqp
      refine h.untouched (hrebind.trans ⟨rfl, fun _ _ => rfl, fun _ _ _ hd => hd⟩) ?_ rfl
      simp only [deliveredBy, if_neg fun hline => hqp ((reconnectLine_iff htarget).mp hline)]
  case broken fd c q r _ _ hplayer =>
    by_cases hqp : q = p
    · subst q
      refine h.broken rfl ?_ ?_ rfl rfl
      · rw [cache_stored (g := ((g.setConn r none).addTimer r p).setLoop fd .closed) hplayer,
          cache_stored hplayer]
        simp [State.setConn, State.addTimer, State.setLoop]
      · intro d hd
        rcases (hasConn_setConn hs hplayer none).mp hd with ⟨_, hnone⟩ | ⟨hne, _⟩
        · cases hnone
        · exact hne rfl
    · refine h.untouched ⟨rfl, ?_, fun _ _ _ hd => hd⟩ rfl rfl
      intro r' hr'
      have hne := hs.refs_ne hplayer hr' hqp
      simp [State.setConn, State.addTimer, State.setLoop, hne]
  case unsent q msg hplayer =>
    have hqp : q ≠ p := by
      rintro rfl
      obtain ⟨r, hr⟩ := h.stored
      rw [hplayer] at hr
      cases hr
    exact h.untouched (Untouched.refl p g) (by simp [deliveredBy, hqp]) (by simp [passedBy, hqp])
  case cached q msg r hplayer hconn houts =>
    by_cases hqp : q = p
    · subst q
      refine h.cached hplayer hconn ?_ (hcommand msg rfl)
      rcases houts with rfl | rfl <;> rfl
    · exact h.untouched (untouched_setCache _ hs hplayer hqp) (by simp [deliveredBy, hqp])
        (by simp [passedBy, hqp])
  case sent q msg r c hplayer hconn =>
    by_cases hqp : q = p
    · subst q
      exact h.sent hplayer hconn (hcommand msg rfl)
    · exact h.untouched (Untouched.refl p g) (by simp [deliveredBy, hqp])
        (by simp [passedBy, hqp])
  case bound fd q agent key c hconn =>
    have hqp : p ≠ q := Ne.symm hgoes
    refine h.untouched ⟨Function.update_of_ne hqp _ _, ?_, ?_⟩ rfl rfl
    · intro r hr
      exact Function.update_of_ne (Nat.ne_of_lt (hs.player_lt p r hr)) _ _
    · intro d e _ he
      change g.conns ((g.setPlayerid c q).connHeap d).fd = some e
      rw [setPlayerid_fd]
      exact he
  case kickedLost q _ _ _ =>
    refine h.untouched ⟨?_, fun _ _ => rfl, fun _ _ _ hd => hd⟩ rfl rfl
    exact Function.update_of_ne (Ne.symm hgoes) _ _
  case kicked q r c hplayer hconn =>
    exact h.untouched (untouched_kicked hs hplayer hconn hgoes hown) rfl rfl
  all_goals exact h.untouched ⟨rfl, fun _ _ => rfl, fun _ _ _ hd => hd⟩ rfl rfl

def SessionMeets (p : Num) (g : State Num Addr) (l : Label Num Addr) : Prop :=
  SessionGoesOn p g l ∧ HasCommand p g l

/-- A confirmed login starts a session with nothing written and nothing cached. -/
theorem Stream.start {g g' : State Num Addr} {fd : Fd} {p : Num} {agent : Option Addr}
    {key : Num} {outs : List (Out Num Addr)} (hs : Shape g)
    (hstep : Step g (.sureAgent fd p agent key, outs) g') (hret : Out.ret true ∈ outs) :
    Stream p [] g' := by
  have hchange := step_change hstep
  dsimp only at hchange
  cases hchange
  case offline => simp at hret
  case bound c hconn =>
    have hplayer : ((g.setPlayerid c p).addPlayer p ⟨p, agent, some c, key, []⟩).players p =
        some g.playerCount := by simp [State.addPlayer, State.setPlayerid]
    have hcache : cache ((g.setPlayerid c p).addPlayer p ⟨p, agent, some c, key, []⟩) p = [] := by
      rw [cache_stored hplayer]
      simp [State.addPlayer, State.setPlayerid]
    refine ⟨⟨_, hplayer⟩, ?_, ?_, ?_⟩
    · rw [hcache]
      rfl
    · rw [hcache]
      simp
    · intro d hd
      refine ⟨hcache, c, ?_⟩
      rcases (hasConn_addPlayer hs.setPlayerid _).mp hd with ⟨_, hcd⟩ | ⟨hne, _⟩
      · have hdc : c = d := Option.some.inj hcd
        subst d
        exact (setPlayerid_registered hs hconn).1
      · exact absurd rfl hne

/-- A step that passes a message of the session or reconnects it. -/
def SessionStep (p : Num) (l : Label Num Addr) : Prop :=
  match l.1 with
  | .send q _ => q = p
  | .line _ msgstr _ => ReconnectLine p msgstr
  | _ => False

/-- What the session writes goes, packed, to the connection the session then has. -/
theorem Stream.writes_own {p : Num} {hist : List (Label Num Addr)} {g g' : State Num Addr}
    {l : Label Num Addr} (hs : Shape g) (h : Stream p hist g) (hstep : Step g l g')
    (hcommand : HasCommand p g l) (hsession : SessionStep p l) {fd : Fd} {msg : Msg Num}
    {buff : Bytes} (hwrite : Out.write fd msg buff ∈ l.2) :
    ∃ c, HasConn g' p c ∧ (g'.connHeap c).fd = fd ∧ buff = strPack msg := by
  have hchange := step_change hstep
  obtain ⟨ev, outs⟩ := l
  dsimp only at hchange hsession hwrite
  cases hchange <;> try exact hsession.elim
  case routed hforwards => exact absurd rfl (hforwards.not_write _ hwrite fd msg buff)
  case lineFault => cases hwrite
  case rebound fd' msgstr _ q r c htarget _ =>
    have hqp := (reconnectLine_iff htarget).mp hsession
    subst q
    obtain ⟨hconn, _, hplayer, _⟩ := reconnectTarget_eq_some htarget.2
    rw [h.replayed_eq hconn hplayer] at hwrite
    obtain ⟨m, _, heq⟩ := List.mem_map.mp hwrite
    simp only [Out.write.injEq] at heq
    obtain ⟨rfl, rfl, rfl⟩ := heq
    refine ⟨c, (hasConn_setCache []).mpr ?_, ?_, rfl⟩
    · exact (hasConn_setConn hs hplayer (some c)).mpr (Or.inl ⟨rfl, rfl⟩)
    · change ((g.setPlayerid c p).connHeap c).fd = fd'
      rw [setPlayerid_fd]
      exact hs.conn_fd fd' c hconn
  case reboundFault fd' msgstr _ q r c htarget hreplay =>
    have hqp := (reconnectLine_iff htarget).mp hsession
    subst q
    obtain ⟨hconn, _, hplayer, _⟩ := reconnectTarget_eq_some htarget.2
    rw [h.replayed_eq hconn hplayer] at hreplay
    cases hreplay
  case unsent => cases hwrite
  case cached houts => rcases houts with rfl | rfl <;> simp at hwrite
  case sent q m r c hplayer hconn =>
    subst q
    obtain ⟨_, d, hd⟩ := h.direct c ⟨r, hplayer, hconn⟩
    rw [sendByFd_registered hd (hcommand m rfl)] at hwrite
    simp only [List.mem_singleton, Out.write.injEq] at hwrite
    obtain ⟨rfl, rfl, rfl⟩ := hwrite
    exact ⟨c, ⟨r, hplayer, hconn⟩, rfl, rfl⟩

theorem Shape.run {g g' : State Num Addr} {ls : List (Label Num Addr)} (hs : Shape g)
    (hrun : Run Step g ls g') : Shape g' :=
  Run.invariant (fun _ _ _ h hstep => h.step hstep) hs hrun

/-- After a confirmed login, through any run of the gateway that keeps the session and
its connection to its player and passes it messages with a command: what the session has
written, followed by its cache, is what was passed to it, in order; and every next write
goes to the connection the session then has. -/
theorem session_conserved {g₀ g₁ g : State Num Addr} {ls₀ ls : List (Label Num Addr)} {fd : Fd}
    {p : Num} {agent : Option Addr} {key : Num} {outs : List (Out Num Addr)}
    (hrun₀ : Run Step init ls₀ g₀) (hlogin : Step g₀ (.sureAgent fd p agent key, outs) g₁)
    (hret : Out.ret true ∈ outs) (hrun : Run (Guarded Step (SessionMeets p)) g₁ ls g) :
    delivered p ls ++ cache g p = passed p ls ∧
      ∀ l g', Guarded Step (SessionMeets p) g l g' → SessionStep p l →
        ∀ fd' msg buff, Out.write fd' msg buff ∈ l.2 →
          ∃ c, HasConn g' p c ∧ (g'.connHeap c).fd = fd' ∧ buff = strPack msg := by
  have hs₀ := Shape.init.run hrun₀
  have hs₁ := hs₀.step hlogin
  have hinv : Shape g ∧ Stream p ([] ++ ls) g := by
    refine Run.invariant_history (I := fun hist g => Shape g ∧ Stream p hist g) ?_
      ⟨hs₁, Stream.start hs₀ hlogin hret⟩ hrun
    rintro hist u l v ⟨hs, hstream⟩ ⟨hstep, hgoes, hcommand⟩
    exact ⟨hs.step hstep, hstream.step hs hstep hgoes hcommand⟩
  obtain ⟨hs, hstream⟩ := hinv
  refine ⟨hstream.conserved, ?_⟩
  rintro l g' ⟨hstep, _, hcommand⟩ hsession fd' msg buff hwrite
  exact hstream.writes_own hs hstep hcommand hsession hwrite

/-- With one stored player no connection has another owner. -/
theorem sessionGoesOn_of_single {g : State ℕ ℕ} {p : ℕ} {r : PlayerRef}
    (hplayers : g.players = Function.update (fun _ => none) p (some r)) {l : Label ℕ ℕ}
    (hl : KeepsSession p l.1) : SessionGoesOn p g l := by
  refine ⟨?_, hl⟩
  rintro c _ ⟨q, hqp, r', hr', _⟩
  rw [hplayers, Function.update_of_ne hqp] at hr'
  cases hr'

/-- A message written, a disconnect, a message cached, and the replay on a new socket. -/
def brokenSession : List (Event ℕ ℕ) :=
  [.send 7 [.str (bytes "work"), .num 101], .eof 1, .send 7 [.str (bytes "work"), .num 102],
    .connect 2, .line 2 (bytes "reconnect,7,31") 1]

theorem session_conserved_broken :
    let g₀ := exec next (init : State ℕ ℕ) [.connect 1]
    let g₁ := (next g₀ (.sureAgent 1 7 (some 100) 31)).1
    delivered 7 (trace next g₁ brokenSession) ++ cache (exec next g₁ brokenSession) 7 =
      passed 7 (trace next g₁ brokenSession) := by
  intro g₀ g₁
  have hrun₀ : Run Step init _ g₀ := run_exec _ (by decide)
  have hlogin : Step g₀ (.sureAgent 1 7 (some 100) 31, [.ret true]) g₁ := ⟨trivial, rfl⟩
  refine (session_conserved hrun₀ hlogin (by decide) (run_exec_guarded ?_)).1
  have hcommand : ∀ g msg o, msg ≠ [] → HasCommand 7 g ((.send 7 msg, o) : Label ℕ ℕ) := by
    rintro g msg o hmsg msg' heq
    cases heq
    exact hmsg
  exact ⟨⟨trivial, sessionGoesOn_of_single rfl trivial, hcommand _ _ _ (by decide)⟩,
    ⟨by decide, sessionGoesOn_of_single rfl trivial, fun _ h => nomatch h⟩,
    ⟨trivial, sessionGoesOn_of_single rfl trivial, hcommand _ _ _ (by decide)⟩,
    ⟨by decide, sessionGoesOn_of_single rfl trivial, fun _ h => nomatch h⟩,
    ⟨by decide, sessionGoesOn_of_single rfl trivial, fun _ h => nomatch h⟩, trivial⟩

/-- `str_pack` takes the empty list, but the log line of `send_by_fd` faults on its
missing command, and the message is lost. -/
theorem empty_message_lost :
    ¬ ∀ (ls₀ ls : List (Label ℕ ℕ)) (g₀ g₁ g : State ℕ ℕ) (fd : Fd) (p : ℕ)
        (agent : Option ℕ) (key : ℕ) (outs : List (Out ℕ ℕ)),
      Run Step init ls₀ g₀ → Step g₀ (.sureAgent fd p agent key, outs) g₁ →
        Out.ret true ∈ outs → Run (Guarded Step (SessionGoesOn p)) g₁ ls g →
          delivered p ls ++ cache g p = passed p ls := by
  intro h
  let g₀ : State ℕ ℕ := exec next init [.connect 1]
  let g₁ : State ℕ ℕ := (next g₀ (.sureAgent 1 7 (some 100) 31)).1
  have hrun : Run (Guarded Step (SessionGoesOn 7)) g₁ (trace next g₁ [.send 7 []])
      (exec next g₁ [.send 7 []]) :=
    run_exec_guarded ⟨⟨trivial, sessionGoesOn_of_single rfl trivial⟩, trivial⟩
  have hlost := h _ _ g₀ g₁ _ 1 7 (some 100) 31 [.ret true] (run_exec _ (by decide))
    ⟨trivial, rfl⟩ (by decide) hrun
  exact absurd hlost (by decide)

end Ue4Background.Gateway
