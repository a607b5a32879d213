import Ue4Background.SessionBinding

/-!
Entries that vanish before they are looked up. `process_msg` indexes `conns[fd]`, and it
and `disconnect` index `players[playerid]`, without a test. A kick removes one entry of
each map: the connection of a line that is still queued is gone exactly when the gateway
has closed its socket, and a player is gone under a living connection only when a kick
leaves a second connection behind that names the player.
-/

namespace Ue4Background.Gateway

open LuaValues Transition

variable {Num Addr : Type}

/-- The connection of `fd`, which `recv_loop` still reads, has the playerid `p`. -/
def Names (g : State Num Addr) (fd : Fd) (p : Num) : Prop :=
  g.loops fd = some .reading ∧ ∃ c, g.conns fd = some c ∧ (g.connHeap c).playerid = some p

def NamesPlayers (g : State Num Addr) : Prop :=
  ∀ fd p, Names g fd p → ∃ r, g.players p = some r

/-- The gateway has closed the socket of `fd`. -/
def ClosedIn (hist : List (Label Num Addr)) (fd : Fd) : Prop :=
  ∃ l ∈ hist, Out.close fd ∈ l.2

theorem closedIn_append {hist : List (Label Num Addr)} {l : Label Num Addr} {fd : Fd} :
    ClosedIn (hist ++ [l]) fd ↔ ClosedIn hist fd ∨ Out.close fd ∈ l.2 := by
  simp only [ClosedIn, List.mem_append, List.mem_singleton]
  constructor
  · rintro ⟨l', hl' | rfl, hclose⟩
    · exact Or.inl ⟨l', hl', hclose⟩
    · exact Or.inr hclose
  · rintro (⟨l', hl', hclose⟩ | hclose)
    · exact ⟨l', Or.inl hl', hclose⟩
    · exact ⟨l, Or.inr rfl, hclose⟩

/-- The event is no line from a socket that the gateway has closed. -/
def ReadsOpen (hist : List (Label Num Addr)) : Event Num Addr → Prop
  | .line fd _ _ => ¬ ClosedIn hist fd
  | _ => True

/-- Where the conns stand that `recv_loop` reads, after the history `hist`. -/
structure Tracked (hist : List (Label Num Addr)) (g : State Num Addr) : Prop where
  reading_le : ∀ fd, g.loops fd = some .reading → fd ≤ g.lastFd
  closed_le : ∀ fd, ClosedIn hist fd → fd ≤ g.lastFd
  gone_iff : ∀ fd, g.loops fd = some .reading → (g.conns fd = none ↔ ClosedIn hist fd)

/-- The kick of a player leaves no connection behind that names the player. -/
def LeavesNone (g : State Num Addr) (l : Label Num Addr) : Prop :=
  match l.1 with
  | .kick p => ∀ r fd, g.players p = some r → Names g fd p →
      ∃ c, (g.playerHeap r).conn = some c ∧ (g.connHeap c).fd = fd
  | _ => True

variable [DecidableEq Num]

/-- Each entry that an event looks up without a test is there. `kick` calls `disconnect`
on the connection that it has just removed. -/
def Finds (g : State Num Addr) : Event Num Addr → Prop
  | .line fd _ _ => ∃ c, g.conns fd = some c ∧
      ∀ p, (g.connHeap c).playerid = some p → ∃ r, g.players p = some r
  | .eof fd => ∀ c p, g.conns fd = some c → (g.connHeap c).playerid = some p →
      ∃ r, g.players p = some r
  | .kick p => ∀ r c, g.players p = some r → (g.playerHeap r).conn = some c →
      (disconnect ((g.removePlayer p).removeConn (g.connHeap c).fd) (g.connHeap c).fd).raised =
        false
  | _ => True

omit [DecidableEq Num] in
theorem NamesPlayers.setPlayerid {g : State Num Addr} (h : NamesPlayers g) {p : Num}
    {c : ConnRef} (hplayer : ∃ r, g.players p = some r) :
    NamesPlayers (g.setPlayerid c p) := by
  rintro fd q ⟨hloop, d, hconn, hid⟩
  by_cases hdc : d = c
  · subst hdc
    have hpq : p = q := by simpa [State.setPlayerid] using hid
    subst hpq
    exact hplayer
  · have hold : (g.connHeap d).playerid = some q := by
      simpa [State.setPlayerid, hdc] using hid
    exact h fd q ⟨hloop, d, hconn, hold⟩

theorem NamesPlayers.addPlayer {g : State Num Addr} (p : Num)
    (gplayer : GatePlayer Num Addr)
    (h : ∀ fd q, Names g fd q → q = p ∨ ∃ r, g.players q = some r) :
    NamesPlayers (g.addPlayer p gplayer) := by
  intro fd q hnames
  by_cases hqp : q = p
  · exact ⟨g.playerCount, by simp [State.addPlayer, hqp]⟩
  · obtain ⟨r, hr⟩ := (h fd q hnames).resolve_left hqp
    exact ⟨r, by simpa [State.addPlayer, hqp] using hr⟩

theorem NamesPlayers.removePlayer {g : State Num Addr} (h : NamesPlayers g) {p : Num}
    (hnone : ∀ fd, ¬ Names g fd p) : NamesPlayers (g.removePlayer p) := by
  intro fd q hnames
  have hold : Names g fd q := hnames
  have hqp : q ≠ p := by
    rintro rfl
    exact hnone fd hold
  obtain ⟨r, hr⟩ := h fd q hold
  exact ⟨r, by simpa [State.removePlayer, hqp] using hr⟩

omit [DecidableEq Num] in
theorem NamesPlayers.setLoop {g : State Num Addr} (h : NamesPlayers g) {fd : Fd} {loop : Loop}
    (hloop : loop ≠ .reading) : NamesPlayers (g.setLoop fd loop) := by
  rintro fd' p ⟨hreading, hconn⟩
  have hne : fd' ≠ fd := by
    rintro rfl
    simp only [State.setLoop, Function.update_self, Option.some.injEq] at hreading
    exact hloop hreading
  have hold : g.loops fd' = some .reading := by
    simpa [State.setLoop, hne] using hreading
  exact h fd' p ⟨hold, hconn⟩

variable [LuaNumber Num]

theorem NamesPlayers.step {g g' : State Num Addr} {l : Label Num Addr} (hs : Shape g)
    (h : NamesPlayers g) (hstep : Step g l g') (hleaves : LeavesNone g l) :
    NamesPlayers g' := by
  have hchange := step_change hstep
  obtain ⟨ev, outs⟩ := l
  dsimp only at hchange
  cases hchange
  case opened fd _ =>
    rintro fd' p ⟨hloop, c, hconn, hid⟩
    by_cases hfd : fd' = fd
    · have hc : g.connCount = c := by simpa [State.openConn, hfd] using hconn
      simp [State.openConn, ← hc] at hid
    · have hold : g.conns fd' = some c := by simpa [State.openConn, hfd] using hconn
      have hc : c ≠ g.connCount := Nat.ne_of_lt (hs.conn_lt fd' c hold)
      exact h fd' p ⟨by simpa [State.openConn, hfd] using hloop, c, hold,
        by simpa [State.openConn, hc] using hid⟩
  case lineFault => exact h.setLoop (by decide)
  case rebound fd _ _ p r c htarget _ =>
    obtain ⟨_, _, hplayer, _⟩ := reconnectTarget_eq_some htarget.2
    have hconn : NamesPlayers (g.setConn r (some c)) := h
    exact hconn.setPlayerid ⟨r, hplayer⟩
  case reboundFault fd _ _ p r c htarget _ =>
    obtain ⟨_, _, hplayer, _⟩ := reconnectTarget_eq_some htarget.2
    have hconn : NamesPlayers (g.setConn r (some c)) := h
    exact (hconn.setPlayerid ⟨r, hplayer⟩).setLoop (by decide)
  case left => exact h.setLoop (by decide)
  case leftFault => exact h.setLoop (by decide)
  case broken fd c p r _ _ _ =>
    have hconn : NamesPlayers ((g.setConn r none).addTimer r p) := h
    exact hconn.setLoop (by decide)
  case hungUp => exact h.setLoop (by decide)
  case bound fd p agent key c hconn =>
    apply NamesPlayers.addPlayer
    rintro fd' q ⟨hloop, d, hd, hid⟩
    by_cases hdc : d = c
    · subst hdc
      have hpq : p = q := by simpa [State.setPlayerid] using hid
      exact Or.inl hpq.symm
    · have hold : (g.connHeap d).playerid = some q := by
        simpa [State.setPlayerid, hdc] using hid
      exact Or.inr (h fd' q ⟨hloop, d, hd, hold⟩)
  case kickedLost p r hplayer hconn =>
    apply h.removePlayer
    intro fd hnames
    obtain ⟨c, hc, _⟩ := hleaves r fd hplayer hnames
    rw [hconn] at hc
    cases hc
  case kicked p r c hplayer hconn =>
    -- the entry of the only connection that names the player goes with the player
    rintro fd q ⟨hloop, d, hd, hid⟩
    have hfd : fd ≠ (g.connHeap c).fd := by
      rintro rfl
      simp [State.removeConn] at hd
    have hold : Names g fd q :=
      ⟨hloop, d, by simpa [State.removeConn, State.removePlayer, hfd] using hd, hid⟩
    have hqp : q ≠ p := by
      rintro rfl
      obtain ⟨c', hc', hfd'⟩ := hleaves r fd hplayer hold
      rw [hconn] at hc'
      cases hc'
      exact hfd hfd'.symm
    obtain ⟨s, hplayers⟩ := h fd q hold
    exact ⟨s, by simpa [State.removeConn, State.removePlayer, hqp] using hplayers⟩
  all_goals exact h

/-- The gateway closes a socket when its `recv_loop` ends or when a kick drops its entry. -/
theorem Change.closes {g g' : State Num Addr} {ev : Event Num Addr} {outs : List (Out Num Addr)}
    {fd : Fd} (h : Change g ev outs g') (hclose : Out.close fd ∈ outs) :
    (ev = .eof fd ∧ g'.loops fd = some .closed) ∨
      ∃ p c, HasConn g p c ∧ (g.connHeap c).fd = fd ∧ g'.conns fd = none := by
  cases h
  case routed hforwards => cases hforwards <;> simp at hclose
  case rebound => exact absurd (mem_replay hclose) (by simp)
  case reboundFault => exact absurd (mem_replay hclose) (by simp)
  case left fd' _ =>
    have hfd : fd = fd' := by simpa using hclose
    subst hfd
    exact Or.inl ⟨rfl, Function.update_self ..⟩
  case broken fd' _ _ _ _ _ _ =>
    have hfd : fd = fd' := by simpa using hclose
    subst hfd
    exact Or.inl ⟨rfl, Function.update_self ..⟩
  case kicked p r c hplayer hconn =>
    have hfd : fd = (g.connHeap c).fd := by simpa using hclose
    subst hfd
    exact Or.inr ⟨p, c, ⟨r, hplayer, hconn⟩, rfl, Function.update_self ..⟩
  case sent => exact absurd (mem_sendByFd hclose) (by simp)
  case sentByFd => exact absurd (mem_sendByFd hclose) (by simp)
  case cached houts => rcases houts with rfl | rfl <;> simp at hclose
  case resumed waiting => cases waiting <;> simp [resume] at hclose
  all_goals simp at hclose

/-- A `recv_loop` that reads after an event is new with its entry, or it read before and
its entry is as it was unless the gateway has just closed the socket. -/
theorem Change.reading {g g' : State Num Addr} {ev : Event Num Addr} {outs : List (Out Num Addr)}
    {fd : Fd} (h : Change g ev outs g') (hreading : g'.loops fd = some .reading) :
    (ev = .connect fd ∧ g'.conns fd ≠ none ∧ g'.lastFd = fd) ∨
      (g.loops fd = some .reading ∧ (g'.conns fd = g.conns fd ∨ Out.close fd ∈ outs)) := by
  have hset : ∀ fd' (loop : Loop), loop ≠ .reading →
      (g.setLoop fd' loop).loops fd = some .reading → g.loops fd = some .reading := by
    intro fd' loop hloop hfd
    have hne : fd ≠ fd' := by
      rintro rfl
      simp only [State.setLoop, Function.update_self, Option.some.injEq] at hfd
      exact hloop hfd
    simpa [State.setLoop, hne] using hfd
  cases h
  case opened fd' _ =>
    by_cases hfd : fd = fd'
    · subst hfd
      exact Or.inl ⟨rfl, by simp [State.openConn], rfl⟩
    · simp only [State.openConn, Function.update_of_ne hfd] at hreading
      exact Or.inr ⟨hreading, Or.inl (by simp [State.openConn, hfd])⟩
  case lineFault fd' _ _ _ => exact Or.inr ⟨hset fd' .dead (by decide) hreading, Or.inl rfl⟩
  case reboundFault fd' _ _ p r c _ _ =>
    exact Or.inr ⟨hset fd' .dead (by decide) hreading, Or.inl rfl⟩
  case left fd' _ => exact Or.inr ⟨hset fd' .closed (by decide) hreading, Or.inl rfl⟩
  case leftFault fd' _ _ _ _ _ =>
    exact Or.inr ⟨hset fd' .closed (by decide) hreading, Or.inl rfl⟩
  case broken fd' _ _ _ _ _ _ =>
    exact Or.inr ⟨hset fd' .closed (by decide) hreading, Or.inl rfl⟩
  case hungUp fd' => exact Or.inr ⟨hset fd' .lost (by decide) hreading, Or.inl rfl⟩
  case kicked p r c _ _ =>
    refine Or.inr ⟨hreading, ?_⟩
    by_cases hfd : fd = (g.connHeap c).fd
    · exact Or.inr (by simp [hfd])
    · exact Or.inl (by simp [State.removeConn, State.removePlayer, hfd])
  all_goals exact Or.inr ⟨hreading, Or.inl rfl⟩

theorem lastFd_le {g g' : State Num Addr} {l : Label Num Addr} (hstep : Step g l g') :
    g.lastFd ≤ g'.lastFd := by
  have henabled := hstep.1
  have hchange := step_change hstep
  obtain ⟨ev, outs⟩ := l
  dsimp only at henabled hchange
  cases hchange
  case refused => exact Nat.le_of_lt henabled
  case opened => exact Nat.le_of_lt henabled
  all_goals exact Nat.le_refl g.lastFd

theorem Tracked.step {hist : List (Label Num Addr)} {g g' : State Num Addr}
    {l : Label Num Addr} (hs : Shape g) (h : Tracked hist g) (hstep : Step g l g') :
    Tracked (hist ++ [l]) g' := by
  have henabled := hstep.1
  have hchange := step_change hstep
  have hle := lastFd_le hstep
  refine ⟨fun fd hreading => ?_, fun fd hclosed => ?_, fun fd hreading => ?_⟩
  · rcases hchange.reading hreading with ⟨_, _, hlast⟩ | ⟨hold, _⟩
    · exact Nat.le_of_eq hlast.symm
    · exact Nat.le_trans (h.reading_le fd hold) hle
  · rcases closedIn_append.mp hclosed with hold | hclose
    · exact Nat.le_trans (h.closed_le fd hold) hle
    · rcases hchange.closes hclose with ⟨hev, _⟩ | ⟨p, c, hp, rfl, _⟩
      · rw [hev] at henabled
        exact Nat.le_trans (h.reading_le fd henabled) hle
      · exact Nat.le_trans (hs.heap_le c (hs.player_conn p c hp)) hle
  · have hgone : Out.close fd ∈ l.2 → g'.conns fd = none := by
      intro hclose
      rcases hchange.closes hclose with ⟨_, hloop⟩ | ⟨_, _, _, _, hnone⟩
      · rw [hloop] at hreading
        cases hreading
      · exact hnone
    rw [closedIn_append]
    rcases hchange.reading hreading with ⟨hev, hsome, _⟩ | ⟨hold, hconns | hclose⟩
    · -- the fd of a new connection is above those that were closed
      rw [hev] at henabled
      refine iff_of_false hsome ?_
      rintro (hclosed | hclose)
      · exact absurd (h.closed_le fd hclosed) (Nat.not_le_of_lt henabled)
      · exact hsome (hgone hclose)
    · rw [hconns, h.gone_iff fd hold]
      refine ⟨Or.inl, ?_⟩
      rintro (hclosed | hclose)
      · exact hclosed
      · rw [← h.gone_iff fd hold, ← hconns]
        exact hgone hclose
    · exact iff_of_true (hgone hclose) (Or.inr hclose)

theorem reachable_tracked {g : State Num Addr} {ls : List (Label Num Addr)}
    (hrun : Run (Guarded Step LeavesNone) init ls g) : Tracked ls g ∧ NamesPlayers g := by
  have hinv : Shape g ∧ Tracked ([] ++ ls) g ∧ NamesPlayers g := by
    refine Run.invariant_history (I := fun hist g => Shape g ∧ Tracked hist g ∧ NamesPlayers g)
      ?_ ⟨Shape.init, ⟨?_, ?_, ?_⟩, ?_⟩ hrun
    · rintro hist u l v ⟨hs, ht, hn⟩ ⟨hstep, hleaves⟩
      exact ⟨hs.step hstep, ht.step hs hstep, hn.step hs hstep hleaves⟩
    · intro fd hreading
      cases hreading
    · rintro fd ⟨l, hl, _⟩
      cases hl
    · intro fd hreading
      cases hreading
    · rintro fd p ⟨hreading, _⟩
      cases hreading
  simpa only [List.nil_append] using hinv.2

/-- When no kick leaves a connection behind that names its player, an event finds what it
looks up unless it is a line from a socket that the gateway has closed. -/
theorem lookups_found {g : State Num Addr} {ls : List (Label Num Addr)} {ev : Event Num Addr}
    (hrun : Run (Guarded Step LeavesNone) init ls g) (henabled : Enabled g ev) :
    Finds g ev ↔ ReadsOpen ls ev := by
  obtain ⟨ht, hnames⟩ := reachable_tracked hrun
  cases ev with
  | line fd msgstr loginid =>
    have hgone := ht.gone_iff fd henabled
    constructor
    · rintro ⟨c, hconn, _⟩ hclosed
      rw [hgone.mpr hclosed] at hconn
      cases hconn
    · intro hopen
      obtain ⟨c, hconn⟩ := Option.ne_none_iff_exists'.mp (mt hgone.mp hopen)
      exact ⟨c, hconn, fun p hid => hnames fd p ⟨henabled, c, hconn, hid⟩⟩
  | eof fd =>
    exact iff_of_true (fun c p hconn hid => hnames fd p ⟨henabled, c, hconn, hid⟩) trivial
  | kick p =>
    refine iff_of_true (fun r c _ _ => ?_) trivial
    rw [disconnect_removed]
  | _ => exact Iff.rfl

/-- A player who is kicked while a line of the same connection is still queued. -/
def kickedWithQueuedLine : List (Event ℕ ℕ) :=
  [.connect 1, .line 1 (bytes "login,7,pw") 1, .sureAgent 1 7 (some 100) 31, .kick 7]

theorem lookups_found_before_kick :
    Finds (exec next (init : State ℕ ℕ) (kickedWithQueuedLine.take 3))
      (.line 1 (bytes "work") 1) := by
  have hrun : Run (Guarded Step LeavesNone) init
      (trace next (init : State ℕ ℕ) (kickedWithQueuedLine.take 3))
      (exec next init (kickedWithQueuedLine.take 3)) :=
    run_exec_guarded
      ⟨⟨by decide, trivial⟩, ⟨by decide, trivial⟩, ⟨trivial, trivial⟩, trivial⟩
  refine (lookups_found hrun (by decide)).mpr ?_
  rintro ⟨l, hl, hclose⟩
  revert hclose
  revert l
  decide

/-- The kick has removed the connection, and the queued line looks it up. -/
theorem queued_line_finds_nothing :
    ¬ ∀ (ls : List (Label ℕ ℕ)) (g : State ℕ ℕ) (ev : Event ℕ ℕ), Run Step init ls g →
      Enabled g ev → Finds g ev := by
  intro h
  obtain ⟨c, hconn, _⟩ := h _ _ (.line 1 (bytes "work") 1)
    (run_exec kickedWithQueuedLine (by decide)) (by decide)
  have hgone : (exec next (init : State ℕ ℕ) kickedWithQueuedLine).conns 1 = none := by decide
  rw [hgone] at hconn
  cases hconn

end Ue4Background.Gateway
