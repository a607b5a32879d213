import Ue4Background.GatewaySteps

/-!
The two maps of the gateway point at each other. The references handed out are in
range without any assumption. That a player's connection is registered and names that
player holds in runs where no step binds a connection which another player already has:
neither `sure_agent` nor `process_reconnect` tests this.
-/

namespace Ue4Background.Gateway

open LuaValues Transition

variable {Num Addr : Type}

/-- `players[p].conn` is the connection `c`. -/
def HasConn (g : State Num Addr) (p : Num) (c : ConnRef) : Prop :=
  ∃ r, g.players p = some r ∧ (g.playerHeap r).conn = some c

/-- Registered objects are allocated, each knows its own key, and no fd has two. -/
structure Shape (g : State Num Addr) : Prop where
  conn_fd : ∀ fd c, g.conns fd = some c → (g.connHeap c).fd = fd
  conn_lt : ∀ fd c, g.conns fd = some c → c < g.connCount
  heap_le : ∀ c, c < g.connCount → (g.connHeap c).fd ≤ g.lastFd
  heap_inj : ∀ c d, c < g.connCount → d < g.connCount →
    (g.connHeap c).fd = (g.connHeap d).fd → c = d
  player_lt : ∀ p r, g.players p = some r → r < g.playerCount
  player_id : ∀ p r, g.players p = some r → (g.playerHeap r).playerid = p
  player_conn : ∀ p c, HasConn g p c → c < g.connCount

/-- A player's connection is the one registered under its fd and names the player. -/
def Consistent (g : State Num Addr) : Prop :=
  ∀ p c, HasConn g p c →
    g.conns (g.connHeap c).fd = some c ∧ (g.connHeap c).playerid = some p

def SingleOwner (g : State Num Addr) : Prop :=
  ∀ p q c, HasConn g p c → HasConn g q c → p = q

theorem Consistent.singleOwner {g : State Num Addr} (h : Consistent g) : SingleOwner g := by
  intro p q c hp hq
  have hpid := (h p c hp).2
  have hqid := (h q c hq).2
  exact Option.some.inj (hpid.symm.trans hqid)

theorem Shape.players_injective {g : State Num Addr} (h : Shape g) {p q : Num} {r : PlayerRef}
    (hp : g.players p = some r) (hq : g.players q = some r) : p = q :=
  (h.player_id p r hp).symm.trans (h.player_id q r hq)

theorem Shape.refs_ne {g : State Num Addr} (h : Shape g) {p q : Num} {r s : PlayerRef}
    (hp : g.players p = some r) (hq : g.players q = some s) (hpq : p ≠ q) : s ≠ r := by
  rintro rfl
  exact hpq (h.players_injective hp hq)

/-! Which players have which connection after an update. -/

section HasConn

variable {g : State Num Addr} {p q : Num} {c d : ConnRef} {r : PlayerRef}

theorem hasConn_setConn (h : Shape g) (hp : g.players p = some r) (conn : Option ConnRef) :
    HasConn (g.setConn r conn) q d ↔ (q = p ∧ conn = some d) ∨ (q ≠ p ∧ HasConn g q d) := by
  constructor
  · rintro ⟨r', hq, hd⟩
    have hq' : g.players q = some r' := hq
    by_cases hqp : q = p
    · subst q
      have hr : r = r' := Option.some.inj (hp.symm.trans hq')
      subst r'
      exact Or.inl ⟨rfl, by simpa [State.setConn] using hd⟩
    · have hne := h.refs_ne hp hq' (Ne.symm hqp)
      exact Or.inr ⟨hqp, r', hq', by simpa [State.setConn, hne] using hd⟩
  · rintro (⟨rfl, hd⟩ | ⟨hqp, r', hq, hd⟩)
    · exact ⟨r, hp, by simpa [State.setConn] using hd⟩
    · have hne := h.refs_ne hp hq (Ne.symm hqp)
      exact ⟨r', hq, by simpa [State.setConn, hne] using hd⟩

theorem hasConn_setCache (cache : List (Msg Num)) :
    HasConn (g.setCache r cache) q d ↔ HasConn g q d := by
  have hconn : ∀ r', ((g.setCache r cache).playerHeap r').conn = (g.playerHeap r').conn :=
    field_kept GatePlayer.conn (by rfl)
  constructor
  · rintro ⟨r', hq, hd⟩
    exact ⟨r', hq, by rwa [hconn] at hd⟩
  · rintro ⟨r', hq, hd⟩
    exact ⟨r', hq, by rwa [hconn]⟩

variable [DecidableEq Num]

theorem hasConn_addPlayer (h : Shape g) (gplayer : GatePlayer Num Addr) :
    HasConn (g.addPlayer p gplayer) q d ↔
      (q = p ∧ gplayer.conn = some d) ∨ (q ≠ p ∧ HasConn g q d) := by
  by_cases hqp : q = p
  · subst q
    simp [HasConn, State.addPlayer]
  · have hplayers : (g.addPlayer p gplayer).players q = g.players q := by
      simp [State.addPlayer, hqp]
    have hheap : ∀ r', g.players q = some r' →
        (g.addPlayer p gplayer).playerHeap r' = g.playerHeap r' := by
      intro r' hq
      have hne : r' ≠ g.playerCount := Nat.ne_of_lt (h.player_lt q r' hq)
      simp [State.addPlayer, hne]
    simp only [hqp, false_and, false_or, ne_eq, not_false_eq_true, true_and]
    constructor
    · rintro ⟨r', hq, hd⟩
      rw [hplayers] at hq
      exact ⟨r', hq, by rwa [hheap r' hq] at hd⟩
    · rintro ⟨r', hq, hd⟩
      exact ⟨r', by rwa [hplayers], by rwa [hheap r' hq]⟩

theorem hasConn_removePlayer :
    HasConn (g.removePlayer p) q d ↔ q ≠ p ∧ HasConn g q d := by
  by_cases hqp : q = p
  · subst q
    simp [HasConn, State.removePlayer]
  · simp [HasConn, State.removePlayer, hqp]

end HasConn

/-! What the updates of the two maps keep. -/

section Updates

variable {g : State Num Addr} {p : Num} {c : ConnRef} {r : PlayerRef}

theorem Shape.fd_le (h : Shape g) {fd : Fd} (hconn : g.conns fd = some c) : fd ≤ g.lastFd := by
  rw [← h.conn_fd fd c hconn]
  exact h.heap_le c (h.conn_lt fd c hconn)

/-- The fd of a new connection is above all fds in use. -/
theorem Shape.openConn (h : Shape g) {fd : Fd} (hfd : g.lastFd < fd) :
    Shape { g.openConn fd with lastFd := fd } := by
  have hconns : ∀ fd' c, (g.openConn fd).conns fd' = some c →
      (fd' = fd ∧ c = g.connCount) ∨ (g.conns fd' = some c ∧ c ≠ g.connCount) := by
    intro fd' c hc
    by_cases heq : fd' = fd
    · have hcount : g.connCount = c := by simpa [State.openConn, heq] using hc
      exact Or.inl ⟨heq, hcount.symm⟩
    · have hold : g.conns fd' = some c := by simpa [State.openConn, heq] using hc
      exact Or.inr ⟨hold, Nat.ne_of_lt (h.conn_lt fd' c hold)⟩
  have hnew : ((g.openConn fd).connHeap g.connCount).fd = fd := by simp [State.openConn]
  have hkept : ∀ c, c ≠ g.connCount → (g.openConn fd).connHeap c = g.connHeap c := by
    intro c hne
    simp [State.openConn, hne]
  have hlt : ∀ c, c < g.connCount → (g.connHeap c).fd < fd :=
    fun c hc => Nat.lt_of_le_of_lt (h.heap_le c hc) hfd
  refine ⟨?_, ?_, ?_, ?_, h.player_lt, h.player_id, ?_⟩
  · intro fd' c hc
    change ((g.openConn fd).connHeap c).fd = fd'
    rcases hconns fd' c hc with ⟨rfl, rfl⟩ | ⟨hold, hne⟩
    · exact hnew
    · rw [hkept c hne]
      exact h.conn_fd fd' c hold
  · intro fd' c hc
    change c < g.connCount + 1
    rcases hconns fd' c hc with ⟨_, rfl⟩ | ⟨hold, _⟩
    · exact Nat.lt_succ_self _
    · exact Nat.lt_succ_of_lt (h.conn_lt fd' c hold)
  · intro c hc
    change ((g.openConn fd).connHeap c).fd ≤ fd
    rcases Nat.lt_succ_iff_lt_or_eq.mp hc with hc | rfl
    · rw [hkept c (Nat.ne_of_lt hc)]
      exact Nat.le_of_lt (hlt c hc)
    · exact Nat.le_of_eq hnew
  · intro c d hc hd heq
    change ((g.openConn fd).connHeap c).fd = ((g.openConn fd).connHeap d).fd at heq
    rcases Nat.lt_succ_iff_lt_or_eq.mp hc with hc | rfl <;>
      rcases Nat.lt_succ_iff_lt_or_eq.mp hd with hd | rfl
    · rw [hkept c (Nat.ne_of_lt hc), hkept d (Nat.ne_of_lt hd)] at heq
      exact h.heap_inj c d hc hd heq
    · rw [hkept c (Nat.ne_of_lt hc), hnew] at heq
      exact absurd heq (Nat.ne_of_lt (hlt c hc))
    · rw [hkept d (Nat.ne_of_lt hd), hnew] at heq
      exact absurd heq.symm (Nat.ne_of_lt (hlt d hd))
    · rfl
  · intro p c hp
    exact Nat.lt_succ_of_lt (h.player_conn p c hp)

theorem setPlayerid_fd (d : ConnRef) :
    ((g.setPlayerid c p).connHeap d).fd = (g.connHeap d).fd :=
  field_kept Conn.fd (by rfl) d

theorem Shape.setPlayerid (h : Shape g) : Shape (g.setPlayerid c p) where
  conn_fd fd d hd := by rw [setPlayerid_fd]; exact h.conn_fd fd d hd
  conn_lt := h.conn_lt
  heap_le d hd := by rw [setPlayerid_fd]; exact h.heap_le d hd
  heap_inj d e hd he heq := by
    rw [setPlayerid_fd, setPlayerid_fd] at heq
    exact h.heap_inj d e hd he heq
  player_lt := h.player_lt
  player_id := h.player_id
  player_conn := h.player_conn

theorem Shape.setLoop (h : Shape g) (fd : Fd) (loop : Loop) : Shape (g.setLoop fd loop) :=
  ⟨h.conn_fd, h.conn_lt, h.heap_le, h.heap_inj, h.player_lt, h.player_id, h.player_conn⟩

theorem Shape.setConn (h : Shape g) (hp : g.players p = some r) {conn : Option ConnRef}
    (hlt : ∀ c, conn = some c → c < g.connCount) : Shape (g.setConn r conn) where
  conn_fd := h.conn_fd
  conn_lt := h.conn_lt
  heap_le := h.heap_le
  heap_inj := h.heap_inj
  player_lt := h.player_lt
  player_id q r' hq := (field_kept GatePlayer.playerid (by rfl) r').trans (h.player_id q r' hq)
  player_conn q d hq := by
    rcases (hasConn_setConn h hp conn).mp hq with ⟨_, hd⟩ | ⟨_, hold⟩
    · exact hlt d hd
    · exact h.player_conn q d hold

theorem Shape.rebind (h : Shape g) {fd : Fd} (hconn : g.conns fd = some c)
    (hp : g.players p = some r) : Shape (g.rebind p r c) := by
  refine (h.setConn hp ?_).setPlayerid
  intro d hd
  rw [← Option.some.inj hd]
  exact h.conn_lt fd c hconn

theorem Shape.setCache (h : Shape g) (cache : List (Msg Num)) : Shape (g.setCache r cache) where
  conn_fd := h.conn_fd
  conn_lt := h.conn_lt
  heap_le := h.heap_le
  heap_inj := h.heap_inj
  player_lt := h.player_lt
  player_id q r' hq := (field_kept GatePlayer.playerid (by rfl) r').trans (h.player_id q r' hq)
  player_conn q d hq := h.player_conn q d ((hasConn_setCache cache).mp hq)

theorem Shape.removeConn (h : Shape g) (fd : Fd) : Shape (g.removeConn fd) := by
  have hold : ∀ fd' c, (g.removeConn fd).conns fd' = some c → g.conns fd' = some c := by
    intro fd' c hc
    exact (entry_erased hc).2
  exact ⟨fun fd' c hc => h.conn_fd fd' c (hold fd' c hc),
    fun fd' c hc => h.conn_lt fd' c (hold fd' c hc), h.heap_le, h.heap_inj, h.player_lt,
    h.player_id, h.player_conn⟩

variable [DecidableEq Num]

theorem Shape.addPlayer (h : Shape g) (gplayer : GatePlayer Num Addr)
    (hid : gplayer.playerid = p) (hlt : ∀ c, gplayer.conn = some c → c < g.connCount) :
    Shape (g.addPlayer p gplayer) where
  conn_fd := h.conn_fd
  conn_lt := h.conn_lt
  heap_le := h.heap_le
  heap_inj := h.heap_inj
  player_lt q r hq := by
    change r < g.playerCount + 1
    by_cases heq : q = p
    · have hcount : g.playerCount = r := by simpa [State.addPlayer, heq] using hq
      rw [← hcount]
      exact Nat.lt_succ_self _
    · have hold : g.players q = some r := by simpa [State.addPlayer, heq] using hq
      exact Nat.lt_succ_of_lt (h.player_lt q r hold)
  player_id q r hq := by
    by_cases heq : q = p
    · have hcount : g.playerCount = r := by simpa [State.addPlayer, heq] using hq
      subst r
      simp [State.addPlayer, hid, heq]
    · have hold : g.players q = some r := by simpa [State.addPlayer, heq] using hq
      have hne : r ≠ g.playerCount := Nat.ne_of_lt (h.player_lt q r hold)
      simpa [State.addPlayer, hne] using h.player_id q r hold
  player_conn q d hq := by
    rcases (hasConn_addPlayer h gplayer).mp hq with ⟨_, hd⟩ | ⟨_, hold⟩
    · exact hlt d hd
    · exact h.player_conn q d hold

theorem Shape.removePlayer (h : Shape g) (p : Num) : Shape (g.removePlayer p) := by
  have hold : ∀ q r, (g.removePlayer p).players q = some r → g.players q = some r := by
    intro q r hq
    exact (entry_erased hq).2
  exact ⟨h.conn_fd, h.conn_lt, h.heap_le, h.heap_inj,
    fun q r hq => h.player_lt q r (hold q r hq), fun q r hq => h.player_id q r (hold q r hq),
    fun q d hq => h.player_conn q d (hasConn_removePlayer.mp hq).2⟩

end Updates

/-- Another player than `p` already has the connection `c`. -/
def OtherOwner (g : State Num Addr) (p : Num) (c : ConnRef) : Prop :=
  ∃ q, q ≠ p ∧ HasConn g q c

/-- Naming `p` in the connection `c` keeps every player that has it consistent, when
nobody but `p` has it. -/
theorem Consistent.setPlayerid {g : State Num Addr} (h : Consistent g) {p : Num} {c : ConnRef}
    (hother : ¬ OtherOwner g p c) {q : Num} {d : ConnRef} (hqp : q ≠ p) (hq : HasConn g q d) :
    (g.setPlayerid c p).conns ((g.setPlayerid c p).connHeap d).fd = some d ∧
      ((g.setPlayerid c p).connHeap d).playerid = some q := by
  have hne : d ≠ c := by
    intro hdc
    subst d
    exact hother ⟨q, hqp, hq⟩
  simpa [State.setPlayerid, hne] using h q d hq

theorem setPlayerid_registered {g : State Num Addr} (h : Shape g) {p : Num} {c : ConnRef}
    {fd : Fd} (hconn : g.conns fd = some c) :
    (g.setPlayerid c p).conns ((g.setPlayerid c p).connHeap c).fd = some c ∧
      ((g.setPlayerid c p).connHeap c).playerid = some p := by
  have hfd := h.conn_fd fd c hconn
  simp [State.setPlayerid, hfd, hconn]

theorem Consistent.rebind {g : State Num Addr} {p : Num} {r : PlayerRef} {c : ConnRef}
    (hs : Shape g) (h : Consistent g) {fd : Fd} (hconn : g.conns fd = some c)
    (hplayer : g.players p = some r) (hother : ¬ OtherOwner g p c) :
    Consistent (g.rebind p r c) := by
  intro q d hq
  have hcases : HasConn (g.setConn r (some c)) q d := hq
  rcases (hasConn_setConn hs hplayer (some c)).mp hcases with ⟨rfl, hcd⟩ | ⟨hqp, hold⟩
  · have hdc : c = d := Option.some.inj hcd
    subst d
    exact setPlayerid_registered hs hconn
  · exact h.setPlayerid hother hqp hold

variable [LuaNumber Num]

theorem hasConn_init {p : Num} {c : ConnRef} : ¬ HasConn (init : State Num Addr) p c := by
  rintro ⟨r, hp, _⟩
  cases hp

theorem Shape.init : Shape (init : State Num Addr) := by
  refine ⟨?_, ?_, ?_, ?_, ?_, ?_, fun p c hp => absurd hp hasConn_init⟩ <;> intros <;>
    simp_all [Gateway.init]

variable [DecidableEq Num]

/-- A reconnect finds the connection registered under the fd of its line. -/
theorem reconnectTarget_eq_some {g : State Num Addr} {fd : Fd} {msg : List Bytes} {p : Num}
    {r : PlayerRef} {c : ConnRef} (h : reconnectTarget g fd msg = some (p, r, c)) :
    g.conns fd = some c ∧ msg[1]?.bind tonumber = some p ∧ g.players p = some r ∧
      (g.playerHeap r).conn = none ∧ msg[2]?.bind tonumber = some (g.playerHeap r).key := by
  simp only [reconnectTarget, Option.bind_eq_bind, Option.bind_eq_some_iff] at h
  obtain ⟨c', hconn, p', hp, r', hplayer, hif⟩ := h
  split at hif
  · cases hif
  · rename_i hnone
    split at hif
    · rename_i hkey
      simp only [Option.some.injEq, Prod.mk.injEq] at hif
      obtain ⟨rfl, rfl, rfl⟩ := hif
      exact ⟨hconn, Option.bind_eq_some_iff.mpr hp, hplayer, by simpa using hnone,
        Option.bind_eq_some_iff.mpr hkey⟩
    · cases hif

/-- Every step keeps the references in range. -/
theorem Shape.step {g g' : State Num Addr} {l : Label Num Addr} (h : Shape g)
    (hstep : Step g l g') : Shape g' := by
  have henabled := hstep.1
  have hchange := step_change hstep
  obtain ⟨ev, outs⟩ := l
  dsimp only at henabled hchange
  cases hchange
  case refused fd _ =>
    exact ⟨h.conn_fd, h.conn_lt,
      fun c hc => Nat.le_trans (h.heap_le c hc) (Nat.le_of_lt henabled), h.heap_inj,
      h.player_lt, h.player_id, h.player_conn⟩
  case opened fd _ => exact h.openConn henabled
  case rebound fd _ _ p r c htarget _ =>
    obtain ⟨hconn, _, hplayer, _⟩ := reconnectTarget_eq_some htarget.2
    exact (h.rebind hconn hplayer).setCache []
  case reboundFault fd _ _ p r c htarget _ =>
    obtain ⟨hconn, _, hplayer, _⟩ := reconnectTarget_eq_some htarget.2
    exact (h.rebind hconn hplayer).setLoop fd .dead
  case broken fd c p r _ _ hplayer =>
    have hconn : Shape (g.setConn r none) := h.setConn hplayer (by simp)
    exact ⟨hconn.conn_fd, hconn.conn_lt, hconn.heap_le, hconn.heap_inj, hconn.player_lt,
      hconn.player_id, hconn.player_conn⟩
  case cached => exact h.setCache _
  case bound fd p agent key c hconn =>
    refine h.setPlayerid.addPlayer ⟨p, agent, some c, key, []⟩ rfl ?_
    intro d hd
    rw [← Option.some.inj hd]
    exact h.conn_lt fd c hconn
  case kickedLost => exact h.removePlayer _
  case kicked => exact (h.removePlayer _).removeConn _
  all_goals exact ⟨h.conn_fd, h.conn_lt, h.heap_le, h.heap_inj, h.player_lt, h.player_id,
    h.player_conn⟩

/-- A binding step takes no connection away from another player. -/
def KeepsOwners (g : State Num Addr) (l : Label Num Addr) : Prop :=
  match l.1 with
  | .sureAgent fd p _ _ => ∀ c, g.conns fd = some c → ¬ OtherOwner g p c
  | .line fd msgstr _ => ∀ p r c, Reconnects g fd msgstr p r c → ¬ OtherOwner g p c
  | _ => True

/-- A step that takes no connection away keeps the two maps consistent. -/
theorem Consistent.step {g g' : State Num Addr} {l : Label Num Addr} (hs : Shape g)
    (h : Consistent g) (hstep : Step g l g') (hkeeps : KeepsOwners g l) : Consistent g' := by
  have henabled := hstep.1
  have hchange := step_change hstep
  obtain ⟨ev, outs⟩ := l
  dsimp only at henabled hchange
  cases hchange
  case opened fd _ =>
    intro p c hp
    have hreg := h p c hp
    have hne : c ≠ g.connCount := Nat.ne_of_lt (hs.conn_lt _ c hreg.1)
    have hfd : (g.connHeap c).fd ≠ fd :=
      Nat.ne_of_lt (Nat.lt_of_le_of_lt (hs.fd_le hreg.1) henabled)
    simpa [State.openConn, hne, hfd] using hreg
  case rebound fd msgstr _ p r c htarget _ =>
    obtain ⟨hconn, _, hplayer, _⟩ := reconnectTarget_eq_some htarget.2
    have hbind := h.rebind hs hconn hplayer (hkeeps p r c htarget)
    intro q d hq
    exact hbind q d ((hasConn_setCache []).mp hq)
  case reboundFault fd msgstr _ p r c htarget _ =>
    obtain ⟨hconn, _, hplayer, _⟩ := reconnectTarget_eq_some htarget.2
    exact h.rebind hs hconn hplayer (hkeeps p r c htarget)
  case broken fd c p r _ _ hplayer =>
    intro q d hq
    have hcases : HasConn (g.setConn r none) q d := hq
    rcases (hasConn_setConn hs hplayer none).mp hcases with ⟨_, hnone⟩ | ⟨_, hold⟩
    · cases hnone
    · exact h q d hold
  case cached =>
    intro q d hq
    exact h q d ((hasConn_setCache _).mp hq)
  case bound fd p agent key c hconn =>
    intro q d hq
    have hcases := (hasConn_addPlayer (hs.setPlayerid) _).mp hq
    rcases hcases with ⟨rfl, hcd⟩ | ⟨hqp, hold⟩
    · have hdc : c = d := Option.some.inj hcd
      subst d
      exact setPlayerid_registered hs hconn
    · exact h.setPlayerid (hkeeps c hconn) hqp hold
  case kickedLost =>
    intro q d hq
    exact h q d (hasConn_removePlayer.mp hq).2
  case kicked p r c hplayer hconn =>
    intro q d hq
    obtain ⟨hqp, hold⟩ := hasConn_removePlayer.mp hq
    obtain ⟨hreg, hid⟩ := h q d hold
    have hregc := h p c ⟨r, hplayer, hconn⟩
    have hfd : (g.connHeap d).fd ≠ (g.connHeap c).fd := by
      intro hfd
      rw [hfd] at hreg
      have hcd : c = d := Option.some.inj (hregc.1.symm.trans hreg)
      subst d
      exact hqp (Option.some.inj (hid.symm.trans hregc.2))
    refine ⟨?_, hid⟩
    change Function.update g.conns (g.connHeap c).fd none (g.connHeap d).fd = some d
    rw [Function.update_of_ne hfd]
    exact hreg
  all_goals exact h

/-- The invariant of the gateway's tables in runs that take no connection away. -/
theorem reachable_consistent {g : State Num Addr} {ls : List (Label Num Addr)}
    (hrun : Run (Guarded Step KeepsOwners) init ls g) : Shape g ∧ Consistent g := by
  refine Run.invariant (I := fun g => Shape g ∧ Consistent g) ?_
    ⟨Shape.init, fun p c hp => absurd hp hasConn_init⟩ hrun
  rintro u l v ⟨hs, hc⟩ ⟨hstep, hkeeps⟩
  exact ⟨hs.step hstep, hc.step hs hstep hkeeps⟩

/-- In a run that takes no connection away, the connection of every player is the one
registered under its fd, it names that player, and no two players share it. -/
theorem sessions_consistent {g : State Num Addr} {ls : List (Label Num Addr)}
    (hrun : Run (Guarded Step KeepsOwners) init ls g) : Consistent g ∧ SingleOwner g := by
  have hconsistent := (reachable_consistent hrun).2
  exact ⟨hconsistent, hconsistent.singleOwner⟩

/-- Two logins pipelined on one socket, and the state after both are registered. -/
def pipelinedLogins : List (Event ℕ ℕ) :=
  [.connect 1, .line 1 (bytes "login,7,pw") 1, .line 1 (bytes "login,8,pw") 1,
    .sureAgent 1 7 (some 100) 31, .sureAgent 1 8 (some 101) 32]

theorem sessions_consistent_first_login :
    Consistent (exec next (init : State ℕ ℕ) (pipelinedLogins.take 4)) ∧
      SingleOwner (exec next (init : State ℕ ℕ) (pipelinedLogins.take 4)) := by
  refine sessions_consistent (run_exec_guarded ?_)
  refine ⟨⟨by decide, trivial⟩, ⟨by decide, ?_⟩, ⟨by decide, ?_⟩, ⟨trivial, ?_⟩, trivial⟩
  · rintro p r c ⟨hcmd, _⟩
    exact absurd hcmd (by decide)
  · rintro p r c ⟨hcmd, _⟩
    exact absurd hcmd (by decide)
  · rintro c _ ⟨q, _, r, hq, _⟩
    cases hq

/-- The second registration takes the connection over without a test. -/
theorem pipelined_logins_share_connection :
    ¬ ∀ (ls : List (Label ℕ ℕ)) (g : State ℕ ℕ), Run Step init ls g →
      Consistent g ∧ SingleOwner g := by
  intro h
  obtain ⟨_, hsingle⟩ := h _ _ (run_exec pipelinedLogins (by decide))
  have hshared := hsingle 7 8 0 ⟨0, by decide, by decide⟩ ⟨1, by decide, by decide⟩
  exact absurd hshared (by decide)

end Ue4Background.Gateway
