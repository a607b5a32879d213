import Ue4Background.SessionBinding

/-!
The cache of a disconnected player. `send` appends the message first and then asks the
agent manager for a kick when more than 500 are stored; nothing but that kick, a new
session or a reconnect empties the cache. It stays within 501 messages exactly in the runs
where no message arrives for a player between the overflow and the end of that session.
-/

namespace Ue4Background.Gateway

open LuaValues Transition

variable {Num Addr : Type}

def CachesBounded (g : State Num Addr) : Prop :=
  ∀ p r, g.players p = some r → (g.playerHeap r).msgcache.length ≤ 501

/-- The player is disconnected with more messages than `send` tolerates, and the kick for
them has not come. -/
def Overflowed (g : State Num Addr) (p : Num) : Prop :=
  ∃ r, g.players p = some r ∧ (g.playerHeap r).conn = none ∧
    500 < (g.playerHeap r).msgcache.length

/-- The event is no message for an overflowed player. -/
def SendsInTime (g : State Num Addr) : Event Num Addr → Prop
  | .send p _ => ¬ Overflowed g p
  | _ => True

/-- The gateway has asked for a kick of `p` since its cache is full. -/
def Requested (hist : List (Label Num Addr)) (p : Num) : Prop :=
  ∃ l ∈ hist, Out.reqkick p overflowReason .overflow ∈ l.2

/-- After an event the cache of a player is empty, as it was, or one message longer. -/
inductive CacheAfter (g : State Num Addr) (l : Label Num Addr) (p : Num) (r : PlayerRef) :
    List (Msg Num) → Prop
  | emptied : CacheAfter g l p r []
  | kept (hplayer : g.players p = some r) : CacheAfter g l p r (g.playerHeap r).msgcache
  | stored (msg : Msg Num) (hsend : l.1 = .send p msg) (hplayer : g.players p = some r)
      (hconn : (g.playerHeap r).conn = none)
      (hrequest : 500 < (g.playerHeap r).msgcache.length + 1 →
        Out.reqkick p overflowReason .overflow ∈ l.2) :
      CacheAfter g l p r ((g.playerHeap r).msgcache ++ [msg])

variable [LuaNumber Num]

/-- A message for a disconnected player is stored, and past the limit a kick is asked for. -/
theorem send_cached {g : State Num Addr} {p : Num} {r : PlayerRef} (msg : Msg Num)
    (hplayer : g.players p = some r) (hconn : (g.playerHeap r).conn = none) :
    (send g p msg).state = g.setCache r ((g.playerHeap r).msgcache ++ [msg]) ∧
      (500 < (g.playerHeap r).msgcache.length + 1 →
        Out.reqkick p overflowReason .overflow ∈ (send g p msg).outs) := by
  simp only [send, hplayer, hconn]
  refine ⟨trivial, fun hlong => ?_⟩
  rw [if_pos (by simpa using hlong)]
  exact List.mem_singleton_self _

variable [DecidableEq Num]

theorem cache_after {g g' : State Num Addr} {l : Label Num Addr} (hs : Shape g)
    (hstep : Step g l g') {p : Num} {r : PlayerRef} (hplayer : g'.players p = some r) :
    CacheAfter g l p r (g'.playerHeap r).msgcache := by
  have hchange := step_change hstep
  have hnext := hstep.2
  obtain ⟨ev, outs⟩ := l
  dsimp only at hchange hnext
  have hconns : ∀ s conn, ((g.setConn s conn).playerHeap r).msgcache =
      (g.playerHeap r).msgcache := fun s conn => field_kept GatePlayer.msgcache (by rfl) r
  cases hchange
  case rebound q s c _ _ =>
    by_cases hr : r = s
    · have hcache : (((g.rebind q s c).setCache s []).playerHeap r).msgcache = [] := by
        simp [State.setCache, hr]
      rw [hcache]
      exact CacheAfter.emptied
    · have hcache : (((g.rebind q s c).setCache s []).playerHeap r).msgcache =
          (g.playerHeap r).msgcache := by
        simp [State.setCache, State.rebind, State.setPlayerid, State.setConn, hr]
      rw [hcache]
      exact CacheAfter.kept hplayer
  case reboundFault fd _ _ q s c _ _ =>
    have hcache : (((g.rebind q s c).setLoop fd .dead).playerHeap r).msgcache =
        (g.playerHeap r).msgcache := hconns s (some c)
    rw [hcache]
    exact CacheAfter.kept hplayer
  case broken fd c q s _ _ _ =>
    have hcache : ((((g.setConn s none).addTimer s q).setLoop fd .closed).playerHeap
        r).msgcache = (g.playerHeap r).msgcache := hconns s none
    rw [hcache]
    exact CacheAfter.kept hplayer
  case cached q msg s hq hconn houts =>
    have hold : g.players p = some r := hplayer
    by_cases hr : r = s
    · -- no two players share an object, so the message is for `p`
      subst hr
      have hpq : p = q := hs.players_injective hold hq
      subst hpq
      have hcache : ((g.setCache r ((g.playerHeap r).msgcache ++ [msg])).playerHeap
          r).msgcache = (g.playerHeap r).msgcache ++ [msg] := by
        simp [State.setCache]
      have hrequest := (send_cached msg hq hconn).2
      have hsends : (send g p msg).outs = outs := congrArg Prod.snd hnext
      rw [hsends] at hrequest
      rw [hcache]
      exact CacheAfter.stored msg rfl hold hconn hrequest
    · have hcache : ((g.setCache s ((g.playerHeap s).msgcache ++ [msg])).playerHeap
          r).msgcache = (g.playerHeap r).msgcache := by
        simp [State.setCache, hr]
      rw [hcache]
      exact CacheAfter.kept hold
  case bound fd q agent key c _ =>
    rcases entry_assigned hplayer with ⟨_, hr⟩ | ⟨_, hold⟩
    · have hcache : (((g.setPlayerid c q).addPlayer q ⟨q, agent, some c, key, []⟩).playerHeap
          r).msgcache = [] := by
        simp [State.addPlayer, hr]
      rw [hcache]
      exact CacheAfter.emptied
    · have hold : g.players p = some r := hold
      have hr : r ≠ g.playerCount := Nat.ne_of_lt (hs.player_lt p r hold)
      have hcache : (((g.setPlayerid c q).addPlayer q ⟨q, agent, some c, key, []⟩).playerHeap
          r).msgcache = (g.playerHeap r).msgcache := by
        simp [State.addPlayer, State.setPlayerid, hr]
      rw [hcache]
      exact CacheAfter.kept hold
  case kickedLost => exact CacheAfter.kept (entry_erased hplayer).2
  case kicked => exact CacheAfter.kept (entry_erased hplayer).2
  all_goals exact CacheAfter.kept hplayer

/-- A cache beyond the limit has been reported to the agent manager. -/
theorem overflow_requested {g : State Num Addr} {ls : List (Label Num Addr)}
    (hrun : Run Step init ls g) {p : Num} (hover : Overflowed g p) : Requested ls p := by
  have hinv : Shape g ∧ ∀ p r, g.players p = some r →
      500 < (g.playerHeap r).msgcache.length → Requested ([] ++ ls) p := by
    refine Run.invariant_history (I := fun hist g => Shape g ∧ ∀ p r, g.players p = some r →
      500 < (g.playerHeap r).msgcache.length → Requested hist p) ?_ ⟨Shape.init, ?_⟩ hrun
    · rintro hist u l v ⟨hs, hover⟩ hstep
      refine ⟨hs.step hstep, fun p r hplayer hlong => ?_⟩
      have hafter := cache_after hs hstep hplayer
      generalize (v.playerHeap r).msgcache = cache at hafter hlong
      cases hafter with
      | emptied => simp at hlong
      | kept hold =>
        obtain ⟨l', hl', hreq⟩ := hover p r hold hlong
        exact ⟨l', List.mem_append_left _ hl', hreq⟩
      | stored msg _ _ _ hrequest =>
        rw [List.length_append, List.length_singleton] at hlong
        exact ⟨l, List.mem_append_right _ (List.mem_singleton_self l), hrequest hlong⟩
    · intro p r hplayer
      cases hplayer
  obtain ⟨r, hplayer, _, hlong⟩ := hover
  simpa only [List.nil_append] using hinv.2 p r hplayer hlong

theorem caches_bounded_step {g : State Num Addr} {ev : Event Num Addr} (hs : Shape g)
    (h : CachesBounded g) (henabled : Enabled g ev) :
    CachesBounded (next g ev).1 ↔ SendsInTime g ev := by
  have hstep : Step g (ev, (next g ev).2) (next g ev).1 := ⟨henabled, rfl⟩
  constructor
  · intro hbounded
    cases ev with
    | send p msg =>
      rintro ⟨r, hplayer, hconn, hlong⟩
      have hstate : (next g (.send p msg)).1 =
          g.setCache r ((g.playerHeap r).msgcache ++ [msg]) := (send_cached msg hplayer hconn).1
      rw [hstate] at hbounded
      have hle := hbounded p r hplayer
      simp only [State.setCache, Function.update_self, List.length_append,
        List.length_singleton] at hle
      omega
    | _ => trivial
  · intro htime p r hplayer
    have hafter := cache_after hs hstep hplayer
    generalize ((next g ev).1.playerHeap r).msgcache = cache at hafter
    cases hafter with
    | emptied => exact Nat.zero_le 501
    | kept hold => exact h p r hold
    | stored msg hsend hold hconn _ =>
      have hev : ev = .send p msg := hsend
      subst hev
      have hshort : ¬ 500 < (g.playerHeap r).msgcache.length :=
        fun hlong => htime ⟨r, hold, hconn, hlong⟩
      rw [List.length_append, List.length_singleton]
      omega

/-- The caches stay bounded in exactly the runs where no message for an overflowed player
comes before the kick. -/
theorem caches_bounded {evs : List (Event Num Addr)} (hrun : Along Enabled next init evs) :
    Along (fun g ev => CachesBounded (next g ev).1) next init evs ↔
      Along SendsInTime next init evs := by
  refine along_iff (I := fun g => Shape g ∧ CachesBounded g) ?_ ⟨Shape.init, ?_⟩ hrun
  · rintro g ev ⟨hs, hbounded⟩ henabled
    refine ⟨caches_bounded_step hs hbounded henabled, fun hnext => ⟨?_, hnext⟩⟩
    exact hs.step (l := (ev, (next g ev).2)) ⟨henabled, rfl⟩
  · intro p r hplayer
    cases hplayer

/-- A player who is disconnected after the login. -/
def disconnected : List (Event ℕ ℕ) :=
  [.connect 1, .sureAgent 1 7 (some 100) 31, .eof 1]

theorem caches_bounded_first_message :
    Along (fun g ev => CachesBounded (next g ev).1) next (init : State ℕ ℕ)
      (disconnected ++ [.send 7 [.str (bytes "move")]]) := by
  refine (caches_bounded (by decide)).mpr ⟨trivial, trivial, trivial, ?_, trivial⟩
  rintro ⟨r, hplayer, _, hlong⟩
  have hr : r = 0 := by
    have hzero : (exec next (init : State ℕ ℕ) disconnected).players 7 = some 0 := by decide
    exact (Option.some.inj (hzero.symm.trans hplayer)).symm
  subst hr
  exact absurd hlong (by decide)

/-- Every message for a disconnected player makes its cache longer. -/
theorem sends_cached {g : State Num Addr} {p : Num}
    {r : PlayerRef} (msg : Msg Num) (hplayer : g.players p = some r)
    (hconn : (g.playerHeap r).conn = none) (n : ℕ) :
    ∃ ls g', Run Step g ls g' ∧ g'.players p = some r ∧ (g'.playerHeap r).conn = none ∧
      (g'.playerHeap r).msgcache.length = (g.playerHeap r).msgcache.length + n := by
  induction n with
  | zero => exact ⟨[], g, Run.nil, hplayer, hconn, rfl⟩
  | succ n ih =>
    obtain ⟨ls, g', hrun, hplayer', hconn', hlength⟩ := ih
    have hstep : Step g' (.send p msg, (send g' p msg).outs) (send g' p msg).state :=
      ⟨trivial, rfl⟩
    refine ⟨_, (send g' p msg).state, Run.snoc hrun hstep, ?_⟩
    rw [(send_cached msg hplayer' hconn').1]
    simp only [State.setCache, Function.update_self, List.length_append,
      List.length_singleton, hlength]
    exact ⟨hplayer', hconn', Nat.add_assoc ..⟩

/-- Messages go on being stored while the kick is pending. -/
theorem cache_outgrows_limit :
    ¬ ∀ (ls : List (Label ℕ ℕ)) (g : State ℕ ℕ), Run Step init ls g → CachesBounded g := by
  intro h
  obtain ⟨ls, g, hrun, hplayer, _, hlength⟩ :=
    sends_cached (g := exec next (init : State ℕ ℕ) disconnected) (p := 7) (r := 0)
      [.str (bytes "move")] (by decide) (by decide) 502
  have hle := h _ g ((run_exec disconnected (by decide)).append hrun) 7 0 hplayer
  have hzero : ((exec next (init : State ℕ ℕ) disconnected).playerHeap 0).msgcache.length = 0 := by
    decide
  omega

end Ue4Background.Gateway
