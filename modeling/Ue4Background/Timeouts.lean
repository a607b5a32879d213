import Ue4Background.SessionBinding

/-!
The thirty seconds after a disconnect. `disconnect` arms a timer that is never cancelled
and that looks only at the connection of the player object it captured. When it fires,
the session stored for the player has been away for the whole time if that session has no
connection and none of the timers armed for it is still running.
-/

namespace Ue4Background.Gateway

open LuaValues Transition

variable {Num Addr : Type}

/-- The session `r` is stored for `p` and has no connection. -/
def Away (p : Num) (r : PlayerRef) (g : State Num Addr) : Prop :=
  g.players p = some r ∧ (g.playerHeap r).conn = none

/-- No timer armed for the session stored for `p` is still running, and it is away. -/
def TimersRunOut (g : State Num Addr) (p : Num) : Prop :=
  ∃ r, Away p r g ∧ ∀ t ∈ g.timers, t.gplayer = r → t.expire ≤ g.now

/-- A timer that asks for a kick finds the timers of the stored session run out. -/
def TimerMeets (g : State Num Addr) (l : Label Num Addr) : Prop :=
  match l.1 with
  | .timer i => ∀ t, g.timers[i]? = some t → (g.playerHeap t.gplayer).conn = none →
      TimersRunOut g t.playerid
  | _ => True

variable [DecidableEq Num] [LuaNumber Num]

/-- After the history `ls`, the session `r` has been away for `p` since a state `m`. -/
def AwaySince (p : Num) (r : PlayerRef) (m : State Num Addr) (ls : List (Label Num Addr))
    (g : State Num Addr) : Prop :=
  ∃ before after, ls = before ++ after ∧ Run Step init before m ∧ Away p r m ∧
    Run (Staying Step (Away p r)) m after g

/-- The session stored for `p` has existed and been without a connection in every state
since a time at least `ticks` ago. -/
def AwayFor (ticks : ℕ) (p : Num) (ls : List (Label Num Addr)) (g : State Num Addr) : Prop :=
  ∃ r m, AwaySince p r m ls g ∧ m.now + ticks ≤ g.now

/-- Every stored session that is away has been so since it was last disconnected, and the
timer armed then is pending or has had its time. -/
def BreaksTimed (ls : List (Label Num Addr)) (g : State Num Addr) : Prop :=
  Run Step init ls g ∧ ∀ p r, Away p r g → ∃ m, AwaySince p r m ls g ∧
    (m.now + 30 * 100 ≤ g.now ∨
      ∃ t ∈ g.timers, t.gplayer = r ∧ t.expire = m.now + 30 * 100)

theorem AwaySince.step {p : Num} {r : PlayerRef} {m g g' : State Num Addr}
    {ls : List (Label Num Addr)} {l : Label Num Addr} (h : AwaySince p r m ls g)
    (hstep : Step g l g') (haway : Away p r g') : AwaySince p r m (ls ++ [l]) g' := by
  obtain ⟨before, after, rfl, hbefore, hm, hafter⟩ := h
  exact ⟨before, after ++ [l], by rw [List.append_assoc], hbefore, hm,
    Run.snoc hafter ⟨hstep, haway⟩⟩

/-- A session is away after a step if it was so before or the step has disconnected it. -/
theorem away_or_broken {g g' : State Num Addr} {l : Label Num Addr} {p : Num} {r : PlayerRef}
    (hs : Shape g) (hstep : Step g l g') (haway : Away p r g') :
    Away p r g ∨ ∃ t ∈ g'.timers, t.gplayer = r ∧ t.expire = g'.now + 30 * 100 := by
  have hchange := step_change hstep
  obtain ⟨ev, outs⟩ := l
  obtain ⟨hplayer, hnone⟩ := haway
  dsimp only at hchange
  cases hchange
  case rebound fd _ _ q r' c htarget _ =>
    left
    have hne : r ≠ r' := by
      rintro rfl
      simp [State.setCache, State.rebind, State.setPlayerid, State.setConn] at hnone
    refine ⟨hplayer, ?_⟩
    simpa [State.setCache, State.rebind, State.setPlayerid, State.setConn, hne] using hnone
  case reboundFault fd _ _ q r' c htarget _ =>
    left
    have hne : r ≠ r' := by
      rintro rfl
      simp [State.setLoop, State.rebind, State.setPlayerid, State.setConn] at hnone
    refine ⟨hplayer, ?_⟩
    simpa [State.setLoop, State.rebind, State.setPlayerid, State.setConn, hne] using hnone
  case broken fd c q r' _ _ _ =>
    by_cases heq : r = r'
    · subst r'
      right
      refine ⟨⟨g.now + 30 * 100, r, q⟩, ?_, rfl, rfl⟩
      exact List.mem_append_right _ (List.mem_singleton_self _)
    · left
      refine ⟨hplayer, ?_⟩
      simpa [State.setLoop, State.addTimer, State.setConn, heq] using hnone
  case cached q msg r' _ _ _ =>
    left
    refine ⟨hplayer, ?_⟩
    by_cases heq : r = r'
    · subst r'
      simpa [State.setCache] using hnone
    · simpa [State.setCache, heq] using hnone
  case bound fd q agent key c _ =>
    left
    by_cases hpq : p = q
    · have hcount : g.playerCount = r := by
        simpa [State.addPlayer, State.setPlayerid, hpq] using hplayer
      subst r
      simp [State.addPlayer, State.setPlayerid] at hnone
    · have hold : g.players p = some r := by
        simpa [State.addPlayer, State.setPlayerid, hpq] using hplayer
      have hne : r ≠ g.playerCount := Nat.ne_of_lt (hs.player_lt p r hold)
      exact ⟨hold, by simpa [State.addPlayer, State.setPlayerid, hne] using hnone⟩
  case kickedLost =>
    exact Or.inl ⟨(entry_erased hplayer).2, hnone⟩
  case kicked =>
    exact Or.inl ⟨(entry_erased hplayer).2, hnone⟩
  all_goals exact Or.inl ⟨hplayer, hnone⟩

theorem now_le {g g' : State Num Addr} {l : Label Num Addr} (hstep : Step g l g') :
    g.now ≤ g'.now := by
  have hchange := step_change hstep
  obtain ⟨ev, outs⟩ := l
  dsimp only at hchange
  cases hchange
  case ticked => exact Nat.le_succ _
  all_goals exact Nat.le_refl _

/-- A timer stays pending until it fires, and it fires when its time has come. -/
theorem timer_kept {g g' : State Num Addr} {l : Label Num Addr} (hstep : Step g l g')
    {t : Timer Num} (ht : t ∈ g.timers) : t ∈ g'.timers ∨ t.expire ≤ g'.now := by
  have henabled := hstep.1
  have hchange := step_change hstep
  obtain ⟨ev, outs⟩ := l
  dsimp only at henabled hchange
  have herase : ∀ i u, g.timers[i]? = some u → u.expire ≤ g.now →
      t ∈ g.timers.eraseIdx i ∨ t.expire ≤ g.now := by
    intro i u hu hdue
    by_cases heq : t = u
    · exact Or.inr (by rw [heq]; exact hdue)
    · refine Or.inl (List.mem_eraseIdx_iff_getElem?.mpr ?_)
      obtain ⟨j, hj⟩ := List.mem_iff_getElem?.mp ht
      refine ⟨j, ?_, hj⟩
      rintro rfl
      exact heq (Option.some.inj (hj.symm.trans hu))
  cases hchange
  case broken => exact Or.inl (List.mem_append_left _ ht)
  case timerIdle i u _ hu _ =>
    have hdue : u.expire ≤ g.now := by simpa [Enabled, hu] using henabled
    exact herase i u hu hdue
  case timerKick i u hu _ =>
    have hdue : u.expire ≤ g.now := by simpa [Enabled, hu] using henabled
    exact herase i u hu hdue
  all_goals exact Or.inl ht

theorem BreaksTimed.step {ls : List (Label Num Addr)} {g g' : State Num Addr}
    {l : Label Num Addr} (hs : Shape g) (h : BreaksTimed ls g) (hstep : Step g l g') :
    BreaksTimed (ls ++ [l]) g' := by
  obtain ⟨hrun, hbreaks⟩ := h
  have hrun' : Run Step init (ls ++ [l]) g' := Run.snoc hrun hstep
  refine ⟨hrun', ?_⟩
  intro p r haway
  rcases away_or_broken hs hstep haway with hold | ⟨t, ht, hgplayer, hexpire⟩
  · obtain ⟨m, hsince, htimer⟩ := hbreaks p r hold
    refine ⟨m, hsince.step hstep haway, ?_⟩
    have hnow := now_le hstep
    rcases htimer with hdone | ⟨t, ht, hgplayer, hexpire⟩
    · exact Or.inl (Nat.le_trans hdone hnow)
    · rcases timer_kept hstep ht with hpending | hdue
      · exact Or.inr ⟨t, hpending, hgplayer, hexpire⟩
      · rw [hexpire] at hdue
        exact Or.inl hdue
  · refine ⟨g', ⟨ls ++ [l], [], by rw [List.append_nil], hrun', haway, Run.nil⟩, ?_⟩
    exact Or.inr ⟨t, ht, hgplayer, hexpire⟩

theorem reachable_breaksTimed {ls : List (Label Num Addr)} {g : State Num Addr}
    (hrun : Run Step init ls g) : Shape g ∧ BreaksTimed ls g := by
  have h : Shape g ∧ BreaksTimed ([] ++ ls) g := by
    refine Run.invariant_history (I := fun ls g => Shape g ∧ BreaksTimed ls g) ?_
      ⟨Shape.init, Run.nil, ?_⟩ hrun
    · rintro hist u l v ⟨hs, hb⟩ hstep
      exact ⟨hs.step hstep, hb.step hs hstep⟩
    · rintro p r ⟨hplayer, _⟩
      cases hplayer
  exact h

/-- When the timers of the stored session have run out, its last disconnect lies at least
thirty seconds back. -/
theorem awayFor_of_timersRunOut {ls : List (Label Num Addr)} {g : State Num Addr} {p : Num}
    (hrun : Run Step init ls g) (hout : TimersRunOut g p) : AwayFor (30 * 100) p ls g := by
  obtain ⟨r, haway, htimers⟩ := hout
  obtain ⟨m, hsince, htimer⟩ := (reachable_breaksTimed hrun).2.2 p r haway
  refine ⟨r, m, hsince, ?_⟩
  rcases htimer with hdone | ⟨t, ht, hgplayer, hexpire⟩
  · exact hdone
  · rw [← hexpire]
    exact htimers t ht hgplayer

/-- In every run whose timers ask for a kick only when the timers of the stored session
have run out, a player kicked for the timeout has been away for the whole time. -/
theorem timeout_kicks_away {ls : List (Label Num Addr)} {g g' : State Num Addr} {i : ℕ}
    {outs : List (Out Num Addr)} {p : Num} {waiting : Waiting}
    (hrun : Run (Guarded Step TimerMeets) init ls g)
    (hstep : Guarded Step TimerMeets g (.timer i, outs) g')
    (hkick : Out.reqkick p expiredReason waiting ∈ outs) : AwayFor (30 * 100) p ls g := by
  obtain ⟨hstep, hmeets⟩ := hstep
  have hchange := step_change hstep
  dsimp only at hchange
  cases hchange
  case noTimer => cases hkick
  case timerIdle => cases hkick
  case timerKick t hconn htimer =>
    simp only [List.mem_singleton, Out.reqkick.injEq] at hkick
    rw [hkick.1]
    exact awayFor_of_timersRunOut hrun.unguarded (hmeets t htimer hconn)

theorem AwayFor.away {ticks : ℕ} {p : Num} {ls : List (Label Num Addr)} {g : State Num Addr}
    (h : AwayFor ticks p ls g) : ∃ r, Away p r g := by
  obtain ⟨r, m, ⟨_, _, _, _, hm, hafter⟩, _⟩ := h
  exact ⟨r, hafter.staying_end hm⟩

theorem run_ticks (g : State Num Addr) (n : ℕ) :
    Run (Guarded Step TimerMeets) g (List.replicate n (.tick, []))
      { g with now := g.now + n } := by
  induction n with
  | zero => exact Run.nil
  | succ n ih =>
    rw [List.replicate_succ']
    exact Run.snoc ih ⟨⟨trivial, rfl⟩, trivial⟩

/-- A session left alone for thirty seconds. -/
def leftAlone : State ℕ ℕ := exec next init [.connect 1, .sureAgent 1 7 (some 100) 31, .eof 1]

theorem run_leftAlone :
    Run (Guarded Step TimerMeets) init
      (trace next init [.connect 1, .sureAgent 1 7 (some 100) 31, .eof 1]) leftAlone :=
  run_exec_guarded ⟨⟨by decide, trivial⟩, ⟨trivial, trivial⟩, ⟨by decide, trivial⟩, trivial⟩

theorem timeout_kicks_left_alone :
    ∃ ls, AwayFor (30 * 100) 7 ls { leftAlone with now := 3000 } := by
  refine ⟨_, timeout_kicks_away (i := 0) (run_leftAlone.append (run_ticks leftAlone 3000))
    ⟨⟨by decide, rfl⟩, ?_⟩ (List.mem_singleton_self _)⟩
  intro t ht _
  have hplayer : t.playerid = 7 := by
    have heq : t = ⟨3000, 0, 7⟩ := (Option.some.inj ht).symm
    rw [heq]
  rw [hplayer]
  exact ⟨0, ⟨by decide, by decide⟩, by decide⟩

/-- A session that is kicked while it is away, and a fresh login of the same player. -/
def loggedInAgain : State ℕ ℕ :=
  exec next init [.connect 1, .sureAgent 1 7 (some 100) 31, .eof 1, .kick 7, .connect 2,
    .sureAgent 2 7 (some 101) 32]

/-- The timer of the old session asks for a kick of the player, who is connected. -/
theorem timeout_kicks_connected_player :
    ¬ ∀ (ls : List (Label ℕ ℕ)) (g g' : State ℕ ℕ) (i : ℕ) (outs : List (Out ℕ ℕ)) (p : ℕ)
        (waiting : Waiting),
      Run Step init ls g → Step g (.timer i, outs) g' →
        Out.reqkick p expiredReason waiting ∈ outs → AwayFor (30 * 100) p ls g := by
  intro h
  have hrun : Run Step init _ loggedInAgain := run_exec _ (by decide)
  have hticks := (run_ticks loggedInAgain 3000).unguarded
  have haway := h _ { loggedInAgain with now := 3000 } _ 0 _ 7 .expired (hrun.append hticks)
    ⟨by decide, rfl⟩ (List.mem_singleton_self _)
  obtain ⟨r, hplayer, hconn⟩ := haway.away
  have hr : 1 = r := Option.some.inj hplayer
  subst r
  exact absurd hconn (by decide)

end Ue4Background.Gateway
