import Ue4Background.WaitingReader

/-!
A read that is forgotten. `socket.close` waits behind a reader and is woken when this reader goes
on; a read that begins to wait before `socket.close` goes on is left on a socket that is taken out
of the pool. Nothing wakes it again: no message that has yielded while pausing is left in any run,
however the coroutines use the socket.
-/

namespace Ue4Background.SocketReads

open LuaValues Transition Socket

variable {Err : Type} {s t : State Err} {op : Op} {paused : Bool} {a : Option (Answer Err)}

/-- On an open socket, a message yields only while the reader waits, and then nothing is asked. -/
structure Paced (s : State Err) : Prop where
  connecting : ∀ paused, s.reader = .parked .connect paused →
    s.yielded = 0 ∧ s.readRequired = .none
  once : s.connected = true → s.yielded ≤ 1 ∧ (0 < s.yielded → s.readRequired = .none)
  parked : s.connected = true → 0 < s.yielded ∨ s.readRequired ≠ .none →
    s.co = some .reader ∧ ∃ op paused, s.reader = .parked op paused

namespace Paced

theorem of_quiet (hconnecting : ∀ paused, s.reader = .parked .connect paused →
      s.yielded = 0 ∧ s.readRequired = .none)
    (hquiet : s.connected = true → s.yielded = 0 ∧ s.readRequired = .none) : Paced s where
  connecting := hconnecting
  once := fun hconnected => by
    obtain ⟨hzero, hrequired⟩ := hquiet hconnected
    exact ⟨by omega, fun _ => hrequired⟩
  parked := fun hconnected hbusy => by
    obtain ⟨hzero, hrequired⟩ := hquiet hconnected
    rcases hbusy with hpos | hasked
    · omega
    · exact absurd hrequired hasked

/-- A reader that does not wait finds nothing that has yielded. -/
theorem quiet (h : Paced s) (hreader : ∀ op paused, s.reader ≠ .parked op paused)
    (hconnected : s.connected = true) : s.yielded = 0 ∧ s.readRequired = .none := by
  have hfree : ¬ (0 < s.yielded ∨ s.readRequired ≠ .none) := by
    intro hbusy
    obtain ⟨-, op, paused, hparked⟩ := h.parked hconnected hbusy
    exact hreader op paused hparked
  rw [not_or, not_not] at hfree
  exact ⟨by omega, hfree.2⟩

theorem wakeup (hconnecting : ∀ paused, s.reader = .parked .connect paused →
      s.yielded = 0 ∧ s.readRequired = .none)
    (hquiet : s.connected = true → s.yielded = 0 ∧ s.readRequired = .none) :
    Paced s.wakeup := by
  obtain hco | hco | hco := co_cases s
  · rw [wakeup_none s hco]
    exact of_quiet hconnecting hquiet
  · simp only [State.wakeup, hco]
    refine of_quiet (fun paused hreader => hconnecting paused ?_) hquiet
    cases hold : s.reader with
    | parked op paused' =>
      simp only [hold, Reader.wake] at hreader
      cases hreader
    | idle | woken =>
      simp only [hold, Reader.wake] at hreader
      cases hreader
  · simp only [State.wakeup, hco]
    exact of_quiet hconnecting hquiet

/-- What was asked for is served, or a message yields before it wakes the reader. -/
theorem serve (h : Paced s) (hasked : s.readRequired ≠ .none) : Paced s.serve := by
  have hopening : ∀ paused, s.reader ≠ .parked .connect paused :=
    fun paused hreader => hasked (h.connecting paused hreader).2
  have hzero : s.connected = true → s.yielded = 0 := by
    intro hconnected
    by_contra hpos
    exact hasked ((h.once hconnected).2 (Nat.pos_of_ne_zero hpos))
  have hwoken : Paced (State.wakeup { s with readRequired := .none }) :=
    wakeup (fun paused hreader => absurd hreader (hopening paused))
      fun hconnected => ⟨hzero hconnected, rfl⟩
  simp only [State.serve]
  split
  · by_cases hpause : s.pause = none
    · simp only [State.pauseSocket, if_pos hpause]
      refine ⟨fun paused hreader => absurd hreader (hopening paused), fun hconnected => ?_,
        fun hconnected _ => h.parked hconnected (Or.inr hasked)⟩
      exact ⟨Nat.succ_le_succ (hzero hconnected).le, fun _ => rfl⟩
    · simp only [State.pauseSocket, if_neg hpause]
      exact hwoken
  · exact hwoken

theorem pauseSocket (h : Paced s) : Paced (s.pauseSocket.getD s) := by
  rw [State.pauseSocket]
  split
  · exact ⟨h.connecting, h.once, h.parked⟩
  · exact h

theorem keep (h : Paced s) : Paced s.keep := by
  rw [State.keep]
  split
  · exact ⟨h.connecting, h.once, h.parked⟩
  · split
    · exact h.pauseSocket
    · exact h

theorem onData (h : Paced s) {msg : Bytes} (hdata : s.onData msg = some t) : Paced t := by
  have hpush : Paced { s with buffer := s.buffer.push msg } :=
    ⟨h.connecting, h.once, h.parked⟩
  rw [State.onData] at hdata
  split at hdata
  · dsimp only at hdata
    split at hdata
    · rename_i n hrequired
      cases hdata
      split
      · exact hpush.serve (by simp [hrequired])
      · exact hpush
    · rename_i sep hrequired
      split at hdata
      · cases hdata
        exact ⟨h.connecting, h.once, h.parked⟩
      · obtain ⟨found, -, rfl⟩ := Option.map_eq_some_iff.1 hdata
        split
        · exact hpush.serve (by simp [hrequired])
        · exact hpush
    · cases hdata
      exact hpush.keep
  · cases hdata
    exact h

end Paced

/-- A read answers from the buffer, or it begins to wait on the open socket. -/
theorem call_effect (h : s.call op = some (t, a)) :
    (∃ buffer b, t = { s with buffer } ∧ a = some b) ∨
      s.connected = true ∧ ∃ buffer, ({ s with buffer } : State Err).await op = some (t, a) := by
  cases op with
  | connect => cases h
  | some =>
    simp only [State.call] at h
    split at h
    · cases h
      exact Or.inl ⟨_, _, rfl, rfl⟩
    · split at h
      · next hconnected => exact Or.inr ⟨hconnected, _, h⟩
      · cases h
        exact Or.inl ⟨_, _, rfl, rfl⟩
  | size n =>
    simp only [State.call] at h
    obtain ⟨⟨_ | b, buffer⟩, -, hread⟩ := Option.bind_eq_some_iff.1 h
    · dsimp only at hread
      split at hread
      · next hconnected => exact Or.inr ⟨hconnected, _, hread⟩
      · cases hread
        exact Or.inl ⟨_, _, rfl, rfl⟩
    · cases hread
      exact Or.inl ⟨_, _, rfl, rfl⟩
  | all =>
    simp only [State.call] at h
    split at h
    · next hconnected => exact Or.inr ⟨hconnected, s.buffer, h⟩
    · cases h
      exact Or.inl ⟨_, _, rfl, rfl⟩
  | line sep =>
    simp only [State.call] at h
    obtain ⟨⟨_ | b, buffer⟩, -, hread⟩ := Option.bind_eq_some_iff.1 h
    · dsimp only at hread
      split at hread
      · next hconnected => exact Or.inr ⟨hconnected, _, hread⟩
      · cases hread
        exact Or.inl ⟨_, _, rfl, rfl⟩
    · cases hread
      exact Or.inl ⟨_, _, rfl, rfl⟩
  | block =>
    simp only [State.call] at h
    split at h
    · next hconnected => exact Or.inr ⟨hconnected, s.buffer, h⟩
    · cases h
      exact Or.inl ⟨s.buffer, _, rfl, rfl⟩

/-- A read from outside answers, or it is now the coroutine of the socket and waits. -/
theorem read_effect (h : s.read op = some (t, a)) :
    (∃ buffer b, t = { s with buffer } ∧ a = some b) ∨
      s.connected = true ∧ ∃ buffer reading paused, t = { s with
        buffer, reading
        readRequired := op.required
        co := some .reader
        reader := .parked op paused } := by
  rw [State.read] at h
  split at h
  · rcases call_effect h with hanswered | ⟨hconnected, buffer, hawait⟩
    · exact Or.inl hanswered
    · rw [State.await] at hawait
      split at hawait
      · cases hawait
        exact Or.inr ⟨hconnected, buffer, _, _, rfl⟩
      · cases hawait
  · split at h
    · cases h
      exact Or.inl ⟨s.buffer, _, rfl, rfl⟩
    · cases h

/-- The rest of a read changes nothing that a message looks at. -/
theorem answer_frame (h : s.answer op = some (t, a)) :
    t.reader = s.reader ∧ t.connected = s.connected ∧ t.yielded = s.yielded ∧
      t.readRequired = s.readRequired := by
  cases op with
  | connect =>
    simp only [State.answer] at h
    split at h <;> cases h <;> exact ⟨rfl, rfl, rfl, rfl⟩
  | some | block =>
    cases h
    exact ⟨rfl, rfl, rfl, rfl⟩
  | all =>
    simp only [State.answer] at h
    split at h <;> cases h
    exact ⟨rfl, rfl, rfl, rfl⟩
  | size n =>
    obtain ⟨⟨_ | b, buffer⟩, -, hread⟩ := Option.map_eq_some_iff.1 h
    all_goals
      cases hread
      exact ⟨rfl, rfl, rfl, rfl⟩
  | line sep =>
    simp only [State.answer] at h
    split at h
    · obtain ⟨r, -, hread⟩ := Option.map_eq_some_iff.1 h
      cases hread
      exact ⟨rfl, rfl, rfl, rfl⟩
    · cases h
      exact ⟨rfl, rfl, rfl, rfl⟩

namespace Paced

theorem read (h : Paced s) (hidle : s.reader = .idle) (hop : op.Proper)
    (hread : s.read op = some (t, a)) : Paced t := by
  rcases read_effect hread with ⟨buffer, b, rfl, -⟩ | ⟨hconnected, buffer, reading, paused, rfl⟩
  · exact ⟨h.connecting, h.once, h.parked⟩
  · have hzero := (h.quiet (fun op paused => by simp [hidle]) hconnected).1
    refine ⟨fun paused' hreader => ?_, fun _ => ?_, fun _ _ => ⟨rfl, op, paused, rfl⟩⟩
    · cases hreader
      exact hop.elim
    · exact ⟨hzero.le.trans (Nat.zero_le 1), fun hpos => absurd hzero hpos.ne'⟩

theorem resume (h : Paced s) (hresume : s.resume = some (t, a)) : Paced t := by
  rw [State.resume] at hresume
  split at hresume
  · rename_i op paused hreader
    obtain ⟨hidle, hconnected, hyielded, hrequired⟩ := answer_frame hresume
    refine of_quiet (fun paused' hreader' => ?_) fun hc => ?_
    · rw [hidle] at hreader'
      cases hreader'
    · rw [hyielded, hrequired]
      exact h.quiet (fun op' paused' => by simp [hreader]) (hconnected.symm.trans hc)
  · cases hresume

theorem close (h : Paced s) (hclose : s.close = some t) : Paced t := by
  simp only [State.close] at hclose
  split at hclose
  · split at hclose
    · split at hclose
      · split at hclose <;> cases hclose
        exact ⟨h.connecting, h.once, h.parked⟩
      · rename_i hco
        cases hclose
        refine ⟨h.connecting, h.once, fun hconnected hbusy => ?_⟩
        have hreader := (h.parked hconnected hbusy).1
        rw [show s.co = none from hco] at hreader
        cases hreader
    · cases hclose
      exact ⟨h.connecting, h.once, h.parked⟩
  · cases hclose
    exact h

theorem onConnect (h : Paced s)
    (hopening : s.connected = false → s.reader = .parked .connect false) :
    Paced s.onConnect := by
  rw [State.onConnect]
  split
  · next hconnect =>
    exact wakeup h.connecting fun _ => h.connecting false (hopening hconnect.2)
  · exact h

theorem onYielded (h : Paced s) (hpos : 0 < s.yielded) : Paced s.onYielded := by
  refine wakeup (fun paused hreader => ?_) fun hconnected => ?_
  · exact absurd (h.connecting paused hreader).1 hpos.ne'
  · obtain ⟨hone, hrequired⟩ := h.once hconnected
    exact ⟨Nat.sub_eq_zero_of_le hone, hrequired hpos⟩

/-- The end of the connection wakes whoever waits. -/
theorem disconnect (h : Paced s) (connecting : Connecting Err) (pooled : Bool) :
    Paced (State.wakeup { s with connected := false, connecting, pooled }) :=
  wakeup h.connecting fun hconnected => absurd hconnected Bool.false_ne_true

theorem abandon (h : Paced s) : Paced s.abandon := by
  rw [State.abandon]
  split
  · rw [wakeup_pooled]
    exact h.disconnect s.connecting false
  · exact h

theorem step {e : Event Err} (h : Paced s) (henabled : Enabled s e)
    (hstep : step s e = some (t, a)) : Paced t := by
  cases e with
  | data msg =>
    obtain ⟨u, hdata, heq⟩ := Option.map_eq_some_iff.1 hstep
    cases heq
    exact h.onData hdata
  | connected =>
    cases hstep
    exact h.onConnect henabled.2
  | closed =>
    cases hstep
    rw [State.onClose]
    split
    · exact h.disconnect s.connecting s.pooled
    · exact h
  | error err =>
    cases hstep
    rw [State.onError]
    split
    · exact h.disconnect _ s.pooled
    · exact h
  | yielded =>
    cases hstep
    exact h.onYielded henabled.2
  | call op => exact h.read henabled.1 henabled.2 hstep
  | resume => exact h.resume hstep
  | close =>
    obtain ⟨u, hclose, heq⟩ := Option.map_eq_some_iff.1 hstep
    cases heq
    exact h.close hclose
  | closeResume =>
    cases hstep
    exact of_quiet h.connecting fun hconnected => absurd hconnected Bool.false_ne_true
  | abandon =>
    cases hstep
    exact h.abandon
  | pause =>
    cases hstep
    rw [State.pauseCall]
    split
    · exact h.pauseSocket
    · exact h
  | limit n =>
    obtain ⟨u, hlimit, heq⟩ := Option.map_eq_some_iff.1 hstep
    cases heq
    rw [State.limit] at hlimit
    split at hlimit <;> cases hlimit
    exact ⟨h.connecting, h.once, h.parked⟩

/-- It holds in any run, however the coroutines use the socket. -/
theorem run {ls : List (Event Err × Option (Answer Err))} (hrun : Run Step State.opening ls s) :
    Paced s := by
  have hopening : Paced (State.opening : State Err) :=
    of_quiet (fun _ _ => ⟨rfl, rfl⟩) fun hconnected => absurd hconnected Bool.false_ne_true
  exact hrun.invariant (fun _ _ _ hu hstep => hu.step hstep.1 hstep.2) hopening

end Paced

/-- A read waits on a socket that has left the pool. -/
structure Gone (s : State Err) (op : Op) (paused : Bool) : Prop where
  reader : s.reader = .parked op paused
  pooled : s.pooled = false
  yielded : s.yielded = 0
  closer : s.closer = .idle

theorem gone_step {e : Event Err} {a : Option (Answer Err)} (h : Gone s op paused)
    (henabled : Enabled s e) (hstep : step s e = some (t, a)) : Gone t op paused := by
  have hpooled : ¬ s.pooled = true := by
    rw [h.pooled]
    nofun
  cases e with
  | data msg =>
    rw [step, State.onData, if_neg hpooled] at hstep
    cases hstep
    exact h
  | connected =>
    rw [step, State.onConnect, if_neg fun hp => hpooled hp.1] at hstep
    cases hstep
    exact h
  | closed =>
    rw [step, State.onClose, if_neg hpooled] at hstep
    cases hstep
    exact h
  | error err =>
    rw [step, State.onError, if_neg hpooled] at hstep
    cases hstep
    exact h
  | yielded =>
    have hpos := henabled.2
    rw [h.yielded] at hpos
    cases hpos
  | call op' =>
    have hidle := henabled.1
    rw [h.reader] at hidle
    cases hidle
  | resume =>
    obtain ⟨op', paused', hwoken⟩ := henabled
    rw [h.reader] at hwoken
    cases hwoken
  | close =>
    rw [step, State.close, if_neg hpooled] at hstep
    cases hstep
    exact h
  | closeResume =>
    have hcloser := henabled.1
    rw [h.closer] at hcloser
    rcases hcloser with hcloser | hcloser <;> cases hcloser
  | abandon =>
    rw [step, State.abandon, if_neg hpooled] at hstep
    cases hstep
    exact h
  | pause =>
    rw [step, State.pauseCall, if_neg hpooled] at hstep
    cases hstep
    exact h
  | limit n =>
    rw [step, State.limit, if_neg hpooled] at hstep
    cases hstep

/-- The woken `socket.close` goes on next, and takes the socket out of the pool. -/
theorem gone_of_closer {e : Event Err} {a : Option (Answer Err)}
    (hreader : s.reader = .parked op paused) (hyielded : s.yielded = 0)
    (hcloser : s.closer = .woken ∨ s.closer = .behindWoken) (henabled : Enabled s e)
    (hstep : step s e = some (t, a)) : Gone t op paused := by
  have hloud : ¬ s.Quiet := by
    rintro ⟨-, hwoken, hbehind⟩
    exact hcloser.elim hwoken hbehind
  cases e with
  | data msg => exact absurd henabled.1 hloud
  | connected => exact absurd henabled.1 hloud
  | closed => exact absurd henabled hloud
  | error err => exact absurd henabled hloud
  | yielded => exact absurd henabled.1 hloud
  | call op' =>
    have hidle := henabled.1
    rw [hreader] at hidle
    cases hidle
  | resume =>
    obtain ⟨op', paused', hwoken⟩ := henabled
    rw [hreader] at hwoken
    cases hwoken
  | close =>
    have hidle := henabled.1
    rcases hcloser with hcloser | hcloser <;> rw [hcloser] at hidle <;> cases hidle
  | closeResume =>
    cases hstep
    exact ⟨hreader, rfl, hyielded, rfl⟩
  | abandon => exact absurd henabled hloud
  | pause => exact absurd henabled hloud
  | limit n => exact absurd henabled hloud

/-- A read that begins to wait finds nothing that has yielded. -/
theorem waits_of_call (h : Paced s) (hcall : Step s (.call op, none) t) :
    (∃ paused, t.reader = .parked op paused) ∧ t.yielded = 0 ∧ t.closer = s.closer := by
  obtain ⟨⟨hidle, -⟩, hread⟩ := hcall
  rcases read_effect hread with ⟨buffer, b, -, hnone⟩ | ⟨hconnected, buffer, reading, paused, rfl⟩
  · cases hnone
  · exact ⟨⟨paused, rfl⟩, (h.quiet (fun op paused => by simp [hidle]) hconnected).1, rfl⟩

/-- A read that begins to wait before the woken `socket.close` goes on is never woken again. -/
theorem forgotten_for_good {u : State Err} {pre ls : List (Event Err × Option (Answer Err))}
    (hbefore : Run Step State.opening pre u)
    (hcloser : u.closer = .woken ∨ u.closer = .behindWoken) (hcall : Step u (.call op, none) s)
    (hrun : Run Step s ls t) :
    (∃ paused, t.reader = .parked op paused) ∧ (ls ≠ [] → t.pooled = false) := by
  obtain ⟨⟨paused, hreader⟩, hyielded, hsame⟩ := waits_of_call (Paced.run hbefore) hcall
  rw [← hsame] at hcloser
  have hfate : (ls = [] ∧ t = s) ∨ Gone t op paused := by
    refine Run.invariant_history (I := fun hist v => (hist = [] ∧ v = s) ∨ Gone v op paused)
      ?_ (Or.inl ⟨rfl, rfl⟩) hrun
    rintro hist v ⟨e, a⟩ w (⟨-, rfl⟩ | hgone) ⟨henabled, hstep⟩
    · exact Or.inr (gone_of_closer hreader hyielded hcloser henabled hstep)
    · exact Or.inr (gone_step hgone henabled hstep)
  rcases hfate with ⟨rfl, rfl⟩ | hgone
  · exact ⟨⟨paused, hreader⟩, fun hne => absurd rfl hne⟩
  · exact ⟨⟨paused, hgone.reader⟩, fun _ => hgone.pooled⟩

/-- Two bytes arrived while the reader waited for them and the socket was being closed. -/
def closeBehind : State Unit :=
  { awaitingTwo with
    readRequired := .none
    co := none
    pause := some false
    closing := true
    closeSent := true
    reader := .idle
    closer := .behindWoken }

theorem closeBehind_reached : Run Orderlies awaitingTwo [(.close, none), (.data [1, 2], none),
    (.resume, some (.data [1, 2]))] closeBehind := by
  refine Run.cons ⟨⟨⟨rfl, Or.inr ⟨nofun, nofun, nofun⟩⟩, rfl⟩, nofun⟩ ?_
  refine Run.cons ⟨⟨⟨⟨nofun, nofun, nofun⟩, nofun⟩, rfl⟩, trivial⟩ ?_
  exact Run.single ⟨⟨⟨_, _, rfl⟩, rfl⟩, trivial⟩

theorem forgotten_for_good_second_read : ∃ s : State Unit,
    Step closeBehind (.call (.size 2), none) s ∧ Enabled s .closeResume ∧
      ∀ ls t, Run Step s ls t →
        (∃ paused, t.reader = .parked (.size 2) paused) ∧ (ls ≠ [] → t.pooled = false) := by
  obtain ⟨s, hcall, hnext⟩ : ∃ s : State Unit, Step closeBehind (.call (.size 2), none) s ∧
      Enabled s .closeResume := ⟨_, ⟨⟨rfl, Nat.two_pos⟩, rfl⟩, Or.inr rfl, nofun⟩
  exact ⟨s, hcall, hnext, fun _ _ hrun => forgotten_for_good
    ((awaitingTwo_reached.append closeBehind_reached).mono fun _ _ _ h => h.1) (Or.inr rfl)
    hcall hrun⟩

end Ue4Background.SocketReads
