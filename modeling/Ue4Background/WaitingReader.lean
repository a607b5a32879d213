import Ue4Background.SocketReads

/-!
No read of a socket is left waiting. While a read waits, the socket is open and in the pool, the
buffer does not answer it, and the driver goes on reading; what wakes it first also answers it. This
needs that a coroutine does not begin to wait while another one is in `socket.close`.
-/

namespace Ue4Background.SocketReads

open LuaValues Transition Socket

variable {Err : Type} {s t : State Err} {op : Op} {paused : Bool}

structure Idle (s : State Err) : Prop where
  co : s.co ≠ some .reader
  asked : s.connected = true → s.readRequired = .none
  closer : s.closer ≠ .behind

/-- The reader waits for `op`, or a message that has yielded is about to wake it. -/
structure Waiting (s : State Err) (op : Op) (paused : Bool) : Prop where
  pooled : s.pooled = true
  connected : s.connected = true ↔ op ≠ .connect
  co : s.co = some .reader
  proper : op = .connect ∨ op.Proper
  asked : (s.readRequired = op.required ∧ (op.Unmet s.buffer.view ∨ s.closeSent = true)) ∨
    (s.readRequired = .none ∧ 0 < s.yielded ∧ op.Gets s.buffer.view ∧ op ≠ .connect)
  reading : s.reading = true ∨ 0 < s.yielded ∨
    (op = .all ∨ op = .connect) ∧ BUFFER_LIMIT < s.buffer.view.length
  paused : paused = true → s.reading = true ∧ s.pause ≠ none
  closer : s.closer = .idle ∨ s.closer = .behind
  opening : op = .connect → s.yielded = 0

structure Woken (s : State Err) (op : Op) (paused : Bool) : Prop where
  co : s.co = none
  proper : op = .connect ∨ op.Proper
  gets : s.connected = true → s.readRequired = .none ∧ op.Gets s.buffer.view
  paused : paused = true → s.reading = true
  closer : s.closer = .idle ∨ s.closer = .behind

structure Inv (s : State Err) : Prop where
  kept : s.buffer.Kept
  idle : s.reader = .idle → Idle s
  waiting : ∀ op paused, s.reader = .parked op paused → Waiting s op paused
  woken : ∀ op paused, s.reader = .woken op paused → Woken s op paused
  parked : s.co = some .closer ↔ s.closer = .parked
  own : s.closer = .parked → s.connected = true
  behind : s.closer = .behind → s.closing = true
  closing : s.closing = true → s.pooled = true → s.closer = .behind ∨ s.closer = .behindWoken
  yields : s.connected = true → 0 < s.yielded →
    s.yielded = 1 ∧ ∃ op paused, s.reader = .parked op paused ∧ s.readRequired = .none
  running : s.pause = none → s.reading = true
  stopped : s.pause = some false → s.pooled = true → s.closer ≠ .idle

theorem opening_inv : Inv (State.opening : State Err) where
  kept := SocketBuffer.new_kept
  idle := nofun
  waiting := by
    rintro op paused hreader
    cases hreader
    exact ⟨rfl, by simp [State.opening], rfl, Or.inl rfl, Or.inl ⟨rfl, Or.inl trivial⟩, Or.inl rfl,
      nofun, Or.inl rfl, fun _ => rfl⟩
  woken := nofun
  parked := ⟨nofun, nofun⟩
  own := nofun
  behind := nofun
  closing := nofun
  yields := nofun
  running := fun _ => rfl
  stopped := nofun

/-- While no read is going on, the buffer and the pause may change. -/
theorem Inv.idle_update (h : Inv s) (hidle : s.reader = .idle) {buffer : SocketBuffer}
    {readRequired : Required} {pause : Option Bool} {reading closeSent : Bool} {yielded : ℕ}
    {bufferLimit : Option ℕ} (hkept : buffer.Kept)
    (hasked : s.connected = true → readRequired = .none ∧ yielded = s.yielded)
    (hrunning : pause = none → reading = true) (hstopped : pause = some false → s.pause = pause) :
    Inv { s with buffer, readRequired, pause, reading, closeSent, yielded, bufferLimit } where
  kept := hkept
  idle := fun hreader => ⟨(h.idle hreader).co, fun hc => (hasked hc).1, (h.idle hreader).closer⟩
  waiting := by
    rintro op paused hreader
    rw [show s.reader = .parked op paused from hreader] at hidle
    cases hidle
  woken := by
    rintro op paused hreader
    rw [show s.reader = .woken op paused from hreader] at hidle
    cases hidle
  parked := h.parked
  own := h.own
  behind := h.behind
  closing := h.closing
  yields := by
    intro hconnected hpos
    obtain ⟨-, op, paused, hreader, -⟩ := h.yields hconnected ((hasked hconnected).2 ▸ hpos)
    rw [hidle] at hreader
    cases hreader
  running := hrunning
  stopped := fun hpause => h.stopped ((hstopped hpause).trans hpause)

/-- While the reader waits, what it asked for stays. -/
theorem Inv.parked_update (h : Inv s) (hreader : s.reader = .parked op paused)
    {buffer : SocketBuffer} {pause : Option Bool} {reading closeSent : Bool}
    {bufferLimit : Option ℕ} (hkept : buffer.Kept)
    (hasked : (s.readRequired = op.required ∧ (op.Unmet buffer.view ∨ closeSent = true)) ∨
      (s.readRequired = .none ∧ 0 < s.yielded ∧ op.Gets buffer.view ∧ op ≠ .connect))
    (hreading : reading = true ∨ 0 < s.yielded ∨
      (op = .all ∨ op = .connect) ∧ BUFFER_LIMIT < buffer.view.length)
    (hpaused : paused = true → reading = true ∧ pause ≠ none)
    (hrunning : pause = none → reading = true) (hstopped : pause = some false → s.pause = pause) :
    Inv { s with buffer, pause, reading, closeSent, bufferLimit } where
  kept := hkept
  idle := by
    intro hidle
    rw [show s.reader = .idle from hidle] at hreader
    cases hreader
  waiting := by
    rintro op' paused' hreader'
    rw [show s.reader = .parked op' paused' from hreader'] at hreader
    cases hreader
    have hwaiting := h.waiting _ _ hreader'
    exact ⟨hwaiting.pooled, hwaiting.connected, hwaiting.co, hwaiting.proper, hasked, hreading,
      hpaused, hwaiting.closer, hwaiting.opening⟩
  woken := by
    rintro op' paused' hwoken
    rw [show s.reader = .woken op' paused' from hwoken] at hreader
    cases hreader
  parked := h.parked
  own := h.own
  behind := h.behind
  closing := h.closing
  yields := h.yields
  running := hrunning
  stopped := fun hpause => h.stopped ((hstopped hpause).trans hpause)

/-- Waking the reader is safe once the socket is gone or the buffer has what it asked for. -/
theorem Inv.wake_reader (h : Inv s) (hreader : s.reader = .parked op paused)
    {buffer : SocketBuffer} {connected pooled : Bool} {connecting : Connecting Err}
    {readRequired : Required} {yielded : ℕ} (hkept : buffer.Kept)
    (hgets : connected = true → readRequired = .none ∧ op.Gets buffer.view ∧ yielded = 0)
    (hpooled : pooled = true → s.pooled = true) :
    Inv { s with
      buffer, connected, connecting, readRequired, yielded, pooled
      co := none
      reader := .woken op paused } where
  kept := hkept
  idle := nofun
  waiting := nofun
  woken := by
    rintro op' paused' hwoken
    cases hwoken
    have hwaiting := h.waiting _ _ hreader
    exact ⟨rfl, hwaiting.proper, fun hc => ⟨(hgets hc).1, (hgets hc).2.1⟩,
      fun hp => (hwaiting.paused hp).1, hwaiting.closer⟩
  parked := by
    refine ⟨nofun, fun hparked => ?_⟩
    have hparked' : s.closer = .parked := hparked
    rcases (h.waiting _ _ hreader).closer with hidle | hbehind
    · rw [hidle] at hparked'
      cases hparked'
    · rw [hbehind] at hparked'
      cases hparked'
  own := by
    intro hparked
    have hco := h.parked.2 hparked
    rw [(h.waiting _ _ hreader).co] at hco
    cases hco
  behind := h.behind
  closing := fun hclosing hp => h.closing hclosing (hpooled hp)
  yields := by
    intro hc hpos
    have hzero : yielded = 0 := (hgets hc).2.2
    have hpos' : 0 < yielded := hpos
    omega
  running := h.running
  stopped := fun hpause hp => h.stopped hpause (hpooled hp)

theorem Inv.co_reader (h : Inv s) (hco : s.co = some .reader) :
    ∃ op paused, s.reader = .parked op paused := by
  cases hreader : s.reader with
  | idle => exact absurd hco (h.idle hreader).co
  | parked op paused => exact ⟨op, paused, rfl⟩
  | woken op paused =>
    rw [(h.woken op paused hreader).co] at hco
    cases hco

theorem Inv.co_closer (h : Inv s) (hco : s.co = some .closer) : s.reader = .idle := by
  cases hreader : s.reader with
  | idle => rfl
  | parked op paused =>
    rw [(h.waiting op paused hreader).co] at hco
    cases hco
  | woken op paused =>
    rw [(h.woken op paused hreader).co] at hco
    cases hco

theorem wakeup_none (s : State Err) (hco : s.co = none) : s.wakeup = s := by
  simp only [State.wakeup, hco]

theorem wakeup_reader (s : State Err) (hco : s.co = some .reader)
    (hreader : s.reader = .parked op paused) :
    s.wakeup = { s with co := none, reader := .woken op paused } := by
  simp only [State.wakeup, hco, hreader, Reader.wake]

theorem wakeup_closer (s : State Err) (hco : s.co = some .closer) (hcloser : s.closer = .parked) :
    s.wakeup = { s with co := none, closer := .woken } := by
  simp only [State.wakeup, hco, hcloser, Closer.wake]

theorem co_cases (s : State Err) : s.co = none ∨ s.co = some .reader ∨ s.co = some .closer := by
  rcases s.co with _ | _ | _ <;> simp

/-- Whoever waits is woken when the connection ends. -/
theorem Inv.disconnect (h : Inv s) (connecting : Connecting Err) {pooled : Bool}
    (hpooled : pooled = true → s.pooled = true) :
    Inv (State.wakeup { s with connected := false, connecting, pooled }) := by
  obtain hco | hco | hco := co_cases s
  · rw [wakeup_none { s with connected := false, connecting, pooled } hco]
    have hparked : s.closer ≠ .parked := by
      intro hparked
      rw [h.parked.2 hparked] at hco
      cases hco
    refine ⟨h.kept, fun hidle => ⟨(h.idle hidle).co, nofun, (h.idle hidle).closer⟩, ?_, ?_,
      h.parked, fun hown => absurd hown hparked, h.behind, fun hc hp => h.closing hc (hpooled hp),
      nofun, h.running, fun hpause hp => h.stopped hpause (hpooled hp)⟩
    · rintro op paused hreader
      rw [(h.waiting op paused hreader).co] at hco
      cases hco
    · rintro op paused hreader
      have hwoken := h.woken op paused hreader
      exact ⟨hwoken.co, hwoken.proper, nofun, hwoken.paused, hwoken.closer⟩
  · obtain ⟨op, paused, hreader⟩ := h.co_reader hco
    rw [wakeup_reader { s with connected := false, connecting, pooled } hco hreader]
    exact h.wake_reader hreader h.kept nofun hpooled
  · have hidle := h.co_closer hco
    have hparked := h.parked.1 hco
    rw [wakeup_closer { s with connected := false, connecting, pooled } hco hparked]
    refine ⟨h.kept, fun _ => ⟨nofun, nofun, nofun⟩, ?_, ?_, ⟨nofun, nofun⟩, nofun, nofun, ?_,
      nofun, h.running, fun _ _ => nofun⟩
    · rintro op paused hreader
      rw [show s.reader = .parked op paused from hreader] at hidle
      cases hidle
    · rintro op paused hreader
      rw [show s.reader = .woken op paused from hreader] at hidle
      cases hidle
    · intro hclosing hp
      have hbehind := h.closing hclosing (hpooled hp)
      rw [hparked] at hbehind
      rcases hbehind with hbehind | hbehind <;> cases hbehind

theorem onClose_inv (h : Inv s) : Inv s.onClose := by
  rw [State.onClose]
  split
  · exact h.disconnect s.connecting id
  · exact h

theorem onError_inv (h : Inv s) (err : Err) : Inv (s.onError err) := by
  rw [State.onError]
  split
  · exact h.disconnect _ id
  · exact h

theorem wakeup_pooled (s : State Err) (pooled : Bool) :
    { s.wakeup with pooled } = State.wakeup { s with pooled } := by
  cases hco : s.co with
  | none => simp only [State.wakeup, hco]
  | some party => cases party <;> simp only [State.wakeup, hco]

theorem abandon_inv (h : Inv s) : Inv s.abandon := by
  rw [State.abandon]
  split
  · rw [wakeup_pooled]
    exact h.disconnect s.connecting nofun
  · exact h

theorem onConnect_inv (h : Inv s)
    (hopening : s.connected = false → s.reader = .parked .connect false) : Inv s.onConnect := by
  rw [State.onConnect]
  split
  · rename_i hconnect
    have hreader := hopening hconnect.2
    have hwaiting := h.waiting _ _ hreader
    have hrequired : s.readRequired = .none := by
      rcases hwaiting.asked with hasked | hasked
      · exact hasked.1
      · exact hasked.1
    rw [wakeup_reader { s with connected := true } hwaiting.co hreader]
    exact h.wake_reader hreader h.kept (fun _ => ⟨hrequired, trivial, hwaiting.opening rfl⟩) id
  · exact h

theorem Quiet.reader (hquiet : s.Quiet) :
    s.reader = .idle ∨ ∃ op paused, s.reader = .parked op paused := by
  cases hreader : s.reader with
  | idle => exact Or.inl rfl
  | parked op paused => exact Or.inr ⟨op, paused, rfl⟩
  | woken op paused => exact absurd hreader (hquiet.1 op paused)

theorem onYielded_inv (h : Inv s) (hquiet : s.Quiet) (hpos : 0 < s.yielded) : Inv s.onYielded := by
  rcases Quiet.reader hquiet with hidle | ⟨op, paused, hreader⟩
  · have hconnected : s.connected ≠ true := by
      intro hconnected
      obtain ⟨-, op, paused, hreader, -⟩ := h.yields hconnected hpos
      rw [hidle] at hreader
      cases hreader
    have hco : s.co = none := by
      obtain hco | hco | hco := co_cases s
      · exact hco
      · exact absurd hco (h.idle hidle).co
      · exact absurd (h.own (h.parked.1 hco)) hconnected
    rw [State.onYielded, wakeup_none { s with yielded := s.yielded - 1 } hco]
    exact h.idle_update hidle h.kept (fun hc => absurd hc hconnected) h.running fun _ => rfl
  · have hwaiting := h.waiting _ _ hreader
    rw [State.onYielded, wakeup_reader { s with yielded := s.yielded - 1 } hwaiting.co hreader]
    refine h.wake_reader hreader h.kept (fun hc => ?_) id
    obtain ⟨hone, -, -, -, hrequired⟩ := h.yields hc hpos
    have hzero : s.yielded - 1 = 0 := by omega
    refine ⟨hrequired, ?_, hzero⟩
    rcases hwaiting.asked with ⟨hasked, -⟩ | ⟨-, -, hgets, -⟩
    · rw [hrequired] at hasked
      cases op with
      | connect => trivial
      | _ => cases hasked
    · exact hgets

/-- The buffer has what the reader waits for. -/
theorem serve_waiting (h : Inv s) (hreader : s.reader = .parked op paused) {buffer : SocketBuffer}
    (hkept : buffer.Kept) (hgets : op.Gets buffer.view) (hop : op ≠ .connect)
    (hrequired : s.readRequired ≠ .none) : Inv (State.serve { s with buffer }) := by
  have hwaiting := h.waiting _ _ hreader
  have hnone : s.yielded = 0 := by
    by_contra hpos
    obtain ⟨-, -, -, -, hrr⟩ := h.yields (hwaiting.connected.2 hop) (by omega)
    exact hrequired hrr
  have hwake : Inv (State.wakeup { s with buffer, readRequired := .none }) := by
    rw [wakeup_reader { s with buffer, readRequired := .none } hwaiting.co hreader]
    exact h.wake_reader hreader hkept (fun _ => ⟨rfl, hgets, hnone⟩) id
  simp only [State.serve, State.pauseSocket]
  split
  · by_cases hpause : s.pause = none
    · rw [if_pos hpause]
      refine ⟨hkept, ?_, ?_, ?_, h.parked, h.own, h.behind, h.closing, ?_, nofun, nofun⟩
      · intro hidle
        rw [show s.reader = .idle from hidle] at hreader
        cases hreader
      · rintro op' paused' hreader'
        rw [show s.reader = .parked op' paused' from hreader'] at hreader
        cases hreader
        exact ⟨hwaiting.pooled, hwaiting.connected, hwaiting.co, hwaiting.proper,
          Or.inr ⟨rfl, Nat.succ_pos _, hgets, hop⟩, Or.inr (Or.inl (Nat.succ_pos _)),
          fun hp => absurd hpause (hwaiting.paused hp).2, hwaiting.closer,
          fun hconnect => absurd hconnect hop⟩
      · rintro op' paused' hwoken
        rw [show s.reader = .woken op' paused' from hwoken] at hreader
        cases hreader
      · intro _ _
        exact ⟨congrArg (· + 1) hnone, op, paused, hreader, rfl⟩
    · rw [if_neg hpause]
      exact hwake
  · exact hwake

/-- What is left of a request after the connection ended wakes nobody. -/
theorem serve_idle (h : Inv s) (hidle : s.reader = .idle) {buffer : SocketBuffer}
    (hkept : buffer.Kept) (hrequired : s.readRequired ≠ .none) :
    Inv (State.serve { s with buffer }) := by
  have hconnected : s.connected ≠ true := fun hc => hrequired ((h.idle hidle).asked hc)
  have hco : s.co = none := by
    obtain hco | hco | hco := co_cases s
    · exact hco
    · exact absurd hco (h.idle hidle).co
    · exact absurd (h.own (h.parked.1 hco)) hconnected
  have hwake : Inv (State.wakeup { s with buffer, readRequired := .none }) := by
    rw [wakeup_none { s with buffer, readRequired := .none } hco]
    exact h.idle_update hidle hkept (fun hc => absurd hc hconnected) h.running fun _ => rfl
  simp only [State.serve, State.pauseSocket]
  split
  · by_cases hpause : s.pause = none
    · rw [if_pos hpause]
      exact h.idle_update hidle hkept (fun hc => absurd hc hconnected) nofun nofun
    · rw [if_neg hpause]
      exact hwake
  · exact hwake

/-- Data that answers nothing; pausing is for `readall` and for a reader about to be woken. -/
theorem keep_waiting (h : Inv s) (hreader : s.reader = .parked op paused) {buffer : SocketBuffer}
    (hkept : buffer.Kept) (hview : s.buffer.view <+: buffer.view)
    (hasked : (s.readRequired = op.required ∧ (op = .all ∨ op = .connect)) ∨
      (s.readRequired = .none ∧ 0 < s.yielded ∧ op.Gets buffer.view ∧ op ≠ .connect)) :
    Inv (State.keep { s with buffer }) := by
  have hwaiting := h.waiting _ _ hreader
  have hasked' (closeSent : Bool) : (s.readRequired = op.required ∧
        (op.Unmet buffer.view ∨ closeSent = true)) ∨
      (s.readRequired = .none ∧ 0 < s.yielded ∧ op.Gets buffer.view ∧ op ≠ .connect) := by
    rcases hasked with ⟨hrequired, rfl | rfl⟩ | hrest
    · exact Or.inl ⟨hrequired, Or.inl trivial⟩
    · exact Or.inl ⟨hrequired, Or.inl trivial⟩
    · exact Or.inr hrest
  have hreading : s.reading = true ∨ 0 < s.yielded ∨
      (op = .all ∨ op = .connect) ∧ BUFFER_LIMIT < buffer.view.length := by
    rcases hwaiting.reading with hreading | hreading | ⟨hop, hlimit⟩
    · exact Or.inl hreading
    · exact Or.inr (Or.inl hreading)
    · exact Or.inr (Or.inr ⟨hop, hlimit.trans_le hview.length_le⟩)
  have hstay (closeSent : Bool) : Inv { s with buffer, closeSent } :=
    h.parked_update hreader hkept (hasked' closeSent) hreading hwaiting.paused h.running
      fun _ => rfl
  rw [State.keep]
  split
  · exact hstay true
  · split
    · rename_i hlimit
      by_cases hpause : s.pause = none
      · rw [State.pauseSocket, if_pos hpause, Option.getD_some]
        refine h.parked_update hreader hkept (hasked' s.closeSent) ?_
          (fun hp => absurd hpause (hwaiting.paused hp).2) nofun nofun
        have hlength : BUFFER_LIMIT < buffer.view.length := by
          rw [← hkept.size]
          exact hlimit.1
        rcases hasked with hop | hpos
        · exact Or.inr (Or.inr ⟨hop.2, hlength⟩)
        · exact Or.inr (Or.inl hpos.2.1)
      · rw [State.pauseSocket, if_neg hpause, Option.getD_none]
        exact hstay s.closeSent
    · exact hstay s.closeSent

theorem keep_idle (h : Inv s) (hidle : s.reader = .idle) {buffer : SocketBuffer}
    (hkept : buffer.Kept) : Inv (State.keep { s with buffer }) := by
  have hasked := fun hc => And.intro ((h.idle hidle).asked hc) (Eq.refl s.yielded)
  have hstay (closeSent : Bool) : Inv { s with buffer, closeSent } :=
    h.idle_update hidle hkept hasked h.running fun _ => rfl
  rw [State.keep]
  split
  · exact hstay true
  · split
    · by_cases hpause : s.pause = none
      · rw [State.pauseSocket, if_pos hpause, Option.getD_some]
        exact h.idle_update hidle hkept hasked nofun nofun
      · rw [State.pauseSocket, if_neg hpause, Option.getD_none]
        exact hstay s.closeSent
    · exact hstay s.closeSent

theorem onData_idle (h : Inv s) (hidle : s.reader = .idle) {msg : Bytes} (hmsg : msg ≠ []) :
    ∃ t, s.onData msg = some t ∧ Inv t := by
  obtain ⟨hkept, -⟩ := SocketBuffer.push_spec h.kept hmsg
  have hasked := fun hc => And.intro ((h.idle hidle).asked hc) (Eq.refl s.yielded)
  have hstay (closeSent : Bool) : Inv { s with buffer := s.buffer.push msg, closeSent } :=
    h.idle_update hidle hkept hasked h.running fun _ => rfl
  rw [State.onData]
  by_cases hpooled : s.pooled = true
  · rw [if_pos hpooled]
    dsimp only
    split
    · rename_i n hrequired
      refine ⟨_, rfl, ?_⟩
      split
      · exact serve_idle h hidle hkept (by rw [hrequired]; nofun)
      · exact hstay s.closeSent
    · rename_i sep hrequired
      split
      · exact ⟨_, rfl, hstay true⟩
      · have hline := SocketBuffer.findline_isSome hkept sep
        obtain ⟨found, hfound⟩ := Option.isSome_iff_exists.1 hline
        rw [hfound, Option.map_some]
        refine ⟨_, rfl, ?_⟩
        split
        · exact serve_idle h hidle hkept (by rw [hrequired]; nofun)
        · exact hstay s.closeSent
    · exact ⟨_, rfl, keep_idle h hidle hkept⟩
  · rw [if_neg hpooled]
    exact ⟨s, rfl, h⟩

theorem onData_keep (hpooled : s.pooled = true) (msg : Bytes)
    (hrequired : s.readRequired = .none ∨ s.readRequired = .all) :
    s.onData msg = some (State.keep { s with buffer := s.buffer.push msg }) := by
  rcases hrequired with hrequired | hrequired <;>
    simp only [State.onData, if_pos hpooled, hrequired]

theorem onData_size (hpooled : s.pooled = true) (msg : Bytes) {n : ℕ}
    (hrequired : s.readRequired = .size n) :
    s.onData msg = some (if (s.buffer.push msg).size ≥ n then
        State.serve { s with buffer := s.buffer.push msg }
      else { s with buffer := s.buffer.push msg }) := by
  simp only [State.onData, if_pos hpooled, hrequired]

theorem onData_line (hpooled : s.pooled = true) (msg : Bytes) {sep : Bytes}
    (hrequired : s.readRequired = .line sep) (hkept : (s.buffer.push msg).Kept) (hsep : sep ≠ []) :
    s.onData msg = some (
      if State.overflows { s with buffer := s.buffer.push msg } then
        { s with buffer := s.buffer.push msg, closeSent := true }
      else if (cut sep (s.buffer.push msg).view).isSome then
        State.serve { s with buffer := s.buffer.push msg }
      else { s with buffer := s.buffer.push msg }) := by
  simp only [State.onData, if_pos hpooled, hrequired]
  split
  · rfl
  · rw [SocketBuffer.findline_eq hkept hsep, Option.map_some, Option.isSome_map]

/-- Data wakes the reader as soon as the buffer has what it waits for. -/
theorem onData_waiting (h : Inv s) (hreader : s.reader = .parked op paused) {msg : Bytes}
    (hmsg : msg ≠ []) : ∃ t, s.onData msg = some t ∧ Inv t := by
  have hwaiting := h.waiting _ _ hreader
  have hpooled := hwaiting.pooled
  obtain ⟨hkept, hview⟩ := SocketBuffer.push_spec h.kept hmsg
  have hprefix : s.buffer.view <+: (s.buffer.push msg).view := by
    rw [hview]
    exact List.prefix_append ..
  have hserve (hrequired : s.readRequired ≠ .none) (hop : op ≠ .connect)
      (hgets : op.Gets (s.buffer.push msg).view) :
      Inv (State.serve { s with buffer := s.buffer.push msg }) :=
    serve_waiting h hreader hkept hgets hop hrequired
  have hstay (hall : op ≠ .all) (hop : op ≠ .connect) (hrequired : s.readRequired = op.required)
      {closeSent : Bool} (hunmet : op.Unmet (s.buffer.push msg).view ∨ closeSent = true) :
      Inv { s with buffer := s.buffer.push msg, closeSent } := by
    refine h.parked_update hreader hkept (Or.inl ⟨hrequired, hunmet⟩) ?_ hwaiting.paused h.running
      fun _ => rfl
    rcases hwaiting.reading with hreading | hreading | ⟨hop', -⟩
    · exact Or.inl hreading
    · exact Or.inr (Or.inl hreading)
    · exact absurd hop' (not_or.2 ⟨hall, hop⟩)
  rcases hwaiting.asked with ⟨hrequired, -⟩ | ⟨hrequired, hpos, hgets, hop⟩
  · cases op with
    | connect =>
      rw [onData_keep hpooled msg (Or.inl hrequired)]
      exact ⟨_, rfl, keep_waiting h hreader hkept hprefix (Or.inl ⟨hrequired, Or.inr rfl⟩)⟩
    | all =>
      rw [onData_keep hpooled msg (Or.inr hrequired)]
      exact ⟨_, rfl, keep_waiting h hreader hkept hprefix (Or.inl ⟨hrequired, Or.inl rfl⟩)⟩
    | some =>
      rw [onData_size hpooled msg hrequired, if_pos (Nat.zero_le _)]
      refine ⟨_, rfl, hserve (by rw [hrequired]; nofun) nofun ?_⟩
      rw [hview]
      exact fun hempty => hmsg (List.append_eq_nil_iff.1 hempty).2
    | block =>
      rw [onData_size hpooled msg hrequired, if_pos (Nat.zero_le _)]
      exact ⟨_, rfl, hserve (by rw [hrequired]; nofun) nofun trivial⟩
    | size n =>
      rw [onData_size hpooled msg hrequired, hkept.size]
      refine ⟨_, rfl, ?_⟩
      split
      · rename_i hfits
        exact hserve (by rw [hrequired]; nofun) nofun hfits
      · rename_i hshort
        exact hstay nofun nofun hrequired (Or.inl (Nat.not_le.1 hshort))
    | line sep =>
      have hsep : sep ≠ [] := hwaiting.proper.resolve_left nofun
      rw [onData_line hpooled msg hrequired hkept hsep]
      refine ⟨_, rfl, ?_⟩
      split
      · exact hstay nofun nofun hrequired (Or.inr rfl)
      · split
        · rename_i hfound
          exact hserve (by rw [hrequired]; nofun) nofun hfound
        · rename_i hmissing
          exact hstay nofun nofun hrequired (Or.inl (Option.not_isSome_iff_eq_none.1 hmissing))
  · rw [onData_keep hpooled msg (Or.inl hrequired)]
    refine ⟨_, rfl, keep_waiting h hreader hkept hprefix (Or.inr ⟨hrequired, hpos, ?_, hop⟩)⟩
    rw [hview]
    exact hgets.append msg

/-- Reads and limits are for a socket in the pool; a read begins to wait only while nobody closes
the socket, the socket is not closed while it is being connected, and it is not paused from
elsewhere under a waiting reader. -/
def Orderly (s : State Err) : Event Err → Prop
  | .call op => s.pooled = true ∧ (s.closer = .idle ∨ ¬ s.Waits op)
  | .limit _ => s.pooled = true
  | .close => ∀ paused, s.reader ≠ .parked .connect paused
  | .pause => ∀ op paused, s.reader ≠ .parked op paused
  | _ => True

theorem await_inv (h : Inv s) (hidle : s.reader = .idle) (hpooled : s.pooled = true)
    (hop : op.Proper) (hcloser : s.closer = .idle) (hwaits : s.Waits op) :
    ∃ t a, s.await op = some (t, a) ∧ Inv t := by
  have hnone : s.yielded ≠ 0 → s.connected ≠ true := by
    intro hpos hconnected
    obtain ⟨-, op, paused, hreader, -⟩ := h.yields hconnected (by omega)
    rw [hidle] at hreader
    cases hreader
  have hco : s.co = none := by
    obtain hco | hco | hco := co_cases s
    · exact hco
    · exact absurd hco (h.idle hidle).co
    · rw [h.parked.1 hco] at hcloser
      cases hcloser
  have hproper : op ≠ .connect := by
    rintro rfl
    exact hop
  have hreading : (s.reading || decide (s.pause = some true)) = true := by
    rcases hpause : s.pause with _ | _ | _
    · rw [h.running hpause]
      rfl
    · exact absurd hcloser (h.stopped hpause hpooled)
    · exact Bool.or_true _
  rw [State.await, if_pos ⟨(h.idle hidle).asked hwaits.1, hco⟩]
  refine ⟨_, _, rfl, h.kept, nofun, ?_, nofun, ?_, ?_, ?_, ?_, ?_, fun _ => hreading, h.stopped⟩
  · rintro op' paused' hreader
    cases hreader
    refine ⟨hpooled, iff_of_true hwaits.1 hproper, rfl, Or.inr hop,
      Or.inl ⟨rfl, Or.inl hwaits.2⟩, Or.inl hreading, fun hp => ⟨hreading, ?_⟩, Or.inl hcloser,
      fun hconnect => absurd hconnect hproper⟩
    intro hpause
    have hpause' : s.pause = none := hpause
    simp [hpause'] at hp
  · rw [hcloser]
    exact ⟨nofun, nofun⟩
  · intro hparked
    rw [hcloser] at hparked
    cases hparked
  · intro hbehind
    rw [hcloser] at hbehind
    cases hbehind
  · exact h.closing
  · intro hconnected hpos
    exact absurd hconnected (hnone (Nat.pos_iff_ne_zero.1 hpos))

theorem call_inv (h : Inv s) (hidle : s.reader = .idle) (hpooled : s.pooled = true)
    (hop : op.Proper) (horderly : s.closer = .idle ∨ ¬ s.Waits op) :
    ∃ t a, s.call op = some (t, a) ∧ Inv t := by
  have hasked := fun hc => And.intro ((h.idle hidle).asked hc) (Eq.refl s.yielded)
  obtain ⟨buffer, hkept, ⟨hwaits, hview, hcall⟩ | ⟨-, a, -, hcall⟩⟩ :=
    State.call_cases h.kept hop
  · have hinv : Inv { s with buffer } :=
      h.idle_update hidle hkept hasked h.running fun _ => rfl
    rw [hcall]
    refine await_inv hinv hidle hpooled hop (horderly.resolve_right (not_not.2 hwaits)) ?_
    exact ⟨hwaits.1, hview ▸ hwaits.2⟩
  · exact ⟨_, _, hcall, h.idle_update hidle hkept hasked h.running fun _ => rfl⟩

theorem leave_closer (h : Inv s) (hwoken : Woken s op paused) :
    (s.leave paused).closer = .idle ∧ s.closer = .idle ∨
      (s.leave paused).closer = .behindWoken ∧ s.closer = .behind := by
  simp only [State.leave]
  rcases hwoken.closer with hcloser | hcloser
  · refine Or.inl ⟨?_, hcloser⟩
    rw [hcloser]
    split <;> rfl
  · refine Or.inr ⟨?_, hcloser⟩
    rw [if_pos (h.behind hcloser), hcloser]
    rfl

theorem leave_inv (h : Inv s) (hreader : s.reader = .woken op paused) : Inv (s.leave paused) := by
  have hwoken := h.woken _ _ hreader
  have hco (party : Party) : s.co ≠ some party := by
    intro hparty
    have hnone := hwoken.co
    rw [hparty] at hnone
    cases hnone
  have hyields (hconnected : s.connected = true) : ¬ 0 < s.yielded := by
    intro hpos
    obtain ⟨-, op', paused', hparked, -⟩ := h.yields hconnected hpos
    rw [hreader] at hparked
    cases hparked
  have hrunning (hpause : (s.leave paused).pause = none) : s.reading = true := by
    cases paused with
    | true => exact hwoken.paused rfl
    | false => exact h.running hpause
  have hstopped (hpause : (s.leave paused).pause = some false) : s.pause = some false := by
    cases paused with
    | true => cases hpause
    | false => exact hpause
  rcases leave_closer h hwoken with ⟨hcloser, hbefore⟩ | ⟨hcloser, hbefore⟩
  · refine ⟨h.kept, fun _ => ⟨hco _, fun hc => (hwoken.gets hc).1, ?_⟩, nofun, nofun,
      iff_of_false (hco _) ?_, ?_, ?_, ?_, fun hc hpos => absurd hpos (hyields hc), hrunning,
      fun hpause hp => absurd hbefore (h.stopped (hstopped hpause) hp)⟩
    · rw [hcloser]
      nofun
    · rw [hcloser]
      nofun
    · rw [hcloser]
      nofun
    · rw [hcloser]
      nofun
    · intro hclosing hpooled
      have hbehind := h.closing hclosing hpooled
      rw [hbefore] at hbehind
      rcases hbehind with hbehind | hbehind <;> cases hbehind
  · refine ⟨h.kept, fun _ => ⟨hco _, fun hc => (hwoken.gets hc).1, ?_⟩, nofun, nofun,
      iff_of_false (hco _) ?_, ?_, ?_, fun _ _ => Or.inr hcloser,
      fun hc hpos => absurd hpos (hyields hc), hrunning, fun _ _ => ?_⟩
    all_goals
      rw [hcloser]
      nofun

theorem Inv.idle_pooled (h : Inv s) (hidle : s.reader = .idle) {connecting : Connecting Err}
    {pooled : Bool} (hpooled : pooled = true → s.pooled = true) :
    Inv { s with connecting, pooled } := by
  refine ⟨h.kept, fun hreader => ⟨(h.idle hreader).co, (h.idle hreader).asked,
    (h.idle hreader).closer⟩, ?_, ?_, h.parked, h.own, h.behind,
    fun hclosing hp => h.closing hclosing (hpooled hp), h.yields, h.running,
    fun hpause hp => h.stopped hpause (hpooled hp)⟩
  · rintro op paused hreader
    rw [show s.reader = .parked op paused from hreader] at hidle
    cases hidle
  · rintro op paused hreader
    rw [show s.reader = .woken op paused from hreader] at hidle
    cases hidle

/-- A woken read answers; if the connection is still open, with all it asked for. -/
theorem resume_inv (h : Inv s) (hreader : s.reader = .woken op paused) :
    ∃ t a, s.resume = some (t, some a) ∧ Inv t ∧
      gave (some a) ++ t.buffer.view = s.buffer.view ∧ (t.pooled = true → s.pooled = true) ∧
      (s.connected = true → op.Full a) := by
  have hwoken := h.woken _ _ hreader
  have hleave := leave_inv h hreader
  have hasked := fun hc => And.intro ((hleave.idle rfl).asked hc) (Eq.refl s.yielded)
  have hall : op = .all → (s.leave paused).connected = false := by
    rintro rfl
    rw [← Bool.not_eq_true]
    exact fun hc => (hwoken.gets hc).2
  obtain ⟨buffer, connecting, pooled, a, hanswer, hkept, hgave, -, hpooled, hfull⟩ :=
    State.answer_cases (s := s.leave paused) hleave.kept hwoken.proper hall
  have hresume : s.resume = (s.leave paused).answer op := by
    rw [State.resume, hreader]
  have hbuffer : Inv { s.leave paused with buffer } :=
    hleave.idle_update rfl hkept hasked hleave.running fun _ => rfl
  exact ⟨_, a, hresume.trans hanswer, hbuffer.idle_pooled rfl hpooled, hgave, hpooled,
    fun hc => hfull hc (hwoken.gets hc).2⟩

theorem close_idle (h : Inv s) (hidle : s.reader = .idle) (hclosing : s.closing ≠ true)
    (hconnected : s.connected = true) :
    Inv { s with
      closeSent := true
      pause := some false
      co := some .closer
      closer := .parked } := by
  refine ⟨h.kept, fun _ => ⟨nofun, (h.idle hidle).asked, nofun⟩, ?_, ?_, iff_of_true rfl rfl,
    fun _ => hconnected, nofun, fun hc => absurd hc hclosing, ?_, nofun, fun _ _ => nofun⟩
  · rintro op paused hreader
    rw [show s.reader = .parked op paused from hreader] at hidle
    cases hidle
  · rintro op paused hreader
    rw [show s.reader = .woken op paused from hreader] at hidle
    cases hidle
  · exact h.yields

theorem close_behind (h : Inv s) (hreader : s.reader = .parked op paused) :
    Inv { s with closeSent := true, pause := some false, closing := true, closer := .behind } := by
  have hwaiting := h.waiting _ _ hreader
  refine ⟨h.kept, ?_, ?_, ?_, ?_, nofun, fun _ => rfl, fun _ _ => Or.inl rfl, h.yields, nofun,
    fun _ _ => nofun⟩
  · intro hidle
    rw [show s.reader = .idle from hidle] at hreader
    cases hreader
  · rintro op' paused' hreader'
    rw [show s.reader = .parked op' paused' from hreader'] at hreader
    cases hreader
    refine ⟨hwaiting.pooled, hwaiting.connected, hwaiting.co, hwaiting.proper, ?_, hwaiting.reading,
      fun hp => ⟨(hwaiting.paused hp).1, nofun⟩, Or.inr rfl, hwaiting.opening⟩
    rcases hwaiting.asked with ⟨hrequired, -⟩ | hrest
    · exact Or.inl ⟨hrequired, Or.inr rfl⟩
    · exact Or.inr hrest
  · rintro op' paused' hwoken
    rw [show s.reader = .woken op' paused' from hwoken] at hreader
    cases hreader
  · refine iff_of_false (fun hco => ?_) nofun
    have hreader' := hwaiting.co
    rw [show s.co = some .closer from hco] at hreader'
    cases hreader'

theorem close_ended (h : Inv s) (hreader : ∀ op paused, s.reader ≠ .parked op paused) :
    Inv { s with closeSent := true, pooled := false } := by
  refine ⟨h.kept, fun hidle => ⟨(h.idle hidle).co, (h.idle hidle).asked, (h.idle hidle).closer⟩,
    fun op paused hparked => absurd hparked (hreader op paused), ?_, h.parked, h.own, h.behind,
    nofun, h.yields, h.running, nofun⟩
  rintro op paused hwoken
  have hrest := h.woken op paused hwoken
  exact ⟨hrest.co, hrest.proper, hrest.gets, hrest.paused, hrest.closer⟩

theorem close_inv (h : Inv s) (hcloser : s.closer = .idle) (hquiet : s.connected = false ∨ s.Quiet)
    (hconnect : ∀ paused, s.reader ≠ .parked .connect paused) : ∃ t, s.close = some t ∧ Inv t := by
  have hclosing (hpooled : s.pooled = true) : s.closing ≠ true := by
    intro hclosing
    have hbehind := h.closing hclosing hpooled
    rw [hcloser] at hbehind
    rcases hbehind with hbehind | hbehind <;> cases hbehind
  by_cases hpooled : s.pooled = true
  · by_cases hconnected : s.connected = true
    · have hquiet' := hquiet.resolve_left (by simp [hconnected])
      rcases Quiet.reader hquiet' with hidle | ⟨op, paused, hreader⟩
      · have hco : s.co = none := by
          obtain hco | hco | hco := co_cases s
          · exact hco
          · exact absurd hco (h.idle hidle).co
          · rw [h.parked.1 hco] at hcloser
            cases hcloser
        refine ⟨_, ?_, close_idle h hidle (hclosing hpooled) hconnected⟩
        simp only [State.close, if_pos hpooled, if_pos hconnected, hco]
      · refine ⟨_, ?_, close_behind h hreader⟩
        simp only [State.close, if_pos hpooled, if_pos hconnected, (h.waiting _ _ hreader).co]
        rw [if_neg (hclosing hpooled)]
    · refine ⟨_, ?_, close_ended h ?_⟩
      · simp only [State.close, if_pos hpooled, if_neg hconnected]
      · rintro op paused hreader
        have hop : op = .connect := by
          by_contra hop
          exact hconnected ((h.waiting _ _ hreader).connected.2 hop)
        subst hop
        exact hconnect paused hreader
  · refine ⟨s, ?_, h⟩
    rw [State.close, if_neg hpooled]

theorem closed_inv (h : Inv s) (hcloser : s.closer = .woken ∨ s.closer = .behindWoken)
    (hreader : ∀ op paused, s.reader ≠ .woken op paused) : Inv s.closed := by
  have hparked : s.closer ≠ .parked := by
    rcases hcloser with hcloser | hcloser <;> rw [hcloser] <;> nofun
  have hidle : s.reader = .idle := by
    cases hreader' : s.reader with
    | idle => rfl
    | parked op paused =>
      rcases hcloser with hcloser | hcloser <;>
        rcases (h.waiting op paused hreader').closer with hwaiting | hwaiting <;>
          rw [hcloser] at hwaiting <;> cases hwaiting
    | woken op paused => exact absurd hreader' (hreader op paused)
  refine ⟨h.kept, fun _ => ⟨(h.idle hidle).co, nofun, nofun⟩, ?_, ?_,
    iff_of_false (fun hco => hparked (h.parked.1 hco)) nofun, nofun, nofun, nofun, nofun, h.running,
    nofun⟩
  · rintro op paused hreader'
    rw [show s.reader = .parked op paused from hreader'] at hidle
    cases hidle
  · exact fun op paused hwoken => absurd hwoken (hreader op paused)

theorem pauseCall_inv (h : Inv s) (hidle : s.reader = .idle) : Inv s.pauseCall := by
  have hasked := fun hc => And.intro ((h.idle hidle).asked hc) (Eq.refl s.yielded)
  rw [State.pauseCall]
  split
  · by_cases hpause : s.pause = none
    · rw [State.pauseSocket, if_pos hpause]
      exact h.idle_update hidle h.kept hasked nofun nofun
    · rw [State.pauseSocket, if_neg hpause]
      exact h
  · exact h

theorem limit_inv (h : Inv s) (hquiet : s.Quiet) (n : Option ℕ) :
    Inv { s with bufferLimit := n } := by
  rcases Quiet.reader hquiet with hidle | ⟨op, paused, hreader⟩
  · have hasked := fun hc => And.intro ((h.idle hidle).asked hc) (Eq.refl s.yielded)
    exact h.idle_update hidle h.kept hasked h.running fun _ => rfl
  · have hwaiting := h.waiting _ _ hreader
    exact h.parked_update hreader h.kept hwaiting.asked hwaiting.reading hwaiting.paused h.running
      fun _ => rfl

/-- No assertion fails, and the invariant is kept. -/
theorem step_inv (h : Inv s) {e : Event Err} (henabled : Enabled s e) (horderly : Orderly s e) :
    ∃ t a, step s e = some (t, a) ∧ Inv t := by
  cases e with
  | data msg =>
    have hdata : ∃ t, s.onData msg = some t ∧ Inv t := by
      rcases Quiet.reader henabled.1 with hidle | ⟨op, paused, hreader⟩
      · exact onData_idle h hidle henabled.2
      · exact onData_waiting h hreader henabled.2
    obtain ⟨t, hstep, hinv⟩ := hdata
    exact ⟨t, none, by rw [step, hstep]; rfl, hinv⟩
  | connected => exact ⟨_, _, rfl, onConnect_inv h henabled.2⟩
  | closed => exact ⟨_, _, rfl, onClose_inv h⟩
  | error err => exact ⟨_, _, rfl, onError_inv h err⟩
  | yielded => exact ⟨_, _, rfl, onYielded_inv h henabled.1 henabled.2⟩
  | call op =>
    obtain ⟨t, a, hcall, hinv⟩ := call_inv h henabled.1 horderly.1 henabled.2 horderly.2
    exact ⟨t, a, by rw [step, State.read, if_pos horderly.1, hcall], hinv⟩
  | resume =>
    obtain ⟨op, paused, hreader⟩ := henabled
    obtain ⟨t, a, hstep, hinv, -⟩ := resume_inv h hreader
    exact ⟨t, some a, hstep, hinv⟩
  | close =>
    obtain ⟨t, hstep, hinv⟩ := close_inv h henabled.1 henabled.2 horderly
    exact ⟨t, none, by rw [step, hstep]; rfl, hinv⟩
  | closeResume => exact ⟨_, _, rfl, closed_inv h henabled.1 henabled.2⟩
  | abandon => exact ⟨_, _, rfl, abandon_inv h⟩
  | pause =>
    refine ⟨_, _, rfl, pauseCall_inv h ?_⟩
    rcases Quiet.reader henabled with hidle | ⟨op, paused, hreader⟩
    · exact hidle
    · exact absurd hreader (horderly op paused)
  | limit n =>
    have hpooled : s.pooled = true := horderly
    refine ⟨_, none, ?_, limit_inv h henabled n⟩
    rw [step, State.limit, if_pos hpooled]
    rfl

/-- The steps of a socket whose coroutines keep out of each other's way. -/
def Orderlies : State Err → Event Err × Option (Answer Err) → State Err → Prop :=
  Guarded Step fun s l => Orderly s l.1

theorem orderlies_inv {ls : List (Event Err × Option (Answer Err))}
    (hrun : Run Orderlies State.opening ls s) : Inv s := by
  refine hrun.invariant ?_ opening_inv
  rintro u ⟨e, a⟩ v hu ⟨⟨henabled, hstep⟩, horderly⟩
  obtain ⟨t, b, hstep', hinv⟩ := step_inv hu henabled horderly
  rw [hstep', Option.some.injEq, Prod.mk.injEq] at hstep
  exact hstep.1 ▸ hinv

/-- What a state promises the reader and the closer. A read waits only while the buffer does not
answer it, on an open socket that is still read from; `readall` alone may be left on a paused
socket. What is woken while the socket is open gets all it asked for. No assertion fails. -/
structure NothingForgotten (s : State Err) : Prop where
  waiting : ∀ op paused, s.reader = .parked op paused →
    s.pooled = true ∧ (s.connected = true ∨ op = .connect) ∧
    (op.Unmet s.buffer.view ∨ s.closeSent = true ∨ 0 < s.yielded) ∧
    (s.reading = true ∨ 0 < s.yielded ∨
      (op = .all ∨ op = .connect) ∧ BUFFER_LIMIT < s.buffer.view.length)
  woken : ∀ op paused t a, s.reader = .woken op paused → s.connected = true →
    step s .resume = some (t, a) → ∃ b, a = some b ∧ op.Full b
  closing : s.closer = .parked → s.connected = true
  behind : s.closer = .behind → s.reader ≠ .idle
  asserts : ∀ e, Enabled s e → Orderly s e → (step s e).isSome

/-- Nothing is forgotten in any run of a socket whose coroutines keep out of each other's way. -/
theorem no_read_forgotten {ls : List (Event Err × Option (Answer Err))}
    (hrun : Run Orderlies State.opening ls s) : NothingForgotten s := by
  have hinv := orderlies_inv hrun
  refine ⟨fun op paused hreader => ?_, fun op paused t a hreader hconnected hstep => ?_, hinv.own,
    fun hbehind hidle => (hinv.idle hidle).closer hbehind, fun e henabled horderly => ?_⟩
  · have hwaiting := hinv.waiting op paused hreader
    refine ⟨hwaiting.pooled, ?_, ?_, hwaiting.reading⟩
    · by_cases hop : op = .connect
      · exact Or.inr hop
      · exact Or.inl (hwaiting.connected.2 hop)
    · rcases hwaiting.asked with ⟨-, hunmet | hsent⟩ | ⟨-, hpos, -⟩
      · exact Or.inl hunmet
      · exact Or.inr (Or.inl hsent)
      · exact Or.inr (Or.inr hpos)
  · obtain ⟨u, b, hresume, -, -, -, hfull⟩ := resume_inv hinv hreader
    rw [step, hresume, Option.some.injEq, Prod.mk.injEq] at hstep
    exact ⟨b, hstep.2.symm, hfull hconnected⟩
  · obtain ⟨t, a, hstep, -⟩ := step_inv hinv henabled horderly
    rw [hstep]
    rfl

/-- A socket that is open and whose reader waits for two bytes. -/
def awaitingTwo : State Unit :=
  { (State.opening : State Unit) with
    connected := true
    connecting := .no
    readRequired := .size 2
    reader := .parked (.size 2) false }

theorem awaitingTwo_reached : Run Orderlies (State.opening : State Unit)
    [(.connected, none), (.resume, some .opened), (.call (.size 2), none)] awaitingTwo := by
  refine Run.cons ⟨⟨⟨⟨nofun, nofun, nofun⟩, fun _ => rfl⟩, rfl⟩, trivial⟩ ?_
  refine Run.cons ⟨⟨⟨_, _, rfl⟩, rfl⟩, trivial⟩ ?_
  exact Run.single ⟨⟨⟨rfl, Nat.two_pos⟩, rfl⟩, rfl, Or.inl rfl⟩

/-- One of the two bytes has come. -/
theorem no_read_forgotten_two_bytes : ∃ (ls : List (Event Unit × Option (Answer Unit)))
    (s : State Unit), Run Orderlies State.opening ls s ∧ s.reader = .parked (.size 2) false ∧
      s.buffer.view = [1] ∧ NothingForgotten s := by
  have hrun := awaitingTwo_reached.append
    (Run.single ⟨⟨⟨⟨nofun, nofun, nofun⟩, nofun⟩, rfl⟩, trivial⟩ :
      Run Orderlies awaitingTwo [(.data [1], none)] _)
  exact ⟨_, _, hrun, rfl, rfl, no_read_forgotten hrun⟩

/-- The buffer is left alone, and a socket never comes back into the pool. -/
def Frame (s t : State Err) : Prop :=
  t.buffer = s.buffer ∧ (t.pooled = true → s.pooled = true)

theorem Frame.refl (s : State Err) : Frame s s := ⟨rfl, id⟩

theorem wakeup_frame (s : State Err) : Frame s s.wakeup := by
  obtain hco | hco | hco := co_cases s
  all_goals
    simp only [State.wakeup, hco]
    exact ⟨rfl, id⟩

theorem pauseSocket_frame (s : State Err) : Frame s (s.pauseSocket.getD s) := by
  rw [State.pauseSocket]
  split <;> exact ⟨rfl, id⟩

theorem serve_frame (s : State Err) : Frame s s.serve := by
  simp only [State.serve]
  split
  · by_cases hpause : s.pause = none
    · simp only [State.pauseSocket, if_pos hpause]
      exact ⟨rfl, id⟩
    · simp only [State.pauseSocket, if_neg hpause]
      exact wakeup_frame { s with readRequired := .none }
  · exact wakeup_frame { s with readRequired := .none }

theorem keep_frame (s : State Err) : Frame s s.keep := by
  rw [State.keep]
  split
  · exact ⟨rfl, id⟩
  · split
    · exact pauseSocket_frame s
    · exact Frame.refl s

/-- Data comes into the buffer of a socket that is in the pool. -/
theorem onData_frame {msg : Bytes} (h : s.onData msg = some t) :
    Frame (if s.pooled = true then { s with buffer := s.buffer.push msg } else s) t := by
  rw [State.onData] at h
  split at h
  · rename_i hpooled
    rw [if_pos hpooled]
    dsimp only at h
    split at h
    · cases h
      split
      · exact serve_frame _
      · exact Frame.refl _
    · split at h
      · cases h
        exact ⟨rfl, id⟩
      · obtain ⟨found, -, rfl⟩ := Option.map_eq_some_iff.1 h
        split
        · exact serve_frame _
        · exact Frame.refl _
    · cases h
      exact keep_frame _
  · rename_i hpooled
    cases h
    rw [if_neg hpooled]
    exact Frame.refl s

theorem close_frame (h : s.close = some t) : Frame s t := by
  simp only [State.close] at h
  split at h
  · split at h
    · split at h
      · split at h
        · cases h
        · cases h
          exact ⟨rfl, id⟩
      · cases h
        exact ⟨rfl, id⟩
    · cases h
      exact ⟨rfl, nofun⟩
  · cases h
    exact Frame.refl s

theorem onConnect_frame (s : State Err) : Frame s s.onConnect := by
  rw [State.onConnect]
  split
  · exact wakeup_frame { s with connected := true }
  · exact Frame.refl s

theorem onClose_frame (s : State Err) : Frame s s.onClose := by
  rw [State.onClose]
  split
  · exact wakeup_frame { s with connected := false }
  · exact Frame.refl s

theorem onError_frame (s : State Err) (err : Err) : Frame s (s.onError err) := by
  rw [State.onError]
  split
  · exact wakeup_frame { s with connecting := _, connected := false }
  · exact Frame.refl s

theorem abandon_frame (s : State Err) : Frame s s.abandon := by
  rw [State.abandon]
  split
  · exact ⟨(wakeup_frame { s with connected := false }).1, nofun⟩
  · exact Frame.refl s

theorem pauseCall_frame (s : State Err) : Frame s s.pauseCall := by
  rw [State.pauseCall]
  split
  · exact pauseSocket_frame s
  · exact Frame.refl s

theorem call_bytes (hkept : s.buffer.Kept) (hop : op.Proper) {a : Option (Answer Err)}
    (h : s.call op = some (t, a)) :
    gave a ++ t.buffer.view = s.buffer.view ∧ t.pooled = s.pooled := by
  obtain ⟨buffer, -, ⟨-, hview, hcall⟩ | ⟨-, b, hgave, hcall⟩⟩ := State.call_cases hkept hop
  · rw [hcall, State.await] at h
    split at h
    · cases h
      exact ⟨hview, rfl⟩
    · cases h
  · rw [hcall] at h
    cases h
    exact ⟨hgave, rfl⟩

theorem read_bytes (hkept : s.buffer.Kept) (hop : op.Proper) {a : Option (Answer Err)}
    (h : s.read op = some (t, a)) :
    gave a ++ t.buffer.view = s.buffer.view ∧ t.pooled = s.pooled := by
  rw [State.read] at h
  split at h
  · exact call_bytes hkept hop h
  · split at h
    · cases h
      exact ⟨rfl, rfl⟩
    · cases h

theorem limit_frame {n : Option ℕ} (h : s.limit n = some t) : Frame s t := by
  rw [State.limit] at h
  split at h
  · cases h
    exact ⟨rfl, id⟩
  · cases h

/-- The bytes that an event brings. -/
def brings : Event Err → Bytes
  | .data msg => msg
  | _ => []

/-- What a step gives away and what it leaves in the buffer are what was there and what came. -/
theorem step_bytes (h : Inv s) {e : Event Err} {a : Option (Answer Err)} (henabled : Enabled s e)
    (hstep : step s e = some (t, a)) :
    gave a ++ t.buffer.view = s.buffer.view ++ (if s.pooled = true then brings e else []) ∧
      (t.pooled = true → s.pooled = true) := by
  have hframe {u : State Err} (hu : Frame s u) :
      gave (none : Option (Answer Err)) ++ u.buffer.view =
          s.buffer.view ++ (if s.pooled = true then [] else []) ∧
        (u.pooled = true → s.pooled = true) := by
    rw [hu.1, ite_self, List.append_nil]
    exact ⟨rfl, hu.2⟩
  cases e with
  | data msg =>
    obtain ⟨u, hdata, heq⟩ := Option.map_eq_some_iff.1 hstep
    cases heq
    obtain ⟨hbuffer, hpooled⟩ := onData_frame hdata
    rw [hbuffer]
    by_cases hp : s.pooled = true
    · rw [if_pos hp, if_pos hp]
      exact ⟨(SocketBuffer.push_spec h.kept henabled.2).2, fun _ => hp⟩
    · rw [if_neg hp] at hpooled
      rw [if_neg hp, if_neg hp]
      exact ⟨(List.append_nil _).symm, hpooled⟩
  | call op =>
    obtain ⟨hgave, hpooled⟩ := read_bytes h.kept henabled.2 hstep
    refine ⟨?_, fun hp => hpooled ▸ hp⟩
    rw [hgave, brings, ite_self, List.append_nil]
    nofun
  | resume =>
    obtain ⟨op, paused, hreader⟩ := henabled
    obtain ⟨u, b, hresume, -, hgave, hpooled, -⟩ := resume_inv h hreader
    rw [step, hresume, Option.some.injEq, Prod.mk.injEq] at hstep
    obtain ⟨rfl, rfl⟩ := hstep
    refine ⟨?_, hpooled⟩
    rw [hgave, brings, ite_self, List.append_nil]
    nofun
  | close =>
    obtain ⟨u, hclose, heq⟩ := Option.map_eq_some_iff.1 hstep
    cases heq
    exact hframe (close_frame hclose)
  | closeResume =>
    cases hstep
    exact hframe ⟨rfl, nofun⟩
  | connected =>
    cases hstep
    exact hframe (onConnect_frame s)
  | closed =>
    cases hstep
    exact hframe (onClose_frame s)
  | error err =>
    cases hstep
    exact hframe (onError_frame s err)
  | yielded =>
    cases hstep
    exact hframe (wakeup_frame { s with yielded := s.yielded - 1 })
  | abandon =>
    cases hstep
    exact hframe (abandon_frame s)
  | pause =>
    cases hstep
    exact hframe (pauseCall_frame s)
  | limit n =>
    obtain ⟨u, hlimit, heq⟩ := Option.map_eq_some_iff.1 hstep
    cases heq
    exact hframe (limit_frame hlimit)

/-- What the reads return and what the buffer still has is what came, in order, up to the end of the
socket; nothing is lost, doubled or moved while it is in the pool. -/
theorem reads_spell {ls : List (Event Err × Option (Answer Err))}
    (hrun : Run Orderlies State.opening ls s) :
    ls.flatMap (fun l => gave l.2) ++ s.buffer.view <+: ls.flatMap (fun l => brings l.1) ∧
      (s.pooled = true →
        ls.flatMap (fun l => gave l.2) ++ s.buffer.view = ls.flatMap (fun l => brings l.1)) := by
  let spells : List (Event Err × Option (Answer Err)) → State Err → Prop := fun hist u =>
    Inv u ∧ hist.flatMap (fun l => gave l.2) ++ u.buffer.view <+:
        hist.flatMap (fun l => brings l.1) ∧
      (u.pooled = true →
        hist.flatMap (fun l => gave l.2) ++ u.buffer.view = hist.flatMap (fun l => brings l.1))
  have hspells : spells ([] ++ ls) s := by
    refine Run.invariant_history (I := spells) ?_ ⟨opening_inv, List.prefix_rfl, fun _ => rfl⟩ hrun
    rintro hist u ⟨e, a⟩ v ⟨hinv, hprefix, hall⟩ ⟨⟨henabled, hstep⟩, horderly⟩
    obtain ⟨w, b, hstep', hinv'⟩ := step_inv hinv henabled horderly
    have hsame : some (w, b) = some (v, a) := hstep'.symm.trans hstep
    cases hsame
    obtain ⟨hbytes, hpooled⟩ := step_bytes hinv henabled hstep
    simp only [spells, List.flatMap_append, List.flatMap_singleton]
    rw [List.append_assoc, hbytes, ← List.append_assoc]
    refine ⟨hinv', ?_, fun hp => ?_⟩
    · by_cases hp : u.pooled = true
      · rw [if_pos hp, hall hp]
      · rw [if_neg hp, List.append_nil]
        exact hprefix.trans (List.prefix_append ..)
    · rw [if_pos (hpooled hp), hall (hpooled hp)]
  exact hspells.2

/-- Three bytes come and two are read. -/
def threeBytes : List (Event Unit × Option (Answer Unit)) :=
  [(.data [1], none), (.data [2, 3], none), (.resume, some (.data [1, 2]))]

theorem reads_spell_two_bytes : ∃ (ls : List (Event Unit × Option (Answer Unit)))
    (s : State Unit), Run Orderlies State.opening (ls ++ threeBytes) s ∧ s.buffer.view = [3] ∧
      (ls ++ threeBytes).flatMap (fun l => gave l.2) ++ s.buffer.view <+:
        (ls ++ threeBytes).flatMap (fun l => brings l.1) ∧
      (s.pooled = true → (ls ++ threeBytes).flatMap (fun l => gave l.2) ++ s.buffer.view =
        (ls ++ threeBytes).flatMap (fun l => brings l.1)) := by
  obtain ⟨s, hrest, hview⟩ : ∃ s, Run Orderlies awaitingTwo threeBytes s ∧ s.buffer.view = [3] :=
    ⟨_, Run.cons ⟨⟨⟨⟨nofun, nofun, nofun⟩, nofun⟩, rfl⟩, trivial⟩ <|
      Run.cons ⟨⟨⟨⟨nofun, nofun, nofun⟩, nofun⟩, rfl⟩, trivial⟩ <|
      Run.single ⟨⟨⟨_, _, rfl⟩, rfl⟩, trivial⟩, rfl⟩
  have hrun := awaitingTwo_reached.append hrest
  exact ⟨_, s, hrun, hview, reads_spell hrun⟩

end Ue4Background.SocketReads
