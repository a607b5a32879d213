import Ue4Background.SocketBuffer

/-!
Reading a socket from a service (`socket.lua`): one coroutine reads and one may close. A read that
the buffer cannot answer leaves what it needs in `read_required` and waits; every message of the
socket runs in a coroutine of its own. A coroutine that is woken runs before the next message.
Pausing yields in the middle of a message, before the reader is woken.
-/

namespace Ue4Background.SocketReads

open LuaValues Transition Socket

/-- `s.read_required`: nothing, a number, a separator or `true`. -/
inductive Required
  | none
  | size (n : ℕ)
  | line (sep : Bytes)
  | all
  deriving DecidableEq

/-- What a coroutine may wait for: `connect`, `read` without and with a size, `readall`,
`readline` and `block`. -/
inductive Op
  | connect
  | some
  | size (n : ℕ)
  | all
  | line (sep : Bytes)
  | block
  deriving DecidableEq

def Op.required : Op → Required
  | .connect => .none
  | .some => .size 0
  | .size n => .size n
  | .all => .all
  | .line sep => .line sep
  | .block => .size 0

/-- `s.connecting`: nothing, `true` or the text of an error. -/
inductive Connecting (Err : Type)
  | no
  | pending
  | failed (err : Err)

inductive Party
  | reader
  | closer
  deriving DecidableEq

/-- The reading coroutine, with what it waits for and whether it found the socket paused. -/
inductive Reader
  | idle
  | parked (op : Op) (paused : Bool)
  | woken (op : Op) (paused : Bool)

/-- The coroutine in `socket.close`: it waits itself, or behind the reader. -/
inductive Closer
  | idle
  | parked
  | woken
  | behind
  | behindWoken
  deriving DecidableEq

inductive Answer (Err : Type)
  | opened
  | refused (err : Connecting Err)
  | data (b : Bytes)
  /-- A line, and the separator that is not part of it. -/
  | line (b sep : Bytes)
  | nothing
  /-- `false` and what was left. -/
  | ended (b : Bytes)
  /-- `false` alone. -/
  | no
  | blocked (connected : Bool)

/-- `BUFFER_LIMIT`. -/
def BUFFER_LIMIT : ℕ := 128 * 1024

/-- The table of a socket, the coroutines that use it, and what the driver was told last. -/
structure State (Err : Type) where
  buffer : SocketBuffer
  connected : Bool
  connecting : Connecting Err
  readRequired : Required
  co : Option Party
  pause : Option Bool
  closing : Bool
  bufferLimit : Option ℕ
  /-- The table is in `socket_pool`. -/
  pooled : Bool
  /-- The driver reads the connection. -/
  reading : Bool
  /-- The driver was told to close the connection. -/
  closeSent : Bool
  reader : Reader
  closer : Closer
  /-- The messages that yielded while pausing and are yet to wake the reader. -/
  yielded : ℕ

def Reader.wake : Reader → Reader
  | .parked op paused => .woken op paused
  | r => r

def Closer.wake : Closer → Closer
  | .parked => .woken
  | .behind => .behindWoken
  | c => c

variable {Err : Type}

namespace State

/-- `connect` has begun to wait. -/
def opening : State Err where
  buffer := .new
  connected := false
  connecting := .pending
  readRequired := .none
  co := some .reader
  pause := none
  closing := false
  bufferLimit := none
  pooled := true
  reading := true
  closeSent := false
  reader := .parked .connect false
  closer := .idle
  yielded := 0

/-- `wakeup`. -/
def wakeup (s : State Err) : State Err :=
  match s.co with
  | none => s
  | some .reader => { s with co := none, reader := s.reader.wake }
  | some .closer => { s with co := none, closer := s.closer.wake }

/-- `pause_socket`, where it goes as far as the yield. -/
def pauseSocket (s : State Err) : Option (State Err) :=
  if s.pause = none then some { s with pause := some true, reading := false } else none

/-- The buffer has what was required. -/
def serve (s : State Err) : State Err :=
  let s := { s with readRequired := .none }
  if s.buffer.size > BUFFER_LIMIT then
    match s.pauseSocket with
    | some s => { s with yielded := s.yielded + 1 }
    | none => s.wakeup
  else s.wakeup

/-- `sz > s.buffer_limit`. -/
def overflows (s : State Err) : Bool := s.bufferLimit.any (· < s.buffer.size)

/-- Data that nobody waits for yet: `driver.close` or `pause_socket`. -/
def keep (s : State Err) : State Err :=
  if s.overflows then { s with closeSent := true }
  else if s.buffer.size > BUFFER_LIMIT ∧ s.pause ≠ some true then s.pauseSocket.getD s
  else s

/-- `socket_message[1]`. -/
def onData (s : State Err) (msg : Bytes) : Option (State Err) :=
  if s.pooled then
    let s := { s with buffer := s.buffer.push msg }
    match s.readRequired with
    | .size n => some (if s.buffer.size ≥ n then s.serve else s)
    | .line sep =>
      if s.overflows then some { s with closeSent := true }
      else (s.buffer.findline sep).map fun found => if found.isSome then s.serve else s
    | _ => some s.keep
  else some s

/-- `socket_message[2]`. -/
def onConnect (s : State Err) : State Err :=
  if s.pooled ∧ s.connected = false then wakeup { s with connected := true } else s

/-- `socket_message[3]`. -/
def onClose (s : State Err) : State Err :=
  if s.pooled then wakeup { s with connected := false } else s

/-- `socket_message[5]`. -/
def onError (s : State Err) (err : Err) : State Err :=
  if s.pooled then
    let connecting :=
      match s.connected, s.connecting with
      | false, .pending => .failed err
      | false, .failed _ => .failed err
      | _, c => c
    wakeup { s with connecting, connected := false }
  else s

/-- A message goes on after the yield of `pause_socket`. -/
def onYielded (s : State Err) : State Err := wakeup { s with yielded := s.yielded - 1 }

/-- A read begins to wait, as in `suspend`. -/
def await (s : State Err) (op : Op) : Option (State Err × Option (Answer Err)) :=
  if s.readRequired = .none ∧ s.co = none then
    let paused := s.pause = some true
    some ({ s with
      readRequired := op.required
      co := some .reader
      reader := .parked op paused
      reading := s.reading || paused }, none)
  else none

/-- `false, driver.readall(s.buffer, s.pool)`. -/
def finish (s : State Err) : State Err × Option (Answer Err) :=
  ({ s with buffer := s.buffer.readall.2 }, some (.ended s.buffer.readall.1))

/-- A read of a socket in the pool, up to its answer or its wait. -/
def call (s : State Err) : Op → Option (State Err × Option (Answer Err))
  | .connect => none
  | .some =>
    let (b, buffer) := s.buffer.readall
    let s := { s with buffer }
    if b ≠ [] then some (s, some (.data b))
    else if s.connected then s.await .some else some (s, some (.ended b))
  | .size n =>
    (s.buffer.popbuffer n).bind fun r =>
      let s := { s with buffer := r.2 }
      match r.1 with
      | some b => some (s, some (.data b))
      | none => if s.connected then s.await (.size n) else some s.finish
  | .all =>
    if s.connected then s.await .all
    else
      let (b, buffer) := s.buffer.readall
      some ({ s with buffer }, some (if b ≠ [] then .data b else .no))
  | .line sep =>
    (s.buffer.readline sep).bind fun r =>
      let s := { s with buffer := r.2 }
      match r.1 with
      | some b => some (s, some (.line b sep))
      | none => if s.connected then s.await (.line sep) else some s.finish
  | .block => if s.connected then s.await .block else some (s, some (.blocked false))

/-- A read from outside. All but `block` assert that the socket is in the pool. -/
def read (s : State Err) (op : Op) : Option (State Err × Option (Answer Err)) :=
  if s.pooled then s.call op
  else if op = .block then some (s, some (.blocked false)) else none

/-- The rest of a read that was woken. -/
def answer (s : State Err) : Op → Option (State Err × Option (Answer Err))
  | .connect =>
    let s' := { s with connecting := .no }
    if s.connected then some (s', some .opened)
    else some ({ s' with pooled := false }, some (.refused s.connecting))
  | .some =>
    let (b, buffer) := s.buffer.readall
    some ({ s with buffer }, some (if b ≠ [] then .data b else .ended b))
  | .size n =>
    (s.buffer.popbuffer n).map fun r =>
      let s := { s with buffer := r.2 }
      match r.1 with
      | some b => (s, some (.data b))
      | none => s.finish
  | .all =>
    if s.connected then none
    else some ({ s with buffer := s.buffer.readall.2 }, some (.data s.buffer.readall.1))
  | .line sep =>
    if s.connected then
      (s.buffer.readline sep).map fun r =>
        ({ s with buffer := r.2 }, some (match r.1 with
          | some b => .line b sep
          | none => .nothing))
    else some s.finish
  | .block => some (s, some (.blocked s.connected))

/-- The end of `suspend`: the socket runs again, and a coroutine that closes it is woken. -/
def leave (s : State Err) (paused : Bool) : State Err :=
  { s with
    reader := .idle
    pause := if paused then none else s.pause
    closer := if s.closing then s.closer.wake else s.closer }

/-- The reader runs again. -/
def resume (s : State Err) : Option (State Err × Option (Answer Err)) :=
  match s.reader with
  | .woken op paused => (s.leave paused).answer op
  | _ => none

/-- `socket.close`, up to its wait. -/
def close (s : State Err) : Option (State Err) :=
  if s.pooled then
    let s := { s with closeSent := true }
    if s.connected then
      let s := { s with pause := some false }
      match s.co with
      | some _ => if s.closing then none else some { s with closing := true, closer := .behind }
      | none => some { s with co := some .closer, closer := .parked }
    else some { s with pooled := false }
  else some s

/-- The rest of `socket.close`. -/
def closed (s : State Err) : State Err :=
  { s with connected := false, pooled := false, closer := .idle }

/-- `socket.abandon`. -/
def abandon (s : State Err) : State Err :=
  if s.pooled then { wakeup { s with connected := false } with pooled := false } else s

/-- `socket.pause`. -/
def pauseCall (s : State Err) : State Err := if s.pooled then s.pauseSocket.getD s else s

/-- `socket.limit`. -/
def limit (s : State Err) (n : Option ℕ) : Option (State Err) :=
  if s.pooled then some { s with bufferLimit := n } else none

/-- Nobody is woken. -/
def Quiet (s : State Err) : Prop :=
  (∀ op paused, s.reader ≠ .woken op paused) ∧ s.closer ≠ .woken ∧ s.closer ≠ .behindWoken

end State

inductive Event (Err : Type)
  | data (msg : Bytes)
  | connected
  | closed
  | error (err : Err)
  | yielded
  | call (op : Op)
  | resume
  | close
  | closeResume
  | abandon
  | pause
  | limit (n : Option ℕ)

/-- `none` where an assertion of the source fails. -/
def step (s : State Err) : Event Err → Option (State Err × Option (Answer Err))
  | .data msg => (s.onData msg).map (·, none)
  | .connected => some (s.onConnect, none)
  | .closed => some (s.onClose, none)
  | .error err => some (s.onError err, none)
  | .yielded => some (s.onYielded, none)
  | .call op => s.read op
  | .resume => s.resume
  | .close => s.close.map (·, none)
  | .closeResume => some (s.closed, none)
  | .abandon => some (s.abandon, none)
  | .pause => some (s.pauseCall, none)
  | .limit n => (s.limit n).map (·, none)

def Op.Proper : Op → Prop
  | .connect => False
  | .size n => 0 < n
  | .line sep => sep ≠ []
  | _ => True

/-- Messages come when nobody is woken; the server tells of a connection once and again while it
lasts. A socket is read and closed by one coroutine each. -/
def Enabled (s : State Err) : Event Err → Prop
  | .data msg => s.Quiet ∧ msg ≠ []
  | .connected => s.Quiet ∧ (s.connected = false → s.reader = .parked .connect false)
  | .closed => s.Quiet
  | .error _ => s.Quiet
  | .yielded => s.Quiet ∧ 0 < s.yielded
  | .call op => s.reader = .idle ∧ op.Proper
  | .resume => ∃ op paused, s.reader = .woken op paused
  | .close => s.closer = .idle ∧ (s.connected = false ∨ s.Quiet)
  | .closeResume => (s.closer = .woken ∨ s.closer = .behindWoken) ∧
      ∀ op paused, s.reader ≠ .woken op paused
  | .abandon => s.Quiet
  | .pause => s.Quiet
  | .limit _ => s.Quiet

/-- An event that may happen, with the answer of a read. -/
def Step (s : State Err) (l : Event Err × Option (Answer Err)) (t : State Err) : Prop :=
  Enabled s l.1 ∧ step s l.1 = some (t, l.2)

/-- The bytes that an answer gives away. -/
def gave : Option (Answer Err) → Bytes
  | some (.data b) => b
  | some (.line b sep) => b ++ sep
  | some (.ended b) => b
  | _ => []

/-- The unread bytes do not answer the read; `readall` and `block` wait in any case. -/
def Op.Unmet : Op → Bytes → Prop
  | .some, b => b = []
  | .size n, b => b.length < n
  | .line sep, b => cut sep b = none
  | _, _ => True

/-- The unread bytes give a woken read all it asked for; `readall` ends only with the connection. -/
def Op.Gets : Op → Bytes → Prop
  | .some, b => b ≠ []
  | .size n, b => n ≤ b.length
  | .all, _ => False
  | .line sep, b => (cut sep b).isSome
  | _, _ => True

/-- The answer is all that was asked for. -/
def Op.Full : Op → Answer Err → Prop
  | .connect, .opened => True
  | .some, .data b => b ≠ []
  | .size n, .data b => b.length = n
  | .line sep, .line _ sep' => sep = sep'
  | .block, .blocked connected => connected = true
  | _, _ => False

/-- A read of the open socket has to wait. -/
def State.Waits (s : State Err) (op : Op) : Prop :=
  s.connected = true ∧ op.Unmet s.buffer.view

theorem Op.Gets.append {op : Op} {b : Bytes} (h : op.Gets b) (msg : Bytes) :
    op.Gets (b ++ msg) := by
  cases op with
  | some =>
    intro hempty
    exact h (List.append_eq_nil_iff.1 hempty).1
  | size n =>
    have hlength : n ≤ b.length := h
    change n ≤ (b ++ msg).length
    rw [List.length_append]
    omega
  | line sep =>
    obtain ⟨⟨line, rest⟩, hcut⟩ := Option.isSome_iff_exists.1 h
    exact Option.isSome_iff_exists.2 ⟨_, cut_append hcut msg⟩
  | all => exact h.elim
  | connect => trivial
  | block => trivial

namespace State

variable {s t : State Err} {a : Option (Answer Err)}

theorem popbuffer_unmet (hkept : s.buffer.Kept) {n : ℕ} (hn : 0 < n) :
    ∃ buffer, buffer.Kept ∧
      ((s.buffer.view.length < n ∧ buffer.view = s.buffer.view ∧
          s.buffer.popbuffer n = some (none, buffer)) ∨
        (n ≤ s.buffer.view.length ∧ ∃ b, b.length = n ∧ b ++ buffer.view = s.buffer.view ∧
          s.buffer.popbuffer n = some (some b, buffer))) := by
  obtain ⟨buffer, hpop, hkept', hview⟩ := SocketBuffer.popbuffer_spec hkept n
  refine ⟨buffer, hkept', ?_⟩
  rw [popped] at hpop hview
  by_cases hfits : s.buffer.view.length < n ∨ n = 0
  · rw [if_pos hfits] at hpop hview
    exact Or.inl ⟨by omega, hview, hpop⟩
  · rw [if_neg hfits] at hpop hview
    refine Or.inr ⟨by omega, _, ?_, ?_, hpop⟩
    · rw [List.length_take]
      omega
    · rw [hview, List.take_append_drop]

theorem readline_unmet (hkept : s.buffer.Kept) {sep : Bytes} (hsep : sep ≠ []) :
    ∃ buffer, buffer.Kept ∧
      ((cut sep s.buffer.view = none ∧ buffer.view = s.buffer.view ∧
          s.buffer.readline sep = some (none, buffer)) ∨
        ((cut sep s.buffer.view).isSome ∧ ∃ b, b ++ sep ++ buffer.view = s.buffer.view ∧
          s.buffer.readline sep = some (some b, buffer))) := by
  obtain ⟨buffer, hline, hkept', hview⟩ := SocketBuffer.readline_spec hkept hsep
  refine ⟨buffer, hkept', ?_⟩
  rw [lined] at hline hview
  cases hcut : cut sep s.buffer.view with
  | none =>
    rw [hcut] at hline hview
    exact Or.inl ⟨rfl, hview, hline⟩
  | some r =>
    rw [hcut] at hline hview
    refine Or.inr ⟨rfl, r.1, ?_, hline⟩
    rw [hview]
    exact (cut_spells hcut).symm

theorem finish_eq (hkept : s.buffer.Kept) :
    s.finish = ({ s with buffer := .new }, some (.ended s.buffer.view)) := by
  rw [finish, SocketBuffer.readall_spec hkept]

/-- A read that has to wait leaves the bytes alone; any other answers at once. -/
theorem call_cases (hkept : s.buffer.Kept) {op : Op} (hop : op.Proper) :
    ∃ buffer : SocketBuffer, buffer.Kept ∧
      ((s.Waits op ∧ buffer.view = s.buffer.view ∧ s.call op = await { s with buffer } op) ∨
        (¬ s.Waits op ∧ ∃ a, gave (some a) ++ buffer.view = s.buffer.view ∧
          s.call op = some ({ s with buffer }, some a))) := by
  cases op with
  | connect => cases hop
  | some =>
    refine ⟨.new, SocketBuffer.new_kept, ?_⟩
    simp only [call, SocketBuffer.readall_spec hkept, Waits, Op.Unmet]
    by_cases hempty : s.buffer.view = []
    · by_cases hconnected : s.connected = true
      · exact Or.inl ⟨⟨hconnected, hempty⟩, hempty.symm, by simp [hempty, hconnected]⟩
      · refine Or.inr ⟨fun h => hconnected h.1, .ended [], hempty.symm, ?_⟩
        simp [hempty, hconnected]
    · refine Or.inr ⟨fun h => hempty h.2, .data s.buffer.view, List.append_nil _, ?_⟩
      rw [if_pos hempty]
  | size n =>
    obtain ⟨buffer, hkept', ⟨hshort, hview, hpop⟩ | ⟨hlong, b, -, hview, hpop⟩⟩ :=
      popbuffer_unmet hkept hop
    · by_cases hconnected : s.connected = true
      · refine ⟨buffer, hkept', Or.inl ⟨⟨hconnected, hshort⟩, hview, ?_⟩⟩
        simp only [call, hpop, Option.bind_some]
        rw [if_pos hconnected]
      · refine ⟨.new, SocketBuffer.new_kept, Or.inr ⟨fun h => hconnected h.1, .ended s.buffer.view,
          List.append_nil _, ?_⟩⟩
        simp only [call, hpop, Option.bind_some]
        rw [if_neg hconnected, finish_eq hkept', hview]
    · refine ⟨buffer, hkept', Or.inr ⟨fun h => absurd h.2 (Nat.not_lt.2 hlong), .data b, hview, ?_⟩⟩
      simp only [call, hpop, Option.bind_some]
  | all =>
    by_cases hconnected : s.connected = true
    · refine ⟨s.buffer, hkept, Or.inl ⟨⟨hconnected, trivial⟩, rfl, ?_⟩⟩
      rw [call, if_pos hconnected]
    · refine ⟨.new, SocketBuffer.new_kept, Or.inr ⟨fun h => hconnected h.1,
        if s.buffer.view ≠ [] then .data s.buffer.view else .no, ?_, ?_⟩⟩
      · split
        · exact List.append_nil _
        · rename_i hempty
          rw [not_not] at hempty
          rw [hempty]
          rfl
      · simp only [call, SocketBuffer.readall_spec hkept]
        rw [if_neg hconnected]
  | line sep =>
    obtain ⟨buffer, hkept', ⟨hcut, hview, hline⟩ | ⟨hcut, b, hview, hline⟩⟩ :=
      readline_unmet hkept hop
    · by_cases hconnected : s.connected = true
      · refine ⟨buffer, hkept', Or.inl ⟨⟨hconnected, hcut⟩, hview, ?_⟩⟩
        simp only [call, hline, Option.bind_some]
        rw [if_pos hconnected]
      · refine ⟨.new, SocketBuffer.new_kept, Or.inr ⟨fun h => hconnected h.1, .ended s.buffer.view,
          List.append_nil _, ?_⟩⟩
        simp only [call, hline, Option.bind_some]
        rw [if_neg hconnected, finish_eq hkept', hview]
    · refine ⟨buffer, hkept', Or.inr ⟨fun h => ?_, .line b sep, hview, ?_⟩⟩
      · have hnone : cut sep s.buffer.view = none := h.2
        rw [hnone] at hcut
        cases hcut
      · simp only [call, hline, Option.bind_some]
  | block =>
    by_cases hconnected : s.connected = true
    · refine ⟨s.buffer, hkept, Or.inl ⟨⟨hconnected, trivial⟩, rfl, ?_⟩⟩
      rw [call, if_pos hconnected]
    · refine ⟨s.buffer, hkept, Or.inr ⟨fun h => hconnected h.1, .blocked false, rfl, ?_⟩⟩
      rw [call, if_neg hconnected]

/-- A woken read answers, in full while the connection is open and the bytes suffice. -/
theorem answer_cases (hkept : s.buffer.Kept) {op : Op} (hop : op = .connect ∨ op.Proper)
    (hall : op = .all → s.connected = false) :
    ∃ (buffer : SocketBuffer) (connecting : Connecting Err) (pooled : Bool) (a : Answer Err),
      s.answer op = some ({ s with buffer, connecting, pooled }, some a) ∧ buffer.Kept ∧
      gave (some a) ++ buffer.view = s.buffer.view ∧
      (s.connected = true → pooled = s.pooled) ∧ (pooled = true → s.pooled = true) ∧
      (s.connected = true → op.Gets s.buffer.view → op.Full a) := by
  cases op with
  | connect =>
    by_cases hconnected : s.connected = true
    · refine ⟨s.buffer, .no, s.pooled, .opened, ?_, hkept, rfl, fun _ => rfl, id,
        fun _ _ => trivial⟩
      simp only [answer]
      rw [if_pos hconnected]
    · refine ⟨s.buffer, .no, false, .refused s.connecting, ?_, hkept, rfl,
        fun h => absurd h hconnected, nofun, fun h => absurd h hconnected⟩
      simp only [answer]
      rw [if_neg hconnected]
  | some =>
    refine ⟨.new, s.connecting, s.pooled,
      if s.buffer.view ≠ [] then .data s.buffer.view else .ended s.buffer.view, ?_,
      SocketBuffer.new_kept, ?_, fun _ => rfl, id, fun _ hgets => ?_⟩
    · simp only [answer, SocketBuffer.readall_spec hkept]
    · split <;> exact List.append_nil _
    · have hne : s.buffer.view ≠ [] := hgets
      rw [if_pos hne]
      exact hne
  | size n =>
    have hn := hop.resolve_left nofun
    obtain ⟨buffer, hkept', ⟨hshort, hview, hpop⟩ | ⟨hlong, b, hb, hview, hpop⟩⟩ :=
      popbuffer_unmet hkept hn
    · refine ⟨.new, s.connecting, s.pooled, .ended s.buffer.view, ?_, SocketBuffer.new_kept,
        List.append_nil _, fun _ => rfl, id, fun _ hgets => ?_⟩
      · simp only [answer, hpop, Option.map_some]
        rw [finish_eq hkept', hview]
      · exact absurd hshort (Nat.not_lt.2 hgets)
    · refine ⟨buffer, s.connecting, s.pooled, .data b, ?_, hkept', hview, fun _ => rfl, id,
        fun _ _ => hb⟩
      simp only [answer, hpop, Option.map_some]
  | all =>
    refine ⟨.new, s.connecting, s.pooled, .data s.buffer.view, ?_, SocketBuffer.new_kept,
      List.append_nil _, fun _ => rfl, id, fun _ hgets => hgets.elim⟩
    simp only [answer, SocketBuffer.readall_spec hkept, hall rfl]
    rfl
  | line sep =>
    have hsep := hop.resolve_left nofun
    by_cases hconnected : s.connected = true
    · obtain ⟨buffer, hkept', ⟨hcut, hview, hline⟩ | ⟨-, b, hview, hline⟩⟩ :=
        readline_unmet hkept hsep
      · refine ⟨buffer, s.connecting, s.pooled, .nothing, ?_, hkept', hview, fun _ => rfl, id,
          fun _ hgets => ?_⟩
        · simp only [answer, hline, Option.map_some]
          rw [if_pos hconnected]
        · have hsome : (cut sep s.buffer.view).isSome := hgets
          rw [hcut] at hsome
          cases hsome
      · refine ⟨buffer, s.connecting, s.pooled, .line b sep, ?_, hkept', hview, fun _ => rfl, id,
          fun _ _ => rfl⟩
        simp only [answer, hline, Option.map_some]
        rw [if_pos hconnected]
    · refine ⟨.new, s.connecting, s.pooled, .ended s.buffer.view, ?_, SocketBuffer.new_kept,
        List.append_nil _, fun _ => rfl, id, fun h => absurd h hconnected⟩
      simp only [answer]
      rw [if_neg hconnected, finish_eq hkept]
  | block =>
    exact ⟨s.buffer, s.connecting, s.pooled, .blocked s.connected, rfl, hkept, rfl, fun _ => rfl,
      id, fun h _ => h⟩

end State

end Ue4Background.SocketReads
