import Mathlib.Logic.Function.Basic
import Ue4Background.LuaValues
import Ue4Background.Transition

/-!
One TCP socket of the socket thread (`socket_server.c`), from the moment its slot is filled. Any
number of workers send to it. A worker writes by itself while nothing else waits to be sent: it
looks once without the lock and once with it, and each look reads the lists, the counter `sending`
and the type one after the other. Otherwise it counts itself in `sending` and asks through the pipe.
The socket thread keeps a list of high and a list of low priority and sends them as the connection
takes them. Its commands and events are steps of their own, but `force_close` waits for the lock
after it has freed the lists.
-/

namespace Ue4Background.SocketServer

open LuaValues Transition

inductive SocketType
  | paccept
  | connecting
  | connected
  | bind
  | halfcloseRead
  | halfcloseWrite
  | invalid
  deriving DecidableEq

inductive Priority
  | high
  | low
  deriving DecidableEq

/-- What one call of `socket_server_send` or `socket_server_send_lowpriority` is given. -/
structure Packet (W : Type) where
  sender : W
  priority : Priority
  buffer : Bytes
  deriving DecidableEq

/-- `write_buffer`; the bytes before `ptr` are sent. -/
structure WriteBuffer (W : Type) where
  packet : Packet W
  ptr : ℕ

namespace WriteBuffer

variable {W : Type}

/-- The bytes from `ptr` on; the field `sz` is their number. -/
def rest (b : WriteBuffer W) : Bytes := b.packet.buffer.drop b.ptr

def sz (b : WriteBuffer W) : ℕ := b.rest.length

end WriteBuffer

/-- The commands `D` and `P`, `W`, `K`, `R` and `S`. -/
inductive Request (W : Type)
  | send (packet : Packet W)
  | write
  | close (shutdown : Bool)
  | resume
  | pause
  deriving DecidableEq

/-- The messages of the socket thread, `SOCKET_DATA` and so on. -/
inductive Report
  | data (b : Bytes)
  | opened
  | close
  | error
  | warning (kilobytes : ℤ)
  deriving DecidableEq

/-- How far a look with `can_direct_write` has come. -/
inductive Seen
  | nothing
  | lists
  | sending
  | type
  deriving DecidableEq

/-- Where a worker stands in `socket_server_send`. It looks `again` with the lock. -/
inductive Pc
  | idle
  | looking (again : Bool) (seen : Seen) (buffer : Bytes)
  | written (buffer : Bytes) (n : ℕ)
  | counting (priority : Priority) (buffer : Bytes)
  | posting
  deriving DecidableEq

structure State (W : Type) where
  type : SocketType
  closing : Bool
  reading : Bool
  writing : Bool
  high : List (WriteBuffer W)
  low : List (WriteBuffer W)
  wbSize : ℤ
  warnSize : ℤ
  /-- `dw_buffer` with `dw_offset`. -/
  dw : Option (WriteBuffer W)
  sending : ℕ
  /-- The worker that has `dw_lock`; the socket thread has it within one step only. -/
  lock : Option W
  worker : W → Pc
  /-- Commands that a worker is about to write to the pipe. -/
  incoming : List (W × Request W)
  pipe : List (Request W)
  /-- `force_close` waits for the lock; with the message that follows it. -/
  freeing : Option (Option Report)
  /-- What the connection has taken, and the packets it has taken whole. -/
  wire : Bytes
  written : List (Packet W)
  /-- Packets that were freed before they were sent. -/
  freed : List (Packet W)

def warningSize : ℤ := 1024 * 1024

def packets {W : Type} (l : List (WriteBuffer W)) : List (Packet W) := l.map WriteBuffer.packet

namespace State

variable {W : Type}

/-- `send_buffer_empty`. -/
def sendBufferEmpty (s : State W) : Prop := s.high = [] ∧ s.low = []

instance (s : State W) : Decidable s.sendBufferEmpty :=
  decidable_of_iff (s.high.isEmpty ∧ s.low.isEmpty) (by
    simp only [sendBufferEmpty, List.isEmpty_iff])

/-- `nomore_sending_data`. -/
def nomoreSendingData (s : State W) : Prop :=
  (s.sendBufferEmpty ∧ s.dw.isNone ∧ s.sending = 0) ∨ s.type = .halfcloseWrite

instance (s : State W) : Decidable s.nomoreSendingData :=
  inferInstanceAs (Decidable ((s.sendBufferEmpty ∧ s.dw.isNone ∧ s.sending = 0) ∨
    s.type = .halfcloseWrite))

/-- `enable_write`, with whether it reports an error when `sp_enable` fails. -/
def enableWrite (s : State W) (enable fails : Bool) : State W × Bool :=
  ({ s with writing := enable }, (s.writing != enable) && fails)

/-- `enable_read`. -/
def enableRead (s : State W) (enable fails : Bool) : State W × Bool :=
  ({ s with reading := enable }, (s.reading != enable) && fails)

/-- `force_close` until it waits for the lock. -/
def freeLists (s : State W) (report : Option Report) : State W :=
  { s with
    high := []
    low := []
    freed := s.freed ++ packets s.high ++ packets s.low
    freeing := some report }

/-- `force_close` when it has the lock. -/
def invalidate (s : State W) : State W :=
  { s with
    type := .invalid
    freed := s.freed ++ packets s.dw.toList
    dw := none
    freeing := none }

/-- `force_close` by the socket thread when it has the lock already. -/
def forceClose (s : State W) : State W := (s.freeLists none).invalidate

/-- `close_read`. -/
def closeRead (s : State W) : State W := { s with type := .halfcloseRead, reading := false }

/-- `close_write`. -/
def closeWrite (s : State W) : State W × Option Report :=
  if s.closing then (s.forceClose, none)
  else if s.type = .halfcloseRead then (s.forceClose, none)
  else if s.type = .halfcloseWrite then (s, none)
  else ({ s with type := .halfcloseWrite, writing := false }, some .error)

/-- `append_sendbuffer` and `append_sendbuffer_low`. -/
def append (s : State W) (toLow : Bool) (packet : Packet W) : State W :=
  let buf : WriteBuffer W := ⟨packet, 0⟩
  if toLow then { s with low := s.low ++ [buf], wbSize := s.wbSize + buf.sz }
  else { s with high := s.high ++ [buf], wbSize := s.wbSize + buf.sz }

/-- The end of `send_socket`. -/
def warn (s : State W) : State W × Option Report :=
  if s.wbSize ≥ warningSize ∧ s.wbSize ≥ s.warnSize then
    ({ s with warnSize := if s.warnSize = 0 then warningSize * 2 else s.warnSize * 2 },
      some (.warning (if s.wbSize % 1024 = 0 then s.wbSize / 1024 else s.wbSize / 1024 + 1)))
  else (s, none)

/-- `send_socket`. -/
def sendSocket (s : State W) (packet : Packet W) (fails : Bool) : State W × Option Report :=
  if s.type = .invalid ∨ s.type = .halfcloseWrite ∨ s.type = .paccept ∨ s.closing = true then
    ({ s with freed := s.freed ++ [packet] }, none)
  else if s.sendBufferEmpty then
    let (t, err) := (s.append false packet).enableWrite true fails
    if err then (t, some .error) else t.warn
  else (s.append (packet.priority = .low) packet).warn

/-- `trigger_write`. -/
def triggerWrite (s : State W) (fails : Bool) : State W × Option Report :=
  if s.type = .invalid then (s, none)
  else
    let (t, err) := s.enableWrite true fails
    (t, if err then some .error else none)

/-- `close_socket`. -/
def closeSocket (s : State W) (shutdown : Bool) : State W × Option Report :=
  if s.type = .invalid then (s, none)
  else
    let shutdownRead := s.type = .halfcloseRead
    if shutdown ∨ s.nomoreSendingData then
      (s.freeLists (if shutdownRead then none else some .close), none)
    else if shutdownRead then ({ s with closing := true }, none)
    else ({ s with closing := true }.closeRead, some .close)

/-- `resume_socket`. -/
def resumeSocket (s : State W) (fails : Bool) : State W × Option Report :=
  if s.type = .invalid then (s, some .error)
  else if s.type = .halfcloseRead then (s, some .error)
  else
    let (t, err) := s.enableRead true fails
    if err then (t, some .error)
    else if t.type = .paccept then ({ t with type := .connected }, some .opened)
    else if t.type = .connected then (t, some .opened)
    else (t, none)

/-- `pause_socket`. -/
def pauseSocket (s : State W) (fails : Bool) : State W × Option Report :=
  if s.type = .invalid then (s, none)
  else
    let (t, err) := s.enableRead false fails
    (t, if err then some .error else none)

/-- `ctrl_cmd`; `none` where the assertion of `dec_sending_ref` fails. -/
def ctrlCmd (s : State W) (request : Request W) (fails : Bool) :
    Option (State W × Option Report) :=
  match request with
  | .send packet =>
    let (t, r) := s.sendSocket packet fails
    if t.sending = 0 then none else some ({ t with sending := t.sending - 1 }, r)
  | .write => some (s.triggerWrite fails)
  | .close shutdown => some (s.closeSocket shutdown)
  | .resume => some (s.resumeSocket fails)
  | .pause => some (s.pauseSocket fails)

end State

/-- What `write` gives; an interrupted call is made again. -/
inductive WriteResult
  | wrote (n : ℕ)
  | again
  | failed

structure Sent (W : Type) where
  list : List (WriteBuffer W)
  bytes : Bytes
  written : List (Packet W)
  failed : Bool
  /-- The results of the writes that are still to come. -/
  results : List WriteResult

/-- The loop of `send_list_tcp`. -/
def sendListTcp {W : Type} : List (WriteBuffer W) → List WriteResult → Sent W
  | [], results => ⟨[], [], [], false, results⟩
  | tmp :: list, .wrote n :: results =>
    if n < tmp.sz then
      ⟨{ tmp with ptr := tmp.ptr + n } :: list, tmp.rest.take n, [], false, results⟩
    else
      let sent := sendListTcp list results
      { sent with bytes := tmp.rest ++ sent.bytes, written := tmp.packet :: sent.written }
  | tmp :: list, .failed :: results => ⟨tmp :: list, [], [], true, results⟩
  | tmp :: list, .again :: results => ⟨tmp :: list, [], [], false, results⟩
  | tmp :: list, [] => ⟨tmp :: list, [], [], false, []⟩

/-- `list_uncomplete`. -/
def listUncomplete {W : Type} : List (WriteBuffer W) → Bool
  | [] => false
  | b :: _ => b.ptr ≠ 0

namespace State

variable {W : Type}

def sendHigh (s : State W) (results : List WriteResult) : State W :=
  let sent := sendListTcp s.high results
  { s with
    high := sent.list
    wbSize := s.wbSize - sent.bytes.length
    wire := s.wire ++ sent.bytes
    written := s.written ++ sent.written }

def sendLow (s : State W) (results : List WriteResult) : State W :=
  let sent := sendListTcp s.low results
  { s with
    low := sent.list
    wbSize := s.wbSize - sent.bytes.length
    wire := s.wire ++ sent.bytes
    written := s.written ++ sent.written }

/-- `raise_uncomplete`; it is called when the low list is not empty. -/
def raiseUncomplete (s : State W) : Option (State W) :=
  match s.low, s.high with
  | tmp :: low, [] => some { s with high := [tmp], low }
  | _, _ => none

/-- Step 4 of `send_buffer_`; it fails where its assertion does. -/
def finish (s : State W) (fails : Bool) : Option (State W × Option Report) :=
  if s.sendBufferEmpty ∧ s.wbSize = 0 then
    if s.closing then some (s.forceClose, none)
    else
      let (t, err) := s.enableWrite false fails
      if err then some (t, some .error)
      else if t.warnSize > 0 then some ({ t with warnSize := 0 }, some (.warning 0))
      else some (t, none)
  else none

/-- Steps 2 to 4 of `send_buffer_`. -/
def afterHigh (s : State W) (results : List WriteResult) (fails : Bool) :
    Option (State W × Option Report) :=
  if s.low.isEmpty then s.finish fails
  else
    let t := s.sendLow results
    if (sendListTcp s.low results).failed then some t.closeWrite
    else if listUncomplete t.low then t.raiseUncomplete.map fun u => (u, none)
    else if t.low.isEmpty then t.finish fails
    else some (t, none)

/-- `send_buffer_`. -/
def sendBuffer' (s : State W) (results : List WriteResult) (fails : Bool) :
    Option (State W × Option Report) :=
  if listUncomplete s.low then none
  else
    let sent := sendListTcp s.high results
    let t := s.sendHigh results
    if sent.failed then some t.closeWrite
    else if t.high.isEmpty then t.afterHigh sent.results fails
    else some (t, none)

/-- What a worker could not write itself goes before the high list. -/
def takeDw (s : State W) : State W :=
  match s.dw with
  | some buf => { s with wbSize := s.wbSize + buf.sz, high := buf :: s.high, dw := none }
  | none => s

/-- `send_buffer`; it does nothing while a worker has the lock. -/
def sendBuffer (s : State W) (results : List WriteResult) (fails : Bool) :
    Option (State W × Option Report) :=
  if s.lock.isSome then some (s, none) else s.takeDw.sendBuffer' results fails

end State

inductive ReadResult
  | data (b : Bytes)
  | eof
  | again
  | error

namespace State

variable {W : Type}

/-- `forward_message_tcp`. -/
def forwardMessageTcp (s : State W) : ReadResult → State W × Option Report
  | .error => (s, some .error)
  | .again => (s, none)
  | .eof =>
    if s.closing then (if s.nomoreSendingData then s.freeLists none else s, none)
    else if s.type = .halfcloseRead then (s, none)
    else if s.type = .halfcloseWrite then (s.freeLists (some .close), none)
    else (s.closeRead, some .close)
  | .data b => if s.type = .halfcloseRead then (s, none) else (s, some (.data b))

/-- `report_connect`. -/
def reportConnect (s : State W) (ok fails : Bool) : State W × Option Report :=
  if ok then
    let t := { s with type := .connected }
    if t.nomoreSendingData then
      let (u, err) := t.enableWrite false fails
      if err then (u.freeLists (some .error), none) else (u, some .opened)
    else (t, some .opened)
  else (s.freeLists (some .error), none)

/-- `e->eof` in `socket_server_poll`. -/
def onEof (s : State W) : State W × Option Report :=
  (s.freeLists (if s.type = .halfcloseRead then none else some .close), none)

section Workers

variable [DecidableEq W]

def setWorker (s : State W) (w : W) (pc : Pc) : State W :=
  { s with worker := Function.update s.worker w pc }

/-- A worker that may not write itself; it gives the lock back if it has it. -/
def giveUp (s : State W) (w : W) (again : Bool) (buffer : Bytes) : State W :=
  { s.setWorker w (.counting .high buffer) with lock := if again then none else s.lock }

/-- One reading of `can_direct_write`, or `socket_trylock` after the first look. -/
def look (s : State W) (w : W) (again : Bool) (seen : Seen) (buffer : Bytes) : State W :=
  match seen with
  | .nothing =>
    if s.sendBufferEmpty ∧ s.dw.isNone then s.setWorker w (.looking again .lists buffer)
    else s.giveUp w again buffer
  | .lists =>
    if s.sending = 0 then s.setWorker w (.looking again .sending buffer)
    else s.giveUp w again buffer
  | .sending =>
    if s.type = .connected then s.setWorker w (.looking again .type buffer)
    else s.giveUp w again buffer
  | .type =>
    if again = false ∧ s.lock.isNone then
      { s.setWorker w (.looking true .nothing buffer) with lock := some w }
    else s.giveUp w again buffer

/-- A worker writes, and the connection takes `n` bytes. -/
def directWrite (s : State W) (w : W) (buffer : Bytes) (n : ℕ) : State W :=
  { s.setWorker w (.written buffer n) with
    wire := s.wire ++ buffer.take n
    written := if n = buffer.length then s.written ++ [⟨w, .high, buffer⟩] else s.written }

/-- What a worker could not write goes to `dw_buffer`; then it gives the lock back. -/
def unlock (s : State W) (w : W) (buffer : Bytes) (n : ℕ) : State W :=
  if n = buffer.length then { s.setWorker w .idle with lock := none }
  else
    { s.setWorker w .posting with
      dw := some ⟨⟨w, .high, buffer⟩, n⟩
      incoming := s.incoming ++ [(w, .write)]
      lock := none }

/-- `inc_sending_ref`. -/
def incSendingRef (s : State W) (packet : Packet W) : State W :=
  { s.setWorker packet.sender .posting with
    sending := s.sending + 1
    incoming := s.incoming ++ [(packet.sender, .send packet)] }

/-- `send_request`. -/
def sendRequest (s : State W) (w : W) (request : Request W) : State W :=
  { s.setWorker w .idle with
    incoming := s.incoming.erase (w, request)
    pipe := s.pipe ++ [request] }

end Workers

end State

inductive Event (W : Type)
  /-- A worker enters `socket_server_send` or `socket_server_send_lowpriority`. -/
  | send (packet : Packet W)
  | look (w : W) (again : Bool) (seen : Seen) (buffer : Bytes)
  | directWrite (w : W) (buffer : Bytes) (n : ℕ)
  | unlock (w : W) (buffer : Bytes) (n : ℕ)
  | count (packet : Packet W)
  | post (w : W) (request : Request W)
  /-- A service closes, resumes or pauses the socket. -/
  | ask (w : W) (request : Request W)
  | ctrl (request : Request W) (fails : Bool)
  | connect (ok fails : Bool)
  | readable (result : ReadResult)
  | writable (results : List WriteResult) (fails : Bool)
  | fault
  | eof
  /-- `force_close` gets the lock. -/
  | closed (report : Option Report)

variable {W : Type} [DecidableEq W]

/-- `none` where an assertion fails. -/
def step (s : State W) : Event W → Option (State W × Option Report)
  | .send packet =>
    some (s.setWorker packet.sender
      (if packet.priority = .high then .looking false .nothing packet.buffer
        else .counting .low packet.buffer), none)
  | .look w again seen buffer => some (s.look w again seen buffer, none)
  | .directWrite w buffer n => some (s.directWrite w buffer n, none)
  | .unlock w buffer n => some (s.unlock w buffer n, none)
  | .count packet => some (s.incSendingRef packet, none)
  | .post w request => some (s.sendRequest w request, none)
  | .ask _ request => some ({ s with pipe := s.pipe ++ [request] }, none)
  | .ctrl request fails => State.ctrlCmd { s with pipe := s.pipe.tail } request fails
  | .connect ok fails => some (s.reportConnect ok fails)
  | .readable result => some (s.forwardMessageTcp result)
  | .writable results fails => s.sendBuffer results fails
  | .fault => some (s, some .error)
  | .eof => some s.onEof
  | .closed report => some (s.invalidate, report)

def Request.isAsked : Request W → Bool
  | .close _ | .resume | .pause => true
  | .send _ | .write => false

/-- The order of a worker's steps and of the pipe, and the events of a registered socket. A send
that is refused because the socket is closed changes nothing and is no step. -/
def Enabled (s : State W) : Event W → Prop
  | .send packet =>
    s.worker packet.sender = .idle ∧ s.type ≠ .invalid ∧
      (packet.priority = .high → s.closing = false)
  | .look w again seen buffer =>
    s.worker w = .looking again seen buffer ∧ ¬(again = true ∧ seen = .type)
  | .directWrite w buffer n =>
    s.worker w = .looking true .type buffer ∧ n ≤ buffer.length
  | .unlock w buffer n => s.worker w = .written buffer n
  | .count packet =>
    s.worker packet.sender = .counting packet.priority packet.buffer ∧ s.sending < 0xffff
  | .post w request => (w, request) ∈ s.incoming
  | .ask w request => s.worker w = .idle ∧ request.isAsked
  | .ctrl request _ => s.freeing = none ∧ s.pipe.head? = some request
  | .connect _ _ => s.freeing = none ∧ s.type = .connecting
  | .writable _ _ =>
    s.freeing = none ∧ s.type ≠ .connecting ∧ s.type ≠ .invalid ∧ s.writing = true
  | .readable _ | .fault | .eof => s.freeing = none ∧ s.type ≠ .connecting ∧ s.type ≠ .invalid
  | .closed report => s.freeing = some report ∧ s.lock = none

def Step (s : State W) (l : Event W × Option Report) (t : State W) : Prop :=
  Enabled s l.1 ∧ step s l.1 = some (t, l.2)

/-- A slot that `new_fd` has just filled, connected, accepted, bound or still connecting. -/
structure Fresh (s : State W) : Prop where
  type : s.type ≠ .halfcloseRead ∧ s.type ≠ .halfcloseWrite ∧ s.type ≠ .invalid
  closing : s.closing = false
  writing : s.writing = decide (s.type = .connecting)
  high : s.high = []
  low : s.low = []
  wbSize : s.wbSize = 0
  dw : s.dw = none
  sending : s.sending = 0
  lock : s.lock = none
  worker : ∀ w, s.worker w = .idle
  incoming : s.incoming = []
  pipe : s.pipe = []
  freeing : s.freeing = none
  wire : s.wire = []
  written : s.written = []
  freed : s.freed = []

end Ue4Background.SocketServer
