import Ue4Background.Lanes
import Ue4Background.SocketServer

/-!
What the connection takes. The bytes are those of whole packets and of a beginning of one more, and
the packets of one sender and of one priority go out in the order they were sent. No assertion of
the socket thread fails. Only a worker that writes while `force_close` waits for its lock could
break the row of packets: the lists are freed by then, perhaps with a packet half sent.
-/

namespace Ue4Background.SocketServer

open LuaValues Transition Lanes

variable {W : Type}

def flat (ps : List (Packet W)) : Bytes := ps.flatMap Packet.buffer

/-- What has been sent of the first buffer. -/
def begun : List (WriteBuffer W) → Bytes
  | [] => []
  | b :: _ => b.packet.buffer.take b.ptr

/-- The bytes that are still to be sent. -/
def size : List (WriteBuffer W) → ℕ
  | [] => 0
  | b :: l => b.sz + size l

/-- Nothing of the buffers is sent. -/
def Unbegun (l : List (WriteBuffer W)) : Prop := ∀ b ∈ l, b.ptr = 0

theorem flat_append (ps qs : List (Packet W)) : flat (ps ++ qs) = flat ps ++ flat qs :=
  List.flatMap_append ..

theorem packets_append (l m : List (WriteBuffer W)) : packets (l ++ m) = packets l ++ packets m :=
  List.map_append ..

theorem size_append (l m : List (WriteBuffer W)) : size (l ++ m) = size l + size m := by
  induction l with
  | nil => exact (Nat.zero_add _).symm
  | cons b l ih => rw [List.cons_append, size, size, ih, Nat.add_assoc]

namespace Unbegun

variable {l m : List (WriteBuffer W)}

theorem begun_eq (h : Unbegun l) : begun l = [] := by
  cases l with
  | nil => rfl
  | cons b l => rw [begun, h b List.mem_cons_self, List.take_zero]

theorem listUncomplete_eq (h : Unbegun l) : listUncomplete l = false := by
  cases l with
  | nil => rfl
  | cons b l => simp [listUncomplete, h b List.mem_cons_self]

theorem tail (h : Unbegun l) : Unbegun l.tail := fun b hb => h b (List.mem_of_mem_tail hb)

theorem append (h : Unbegun l) (h' : Unbegun m) : Unbegun (l ++ m) := by
  intro b hb
  rcases List.mem_append.mp hb with hl | hm
  · exact h b hl
  · exact h' b hm

theorem tail_append (h : Unbegun l.tail) (h' : Unbegun m) : Unbegun (l ++ m).tail := by
  cases l with
  | nil => exact h'.tail
  | cons b l => exact Unbegun.append h h'

theorem of_complete (h : Unbegun l.tail) (hcomplete : listUncomplete l = false) : Unbegun l := by
  cases l with
  | nil => exact h
  | cons b l =>
    have hb : b.ptr = 0 := by simpa [listUncomplete] using hcomplete
    exact List.forall_mem_cons.mpr ⟨hb, h⟩

end Unbegun

/-- From the list `l` the bytes are sent, with which the packets are whole; `m` is left. -/
structure Sends (l : List (WriteBuffer W)) (sent : Bytes) (done : List (Packet W))
    (m : List (WriteBuffer W)) : Prop where
  packets : packets l = done ++ packets m
  begun : begun l ++ sent = flat done ++ begun m
  size : size l = sent.length + size m
  tail : Unbegun m.tail

namespace Sends

variable {l m n : List (WriteBuffer W)} {sent sent' : Bytes} {done done' : List (Packet W)}

theorem refl (h : Unbegun l.tail) : Sends l [] [] l :=
  ⟨rfl, by rw [List.append_nil]; rfl, by rw [List.length_nil, Nat.zero_add], h⟩

theorem trans (h : Sends l sent done m) (h' : Sends m sent' done' n) :
    Sends l (sent ++ sent') (done ++ done') n := by
  refine ⟨?_, ?_, ?_, h'.tail⟩
  · rw [h.packets, h'.packets, List.append_assoc]
  · rw [← List.append_assoc, h.begun, List.append_assoc, h'.begun, flat_append, List.append_assoc]
  · rw [h.size, h'.size, List.length_append, Nat.add_assoc]

/-- Buffers behind the list wait. -/
theorem append (h : Sends l sent done m) (hn : Unbegun n) : Sends (l ++ n) sent done (m ++ n) := by
  refine ⟨?_, ?_, ?_, h.tail.tail_append hn⟩
  · rw [packets_append, packets_append, h.packets, List.append_assoc]
  · have hl : SocketServer.begun (l ++ n) = SocketServer.begun l := by
      cases l with
      | nil => exact hn.begun_eq
      | cons b l => rfl
    have hm : SocketServer.begun (m ++ n) = SocketServer.begun m := by
      cases m with
      | nil => exact hn.begun_eq
      | cons b m => rfl
    rw [hl, hm, h.begun]
  · rw [size_append, size_append, h.size, Nat.add_assoc]

end Sends

/-- The loop stops at the first buffer that it cannot send whole. -/
theorem sendListTcp_spec (l : List (WriteBuffer W)) (hl : Unbegun l.tail)
    (results : List WriteResult) :
    Sends l (sendListTcp l results).bytes (sendListTcp l results).written
      (sendListTcp l results).list := by
  induction l generalizing results with
  | nil => exact Sends.refl hl
  | cons tmp list ih =>
    cases results with
    | nil => exact Sends.refl hl
    | cons r results =>
      cases r with
      | again => exact Sends.refl hl
      | failed => exact Sends.refl hl
      | wrote n =>
        rw [sendListTcp]
        split
        · rename_i hn
          have hbytes : tmp.packet.buffer.take (tmp.ptr + n) =
              tmp.packet.buffer.take tmp.ptr ++ tmp.rest.take n := List.take_add ..
          refine ⟨rfl, hbytes.symm, ?_, hl⟩
          rw [SocketServer.size, SocketServer.size]
          simp only [WriteBuffer.sz, WriteBuffer.rest, List.length_take, List.length_drop] at hn ⊢
          omega
        · have hwhole : Sends [tmp] tmp.rest [tmp.packet] [] := by
            refine ⟨rfl, ?_, rfl, nofun⟩
            simp [begun, flat, WriteBuffer.rest]
          exact (hwhole.append hl).trans (ih (Unbegun.tail hl) results)

/-- The lists of the socket thread: only their first buffer may be begun, and only when no worker
has left one in `dw_buffer`. -/
structure Sound (s : State W) : Prop where
  low : Unbegun s.low
  lowOnly : ∀ b ∈ s.low, b.packet.priority = .low
  high : Unbegun s.high.tail
  dw : s.dw.isSome → Unbegun s.high
  wbSize : s.type ≠ .invalid → s.freeing = none → s.wbSize = size s.high + size s.low

/-- Nothing has happened but to the fields that no sending depends on. -/
def Quiet (s t : State W) : Prop :=
  ∃ type closing reading writing warnSize, (type = .invalid ↔ s.type = .invalid) ∧
    t = { s with type, closing, reading, writing, warnSize }

namespace Quiet

variable {s t u : State W}

theorem refl (s : State W) : Quiet s s := ⟨_, _, _, _, _, Iff.rfl, rfl⟩

theorem trans (h : Quiet s t) (h' : Quiet t u) : Quiet s u := by
  obtain ⟨type, closing, reading, writing, warnSize, htype, rfl⟩ := h
  obtain ⟨type', closing', reading', writing', warnSize', htype', rfl⟩ := h'
  exact ⟨_, _, _, _, _, htype'.trans htype, rfl⟩

theorem sound (h : Quiet s t) (hs : Sound s) : Sound t := by
  obtain ⟨type, closing, reading, writing, warnSize, htype, rfl⟩ := h
  exact ⟨hs.low, hs.lowOnly, hs.high, hs.dw, fun hvalid => hs.wbSize (mt htype.mpr hvalid)⟩

end Quiet

section QuietFunctions

variable (s : State W)

theorem enableWrite_quiet (enable fails : Bool) : Quiet s (s.enableWrite enable fails).1 :=
  ⟨_, _, _, _, _, Iff.rfl, rfl⟩

theorem enableRead_quiet (enable fails : Bool) : Quiet s (s.enableRead enable fails).1 :=
  ⟨_, _, _, _, _, Iff.rfl, rfl⟩

theorem warn_quiet : Quiet s s.warn.1 := by
  rw [State.warn]
  split
  · exact ⟨_, _, _, _, _, Iff.rfl, rfl⟩
  · exact Quiet.refl s

theorem closeRead_quiet (h : s.type ≠ .invalid) : Quiet s s.closeRead :=
  ⟨_, _, _, _, _, by simp [h], rfl⟩

theorem triggerWrite_quiet (fails : Bool) : Quiet s (s.triggerWrite fails).1 := by
  rw [State.triggerWrite]
  split
  · exact Quiet.refl s
  · exact enableWrite_quiet s true fails

theorem pauseSocket_quiet (fails : Bool) : Quiet s (s.pauseSocket fails).1 := by
  rw [State.pauseSocket]
  split
  · exact Quiet.refl s
  · exact enableRead_quiet s false fails

theorem resumeSocket_quiet (fails : Bool) : Quiet s (s.resumeSocket fails).1 := by
  have hread := enableRead_quiet s true fails
  rw [State.resumeSocket]
  split_ifs with hinvalid hclosed
  · exact Quiet.refl s
  · exact Quiet.refl s
  · dsimp only
    split_ifs
    · exact hread
    · exact ⟨_, _, _, _, _, by simp [hinvalid], rfl⟩
    · exact hread
    · exact hread

end QuietFunctions

/-- `force_close` has begun, or there is nothing to be sent or freed. -/
def Frees (s t : State W) : Prop := Quiet s t ∨ ∃ u report, Quiet s u ∧ t = u.freeLists report

section FreeingFunctions

variable (s : State W)

theorem closeSocket_frees (shutdown : Bool) : Frees s (s.closeSocket shutdown).1 := by
  rw [State.closeSocket]
  by_cases hinvalid : s.type = .invalid
  · rw [if_pos hinvalid]
    exact Or.inl (Quiet.refl s)
  rw [if_neg hinvalid]
  dsimp only
  by_cases hshut : shutdown = true ∨ s.nomoreSendingData
  · rw [if_pos hshut]
    exact Or.inr ⟨s, _, Quiet.refl s, rfl⟩
  rw [if_neg hshut]
  split
  · exact Or.inl ⟨_, _, _, _, _, Iff.rfl, rfl⟩
  · exact Or.inl ⟨.halfcloseRead, _, _, _, _, by simp [hinvalid], rfl⟩

theorem forwardMessageTcp_frees (hvalid : s.type ≠ .invalid) (result : ReadResult) :
    Frees s (s.forwardMessageTcp result).1 := by
  cases result with
  | error => exact Or.inl (Quiet.refl s)
  | again => exact Or.inl (Quiet.refl s)
  | data b =>
    rw [State.forwardMessageTcp]
    split_ifs <;> exact Or.inl (Quiet.refl s)
  | eof =>
    rw [State.forwardMessageTcp]
    split_ifs
    · exact Or.inr ⟨s, _, Quiet.refl s, rfl⟩
    · exact Or.inl (Quiet.refl s)
    · exact Or.inl (Quiet.refl s)
    · exact Or.inr ⟨s, _, Quiet.refl s, rfl⟩
    · exact Or.inl (closeRead_quiet s hvalid)

theorem reportConnect_frees (hvalid : s.type ≠ .invalid) (ok fails : Bool) :
    Frees s (s.reportConnect ok fails).1 := by
  have hopen : Quiet s { s with type := .connected } := ⟨_, _, _, _, _, by simp [hvalid], rfl⟩
  have hwrite := hopen.trans (enableWrite_quiet _ false fails)
  rw [State.reportConnect]
  split_ifs
  · dsimp only
    split_ifs
    · exact Or.inr ⟨_, _, hwrite, rfl⟩
    · exact Or.inl hwrite
    · exact Or.inl hopen
  · exact Or.inr ⟨s, _, Quiet.refl s, rfl⟩

end FreeingFunctions

theorem Sound.freeLists {s : State W} (report : Option Report) : Sound (s.freeLists report) :=
  ⟨nofun, nofun, nofun, fun _ => nofun, nofun⟩

theorem Frees.sound {s t : State W} (h : Frees s t) (hs : Sound s) : Sound t := by
  rcases h with hquiet | ⟨u, report, -, rfl⟩
  · exact hquiet.sound hs
  · exact Sound.freeLists report

/-- The state after some sending by the socket thread. -/
def State.drained (s : State W) (high low : List (WriteBuffer W)) (sent : Bytes)
    (done : List (Packet W)) : State W :=
  { s with
    high
    low
    wbSize := s.wbSize - sent.length
    wire := s.wire ++ sent
    written := s.written ++ done }

/-- The loop over the lists, as far as it has come. -/
def Drains (s t : State W) : Prop :=
  ∃ high low sent done, Sends (s.high ++ s.low) sent done (high ++ low) ∧ Unbegun low ∧
    (∀ b ∈ low, b.packet.priority = .low) ∧ t = s.drained high low sent done

namespace Drains

variable {s t u : State W}

theorem refl (hs : Sound s) : Drains s s := by
  refine ⟨s.high, s.low, [], [], Sends.refl (hs.high.tail_append hs.low), hs.low, hs.lowOnly, ?_⟩
  simp [State.drained]

theorem trans (h : Drains s t) (h' : Drains t u) : Drains s u := by
  obtain ⟨high, low, sent, done, hsends, -, -, rfl⟩ := h
  obtain ⟨high', low', sent', done', hsends', hlow, hpriority, rfl⟩ := h'
  refine ⟨high', low', sent ++ sent', done ++ done', hsends.trans hsends', hlow, hpriority, ?_⟩
  simp [State.drained, Int.sub_sub]

theorem sound (h : Drains s t) (hs : Sound s) (hdw : s.dw = none) : Sound t := by
  obtain ⟨high, low, sent, done, hsends, hlow, hpriority, rfl⟩ := h
  refine ⟨hlow, hpriority, ?_, ?_, ?_⟩
  · intro b hb
    apply hsends.tail
    cases high with
    | nil => cases hb
    | cons a high => exact List.mem_append_left low hb
  · intro hsome
    have hnone : s.dw.isSome := hsome
    rw [hdw] at hnone
    cases hnone
  · intro hvalid hfreeing
    have hsize := hs.wbSize hvalid hfreeing
    have hsent := hsends.size
    rw [size_append, size_append] at hsent
    show s.wbSize - sent.length = size high + size low
    omega

end Drains

theorem Sound.takeDw {s : State W} (hs : Sound s) :
    Sound s.takeDw ∧ s.takeDw.dw = none := by
  rw [State.takeDw]
  cases hdw : s.dw with
  | none => exact ⟨hs, hdw⟩
  | some buf =>
    refine ⟨⟨hs.low, hs.lowOnly, hs.dw (by rw [hdw]; rfl), nofun, ?_⟩, rfl⟩
    intro hvalid hfreeing
    have hsize := hs.wbSize hvalid hfreeing
    show s.wbSize + buf.sz = size (buf :: s.high) + size s.low
    rw [size, hsize]
    push_cast
    omega

/-- A buffer of a list that was not begun is begun only by a write that stops the loop. -/
theorem sendListTcp_failed {l : List (WriteBuffer W)} (hl : Unbegun l) {results : List WriteResult}
    (hfailed : (sendListTcp l results).failed = true) : Unbegun (sendListTcp l results).list := by
  induction l generalizing results with
  | nil => exact nofun
  | cons tmp list ih =>
    cases results with
    | nil => exact hl
    | cons r results =>
      cases r with
      | again => exact hl
      | failed => exact hl
      | wrote n =>
        rw [sendListTcp] at hfailed ⊢
        split at hfailed
        · cases hfailed
        · rename_i hn
          rw [if_neg hn]
          exact ih hl.tail hfailed

section SendBuffer

variable {s : State W}

/-- What the end of a call of `send_buffer_` does to the state in which the sending ends. -/
def Ends (s t : State W) : Prop := Quiet s t ∨ t = s.forceClose

theorem closeWrite_ends (hvalid : s.type ≠ .invalid) : Ends s s.closeWrite.1 := by
  rw [State.closeWrite]
  split_ifs
  · exact Or.inr rfl
  · exact Or.inr rfl
  · exact Or.inl (Quiet.refl s)
  · exact Or.inl ⟨_, _, _, _, _, by simp [hvalid], rfl⟩

theorem finish_ends (hs : Sound s) (hvalid : s.type ≠ .invalid) (hfreeing : s.freeing = none)
    (hhigh : s.high = []) (hlow : s.low = []) (fails : Bool) :
    ∃ t r, s.finish fails = some (t, r) ∧ Ends s t := by
  have hsize : s.wbSize = 0 := by
    rw [hs.wbSize hvalid hfreeing, hhigh, hlow]
    rfl
  have hwrite := enableWrite_quiet s false fails
  rw [State.finish, if_pos ⟨⟨hhigh, hlow⟩, hsize⟩]
  split_ifs
  · exact ⟨_, _, rfl, Or.inr rfl⟩
  · dsimp only
    split_ifs
    · exact ⟨_, _, rfl, Or.inl hwrite⟩
    · exact ⟨_, _, rfl, Or.inl (hwrite.trans ⟨_, _, _, _, _, Iff.rfl, rfl⟩)⟩
    · exact ⟨_, _, rfl, Or.inl hwrite⟩

/-- The low list is sent when the high list is empty. -/
theorem afterHigh_spec (hs : Sound s) (hdw : s.dw = none) (hvalid : s.type ≠ .invalid)
    (hfreeing : s.freeing = none) (hhigh : s.high = []) (results : List WriteResult)
    (fails : Bool) :
    ∃ t u r, s.afterHigh results fails = some (u, r) ∧ Drains s t ∧ Ends t u := by
  have hsent := sendListTcp_spec s.low hs.low.tail results
  have hpriority : ∀ b ∈ (sendListTcp s.low results).list, b.packet.priority = .low := by
    intro b hb
    have hmem : b.packet ∈ packets s.low := by
      rw [hsent.packets]
      exact List.mem_append_right _ (List.mem_map_of_mem hb)
    obtain ⟨a, ha, hab⟩ := List.mem_map.mp hmem
    rw [← hab]
    exact hs.lowOnly a ha
  have hdrains : Unbegun (sendListTcp s.low results).list → Drains s (s.sendLow results) := by
    intro hunbegun
    refine ⟨s.high, _, (sendListTcp s.low results).bytes, (sendListTcp s.low results).written, ?_,
      hunbegun, hpriority, rfl⟩
    rw [hhigh]
    exact hsent
  rw [State.afterHigh]
  split
  · rename_i hempty
    obtain ⟨t, r, hfinish, hends⟩ :=
      finish_ends hs hvalid hfreeing hhigh (List.isEmpty_iff.mp hempty) fails
    exact ⟨s, t, r, hfinish, Drains.refl hs, hends⟩
  dsimp only
  split
  · rename_i hfailed
    have hlow := sendListTcp_failed hs.low hfailed
    exact ⟨_, _, _, rfl, hdrains hlow, closeWrite_ends hvalid⟩
  split
  · -- the buffer that is begun becomes the only one of the high list
    rename_i huncomplete
    cases hlist : (sendListTcp s.low results).list with
    | nil =>
      have hnone : listUncomplete (sendListTcp s.low results).list = true := huncomplete
      rw [hlist] at hnone
      cases hnone
    | cons tmp low =>
      have hraise : (s.sendLow results).raiseUncomplete =
          some { s.sendLow results with high := [tmp], low } := by
        rw [State.raiseUncomplete, show (s.sendLow results).low = tmp :: low from hlist,
          show (s.sendLow results).high = [] from hhigh]
      rw [hlist] at hsent hpriority
      rw [hraise]
      refine ⟨_, _, _, rfl, ⟨[tmp], low, _, _, ?_, hsent.tail, ?_, rfl⟩, Or.inl (Quiet.refl _)⟩
      · rw [hhigh]
        exact hsent
      · exact fun b hb => hpriority b (List.mem_cons_of_mem tmp hb)
  · rename_i huncomplete
    have hlow : Unbegun (sendListTcp s.low results).list :=
      hsent.tail.of_complete (Bool.eq_false_iff.mpr huncomplete)
    have hd := hdrains hlow
    split
    · rename_i hempty
      obtain ⟨t, r, hfinish, hends⟩ := finish_ends (hd.sound hs hdw) hvalid hfreeing hhigh
        (List.isEmpty_iff.mp hempty) fails
      exact ⟨_, t, r, hfinish, hd, hends⟩
    · exact ⟨_, _, _, rfl, hd, Or.inl (Quiet.refl _)⟩

theorem sendBuffer'_spec (hs : Sound s) (hdw : s.dw = none) (hvalid : s.type ≠ .invalid)
    (hfreeing : s.freeing = none) (results : List WriteResult) (fails : Bool) :
    ∃ t u r, s.sendBuffer' results fails = some (u, r) ∧ Drains s t ∧ Ends t u := by
  have hsent := sendListTcp_spec s.high hs.high results
  have hdrains : Drains s (s.sendHigh results) :=
    ⟨_, s.low, _, _, hsent.append hs.low, hs.low, hs.lowOnly, rfl⟩
  rw [State.sendBuffer', if_neg (by rw [hs.low.listUncomplete_eq]; exact Bool.false_ne_true)]
  dsimp only
  split
  · exact ⟨_, _, _, rfl, hdrains, closeWrite_ends hvalid⟩
  split
  · rename_i hempty
    obtain ⟨t, u, r, hafter, hd, hends⟩ := afterHigh_spec (hdrains.sound hs hdw) hdw hvalid hfreeing
      (List.isEmpty_iff.mp hempty) (sendListTcp s.high results).results fails
    exact ⟨t, u, r, hafter, hdrains.trans hd, hends⟩
  · exact ⟨_, _, _, rfl, hdrains, Or.inl (Quiet.refl _)⟩

end SendBuffer

/-- The worker has the lock. -/
def Pc.holds : Pc → Bool
  | .looking true _ _ | .written _ _ => true
  | _ => false

/-- The second look has found nothing in the lists. -/
def Pc.alone : Pc → Bool
  | .looking true seen _ => seen ≠ .nothing
  | .written _ _ => true
  | _ => false

/-- The first look has found no command on its way. -/
def Pc.ahead : Pc → Bool
  | .looking true _ _ | .looking false .sending _ | .looking false .type _ | .written _ _ => true
  | _ => false

/-- What of a packet the worker has still to leave in `dw_buffer`. -/
def Pc.part (w : W) : Pc → List (WriteBuffer W)
  | .written buffer n => if n = buffer.length then [] else [⟨⟨w, .high, buffer⟩, n⟩]
  | _ => []

/-- The packet that a worker has still to hand over. -/
def Pc.underway (w : W) : Pc → List (Packet W)
  | .looking _ _ buffer => [⟨w, .high, buffer⟩]
  | .counting priority buffer => [⟨w, priority, buffer⟩]
  | _ => []

theorem Pc.ahead_of_holds {pc : Pc} (h : pc.holds = true) : pc.ahead = true := by
  cases pc with
  | looking again seen buffer =>
    cases again with
    | true => rfl
    | false => cases h
  | written buffer n => rfl
  | idle => cases h
  | counting priority buffer => cases h
  | posting => cases h

def Request.packet : Request W → Option (Packet W)
  | .send packet => some packet
  | _ => none

/-- The packets in commands. -/
def carried (l : List (Request W)) : List (Packet W) := l.filterMap Request.packet

/-- The workers: one has the lock, and while it writes nothing of the lists is begun. From its first
look on no command of its own is on its way, so that its packet overtakes none of its own. -/
structure Locked (s : State W) : Prop where
  lock : ∀ w, (s.worker w).holds = true ↔ s.lock = some w
  alone : ∀ w, (s.worker w).alone = true → s.dw = none ∧ Unbegun s.high ∧
    ∀ b ∈ s.high ++ s.low, b.packet.sender ≠ w
  ahead : ∀ w, (s.worker w).ahead = true → ∀ p ∈ carried s.pipe, p.sender ≠ w
  posting : ∀ c ∈ s.incoming, s.worker c.1 = .posting ∧ ∀ p ∈ c.2.packet, p.sender = c.1
  nodup : (s.incoming.map Prod.fst).Nodup
  sending : s.sending = (carried s.pipe).length + (carried (s.incoming.map Prod.snd)).length

theorem Pc.holds_of_alone {pc : Pc} (h : pc.alone = true) : pc.holds = true := by
  cases pc with
  | looking again seen buffer =>
    cases again with
    | true => rfl
    | false => cases h
  | written buffer n => rfl
  | idle => cases h
  | counting priority buffer => cases h
  | posting => cases h

theorem carried_append (l m : List (Request W)) : carried (l ++ m) = carried l ++ carried m :=
  List.filterMap_append ..

theorem carried_singleton (request : Request W) : carried [request] = request.packet.toList := by
  cases request <;> rfl

theorem sendSocket_spec (s : State W) (packet : Packet W) (fails : Bool) :
    ∃ u, Quiet u (s.sendSocket packet fails).1 ∧
      (u = { s with freed := s.freed ++ [packet] } ∨
        ∃ toLow, (toLow = true → packet.priority = .low) ∧
          (toLow = false → packet.priority = .high ∨ s.low = []) ∧ u = s.append toLow packet) := by
  rw [State.sendSocket]
  split
  · exact ⟨_, Quiet.refl _, Or.inl rfl⟩
  split
  · rename_i hempty
    have hwrite := enableWrite_quiet (s.append false packet) true fails
    refine ⟨s.append false packet, ?_, Or.inr ⟨false, nofun, fun _ => Or.inr hempty.2, rfl⟩⟩
    dsimp only
    split
    · exact hwrite
    · exact hwrite.trans (warn_quiet _)
  · refine ⟨_, warn_quiet _, Or.inr ⟨_, of_decide_eq_true, ?_, rfl⟩⟩
    intro hhigh
    left
    cases hpriority : packet.priority with
    | high => rfl
    | low => exact absurd hpriority (of_decide_eq_false hhigh)

namespace Locked

variable {s t u : State W}

theorem quiet (h : Locked s) (hquiet : Quiet s t) : Locked t := by
  obtain ⟨type, closing, reading, writing, warnSize, htype, rfl⟩ := hquiet
  exact ⟨h.lock, h.alone, h.ahead, h.posting, h.nodup, h.sending⟩

theorem frees (h : Locked s) (hfrees : Frees s t) : Locked t := by
  rcases hfrees with hquiet | ⟨u, report, hquiet, rfl⟩
  · exact h.quiet hquiet
  · have hu := h.quiet hquiet
    exact ⟨hu.lock, fun w hw => ⟨(hu.alone w hw).1, nofun, nofun⟩, hu.ahead, hu.posting, hu.nodup,
      hu.sending⟩

/-- Whatever happens to the lists and to `dw_buffer` while no worker has the lock. -/
theorem unlocked (h : Locked s) (hlock : s.lock = none) {high low dw type wbSize freed freeing}
    {wire : Bytes} {written : List (Packet W)} :
    Locked { s with high, low, dw, type, wbSize, freed, freeing, wire, written } := by
  refine ⟨h.lock, ?_, h.ahead, h.posting, h.nodup, h.sending⟩
  intro w hw
  have hholds := (h.lock w).mp (Pc.holds_of_alone hw)
  rw [hlock] at hholds
  cases hholds

theorem drains (h : Locked s) (hlock : s.lock = none) (hdrains : Drains s t) : Locked t := by
  obtain ⟨high, low, sent, done, -, -, -, rfl⟩ := hdrains
  exact h.unlocked hlock

theorem ends (h : Locked s) (hlock : s.lock = none) (hends : Ends s t) : Locked t := by
  rcases hends with hquiet | rfl
  · exact h.quiet hquiet
  · exact h.unlocked hlock

/-- The socket thread takes a command that carries no packet. -/
theorem pop {request : Request W} (h : Locked s) (hhead : s.pipe.head? = some request)
    (hpacket : request.packet = none) : Locked { s with pipe := s.pipe.tail } := by
  obtain ⟨tail, htail⟩ : ∃ tail, s.pipe = request :: tail := by
    cases hpipe : s.pipe with
    | nil =>
      rw [hpipe] at hhead
      cases hhead
    | cons r tail =>
      rw [hpipe] at hhead
      exact ⟨tail, by rw [Option.some.inj hhead]⟩
  have hcarried : carried s.pipe.tail = carried s.pipe := by
    rw [htail, List.tail_cons, carried, carried, List.filterMap_cons, hpacket]
  refine ⟨h.lock, h.alone, ?_, h.posting, h.nodup, ?_⟩
  · intro w hw
    show ∀ p ∈ carried s.pipe.tail, p.sender ≠ w
    rw [hcarried]
    exact h.ahead w hw
  · show s.sending = (carried s.pipe.tail).length + _
    rw [hcarried]
    exact h.sending

variable [DecidableEq W]

/-- A worker goes on; it may take the lock or give it back. -/
theorem move (h : Locked s) {w : W} {pc : Pc} {lock : Option W} (hpc : s.worker w ≠ .posting)
    (hholds : pc.holds = true ↔ lock = some w)
    (hlock : ∀ v, v ≠ w → (lock = some v ↔ s.lock = some v))
    (halone : pc.alone = true → s.dw = none ∧ Unbegun s.high ∧
      ∀ b ∈ s.high ++ s.low, b.packet.sender ≠ w)
    (hahead : pc.ahead = true → ∀ p ∈ carried s.pipe, p.sender ≠ w) :
    Locked { s.setWorker w pc with lock } := by
  have hother : ∀ v, v ≠ w → (s.setWorker w pc).worker v = s.worker v :=
    fun v hv => Function.update_of_ne hv ..
  have hself : (s.setWorker w pc).worker w = pc := Function.update_self ..
  refine ⟨?_, ?_, ?_, ?_, h.nodup, h.sending⟩
  · intro v
    by_cases hv : v = w
    · rw [hv]
      show ((s.setWorker w pc).worker w).holds = true ↔ _
      rw [hself]
      exact hholds
    · show ((s.setWorker w pc).worker v).holds = true ↔ _
      rw [hother v hv, h.lock v]
      exact (hlock v hv).symm
  · intro v hv
    by_cases hvw : v = w
    · rw [hvw] at hv ⊢
      exact halone (hself ▸ hv)
    · exact h.alone v (hother v hvw ▸ hv)
  · intro v hv
    by_cases hvw : v = w
    · rw [hvw] at hv ⊢
      exact hahead (hself ▸ hv)
    · exact h.ahead v (hother v hvw ▸ hv)
  · intro c hc
    obtain ⟨hposting, hsender⟩ := h.posting c hc
    have hne : c.1 ≠ w := by
      intro hcw
      rw [hcw] at hposting
      exact hpc hposting
    exact ⟨(hother c.1 hne).trans hposting, hsender⟩

/-- A worker goes on without the lock. -/
theorem moveOn (h : Locked s) {w : W} {pc : Pc} (hpc : s.worker w ≠ .posting)
    (hholds : pc.holds = (s.worker w).holds)
    (halone : pc.alone = true → s.dw = none ∧ Unbegun s.high ∧
      ∀ b ∈ s.high ++ s.low, b.packet.sender ≠ w)
    (hahead : pc.ahead = true → ∀ p ∈ carried s.pipe, p.sender ≠ w) :
    Locked (s.setWorker w pc) :=
  h.move hpc (by rw [hholds, h.lock w]) (fun _ _ => Iff.rfl) halone hahead

theorem send (h : Locked s) {packet : Packet W} (hidle : s.worker packet.sender = .idle)
    {pc : Pc} (hpc : pc.holds = false ∧ pc.alone = false ∧ pc.ahead = false) :
    Locked (s.setWorker packet.sender pc) := by
  obtain ⟨hholds, halone, hahead⟩ := hpc
  refine h.moveOn (by rw [hidle]; nofun) (by rw [hholds, hidle]; rfl) ?_ ?_
  · rw [halone]
    exact nofun
  · rw [hahead]
    exact nofun

theorem giveUp (h : Locked s) {w : W} {again : Bool} {seen : Seen} {buffer : Bytes}
    (hpc : s.worker w = .looking again seen buffer) : Locked (s.giveUp w again buffer) := by
  refine h.move (by rw [hpc]; nofun) ?_ ?_ nofun nofun
  · constructor
    · exact nofun
    · intro hlock
      cases again with
      | true => cases hlock
      | false =>
        have hholds := (h.lock w).mpr hlock
        rw [hpc] at hholds
        exact hholds
  · intro v hv
    cases again with
    | false => exact Iff.rfl
    | true =>
      have hlock : s.lock = some w := (h.lock w).mp (by rw [hpc]; rfl)
      rw [hlock]
      simp [hv.symm]

theorem look (h : Locked s) {w : W} {again : Bool} {seen : Seen} {buffer : Bytes}
    (hpc : s.worker w = .looking again seen buffer) : Locked (s.look w again seen buffer) := by
  have hmoves : s.worker w ≠ .posting := by
    rw [hpc]
    nofun
  unfold State.look
  cases seen with
  | nothing =>
    dsimp only
    split
    · rename_i hempty
      obtain ⟨⟨hhigh, hlow⟩, hdw⟩ := hempty
      refine h.moveOn hmoves ?_ (fun _ => ⟨Option.isNone_iff_eq_none.mp hdw, ?_, ?_⟩) ?_
      · rw [hpc]
        cases again <;> rfl
      · rw [hhigh]
        exact nofun
      · rw [hhigh, hlow]
        exact nofun
      · intro hahead
        refine h.ahead w ?_
        rw [hpc]
        cases again with
        | true => rfl
        | false => cases hahead
    · exact h.giveUp hpc
  | lists =>
    dsimp only
    split
    · rename_i hsending
      refine h.moveOn hmoves ?_ ?_ ?_
      · rw [hpc]
        cases again <;> rfl
      · intro halone
        refine h.alone w ?_
        rw [hpc]
        cases again with
        | true => rfl
        | false => cases halone
      · -- no command at all is on its way
        intro _ p hp
        have hnone := h.sending
        rw [hsending] at hnone
        have hlength := List.length_pos_of_mem hp
        omega
    · exact h.giveUp hpc
  | sending =>
    dsimp only
    split
    · refine h.moveOn hmoves ?_ ?_ ?_
      · rw [hpc]
        cases again <;> rfl
      · intro halone
        refine h.alone w ?_
        rw [hpc]
        cases again with
        | true => rfl
        | false => cases halone
      · intro _
        refine h.ahead w ?_
        rw [hpc]
        cases again <;> rfl
    · exact h.giveUp hpc
  | type =>
    dsimp only
    split
    · rename_i hfree
      obtain ⟨rfl, hlock⟩ := hfree
      have hunlocked : s.lock = none := Option.isNone_iff_eq_none.mp hlock
      refine h.move hmoves (iff_of_true rfl rfl) ?_ nofun ?_
      · intro v hv
        rw [hunlocked]
        simp [hv.symm]
      · intro _
        refine h.ahead w ?_
        rw [hpc]
        rfl
    · exact h.giveUp hpc

theorem directWrite (h : Locked s) {w : W} {buffer : Bytes} {n : ℕ}
    (hpc : s.worker w = .looking true .type buffer) : Locked (s.directWrite w buffer n) := by
  have hmoved : Locked (s.setWorker w (.written buffer n)) := by
    refine h.moveOn (by rw [hpc]; nofun) (by rw [hpc]; rfl) ?_ ?_
    · exact fun _ => h.alone w (by rw [hpc]; rfl)
    · exact fun _ => h.ahead w (by rw [hpc]; rfl)
  exact ⟨hmoved.lock, hmoved.alone, hmoved.ahead, hmoved.posting, hmoved.nodup, hmoved.sending⟩

/-- A worker without a command on its way to the pipe makes one. -/
theorem announce (h : Locked s) {w : W} {request : Request W} (hpc : s.worker w ≠ .posting)
    {lock : Option W} (hfree : lock ≠ some w)
    (hlock : ∀ v, v ≠ w → (lock = some v ↔ s.lock = some v))
    (hsender : ∀ p ∈ request.packet, p.sender = w) :
    Locked { s.setWorker w .posting with
      lock
      sending := s.sending + request.packet.toList.length
      incoming := s.incoming ++ [(w, request)] } := by
  have hmoved : Locked { s.setWorker w .posting with lock } :=
    h.move hpc (iff_of_false nofun hfree) hlock nofun nofun
  refine ⟨hmoved.lock, hmoved.alone, hmoved.ahead, ?_, ?_, ?_⟩
  · intro c hc
    rcases List.mem_append.mp hc with hold | hnew
    · exact hmoved.posting c hold
    · rw [List.mem_singleton.mp hnew]
      exact ⟨Function.update_self .., hsender⟩
  · rw [List.map_append, List.nodup_append]
    refine ⟨h.nodup, List.nodup_singleton w, ?_⟩
    intro v hv v' hv' heq
    obtain ⟨c, hc, hcv⟩ := List.mem_map.mp hv
    have hposting := (h.posting c hc).1
    rw [hcv, heq, List.mem_singleton.mp hv'] at hposting
    exact hpc hposting
  · show s.sending + request.packet.toList.length = (carried s.pipe).length +
      (carried ((s.incoming ++ [(w, request)]).map Prod.snd)).length
    rw [h.sending, List.map_append, List.map_singleton, carried_append, carried_singleton,
      List.length_append, Nat.add_assoc]

theorem unlock (h : Locked s) {w : W} {buffer : Bytes} {n : ℕ}
    (hpc : s.worker w = .written buffer n) : Locked (s.unlock w buffer n) := by
  have hmoves : s.worker w ≠ .posting := by
    rw [hpc]
    nofun
  have hlock : s.lock = some w := (h.lock w).mp (by rw [hpc]; rfl)
  have hothers : ∀ v, v ≠ w → (none = some v ↔ s.lock = some v) := by
    intro v hv
    rw [hlock]
    simp [hv.symm]
  rw [State.unlock]
  split
  · exact h.move hmoves (iff_of_false nofun nofun) hothers nofun nofun
  · have hfree : (none : Option W) ≠ some w := nofun
    have hpacket : ∀ p ∈ (Request.write : Request W).packet, p.sender = w := nofun
    exact (h.announce hmoves hfree hothers hpacket).unlocked rfl

theorem incSendingRef (h : Locked s) {packet : Packet W}
    (hpc : s.worker packet.sender = .counting packet.priority packet.buffer) :
    Locked (s.incSendingRef packet) := by
  have hfree : s.lock ≠ some packet.sender := by
    intro hlock
    have hholds := (h.lock _).mpr hlock
    rw [hpc] at hholds
    cases hholds
  have hpacket : ∀ p ∈ (Request.send packet).packet, p.sender = packet.sender := by
    intro p hp
    cases hp
    rfl
  exact h.announce (by rw [hpc]; nofun) hfree (fun _ _ => Iff.rfl) hpacket

theorem sendRequest (h : Locked s) {w : W} {request : Request W}
    (hmem : (w, request) ∈ s.incoming) : Locked (s.sendRequest w request) := by
  obtain ⟨hposting, hsender⟩ := h.posting _ hmem
  have hperm := List.perm_cons_erase hmem
  have hothers : ∀ c ∈ s.incoming.erase (w, request), c.1 ≠ w := by
    intro c hc hcw
    have hnodup := (hperm.map Prod.fst).nodup_iff.mp h.nodup
    rw [List.map_cons, List.nodup_cons] at hnodup
    exact hnodup.1 (List.mem_map.mpr ⟨c, hc, hcw⟩)
  have hother : ∀ v, v ≠ w → (s.sendRequest w request).worker v = s.worker v :=
    fun v hv => Function.update_of_ne hv ..
  have hself : (s.sendRequest w request).worker w = .idle := Function.update_self ..
  refine ⟨?_, ?_, ?_, ?_, ?_, ?_⟩
  · intro v
    by_cases hv : v = w
    · have hfree := h.lock w
      rw [hposting] at hfree
      rw [hv, hself]
      exact hfree
    · rw [hother v hv]
      exact h.lock v
  · intro v hv
    by_cases hvw : v = w
    · rw [hvw, hself] at hv
      cases hv
    · exact h.alone v (hother v hvw ▸ hv)
  · intro v hv p hp
    by_cases hvw : v = w
    · rw [hvw, hself] at hv
      cases hv
    · have hall : p ∈ carried s.pipe ++ carried [request] := by
        rw [← carried_append]
        exact hp
      rcases List.mem_append.mp hall with hold | hnew
      · exact h.ahead v (hother v hvw ▸ hv) p hold
      · rw [carried_singleton, Option.mem_toList] at hnew
        rw [hsender p hnew]
        exact Ne.symm hvw
  · intro c hc
    obtain ⟨hc', hsender'⟩ := h.posting c (List.mem_of_mem_erase hc)
    exact ⟨(hother c.1 (hothers c hc)).trans hc', hsender'⟩
  · exact h.nodup.sublist (List.erase_sublist.map _)
  · have hcount := ((hperm.map Prod.snd).filterMap Request.packet).length_eq
    have hsending := h.sending
    have hpipe : carried (s.sendRequest w request).pipe = carried s.pipe ++ carried [request] :=
      carried_append ..
    have hsplit : carried (request :: (s.incoming.erase (w, request)).map Prod.snd) =
        carried [request] ++ carried ((s.incoming.erase (w, request)).map Prod.snd) :=
      carried_append [request] _
    rw [List.map_cons] at hcount
    rw [hpipe, List.length_append]
    have hlengths := congrArg List.length hsplit
    rw [List.length_append] at hlengths
    show s.sending = _ + (carried ((s.incoming.erase (w, request)).map Prod.snd)).length
    simp only [carried] at hcount hlengths hsending ⊢
    omega

end Locked

/-- The packet that a worker is asked to send. -/
def Event.call : Event W → Option (Packet W)
  | .send packet => some packet
  | _ => none

/-- The packet that a step hands over: it is written, or counted to be sent. -/
def Event.commit : Event W → Option (Packet W)
  | .directWrite w buffer _ => some ⟨w, .high, buffer⟩
  | .count packet => some packet
  | _ => none

section Steps

variable {s t : State W}

theorem ctrlCmd_frees {request : Request W} (hpacket : request.packet = none) (fails : Bool) :
    ∃ t r, s.ctrlCmd request fails = some (t, r) ∧ Frees s t := by
  cases request with
  | send packet => cases hpacket
  | write => exact ⟨_, _, rfl, Or.inl (triggerWrite_quiet s fails)⟩
  | close shutdown => exact ⟨_, _, rfl, closeSocket_frees s shutdown⟩
  | resume => exact ⟨_, _, rfl, Or.inl (resumeSocket_quiet s fails)⟩
  | pause => exact ⟨_, _, rfl, Or.inl (pauseSocket_quiet s fails)⟩

/-- The socket thread takes a packet: it is freed, or joins one of the lists. -/
def Takes (s : State W) (packet : Packet W) (t : State W) : Prop :=
  ∃ u v, (u = { s with freed := s.freed ++ [packet] } ∨
      ∃ toLow, (toLow = true → packet.priority = .low) ∧
        (toLow = false → packet.priority = .high ∨ s.low = []) ∧ u = s.append toLow packet) ∧
    Quiet u v ∧ t = { v with sending := s.sending - 1 }

theorem ctrlCmd_takes (packet : Packet W) (hsending : s.sending ≠ 0) (fails : Bool) :
    ∃ t r, s.ctrlCmd (.send packet) fails = some (t, r) ∧ Takes s packet t := by
  obtain ⟨u, hquiet, hu⟩ := sendSocket_spec s packet fails
  have hsame : u.sending = s.sending := by
    rcases hu with rfl | ⟨toLow, -, -, rfl⟩
    · rfl
    · cases toLow <;> rfl
  have hthen : (s.sendSocket packet fails).1.sending = s.sending := by
    obtain ⟨type, closing, reading, writing, warnSize, -, heq⟩ := hquiet
    rw [heq]
    exact hsame
  refine ⟨_, (s.sendSocket packet fails).2, ?_, u, (s.sendSocket packet fails).1, hu, hquiet, rfl⟩
  rw [State.ctrlCmd]
  dsimp only
  rw [if_neg (by rw [hthen]; exact hsending), hthen]

theorem takeDw_frame (s : State W) :
    s.takeDw.type = s.type ∧ s.takeDw.freeing = s.freeing ∧ s.takeDw.lock = s.lock := by
  rw [State.takeDw]
  split <;> exact ⟨rfl, rfl, rfl⟩

variable [DecidableEq W]

/-- What a step does. -/
inductive Change (s : State W) : Event W → State W → Prop
  | send (packet : Packet W) (pc : Pc) : pc.holds = false ∧ pc.alone = false ∧ pc.ahead = false →
      pc.underway packet.sender = [packet] → Change s (.send packet) (s.setWorker packet.sender pc)
  | look (w : W) (again : Bool) (seen : Seen) (buffer : Bytes) :
      Change s (.look w again seen buffer) (s.look w again seen buffer)
  | directWrite (w : W) (buffer : Bytes) (n : ℕ) :
      Change s (.directWrite w buffer n) (s.directWrite w buffer n)
  | unlock (w : W) (buffer : Bytes) (n : ℕ) :
      Change s (.unlock w buffer n) (s.unlock w buffer n)
  | count (packet : Packet W) : Change s (.count packet) (s.incSendingRef packet)
  | post (w : W) (request : Request W) : Change s (.post w request) (s.sendRequest w request)
  | ask (w : W) (request : Request W) :
      Change s (.ask w request) { s with pipe := s.pipe ++ [request] }
  | takes {packet : Packet W} {fails : Bool} {t : State W} :
      Takes { s with pipe := s.pipe.tail } packet t → Change s (.ctrl (.send packet) fails) t
  | command {request : Request W} {fails : Bool} {t : State W} : request.packet = none →
      Frees { s with pipe := s.pipe.tail } t → Change s (.ctrl request fails) t
  | frees {e : Event W} {t : State W} : e.call = none → e.commit = none → Frees s t → Change s e t
  | drains {results : List WriteResult} {fails : Bool} {t u : State W} : s.lock = none →
      Drains s.takeDw t → Ends t u → Change s (.writable results fails) u
  | closed (report : Option Report) : s.lock = none → Change s (.closed report) s.invalidate

/-- No assertion fails in a step. -/
theorem step_change (hs : Sound s) (hl : Locked s) {e : Event W} (he : Enabled s e) :
    ∃ t r, step s e = some (t, r) ∧ Change s e t := by
  cases e with
  | send packet =>
    obtain ⟨sender, priority, buffer⟩ := packet
    cases priority with
    | high => exact ⟨_, _, rfl, Change.send _ _ ⟨rfl, rfl, rfl⟩ rfl⟩
    | low => exact ⟨_, _, rfl, Change.send _ _ ⟨rfl, rfl, rfl⟩ rfl⟩
  | look w again seen buffer => exact ⟨_, _, rfl, Change.look w again seen buffer⟩
  | directWrite w buffer n => exact ⟨_, _, rfl, Change.directWrite w buffer n⟩
  | unlock w buffer n => exact ⟨_, _, rfl, Change.unlock w buffer n⟩
  | count packet => exact ⟨_, _, rfl, Change.count packet⟩
  | post w request => exact ⟨_, _, rfl, Change.post w request⟩
  | ask w request => exact ⟨_, _, rfl, Change.ask w request⟩
  | ctrl request fails =>
    obtain ⟨-, hhead⟩ := he
    cases hrequest : request.packet with
    | none =>
      obtain ⟨t, r, hstep, hfrees⟩ :=
        ctrlCmd_frees (s := { s with pipe := s.pipe.tail }) hrequest fails
      exact ⟨t, r, hstep, Change.command hrequest hfrees⟩
    | some packet =>
      have hsend : request = .send packet := by
        cases request with
        | send p => rw [Option.some.inj hrequest]
        | write => cases hrequest
        | close shutdown => cases hrequest
        | resume => cases hrequest
        | pause => cases hrequest
      have hsending : s.sending ≠ 0 := by
        have hmem : packet ∈ carried s.pipe :=
          List.mem_filterMap.mpr ⟨request, List.mem_of_mem_head? hhead, hrequest⟩
        have hpos := List.length_pos_of_mem hmem
        have hcount := hl.sending
        omega
      rw [hsend]
      obtain ⟨t, r, hstep, htakes⟩ :=
        ctrlCmd_takes (s := { s with pipe := s.pipe.tail }) packet hsending fails
      exact ⟨t, r, hstep, Change.takes htakes⟩
  | connect ok fails =>
    refine ⟨_, _, rfl, Change.frees rfl rfl (reportConnect_frees s ?_ ok fails)⟩
    rw [he.2]
    nofun
  | readable result =>
    exact ⟨_, _, rfl, Change.frees rfl rfl (forwardMessageTcp_frees s he.2.2 result)⟩
  | writable results fails =>
    obtain ⟨hfreeing, -, hvalid, -⟩ := he
    obtain ⟨htype, hfreeing', -⟩ := takeDw_frame s
    obtain ⟨hs', hdw⟩ := hs.takeDw
    rw [step, State.sendBuffer]
    split
    · exact ⟨_, _, rfl, Change.frees rfl rfl (Or.inl (Quiet.refl s))⟩
    · rename_i hlock
      obtain ⟨t, u, r, hsend, hdrains, hends⟩ := sendBuffer'_spec hs' hdw (htype ▸ hvalid)
        (hfreeing'.trans hfreeing) results fails
      have hunlocked : s.lock = none := by simpa using hlock
      exact ⟨u, r, hsend, Change.drains hunlocked hdrains hends⟩
  | fault => exact ⟨_, _, rfl, Change.frees rfl rfl (Or.inl (Quiet.refl s))⟩
  | eof => exact ⟨_, _, rfl, Change.frees rfl rfl (Or.inr ⟨s, _, Quiet.refl s, rfl⟩)⟩
  | closed report => exact ⟨_, _, rfl, Change.closed report he.2⟩

/-- A worker that only looks, and takes the lock or gives it back. -/
theorem look_moves (hl : Locked s) {w : W} {again : Bool} {seen : Seen} {buffer : Bytes}
    (hpc : s.worker w = .looking again seen buffer) :
    ∃ pc lock, s.look w again seen buffer = { s.setWorker w pc with lock } ∧ pc.part w = [] ∧
      pc.underway w = [⟨w, .high, buffer⟩] ∧
      ∀ v, v ≠ w → (lock = some v ↔ s.lock = some v) := by
  have hgive : ∃ pc lock, s.giveUp w again buffer = { s.setWorker w pc with lock } ∧
      pc.part w = [] ∧ pc.underway w = [⟨w, .high, buffer⟩] ∧
      ∀ v, v ≠ w → (lock = some v ↔ s.lock = some v) := by
    refine ⟨.counting .high buffer, if again then none else s.lock, rfl, rfl, rfl, ?_⟩
    intro v hv
    cases again with
    | false => exact Iff.rfl
    | true =>
      have hlock : s.lock = some w := (hl.lock w).mp (by rw [hpc]; rfl)
      rw [hlock]
      simp [hv.symm]
  unfold State.look
  cases seen with
  | nothing =>
    dsimp only
    split
    · exact ⟨_, s.lock, rfl, rfl, rfl, fun _ _ => Iff.rfl⟩
    · exact hgive
  | lists =>
    dsimp only
    split
    · exact ⟨_, s.lock, rfl, rfl, rfl, fun _ _ => Iff.rfl⟩
    · exact hgive
  | sending =>
    dsimp only
    split
    · exact ⟨_, s.lock, rfl, rfl, rfl, fun _ _ => Iff.rfl⟩
    · exact hgive
  | type =>
    dsimp only
    split
    · rename_i hfree
      have hunlocked : s.lock = none := Option.isNone_iff_eq_none.mp hfree.2
      refine ⟨_, _, rfl, rfl, rfl, ?_⟩
      intro v hv
      rw [hunlocked]
      simp [hv.symm]
    · exact hgive

omit [DecidableEq W] in
theorem Sound.takes (hs : Sound s) {packet : Packet W} (htakes : Takes s packet t) : Sound t := by
  obtain ⟨u, v, hu, hquiet, rfl⟩ := htakes
  have hsound : Sound u := by
    rcases hu with rfl | ⟨toLow, htrue, -, rfl⟩
    · exact ⟨hs.low, hs.lowOnly, hs.high, hs.dw, hs.wbSize⟩
    · have hnew : Unbegun [(⟨packet, 0⟩ : WriteBuffer W)] := by
        intro b hb
        rw [List.mem_singleton.mp hb]
      have hsize : ∀ l : List (WriteBuffer W),
          size (l ++ [⟨packet, 0⟩]) = size l + (⟨packet, 0⟩ : WriteBuffer W).sz := by
        intro l
        rw [size_append, size]
        rfl
      rw [State.append]
      cases toLow with
      | true =>
        refine ⟨hs.low.append hnew, ?_, hs.high, hs.dw, ?_⟩
        · intro b hb
          rcases List.mem_append.mp hb with hold | hlast
          · exact hs.lowOnly b hold
          · rw [List.mem_singleton.mp hlast]
            exact htrue rfl
        · intro hvalid hfreeing
          have hwb := hs.wbSize hvalid hfreeing
          simp only [if_true, hsize]
          omega
      | false =>
        refine ⟨hs.low, hs.lowOnly, hs.high.tail_append hnew, fun h => (hs.dw h).append hnew, ?_⟩
        intro hvalid hfreeing
        have hwb := hs.wbSize hvalid hfreeing
        simp only [Bool.false_eq_true, if_false, hsize]
        omega
  have hv := hquiet.sound hsound
  exact ⟨hv.low, hv.lowOnly, hv.high, hv.dw, hv.wbSize⟩

theorem Sound.change (hs : Sound s) (hl : Locked s) {e : Event W} (he : Enabled s e)
    (hchange : Change s e t) : Sound t := by
  cases hchange with
  | send packet pc _ _ => exact ⟨hs.low, hs.lowOnly, hs.high, hs.dw, hs.wbSize⟩
  | look w again seen buffer =>
    obtain ⟨pc, lock, heq, -⟩ := look_moves hl he.1
    rw [heq]
    exact ⟨hs.low, hs.lowOnly, hs.high, hs.dw, hs.wbSize⟩
  | directWrite w buffer n => exact ⟨hs.low, hs.lowOnly, hs.high, hs.dw, hs.wbSize⟩
  | unlock w buffer n =>
    have hpc : s.worker w = .written buffer n := he
    rw [State.unlock]
    split
    · exact ⟨hs.low, hs.lowOnly, hs.high, hs.dw, hs.wbSize⟩
    · refine ⟨hs.low, hs.lowOnly, hs.high, fun _ => ?_, hs.wbSize⟩
      exact (hl.alone w (by rw [hpc]; rfl)).2.1
  | count packet => exact ⟨hs.low, hs.lowOnly, hs.high, hs.dw, hs.wbSize⟩
  | post w request => exact ⟨hs.low, hs.lowOnly, hs.high, hs.dw, hs.wbSize⟩
  | ask w request => exact ⟨hs.low, hs.lowOnly, hs.high, hs.dw, hs.wbSize⟩
  | takes htakes =>
    have hs' : Sound { s with pipe := s.pipe.tail } :=
      ⟨hs.low, hs.lowOnly, hs.high, hs.dw, hs.wbSize⟩
    exact hs'.takes htakes
  | command _ hfrees => exact hfrees.sound ⟨hs.low, hs.lowOnly, hs.high, hs.dw, hs.wbSize⟩
  | frees _ _ hfrees => exact hfrees.sound hs
  | drains _ hdrains hends =>
    obtain ⟨hs', hdw⟩ := hs.takeDw
    have ht := hdrains.sound hs' hdw
    rcases hends with hquiet | rfl
    · exact hquiet.sound ht
    · exact ⟨nofun, nofun, nofun, nofun, fun h => absurd rfl h⟩
  | closed report _ => exact ⟨hs.low, hs.lowOnly, hs.high, nofun, fun h => absurd rfl h⟩

omit [DecidableEq W] in
/-- No worker that looks with the lock has sent the packet that the socket thread takes. -/
theorem Locked.takes (hl : Locked s) {packet : Packet W}
    (hhead : s.pipe.head? = some (.send packet))
    (htakes : Takes { s with pipe := s.pipe.tail } packet t) : Locked t := by
  obtain ⟨u, v, hu, hquiet, rfl⟩ := htakes
  obtain ⟨tail, htail⟩ : ∃ tail, s.pipe = .send packet :: tail := by
    cases hpipe : s.pipe with
    | nil =>
      rw [hpipe] at hhead
      cases hhead
    | cons r tail =>
      rw [hpipe] at hhead
      exact ⟨tail, by rw [Option.some.inj hhead]⟩
  have hcarried : carried s.pipe = packet :: carried tail := by rw [htail]; rfl
  have hpop : Locked { s with pipe := s.pipe.tail, sending := s.sending - 1 } := by
    refine ⟨hl.lock, hl.alone, ?_, hl.posting, hl.nodup, ?_⟩
    · intro w hw p hp
      refine hl.ahead w hw p ?_
      rw [hcarried]
      rw [htail] at hp
      exact List.mem_cons_of_mem packet hp
    · have hsending := hl.sending
      rw [hcarried, List.length_cons] at hsending
      show s.sending - 1 = (carried s.pipe.tail).length +
        (carried (s.incoming.map Prod.snd)).length
      rw [htail, List.tail_cons]
      omega
  have hlists : ∀ w, (s.worker w).alone = true →
      u.dw = none ∧ Unbegun u.high ∧ ∀ b ∈ u.high ++ u.low, b.packet.sender ≠ w := by
    intro w hw
    obtain ⟨hdw, hhigh, hclear⟩ := hl.alone w hw
    have hsender : packet.sender ≠ w := by
      apply hl.ahead w (Pc.ahead_of_holds (Pc.holds_of_alone hw))
      rw [hcarried]
      exact List.mem_cons_self
    have hnew : Unbegun [(⟨packet, 0⟩ : WriteBuffer W)] := by
      intro b hb
      rw [List.mem_singleton.mp hb]
    rcases hu with rfl | ⟨toLow, -, -, rfl⟩
    · exact ⟨hdw, hhigh, hclear⟩
    · rw [State.append]
      cases toLow with
      | true =>
        refine ⟨hdw, hhigh, ?_⟩
        intro b hb
        have hb' : b ∈ s.high ++ (s.low ++ [⟨packet, 0⟩]) := hb
        rw [← List.append_assoc] at hb'
        rcases List.mem_append.mp hb' with hold | hlast
        · exact hclear b hold
        · rw [List.mem_singleton.mp hlast]
          exact hsender
      | false =>
        refine ⟨hdw, hhigh.append hnew, ?_⟩
        intro b hb
        rcases List.mem_append.mp hb with hb' | hlow
        · rcases List.mem_append.mp hb' with hold | hlast
          · exact hclear b (List.mem_append_left _ hold)
          · rw [List.mem_singleton.mp hlast]
            exact hsender
        · exact hclear b (List.mem_append_right _ hlow)
  obtain ⟨type, closing, reading, writing, warnSize, -, rfl⟩ := hquiet
  have hframe : u.lock = s.lock ∧ u.worker = s.worker ∧ u.incoming = s.incoming ∧
      u.pipe = s.pipe.tail := by
    rcases hu with rfl | ⟨toLow, -, -, rfl⟩
    · exact ⟨rfl, rfl, rfl, rfl⟩
    · cases toLow <;> exact ⟨rfl, rfl, rfl, rfl⟩
  obtain ⟨hlock, hworker, hincoming, hpipe⟩ := hframe
  refine ⟨?_, ?_, ?_, ?_, ?_, ?_⟩
  · intro w
    show (u.worker w).holds = true ↔ u.lock = some w
    rw [hworker, hlock]
    exact hl.lock w
  · intro w hw
    have hw' : (u.worker w).alone = true := hw
    rw [hworker] at hw'
    exact hlists w hw'
  · intro w hw p hp
    have hw' : (u.worker w).ahead = true := hw
    have hp' : p ∈ carried u.pipe := hp
    rw [hworker] at hw'
    rw [hpipe] at hp'
    exact hpop.ahead w hw' p hp'
  · intro c hc
    have hc' : c ∈ u.incoming := hc
    rw [hincoming] at hc'
    show u.worker c.1 = .posting ∧ _
    rw [hworker]
    exact hl.posting c hc'
  · show (u.incoming.map Prod.fst).Nodup
    rw [hincoming]
    exact hl.nodup
  · show s.sending - 1 = (carried u.pipe).length + (carried (u.incoming.map Prod.snd)).length
    rw [hpipe, hincoming]
    exact hpop.sending

theorem Locked.change (hl : Locked s) {e : Event W} (he : Enabled s e) (hchange : Change s e t) :
    Locked t := by
  cases hchange with
  | send packet pc hpc _ => exact hl.send he.1 hpc
  | look w again seen buffer => exact hl.look he.1
  | directWrite w buffer n => exact hl.directWrite he.1
  | unlock w buffer n => exact hl.unlock he
  | count packet => exact hl.incSendingRef he.1
  | post w request => exact hl.sendRequest he
  | ask w request =>
    have hnone : carried [request] = [] := by
      cases request with
      | send packet => cases he.2
      | write => rfl
      | close shutdown => rfl
      | resume => rfl
      | pause => rfl
    have hcarried : carried (s.pipe ++ [request]) = carried s.pipe := by
      rw [carried_append, hnone, List.append_nil]
    refine ⟨hl.lock, hl.alone, ?_, hl.posting, hl.nodup, ?_⟩
    · intro v hv
      show ∀ p ∈ carried (s.pipe ++ [request]), p.sender ≠ v
      rw [hcarried]
      exact hl.ahead v hv
    · show s.sending = (carried (s.pipe ++ [request])).length + _
      rw [hcarried]
      exact hl.sending
  | takes htakes => exact hl.takes he.2 htakes
  | command hpacket hfrees => exact (hl.pop he.2 hpacket).frees hfrees
  | frees _ _ hfrees => exact hl.frees hfrees
  | drains hlock hdrains hends =>
    have hlock' : s.takeDw.lock = none := (takeDw_frame s).2.2.trans hlock
    have htake : Locked s.takeDw := by
      rw [State.takeDw]
      split
      · exact hl.unlocked hlock
      · exact hl
    have ht := htake.drains hlock' hdrains
    refine ht.ends ?_ hends
    obtain ⟨high, low, sent, done, -, -, -, rfl⟩ := hdrains
    exact hlock'
  | closed report hlock => exact hl.unlocked hlock

end Steps

/-- The lane of a packet. -/
def kind (p : Packet W) : W × Priority := (p.sender, p.priority)

section Row

variable [DecidableEq W]

/-- The packets that were handed over: some are on the wire, some were freed, the others stand in a
queue, the first perhaps begun, or are still on their way to it. -/
structure Row (handed : List (Packet W)) (wire : Bytes) (written freed : List (Packet W))
    (queue : List (WriteBuffer W)) (rest : List (Packet W)) (gone : Prop) : Prop where
  wire : ∃ part, wire = flat written ++ part ∧
    (part = begun queue ∨ gone ∧ ∃ p ∈ freed, part <+: p.buffer)
  inOrder : InOrder kind (written ++ (packets queue ++ rest)) handed
  kept : (written ++ freed ++ (packets queue ++ rest)).Perm handed

namespace Row

variable {handed written freed rest : List (Packet W)} {wire : Bytes}
  {queue : List (WriteBuffer W)} {gone : Prop} {packet : Packet W}

theorem wire_of_live (h : Row handed wire written freed queue rest gone) (hlive : ¬gone) :
    wire = flat written ++ begun queue := by
  obtain ⟨part, hwire, hpart⟩ := h.wire
  rcases hpart with rfl | ⟨hgone, -⟩
  · exact hwire
  · exact absurd hgone hlive

/-- A packet is counted. -/
theorem hand (h : Row handed wire written freed queue rest gone) (packet : Packet W) :
    Row (handed ++ [packet]) wire written freed queue (rest ++ [packet]) gone := by
  refine ⟨h.wire, ?_, ?_⟩
  · have happended := h.inOrder.append (InOrder.refl [packet])
    simpa only [List.append_assoc] using happended
  · have happended := h.kept.append_right [packet]
    simpa only [List.append_assoc] using happended

/-- A packet is written by its worker as far as the connection takes it. -/
theorem write (h : Row handed wire written freed queue rest gone) (hlive : ¬gone)
    (hqueue : Unbegun queue) (hclear : ∀ p ∈ packets queue ++ rest, p.sender ≠ packet.sender)
    (n : ℕ) : Row (handed ++ [packet]) (wire ++ packet.buffer.take n)
      (if n = packet.buffer.length then written ++ [packet] else written) freed
      (if n = packet.buffer.length then queue else ⟨packet, n⟩ :: queue) rest gone := by
  have hwire := h.wire_of_live hlive
  rw [hqueue.begun_eq, List.append_nil] at hwire
  have hkind : ∀ p ∈ packets queue ++ rest, kind packet ≠ kind p := by
    intro p hp heq
    exact hclear p hp (congrArg Prod.fst heq).symm
  have horder := h.inOrder.insert hkind
  have hperm : (written ++ freed ++ (packets queue ++ rest) ++ [packet]).Perm
      (handed ++ [packet]) := h.kept.append_right [packet]
  by_cases hwhole : n = packet.buffer.length
  · rw [if_pos hwhole, if_pos hwhole, hwhole, List.take_length]
    refine ⟨⟨[], ?_, Or.inl hqueue.begun_eq.symm⟩, ?_, ?_⟩
    · rw [hwire, flat_append, List.append_nil]
      simp [flat]
    · simpa only [List.append_assoc, List.singleton_append] using horder
    · refine List.Perm.trans ?_ hperm
      rw [List.perm_iff_count]
      intro p
      simp only [List.count_append]
      omega
  · rw [if_neg hwhole, if_neg hwhole]
    refine ⟨⟨packet.buffer.take n, by rw [hwire], Or.inl rfl⟩, horder, ?_⟩
    refine List.Perm.trans ?_ hperm
    rw [List.perm_iff_count]
    intro p
    simp only [packets, List.map_cons, List.cons_append, List.count_append, List.count_cons,
      List.count_nil]
    omega

theorem drain (h : Row handed wire written freed queue rest gone) (hlive : ¬gone) {bytes : Bytes}
    {done : List (Packet W)} {queue' : List (WriteBuffer W)}
    (hsends : Sends queue bytes done queue') :
    Row handed (wire ++ bytes) (written ++ done) freed queue' rest gone := by
  have hwire := h.wire_of_live hlive
  have horder := h.inOrder
  have hkept := h.kept
  rw [hsends.packets] at horder hkept
  refine ⟨⟨begun queue', ?_, Or.inl rfl⟩, ?_, ?_⟩
  · rw [hwire, flat_append, List.append_assoc, hsends.begun, List.append_assoc]
  · simpa only [List.append_assoc] using horder
  · refine List.Perm.trans ?_ hkept
    rw [List.perm_iff_count]
    intro p
    simp only [List.count_append]
    omega

/-- A packet joins the queue; it passes only buffers of other lanes. -/
theorem join {front back : List (WriteBuffer W)}
    (h : Row handed wire written freed (front ++ back) (packet :: rest) gone)
    (hback : Unbegun back) (hkind : ∀ b ∈ back, kind packet ≠ kind b.packet) :
    Row handed wire written freed (front ++ ⟨packet, 0⟩ :: back) rest gone := by
  have hbegun : begun (front ++ ⟨packet, 0⟩ :: back) = begun (front ++ back) := by
    cases front with
    | nil =>
      show packet.buffer.take 0 = begun back
      rw [hback.begun_eq, List.take_zero]
    | cons b front => rfl
  have hmoves : InOrder kind ([packet] ++ packets back) (packets back ++ [packet]) := by
    refine InOrder.swap fun a ha b hb => ?_
    obtain ⟨c, hc, hcb⟩ := List.mem_map.mp hb
    rw [List.mem_singleton.mp ha, ← hcb]
    exact hkind c hc
  refine ⟨?_, ?_, ?_⟩
  · rw [hbegun]
    exact h.wire
  · have horder := ((InOrder.refl (written ++ packets front)).append hmoves).append
      (InOrder.refl rest)
    have hold := h.inOrder
    simp only [packets_append, List.append_assoc, List.singleton_append] at horder hold ⊢
    exact horder.trans hold
  · refine List.Perm.trans ?_ h.kept
    rw [List.perm_iff_count]
    intro p
    simp only [packets, List.map_append, List.map_cons, List.count_append, List.count_cons]
    omega

/-- A packet is freed on its way. -/
theorem drop (h : Row handed wire written freed queue (packet :: rest) gone) :
    Row handed wire written (freed ++ [packet]) queue rest gone := by
  refine ⟨?_, ?_, ?_⟩
  · obtain ⟨part, hwire, hpart⟩ := h.wire
    refine ⟨part, hwire, hpart.imp_right ?_⟩
    rintro ⟨hgone, p, hp, hbegin⟩
    exact ⟨hgone, p, List.mem_append_left _ hp, hbegin⟩
  · have hsub : (written ++ (packets queue ++ rest)).Sublist
        (written ++ (packets queue ++ packet :: rest)) :=
      ((List.sublist_cons_self packet rest).append_left _).append_left _
    exact (InOrder.of_sublist hsub).trans h.inOrder
  · refine List.Perm.trans ?_ h.kept
    rw [List.perm_iff_count]
    intro p
    simp only [List.count_append, List.count_cons, List.count_nil]
    omega

/-- A part of the queue is freed with the socket. -/
theorem free {front middle back : List (WriteBuffer W)}
    (h : Row handed wire written freed (front ++ middle ++ back) rest gone) {gone' : Prop}
    (hgone : gone') :
    Row handed wire written (freed ++ packets middle) (front ++ back) rest gone' := by
  refine ⟨?_, ?_, ?_⟩
  · obtain ⟨part, hwire, hpart⟩ := h.wire
    refine ⟨part, hwire, ?_⟩
    rcases hpart with hbegun | ⟨-, p, hp, hbegin⟩
    · cases front with
      | cons b front => exact Or.inl hbegun
      | nil =>
        cases middle with
        | nil => exact Or.inl hbegun
        | cons b middle =>
          refine Or.inr ⟨hgone, b.packet, List.mem_append_right _ List.mem_cons_self, ?_⟩
          rw [hbegun]
          exact List.take_prefix ..
    · exact Or.inr ⟨hgone, p, List.mem_append_left _ hp, hbegin⟩
  · have hsub : (written ++ (packets (front ++ back) ++ rest)).Sublist
        (written ++ (packets (front ++ middle ++ back) ++ rest)) := by
      rw [packets_append, packets_append, packets_append]
      exact (((List.sublist_append_left _ _).append_right _).append_right rest).append_left _
    exact (InOrder.of_sublist hsub).trans h.inOrder
  · refine List.Perm.trans ?_ h.kept
    rw [List.perm_iff_count]
    intro p
    simp only [packets_append, List.count_append]
    omega

/-- Commands on their way pass those of other workers. -/
theorem pass (h : Row handed wire written freed queue rest gone) {rest' : List (Packet W)}
    (horder : InOrder kind rest' rest) (hperm : rest'.Perm rest) :
    Row handed wire written freed queue rest' gone := by
  refine ⟨h.wire, ?_, ?_⟩
  · exact ((InOrder.refl written).append ((InOrder.refl _).append horder)).trans h.inOrder
  · exact ((hperm.append_left _).append_left _).trans h.kept

theorem mono (h : Row handed wire written freed queue rest gone) {gone' : Prop}
    (hgone : gone → gone') : Row handed wire written freed queue rest gone' := by
  refine ⟨?_, h.inOrder, h.kept⟩
  obtain ⟨part, hwire, hpart⟩ := h.wire
  exact ⟨part, hwire, hpart.imp_right fun hg => ⟨hgone hg.1, hg.2⟩⟩

end Row

end Row

namespace State

/-- What the worker with the lock has not written. -/
def writer (s : State W) : List (WriteBuffer W) :=
  match s.lock with
  | some w => (s.worker w).part w
  | none => []

/-- What is to be sent, in this order. -/
def queue (s : State W) : List (WriteBuffer W) := s.writer ++ s.dw.toList ++ s.high ++ s.low

/-- The packets in commands. -/
def onTheWay (s : State W) : List (Packet W) :=
  carried s.pipe ++ carried (s.incoming.map Prod.snd)

/-- `force_close` has begun. -/
def gone (s : State W) : Prop := s.type = .invalid ∨ s.freeing ≠ none

end State

/-- A packet is written only as long as `force_close` has not begun. -/
def Timely (s : State W) : Event W → Prop
  | .directWrite _ _ _ => ¬s.gone
  | _ => True

section Order

variable [DecidableEq W] {s t : State W} {handed : List (Packet W)}

def Ordered (handed : List (Packet W)) (s : State W) : Prop :=
  Row handed s.wire s.written s.freed s.queue s.onTheWay s.gone

omit [DecidableEq W] in
theorem queue_of_unlocked (hlock : s.lock = none) : s.queue = s.dw.toList ++ s.high ++ s.low := by
  rw [State.queue, State.writer, hlock]
  rfl

theorem writer_move {w : W} {pc : Pc} {lock : Option W} (hpart : (s.worker w).part w = [])
    (hpc : pc.part w = []) (hlock : ∀ v, v ≠ w → (lock = some v ↔ s.lock = some v)) :
    State.writer { s.setWorker w pc with lock } = s.writer := by
  have hself : (s.setWorker w pc).worker w = pc := Function.update_self ..
  have hleft : lock = some w → State.writer { s.setWorker w pc with lock } = [] := by
    intro hw
    rw [State.writer, hw]
    show ((s.setWorker w pc).worker w).part w = []
    rw [hself, hpc]
  have hright : s.lock = some w → s.writer = [] := by
    intro hw
    rw [State.writer, hw]
    exact hpart
  by_cases hw : lock = some w
  · rw [hleft hw]
    cases hs : s.lock with
    | none => rw [State.writer, hs]
    | some v =>
      by_cases hv : v = w
      · rw [hright (hv ▸ hs)]
      · have hboth := (hlock v hv).mpr hs
        rw [hw] at hboth
        exact absurd (Option.some.inj hboth).symm hv
  · cases hl : lock with
    | none =>
      have hnone : State.writer { s.setWorker w pc with lock := none } = [] := rfl
      rw [hnone]
      cases hs : s.lock with
      | none => rw [State.writer, hs]
      | some v =>
        by_cases hv : v = w
        · rw [hright (hv ▸ hs)]
        · have hboth := (hlock v hv).mpr hs
          rw [hl] at hboth
          cases hboth
    | some v =>
      have hv : v ≠ w := by
        intro hvw
        exact hw (hl.trans (congrArg some hvw))
      have hs : s.lock = some v := (hlock v hv).mp hl
      have hother : (s.setWorker w pc).worker v = s.worker v := Function.update_of_ne hv ..
      rw [State.writer, State.writer, hs]
      show ((s.setWorker w pc).worker v).part v = (s.worker v).part v
      rw [hother]

namespace Ordered

theorem congr (h : Ordered handed s) (hwire : t.wire = s.wire) (hwritten : t.written = s.written)
    (hfreed : t.freed = s.freed) (hqueue : t.queue = s.queue) (hway : t.onTheWay = s.onTheWay)
    (hgone : s.gone → t.gone) : Ordered handed t := by
  rw [Ordered, hwire, hwritten, hfreed, hqueue, hway]
  exact Row.mono h hgone

theorem quiet (h : Ordered handed s) (hquiet : Quiet s t) : Ordered handed t := by
  obtain ⟨type, closing, reading, writing, warnSize, htype, rfl⟩ := hquiet
  exact h.congr rfl rfl rfl rfl rfl (Or.imp_left htype.mpr)

theorem move (h : Ordered handed s) {w : W} {pc : Pc} {lock : Option W}
    (hpart : (s.worker w).part w = []) (hpc : pc.part w = [])
    (hlock : ∀ v, v ≠ w → (lock = some v ↔ s.lock = some v)) :
    Ordered handed { s.setWorker w pc with lock } := by
  refine h.congr rfl rfl rfl ?_ rfl id
  have hwriter := writer_move hpart hpc hlock
  show State.writer { s.setWorker w pc with lock } ++ s.dw.toList ++ s.high ++ s.low = _
  rw [hwriter]
  rfl

theorem freeLists (h : Ordered handed s) (report : Option Report) :
    Ordered handed (s.freeLists report) := by
  have hrow : Row handed s.wire s.written s.freed
      (s.writer ++ s.dw.toList ++ (s.high ++ s.low) ++ []) s.onTheWay s.gone := by
    have hrow := h
    rw [Ordered, State.queue] at hrow
    simpa only [List.append_assoc, List.append_nil] using hrow
  have hgone : (s.freeLists report).gone := Or.inr nofun
  have hfree := hrow.free hgone
  have hqueue : (s.freeLists report).queue = s.writer ++ s.dw.toList ++ [] := by
    show s.writer ++ s.dw.toList ++ [] ++ [] = _
    rw [List.append_nil]
  rw [packets_append, ← List.append_assoc] at hfree
  rw [Ordered, hqueue]
  exact hfree

theorem frees (h : Ordered handed s) (hfrees : Frees s t) : Ordered handed t := by
  rcases hfrees with hquiet | ⟨u, report, hquiet, rfl⟩
  · exact h.quiet hquiet
  · exact (h.quiet hquiet).freeLists report

theorem invalidate (h : Ordered handed s) (hlock : s.lock = none) :
    Ordered handed s.invalidate := by
  have hrow : Row handed s.wire s.written s.freed
      ([] ++ s.dw.toList ++ (s.high ++ s.low)) s.onTheWay s.gone := by
    have hrow := h
    rw [Ordered, queue_of_unlocked hlock] at hrow
    simpa only [List.append_assoc, List.nil_append] using hrow
  have hgone : s.invalidate.gone := Or.inl rfl
  have hfree := hrow.free hgone
  have hqueue : s.invalidate.queue = [] ++ (s.high ++ s.low) := queue_of_unlocked hlock
  rw [Ordered, hqueue]
  exact hfree

/-- The sending of the socket thread. -/
theorem drains (h : Ordered handed s) (hlock : s.lock = none) (hlive : ¬s.gone)
    (hdrains : Drains s.takeDw t) : Ordered handed t ∧ t.lock = none := by
  obtain ⟨high, low, sent, done, hsends, -, -, rfl⟩ := hdrains
  have htaken : s.takeDw.high ++ s.takeDw.low = s.queue ∧ s.takeDw.dw = none ∧
      s.takeDw.lock = none ∧ s.takeDw.wire = s.wire ∧ s.takeDw.written = s.written ∧
      s.takeDw.freed = s.freed ∧ s.takeDw.onTheWay = s.onTheWay ∧ s.takeDw.gone = s.gone := by
    rw [queue_of_unlocked hlock, State.takeDw]
    cases hdw : s.dw with
    | none => exact ⟨rfl, hdw, hlock, rfl, rfl, rfl, rfl, rfl⟩
    | some buf => exact ⟨rfl, rfl, hlock, rfl, rfl, rfl, rfl, rfl⟩
  obtain ⟨hqueue, hdw, hlock', hwire, hwritten, hfreed, hway, hgone⟩ := htaken
  rw [hqueue] at hsends
  have hdrain := Row.drain h hlive hsends
  have hnow : (s.takeDw.drained high low sent done).queue = high ++ low := by
    have hnone : (s.takeDw.drained high low sent done).dw = none := hdw
    have hfree : (s.takeDw.drained high low sent done).lock = none := hlock'
    rw [queue_of_unlocked hfree, hnone]
    rfl
  refine ⟨?_, hlock'⟩
  rw [Ordered, hnow]
  show Row handed (s.takeDw.wire ++ sent) (s.takeDw.written ++ done) s.takeDw.freed (high ++ low)
    s.takeDw.onTheWay s.takeDw.gone
  rw [hwire, hwritten, hfreed, hway, hgone]
  exact hdrain

theorem ends {u : State W} (h : Ordered handed t) (hlock : t.lock = none) (hends : Ends t u) :
    Ordered handed u := by
  rcases hends with hquiet | rfl
  · exact h.quiet hquiet
  · exact (h.freeLists none).invalidate hlock

/-- The packet at the head of the pipe joins a list or is freed. -/
theorem takes (h : Ordered handed s) (hs : Sound s) {packet : Packet W}
    (hhead : s.pipe.head? = some (.send packet))
    (htakes : Takes { s with pipe := s.pipe.tail } packet t) : Ordered handed t := by
  obtain ⟨u, v, hu, hquiet, rfl⟩ := htakes
  obtain ⟨tail, htail⟩ : ∃ tail, s.pipe = .send packet :: tail := by
    cases hpipe : s.pipe with
    | nil =>
      rw [hpipe] at hhead
      cases hhead
    | cons r tail =>
      rw [hpipe] at hhead
      exact ⟨tail, by rw [Option.some.inj hhead]⟩
  have hway : s.onTheWay = packet :: State.onTheWay { s with pipe := s.pipe.tail } := by
    rw [State.onTheWay, State.onTheWay, htail]
    rfl
  have hrow : Row handed s.wire s.written s.freed s.queue
      (packet :: State.onTheWay { s with pipe := s.pipe.tail }) s.gone := hway ▸ h
  have hordered : Ordered handed u := by
    rcases hu with rfl | ⟨toLow, -, hhigh, rfl⟩
    · exact hrow.drop
    · rw [State.append]
      cases toLow with
      | true =>
        have hrow' : Row handed s.wire s.written s.freed (s.queue ++ [])
            (packet :: State.onTheWay { s with pipe := s.pipe.tail }) s.gone := by
          rw [List.append_nil]
          exact hrow
        have hjoin := hrow'.join nofun nofun
        have hqueue : State.queue { s with
            pipe := s.pipe.tail, low := s.low ++ [⟨packet, 0⟩],
            wbSize := s.wbSize + (⟨packet, 0⟩ : WriteBuffer W).sz } =
              s.queue ++ [⟨packet, 0⟩] := by
          show s.writer ++ s.dw.toList ++ s.high ++ (s.low ++ [⟨packet, 0⟩]) = _
          rw [← List.append_assoc]
          rfl
        rw [Ordered]
        simp only [if_true]
        rw [hqueue]
        exact hjoin
      | false =>
        have hkind : ∀ b ∈ s.low, kind packet ≠ kind b.packet := by
          intro b hb heq
          rcases hhigh rfl with hpriority | hempty
          · have hsame : packet.priority = b.packet.priority := congrArg Prod.snd heq
            rw [hpriority, hs.lowOnly b hb] at hsame
            cases hsame
          · have hlow : s.low = [] := hempty
            rw [hlow] at hb
            cases hb
        have hjoin := hrow.join hs.low hkind
        have hqueue : State.queue { s with
            pipe := s.pipe.tail, high := s.high ++ [⟨packet, 0⟩],
            wbSize := s.wbSize + (⟨packet, 0⟩ : WriteBuffer W).sz } =
              s.writer ++ s.dw.toList ++ s.high ++ ⟨packet, 0⟩ :: s.low := by
          show s.writer ++ s.dw.toList ++ (s.high ++ [⟨packet, 0⟩]) ++ s.low = _
          simp only [List.append_assoc, List.singleton_append]
        rw [Ordered]
        simp only [Bool.false_eq_true, if_false]
        rw [hqueue]
        exact hjoin
  have hv := hordered.quiet hquiet
  exact hv.congr rfl rfl rfl rfl rfl id

theorem directWrite (h : Ordered handed s) (hs : Sound s) (hl : Locked s) {w : W} {buffer : Bytes}
    {n : ℕ} (hpc : s.worker w = .looking true .type buffer) (hlive : ¬s.gone) :
    Ordered (handed ++ [⟨w, .high, buffer⟩]) (s.directWrite w buffer n) := by
  obtain ⟨hdw, hhigh, hclear⟩ := hl.alone w (by rw [hpc]; rfl)
  have hlock : s.lock = some w := (hl.lock w).mp (by rw [hpc]; rfl)
  have hqueue : s.queue = s.high ++ s.low := by
    rw [State.queue, State.writer, hlock, hdw]
    show (s.worker w).part w ++ [] ++ s.high ++ s.low = _
    rw [hpc]
    rfl
  have hunbegun : Unbegun s.queue := by
    rw [hqueue]
    exact hhigh.append hs.low
  have hnone : ∀ p ∈ packets s.queue ++ s.onTheWay,
      p.sender ≠ (⟨w, .high, buffer⟩ : Packet W).sender := by
    intro p hp
    rcases List.mem_append.mp hp with hqueued | hway
    · obtain ⟨b, hb, rfl⟩ := List.mem_map.mp hqueued
      rw [hqueue] at hb
      exact hclear b hb
    rcases List.mem_append.mp hway with hpipe | hincoming
    · exact hl.ahead w (by rw [hpc]; rfl) p hpipe
    · obtain ⟨r, hr, hpacket⟩ := List.mem_filterMap.mp hincoming
      obtain ⟨c, hc, rfl⟩ := List.mem_map.mp hr
      obtain ⟨hposting, hsender⟩ := hl.posting c hc
      rw [hsender p hpacket]
      intro hcw
      rw [hcw, hpc] at hposting
      cases hposting
  have hwrite := Row.write h hlive hunbegun hnone n
  have hself : (s.directWrite w buffer n).worker w = .written buffer n := Function.update_self ..
  have hnow : (s.directWrite w buffer n).queue =
      if n = buffer.length then s.queue else ⟨⟨w, .high, buffer⟩, n⟩ :: s.queue := by
    rw [State.queue, State.writer, show (s.directWrite w buffer n).lock = some w from hlock]
    show ((s.directWrite w buffer n).worker w).part w ++ s.dw.toList ++ s.high ++ s.low = _
    rw [hself, hqueue, hdw, Pc.part]
    split <;> rfl
  rw [Ordered, hnow]
  exact hwrite

theorem unlock (h : Ordered handed s) (hl : Locked s) {w : W} {buffer : Bytes} {n : ℕ}
    (hpc : s.worker w = .written buffer n) : Ordered handed (s.unlock w buffer n) := by
  have hdw : s.dw = none := (hl.alone w (by rw [hpc]; rfl)).1
  have hlock : s.lock = some w := (hl.lock w).mp (by rw [hpc]; rfl)
  have hwriter : s.writer =
      if n = buffer.length then [] else [⟨⟨w, .high, buffer⟩, n⟩] := by
    rw [State.writer, hlock]
    show (s.worker w).part w = _
    rw [hpc]
    rfl
  have hqueue : s.queue = s.writer ++ s.dw.toList ++ s.high ++ s.low := rfl
  rw [State.unlock]
  split
  · rename_i hwhole
    rw [if_pos hwhole] at hwriter
    rw [hwriter] at hqueue
    exact h.congr rfl rfl rfl hqueue.symm rfl id
  · rename_i hpart
    rw [if_neg hpart] at hwriter
    rw [hwriter, hdw] at hqueue
    refine h.congr rfl rfl rfl hqueue.symm ?_ id
    show carried s.pipe ++ carried ((s.incoming ++ [(w, Request.write)]).map Prod.snd) = _
    rw [List.map_append, carried_append]
    exact congrArg (carried s.pipe ++ ·) (List.append_nil _)

theorem incSendingRef (h : Ordered handed s) {packet : Packet W}
    (hpc : s.worker packet.sender = .counting packet.priority packet.buffer) :
    Ordered (handed ++ [packet]) (s.incSendingRef packet) := by
  have hmoved : Ordered handed { s.setWorker packet.sender .posting with lock := s.lock } :=
    h.move (by rw [hpc]; rfl) rfl fun _ _ => Iff.rfl
  have hway : (s.incSendingRef packet).onTheWay = s.onTheWay ++ [packet] := by
    show carried s.pipe ++
      carried ((s.incoming ++ [(packet.sender, Request.send packet)]).map Prod.snd) = _
    rw [List.map_append, carried_append, ← List.append_assoc]
    rfl
  have hhand := Row.hand hmoved packet
  rw [Ordered, hway]
  exact hhand

theorem sendRequest (h : Ordered handed s) (hl : Locked s) {w : W} {request : Request W}
    (hmem : (w, request) ∈ s.incoming) : Ordered handed (s.sendRequest w request) := by
  obtain ⟨hposting, hsender⟩ := hl.posting _ hmem
  obtain ⟨front, back, -, hsplit, herase⟩ := List.exists_erase_eq hmem
  have hmoved : Ordered handed { s.setWorker w .idle with lock := s.lock } :=
    h.move (by rw [hposting]; rfl) rfl fun _ _ => Iff.rfl
  have hold : s.onTheWay = carried s.pipe ++
      (carried (front.map Prod.snd) ++ carried [request] ++ carried (back.map Prod.snd)) := by
    rw [State.onTheWay, hsplit, List.map_append, carried_append]
    show _ ++ (_ ++ carried ([request] ++ back.map Prod.snd)) = _
    rw [carried_append, List.append_assoc]
  have hnew : (s.sendRequest w request).onTheWay = carried s.pipe ++
      (carried [request] ++ carried (front.map Prod.snd) ++ carried (back.map Prod.snd)) := by
    show carried (s.pipe ++ [request]) ++
      carried ((s.incoming.erase (w, request)).map Prod.snd) = _
    rw [herase, List.map_append, carried_append, carried_append]
    simp only [List.append_assoc]
  have hkind : ∀ a ∈ carried [request], ∀ b ∈ carried (front.map Prod.snd), kind a ≠ kind b := by
    intro a ha b hb heq
    obtain ⟨r, hr, hpacket⟩ := List.mem_filterMap.mp hb
    obtain ⟨c, hc, rfl⟩ := List.mem_map.mp hr
    have hc' : c ∈ s.incoming := by
      rw [hsplit]
      exact List.mem_append_left _ hc
    rw [carried_singleton, Option.mem_toList] at ha
    have hsame : a.sender = b.sender := congrArg Prod.fst heq
    rw [hsender a ha, (hl.posting c hc').2 b hpacket] at hsame
    -- a worker has one command on its way to the pipe at most
    have hnodup := hl.nodup
    rw [hsplit, List.map_append, List.map_cons, List.nodup_append] at hnodup
    exact hnodup.2.2 c.1 (List.mem_map_of_mem hc) w List.mem_cons_self hsame.symm
  have hpass : InOrder kind (s.sendRequest w request).onTheWay s.onTheWay := by
    rw [hold, hnew]
    exact (InOrder.refl _).append ((InOrder.swap hkind).append (InOrder.refl _))
  have hperm : (s.sendRequest w request).onTheWay.Perm s.onTheWay := by
    rw [hold, hnew]
    exact (List.perm_append_comm.append_right _).append_left _
  exact Row.pass hmoved hpass hperm

/-- The order and the row of the packets survive every step. -/
theorem change (h : Ordered handed s) (hs : Sound s) (hl : Locked s) {e : Event W}
    (he : Enabled s e) (htimely : Timely s e) (hchange : Change s e t) :
    Ordered (handed ++ e.commit.toList) t := by
  have hkeep : ∀ u, Ordered handed u → e.commit = none →
      Ordered (handed ++ e.commit.toList) u := by
    intro u hu hnone
    rw [hnone]
    exact (List.append_nil handed).symm ▸ hu
  cases hchange with
  | send packet pc hpc _ =>
    have hpart : pc.part packet.sender = [] := by
      cases pc with
      | written buffer n => cases hpc.1
      | idle => rfl
      | looking again seen buffer => rfl
      | counting priority buffer => rfl
      | posting => rfl
    refine hkeep _ (h.move ?_ hpart fun _ _ => Iff.rfl) rfl
    rw [he.1]
    rfl
  | look w again seen buffer =>
    obtain ⟨pc, lock, heq, hpart, -, hlock⟩ := look_moves hl he.1
    rw [heq]
    refine hkeep _ (h.move ?_ hpart hlock) rfl
    rw [he.1]
    rfl
  | directWrite w buffer n => exact h.directWrite hs hl he.1 htimely
  | unlock w buffer n => exact hkeep _ (h.unlock hl he) rfl
  | count packet => exact h.incSendingRef he.1
  | post w request => exact hkeep _ (h.sendRequest hl he) rfl
  | ask w request =>
    have hnone : carried [request] = [] := by
      cases request with
      | send packet => cases he.2
      | write => rfl
      | close shutdown => rfl
      | resume => rfl
      | pause => rfl
    refine hkeep _ (h.congr rfl rfl rfl rfl ?_ id) rfl
    show carried (s.pipe ++ [request]) ++ _ = _
    rw [carried_append, hnone, List.append_nil]
    rfl
  | takes htakes => exact hkeep _ (h.takes hs he.2 htakes) rfl
  | @command request fails _ hpacket hfrees =>
    have hpop : Ordered handed { s with pipe := s.pipe.tail } := by
      refine h.congr rfl rfl rfl rfl ?_ id
      show carried s.pipe.tail ++ _ = _
      obtain ⟨-, hhead⟩ := he
      cases hpipe : s.pipe with
      | nil =>
        rw [hpipe] at hhead
        cases hhead
      | cons r tail =>
        rw [hpipe] at hhead
        rw [State.onTheWay, hpipe, Option.some.inj hhead]
        have hcarried : carried (request :: tail) = carried tail := by
          rw [carried, carried, List.filterMap_cons, hpacket]
        rw [hcarried]
        rfl
    exact hkeep _ (hpop.frees hfrees) rfl
  | frees _ hcommit hfrees => exact hkeep _ (h.frees hfrees) hcommit
  | drains hlock hdrains hends =>
    have hlive : ¬s.gone := by
      rintro (hinvalid | hgone)
      · exact he.2.2.1 hinvalid
      · exact hgone he.1
    obtain ⟨ht, hfree⟩ := h.drains hlock hlive hdrains
    exact hkeep _ (ht.ends hfree hends) rfl
  | closed report hlock => exact hkeep _ (h.invalidate hlock) rfl

end Ordered

end Order

/-- What the workers were asked to send, call by call. -/
def calls (ls : List (Event W × Option Report)) : List (Packet W) :=
  ls.filterMap fun l => l.1.call

/-- What the workers have written or counted. -/
def handed (ls : List (Event W × Option Report)) : List (Packet W) :=
  ls.filterMap fun l => l.1.commit

section Calls

variable [DecidableEq W] {s t : State W}

def ofSender (w : W) (l : List (Packet W)) : List (Packet W) := l.filter fun p => p.sender = w

theorem ofSender_append (w : W) (l m : List (Packet W)) :
    ofSender w (l ++ m) = ofSender w l ++ ofSender w m := List.filter_append ..

theorem ofSender_other {w : W} {l : List (Packet W)} (hne : ∀ p ∈ l, p.sender ≠ w) :
    ofSender w l = [] := by
  apply List.filter_eq_nil_iff.mpr
  intro p hp
  simpa using hne p hp

omit [DecidableEq W] in
theorem frees_worker (hfrees : Frees s t) : t.worker = s.worker := by
  rcases hfrees with ⟨type, closing, reading, writing, warnSize, -, rfl⟩ |
    ⟨u, report, ⟨type, closing, reading, writing, warnSize, -, rfl⟩, rfl⟩
  · rfl
  · rfl

/-- A worker hands its packets over one after the other. -/
theorem underway_step (hl : Locked s) {e : Event W} (he : Enabled s e) (hchange : Change s e t)
    (w : W) :
    (s.worker w).underway w ++ ofSender w e.call.toList =
      ofSender w e.commit.toList ++ (t.worker w).underway w := by
  have hmoved : ∀ v pc, t.worker = Function.update s.worker v pc →
      (∀ p ∈ e.call.toList ++ e.commit.toList, p.sender = v) →
      (s.worker v).underway v ++ ofSender v e.call.toList =
        ofSender v e.commit.toList ++ pc.underway v →
      (s.worker w).underway w ++ ofSender w e.call.toList =
        ofSender w e.commit.toList ++ (t.worker w).underway w := by
    intro v pc hworker hsender hsame
    by_cases hw : w = v
    · rw [hw, hworker, Function.update_self]
      exact hsame
    · have hcall : ofSender w e.call.toList = [] := ofSender_other fun p hp hpw =>
        hw (hpw.symm.trans (hsender p (List.mem_append_left _ hp)))
      have hcommit : ofSender w e.commit.toList = [] := ofSender_other fun p hp hpw =>
        hw (hpw.symm.trans (hsender p (List.mem_append_right _ hp)))
      rw [hworker, Function.update_of_ne hw, hcall, hcommit, List.append_nil, List.nil_append]
  have hframe : t.worker = s.worker → e.call = none → e.commit = none →
      (s.worker w).underway w ++ ofSender w e.call.toList =
        ofSender w e.commit.toList ++ (t.worker w).underway w := by
    intro hworker hcall hcommit
    rw [hworker, hcall, hcommit]
    exact List.append_nil _
  cases hchange with
  | send packet pc _ hunderway =>
    refine hmoved packet.sender pc rfl ?_ ?_
    · intro p hp
      rw [List.mem_singleton.mp hp]
    · rw [he.1, hunderway]
      simp [Pc.underway, ofSender, Event.call, Event.commit]
  | look v again seen buffer =>
    obtain ⟨pc, lock, heq, -, hunderway, -⟩ := look_moves hl he.1
    refine hmoved v pc ?_ nofun ?_
    · rw [heq]
      rfl
    · rw [he.1, hunderway]
      rfl
  | directWrite v buffer n =>
    refine hmoved v (.written buffer n) rfl ?_ ?_
    · intro p hp
      rw [List.mem_singleton.mp hp]
    · rw [he.1]
      simp [Pc.underway, ofSender, Event.call, Event.commit]
  | unlock v buffer n =>
    have hpc : s.worker v = .written buffer n := he
    by_cases hwhole : n = buffer.length
    · refine hmoved v .idle ?_ nofun ?_
      · rw [State.unlock, if_pos hwhole]
        rfl
      · rw [hpc]
        rfl
    · refine hmoved v .posting ?_ nofun ?_
      · rw [State.unlock, if_neg hwhole]
        rfl
      · rw [hpc]
        rfl
  | count packet =>
    refine hmoved packet.sender .posting rfl ?_ ?_
    · intro p hp
      rw [List.mem_singleton.mp hp]
    · rw [he.1]
      simp [Pc.underway, ofSender, Event.call, Event.commit]
  | post v request =>
    refine hmoved v .idle rfl nofun ?_
    rw [(hl.posting _ he).1]
    rfl
  | ask v request => exact hframe rfl rfl rfl
  | takes htakes =>
    obtain ⟨u, v, hu, ⟨type, closing, reading, writing, warnSize, -, rfl⟩, rfl⟩ := htakes
    refine hframe ?_ rfl rfl
    rcases hu with rfl | ⟨toLow, -, -, rfl⟩
    · rfl
    · cases toLow <;> rfl
  | command _ hfrees =>
    have hworker := frees_worker hfrees
    exact hframe hworker rfl rfl
  | frees hcall hcommit hfrees => exact hframe (frees_worker hfrees) hcall hcommit
  | drains hlock hdrains hends =>
    refine hframe ?_ rfl rfl
    obtain ⟨high, low, sent, done, -, -, -, rfl⟩ := hdrains
    have htake : s.takeDw.worker = s.worker := by
      rw [State.takeDw]
      split <;> rfl
    rcases hends with ⟨type, closing, reading, writing, warnSize, -, rfl⟩ | rfl
    · exact htake
    · exact htake
  | closed report _ => exact hframe rfl rfl rfl

omit [DecidableEq W] in
theorem Fresh.sound (h : Fresh s) : Sound s := by
  refine ⟨?_, ?_, ?_, fun _ => ?_, fun _ _ => ?_⟩
  · rw [h.low]
    exact nofun
  · rw [h.low]
    exact nofun
  · rw [h.high]
    exact nofun
  · rw [h.high]
    exact nofun
  · rw [h.wbSize, h.high, h.low]
    rfl

omit [DecidableEq W] in
theorem Fresh.locked (h : Fresh s) : Locked s := by
  have hidle : ∀ w, (s.worker w).ahead = false := by
    intro w
    rw [h.worker]
    rfl
  refine ⟨?_, ?_, ?_, ?_, ?_, ?_⟩
  · intro w
    rw [h.worker, h.lock]
    exact iff_of_false nofun nofun
  · intro w hw
    rw [h.worker] at hw
    cases hw
  · intro w hw
    rw [hidle] at hw
    cases hw
  · rw [h.incoming]
    exact nofun
  · rw [h.incoming]
    exact List.nodup_nil
  · rw [h.sending, h.pipe, h.incoming]
    rfl

theorem Fresh.ordered (h : Fresh s) : Ordered [] s := by
  have hqueue : s.queue = [] := by
    rw [queue_of_unlocked h.lock, h.dw, h.high, h.low]
    rfl
  have hway : s.onTheWay = [] := by
    rw [State.onTheWay, h.pipe, h.incoming]
    rfl
  rw [Ordered, hqueue, hway, h.wire, h.written, h.freed]
  exact ⟨⟨[], rfl, Or.inl rfl⟩, InOrder.refl [], List.Perm.refl []⟩

/-- No assertion of the socket thread fails, whatever the workers do meanwhile. -/
theorem no_assertion_fails {ls : List (Event W × Option Report)} (hfresh : Fresh s)
    (hrun : Run Step s ls t) : ∀ e, Enabled t e → (step t e).isSome := by
  have hkept : Sound t ∧ Locked t := by
    refine Run.invariant (I := fun t => Sound t ∧ Locked t) ?_ ⟨hfresh.sound, hfresh.locked⟩ hrun
    rintro u ⟨e, r⟩ v ⟨hs, hl⟩ ⟨he, hstep⟩
    obtain ⟨v', r', hstep', hchange⟩ := step_change hs hl he
    obtain rfl : v' = v := congrArg Prod.fst (Option.some.inj (hstep'.symm.trans hstep))
    exact ⟨hs.change hl he hchange, hl.change he hchange⟩
  intro e he
  obtain ⟨u, r, hstep, -⟩ := step_change hkept.1 hkept.2 he
  rw [hstep]
  rfl

/-- Writes of a worker after `force_close` has begun are left out. -/
def TimelyStep (s : State W) (l : Event W × Option Report) (t : State W) : Prop :=
  Guarded Step (fun s l => Timely s l.1) s l t

theorem ordered_run {ls : List (Event W × Option Report)} (hfresh : Fresh s)
    (hrun : Run TimelyStep s ls t) :
    Ordered (handed ls) t ∧
      ∀ w, ofSender w (calls ls) = ofSender w (handed ls) ++ (t.worker w).underway w := by
  have hall : Sound t ∧ Locked t ∧ Ordered (handed ([] ++ ls)) t ∧
      ∀ w, ofSender w (calls ([] ++ ls)) =
        ofSender w (handed ([] ++ ls)) ++ (t.worker w).underway w := by
    refine Run.invariant_history (I := fun hist t => Sound t ∧ Locked t ∧ Ordered (handed hist) t ∧
      ∀ w, ofSender w (calls hist) = ofSender w (handed hist) ++ (t.worker w).underway w) ?_ ?_ hrun
    · rintro hist u ⟨e, r⟩ v ⟨hs, hl, ho, hcalls⟩ ⟨⟨he, hstep⟩, htimely⟩
      obtain ⟨v', r', hstep', hchange⟩ := step_change hs hl he
      obtain rfl : v' = v := congrArg Prod.fst (Option.some.inj (hstep'.symm.trans hstep))
      have hhanded : handed (hist ++ [(e, r)]) = handed hist ++ e.commit.toList := by
        rw [handed, List.filterMap_append]
        cases hcommit : e.commit <;> simp [handed, hcommit]
      have hcalled : calls (hist ++ [(e, r)]) = calls hist ++ e.call.toList := by
        rw [calls, List.filterMap_append]
        cases hcall : e.call <;> simp [calls, hcall]
      refine ⟨hs.change hl he hchange, hl.change he hchange, ?_, ?_⟩
      · rw [hhanded]
        exact ho.change hs hl he htimely hchange
      · intro w
        rw [hhanded, hcalled, ofSender_append, ofSender_append, hcalls w, List.append_assoc,
          underway_step hl he hchange w, List.append_assoc]
    · refine ⟨hfresh.sound, hfresh.locked, hfresh.ordered, ?_⟩
      intro w
      rw [hfresh.worker]
      rfl
  exact hall.2.2

theorem lane_ofSender (w : W) (k : Priority) (l : List (Packet W)) :
    lane kind (w, k) l = (ofSender w l).filter fun p => p.priority = k := by
  rw [lane, ofSender, List.filter_filter]
  apply List.filter_congr
  intro p _
  simp [kind, Bool.and_comm]

/-- What the connection has taken is a row of whole packets and a beginning of one more. The packets
of one worker and one priority are written in the order of its calls, and as long as none is freed,
all are there: written, in the queue, in a command, or with the worker. -/
theorem packets_in_order {ls : List (Event W × Option Report)} (hfresh : Fresh s)
    (hrun : Run TimelyStep s ls t) :
    (∃ part, t.wire = flat t.written ++ part ∧
      (part = begun t.queue ∨ t.gone ∧ ∃ p ∈ t.freed, part <+: p.buffer)) ∧
    (∀ w k, (lane kind (w, k) (t.written ++ (packets t.queue ++ t.onTheWay)) ++
      lane kind (w, k) ((t.worker w).underway w)).Sublist (lane kind (w, k) (calls ls))) ∧
    (t.freed = [] → ∀ w k, lane kind (w, k) (t.written ++ (packets t.queue ++ t.onTheWay)) ++
      lane kind (w, k) ((t.worker w).underway w) = lane kind (w, k) (calls ls)) ∧
    (t.written ++ t.freed ++ (packets t.queue ++ t.onTheWay)).Perm (handed ls) := by
  obtain ⟨hordered, hcalls⟩ := ordered_run hfresh hrun
  have hlane : ∀ w k, lane kind (w, k) (calls ls) =
      lane kind (w, k) (handed ls) ++ lane kind (w, k) ((t.worker w).underway w) := by
    intro w k
    have hunder : ofSender w ((t.worker w).underway w) = (t.worker w).underway w := by
      cases t.worker w <;> simp [ofSender, Pc.underway]
    rw [lane_ofSender, lane_ofSender, lane_ofSender, hcalls w, hunder, List.filter_append]
  refine ⟨hordered.wire, ?_, ?_, hordered.kept⟩
  · intro w k
    rw [hlane]
    exact (hordered.inOrder (w, k)).append (List.Sublist.refl _)
  · intro hfreed w k
    have hperm := hordered.kept
    rw [hfreed, List.append_nil] at hperm
    rw [hlane, lane_eq hordered.inOrder hperm]

end Calls

section Direct

/-- A connected socket that nobody has used yet. -/
def opened : State Unit where
  type := .connected
  closing := false
  reading := true
  writing := false
  high := []
  low := []
  wbSize := 0
  warnSize := 0
  dw := none
  sending := 0
  lock := none
  worker := fun _ => .idle
  incoming := []
  pipe := []
  freeing := none
  wire := []
  written := []
  freed := []

theorem opened_fresh : Fresh opened :=
  ⟨⟨nofun, nofun, nofun⟩, rfl, rfl, rfl, rfl, rfl, rfl, rfl, rfl, fun _ => rfl, rfl, rfl, rfl, rfl,
    rfl, rfl⟩

/-- A worker writes the first of two bytes itself and asks for the other one. -/
def direct : List (Event Unit × Option Report) :=
  [(.send ⟨(), .high, [1, 2]⟩, none), (.look () false .nothing [1, 2], none),
    (.look () false .lists [1, 2], none), (.look () false .sending [1, 2], none),
    (.look () false .type [1, 2], none), (.look () true .nothing [1, 2], none),
    (.look () true .lists [1, 2], none), (.look () true .sending [1, 2], none),
    (.directWrite () [1, 2] 1, none), (.unlock () [1, 2] 1, none), (.post () .write, none),
    (.ctrl .write false, none)]

theorem direct_run : ∃ t, Run TimelyStep opened direct t ∧ t.wire = [1] ∧ t.freed = [] ∧
    Enabled t (.writable [.wrote 1] false) := by
  refine ⟨_,
    Run.cons ⟨⟨⟨rfl, nofun, fun _ => rfl⟩, rfl⟩, trivial⟩ <|
    Run.cons ⟨⟨⟨rfl, nofun⟩, rfl⟩, trivial⟩ <|
    Run.cons ⟨⟨⟨rfl, nofun⟩, rfl⟩, trivial⟩ <|
    Run.cons ⟨⟨⟨rfl, nofun⟩, rfl⟩, trivial⟩ <|
    Run.cons ⟨⟨⟨rfl, nofun⟩, rfl⟩, trivial⟩ <|
    Run.cons ⟨⟨⟨rfl, nofun⟩, rfl⟩, trivial⟩ <|
    Run.cons ⟨⟨⟨rfl, nofun⟩, rfl⟩, trivial⟩ <|
    Run.cons ⟨⟨⟨rfl, nofun⟩, rfl⟩, trivial⟩ <|
    Run.cons ⟨⟨⟨rfl, by decide⟩, rfl⟩, fun hgone => hgone.elim nofun fun hfree => hfree rfl⟩ <|
    Run.cons ⟨⟨rfl, rfl⟩, trivial⟩ <|
    Run.cons ⟨⟨List.mem_cons_self, rfl⟩, trivial⟩ <|
    Run.single ⟨⟨⟨rfl, rfl⟩, rfl⟩, trivial⟩, rfl, rfl, rfl, nofun, nofun, rfl⟩

theorem no_assertion_fails_rest : ∃ t, Run Step opened direct t ∧
    (step t (.writable [.wrote 1] false)).isSome := by
  obtain ⟨t, hrun, -, -, henabled⟩ := direct_run
  have hrun' : Run Step opened direct t := hrun.mono fun _ _ _ h => h.1
  exact ⟨t, hrun', no_assertion_fails opened_fresh hrun' _ henabled⟩

theorem packets_in_order_rest : ∃ t, Run TimelyStep opened direct t ∧ t.wire = [1] ∧
    lane kind ((), .high) (t.written ++ (packets t.queue ++ t.onTheWay)) ++
      lane kind ((), .high) ((t.worker ()).underway ()) = [⟨(), .high, [1, 2]⟩] := by
  obtain ⟨t, hrun, hwire, hfreed, -⟩ := direct_run
  exact ⟨t, hrun, hwire, (packets_in_order opened_fresh hrun).2.2.1 hfreed () .high⟩

end Direct

end Ue4Background.SocketServer
