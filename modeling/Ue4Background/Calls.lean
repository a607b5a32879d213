import Ue4Background.Records
import Ue4Background.SystemSteps

/-!
The `reqlogin` calls of the login services. While a handler waits in one, exactly one thing
carries that call: the request, the handler of the agent manager that serves it, or the
answer. So the answer reaches the handler that asked for it, as long as no call fails.
-/

namespace Ue4Background.System

open LuaValues Transition
open AgentMgr (Handler Task Locks held)
open Gateway (Fd)

variable {Num Node Addr : Type}

/-- The handler of a login service that waits for an answer. -/
def loginCall : Caller Node Addr → Option (LoginCall Node)
  | .login c => some c
  | .gateway _ _ => none
  | .admin => none

/-- The handler whose `reqlogin` a handler of the agent manager serves. -/
def asking (t : Task Num Node Addr (Caller Node Addr)) : Option (LoginCall Node) :=
  t.caller.bind loginCall

/-- The handler that a request or an answer belongs to. -/
def token : Packet Num Node Addr → Option (LoginCall Node)
  | .reqlogin c _ _ => some c
  | .answered c _ => some c
  | _ => none

abbrev Tasks (Num Node Addr : Type) := Handler → Option (Task Num Node Addr (Caller Node Addr))

/-- Nothing carries the call `s`. -/
def Free (tasks : Tasks Num Node Addr) (wire : List (Packet Num Node Addr))
    (s : LoginCall Node) : Prop :=
  (∀ q ∈ wire, token q ≠ some s) ∧ ∀ h t, tasks h = some t → asking t ≠ some s

/-- No call is carried twice. -/
structure Tokens (tasks : Tasks Num Node Addr) (wire : List (Packet Num Node Addr)) : Prop where
  packets : Wire.Unique token wire
  apart : ∀ h t s, tasks h = some t → asking t = some s → ∀ q ∈ wire, token q ≠ some s
  handlers : ∀ h h' t t' s, tasks h = some t → tasks h' = some t' → asking t = some s →
    asking t' = some s → h = h'

namespace Tokens

variable {tasks : Tasks Num Node Addr} {wire : List (Packet Num Node Addr)}

theorem taken {w : World Num Node Addr} (ht : Tokens tasks w.wire)
    (e : Event Num Node Addr) : Tokens tasks (left w e) :=
  ⟨unique_left ht.packets e,
    fun h t s htask hs q hq => ht.apart h t s htask hs q (left_subset e hq),
    ht.handlers⟩

theorem free_taken {w : World Num Node Addr} (ht : Tokens tasks w.wire)
    {e : Event Num Node Addr} {pkt : Packet Num Node Addr} (htaken : System.taken w e = some pkt)
    {s : LoginCall Node} (hs : token pkt = some s) : Free tasks (left w e) s :=
  ⟨unique_taken ht.packets htaken hs,
    fun h t htask hask => ht.apart h t s htask hask pkt (mem_wire.mpr (Or.inl htaken)) hs⟩

theorem send (ht : Tokens tasks wire) {pkts : List (Packet Num Node Addr)}
    (hpkts : ∀ q ∈ pkts, token q = none) : Tokens tasks (wire ++ pkts) := by
  refine ⟨?_, ?_, ht.handlers⟩
  · refine ht.packets.append ?_ ?_
    · unfold Wire.Unique
      rw [List.filterMap_eq_nil_iff.mpr hpkts]
      exact List.nodup_nil
    · intro q hq c hc
      rw [hpkts q hq] at hc
      cases hc
  · intro h t s htask hs q hq
    rcases List.mem_append.mp hq with hold | hnew
    · exact ht.apart h t s htask hs q hold
    · rw [hpkts q hnew]
      simp

/-- A free call may be put on the wire. -/
theorem carry (ht : Tokens tasks wire) {pkt : Packet Num Node Addr} {s : LoginCall Node}
    (hs : token pkt = some s) (hfree : Free tasks wire s) : Tokens tasks (wire ++ [pkt]) := by
  refine ⟨?_, ?_, ht.handlers⟩
  · refine ht.packets.append (by simp [Wire.Unique, hs]) ?_
    intro q hq c hc q' hq'
    rw [List.mem_singleton.mp hq, hs] at hc
    cases hc
    exact hfree.1 q' hq'
  · intro h t s' htask hs' q hq
    rcases List.mem_append.mp hq with hold | hnew
    · exact ht.apart h t s' htask hs' q hold
    · rw [List.mem_singleton.mp hnew, hs]
      rintro ⟨⟩
      exact hfree.2 h t htask hs'

/-- A handler may be suspended that serves nobody or a free call. -/
theorem suspend (ht : Tokens tasks wire) (k : Handler)
    {t : Task Num Node Addr (Caller Node Addr)}
    (hfree : ∀ s, asking t = some s → Free tasks wire s) :
    Tokens (Function.update tasks k (some t)) wire := by
  refine ⟨ht.packets, ?_, ?_⟩
  · intro h u s hu hs
    rcases entry_assigned hu with ⟨_, rfl⟩ | ⟨_, hold⟩
    · exact (hfree s hs).1
    · exact ht.apart h u s hold hs
  · intro h h' u u' s hu hu' hs hs'
    rcases entry_assigned hu with ⟨rfl, rfl⟩ | ⟨_, hold⟩
    · rcases entry_assigned hu' with ⟨rfl, _⟩ | ⟨_, hold'⟩
      · rfl
      · exact absurd hs' ((hfree s hs).2 h' u' hold')
    · rcases entry_assigned hu' with ⟨_, rfl⟩ | ⟨_, hold'⟩
      · exact absurd hs ((hfree s hs').2 h u hold)
      · exact ht.handlers h h' u u' s hold hold' hs hs'

theorem finish (ht : Tokens tasks wire) (k : Handler) :
    Tokens (Function.update tasks k none) wire := by
  exact ⟨ht.packets, fun h u s hu => ht.apart h u s (entry_erased hu).2,
    fun h h' u u' s hu hu' => ht.handlers h h' u u' s (entry_erased hu).2 (entry_erased hu').2⟩

theorem free_finish (ht : Tokens tasks wire) {k : Handler}
    {t : Task Num Node Addr (Caller Node Addr)} (htask : tasks k = some t) {s : LoginCall Node}
    (hs : asking t = some s) : Free (Function.update tasks k none) wire s := by
  refine ⟨ht.apart k t s htask hs, fun h u hu hus => ?_⟩
  obtain ⟨hk, hold⟩ := entry_erased hu
  exact hk (ht.handlers h k u t s hold htask hus hs)

/-- An answer may go to a caller whose call is free. -/
theorem ret (ht : Tokens tasks wire) (caller : Caller Node Addr) (answer : AgentMgr.Answer Addr)
    (hfree : ∀ s, loginCall caller = some s → Free tasks wire s) :
    Tokens tasks (wire ++ [AgentMgr.Out.ret caller answer].flatMap mgrPackets) := by
  rw [List.flatMap_singleton]
  cases caller with
  | login c => exact ht.carry rfl (hfree c rfl)
  | gateway g session => exact ht.send (by simp [mgrPackets, token])
  | admin => exact ht.send (by simp [mgrPackets])

theorem reply (ht : Tokens tasks wire) (caller : Option (Caller Node Addr))
    (answer : AgentMgr.Answer Addr)
    (hfree : ∀ s, caller.bind loginCall = some s → Free tasks wire s) :
    Tokens tasks (wire ++ (AgentMgr.reply caller answer).flatMap mgrPackets) := by
  cases caller with
  | none => exact ht.send (by simp [AgentMgr.reply])
  | some caller => exact ht.ret caller answer hfree

end Tokens

theorem answered_sent {outs : List (AgentMgr.Out Num Node Addr (Caller Node Addr))}
    {c : LoginCall Node} {answer : AgentMgr.Answer Addr}
    (hq : .answered c answer ∈ outs.flatMap mgrPackets) : .ret (.login c) answer ∈ outs := by
  obtain ⟨o, ho, hpkt⟩ := List.mem_flatMap.mp hq
  cases o with
  | ret caller answer' =>
    cases caller with
    | login d =>
      cases List.mem_singleton.mp hpkt
      exact ho
    | gateway g session => simp [mgrPackets] at hpkt
    | admin => cases hpkt
  | _ => simp [mgrPackets] at hpkt

theorem Free.append {tasks : Tasks Num Node Addr} {wire : List (Packet Num Node Addr)}
    {s : LoginCall Node} (h : Free tasks wire s) {pkts : List (Packet Num Node Addr)}
    (hpkts : ∀ q ∈ pkts, token q = none) : Free tasks (wire ++ pkts) s := by
  refine ⟨fun q hq => ?_, h.2⟩
  rcases List.mem_append.mp hq with hold | hnew
  · exact h.1 q hold
  · rw [hpkts q hnew]
    simp

/-- The handler `c` waits for the answer to its `reqlogin`. -/
def Requesting (w : World Num Node Addr) (c : LoginCall Node) (playerid : Option Num)
    (gate : Addr) : Prop :=
  ∃ fd, w.logins.lookup c.session = some (c.login, .requesting fd playerid gate)

/-- Other handlers still wait when the handler `c` has gone on. -/
theorem Requesting.store {w w' : World Num Node Addr} {c d : LoginCall Node}
    {playerid : Option Num} {gate : Addr} {next : Option (Login.Task Num Addr)}
    (h : Requesting w d playerid gate) (hne : d ≠ c)
    (hlookup : ∀ entry, w.logins.lookup c.session = some entry → entry.1 = c.login)
    (hlogins : w'.logins = store w.logins c next) : Requesting w' d playerid gate := by
  obtain ⟨fd, hreq⟩ := h
  have hs : d.session ≠ c.session := by
    intro hs
    rw [hs] at hreq
    have hlogin : d.login = c.login := hlookup _ hreq
    apply hne
    cases c
    cases d
    dsimp only at hs hlogin
    rw [hs, hlogin]
  exact ⟨fd, by rw [hlogins, lookup_store, if_neg hs, hreq]⟩

variable [DecidableEq Num]

/-- A step of the agent manager hands every call on. -/
theorem Tokens.mgr {w : World Num Node Addr} {e : Event Num Node Addr}
    {ev : AgentMgr.Event Num Node Addr (Caller Node Addr)}
    {outs : List (AgentMgr.Out Num Node Addr (Caller Node Addr))}
    {m : AgentMgr.State Num Node Addr (Caller Node Addr)}
    (ht : Tokens w.manager.mgr.tasks w.wire) (hl : Locks w.manager.mgr)
    (hinput : MgrInput w e ev) (hstep : AgentMgr.Step w.manager.mgr (ev, outs) m) :
    Tokens m.tasks (left w e ++ outs.flatMap mgrPackets) := by
  have hleft := ht.taken e
  have hchange := AgentMgr.step_change hstep
  dsimp only at hchange
  cases hchange
  case noId =>
    cases hinput with
    | reqlogin c _ _ htaken =>
      refine hleft.ret (.login c) _ ?_
      rintro s ⟨⟩
      exact ht.free_taken htaken rfl
  case refused =>
    cases hinput with
    | reqlogin c _ _ htaken =>
      refine hleft.ret (.login c) _ ?_
      rintro s ⟨⟩
      exact ht.free_taken htaken rfl
  case displacing =>
    cases hinput with
    | reqlogin c _ _ htaken =>
      refine Tokens.send (hleft.suspend _ ?_) (by simp [mgrPackets])
      rintro s ⟨⟩
      exact ht.free_taken htaken rfl
  case registered =>
    cases hinput with
    | reqlogin c _ _ htaken =>
      refine Tokens.send (hleft.suspend _ ?_) (by simp [mgrPackets, token])
      rintro s ⟨⟩
      exact ht.free_taken htaken rfl
  case notKicked =>
    cases hinput
    exact hleft.send (by simp [mgrPackets, token])
  case kicking =>
    cases hinput
    refine Tokens.send (hleft.suspend _ ?_) (by simp [mgrPackets, token])
    rintro s ⟨⟩
  case shutdown num order =>
    cases hinput
    refine Tokens.send (Tokens.suspend ?_ _ ?_) (by simp)
    · refine AgentMgr.forkLoop_induct (m := w.manager.mgr.start)
        (I := fun u => Tokens u.tasks (left w e)) ?_ num order hleft 0
      intro u p hu
      exact hu.suspend _ (by rintro s ⟨⟩)
    · rintro s ⟨⟩
  case forkNotKicked h _ _ _ => exact (hleft.finish h).send (by simp)
  case forkKicking h _ _ _ _ _ =>
    refine Tokens.send ((hleft.finish h).suspend h ?_) (by simp [mgrPackets, token])
    rintro s ⟨⟩
  case drained h caller _ _ htask =>
    exact (hleft.finish h).ret caller _ fun s hs => hleft.free_finish htask hs
  case online => exact hleft.send (by simp)
  case fault h t htask hanswers =>
    have hfree : ∀ s, asking t = some s → _ := fun s hs => hleft.free_finish htask hs
    cases t with
    | kickOld caller => exact (hleft.finish h).ret caller _ hfree
    | kickGate caller => exact (hleft.finish h).ret caller _ hfree
    | newservice caller => exact (hleft.finish h).ret caller _ hfree
    | kickAgent caller => exact (hleft.finish h).reply caller _ hfree
    | forked => cases hanswers
    | sleeping => cases hanswers
  case oldKicked htask => cases hl.holds _ _ htask
  case gateKicked htask => cases hl.holds _ _ htask
  case granted h value caller p node r htask =>
    exact (hleft.finish h).ret caller _ fun s hs => hleft.free_finish htask hs
  case kicked h value caller p r pnode agent pgate htask =>
    rw [List.flatMap_append, ← List.append_assoc]
    refine Tokens.reply (Tokens.send (hleft.finish h) ?_) caller _ fun s hs =>
      Free.append (hleft.free_finish htask hs) ?_
    · simp [mgrPackets, token]
    · simp [mgrPackets, token]

/-- What holds of the `reqlogin` calls in flight. -/
structure Calls (w : World Num Node Addr) : Prop where
  locks : Locks w.manager.mgr
  session_lt : ∀ s, w.logins.lookup s ≠ none → s < w.sessions
  tokens : Tokens w.manager.mgr.tasks w.wire
  request : ∀ c playerid gate, .reqlogin c playerid gate ∈ w.wire → Requesting w c playerid gate
  answered : ∀ c answer, .answered c answer ∈ w.wire →
    ∃ playerid gate, Requesting w c playerid gate
  serving : ∀ h t c, w.manager.mgr.tasks h = some t → asking t = some c →
    ∃ playerid gate, Requesting w c playerid gate
  spawning : ∀ h caller p node r, w.manager.mgr.tasks h = some (.newservice caller p node r) →
    ∃ c gate, caller = .login c ∧ c.login.node = node ∧ Requesting w c (some p) gate ∧
      held w.manager.mgr p = some ⟨p, node, none, .login, gate⟩

/-- A call that something carries waits for its answer. -/
theorem Calls.carried {w : World Num Node Addr} (h : Calls w) {q : Packet Num Node Addr}
    (hq : q ∈ w.wire) {c : LoginCall Node} (hc : token q = some c) :
    ∃ playerid gate, Requesting w c playerid gate := by
  cases q with
  | reqlogin d playerid gate =>
    cases hc
    exact ⟨playerid, gate, h.request c playerid gate hq⟩
  | answered d answer =>
    cases hc
    exact h.answered c answer hq
  | _ => cases hc

/-- A handler that does not wait for `reqlogin` is carried by nothing. -/
theorem Calls.free {w : World Num Node Addr} (h : Calls w) (e : Event Num Node Addr)
    {c : LoginCall Node}
    (hother : ∀ fd playerid gate,
      w.logins.lookup c.session ≠ some (c.login, .requesting fd playerid gate)) :
    Free w.manager.mgr.tasks (left w e) c := by
  have hnot : ¬ ∃ playerid gate, Requesting w c playerid gate :=
    fun ⟨playerid, gate, fd, hreq⟩ => hother fd playerid gate hreq
  exact ⟨fun q hq hc => hnot (h.carried (left_subset e hq) hc),
    fun k t hk hc => hnot (h.serving k t c hk hc)⟩

namespace Calls

variable {w w' : World Num Node Addr} {e : Event Num Node Addr}
  {pkts : List (Packet Num Node Addr)}

/-- A step that leaves the login services and the agent manager alone. -/
theorem still (h : Calls w) (hlogins : ∀ s, w'.logins.lookup s = w.logins.lookup s)
    (hmgr : w'.manager.mgr = w.manager.mgr) (hposts : Posts w e pkts w')
    (hpkts : ∀ q ∈ pkts, token q = none) : Calls w' := by
  have hwire : ∀ q ∈ w'.wire, ∀ c, token q = some c → q ∈ w.wire := by
    intro q hq c hc
    rw [hposts.wire] at hq
    rcases List.mem_append.mp hq with hold | hnew
    · exact left_subset e hold
    · rw [hpkts q hnew] at hc
      cases hc
  have hreq : ∀ c playerid gate, Requesting w c playerid gate → Requesting w' c playerid gate := by
    rintro c playerid gate ⟨fd, hreq⟩
    exact ⟨fd, by rw [hlogins, hreq]⟩
  refine ⟨?_, ?_, ?_, ?_, ?_, ?_, ?_⟩
  · rw [hmgr]
    exact h.locks
  · intro s hs
    rw [hlogins] at hs
    exact Nat.lt_of_lt_of_le (h.session_lt s hs) hposts.sessions
  · rw [hmgr, hposts.wire]
    exact (h.tokens.taken e).send hpkts
  · exact fun c playerid gate hq => hreq _ _ _ (h.request c playerid gate (hwire _ hq c rfl))
  · intro c answer hq
    obtain ⟨playerid, gate, hold⟩ := h.answered c answer (hwire _ hq c rfl)
    exact ⟨playerid, gate, hreq _ _ _ hold⟩
  · intro k t c hk hc
    rw [hmgr] at hk
    obtain ⟨playerid, gate, hold⟩ := h.serving k t c hk hc
    exact ⟨playerid, gate, hreq _ _ _ hold⟩
  · intro k caller p node r hk
    rw [hmgr] at hk ⊢
    obtain ⟨c, gate, hcaller, hnode, hold, hheld⟩ := h.spawning k caller p node r hk
    exact ⟨c, gate, hcaller, hnode, hreq _ _ _ hold, hheld⟩

/-- A handler of a login service goes on, whose call nothing carries any more. -/
theorem stored (h : Calls w) {c : LoginCall Node} {next : Option (Login.Task Num Addr)}
    (hfree : Free w.manager.mgr.tasks (left w e) c)
    (hlookup : ∀ entry, w.logins.lookup c.session = some entry → entry.1 = c.login)
    (hsession : c.session < w'.sessions) (hlogins : w'.logins = store w.logins c next)
    (hmgr : w'.manager.mgr = w.manager.mgr) (hposts : Posts w e pkts w')
    (hpkts : (∀ q ∈ pkts, token q = none) ∨ ∃ playerid gate,
      pkts = [.reqlogin c playerid gate] ∧ Requesting w' c playerid gate) : Calls w' := by
  have hreq : ∀ d playerid gate, d ≠ c → Requesting w d playerid gate →
      Requesting w' d playerid gate :=
    fun d playerid gate hne hold => hold.store hne hlookup hlogins
  have hserving : ∀ k t d, w'.manager.mgr.tasks k = some t → asking t = some d →
      d ≠ c ∧ w.manager.mgr.tasks k = some t := by
    intro k t d hk hd
    rw [hmgr] at hk
    refine ⟨?_, hk⟩
    rintro rfl
    exact hfree.2 k t hk hd
  have hwire : ∀ q ∈ left w e, ∀ d, token q = some d → d ≠ c ∧ q ∈ w.wire := by
    intro q hq d hd
    refine ⟨?_, left_subset e hq⟩
    rintro rfl
    exact hfree.1 q hq hd
  refine ⟨?_, ?_, ?_, ?_, ?_, ?_, ?_⟩
  · rw [hmgr]
    exact h.locks
  · intro s hs
    rw [hlogins, lookup_store] at hs
    split at hs
    · rename_i hsc
      rw [hsc]
      exact hsession
    · exact Nat.lt_of_lt_of_le (h.session_lt s hs) hposts.sessions
  · rw [hmgr, hposts.wire]
    rcases hpkts with hnone | ⟨playerid, gate, rfl, _⟩
    · exact (h.tokens.taken e).send hnone
    · exact (h.tokens.taken e).carry rfl hfree
  · intro d playerid gate hq
    rw [hposts.wire] at hq
    rcases List.mem_append.mp hq with hold | hnew
    · obtain ⟨hne, hq⟩ := hwire _ hold d rfl
      exact hreq d playerid gate hne (h.request d playerid gate hq)
    · rcases hpkts with hnone | ⟨playerid', gate', rfl, hnext⟩
      · cases hnone _ hnew
      · cases List.mem_singleton.mp hnew
        exact hnext
  · intro d answer hq
    rw [hposts.wire] at hq
    rcases List.mem_append.mp hq with hold | hnew
    · obtain ⟨hne, hq⟩ := hwire _ hold d rfl
      obtain ⟨playerid, gate, hold⟩ := h.answered d answer hq
      exact ⟨playerid, gate, hreq d playerid gate hne hold⟩
    · rcases hpkts with hnone | ⟨playerid', gate', rfl, hnext⟩
      · cases hnone _ hnew
      · cases List.mem_singleton.mp hnew
  · intro k t d hk hd
    obtain ⟨hne, hk⟩ := hserving k t d hk hd
    obtain ⟨playerid, gate, hold⟩ := h.serving k t d hk hd
    exact ⟨playerid, gate, hreq d playerid gate hne hold⟩
  · intro k caller p node r hk
    have hk' := hk
    rw [hmgr] at hk'
    obtain ⟨d, gate, rfl, hnode, hold, hheld⟩ := h.spawning k caller p node r hk'
    obtain ⟨hne, _⟩ := hserving k _ d hk rfl
    rw [hmgr]
    exact ⟨d, gate, rfl, hnode, hreq d (some p) gate hne hold, hheld⟩

/-- A step of the agent manager. -/
theorem mgr (h : Calls w) {ev : AgentMgr.Event Num Node Addr (Caller Node Addr)}
    {outs : List (AgentMgr.Out Num Node Addr (Caller Node Addr))} (hinput : MgrInput w e ev)
    (hstep : AgentMgr.Step w.manager.mgr (ev, outs) w'.manager.mgr)
    (hlogins : w'.logins = w.logins) (hposts : Posts w e (outs.flatMap mgrPackets) w') :
    Calls w' := by
  have hreq : ∀ c playerid gate, Requesting w c playerid gate → Requesting w' c playerid gate := by
    rintro c playerid gate ⟨fd, hreq⟩
    exact ⟨fd, by rw [hlogins, hreq]⟩
  have htasks : ∀ {k t}, w'.manager.mgr.tasks k = some t → _ :=
    fun {k t} hk => AgentMgr.tasks_step h.locks hstep hk
  refine ⟨h.locks.step hstep, ?_, ?_, ?_, ?_, ?_, ?_⟩
  · intro s hs
    rw [hlogins] at hs
    exact Nat.lt_of_lt_of_le (h.session_lt s hs) hposts.sessions
  · rw [hposts.wire]
    exact h.tokens.mgr h.locks hinput hstep
  · intro c playerid gate hq
    rw [hposts.wire] at hq
    rcases List.mem_append.mp hq with hold | hnew
    · exact hreq _ _ _ (h.request c playerid gate (left_subset e hold))
    · cases sender_mgr hnew
  · intro c answer hq
    rw [hposts.wire] at hq
    rcases List.mem_append.mp hq with hold | hnew
    · obtain ⟨playerid, gate, hold⟩ := h.answered c answer (left_subset e hold)
      exact ⟨playerid, gate, hreq _ _ _ hold⟩
    · have hret := answered_sent hnew
      rcases AgentMgr.ret_step hstep hret with ⟨playerid, node, gate, hev⟩ | ⟨p, reason, hev⟩ |
        ⟨k, t, hk, hcaller⟩
      · dsimp only at hev
        subst hev
        cases hinput with
        | reqlogin c playerid gate htaken =>
          exact ⟨playerid, gate, hreq _ _ _ (h.request c playerid gate
            (mem_wire.mpr (Or.inl htaken)))⟩
      · dsimp only at hev
        subst hev
        cases hinput
      · obtain ⟨playerid, gate, hold⟩ := h.serving k t c hk (by simp [asking, hcaller, loginCall])
        exact ⟨playerid, gate, hreq _ _ _ hold⟩
  · intro k t c hk hc
    rcases htasks hk with hold | hnew
    · obtain ⟨playerid, gate, hold⟩ := h.serving k t c hold hc
      exact ⟨playerid, gate, hreq _ _ _ hold⟩
    · dsimp only at hnew
      cases hnew
      case kickOld =>
        cases hinput with
        | reqlogin d _ _ htaken =>
          cases hc
          exact ⟨_, _, hreq _ _ _ (h.request c _ _ (mem_wire.mpr (Or.inl htaken)))⟩
      case newservice =>
        cases hinput with
        | reqlogin d _ _ htaken =>
          cases hc
          exact ⟨_, _, hreq _ _ _ (h.request c _ _ (mem_wire.mpr (Or.inl htaken)))⟩
      case kickAgent =>
        cases hinput
        cases hc
      case forked => cases hc
      case sleeping =>
        cases hinput
        cases hc
      case forkKick => cases hc
  · intro k caller p node r hk
    rcases htasks hk with hold | hnew
    · obtain ⟨c, gate, rfl, hnode, hwaits, hheld⟩ := h.spawning k caller p node r hold
      refine ⟨c, gate, rfl, hnode, hreq _ _ _ hwaits, ?_⟩
      rw [← hheld]
      exact AgentMgr.held_login h.locks hstep hold hk
    · dsimp only at hnew
      cases hnew with
      | newservice _ _ _ _ _ hheld =>
        cases hinput with
        | reqlogin c _ _ htaken =>
          exact ⟨c, _, rfl, rfl, hreq _ _ _ (h.request c _ _ (mem_wire.mpr (Or.inl htaken))),
            hheld⟩

variable [LuaNumber Num] {users : List (Num × Bytes)}

theorem init : Calls (init : World Num Node Addr) where
  locks := Locks.init
  session_lt s hs := by simp [System.init] at hs
  tokens := ⟨List.nodup_nil, (by rintro _ _ _ ⟨⟩), (by rintro _ _ _ _ _ ⟨⟩)⟩
  request _ _ _ h := by cases h
  answered _ _ h := by cases h
  serving _ _ _ h := by cases h
  spawning _ _ _ _ _ h := by cases h

/-- A response to a handler of a login service. -/
theorem resumed (h : Calls w) {c : LoginCall Node} {t : Login.Task Num Addr}
    {response : Login.Response Addr} {next : Option (Login.Task Num Addr)}
    {outs : List (Login.Out Num Node Addr)} (hnotRaised : e ≠ .raiseLogin c.session)
    (hinput : LoginInput (Login.select users) w e c.session response)
    (htask : w.logins.lookup c.session = some (c.login, t))
    (hresume : Login.Change c.login.node t response next outs)
    (hlogins : w'.logins = store w.logins c next) (hmanager : w'.manager = w.manager)
    (hposts : Posts w e (outs.flatMap (loginPackets c)) w') : Calls w' := by
  have hlookup : ∀ entry, w.logins.lookup c.session = some entry → entry.1 = c.login := by
    intro entry hentry
    rw [htask, Option.some.injEq] at hentry
    rw [← hentry]
  have hsession : c.session < w'.sessions :=
    Nat.lt_of_lt_of_le (h.session_lt c.session (by simp [htask])) hposts.sessions
  have hmgr := congrArg AgentMgr.World.mgr hmanager
  have hanswered : ∀ answer, response = .reqlogin answer →
      Free w.manager.mgr.tasks (left w e) c := by
    rintro answer rfl
    cases hinput with
    | answered d _ htaken hd =>
      obtain ⟨playerid, gate, fd, hreq⟩ := h.answered d answer (mem_wire.mpr (Or.inl htaken))
      have hdc : d = c := by
        have hlogin := hlookup _ (hd ▸ hreq)
        cases c
        cases d
        dsimp only at hd hlogin
        rw [hd, hlogin]
      subst hdc
      exact h.tokens.free_taken htaken rfl
  cases hresume
  case raised =>
    cases hinput with
    | raised he => exact absurd he hnotRaised
  case noRow =>
    exact h.stored (h.free e (by simp [htask])) hlookup hsession hlogins hmgr hposts
      (Or.inl (by simp))
  case refused =>
    exact h.stored (h.free e (by simp [htask])) hlookup hsession hlogins hmgr hposts
      (Or.inl (by simp [loginPackets, token]))
  case passed fd playerid pw gate rest =>
    refine h.stored (h.free e (by simp [htask])) hlookup hsession hlogins hmgr hposts
      (Or.inr ⟨playerid, gate, rfl, fd, ?_⟩)
    rw [hlogins, lookup_store, if_pos rfl, Option.map_some]
  case granted =>
    exact h.stored (hanswered _ rfl) hlookup hsession hlogins hmgr hposts
      (Or.inl (by simp [loginPackets, token]))
  case denied =>
    exact h.stored (hanswered _ rfl) hlookup hsession hlogins hmgr hposts
      (Or.inl (by simp [loginPackets, token]))
  case sured =>
    exact h.stored (h.free e (by simp [htask])) hlookup hsession hlogins hmgr hposts
      (Or.inl (by simp [loginPackets, token]))
  case ignored =>
    refine h.still (fun s => ?_) hmgr hposts (by simp)
    rw [hlogins, lookup_store]
    split
    · rename_i hs
      rw [hs, htask, Option.map_some]
    · rfl

variable [DecidableEq Node] [DecidableEq Addr]

theorem step {l : Label Num Node Addr} (h : Calls w)
    (hstep : Step users w l w') (hreliable : Reliable w l) : Calls w' := by
  have hchange := step_change hstep
  obtain ⟨e, pkts⟩ := l
  dsimp only at hchange
  cases hchange
  case gate tail _ _ htail _ hlogins hmanager hposts =>
    refine h.still (fun s => by rw [hlogins]) (by rw [hmanager]) hposts fun q hq => ?_
    rcases List.mem_append.mp hq with hsent | hsent
    · have hsender := sender_gate hsent
      cases q <;> first | rfl | cases hsender
    · rcases htail with rfl | ⟨k, rfl⟩
      · cases hsent
      · cases List.mem_singleton.mp hsent
        rfl
  case started g loginid fd cmd msg htaken _ hlogins hmanager hsessions hposts =>
    have hnone : w.logins.lookup w.sessions = none := by
      by_contra hsome
      exact Nat.lt_irrefl _ (h.session_lt w.sessions hsome)
    have hfree := h.free e (c := ⟨⟨g.node, loginid⟩, w.sessions⟩) (by simp [hnone])
    exact h.stored hfree (by simp [hnone]) (by rw [hsessions]; exact Nat.lt_succ_self _) hlogins
      (by rw [hmanager]) hposts (Or.inl (by simp))
  case login c t response next outs hinput htask hresume hgates hlogins hmanager hposts =>
    refine h.resumed ?_ hinput htask hresume hlogins hmanager hposts
    rintro rfl
    exact hreliable
  case mgr ev hinput henabled hgates hlogins hmanager hposts =>
    exact h.mgr hinput ⟨henabled, by rw [hmanager]⟩ hlogins hposts
  case spawn i node k addr _ henabled hgates hlogins hmanager hposts =>
    refine h.still (fun s => by rw [hlogins]) ?_ hposts (by simp [token])
    rw [hmanager, AgentMgr.World.spawn_mgr]
  case failed hlogins hmanager hposts =>
    exact h.still (fun s => by rw [hlogins]) (by rw [hmanager]) hposts (by simp [token])
  case quiet hlogins hmanager hpkts hposts =>
    refine h.still (fun s => by rw [hlogins]) (by rw [hmanager]) hposts fun q hq => ?_
    cases hpkts q hq <;> rfl

end Calls

end Ue4Background.System
