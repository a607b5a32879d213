import Ue4Background.AgentMgr

/-!
What one event can do to the agent manager. Each constructor of `Change` is one stretch of
a handler between two suspensions, with the facts it has tested, what it sends and the
state it leaves. A request that reads a record finds it stored under its player.
-/

namespace Ue4Background.AgentMgr

open LuaValues Transition

variable {Num Node Addr Caller : Type} [DecidableEq Num]

/-- `players[p]` is the record `r`, whose fields are those of `mp`. -/
def Stored (m : State Num Node Addr Caller) (p : Num) (r : Ref)
    (mp : MgrPlayer Num Node Addr) : Prop :=
  m.players.lookup p = some r ∧ m.heap r = some mp

theorem record_eq_some {m : State Num Node Addr Caller} {p : Num} {r : Ref}
    {mp : MgrPlayer Num Node Addr} : m.record p = some (r, mp) ↔ Stored m p r mp := by
  constructor
  · intro h
    simp only [State.record, Option.bind_eq_some_iff, Option.map_eq_some_iff,
      Prod.mk.injEq] at h
    obtain ⟨r', hlookup, mp', hheap, rfl, rfl⟩ := h
    exact ⟨hlookup, hheap⟩
  · rintro ⟨hlookup, hheap⟩
    simp [State.record, hlookup, hheap]

/-- The record that a request for `p` may kick. -/
def Kickable (m : State Num Node Addr Caller) (p : Num) (r : Ref)
    (mp : MgrPlayer Num Node Addr) : Prop :=
  Stored m p r mp ∧ mp.status = .game

/-- A `reqkick` that goes ahead, up to the kick of the agent. -/
def State.kicking (m : State Num Node Addr Caller) (h : Handler) (caller : Option Caller)
    (p : Num) (r : Ref) (mp : MgrPlayer Num Node Addr) : State Num Node Addr Caller :=
  (m.setLogout r).suspend h (.kickAgent caller p r mp.node mp.agent mp.gate)

/-- A `reqlogin` that goes ahead, up to the call of `newservice`. -/
def State.registering (m : State Num Node Addr Caller) (h : Handler) (caller : Caller)
    (p : Num) (node : Node) (gate : Addr) : State Num Node Addr Caller :=
  (m.addPlayer p ⟨p, node, none, .login, gate⟩).suspend h (.newservice caller p node m.count)

inductive Change (m : State Num Node Addr Caller) :
    Event Num Node Addr Caller → List (Out Num Node Addr Caller) →
      State Num Node Addr Caller → Prop
  | noId (caller : Caller) (node : Node) (gate : Addr) :
      Change m (.reqlogin caller none node gate) [.ret caller .nothing] m.start
  | refused (caller : Caller) (p : Num) (node : Node) (gate : Addr) (r : Ref)
      (mp : MgrPlayer Num Node Addr) (hrecord : Stored m p r mp) (hstatus : mp.status ≠ .game) :
      Change m (.reqlogin caller (some p) node gate) [.ret caller .refused] m.start
  | displacing (caller : Caller) (p : Num) (node : Node) (gate : Addr) (r : Ref)
      (mp : MgrPlayer Num Node Addr) (hrecord : Kickable m p r mp) :
      Change m (.reqlogin caller (some p) node gate) [.callKick m.taskCount mp.node none]
        (m.start.suspend m.taskCount (.kickOld caller p node gate r mp.node none mp.gate))
  | registered (caller : Caller) (p : Num) (node : Node) (gate : Addr)
      (hrecord : m.record p = none) :
      Change m (.reqlogin caller (some p) node gate) [.callNewservice m.taskCount node p]
        (m.start.registering m.taskCount caller p node gate)
  | notKicked (caller : Caller) (p : Num) (reason : Bytes)
      (hrecord : ∀ r mp, ¬ Kickable m p r mp) :
      Change m (.reqkick caller p reason) [.ret caller .refused] m.start
  | kicking (caller : Caller) (p : Num) (reason : Bytes) (r : Ref)
      (mp : MgrPlayer Num Node Addr) (hrecord : Kickable m p r mp) :
      Change m (.reqkick caller p reason) [.callKick m.taskCount mp.node mp.agent]
        (m.start.kicking m.taskCount (some caller) p r mp)
  | shutdown (caller : Caller) (num : ℤ) (order : List Num) :
      Change m (.shutdown caller num order) []
        ((forkLoop m.start num 0 order).suspend m.taskCount
          (.sleeping caller num (getOnlineCount m)))
  | forkNotKicked (h : Handler) (p : Num) (htask : m.tasks h = some (.forked p))
      (hrecord : ∀ r mp, ¬ Kickable m p r mp) : Change m (.wake h) [] (m.finish h)
  | forkKicking (h : Handler) (p : Num) (r : Ref) (mp : MgrPlayer Num Node Addr)
      (htask : m.tasks h = some (.forked p)) (hrecord : Kickable m p r mp) :
      Change m (.wake h) [.callKick h mp.node mp.agent] ((m.finish h).kicking h none p r mp)
  | drained (h : Handler) (caller : Caller) (num : ℤ) (count : ℕ)
      (htask : m.tasks h = some (.sleeping caller num count)) :
      Change m (.wake h) [.ret caller (.online (getOnlineCount m))] (m.finish h)
  | online (h : Handler) (caller : Caller) (num : ℤ) (count : ℕ)
      (htask : m.tasks h = some (.sleeping caller num count)) : Change m (.wake h) [] m
  | fault (h : Handler) (t : Task Num Node Addr Caller) (htask : m.tasks h = some t)
      (hanswers : t.Answers (.raised : Reply Addr)) :
      Change m (.answer h .raised) (fault m h t).2 (m.finish h)
  | oldKicked (h : Handler) (value : Option Addr) (caller : Caller) (p : Num) (node : Node)
      (gate : Addr) (r : Ref) (pnode : Node) (agent pgate : Addr)
      (htask : m.tasks h = some (.kickOld caller p node gate r pnode (some agent) pgate)) :
      Change m (.answer h (.returned value))
        [.sendExit pnode (some agent), .sendGate pnode pgate p displaced,
          .callGateKick h pnode pgate p]
        ((m.setLogout r).suspend h (.kickGate caller p node gate))
  | gateKicked (h : Handler) (value : Option Addr) (caller : Caller) (p : Num) (node : Node)
      (gate : Addr) (htask : m.tasks h = some (.kickGate caller p node gate)) :
      Change m (.answer h (.returned value)) [.callNewservice h node p]
        (m.registering h caller p node gate)
  | granted (h : Handler) (value : Option Addr) (caller : Caller) (p : Num) (node : Node)
      (r : Ref) (htask : m.tasks h = some (.newservice caller p node r)) :
      Change m (.answer h (.returned value)) [.ret caller (.granted value)]
        ((m.setGame r value).finish h)
  | kicked (h : Handler) (value : Option Addr) (caller : Option Caller) (p : Num) (r : Ref)
      (pnode : Node) (agent pgate : Addr)
      (htask : m.tasks h = some (.kickAgent caller p r pnode (some agent) pgate)) :
      Change m (.answer h (.returned value))
        ([.sendExit pnode (some agent), .sendGateKick pnode pgate p] ++ reply caller .kicked)
        ((m.removePlayer p).finish h)

theorem reqlogin_change (m : State Num Node Addr Caller) (caller : Caller)
    (playerid : Option Num) (node : Node) (gate : Addr) :
    Change m (.reqlogin caller playerid node gate)
      (reqlogin m.start m.taskCount caller playerid node gate).2
      (reqlogin m.start m.taskCount caller playerid node gate).1 := by
  cases playerid with
  | none => exact Change.noId caller node gate
  | some p =>
    have hstart : m.start.record p = m.record p := rfl
    cases hrecord : m.record p with
    | none =>
      simp only [reqlogin, hstart, hrecord, register]
      exact Change.registered caller p node gate hrecord
    | some entry =>
      obtain ⟨r, mp⟩ := entry
      have hstored := record_eq_some.mp hrecord
      cases hstatus : mp.status with
      | logout =>
        simp only [reqlogin, hstart, hrecord, hstatus]
        exact Change.refused caller p node gate r mp hstored (by simp [hstatus])
      | login =>
        simp only [reqlogin, hstart, hrecord, hstatus]
        exact Change.refused caller p node gate r mp hstored (by simp [hstatus])
      | game =>
        simp only [reqlogin, hstart, hrecord, hstatus]
        exact Change.displacing caller p node gate r mp ⟨hstored, hstatus⟩

/-- A `reqkick` refuses or finds a record to kick. -/
theorem reqkick_cases (m : State Num Node Addr Caller) (h : Handler) (caller : Option Caller)
    (p : Num) :
    (reqkick m h caller p = (m, reply caller .refused) ∧ ∀ r mp, ¬ Kickable m p r mp) ∨
      ∃ r mp, Kickable m p r mp ∧
        reqkick m h caller p = (m.kicking h caller p r mp, [.callKick h mp.node mp.agent]) := by
  cases hrecord : m.record p with
  | none =>
    refine Or.inl ⟨by simp only [reqkick, hrecord], ?_⟩
    rintro r mp ⟨hstored, _⟩
    rw [record_eq_some.mpr hstored] at hrecord
    cases hrecord
  | some entry =>
    obtain ⟨r, mp⟩ := entry
    have hstored := record_eq_some.mp hrecord
    by_cases hstatus : mp.status = .game
    · refine Or.inr ⟨r, mp, ⟨hstored, hstatus⟩, ?_⟩
      simp only [reqkick, hrecord, hstatus]
      rfl
    · refine Or.inl ⟨?_, ?_⟩
      · simp only [reqkick, hrecord]
        cases h' : mp.status with
        | login => rfl
        | logout => rfl
        | game => exact absurd h' hstatus
      · rintro r' mp' ⟨hstored', hgame⟩
        have heq := (record_eq_some.mpr hstored').symm.trans hrecord
        simp only [Option.some.injEq, Prod.mk.injEq] at heq
        rw [heq.2] at hgame
        exact hstatus hgame

theorem wake_change (m : State Num Node Addr Caller) (h : Handler)
    (hwakes : ∃ t ∈ m.tasks h, t.Wakes) :
    Change m (.wake h) (wake m h).2 (wake m h).1 := by
  obtain ⟨t, htask, hwakes⟩ := hwakes
  rw [Option.mem_def] at htask
  cases t with
  | forked p =>
    simp only [wake, htask]
    have hkickable : ∀ r mp, Kickable (m.finish h) p r mp ↔ Kickable m p r mp :=
      fun r mp => Iff.rfl
    rcases reqkick_cases (m.finish h) h none p with ⟨heq, hnone⟩ | ⟨r, mp, hkick, heq⟩
    · rw [heq]
      exact Change.forkNotKicked h p htask fun r mp => (hkickable r mp).not.mp (hnone r mp)
    · rw [heq]
      exact Change.forkKicking h p r mp htask ((hkickable r mp).mp hkick)
  | sleeping caller num count =>
    simp only [wake, htask, drain]
    split
    · exact Change.drained h caller num count htask
    · exact Change.online h caller num count htask
  | kickOld => cases hwakes
  | kickGate => cases hwakes
  | newservice => cases hwakes
  | kickAgent => cases hwakes

theorem answer_change (m : State Num Node Addr Caller) (h : Handler) (rep : Reply Addr)
    (hanswers : ∃ t ∈ m.tasks h, t.Answers rep) :
    Change m (.answer h rep) (answer m h rep).2 (answer m h rep).1 := by
  obtain ⟨t, htask, hanswers⟩ := hanswers
  rw [Option.mem_def] at htask
  cases rep with
  | raised =>
    have hchange := Change.fault h t htask hanswers
    simp only [answer, htask]
    cases t with
    | forked => cases hanswers
    | sleeping => cases hanswers
    | kickOld => exact hchange
    | kickGate => exact hchange
    | newservice => exact hchange
    | kickAgent => exact hchange
  | returned value =>
    simp only [answer, htask]
    cases t with
    | forked => cases hanswers
    | sleeping => cases hanswers
    | kickOld caller p node gate r pnode pagent pgate =>
      cases pagent with
      | none => cases hanswers rfl
      | some agent => exact Change.oldKicked h value caller p node gate r pnode agent pgate htask
    | kickGate caller p node gate => exact Change.gateKicked h value caller p node gate htask
    | newservice caller p node r => exact Change.granted h value caller p node r htask
    | kickAgent caller p r pnode pagent pgate =>
      cases pagent with
      | none => cases hanswers rfl
      | some agent => exact Change.kicked h value caller p r pnode agent pgate htask

/-- Every step of the agent manager is one of the listed changes. -/
theorem step_change {m m' : State Num Node Addr Caller} {l : Label Num Node Addr Caller}
    (hstep : Step m l m') : Change m l.1 l.2 m' := by
  obtain ⟨ev, outs⟩ := l
  obtain ⟨henabled, hnext⟩ := hstep
  have hchange : Change m ev (next m ev).2 (next m ev).1 := by
    cases ev with
    | reqlogin caller playerid node gate => exact reqlogin_change m caller playerid node gate
    | reqkick caller p reason =>
      simp only [next]
      rcases reqkick_cases m.start m.taskCount (some caller) p with
        ⟨heq, hnone⟩ | ⟨r, mp, hkick, heq⟩
      · rw [heq]
        exact Change.notKicked caller p reason hnone
      · rw [heq]
        exact Change.kicking caller p reason r mp hkick
    | shutdown caller num order => exact Change.shutdown caller num order
    | wake h => exact wake_change m h henabled
    | answer h rep => exact answer_change m h rep henabled
  dsimp only at hnext ⊢
  rwa [hnext] at hchange

end Ue4Background.AgentMgr
