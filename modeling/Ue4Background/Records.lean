import Ue4Background.Locks

/-!
What a step does to the records. A record comes into the game only by the answer to the
`newservice` that was called for it, and from then on it keeps that agent.
-/

namespace Ue4Background.AgentMgr

open LuaValues Transition

variable {Num Node Addr Caller : Type}

/-- The record has got its agent, and nobody waits to give it one. -/
def Settled (m : State Num Node Addr Caller) (r : Ref) (value : Option Addr) : Prop :=
  (∃ mp, m.heap r = some mp ∧ mp.agent = value) ∧
    ∀ h caller p node, m.tasks h ≠ some (.newservice caller p node r)

namespace Settled

variable {m : State Num Node Addr Caller} {r : Ref} {value : Option Addr}

theorem suspend (h : Settled m r value) (k : Handler) {t : Task Num Node Addr Caller}
    (ht : ∀ caller p node, t ≠ .newservice caller p node r) : Settled (m.suspend k t) r value := by
  refine ⟨h.1, fun k' caller p node hk => ?_⟩
  rcases tasks_suspend hk with hold | ⟨_, heq⟩
  · exact h.2 k' caller p node hold
  · exact ht caller p node heq.symm

theorem finish (h : Settled m r value) (k : Handler) : Settled (m.finish k) r value :=
  ⟨h.1, fun k' caller p node hk => h.2 k' caller p node (tasks_finish hk).2⟩

theorem modify (h : Settled m r value) {k : Ref}
    {f : MgrPlayer Num Node Addr → MgrPlayer Num Node Addr}
    (hf : k = r → ∀ mp, (f mp).agent = mp.agent) : Settled (m.modify k f) r value := by
  obtain ⟨⟨mp, hheap, hagent⟩, htasks⟩ := h
  refine ⟨?_, htasks⟩
  by_cases hr : r = k
  · exact ⟨f mp, by simp [State.modify, ← hr, hheap], (hf hr.symm mp).trans hagent⟩
  · exact ⟨mp, by simpa [State.modify, hr] using hheap, hagent⟩

theorem setLogout (h : Settled m r value) (k : Ref) : Settled (m.setLogout k) r value :=
  h.modify fun _ _ => rfl

end Settled

variable [DecidableEq Num]

theorem stored_modify {m : State Num Node Addr Caller} {p : Num} {r k : Ref}
    {f : MgrPlayer Num Node Addr → MgrPlayer Num Node Addr} {mp : MgrPlayer Num Node Addr}
    (h : Stored (m.modify k f) p r mp) :
    ∃ mp', Stored m p r mp' ∧ (mp = mp' ∨ (r = k ∧ mp = f mp')) := by
  obtain ⟨hlookup, hheap⟩ := h
  by_cases hr : r = k
  · subst hr
    simp only [State.modify, Function.update_self, Option.map_eq_some_iff] at hheap
    obtain ⟨mp', hheap', rfl⟩ := hheap
    exact ⟨mp', ⟨hlookup, hheap'⟩, Or.inr ⟨rfl, rfl⟩⟩
  · exact ⟨mp, ⟨hlookup, by simpa [State.modify, hr] using hheap⟩, Or.inl rfl⟩

theorem stored_addPlayer {m : State Num Node Addr Caller} (hl : Locks m) {p q : Num} {r : Ref}
    {mp mp' : MgrPlayer Num Node Addr} (h : Stored (m.addPlayer p mp) q r mp') :
    (q = p ∧ mp' = mp) ∨ (q ≠ p ∧ Stored m q r mp') := by
  obtain ⟨hlookup, hheap⟩ := h
  by_cases hq : q = p
  · subst hq
    have hr : m.count = r := by simpa [State.addPlayer] using hlookup
    subst hr
    exact Or.inl ⟨rfl, by simpa [State.addPlayer, eq_comm] using hheap⟩
  · have hold : m.players.lookup q = some r := by
      simpa [State.addPlayer, AList.lookup_insert_ne hq] using hlookup
    obtain ⟨mp'', hheap'', _⟩ := hl.stored q r hold
    have hr : r ≠ m.count := Nat.ne_of_lt (hl.heap_lt r mp'' hheap'')
    exact Or.inr ⟨hq, hold, by simpa [State.addPlayer, hr] using hheap⟩

theorem setLogout_game {m : State Num Node Addr Caller} {p : Num} {r k : Ref}
    {mp : MgrPlayer Num Node Addr} (h : Stored (m.setLogout k) p r mp)
    (hgame : mp.status = .game) : Stored m p r mp := by
  obtain ⟨mp', hmp', rfl | ⟨_, rfl⟩⟩ := stored_modify h
  · exact hmp'
  · cases hgame

/-- The record that `players` has for `p`. -/
def held (m : State Num Node Addr Caller) (p : Num) : Option (MgrPlayer Num Node Addr) :=
  (m.record p).map Prod.snd

theorem held_eq_some {m : State Num Node Addr Caller} {p : Num} {mp : MgrPlayer Num Node Addr} :
    held m p = some mp ↔ ∃ r, Stored m p r mp := by
  simp only [held, Option.map_eq_some_iff, Prod.exists, exists_eq_right, record_eq_some]

theorem Stored.held {m : State Num Node Addr Caller} {p : Num} {r : Ref}
    {mp : MgrPlayer Num Node Addr} (h : Stored m p r mp) : held m p = some mp :=
  held_eq_some.mpr ⟨r, h⟩

namespace Forked

variable {m m' : State Num Node Addr Caller}

theorem stored (h : Forked m m') {p : Num} {r : Ref} {mp : MgrPlayer Num Node Addr} :
    Stored m' p r mp ↔ Stored m p r mp := by
  rw [Stored, Stored, h.players, h.heap]

theorem held (h : Forked m m') : held m' = held m := by
  funext p
  simp only [AgentMgr.held, State.record, h.players, h.heap]

end Forked

theorem held_addPlayer {m : State Num Node Addr Caller} (hl : Locks m) (p : Num)
    (mp : MgrPlayer Num Node Addr) :
    held (m.addPlayer p mp) = Function.update (held m) p (some mp) := by
  funext q
  by_cases hq : q = p
  · subst hq
    rw [Function.update_self]
    exact Stored.held (r := m.count) ⟨by simp [State.addPlayer], by simp [State.addPlayer]⟩
  · rw [Function.update_of_ne hq]
    have hlookup : (m.addPlayer p mp).players.lookup q = m.players.lookup q := by
      simp [State.addPlayer, AList.lookup_insert_ne hq]
    unfold held State.record
    rw [hlookup]
    cases hr : m.players.lookup q with
    | none => rfl
    | some r =>
      obtain ⟨mp', hheap, _⟩ := hl.stored q r hr
      have hne : r ≠ m.count := Nat.ne_of_lt (hl.heap_lt r mp' hheap)
      simp [State.addPlayer, hne]

theorem held_removePlayer (m : State Num Node Addr Caller) (p : Num) :
    held (m.removePlayer p) = Function.update (held m) p none := by
  funext q
  by_cases hq : q = p
  · subst hq
    simp [held, State.record, State.removePlayer]
  · simp [held, State.record, State.removePlayer, AList.lookup_erase_ne hq, hq]

theorem held_modify {m : State Num Node Addr Caller} (hl : Locks m) {p : Num} {r : Ref}
    {mp : MgrPlayer Num Node Addr} (hp : Stored m p r mp)
    (f : MgrPlayer Num Node Addr → MgrPlayer Num Node Addr) :
    held (m.modify r f) = Function.update (held m) p (some (f mp)) := by
  funext q
  by_cases hq : q = p
  · subst hq
    rw [Function.update_self]
    exact Stored.held (r := r) ⟨hp.1, by simp [State.modify, hp.2]⟩
  · rw [Function.update_of_ne hq]
    have hlookup : (m.modify r f).players.lookup q = m.players.lookup q := rfl
    unfold held State.record
    rw [hlookup]
    cases hr : m.players.lookup q with
    | none => rfl
    | some s =>
      have hne : s ≠ r := by
        rintro rfl
        obtain ⟨mp', hheap, hid⟩ := hl.stored q s hr
        obtain ⟨mp'', hheap', hid'⟩ := hl.stored p s hp.1
        exact hq (hid.symm.trans ((congrArg MgrPlayer.playerid
          (Option.some.inj (hheap.symm.trans hheap'))).trans hid'))
      simp [State.modify, hne]

/-- The gate and the player of a kick that goes to a gate. -/
def Out.gateKick : Out Num Node Addr Caller → Option (Node × Addr × Num)
  | .callGateKick _ node gate p => some (node, gate, p)
  | .sendGateKick node gate p => some (node, gate, p)
  | _ => none

/-- A handler waits for the kick of the agent of `p`. -/
def Kicking (m : State Num Node Addr Caller) (p : Num) : Prop :=
  ∃ h caller r pnode pagent pgate, m.tasks h = some (.kickAgent caller p r pnode pagent pgate)

/-- What a step does to the records that `players` holds. -/
inductive Moved (m m' : State Num Node Addr Caller) :
    Event Num Node Addr Caller → List (Out Num Node Addr Caller) → Prop
  | same (ev : Event Num Node Addr Caller) (outs : List (Out Num Node Addr Caller))
      (hheld : held m' = held m)
      (hkick : ∀ caller p reason mp, ev = .reqkick caller p reason → held m p = some mp →
        mp.status ≠ .game)
      (hgate : ∀ o ∈ outs, o.gateKick = none) : Moved m m' ev outs
  | registered (caller : Caller) (p : Num) (node : Node) (gate : Addr)
      (hnone : held m p = none)
      (hheld : held m' = Function.update (held m) p (some ⟨p, node, none, .login, gate⟩)) :
      Moved m m' (.reqlogin caller (some p) node gate) [.callNewservice m.taskCount node p]
  | marked (ev : Event Num Node Addr Caller) (h : Handler) (p : Num)
      (mp : MgrPlayer Num Node Addr) (hp : held m p = some mp) (hgame : mp.status = .game)
      (hheld : held m' = Function.update (held m) p (some { mp with status := .logout }))
      (hkick : ∀ caller q reason, ev = .reqkick caller q reason → q = p)
      (hkicking : Kicking m' p) : Moved m m' ev [.callKick h mp.node mp.agent]
  | granted (h : Handler) (value : Option Addr) (caller : Caller) (p : Num) (node : Node)
      (gate : Addr) (r : Ref) (htask : m.tasks h = some (.newservice caller p node r))
      (hp : held m p = some ⟨p, node, none, .login, gate⟩) (hended : m'.tasks h = none)
      (hheld : held m' = Function.update (held m) p (some ⟨p, node, value, .game, gate⟩)) :
      Moved m m' (.answer h (.returned value)) [.ret caller (.granted value)]
  | removed (h : Handler) (value : Option Addr) (caller : Option Caller) (p : Num)
      (pnode : Node) (agent pgate : Addr)
      (hp : held m p = some ⟨p, pnode, some agent, .logout, pgate⟩)
      (hheld : held m' = Function.update (held m) p none) :
      Moved m m' (.answer h (.returned value))
        ([.sendExit pnode (some agent), .sendGateKick pnode pgate p] ++ reply caller .kicked)

theorem moved_step {m m' : State Num Node Addr Caller} {l : Label Num Node Addr Caller}
    (hl : Locks m) (hstep : Step m l m') : Moved m m' l.1 l.2 := by
  have hchange := step_change hstep
  obtain ⟨ev, outs⟩ := l
  dsimp only at hchange ⊢
  cases hchange
  case registered caller p node gate hrecord =>
    refine Moved.registered caller p node gate (by simp [held, hrecord]) ?_
    exact held_addPlayer (m := m.start) hl.start p _
  case notKicked caller p reason hrecord =>
    refine Moved.same _ _ rfl ?_ (by simp [Out.gateKick])
    rintro _ _ _ mp ⟨⟩ hheld hgame
    obtain ⟨r, hstored⟩ := held_eq_some.mp hheld
    exact hrecord r mp ⟨hstored, hgame⟩
  case kicking caller p reason r mp hrecord =>
    refine Moved.marked _ _ p mp hrecord.1.held hrecord.2 ?_ ?_ ?_
    · exact held_modify (m := m.start) hl.start hrecord.1 _
    · rintro _ _ _ ⟨⟩
      rfl
    · exact ⟨m.taskCount, _, r, _, _, _, Function.update_self ..⟩
  case shutdown caller num order =>
    exact Moved.same _ _ (forked_forkLoop m.start num order 0).held (by simp) (by simp)
  case forkKicking h p r mp htask hrecord =>
    refine Moved.marked _ h p mp hrecord.1.held hrecord.2 ?_ (by simp)
      ⟨h, _, r, _, _, _, Function.update_self ..⟩
    exact held_modify (m := m.finish h) (hl.finish h) hrecord.1 _
  case fault h t _ _ =>
    refine Moved.same _ _ rfl (by simp) ?_
    cases t with
    | kickAgent caller => cases caller <;> simp [fault, reply, Out.gateKick]
    | _ => simp [fault, Out.gateKick]
  case oldKicked htask => cases hl.holds _ _ htask
  case gateKicked htask => cases hl.holds _ _ htask
  case granted h value caller p node r htask =>
    obtain ⟨gate, hstored⟩ := hl.holds h _ htask
    exact Moved.granted h value caller p node gate r htask hstored.held
      (by simp [State.finish]) (held_modify hl hstored _)
  case kicked h value caller p r pnode agent pgate htask =>
    have hstored : Stored m p r ⟨p, pnode, some agent, .logout, pgate⟩ := hl.holds h _ htask
    exact Moved.removed h value caller p pnode agent pgate hstored.held
      (held_removePlayer m p)
  all_goals exact Moved.same _ _ rfl (by simp) (by simp [Out.gateKick])

/-- A handler is suspended until its call is answered or it wakes. -/
theorem task_kept {m m' : State Num Node Addr Caller} {l : Label Num Node Addr Caller}
    (hl : Locks m) (hstep : Step m l m') {k : Handler} {t : Task Num Node Addr Caller}
    (hk : m.tasks k = some t) :
    m'.tasks k = some t ∨ (∃ reply, l.1 = .answer k reply) ∨ (l.1 = .wake k ∧ t.Wakes) := by
  have hlt := hl.task_lt k t hk
  have hne : k ≠ m.taskCount := Nat.ne_of_lt hlt
  have hchange := step_change hstep
  obtain ⟨ev, outs⟩ := l
  dsimp only at hchange ⊢
  cases hchange
  case displacing => exact Or.inl ((Function.update_of_ne hne _ _).trans hk)
  case registered => exact Or.inl ((Function.update_of_ne hne _ _).trans hk)
  case kicking => exact Or.inl ((Function.update_of_ne hne _ _).trans hk)
  case shutdown caller num order =>
    have hforks := tasks_forkLoop (m := m.start) num order 0 (Nat.lt_succ_of_lt hlt)
    exact Or.inl ((Function.update_of_ne hne _ _).trans (hforks.trans hk))
  case forkNotKicked h p htask _ =>
    by_cases hkh : k = h
    · rw [hkh, htask, Option.some.injEq] at hk
      exact Or.inr (Or.inr ⟨by rw [hkh], by rw [← hk]; trivial⟩)
    · exact Or.inl ((Function.update_of_ne hkh _ _).trans hk)
  case forkKicking h p r mp htask _ =>
    by_cases hkh : k = h
    · rw [hkh, htask, Option.some.injEq] at hk
      exact Or.inr (Or.inr ⟨by rw [hkh], by rw [← hk]; trivial⟩)
    · refine Or.inl ((Function.update_of_ne hkh _ _).trans ?_)
      exact (Function.update_of_ne hkh _ _).trans hk
  case drained h _ _ _ htask =>
    by_cases hkh : k = h
    · rw [hkh, htask, Option.some.injEq] at hk
      exact Or.inr (Or.inr ⟨by rw [hkh], by rw [← hk]; trivial⟩)
    · exact Or.inl ((Function.update_of_ne hkh _ _).trans hk)
  case fault h _ _ _ =>
    by_cases hkh : k = h
    · exact Or.inr (Or.inl ⟨_, by rw [hkh]⟩)
    · exact Or.inl ((Function.update_of_ne hkh _ _).trans hk)
  case oldKicked htask => cases hl.holds _ _ htask
  case gateKicked htask => cases hl.holds _ _ htask
  case granted h _ _ _ _ _ _ =>
    by_cases hkh : k = h
    · exact Or.inr (Or.inl ⟨_, by rw [hkh]⟩)
    · exact Or.inl ((Function.update_of_ne hkh _ _).trans hk)
  case kicked h _ _ _ _ _ _ _ _ =>
    by_cases hkh : k = h
    · exact Or.inr (Or.inl ⟨_, by rw [hkh]⟩)
    · exact Or.inl ((Function.update_of_ne hkh _ _).trans hk)
  all_goals exact Or.inl hk

/-- The kick of an agent ends with the record, unless the call raises. -/
theorem kicking_step {m m' : State Num Node Addr Caller} {l : Label Num Node Addr Caller}
    (hl : Locks m) (hstep : Step m l m') {p : Num} (h : Kicking m p) :
    Kicking m' p ∨ held m' p = none ∨ ∃ k caller r pnode pagent pgate, l.1 = .answer k .raised ∧
      m.tasks k = some (.kickAgent caller p r pnode pagent pgate) := by
  obtain ⟨k, caller, r, pnode, pagent, pgate, hk⟩ := h
  rcases task_kept hl hstep hk with hkept | ⟨rep, hev⟩ | ⟨_, hwakes⟩
  · exact Or.inl ⟨k, caller, r, pnode, pagent, pgate, hkept⟩
  · cases rep with
    | raised => exact Or.inr (Or.inr ⟨k, caller, r, pnode, pagent, pgate, hev, hk⟩)
    | returned value =>
      right
      left
      have hchange := step_change hstep
      obtain ⟨ev, outs⟩ := l
      dsimp only at hchange hev
      subst hev
      cases hchange
      case oldKicked htask => cases hk.symm.trans htask
      case gateKicked htask => cases hk.symm.trans htask
      case granted htask => cases hk.symm.trans htask
      case kicked htask =>
        cases hk.symm.trans htask
        exact (congrFun (held_removePlayer m p) p).trans (Function.update_self ..)
  · cases hwakes

/-- The record of a handler that still waits for `newservice` stays as it is. -/
theorem held_login {m m' : State Num Node Addr Caller} {l : Label Num Node Addr Caller}
    (hl : Locks m) (hstep : Step m l m') {k : Handler} {caller : Caller} {p : Num} {node : Node}
    {r : Ref} (hk : m.tasks k = some (.newservice caller p node r))
    (hk' : m'.tasks k = some (.newservice caller p node r)) : held m' p = held m p := by
  obtain ⟨gate, hstored⟩ := hl.holds k _ hk
  have hheld := hstored.held
  have hmoved := moved_step hl hstep
  obtain ⟨ev, outs⟩ := l
  dsimp only at hmoved
  cases hmoved with
  | same _ _ hsame _ _ => exact congrFun hsame p
  | registered caller' q node' gate' hnone hupdate =>
    have hpq : p ≠ q := by
      rintro rfl
      rw [hheld] at hnone
      cases hnone
    rw [hupdate, Function.update_of_ne hpq]
  | marked _ h q mp hq hgame hupdate _ _ =>
    have hpq : p ≠ q := by
      rintro rfl
      rw [hheld, Option.some.injEq] at hq
      rw [← hq] at hgame
      cases hgame
    rw [hupdate, Function.update_of_ne hpq]
  | granted h value caller' q node' gate' r' htask hq hended hupdate =>
    have hpq : p ≠ q := by
      rintro rfl
      have hkh := hl.unique k h _ _ p hk htask rfl rfl
      rw [hkh, hended] at hk'
      cases hk'
    rw [hupdate, Function.update_of_ne hpq]
  | removed h value caller' q pnode agent pgate hq hupdate =>
    have hpq : p ≠ q := by
      rintro rfl
      rw [hheld] at hq
      cases hq
    rw [hupdate, Function.update_of_ne hpq]

/-- Whom a handler answers. -/
def Task.caller : Task Num Node Addr Caller → Option Caller
  | .kickOld caller _ _ _ _ _ _ _ => some caller
  | .kickGate caller _ _ _ => some caller
  | .newservice caller _ _ _ => some caller
  | .kickAgent caller _ _ _ _ _ => caller
  | .forked _ => none
  | .sleeping caller _ _ => some caller

/-- The handlers that a step suspends. -/
inductive NewTask (m m' : State Num Node Addr Caller) :
    Event Num Node Addr Caller → Handler → Task Num Node Addr Caller → Prop
  | kickOld (caller : Caller) (p : Num) (node : Node) (gate : Addr) (r : Ref) (pnode : Node)
      (pagent : Option Addr) (pgate : Addr) :
      NewTask m m' (.reqlogin caller (some p) node gate) m.taskCount
        (.kickOld caller p node gate r pnode pagent pgate)
  | newservice (caller : Caller) (p : Num) (node : Node) (gate : Addr) (r : Ref)
      (hheld : held m' p = some ⟨p, node, none, .login, gate⟩) :
      NewTask m m' (.reqlogin caller (some p) node gate) m.taskCount (.newservice caller p node r)
  | kickAgent (caller : Caller) (p : Num) (reason : Bytes) (r : Ref) (pnode : Node)
      (pagent : Option Addr) (pgate : Addr) (h : Handler) :
      NewTask m m' (.reqkick caller p reason) h (.kickAgent (some caller) p r pnode pagent pgate)
  | forked (caller : Caller) (num : ℤ) (order : List Num) (p : Num) (h : Handler) :
      NewTask m m' (.shutdown caller num order) h (.forked p)
  | sleeping (caller : Caller) (num : ℤ) (order : List Num) (count : ℕ) (h : Handler) :
      NewTask m m' (.shutdown caller num order) h (.sleeping caller num count)
  | forkKick (p : Num) (r : Ref) (pnode : Node) (pagent : Option Addr) (pgate : Addr)
      (h : Handler) : NewTask m m' (.wake h) h (.kickAgent none p r pnode pagent pgate)

theorem tasks_step {m m' : State Num Node Addr Caller} {l : Label Num Node Addr Caller}
    (hl : Locks m) (hstep : Step m l m') {k : Handler} {t : Task Num Node Addr Caller}
    (ht : m'.tasks k = some t) : m.tasks k = some t ∨ NewTask m m' l.1 k t := by
  have hchange := step_change hstep
  obtain ⟨ev, outs⟩ := l
  dsimp only at hchange ⊢
  cases hchange
  case displacing caller p node gate r mp _ =>
    rcases tasks_suspend (m := m.start) ht with hold | ⟨rfl, rfl⟩
    · exact Or.inl hold
    · exact Or.inr (NewTask.kickOld caller p node gate r mp.node none mp.gate)
  case registered caller p node gate _ =>
    rcases tasks_suspend (m := m.start.addPlayer p _) ht with hold | ⟨rfl, rfl⟩
    · exact Or.inl hold
    · refine Or.inr (NewTask.newservice caller p node gate _ ?_)
      have hadd := held_addPlayer (m := m.start) hl.start p ⟨p, node, none, .login, gate⟩
      exact (congrFun hadd p).trans (Function.update_self ..)
  case kicking caller p reason r mp _ =>
    rcases tasks_suspend (m := m.start.setLogout r) ht with hold | ⟨rfl, rfl⟩
    · exact Or.inl hold
    · exact Or.inr (NewTask.kickAgent caller p reason r mp.node mp.agent mp.gate _)
  case shutdown caller num order =>
    rcases tasks_suspend ht with hold | ⟨_, rfl⟩
    · rcases (forked_forkLoop m.start num order 0).tasks k t hold with hold | ⟨p, rfl⟩
      · exact Or.inl hold
      · exact Or.inr (NewTask.forked caller num order p k)
    · exact Or.inr (NewTask.sleeping caller num order _ k)
  case forkNotKicked h _ _ _ => exact Or.inl (tasks_finish ht).2
  case forkKicking h p r mp _ _ =>
    rcases tasks_suspend (m := (m.finish h).setLogout r) ht with hold | ⟨rfl, rfl⟩
    · exact Or.inl (tasks_finish (m := m) hold).2
    · exact Or.inr (NewTask.forkKick p r mp.node mp.agent mp.gate k)
  case drained h _ _ _ _ => exact Or.inl (tasks_finish ht).2
  case fault h _ _ _ => exact Or.inl (tasks_finish ht).2
  case oldKicked htask => cases hl.holds _ _ htask
  case gateKicked htask => cases hl.holds _ _ htask
  case granted h value _ _ _ r _ => exact Or.inl (tasks_finish (m := m.setGame r value) ht).2
  case kicked h _ _ p _ _ _ _ _ => exact Or.inl (tasks_finish (m := m.removePlayer p) ht).2
  all_goals exact Or.inl ht

/-- An answer goes to the caller of the request or of the handler that goes on. -/
theorem ret_step {m m' : State Num Node Addr Caller} {l : Label Num Node Addr Caller}
    (hstep : Step m l m') {caller : Caller} {answer : Answer Addr}
    (hret : .ret caller answer ∈ l.2) :
    (∃ playerid node gate, l.1 = .reqlogin caller playerid node gate) ∨
      (∃ p reason, l.1 = .reqkick caller p reason) ∨
      ∃ h t, m.tasks h = some t ∧ t.caller = some caller := by
  have hchange := step_change hstep
  obtain ⟨ev, outs⟩ := l
  dsimp only at hchange hret ⊢
  have hreply : ∀ {c : Option Caller} {a : Answer Addr},
      (.ret caller answer : Out Num Node Addr Caller) ∈ reply c a → c = some caller := by
    intro c a h
    obtain ⟨d, hd, heq⟩ := List.mem_map.mp h
    cases heq
    exact Option.mem_toList.mp hd
  cases hchange
  case noId =>
    cases List.mem_singleton.mp hret
    exact Or.inl ⟨_, _, _, rfl⟩
  case refused =>
    cases List.mem_singleton.mp hret
    exact Or.inl ⟨_, _, _, rfl⟩
  case notKicked =>
    cases List.mem_singleton.mp hret
    exact Or.inr (Or.inl ⟨_, _, rfl⟩)
  case drained h c num count htask =>
    cases List.mem_singleton.mp hret
    exact Or.inr (Or.inr ⟨h, _, htask, rfl⟩)
  case fault h t htask hanswers =>
    refine Or.inr (Or.inr ⟨h, t, htask, ?_⟩)
    cases t with
    | kickOld => cases List.mem_singleton.mp hret; rfl
    | kickGate => cases List.mem_singleton.mp hret; rfl
    | newservice => cases List.mem_singleton.mp hret; rfl
    | kickAgent => exact hreply hret
    | forked => cases hanswers
    | sleeping => cases hanswers
  case granted h _ _ _ _ _ htask =>
    cases List.mem_singleton.mp hret
    exact Or.inr (Or.inr ⟨h, _, htask, rfl⟩)
  case kicked h _ c _ _ _ _ _ htask =>
    refine Or.inr (Or.inr ⟨h, _, htask, ?_⟩)
    rcases List.mem_append.mp hret with hsent | hsent
    · simp at hsent
    · exact hreply hsent
  all_goals simp at hret

/-- An agent is granted to the caller of the `newservice` that answered it. -/
theorem granted_step {m m' : State Num Node Addr Caller} {l : Label Num Node Addr Caller}
    (hstep : Step m l m') {caller : Caller} {value : Option Addr}
    (hret : .ret caller (.granted value) ∈ l.2) :
    ∃ h p node r, l.1 = .answer h (.returned value) ∧
      m.tasks h = some (.newservice caller p node r) ∧ m'.tasks h = none := by
  have hchange := step_change hstep
  obtain ⟨ev, outs⟩ := l
  dsimp only at hchange hret ⊢
  have hreply : ∀ {c : Option Caller} {a : Answer Addr},
      (.ret caller (.granted value) : Out Num Node Addr Caller) ∈ reply c a →
        a = .granted value := by
    intro c a h
    obtain ⟨d, _, heq⟩ := List.mem_map.mp h
    cases heq
    rfl
  cases hchange
  case granted h _ _ p node r htask =>
    cases List.mem_singleton.mp hret
    exact ⟨h, p, node, r, rfl, htask, by simp [State.finish]⟩
  case fault h t htask hanswers =>
    cases t with
    | kickAgent => cases hreply hret
    | forked => cases hanswers
    | sleeping => cases hanswers
    | _ => simp [fault] at hret
  case kicked =>
    rcases List.mem_append.mp hret with hsent | hsent
    · simp at hsent
    · cases hreply hsent
  all_goals simp at hret

theorem taskCount_step {m m' : State Num Node Addr Caller} {l : Label Num Node Addr Caller}
    (hstep : Step m l m') : m.taskCount ≤ m'.taskCount := by
  have hchange := step_change hstep
  obtain ⟨ev, outs⟩ := l
  dsimp only at hchange
  cases hchange
  case shutdown caller num order =>
    exact Nat.le_of_succ_le (forked_forkLoop m.start num order 0).taskCount_le
  all_goals first | exact Nat.le_refl _ | exact Nat.le_succ _

/-- A player enters the table by a `reqlogin` of its own. -/
theorem absent_step {m m' : State Num Node Addr Caller} {l : Label Num Node Addr Caller}
    (hl : Locks m) (hstep : Step m l m') {p : Num}
    (hother : ∀ caller node gate, l.1 ≠ .reqlogin caller (some p) node gate)
    (hp : m.players.lookup p = none) : m'.players.lookup p = none := by
  have hchange := step_change hstep
  obtain ⟨ev, outs⟩ := l
  dsimp only at hchange hother
  cases hchange
  case registered caller q node gate _ =>
    have hpq : p ≠ q := by
      rintro rfl
      exact hother caller node gate rfl
    exact (AList.lookup_insert_ne hpq).trans hp
  case shutdown num order =>
    exact (congrArg (AList.lookup p) (forked_forkLoop m.start num order 0).players).trans hp
  case oldKicked htask => cases hl.holds _ _ htask
  case gateKicked htask => cases hl.holds _ _ htask
  case kicked q _ _ _ _ _ =>
    by_cases hpq : p = q
    · subst hpq
      exact AList.lookup_erase ..
    · exact (AList.lookup_erase_ne hpq).trans hp
  all_goals exact hp

/-- A handler waits for `newservice` since the step that suspended it. -/
theorem spawning_step {m m' : State Num Node Addr Caller} {l : Label Num Node Addr Caller}
    (hl : Locks m) (hstep : Step m l m') {k : Handler} {caller : Caller} {p : Num} {node : Node}
    {r : Ref} (hk : m'.tasks k = some (.newservice caller p node r)) :
    m.tasks k = some (.newservice caller p node r) ∨ k = m.taskCount := by
  rcases tasks_step hl hstep hk with hold | hnew
  · exact Or.inl hold
  · generalize l.1 = ev at hnew
    cases hnew
    exact Or.inr rfl

/-- A record is in the game since the answer to its own `newservice`. -/
theorem game_step {m m' : State Num Node Addr Caller} {l : Label Num Node Addr Caller}
    (hl : Locks m) (hstep : Step m l m') {p : Num} {r : Ref}
    {mp : MgrPlayer Num Node Addr} (hstored : Stored m' p r mp) (hgame : mp.status = .game) :
    Stored m p r mp ∨ ∃ h caller q node, l.1 = .answer h (.returned mp.agent) ∧
      m.tasks h = some (.newservice caller q node r) := by
  have hchange := step_change hstep
  obtain ⟨ev, outs⟩ := l
  dsimp only at hchange
  cases hchange
  case registered caller q node gate hrecord =>
    rcases stored_addPlayer hl.start hstored with ⟨_, rfl⟩ | ⟨_, hold⟩
    · cases hgame
    · exact Or.inl hold
  case kicking => exact Or.inl (setLogout_game (m := m.start) hstored hgame)
  case shutdown num order =>
    exact Or.inl ((forked_forkLoop m.start num order 0).stored.mp hstored)
  case forkKicking h _ _ _ _ _ => exact Or.inl (setLogout_game (m := m.finish h) hstored hgame)
  case oldKicked htask => cases hl.holds _ _ htask
  case gateKicked htask => cases hl.holds _ _ htask
  case granted h value caller q node r' htask =>
    obtain ⟨mp', hmp', rfl | ⟨rfl, rfl⟩⟩ := stored_modify (m := m) hstored
    · exact Or.inl hmp'
    · exact Or.inr ⟨h, caller, q, node, rfl, htask⟩
  case kicked h value caller q r' pnode agent pgate htask =>
    left
    obtain ⟨hlookup, hheap⟩ := hstored
    by_cases hq : p = q
    · subst hq
      simp [State.finish, State.removePlayer] at hlookup
    · exact ⟨by simpa [State.finish, State.removePlayer, AList.lookup_erase_ne hq] using hlookup,
        hheap⟩
  all_goals exact Or.inl hstored

namespace Settled

variable {m : State Num Node Addr Caller} {r : Ref} {value : Option Addr}

theorem registering (h : Settled m r value) (hl : Locks m) (k : Handler) (caller : Caller)
    (p : Num) (node : Node) (gate : Addr) :
    Settled (m.registering k caller p node gate) r value := by
  obtain ⟨⟨mp, hheap, hagent⟩, htasks⟩ := h
  have hr : r ≠ m.count := Nat.ne_of_lt (hl.heap_lt r mp hheap)
  have hadd : Settled (m.addPlayer p ⟨p, node, none, .login, gate⟩) r value :=
    ⟨⟨mp, by simpa [State.addPlayer, hr] using hheap, hagent⟩, htasks⟩
  exact hadd.suspend k fun _ _ _ heq => hr (by injection heq with _ _ _ hcount; exact hcount.symm)

theorem step {m' : State Num Node Addr Caller} {l : Label Num Node Addr Caller}
    (h : Settled m r value) (hl : Locks m) (hstep : Step m l m') :
    Settled m' r value := by
  have hchange := step_change hstep
  obtain ⟨ev, outs⟩ := l
  dsimp only at hchange
  have hstart : Settled m.start r value := h
  cases hchange
  case noId => exact hstart
  case refused => exact hstart
  case displacing => exact hstart.suspend _ (by simp)
  case registered => exact hstart.registering hl.start _ _ _ _ _
  case notKicked => exact hstart
  case kicking =>
    exact (hstart.setLogout _).suspend _ (by simp)
  case shutdown num order =>
    have hforks : Settled (forkLoop m.start num 0 order) r value :=
      forkLoop_induct (I := fun u => Settled u r value)
        (fun u p (hu : Settled u.start r value) => hu.suspend _ (by simp)) num order hstart 0
    exact hforks.suspend _ (by simp)
  case forkNotKicked => exact h.finish _
  case forkKicking k _ _ _ _ _ =>
    exact ((h.finish k).setLogout _).suspend _ (by simp)
  case drained => exact h.finish _
  case online => exact h
  case fault => exact h.finish _
  case oldKicked htask => cases hl.holds _ _ htask
  case gateKicked htask => cases hl.holds _ _ htask
  case granted k v caller p node r' htask =>
    have hne : r' ≠ r := by
      rintro rfl
      exact h.2 k caller p node htask
    have hgame : Settled (m.setGame r' v) r value := h.modify fun heq => absurd heq hne
    exact hgame.finish k
  case kicked k _ _ p _ _ _ _ _ => exact Settled.finish (m := m.removePlayer p) h k

end Settled

end Ue4Background.AgentMgr
