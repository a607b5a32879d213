import Ue4Background.AgentMgrSteps

/-!
The LOGIN and LOGOUT marks as locks. A handler that is suspended in `newservice`, or in
the kick of an agent, has marked a record that is stored under its player, and no other
such handler works for that player. Requests read the mark and refuse, so the record is
still the same one when the handler goes on.
-/

namespace Ue4Background.AgentMgr

open LuaValues Transition

variable {Num Node Addr Caller : Type}

/-- The player whose record a suspended handler has marked. -/
def Task.player : Task Num Node Addr Caller → Option Num
  | .newservice _ p _ _ => some p
  | .kickAgent _ p _ _ _ _ => some p
  | _ => none

/-- What every fork preserves, the loop of `shutdown` preserves. -/
theorem forkLoop_induct {m : State Num Node Addr Caller}
    {I : State Num Node Addr Caller → Prop} (hfork : ∀ m p, I m → I (m.fork p)) (num : ℤ)
    (order : List Num) (hm : I m) (n : ℕ) : I (forkLoop m num n order) := by
  induction order generalizing m n with
  | nil => exact hm
  | cons p rest ih =>
    simp only [forkLoop]
    split
    · exact hfork m p hm
    · exact ih (hfork m p hm) (n + 1)

/-- The loop of `shutdown` leaves the handlers that were there as they were. -/
theorem tasks_forkLoop {m : State Num Node Addr Caller} (num : ℤ) (order : List Num) (n : ℕ)
    {k : Handler} (hk : k < m.taskCount) : (forkLoop m num n order).tasks k = m.tasks k := by
  have hloop := forkLoop_induct (m := m)
    (I := fun u => u.tasks k = m.tasks k ∧ k < u.taskCount) ?_ num order ⟨rfl, hk⟩ n
  · exact hloop.1
  · rintro u p ⟨htasks, hlt⟩
    exact ⟨(Function.update_of_ne (Nat.ne_of_lt hlt) _ _).trans htasks, Nat.lt_succ_of_lt hlt⟩

/-- No suspended handler has marked the record of `p`. -/
def Unmarked (m : State Num Node Addr Caller) (p : Num) : Prop :=
  ∀ h t, m.tasks h = some t → t.player ≠ some p

theorem tasks_finish {m : State Num Node Addr Caller} {h k : Handler}
    {t : Task Num Node Addr Caller} (hk : (m.finish h).tasks k = some t) :
    k ≠ h ∧ m.tasks k = some t := by
  exact entry_erased hk

theorem tasks_suspend {m : State Num Node Addr Caller} {h k : Handler}
    {t u : Task Num Node Addr Caller} (hk : (m.suspend h t).tasks k = some u) :
    m.tasks k = some u ∨ (k = h ∧ u = t) := by
  rcases entry_assigned hk with hnew | ⟨_, hold⟩
  · exact Or.inr hnew
  · exact Or.inl hold

/-- The table and the records are as they were, and whatever is new waits to run `reqkick`. -/
structure Forked (m m' : State Num Node Addr Caller) : Prop where
  players : m'.players = m.players
  heap : m'.heap = m.heap
  taskCount_le : m.taskCount ≤ m'.taskCount
  tasks : ∀ k t, m'.tasks k = some t → m.tasks k = some t ∨ ∃ p, t = .forked p

theorem forked_forkLoop (m : State Num Node Addr Caller) (num : ℤ) (order : List Num) (n : ℕ) :
    Forked m (forkLoop m num n order) := by
  have hself : Forked m m := ⟨rfl, rfl, Nat.le_refl _, fun _ _ ht => Or.inl ht⟩
  refine forkLoop_induct (fun u p hu => ?_) num order hself n
  refine ⟨hu.players, hu.heap, Nat.le_succ_of_le hu.taskCount_le, fun k t ht => ?_⟩
  rcases tasks_suspend (m := u.start) ht with hold | ⟨_, rfl⟩
  · exact hu.tasks k t hold
  · exact Or.inr ⟨p, rfl⟩

variable [DecidableEq Num]

/-- What a suspended handler relies on. -/
def Holds (m : State Num Node Addr Caller) : Task Num Node Addr Caller → Prop
  | .kickOld _ _ _ _ _ _ pagent _ => pagent = none
  | .kickGate _ _ _ _ => False
  | .newservice _ p node r => ∃ gate, Stored m p r ⟨p, node, none, .login, gate⟩
  | .kickAgent _ p r pnode pagent pgate => Stored m p r ⟨p, pnode, pagent, .logout, pgate⟩
  | .forked _ => True
  | .sleeping _ _ _ => True

structure Locks (m : State Num Node Addr Caller) : Prop where
  stored : ∀ p r, m.players.lookup p = some r → ∃ mp, m.heap r = some mp ∧ mp.playerid = p
  heap_lt : ∀ r mp, m.heap r = some mp → r < m.count
  task_lt : ∀ h t, m.tasks h = some t → h < m.taskCount
  holds : ∀ h t, m.tasks h = some t → Holds m t
  unique : ∀ h h' t t' p, m.tasks h = some t → m.tasks h' = some t' → t.player = some p →
    t'.player = some p → h = h'

theorem Stored.eq {m : State Num Node Addr Caller} {p : Num} {r r' : Ref}
    {mp mp' : MgrPlayer Num Node Addr} (h : Stored m p r mp) (h' : Stored m p r' mp') :
    r' = r ∧ mp' = mp := by
  have hr : r' = r := Option.some.inj (h'.1.symm.trans h.1)
  subst hr
  exact ⟨rfl, Option.some.inj (h'.2.symm.trans h.2)⟩

theorem Holds.frame {m m' : State Num Node Addr Caller} {t : Task Num Node Addr Caller}
    (h : Holds m t)
    (hkeep : ∀ p r mp, t.player = some p → mp.status ≠ .game → Stored m p r mp →
      Stored m' p r mp) : Holds m' t := by
  cases t with
  | kickOld => exact h
  | kickGate => exact h
  | newservice c p node r =>
    obtain ⟨gate, hstored⟩ := h
    exact ⟨gate, hkeep p r _ rfl (by simp) hstored⟩
  | kickAgent c p r pnode pagent pgate => exact hkeep p r _ rfl (by simp) h
  | forked => exact h
  | sleeping => exact h

theorem Holds.marked {m : State Num Node Addr Caller} {t : Task Num Node Addr Caller} {p : Num}
    (h : Holds m t) (hp : t.player = some p) :
    ∃ r mp, Stored m p r mp ∧ mp.status ≠ .game := by
  cases t with
  | kickOld => cases hp
  | kickGate => cases hp
  | newservice c q node r =>
    obtain ⟨gate, hstored⟩ := h
    have hq : q = p := Option.some.inj hp
    subst hq
    exact ⟨r, _, hstored, by simp⟩
  | kickAgent c q r pnode pagent pgate =>
    have hq : q = p := Option.some.inj hp
    subst hq
    exact ⟨r, _, h, by simp⟩
  | forked => cases hp
  | sleeping => cases hp

namespace Locks

theorem init : Locks (init : State Num Node Addr Caller) where
  stored p r h := by simp [AgentMgr.init] at h
  heap_lt r mp h := by cases h
  task_lt h t ht := by cases ht
  holds h t ht := by cases ht
  unique h h' t t' p ht := by cases ht

variable {m : State Num Node Addr Caller}

theorem start (hl : Locks m) : Locks m.start where
  stored := hl.stored
  heap_lt := hl.heap_lt
  task_lt h t ht := Nat.lt_succ_of_lt (hl.task_lt h t ht)
  holds := hl.holds
  unique := hl.unique

theorem fresh (hl : Locks m) : m.tasks m.taskCount = none := by
  cases ht : m.tasks m.taskCount with
  | none => rfl
  | some t => exact absurd (hl.task_lt _ t ht) (Nat.lt_irrefl _)

theorem finish (hl : Locks m) (h : Handler) : Locks (m.finish h) := by
  refine ⟨hl.stored, hl.heap_lt, ?_, ?_, ?_⟩
  · intro k t hk
    exact hl.task_lt k t (tasks_finish hk).2
  · intro k t hk
    exact hl.holds k t (tasks_finish hk).2
  · intro k k' t t' p hk hk'
    exact hl.unique k k' t t' p (tasks_finish hk).2 (tasks_finish hk').2

/-- A task may be suspended that relies on nothing but what holds, if no other handler works
for its player. -/
theorem suspend (hl : Locks m) {h : Handler} {t : Task Num Node Addr Caller}
    (hh : h < m.taskCount) (hholds : Holds m t)
    (hfree : ∀ p, t.player = some p → Unmarked m p) : Locks (m.suspend h t) := by
  refine ⟨hl.stored, hl.heap_lt, ?_, ?_, ?_⟩
  · intro k u hk
    rcases tasks_suspend hk with hold | ⟨rfl, _⟩
    · exact hl.task_lt k u hold
    · exact hh
  · intro k u hk
    rcases tasks_suspend hk with hold | ⟨_, rfl⟩
    · exact hl.holds k u hold
    · exact hholds
  · intro k k' u u' p hk hk' hu hu'
    rcases tasks_suspend hk with hold | ⟨rfl, rfl⟩
    · rcases tasks_suspend hk' with hold' | ⟨_, rfl⟩
      · exact hl.unique k k' u u' p hold hold' hu hu'
      · exact absurd hu (hfree p hu' k u hold)
    · rcases tasks_suspend hk' with hold' | ⟨rfl, _⟩
      · exact absurd hu' (hfree p hu k' u' hold')
      · rfl

theorem fork (hl : Locks m) (p : Num) : Locks (m.fork p) :=
  hl.start.suspend (Nat.lt_succ_self _) trivial fun _ h => nomatch h

/-- The record of a player for whom no handler works may be changed. -/
theorem modify (hl : Locks m) {p : Num} {r : Ref}
    {f : MgrPlayer Num Node Addr → MgrPlayer Num Node Addr}
    (hlookup : m.players.lookup p = some r) (hfree : Unmarked m p)
    (hid : ∀ mp, (f mp).playerid = mp.playerid) : Locks (m.modify r f) := by
  refine ⟨?_, ?_, hl.task_lt, ?_, hl.unique⟩
  · intro q r' hlookup'
    obtain ⟨mp, hheap, hmp⟩ := hl.stored q r' hlookup'
    by_cases hr : r' = r
    · subst hr
      exact ⟨f mp, by simp [State.modify, hheap], (hid mp).trans hmp⟩
    · exact ⟨mp, by simpa [State.modify, hr] using hheap, hmp⟩
  · intro r' mp hheap
    by_cases hr : r' = r
    · subst hr
      obtain ⟨mp', hheap', _⟩ := hl.stored p r' hlookup
      exact hl.heap_lt r' mp' hheap'
    · exact hl.heap_lt r' mp (by simpa [State.modify, hr] using hheap)
  · intro k t hk
    refine (hl.holds k t hk).frame ?_
    rintro q r' mp hq _ ⟨hlookup', hheap⟩
    have hr : r' ≠ r := by
      rintro rfl
      obtain ⟨mp', hheap', hmp'⟩ := hl.stored p r' hlookup
      obtain ⟨mp'', hheap'', hmp''⟩ := hl.stored q r' hlookup'
      have hqp : q = p := by
        rw [← hmp', ← hmp'', Option.some.inj (hheap'.symm.trans hheap'')]
      exact hfree k t hk (hq.trans (by rw [hqp]))
    exact ⟨hlookup', by simpa [State.modify, hr] using hheap⟩

theorem addPlayer (hl : Locks m) {p : Num} {mp : MgrPlayer Num Node Addr}
    (hfree : Unmarked m p) (hid : mp.playerid = p) : Locks (m.addPlayer p mp) := by
  refine ⟨?_, ?_, hl.task_lt, ?_, hl.unique⟩
  · intro q r hlookup
    by_cases hq : q = p
    · subst hq
      have hr : m.count = r := by simpa [State.addPlayer] using hlookup
      subst hr
      exact ⟨mp, by simp [State.addPlayer], hid⟩
    · have hold : m.players.lookup q = some r := by
        simpa [State.addPlayer, AList.lookup_insert_ne hq] using hlookup
      obtain ⟨mp', hheap, hmp'⟩ := hl.stored q r hold
      have hr : r ≠ m.count := Nat.ne_of_lt (hl.heap_lt r mp' hheap)
      exact ⟨mp', by simpa [State.addPlayer, hr] using hheap, hmp'⟩
  · intro r mp' hheap
    by_cases hr : r = m.count
    · rw [hr]
      exact Nat.lt_succ_self _
    · have hold : m.heap r = some mp' := by simpa [State.addPlayer, hr] using hheap
      exact Nat.lt_succ_of_lt (hl.heap_lt r mp' hold)
  · intro k t hk
    refine (hl.holds k t hk).frame ?_
    rintro q r mp' hq _ ⟨hlookup, hheap⟩
    have hqp : q ≠ p := by
      rintro rfl
      exact hfree k t hk hq
    have hr : r ≠ m.count := Nat.ne_of_lt (hl.heap_lt r mp' hheap)
    refine ⟨?_, by simpa [State.addPlayer, hr] using hheap⟩
    simpa [State.addPlayer, AList.lookup_insert_ne hqp] using hlookup

theorem removePlayer (hl : Locks m) {p : Num} (hfree : Unmarked m p) :
    Locks (m.removePlayer p) := by
  refine ⟨?_, hl.heap_lt, hl.task_lt, ?_, hl.unique⟩
  · intro q r hlookup
    by_cases hq : q = p
    · subst hq
      simp [State.removePlayer, AList.lookup_erase] at hlookup
    · exact hl.stored q r
        (by simpa [State.removePlayer, AList.lookup_erase_ne hq] using hlookup)
  · intro k t hk
    refine (hl.holds k t hk).frame ?_
    rintro q r mp hq _ ⟨hlookup, hheap⟩
    have hqp : q ≠ p := by
      rintro rfl
      exact hfree k t hk hq
    exact ⟨by simpa [State.removePlayer, AList.lookup_erase_ne hqp] using hlookup, hheap⟩

theorem unmarked_of_kickable (hl : Locks m) {p : Num} {r : Ref} {mp : MgrPlayer Num Node Addr}
    (hkick : Kickable m p r mp) : Unmarked m p := by
  intro k t ht hp
  obtain ⟨r', mp', hstored', hmarked⟩ := (hl.holds k t ht).marked hp
  rw [(hkick.1.eq hstored').2] at hmarked
  exact hmarked hkick.2

theorem unmarked_of_absent (hl : Locks m) {p : Num} (hrecord : m.record p = none) :
    Unmarked m p := by
  intro k t ht hp
  obtain ⟨r, mp, hstored, _⟩ := (hl.holds k t ht).marked hp
  rw [record_eq_some.mpr hstored] at hrecord
  cases hrecord

/-- When a handler ends, nobody works for its player any more. -/
theorem unmarked_finish (hl : Locks m) {h : Handler} {t : Task Num Node Addr Caller} {p : Num}
    (ht : m.tasks h = some t) (hp : t.player = some p) : Unmarked (m.finish h) p := by
  intro k u hk hu
  obtain ⟨hne, hold⟩ := tasks_finish hk
  exact hne (hl.unique k h u t p hold ht hu hp)

theorem lookup_none (hl : Locks m) {p : Num} (hrecord : m.record p = none) :
    m.players.lookup p = none := by
  cases hlookup : m.players.lookup p with
  | none => rfl
  | some r =>
    obtain ⟨mp, hheap, _⟩ := hl.stored p r hlookup
    rw [record_eq_some.mpr ⟨hlookup, hheap⟩] at hrecord
    cases hrecord

theorem kicking (hl : Locks m) {h : Handler} {caller : Option Caller} {p : Num} {r : Ref}
    {mp : MgrPlayer Num Node Addr} (hh : h < m.taskCount) (hkick : Kickable m p r mp) :
    Locks (m.kicking h caller p r mp) := by
  have hfree := hl.unmarked_of_kickable hkick
  obtain ⟨⟨hlookup, hheap⟩, _⟩ := hkick
  have hmodify : Locks (m.setLogout r) := hl.modify hlookup hfree fun _ => rfl
  refine hmodify.suspend hh ?_ ?_
  · obtain ⟨mp', hheap', hid⟩ := hl.stored p r hlookup
    have hmp : mp' = mp := Option.some.inj (hheap'.symm.trans hheap)
    subst hmp hid
    exact ⟨hlookup, by simp [State.setLogout, State.modify, hheap]⟩
  · intro q hq
    have hpq : p = q := Option.some.inj hq
    subst hpq
    exact hfree

theorem registering (hl : Locks m) {h : Handler} {caller : Caller} {p : Num} (node : Node)
    (gate : Addr) (hh : h < m.taskCount) (hrecord : m.record p = none) :
    Locks (m.registering h caller p node gate) := by
  have hfree := hl.unmarked_of_absent hrecord
  refine (hl.addPlayer hfree rfl).suspend hh ?_ ?_
  · exact ⟨gate, by simp [State.addPlayer], by simp [State.addPlayer]⟩
  · intro q hq
    have hpq : p = q := Option.some.inj hq
    subst hpq
    exact hfree

theorem step {m' : State Num Node Addr Caller} {l : Label Num Node Addr Caller}
    (hl : Locks m) (hstep : Step m l m') : Locks m' := by
  have hchange := step_change hstep
  obtain ⟨ev, outs⟩ := l
  dsimp only at hchange
  cases hchange
  case noId => exact hl.start
  case refused => exact hl.start
  case displacing => exact hl.start.suspend (Nat.lt_succ_self _) rfl fun _ h => nomatch h
  case registered node gate hrecord =>
    exact hl.start.registering node gate (Nat.lt_succ_self _) hrecord
  case notKicked => exact hl.start
  case kicking hrecord => exact hl.start.kicking (Nat.lt_succ_self _) hrecord
  case shutdown caller num order =>
    have hlocks : Locks (forkLoop m.start num 0 order) :=
      forkLoop_induct (fun u p hu => hu.fork p) num order hl.start 0
    have hcount := (forked_forkLoop m.start num order 0).taskCount_le
    exact hlocks.suspend hcount trivial fun _ h => nomatch h
  case forkNotKicked h _ _ _ => exact hl.finish h
  case forkKicking h p r mp htask hrecord =>
    exact (hl.finish h).kicking (hl.task_lt h _ htask) hrecord
  case drained h _ _ _ _ => exact hl.finish h
  case online => exact hl
  case fault h _ _ _ => exact hl.finish h
  case oldKicked htask => cases hl.holds _ _ htask
  case gateKicked htask => cases hl.holds _ _ htask
  case granted h value caller p node r htask =>
    obtain ⟨gate, hlookup, _⟩ := hl.holds h _ htask
    exact (hl.finish h).modify hlookup (hl.unmarked_finish htask rfl) fun _ => rfl
  case kicked h value caller p r pnode agent pgate htask =>
    exact (hl.finish h).removePlayer (hl.unmarked_finish htask rfl)

theorem run {ls : List (Label Num Node Addr Caller)} (hrun : Run Step AgentMgr.init ls m) :
    Locks m :=
  Run.invariant (fun _ _ _ hu hstep => hu.step hstep) Locks.init hrun

end Locks

end Ue4Background.AgentMgr
