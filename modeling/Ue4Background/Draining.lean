import Ue4Background.Lockout

/-!
The batch shutdown. `shutdown(num)` forks a `reqkick` for the first players that `pairs`
gives it and waits until `num` players less are online. Its counter is tested after it was
incremented, so it forks one `reqkick` more than asked for when the table has one more, and
a `reqkick` that finds its player in LOGIN or LOGOUT does nothing.
-/

namespace Ue4Background.AgentMgr

open LuaValues Transition

variable {Num Node Addr Caller : Type}

def Task.request : Task Num Node Addr Caller → Option Num
  | .forked p => some p
  | _ => none

/-- The players of the `reqkick`s that were forked between two states. -/
def requests (m m' : State Num Node Addr Caller) : List Num :=
  (List.range' m.taskCount (m'.taskCount - m.taskCount)).filterMap fun h =>
    (m'.tasks h).bind Task.request

/-- The handler `h` was forked between two states, for a `reqkick` of `p`. -/
def Forks (m m' : State Num Node Addr Caller) (h : Handler) (p : Num) : Prop :=
  m.taskCount ≤ h ∧ m'.tasks h = some (.forked p)

/-- No login is requested, and no call raises. -/
def Quiet (l : Label Num Node Addr Caller) : Prop :=
  (∀ caller p node gate, l.1 ≠ .reqlogin caller p node gate) ∧
    ∀ h reply, l.1 = .answer h reply → ∃ value, reply = .returned value

theorem forks_of_mem_requests {m m' : State Num Node Addr Caller} {p : Num}
    (hp : p ∈ requests m m') : ∃ h, Forks m m' h p := by
  obtain ⟨h, hh, hrequest⟩ := List.mem_filterMap.mp hp
  obtain ⟨t, ht, hrequest⟩ := Option.bind_eq_some_iff.mp hrequest
  cases t with
  | forked q =>
    have hqp : q = p := Option.some.inj hrequest
    subst hqp
    exact ⟨h, (List.mem_range'_1.mp hh).1, ht⟩
  | kickOld => cases hrequest
  | kickGate => cases hrequest
  | newservice => cases hrequest
  | kickAgent => cases hrequest
  | sleeping => cases hrequest

/-- The loop of `shutdown` forks `num + 1` handlers, or one for each player. -/
theorem forkLoop_forks {m : State Num Node Addr Caller} {num : ℤ} (order : List Num) {n : ℕ}
    (hn : (n : ℤ) ≤ num) :
    (forkLoop m num n order).taskCount =
        m.taskCount + (order.take (num.toNat + 1 - n)).length ∧
      ∀ i p, (order.take (num.toNat + 1 - n))[i]? = some p →
        (forkLoop m num n order).tasks (m.taskCount + i) = some (.forked p) := by
  induction order generalizing m n with
  | nil => simp [forkLoop]
  | cons q rest ih =>
    have hforked : (m.fork q).tasks m.taskCount = some (.forked q) := Function.update_self ..
    simp only [forkLoop]
    split
    · rename_i hlast
      have htake : num.toNat + 1 - n = 1 := by omega
      rw [htake]
      refine ⟨rfl, fun i p hp => ?_⟩
      cases i with
      | zero =>
        have hqp : q = p := Option.some.inj hp
        rw [← hqp]
        exact hforked
      | succ i => simp at hp
    · rename_i hmore
      obtain ⟨hcount, htasks⟩ := ih (m := m.fork q) (n := n + 1) (by omega)
      have htake : num.toNat + 1 - n = num.toNat + 1 - (n + 1) + 1 := by omega
      rw [htake, List.take_succ_cons]
      have hfork : (m.fork q).taskCount = m.taskCount + 1 := rfl
      refine ⟨?_, fun i p hp => ?_⟩
      · rw [hcount, hfork, List.length_cons]
        omega
      · cases i with
        | zero =>
          have hqp : q = p := Option.some.inj hp
          rw [← hqp]
          exact (tasks_forkLoop num rest (n + 1) (Nat.lt_succ_self _)).trans hforked
        | succ i =>
          have hi := htasks i p hp
          rw [hfork] at hi
          have hindex : m.taskCount + (i + 1) = m.taskCount + 1 + i := by omega
          rw [hindex]
          exact hi

theorem filterMap_range' {T : Type} {f : ℕ → Option T} {s : ℕ} {xs : List T}
    (h : ∀ i x, xs[i]? = some x → f (s + i) = some x) :
    (List.range' s xs.length).filterMap f = xs := by
  induction xs generalizing s with
  | nil => rfl
  | cons x xs ih =>
    have hhead : f s = some x := h 0 x rfl
    have hrest : (List.range' (s + 1) xs.length).filterMap f = xs := by
      apply ih
      intro i y hy
      have hindex : s + 1 + i = s + (i + 1) := by omega
      rw [hindex]
      exact h (i + 1) y hy
    rw [List.length_cons, List.range'_succ, List.filterMap_cons, hhead, hrest]

variable [DecidableEq Num]

/-- The state of a manager in which `shutdown` has forked and sleeps. -/
def shuttingDown (m : State Num Node Addr Caller) (caller : Caller) (num : ℤ)
    (order : List Num) : State Num Node Addr Caller :=
  (next m (.shutdown caller num order)).1

/-- A `reqkick` forked between `m` and `m'` finds its player in the game, if at all. -/
def FindsGame (m m' u : State Num Node Addr Caller) (l : Label Num Node Addr Caller) : Prop :=
  ∀ h p r mp, l.1 = .wake h → Forks m m' h p → Stored u p r mp → mp.status = .game

/-- A batch shutdown kicks as many players as it was asked to, and returns once the
`reqkick`s it forked have ended, in all runs whose steps meet `meets`. -/
structure Drains (meets : State Num Node Addr Caller → Label Num Node Addr Caller → Prop)
    (m : State Num Node Addr Caller) (caller : Caller) (num : ℤ) (order : List Num) : Prop where
  distinct : (requests m (shuttingDown m caller num order)).Nodup
  length_eq : ((requests m (shuttingDown m caller num order)).length : ℤ) =
    min num (getOnlineCount m)
  returns : ∀ ls u, Run (Guarded Step meets) (shuttingDown m caller num order) ls u →
    (∀ h p, Forks m (shuttingDown m caller num order) h p → u.tasks h = none) →
      drain u m.taskCount caller num (getOnlineCount m) =
        (u.finish m.taskCount, [.ret caller (.online (getOnlineCount u))])

variable {m m' : State Num Node Addr Caller}

theorem requests_shuttingDown {num : ℤ} (hnum : 0 ≤ num) (caller : Caller) (order : List Num) :
    requests m (shuttingDown m caller num order) = order.take (num.toNat + 1) := by
  obtain ⟨hcount, htasks⟩ := forkLoop_forks (m := m.start) (n := 0) order hnum
  rw [Nat.sub_zero] at hcount htasks
  have hlength : (shuttingDown m caller num order).taskCount - m.taskCount =
      (order.take (num.toNat + 1)).length + 1 := by
    have hdown : (shuttingDown m caller num order).taskCount =
        (forkLoop m.start num 0 order).taskCount := rfl
    have hstart : m.start.taskCount = m.taskCount + 1 := rfl
    omega
  have hself : (shuttingDown m caller num order).tasks m.taskCount =
      some (.sleeping caller num (getOnlineCount m)) := Function.update_self ..
  have hforked : ∀ i p, (order.take (num.toNat + 1))[i]? = some p →
      (shuttingDown m caller num order).tasks (m.taskCount + 1 + i) = some (.forked p) := by
    intro i p hp
    have hne : m.taskCount + 1 + i ≠ m.taskCount := by omega
    exact (Function.update_of_ne hne _ _).trans (htasks i p hp)
  rw [requests, hlength, List.range'_succ, List.filterMap_cons, hself]
  exact filterMap_range' fun i p hp => by rw [hforked i p hp]; rfl

/-- A forked `reqkick` waits to run, waits for the agent, or has ended and left the table
without its player. -/
def Underway (m : State Num Node Addr Caller) (h : Handler) (p : Num) : Prop :=
  m.tasks h = some (.forked p) ∨
    (∃ r node agent gate, m.tasks h = some (.kickAgent none p r node agent gate)) ∨
      (h < m.taskCount ∧ m.tasks h = none ∧ m.players.lookup p = none)

theorem Underway.step {h : Handler} {p : Num} {l : Label Num Node Addr Caller} (hl : Locks m)
    (hstep : Step m l m') (hquiet : Quiet l)
    (hgame : ∀ r mp, l.1 = .wake h → Stored m p r mp → mp.status = .game)
    (hunderway : Underway m h p) : Underway m' h p := by
  rcases hunderway with htask | ⟨r, node, agent, gate, htask⟩ | ⟨hlt, hnone, habsent⟩
  · rcases task_kept hl hstep htask with hkept | ⟨reply, hev⟩ | ⟨hev, _⟩
    · exact Or.inl hkept
    · obtain ⟨ev, outs⟩ := l
      obtain rfl : ev = .answer h reply := hev
      obtain ⟨t, ht, hanswers⟩ := hstep.1
      cases htask.symm.trans ht
      cases hanswers
    · have hchange := step_change hstep
      obtain ⟨ev, outs⟩ := l
      obtain rfl : ev = .wake h := hev
      dsimp only at hchange
      have hlt := hl.task_lt h _ htask
      cases hchange
      case forkNotKicked q hrecord htask' =>
        cases htask.symm.trans htask'
        -- a record of the player would be in the game, and kicked
        have hnone : m.record p = none := by
          cases hsome : m.record p with
          | none => rfl
          | some entry =>
            have hstored := record_eq_some.mp hsome
            exact absurd ⟨hstored, hgame _ _ rfl hstored⟩ (hrecord _ _)
        exact Or.inr (Or.inr ⟨hlt, Function.update_self .., hl.lookup_none hnone⟩)
      case forkKicking q r mp _ htask' =>
        cases htask.symm.trans htask'
        exact Or.inr (Or.inl ⟨r, _, _, _, Function.update_self ..⟩)
      case drained htask' => cases htask.symm.trans htask'
      case online htask' => cases htask.symm.trans htask'
  · rcases task_kept hl hstep htask with hkept | ⟨reply, hev⟩ | ⟨_, hwakes⟩
    · exact Or.inr (Or.inl ⟨r, node, agent, gate, hkept⟩)
    · obtain ⟨value, rfl⟩ := hquiet.2 h reply hev
      have hlt := Nat.lt_of_lt_of_le (hl.task_lt h _ htask) (taskCount_step hstep)
      obtain ⟨ev, outs⟩ := l
      obtain rfl : ev = .answer h (.returned value) := hev
      have hended := answer_ends hl hstep
      have hgone := (lookup_failed hl htask rfl hstep).mpr (Or.inr ⟨trivial, nofun⟩)
      exact Or.inr (Or.inr ⟨hlt, hended, hgone⟩)
    · cases hwakes
  · exact Or.inr (Or.inr ⟨Nat.lt_of_lt_of_le hlt (taskCount_step hstep),
      ended_kept hl hstep hlt hnone, absent_step hl hstep (hquiet.1 · _) habsent⟩)

theorem reachable_underway {ls : List (Label Num Node Addr Caller)} {caller : Caller} {num : ℤ}
    {order : List Num} {u : State Num Node Addr Caller} (hl : Locks m)
    (horder : Enabled m (.shutdown caller num order))
    (hrun : Run (Guarded Step fun u l =>
      Quiet l ∧ FindsGame m (shuttingDown m caller num order) u l)
      (shuttingDown m caller num order) ls u) :
    (∀ h p, Forks m (shuttingDown m caller num order) h p → Underway u h p) ∧
      ∀ p, m.players.lookup p = none → u.players.lookup p = none := by
  have hstep : Step m (.shutdown caller num order, []) (shuttingDown m caller num order) :=
    ⟨horder, rfl⟩
  have hplayers : (shuttingDown m caller num order).players = m.players :=
    (forked_forkLoop m.start num order 0).players
  have hinv := Run.invariant (I := fun u => Locks u ∧
    (∀ h p, Forks m (shuttingDown m caller num order) h p → Underway u h p) ∧
      ∀ p, m.players.lookup p = none → u.players.lookup p = none) ?_ ⟨hl.step hstep, ?_, ?_⟩ hrun
  · exact hinv.2
  · rintro u l v ⟨hlocks, hunderway, habsent⟩ ⟨hstep, hquiet, hgame⟩
    refine ⟨hlocks.step hstep, fun h p hforks => ?_, fun p hp => ?_⟩
    · have hfinds : ∀ r mp, l.1 = .wake h → Stored u p r mp → mp.status = .game :=
        fun r mp hev hstored => hgame h p r mp hev hforks hstored
      exact (hunderway h p hforks).step hlocks hstep hquiet hfinds
    · exact absent_step hlocks hstep (hquiet.1 · _) (habsent p hp)
  · exact fun h p hforks => Or.inl hforks.2
  · intro p hp
    rwa [hplayers]

/-- The players who are still online are among the others. -/
theorem online_add_requests_le {u : State Num Node Addr Caller} {ps : List Num}
    (hkeep : ∀ p, m.players.lookup p = none → u.players.lookup p = none)
    (hps : ps ⊆ m.players.keys) (hnodup : ps.Nodup)
    (hgone : ∀ p ∈ ps, u.players.lookup p = none) :
    getOnlineCount u + ps.length ≤ getOnlineCount m := by
  have hkeys : ∀ p, p ∈ u.players.keys → u.players.lookup p ≠ none :=
    fun p hp => Option.isSome_iff_ne_none.mp (AList.lookup_isSome.mpr hp)
  have happend : (u.players.keys ++ ps).Nodup := by
    refine List.Nodup.append u.players.keys_nodup hnodup ?_
    intro p hp hps
    exact hkeys p hp (hgone p hps)
  have hsubset : u.players.keys ++ ps ⊆ m.players.keys := by
    intro p hp
    rcases List.mem_append.mp hp with hp | hp
    · have hsome : m.players.lookup p ≠ none := mt (hkeep p) (hkeys p hp)
      exact AList.lookup_isSome.mp (Option.isSome_iff_ne_none.mpr hsome)
    · exact hps hp
  have hle := (List.subperm_of_subset happend hsubset).length_le
  have hcount : ∀ w : State Num Node Addr Caller, w.players.keys.length = getOnlineCount w :=
    fun w => List.length_map ..
  rwa [List.length_append, hcount, hcount] at hle

/-- When every forked `reqkick` finds its player in the game, the batch shutdown does what it
was asked to exactly if at most `num` players are online. -/
theorem batch_drains {ls : List (Label Num Node Addr Caller)} {caller : Caller} {num : ℤ}
    {order : List Num} (hrun : Run Step init ls m) (hnum : 0 ≤ num)
    (horder : Enabled m (.shutdown caller num order)) :
    Drains (fun u l => Quiet l ∧ FindsGame m (shuttingDown m caller num order) u l) m caller num
        order ↔
      (getOnlineCount m : ℤ) ≤ num := by
  have hl := Locks.run hrun
  have hperm : order.Perm m.players.keys := horder
  have hrequests := requests_shuttingDown hnum caller order (m := m)
  have hlength : order.length = getOnlineCount m :=
    hperm.length_eq.trans (List.length_map ..)
  have hcount : (requests m (shuttingDown m caller num order)).length =
      min (num.toNat + 1) (getOnlineCount m) := by
    rw [hrequests, List.length_take, hlength]
  have hnodup : (requests m (shuttingDown m caller num order)).Nodup := by
    rw [hrequests]
    exact (hperm.nodup_iff.mpr m.players.keys_nodup).take
  constructor
  · intro hdrains
    have hasked := hdrains.length_eq
    rw [hcount] at hasked
    omega
  · intro hfew
    refine ⟨hnodup, ?_, fun ls u hrun hended => ?_⟩
    · rw [hcount]
      omega
    · obtain ⟨hunderway, habsent⟩ := reachable_underway hl horder hrun
      have hgone : ∀ p ∈ requests m (shuttingDown m caller num order),
          u.players.lookup p = none := by
        intro p hp
        obtain ⟨h, hforks⟩ := forks_of_mem_requests hp
        have hnone := hended h p hforks
        rcases hunderway h p hforks with hold | ⟨_, _, _, _, hold⟩ | ⟨_, _, hgone⟩
        · cases hnone.symm.trans hold
        · cases hnone.symm.trans hold
        · exact hgone
      have hsubset : requests m (shuttingDown m caller num order) ⊆ m.players.keys := by
        rw [hrequests]
        exact fun p hp => hperm.subset (List.take_subset _ _ hp)
      have hle := online_add_requests_le habsent hsubset hnodup hgone
      have hempty : getOnlineCount u ≤ 0 := by
        rw [hcount] at hle
        omega
      rw [drain, if_pos (Or.inl hempty)]

/-- So many players log in. -/
def logins (count : ℕ) : List (Event ℕ ℕ ℕ ℕ) :=
  (List.range count).flatMap fun i =>
    [.reqlogin 0 (some (i + 1)) 1 10, .answer i (.returned (some (100 + i)))]

theorem batch_drains_three :
    Drains (fun u l => Quiet l ∧
        FindsGame (exec next (init : State ℕ ℕ ℕ ℕ) (logins 3))
          (shuttingDown (exec next init (logins 3)) 5 3 [2, 3, 1]) u l)
      (exec next init (logins 3)) 5 3 [2, 3, 1] :=
  (batch_drains (run_exec (logins 3) (by decide)) (by decide) (by decide)).mpr (by decide)

/-- Four players are online, three are to be kicked, and four are. -/
theorem batch_shutdown_kicks_one_more :
    ¬ ∀ (ls : List (Label ℕ ℕ ℕ ℕ)) (m : State ℕ ℕ ℕ ℕ) (caller : ℕ) (num : ℤ) (order : List ℕ),
      Run Step init ls m → 0 ≤ num → Enabled m (.shutdown caller num order) →
        Drains (fun _ l => Quiet l) m caller num order := by
  intro h
  have hdrains := h _ _ 5 3 [4, 3, 2, 1] (run_exec (logins 4) (by decide)) (by decide)
    (by decide)
  exact absurd hdrains.length_eq (by decide)

end Ue4Background.AgentMgr
