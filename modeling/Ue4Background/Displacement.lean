import Ue4Background.OneAgent

/-!
A second login of a player who is in the game. `reqlogin` means to mark the old record,
to kick its agent and its gate, and to go on as for a new player. It reads the agent from
a field that no record has, so the first of these calls goes to a nil address and the
request ends there, before the mark is set.
-/

namespace Ue4Background.AgentMgr

open LuaValues Transition

variable {Num Node Addr Caller : Type}

/-- The call of a suspended handler goes to a service. -/
def Task.Reaches : Task Num Node Addr Caller → Prop
  | .kickOld _ _ _ _ _ _ pagent _ => pagent ≠ none
  | .kickAgent _ _ _ _ pagent _ => pagent ≠ none
  | _ => True

namespace World

/-- Every remote call that reaches a service succeeds, and `newservice` gives an agent. -/
def Succeeds (w : World Num Node Addr Caller) (l : Label Num Node Addr Caller) : Prop :=
  match l.1 with
  | .mgr (.answer h reply) => ∀ t, w.mgr.tasks h = some t → t.Reaches →
      ∃ value, reply = .returned value ∧ ((spawning w.mgr h).isSome → value.isSome)
  | _ => True

variable [DecidableEq Num]

/-- The world after a `reqlogin`, up to its first suspension, and what this has sent. -/
def asked (w : World Num Node Addr Caller) (caller : Caller) (p : Num) (node : Node)
    (gate : Addr) : World Num Node Addr Caller × List (Out Num Node Addr Caller) :=
  next w (.mgr (.reqlogin caller (some p) node gate))

/-- The request replaces the record `mp` of `p`, whose agent is `agent`: the old agent and
its gate are kicked in this order, the new record is in the game with a new agent, and all
other requests for `p` are refused in the meantime. -/
structure Displaces (w : World Num Node Addr Caller) (mp : MgrPlayer Num Node Addr)
    (agent : Addr) (caller : Caller) (p : Num) (node : Node) (gate : Addr) : Prop where
  suspends : (w.asked caller p node gate).1.mgr.tasks w.mgr.taskCount ≠ none
  completes : ∀ ls u l v, Run (Guarded Step Succeeds) (w.asked caller p node gate).1 ls u →
    u.mgr.tasks w.mgr.taskCount ≠ none → Guarded Step Succeeds u l v →
    v.mgr.tasks w.mgr.taskCount = none →
      ∃ r agent', Stored v.mgr p r ⟨p, node, some agent', .game, gate⟩ ∧
        ⟨node, agent', p⟩ ∈ v.agents ∧ ⟨node, agent', p⟩ ∉ w.agents ∧
        List.Sublist [.callKick w.mgr.taskCount mp.node (some agent),
            .sendExit mp.node (some agent), .sendGate mp.node mp.gate p displaced,
            .callGateKick w.mgr.taskCount mp.node mp.gate p,
            .ret caller (.granted (some agent'))]
          ((w.asked caller p node gate).2 ++ ls.flatMap Prod.snd ++ l.2)
  refuses : ∀ ls u, Run (Guarded Step Succeeds) (w.asked caller p node gate).1 ls u →
    u.mgr.tasks w.mgr.taskCount ≠ none →
      (∀ caller' node' gate', AgentMgr.next u.mgr (.reqlogin caller' (some p) node' gate') =
        (u.mgr.start, [.ret caller' .refused])) ∧
      ∀ caller' reason, AgentMgr.next u.mgr (.reqkick caller' p reason) =
        (u.mgr.start, [.ret caller' .refused])

variable {w : World Num Node Addr Caller} {p : Num} {r : Ref} {mp : MgrPlayer Num Node Addr}

theorem asked_displacing (hkick : Kickable w.mgr p r mp) (caller : Caller) (node : Node)
    (gate : Addr) :
    w.asked caller p node gate =
      ({ w with
          mgr := w.mgr.start.suspend w.mgr.taskCount
            (.kickOld caller p node gate r mp.node none mp.gate) },
        [.callKick w.mgr.taskCount mp.node none]) := by
  have hrecord : w.mgr.start.record p = some (r, mp) := record_eq_some.mpr hkick.1
  simp only [asked, next, AgentMgr.next, reqlogin, hrecord, hkick.2]

/-- The call to the nil address can only raise, which ends the request and leaves the
records as they were. -/
theorem displacing_faults (hkick : Kickable w.mgr p r mp) (caller : Caller) (node : Node)
    (gate : Addr) :
    Guarded Step Succeeds (w.asked caller p node gate).1
      (.mgr (.answer w.mgr.taskCount .raised), [.ret caller .nothing])
      ({ w with mgr := (w.asked caller p node gate).1.mgr.finish w.mgr.taskCount } :
        World Num Node Addr Caller) := by
  rw [asked_displacing hkick]
  have htask : (w.mgr.start.suspend w.mgr.taskCount
      (.kickOld caller p node gate r mp.node none mp.gate)).tasks w.mgr.taskCount =
        some (.kickOld caller p node gate r mp.node none mp.gate) := by
    simp [State.suspend]
  refine ⟨⟨⟨⟨_, htask, fun _ => rfl⟩, trivial⟩, ?_⟩, ?_⟩
  · simp only [next, AgentMgr.next, answer, htask, fault]
  · intro t ht hreaches
    rw [htask] at ht
    rw [← Option.some.inj ht] at hreaches
    exact absurd rfl hreaches

theorem exit_not_sent (hkick : Kickable w.mgr p r mp) (caller : Caller) (node : Node)
    (gate : Addr) :
    ∃ l v, Guarded Step Succeeds (w.asked caller p node gate).1 l v ∧
      v.mgr.tasks w.mgr.taskCount = none ∧
      ∀ node' agent, Out.sendExit node' agent ∉ (w.asked caller p node gate).2 ++ l.2 := by
  refine ⟨_, _, displacing_faults hkick caller node gate, by simp [State.finish], ?_⟩
  rw [asked_displacing hkick]
  simp

theorem Displaces.sendExit_mem {agent : Addr} {caller : Caller} {node : Node} {gate : Addr}
    (h : Displaces w mp agent caller p node gate) {l : Label Num Node Addr Caller}
    {v : World Num Node Addr Caller}
    (hstep : Guarded Step Succeeds (w.asked caller p node gate).1 l v)
    (hend : v.mgr.tasks w.mgr.taskCount = none) :
    Out.sendExit mp.node (some agent) ∈ (w.asked caller p node gate).2 ++ l.2 := by
  obtain ⟨_, agent', _, _, _, hsub⟩ := h.completes [] _ _ _ Run.nil h.suspends hstep hend
  simpa using hsub.subset (List.mem_cons_of_mem _ List.mem_cons_self)

/-- No second login of a player in the game displaces the first. -/
theorem second_login_never_displaces (hkick : Kickable w.mgr p r mp) (agent : Addr)
    (caller : Caller) (node : Node) (gate : Addr) :
    ¬ Displaces w mp agent caller p node gate := by
  intro h
  obtain ⟨l, v, hstep, hend, hexit⟩ := exit_not_sent hkick caller node gate
  exact hexit _ _ (h.sendExit_mem hstep hend)

/-- A player in the game. -/
def oneLogin : List (Event ℕ ℕ ℕ ℕ) :=
  [.mgr (.reqlogin 0 (some 7) 1 10), .spawn 0 100, .mgr (.answer 0 (.returned (some 100)))]

theorem kickable_oneLogin :
    Kickable (exec next (init : World ℕ ℕ ℕ ℕ) oneLogin).mgr 7 0 ⟨7, 1, some 100, .game, 10⟩ :=
  ⟨⟨by decide, by rfl⟩, rfl⟩

theorem second_login_never_displaces_one_login :
    ¬ Displaces (exec next (init : World ℕ ℕ ℕ ℕ) oneLogin) ⟨7, 1, some 100, .game, 10⟩ 100
      3 7 2 20 :=
  second_login_never_displaces kickable_oneLogin 100 3 2 20

theorem second_login_not_displacing :
    ¬ ∀ (ls : List (Label ℕ ℕ ℕ ℕ)) (w : World ℕ ℕ ℕ ℕ) (p r : ℕ) (mp : MgrPlayer ℕ ℕ ℕ)
        (agent caller node gate : ℕ),
      Run Step init ls w → Kickable w.mgr p r mp → mp.agent = some agent →
        Displaces w mp agent caller p node gate := by
  intro h
  have hdisplaces := h _ _ 7 0 _ 100 3 2 20 (run_exec oneLogin (by decide)) kickable_oneLogin rfl
  obtain ⟨l, v, hstep, hend, hexit⟩ := exit_not_sent kickable_oneLogin 3 2 20
  exact hexit _ _ (hdisplaces.sendExit_mem hstep hend)

end World

end Ue4Background.AgentMgr
