import Mathlib.Data.List.Chain
import Ue4Background.AStar
import Ue4Background.ShortestWalk

/-!
The search finds shortest paths on every map whose handler makes the neighbours of a node
at unit cost and scores them with a consistent estimate. The start has no such score, but
it is alone in the open table when it is taken. The goal is recognised when it is made, and
a vertex is never opened again after it has been closed.
-/

namespace Ue4Background.AStar

open LuaValues ShortestWalk

/-- What a map means: its free locations, their neighbours, their ids and the estimate. -/
structure Terrain (Loc : Type) where
  free : Loc → Prop
  adj : Loc → Loc → Prop
  lid : Loc → ℤ
  estimate : Loc → Loc → ℕ
  adj_free : ∀ u v, adj u v → free u ∧ free v
  lid_injective : ∀ u v, free u → free v → lid u = lid v → u = v
  consistent : ∀ goal, Consistent adj fun v => estimate v goal
  estimate_self : ∀ goal, estimate goal goal = 0
  estimate_pos : ∀ v goal, v ≠ goal → 0 < estimate v goal

variable {Loc : Type} {T : Terrain Loc} {mh : MapHandler Loc} {s goal : Loc}

/-- The node a handler makes for a start. -/
def Terrain.root (T : Terrain Loc) (v : Loc) : Node Loc := ⟨v, 1, T.lid v, 0, none⟩

/-- The node a handler makes for a neighbour of `u`. -/
def Terrain.child (T : Terrain Loc) (u : Node Loc) (goal v : Loc) : Node Loc :=
  ⟨v, 1 + u.mCost, T.lid v, 1 + u.mCost + T.estimate v goal, some u⟩

/-- The handler makes the nodes of the terrain. -/
structure Handles (mh : MapHandler Loc) (T : Terrain Loc) : Prop where
  getNode : ∀ v n, mh.getNode v = some n ↔ T.free v ∧ n = T.root v
  getAdjacentNodes : ∀ u goal n, T.free u.location →
    (n ∈ mh.getAdjacentNodes u goal ↔ ∃ v, T.adj u.location v ∧ n = T.child u goal v)
  locationsAreEqual : ∀ a b, mh.locationsAreEqual a b = true ↔ a = b

/-- The node has been reached from `s` in `c` steps along its parents. -/
inductive Traced (T : Terrain Loc) (s goal : Loc) : ℕ → Node Loc → Prop
  | start (hfree : T.free s) : Traced T s goal 0 (T.root s)
  | step {c : ℕ} {u : Node Loc} {v : Loc} (hu : Traced T s goal c u)
      (hedge : T.adj u.location v) : Traced T s goal (c + 1) (T.child u goal v)

namespace Traced

variable {c : ℕ} {n : Node Loc}

theorem mCost (h : Traced T s goal c n) : n.mCost = c + 1 := by
  induction h with
  | start => rfl
  | step _ _ ih =>
    simp only [Terrain.child, ih]
    push_cast
    omega

theorem lid (h : Traced T s goal c n) : n.lid = T.lid n.location := by
  cases h <;> rfl

theorem free (h : Traced T s goal c n) : T.free n.location := by
  cases h with
  | start hfree => exact hfree
  | step _ hedge => exact (T.adj_free _ _ hedge).2

theorem walk (h : Traced T s goal c n) : Walk T.adj s c n.location := by
  induction h with
  | start => exact Walk.nil
  | step _ hedge ih => exact ih.snoc hedge

theorem score (h : Traced T s goal (c + 1) n) :
    n.score = n.mCost + T.estimate n.location goal := by
  cases h
  rfl

end Traced

theorem traceLoop_append (n : Node Loc) (nodes : List (Node Loc)) :
    traceLoop n nodes = traceLoop n [] ++ nodes := by
  match n with
  | ⟨_, _, _, _, none⟩ => rfl
  | ⟨location, mCost, lid, score, some p⟩ =>
    simp only [traceLoop]
    rw [traceLoop_append p, traceLoop_append p [_], List.append_assoc, List.singleton_append]

/-- The trace of a node leads from the start to it. -/
theorem Traced.trace {c : ℕ} {n : Node Loc} (h : Traced T s goal c n) :
    (traceLoop n []).length = c ∧
      List.IsChain T.adj (s :: (traceLoop n []).map Node.location) ∧
      (s :: (traceLoop n []).map Node.location).getLast? = some n.location := by
  induction h with
  | start => exact ⟨rfl, List.isChain_singleton s, rfl⟩
  | step hu hedge ih =>
    rename_i c u v
    obtain ⟨hlength, hchain, hlast⟩ := ih
    have htrace : traceLoop (T.child u goal v) [] = traceLoop u [] ++ [T.child u goal v] := by
      simp only [Terrain.child, traceLoop]
      exact traceLoop_append u _
    rw [htrace, List.map_append, ← List.cons_append]
    refine ⟨by simp [hlength], ?_, List.getLast?_concat⟩
    refine List.isChain_append.mpr ⟨hchain, List.isChain_singleton _, ?_⟩
    intro x hx y hy
    rw [hlast, Option.mem_some_iff] at hx
    have hv : y = v := by simpa [Terrain.child, eq_comm] using hy
    rw [← hx, hv]
    exact hedge

theorem Traced.path_eq {c : ℕ} {n : Node Loc} (h : Traced T s goal (c + 1) n) :
    tracePath n = .found ⟨traceLoop n [], n.mCost⟩ := by
  cases h
  rfl

/-- A path from `s` to `goal` over neighbours that no walk undercuts. -/
structure Shortest (T : Terrain Loc) (s goal : Loc) (path : Path Loc) : Prop where
  chain : List.IsChain T.adj (s :: path.nodes.map Node.location)
  last : (path.nodes.map Node.location).getLast? = some goal
  shortest : ∀ n, Walk T.adj s n goal → path.nodes.length ≤ n
  cost : path.totalCost = path.nodes.length + 1

theorem Traced.shortest {c : ℕ} {n : Node Loc} {path : Path Loc}
    (h : Traced T s goal (c + 1) n) (hgoal : n.location = goal)
    (hbest : ∀ k, Walk T.adj s k goal → c + 1 ≤ k) (hpath : tracePath n = .found path) :
    Shortest T s goal path := by
  rw [h.path_eq, Outcome.found.injEq] at hpath
  obtain ⟨hlength, hchain, hlast⟩ := h.trace
  subst hpath
  refine ⟨hchain, ?_, fun k hk => ?_, ?_⟩
  · cases hlocs : (traceLoop n []).map Node.location with
    | nil =>
      have hzero := congrArg List.length hlocs
      rw [List.length_map, hlength] at hzero
      cases hzero
    | cons v rest =>
      rw [hlocs, List.getLast?_cons_cons] at hlast
      rw [← hgoal]
      exact hlast
  · rw [hlength]
    exact hbest k hk
  · rw [hlength]
    exact h.mCost

/-- A location is closed. -/
def Closed (T : Terrain Loc) (st : Search Loc) (v : Loc) : Prop :=
  T.free v ∧ (st.closed.lookup (T.lid v)).isSome = true

/-- A location is open with a node of `c` steps. -/
def Opened (T : Terrain Loc) (st : Search Loc) (v : Loc) (c : ℕ) : Prop :=
  ∃ n, st.opened.lookup (T.lid v) = some n ∧ n.location = v ∧ n.mCost = c + 1

/-- The search while it goes through the neighbours of `u`, of which `rest` are left. -/
structure Explored (T : Terrain Loc) (s goal : Loc) (st : Search Loc) (u : Node Loc)
    (rest : List (Node Loc)) : Prop where
  opened : ∀ k n, st.opened.lookup k = some n → n.lid = k ∧ n.location ≠ goal ∧
    st.closed.lookup k = none ∧ ∃ c, Traced T s goal (c + 1) n
  start : Closed T st s
  goal : ¬ Closed T st goal
  next : ∀ n x y, Closed T st x → Walk T.adj s n x → T.adj x y →
    Closed T st y ∨ (∃ d ≤ n + 1, Opened T st y d) ∨
      (x = u.location ∧ ∃ m ∈ rest, m.location = y)

/-- A node that may be taken next: it is a shortest one, and the goal is farther. -/
structure Ready (T : Terrain Loc) (s goal : Loc) (st : Search Loc) (u : Node Loc) (c : ℕ) :
    Prop where
  traced : Traced T s goal c u
  shortest : ∀ n, Walk T.adj s n u.location → c ≤ n
  farther : ∀ n, Walk T.adj s n goal → c + 1 ≤ n
  closing : ∀ rest, (∀ y, T.adj u.location y → ∃ m ∈ rest, m.location = y) →
    Explored T s goal (st.close u) u rest

theorem mem_openNodes {st : Search Loc} {n : Node Loc} :
    n ∈ openNodes st ↔ ∃ k, st.opened.lookup k = some n := by
  constructor
  · intro h
    obtain ⟨entry, hentry, rfl⟩ := List.mem_map.mp h
    exact ⟨entry.1, AList.mem_lookup_iff.mpr hentry⟩
  · rintro ⟨k, hk⟩
    exact List.mem_map.mpr ⟨⟨k, n⟩, AList.mem_lookup_iff.mp hk, rfl⟩

theorem foldl_better {nodes : List (Node Loc)} {b u : Node Loc}
    (h : nodes.foldl better (some b) = some u) :
    u ∈ b :: nodes ∧ ∀ n ∈ b :: nodes, u.score ≤ n.score := by
  induction nodes generalizing b with
  | nil =>
    rw [← Option.some.inj h]
    simp
  | cons m rest ih =>
    simp only [List.foldl_cons, better] at h
    split at h
    · rename_i hle
      obtain ⟨hmem, hmin⟩ := ih h
      refine ⟨List.mem_cons_of_mem _ hmem, fun n hn => ?_⟩
      rcases List.mem_cons.mp hn with rfl | hn
      · exact Int.le_trans (hmin m List.mem_cons_self) hle
      · exact hmin n hn
    · rename_i hlt
      obtain ⟨hmem, hmin⟩ := ih h
      refine ⟨?_, fun n hn => ?_⟩
      · rcases List.mem_cons.mp hmem with rfl | hrest
        · exact List.mem_cons_self
        · exact List.mem_cons_of_mem _ (List.mem_cons_of_mem _ hrest)
      · have hb := hmin b List.mem_cons_self
        rcases List.mem_cons.mp hn with heq | hn
        · rw [heq]
          exact hb
        · rcases List.mem_cons.mp hn with heq | hn
          · rw [heq]
            omega
          · exact hmin n (List.mem_cons_of_mem _ hn)

/-- The best node is one of the given, and none of them has a smaller score. -/
theorem getBestOpenNode_eq_some {nodes : List (Node Loc)} {u : Node Loc}
    (h : getBestOpenNode nodes = some u) : u ∈ nodes ∧ ∀ n ∈ nodes, u.score ≤ n.score := by
  cases nodes with
  | nil => cases h
  | cons m rest => exact foldl_better h

theorem opened_free {st : Search Loc} {k : ℤ} {n : Node Loc} {u : Node Loc}
    {rest : List (Node Loc)} (h : Explored T s goal st u rest)
    (hk : st.opened.lookup k = some n) : T.free n.location ∧ T.lid n.location = k := by
  obtain ⟨hlid, _, _, c, htraced⟩ := h.opened k n hk
  exact ⟨htraced.free, htraced.lid.symm.trans hlid⟩

namespace Explored

variable {st : Search Loc} {u m : Node Loc} {rest : List (Node Loc)} {c : ℕ}

/-- A neighbour is done with when it is closed or open at no more than its own cost. -/
theorem drop (h : Explored T s goal st u (m :: rest))
    (hbest : ∀ n, Walk T.adj s n u.location → c ≤ n)
    (hm : Closed T st m.location ∨ ∃ d ≤ c + 1, Opened T st m.location d) :
    Explored T s goal st u rest := by
  refine ⟨h.opened, h.start, h.goal, ?_⟩
  intro n x y hx hwalk hedge
  rcases h.next n x y hx hwalk hedge with hclosed | hopen | ⟨rfl, m', hm', rfl⟩
  · exact Or.inl hclosed
  · exact Or.inr (Or.inl hopen)
  · rcases List.mem_cons.mp hm' with rfl | hrest
    · rcases hm with hclosed | ⟨d, hd, hopen⟩
      · exact Or.inl hclosed
      · have hn := hbest n hwalk
        exact Or.inr (Or.inl ⟨d, by omega, hopen⟩)
    · exact Or.inr (Or.inr ⟨rfl, m', hrest, rfl⟩)

/-- A neighbour is opened, in place of a node that costs more if there is one. -/
theorem open_neighbour (h : Explored T s goal st u (m :: rest)) (opened : Table ℤ (Node Loc))
    (hm : Traced T s goal (c + 1) m) (hgoal : m.location ≠ goal)
    (hclosed : st.closed.lookup m.lid = none)
    (hworse : ∀ on, st.opened.lookup m.lid = some on → m.mCost < on.mCost)
    (hself : opened.lookup m.lid = some m)
    (hother : ∀ k, k ≠ m.lid → opened.lookup k = st.opened.lookup k) :
    Explored T s goal { st with opened := opened } u (m :: rest) ∧
      Opened T { st with opened := opened } m.location (c + 1) := by
  have hnew : Opened T { st with opened := opened } m.location (c + 1) := by
    refine ⟨m, ?_, rfl, hm.mCost⟩
    rw [← hm.lid]
    exact hself
  refine ⟨⟨?_, h.start, h.goal, ?_⟩, hnew⟩
  · intro k n hk
    by_cases hkm : k = m.lid
    · subst hkm
      dsimp only at hk
      rw [hself] at hk
      rw [← Option.some.inj hk]
      exact ⟨rfl, hgoal, hclosed, c, hm⟩
    · dsimp only at hk
      rw [hother k hkm] at hk
      exact h.opened k n hk
  · intro n x y hx hwalk hedge
    rcases h.next n x y hx hwalk hedge with hy | ⟨d, hd, on, hon, hloc, hcost⟩ | hrest
    · exact Or.inl hy
    · right
      left
      by_cases hkm : T.lid y = m.lid
      · -- the node of `y` was the one in the place of `m`
        have hy : y = m.location := by
          refine T.lid_injective y m.location ?_ hm.free (hkm.trans hm.lid)
          rw [← hloc]
          exact (opened_free h hon).1
        rw [hkm] at hon
        have hless := hworse on hon
        rw [hcost, hm.mCost] at hless
        push_cast at hless
        subst hy
        exact ⟨c + 1, by omega, hnew⟩
      · exact ⟨d, hd, on, (hother _ hkm).trans hon, hloc, hcost⟩
    · exact Or.inr (Or.inr hrest)

theorem handleNodes (hmh : Handles mh T) (hu : Traced T s goal c u)
    (hbest : ∀ n, Walk T.adj s n u.location → c ≤ n)
    (hrest : ∀ m ∈ rest, ∃ v, T.adj u.location v ∧ m = T.child u goal v)
    (h : Explored T s goal st u rest) :
    (∃ st', AStar.handleNodes mh goal st rest = (st', none) ∧ Explored T s goal st' u []) ∨
      ∃ st' m, AStar.handleNodes mh goal st rest = (st', some m) ∧ m.location = goal ∧
        Traced T s goal (c + 1) m := by
  induction rest generalizing st with
  | nil => exact Or.inl ⟨st, rfl, h⟩
  | cons m rest ih =>
    obtain ⟨v, hedge, hm⟩ := hrest m List.mem_cons_self
    have htraced : Traced T s goal (c + 1) m := by
      rw [hm]
      exact Traced.step hu hedge
    have hrest' : ∀ n ∈ rest, ∃ v, T.adj u.location v ∧ n = T.child u goal v :=
      fun n hn => hrest n (List.mem_cons_of_mem _ hn)
    by_cases hgoal : m.location = goal
    · right
      refine ⟨st, m, ?_, hgoal, htraced⟩
      rw [AStar.handleNodes, if_pos ((hmh.locationsAreEqual _ _).mpr hgoal)]
    · rw [AStar.handleNodes, if_neg (mt (hmh.locationsAreEqual _ _).mp hgoal)]
      cases hclosed : st.closed.lookup m.lid with
      | some k =>
        rw [if_pos (by simp)]
        refine ih hrest' (h.drop hbest (Or.inl ⟨htraced.free, ?_⟩))
        rw [← htraced.lid, hclosed]
        rfl
      | none =>
        rw [if_neg (by simp)]
        cases hopen : st.opened.lookup m.lid with
        | none =>
          have hnew := h.open_neighbour (st.opened.insert m.lid m) htraced hgoal hclosed
            (by simp [hopen]) (AList.lookup_insert _) fun k hk => AList.lookup_insert_ne hk
          exact ih hrest' (hnew.1.drop hbest (Or.inr ⟨c + 1, Nat.le_refl _, hnew.2⟩))
        | some on =>
          dsimp only
          by_cases hless : m.mCost < on.mCost
          · rw [if_pos hless]
            have hnew := h.open_neighbour ((st.opened.erase m.lid).insert m.lid m) htraced hgoal
              hclosed (fun on' hon' => by rwa [← Option.some.inj (hopen.symm.trans hon')])
              (AList.lookup_insert _)
              fun k hk => (AList.lookup_insert_ne hk).trans (AList.lookup_erase_ne hk)
            exact ih hrest' (hnew.1.drop hbest (Or.inr ⟨c + 1, Nat.le_refl _, hnew.2⟩))
          · rw [if_neg hless]
            obtain ⟨hlid, _, _, d, hon⟩ := h.opened _ on hopen
            have hloc : on.location = m.location := by
              refine T.lid_injective _ _ hon.free htraced.free ?_
              rw [← hon.lid, hlid, htraced.lid]
            rw [htraced.mCost, hon.mCost] at hless
            push_cast at hless
            refine ih hrest' (h.drop hbest (Or.inr ⟨d + 1, by omega, on, ?_, hloc, hon.mCost⟩))
            rw [← htraced.lid]
            exact hopen

end Explored

/-- Taking a ready node either makes the goal from it or explores all its neighbours. -/
theorem Ready.handleNode (hmh : Handles mh T) {st : Search Loc} {u : Node Loc} {c : ℕ}
    (h : Ready T s goal st u c) {pairs : List (Node Loc) → List (Node Loc)}
    (hpairs : ∀ nodes, (pairs nodes).Perm nodes) :
    (∃ st', AStar.handleNode mh pairs st u goal = (st', none) ∧ Explored T s goal st' u []) ∨
      ∃ st' m, AStar.handleNode mh pairs st u goal = (st', some m) ∧ m.location = goal ∧
        Traced T s goal (c + 1) m := by
  have hnodes := hmh.getAdjacentNodes u goal
  refine Explored.handleNodes hmh h.traced h.shortest ?_ (h.closing _ ?_)
  · intro m hm
    exact (hnodes m h.traced.free).mp ((hpairs _).mem_iff.mp hm)
  · intro y hy
    refine ⟨T.child u goal y, (hpairs _).mem_iff.mpr ?_, rfl⟩
    exact (hnodes _ h.traced.free).mpr ⟨y, hy, rfl⟩

theorem lookup_singleton {V : Type} (a k : ℤ) (b : V) :
    (AList.singleton a b : Table ℤ V).lookup k = if k = a then some b else none := by
  rw [← AList.insert_empty]
  split
  · rename_i hk
    rw [hk, AList.lookup_insert]
  · rename_i hk
    rw [AList.lookup_insert_ne hk, AList.lookup_empty]

/-- The start is ready, for it is the only node. -/
theorem ready_root (hfree : T.free s) (hne : s ≠ goal) :
    Ready T s goal ⟨AList.singleton (T.lid s) (T.root s), ∅⟩ (T.root s) 0 := by
  have hlookup : ∀ k, ((Search.close ⟨AList.singleton (T.lid s) (T.root s), ∅⟩
      (T.root s)).closed.lookup k).isSome = true ↔ k = T.lid s := by
    intro k
    simp [Search.close, Terrain.root, lookup_singleton]
  have hclosed : ∀ v, Closed T (Search.close ⟨AList.singleton (T.lid s) (T.root s), ∅⟩ (T.root s))
      v ↔ v = s := by
    intro v
    constructor
    · rintro ⟨hv, hk⟩
      exact T.lid_injective v s hv hfree ((hlookup _).mp hk)
    · rintro rfl
      exact ⟨hfree, (hlookup _).mpr rfl⟩
  refine ⟨Traced.start hfree, fun n _ => Nat.zero_le n, ?_, fun rest hrest => ?_⟩
  · intro n hwalk
    cases n with
    | zero => exact absurd hwalk.eq_of_zero hne
    | succ n => omega
  · refine ⟨?_, (hclosed s).mpr rfl, fun h => hne ((hclosed goal).mp h).symm, ?_⟩
    · intro k n hk
      by_cases hlid : k = T.lid s
      · subst hlid
        simp [Search.close, Terrain.root] at hk
      · simp [Search.close, Terrain.root, AList.lookup_erase_ne hlid, lookup_singleton,
          hlid] at hk
    · intro n x y hx _ hedge
      have hxs := (hclosed x).mp hx
      subst hxs
      exact Or.inr (Or.inr ⟨rfl, hrest y hedge⟩)

/-- The next node to be explored is closed. -/
theorem Explored.close {st : Search Loc} {u u' : Node Loc} {rest : List (Node Loc)}
    (h : Explored T s goal st u []) (hopen : st.opened.lookup u'.lid = some u')
    (hrest : ∀ y, T.adj u'.location y → ∃ m ∈ rest, m.location = y) :
    Explored T s goal (st.close u') u' rest := by
  obtain ⟨hfree, hlid⟩ := opened_free h hopen
  have hself : ((st.close u').closed.lookup u'.lid).isSome = true := by simp [Search.close]
  have hclosed : ∀ v, Closed T (st.close u') v ↔ Closed T st v ∨ v = u'.location := by
    intro v
    by_cases hv : T.lid v = u'.lid
    · constructor
      · rintro ⟨hvfree, _⟩
        exact Or.inr (T.lid_injective v _ hvfree hfree (hv.trans hlid.symm))
      · rintro (⟨hvfree, _⟩ | rfl)
        · exact ⟨hvfree, by rw [hv]; exact hself⟩
        · exact ⟨hfree, by rw [hv]; exact hself⟩
    · have hne : v ≠ u'.location := by
        rintro rfl
        exact hv hlid
      simp only [Closed, Search.close, AList.lookup_insert_ne hv, hne, or_false]
  refine ⟨?_, (hclosed s).mpr (Or.inl h.start), ?_, ?_⟩
  · intro k n hk
    by_cases hku : k = u'.lid
    · subst hku
      simp [Search.close] at hk
    · simp only [Search.close, AList.lookup_erase_ne hku, AList.lookup_insert_ne hku] at hk ⊢
      exact h.opened k n hk
  · intro hgoal
    rcases (hclosed goal).mp hgoal with hold | heq
    · exact h.goal hold
    · exact (h.opened _ u' hopen).2.1 heq.symm
  · intro n x y hx hwalk hedge
    rcases (hclosed x).mp hx with hold | rfl
    · rcases h.next n x y hold hwalk hedge with hy | ⟨d, hd, on, hon, hloc, hcost⟩ | ⟨_, m, hm, _⟩
      · exact Or.inl ((hclosed y).mpr (Or.inl hy))
      · by_cases hyu : T.lid y = u'.lid
        · have hon' : on = u' := by
            rw [hyu, hopen] at hon
            exact (Option.some.inj hon).symm
          subst hon'
          exact Or.inl ((hclosed y).mpr (Or.inr hloc.symm))
        · refine Or.inr (Or.inl ⟨d, hd, on, ?_, hloc, hcost⟩)
          rw [← hon]
          exact AList.lookup_erase_ne hyu
      · cases hm
    · exact Or.inr (Or.inr ⟨rfl, hrest y hedge⟩)

/-- After a node has been explored the best open node is ready. -/
theorem Explored.ready {st : Search Loc} {u u' : Node Loc} (h : Explored T s goal st u [])
    {pairs : List (Node Loc) → List (Node Loc)} (hpairs : ∀ nodes, (pairs nodes).Perm nodes)
    (hbest : getBestOpenNode (pairs (openNodes st)) = some u') :
    ∃ c, Ready T s goal st u' c := by
  obtain ⟨hmem, hmin⟩ := getBestOpenNode_eq_some hbest
  obtain ⟨k, hk⟩ := mem_openNodes.mp ((hpairs _).mem_iff.mp hmem)
  obtain ⟨hlid, hgoal, hclosed, c, htraced⟩ := h.opened k u' hk
  have hfrontier : Frontier T.adj s (Closed T st) (Opened T st) := by
    refine ⟨h.start, fun n x y hx hwalk hedge => ?_⟩
    rcases h.next n x y hx hwalk hedge with hy | hopen | ⟨_, m, hm, _⟩
    · exact Or.inl hy
    · exact Or.inr hopen
    · cases hm
  have hleast : ∀ y d, Opened T st y d →
      c + 1 + T.estimate u'.location goal ≤ d + T.estimate y goal := by
    rintro y d ⟨n, hn, rfl, hcost⟩
    have hscore := hmin n ((hpairs _).mem_iff.mpr (mem_openNodes.mpr ⟨_, hn⟩))
    obtain ⟨_, _, _, e, hntraced⟩ := h.opened _ n hn
    rw [htraced.score, hntraced.score, htraced.mCost, hcost] at hscore
    push_cast at hscore
    omega
  have hbound : ∀ {n t}, Walk T.adj s n t → ¬ Closed T st t →
      c + 1 + T.estimate u'.location goal ≤ n + T.estimate t goal :=
    fun hwalk ht => hfrontier.lower_bound (T.consistent goal) hleast hwalk ht
  have hopen : ¬ Closed T st u'.location := by
    rintro ⟨_, hsome⟩
    rw [← htraced.lid, hlid, hclosed] at hsome
    cases hsome
  refine ⟨c + 1, htraced, fun n hwalk => ?_, fun n hwalk => ?_, fun rest hrest => ?_⟩
  · exact Nat.add_le_add_iff_right.mp (hbound hwalk hopen)
  · have hgoal' := hbound hwalk h.goal
    have hpos := T.estimate_pos u'.location goal hgoal
    rw [T.estimate_self] at hgoal'
    omega
  · exact h.close (by rw [hlid]; exact hk) hrest

theorem findLoop_found (hmh : Handles mh T) (pairs : Pairs ℕ (Node Loc)) {fuel k : ℕ}
    {st : Search Loc} {u : Node Loc} {c : ℕ} {path : Path Loc} (h : Ready T s goal st u c)
    (hpath : findLoop mh pairs goal fuel k st u = .found path) : Shortest T s goal path := by
  induction fuel generalizing k st u c with
  | zero => cases hpath
  | succ fuel ih =>
    rw [findLoop] at hpath
    rcases h.handleNode hmh (pairs.perm (2 * k)) with
      ⟨st', heq, hexplored⟩ | ⟨st', m, heq, hgoal, htraced⟩
    · rw [heq] at hpath
      dsimp only at hpath
      cases hbest : getBestOpenNode (pairs.order (2 * k + 1) (openNodes st')) with
      | none =>
        rw [hbest] at hpath
        cases hpath
      | some u' =>
        rw [hbest] at hpath
        obtain ⟨c', hready⟩ := hexplored.ready (pairs.perm (2 * k + 1)) hbest
        exact ih hready hpath
    · rw [heq] at hpath
      exact htraced.shortest hgoal h.farther hpath

/-- Every path that the search returns is a shortest one. -/
theorem findPath_found (hmh : Handles mh T) (pairs : Pairs ℕ (Node Loc)) {fuel : ℕ}
    {path : Path Loc} (hne : s ≠ goal) (hpath : findPath mh pairs fuel s goal = .found path) :
    Shortest T s goal path := by
  unfold findPath at hpath
  cases hnode : mh.getNode s with
  | none =>
    rw [hnode] at hpath
    cases hpath
  | some fnode =>
    obtain ⟨hfree, hroot⟩ := (hmh.getNode s fnode).mp hnode
    subst hroot
    rw [hnode] at hpath
    exact findLoop_found hmh pairs (ready_root hfree hne) hpath

/-- Every open node has been reached from `s`. -/
def OpenTraced (T : Terrain Loc) (s goal : Loc) (st : Search Loc) : Prop :=
  ∀ k n, st.opened.lookup k = some n → ∃ c, Traced T s goal c n

theorem OpenTraced.insert {st : Search Loc} (h : OpenTraced T s goal st) {n : Node Loc} {c : ℕ}
    (hn : Traced T s goal c n) {opened : Table ℤ (Node Loc)} {lid : ℤ}
    (hself : opened.lookup lid = some n)
    (hother : ∀ k, k ≠ lid → opened.lookup k = st.opened.lookup k) :
    OpenTraced T s goal { st with opened := opened } := by
  intro k m hm
  by_cases hk : k = lid
  · subst hk
    rw [hself, Option.some.injEq] at hm
    rw [← hm]
    exact ⟨c, hn⟩
  · dsimp only at hm
    rw [hother k hk] at hm
    exact h k m hm

theorem OpenTraced.close {st : Search Loc} (h : OpenTraced T s goal st) (node : Node Loc) :
    OpenTraced T s goal (st.close node) := by
  intro k m hm
  by_cases hk : k = node.lid
  · subst hk
    simp [Search.close] at hm
  · simp only [Search.close, AList.lookup_erase_ne hk] at hm
    exact h k m hm

variable (mh) in
theorem OpenTraced.handleNodes {st : Search Loc} {u : Node Loc} {c : ℕ} {nodes : List (Node Loc)}
    (h : OpenTraced T s goal st) (hu : Traced T s goal c u)
    (hnodes : ∀ m ∈ nodes, ∃ v, T.adj u.location v ∧ m = T.child u goal v) :
    OpenTraced T s goal (AStar.handleNodes mh goal st nodes).1 ∧
      ∀ m, (AStar.handleNodes mh goal st nodes).2 = some m → Traced T s goal (c + 1) m := by
  induction nodes generalizing st with
  | nil => exact ⟨h, fun m hm => by cases hm⟩
  | cons n rest ih =>
    obtain ⟨v, hedge, hn⟩ := hnodes n List.mem_cons_self
    have htraced : Traced T s goal (c + 1) n := by
      rw [hn]
      exact Traced.step hu hedge
    have hrest : ∀ m ∈ rest, ∃ v, T.adj u.location v ∧ m = T.child u goal v :=
      fun m hm => hnodes m (List.mem_cons_of_mem _ hm)
    rw [AStar.handleNodes]
    split
    · refine ⟨h, fun m hm => ?_⟩
      rw [← Option.some.inj hm]
      exact htraced
    · split
      · exact ih h hrest
      · split
        · split
          · exact ih (h.insert htraced (AList.lookup_insert _) fun k hk =>
              (AList.lookup_insert_ne hk).trans (AList.lookup_erase_ne hk)) hrest
          · exact ih h hrest
        · exact ih (h.insert htraced (AList.lookup_insert _) fun k hk =>
            AList.lookup_insert_ne hk) hrest

theorem findLoop_chain (hmh : Handles mh T) (pairs : Pairs ℕ (Node Loc)) {fuel k : ℕ}
    {st : Search Loc} {u : Node Loc} {c : ℕ} {path : Path Loc} (h : OpenTraced T s goal st)
    (hu : Traced T s goal c u) (hpath : findLoop mh pairs goal fuel k st u = .found path) :
    List.IsChain T.adj (s :: path.nodes.map Node.location) := by
  induction fuel generalizing k st u c with
  | zero => cases hpath
  | succ fuel ih =>
    have hnodes : ∀ m ∈ pairs.order (2 * k) (mh.getAdjacentNodes u goal),
        ∃ v, T.adj u.location v ∧ m = T.child u goal v := by
      intro m hm
      exact (hmh.getAdjacentNodes u goal m hu.free).mp ((pairs.perm _ _).mem_iff.mp hm)
    obtain ⟨hopen, hfinish⟩ := (h.close u).handleNodes mh hu hnodes
    rw [findLoop] at hpath
    unfold handleNode at hpath
    cases hturn : AStar.handleNodes mh goal (st.close u)
        (pairs.order (2 * k) (mh.getAdjacentNodes u goal)) with
    | mk st' finish =>
      rw [hturn] at hopen hfinish hpath
      cases finish with
      | some m =>
        have hm := hfinish m rfl
        dsimp only at hpath
        rw [hm.path_eq, Outcome.found.injEq] at hpath
        rw [← hpath]
        exact hm.trace.2.1
      | none =>
        dsimp only at hpath
        cases hbest : getBestOpenNode (pairs.order (2 * k + 1) (openNodes st')) with
        | none =>
          rw [hbest] at hpath
          cases hpath
        | some u' =>
          rw [hbest] at hpath
          obtain ⟨hmem, _⟩ := getBestOpenNode_eq_some hbest
          obtain ⟨lid, hlid⟩ := mem_openNodes.mp ((pairs.perm _ _).mem_iff.mp hmem)
          obtain ⟨c', hu'⟩ := hopen lid u' hlid
          exact ih hopen hu' hpath

/-- Every path that the search returns leads over neighbours, also one from `goal` to itself. -/
theorem findPath_chain (hmh : Handles mh T) (pairs : Pairs ℕ (Node Loc)) {fuel : ℕ}
    {path : Path Loc} (hpath : findPath mh pairs fuel s goal = .found path) :
    List.IsChain T.adj (s :: path.nodes.map Node.location) := by
  unfold findPath at hpath
  cases hnode : mh.getNode s with
  | none =>
    rw [hnode] at hpath
    cases hpath
  | some fnode =>
    obtain ⟨hfree, rfl⟩ := (hmh.getNode s fnode).mp hnode
    rw [hnode] at hpath
    refine findLoop_chain hmh pairs ?_ (Traced.start hfree) hpath
    intro k n hn
    rw [lookup_singleton] at hn
    split at hn
    · rw [← Option.some.inj hn]
      exact ⟨0, Traced.start hfree⟩
    · cases hn

end Ue4Background.AStar
