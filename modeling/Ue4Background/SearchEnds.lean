import Mathlib.Data.Finset.Card
import Ue4Background.BestFirst

/-!
The search ends. Each turn of the main loop closes a location that has not been closed
before, so there are no more turns than free locations. When no node is open, every
location that a walk reaches is closed, and the goal is not.
-/

namespace Ue4Background.AStar

open LuaValues ShortestWalk

variable {Loc : Type} {T : Terrain Loc} {mh : MapHandler Loc} {s goal : Loc}

/-- The calls of `_handleNode` in a run of the main loop: the tables before it and its node. -/
def expansions (mh : MapHandler Loc) (pairs : Pairs ℕ (Node Loc)) (goal : Loc) :
    ℕ → ℕ → Search Loc → Node Loc → List (Search Loc × Node Loc)
  | 0, _, _, _ => []
  | fuel + 1, k, st, nextNode =>
    (st, nextNode) ::
      match handleNode mh (pairs.order (2 * k)) st nextNode goal with
      | (_, some _) => []
      | (st', none) =>
        match getBestOpenNode (pairs.order (2 * k + 1) (openNodes st')) with
        | none => []
        | some n => expansions mh pairs goal fuel (k + 1) st' n

/-- The calls of `_handleNode` in a run of `findPath`. -/
def calls (mh : MapHandler Loc) (pairs : Pairs ℕ (Node Loc)) (fuel : ℕ)
    (fromlocation tolocation : Loc) : List (Search Loc × Node Loc) :=
  match mh.getNode fromlocation with
  | none => []
  | some fnode =>
    expansions mh pairs tolocation fuel 0 ⟨AList.singleton fnode.lid fnode, ∅⟩ fnode

/-- No location id is in the open and in the closed table. -/
def Apart (st : Search Loc) : Prop :=
  ∀ k, (st.opened.lookup k).isSome = true → st.closed.lookup k = none

theorem Apart.close {st : Search Loc} (h : Apart st) (node : Node Loc) : Apart (st.close node) := by
  intro k hk
  by_cases hlid : k = node.lid
  · subst hlid
    simp [Search.close] at hk
  · simp only [Search.close, AList.lookup_erase_ne hlid, AList.lookup_insert_ne hlid] at hk ⊢
    exact h k hk

theorem Apart.insert {st : Search Loc} (h : Apart st) {n : Node Loc} {opened : Table ℤ (Node Loc)}
    (hclosed : st.closed.lookup n.lid = none)
    (hother : ∀ k, k ≠ n.lid → opened.lookup k = st.opened.lookup k) :
    Apart { st with opened := opened } := by
  intro k hk
  by_cases hlid : k = n.lid
  · rw [hlid]
    exact hclosed
  · dsimp only at hk
    rw [hother k hlid] at hk
    exact h k hk

/-- The loop over the neighbours opens no closed location and closes none. -/
theorem handleNodes_apart {st : Search Loc} (h : Apart st) (nodes : List (Node Loc)) :
    Apart (handleNodes mh goal st nodes).1 ∧
      (handleNodes mh goal st nodes).1.closed = st.closed := by
  induction nodes generalizing st with
  | nil => exact ⟨h, rfl⟩
  | cons n rest ih =>
    rw [handleNodes]
    split
    · exact ⟨h, rfl⟩
    · cases hclosed : st.closed.lookup n.lid with
      | some k =>
        rw [if_pos (by simp)]
        exact ih h
      | none =>
        rw [if_neg (by simp)]
        cases st.opened.lookup n.lid with
        | none => exact ih (h.insert hclosed fun k hk => AList.lookup_insert_ne hk)
        | some on =>
          dsimp only
          split
          · exact ih (h.insert hclosed fun k hk =>
              (AList.lookup_insert_ne hk).trans (AList.lookup_erase_ne hk))
          · exact ih h

/-- What a call of `_handleNode` in a run finds. -/
structure Fresh (T : Terrain Loc) (closed : Table ℤ ℤ) (call : Search Loc × Node Loc) : Prop where
  apart : Apart call.1
  free : T.free call.2.location
  lid : call.2.lid = T.lid call.2.location
  unclosed : closed.lookup call.2.lid = none

theorem Fresh.mono {closed : Table ℤ ℤ} {call : Search Loc × Node Loc} {k v : ℤ}
    (h : Fresh T (closed.insert k v) call) : Fresh T closed call ∧ call.2.lid ≠ k := by
  have hne : call.2.lid ≠ k := by
    intro hk
    have hunclosed := h.unclosed
    rw [hk, AList.lookup_insert] at hunclosed
    cases hunclosed
  refine ⟨⟨h.apart, h.free, h.lid, ?_⟩, hne⟩
  rw [← AList.lookup_insert_ne hne]
  exact h.unclosed

theorem Explored.apart {st : Search Loc} {u : Node Loc} {rest : List (Node Loc)}
    (h : Explored T s goal st u rest) : Apart st := by
  intro k hk
  obtain ⟨n, hn⟩ := Option.isSome_iff_exists.mp hk
  exact (h.opened k n hn).2.2.1

/-- The best open node has not been closed. -/
theorem Explored.unclosed {st : Search Loc} {u u' : Node Loc} {rest : List (Node Loc)}
    (h : Explored T s goal st u rest) {pairs : List (Node Loc) → List (Node Loc)}
    (hpairs : ∀ nodes, (pairs nodes).Perm nodes)
    (hbest : getBestOpenNode (pairs (openNodes st)) = some u') :
    st.closed.lookup u'.lid = none := by
  obtain ⟨hmem, _⟩ := getBestOpenNode_eq_some hbest
  obtain ⟨k, hk⟩ := mem_openNodes.mp ((hpairs _).mem_iff.mp hmem)
  obtain ⟨hlid, _, hclosed, _⟩ := h.opened k u' hk
  rwa [hlid]

/-- With nothing open, no walk leads to the goal. -/
theorem Explored.unreachable {st : Search Loc} {u : Node Loc} (h : Explored T s goal st u [])
    {pairs : List (Node Loc) → List (Node Loc)} (hpairs : ∀ nodes, (pairs nodes).Perm nodes)
    (hbest : getBestOpenNode (pairs (openNodes st)) = none) (n : ℕ) : ¬ Walk T.adj s n goal := by
  intro hwalk
  have hnone : ∀ v d, ¬ Opened T st v d := by
    rintro v d ⟨m, hm, _⟩
    have hmem := (hpairs _).mem_iff.mpr (mem_openNodes.mpr ⟨_, hm⟩)
    cases hnodes : pairs (openNodes st) with
    | nil =>
      rw [hnodes] at hmem
      cases hmem
    | cons b rest =>
      rw [hnodes] at hbest
      have hsome : ∀ (nodes : List (Node Loc)) (b : Node Loc),
          nodes.foldl better (some b) ≠ none := by
        intro nodes
        induction nodes with
        | nil => simp
        | cons n nodes ih =>
          intro b
          simp only [List.foldl_cons, better]
          split <;> exact ih _
      exact hsome rest b hbest
  have hfrontier : Frontier T.adj s (Closed T st) (Opened T st) := by
    refine ⟨h.start, fun n x y hx hwalk hedge => ?_⟩
    rcases h.next n x y hx hwalk hedge with hy | hopen | ⟨_, m, hm, _⟩
    · exact Or.inl hy
    · exact Or.inr hopen
    · cases hm
  obtain ⟨_, _, y, d, hopen, _⟩ := hfrontier.exists_open hwalk h.goal
  exact hnone y d hopen

theorem expansions_fresh (hmh : Handles mh T) (pairs : Pairs ℕ (Node Loc)) {fuel k : ℕ}
    {st : Search Loc} {u : Node Loc} {c : ℕ} (h : Ready T s goal st u c) (hapart : Apart st)
    (hclosed : st.closed.lookup u.lid = none) :
    (∀ call ∈ expansions mh pairs goal fuel k st u, Fresh T st.closed call) ∧
      ((expansions mh pairs goal fuel k st u).map fun call => call.2.lid).Nodup := by
  induction fuel generalizing k st u c with
  | zero => exact ⟨by simp [expansions], List.nodup_nil⟩
  | succ fuel ih =>
    have hhead : Fresh T st.closed (st, u) :=
      ⟨hapart, h.traced.free, h.traced.lid, hclosed⟩
    rw [expansions]
    rcases h.handleNode hmh (pairs.perm (2 * k)) with ⟨st', heq, hexplored⟩ | ⟨st', m, heq, _⟩
    · rw [heq]
      dsimp only
      cases hbest : getBestOpenNode (pairs.order (2 * k + 1) (openNodes st')) with
      | none => exact ⟨by simpa using hhead, by simp⟩
      | some u' =>
        obtain ⟨c', hready⟩ := hexplored.ready (pairs.perm (2 * k + 1)) hbest
        obtain ⟨hfresh, hnodup⟩ := ih (k := k + 1) hready hexplored.apart
          (hexplored.unclosed (pairs.perm (2 * k + 1)) hbest)
        have hst' : st'.closed = st.closed.insert u.lid u.lid := by
          have hkept : (handleNode mh (pairs.order (2 * k)) st u goal).1.closed =
              (st.close u).closed := (handleNodes_apart (hapart.close u) _).2
          rw [heq] at hkept
          exact hkept
        rw [hst'] at hfresh
        refine ⟨?_, ?_⟩
        · intro call hcall
          rcases List.mem_cons.mp hcall with rfl | hrest
          · exact hhead
          · exact (hfresh call hrest).mono.1
        · refine List.nodup_cons.mpr ⟨?_, hnodup⟩
          intro hmem
          obtain ⟨call, hcall, hlid⟩ := List.mem_map.mp hmem
          exact (hfresh call hcall).mono.2 hlid
    · rw [heq]
      exact ⟨by simpa using hhead, by simp⟩

/-- How the main loop ends: it runs out of fuel with another turn to come, it finds no path
where there is none, or it returns one. -/
theorem findLoop_ends (hmh : Handles mh T) (pairs : Pairs ℕ (Node Loc)) (fuel k : ℕ)
    {st : Search Loc} {u : Node Loc} {c : ℕ} (h : Ready T s goal st u c) :
    (findLoop mh pairs goal fuel k st u = .outOfFuel ∧
        fuel < (expansions mh pairs goal (fuel + 1) k st u).length) ∨
      (findLoop mh pairs goal fuel k st u = .notFound ∧ ∀ n, ¬ Walk T.adj s n goal) ∨
      ∃ path n, findLoop mh pairs goal fuel k st u = .found path ∧ Walk T.adj s n goal := by
  induction fuel generalizing k st u c with
  | zero =>
    refine Or.inl ⟨rfl, ?_⟩
    rw [expansions]
    exact Nat.succ_pos _
  | succ fuel ih =>
    rw [findLoop, expansions]
    rcases h.handleNode hmh (pairs.perm (2 * k)) with
      ⟨st', heq, hexplored⟩ | ⟨st', m, heq, hgoal, htraced⟩
    · rw [heq]
      dsimp only
      cases hbest : getBestOpenNode (pairs.order (2 * k + 1) (openNodes st')) with
      | none => exact Or.inr (Or.inl ⟨rfl, hexplored.unreachable (pairs.perm (2 * k + 1)) hbest⟩)
      | some u' =>
        obtain ⟨c', hready⟩ := hexplored.ready (pairs.perm (2 * k + 1)) hbest
        rcases ih (k + 1) hready with ⟨hout, hlength⟩ | hends
        · exact Or.inl ⟨hout, Nat.succ_lt_succ hlength⟩
        · exact Or.inr hends
    · rw [heq]
      right
      right
      rw [← hgoal]
      cases htraced with
      | step hu hedge => exact ⟨_, c + 1, rfl, hu.walk.snoc hedge⟩

theorem calls_fresh (hmh : Handles mh T) (pairs : Pairs ℕ (Node Loc)) (fuel : ℕ)
    (hne : s ≠ goal) :
    (∀ call ∈ calls mh pairs fuel s goal, Fresh T ∅ call) ∧
      ((calls mh pairs fuel s goal).map fun call => call.2.lid).Nodup := by
  unfold calls
  cases hnode : mh.getNode s with
  | none => exact ⟨by simp, List.nodup_nil⟩
  | some fnode =>
    obtain ⟨hfree, rfl⟩ := (hmh.getNode s fnode).mp hnode
    exact expansions_fresh hmh pairs (ready_root hfree hne) (fun k _ => by simp) (by simp)

/-- No location is expanded twice, so the calls are not more than the free locations. -/
theorem calls_length (hmh : Handles mh T) (pairs : Pairs ℕ (Node Loc)) (fuel : ℕ)
    (hne : s ≠ goal) {F : Finset Loc} (hF : ∀ v, T.free v → v ∈ F) :
    (calls mh pairs fuel s goal).length ≤ F.card := by
  obtain ⟨hfresh, hnodup⟩ := calls_fresh hmh pairs fuel hne
  have hlids : (calls mh pairs fuel s goal).map (fun call => call.2.lid) =
      ((calls mh pairs fuel s goal).map fun call => call.2.location).map T.lid := by
    rw [List.map_map]
    exact List.map_congr_left fun call hcall => (hfresh call hcall).lid
  rw [hlids] at hnodup
  have hlocs := List.Nodup.of_map T.lid hnodup
  have hsub : (⟨_, Multiset.coe_nodup.mpr hlocs⟩ : Finset Loc) ⊆ F := by
    intro v hv
    obtain ⟨call, hcall, rfl⟩ := List.mem_map.mp (Multiset.mem_coe.mp hv)
    exact hF _ (hfresh call hcall).free
  have hcard := Finset.card_le_card hsub
  simpa using hcard

/-- With a turn for each free location the search ends, and it finds a path if there is one. -/
theorem findPath_ends (hmh : Handles mh T) (pairs : Pairs ℕ (Node Loc)) {fuel : ℕ}
    (hne : s ≠ goal) {F : Finset Loc} (hF : ∀ v, T.free v → v ∈ F) (hfuel : F.card ≤ fuel) :
    (findPath mh pairs fuel s goal = .notFound ∧
        (¬ T.free s ∨ ∀ n, ¬ Walk T.adj s n goal)) ∨
      ∃ path n, findPath mh pairs fuel s goal = .found path ∧ T.free s ∧
        Walk T.adj s n goal := by
  have hlength := calls_length hmh pairs (fuel + 1) hne hF
  unfold findPath
  unfold calls at hlength
  cases hnode : mh.getNode s with
  | none =>
    refine Or.inl ⟨rfl, Or.inl fun hfree => ?_⟩
    rw [(hmh.getNode s _).mpr ⟨hfree, rfl⟩] at hnode
    cases hnode
  | some fnode =>
    obtain ⟨hfree, rfl⟩ := (hmh.getNode s fnode).mp hnode
    rw [hnode] at hlength
    dsimp only at hlength ⊢
    rcases findLoop_ends hmh pairs fuel 0 (ready_root hfree hne) with
      ⟨_, hmore⟩ | ⟨hnot, hwalk⟩ | ⟨path, n, hfound, hwalk⟩
    · exact absurd (Nat.lt_of_lt_of_le hmore hlength) (Nat.not_lt.mpr hfuel)
    · exact Or.inl ⟨hnot, Or.inr hwalk⟩
    · exact Or.inr ⟨path, n, hfound, hfree, hwalk⟩

end Ue4Background.AStar
