import Mathlib.Algebra.Order.Field.Rat
import Ue4Background.Gateway
import Ue4Background.SceneReplica

/-!
A client that enters a scene gets lists of its balls and foods, and from then on every
change is broadcast to it until it leaves. So the messages since its last `enter` fold to
what the scene holds, after every operation of every run.
-/

namespace Ue4Background.Scene

open LuaValues Transition

variable {Num Node Addr : Type}

/-- `l` is an `enter` of `p` that succeeds. -/
def Enters (p : Num) (l : Label Num Node Addr) : Prop :=
  (∃ node agent x y, l.1.1 = .enter p node agent x y) ∧ Out.ret (some true) ∈ l.2

/-- What the scene has sent since the last successful `enter` of `p`. -/
def SinceEnter (p : Num) (ls : List (Label Num Node Addr)) (recent : List (Out Num Node Addr)) :
    Prop :=
  ∃ before l after, ls = before ++ l :: after ∧ Enters p l ∧ (∀ l' ∈ after, ¬ Enters p l') ∧
    recent = (l :: after).flatMap Prod.snd

theorem SinceEnter.snoc {p : Num} {ls : List (Label Num Node Addr)}
    {recent : List (Out Num Node Addr)} {l : Label Num Node Addr} (h : SinceEnter p ls recent)
    (hl : ¬ Enters p l) : SinceEnter p (ls ++ [l]) (recent ++ l.2) := by
  obtain ⟨before, l', after, rfl, henters, hafter, rfl⟩ := h
  refine ⟨before, l', after ++ [l], by simp, henters, ?_, by simp⟩
  intro m hm
  rcases List.mem_append.mp hm with hold | hnew
  · exact hafter m hold
  · rw [List.mem_singleton.mp hnew]
    exact hl

theorem SinceEnter.enter {p : Num} {l : Label Num Node Addr} (ls : List (Label Num Node Addr))
    (hl : Enters p l) : SinceEnter p (ls ++ [l]) l.2 :=
  ⟨ls, l, [], rfl, hl, by simp, by simp⟩

variable [DecidableEq Num] [LuaArith Num]

/-- The lists of `enter` show the whole scene, whatever has been heard before. -/
theorem fold_lists {st : State Num Node Addr} (h : Tidy st) (orders : Orders Num)
    (r : Replica Num) :
    (r.apply (balllistMsg st orders)).apply (foodlistMsg st orders) = view st := by
  have hballs : ∀ p, (((orders.balllist.order () st.balls.keys).filterMap
      st.balls.lookup).map fun v => (v.playerid, v.x, v.y, v.size)).lookup p =
        (st.balls.lookup p).map fun b => (b.x, b.y, b.size) :=
    lookup_pairs st.balls Ball.playerid (fun b => (b.x, b.y, b.size)) h.ball_id orders.balllist ()
  have hfoods : ∀ fid, (((orders.foodlist.order () st.foods.keys).filterMap
      st.foods.lookup).map fun v => (v.id, v.x, v.y)).lookup fid =
        (st.foods.lookup fid).map fun f => (f.x, f.y) :=
    lookup_pairs st.foods Food.id (fun f => (f.x, f.y)) h.food_id orders.foodlist ()
  simp only [Replica.apply, balllistMsg, foodlistMsg, hballs, hfoods]
  rfl

omit [LuaArith Num] in
theorem ret_not_broadcast (st : State Num Node Addr) (orders : Orders Num) (msg : SceneMsg Num)
    (answer : Option Bool) : Out.ret answer ∉ broadcast st orders msg := by
  intro h
  obtain ⟨v, _, hv⟩ := List.mem_map.mp h
  cases hv

variable [DecidableEq Node] [DecidableEq Addr]

/-- Every player in the scene has heard all there is in it. -/
def Synced (ls : List (Label Num Node Addr)) (st : State Num Node Addr) : Prop :=
  ∀ p b, st.balls.lookup p = some b → ∃ recent, SinceEnter p ls recent ∧
    Replica.empty.fold (heard b.address recent) = view st

omit [LuaArith Num] in
/-- A player who stays in the scene hears of one more operation. -/
theorem Synced.hear {ls : List (Label Num Node Addr)} {st st' : State Num Node Addr}
    {l : Label Num Node Addr} {p : Num} {b b' : Ball Num Node Addr} (h : Synced ls st)
    (hb : st.balls.lookup p = some b) (haddress : b'.address = b.address) (hl : ¬ Enters p l)
    (htells : (view st).fold (heard b.address l.2) = view st') :
    ∃ recent, SinceEnter p (ls ++ [l]) recent ∧
      Replica.empty.fold (heard b'.address recent) = view st' := by
  obtain ⟨recent, hsince, hfold⟩ := h p b hb
  refine ⟨recent ++ l.2, hsince.snoc hl, ?_⟩
  rw [haddress, heard_append, Replica.fold_append, hfold]
  exact htells

theorem Synced.relays {ls : List (Label Num Node Addr)} {st st' : State Num Node Addr}
    {l : Label Num Node Addr} (h : Synced ls st) (hrelays : Relays st st' l.2)
    (hl : ∀ p, ¬ Enters p l) : Synced (ls ++ [l]) st' := by
  intro p b' hb'
  have hmap := hrelays.kept p
  rw [hb'] at hmap
  obtain ⟨b, hb, haddress⟩ := Option.map_eq_some_iff.mp hmap.symm
  exact h.hear hb haddress.symm (hl p) (hrelays.tells b.address ⟨p, b, hb, rfl⟩)

theorem Synced.leave {ls : List (Label Num Node Addr)} {st : State Num Node Addr}
    (h : Synced ls st) (ht : Tidy st) (orders : Orders Num) (p : Num) :
    Tidy (leave st orders p).state ∧
      Synced (ls ++ [((.leave p, orders), (leave st orders p).outs)])
        (leave st orders p).state := by
  have hnot : ∀ q, ¬ Enters q ((.leave p, orders), (Scene.leave st orders p).outs) := by
    rintro q ⟨⟨_, _, _, _, heq⟩, _⟩
    cases heq
  cases hp : st.balls.lookup p with
  | none =>
    simp only [Scene.leave, hp] at hnot ⊢
    exact ⟨ht, h.relays (Relays.ret ht (fun _ => rfl) rfl) hnot⟩
  | some gone =>
    simp only [Scene.leave, hp] at hnot ⊢
    have hold : ∀ q b, (st.balls.erase p).lookup q = some b →
        q ≠ p ∧ st.balls.lookup q = some b := by
      intro q b hb
      by_cases hq : q = p
      · subst hq
        simp at hb
      · exact ⟨hq, by simpa [AList.lookup_erase_ne hq] using hb⟩
    refine ⟨⟨fun q b hb => ht.ball_id q b (hold q b hb).2, ht.food_id,
      fun q b hb => ht.speed q b (hold q b hb).2⟩, ?_⟩
    intro q b hb
    refine h.hear (hold q b hb).2 rfl (hnot q) ?_
    rw [heard_append, Replica.fold_append, fold_broadcast ⟨q, b, hb, rfl⟩]
    have hballs : Function.update (view st).balls p none =
        (view { st with balls := st.balls.erase p }).balls := by
      funext q'
      by_cases hq : q' = p
      · subst hq
        simp [view]
      · simp [view, hq, AList.lookup_erase_ne hq]
    simp only [Replica.apply, hballs]
    rfl

theorem Synced.enter {ls : List (Label Num Node Addr)} {st : State Num Node Addr}
    (h : Synced ls st) (ht : Tidy st) (orders : Orders Num) (p : Num) (node : Node) (agent : Addr)
    (x y : Num) :
    Tidy (enter st orders p node agent x y).state ∧
      Synced (ls ++ [((.enter p node agent x y, orders), (enter st orders p node agent x y).outs)])
        (enter st orders p node agent x y).state := by
  cases hp : st.balls.lookup p with
  | some b =>
    have hnot : ∀ q, ¬ Enters q ((.enter p node agent x y, orders),
        (Scene.enter st orders p node agent x y).outs) := by
      rintro q ⟨_, hret⟩
      simp [Scene.enter, hp] at hret
    simp only [Scene.enter, hp] at hnot ⊢
    exact ⟨ht, h.relays (Relays.ret ht (fun _ => rfl) rfl) hnot⟩
  | none =>
    have hset : Tidy (st.setBall (ball p node agent x y) p) :=
      ht.setBall rfl ⟨rfl, rfl⟩
    have henters : ∀ q, Enters q ((.enter p node agent x y, orders),
        (Scene.enter st orders p node agent x y).outs) ↔ q = p := by
      intro q
      constructor
      · rintro ⟨⟨_, _, _, _, heq⟩, _⟩
        cases heq
        rfl
      · rintro rfl
        exact ⟨⟨node, agent, x, y, rfl⟩, by simp [Scene.enter, hp]⟩
    simp only [Scene.enter, hp] at henters ⊢
    refine ⟨hset, fun q b hb => ?_⟩
    -- what an agent hears of the lists: all of them, or nothing
    have hlists : ∀ a r, r.fold (heard a [Out.send (ball p node agent x y).address .entered,
        .send (ball p node agent x y).address
          (balllistMsg (st.setBall (ball p node agent x y) p) orders),
        .send (ball p node agent x y).address
          (foodlistMsg (st.setBall (ball p node agent x y) p) orders), .ret (some true)]) =
        if (ball p node agent x y).address = a then view (st.setBall (ball p node agent x y) p)
        else r := by
      intro a r
      by_cases ha : (ball p node agent x y).address = a
      · simp only [heard, List.filterMap_cons, List.filterMap_nil, if_pos ha]
        exact fold_lists hset orders (r.apply .entered)
      · simp only [heard, List.filterMap_cons, List.filterMap_nil, if_neg ha]
        rfl
    by_cases hq : q = p
    · subst hq
      have hbq : ball q node agent x y = b := by simpa [State.setBall] using hb
      refine ⟨_, SinceEnter.enter ls ((henters q).mpr rfl), ?_⟩
      dsimp only
      rw [heard_append, Replica.fold_append, hlists, if_pos (by rw [hbq])]
    · have hold : st.balls.lookup q = some b := by
        simpa [State.setBall, AList.lookup_insert_ne hq] using hb
      refine h.hear hold rfl (mt (henters q).mp hq) ?_
      dsimp only
      rw [heard_append, Replica.fold_append, fold_broadcast ⟨q, b, hold, rfl⟩, hlists]
      split
      · rfl
      · rw [view_setBall]
        rfl

theorem Synced.step {ls : List (Label Num Node Addr)} {st st' : State Num Node Addr}
    {l : Label Num Node Addr} (h : Synced ls st) (ht : Tidy st) (hstep : Step st l st')
    (hspeeds : Numeric l.1.1) : Tidy st' ∧ Synced (ls ++ [l]) st' := by
  obtain ⟨⟨op, orders⟩, outs⟩ := l
  have hnext := hstep.2
  simp only [next, Prod.mk.injEq] at hnext
  obtain ⟨rfl, rfl⟩ := hnext
  cases op with
  | enter p node agent x y => exact h.enter ht orders p node agent x y
  | leave p => exact h.leave ht orders p
  | shift p x y =>
    have hnot : ∀ q,
        ¬ Enters q ((.shift p x y, orders), (handle st orders (.shift p x y)).outs) := by
      rintro q ⟨⟨_, _, _, _, heq⟩, _⟩
      cases heq
    simp only [handle, shift] at hnot ⊢
    cases hb : st.balls.lookup p with
    | none =>
      simp only [hb] at hnot ⊢
      exact ⟨ht, h.relays (Relays.ret ht (fun _ => rfl) rfl) hnot⟩
    | some b =>
      simp only [hb] at hnot ⊢
      have hset : Tidy (st.setBall { b with speedx := x, speedy := y } p) :=
        ht.setBall (ht.ball_id p b hb) hspeeds
      refine ⟨hset, h.relays (Relays.ret hset (Kept.setBall hb rfl) ?_) hnot⟩
      have hview : (view st).balls p = some (b.x, b.y, b.size) := by simp [view, hb]
      rw [view_setBall]
      simp only [← hview, Function.update_eq_self]
  | update draw x y =>
    have hrelays := update_relays ht orders draw x y
    refine ⟨hrelays.tidy, h.relays hrelays ?_⟩
    rintro q ⟨⟨_, _, _, _, heq⟩, _⟩
    cases heq

/-- After every operation of every run whose shifts bring numbers or numerals, the messages that
the agent of a player in the scene has been sent since its last `enter` fold to the scene, whose
entries have their ids as keys. -/
theorem replica_eq_scene {ls : List (Label Num Node Addr)} {st : State Num Node Addr}
    (hrun : Run (Guarded Step fun _ l => Numeric l.1.1) init ls st) : Tidy st ∧ Synced ls st := by
  have h : Tidy st ∧ Synced ([] ++ ls) st := by
    refine Run.invariant_history (I := fun ls st => Tidy st ∧ Synced ls st) ?_ ⟨?_, ?_⟩ hrun
    · rintro hist u l v ⟨ht, hs⟩ ⟨hstep, hspeeds⟩
      exact hs.step ht hstep hspeeds
    · exact ⟨by simp [init], by simp [init], by simp [init, Movable]⟩
    · intro p b hb
      simp [init] at hb
  exact h

/-- Fractions, which are Lua's numbers as far as these are exact. Only whole numbers are read
and written as text. -/
instance : LuaArith ℚ where
  tonumber s := (tonumber s : Option ℕ).map fun n => (n : ℚ)
  tostring q := tostring (q.num.toNat / q.den)
  ofNat n := n
  add x y := x + y
  sub x y := x - y
  mul x y := x * y
  pow x y := x ^ y.num.toNat
  lt x y := decide (x < y)
  fifth := 1 / 5
  add_zero_mul x := by simp

def listed : Orders ℚ where
  broadcast := ⟨fun _ keys => keys, fun _ _ => List.Perm.refl _⟩
  balllist := ⟨fun _ keys => keys, fun _ _ => List.Perm.refl _⟩
  foodlist := ⟨fun _ keys => keys, fun _ _ => List.Perm.refl _⟩
  move := ⟨fun _ keys => keys, fun _ _ => List.Perm.refl _⟩
  eaters := ⟨fun _ keys => keys, fun _ _ => List.Perm.refl _⟩
  eaten := ⟨fun _ keys => keys, fun _ _ => List.Perm.refl _⟩

/-- Two players, one of whom sends a speed, and moves while a food appears next to the other. -/
def twoPlayers : List (Event ℚ ℕ ℕ) :=
  [(.enter 7 1 100 10 10, listed), (.enter 8 1 101 50 50, listed),
    (clientShift 7 (Gateway.strUnpack (bytes "shift,5")), listed), (.update 98 50 51, listed)]

theorem replica_eq_scene_two_players :
    (heard (1, 100) ((trace next init twoPlayers).flatMap Prod.snd)).length = 7 ∧
      Tidy (exec next init twoPlayers) ∧
        Synced (trace next init twoPlayers) (exec next init twoPlayers) := by
  refine ⟨by decide +kernel, replica_eq_scene (run_exec_guarded ?_)⟩
  exact ⟨⟨trivial, trivial⟩, ⟨trivial, trivial⟩, ⟨trivial, by decide +kernel, by decide +kernel⟩,
    ⟨trivial, trivial⟩, trivial⟩

end Ue4Background.Scene
