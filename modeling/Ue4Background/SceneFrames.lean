import Ue4Background.SceneSync

/-!
The frames of a scene. The speeds of a ball are stored as they came from its client, so the loop
over the balls ends at the first speed that is not a number, for whoever comes after it. A frame
completes exactly when every ball can be moved, and every ball can be moved as long as the
shifts bring numerals.
-/

namespace Ue4Background.Scene

open LuaValues Transition

variable {Num Node Addr : Type} [DecidableEq Num] [LuaArith Num]

/-- A ball after its turn of `move_update`, if its speeds are numbers. -/
def Ball.moved (b : Ball Num Node Addr) : Option (Ball Num Node Addr) := do
  let speedx ← b.speedx.toNumber
  let speedy ← b.speedy.toNumber
  some ((b.moveX speedx).moveY speedy)

/-- A frame does not raise, moves every ball, and lets every ball eat in the moved scene. -/
def Completes (st : State Num Node Addr) (orders : Orders Num) (draw : ℕ) (x y : Num) : Prop :=
  (update st orders draw x y).raised = false ∧
    ∃ st' : State Num Node Addr, st'.foods = (foodUpdate st orders draw x y).1.foods ∧
      (∀ p, (st.balls.lookup p).isSome = (st'.balls.lookup p).isSome) ∧
      (∀ p b, st.balls.lookup p = some b →
        ∃ speedx speedy, b.speedx.toNumber = some speedx ∧ b.speedy.toNumber = some speedy ∧
          st'.balls.lookup p = some ((b.moveX speedx).moveY speedy)) ∧
      (update st orders draw x y).state = (eatUpdate st' orders).1

section Loop

variable {st : State Num Node Addr} {orders : Orders Num}

omit [LuaArith Num] in
theorem lookup_setBall (b : Ball Num Node Addr) (p q : Num) :
    (st.setBall b p).balls.lookup q = if q = p then some b else st.balls.lookup q := by
  by_cases h : q = p
  · subst h
    rw [if_pos rfl]
    exact AList.lookup_insert st.balls
  · rw [if_neg h]
    exact AList.lookup_insert_ne h

/-- A turn raises nothing when the ball can be moved, and moves it. -/
theorem moveBall_eq (st : State Num Node Addr) (orders : Orders Num) (p : Num) :
    ((moveBall st orders p).raised = false ↔ ∀ b, st.balls.lookup p = some b → b.moved.isSome) ∧
    ((moveBall st orders p).raised = false →
      (moveBall st orders p).state.foods = st.foods ∧
      ∀ q, (moveBall st orders p).state.balls.lookup q =
        if q = p then (st.balls.lookup p).bind Ball.moved else st.balls.lookup q) := by
  unfold moveBall
  cases hb : st.balls.lookup p with
  | none =>
    refine ⟨by simp, fun _ => ⟨rfl, fun q => ?_⟩⟩
    show st.balls.lookup q = _
    by_cases hq : q = p
    · rw [if_pos hq, hq, hb]
      rfl
    · rw [if_neg hq]
  | some v =>
    cases hx : v.speedx.toNumber with
    | none => simp [hx, Ball.moved]
    | some speedx =>
      have hy' : (v.moveX speedx).speedy = v.speedy := rfl
      cases hy : v.speedy.toNumber with
      | none => simp [hx, hy', hy, Ball.moved]
      | some speedy =>
        have hmoved : v.moved = some ((v.moveX speedx).moveY speedy) := by
          simp [Ball.moved, hx, hy]
        simp only [hx, hy', hy]
        refine ⟨iff_of_true (by split <;> rfl) fun b hv => ?_, fun _ => ⟨by split <;> rfl, ?_⟩⟩
        · cases hv
          rw [hmoved]
          rfl
        · intro q
          have hset : ∀ q, (st.setBall ((v.moveX speedx).moveY speedy) p).balls.lookup q =
              if q = p then (some v).bind Ball.moved else st.balls.lookup q := fun q => by
            rw [lookup_setBall, Option.bind_some, hmoved]
          split <;> exact hset q

/-- The loop raises nothing when every ball can be moved, and moves each of them once. -/
theorem moveLoop_eq (st : State Num Node Addr) (orders : Orders Num) {keys : List Num}
    (hkeys : keys.Nodup) :
    ((moveLoop st orders keys).raised = false ↔
      ∀ p ∈ keys, ∀ b, st.balls.lookup p = some b → b.moved.isSome) ∧
    ((moveLoop st orders keys).raised = false →
      (moveLoop st orders keys).state.foods = st.foods ∧
      ∀ q, (moveLoop st orders keys).state.balls.lookup q =
        if q ∈ keys then (st.balls.lookup q).bind Ball.moved else st.balls.lookup q) := by
  induction keys generalizing st with
  | nil => simp [moveLoop]
  | cons p rest ih =>
    obtain ⟨hfresh, hrest⟩ := List.nodup_cons.mp hkeys
    obtain ⟨hball, hmove⟩ := moveBall_eq st orders p
    rcases hresult : moveBall st orders p with ⟨st', outs, raised⟩
    rw [hresult] at hball hmove
    cases raised with
    | true =>
      have hstuck : ¬ ∀ b, st.balls.lookup p = some b → b.moved.isSome :=
        fun h => Bool.noConfusion (hball.mpr h)
      simp only [moveLoop, hresult]
      refine ⟨iff_of_false Bool.noConfusion fun h => hstuck (h p List.mem_cons_self), ?_⟩
      exact fun h => Bool.noConfusion h
    | false =>
      obtain ⟨hfoods, hlookup⟩ := hmove rfl
      obtain ⟨hraised, hloop⟩ := ih st' hrest
      have hother : ∀ q ∈ rest, st'.balls.lookup q = st.balls.lookup q := fun q hq => by
        have hne : q ≠ p := fun heq => hfresh (heq ▸ hq)
        rw [hlookup q, if_neg hne]
      simp only [moveLoop, hresult]
      refine ⟨?_, fun h => ⟨(hloop h).1.trans hfoods, fun q => ?_⟩⟩
      · rw [hraised, List.forall_mem_cons, and_iff_right (hball.mp rfl)]
        exact forall₂_congr fun q hq => by rw [hother q hq]
      · rw [(hloop h).2 q]
        by_cases hq : q = p
        · subst hq
          rw [if_neg hfresh, if_pos List.mem_cons_self, hlookup, if_pos rfl]
        · simp only [List.mem_cons, hq, false_or]
          split
          · next hmem => rw [hother q hmem]
          · rw [hlookup, if_neg hq]

omit [DecidableEq Num] in
theorem isSome_moved (b : Ball Num Node Addr) :
    b.moved.isSome ↔ b.speedx.toNumber.isSome ∧ b.speedy.toNumber.isSome := by
  unfold Ball.moved
  cases b.speedx.toNumber with
  | none => simp
  | some speedx => cases b.speedy.toNumber <;> simp

omit [LuaArith Num] in
theorem balls_foodUpdate (draw : ℕ) (x y : Num) :
    (foodUpdate st orders draw x y).1.balls = st.balls := by
  unfold foodUpdate
  split
  · rfl
  · split <;> rfl

/-- A frame completes exactly when every ball can be moved. -/
theorem completes_iff (draw : ℕ) (x y : Num) : Completes st orders draw x y ↔ Movable st := by
  have hballs : (foodUpdate st orders draw x y).1.balls = st.balls := balls_foodUpdate draw x y
  rcases hfood : foodUpdate st orders draw x y with ⟨fed, outs⟩
  rw [hfood] at hballs
  have hballs : fed.balls = st.balls := hballs
  have hperm := orders.move.perm () fed.balls.keys
  obtain ⟨hraised, hmoved⟩ := moveLoop_eq fed orders
    (hperm.nodup_iff.mpr fed.balls.keys_nodup)
  have hmem : ∀ p, p ∈ orders.move.order () fed.balls.keys ↔ (st.balls.lookup p).isSome :=
    fun p => by rw [hperm.mem_iff, hballs, AList.lookup_isSome, AList.mem_keys]
  have hmovable : (moveUpdate fed orders).raised = false ↔ Movable st := by
    rw [moveUpdate, hraised]
    refine ⟨fun h p b hb => ?_, fun h p _ b hb => (isSome_moved b).mpr (h p b (by rwa [← hballs]))⟩
    exact (isSome_moved b).mp (h p ((hmem p).mpr (by rw [hb]; rfl)) b (by rwa [hballs]))
  rw [← hmovable]
  have hmoved : (moveUpdate fed orders).raised = false →
      (moveUpdate fed orders).state.foods = fed.foods ∧
      ∀ q, (moveUpdate fed orders).state.balls.lookup q = (st.balls.lookup q).bind Ball.moved :=
    fun h => ⟨(hmoved h).1, fun q => by
      have hsame : fed.balls.lookup q = st.balls.lookup q := by rw [hballs]
      refine ((hmoved h).2 q).trans ?_
      rw [hsame]
      split
      · rfl
      · next hq =>
        rw [hmem, Option.not_isSome_iff_eq_none] at hq
        rw [hq]
        rfl⟩
  rcases hresult : moveUpdate fed orders with ⟨st', outs', raised⟩
  rw [hresult] at hmoved hmovable
  cases raised with
  | true =>
    simp only [Completes, update, hfood, hresult]
    exact iff_of_false (fun h => Bool.noConfusion h.1) Bool.noConfusion
  | false =>
    obtain ⟨hfoods, hlookup⟩ := hmoved rfl
    have hmovable := hmovable.mp rfl
    simp only [Completes, update, hfood, hresult]
    refine iff_of_true ⟨trivial, st', hfoods, fun p => ?_, fun p b hb => ?_, rfl⟩ trivial
    · rw [hlookup]
      cases hb : st.balls.lookup p with
      | none => rfl
      | some b => rw [Option.bind_some, (isSome_moved b).mpr (hmovable p b hb), Option.isSome_some]
    · obtain ⟨hx, hy⟩ := hmovable p b hb
      obtain ⟨speedx, hx⟩ := Option.isSome_iff_exists.mp hx
      obtain ⟨speedy, hy⟩ := Option.isSome_iff_exists.mp hy
      refine ⟨speedx, speedy, hx, hy, ?_⟩
      rw [hlookup, hb, Option.bind_some, Ball.moved, hx, hy]
      rfl

end Loop

section Speeds

variable {st : State Num Node Addr} {orders : Orders Num}

def speeds (st : State Num Node Addr) (p : Num) : Option (Value Num × Value Num) :=
  (st.balls.lookup p).map fun b => (b.speedx, b.speedy)

omit [LuaArith Num] in
theorem map_setBall {T : Type} (f : Ball Num Node Addr → T) {b b' : Ball Num Node Addr} {p : Num}
    (hb : st.balls.lookup p = some b) (h : f b' = f b) (q : Num) :
    ((st.setBall b' p).balls.lookup q).map f = (st.balls.lookup q).map f := by
  rw [lookup_setBall]
  by_cases hq : q = p
  · rw [if_pos hq, hq, hb, Option.map_some, Option.map_some, h]
  · rw [if_neg hq]

section Moving

variable {T : Type} {f : Ball Num Node Addr → T} (hx : ∀ v speedx, f (v.moveX speedx) = f v)
  (hy : ∀ v speedy, f (v.moveY speedy) = f v)

include hx hy

/-- A turn of `move_update`, raised or not, changes only the positions of balls. -/
theorem map_moveBall (st : State Num Node Addr) (orders : Orders Num) (p q : Num) :
    ((moveBall st orders p).state.balls.lookup q).map f = (st.balls.lookup q).map f := by
  unfold moveBall
  cases hb : st.balls.lookup p with
  | none => rfl
  | some v =>
    cases hspeedx : v.speedx.toNumber with
    | none => simp only [hspeedx]
    | some speedx =>
      have hspeed : (v.moveX speedx).speedy = v.speedy := rfl
      cases hspeedy : v.speedy.toNumber with
      | none =>
        simp only [hspeedx, hspeed, hspeedy]
        exact map_setBall f hb (hx v speedx) q
      | some speedy =>
        have hmoved : f ((v.moveX speedx).moveY speedy) = f v := (hy _ speedy).trans (hx v speedx)
        simp only [hspeedx, hspeed, hspeedy]
        split <;> exact map_setBall f hb hmoved q

theorem map_moveLoop (st : State Num Node Addr) (orders : Orders Num) (keys : List Num)
    (q : Num) :
    ((moveLoop st orders keys).state.balls.lookup q).map f = (st.balls.lookup q).map f := by
  induction keys generalizing st with
  | nil => rfl
  | cons p rest ih =>
    have hball := map_moveBall hx hy st orders p q
    rcases hresult : moveBall st orders p with ⟨st', outs, raised⟩
    rw [hresult] at hball
    cases raised with
    | true =>
      simp only [moveLoop, hresult]
      exact hball
    | false =>
      simp only [moveLoop, hresult]
      exact (ih st').trans hball

end Moving

theorem speeds_moveLoop (keys : List Num) :
    speeds (moveLoop st orders keys).state = speeds st :=
  funext fun q => map_moveLoop (fun _ _ => rfl) (fun _ _ => rfl) st orders keys q

omit [LuaArith Num] in
theorem speeds_setBall {b b' : Ball Num Node Addr} {p : Num} (hb : st.balls.lookup p = some b)
    (hx : b'.speedx = b.speedx) (hy : b'.speedy = b.speedy) :
    speeds (st.setBall b' p) = speeds st :=
  funext fun q => map_setBall _ hb (by rw [hx, hy]) q

theorem speeds_eatFood (p : Num) (fid : ℕ) : speeds (eatFood st orders p fid).1 = speeds st := by
  unfold eatFood
  split
  · next b f hb hf =>
    split
    · exact speeds_setBall hb rfl rfl
    · rfl
  · rfl

theorem speeds_eatLoop (p : Num) (fids : List ℕ) :
    speeds (eatLoop st orders p fids).1 = speeds st := by
  induction fids generalizing st with
  | nil => rfl
  | cons fid rest ih => exact ih.trans (speeds_eatFood p fid)

theorem speeds_eatersLoop (keys : List Num) :
    speeds (eatersLoop st orders keys).1 = speeds st := by
  induction keys generalizing st with
  | nil => rfl
  | cons p rest ih => exact ih.trans (speeds_eatLoop p _)

/-- No frame changes a speed, completed or not. -/
theorem speeds_update (draw : ℕ) (x y : Num) :
    speeds (update st orders draw x y).state = speeds st := by
  have hfood : speeds (foodUpdate st orders draw x y).1 = speeds st := by
    funext p
    rw [speeds, balls_foodUpdate]
    rfl
  have hmove : speeds (moveUpdate (foodUpdate st orders draw x y).1 orders).state = speeds st :=
    (speeds_moveLoop _).trans hfood
  rcases hresult : moveUpdate (foodUpdate st orders draw x y).1 orders with ⟨st₂, outs₂, raised⟩
  rw [hresult] at hmove
  cases raised with
  | true =>
    simp only [update, hresult]
    exact hmove
  | false =>
    simp only [update, hresult]
    exact (speeds_eatersLoop _).trans hmove

omit [DecidableEq Num] in
theorem toNumber_zero : (Value.num (LuaNumber.ofNat 0) : Value Num).toNumber.isSome := rfl

theorem movable_iff : Movable st ↔
    ∀ p v, speeds st p = some v → v.1.toNumber.isSome ∧ v.2.toNumber.isSome := by
  refine ⟨fun h p v hv => ?_, fun h p b hb => h p _ (by rw [speeds, hb]; rfl)⟩
  obtain ⟨b, hb, rfl⟩ := Option.map_eq_some_iff.mp hv
  exact h p b hb

/-- Only a shift that is not numeric can keep a ball from being moved. -/
theorem Movable.step {l : Label Num Node Addr} {st' : State Num Node Addr} (h : Movable st)
    (hstep : Guarded Step (fun _ l => Numeric l.1.1) st l st') : Movable st' := by
  obtain ⟨⟨-, hnext⟩, hnumeric⟩ := hstep
  obtain ⟨⟨op, orders⟩, outs⟩ := l
  obtain rfl : (handle st orders op).state = st' := congrArg Prod.fst hnext
  have hset : ∀ {b : Ball Num Node Addr} {p : Num}, b.speedx.toNumber.isSome →
      b.speedy.toNumber.isSome → Movable (st.setBall b p) := fun {b p} hx hy q b' hb' => by
    rw [lookup_setBall] at hb'
    split at hb'
    · cases hb'
      exact ⟨hx, hy⟩
    · exact h q b' hb'
  cases op with
  | enter p node agent x y =>
    simp only [handle, enter]
    split
    · exact h
    · exact hset toNumber_zero toNumber_zero
  | leave p =>
    simp only [handle, leave]
    split
    · exact h
    · intro q b hb
      by_cases hq : q = p
      · rw [hq, AList.lookup_erase] at hb
        cases hb
      · rw [AList.lookup_erase_ne hq] at hb
        exact h q b hb
  | shift p x y =>
    simp only [handle, shift]
    split
    · exact h
    · exact hset hnumeric.1 hnumeric.2
  | update draw x y =>
    rw [movable_iff]
    rw [movable_iff] at h
    exact fun q v hv => h q v (by rwa [handle, speeds_update] at hv)

end Speeds

/-- In every state that is reached, a frame completes exactly when every ball can be moved; and
every ball can be moved after a run whose shifts were numeric. -/
theorem frames_complete {ls : List (Label Num Node Addr)} {st : State Num Node Addr}
    (hrun : Run Step init ls st) :
    (∀ orders draw x y, Completes st orders draw x y ↔ Movable st) ∧
      ((∀ l ∈ ls, Numeric l.1.1) → Movable st) := by
  refine ⟨fun orders draw x y => completes_iff draw x y, ?_⟩
  have h : (∀ l ∈ [] ++ ls, Numeric l.1.1) → Movable st := by
    refine Run.invariant_history (I := fun ls st => (∀ l ∈ ls, Numeric l.1.1) → Movable st)
      (fun hist u l v hu hstep hnumeric => ?_) (fun _ p b hb => ?_) hrun
    · obtain ⟨hbefore, hlast⟩ := List.forall_mem_append.mp hnumeric
      exact (hu hbefore).step ⟨hstep, hlast l List.mem_cons_self⟩
    · simp [init] at hb
  exact h

/-- A player who steers with a numeral. -/
def steered : List (Event ℚ ℕ ℕ) :=
  [(.enter 7 1 100 10 10, listed), (clientShift 7 (Gateway.strUnpack (bytes "shift,5")), listed)]

theorem frames_complete_steered :
    (∀ orders draw x y, Completes (exec next init steered) orders draw x y ↔
      Movable (exec next init steered)) ∧
    ((∀ l ∈ trace next init steered, Numeric l.1.1) → Movable (exec next init steered)) :=
  frames_complete (run_exec steered ⟨trivial, trivial, trivial⟩)

/-- Another player sends a word instead of a speed. -/
def stalled : List (Event ℚ ℕ ℕ) :=
  steered ++ [(.enter 8 1 101 50 50, listed),
    (clientShift 8 (Gateway.strUnpack (bytes "shift,fast")), listed)]

/-- The frame raises before the ball of player 7 has moved. -/
theorem frames_stalled :
    Run Step init (trace next init stalled) (exec next init stalled) ∧
    ((exec next init stalled).balls.lookup 7).map (fun b => (b.x, b.speedx)) =
      some (10, .str (bytes "5")) ∧
    ¬ Completes (exec next init stalled) listed 1 0 0 ∧
    ((update (exec next init stalled) listed 1 0 0).state.balls.lookup 7).map Ball.x =
      some 10 := by
  have hraised : (update (exec next init stalled) listed 1 0 0).raised = true := by
    decide +kernel
  refine ⟨run_exec stalled ⟨trivial, trivial, trivial, trivial, trivial⟩, by decide +kernel,
    fun h => ?_, by decide +kernel⟩
  rw [h.1] at hraised
  cases hraised

end Ue4Background.Scene
