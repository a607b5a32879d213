import Ue4Background.Scene

/-!
The replica of a scene that a client keeps by folding the messages to its agent. Every
change of the scene is broadcast after or before it is made, and the players in the scene
all hear it, at least once each. A message that is heard twice in a row changes nothing
the second time, so players may share an agent. The speeds have to be numbers or numerals.
-/

namespace Ue4Background.Scene

open LuaValues Transition

/-- The position and size of each ball, and the position of each food. -/
structure Replica (Num : Type) where
  balls : Num → Option (Num × Num × ℕ)
  foods : ℕ → Option (Num × Num)

variable {Num Node Addr : Type}

def Replica.empty : Replica Num := ⟨fun _ => none, fun _ => none⟩

section Heard

variable [DecidableEq Node] [DecidableEq Addr]

/-- The messages among the outputs that go to the agent `a`. -/
def heard (a : Node × Addr) (outs : List (Out Num Node Addr)) : List (SceneMsg Num) :=
  outs.filterMap fun
    | .send agent msg => if agent = a then some msg else none
    | .ret _ => none

theorem heard_append (a : Node × Addr) (outs outs' : List (Out Num Node Addr)) :
    heard a (outs ++ outs') = heard a outs ++ heard a outs' := List.filterMap_append

end Heard

variable [DecidableEq Num]

def view (st : State Num Node Addr) : Replica Num where
  balls p := (st.balls.lookup p).map fun b => (b.x, b.y, b.size)
  foods fid := (st.foods.lookup fid).map fun f => (f.x, f.y)

namespace Replica

def apply (r : Replica Num) : SceneMsg Num → Replica Num
  | .balllist balls => { r with balls := fun p => balls.lookup p }
  | .foodlist foods => { r with foods := fun fid => foods.lookup fid }
  | .enter p x y size => { r with balls := Function.update r.balls p (some (x, y, size)) }
  | .entered => r
  | .leave p => { r with balls := Function.update r.balls p none }
  | .move p x y =>
    { r with balls := Function.update r.balls p ((r.balls p).map fun b => (x, y, b.2.2)) }
  | .addfood fid x y => { r with foods := Function.update r.foods fid (some (x, y)) }
  | .eat p fid size =>
    { balls := Function.update r.balls p ((r.balls p).map fun b => (b.1, b.2.1, size))
      foods := Function.update r.foods fid none }

def fold (r : Replica Num) (msgs : List (SceneMsg Num)) : Replica Num := msgs.foldl apply r

theorem fold_append (r : Replica Num) (msgs msgs' : List (SceneMsg Num)) :
    r.fold (msgs ++ msgs') = (r.fold msgs).fold msgs' := List.foldl_append

theorem apply_apply (r : Replica Num) (msg : SceneMsg Num) :
    (r.apply msg).apply msg = r.apply msg := by
  cases msg <;> simp [apply, Function.comp_def]

/-- Hearing a message several times in a row is hearing it once. -/
theorem fold_replicate (r : Replica Num) (msg : SceneMsg Num) (n : ℕ) :
    r.fold (List.replicate (n + 1) msg) = r.apply msg := by
  induction n with
  | zero => rfl
  | succ n ih =>
    rw [List.replicate_succ', fold_append, ih]
    exact r.apply_apply msg

end Replica

/-- A player in the scene has the agent `a`. -/
def Present (a : Node × Addr) (st : State Num Node Addr) : Prop :=
  ∃ p b, st.balls.lookup p = some b ∧ b.address = a

/-- The same players are in the scene, with the same agents. -/
def Kept (st st' : State Num Node Addr) : Prop :=
  ∀ p, (st'.balls.lookup p).map Ball.address = (st.balls.lookup p).map Ball.address

theorem Kept.present {st st' : State Num Node Addr} {a : Node × Addr} (h : Kept st st')
    (hpresent : Present a st) : Present a st' := by
  obtain ⟨p, b, hb, ha⟩ := hpresent
  have hmap := h p
  rw [hb] at hmap
  obtain ⟨b', hb', haddress⟩ := Option.map_eq_some_iff.mp hmap
  exact ⟨p, b', hb', haddress.trans ha⟩

theorem Kept.setBall {st : State Num Node Addr} {p : Num} {b b' : Ball Num Node Addr}
    (hb : st.balls.lookup p = some b) (haddress : b'.address = b.address) :
    Kept st (st.setBall b' p) := by
  intro q
  by_cases hq : q = p
  · subst hq
    simp [State.setBall, hb, haddress]
  · simp [State.setBall, AList.lookup_insert_ne hq]

/-- The view after one ball has been changed. -/
theorem view_setBall (st : State Num Node Addr) (b : Ball Num Node Addr) (p : Num) :
    view (st.setBall b p) =
      { view st with balls := Function.update (view st).balls p (some (b.x, b.y, b.size)) } := by
  have hballs : (view (st.setBall b p)).balls =
      Function.update (view st).balls p (some (b.x, b.y, b.size)) := by
    funext q
    by_cases hq : q = p
    · subst hq
      simp [view, State.setBall]
    · simp [view, State.setBall, hq, AList.lookup_insert_ne hq]
  rw [← hballs]
  rfl

theorem view_addFood (st : State Num Node Addr) (x y : Num) :
    view (st.addFood x y) = (view st).apply (.addfood (st.addFood x y).foodMaxid x y) := by
  have hfoods : (view (st.addFood x y)).foods =
      Function.update (view st).foods (st.foodMaxid + 1) (some (x, y)) := by
    funext fid
    by_cases hfid : fid = st.foodMaxid + 1
    · subst hfid
      simp [view, State.addFood]
    · simp [view, State.addFood, hfid, AList.lookup_insert_ne hfid]
  have hballs : (view (st.addFood x y)).balls = (view st).balls := rfl
  simp only [Replica.apply, State.addFood] at hfoods hballs ⊢
  rw [← hfoods, ← hballs]

theorem view_removeFood (st : State Num Node Addr) (fid : ℕ) :
    view (st.removeFood fid) =
      { view st with foods := Function.update (view st).foods fid none } := by
  have hfoods : (view (st.removeFood fid)).foods = Function.update (view st).foods fid none := by
    funext fid'
    by_cases hfid : fid' = fid
    · subst hfid
      simp [view, State.removeFood]
    · simp [view, State.removeFood, hfid, AList.lookup_erase_ne hfid]
  rw [← hfoods]
  rfl

variable [LuaArith Num]

/-- The speeds of every ball are numbers, or numerals that its client sent. -/
def Movable (st : State Num Node Addr) : Prop :=
  ∀ p b, st.balls.lookup p = some b → b.speedx.toNumber.isSome ∧ b.speedy.toNumber.isSome

/-- Entries carry their keys, and every ball can be moved. -/
structure Tidy (st : State Num Node Addr) : Prop where
  ball_id : ∀ p b, st.balls.lookup p = some b → b.playerid = p
  food_id : ∀ fid f, st.foods.lookup fid = some f → f.id = fid
  speed : Movable st

theorem Tidy.setBall {st : State Num Node Addr} (h : Tidy st) {p : Num}
    {b : Ball Num Node Addr} (hid : b.playerid = p)
    (hspeed : b.speedx.toNumber.isSome ∧ b.speedy.toNumber.isSome) : Tidy (st.setBall b p) := by
  have hcases : ∀ q b', (st.setBall b p).balls.lookup q = some b' →
      (q = p ∧ b' = b) ∨ st.balls.lookup q = some b' := by
    intro q b' hb'
    by_cases hq : q = p
    · subst hq
      left
      exact ⟨rfl, by simpa [State.setBall, eq_comm] using hb'⟩
    · right
      simpa [State.setBall, AList.lookup_insert_ne hq] using hb'
  refine ⟨?_, h.food_id, ?_⟩
  · intro q b' hb'
    rcases hcases q b' hb' with ⟨rfl, rfl⟩ | hold
    · exact hid
    · exact h.ball_id q b' hold
  · intro q b' hb'
    rcases hcases q b' hb' with ⟨_, rfl⟩ | hold
    · exact hspeed
    · exact h.speed q b' hold

theorem Tidy.count {st : State Num Node Addr} (h : Tidy st) (n : ℤ) :
    Tidy { st with foodCount := n } := ⟨h.ball_id, h.food_id, h.speed⟩

theorem Tidy.addFood {st : State Num Node Addr} (h : Tidy st) (x y : Num) :
    Tidy (st.addFood x y) := by
  refine ⟨h.ball_id, ?_, h.speed⟩
  intro fid f hf
  by_cases hfid : fid = st.foodMaxid + 1
  · subst hfid
    have hfood : ⟨st.foodMaxid + 1, x, y⟩ = f := by simpa [State.addFood] using hf
    rw [← hfood]
  · exact h.food_id fid f (by simpa [State.addFood, AList.lookup_insert_ne hfid] using hf)

theorem Tidy.removeFood {st : State Num Node Addr} (h : Tidy st) (fid : ℕ) :
    Tidy (st.removeFood fid) := by
  refine ⟨h.ball_id, ?_, h.speed⟩
  intro fid' f hf
  by_cases hfid : fid' = fid
  · subst hfid
    simp [State.removeFood] at hf
  · exact h.food_id fid' f (by simpa [State.removeFood, AList.lookup_erase_ne hfid] using hf)

variable [DecidableEq Node] [DecidableEq Addr]

omit [LuaArith Num] in
/-- An agent in the scene hears every broadcast. -/
theorem fold_broadcast {a : Node × Addr} {st : State Num Node Addr} (hpresent : Present a st)
    (orders : Orders Num) (msg : SceneMsg Num) (r : Replica Num) :
    r.fold (heard a (broadcast st orders msg)) = r.apply msg := by
  have hall : ∀ m ∈ heard a (broadcast st orders msg), m = msg := by
    intro m hm
    obtain ⟨out, hout, hsome⟩ := List.mem_filterMap.mp hm
    obtain ⟨v, _, rfl⟩ := List.mem_map.mp hout
    dsimp only at hsome
    split at hsome
    · exact (Option.some.inj hsome).symm
    · cases hsome
  have hmem : msg ∈ heard a (broadcast st orders msg) := by
    obtain ⟨p, b, hb, ha⟩ := hpresent
    refine List.mem_filterMap.mpr ⟨.send b.address msg, ?_, by simp [ha]⟩
    refine List.mem_map.mpr ⟨b, List.mem_filterMap.mpr ⟨p, ?_, hb⟩, rfl⟩
    refine (orders.broadcast.perm msg _).mem_iff.mpr ?_
    exact AList.mem_keys.mp (AList.lookup_isSome.mp (by rw [hb]; rfl))
  have hreplicate := List.eq_replicate_iff.mpr ⟨rfl, hall⟩
  cases hlength : (heard a (broadcast st orders msg)).length with
  | zero =>
    rw [List.length_eq_zero_iff.mp hlength] at hmem
    cases hmem
  | succ n =>
    rw [hreplicate, hlength]
    exact r.fold_replicate msg n

/-- A part of an operation tells every agent in the scene what it changes. -/
structure Relays (st st' : State Num Node Addr) (outs : List (Out Num Node Addr)) : Prop where
  tidy : Tidy st'
  kept : Kept st st'
  tells : ∀ a, Present a st → (view st).fold (heard a outs) = view st'

theorem Relays.refl {st : State Num Node Addr} (h : Tidy st) : Relays st st [] :=
  ⟨h, fun _ => rfl, fun _ _ => rfl⟩

theorem Relays.trans {st st' st'' : State Num Node Addr} {outs outs' : List (Out Num Node Addr)}
    (h : Relays st st' outs) (h' : Relays st' st'' outs') : Relays st st'' (outs ++ outs') := by
  refine ⟨h'.tidy, fun p => (h'.kept p).trans (h.kept p), fun a ha => ?_⟩
  rw [heard_append, Replica.fold_append, h.tells a ha]
  exact h'.tells a (h.kept.present ha)

/-- A broadcast of what has changed in between. -/
theorem Relays.broadcast {st st' : State Num Node Addr} {stb : State Num Node Addr}
    (htidy : Tidy st') (hkept : Kept st st') (hkeptb : Kept st stb) (orders : Orders Num)
    {msg : SceneMsg Num} (hview : (view st).apply msg = view st') :
    Relays st st' (broadcast stb orders msg) := by
  refine ⟨htidy, hkept, fun a ha => ?_⟩
  rw [fold_broadcast (hkeptb.present ha)]
  exact hview

/-- An answer to the caller tells the agents nothing. -/
theorem Relays.ret {st st' : State Num Node Addr} {answer : Option Bool} (htidy : Tidy st')
    (hkept : Kept st st') (hview : view st = view st') : Relays st st' [.ret answer] :=
  ⟨htidy, hkept, fun _ _ => hview⟩

theorem foodUpdate_relays {st : State Num Node Addr} (h : Tidy st) (orders : Orders Num)
    (draw : ℕ) (x y : Num) :
    Relays st (foodUpdate st orders draw x y).1 (foodUpdate st orders draw x y).2 := by
  unfold foodUpdate
  split
  · exact Relays.refl h
  · split
    · exact Relays.refl h
    · dsimp only
      have hkept : Kept st (st.addFood x y) := fun _ => rfl
      exact Relays.broadcast (h.addFood x y) hkept hkept orders (view_addFood st x y).symm

/-- A ball that moves is announced, and one without speed stays where it is. -/
theorem moveBall_relays {st : State Num Node Addr} (h : Tidy st) (orders : Orders Num)
    (p : Num) :
    (moveBall st orders p).raised = false ∧
      Relays st (moveBall st orders p).state (moveBall st orders p).outs := by
  unfold moveBall
  split
  · exact ⟨rfl, Relays.refl h⟩
  · rename_i b hb
    obtain ⟨hnumx, hnumy⟩ := h.speed p b hb
    obtain ⟨speedx, hx⟩ := Option.isSome_iff_exists.mp hnumx
    obtain ⟨speedy, hy⟩ := Option.isSome_iff_exists.mp hnumy
    have hid := h.ball_id p b hb
    have hview : (view st).balls p = some (b.x, b.y, b.size) := by simp [view, hb]
    have hset : Tidy (st.setBall ((b.moveX speedx).moveY speedy) p) :=
      h.setBall hid (h.speed p b hb)
    have hkept : Kept st (st.setBall ((b.moveX speedx).moveY speedy) p) := Kept.setBall hb rfl
    have hy' : (b.moveX speedx).speedy = b.speedy := rfl
    simp only [hx, hy', hy]
    split
    · refine ⟨rfl, Relays.broadcast hset hkept hkept orders ?_⟩
      rw [view_setBall]
      simp only [Replica.apply, Ball.moveX, Ball.moveY, hid, hview, Option.map_some]
    · rename_i hzero
      push Not at hzero
      obtain ⟨hzerox, hzeroy⟩ := hzero
      have hspeedx : b.speedx = .num (LuaNumber.ofNat 0) := hzerox
      have hspeedy : b.speedy = .num (LuaNumber.ofNat 0) := hzeroy
      rw [hspeedx, Value.toNumber, Option.some.injEq] at hx
      rw [hspeedy, Value.toNumber, Option.some.injEq] at hy
      refine ⟨rfl, hset, hkept, fun a _ => ?_⟩
      rw [view_setBall]
      simp only [Ball.moveX, Ball.moveY, ← hx, ← hy, LuaArith.add_zero_mul, ← hview,
        Function.update_eq_self]
      rfl

theorem eatFood_relays {st : State Num Node Addr} (h : Tidy st) (orders : Orders Num) (p : Num)
    (fid : ℕ) : Relays st (eatFood st orders p fid).1 (eatFood st orders p fid).2 := by
  unfold eatFood
  split
  · rename_i b f hb hf
    split
    · have hset : Tidy (st.setBall { b with size := b.size + 1 } p) :=
        h.setBall (h.ball_id p b hb) (h.speed p b hb)
      have hgrow : Tidy (st.growBall b p) := hset.count _
      have hkeptSet : Kept st (st.setBall { b with size := b.size + 1 } p) := Kept.setBall hb rfl
      have hkept : Kept st (st.growBall b p) := hkeptSet
      have hremove : Kept st ((st.growBall b p).removeFood fid) := hkept
      refine Relays.broadcast (hgrow.removeFood fid) hremove hkept orders ?_
      have hview : (view st).balls p = some (b.x, b.y, b.size) := by simp [view, hb]
      have hgrown : view (st.growBall b p) = view (st.setBall { b with size := b.size + 1 } p) :=
        rfl
      rw [view_removeFood, hgrown, view_setBall]
      simp only [Replica.apply, h.ball_id p b hb, hview, Option.map_some]
    · exact Relays.refl h
  · exact Relays.refl h

theorem moveLoop_relays {st : State Num Node Addr} (h : Tidy st) (orders : Orders Num)
    (keys : List Num) :
    (moveLoop st orders keys).raised = false ∧
      Relays st (moveLoop st orders keys).state (moveLoop st orders keys).outs := by
  induction keys generalizing st with
  | nil => exact ⟨rfl, Relays.refl h⟩
  | cons p rest ih =>
    obtain ⟨hraised, hball⟩ := moveBall_relays h orders p
    rcases hresult : moveBall st orders p with ⟨st', outs, raised⟩
    rw [hresult] at hraised hball
    dsimp only at hraised hball
    subst hraised
    obtain ⟨hraised, hrest⟩ := ih hball.tidy
    simp only [moveLoop, hresult]
    exact ⟨hraised, hball.trans hrest⟩

theorem eatLoop_relays {st : State Num Node Addr} (h : Tidy st) (orders : Orders Num) (p : Num)
    (fids : List ℕ) :
    Relays st (eatLoop st orders p fids).1 (eatLoop st orders p fids).2 := by
  induction fids generalizing st with
  | nil => exact Relays.refl h
  | cons fid rest ih =>
    have hfood := eatFood_relays h orders p fid
    exact hfood.trans (ih hfood.tidy)

theorem eatersLoop_relays {st : State Num Node Addr} (h : Tidy st) (orders : Orders Num)
    (keys : List Num) :
    Relays st (eatersLoop st orders keys).1 (eatersLoop st orders keys).2 := by
  induction keys generalizing st with
  | nil => exact Relays.refl h
  | cons p rest ih =>
    have hball := eatLoop_relays h orders p (orders.eaten.order p st.foods.keys)
    exact hball.trans (ih hball.tidy)

theorem moveUpdate_relays {st : State Num Node Addr} (h : Tidy st) (orders : Orders Num) :
    (moveUpdate st orders).raised = false ∧
      Relays st (moveUpdate st orders).state (moveUpdate st orders).outs :=
  moveLoop_relays h orders _

theorem eatUpdate_relays {st : State Num Node Addr} (h : Tidy st) (orders : Orders Num) :
    Relays st (eatUpdate st orders).1 (eatUpdate st orders).2 :=
  eatersLoop_relays h orders _

theorem update_relays {st : State Num Node Addr} (h : Tidy st) (orders : Orders Num) (draw : ℕ)
    (x y : Num) :
    Relays st (update st orders draw x y).state (update st orders draw x y).outs := by
  have hfood := foodUpdate_relays h orders draw x y
  obtain ⟨hraised, hmove⟩ := moveUpdate_relays hfood.tidy orders
  have heat := eatUpdate_relays hmove.tidy orders
  rcases hresult : moveUpdate (foodUpdate st orders draw x y).1 orders with ⟨st₂, outs₂, raised⟩
  rw [hresult] at hraised hmove heat
  dsimp only at hraised hmove heat
  subst hraised
  simp only [update, hresult]
  exact (hfood.trans hmove).trans heat

end Ue4Background.Scene
