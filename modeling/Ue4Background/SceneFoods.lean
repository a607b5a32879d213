import Mathlib.Data.Finset.Card
import Ue4Background.SceneFrames

/-!
The foods of a scene. `food_count` is kept by hand and `food_maxid` only grows; `eat_update` takes
foods away while it goes through them, and an error in `move_update` ends a frame early. What has
been issued is at every moment what is there and what the `eat` messages name.
-/

namespace Ue4Background.Scene

open LuaValues Transition

section Tables

variable {K V : Type} [DecidableEq K] (t : Table K V)

omit [DecidableEq K] in
theorem length_keys : t.keys.length = t.entries.length := by
  simp [AList.keys, List.keys]

theorem length_erase {k : K} (h : (t.lookup k).isSome) :
    (t.erase k).entries.length + 1 = t.entries.length := by
  have hmem : k ∈ t.keys := AList.mem_keys.mp (AList.lookup_isSome.mp h)
  have hpos := List.length_pos_of_mem hmem
  rw [← length_keys, ← length_keys, AList.keys_erase, List.length_erase_of_mem hmem]
  omega

theorem length_insert {k : K} (v : V) (h : t.lookup k = none) :
    (t.insert k v).entries.length = t.entries.length + 1 := by
  have hnew : k ∉ t := AList.lookup_eq_none.mp h
  rw [AList.entries_insert_of_notMem hnew, List.length_cons]

end Tables

variable {Num Node Addr : Type} [DecidableEq Num]

/-- The `eat` messages that are sent: the eater, the food and the new size. A message counts once,
however many players it goes to. -/
def meals (outs : List (Out Num Node Addr)) : Finset (Num × ℕ × ℕ) :=
  (outs.filterMap fun
    | .send _ (.eat p fid size) => some (p, fid, size)
    | _ => none).toFinset

/-- Those of the eater `p`. -/
def mealsOf (p : Num) (outs : List (Out Num Node Addr)) : Finset (Num × ℕ × ℕ) :=
  (meals outs).filter fun meal => meal.1 = p

theorem meals_append (outs outs' : List (Out Num Node Addr)) :
    meals (outs ++ outs') = meals outs ∪ meals outs' := by
  rw [meals, List.filterMap_append, List.toFinset_append]
  rfl

theorem mealsOf_append (p : Num) (outs outs' : List (Out Num Node Addr)) :
    mealsOf p (outs ++ outs') = mealsOf p outs ∪ mealsOf p outs' := by
  rw [mealsOf, meals_append, Finset.filter_union]
  rfl

theorem mem_meals {outs : List (Out Num Node Addr)} {meal : Num × ℕ × ℕ} :
    meal ∈ meals outs ↔ ∃ agent, .send agent (.eat meal.1 meal.2.1 meal.2.2) ∈ outs := by
  rw [meals, List.mem_toFinset, List.mem_filterMap]
  constructor
  · rintro ⟨o, ho, heq⟩
    split at heq
    · cases heq
      exact ⟨_, ho⟩
    · cases heq
  · rintro ⟨agent, ho⟩
    exact ⟨_, ho, rfl⟩

variable {st st' : State Num Node Addr} {orders : Orders Num}

theorem mem_broadcast {msg : SceneMsg Num} {o : Out Num Node Addr} :
    o ∈ broadcast st orders msg ↔ ∃ p b, st.balls.lookup p = some b ∧ o = .send b.address msg := by
  have hkeys : ∀ p, p ∈ orders.broadcast.order msg st.balls.keys ↔ (st.balls.lookup p).isSome :=
    fun p => by rw [(orders.broadcast.perm msg st.balls.keys).mem_iff, AList.lookup_isSome,
      AList.mem_keys]
  rw [broadcast, List.mem_map]
  constructor
  · rintro ⟨b, hb, rfl⟩
    obtain ⟨p, -, hp⟩ := List.mem_filterMap.mp hb
    exact ⟨p, b, hp, rfl⟩
  · rintro ⟨p, b, hb, rfl⟩
    exact ⟨b, List.mem_filterMap.mpr ⟨p, (hkeys p).mpr (by rw [hb]; rfl), hb⟩, rfl⟩

/-- The eater hears the message too, so it is sent. -/
theorem meals_broadcast {p q : Num} {b : Ball Num Node Addr} (hb : st.balls.lookup q = some b)
    (fid size : ℕ) : meals (broadcast st orders (.eat p fid size)) = {(p, fid, size)} := by
  ext meal
  rw [mem_meals, Finset.mem_singleton]
  constructor
  · rintro ⟨agent, ho⟩
    obtain ⟨_, _, -, heq⟩ := mem_broadcast.mp ho
    cases heq
    rfl
  · rintro rfl
    exact ⟨b.address, mem_broadcast.mpr ⟨q, b, hb, rfl⟩⟩

theorem meals_eq_empty {outs : List (Out Num Node Addr)}
    (h : ∀ agent p fid size, .send agent (.eat p fid size) ∉ outs) : meals outs = ∅ := by
  refine Finset.eq_empty_of_forall_notMem fun meal hmeal => ?_
  obtain ⟨agent, ho⟩ := mem_meals.mp hmeal
  exact h _ _ _ _ ho

theorem meals_broadcast_other {msg : SceneMsg Num} (h : ∀ p fid size, msg ≠ .eat p fid size) :
    meals (broadcast st orders msg) = ∅ := by
  refine meals_eq_empty fun agent p fid size ho => ?_
  obtain ⟨_, _, -, heq⟩ := mem_broadcast.mp ho
  cases heq
  exact h p fid size rfl

/-- The books of a scene after the outputs `all`, of which a player has been in the scene for
those of `since`. -/
structure Accounted (all : List (Out Num Node Addr)) (since : Num → List (Out Num Node Addr))
    (st : State Num Node Addr) : Prop where
  count : st.foodCount = st.foods.entries.length
  bound : st.foodCount ≤ 51
  keys : ∀ fid f, st.foods.lookup fid = some f → f.id = fid ∧ 1 ≤ fid ∧ fid ≤ st.foodMaxid
  maxid : (st.foodMaxid : ℤ) = st.foodCount + (meals all).card
  named : ∀ meal ∈ meals all, meal.2.1 ≤ st.foodMaxid ∧ st.foods.lookup meal.2.1 = none
  once : ∀ meal ∈ meals all, ∀ meal' ∈ meals all, meal.2.1 = meal'.2.1 → meal = meal'
  ids : ∀ p b, st.balls.lookup p = some b → b.playerid = p
  recent : ∀ p b, st.balls.lookup p = some b → meals (since p) ⊆ meals all
  size : ∀ p b, st.balls.lookup p = some b → b.size = 2 + (mealsOf p (since p)).card

/-- An operation that takes no food and lets no ball grow. -/
structure Quiet (st st' : State Num Node Addr) (outs : List (Out Num Node Addr)) : Prop where
  foods : st'.foods = st.foods
  foodCount : st'.foodCount = st.foodCount
  foodMaxid : st'.foodMaxid = st.foodMaxid
  balls : ∀ p b', st'.balls.lookup p = some b' →
    ∃ b, st.balls.lookup p = some b ∧ b'.playerid = b.playerid ∧ b'.size = b.size
  silent : meals outs = ∅

section Accounting

variable {all outs : List (Out Num Node Addr)} {since : Num → List (Out Num Node Addr)}

theorem Accounted.quiet (h : Accounted all since st) (hquiet : Quiet st st' outs) :
    Accounted (all ++ outs) (fun p => since p ++ outs) st' := by
  obtain ⟨hfoods, hcount, hmaxid, hballs, hsilent⟩ := hquiet
  have hall : meals (all ++ outs) = meals all := by
    rw [meals_append, hsilent, Finset.union_empty]
  have hsince : ∀ p, meals (since p ++ outs) = meals (since p) := fun p => by
    rw [meals_append, hsilent, Finset.union_empty]
  refine ⟨by rw [hcount, hfoods, h.count], by rw [hcount]; exact h.bound, ?_, ?_, ?_, ?_,
    fun p b' hb' => ?_, fun p b' hb' => ?_, fun p b' hb' => ?_⟩
  · rw [hfoods, hmaxid]
    exact h.keys
  · rw [hmaxid, hcount, hall]
    exact h.maxid
  · rw [hall, hfoods, hmaxid]
    exact h.named
  · rw [hall]
    exact h.once
  · obtain ⟨b, hb, hid, -⟩ := hballs p b' hb'
    rw [hid, h.ids p b hb]
  · obtain ⟨b, hb, -⟩ := hballs p b' hb'
    rw [hsince, hall]
    exact h.recent p b hb
  · obtain ⟨b, hb, -, hsize⟩ := hballs p b' hb'
    rw [hsize, h.size p b hb, mealsOf, mealsOf, hsince]

/-- A ball meals a food: the food is gone and named, and the ball has grown. -/
theorem Accounted.eat (h : Accounted all since st) {p : Num} {b : Ball Num Node Addr} {fid : ℕ}
    {f : Food Num} (hb : st.balls.lookup p = some b) (hf : st.foods.lookup fid = some f) :
    Accounted (all ++ broadcast (st.growBall b p) orders (.eat b.playerid fid (b.size + 1)))
      (fun q => since q ++ broadcast (st.growBall b p) orders (.eat b.playerid fid (b.size + 1)))
      ((st.growBall b p).removeFood fid) := by
  set outs := broadcast (st.growBall b p) orders (.eat b.playerid fid (b.size + 1)) with houts
  have hid := h.ids p b hb
  have hgrown : (st.growBall b p).balls.lookup p = some { b with size := b.size + 1 } :=
    AList.lookup_insert st.balls
  have hmeal : meals outs = {(p, fid, b.size + 1)} := by
    rw [houts, meals_broadcast hgrown, hid]
  have hall : meals (all ++ outs) = insert (p, fid, b.size + 1) (meals all) := by
    rw [meals_append, hmeal, Finset.union_comm, Finset.insert_eq]
  have hnew : ∀ meal ∈ meals all, meal.2.1 ≠ fid := fun meal hmem heq => by
    have hgone := (h.named meal hmem).2
    rw [heq, hf] at hgone
    cases hgone
  have hfresh : (p, fid, b.size + 1) ∉ meals all := fun hmem => hnew _ hmem rfl
  have hlength := length_erase st.foods (k := fid) (by rw [hf]; rfl)
  have hcard := Finset.card_insert_of_notMem hfresh
  have hballs : ∀ q b', ((st.growBall b p).removeFood fid).balls.lookup q = some b' →
      ∃ b₀, st.balls.lookup q = some b₀ ∧ b'.playerid = b₀.playerid ∧
        b'.size = b₀.size + if q = p then 1 else 0 := fun q b' hb' => by
    have hb' : (st.setBall { b with size := b.size + 1 } p).balls.lookup q = some b' := hb'
    rw [lookup_setBall] at hb'
    by_cases hq : q = p
    · rw [if_pos hq] at hb'
      cases hb'
      exact ⟨b, by rw [hq, hb], rfl, by rw [if_pos hq]⟩
    · rw [if_neg hq] at hb'
      exact ⟨b', hb', rfl, by rw [if_neg hq]; rfl⟩
  refine ⟨?_, ?_, fun fid' f' hf' => ?_, ?_, ?_, ?_, fun q b' hb' => ?_, fun q b' hb' => ?_,
    fun q b' hb' => ?_⟩
  · show st.foodCount - 1 = ((st.foods.erase fid).entries.length : ℤ)
    rw [h.count]
    omega
  · show st.foodCount - 1 ≤ 51
    have := h.bound
    omega
  · refine h.keys fid' f' ?_
    by_cases heq : fid' = fid
    · have hf' : (st.foods.erase fid).lookup fid' = some f' := hf'
      rw [heq, AList.lookup_erase] at hf'
      cases hf'
    · exact (AList.lookup_erase_ne heq).symm.trans hf'
  · show (st.foodMaxid : ℤ) = st.foodCount - 1 + (meals (all ++ outs)).card
    rw [hall, hcard, h.maxid]
    push_cast
    omega
  · rw [hall]
    intro meal hmem
    show meal.2.1 ≤ st.foodMaxid ∧ (st.foods.erase fid).lookup meal.2.1 = none
    rcases Finset.mem_insert.mp hmem with rfl | hold
    · exact ⟨(h.keys fid f hf).2.2, AList.lookup_erase ..⟩
    · rw [AList.lookup_erase_ne (hnew meal hold)]
      exact h.named meal hold
  · rw [hall]
    intro meal hmem meal' hmem' heq
    rcases Finset.mem_insert.mp hmem with rfl | hold <;>
      rcases Finset.mem_insert.mp hmem' with rfl | hold'
    · rfl
    · exact absurd heq.symm (hnew meal' hold')
    · exact absurd heq (hnew meal hold)
    · exact h.once meal hold meal' hold' heq
  · obtain ⟨b₀, hb₀, hid₀, -⟩ := hballs q b' hb'
    rw [hid₀, h.ids q b₀ hb₀]
  · obtain ⟨b₀, hb₀, -⟩ := hballs q b' hb'
    rw [meals_append, meals_append]
    exact Finset.union_subset_union_left (h.recent q b₀ hb₀)
  · obtain ⟨b₀, hb₀, -, hsize⟩ := hballs q b' hb'
    have hfilter : mealsOf q outs = if q = p then {(p, fid, b.size + 1)} else ∅ := by
      rw [mealsOf, hmeal, Finset.filter_singleton]
      simp [eq_comm]
    rw [hsize, mealsOf_append, hfilter, h.size q b₀ hb₀]
    by_cases hq : q = p
    · have hnot : (p, fid, b.size + 1) ∉ mealsOf q (since q) := fun hmem =>
        hfresh (h.recent q b₀ hb₀ (Finset.mem_filter.mp hmem).1)
      rw [if_pos hq, if_pos hq, Finset.union_comm, ← Finset.insert_eq,
        Finset.card_insert_of_notMem hnot]
      omega
    · rw [if_neg hq, if_neg hq, Finset.union_empty]
      rfl

/-- A new food under the next id. -/
theorem Accounted.addFood (h : Accounted all since st) (hfew : ¬ st.foodCount > 50) (x y : Num)
    (hsilent : meals outs = ∅) :
    Accounted (all ++ outs) (fun p => since p ++ outs) (st.addFood x y) := by
  have hall : meals (all ++ outs) = meals all := by
    rw [meals_append, hsilent, Finset.union_empty]
  have hsince : ∀ p, meals (since p ++ outs) = meals (since p) := fun p => by
    rw [meals_append, hsilent, Finset.union_empty]
  have hfresh : st.foods.lookup (st.foodMaxid + 1) = none := by
    cases hf : st.foods.lookup (st.foodMaxid + 1) with
    | none => rfl
    | some f =>
      have hle := (h.keys _ f hf).2.2
      omega
  have hlength := length_insert st.foods ⟨st.foodMaxid + 1, x, y⟩ hfresh
  refine ⟨?_, ?_, fun fid f hf => ?_, ?_, ?_, ?_, h.ids, fun p b hb => ?_, fun p b hb => ?_⟩
  · show st.foodCount + 1 = ((st.foods.insert _ _).entries.length : ℤ)
    rw [hlength, h.count]
    push_cast
    omega
  · show st.foodCount + 1 ≤ 51
    omega
  · have hf : (st.foods.insert (st.foodMaxid + 1) ⟨st.foodMaxid + 1, x, y⟩).lookup fid =
        some f := hf
    show f.id = fid ∧ 1 ≤ fid ∧ fid ≤ st.foodMaxid + 1
    by_cases heq : fid = st.foodMaxid + 1
    · rw [heq, AList.lookup_insert] at hf
      cases hf
      exact ⟨heq.symm, by omega, by omega⟩
    · rw [AList.lookup_insert_ne heq] at hf
      obtain ⟨hid, hpos, hle⟩ := h.keys fid f hf
      exact ⟨hid, hpos, by omega⟩
  · show ((st.foodMaxid + 1 : ℕ) : ℤ) = st.foodCount + 1 + (meals (all ++ outs)).card
    rw [hall]
    have hmaxid := h.maxid
    push_cast
    omega
  · rw [hall]
    intro meal hmem
    obtain ⟨hle, hgone⟩ := h.named meal hmem
    show meal.2.1 ≤ st.foodMaxid + 1 ∧ (st.foods.insert _ _).lookup meal.2.1 = none
    rw [AList.lookup_insert_ne (by omega)]
    exact ⟨by omega, hgone⟩
  · rw [hall]
    exact h.once
  · rw [hsince, hall]
    exact h.recent p b hb
  · rw [h.size p b hb, mealsOf, mealsOf, hsince]

theorem Accounted.nothing (h : Accounted all since st) :
    Accounted (all ++ []) (fun p => since p ++ []) st := by
  simpa only [List.append_nil] using h

theorem Accounted.foodUpdate (h : Accounted all since st) (orders : Orders Num) (draw : ℕ)
    (x y : Num) : Accounted (all ++ (foodUpdate st orders draw x y).2)
      (fun p => since p ++ (foodUpdate st orders draw x y).2)
      (foodUpdate st orders draw x y).1 := by
  unfold Scene.foodUpdate
  split
  · exact h.nothing
  · next hfew =>
    split
    · exact h.nothing
    · exact h.addFood hfew x y (meals_broadcast_other nofun)

variable [LuaArith Num]

theorem Accounted.eatFood (h : Accounted all since st) (orders : Orders Num) (p : Num)
    (fid : ℕ) : Accounted (all ++ (eatFood st orders p fid).2)
      (fun q => since q ++ (eatFood st orders p fid).2) (eatFood st orders p fid).1 := by
  unfold Scene.eatFood
  split
  · next b f hb hf =>
    split
    · exact h.eat hb hf
    · exact h.nothing
  · exact h.nothing

theorem Accounted.eatLoop (h : Accounted all since st) (orders : Orders Num) (p : Num)
    (fids : List ℕ) : Accounted (all ++ (eatLoop st orders p fids).2)
      (fun q => since q ++ (eatLoop st orders p fids).2) (eatLoop st orders p fids).1 := by
  induction fids generalizing st all since with
  | nil => exact h.nothing
  | cons fid rest ih =>
    have hrest := ih (h.eatFood orders p fid)
    simp only [List.append_assoc] at hrest
    exact hrest

theorem Accounted.eatersLoop (h : Accounted all since st) (orders : Orders Num)
    (keys : List Num) : Accounted (all ++ (eatersLoop st orders keys).2)
      (fun q => since q ++ (eatersLoop st orders keys).2) (eatersLoop st orders keys).1 := by
  induction keys generalizing st all since with
  | nil => exact h.nothing
  | cons p rest ih =>
    have hrest := ih (h.eatLoop orders p (orders.eaten.order p st.foods.keys))
    simp only [List.append_assoc] at hrest
    exact hrest

end Accounting

section Moving

variable [LuaArith Num]

theorem moveBall_foods (st : State Num Node Addr) (orders : Orders Num) (p : Num) :
    (moveBall st orders p).state.foods = st.foods ∧
      (moveBall st orders p).state.foodCount = st.foodCount ∧
      (moveBall st orders p).state.foodMaxid = st.foodMaxid ∧
      meals (moveBall st orders p).outs = ∅ := by
  have hempty : meals ([] : List (Out Num Node Addr)) = ∅ := rfl
  unfold moveBall
  split
  · exact ⟨rfl, rfl, rfl, hempty⟩
  · split
    · exact ⟨rfl, rfl, rfl, hempty⟩
    · dsimp only
      split
      · exact ⟨rfl, rfl, rfl, hempty⟩
      · split
        · exact ⟨rfl, rfl, rfl, meals_broadcast_other nofun⟩
        · exact ⟨rfl, rfl, rfl, hempty⟩

theorem moveLoop_foods (st : State Num Node Addr) (orders : Orders Num) (keys : List Num) :
    (moveLoop st orders keys).state.foods = st.foods ∧
      (moveLoop st orders keys).state.foodCount = st.foodCount ∧
      (moveLoop st orders keys).state.foodMaxid = st.foodMaxid ∧
      meals (moveLoop st orders keys).outs = ∅ := by
  induction keys generalizing st with
  | nil => exact ⟨rfl, rfl, rfl, rfl⟩
  | cons p rest ih =>
    obtain ⟨hfoods, hcount, hmaxid, hsilent⟩ := moveBall_foods st orders p
    rcases hresult : moveBall st orders p with ⟨st', outs, raised⟩
    rw [hresult] at hfoods hcount hmaxid hsilent
    cases raised with
    | true =>
      simp only [moveLoop, hresult]
      exact ⟨hfoods, hcount, hmaxid, hsilent⟩
    | false =>
      obtain ⟨hfoods', hcount', hmaxid', hsilent'⟩ := ih st'
      simp only [moveLoop, hresult]
      refine ⟨hfoods'.trans hfoods, hcount'.trans hcount, hmaxid'.trans hmaxid, ?_⟩
      rw [meals_append, hsilent, hsilent', Finset.union_empty]

/-- Balls that have moved, some or all of them, have not eaten. -/
theorem moveUpdate_quiet (st : State Num Node Addr) (orders : Orders Num) :
    Quiet st (moveUpdate st orders).state (moveUpdate st orders).outs := by
  obtain ⟨hfoods, hcount, hmaxid, hsilent⟩ :=
    moveLoop_foods st orders (orders.move.order () st.balls.keys)
  refine ⟨hfoods, hcount, hmaxid, fun p b' hb' => ?_, hsilent⟩
  have hmap := map_moveLoop (f := fun b => (b.playerid, b.size)) (fun _ _ => rfl) (fun _ _ => rfl)
    st orders (orders.move.order () st.balls.keys) p
  have hb' : (moveLoop st orders (orders.move.order () st.balls.keys)).state.balls.lookup p =
      some b' := hb'
  rw [hb', Option.map_some] at hmap
  obtain ⟨b, hb, heq⟩ := Option.map_eq_some_iff.mp hmap.symm
  exact ⟨b, hb, (congrArg Prod.fst heq).symm, (congrArg Prod.snd heq).symm⟩

theorem Accounted.update {all : List (Out Num Node Addr)}
    {since : Num → List (Out Num Node Addr)} (h : Accounted all since st) (orders : Orders Num)
    (draw : ℕ) (x y : Num) : Accounted (all ++ (update st orders draw x y).outs)
      (fun p => since p ++ (update st orders draw x y).outs) (update st orders draw x y).state := by
  have hfood := h.foodUpdate orders draw x y
  unfold Scene.update
  rcases hfed : Scene.foodUpdate st orders draw x y with ⟨st₁, outs₁⟩
  rw [hfed] at hfood
  have hmove := hfood.quiet (moveUpdate_quiet st₁ orders)
  simp only [List.append_assoc] at hmove
  dsimp only
  rcases hmoved : moveUpdate st₁ orders with ⟨st₂, outs₂, raised⟩
  rw [hmoved] at hmove
  cases raised with
  | true => exact hmove
  | false =>
    have heat := hmove.eatersLoop orders (orders.eaters.order () st₂.balls.keys)
    simp only [List.append_assoc] at heat ⊢
    exact heat

end Moving

section History

/-- The outputs of a run, and those since each player in the scene has entered it. -/
def Booked (ls : List (Label Num Node Addr)) (st : State Num Node Addr) : Prop :=
  ∃ since : Num → List (Out Num Node Addr), Accounted (ls.flatMap Prod.snd) since st ∧
    ∀ p b, st.balls.lookup p = some b → SinceEnter p ls (since p)

theorem Booked.snoc {ls : List (Label Num Node Addr)} {l : Label Num Node Addr}
    {since : Num → List (Out Num Node Addr)}
    (h : Accounted (ls.flatMap Prod.snd ++ l.2) (fun p => since p ++ l.2) st')
    (hsince : ∀ p b, st'.balls.lookup p = some b → SinceEnter p ls (since p))
    (hl : ∀ p, ¬ Enters p l) : Booked (ls ++ [l]) st' := by
  refine ⟨fun p => since p ++ l.2, ?_, fun p b hb => (hsince p b hb).snoc (hl p)⟩
  rw [List.flatMap_append, List.flatMap_singleton]
  exact h

theorem Booked.quiet {ls : List (Label Num Node Addr)} {l : Label Num Node Addr}
    (h : Booked ls st) (hquiet : Quiet st st' l.2) (hl : ∀ p, ¬ Enters p l) :
    Booked (ls ++ [l]) st' := by
  obtain ⟨since, hacc, hsince⟩ := h
  refine Booked.snoc (hacc.quiet hquiet) (fun p b' hb' => ?_) hl
  obtain ⟨b, hb, -⟩ := hquiet.balls p b' hb'
  exact hsince p b hb

theorem Quiet.refl {outs : List (Out Num Node Addr)} (hsilent : meals outs = ∅) :
    Quiet st st outs :=
  ⟨rfl, rfl, rfl, fun _ b' hb' => ⟨b', hb', rfl, rfl⟩, hsilent⟩

theorem leave_quiet (orders : Orders Num) (p : Num) :
    Quiet st (leave st orders p).state (leave st orders p).outs := by
  unfold leave
  split
  · exact Quiet.refl rfl
  · refine ⟨rfl, rfl, rfl, fun q b' hb' => ⟨b', ?_, rfl, rfl⟩, ?_⟩
    · by_cases hq : q = p
      · rw [hq] at hb'
        exact absurd hb' (by simp)
      · exact (AList.lookup_erase_ne hq).symm.trans hb'
    · rw [meals_append, meals_broadcast_other nofun]
      rfl

theorem shift_quiet (p : Num) (x y : Value Num) :
    Quiet st (shift st p x y).state (shift st p x y).outs := by
  unfold shift
  cases hb : st.balls.lookup p with
  | none => exact Quiet.refl rfl
  | some b =>
    refine ⟨rfl, rfl, rfl, fun q b' hb' => ?_, rfl⟩
    have hb' : (st.setBall { b with speedx := x, speedy := y } p).balls.lookup q = some b' := hb'
    rw [lookup_setBall] at hb'
    by_cases hq : q = p
    · rw [if_pos hq] at hb'
      cases hb'
      exact ⟨b, by rw [hq, hb], rfl, rfl⟩
    · rw [if_neg hq] at hb'
      exact ⟨b', hb', rfl, rfl⟩

variable [LuaArith Num]

theorem Booked.enter {ls : List (Label Num Node Addr)} (h : Booked ls st)
    (orders : Orders Num) (p : Num) (node : Node) (agent : Addr) (x y : Num)
    (hp : st.balls.lookup p = none) :
    Booked (ls ++ [((.enter p node agent x y, orders), (enter st orders p node agent x y).outs)])
      (enter st orders p node agent x y).state := by
  obtain ⟨since, hacc, hsince⟩ := h
  have hstate : (Scene.enter st orders p node agent x y).state =
      st.setBall (ball p node agent x y) p := by simp only [Scene.enter, hp]
  have hsilent : meals (Scene.enter st orders p node agent x y).outs = ∅ := by
    simp only [Scene.enter, hp]
    rw [meals_append, meals_broadcast_other (by simp)]
    rfl
  have henters : ∀ q, Enters q ((.enter p node agent x y, orders),
      (Scene.enter st orders p node agent x y).outs) → q = p := by
    rintro q ⟨⟨_, _, _, _, heq⟩, _⟩
    cases heq
    rfl
  have henter : Enters p ((.enter p node agent x y, orders),
      (Scene.enter st orders p node agent x y).outs) :=
    ⟨⟨node, agent, x, y, rfl⟩, by simp [Scene.enter, hp]⟩
  rw [hstate]
  generalize (Scene.enter st orders p node agent x y).outs = outs at hsilent henters henter
  have hquiet := hacc.quiet (Quiet.refl hsilent)
  refine ⟨Function.update (fun q => since q ++ outs) p outs, ?_, fun q b hb => ?_⟩
  · rw [List.flatMap_append, List.flatMap_singleton]
    refine ⟨hquiet.count, hquiet.bound, hquiet.keys, hquiet.maxid, hquiet.named, hquiet.once,
      fun q b hb => ?_, fun q b hb => ?_, fun q b hb => ?_⟩ <;> rw [lookup_setBall] at hb <;>
      by_cases hq : q = p
    · rw [if_pos hq] at hb
      cases hb
      exact hq.symm
    · rw [if_neg hq] at hb
      exact hquiet.ids q b hb
    · rw [hq, Function.update_self, hsilent]
      exact Finset.empty_subset _
    · rw [if_neg hq] at hb
      rw [Function.update_of_ne hq]
      exact hquiet.recent q b hb
    · rw [if_pos hq] at hb
      cases hb
      rw [hq, Function.update_self, mealsOf, hsilent]
      rfl
    · rw [if_neg hq] at hb
      rw [Function.update_of_ne hq]
      exact hquiet.size q b hb
  · rw [lookup_setBall] at hb
    by_cases hq : q = p
    · rw [hq, Function.update_self]
      exact SinceEnter.enter ls henter
    · rw [if_neg hq] at hb
      rw [Function.update_of_ne hq]
      exact (hsince q b hb).snoc (mt (henters q) hq)

theorem Booked.step {ls : List (Label Num Node Addr)} {l : Label Num Node Addr}
    (h : Booked ls st) (hstep : Step st l st') : Booked (ls ++ [l]) st' := by
  obtain ⟨⟨op, orders⟩, outs⟩ := l
  have hnext := hstep.2
  simp only [next, Prod.mk.injEq] at hnext
  obtain ⟨rfl, rfl⟩ := hnext
  cases op with
  | enter p node agent x y =>
    cases hp : st.balls.lookup p with
    | none => exact h.enter orders p node agent x y hp
    | some b =>
      simp only [handle, Scene.enter, hp]
      refine h.quiet (Quiet.refl rfl) fun q henters => ?_
      simpa using henters.2
  | leave p =>
    refine h.quiet (leave_quiet orders p) ?_
    rintro q ⟨⟨_, _, _, _, heq⟩, _⟩
    cases heq
  | shift p x y =>
    refine h.quiet (shift_quiet p x y) ?_
    rintro q ⟨⟨_, _, _, _, heq⟩, _⟩
    cases heq
  | update draw x y =>
    obtain ⟨since, hacc, hsince⟩ := h
    refine Booked.snoc (hacc.update orders draw x y) (fun q b' hb' => ?_) ?_
    · have hspeeds : speeds (Scene.update st orders draw x y).state q = speeds st q := by
        rw [speeds_update]
      have hb' : (Scene.update st orders draw x y).state.balls.lookup q = some b' := hb'
      rw [speeds, hb', Option.map_some] at hspeeds
      obtain ⟨b, hb, -⟩ := Option.map_eq_some_iff.mp hspeeds.symm
      exact hsince q b hb
    · rintro q ⟨⟨_, _, _, _, heq⟩, _⟩
      cases heq

end History

section Issuing

variable [LuaArith Num]

/-- An operation puts a food under the id `fid`. -/
def Issues (st : State Num Node Addr) (ev : Event Num Node Addr) (fid : ℕ) : Prop :=
  ∃ draw x y, ev.1 = .update draw x y ∧ st.foods.lookup fid = none ∧
    ((foodUpdate st ev.2 draw x y).1.foods.lookup fid).isSome

theorem eatLoop_maxid (orders : Orders Num) (p : Num) (fids : List ℕ) :
    (eatLoop st orders p fids).1.foodMaxid = st.foodMaxid := by
  induction fids generalizing st with
  | nil => rfl
  | cons fid rest ih =>
    have hfood : (eatFood st orders p fid).1.foodMaxid = st.foodMaxid := by
      unfold eatFood
      split
      · split <;> rfl
      · rfl
    exact ih.trans hfood

theorem eatersLoop_maxid (orders : Orders Num) (keys : List Num) :
    (eatersLoop st orders keys).1.foodMaxid = st.foodMaxid := by
  induction keys generalizing st with
  | nil => rfl
  | cons p rest ih => exact ih.trans (eatLoop_maxid orders p _)

/-- Only `food_update` gives out ids. -/
theorem update_maxid (orders : Orders Num) (draw : ℕ) (x y : Num) :
    (update st orders draw x y).state.foodMaxid =
      (foodUpdate st orders draw x y).1.foodMaxid := by
  unfold update
  rcases foodUpdate st orders draw x y with ⟨st₁, outs₁⟩
  have hmove := (moveUpdate_quiet st₁ orders).foodMaxid
  dsimp only
  rcases hmoved : moveUpdate st₁ orders with ⟨st₂, outs₂, raised⟩
  rw [hmoved] at hmove
  cases raised with
  | true => exact hmove
  | false => exact (eatersLoop_maxid orders _).trans hmove

omit [LuaArith Num] in
variable (st) in
theorem foodUpdate_maxid (orders : Orders Num) (draw : ℕ) (x y : Num) :
    st.foodMaxid ≤ (foodUpdate st orders draw x y).1.foodMaxid ∧
      ∀ fid, st.foods.lookup fid = none →
        ((foodUpdate st orders draw x y).1.foods.lookup fid).isSome →
          fid = st.foodMaxid + 1 ∧ (foodUpdate st orders draw x y).1.foodMaxid = fid := by
  unfold foodUpdate
  split
  · refine ⟨le_rfl, fun fid hnone hsome => ?_⟩
    rw [hnone] at hsome
    cases hsome
  · split
    · refine ⟨le_rfl, fun fid hnone hsome => ?_⟩
      rw [hnone] at hsome
      cases hsome
    · refine ⟨Nat.le_succ _, fun fid hnone hsome => ?_⟩
      by_cases hfid : fid = st.foodMaxid + 1
      · exact ⟨hfid, hfid.symm⟩
      · have hsome : ((st.foods.insert (st.foodMaxid + 1) _).lookup fid).isSome := hsome
        rw [AList.lookup_insert_ne hfid, hnone] at hsome
        cases hsome

theorem maxid_step {l : Label Num Node Addr} (hstep : Step st l st') :
    st.foodMaxid ≤ st'.foodMaxid ∧
      ∀ fid, Issues st l.1 fid → fid = st.foodMaxid + 1 ∧ st'.foodMaxid = fid := by
  obtain ⟨⟨op, orders⟩, outs⟩ := l
  obtain rfl : (handle st orders op).state = st' := congrArg Prod.fst hstep.2
  cases op with
  | enter p node agent x y =>
    refine ⟨le_of_eq ?_, ?_⟩
    · simp only [handle, enter]
      split <;> rfl
    · rintro fid ⟨_, _, _, heq, _⟩
      cases heq
  | leave p =>
    refine ⟨le_of_eq (leave_quiet orders p).foodMaxid.symm, ?_⟩
    rintro fid ⟨_, _, _, heq, _⟩
    cases heq
  | shift p x y =>
    refine ⟨le_of_eq (shift_quiet p x y).foodMaxid.symm, ?_⟩
    rintro fid ⟨_, _, _, heq, _⟩
    cases heq
  | update draw x y =>
    obtain ⟨hle, hissues⟩ := foodUpdate_maxid st orders draw x y
    refine ⟨hle.trans (le_of_eq (update_maxid orders draw x y).symm), ?_⟩
    rintro fid ⟨_, _, _, heq, hnone, hsome⟩
    cases heq
    obtain ⟨hnext, hmaxid⟩ := hissues fid hnone hsome
    exact ⟨hnext, (update_maxid orders draw x y).trans hmaxid⟩

theorem maxid_run {ls : List (Label Num Node Addr)} (hrun : Run Step st ls st') :
    st.foodMaxid ≤ st'.foodMaxid :=
  Run.invariant (I := fun u => st.foodMaxid ≤ u.foodMaxid)
    (fun _ _ _ hu hstep => hu.trans (maxid_step hstep).1) le_rfl hrun

/-- The counter, the ids and the sizes agree with the table and with the messages. -/
structure FoodsAccounted (ls : List (Label Num Node Addr)) (st : State Num Node Addr) :
    Prop where
  count : st.foodCount = st.foods.entries.length
  bounds : 0 ≤ st.foodCount ∧ st.foodCount ≤ 51
  keys : ∀ fid f, st.foods.lookup fid = some f → f.id = fid ∧ 1 ≤ fid ∧ fid ≤ st.foodMaxid
  issued_once : ∀ before u l v after fid, Run Step init before u → Step u l v →
    Run Step v after st → Issues u l.1 fid → ∀ ev, ¬ Issues st ev fid
  conserved : (st.foodMaxid : ℤ) = st.foodCount + (meals (ls.flatMap Prod.snd)).card
  named_once : ∀ meal ∈ meals (ls.flatMap Prod.snd), ∀ meal' ∈ meals (ls.flatMap Prod.snd),
    meal.2.1 = meal'.2.1 → meal = meal'
  size : ∀ p b, st.balls.lookup p = some b →
    ∃ recent, SinceEnter p ls recent ∧ b.size = 2 + (mealsOf p recent).card

end Issuing

/-- In every state of every run of a scene the books of its foods are right. -/
theorem foods_accounted [LuaArith Num] {ls : List (Label Num Node Addr)}
    (hrun : Run Step init ls st) : FoodsAccounted ls st := by
  have hinit : Booked [] (init : State Num Node Addr) :=
    ⟨fun _ => [],
      ⟨rfl, (by decide : (0 : ℤ) ≤ 51), nofun, rfl, nofun, nofun, nofun, nofun, nofun⟩, nofun⟩
  have hbooked : Booked ([] ++ ls) st :=
    Run.invariant_history (I := Booked) (fun _ _ _ _ hu hstep => hu.step hstep) hinit hrun
  obtain ⟨since, hacc, hsince⟩ := hbooked
  have hnonneg : 0 ≤ st.foodCount := by
    rw [hacc.count]
    exact Int.natCast_nonneg _
  refine ⟨hacc.count, ⟨hnonneg, hacc.bound⟩, hacc.keys, ?_, hacc.maxid, hacc.once,
    fun p b hb => ⟨since p, hsince p b hb, hacc.size p b hb⟩⟩
  intro before u l v after fid _ hstep hafter hissues ev hagain
  have hfirst := ((maxid_step hstep).2 fid hissues).2
  have hlater := maxid_run hafter
  have hnext : Step st (ev, (next st ev).2) (next st ev).1 := ⟨trivial, rfl⟩
  have hsecond := ((maxid_step hnext).2 fid hagain).1
  omega

/-- A player enters a scene, and a food appears within his reach. -/
def firstMeal : List (Event ℚ ℕ ℕ) :=
  [(.enter 7 1 100 10 10, listed), (.update 98 10 11, listed)]

theorem foods_accounted_first_meal :
    ((exec next init firstMeal).balls.lookup 7).map Ball.size = some 3 ∧
      FoodsAccounted (trace next init firstMeal) (exec next init firstMeal) :=
  ⟨by decide +kernel, foods_accounted (run_exec firstMeal ⟨trivial, trivial, trivial⟩)⟩

end Ue4Background.Scene
