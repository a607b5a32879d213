import Ue4Background.LuaValues
import Ue4Background.Transition

/-!
A scene (`service/scene/init.lua`): the balls of its players, the foods, and the messages
to the agents of the players. Speeds are kept as they arrive, so `move_update` raises at a
speed that is not a number, which ends the frame. No send raises. Each use of `pairs` has
an order of its own.
-/

namespace Ue4Background.Scene

open LuaValues Transition

structure Ball (Num Node Addr : Type) where
  playerid : Num
  node : Node
  agent : Addr
  x : Num
  y : Num
  size : ℕ
  speedx : Value Num
  speedy : Value Num

structure Food (Num : Type) where
  id : ℕ
  x : Num
  y : Num

structure State (Num Node Addr : Type) where
  balls : Table Num (Ball Num Node Addr)
  foods : Table ℕ (Food Num)
  foodMaxid : ℕ
  foodCount : ℤ

/-- The messages of a scene; `entered` is `{"enter", 0, "进入成功"}`. -/
inductive SceneMsg (Num : Type)
  | balllist (balls : List (Num × Num × Num × ℕ))
  | foodlist (foods : List (ℕ × Num × Num))
  | enter (playerid x y : Num) (size : ℕ)
  | entered
  | leave (playerid : Num)
  | move (playerid x y : Num)
  | addfood (id : ℕ) (x y : Num)
  | eat (playerid : Num) (fid size : ℕ)

/-- Messages go to an agent by its node and address. -/
inductive Out (Num Node Addr : Type)
  | send (agent : Node × Addr) (msg : SceneMsg Num)
  | ret (answer : Option Bool)

structure Result (Num Node Addr : Type) where
  state : State Num Node Addr
  outs : List (Out Num Node Addr)
  raised : Bool

/-- The orders of `pairs` in one operation: in a broadcast, for the lists of `enter`, in
`move_update`, and in the two loops of `eat_update`. -/
structure Orders (Num : Type) where
  broadcast : Pairs (SceneMsg Num) Num
  balllist : Pairs Unit Num
  foodlist : Pairs Unit ℕ
  move : Pairs Unit Num
  eaters : Pairs Unit Num
  eaten : Pairs Num ℕ

variable {Num Node Addr : Type}

def init : State Num Node Addr := ⟨∅, ∅, 0, 0⟩

def Ball.address (b : Ball Num Node Addr) : Node × Addr := (b.node, b.agent)

variable [DecidableEq Num]

def broadcast (st : State Num Node Addr) (orders : Orders Num) (msg : SceneMsg Num) :
    List (Out Num Node Addr) :=
  ((orders.broadcast.order msg st.balls.keys).filterMap st.balls.lookup).map fun v =>
    .send v.address msg

def balllistMsg (st : State Num Node Addr) (orders : Orders Num) : SceneMsg Num :=
  .balllist (((orders.balllist.order () st.balls.keys).filterMap st.balls.lookup).map fun v =>
    (v.playerid, v.x, v.y, v.size))

def foodlistMsg (st : State Num Node Addr) (orders : Orders Num) : SceneMsg Num :=
  .foodlist (((orders.foodlist.order () st.foods.keys).filterMap st.foods.lookup).map fun v =>
    (v.id, v.x, v.y))

def State.setBall (st : State Num Node Addr) (b : Ball Num Node Addr) (p : Num) :
    State Num Node Addr :=
  { st with balls := st.balls.insert p b }

/-- The next food, under the next id. -/
def State.addFood (st : State Num Node Addr) (x y : Num) : State Num Node Addr :=
  { st with
    foodMaxid := st.foodMaxid + 1
    foodCount := st.foodCount + 1
    foods := st.foods.insert (st.foodMaxid + 1) ⟨st.foodMaxid + 1, x, y⟩ }

/-- `b.size = b.size+1` and `food_count = food_count -1` -/
def State.growBall (st : State Num Node Addr) (b : Ball Num Node Addr) (p : Num) :
    State Num Node Addr :=
  { st.setBall { b with size := b.size + 1 } p with foodCount := st.foodCount - 1 }

/-- `foods[fid] = nil` -/
def State.removeFood (st : State Num Node Addr) (fid : ℕ) : State Num Node Addr :=
  { st with foods := st.foods.erase fid }

def leave (st : State Num Node Addr) (orders : Orders Num) (p : Num) :
    Result Num Node Addr :=
  match st.balls.lookup p with
  | none => ⟨st, [.ret (some false)], false⟩
  | some _ =>
    let st' := { st with balls := st.balls.erase p }
    ⟨st', broadcast st' orders (.leave p) ++ [.ret none], false⟩

def shift (st : State Num Node Addr) (p : Num) (x y : Value Num) : Result Num Node Addr :=
  match st.balls.lookup p with
  | none => ⟨st, [.ret (some false)], false⟩
  | some b => ⟨st.setBall { b with speedx := x, speedy := y } p, [.ret none], false⟩

/-- `draw` is the draw of `math.random(1, 100)`, and `x` and `y` are those of the food. -/
def foodUpdate (st : State Num Node Addr) (orders : Orders Num) (draw : ℕ) (x y : Num) :
    State Num Node Addr × List (Out Num Node Addr) :=
  if st.foodCount > 50 then (st, [])
  else if draw < 98 then (st, [])
  else
    let st' := st.addFood x y
    (st', broadcast st' orders (.addfood st'.foodMaxid x y))

variable [LuaArith Num]

/-- `x` and `y` are the draws of `math.random(0, 100)` for the new ball. -/
def ball (playerid : Num) (node : Node) (agent : Addr) (x y : Num) : Ball Num Node Addr where
  playerid := playerid
  node := node
  agent := agent
  x := x
  y := y
  size := 2
  speedx := .num (LuaNumber.ofNat 0)
  speedy := .num (LuaNumber.ofNat 0)

def enter (st : State Num Node Addr) (orders : Orders Num) (p : Num) (node : Node) (agent : Addr)
    (x y : Num) : Result Num Node Addr :=
  match st.balls.lookup p with
  | some _ => ⟨st, [.ret (some false)], false⟩
  | none =>
    let b := ball p node agent x y
    let st' := st.setBall b p
    ⟨st', broadcast st orders (.enter p b.x b.y b.size) ++
      [.send b.address .entered, .send b.address (balllistMsg st' orders),
        .send b.address (foodlistMsg st' orders), .ret (some true)], false⟩

/-- `v.x = v.x +v.speedx * 0.2` -/
def Ball.moveX (v : Ball Num Node Addr) (speedx : Num) : Ball Num Node Addr :=
  { v with x := LuaArith.add v.x (LuaArith.mul speedx LuaArith.fifth) }

/-- `v.y =v.y +v.speedy *0.2` -/
def Ball.moveY (v : Ball Num Node Addr) (speedy : Num) : Ball Num Node Addr :=
  { v with y := LuaArith.add v.y (LuaArith.mul speedy LuaArith.fifth) }

/-- One turn of `move_update`; a speed that is not a number faults. -/
def moveBall (st : State Num Node Addr) (orders : Orders Num) (p : Num) :
    Result Num Node Addr :=
  match st.balls.lookup p with
  | none => ⟨st, [], false⟩
  | some v =>
    match v.speedx.toNumber with
    | none => ⟨st, [], true⟩
    | some speedx =>
      let v := v.moveX speedx
      match v.speedy.toNumber with
      | none => ⟨st.setBall v p, [], true⟩
      | some speedy =>
        let v := v.moveY speedy
        let st' := st.setBall v p
        if v.speedx ≠ .num (LuaNumber.ofNat 0) ∨ v.speedy ≠ .num (LuaNumber.ofNat 0) then
          ⟨st', broadcast st' orders (.move v.playerid v.x v.y), false⟩
        else ⟨st', [], false⟩

def moveLoop (st : State Num Node Addr) (orders : Orders Num) : List Num → Result Num Node Addr
  | [] => ⟨st, [], false⟩
  | p :: rest =>
    match moveBall st orders p with
    | ⟨st', outs, true⟩ => ⟨st', outs, true⟩
    | ⟨st', outs, false⟩ =>
      let r := moveLoop st' orders rest
      ⟨r.state, outs ++ r.outs, r.raised⟩

def moveUpdate (st : State Num Node Addr) (orders : Orders Num) : Result Num Node Addr :=
  moveLoop st orders (orders.move.order () st.balls.keys)

/-- `(b.x - f.x)^2 + (b.y - f.y)^2 < b.size^2` -/
def eats (b : Ball Num Node Addr) (f : Food Num) : Bool :=
  let two : Num := LuaNumber.ofNat 2
  LuaArith.lt
    (LuaArith.add (LuaArith.pow (LuaArith.sub b.x f.x) two)
      (LuaArith.pow (LuaArith.sub b.y f.y) two))
    (LuaArith.pow (LuaNumber.ofNat b.size) two)

/-- One turn of the inner loop of `eat_update`. -/
def eatFood (st : State Num Node Addr) (orders : Orders Num) (p : Num) (fid : ℕ) :
    State Num Node Addr × List (Out Num Node Addr) :=
  match st.balls.lookup p, st.foods.lookup fid with
  | some b, some f =>
    if eats b f = true then
      let st' := st.growBall b p
      (st'.removeFood fid, broadcast st' orders (.eat b.playerid fid (b.size + 1)))
    else (st, [])
  | _, _ => (st, [])

def eatLoop (st : State Num Node Addr) (orders : Orders Num) (p : Num) :
    List ℕ → State Num Node Addr × List (Out Num Node Addr)
  | [] => (st, [])
  | fid :: rest =>
    let (st', outs) := eatFood st orders p fid
    let (st'', outs') := eatLoop st' orders p rest
    (st'', outs ++ outs')

def eatersLoop (st : State Num Node Addr) (orders : Orders Num) :
    List Num → State Num Node Addr × List (Out Num Node Addr)
  | [] => (st, [])
  | p :: rest =>
    let (st', outs) := eatLoop st orders p (orders.eaten.order p st.foods.keys)
    let (st'', outs') := eatersLoop st' orders rest
    (st'', outs ++ outs')

def eatUpdate (st : State Num Node Addr) (orders : Orders Num) :
    State Num Node Addr × List (Out Num Node Addr) :=
  eatersLoop st orders (orders.eaters.order () st.balls.keys)

/-- One frame; `pcall` catches a fault of `move_update`. -/
def update (st : State Num Node Addr) (orders : Orders Num) (draw : ℕ) (x y : Num) :
    Result Num Node Addr :=
  let (st₁, outs₁) := foodUpdate st orders draw x y
  match moveUpdate st₁ orders with
  | ⟨st₂, outs₂, true⟩ => ⟨st₂, outs₁ ++ outs₂, true⟩
  | ⟨st₂, outs₂, false⟩ =>
    let (st₃, outs₃) := eatUpdate st₂ orders
    ⟨st₃, outs₁ ++ outs₂ ++ outs₃, false⟩

/-- The operations of a scene, with the random draws they make. -/
inductive Op (Num Node Addr : Type)
  | enter (playerid : Num) (node : Node) (agent : Addr) (x y : Num)
  | leave (playerid : Num)
  | shift (playerid : Num) (x y : Value Num)
  | update (draw : ℕ) (x y : Num)

/-- `msg[2] or 0` -/
def given (arg : Option Bytes) : Value Num := arg.elim (.num (LuaNumber.ofNat 0)) .str

/-- `s.client.shift`, with the call it makes. -/
def clientShift (p : Num) (msg : List Bytes) : Op Num Node Addr :=
  .shift p (given msg[1]?) (given msg[2]?)

/-- A shift brings numbers, or numerals. -/
def Numeric : Op Num Node Addr → Prop
  | .shift _ x y => x.toNumber.isSome ∧ y.toNumber.isSome
  | _ => True

abbrev Event (Num Node Addr : Type) := Op Num Node Addr × Orders Num

def handle (st : State Num Node Addr) (orders : Orders Num) :
    Op Num Node Addr → Result Num Node Addr
  | .enter p node agent x y => enter st orders p node agent x y
  | .leave p => leave st orders p
  | .shift p x y => shift st p x y
  | .update draw x y => update st orders draw x y

def next (st : State Num Node Addr) (ev : Event Num Node Addr) :
    State Num Node Addr × List (Out Num Node Addr) :=
  ((handle st ev.2 ev.1).state, (handle st ev.2 ev.1).outs)

abbrev Label (Num Node Addr : Type) := Event Num Node Addr × List (Out Num Node Addr)

/-- Every operation is possible at any time. -/
abbrev Step : State Num Node Addr → Label Num Node Addr → State Num Node Addr → Prop :=
  Fires (fun _ _ => True) next

end Ue4Background.Scene
