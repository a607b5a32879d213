import Ue4Background.AStar

/-!
The map of a parking lot (`lualib/parkinglothandler.lua`): a rectangle of tiles with at
least one row, in rows counted from one. A tile is solid if its value is 1, 2 or 3.
-/

namespace Ue4Background.ParkingLot

open LuaValues AStar

structure Location where
  x : ℤ
  y : ℤ
  deriving DecidableEq

structure ParkingLotHandler (Num : Type) where
  width : ℕ
  height : ℕ
  tiles : Vector (Vector Num width) height
  hasRow : 0 < height

variable {Num : Type} [DecidableEq Num] [LuaNumber Num]

namespace ParkingLotHandler

/-- `self.tiles[y][x]` -/
def tile (lot : ParkingLotHandler Num) (x y : ℤ) : Option Num :=
  lot.tiles[(y - 1).toNat]?.bind fun row => row[(x - 1).toNat]?

def getNode (lot : ParkingLotHandler Num) (location : Location) : Option (Node Location) :=
  if location.x > lot.width ∨ location.y > lot.height then none
  else if location.x < 1 ∨ location.y < 1 then none
  else if lot.tile location.x location.y = some (LuaNumber.ofNat 1) ∨
      lot.tile location.x location.y = some (LuaNumber.ofNat 2) ∨
      lot.tile location.x location.y = some (LuaNumber.ofNat 3) then none
  else some ⟨location, 1, location.y * lot.width + location.x, 0, none⟩

def handleNode (lot : ParkingLotHandler Num) (x y : ℤ) (fromnode : Node Location)
    (destx desty : ℤ) : Option (Node Location) :=
  (lot.getNode ⟨x, y⟩).map fun n =>
    let dx := max x destx - min x destx
    let dy := max y desty - min y desty
    let emCost := dx + dy
    let mCost := n.mCost + fromnode.mCost
    { n with mCost := mCost, score := mCost + emCost, parent := some fromnode }

def getAdjacentNodes (lot : ParkingLotHandler Num) (curnode : Node Location) (dest : Location) :
    List (Node Location) :=
  let cl := curnode.location
  (lot.handleNode (cl.x + 1) cl.y curnode dest.x dest.y).toList ++
    (lot.handleNode (cl.x - 1) cl.y curnode dest.x dest.y).toList ++
    (lot.handleNode cl.x (cl.y + 1) curnode dest.x dest.y).toList ++
    (lot.handleNode cl.x (cl.y - 1) curnode dest.x dest.y).toList

def locationsAreEqual (a b : Location) : Bool := a.x = b.x && a.y = b.y

def mapHandler (lot : ParkingLotHandler Num) : MapHandler Location where
  getNode := lot.getNode
  getAdjacentNodes := lot.getAdjacentNodes
  locationsAreEqual := locationsAreEqual

end ParkingLotHandler

end Ue4Background.ParkingLot
