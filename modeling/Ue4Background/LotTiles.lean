import Mathlib.Data.Vector.Basic
import Ue4Background.ParkingLot

/-!
The map of a parking lot as the Lua table that `self.tiles` is: rows of cells under integer
keys, of which nothing is enumerated. `changeMaps` writes to any key of a row. The lengths that
`getNode` asks for are borders of the table and of its first row. While the table is a
rectangle, its handler is that of the rectangular lot.
-/

namespace Ue4Background.ParkingLot

open LuaValues AStar

/-- `#t` is a border of `t`. -/
def Border {V : Type} (t : ℤ → Option V) (n : ℕ) : Prop :=
  (n = 0 ∨ (t n).isSome = true) ∧ t (n + 1) = none

/-- `{v1, v2, ...}` -/
def constructor {V : Type} (vs : List V) (k : ℤ) : Option V :=
  if 1 ≤ k then vs[(k - 1).toNat]? else none

theorem isSome_constructor {V : Type} (vs : List V) (k : ℤ) :
    (constructor vs k).isSome = true ↔ 1 ≤ k ∧ k ≤ vs.length := by
  unfold constructor
  split
  · simp only [isSome_getElem?]
    omega
  · simp_all

theorem exists_of_constructor {V W : Type} {f : V → W} {vs : List V} {k : ℤ} {w : W}
    (h : constructor (vs.map f) k = some w) : ∃ v ∈ vs, f v = w := by
  unfold constructor at h
  split at h
  · exact List.mem_map.mp (List.mem_of_getElem? h)
  · cases h

/-- A sequence has one border. -/
theorem Border.eq {V : Type} {t : ℤ → Option V} {m n : ℕ}
    (hseq : ∀ k, (t k).isSome = true ↔ 1 ≤ k ∧ k ≤ n) (h : Border t m) : m = n := by
  obtain ⟨hlast, hnext⟩ := h
  have hnext' := hseq (m + 1)
  rw [hnext] at hnext'
  rcases hlast with rfl | hlast
  · simp at hnext'
    omega
  · have hlast' := (hseq m).mp hlast
    simp at hnext'
    omega

structure Tiles (Num : Type) where
  rows : ℤ → Option (ℤ → Option Num)

variable {Num : Type}

namespace Tiles

/-- `self.tiles[i][j]` where there is a row `i`. -/
def cell (tiles : Tiles Num) (i j : ℤ) : Option Num := (tiles.rows i).bind fun row => row j

/-- None where Lua raises, as it does for a missing row. -/
def changeMaps (tiles : Tiles Num) (i j : ℤ) (value : Num) : Option (Tiles Num) :=
  (tiles.rows i).map fun row =>
    ⟨Function.update tiles.rows i (some (Function.update row j (some value)))⟩

/-- What `#self.tiles[1]` and `#self.tiles` are. -/
def Lengths (tiles : Tiles Num) (width height : ℕ) : Prop :=
  (∃ row, tiles.rows 1 = some row ∧ Border row width) ∧ Border tiles.rows height

section Handler

variable [DecidableEq Num] [LuaNumber Num] (tiles : Tiles Num) (width height : ℕ)

/-- None where Lua raises. -/
def getNode (location : Location) : Option (Option (Node Location)) :=
  if location.x > width ∨ location.y > height then some none
  else if location.x < 1 ∨ location.y < 1 then some none
  else
    (tiles.rows location.y).map fun row =>
      if row location.x = some (LuaNumber.ofNat 1) ∨ row location.x = some (LuaNumber.ofNat 2) ∨
          row location.x = some (LuaNumber.ofNat 3) then none
      else some ⟨location, 1, location.y * width + location.x, 0, none⟩

def handleNode (x y : ℤ) (fromnode : Node Location) (destx desty : ℤ) :
    Option (Option (Node Location)) :=
  (tiles.getNode width height ⟨x, y⟩).map fun found =>
    found.map fun n =>
      let dx := max x destx - min x destx
      let dy := max y desty - min y desty
      let emCost := dx + dy
      let mCost := n.mCost + fromnode.mCost
      { n with mCost := mCost, score := mCost + emCost, parent := some fromnode }

def getAdjacentNodes (curnode : Node Location) (dest : Location) : Option (List (Node Location)) :=
  let cl := curnode.location
  do
    let right ← tiles.handleNode width height (cl.x + 1) cl.y curnode dest.x dest.y
    let left ← tiles.handleNode width height (cl.x - 1) cl.y curnode dest.x dest.y
    let below ← tiles.handleNode width height cl.x (cl.y + 1) curnode dest.x dest.y
    let above ← tiles.handleNode width height cl.x (cl.y - 1) curnode dest.x dest.y
    some (right.toList ++ left.toList ++ below.toList ++ above.toList)

/-- Where the table raises, the search is told of no node. -/
def mapHandler : MapHandler Location where
  getNode location := (tiles.getNode width height location).join
  getAdjacentNodes curnode dest := (tiles.getAdjacentNodes width height curnode dest).getD []
  locationsAreEqual := ParkingLotHandler.locationsAreEqual

end Handler

/-- A table of rows of natural numbers. -/
def ofRows [LuaNumber Num] (rows : List (List ℕ)) : Tiles Num :=
  ⟨constructor (rows.map fun row => constructor (row.map LuaNumber.ofNat))⟩

/-- The table that `ParkingLotHandler:initialize` makes. -/
def initialTiles [LuaNumber Num] : Tiles Num :=
  ofRows [
   [1, 1, 1, 1, 1, 1, 1, 1, 1, 1, 1, 1, 1, 1, 1, 1, 1, 1, 1, 1, 1, 1, 1, 1, 1],
   [1, 0, 0, 0, 1, 0, 0, 0, 0, 0, 0, 0, 0, 0, 0, 0, 0, 0, 0, 0, 0, 0, 0, 0, 1],
   [1, 0, 0, 0, 1, 0, 0, 0, 0, 0, 0, 0, 0, 0, 0, 0, 0, 0, 0, 0, 0, 0, 0, 0, 1],
   [1, 0, 0, 0, 1, 0, 0, 0, 0, 0, 0, 0, 0, 0, 0, 0, 0, 0, 0, 0, 0, 0, 0, 0, 1],
   [1, 0, 0, 0, 1, 0, 0, 0, 0, 0, 1, 1, 1, 1, 1, 1, 1, 0, 0, 0, 0, 0, 0, 0, 1],
   [1, 0, 0, 0, 1, 0, 0, 0, 0, 0, 1, 0, 0, 0, 0, 0, 1, 0, 0, 0, 0, 0, 0, 0, 1],
   [1, 0, 0, 0, 1, 0, 0, 0, 0, 0, 1, 0, 0, 0, 0, 0, 1, 1, 1, 1, 1, 1, 0, 0, 1],
   [1, 0, 0, 0, 1, 0, 0, 0, 0, 0, 1, 0, 0, 0, 0, 0, 0, 0, 0, 0, 0, 0, 0, 0, 1],
   [1, 0, 0, 0, 1, 0, 0, 0, 0, 0, 1, 0, 0, 0, 0, 0, 1, 0, 0, 0, 0, 0, 0, 0, 1],
   [1, 0, 0, 0, 1, 0, 0, 0, 0, 0, 1, 0, 0, 0, 0, 0, 1, 0, 0, 0, 0, 0, 0, 0, 1],
   [1, 0, 0, 0, 1, 0, 0, 0, 0, 0, 1, 0, 0, 0, 0, 0, 1, 0, 0, 0, 0, 0, 0, 0, 1],
   [1, 0, 0, 0, 1, 0, 0, 0, 0, 0, 1, 0, 0, 1, 1, 1, 1, 1, 1, 1, 1, 1, 1, 0, 1],
   [1, 0, 0, 0, 1, 0, 0, 0, 0, 0, 1, 0, 0, 1, 0, 0, 0, 0, 0, 0, 0, 0, 0, 0, 1],
   [1, 0, 0, 0, 1, 0, 0, 0, 0, 0, 1, 0, 0, 1, 0, 0, 0, 0, 0, 0, 0, 0, 0, 0, 1],
   [1, 0, 0, 0, 1, 0, 0, 0, 0, 0, 1, 0, 0, 1, 0, 0, 0, 0, 0, 0, 0, 0, 0, 0, 1],
   [1, 0, 0, 0, 1, 0, 0, 0, 0, 0, 1, 0, 0, 1, 0, 0, 0, 0, 0, 0, 0, 0, 0, 0, 1],
   [1, 0, 0, 0, 1, 0, 0, 0, 0, 0, 1, 0, 0, 1, 0, 0, 0, 0, 0, 0, 0, 0, 0, 0, 1],
   [1, 0, 0, 0, 1, 0, 0, 0, 0, 0, 0, 0, 0, 1, 0, 0, 0, 0, 0, 0, 0, 0, 0, 0, 1],
   [1, 0, 0, 0, 1, 0, 0, 0, 0, 0, 1, 0, 0, 1, 0, 1, 1, 1, 1, 1, 1, 1, 1, 1, 1],
   [1, 0, 0, 0, 1, 0, 0, 0, 0, 0, 1, 0, 0, 1, 0, 0, 0, 0, 0, 0, 0, 0, 0, 0, 1],
   [1, 0, 0, 0, 0, 0, 0, 0, 0, 0, 1, 0, 0, 1, 0, 0, 0, 0, 0, 0, 0, 0, 0, 0, 1],
   [1, 0, 0, 0, 0, 0, 0, 0, 0, 0, 1, 0, 0, 0, 0, 0, 0, 0, 0, 0, 0, 0, 0, 0, 1],
   [1, 0, 0, 0, 0, 0, 0, 0, 0, 0, 1, 0, 0, 0, 0, 0, 0, 0, 0, 0, 0, 0, 0, 0, 1],
   [1, 1, 1, 1, 1, 1, 1, 1, 1, 1, 1, 1, 1, 1, 1, 1, 1, 1, 1, 1, 1, 1, 1, 1, 1]]

/-- Every tile of the rectangle is there, and nothing else. -/
structure Rectangle (tiles : Tiles Num) (width height : ℕ) : Prop where
  rows : ∀ i, (tiles.rows i).isSome = true ↔ 1 ≤ i ∧ i ≤ height
  cells : ∀ i j, (tiles.cell i j).isSome = true ↔ (1 ≤ i ∧ i ≤ height) ∧ 1 ≤ j ∧ j ≤ width

theorem rectangle_ofRows [LuaNumber Num] {rows : List (List ℕ)} {width : ℕ}
    (hwidth : ∀ row ∈ rows, row.length = width) :
    Rectangle (ofRows rows : Tiles Num) width rows.length := by
  have hrows : ∀ i, ((ofRows rows : Tiles Num).rows i).isSome = true ↔ 1 ≤ i ∧ i ≤ rows.length := by
    intro i
    simp [ofRows, isSome_constructor]
  refine ⟨hrows, fun i j => ?_⟩
  rw [← hrows]
  unfold cell
  cases hrow : (ofRows rows : Tiles Num).rows i with
  | none => simp
  | some row =>
    obtain ⟨vs, hvs, rfl⟩ := exists_of_constructor hrow
    simp [isSome_constructor, hwidth vs hvs]

theorem rectangle_initialTiles [LuaNumber Num] : Rectangle (initialTiles : Tiles Num) 25 24 :=
  rectangle_ofRows (by decide)

theorem cell_changeMaps {tiles tiles' : Tiles Num} {i j : ℤ} {value : Num}
    (h : tiles.changeMaps i j value = some tiles') (i' j' : ℤ) :
    tiles'.cell i' j' = if i' = i ∧ j' = j then some value else tiles.cell i' j' := by
  obtain ⟨row, hrow, rfl⟩ := Option.map_eq_some_iff.mp h
  unfold cell
  by_cases hi : i' = i
  · subst hi
    by_cases hj : j' = j
    · subst hj
      simp
    · simp [hj, hrow]
  · simp [hi]

/-- No row is made or lost. -/
theorem isSome_rows_changeMaps {tiles tiles' : Tiles Num} {i j : ℤ} {value : Num}
    (h : tiles.changeMaps i j value = some tiles') (i' : ℤ) :
    (tiles'.rows i').isSome = (tiles.rows i').isSome := by
  obtain ⟨row, hrow, rfl⟩ := Option.map_eq_some_iff.mp h
  by_cases hi : i' = i
  · subst hi
    simp [hrow]
  · simp [hi]

/-- Writing what is there already changes nothing, and nothing else does. -/
theorem changeMaps_eq_self {tiles : Tiles Num} {i j : ℤ} {value : Num} {tiles' : Tiles Num}
    (h : tiles.changeMaps i j value = some tiles') :
    tiles' = tiles ↔ tiles.cell i j = some value := by
  constructor
  · rintro rfl
    have hcell := cell_changeMaps h i j
    rwa [if_pos ⟨rfl, rfl⟩] at hcell
  · intro hcell
    obtain ⟨row, hrow, rfl⟩ := Option.map_eq_some_iff.mp h
    have hvalue : row j = some value := by
      unfold cell at hcell
      rwa [hrow] at hcell
    rw [← hvalue, Function.update_eq_self, ← hrow, Function.update_eq_self]

/-- The rectangular lot of a table. -/
def lot [LuaNumber Num] (tiles : Tiles Num) (width : ℕ) {height : ℕ} (hheight : 0 < height) :
    ParkingLotHandler Num where
  width := width
  height := height
  tiles := Vector.ofFn fun y : Fin height => Vector.ofFn fun x : Fin width =>
    (tiles.cell (y + 1) (x + 1)).getD (LuaNumber.ofNat 0)
  hasRow := hheight

namespace Rectangle

variable {tiles : Tiles Num} {width height : ℕ}

theorem lengths (h : Rectangle tiles width height) (hheight : 0 < height) {w k : ℕ}
    (hlengths : Lengths tiles w k) : w = width ∧ k = height := by
  obtain ⟨⟨row, hrow, hborder⟩, hrows⟩ := hlengths
  refine ⟨hborder.eq fun j => ?_, hrows.eq h.rows⟩
  have hcell := h.cells 1 j
  unfold cell at hcell
  rw [hrow] at hcell
  simp only [Option.bind_some] at hcell
  rw [hcell]
  omega

section Handler

variable [LuaNumber Num]

theorem tile_lot (h : Rectangle tiles width height) (hheight : 0 < height) {x y : ℤ}
    (hx : 1 ≤ x ∧ x ≤ width) (hy : 1 ≤ y ∧ y ≤ height) :
    (tiles.lot width hheight).tile x y = tiles.cell y x := by
  have hcol : (x - 1).toNat < width := by omega
  have hrow : (y - 1).toNat < height := by omega
  have hsome := (h.cells y x).mpr ⟨hy, hx⟩
  obtain ⟨v, hv⟩ := Option.isSome_iff_exists.mp hsome
  have hx' : ((x - 1).toNat : ℤ) + 1 = x := by omega
  have hy' : ((y - 1).toNat : ℤ) + 1 = y := by omega
  let ts : Vector (Vector Num width) height := (tiles.lot width hheight).tiles
  change (ts[(y - 1).toNat]?.bind fun row => row[(x - 1).toNat]?) = tiles.cell y x
  rw [Vector.getElem?_eq_getElem hrow, Option.bind_some, Vector.getElem?_eq_getElem hcol]
  simp only [ts, lot, Vector.getElem_ofFn]
  rw [hx', hy', hv, Option.getD_some]

variable [DecidableEq Num]

theorem getNode_eq (h : Rectangle tiles width height) (hheight : 0 < height)
    (location : Location) :
    tiles.getNode width height location = some ((tiles.lot width hheight).getNode location) := by
  have hwidth : (tiles.lot width hheight).width = width := rfl
  have hrows : (tiles.lot width hheight).height = height := rfl
  unfold getNode ParkingLotHandler.getNode
  rw [hwidth, hrows]
  by_cases hout : location.x > width ∨ location.y > height
  · rw [if_pos hout, if_pos hout]
  · by_cases hin : location.x < 1 ∨ location.y < 1
    · rw [if_neg hout, if_neg hout, if_pos hin, if_pos hin]
    · have hx : 1 ≤ location.x ∧ location.x ≤ width := by omega
      have hy : 1 ≤ location.y ∧ location.y ≤ height := by omega
      obtain ⟨row, hrow⟩ := Option.isSome_iff_exists.mp ((h.rows location.y).mpr hy)
      have hcell : tiles.cell location.y location.x = row location.x := by
        unfold cell
        rw [hrow, Option.bind_some]
      rw [if_neg hout, if_neg hout, if_neg hin, if_neg hin, hrow, Option.map_some,
        h.tile_lot hheight hx hy, hcell]

theorem mapHandler_eq (h : Rectangle tiles width height) (hheight : 0 < height) :
    tiles.mapHandler width height = (tiles.lot width hheight).mapHandler := by
  have hnode : ∀ x y u destx desty, tiles.handleNode width height x y u destx desty =
      some ((tiles.lot width hheight).handleNode x y u destx desty) := by
    intro x y u destx desty
    unfold handleNode ParkingLotHandler.handleNode
    rw [h.getNode_eq hheight]
    rfl
  unfold mapHandler ParkingLotHandler.mapHandler
  congr
  · funext location
    rw [h.getNode_eq hheight, Option.join_some]
  · funext curnode dest
    unfold getAdjacentNodes ParkingLotHandler.getAdjacentNodes
    simp [hnode]

end Handler

end Rectangle

end Tiles

end Ue4Background.ParkingLot
