import Ue4Background.ParkingRecords
import Ue4Background.ParkingRoutes

/-!
Routes through the map of the unattended service after any calls that write to it. A write to a
row that is there stays for ever, so the map keeps its rectangle exactly if no call writes
beside it; a call for a row that is missing raises. On the rectangle the searches are those of
the rectangular lot, and their routes stay inside.
-/

namespace Ue4Background.Unattended

open LuaValues AStar ParkingLot

/-- What writes to the map. -/
inductive Write (Num : Type)
  | setRecord (now : ℤ) (r : Record Num)
  | changeMaps (i j : ℤ) (value : Num)

variable {Num : Type}

def Write.tile : Write Num → ℤ × ℤ × Num
  | .setRecord _ r => (r.i, r.j, r.value)
  | .changeMaps i j value => (i, j, value)

/-- The state after a call, whether it raises or not. -/
def Write.run (s : State Num) : Write Num → State Num
  | .setRecord now r => (setParkinglotRecord s now r).1
  | .changeMaps i j value =>
    { s with handler1 := (s.handler1.changeMaps i j value).getD s.handler1 }

def written (s : State Num) (writes : List (Write Num)) : State Num := writes.foldl Write.run s

/-- The call does not write beside the rectangle in one of its rows. -/
def Write.Within (width height : ℕ) (w : Write Num) : Prop :=
  1 ≤ w.tile.1 ∧ w.tile.1 ≤ height → 1 ≤ w.tile.2.1 ∧ w.tile.2.1 ≤ width

/-- `getNode` gets as far as `self.tiles[location.y][location.x]`. -/
def Reads (width height : ℕ) (location : Location) : Prop :=
  ¬ (location.x > width ∨ location.y > height) ∧ ¬ (location.x < 1 ∨ location.y < 1)

/-- The map is the rectangle, and searches neither read nor return a location beside it. -/
structure RoutesInside [DecidableEq Num] [LuaNumber Num] (tiles : Tiles Num) (width height : ℕ) :
    Prop where
  rectangle : tiles.Rectangle width height
  reads : ∀ w h, tiles.Lengths w h → ∀ location, Reads w h location →
    (tiles.cell location.y location.x).isSome = true
  nodes : ∀ w h, tiles.Lengths w h → ∀ pairs fuel fromlocation tolocation path,
    findPath (tiles.mapHandler w h) pairs fuel fromlocation tolocation = .found path →
      ∀ n ∈ path.nodes, (1 ≤ n.location.x ∧ n.location.x ≤ width) ∧
        1 ≤ n.location.y ∧ n.location.y ≤ height

theorem Write.run_handler1 (s : State Num) (w : Write Num) :
    (w.run s).handler1 =
      (s.handler1.changeMaps w.tile.1 w.tile.2.1 w.tile.2.2).getD s.handler1 := by
  cases w with
  | changeMaps i j value => rfl
  | setRecord now r =>
    change (setParkinglotRecord s now r).1.handler1 =
      (s.handler1.changeMaps r.i r.j r.value).getD s.handler1
    unfold setParkinglotRecord
    cases s.handler1.changeMaps r.i r.j r.value with
    | none => rfl
    | some tiles =>
      dsimp only
      split
      · rfl
      · split <;> rfl

/-- A cell that is there stays. -/
theorem isSome_cell_run {s : State Num} (w : Write Num) {i j : ℤ}
    (h : (s.handler1.cell i j).isSome = true) :
    ((w.run s).handler1.cell i j).isSome = true := by
  rw [w.run_handler1]
  cases hchange : s.handler1.changeMaps w.tile.1 w.tile.2.1 w.tile.2.2 with
  | none => exact h
  | some tiles =>
    rw [Option.getD_some, Tiles.cell_changeMaps hchange]
    split
    · rfl
    · exact h

theorem isSome_cell_written {s : State Num} (writes : List (Write Num)) {i j : ℤ}
    (h : (s.handler1.cell i j).isSome = true) :
    ((written s writes).handler1.cell i j).isSome = true := by
  induction writes generalizing s with
  | nil => exact h
  | cons w writes ih => exact ih (isSome_cell_run w h)

variable {s : State Num} {width height : ℕ}

/-- A write within the rectangle keeps it. -/
theorem rectangle_run (hs : s.handler1.Rectangle width height) {w : Write Num}
    (hw : w.Within width height) : (w.run s).handler1.Rectangle width height := by
  rw [w.run_handler1]
  cases hchange : s.handler1.changeMaps w.tile.1 w.tile.2.1 w.tile.2.2 with
  | none => exact hs
  | some tiles =>
    rw [Option.getD_some]
    refine ⟨fun i => ?_, fun i j => ?_⟩
    · rw [Tiles.isSome_rows_changeMaps hchange]
      exact hs.rows i
    · rw [Tiles.cell_changeMaps hchange]
      split
      · rename_i hij
        obtain ⟨rfl, rfl⟩ := hij
        have hrow : (s.handler1.rows w.tile.1).isSome = true := by
          obtain ⟨row, hrow, _⟩ := Option.map_eq_some_iff.mp hchange
          rw [hrow]
          rfl
        have hi := (hs.rows _).mp hrow
        exact iff_of_true rfl ⟨hi, hw hi⟩
      · exact hs.cells i j

/-- A write beside the rectangle makes a cell there. -/
theorem isSome_cell_beside (hs : s.handler1.Rectangle width height) {w : Write Num}
    (hw : ¬ w.Within width height) :
    ((w.run s).handler1.cell w.tile.1 w.tile.2.1).isSome = true ∧
      ¬ (1 ≤ w.tile.2.1 ∧ w.tile.2.1 ≤ width) := by
  obtain ⟨hi, hj⟩ := Classical.not_imp.mp hw
  obtain ⟨row, hrow⟩ := Option.isSome_iff_exists.mp ((hs.rows _).mpr hi)
  obtain ⟨tiles, hchange⟩ : ∃ tiles,
      s.handler1.changeMaps w.tile.1 w.tile.2.1 w.tile.2.2 = some tiles := by
    unfold Tiles.changeMaps
    rw [hrow]
    exact ⟨_, rfl⟩
  rw [w.run_handler1, hchange, Option.getD_some, Tiles.cell_changeMaps hchange, if_pos ⟨rfl, rfl⟩]
  exact ⟨rfl, hj⟩

theorem rectangle_written (hs : s.handler1.Rectangle width height) (writes : List (Write Num)) :
    (written s writes).handler1.Rectangle width height ↔
      ∀ w ∈ writes, w.Within width height := by
  induction writes generalizing s with
  | nil => exact iff_of_true hs fun w hw => by cases hw
  | cons w writes ih =>
    by_cases hw : w.Within width height
    · rw [List.forall_mem_cons, and_iff_right hw]
      exact ih (rectangle_run hs hw)
    · obtain ⟨hcell, hj⟩ := isSome_cell_beside hs hw
      have hlast := isSome_cell_written writes hcell
      refine iff_of_false (fun h => ?_) fun h => hw (h w List.mem_cons_self)
      exact hj ((h.cells _ _).mp hlast).2

variable [DecidableEq Num] [LuaNumber Num]

theorem routesInside_iff {tiles : Tiles Num} (hheight : 0 < height) :
    RoutesInside tiles width height ↔ tiles.Rectangle width height := by
  refine ⟨fun h => h.rectangle, fun h => ⟨h, ?_, ?_⟩⟩
  · rintro w k hlengths location ⟨hout, hin⟩
    obtain ⟨rfl, rfl⟩ := h.lengths hheight hlengths
    refine (h.cells _ _).mpr ⟨?_, ?_⟩ <;> omega
  · intro w k hlengths pairs fuel fromlocation tolocation path hpath n hn
    obtain ⟨rfl, rfl⟩ := h.lengths hheight hlengths
    rw [h.mapHandler_eq hheight] at hpath
    have hchain := findPath_chain (tiles.lot w hheight).handles pairs hpath
    have hfree := (tiles.lot w hheight).free_of_chain hchain n.location (List.mem_map_of_mem hn)
    obtain ⟨⟨hx, hx', hy, hy'⟩, _⟩ := hfree
    exact ⟨⟨hx, hx'⟩, hy, hy'⟩

/-- After any calls the map is its first rectangle and routes stay inside it exactly if no call
has written beside the rectangle in one of its rows. -/
theorem routes_inside (writes : List (Write Num)) :
    RoutesInside (written start writes).handler1 25 24 ↔ ∀ w ∈ writes, w.Within 25 24 :=
  (routesInside_iff (by omega)).trans (rectangle_written Tiles.rectangle_initialTiles writes)

/-- A tile of the first row right of the map. -/
def widened : State ℕ :=
  written start [.setRecord 1000 ⟨1, 26, 0, .int 1, .text (bytes "A1"), none⟩]

/-- The first row has become wider, and a route leads through rows that have not. -/
theorem route_outside :
    widened.handler1.Lengths 26 24 ∧ widened.handler1.cell 2 26 = none ∧
      (∃ path, findPath (widened.handler1.mapHandler 26 24) inOrder 2 ⟨26, 1⟩ ⟨26, 3⟩ =
          .found path ∧ path.nodes.map Node.location = [⟨26, 2⟩, ⟨26, 3⟩]) ∧
      ¬ RoutesInside widened.handler1 25 24 := by
  refine ⟨⟨⟨_, rfl, Or.inr rfl, rfl⟩, Or.inr rfl, rfl⟩, rfl, ⟨_, rfl, rfl⟩, fun h => ?_⟩
  have hcell : (widened.handler1.cell 1 26).isSome = true := rfl
  obtain ⟨_, _, hx⟩ := (h.rectangle.cells 1 26).mp hcell
  omega

end Ue4Background.Unattended
