import Mathlib.Data.Finset.Prod
import Mathlib.Data.Int.Interval
import Ue4Background.ParkingLot
import Ue4Background.SearchEnds

/-!
Routes through a parking lot. A tile is free when it lies on the map and is not solid, and
a route steps between neighbouring free tiles. The Manhattan distance is a consistent
estimate of the steps to the goal, so the search returns shortest routes. It ends after at
most one turn for each free tile, and it finds a route whenever there is one.
-/

namespace Ue4Background.ParkingLot

open LuaValues AStar ShortestWalk

def Adjacent (u v : Location) : Prop :=
  (v.x = u.x + 1 ∧ v.y = u.y) ∨ (v.x = u.x - 1 ∧ v.y = u.y) ∨
    (v.x = u.x ∧ v.y = u.y + 1) ∨ (v.x = u.x ∧ v.y = u.y - 1)

/-- The Manhattan distance. -/
def distance (v goal : Location) : ℕ := (v.x - goal.x).natAbs + (v.y - goal.y).natAbs

theorem max_sub_min (a b : ℤ) : max a b - min a b = (a - b).natAbs := by
  omega

theorem distance_adjacent {u v : Location} (h : Adjacent u v) (goal : Location) :
    distance u goal ≤ distance v goal + 1 := by
  unfold distance
  rcases h with ⟨hx, hy⟩ | ⟨hx, hy⟩ | ⟨hx, hy⟩ | ⟨hx, hy⟩
  all_goals
    rw [hx, hy]
    omega

theorem distance_pos {v goal : Location} (h : v ≠ goal) : 0 < distance v goal := by
  by_contra hzero
  have hx : v.x = goal.x := by
    unfold distance at hzero
    omega
  have hy : v.y = goal.y := by
    unfold distance at hzero
    omega
  apply h
  cases v
  cases goal
  simp_all

variable {Num : Type}

namespace ParkingLotHandler

def Inside (lot : ParkingLotHandler Num) (v : Location) : Prop :=
  1 ≤ v.x ∧ v.x ≤ lot.width ∧ 1 ≤ v.y ∧ v.y ≤ lot.height

def lid (lot : ParkingLotHandler Num) (v : Location) : ℤ := v.y * lot.width + v.x

/-- The ids of a row come before those of the next. -/
theorem lid_lt (lot : ParkingLotHandler Num) {u v : Location} (hu : lot.Inside u)
    (hv : lot.Inside v) (h : u.y < v.y) : lot.lid u < lot.lid v := by
  obtain ⟨_, hux, _, _⟩ := hu
  obtain ⟨hvx, _, _, _⟩ := hv
  have hrow := Int.mul_le_mul_of_nonneg_right (Int.add_one_le_of_lt h)
    (Int.natCast_nonneg lot.width)
  rw [Int.add_mul, Int.one_mul] at hrow
  unfold lid
  omega

theorem lid_injective (lot : ParkingLotHandler Num) {u v : Location} (hu : lot.Inside u)
    (hv : lot.Inside v) (h : lot.lid u = lot.lid v) : u = v := by
  rcases Int.lt_trichotomy u.y v.y with hlt | heq | hgt
  · have hlid := lot.lid_lt hu hv hlt
    omega
  · have hx : u.x = v.x := by
      unfold lid at h
      rw [heq] at h
      omega
    cases u
    cases v
    simp_all
  · have hlid := lot.lid_lt hv hu hgt
    omega

variable [LuaNumber Num]

/-- On the map, with a tile that is none of 1, 2 and 3. -/
def Free (lot : ParkingLotHandler Num) (v : Location) : Prop :=
  lot.Inside v ∧ ∀ k ∈ [1, 2, 3], lot.tile v.x v.y ≠ some (LuaNumber.ofNat k)

def FreeStep (lot : ParkingLotHandler Num) (u v : Location) : Prop :=
  Adjacent u v ∧ lot.Free u ∧ lot.Free v

theorem free_of_chain (lot : ParkingLotHandler Num) {u : Location} {locs : List Location}
    (h : List.IsChain lot.FreeStep (u :: locs)) : ∀ v ∈ locs, lot.Free v := by
  induction locs generalizing u with
  | nil => simp
  | cons w rest ih =>
    obtain ⟨⟨_, _, hfree⟩, hrest⟩ := List.isChain_cons_cons.mp h
    intro v hv
    rcases List.mem_cons.mp hv with rfl | hv
    · exact hfree
    · exact ih hrest v hv

def terrain (lot : ParkingLotHandler Num) : Terrain Location where
  free := lot.Free
  adj := lot.FreeStep
  lid := lot.lid
  estimate := distance
  adj_free u v h := h.2
  lid_injective u v hu hv h := lot.lid_injective hu.1 hv.1 h
  consistent goal u v h := distance_adjacent h.1 goal
  estimate_self goal := by simp [distance]
  estimate_pos v goal h := distance_pos h

variable [DecidableEq Num]

instance Free.decidable (lot : ParkingLotHandler Num) (v : Location) : Decidable (lot.Free v) :=
  inferInstanceAs (Decidable ((1 ≤ v.x ∧ v.x ≤ lot.width ∧ 1 ≤ v.y ∧ v.y ≤ lot.height) ∧
    ∀ k ∈ [1, 2, 3], lot.tile v.x v.y ≠ some (LuaNumber.ofNat k)))

def freeTiles (lot : ParkingLotHandler Num) : Finset Location :=
  ((Finset.range lot.width ×ˢ Finset.range lot.height).image
    fun xy => ⟨xy.1 + 1, xy.2 + 1⟩).filter lot.Free

theorem mem_freeTiles (lot : ParkingLotHandler Num) (v : Location) :
    v ∈ lot.freeTiles ↔ lot.Free v := by
  simp only [freeTiles, Finset.mem_filter, and_iff_right_iff_imp]
  rintro ⟨⟨hx, hx', hy, hy'⟩, _⟩
  refine Finset.mem_image.mpr ⟨((v.x - 1).toNat, (v.y - 1).toNat), ?_, ?_⟩
  · refine Finset.mem_product.mpr ⟨Finset.mem_range.mpr ?_, Finset.mem_range.mpr ?_⟩ <;> omega
  · obtain ⟨x, y⟩ := v
    simp only [Location.mk.injEq] at hx hy ⊢
    omega

theorem getNode_eq_some (lot : ParkingLotHandler Num) (v : Location) (n : Node Location) :
    lot.getNode v = some n ↔ lot.Free v ∧ n = lot.terrain.root v := by
  unfold getNode
  split
  · rename_i hout
    have hfree : ¬ lot.Free v := by
      rintro ⟨⟨_, hx, _, hy⟩, _⟩
      omega
    simp [hfree]
  · split
    · rename_i hout
      have hfree : ¬ lot.Free v := by
        rintro ⟨⟨hx, _, hy, _⟩, _⟩
        omega
      simp [hfree]
    · split
      · rename_i hsolid
        have hfree : ¬ lot.Free v := by
          rintro ⟨_, htile⟩
          rcases hsolid with h | h | h
          · exact htile 1 (by simp) h
          · exact htile 2 (by simp) h
          · exact htile 3 (by simp) h
        simp [hfree]
      · rename_i hright hleft hsolid
        have hfree : lot.Free v := by
          refine ⟨⟨by omega, by omega, by omega, by omega⟩, ?_⟩
          intro k hk htile
          simp only [List.mem_cons, List.not_mem_nil, or_false] at hk
          rcases hk with rfl | rfl | rfl
          · exact hsolid (Or.inl htile)
          · exact hsolid (Or.inr (Or.inl htile))
          · exact hsolid (Or.inr (Or.inr htile))
        simp [hfree, Terrain.root, terrain, lid, eq_comm]

theorem handleNode_eq_some (lot : ParkingLotHandler Num) (v : Location) (u : Node Location)
    (goal : Location) (n : Node Location) :
    lot.handleNode v.x v.y u goal.x goal.y = some n ↔
      lot.Free v ∧ n = lot.terrain.child u goal v := by
  unfold handleNode
  simp only [Option.map_eq_some_iff, getNode_eq_some]
  constructor
  · rintro ⟨n', ⟨hfree, rfl⟩, rfl⟩
    refine ⟨hfree, ?_⟩
    simp [Terrain.child, Terrain.root, terrain, max_sub_min, distance]
  · rintro ⟨hfree, rfl⟩
    refine ⟨_, ⟨hfree, rfl⟩, ?_⟩
    simp [Terrain.child, Terrain.root, terrain, max_sub_min, distance]

theorem handles (lot : ParkingLotHandler Num) : Handles lot.mapHandler lot.terrain where
  getNode := lot.getNode_eq_some
  getAdjacentNodes u goal n hu := by
    have hside : ∀ x y, lot.handleNode x y u goal.x goal.y = some n ↔
        lot.Free ⟨x, y⟩ ∧ n = lot.terrain.child u goal ⟨x, y⟩ :=
      fun x y => lot.handleNode_eq_some ⟨x, y⟩ u goal n
    simp only [mapHandler, getAdjacentNodes, List.mem_append, Option.mem_toList, hside]
    constructor
    · rintro (((⟨hfree, rfl⟩ | ⟨hfree, rfl⟩) | ⟨hfree, rfl⟩) | ⟨hfree, rfl⟩)
      · exact ⟨⟨u.location.x + 1, u.location.y⟩, ⟨Or.inl ⟨rfl, rfl⟩, hu, hfree⟩, rfl⟩
      · exact ⟨⟨u.location.x - 1, u.location.y⟩, ⟨Or.inr (Or.inl ⟨rfl, rfl⟩), hu, hfree⟩, rfl⟩
      · exact ⟨⟨u.location.x, u.location.y + 1⟩,
          ⟨Or.inr (Or.inr (Or.inl ⟨rfl, rfl⟩)), hu, hfree⟩, rfl⟩
      · exact ⟨⟨u.location.x, u.location.y - 1⟩,
          ⟨Or.inr (Or.inr (Or.inr ⟨rfl, rfl⟩)), hu, hfree⟩, rfl⟩
    · rintro ⟨⟨x, y⟩, ⟨hadjacent, _, hfree⟩, rfl⟩
      rcases hadjacent with ⟨hx, hy⟩ | ⟨hx, hy⟩ | ⟨hx, hy⟩ | ⟨hx, hy⟩ <;>
        dsimp only at hx hy <;> subst hx hy
      · exact Or.inl (Or.inl (Or.inl ⟨hfree, rfl⟩))
      · exact Or.inl (Or.inl (Or.inr ⟨hfree, rfl⟩))
      · exact Or.inl (Or.inr ⟨hfree, rfl⟩)
      · exact Or.inr ⟨hfree, rfl⟩
  locationsAreEqual a b := by
    cases a
    cases b
    simp [mapHandler, locationsAreEqual]

end ParkingLotHandler

/-- A chain of free tiles from `fromlocation` to `tolocation` that no walk undercuts. -/
structure ShortestRoute [LuaNumber Num] (lot : ParkingLotHandler Num)
    (fromlocation tolocation : Location) (path : Path Location) : Prop where
  free : ∀ n ∈ path.nodes, lot.Free n.location
  chain : List.IsChain Adjacent (fromlocation :: path.nodes.map Node.location)
  last : (path.nodes.map Node.location).getLast? = some tolocation
  shortest : ∀ k, Walk lot.FreeStep fromlocation k tolocation → path.nodes.length ≤ k
  cost : path.totalCost = path.nodes.length + 1

variable [DecidableEq Num] [LuaNumber Num]

/-- Every path that `findPath` returns is a shortest route over free tiles. -/
theorem findPath_shortest (lot : ParkingLotHandler Num) (pairs : Pairs ℕ (Node Location)) (fuel : ℕ)
    {fromlocation tolocation : Location} {path : Path Location}
    (hne : fromlocation ≠ tolocation)
    (hpath : findPath lot.mapHandler pairs fuel fromlocation tolocation = .found path) :
    ShortestRoute lot fromlocation tolocation path := by
  have hshortest := findPath_found lot.handles pairs hne hpath
  refine ⟨?_, hshortest.chain.imp fun _ _ h => h.1, hshortest.last, hshortest.shortest,
    hshortest.cost⟩
  intro n hn
  exact lot.free_of_chain hshortest.chain n.location (List.mem_map_of_mem hn)

/-- A corridor around one solid tile. -/
def corridor : ParkingLotHandler ℕ := ⟨3, 2, #v[#v[0, 1, 0], #v[0, 0, 0]], by decide⟩

def inOrder : Pairs ℕ (Node Location) := ⟨fun _ nodes => nodes, fun _ nodes => List.Perm.refl nodes⟩

theorem findPath_shortest_corridor :
    ∃ path, findPath corridor.mapHandler inOrder 10 ⟨1, 1⟩ ⟨3, 1⟩ = .found path ∧
      path.nodes.map Node.location = [⟨1, 2⟩, ⟨2, 2⟩, ⟨3, 2⟩, ⟨3, 1⟩] ∧
      ShortestRoute corridor ⟨1, 1⟩ ⟨3, 1⟩ path :=
  ⟨_, rfl, rfl, findPath_shortest corridor inOrder 10 (by decide) rfl⟩

/-- No location is expanded twice, and none is open and closed at once, not even while the
neighbours of a node are handled; so there are at most as many calls of `_handleNode` as
free tiles, and with that many turns the search ends. It finds a path exactly if there is
one. -/
theorem findPath_complete (lot : ParkingLotHandler Num) (pairs : Pairs ℕ (Node Location))
    {fromlocation tolocation : Location} (hne : fromlocation ≠ tolocation) :
    (∀ fuel,
      (calls lot.mapHandler pairs fuel fromlocation tolocation).length ≤ lot.freeTiles.card ∧
      ((calls lot.mapHandler pairs fuel fromlocation tolocation).map
        fun call => call.2.lid).Nodup ∧
      ∀ call ∈ calls lot.mapHandler pairs fuel fromlocation tolocation, Apart call.1 ∧
        ∀ nodes,
          Apart (AStar.handleNodes lot.mapHandler tolocation (call.1.close call.2) nodes).1) ∧
    ∀ fuel, lot.freeTiles.card ≤ fuel →
      (findPath lot.mapHandler pairs fuel fromlocation tolocation = .notFound ↔
        ¬ lot.Free fromlocation ∨ ∀ n, ¬ Walk lot.FreeStep fromlocation n tolocation) ∧
      (findPath lot.mapHandler pairs fuel fromlocation tolocation ≠ .notFound →
        ∃ path, findPath lot.mapHandler pairs fuel fromlocation tolocation = .found path) := by
  refine ⟨fun fuel => ?_, fun fuel hfuel => ?_⟩
  · obtain ⟨hfresh, hnodup⟩ := calls_fresh lot.handles pairs fuel hne
    refine ⟨calls_length lot.handles pairs fuel hne fun v => (lot.mem_freeTiles v).mpr, hnodup, ?_⟩
    intro call hcall
    have hapart := (hfresh call hcall).apart
    exact ⟨hapart, fun nodes => (handleNodes_apart (hapart.close call.2) nodes).1⟩
  · rcases findPath_ends lot.handles pairs hne (fun v => (lot.mem_freeTiles v).mpr) hfuel with
      ⟨hnot, hwhy⟩ | ⟨path, n, hfound, hfree, hwalk⟩
    · exact ⟨⟨fun _ => hwhy, fun _ => hnot⟩, fun h => absurd hnot h⟩
    · refine ⟨⟨fun h => ?_, fun h => ?_⟩, fun _ => ⟨path, hfound⟩⟩
      · rw [hfound] at h
        cases h
      · rcases h with hnotFree | hnoWalk
        · exact absurd hfree hnotFree
        · exact absurd hwalk (hnoWalk n)

/-- A solid tile between two free ones. -/
def wall : ParkingLotHandler ℕ := ⟨3, 1, #v[#v[0, 1, 0]], by decide⟩

theorem findPath_complete_wall :
    findPath wall.mapHandler inOrder 2 ⟨1, 1⟩ ⟨3, 1⟩ = .notFound ∧
      ∀ n, ¬ Walk wall.FreeStep ⟨1, 1⟩ n ⟨3, 1⟩ := by
  have hcard : wall.freeTiles.card ≤ 2 := by decide
  have hnot : findPath wall.mapHandler inOrder 2 ⟨1, 1⟩ ⟨3, 1⟩ = .notFound := rfl
  have hwhy := (((findPath_complete wall inOrder (by decide)).2 2 hcard).1.mp hnot)
  exact ⟨hnot, hwhy.resolve_left (not_not.mpr (by decide))⟩

end Ue4Background.ParkingLot
