import Ue4Background.DataServices
import Ue4Background.LotTiles

/-!
The records of parked cars (`set_parkinglot_record` and `get_parking_car_info` in
`service/unattended/init.lua`). `parking_car` is a table of tables of tables. The setter writes
the map of the lot first, then makes the tables that are missing, and then fills a cell, which
it never makes; so the first two writes stay when the third raises.
-/

namespace Ue4Background.Unattended

open LuaValues Protobuf DataHandlers DataServices ParkingLot

/-- A Lua table under integers and strings that nothing enumerates. -/
abbrev Assoc (V : Type) := Scalar → Option V

/-- `{}` -/
def Assoc.empty {V : Type} : Assoc V := fun _ => none

/-- By floor, row, column and field. -/
abbrev ParkingCar := Assoc (Assoc (Assoc (Assoc Scalar)))

/-- There is one map, whatever the floor. -/
structure State (Num : Type) where
  handler1 : Tiles Num
  parkingCar : ParkingCar

/-- The arguments of `set_parkinglot_record`. -/
structure Record (Num : Type) where
  i : ℤ
  j : ℤ
  value : Num
  floor : Scalar
  id : Scalar
  time : Option Scalar

variable {Num : Type}

/-- `parking_car[floor][i][j]` where all of it is there. -/
def ParkingCar.cell (cars : ParkingCar) (floor : Scalar) (i j : ℤ) : Option (Assoc Scalar) :=
  ((cars floor).bind fun rows => rows (.int i)).bind fun row => row (.int j)

/-- The two tests of the setter. The second one asks for `parking_car[floor][i]` and makes
`parking_car[i]`. -/
def ParkingCar.prepare (cars : ParkingCar) (floor : Scalar) (i : ℤ) : ParkingCar :=
  let cars := if (cars floor).isNone then Function.update cars floor (some Assoc.empty) else cars
  if ((cars floor).bind fun rows => rows (.int i)).isNone then
    Function.update cars (.int i) (some Assoc.empty)
  else cars

/-- `parking_car[floor][i][j]` is there, and is changed in place. -/
def ParkingCar.modify (cars : ParkingCar) (floor : Scalar) (i j : ℤ)
    (f : Assoc Scalar → Assoc Scalar) : ParkingCar :=
  Function.update cars floor <| (cars floor).map fun rows =>
    Function.update rows (.int i) <| (rows (.int i)).map fun row =>
      Function.update row (.int j) <| (row (.int j)).map f

/-- The state and whether the call completes, or else raises. -/
def setParkinglotRecord (s : State Num) (now : ℤ) (r : Record Num) : State Num × Bool :=
  match s.handler1.changeMaps r.i r.j r.value with
  | none => (s, false)
  | some tiles =>
    let cars := s.parkingCar.prepare r.floor r.i
    if (cars.cell r.floor r.i r.j).isNone then (⟨tiles, cars⟩, false)
    else
      let cars := cars.modify r.floor r.i r.j fun cell => Function.update cell r.id (some r.id)
      match r.time with
      | none => (⟨tiles, cars⟩, false)
      | some time =>
        (⟨tiles, cars.modify r.floor r.i r.j fun cell =>
          Function.update cell time (some (.int now))⟩, true)

/-- What `get_parking_car_info` finds, before it is encoded. -/
inductive CarInfo
  | empty
  | car (id : Option Scalar) (time : ℤ)

/-- The globals `id` and `time`, which nothing sets. -/
def idKey : Option Scalar := none
def timeKey : Option Scalar := none

/-- `os.time() - v`; none where Lua raises. -/
def elapsed (lua : Conversions) (now : ℤ) : Scalar → Option ℤ
  | .int n => some (now - n)
  | .text s => (lua.integer s).map fun n => now - n

/-- None where Lua raises. -/
def parkingCarInfo (lua : Conversions) (s : State Num) (now : ℤ) (floor : Scalar) (i j : ℤ) :
    Option CarInfo :=
  match (s.parkingCar floor).bind fun rows => rows (.int i) with
  | none => some .empty
  | some row => do
    let rows ← s.parkingCar (.int i)
    match rows (.int j) with
    | none => some .empty
    | some _ =>
      let cell ← row (.int j)
      let v ← timeKey.bind cell
      let time ← elapsed lua now v
      some (.car (idKey.bind cell) time)

def getParkingCarInfo (env : Env) (s : State Num) (now : ℤ) (floor : Scalar) (i j : ℤ) :
    Option Ret :=
  (parkingCarInfo env.lua s now floor i j).bind fun
    | .empty => some (.str (bytes "empty"))
    | .car id time =>
      (flat "unattended.Parking_car_info").bind fun members =>
        (encodeRow env members [bytes "id", bytes "time"]
          ((id.map fun v => (bytes "id", v)).toList ++ [(bytes "time", .int time)])).map .str

/-- `getMaps` for a floor. -/
def State.mapOf (s : State Num) (_floor : Scalar) : Tiles Num := s.handler1

/-- A call that raises changes nothing, and one that completes can be read back. -/
def StoredAtomically (env : Env) (s : State Num) (now : ℤ) (r : Record Num) : Prop :=
  match setParkinglotRecord s now r with
  | (s', false) => s' = s
  | (s', true) =>
    (∀ later, parkingCarInfo env.lua s' later r.floor r.i r.j =
      some (.car (some r.id) (later - now))) ∧
    (∀ later floor i j, (floor, i, j) ≠ (r.floor, r.i, r.j) →
      getParkingCarInfo env s' later floor i j = getParkingCarInfo env s later floor i j) ∧
    ∀ floor, floor ≠ r.floor → s'.mapOf floor = s.mapOf floor

namespace ParkingCar

variable {cars : ParkingCar} {floor : Scalar} {i j : ℤ}

theorem cell_eq_some {cell : Assoc Scalar} :
    cars.cell floor i j = some cell ↔ ∃ rows row, cars floor = some rows ∧
      rows (.int i) = some row ∧ row (.int j) = some cell := by
  unfold ParkingCar.cell
  constructor
  · intro h
    obtain ⟨row, hrow, hcell⟩ := Option.bind_eq_some_iff.mp h
    obtain ⟨rows, hrows, hrow⟩ := Option.bind_eq_some_iff.mp hrow
    exact ⟨rows, row, hrows, hrow, hcell⟩
  · rintro ⟨rows, row, hrows, hrow, hcell⟩
    rw [hrows, Option.bind_some, hrow, Option.bind_some, hcell]

theorem prepare_of_none (h : cars floor = none) : cars.prepare floor i =
    Function.update (Function.update cars floor (some Assoc.empty)) (.int i)
      (some Assoc.empty) := by
  unfold prepare
  simp [h, Assoc.empty]

theorem prepare_of_some {rows : Assoc (Assoc (Assoc Scalar))} (h : cars floor = some rows) :
    cars.prepare floor i =
      if (rows (.int i)).isNone then Function.update cars (.int i) (some Assoc.empty)
      else cars := by
  unfold prepare
  simp [h]

/-- The setter makes no cell. -/
theorem cell_prepare : (cars.prepare floor i).cell floor i j = cars.cell floor i j := by
  unfold ParkingCar.cell
  cases hrows : cars floor with
  | none =>
    rw [prepare_of_none hrows]
    by_cases hfloor : floor = .int i
    · simp [hfloor, Assoc.empty]
    · simp [hfloor, Assoc.empty]
  | some rows =>
    rw [prepare_of_some hrows]
    cases hrow : rows (.int i) with
    | some row => simp [hrows, hrow]
    | none =>
      by_cases hfloor : floor = .int i
      · subst hfloor
        simp [hrow, Assoc.empty]
      · simp [hfloor, hrows, hrow]

theorem prepare_eq_self : cars.prepare floor i = cars ↔
    ∃ rows, cars floor = some rows ∧
      (rows (.int i) = none → cars (.int i) = some Assoc.empty) := by
  cases hrows : cars floor with
  | none =>
    have hne : cars.prepare floor i ≠ cars := by
      intro h
      have hfloor := congrFun h floor
      rw [prepare_of_none hrows, hrows] at hfloor
      by_cases hi : floor = .int i
      · simp [hi] at hfloor
      · simp [hi] at hfloor
    simp [hne]
  | some rows =>
    rw [prepare_of_some hrows]
    cases hrow : rows (.int i) with
    | none => simp [hrow, eq_comm]
    | some row => simp [hrow]

theorem prepare_of_cell {cell : Assoc Scalar} (h : cars.cell floor i j = some cell) :
    cars.prepare floor i = cars := by
  obtain ⟨rows, row, hrows, hrow, _⟩ := cell_eq_some.mp h
  refine prepare_eq_self.mpr ⟨rows, hrows, fun hnone => ?_⟩
  rw [hrow] at hnone
  cases hnone

/-- Filling a cell changes the tables unless the cell stays the same. -/
theorem modify_eq_self {cell : Assoc Scalar} (h : cars.cell floor i j = some cell)
    (f : Assoc Scalar → Assoc Scalar) : cars.modify floor i j f = cars ↔ f cell = cell := by
  obtain ⟨rows, row, hrows, hrow, hcell⟩ := cell_eq_some.mp h
  unfold modify
  rw [hrows, Option.map_some, hrow, Option.map_some, hcell, Option.map_some,
    Function.update_eq_self_iff, hrows, Option.some.injEq, Function.update_eq_self_iff, hrow,
    Option.some.injEq, Function.update_eq_self_iff, hcell, Option.some.injEq]

end ParkingCar

/-- Whatever the call writes before it raises is there already. -/
def Settled (s : State Num) (r : Record Num) : Prop :=
  s.handler1.rows r.i = none ∨
    s.handler1.cell r.i r.j = some r.value ∧ ∃ rows, s.parkingCar r.floor = some rows ∧
      match rows (.int r.i) with
      | none => s.parkingCar (.int r.i) = some Assoc.empty
      | some row => ∀ cell, row (.int r.j) = some cell → r.time = none ∧ cell r.id = some r.id

/-- The getter never answers a car: it asks for the time under nil. -/
theorem parkingCarInfo_ne_car (lua : Conversions) (s : State Num) (now : ℤ) (floor : Scalar)
    (i j : ℤ) (id : Option Scalar) (time : ℤ) :
    parkingCarInfo lua s now floor i j ≠ some (.car id time) := by
  unfold parkingCarInfo
  split
  · simp
  · cases s.parkingCar (.int i) with
    | none => simp
    | some rows =>
      cases hcol : rows (.int j) with
      | none => simp [hcol]
      | some col => simp [hcol, timeKey]

theorem setParkinglotRecord_of_none {s : State Num} {r : Record Num} (now : ℤ)
    (h : s.handler1.rows r.i = none) : setParkinglotRecord s now r = (s, false) := by
  have hchange : s.handler1.changeMaps r.i r.j r.value = none := by
    unfold Tiles.changeMaps
    rw [h, Option.map_none]
  unfold setParkinglotRecord
  rw [hchange]

section Row

variable {s : State Num} {r : Record Num} {tiles : Tiles Num}

theorem setParkinglotRecord_of_no_cell (now : ℤ)
    (hchange : s.handler1.changeMaps r.i r.j r.value = some tiles)
    (hcell : s.parkingCar.cell r.floor r.i r.j = none) :
    setParkinglotRecord s now r = (⟨tiles, s.parkingCar.prepare r.floor r.i⟩, false) := by
  unfold setParkinglotRecord
  rw [hchange]
  dsimp only
  rw [ParkingCar.cell_prepare, hcell]
  rfl

theorem setParkinglotRecord_of_cell (now : ℤ) {cell : Assoc Scalar}
    (hchange : s.handler1.changeMaps r.i r.j r.value = some tiles)
    (hcell : s.parkingCar.cell r.floor r.i r.j = some cell) :
    (setParkinglotRecord s now r).2 = r.time.isSome ∧
      (r.time = none → (setParkinglotRecord s now r).1 = ⟨tiles,
        s.parkingCar.modify r.floor r.i r.j fun cell =>
          Function.update cell r.id (some r.id)⟩) := by
  have hprepare := ParkingCar.prepare_of_cell hcell
  unfold setParkinglotRecord
  rw [hchange]
  dsimp only
  rw [hprepare, hcell]
  cases r.time with
  | none => exact ⟨rfl, fun _ => rfl⟩
  | some time => exact ⟨rfl, fun h => by cases h⟩

end Row

theorem storedAtomically_raised {env : Env} {s s' : State Num} {now : ℤ} {r : Record Num}
    (h : setParkinglotRecord s now r = (s', false)) :
    StoredAtomically env s now r ↔ s' = s := by
  unfold StoredAtomically
  rw [h]

/-- What completes cannot be read back. -/
theorem not_storedAtomically_completed (env : Env) {s : State Num} {now : ℤ} {r : Record Num}
    (h : (setParkinglotRecord s now r).2 = true) : ¬ StoredAtomically env s now r := by
  unfold StoredAtomically
  split
  · rename_i heq
    rw [heq] at h
    cases h
  · rintro ⟨hfound, _⟩
    exact parkingCarInfo_ne_car _ _ _ _ _ _ _ _ (hfound now)

theorem settled_iff {s : State Num} {r : Record Num} {tiles : Tiles Num}
    (hchange : s.handler1.changeMaps r.i r.j r.value = some tiles) :
    Settled s r ↔ tiles = s.handler1 ∧ s.parkingCar.prepare r.floor r.i = s.parkingCar ∧
      ∀ cell, s.parkingCar.cell r.floor r.i r.j = some cell →
        r.time = none ∧ cell r.id = some r.id := by
  have hrow : s.handler1.rows r.i ≠ none := by
    intro h
    unfold Tiles.changeMaps at hchange
    rw [h] at hchange
    cases hchange
  unfold Settled
  rw [Tiles.changeMaps_eq_self hchange, ParkingCar.prepare_eq_self, or_iff_right hrow]
  refine and_congr_right fun _ => ?_
  constructor
  · rintro ⟨rows, hrows, hrest⟩
    refine ⟨⟨rows, hrows, fun hnone => ?_⟩, fun cell hcell => ?_⟩
    · rwa [hnone] at hrest
    · obtain ⟨rows', row, hrows', hrow, hcell⟩ := ParkingCar.cell_eq_some.mp hcell
      rw [hrows, Option.some.injEq] at hrows'
      subst hrows'
      rw [hrow] at hrest
      exact hrest cell hcell
  · rintro ⟨⟨rows, hrows, hnone⟩, hcells⟩
    refine ⟨rows, hrows, ?_⟩
    cases hrow : rows (.int r.i) with
    | none => exact hnone hrow
    | some row =>
      intro cell hcell
      exact hcells cell (ParkingCar.cell_eq_some.mpr ⟨rows, row, hrows, hrow, hcell⟩)

/-- A call is atomic exactly if it raises when everything that it writes is there already. -/
theorem storedAtomically_iff (env : Env) (s : State Num) (now : ℤ) (r : Record Num) :
    StoredAtomically env s now r ↔ Settled s r := by
  cases hrow : s.handler1.rows r.i with
  | none =>
    rw [storedAtomically_raised (setParkinglotRecord_of_none now hrow)]
    exact iff_of_true rfl (Or.inl hrow)
  | some row =>
    obtain ⟨tiles, hchange⟩ : ∃ tiles, s.handler1.changeMaps r.i r.j r.value = some tiles := by
      unfold Tiles.changeMaps
      rw [hrow]
      exact ⟨_, rfl⟩
    rw [settled_iff hchange]
    obtain ⟨lot, cars⟩ := s
    cases hcell : cars.cell r.floor r.i r.j with
    | none =>
      rw [storedAtomically_raised (setParkinglotRecord_of_no_cell now hchange hcell)]
      simp
    | some cell =>
      obtain ⟨hdone, hraised⟩ := setParkinglotRecord_of_cell now hchange hcell
      have hprepare := ParkingCar.prepare_of_cell hcell
      cases htime : r.time with
      | some time =>
        rw [htime] at hdone
        have hnot := not_storedAtomically_completed env hdone
        simp [hnot]
      | none =>
        rw [htime] at hdone
        rw [storedAtomically_raised (Prod.ext (hraised htime) hdone), State.mk.injEq,
          ParkingCar.modify_eq_self hcell]
        have hid : some r.id = cell r.id ↔ cell r.id = some r.id := eq_comm
        simp [hprepare, hid]

/-- The state in which the service starts. -/
def start [LuaNumber Num] : State Num := ⟨Tiles.initialTiles, Assoc.empty⟩

/-- The state after some calls with their times, whether they raise or not. -/
def recorded (s : State Num) (calls : List (ℤ × Record Num)) : State Num :=
  calls.foldl (fun s call => (setParkinglotRecord s call.1 call.2).1) s

/-- All tables under `parking_car` are empty. -/
def ParkingCar.Bare (cars : ParkingCar) : Prop :=
  ∀ floor rows, cars floor = some rows → rows = Assoc.empty

theorem ParkingCar.Bare.cell {cars : ParkingCar} (h : cars.Bare) (floor : Scalar) (i j : ℤ) :
    cars.cell floor i j = none := by
  unfold ParkingCar.cell
  cases hrows : cars floor with
  | none => rfl
  | some rows =>
    rw [h floor rows hrows]
    rfl

theorem ParkingCar.Bare.update {cars : ParkingCar} (h : cars.Bare) (floor : Scalar) :
    ParkingCar.Bare (Function.update cars floor (some Assoc.empty)) := by
  intro floor' rows hrows
  by_cases hfloor : floor' = floor
  · subst hfloor
    simpa [eq_comm] using hrows
  · rw [Function.update_of_ne hfloor] at hrows
    exact h floor' rows hrows

theorem ParkingCar.Bare.prepare {cars : ParkingCar} (h : cars.Bare) (floor : Scalar) (i : ℤ) :
    (cars.prepare floor i).Bare := by
  cases hrows : cars floor with
  | none =>
    rw [prepare_of_none hrows]
    exact (h.update floor).update _
  | some rows =>
    rw [prepare_of_some hrows]
    split
    · exact h.update _
    · exact h

/-- No call from a state with bare tables completes. -/
theorem setParkinglotRecord_of_bare {s : State Num} (h : s.parkingCar.Bare) (now : ℤ)
    (r : Record Num) :
    (setParkinglotRecord s now r).1.parkingCar.Bare ∧ (setParkinglotRecord s now r).2 = false := by
  cases hchange : s.handler1.changeMaps r.i r.j r.value with
  | none =>
    have hrow : s.handler1.rows r.i = none := by
      simpa [Tiles.changeMaps] using hchange
    rw [setParkinglotRecord_of_none now hrow]
    exact ⟨h, rfl⟩
  | some tiles =>
    rw [setParkinglotRecord_of_no_cell now hchange (h.cell _ _ _)]
    exact ⟨h.prepare _ _, rfl⟩

theorem recorded_bare {s : State Num} (h : s.parkingCar.Bare) (calls : List (ℤ × Record Num)) :
    (recorded s calls).parkingCar.Bare := by
  induction calls generalizing s with
  | nil => exact h
  | cons call calls ih => exact ih (setParkinglotRecord_of_bare h call.1 call.2).1

/-- In a state of the service the tables of the floor and of the row have to be there. -/
theorem settled_of_bare {s : State Num} (h : s.parkingCar.Bare) (r : Record Num) :
    Settled s r ↔ s.handler1.rows r.i = none ∨ s.handler1.cell r.i r.j = some r.value ∧
      (s.parkingCar r.floor).isSome = true ∧ (s.parkingCar (.int r.i)).isSome = true := by
  refine or_congr_right (and_congr_right fun _ => ?_)
  constructor
  · rintro ⟨rows, hrows, hrest⟩
    rw [h _ rows hrows] at hrest
    rw [hrows]
    exact ⟨rfl, Option.isSome_iff_exists.mpr ⟨_, hrest⟩⟩
  · rintro ⟨hfloor, hi⟩
    obtain ⟨rows, hrows⟩ := Option.isSome_iff_exists.mp hfloor
    obtain ⟨rows', hrows'⟩ := Option.isSome_iff_exists.mp hi
    refine ⟨rows, hrows, ?_⟩
    rw [h _ rows hrows]
    rw [h _ rows' hrows'] at hrows'
    exact hrows'

/-- A call is atomic exactly if it raises when everything that it writes is there already. In
the states of the service no call completes, and one is atomic exactly if the map has no such
row, or has the tile already with tables for the floor and for the row. -/
theorem parking_records_stored [LuaNumber Num] (env : Env) (now : ℤ) (r : Record Num) :
    (∀ s, StoredAtomically env s now r ↔ Settled s r) ∧
      ∀ calls, (setParkinglotRecord (recorded start calls) now r).2 = false ∧
        (StoredAtomically env (recorded start calls) now r ↔
          (recorded start calls).handler1.rows r.i = none ∨
            (recorded start calls).handler1.cell r.i r.j = some r.value ∧
              ((recorded start calls).parkingCar r.floor).isSome = true ∧
              ((recorded start calls).parkingCar (.int r.i)).isSome = true) := by
  refine ⟨fun s => storedAtomically_iff env s now r, fun calls => ?_⟩
  have hbare : (recorded (start : State Num) calls).parkingCar.Bare :=
    recorded_bare (fun _ _ h => by cases h) calls
  exact ⟨(setParkinglotRecord_of_bare hbare now r).2,
    (storedAtomically_iff env _ now r).trans (settled_of_bare hbare r)⟩

/-- The first car of the first floor, on a free tile. -/
def firstCar : Record ℕ :=
  ⟨2, 2, 1, .int 1, .text (bytes "A1"), some (.text (bytes "time"))⟩

/-- The call raises after it has written the tile. -/
theorem first_car_not_stored :
    (setParkinglotRecord start 1000 firstCar).2 = false ∧
      (setParkinglotRecord start 1000 firstCar).1.handler1.cell 2 2 = some 1 ∧
      (start : State ℕ).handler1.cell 2 2 = some 0 ∧
      ¬ StoredAtomically plainEnv start 1000 firstCar := by
  have hcell : (start : State ℕ).handler1.cell 2 2 = some 0 := rfl
  have hrow : ((start : State ℕ).handler1.rows 2).isSome = true := rfl
  refine ⟨rfl, rfl, hcell, ?_⟩
  rw [storedAtomically_iff]
  rintro (hnone | ⟨hsame, _⟩)
  · rw [show firstCar.i = 2 from rfl] at hnone
    rw [hnone] at hrow
    cases hrow
  · rw [show firstCar.i = 2 from rfl, show firstCar.j = 2 from rfl, hcell] at hsame
    cases hsame

end Ue4Background.Unattended
