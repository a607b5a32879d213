import Ue4Background.SqlTables
import Ue4Background.Transition

/-!
The daily roll-over of the traffic counters (`refresh_car_traffic` and `s.init` in
`service/unattended/init.lua`). The counters are cleared before the query that stores them, and
the next refresh is scheduled only after a query that succeeded. The counters may change while
the query is pending.
-/

namespace Ue4Background.Unattended

open LuaValues Sql Transition

/-- The counters, the tables of the database, the statements of the refreshes that wait for
their queries, and the delays of the armed timers. -/
structure Traffic where
  carIn : ℤ
  carOut : ℤ
  db : Tables
  waiting : List Bytes
  timers : List ℕ

/-- What `db:query` does. It may raise before or after the database has stored the row. -/
inductive Answer
  | ok
  | err
  | raised (stored : Bool)
  deriving DecidableEq

/-- A day in hundredths of a second. -/
def day : ℕ := 100 * 3600 * 24

def refreshSql (date carIn carOut : ℤ) : Bytes :=
  bytes "insert into car_record (date, car_in, car_out) values (" ++ decimal date ++
    bytes ", " ++ decimal carIn ++ bytes ", " ++ decimal carOut ++ bytes ")"

/-- The row of `car_record`. -/
def carRow (date carIn carOut : ℤ) : Row :=
  [(bytes "date", .int date), (bytes "car_in", .int carIn), (bytes "car_out", .int carOut)]

namespace Traffic

/-- `refresh_car_traffic` up to its query. -/
def refresh (s : Traffic) (date : ℤ) : Traffic :=
  { s with carIn := 0, carOut := 0, waiting := s.waiting ++ [refreshSql date s.carIn s.carOut] }

/-- The database has carried a statement out. -/
def store (s : Traffic) (sql : Bytes) : Traffic :=
  { s with db := ((execute sql s.db).map Prod.snd).getD s.db }

/-- `refresh_car_traffic` after the query of the statement. -/
def resume (s : Traffic) (sql : Bytes) : Answer → Traffic
  | .ok => { s.store sql with timers := s.timers ++ [day] }
  | .err => s
  | .raised stored => if stored then s.store sql else s

/-- Cars that came in and went out. -/
def count (s : Traffic) (cars : ℤ × ℤ) : Traffic :=
  { s with carIn := s.carIn + cars.1, carOut := s.carOut + cars.2 }

end Traffic

inductive TrafficEvent
  | counted (cars : ℤ × ℤ)
  | elapsed (date : ℤ)
  | answered (answer : Answer)

namespace Traffic

def Enabled (s : Traffic) : TrafficEvent → Prop
  | .counted _ => True
  | .elapsed _ => s.timers ≠ []
  | .answered _ => s.waiting ≠ []

def next (s : Traffic) : TrafficEvent → Traffic × Unit
  | .counted cars => (s.count cars, ())
  | .elapsed date => (({ s with timers := s.timers.tail } : Traffic).refresh date, ())
  | .answered answer =>
    match s.waiting with
    | [] => (s, ())
    | sql :: rest => (({ s with waiting := rest } : Traffic).resume sql answer, ())

/-- One call of `refresh_car_traffic`, with the cars counted while its query is pending. -/
def rollOver (s : Traffic) (date : ℤ) (counted : List (ℤ × ℤ)) (answer : Answer) : Traffic :=
  let sql := refreshSql date s.carIn s.carOut
  let s' := counted.foldl count (s.refresh date)
  ({ s' with waiting := s.waiting } : Traffic).resume sql answer

end Traffic

/-- The parts of the statement between its commas. -/
def refreshSegments : List Segment :=
  [⟨bytes "insert into car_record (date", none, []⟩, ⟨bytes " car_in", none, []⟩,
    ⟨bytes " car_out) values (", some .bare, []⟩, ⟨bytes " ", some .bare, []⟩,
    ⟨bytes " ", some .bare, bytes ")"⟩]

theorem refreshSql_eq (date carIn carOut : ℤ) : refreshSql date carIn carOut =
    statement (assign refreshSegments [.int date, .int carIn, .int carOut]) := by
  have hhead : bytes "insert into car_record (date, car_in, car_out) values (" =
      bytes "insert into car_record (date" ++ 44 :: (bytes " car_in" ++
        44 :: bytes " car_out) values (") := by decide +kernel
  have hcomma : bytes ", " = 44 :: bytes " " := by decide +kernel
  have hsep : comma = [44] := by decide +kernel
  unfold refreshSql
  rw [hhead, hcomma]
  simp [statement, assign, refreshSegments, Segment.text, Sql.written, List.intercalate, hsep]

/-- The statement stores exactly the row of its numbers. -/
theorem execute_refreshSql (date carIn carOut : ℤ) (db : Tables) :
    execute (refreshSql date carIn carOut) db =
      some ([], Function.update db (bytes "car_record")
        (db (bytes "car_record") ++ [carRow date carIn carOut])) := by
  have hparts : ∀ g ∈ refreshSegments, g.Sound ∧ Unsigned g.before ∧ Unsigned g.after := by
    simp only [Unsigned]
    decide +kernel
  have hparsed : parseStatement (template 0 refreshSegments) =
      some (.insert (bytes "car_record") [bytes "date", bytes "car_in", bytes "car_out"]
        [.inl 0, .inl 1, .inl 2]) := by decide +kernel
  rw [refreshSql_eq, execute_statement (by decide) hparts, hparsed]
  · rfl
  · simp [Fits, refreshSegments, Slot.Fits]
  · simp [assign, refreshSegments, Segment.Safe, Sql.written, isSigned_decimal]

namespace Traffic

/-- The rows of `car_record`. -/
def carRecord (s : Traffic) : List Row := s.db (bytes "car_record")

@[simp] theorem carRecord_store (s : Traffic) (date carIn carOut : ℤ) :
    (s.store (refreshSql date carIn carOut)).carRecord =
      s.carRecord ++ [carRow date carIn carOut] := by
  unfold store carRecord
  rw [execute_refreshSql]
  simp

theorem foldl_count (s : Traffic) (counted : List (ℤ × ℤ)) :
    counted.foldl count s =
      { s with
        carIn := s.carIn + (counted.map Prod.fst).sum
        carOut := s.carOut + (counted.map Prod.snd).sum } := by
  induction counted generalizing s with
  | nil => simp
  | cons cars counted ih =>
    rw [List.foldl_cons, ih]
    simp [count, Int.add_assoc]

/-- Either the old counts are stored and the counters hold what was counted since, or nothing is
stored and the counters hold both; and one more refresh is due in a day. -/
def RolledOver (s : Traffic) (date : ℤ) (counted : List (ℤ × ℤ)) (answer : Answer) : Prop :=
  let s' := s.rollOver date counted answer
  let ins := (counted.map Prod.fst).sum
  let outs := (counted.map Prod.snd).sum
  ((s'.carRecord = s.carRecord ++ [carRow date s.carIn s.carOut] ∧ s'.carIn = ins ∧
      s'.carOut = outs) ∨
    (s'.carRecord = s.carRecord ∧ s'.carIn = s.carIn + ins ∧ s'.carOut = s.carOut + outs)) ∧
  s'.timers = s.timers ++ [day]

/-- A refresh loses no counts and goes on exactly if its query succeeds. -/
theorem rolledOver_iff (s : Traffic) (date : ℤ) (counted : List (ℤ × ℤ)) (answer : Answer) :
    s.RolledOver date counted answer ↔ answer = .ok := by
  unfold RolledOver rollOver
  rw [foldl_count]
  cases answer with
  | ok => simp [resume, refresh, carRecord, store, execute_refreshSql]
  | err => simp [resume, refresh]
  | raised stored => cases stored <;> simp [resume, refresh, store]

/-- `s.init` calls `refresh_car_traffic`. -/
def start (db : Tables) (date : ℤ) : Traffic := refresh ⟨0, 0, db, [], []⟩ date

/-- One refresh is pending or due in a day. -/
def Alive (s : Traffic) : Prop :=
  (s.waiting.length = 1 ∧ s.timers = []) ∨ (s.waiting = [] ∧ s.timers = [day])

/-- No refresh is pending or due. -/
def Stopped (s : Traffic) : Prop := s.waiting = [] ∧ s.timers = []

end Traffic

/-- The cars that an event counts. -/
def TrafficEvent.cars : TrafficEvent → ℤ × ℤ
  | .counted cars => cars
  | _ => (0, 0)

def TrafficEvent.Succeeds : TrafficEvent → Prop
  | .answered answer => answer = .ok
  | _ => True

namespace Traffic

/-- The refreshes by date and counts. -/
abbrev Day := ℤ × ℤ × ℤ

/-- All cars are in the new rows, in the pending statements or in the counters. -/
def Accounts (before : List Row) (s : Traffic) (ins outs : ℤ) : Prop :=
  ∃ rows pending : List Day,
    s.carRecord = before ++ rows.map (fun r => carRow r.1 r.2.1 r.2.2) ∧
    s.waiting = pending.map (fun r => refreshSql r.1 r.2.1 r.2.2) ∧
    ins = (rows.map fun r => r.2.1).sum + (pending.map fun r => r.2.1).sum + s.carIn ∧
    outs = (rows.map fun r => r.2.2).sum + (pending.map fun r => r.2.2).sum + s.carOut

theorem stopped_next {s : Traffic} (h : s.Stopped) {e : TrafficEvent} (he : s.Enabled e) :
    (s.next e).1.Stopped ∧ e.Succeeds := by
  obtain ⟨hwaiting, htimers⟩ := h
  cases e with
  | counted cars => exact ⟨⟨hwaiting, htimers⟩, trivial⟩
  | elapsed date => exact absurd htimers he
  | answered answer => exact absurd hwaiting he

/-- A query that fails stops the refreshes, and nothing else does. -/
theorem alive_next {s : Traffic} (h : s.Alive) {e : TrafficEvent} (he : s.Enabled e) :
    (e.Succeeds → (s.next e).1.Alive) ∧ (¬ e.Succeeds → (s.next e).1.Stopped) := by
  cases e with
  | counted cars => exact ⟨fun _ => h, fun hno => absurd trivial hno⟩
  | elapsed date =>
    refine ⟨fun _ => ?_, fun hno => absurd trivial hno⟩
    rcases h with ⟨_, htimers⟩ | ⟨hwaiting, htimers⟩
    · exact absurd htimers he
    · left
      simp [next, refresh, hwaiting, htimers]
  | answered answer =>
    rcases h with ⟨hwaiting, htimers⟩ | ⟨hwaiting, _⟩
    · obtain ⟨sql, hsql⟩ := List.length_eq_one_iff.mp hwaiting
      cases answer with
      | ok =>
        refine ⟨fun _ => Or.inr ?_, fun hno => absurd rfl hno⟩
        simp [next, hsql, resume, store, htimers]
      | err =>
        refine ⟨fun hok => (by cases hok), fun _ => ?_⟩
        simp [next, hsql, resume, Stopped, htimers]
      | raised stored =>
        refine ⟨fun hok => (by cases hok), fun _ => ?_⟩
        cases stored <;> simp [next, hsql, resume, store, Stopped, htimers]
    · exact absurd hwaiting he

theorem Stopped.not_alive {s : Traffic} (h : s.Stopped) : ¬ s.Alive := by
  rintro (⟨hwaiting, _⟩ | ⟨_, htimers⟩)
  · rw [h.1] at hwaiting
    cases hwaiting
  · rw [h.2] at htimers
    cases htimers

theorem stopped_exec {s : Traffic} (h : s.Stopped) {es : List TrafficEvent}
    (henabled : Along Enabled next s es) : (exec next s es).Stopped :=
  invariant_exec (I := fun _ => Stopped) (fun _ _ _ h he => (stopped_next h he).1) [] h henabled

/-- The refreshes go on exactly as long as every query has succeeded. -/
theorem alive_exec {s : Traffic} {es : List TrafficEvent} (h : s.Alive)
    (henabled : Along Enabled next s es) :
    (exec next s es).Alive ↔ ∀ e ∈ es, e.Succeeds := by
  induction es generalizing s with
  | nil => exact iff_of_true h fun e he => by cases he
  | cons e es ih =>
    obtain ⟨hgood, hbad⟩ := alive_next h henabled.1
    rw [List.forall_mem_cons]
    by_cases he : e.Succeeds
    · rw [and_iff_right he]
      exact ih (hgood he) henabled.2
    · have hstopped := stopped_exec (hbad he) henabled.2
      exact iff_of_false hstopped.not_alive fun hall => he hall.1

theorem accounts_next {before : List Row} {s : Traffic} {ins outs : ℤ}
    (h : Accounts before s ins outs) {e : TrafficEvent} (he : e.Succeeds) :
    Accounts before (s.next e).1 (ins + e.cars.1) (outs + e.cars.2) := by
  obtain ⟨rows, pending, hrows, hpending, hins, houts⟩ := h
  cases e with
  | counted cars =>
    refine ⟨rows, pending, hrows, hpending, ?_, ?_⟩
    · simp only [next, count, TrafficEvent.cars]
      omega
    · simp only [next, count, TrafficEvent.cars]
      omega
  | elapsed date =>
    refine ⟨rows, pending ++ [(date, s.carIn, s.carOut)], hrows, ?_, ?_, ?_⟩
    · simp [next, refresh, hpending]
    · simp only [next, refresh, TrafficEvent.cars, List.map_append, List.sum_append]
      simp
      omega
    · simp only [next, refresh, TrafficEvent.cars, List.map_append, List.sum_append]
      simp
      omega
  | answered answer =>
    have hok : answer = .ok := he
    subst hok
    cases pending with
    | nil =>
      have hwaiting : s.waiting = [] := hpending
      refine ⟨rows, [], ?_, ?_, ?_, ?_⟩ <;> simp_all [next, TrafficEvent.cars]
    | cons r pending =>
      obtain ⟨date, carIn, carOut⟩ := r
      have hwaiting : s.waiting = refreshSql date carIn carOut ::
          pending.map fun r => refreshSql r.1 r.2.1 r.2.2 := hpending
      refine ⟨rows ++ [(date, carIn, carOut)], pending, ?_, ?_, ?_, ?_⟩
      · have hstored : (s.next (.answered .ok)).1.carRecord =
            (s.store (refreshSql date carIn carOut)).carRecord := by
          simp only [next, hwaiting]
          rfl
        rw [hstored, carRecord_store, hrows]
        simp
      · simp [next, hwaiting, resume, store]
      · simp [next, hwaiting, resume, store, TrafficEvent.cars] at hins ⊢
        omega
      · simp [next, hwaiting, resume, store, TrafficEvent.cars] at houts ⊢
        omega

theorem accounts_exec {before : List Row} {s : Traffic} {ins outs : ℤ}
    (h : Accounts before s ins outs) {es : List TrafficEvent} (hes : ∀ e ∈ es, e.Succeeds) :
    Accounts before (exec next s es) (ins + (es.map fun e => e.cars.1).sum)
      (outs + (es.map fun e => e.cars.2).sum) := by
  induction es generalizing s ins outs with
  | nil => simpa [exec] using h
  | cons e es ih =>
    obtain ⟨he, hes⟩ := List.forall_mem_cons.mp hes
    have hrest := ih (accounts_next h he) hes
    simp only [List.map_cons, List.sum_cons, ← Int.add_assoc]
    exact hrest

/-- A refresh loses no counts and goes on exactly if its query succeeds. From the start of the
service, one more refresh is pending or due in a day exactly as long as every query has
succeeded, and until then every car is in a row, in a pending statement or in the counters. -/
theorem traffic_rolls_over (s : Traffic) (date : ℤ) (counted : List (ℤ × ℤ)) (answer : Answer) :
    (s.RolledOver date counted answer ↔ answer = .ok) ∧
      ∀ db date es, Along Enabled next (start db date) es →
        ((exec next (start db date) es).Alive ↔ ∀ e ∈ es, e.Succeeds) ∧
        ((∀ e ∈ es, e.Succeeds) → Accounts (db (bytes "car_record"))
          (exec next (start db date) es) (es.map fun e => e.cars.1).sum
          (es.map fun e => e.cars.2).sum) := by
  refine ⟨rolledOver_iff s date counted answer, fun db date es henabled => ⟨?_, fun hes => ?_⟩⟩
  · exact alive_exec (Or.inl ⟨rfl, rfl⟩) henabled
  · have hstart : Accounts (db (bytes "car_record")) (start db date) 0 0 :=
      ⟨[], [(date, 0, 0)], by simp [start, refresh, carRecord], rfl, rfl, rfl⟩
    have hlast := accounts_exec hstart hes
    rwa [Int.zero_add, Int.zero_add] at hlast

/-- Five cars in and three out, and a timer for the refresh that begins. -/
def fiveIn : Traffic := ⟨5, 3, fun _ => [], [], []⟩

/-- The database rejects the row: the counts are gone, and no refresh is due any more. -/
theorem counts_lost :
    (fiveIn.rollOver 1700000000 [(1, 0)] .err).carIn = 1 ∧
      (fiveIn.rollOver 1700000000 [(1, 0)] .err).carRecord = [] ∧
      (fiveIn.rollOver 1700000000 [(1, 0)] .err).timers = [] ∧
      ¬ RolledOver fiveIn 1700000000 [(1, 0)] .err := by
  refine ⟨rfl, rfl, rfl, ?_⟩
  rw [rolledOver_iff]
  simp

end Traffic

end Ue4Background.Unattended
