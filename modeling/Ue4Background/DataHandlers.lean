import Ue4Background.SqlTables

/-!
What the handlers of the data services have in common (`service/smartmanagement/init.lua`,
`service/smartlive/init.lua`, `service/unattended/init.lua`). A handler formats a statement
from its parameters, runs it with `db:query` and answers a text, or a row in the format of
protocol buffers, as the vendored pbc writes it. Wherever Lua raises, the answer is none.
-/

namespace Ue4Background.DataHandlers

open LuaValues Protobuf Sql

/-- What Lua makes of a string in place of a number: the integer that `%d` takes it for, and
`(int64_t)lua_tonumber`, which is 0 for a text that is no numeral. -/
structure Conversions where
  integer : Bytes → Option ℤ
  cast : Bytes → ℤ

/-- A parameter of a handler, a string or nil. -/
abbrev Arg := Option Bytes

/-- `%s` of an argument. -/
def shown (arg : Arg) : Bytes := arg.getD (bytes "nil")

/-- `string.format` with the directives `%s` and `%d`. -/
def format (lua : Conversions) : Bytes → List Arg → Option Bytes
  | 37 :: 115 :: fmt, args => (format lua fmt args.tail).map (shown (args.headD none) ++ ·)
  | 37 :: 100 :: fmt, args =>
    ((args.headD none).bind lua.integer).bind fun n =>
      (format lua fmt args.tail).map (decimal n ++ ·)
  | b :: fmt, args => (format lua fmt args).map (b :: ·)
  | [], _ => some []

/-- A statement and the arguments of its format: a parameter, or a global that is never set. -/
structure Query where
  fmt : Bytes
  args : List (Option ℕ)

def Query.values (q : Query) (params : List Arg) : List Arg :=
  q.args.map fun i => i.bind fun i => (params[i]?).join

def Query.text (lua : Conversions) (q : Query) (params : List Arg) : Option Bytes :=
  format lua q.fmt (q.values params)

/-- What `db:query` answers. A result without rows is what a change of a table answers. -/
inductive Outcome
  | raised
  | err
  | rows (rs : List Row)

/-- A message type: its fields, or `repeated item records = 1`. -/
inductive MessageType
  | flat (members : List Member)
  | records (item : List Member)

/-- `_wmessage_int` and `_wmessage_string` take a value of the other type, too. -/
def coerce (lua : Conversions) : Kind → Scalar → Scalar
  | .int32, .int n => .int n
  | .int32, .text s => .int (lua.cast s)
  | .string, .text s => .text s
  | .string, .int n => .text (decimal n)

/-- One field of a Lua table; an optional field that has its default is not written, and a
field that the type does not have faults. -/
def writeField (lua : Conversions) (members : List Member) (entry : Bytes × Scalar) :
    Option (List (ℕ × Scalar)) :=
  (members.find? fun d => d.name = entry.1).map fun d =>
    if d.label = .optional ∧ coerce lua d.kind entry.2 = d.kind.default then []
    else [(d.number, coerce lua d.kind entry.2)]

/-- The fields of a Lua table, in the order of its entries. -/
def writeFields (lua : Conversions) (members : List Member) :
    List (Bytes × Scalar) → Option (List (ℕ × Scalar))
  | [] => some []
  | entry :: data => do
    let fs ← writeField lua members entry
    let rest ← writeFields lua members data
    some (fs ++ rest)

/-- What the handlers of one service share: the conversions of Lua, the orders of `pairs` over
the tables they encode, and the counters of the doors. -/
structure Env where
  lua : Conversions
  pairs : Pairs ℕ Bytes
  fiveminIn : ℤ
  fiveminOut : ℤ

/-- Decimal numerals, tables in their own order, and nobody at the doors. -/
def plainEnv : Env where
  lua :=
    { integer s := if s ≠ [] ∧ s.all isDigit then some (ofDigits s) else none
      cast s := if s.all isDigit then ofDigits s else 0 }
  pairs := ⟨fun _ keys => keys, fun _ keys => List.Perm.refl keys⟩
  fiveminIn := 0
  fiveminOut := 0

/-- The entries of the `i`th table of a message, in the order of `pairs`. -/
def entries (env : Env) (i : ℕ) (data : List (Bytes × Scalar)) : List (Bytes × Scalar) :=
  (env.pairs.order i (data.map Prod.fst)).filterMap fun k => (data.lookup k).map fun v => (k, v)

/-- `data.k = row.k` for some columns; what a row does not have stays nil. -/
def copied (columns : List Bytes) (row : Row) : List (Bytes × Scalar) :=
  columns.filterMap fun c => (row.lookup c).map fun v => (c, v)

/-- The fields that are written for a row. -/
def rowFields (env : Env) (members : List Member) (columns : List Bytes) (i : ℕ) (row : Row) :
    Option (List (ℕ × Scalar)) :=
  writeFields env.lua members (entries env i (copied columns row))

/-- The fields that are written for every element of `records`. -/
def rowsFields (env : Env) (item : List Member) (columns : List Bytes) :
    ℕ → List Row → Option (List (List (ℕ × Scalar)))
  | _, [] => some []
  | i, row :: rows => do
    let fs ← rowFields env item columns i row
    let rest ← rowsFields env item columns (i + 1) rows
    some (fs :: rest)

/-- `records`, one sub-message after the other. -/
def encodeRecords (fss : List (List (ℕ × Scalar))) : Bytes :=
  encodeFields (fss.map fun fs => (1, .text (encodeFields fs)))

/-- `pb.encode` of one row. -/
def encodeRow (env : Env) (members : List Member) (columns : List Bytes) (row : Row) :
    Option Bytes :=
  (rowFields env members columns 0 row).map encodeFields

/-- `pb.encode` of `records`. -/
def encodeRows (env : Env) (item : List Member) (columns : List Bytes) (rows : List Row) :
    Option Bytes :=
  (rowsFields env item columns 0 rows).map encodeRecords

/-- What a handler returns. -/
inductive Ret
  | bool (b : Bool)
  | str (s : Bytes)
  deriving DecidableEq

/-- The handlers by their shape. A single row is looked at before the error is asked for where
`peek` says so; a message type that is not registered is none. -/
inductive Handler
  | set (q : Query)
  | setVisit (q : Query)
  | get (peek : Bool) (q : Query) (message : Option (List Member)) (columns : List Bytes)
  | getTen (q : Query) (item : Option (List Member)) (columns : List Bytes)
  | accessRecords (q : Query)
  | carRecord (q : Query) (item : List Member) (columns : List Bytes)
  | footTraffic (message : List Member)

/-- `s.resp.set_*`: the statement is run, and the answer is a text in any case. -/
def setRecord (text : Option Bytes) (outcome : Outcome) : Option Ret :=
  text.bind fun _ =>
    match outcome with
    | .raised => none
    | .err => some (.str (bytes "false"))
    | .rows _ => some (.str (bytes "true"))

/-- `s.resp.set_unattended_visit_record` answers a boolean. -/
def setVisitRecord (text : Option Bytes) (outcome : Outcome) : Option Ret :=
  text.bind fun _ =>
    match outcome with
    | .raised => none
    | .err => some (.bool false)
    | .rows _ => some (.bool true)

/-- `s.resp.get_*_record`: the first row, which must be there. -/
def getRecord (env : Env) (peek : Bool) (text : Option Bytes) (message : Option (List Member))
    (columns : List Bytes) (outcome : Outcome) : Option Ret :=
  text.bind fun _ =>
    match outcome with
    | .raised => none
    | .err => if peek then none else some (.str (bytes "false"))
    | .rows [] => none
    | .rows (row :: _) =>
      message.bind fun members => (encodeRow env members columns row).map .str

/-- `s.resp.get_ten_*_records`: up to ten rows. -/
def getTenRecords (env : Env) (text : Option Bytes) (item : Option (List Member))
    (columns : List Bytes) (outcome : Outcome) : Option Ret :=
  text.bind fun _ =>
    match outcome with
    | .raised => none
    | .err => some (.str (bytes "false"))
    | .rows rs => item.bind fun item => (encodeRows env item columns (rs.take 10)).map .str

/-- `s.resp.get_ten_recent_access_records` puts the list of the rows, not a row, among the
records; its keys are integers, which no message type has. An error counts as no rows. -/
def getTenRecentAccessRecords (text : Option Bytes) (outcome : Outcome) : Option Ret :=
  text.bind fun _ =>
    match outcome with
    | .raised => none
    | .err | .rows [] => some (.str [])
    | .rows (_ :: _) => none

/-- `s.resp.get_unattended_car_record` prints the date of the first record. -/
def getUnattendedCarRecord (env : Env) (text : Option Bytes) (item : List Member)
    (columns : List Bytes) (outcome : Outcome) : Option Ret :=
  text.bind fun _ =>
    match outcome with
    | .raised => none
    | .err => some (.bool false)
    | .rows [] => none
    | .rows (row :: rows) => (encodeRows env item columns ((row :: rows).take 10)).map .str

def footColumns : List Bytes := [bytes "in_num", bytes "out_num", bytes "trend"]

/-- The traffic of the doors in the last five minutes. -/
def footRow (env : Env) : Row :=
  let trend := if env.fiveminIn > env.fiveminOut then bytes "in"
    else if env.fiveminIn < env.fiveminOut then bytes "out"
    else bytes "unknown"
  [(bytes "in_num", .int env.fiveminIn), (bytes "out_num", .int env.fiveminOut),
    (bytes "trend", .text trend)]

/-- `s.resp.get_fivemin_foot_traffic` -/
def getFiveminFootTraffic (env : Env) (message : List Member) : Option Ret :=
  (encodeRow env message footColumns (footRow env)).map .str

/-- The statement of a handler, if it has one. -/
def Handler.query : Handler → Option Query
  | .set q | .setVisit q | .get _ q _ _ | .getTen q _ _ | .accessRecords q | .carRecord q _ _ =>
    some q
  | .footTraffic _ => none

/-- What `s.resp[cmd](source, playerid, ...)` returns when its query has the given outcome. -/
def Handler.run (env : Env) (params : List Arg) (outcome : Outcome) : Handler → Option Ret
  | .set q => setRecord (q.text env.lua params) outcome
  | .setVisit q => setVisitRecord (q.text env.lua params) outcome
  | .get peek q message columns =>
    getRecord env peek (q.text env.lua params) message columns outcome
  | .getTen q item columns => getTenRecords env (q.text env.lua params) item columns outcome
  | .accessRecords q => getTenRecentAccessRecords (q.text env.lua params) outcome
  | .carRecord q item columns =>
    getUnattendedCarRecord env (q.text env.lua params) item columns outcome
  | .footTraffic message => getFiveminFootTraffic env message

end Ue4Background.DataHandlers
