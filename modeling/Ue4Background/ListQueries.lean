import Ue4Background.StoredRecords

/-!
The queries that list records. Each handler copies up to ten rows of its `select` into the
records of one message. What it answers stands for the rows of the table that holds the
records when its statement parses, it reads that table, and every row fits the message.
-/

namespace Ue4Background.DataHandlers

open LuaValues Protobuf Sql

/-- The table of a `select` of ten rows, and its key. -/
def Query.selection (q : Query) : Option (Bytes × Option (Bytes × (ℕ ⊕ Scalar))) :=
  match parseStatement (template 0 q.segments) with
  | some (.select table key (.inr (.int n))) => if n = 10 then some (table, key) else none
  | _ => none

/-- The key with its value among those of the statement. -/
def keyed (vs : List Scalar) (key : Option (Bytes × (ℕ ⊕ Scalar))) : Option (Bytes × Scalar) :=
  key.map fun k => (k.1, Sum.elim (fun i => (vs[i]?).getD (.text [])) id k.2)

/-- The first ten rows of a table that match the key. -/
def matching (db : Tables) (table : Bytes) (key : Option (Bytes × Scalar)) : List Row :=
  ((db table).filter (hasKey key)).take 10

/-- The record made of `source` stands for `row`: it is complete, and in every field that
`row` has it has the same value. -/
structure Renders (lua : Conversions) (item : List Member) (columns : List Bytes)
    (row source : Row) : Prop where
  supplies : Supplies item columns source
  values : ∀ d ∈ item, ∀ v ∈ row.lookup d.name, conveyed lua columns source d = v

/-- A record stands for its own row when the values have the types of the fields and what is
not copied has the default. -/
theorem renders_self_iff {lua : Conversions} {item : List Member} {columns : List Bytes}
    {row : Row} :
    Renders lua item columns row row ↔ Supplies item columns row ∧
      ∀ d ∈ item, ∀ v ∈ row.lookup d.name,
        d.kind.Fits v ∧ (d.name ∈ columns ∨ v = d.kind.default) := by
  have hdefault : ∀ kind : Kind, kind.Fits kind.default := by
    rintro (_ | _)
    · exact ⟨by decide, by decide⟩
    · trivial
  have hvalue : ∀ d v, row.lookup d.name = some v → (conveyed lua columns row d = v ↔
      d.kind.Fits v ∧ (d.name ∈ columns ∨ v = d.kind.default)) := by
    intro d v hv
    by_cases hmem : d.name ∈ columns
    · rw [conveyed, if_pos hmem, hv, Option.map_some, Option.getD_some]
      simp only [hmem, true_or, and_true]
      constructor
      · intro heq
        have hkind : v.kind = d.kind := by
          rw [← heq]
          exact Kind.kind_truncate (coerce_kind lua d.kind v)
        rw [coerce_eq_self hkind] at heq
        exact (Kind.truncate_eq_iff hkind).mp heq
      · intro hfits
        rw [coerce_eq_self hfits.kind_eq]
        exact (Kind.truncate_eq_iff hfits.kind_eq).mpr hfits
    · rw [conveyed, if_neg hmem, Option.map_none, Option.getD_none]
      simp only [hmem, false_or]
      constructor
      · rintro rfl
        exact ⟨hdefault d.kind, rfl⟩
      · rintro ⟨_, rfl⟩
        rfl
  constructor
  · rintro ⟨hsupplies, hvalues⟩
    exact ⟨hsupplies, fun d hd v hv => (hvalue d v hv).mp (hvalues d hd v hv)⟩
  · rintro ⟨hsupplies, hvalues⟩
    exact ⟨hsupplies, fun d hd v hv => (hvalue d v hv).mpr (hvalues d hd v hv)⟩

theorem forall₂_renders {lua : Conversions} {item : List Member} {columns : List Bytes}
    {home rows : List Row} :
    List.Forall₂ (Renders lua item columns) home rows ↔
      List.Forall₂ (fun row source => ∀ d ∈ item, ∀ v ∈ row.lookup d.name,
        conveyed lua columns source d = v) home rows ∧
          ∀ source ∈ rows, Supplies item columns source := by
  constructor
  · intro h
    induction h with
    | nil => simp
    | cons hfirst _ ih =>
      exact ⟨.cons hfirst.values ih.1, List.forall_mem_cons.mpr ⟨hfirst.supplies, ih.2⟩⟩
  · rintro ⟨h, hsupplies⟩
    induction h with
    | nil => exact .nil
    | cons hfirst _ ih =>
      obtain ⟨hsource, hrest⟩ := List.forall_mem_cons.mp hsupplies
      exact .cons ⟨hsource, hfirst⟩ (ih hrest)

section Decode

variable {env : Env} {item : List Member} {columns : List Bytes}

theorem decode_rowsFields (hnames : (item.map Member.name).Nodup)
    (hnumbers : (item.map Member.number).Nodup) (hcolumns : columns.Nodup) {i : ℕ}
    {rows : List Row} {fss : List (List (ℕ × Scalar))}
    (hfss : rowsFields env item columns i rows = some fss)
    {records : List (List (Bytes × Scalar))} :
    (fss.map encodeFields).mapM (decode item) = some records ↔
      (∀ row ∈ rows, Supplies item columns row) ∧
        records = rows.map fun row =>
          item.map fun d => (d.name, conveyed env.lua columns row d) := by
  induction rows generalizing i fss records with
  | nil =>
    cases hfss
    simp [eq_comm]
  | cons row rows ih =>
    simp only [rowsFields, Option.bind_eq_bind, Option.bind_eq_some_iff, Option.some.injEq]
      at hfss
    obtain ⟨fs, hfs, rest, hrest, rfl⟩ := hfss
    simp only [List.map_cons, List.mapM_cons, Option.bind_eq_bind, Option.bind_eq_some_iff,
      Option.pure_def, Option.some.injEq, List.forall_mem_cons]
    constructor
    · rintro ⟨fields, hfields, recs, hrecs, rfl⟩
      obtain ⟨hsupplies, rfl⟩ := (decode_rowFields hnames hnumbers hcolumns hfs).mp hfields
      obtain ⟨hall, rfl⟩ := (ih hrest).mp hrecs
      exact ⟨⟨hsupplies, hall⟩, rfl⟩
    · rintro ⟨⟨hsupplies, hall⟩, rfl⟩
      exact ⟨_, (decode_rowFields hnames hnumbers hcolumns hfs).mpr ⟨hsupplies, rfl⟩, _,
        (ih hrest).mpr ⟨hall, rfl⟩, rfl⟩

end Decode

end Ue4Background.DataHandlers

namespace Ue4Background.DataServices

open LuaValues Protobuf Sql DataHandlers

/-- The handlers that list records. -/
def listsRows : Handler → Bool
  | .getTen _ _ _ | .accessRecords _ | .carRecord _ _ _ => true
  | .set _ | .setVisit _ | .get _ _ _ _ | .footTraffic _ => false

example : ([.smartmanagement, .smartlive, .unattended].map fun service =>
    ((resp service).filter fun h => listsRows h.2).length) = [11, 4, 2] := by
  decide +kernel

/-- The type of the records that a handler lists. -/
def recordType : Handler → List Member
  | .getTen _ item _ => item.getD []
  | .carRecord _ item _ => item
  | .accessRecords _ => accessMessage
  | .set _ | .setVisit _ | .get _ _ _ _ | .footTraffic _ => []

/-- The key of a handler's `select`, with its value. -/
def keyOf (h : Handler) (vs : List Scalar) : Option (Bytes × Scalar) :=
  keyed vs ((h.query.bind Query.selection).bind Prod.snd)

/-- What a handler answers when its statement is executed. -/
def ask (env : Env) (db : Tables) (params : List Arg) (h : Handler) : Option Ret :=
  h.run env params <|
    match (h.query.bind fun q => q.text env.lua params).bind fun sql => execute sql db with
    | some (rs, _) => .rows rs
    | none => .err

/-- The reply is a message with one record for each row, in their order, and every field
that a row has, has its value in the record. -/
def Lists (item : List Member) (reply : Option Ret) (rows : List Row) : Prop :=
  ∃ payload records, reply = some (.str payload) ∧ decodeRecords item payload = some records ∧
    List.Forall₂ (fun row fields => ∀ d ∈ item, ∀ v ∈ row.lookup d.name,
      fields.lookup d.name = some v) rows records

/-- When the answer of a handler stands for the rows of the table `home`: its message type is
registered, and the rows it reads stand for them; there must be no visit at the doors, and at
least one day of the cars. -/
def ListsWhen (env : Env) (db : Tables) (home : Bytes) (vs : List Scalar) : Handler → Prop
  | .getTen q item columns =>
    ∃ members ∈ item, ∃ source key, q.selection = some (source, key) ∧
      List.Forall₂ (Renders env.lua members columns) (matching db home (keyed vs key))
        (matching db source (keyed vs key))
  | .accessRecords q =>
    ∃ source key, q.selection = some (source, key) ∧ matching db source (keyed vs key) = [] ∧
      matching db home (keyed vs key) = []
  | .carRecord q item columns =>
    ∃ source key, q.selection = some (source, key) ∧ matching db source (keyed vs key) ≠ [] ∧
      List.Forall₂ (Renders env.lua item columns) (matching db home (keyed vs key))
        (matching db source (keyed vs key))
  | .set _ | .setVisit _ | .get _ _ _ _ | .footTraffic _ => False

/-- Texts in quotes and integers bare, and a statement that selects ten rows or does not parse. -/
def Selects (q : Query) : Prop :=
  Typed q.places ∧ (q.selection = none → parseStatement (template 0 q.segments) = none)

instance (q : Query) : Decidable (Selects q) := inferInstanceAs (Decidable (_ ∧ _))

/-- Different columns, which are fields of the record. -/
def Describes (item : List Member) (columns : List Bytes) : Prop :=
  (item.map Member.name).Nodup ∧ (item.map Member.number).Nodup ∧ columns.Nodup ∧
    ∀ c ∈ columns, ∃ d ∈ item, d.name = c

instance (item : List Member) (columns : List Bytes) : Decidable (Describes item columns) :=
  inferInstanceAs (Decidable (_ ∧ _ ∧ _ ∧ _))

def WellFormed : Handler → Prop
  | .getTen q item columns => Selects q ∧ ∀ members ∈ item, Describes members columns
  | .accessRecords q => Selects q ∧ q.selection.isSome
  | .carRecord q item columns => Selects q ∧ Describes item columns
  | .set _ | .setVisit _ | .get _ _ _ _ | .footTraffic _ => True

instance : (h : Handler) → Decidable (WellFormed h)
  | .getTen _ _ _ | .carRecord _ _ _ | .accessRecords _ => inferInstanceAs (Decidable (_ ∧ _))
  | .set _ | .setVisit _ | .get _ _ _ _ | .footTraffic _ => inferInstanceAs (Decidable True)

theorem handlers_wellFormed (service : Service) : ∀ h ∈ resp service, WellFormed h.2 := by
  cases service <;> decide +kernel

section Lists

variable {env : Env} {params : List Arg} {vs : List Scalar} {db : Tables} {q : Query}

/-- A statement that parses selects the first ten rows with its key. -/
theorem execute_selection (hq : q.Sound) (hselects : Selects q)
    (hvs : q.scalars env.lua params = some vs) (hverbatim : ∀ v ∈ vs, Verbatim v) :
    ((q.text env.lua params).bind fun sql => execute sql db) =
      q.selection.map fun s => (matching db s.1 (keyed vs s.2), db) := by
  obtain ⟨htyped, hparse⟩ := hselects
  have hexecute := Query.execute_text hq htyped hvs hverbatim db
  rw [hexecute]
  cases hselection : q.selection with
  | none =>
    rw [hparse hselection]
    rfl
  | some s =>
    unfold Query.selection at hselection
    split at hselection
    · rename_i table key n hstatement
      split at hselection
      · rename_i hten
        cases hselection
        rw [hstatement, hten]
        rfl
      · cases hselection
    · cases hselection

theorem isSome_text (hq : q.Sound) (hvs : q.scalars env.lua params = some vs) :
    ∃ text, q.text env.lua params = some text := by
  rw [q.text_eq hq, hvs]
  exact ⟨_, rfl⟩

/-- The text that a handler answers for an error is no message. -/
theorem not_lists_false (item : List Member) (rows : List Row) :
    ¬ Lists item (some (.str (bytes "false"))) rows := by
  rintro ⟨payload, records, hreply, hdecode, _⟩
  obtain rfl : bytes "false" = payload := by simpa using hreply
  have hparse : parse (bytes "false") = none := by decide
  rw [decodeRecords, hparse] at hdecode
  cases hdecode

/-- The message of some rows stands for others exactly when every record does. -/
theorem lists_encodeRows {item : List Member} {columns : List Bytes}
    (hdescribes : Describes item columns) {rows home : List Row} :
    Lists item ((encodeRows env item columns rows).map .str) home ↔
      List.Forall₂ (Renders env.lua item columns) home rows := by
  obtain ⟨hnames, hnumbers, hcolumns, hmembers⟩ := hdescribes
  have hsome : (rowsFields env item columns 0 rows).isSome :=
    (isSome_rowsFields 0 rows).mpr fun row _ c hc _ => hmembers c hc
  obtain ⟨fss, hfss⟩ := Option.isSome_iff_exists.mp hsome
  have hpayload : encodeRows env item columns rows =
      some (encodeFields ((fss.map encodeFields).map fun s => (1, .text s))) := by
    rw [encodeRows, hfss, Option.map_some, encodeRecords, List.map_map]
    rfl
  have hfields : ∀ row source : Row, (∀ d ∈ item, ∀ v ∈ row.lookup d.name,
      (item.map fun d => (d.name, conveyed env.lua columns source d)).lookup d.name = some v) ↔
        ∀ d ∈ item, ∀ v ∈ row.lookup d.name, conveyed env.lua columns source d = v := by
    intro row source
    refine forall₂_congr fun d hd => forall₂_congr fun v _ => ?_
    rw [lookup_members hnames _ hd, Option.some.injEq]
  rw [forall₂_renders]
  constructor
  · rintro ⟨payload, records, hreply, hdecode, hall⟩
    rw [hpayload, Option.map_some, Option.some.injEq, Ret.str.injEq] at hreply
    rw [← hreply, decodeRecords_encodeFields, decode_rowsFields hnames hnumbers hcolumns hfss]
      at hdecode
    obtain ⟨hsupplies, rfl⟩ := hdecode
    rw [List.forall₂_map_right_iff] at hall
    exact ⟨hall.imp fun row source h => (hfields row source).mp h, hsupplies⟩
  · rintro ⟨hall, hsupplies⟩
    have hdecode : decodeRecords item
        (encodeFields ((fss.map encodeFields).map fun s => (1, .text s))) =
          some (rows.map fun row => item.map fun d =>
            (d.name, conveyed env.lua columns row d)) := by
      rw [decodeRecords_encodeFields, decode_rowsFields hnames hnumbers hcolumns hfss]
      exact ⟨hsupplies, rfl⟩
    refine ⟨_, _, by rw [hpayload]; rfl, hdecode, ?_⟩
    rw [List.forall₂_map_right_iff]
    exact hall.imp fun row source h => (hfields row source).mpr h

theorem take_matching (db : Tables) (table : Bytes) (key : Option (Bytes × Scalar)) :
    (matching db table key).take 10 = matching db table key := by
  rw [matching, List.take_take, Nat.min_self]

/-- What the query of a handler answers. -/
def answered (db : Tables) (vs : List Scalar) (q : Query) : Outcome :=
  match q.selection with
  | some (source, key) => .rows (matching db source (keyed vs key))
  | none => .err

theorem ask_eq {h : Handler} (hquery : h.query = some q) (hq : q.Sound) (hselects : Selects q)
    (hvs : q.scalars env.lua params = some vs) (hverbatim : ∀ v ∈ vs, Verbatim v) :
    ask env db params h = h.run env params (answered db vs q) := by
  rw [ask, hquery, Option.bind_some, execute_selection hq hselects hvs hverbatim, answered]
  cases q.selection <;> rfl

theorem lists_getTen {text : Bytes} (htext : q.text env.lua params = some text)
    {item : Option (List Member)} {columns : List Bytes}
    (hdescribes : ∀ members ∈ item, Describes members columns) (home : Bytes) :
    Lists (item.getD []) ((Handler.getTen q item columns).run env params (answered db vs q))
        (matching db home (keyed vs (q.selection.bind Prod.snd))) ↔
      ListsWhen env db home vs (.getTen q item columns) := by
  simp only [Handler.run, htext, getTenRecords, Option.bind_some, ListsWhen, answered]
  cases hselection : q.selection with
  | none =>
    refine iff_of_false (not_lists_false _ _) ?_
    rintro ⟨_, _, _, _, hnone, _⟩
    cases hnone
  | some s =>
    obtain ⟨source, key⟩ := s
    simp only [take_matching, Option.bind_some]
    cases item with
    | none =>
      refine iff_of_false ?_ ?_
      · rintro ⟨_, _, hnone, _⟩
        cases hnone
      · rintro ⟨_, hnone, _⟩
        cases hnone
    | some members =>
      rw [Option.bind_some, Option.getD_some, lists_encodeRows (hdescribes members rfl)]
      constructor
      · intro hrows
        exact ⟨members, rfl, source, key, rfl, hrows⟩
      · rintro ⟨_, hmembers, _, _, hsame, hrows⟩
        cases hmembers
        cases hsame
        exact hrows

/-- The empty message has no records. -/
theorem lists_nil {item : List Member} {rows : List Row} :
    Lists item (some (.str [])) rows ↔ rows = [] := by
  constructor
  · rintro ⟨payload, records, hreply, hdecode, hall⟩
    cases hreply
    cases hdecode
    exact List.forall₂_nil_right_iff.mp hall
  · rintro rfl
    exact ⟨[], [], rfl, rfl, .nil⟩

theorem lists_accessRecords {text : Bytes} (htext : q.text env.lua params = some text)
    (hselection : q.selection.isSome) (home : Bytes) :
    Lists accessMessage ((Handler.accessRecords q).run env params (answered db vs q))
        (matching db home (keyed vs (q.selection.bind Prod.snd))) ↔
      ListsWhen env db home vs (.accessRecords q) := by
  obtain ⟨⟨source, key⟩, hselection⟩ := Option.isSome_iff_exists.mp hselection
  simp only [Handler.run, htext, DataHandlers.getTenRecentAccessRecords, Option.bind_some,
    ListsWhen, answered, hselection]
  cases hrows : matching db source (keyed vs key) with
  | nil =>
    simp only [lists_nil]
    constructor
    · intro hhome
      exact ⟨source, key, rfl, hrows, hhome⟩
    · rintro ⟨_, _, hsame, _, hhome⟩
      cases hsame
      exact hhome
  | cons row rows =>
    refine iff_of_false ?_ ?_
    · rintro ⟨_, _, hnone, _⟩
      cases hnone
    · rintro ⟨_, _, hsame, hnil, _⟩
      cases hsame
      rw [hrows] at hnil
      cases hnil

theorem lists_carRecord {text : Bytes} (htext : q.text env.lua params = some text)
    {item : List Member} {columns : List Bytes} (hdescribes : Describes item columns)
    (home : Bytes) :
    Lists item ((Handler.carRecord q item columns).run env params (answered db vs q))
        (matching db home (keyed vs (q.selection.bind Prod.snd))) ↔
      ListsWhen env db home vs (.carRecord q item columns) := by
  simp only [Handler.run, htext, DataHandlers.getUnattendedCarRecord, Option.bind_some,
    ListsWhen, answered]
  cases hselection : q.selection with
  | none =>
    refine iff_of_false ?_ ?_
    · rintro ⟨_, _, hreply, _⟩
      cases hreply
    · rintro ⟨_, _, hnone, _⟩
      cases hnone
  | some s =>
    obtain ⟨source, key⟩ := s
    dsimp only
    cases hrows : matching db source (keyed vs key) with
    | nil =>
      refine iff_of_false ?_ ?_
      · rintro ⟨_, _, hnone, _⟩
        cases hnone
      · rintro ⟨_, _, hsame, hne, _⟩
        cases hsame
        exact hne hrows
    | cons row rows =>
      have htake : (row :: rows).take 10 = row :: rows := by
        rw [← hrows, take_matching]
      simp only [htake, Option.bind_some]
      rw [lists_encodeRows hdescribes]
      constructor
      · intro hall
        exact ⟨source, key, rfl, by rw [hrows]; exact List.cons_ne_nil _ _, by rwa [hrows]⟩
      · rintro ⟨_, _, hsame, _, hall⟩
        cases hsame
        rwa [hrows] at hall

/-- For a key that is read back from the statement as it is, the answer of a handler that lists
records stands for the rows of a table exactly when it is expected to. -/
theorem list_query {service : Service} {name : Bytes} {h : Handler}
    (hmem : (name, h) ∈ resp service) (hlists : listsRows h) (hquery : h.query = some q)
    (hvs : q.scalars env.lua params = some vs) (hverbatim : ∀ v ∈ vs, Verbatim v)
    (home : Bytes) :
    Lists (recordType h) (ask env db params h) (matching db home (keyOf h vs)) ↔
      ListsWhen env db home vs h := by
  have hq := (formats_sound service _ hmem q hquery).1
  have hwellFormed := handlers_wellFormed service _ hmem
  obtain ⟨text, htext⟩ := isSome_text hq hvs
  have hkey : keyOf h vs = keyed vs (q.selection.bind Prod.snd) := by
    rw [keyOf, hquery, Option.bind_some]
  rw [hkey]
  cases h with
  | set | setVisit | get | footTraffic => cases hlists
  | getTen q' item columns =>
    rw [ask_eq hquery hq (by cases hquery; exact hwellFormed.1) hvs hverbatim]
    cases hquery
    exact lists_getTen htext hwellFormed.2 home
  | accessRecords q' =>
    rw [ask_eq hquery hq (by cases hquery; exact hwellFormed.1) hvs hverbatim]
    cases hquery
    exact lists_accessRecords htext hwellFormed.2 home
  | carRecord q' item columns =>
    rw [ask_eq hquery hq (by cases hquery; exact hwellFormed.1) hvs hverbatim]
    cases hquery
    exact lists_carRecord htext hwellFormed.2 home

/-- A measurement, and a day of temperatures. -/
def measured : Tables := fun table =>
  if table = bytes "wet_temp_record" then [wetRow 45]
  else if table = bytes "temp_total" then [[(bytes "time", .text (bytes "t"))]]
  else []

theorem list_query_wet :
    Lists wetTempMessage (ask plainEnv measured [some (bytes "r")] getTenWetTempRecords)
      (matching measured (bytes "wet_temp_record")
        (keyOf getTenWetTempRecords [.text (bytes "r")])) := by
  have hmem : (bytes "get_ten_wet_temp_records", getTenWetTempRecords) ∈
      resp .smartmanagement := List.mem_of_getElem? (i := 12) rfl
  refine (list_query hmem rfl rfl (by decide +kernel) (by decide)
    (bytes "wet_temp_record")).mpr ?_
  refine ⟨wetTempMessage, by decide +kernel, bytes "wet_temp_record",
    some (bytes "record_id", .inl 0), by decide +kernel, ?_⟩
  have hrows : matching measured (bytes "wet_temp_record")
      (keyed [.text (bytes "r")] (some (bytes "record_id", .inl 0))) = [wetRow 45] := by
    decide +kernel
  rw [hrows]
  exact .cons ⟨by decide +kernel, by decide +kernel⟩ .nil

/-- The statement for the days of temperatures has a `where` without a condition. -/
theorem temp_totals_not_listed :
    ¬ Lists tempTotalMessage (ask plainEnv measured [] getTenTempTotalRecords)
      (matching measured (bytes "temp_total") none) := by
  have hask : ask plainEnv measured [] getTenTempTotalRecords = some (.str (bytes "false")) := by
    decide +kernel
  rw [hask]
  exact not_lists_false _ _

end Lists

end Ue4Background.DataServices
