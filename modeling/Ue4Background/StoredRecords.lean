import Ue4Background.DataAnswers

/-!
What a record is when it is fetched. A set command puts its arguments into one row of a table,
and the get command of the same kind answers the message of the first row that has the key. The
record comes back when both name one table, the message has every column under its type, and
every column is copied.
-/

namespace Ue4Background.DataHandlers

open LuaValues Protobuf Sql

/-- A text without quotes and backslashes, or an int32. -/
def Storable : Scalar → Prop
  | .text s => 39 ∉ s ∧ 92 ∉ s
  | .int n => -2 ^ 31 ≤ n ∧ n < 2 ^ 31

instance : (v : Scalar) → Decidable (Storable v)
  | .text _ | .int _ => inferInstanceAs (Decidable (_ ∧ _))

/-- A value that is read back from its place in a statement as it is. -/
def Verbatim : Scalar → Prop
  | .text s => Harmless s
  | .int _ => True

instance : (v : Scalar) → Decidable (Verbatim v)
  | .text s => inferInstanceAs (Decidable (Harmless s))
  | .int _ => inferInstanceAs (Decidable True)

/-- Texts are in quotes and integers are bare. -/
def Typed (ds : List (Slot × Directive)) : Prop :=
  ∀ d ∈ ds, d = (.quoted, .text) ∨ d = (.bare, .number)

instance (ds : List (Slot × Directive)) : Decidable (Typed ds) :=
  inferInstanceAs (Decidable (∀ d ∈ ds, _))

def Directive.kind : Directive → Kind
  | .text => .string
  | .number => .int32

section Execute

variable {lua : Conversions}

theorem harmless_of_free {s : Bytes} (hquote : 39 ∉ s) (hbackslash : 92 ∉ s) : Harmless s := by
  induction s using Harmless.induct with
  | case1 => rfl
  | case2 b =>
    simp only [List.mem_singleton] at hquote hbackslash
    simp [Harmless, Ne.symm hquote, Ne.symm hbackslash]
  | case3 c s ih =>
    exact absurd List.mem_cons_self hbackslash
  | case4 b c s hb ih =>
    obtain ⟨hb', hquote⟩ := not_or.mp (mt List.mem_cons.mpr hquote)
    obtain ⟨_, hbackslash⟩ := not_or.mp (mt List.mem_cons.mpr hbackslash)
    simp [Harmless, hb, Ne.symm hb', ih hquote hbackslash]

theorem Storable.verbatim {v : Scalar} (hv : Storable v) : Verbatim v := by
  cases v with
  | text s => exact harmless_of_free hv.1 hv.2
  | int n => trivial

theorem Storable.fits {v : Scalar} (hv : Storable v) : v.kind.Fits v := by
  cases v with
  | text s => trivial
  | int n => exact hv

theorem kind_value {d : Directive} {arg : Arg} {v : Scalar} (hvalue : d.value lua arg = some v) :
    v.kind = d.kind := by
  cases d with
  | text =>
    cases hvalue
    rfl
  | number =>
    obtain ⟨n, _, rfl⟩ := Option.map_eq_some_iff.mp hvalue
    rfl

/-- The values of a statement have the types of their places. -/
theorem scalars_kinds {ds : List (Slot × Directive)} {args : List Arg}
    (hargs : args.length = ds.length) {vs : List Scalar} (hvs : scalars lua ds args = some vs) :
    List.Forall₂ (fun d v => Scalar.kind v = Directive.kind d.2) ds vs := by
  induction ds, args using scalars.induct generalizing vs with
  | case1 slot d ds arg args ih =>
    simp only [scalars, Option.bind_eq_bind, Option.bind_eq_some_iff, Option.some.injEq] at hvs
    obtain ⟨v, hv, ws, hws, rfl⟩ := hvs
    exact .cons (kind_value hv) (ih (Nat.succ.inj hargs) hws)
  | case2 ds args hne =>
    rw [scalars] at hvs
    · cases hvs
      rcases ds with _ | ⟨d, ds⟩
      · exact .nil
      · cases args with
        | nil => cases hargs
        | cons arg args => exact (hne d.1 d.2 ds arg args rfl rfl).elim
    · exact hne

theorem fits_pieces {ps : List Piece} (htyped : Typed (placeholders ps)) {vs : List Scalar}
    (hvs : List.Forall₂ (fun d v => Scalar.kind v = Directive.kind d.2) (placeholders ps) vs) :
    Fits (ps.map Piece.segment) vs := by
  induction ps generalizing vs with
  | nil => trivial
  | cons p ps ih =>
    cases hslot : p.segment.slot with
    | none =>
      have hplaces : placeholders (p :: ps) = placeholders ps := by simp [placeholders, hslot]
      rw [hplaces] at htyped hvs
      simpa [Fits, hslot] using ih htyped hvs
    | some slot =>
      have hplaces : placeholders (p :: ps) = (slot, p.directive) :: placeholders ps := by
        simp [placeholders, hslot]
      rw [hplaces] at htyped hvs
      obtain ⟨hd, htyped⟩ := List.forall_mem_cons.mp htyped
      cases hvs with
      | @cons _ v _ ws hv hws =>
        have hfits : slot.Fits v := by
          simp only [Prod.mk.injEq] at hd
          rcases hd with ⟨rfl, hd⟩ | ⟨rfl, hd⟩ <;> rw [hd] at hv <;> cases v <;> trivial
        simpa [Fits, hslot, hfits] using ih htyped hws

/-- A statement whose values are read back as they are does what its format says. -/
theorem Query.execute_text {q : Query} (hq : q.Sound) (htyped : Typed q.places)
    {params : List Arg} {vs : List Scalar} (hvs : q.scalars lua params = some vs)
    (hverbatim : ∀ v ∈ vs, Verbatim v) (db : Tables) :
    (q.text lua params).bind (fun sql => execute sql db) =
      (parseStatement (template 0 q.segments)).bind fun s =>
        (s.map (Sum.elim (fun i => (vs[i]?).getD (.text [])) id)).run db := by
  rw [q.text_eq hq, hvs, Option.map_some, Option.bind_some]
  obtain ⟨_, hlength, _, hsound, hne, hbare, _⟩ := hq
  have hargs := (q.length_values params).trans hlength
  refine execute_statement hne hsound (fits_pieces htyped (scalars_kinds hargs hvs)) ?_ db
  refine (forall_assign_iff (C := fun _ _ => True) hargs hvs
    (fun p _ hnone => by simp [Segment.Safe, hnone]) ?_).mpr fun _ _ => trivial
  intro p hp slot hslot arg _ v hmem hv
  refine iff_true_intro ((safe_value hbare hp hslot hv).mpr ?_)
  have hd := htyped _ (List.mem_filterMap.mpr ⟨p, hp, by rw [hslot]; rfl⟩)
  simp only [Prod.mk.injEq] at hd
  rcases hd with ⟨rfl, hd⟩ | ⟨rfl, hd⟩
  · rw [hd] at hv ⊢
    cases hv
    exact hverbatim _ hmem
  · rw [hd]
    trivial

end Execute

section Fetch

theorem lookup_of_mem {α β : Type} [BEq α] [LawfulBEq α] {l : List (α × β)}
    (hl : (l.map Prod.fst).Nodup) {e : α × β} (he : e ∈ l) : l.lookup e.1 = some e.2 := by
  induction l with
  | nil => cases he
  | cons f l ih =>
    obtain ⟨hfresh, hl⟩ := List.nodup_cons.mp hl
    rcases List.mem_cons.mp he with rfl | he
    · exact List.lookup_cons_self
    · have hne : e.1 ≠ f.1 := fun heq => hfresh (heq ▸ List.mem_map_of_mem he)
      rw [List.lookup_cons, beq_eq_false_iff_ne.mpr hne]
      exact ih hl he

theorem mem_of_lookup {α β : Type} [BEq α] [LawfulBEq α] {l : List (α × β)} {a : α} {b : β}
    (h : l.lookup a = some b) : (a, b) ∈ l := by
  obtain ⟨l₁, l₂, rfl, _⟩ := List.lookup_eq_some_iff.mp h
  simp

/-- A table made of some keys looks up as its function does. -/
theorem lookup_collected (f : Bytes → Option Scalar) (keys : List Bytes) (k : Bytes) :
    (keys.filterMap fun k => (f k).map fun v => (k, v)).lookup k =
      if k ∈ keys then f k else none := by
  induction keys with
  | nil => rfl
  | cons k' keys ih =>
    by_cases hk : k = k'
    · subst hk
      cases hf : f k with
      | none => simp [hf, ih]
      | some v => simp [hf]
    · cases hf : f k' with
      | none => simp [hf, ih, hk]
      | some v => simp [hf, ih, hk, List.lookup_cons, beq_eq_false_iff_ne.mpr hk]

theorem nodup_collected (f : Bytes → Option Scalar) {keys : List Bytes} (hkeys : keys.Nodup) :
    ((keys.filterMap fun k => (f k).map fun v => (k, v)).map Prod.fst).Nodup := by
  induction keys with
  | nil => simp
  | cons k keys ih =>
    obtain ⟨hfresh, hkeys⟩ := List.nodup_cons.mp hkeys
    cases hf : f k with
    | none => simpa [hf] using ih hkeys
    | some v =>
      simp only [List.filterMap_cons, hf, Option.map_some, List.map_cons, List.nodup_cons]
      refine ⟨fun hmem => hfresh ?_, ih hkeys⟩
      obtain ⟨e, he, rfl⟩ := List.mem_map.mp hmem
      obtain ⟨k', hk', hmap⟩ := List.mem_filterMap.mp he
      obtain ⟨w, _, rfl⟩ := Option.map_eq_some_iff.mp hmap
      exact hk'

variable {env : Env} {ds : List Member}

theorem lookup_writeFields (hnames : (ds.map Member.name).Nodup)
    (hnumbers : (ds.map Member.number).Nodup) {data : List (Bytes × Scalar)}
    (hdata : (data.map Prod.fst).Nodup) {fs : List (ℕ × Scalar)}
    (hfs : writeFields env.lua ds data = some fs) :
    (fs.map Prod.fst).Nodup ∧ ∀ d ∈ ds, fs.lookup d.number =
      (data.lookup d.name).bind fun v =>
        if d.label = .optional ∧ coerce env.lua d.kind v = d.kind.default then none
        else some (coerce env.lua d.kind v) := by
  induction data generalizing fs with
  | nil =>
    cases hfs
    simp
  | cons e data ih =>
    obtain ⟨k, v⟩ := e
    obtain ⟨hfresh, hdata⟩ := List.nodup_cons.mp hdata
    simp only [writeFields, Option.bind_eq_bind, Option.bind_eq_some_iff, Option.some.injEq]
      at hfs
    obtain ⟨first, hfirst, rest, hrest, rfl⟩ := hfs
    obtain ⟨hnodup, hlookup⟩ := ih hdata hrest
    obtain ⟨d₀, hfind, rfl⟩ := Option.map_eq_some_iff.mp hfirst
    have hd₀ := List.mem_of_find?_eq_some hfind
    obtain rfl : d₀.name = k := by simpa using List.find?_some hfind
    have hnone : rest.lookup d₀.number = none := by
      have hkey : data.lookup d₀.name = none :=
        List.lookup_eq_none_iff.mpr fun e he => by
          have hmem : e.1 ∈ data.map Prod.fst := List.mem_map_of_mem he
          have hne : d₀.name ≠ e.1 := fun heq => hfresh (heq ▸ hmem)
          simpa using hne
      rw [hlookup d₀ hd₀, hkey]
      rfl
    have hsame : ∀ d ∈ ds, d.number = d₀.number ↔ d.name = d₀.name := fun d hd =>
      ⟨fun heq => by rw [List.inj_on_of_nodup_map hnumbers hd hd₀ heq],
        fun heq => by rw [List.inj_on_of_nodup_map hnames hd hd₀ heq]⟩
    have hnumber : d₀.number ∉ rest.map Prod.fst := fun hmem => by
      obtain ⟨f, hf, heq⟩ := List.mem_map.mp hmem
      simpa [heq] using List.lookup_eq_none_iff.mp hnone f hf
    refine ⟨?_, fun d hd => ?_⟩
    · split
      · exact hnodup
      · exact List.nodup_cons.mpr ⟨hnumber, hnodup⟩
    · by_cases heq : d.name = d₀.name
      · obtain rfl := List.inj_on_of_nodup_map hnames hd hd₀ heq
        rw [List.lookup_cons_self, Option.bind_some]
        split
        · exact hnone
        · exact List.lookup_cons_self
      · have hkey : ((d₀.name, v) :: data).lookup d.name = data.lookup d.name := by
          rw [List.lookup_cons, beq_eq_false_iff_ne.mpr heq]
        have hother : d.number ≠ d₀.number := fun h => heq ((hsame d hd).mp h)
        rw [hkey, ← hlookup d hd]
        split
        · rfl
        · rw [List.singleton_append, List.lookup_cons, beq_eq_false_iff_ne.mpr hother]

theorem lookup_entries_copied (i : ℕ) {columns : List Bytes} (row : Row) (k : Bytes) :
    (entries env i (copied columns row)).lookup k = if k ∈ columns then row.lookup k else none := by
  have hcopied : ∀ k, (copied columns row).lookup k = if k ∈ columns then row.lookup k else none :=
    lookup_collected (fun c => row.lookup c) columns
  rw [entries, lookup_collected, hcopied]
  refine ite_eq_left_iff.mpr fun hmem => ?_
  rw [(env.pairs.perm i _).mem_iff] at hmem
  rw [← hcopied]
  exact (List.lookup_eq_none_iff.mpr fun e he => by
    have hkey : e.1 ∈ (copied columns row).map Prod.fst := List.mem_map_of_mem he
    have hne : k ≠ e.1 := fun heq => hmem (heq ▸ hkey)
    simpa using hne).symm

theorem coerce_kind (lua : Conversions) (kind : Kind) (v : Scalar) :
    (coerce lua kind v).kind = kind := by
  cases kind <;> cases v <;> rfl

theorem coerce_eq_self {lua : Conversions} {kind : Kind} {v : Scalar} (h : v.kind = kind) :
    coerce lua kind v = v := by
  subst h
  cases v <;> rfl

/-- What a row becomes in a member of its message: the column that was copied, converted to
the type of the member, or the default. -/
def conveyed (lua : Conversions) (columns : List Bytes) (row : Row) (d : Member) : Scalar :=
  ((if d.name ∈ columns then row.lookup d.name else none).map fun v =>
    d.kind.truncate (coerce lua d.kind v)).getD d.kind.default

/-- Required members are copied, and the row has them. -/
def Supplies (ds : List Member) (columns : List Bytes) (row : Row) : Prop :=
  ∀ d ∈ ds, d.label = .required → d.name ∈ columns ∧ (row.lookup d.name).isSome

instance (ds : List Member) (columns : List Bytes) (row : Row) :
    Decidable (Supplies ds columns row) :=
  inferInstanceAs (Decidable (∀ d ∈ ds, _))

/-- The message of a row is decoded when the row supplies it. -/
theorem decode_rowFields (hnames : (ds.map Member.name).Nodup)
    (hnumbers : (ds.map Member.number).Nodup) {columns : List Bytes} (hcolumns : columns.Nodup)
    {i : ℕ} {row : Row} {fs : List (ℕ × Scalar)} (hfs : rowFields env ds columns i row = some fs)
    {fields : List (Bytes × Scalar)} :
    decode ds (encodeFields fs) = some fields ↔
      Supplies ds columns row ∧
        fields = ds.map fun d => (d.name, conveyed env.lua columns row d) := by
  have hkeys : ((copied columns row).map Prod.fst).Nodup :=
    nodup_collected (fun c => row.lookup c) hcolumns
  have hentries : ((entries env i (copied columns row)).map Prod.fst).Nodup :=
    nodup_collected (fun c => (copied columns row).lookup c)
      ((env.pairs.perm i _).nodup_iff.mpr hkeys)
  obtain ⟨hnodup, hlookup⟩ := lookup_writeFields hnames hnumbers hentries hfs
  have hread : ∀ d ∈ ds, fs.lookup d.number =
      (if d.name ∈ columns then row.lookup d.name else none).bind fun v =>
        if d.label = .optional ∧ coerce env.lua d.kind v = d.kind.default then none
        else some (coerce env.lua d.kind v) := fun d hd => by
    rw [hlookup d hd, lookup_entries_copied]
  have hkind : ∀ d ∈ ds, ∀ v, fs.lookup d.number = some v → v.kind = d.kind :=
    fun d hd v hv => by
      rw [hread d hd] at hv
      obtain ⟨w, _, hw⟩ := Option.bind_eq_some_iff.mp hv
      split at hw
      · cases hw
      · rw [← Option.some.inj hw]
        exact coerce_kind env.lua d.kind w
  have hrequired : ∀ d ∈ ds, d.label = .required →
      ((fs.lookup d.number).isSome ↔ d.name ∈ columns ∧ (row.lookup d.name).isSome) :=
    fun d hd hlabel => by
      rw [hread d hd]
      by_cases hmem : d.name ∈ columns
      · cases hrow : row.lookup d.name with
        | none => simp [hmem]
        | some v => simp [hmem, hlabel]
      · simp [hmem]
  have hvalue : ∀ d ∈ ds, ((fs.lookup d.number).map d.kind.truncate).getD d.kind.default =
      conveyed env.lua columns row d := fun d hd => by
    rw [hread d hd, conveyed]
    cases if d.name ∈ columns then row.lookup d.name else none with
    | none => rfl
    | some v =>
      rw [Option.bind_some, Option.map_some, Option.getD_some]
      split
      · next hdefault =>
        rw [hdefault.2]
        cases d.kind <;> rfl
      · rfl
  rw [decode_encodeFields_iff hnodup hkind]
  refine and_congr (forall₂_congr fun d hd => imp_congr_right (hrequired d hd)) ?_
  rw [List.map_congr_left fun d hd => by rw [hvalue d hd]]

/-- Decoding the message of a row gives every member the column that was copied, or its
default. -/
theorem decode_encodeRow (hnames : (ds.map Member.name).Nodup)
    (hnumbers : (ds.map Member.number).Nodup) {columns : List Bytes} (hcolumns : columns.Nodup)
    {row : Row} (hmembers : Encodable ds columns row)
    (hrow : ∀ d ∈ ds, ∀ v, row.lookup d.name = some v → d.kind.Fits v)
    (hrequired : Supplies ds columns row) :
    ∃ payload, encodeRow env ds columns row = some payload ∧
      decode ds payload = some (ds.map fun d =>
        (d.name, (if d.name ∈ columns then row.lookup d.name else none).getD d.kind.default)) := by
  obtain ⟨fs, hfs⟩ := Option.isSome_iff_exists.mp ((isSome_rowFields 0 row).mpr hmembers)
  refine ⟨encodeFields fs, by rw [encodeRow, hfs]; rfl, ?_⟩
  refine (decode_rowFields hnames hnumbers hcolumns hfs).mpr ⟨hrequired, ?_⟩
  refine List.map_congr_left fun d hd => ?_
  by_cases hmem : d.name ∈ columns
  · cases hvalue : row.lookup d.name with
    | none => simp [conveyed, hmem, hvalue]
    | some v =>
      have hfits := hrow d hd v hvalue
      have hkept : d.kind.truncate (coerce env.lua d.kind v) = v := by
        rw [coerce_eq_self hfits.kind_eq, (Kind.truncate_eq_iff hfits.kind_eq).mpr hfits]
      simp [conveyed, hmem, hvalue, hkept]
  · simp [conveyed, hmem]

end Fetch

end Ue4Background.DataHandlers

namespace Ue4Background.DataServices

open LuaValues Protobuf Sql DataHandlers

/-- The command of a name, with its handler. -/
def route (name : Bytes) : Option (Command × Handler) :=
  (client.lookup name).bind fun c => ((resp c.service).lookup c.remote).map fun h => (c, h)

/-- The values in the statement of a command. -/
def values (env : Env) (msg : List Bytes) : Option (List Scalar) :=
  (route (msg.headD [])).bind fun r =>
    r.2.query.bind fun q => q.scalars env.lua (r.1.params msg)

/-- The rows that the statement of a command answers, and the tables afterwards. -/
def queried (env : Env) (db : Tables) (msg : List Bytes) : Option (List Row × Tables) :=
  (route (msg.headD [])).bind fun r =>
    r.2.query.bind fun q => (q.text env.lua (r.1.params msg)).bind fun sql => execute sql db

/-- What the agent answers to a command, and the tables afterwards. -/
def serve (env : Env) (db : Tables) (msg : List Bytes) : Option Ret × Tables :=
  match route (msg.headD []) with
  | none => (none, db)
  | some (c, _) =>
    match queried env db msg with
    | some (rs, db') => (c.reply env msg (.rows rs), db')
    | none => (c.reply env msg .err, db)

/-- The kinds of records that are stored and fetched one by one. -/
inductive Record
  | wetTemp
  | camera
  | smoke
  | rescuePlatform
  | theftAgainst
  | propertyGuarantee
  | policeService
  | fireControl
  | elevator
  | equipment
  | comfortService
  | comEnv
  | humantemp
  | electricity
  | water
  | garbage
  deriving DecidableEq

def Record.setName : Record → Bytes
  | .wetTemp => bytes "set_wet_temp_record"
  | .camera => bytes "set_camera_record"
  | .smoke => bytes "set_somke_record"
  | .rescuePlatform => bytes "set_rescue_platform_record"
  | .theftAgainst => bytes "set_theft_against_record"
  | .propertyGuarantee => bytes "set_property_guarantee_record"
  | .policeService => bytes "set_police_service_record"
  | .fireControl => bytes "set_fire_control_record"
  | .elevator => bytes "set_elevator_record"
  | .equipment => bytes "set_equipment_record"
  | .comfortService => bytes "set_comfort_service_record"
  | .comEnv => bytes "set_com_env"
  | .humantemp => bytes "set_humantemp_record"
  | .electricity => bytes "set_electricity_record"
  | .water => bytes "set_water_record"
  | .garbage => bytes "set_garbage_record"

def Record.getName : Record → Bytes
  | .wetTemp => bytes "get_wet_temp_record"
  | .camera => bytes "get_camera_record"
  | .smoke => bytes "get_smoke_record"
  | .rescuePlatform => bytes "get_rescue_platform_record"
  | .theftAgainst => bytes "get_theft_against_record"
  | .propertyGuarantee => bytes "get_property_guarantee_record"
  | .policeService => bytes "get_police_service_record"
  | .fireControl => bytes "get_fire_control_record"
  | .elevator => bytes "get_elevator_record"
  | .equipment => bytes "get_equipment_record"
  | .comfortService => bytes "get_comfort_service_record"
  | .comEnv => bytes "get_com_env_record"
  | .humantemp => bytes "get_humantemp_record"
  | .electricity => bytes "get_elepower_record"
  | .water => bytes "get_waterpower_record"
  | .garbage => bytes "get_garbage_record"

def Record.message : Record → List Member
  | .wetTemp => wetTempMessage
  | .camera => cameraMessage
  | .smoke => smokeMessage
  | .rescuePlatform => rescuePlatformMessage
  | .theftAgainst => theftAgainstMessage
  | .propertyGuarantee => propertyGuaranteeMessage
  | .policeService => policeServiceMessage
  | .fireControl => fireControlMessage
  | .elevator => elevatorMessage
  | .equipment => equipmentMessage
  | .comfortService => comfortServiceMessage
  | .comEnv => comEnvMessage
  | .humantemp => humantempMessage
  | .electricity => elepowerMessage
  | .water => waterpowerMessage
  | .garbage => garbageMessage

/-- The answer is a message that has the values of a row. -/
def Fetched (members : List Member) (reply : Option Ret) (row : Row) : Prop :=
  ∃ payload fields, reply = some (.str payload) ∧ decode members payload = some fields ∧
    ∀ e ∈ row, fields.lookup e.1 = some e.2

/-- The table that a command inserts into, and its columns with the types of the values. -/
def inserted (name : Bytes) : Option (Bytes × List (Bytes × Kind)) :=
  match route name with
  | some (c, .set q) =>
    match parseStatement (template 0 q.segments) with
    | some (.insert table columns values) =>
      if c.failed = none ∧ Typed q.places ∧ columns.length = q.places.length ∧
          values = (List.range columns.length).map Sum.inl then
        some (table, columns.zip (q.places.map fun d => d.2.kind))
      else none
    | _ => none
  | _ => none

/-- The table that a command selects from, the column of its key, and its limit. -/
def selected (name : Bytes) : Option (Bytes × Option Bytes × ℕ) :=
  (route name).bind fun r => r.2.query.bind fun q =>
    if Typed q.places ∧ q.places.length ≤ 1 then
      match parseStatement (template 0 q.segments) with
      | some (.select table none (.inr (.int n))) => some (table, none, n.toNat)
      | some (.select table (some (column, .inl 0)) (.inr (.int n))) =>
        if q.places.length = 1 then some (table, some column, n.toNat) else none
      | _ => none
    else none

/-- The message type and the columns of a single record. -/
def fetches (name : Bytes) : Option (Option (List Member) × List Bytes) :=
  match route name with
  | some (c, .get _ _ message columns) => if c.failed = none then some (message, columns) else none
  | _ => none

section Serve

variable {env : Env} {name : Bytes} {args : List Bytes} {vs : List Scalar}

theorem length_of_scalars {q : Query} (hq : q.Sound) {params : List Arg}
    (hvs : q.scalars env.lua params = some vs) (hstorable : ∀ v ∈ vs, Storable v) :
    List.Forall₂ (fun d v => (Directive.kind d.2).Fits v) q.places vs := by
  have hkinds := scalars_kinds ((q.length_values params).trans hq.2.1) hvs
  refine List.forall₂_iff_zip.mpr ⟨hkinds.length_eq, fun {d v} hmem => ?_⟩
  rw [← List.forall₂_zip hkinds hmem]
  exact (hstorable v (List.of_mem_zip hmem).2).fits

theorem route_lookup {c : Command} {h : Handler} (hroute : route name = some (c, h)) :
    (resp c.service).lookup c.remote = some h := by
  obtain ⟨c', _, hmap⟩ := Option.bind_eq_some_iff.mp hroute
  obtain ⟨h', hlookup, heq⟩ := Option.map_eq_some_iff.mp hmap
  cases heq
  exact hlookup

theorem route_sound {c : Command} {h : Handler} (hroute : route name = some (c, h)) :
    ∀ q ∈ h.query, q.Sound :=
  fun q hq => (formats_sound c.service _ (mem_of_lookup (route_lookup hroute)) q hq).1

theorem call_eq {c : Command} {h : Handler} (hroute : route name = some (c, h))
    (msg : List Bytes) (outcome : Outcome) :
    c.call env msg outcome = h.run env (c.params msg) outcome := by
  rw [Command.call, route_lookup hroute, Option.bind_some]

theorem fill_range (vs : List Scalar) (n : ℕ) (hn : n = vs.length) (d : Scalar) :
    ((List.range n).map fun i => (vs[i]?).getD d) = vs := by
  subst hn
  refine List.ext_getElem (by simp) fun i hi hi' => ?_
  simp [hi']

theorem forall₂_zip {names : List Bytes} {ds : List (Slot × Directive)}
    (hlength : names.length = ds.length)
    (hvs : List.Forall₂ (fun d v => (Directive.kind d.2).Fits v) ds vs) :
    List.Forall₂ (fun e v => (Prod.snd e : Kind).Fits v) (names.zip (ds.map fun d => d.2.kind))
      vs := by
  induction hvs generalizing names with
  | nil => simp
  | cons hv _ ih =>
    cases names with
    | nil => cases hlength
    | cons name names => exact .cons hv (ih (Nat.succ.inj hlength))

/-- A set command appends one row, which has its values in their order, and answers true. -/
theorem serve_inserted {table : Bytes} {columns : List (Bytes × Kind)}
    (hname : inserted name = some (table, columns)) (hvs : values env (name :: args) = some vs)
    (hstorable : ∀ v ∈ vs, Storable v) (db : Tables) :
    serve env db (name :: args) = (some (.str (bytes "true")),
      Function.update db table (db table ++ [(columns.map Prod.fst).zip vs])) ∧
    List.Forall₂ (fun e v => (Prod.snd e : Kind).Fits v) columns vs := by
  unfold inserted at hname
  split at hname
  · next c q hroute =>
    split at hname
    · next table' names vals hparse =>
      split at hname
      · next hchecks =>
        obtain ⟨hfailed, htyped, hlength, rfl⟩ := hchecks
        cases hname
        have hsound : q.Sound := route_sound hroute q rfl
        have hscalars : q.scalars env.lua (c.params (name :: args)) = some vs := by
          simpa [values, hroute, Handler.query] using hvs
        have hkinds := length_of_scalars hsound hscalars hstorable
        have hcount : names.length = vs.length := hlength.trans hkinds.length_eq
        have hexecute := Query.execute_text hsound htyped hscalars
          (fun v hv => (hstorable v hv).verbatim) db
        have hnames : ((names.zip (q.places.map fun d => d.2.kind)).map Prod.fst) = names :=
          List.map_fst_zip (by simp [hlength])
        have hfill : ((List.range names.length).map Sum.inl).map
            (Sum.elim (fun i => (vs[i]?).getD (.text [])) id) = vs := by
          rw [List.map_map]
          exact fill_range vs _ hcount _
        rw [hparse, Option.bind_some, Statement.map, hfill, Statement.run, if_pos hcount]
          at hexecute
        refine ⟨?_, forall₂_zip hlength hkinds⟩
        obtain ⟨text, htext, _⟩ := Option.bind_eq_some_iff.mp hexecute
        have hqueried : queried env db (name :: args) =
            some ([], Function.update db table (db table ++ [names.zip vs])) := by
          simpa [queried, hroute, Handler.query] using hexecute
        have hcall : c.call env (name :: args) (.rows []) = some (.str (bytes "true")) := by
          rw [call_eq hroute, Handler.run, htext]
          rfl
        rw [hnames, serve, List.headD_cons, hroute, hqueried]
        simp only [Command.reply, hcall]
      · cases hname
    · cases hname
  · cases hname

/-- A get command answers the first rows with its key. -/
theorem queried_selected {table : Bytes} {key : Option Bytes} {n : ℕ}
    (hname : selected name = some (table, key, n)) (hvs : values env (name :: args) = some vs)
    (hstorable : ∀ v ∈ vs, Storable v) (db : Tables) :
    queried env db (name :: args) =
      some (((db table).filter (hasKey (key.map fun k => (k, vs.headD (.text []))))).take n, db) ∧
    (key = none ∨ ∃ v, vs = [v]) := by
  obtain ⟨⟨c, h⟩, hroute, hname⟩ := Option.bind_eq_some_iff.mp hname
  obtain ⟨q, hquery, hname⟩ := Option.bind_eq_some_iff.mp hname
  split at hname
  · next hchecks =>
    obtain ⟨htyped, _⟩ := hchecks
    have hsound : q.Sound := route_sound hroute q hquery
    have hscalars : q.scalars env.lua (c.params (name :: args)) = some vs := by
      simpa [values, hroute, hquery] using hvs
    have hexecute := Query.execute_text hsound htyped hscalars
      (fun v hv => (hstorable v hv).verbatim) db
    have hqueried : queried env db (name :: args) = (q.text env.lua (c.params (name :: args))).bind
        fun sql => execute sql db := by
      simp [queried, hroute, hquery]
    rw [← hqueried] at hexecute
    split at hname
    · next table' limit hparse =>
      cases hname
      rw [hparse] at hexecute
      exact ⟨hexecute, Or.inl rfl⟩
    · next table' column limit hparse =>
      split at hname
      · next hone =>
        cases hname
        have hcount := (length_of_scalars hsound hscalars hstorable).length_eq
        obtain ⟨v, rfl⟩ := List.length_eq_one_iff.mp (hcount.symm.trans hone)
        rw [hparse] at hexecute
        exact ⟨hexecute, Or.inr ⟨v, rfl⟩⟩
      · cases hname
    · cases hname
  · cases hname

theorem text_of_queried {c : Command} {h : Handler} (hroute : route name = some (c, h)) {q : Query}
    (hquery : h.query = some q) {db : Tables} {answer : List Row × Tables}
    (hrows : queried env db (name :: args) = some answer) :
    ∃ text, q.text env.lua (c.params (name :: args)) = some text := by
  have hbind : (q.text env.lua (c.params (name :: args))).bind
      (fun sql => execute sql db) = some answer := by
    simpa [queried, hroute, hquery] using hrows
  obtain ⟨text, htext, _⟩ := Option.bind_eq_some_iff.mp hbind
  exact ⟨text, htext⟩

/-- A single record is not answered when there is no row, and is the message of the first one
otherwise. -/
theorem serve_fetches {message : Option (List Member)} {columns : List Bytes}
    (hname : fetches name = some (message, columns)) {db db' : Tables} {rs : List Row}
    (hrows : queried env db (name :: args) = some (rs, db')) :
    (serve env db (name :: args)).1 = rs.head?.bind fun row =>
      message.bind fun members => (encodeRow env members columns row).map .str := by
  unfold fetches at hname
  split at hname
  · next c peek q message' columns' hroute =>
    split at hname
    · next hfailed =>
      cases hname
      have hcall : c.call env (name :: args) (.rows rs) = _ := call_eq hroute _ _
      obtain ⟨text, htext⟩ := text_of_queried hroute rfl hrows
      rw [Handler.run, htext] at hcall
      rw [serve, List.headD_cons, hroute]
      simp only [hrows, Command.reply, hcall, getRecord, Option.bind_some]
      cases rs with
      | nil => simp [hfailed]
      | cons row rs =>
        simp only [List.head?_cons, Option.bind_some]
        cases hret : message.bind fun members =>
            (encodeRow env members columns row).map Ret.str with
        | none => simp [hfailed]
        | some ret =>
          obtain ⟨members, _, hmap⟩ := Option.bind_eq_some_iff.mp hret
          obtain ⟨payload, _, rfl⟩ := Option.map_eq_some_iff.mp hmap
          rfl
    · cases hname
  · cases hname

end Serve

/-- Which records come back. -/
def Record.Faithful (vs : List Scalar) : Record → Prop
  | .wetTemp | .camera | .rescuePlatform | .propertyGuarantee | .equipment | .comfortService
  | .electricity => True
  | .comEnv => vs[1]? = some (.text [])
  | .smoke | .theftAgainst | .policeService | .fireControl | .elevator | .humantemp | .water
  | .garbage => False

section Records

variable {env : Env} {setName getName : Bytes} {key : List Bytes} {vs ks : List Scalar}
  {db : Tables} {table source : Bytes} {columns : List (Bytes × Kind)} {keyColumn : Option Bytes}
  {n : ℕ}

/-- The row of a record. -/
def stored (columns : List (Bytes × Kind)) (vs : List Scalar) : Row :=
  (columns.map Prod.fst).zip vs

/-- When nothing was found before, the row is found if it is in the table that is read. -/
theorem queried_stored (hget : selected getName = some (source, keyColumn, n)) (hn : 0 < n)
    (hfirst : source = table → ∀ k ∈ keyColumn, columns.head?.map Prod.fst = some k)
    (hkinds : List.Forall₂ (fun e v => (Prod.snd e : Kind).Fits v) columns vs)
    (hstorable : ∀ v ∈ vs, Storable v) (hks : values env (getName :: key) = some ks)
    (hkey : ∀ k ∈ ks, vs.head? = some k)
    (hempty : (queried env db (getName :: key)).map Prod.fst = some []) :
    (queried env (Function.update db table (db table ++ [stored columns vs]))
      (getName :: key)).map Prod.fst =
        some (if source = table then [stored columns vs] else []) := by
  have hks' : ∀ k ∈ ks, Storable k := fun k hk =>
    hstorable k (List.mem_of_mem_head? (hkey k hk))
  have hbefore := (queried_selected hget hks hks' db).1
  obtain ⟨hafter, hone⟩ := queried_selected hget hks hks'
    (Function.update db table (db table ++ [stored columns vs]))
  rw [hbefore, Option.map_some, Option.some.injEq] at hempty
  rw [hafter, Option.map_some]
  by_cases hsame : source = table
  · subst hsame
    have hnone : (db source).filter (hasKey (keyColumn.map fun k => (k, ks.headD (.text [])))) =
        [] := by
      rcases List.take_eq_nil_iff.mp hempty with hzero | hnil
      · omega
      · exact hnil
    have hrow : hasKey (keyColumn.map fun k => (k, ks.headD (.text []))) (stored columns vs) := by
      cases hcolumn : keyColumn with
      | none => rfl
      | some k =>
        have hhead := hfirst rfl k hcolumn
        obtain ⟨v, rfl⟩ : ∃ v, ks = [v] := hone.resolve_left (by rw [hcolumn]; simp)
        have hv := hkey v List.mem_cons_self
        cases hkinds with
        | nil => cases hv
        | cons _ _ =>
          cases hhead
          cases hv
          simp [hasKey, stored]
    rw [Function.update_self, List.filter_append, hnone, List.nil_append,
      List.filter_cons_of_pos hrow, List.filter_nil,
      List.take_of_length_le (show [stored columns vs].length ≤ n from hn), if_pos rfl]
  · rw [Function.update_of_ne hsame, hempty, if_neg hsame]

theorem lookup_members {ds : List Member} (hnames : (ds.map Member.name).Nodup)
    (f : Member → Scalar) {d : Member} (hd : d ∈ ds) :
    (ds.map fun d => (d.name, f d)).lookup d.name = some (f d) := by
  have hkeys : ((ds.map fun d => (d.name, f d)).map Prod.fst).Nodup := by rwa [List.map_map]
  have hmem : (d.name, f d) ∈ ds.map fun d => (d.name, f d) := List.mem_map.mpr ⟨d, hd, rfl⟩
  exact lookup_of_mem hkeys hmem

theorem mem_stored (hkinds : List.Forall₂ (fun e v => (Prod.snd e : Kind).Fits v) columns vs)
    {e : Bytes × Scalar} (he : e ∈ stored columns vs) :
    ∃ kind : Kind, (e.1, kind) ∈ columns ∧ kind.Fits e.2 := by
  induction hkinds with
  | nil => cases he
  | @cons c v columns vs hv _ ih =>
    rcases List.mem_cons.mp he with rfl | he
    · exact ⟨c.2, List.mem_cons_self, hv⟩
    · obtain ⟨kind, hmem, hfits⟩ := ih he
      exact ⟨kind, List.mem_cons_of_mem c hmem, hfits⟩

theorem stored_mem (hkinds : List.Forall₂ (fun e v => (Prod.snd e : Kind).Fits v) columns vs)
    {c : Bytes × Kind} (hc : c ∈ columns) : ∃ v, (c.1, v) ∈ stored columns vs ∧ c.2.Fits v := by
  induction hkinds with
  | nil => cases hc
  | @cons c' v columns vs hv _ ih =>
    rcases List.mem_cons.mp hc with rfl | hc
    · exact ⟨v, List.mem_cons_self, hv⟩
    · obtain ⟨w, hmem, hfits⟩ := ih hc
      exact ⟨w, List.mem_cons_of_mem _ hmem, hfits⟩

/-- Required members are stored, and copied. -/
def Required (ds : List Member) (names copied : List Bytes) : Prop :=
  ∀ d ∈ ds, d.label = .required → d.name ∈ copied ∧ d.name ∈ names

instance (ds : List Member) (names copied : List Bytes) : Decidable (Required ds names copied) :=
  inferInstanceAs (Decidable (∀ d ∈ ds, _))

/-- A fetched row has every column that is copied, and the default in every other. -/
theorem fetched_iff {ds : List Member} {copied : List Bytes}
    (hkinds : List.Forall₂ (fun e v => (Prod.snd e : Kind).Fits v) columns vs)
    (hcolumns : (columns.map Prod.fst).Nodup) (hcopied : copied.Nodup)
    (hnames : (ds.map Member.name).Nodup) (hnumbers : (ds.map Member.number).Nodup)
    (hmembers : ∀ c ∈ columns, ∃ d ∈ ds, d.name = c.1 ∧ d.kind = c.2)
    (hrequired : Required ds (columns.map Prod.fst) copied) :
    Fetched ds ((encodeRow env ds copied (stored columns vs)).map .str) (stored columns vs) ↔
      ∀ e ∈ stored columns vs, e.1 ∉ copied → ∀ d ∈ ds, d.name = e.1 → e.2 = d.kind.default := by
  have hkeys : (stored columns vs).map Prod.fst = columns.map Prod.fst :=
    List.map_fst_zip (by simp [hkinds.length_eq])
  have hnodup : ((stored columns vs).map Prod.fst).Nodup := by rwa [hkeys]
  have hmember : ∀ {c v}, (stored columns vs).lookup c = some v →
      ∃ d ∈ ds, d.name = c ∧ d.kind.Fits v := fun {c v} hv => by
    obtain ⟨kind, hmem, hfits⟩ := mem_stored hkinds (mem_of_lookup hv)
    obtain ⟨d, hd, hname, rfl⟩ := hmembers _ hmem
    exact ⟨d, hd, hname, hfits⟩
  obtain ⟨payload, hpayload, hdecode⟩ : ∃ payload,
      encodeRow env ds copied (stored columns vs) = some payload ∧
        decode ds payload = some _ := decode_encodeRow hnames hnumbers hcopied
    (fun c _ hsome => by
      obtain ⟨v, hv⟩ := Option.isSome_iff_exists.mp hsome
      obtain ⟨d, hd, hname, _⟩ := hmember hv
      exact ⟨d, hd, hname⟩)
    (fun d hd v hv => by
      obtain ⟨d', hd', hname, hfits⟩ := hmember hv
      rwa [List.inj_on_of_nodup_map hnames hd' hd hname] at hfits)
    (fun d hd hlabel => by
      obtain ⟨hmem, hcolumn⟩ := hrequired d hd hlabel
      obtain ⟨c, hc, hname⟩ := List.mem_map.mp hcolumn
      obtain ⟨v, hv, _⟩ := stored_mem hkinds hc
      rw [hname] at hv
      exact ⟨hmem, by rw [lookup_of_mem hnodup hv]; rfl⟩)
  have hfield : ∀ e ∈ stored columns vs, ∃ d ∈ ds, d.name = e.1 ∧
      (ds.map fun d => (d.name, (if d.name ∈ copied then (stored columns vs).lookup d.name
        else none).getD d.kind.default)).lookup e.1 =
          some (if e.1 ∈ copied then e.2 else d.kind.default) := fun e he => by
    have hvalue := lookup_of_mem hnodup he
    obtain ⟨d, hd, hname, _⟩ := hmember hvalue
    refine ⟨d, hd, hname, ?_⟩
    rw [← hname] at hvalue ⊢
    rw [lookup_members hnames _ hd, hvalue]
    split <;> rfl
  refine ⟨fun ⟨payload', fields, hreply, hfields, hall⟩ e he hmem d hd hname => ?_, fun hall =>
    ⟨payload, _, by rw [hpayload]; rfl, hdecode, fun e he => ?_⟩⟩
  · rw [hpayload] at hreply
    cases hreply
    cases hdecode.symm.trans hfields
    obtain ⟨d', hd', hname', hlookup⟩ := hfield e he
    rw [hall e he, if_neg hmem, Option.some.injEq] at hlookup
    rw [hlookup, List.inj_on_of_nodup_map hnames hd hd' (hname.trans hname'.symm)]
  · obtain ⟨d, hd, hname, hlookup⟩ := hfield e he
    rw [hlookup]
    split
    · rfl
    · next hmem => rw [hall e he hmem d hd hname]

/-- A column comes back under the type of the message only. -/
theorem not_fetched_of_kind {ds : List Member}
    (hkinds : List.Forall₂ (fun e v => (Prod.snd e : Kind).Fits v) columns vs)
    {c : Bytes × Kind} (hc : c ∈ columns) (hother : ∀ d ∈ ds, d.name = c.1 → d.kind ≠ c.2)
    (reply : Option Ret) : ¬ Fetched ds reply (stored columns vs) := by
  rintro ⟨payload, fields, _, hfields, hall⟩
  obtain ⟨v, hv, hfits⟩ := stored_mem hkinds hc
  obtain ⟨d, hd, hname, hkind⟩ := decode_kind hfields _ (mem_of_lookup (hall _ hv))
  exact hother d hd hname.symm (hkind.symm.trans hfits.kind_eq)

end Records

/-- The command is there, and answers ten records. -/
def fetchesTen (name : Bytes) : Prop :=
  match route name with
  | some (c, .getTen _ _ _) => c.failed = none
  | _ => False

instance (name : Bytes) : Decidable (fetchesTen name) := by
  unfold fetchesTen
  split <;> exact inferInstance

/-- The kinds whose commands name one table and agree on the types. -/
def Record.agreeing : List Record :=
  [.wetTemp, .camera, .rescuePlatform, .propertyGuarantee, .equipment, .comfortService,
    .electricity, .comEnv]

/-- The kinds with a text in a column that the message has as an integer. -/
def Record.mistyped : List Record := [.policeService, .humantemp]

/-- Only the environment has a column that is not copied. -/
def Record.Agrees (r : Record) (columns : List (Bytes × Kind)) : Prop :=
  (columns.map Prod.fst).Nodup ∧ (r.message.map Member.name).Nodup ∧
    (r.message.map Member.number).Nodup ∧
    (∀ c ∈ columns, ∃ d ∈ r.message, d.name = c.1 ∧ d.kind = c.2) ∧
    ∃ z ∈ fetches r.getName, z.1 = some r.message ∧ z.2.Nodup ∧
      Required r.message (columns.map Prod.fst) z.2 ∧ (r ≠ .comEnv → ∀ c ∈ columns, c.1 ∈ z.2)

instance (r : Record) (columns : List (Bytes × Kind)) : Decidable (r.Agrees columns) :=
  inferInstanceAs (Decidable (_ ∧ _ ∧ _ ∧ _ ∧ _))

/-- What becomes of a kind: `table` is what is written, and `source` what is read. -/
def Record.Layout (r : Record) (table source : Bytes) (columns : List (Bytes × Kind)) : Prop :=
  if r ∈ agreeing then source = table ∧ r.Agrees columns
  else if r ∈ mistyped then ∃ c ∈ columns, ∀ d ∈ r.message, d.name = c.1 → d.kind ≠ c.2
  else if r = .water then ∃ z ∈ fetches r.getName, z.1 = none
  else source ≠ table ∧
    ((fetches r.getName).isSome ∨ fetchesTen r.getName ∧ decode r.message [] = none)

instance (r : Record) (table source : Bytes) (columns : List (Bytes × Kind)) :
    Decidable (r.Layout table source columns) := by
  unfold Record.Layout
  exact inferInstance

def Record.all : List Record :=
  [.wetTemp, .camera, .smoke, .rescuePlatform, .theftAgainst, .propertyGuarantee, .policeService,
    .fireControl, .elevator, .equipment, .comfortService, .comEnv, .humantemp, .electricity,
    .water, .garbage]

theorem layouts : ∀ r ∈ Record.all, ∃ x ∈ inserted r.setName, ∃ y ∈ selected r.getName,
    0 < y.2.2 ∧ (y.1 = x.1 → ∀ k ∈ y.2.1, x.2.head?.map Prod.fst = some k) ∧
      r.Layout x.1 y.1 x.2 := by
  decide +kernel

theorem Record.mem_all (r : Record) : r ∈ all := by
  cases r <;> decide

def comEnvColumns : List (Bytes × Kind) :=
  [(bytes "id", .int32), (bytes "time", .string), (bytes "temp", .int32), (bytes "wet", .int32),
    (bytes "pm_ten", .int32), (bytes "pm_tpf", .int32)]

theorem comEnv_layout : (inserted Record.comEnv.setName).map Prod.snd = some comEnvColumns ∧
    ∀ z ∈ fetches Record.comEnv.getName, bytes "time" ∉ z.2 ∧
      ∀ d ∈ comEnvMessage, d.name ∈ z.2 ∨ (d.name = bytes "time" ∧ d.kind = .string) := by
  decide +kernel

section Record

variable {env : Env} {r : Record} {args key : List Bytes} {vs ks : List Scalar} {db : Tables}

theorem faithful_of_agreeing (hr : r ∈ Record.agreeing) (hother : r ≠ .comEnv) :
    r.Faithful vs := by
  cases r <;> trivial

theorem not_faithful (hr : r ∉ Record.agreeing) : ¬ r.Faithful vs := by
  cases r <;> first | exact id | exact absurd (by decide) hr

theorem not_fetched_none (members : List Member) (row : Row) : ¬ Fetched members none row :=
  fun ⟨_, _, hreply, _⟩ => by cases hreply

/-- Ten records of no rows are an empty message. -/
theorem serve_ten {name : Bytes} (hname : fetchesTen name) {db' : Tables}
    (hrows : queried env db (name :: args) = some ([], db')) {payload : Bytes}
    (hreply : (serve env db (name :: args)).1 = some (.str payload)) : payload = [] := by
  unfold fetchesTen at hname
  split at hname
  · next c q item columns hroute =>
    have hcall : c.call env (name :: args) (.rows []) = _ := call_eq hroute _ _
    obtain ⟨text, htext⟩ := text_of_queried hroute rfl hrows
    rw [Handler.run, htext] at hcall
    rw [serve, List.headD_cons, hroute] at hreply
    simp only [hrows, Command.reply, hcall, getTenRecords, Option.bind_some, List.take_nil]
      at hreply
    cases item with
    | none => simp [hname] at hreply
    | some members =>
      cases hreply
      rfl
  · exact hname.elim

/-- The row of an agreeing kind comes back, for the environment without its time. -/
theorem fetched_agreeing (hr : r ∈ Record.agreeing) {table : Bytes}
    {columns : List (Bytes × Kind)} (hset : inserted r.setName = some (table, columns))
    (hkinds : List.Forall₂ (fun e v => (Prod.snd e : Kind).Fits v) columns vs)
    (hagrees : r.Agrees columns) {db' : Tables}
    (hqueried : queried env db (r.getName :: key) = some ([stored columns vs], db')) :
    Fetched r.message (serve env db (r.getName :: key)).1 (stored columns vs) ↔
      r.Faithful vs := by
  obtain ⟨hnodup, hnames, hnumbers, hmembers, ⟨message, copied⟩, hfetches, rfl, hcopied, hrequired,
    hall⟩ := hagrees
  have hrowKeys : ((stored columns vs).map Prod.fst).Nodup := by
    rwa [stored, List.map_fst_zip (by simp [hkinds.length_eq])]
  rw [serve_fetches hfetches hqueried, List.head?_cons, Option.bind_some, Option.bind_some,
    fetched_iff hkinds hnodup hcopied hnames hnumbers hmembers hrequired]
  by_cases hcom : r = .comEnv
  · subst hcom
    obtain ⟨hcolumns, hother⟩ := comEnv_layout
    obtain ⟨htime, hmissing⟩ := hother _ hfetches
    obtain rfl : columns = comEnvColumns := by
      rw [hset] at hcolumns
      exact Option.some.inj hcolumns
    obtain ⟨a, b, rest, rfl⟩ : ∃ a b rest, vs = a :: b :: rest := by
      rcases vs with _ | ⟨a, _ | ⟨b, rest⟩⟩
      · cases hkinds
      · cases hkinds with
        | cons _ hkinds => cases hkinds
      · exact ⟨a, b, rest, rfl⟩
    have hmem : (bytes "time", b) ∈ stored comEnvColumns (a :: b :: rest) :=
      List.mem_cons_of_mem _ List.mem_cons_self
    refine ⟨fun h => ?_, fun h e he hnone d hd hname => ?_⟩
    · have hdefault := h _ hmem htime (optional "time" 2 .string)
        (by simp [Record.message, comEnvMessage]) rfl
      exact congrArg some hdefault
    · obtain ⟨hname', hkind⟩ := (hmissing d hd).resolve_left fun h => hnone (hname ▸ h)
      have hlookup := lookup_of_mem hrowKeys he
      rw [← hname, hname', lookup_of_mem hrowKeys hmem] at hlookup
      rw [hkind, ← Option.some.inj hlookup]
      exact Option.some.inj h
  · refine iff_of_true (fun e he hnone => ?_) (faithful_of_agreeing hr hcom)
    obtain ⟨kind, hc, _⟩ := mem_stored hkinds he
    exact absurd (hall hcom _ hc) hnone

/-- A set command is answered true, and the get command then brings the row back exactly when
the kind is faithful. -/
theorem record_fetched (hvs : values env (r.setName :: args) = some vs)
    (hstorable : ∀ v ∈ vs, Storable v) (hks : values env (r.getName :: key) = some ks)
    (hkey : ∀ k ∈ ks, vs.head? = some k)
    (hempty : (queried env db (r.getName :: key)).map Prod.fst = some []) :
    ∃ table row, serve env db (r.setName :: args) = (some (.str (bytes "true")),
        Function.update db table (db table ++ [row])) ∧ row.map Prod.snd = vs ∧
      (Fetched r.message (serve env (Function.update db table (db table ++ [row]))
        (r.getName :: key)).1 row ↔ r.Faithful vs) := by
  obtain ⟨⟨table, columns⟩, hset, ⟨source, keyColumn, n⟩, hget, hn, hfirst, hlayout⟩ :=
    layouts r r.mem_all
  have hlayout : r.Layout table source columns := hlayout
  obtain ⟨hserve, hkinds⟩ := serve_inserted hset hvs hstorable db
  have hvalues : (stored columns vs).map Prod.snd = vs :=
    List.map_snd_zip (by simp [hkinds.length_eq])
  refine ⟨table, stored columns vs, hserve, hvalues, ?_⟩
  have hfound := queried_stored hget hn hfirst hkinds hstorable hks hkey hempty
  obtain ⟨⟨rows, db'⟩, hqueried, hrows⟩ := Option.map_eq_some_iff.mp hfound
  have hrows : rows = if source = table then [stored columns vs] else [] := hrows
  unfold Record.Layout at hlayout
  split at hlayout
  · next hr =>
    obtain ⟨hsource, hagrees⟩ := hlayout
    rw [if_pos hsource] at hrows
    rw [hrows] at hqueried
    exact fetched_agreeing hr hset hkinds hagrees hqueried
  · next hr =>
    refine iff_of_false ?_ (not_faithful hr)
    split at hlayout
    · obtain ⟨c, hc, hother⟩ := hlayout
      exact not_fetched_of_kind hkinds hc hother _
    · split at hlayout
      · obtain ⟨⟨message, copied⟩, hfetches, rfl⟩ := hlayout
        rw [serve_fetches hfetches hqueried]
        cases rows.head? <;> exact not_fetched_none _ _
      · obtain ⟨hother, hempty⟩ := hlayout
        rw [if_neg hother] at hrows
        subst hrows
        rcases hempty with hsome | ⟨hten, hnone⟩
        · obtain ⟨z, hfetches⟩ := Option.isSome_iff_exists.mp hsome
          rw [serve_fetches hfetches hqueried]
          exact not_fetched_none _ _
        · rintro ⟨payload, fields, hreply, hdecode, _⟩
          rw [serve_ten hten hqueried hreply, hnone] at hdecode
          cases hdecode

end Record

def ownerFields : List Bytes := [bytes "o", bytes "i", bytes "t"]

/-- A guarantee of the owner `o` in empty tables. -/
theorem record_fetched_owner :
    ∃ table row, serve plainEnv (fun _ => []) (Record.propertyGuarantee.setName :: ownerFields) =
        (some (.str (bytes "true")), Function.update (fun _ => []) table ([] ++ [row])) ∧
      row.map Prod.snd = ownerFields.map Scalar.text ∧
      (Fetched Record.propertyGuarantee.message
        (serve plainEnv (Function.update (fun _ => []) table ([] ++ [row]))
          (Record.propertyGuarantee.getName :: [bytes "o"])).1 row ↔
        Record.propertyGuarantee.Faithful (ownerFields.map Scalar.text)) :=
  record_fetched (by decide +kernel) (by decide)
    (by decide +kernel : values plainEnv (Record.propertyGuarantee.getName :: [bytes "o"]) =
      some [.text (bytes "o")])
    (by decide) (by decide +kernel)

def smokeFields : List Bytes := [bytes "r", bytes "1", bytes "t", bytes "5"]

/-- A smoke record is stored in one table and looked for in another. -/
theorem record_fetched_smoke :
    values plainEnv (Record.smoke.setName :: smokeFields) =
      some [.text (bytes "r"), .int 1, .text (bytes "t"), .int 5] ∧
    (queried plainEnv (fun _ => []) (Record.smoke.getName :: [bytes "r"])).map Prod.fst =
      some [] ∧
    (serve plainEnv (fun _ => []) (Record.smoke.setName :: smokeFields)).1 =
      some (.str (bytes "true")) ∧
    ∀ row, ¬ Fetched Record.smoke.message
      (serve plainEnv (serve plainEnv (fun _ => []) (Record.smoke.setName :: smokeFields)).2
        (Record.smoke.getName :: [bytes "r"])).1 row := by
  have hlost : (serve plainEnv
      (serve plainEnv (fun _ => []) (Record.smoke.setName :: smokeFields)).2
        (Record.smoke.getName :: [bytes "r"])).1 = none := by decide +kernel
  refine ⟨by decide +kernel, by decide +kernel, by decide +kernel, fun row => ?_⟩
  rw [hlost]
  exact not_fetched_none _ row

end Ue4Background.DataServices
