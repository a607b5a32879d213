import Ue4Background.BinaryReplies
import Ue4Background.ClientText

/-!
Which data commands are answered. A handler that raises answers nothing, an agent forwards
nothing for it unless the command has a text for that, and the gateway cannot write a boolean.
So a command is answered when its format succeeds, its query does not raise, and the rows can
be encoded; a visit is never answered.
-/

namespace Ue4Background.DataHandlers

open LuaValues Protobuf Sql

/-- Every `%d` has an integer. -/
def Query.Formats (lua : Conversions) (q : Query) (params : List Arg) : Prop :=
  ∀ x ∈ q.places.zip (q.values params), x.1.2 = .number → (x.2.bind lua.integer).isSome

/-- Whatever is copied of a row is a field of the message. -/
def Encodable (members : List Member) (columns : List Bytes) (row : Row) : Prop :=
  ∀ c ∈ columns, (row.lookup c).isSome → ∃ d ∈ members, d.name = c

/-- When a handler returns a text. -/
def Handler.Answers (env : Env) (params : List Arg) (outcome : Outcome) : Handler → Prop
  | .set q =>
    q.Formats env.lua params ∧
      match outcome with
      | .raised => False
      | .err | .rows _ => True
  | .setVisit _ => False
  | .get peek q message columns =>
    q.Formats env.lua params ∧
      match outcome with
      | .raised | .rows [] => False
      | .err => peek = false
      | .rows (row :: _) => ∃ members ∈ message, Encodable members columns row
  | .getTen q item columns =>
    q.Formats env.lua params ∧
      match outcome with
      | .raised => False
      | .err => True
      | .rows rs => ∃ members ∈ item, ∀ row ∈ rs.take 10, Encodable members columns row
  | .accessRecords q =>
    q.Formats env.lua params ∧
      match outcome with
      | .raised | .rows (_ :: _) => False
      | .err | .rows [] => True
  | .carRecord q item columns =>
    q.Formats env.lua params ∧
      match outcome with
      | .raised | .err | .rows [] => False
      | .rows rs => ∀ row ∈ rs.take 10, Encodable item columns row
  | .footTraffic message => Encodable message footColumns (footRow env)

section Text

variable {lua : Conversions}

theorem isSome_value (d : Directive) (arg : Arg) :
    (d.value lua arg).isSome ↔ (d = .number → (arg.bind lua.integer).isSome) := by
  cases d with
  | text => simp [Directive.value]
  | number => simp only [Directive.value, Option.isSome_map, true_imp_iff]

theorem isSome_scalars (ds : List (Slot × Directive)) (args : List Arg) :
    (scalars lua ds args).isSome ↔
      ∀ x ∈ ds.zip args, x.1.2 = .number → (x.2.bind lua.integer).isSome := by
  induction ds, args using scalars.induct with
  | case1 slot d ds arg args ih =>
    rw [List.zip_cons_cons, List.forall_mem_cons, ← ih, ← isSome_value d arg, scalars]
    cases d.value lua arg with
    | none => simp
    | some v =>
      cases scalars lua ds args with
      | none => simp
      | some vs => simp
  | case2 ds args hne =>
    rw [scalars]
    · rcases ds with _ | ⟨d, ds⟩
      · simp
      · cases args with
        | nil => simp
        | cons arg args => exact (hne d.1 d.2 ds arg args rfl rfl).elim
    · exact hne

theorem Query.isSome_text {q : Query} (hq : q.Sound) (params : List Arg) :
    (q.text lua params).isSome ↔ q.Formats lua params := by
  rw [q.text_eq hq, Option.isSome_map]
  exact isSome_scalars _ _

end Text

section Encode

variable {env : Env} {members : List Member} {columns : List Bytes}

theorem isSome_writeFields (data : List (Bytes × Scalar)) :
    (writeFields env.lua members data).isSome ↔ ∀ e ∈ data, ∃ d ∈ members, d.name = e.1 := by
  induction data with
  | nil => simp [writeFields]
  | cons e data ih =>
    have hentry : (writeField env.lua members e).isSome ↔ ∃ d ∈ members, d.name = e.1 := by
      rw [writeField, Option.isSome_map, List.find?_isSome]
      simp
    rw [List.forall_mem_cons, ← ih, ← hentry, writeFields]
    cases writeField env.lua members e with
    | none => simp
    | some fs =>
      cases writeFields env.lua members data with
      | none => simp
      | some rest => simp

theorem isSome_rowFields (i : ℕ) (row : Row) :
    (rowFields env members columns i row).isSome ↔ Encodable members columns row := by
  have hkeys : ∀ k, k ∈ (entries env i (copied columns row)).map Prod.fst ↔
      k ∈ columns ∧ (row.lookup k).isSome := fun k => by
    have hcopied : k ∈ (copied columns row).map Prod.fst ↔
        k ∈ columns ∧ (row.lookup k).isSome := by
      simp only [copied, List.map_filterMap, Option.map_map, List.mem_filterMap,
        Option.isSome_iff_exists]
      refine ⟨?_, fun ⟨hk, v, hv⟩ => ⟨k, hk, by rw [hv]; rfl⟩⟩
      rintro ⟨c, hc, hmap⟩
      obtain ⟨v, hv, rfl⟩ := Option.map_eq_some_iff.mp hmap
      exact ⟨hc, v, hv⟩
    have horder := (env.pairs.perm i ((copied columns row).map Prod.fst)).mem_iff (a := k)
    rw [← hcopied, ← horder]
    simp only [entries, List.map_filterMap, Option.map_map, List.mem_filterMap]
    refine ⟨?_, fun hk => ⟨k, hk, ?_⟩⟩
    · rintro ⟨c, hc, hmap⟩
      obtain ⟨v, _, rfl⟩ := Option.map_eq_some_iff.mp hmap
      exact hc
    · obtain ⟨e, he, hfst⟩ := List.mem_map.mp (horder.mp hk)
      have hsome : ((copied columns row).lookup k).isSome :=
        List.lookup_isSome_iff.mpr ⟨e, he, by simp [hfst]⟩
      obtain ⟨v, hv⟩ := Option.isSome_iff_exists.mp hsome
      rw [hv]
      rfl
  rw [rowFields, isSome_writeFields]
  refine ⟨fun h c hc hsome => ?_, fun h e he => ?_⟩
  · obtain ⟨e, he, rfl⟩ := List.mem_map.mp ((hkeys c).mpr ⟨hc, hsome⟩)
    exact h e he
  · obtain ⟨hc, hsome⟩ := (hkeys e.1).mp (List.mem_map_of_mem he)
    exact h e.1 hc hsome

theorem isSome_rowsFields (i : ℕ) (rows : List Row) :
    (rowsFields env members columns i rows).isSome ↔
      ∀ row ∈ rows, Encodable members columns row := by
  induction rows generalizing i with
  | nil => simp [rowsFields]
  | cons row rows ih =>
    rw [List.forall_mem_cons, ← ih (i + 1), ← isSome_rowFields i row, rowsFields]
    cases rowFields env members columns i row with
    | none => simp
    | some fs =>
      cases rowsFields env members columns (i + 1) rows with
      | none => simp
      | some rest => simp

end Encode

theorem answers_bind {q : Query} (hq : q.Sound) {lua : Conversions} {params : List Arg}
    {ret : Option Ret} {P : Prop} (hret : (∃ s, ret = some (.str s)) ↔ P) :
    (∃ s, ((q.text lua params).bind fun _ => ret) = some (.str s)) ↔
      q.Formats lua params ∧ P := by
  rw [← hret, ← Query.isSome_text hq]
  cases q.text lua params with
  | none => simp
  | some text => simp

theorem exists_map_str {o : Option Bytes} : (∃ s, o.map Ret.str = some (.str s)) ↔ o.isSome := by
  cases o with
  | none => simp
  | some s => simp

/-- A handler returns a text exactly when it is expected to. -/
theorem Handler.answers_iff {env : Env} {params : List Arg} {outcome : Outcome} {h : Handler}
    (hsound : ∀ q ∈ h.query, q.Sound) :
    (∃ s, h.run env params outcome = some (.str s)) ↔ h.Answers env params outcome := by
  cases h with
  | set q =>
    refine answers_bind (hsound q rfl) ?_
    cases outcome <;> simp
  | setVisit q =>
    simp only [run, setVisitRecord, Answers, iff_false]
    rintro ⟨s, hs⟩
    obtain ⟨text, _, hret⟩ := Option.bind_eq_some_iff.mp hs
    cases outcome <;> cases hret
  | get peek q message columns =>
    refine answers_bind (hsound q rfl) ?_
    cases outcome with
    | raised => simp
    | err => cases peek <;> simp
    | rows rs =>
      cases rs with
      | nil => simp
      | cons row rs =>
        cases message with
        | none => simp
        | some members =>
          show (∃ s, (encodeRow env members columns row).map Ret.str = some (.str s)) ↔ _
          rw [exists_map_str, encodeRow, Option.isSome_map, isSome_rowFields]
          simp
  | getTen q item columns =>
    refine answers_bind (hsound q rfl) ?_
    cases outcome with
    | raised => simp
    | err => simp
    | rows rs =>
      cases item with
      | none => simp
      | some members =>
        show (∃ s, (encodeRows env members columns (rs.take 10)).map Ret.str = some (.str s)) ↔ _
        rw [exists_map_str, encodeRows, Option.isSome_map, isSome_rowsFields]
        simp
  | accessRecords q =>
    refine answers_bind (hsound q rfl) ?_
    cases outcome with
    | raised => simp
    | err => simp
    | rows rs => cases rs <;> simp
  | carRecord q item columns =>
    refine answers_bind (hsound q rfl) ?_
    cases outcome with
    | raised => simp
    | err => simp
    | rows rs =>
      cases rs with
      | nil => simp
      | cons row rs =>
        show (∃ s, (encodeRows env item columns ((row :: rs).take 10)).map Ret.str =
          some (.str s)) ↔ _
        rw [exists_map_str, encodeRows, Option.isSome_map, isSome_rowsFields]
  | footTraffic message =>
    simp only [run, getFiveminFootTraffic, Answers, exists_map_str, encodeRow, Option.isSome_map,
      isSome_rowFields]

def Handler.isVisit : Handler → Bool
  | .setVisit _ => true
  | _ => false

/-- Only for a visit a handler returns true. -/
theorem Handler.run_true {env : Env} {params : List Arg} {outcome : Outcome} {h : Handler}
    (hrun : h.run env params outcome = some (.bool true)) : h.isVisit := by
  have hmap : ∀ {o : Option Bytes}, o.map Ret.str ≠ some (.bool true) := fun {o} => by
    cases o <;> simp
  cases h with
  | setVisit q => rfl
  | footTraffic message => exact (hmap hrun).elim
  | set q | accessRecords q =>
    obtain ⟨text, _, hret⟩ := Option.bind_eq_some_iff.mp hrun
    rcases outcome with _ | _ | ⟨_ | ⟨row, rs⟩⟩ <;> cases hret
  | get peek q message columns =>
    obtain ⟨text, _, hret⟩ := Option.bind_eq_some_iff.mp hrun
    rcases outcome with _ | _ | ⟨_ | ⟨row, rs⟩⟩
    · cases hret
    · cases peek <;> cases hret
    · cases hret
    · obtain ⟨members, _, hret⟩ := Option.bind_eq_some_iff.mp hret
      exact (hmap hret).elim
  | getTen q item columns =>
    obtain ⟨text, _, hret⟩ := Option.bind_eq_some_iff.mp hrun
    cases outcome with
    | raised | err => cases hret
    | rows rs =>
      obtain ⟨members, _, hret⟩ := Option.bind_eq_some_iff.mp hret
      exact (hmap hret).elim
  | carRecord q item columns =>
    obtain ⟨text, _, hret⟩ := Option.bind_eq_some_iff.mp hrun
    rcases outcome with _ | _ | ⟨_ | ⟨row, rs⟩⟩
    · cases hret
    · cases hret
    · cases hret
    · exact (hmap hret).elim

end Ue4Background.DataHandlers

namespace Ue4Background.DataServices

open LuaValues Protobuf Sql DataHandlers Gateway

/-- A command with a text for a failure is always answered, any other only by its handler. -/
def Command.Answered (c : Command) (env : Env) (msg : List Bytes) (outcome : Outcome) : Prop :=
  c.failed.isSome ∨ ∃ h ∈ (resp c.service).lookup c.remote, h.Answers env (c.params msg) outcome

/-- The handler of every command is there, and that of a command with a text for a failure
never returns true. -/
theorem client_handlers : ∀ c ∈ client, ∃ h ∈ (resp c.2.service).lookup c.2.remote,
    c.2.failed.isSome → h.isVisit = false := by
  decide +kernel

/-- A command returns a text exactly when it is to be answered. -/
theorem Command.answered_iff {name : Bytes} {c : Command} (hmem : (name, c) ∈ client) {env : Env}
    {msg : List Bytes} {outcome : Outcome} :
    (∃ s, c.reply env msg outcome = some (.str s)) ↔ c.Answered env msg outcome := by
  obtain ⟨h, hlookup, hvisit⟩ := client_handlers _ hmem
  have hcall : c.call env msg outcome = h.run env (c.params msg) outcome := by
    rw [Command.call, show (resp c.service).lookup c.remote = some h from hlookup,
      Option.bind_some]
  have hsound : ∀ q ∈ h.query, q.Sound := by
    obtain ⟨before, after, heq, _⟩ := List.lookup_eq_some_iff.mp hlookup
    intro q hq
    exact (formats_sound c.service (c.remote, h) (by rw [heq]; simp) q hq).1
  have hanswers : (∃ s, h.run env (c.params msg) outcome = some (.str s)) ↔
      h.Answers env (c.params msg) outcome := h.answers_iff hsound
  have hhandler : (∃ h' ∈ (resp c.service).lookup c.remote,
      h'.Answers env (c.params msg) outcome) ↔ h.Answers env (c.params msg) outcome := by
    refine ⟨fun ⟨h', hh', hanswers'⟩ => ?_, fun hanswers => ⟨h, hlookup, hanswers⟩⟩
    cases (show some h = some h' from hlookup.symm.trans hh')
    exact hanswers'
  rw [Command.reply, Command.Answered, hcall, hhandler, ← hanswers]
  cases hfailed : c.failed with
  | none =>
    rcases h.run env (c.params msg) outcome with _ | ⟨_ | _⟩ | s <;> simp
  | some text =>
    rcases hrun : h.run env (c.params msg) outcome with _ | ⟨_ | _⟩ | s
    · simp
    · simp
    · have hfalse := hvisit (by rw [hfailed]; rfl)
      rw [Handler.run_true hrun] at hfalse
      cases hfalse
    · simp

theorem lookup_reconnect : client.lookup (bytes "reconnect") = none := by
  decide +kernel

section Player

variable {Num Addr : Type} [DecidableEq Num] [LuaNumber Num]

/-- Player `p` is logged in and connected on the socket `fd`. -/
def LoggedIn (g : Gateway.State Num Addr) (fd : Fd) (p : Num) (agent : Addr) : Prop :=
  ∃ c r, g.conns fd = some c ∧ (g.connHeap c).fd = fd ∧ (g.connHeap c).playerid = some p ∧
    g.players p = some r ∧ (g.playerHeap r).conn = some c ∧ (g.playerHeap r).agent = some agent

/-- The line of a data command goes to the agent of its player, and exactly one message is
written for it exactly when it is to be answered. In between, the player may have moved to
another connection. -/
theorem data_command_answered {g g' : Gateway.State Num Addr} {fd fd' : Fd} {p : Num}
    {agent agent' : Addr} (hbefore : LoggedIn g fd p agent) (hafter : LoggedIn g' fd' p agent')
    {line : Bytes} {c : Command} (hcmd : client.lookup ((strUnpack line).headD []) = some c)
    (loginid : ℕ) (env : Env) (outcome : Outcome) :
    recvLine g fd line loginid =
      ⟨g, [.toAgent agent ((strUnpack line).headD []) (strUnpack line)], false⟩ ∧
    ((∃ payload, answers g' p env (strUnpack line) outcome =
        [.write fd' [.str payload] (strPack ([.str payload] : Msg Num))]) ↔
      c.Answered env (strUnpack line) outcome) := by
  refine ⟨?_, ?_⟩
  · obtain ⟨c', r, hconn, _, hplayerid, hplayer, _, hagent⟩ := hbefore
    have hcommand : (strUnpack line).headD [] ≠ bytes "reconnect" := fun heq => by
      rw [heq, lookup_reconnect] at hcmd
      cases hcmd
    have hforward : processMsg g fd line loginid =
        ⟨g, [.toAgent agent ((strUnpack line).headD []) (strUnpack line)], false⟩ := by
      simp only [processMsg, hconn, if_neg hcommand, hplayerid, hplayer, Option.bind_some, hagent]
    rw [recvLine, hforward]
  · obtain ⟨c', r, hconn, rfl, _, hplayer, hplayerConn, _⟩ := hafter
    obtain ⟨before, after, heq, _⟩ := List.lookup_eq_some_iff.mp hcmd
    have hmem : ((strUnpack line).headD [], c) ∈ client := by rw [heq]; simp
    have hsend := send_str hplayer hplayerConn hconn
    rw [← c.answered_iff hmem, answers, hcmd]
    show (∃ payload, sendReply g' p (c.reply env (strUnpack line) outcome) = _) ↔ _
    rcases c.reply env (strUnpack line) outcome with _ | b | s
    · simp [sendReply]
    · simp [sendReply]
    · simp [hsend]

end Player

def cameraLine : Bytes := bytes "get_camera_record,c"

/-- The camera of the key `c`, which is there. -/
theorem data_command_answered_camera :
    recvLine online 1 cameraLine 1 =
      ⟨online, [.toAgent 0 (bytes "get_camera_record") (strUnpack cameraLine)], false⟩ ∧
    ((∃ payload, answers online 7 plainEnv (strUnpack cameraLine)
        (.rows [[(bytes "record_id", .text (bytes "c"))]]) =
        [.write 1 [.str payload] (strPack ([.str payload] : Msg ℕ))]) ↔
      (command .smartmanagement "get_camera_record" 1).Answered plainEnv (strUnpack cameraLine)
        (.rows [[(bytes "record_id", .text (bytes "c"))]])) :=
  data_command_answered ⟨0, 0, rfl, rfl, rfl, rfl, rfl, rfl⟩ ⟨0, 0, rfl, rfl, rfl, rfl, rfl, rfl⟩
    (by decide +kernel) 1 plainEnv _

/-- There is no answer for a key without rows, and none for a visit that is stored. -/
theorem data_command_silent :
    answers online 7 plainEnv (strUnpack cameraLine) (.rows []) = [] ∧
    answers online 7 plainEnv (strUnpack (bytes "set_unattended_visit_record,1,2,3,4"))
      (.rows []) = [] := by
  decide +kernel

end Ue4Background.DataServices
