import Mathlib.Data.Finset.Card
import Mathlib.Data.List.DropRight
import Mathlib.Data.List.GetD
import Ue4Background.StoredRecords
import Ue4Background.Transition

/-!
The counters of the doors (`refresh_foot_traffic`, `set_unattended_visit_record` and
`get_fivemin_foot_traffic` in `service/unattended/init.lua`). A visit is counted when its insert
has succeeded. Any number of visits wait for their inserts at a time, and the counters may be
cleared while they wait. Each counter is the number of the visits of its kind whose insert
succeeded since the counters were last cleared.
-/

namespace Ue4Background.Unattended

open LuaValues Protobuf Sql DataHandlers Transition

/-- Where a visit waits: for a connection or, with its statement, for its insert. -/
inductive VisitStage
  | connecting
  | inserting (sql : Bytes)

/-- A suspended call of `set_unattended_visit_record`. -/
structure Visit where
  params : List Arg
  stage : VisitStage

/-- What the service has at the doors. The visits are numbered in the order of their calls;
`starting` says that `s.init` still waits for its connection, and `connected` that `db` is set. -/
structure Doors where
  starting : Bool
  connected : Bool
  fiveminIn : ℤ
  fiveminOut : ℤ
  calls : ℕ
  waiting : ℕ → Option Visit
  timers : List ℕ

/-- Five minutes in hundredths of a second. -/
def fiveMinutes : ℕ := 30000

def visitSql (lua : Conversions) (params : List Arg) : Option Bytes :=
  DataServices.setUnattendedVisitRecord.query.bind fun q => q.text lua params

/-- `in_out == "in"` -/
def comesIn (params : List Arg) : Bool := (params[3]?).join = some (bytes "in")

inductive FootEvent
  | started
  | visited (params : List Arg)
  | connected (number : ℕ) (ok : Bool)
  | inserted (number : ℕ) (outcome : Outcome)
  | elapsed
  | asked (pairs : Pairs ℕ Bytes)

namespace Doors

/-- `refresh_foot_traffic` -/
def refresh (s : Doors) : Doors :=
  { s with fiveminIn := 0, fiveminOut := 0, timers := s.timers ++ [fiveMinutes] }

def wait (s : Doors) (number : ℕ) (v : Visit) : Doors :=
  { s with waiting := Function.update s.waiting number (some v) }

def wake (s : Doors) (number : ℕ) : Doors :=
  { s with waiting := Function.update s.waiting number none }

/-- A visit with a connection. `string.format` may raise, and then the visit has ended. -/
def insert (lua : Conversions) (s : Doors) (number : ℕ) (params : List Arg) : Doors :=
  match visitSql lua params with
  | none => s
  | some sql => s.wait number ⟨params, .inserting sql⟩

def called (s : Doors) : Doors := { s with calls := s.calls + 1 }

/-- `set_unattended_visit_record` up to where it first waits. -/
def visit (lua : Conversions) (s : Doors) (params : List Arg) : Doors :=
  if s.connected then s.called.insert lua s.calls params
  else s.called.wait s.calls ⟨params, .connecting⟩

/-- `set_unattended_visit_record` after its insert. -/
def count (s : Doors) (params : List Arg) : Outcome → Doors
  | .raised | .err => s
  | .rows _ =>
    if comesIn params then { s with fiveminIn := s.fiveminIn + 1 }
    else { s with fiveminOut := s.fiveminOut + 1 }

def env (s : Doors) (lua : Conversions) (pairs : Pairs ℕ Bytes) : Env :=
  ⟨lua, pairs, s.fiveminIn, s.fiveminOut⟩

/-- A service without its connection does not go on, so `s.init` has no failure. -/
def Enabled (s : Doors) : FootEvent → Prop
  | .started => s.starting
  | .visited _ | .asked _ => True
  | .connected number _ => ∃ params, s.waiting number = some ⟨params, .connecting⟩
  | .inserted number _ => ∃ params sql, s.waiting number = some ⟨params, .inserting sql⟩
  | .elapsed => s.timers ≠ []

/-- The state after an event, and what is answered. -/
def next (lua : Conversions) (s : Doors) : FootEvent → Doors × Option Ret
  | .started => (({ s with starting := false, connected := true } : Doors).refresh, none)
  | .visited params => (s.visit lua params, none)
  | .connected number ok =>
    match s.waiting number with
    | some ⟨params, .connecting⟩ =>
      let s' := s.wake number
      (if ok then ({ s' with connected := true } : Doors).insert lua number params else s', none)
    | _ => (s, none)
  | .inserted number outcome =>
    match s.waiting number with
    | some ⟨params, .inserting sql⟩ =>
      ((s.wake number).count params outcome, setVisitRecord (some sql) outcome)
    | _ => (s, none)
  | .elapsed => (({ s with timers := s.timers.tail } : Doors).refresh, none)
  | .asked pairs =>
    (s, DataServices.getFiveminFootTraffic.run (s.env lua pairs) [] (.rows []))

/-- The service before `s.init`. -/
def start : Doors := ⟨true, false, 0, 0, 0, fun _ => none, []⟩

end Doors

def FootEvent.refreshes : FootEvent → Bool
  | .started | .elapsed => true
  | _ => false

/-- The insert of a visit succeeds. -/
def FootEvent.accepts (number : ℕ) : FootEvent → Bool
  | .inserted k (.rows _) => k = number
  | _ => false

def FootEvent.visit : FootEvent → Option (List Arg)
  | .visited params => some params
  | _ => none

/-- The parameters of the visits, in the order of their calls. -/
def visits (es : List FootEvent) : List (List Arg) := es.filterMap FootEvent.visit

def sinceRefresh (es : List FootEvent) : List FootEvent := es.rtakeWhile fun e => !e.refreshes

/-- The visits into the building, or the others, whose insert succeeded since the last refresh. -/
def accepted (es : List FootEvent) (into : Bool) : Finset ℕ :=
  (Finset.range (visits es).length).filter fun k =>
    (sinceRefresh es).any (·.accepts k) ∧ comesIn ((visits es).getD k []) = into

section History

variable {es : List FootEvent} {e : FootEvent}

theorem mem_accepted {into : Bool} {k : ℕ} :
    k ∈ accepted es into ↔ k < (visits es).length ∧ (∃ e ∈ sinceRefresh es, e.accepts k) ∧
      comesIn ((visits es).getD k []) = into := by
  simp [accepted]

theorem mem_of_mem_sinceRefresh (he : e ∈ sinceRefresh es) : e ∈ es :=
  (List.rtakeWhile_suffix _ _).subset he

theorem quiet_of_refreshes (he : e.refreshes) : e.visit = none ∧ ∀ k, ¬ e.accepts k := by
  cases e with
  | started | elapsed => exact ⟨rfl, fun _ => Bool.false_ne_true⟩
  | _ => cases he

theorem sinceRefresh_refresh (he : e.refreshes) : sinceRefresh (es ++ [e]) = [] :=
  List.rtakeWhile_concat_neg _ _ _ (by simp [he])

theorem sinceRefresh_other (he : ¬ e.refreshes) :
    sinceRefresh (es ++ [e]) = sinceRefresh es ++ [e] :=
  List.rtakeWhile_concat_pos _ _ _ (by simpa using he)

theorem visits_visited (params : List Arg) :
    visits (es ++ [.visited params]) = visits es ++ [params] := by
  simp [visits, FootEvent.visit]

theorem visits_other (he : e.visit = none) : visits (es ++ [e]) = visits es := by
  simp [visits, he]

theorem accepted_refresh (he : e.refreshes) (into : Bool) : accepted (es ++ [e]) into = ∅ := by
  refine Finset.eq_empty_of_forall_notMem fun k hk => ?_
  obtain ⟨_, ⟨_, hmem, _⟩, _⟩ := mem_accepted.mp hk
  rw [sinceRefresh_refresh he] at hmem
  cases hmem

/-- A visit that has just come is not accepted yet. -/
theorem accepted_visited (params : List Arg)
    (hnew : ∀ e ∈ es, ¬ e.accepts (visits es).length) (into : Bool) :
    accepted (es ++ [.visited params]) into = accepted es into := by
  ext k
  have hsince : sinceRefresh (es ++ [.visited params]) = sinceRefresh es ++ [.visited params] :=
    sinceRefresh_other (by simp [FootEvent.refreshes])
  have haccepts : (∃ e ∈ sinceRefresh (es ++ [.visited params]), e.accepts k) ↔
      ∃ e ∈ sinceRefresh es, e.accepts k := by
    simp [hsince, FootEvent.accepts]
  rw [mem_accepted, mem_accepted, haccepts, visits_visited, List.length_append,
    List.length_singleton]
  constructor
  · rintro ⟨hlt, ⟨e, he, hk⟩, hinto⟩
    have hne : k ≠ (visits es).length := fun heq =>
      hnew e (mem_of_mem_sinceRefresh he) (heq ▸ hk)
    have hlt' : k < (visits es).length := by omega
    rw [List.getD_append _ _ _ _ hlt'] at hinto
    exact ⟨hlt', ⟨e, he, hk⟩, hinto⟩
  · rintro ⟨hlt, hk, hinto⟩
    rw [List.getD_append _ _ _ _ hlt]
    exact ⟨by omega, hk, hinto⟩

theorem accepted_quiet (hrefresh : ¬ e.refreshes) (hvisit : e.visit = none)
    (haccepts : ∀ k, ¬ e.accepts k) (into : Bool) :
    accepted (es ++ [e]) into = accepted es into := by
  ext k
  rw [mem_accepted, mem_accepted, sinceRefresh_other hrefresh, visits_other hvisit]
  simp [haccepts k]

/-- An insert that succeeds accepts its visit. -/
theorem accepted_inserted {number : ℕ} (hnumber : number < (visits es).length) (rs : List Row)
    (into : Bool) :
    accepted (es ++ [.inserted number (.rows rs)]) into =
      if comesIn ((visits es).getD number []) = into then insert number (accepted es into)
      else accepted es into := by
  have hvisits : visits (es ++ [.inserted number (.rows rs)]) = visits es := visits_other rfl
  have hsince : sinceRefresh (es ++ [.inserted number (.rows rs)]) =
      sinceRefresh es ++ [.inserted number (.rows rs)] :=
    sinceRefresh_other (by simp [FootEvent.refreshes])
  ext k
  have haccepts : (∃ e ∈ sinceRefresh (es ++ [.inserted number (.rows rs)]), e.accepts k) ↔
      number = k ∨ ∃ e ∈ sinceRefresh es, e.accepts k := by
    simp only [hsince, List.mem_append, List.mem_singleton, or_and_right, exists_or,
      exists_eq_left, FootEvent.accepts, decide_eq_true_eq]
    exact or_comm
  rw [mem_accepted, haccepts, hvisits]
  by_cases hk : number = k
  · subst hk
    split
    · next hinto => exact iff_of_true ⟨hnumber, Or.inl rfl, hinto⟩ (Finset.mem_insert_self _ _)
    · next hinto =>
      rw [mem_accepted]
      exact iff_of_false (fun h => hinto h.2.2) fun h => hinto h.2.2
  · have hmem : (k < (visits es).length ∧ (number = k ∨ ∃ e ∈ sinceRefresh es, e.accepts k) ∧
        comesIn ((visits es).getD k []) = into) ↔ k ∈ accepted es into := by
      rw [mem_accepted, or_iff_right hk]
    rw [hmem]
    split
    · rw [Finset.mem_insert, or_iff_right (Ne.symm hk)]
    · rfl

end History

namespace Doors

section Waiting

variable {lua : Conversions} {s : Doors} {number k : ℕ} {params : List Arg} {v : Visit}
  {stage : VisitStage}

/-- The counter of the visits into the building, or that of the others. -/
def counter (s : Doors) : Bool → ℤ
  | true => s.fiveminIn
  | false => s.fiveminOut

theorem counter_refresh (s : Doors) (into : Bool) : s.refresh.counter into = 0 := by
  cases into <;> rfl

theorem waiting_wait (h : (s.wait number ⟨params, stage⟩).waiting k = some v) :
    (k = number ∧ v.params = params) ∨ s.waiting k = some v := by
  by_cases hk : k = number
  · subst hk
    simp only [wait, Function.update_self, Option.some.injEq] at h
    exact Or.inl ⟨rfl, h ▸ rfl⟩
  · simp only [wait, Function.update_of_ne hk] at h
    exact Or.inr h

theorem waiting_wait_self (s : Doors) (number : ℕ) (v : Visit) :
    (s.wait number v).waiting number = some v := Function.update_self ..

theorem waiting_wake (h : (s.wake number).waiting k = some v) : s.waiting k = some v := by
  by_cases hk : k = number
  · subst hk
    simp [wake] at h
  · simpa only [wake, Function.update_of_ne hk] using h

theorem counter_wake (s : Doors) (number : ℕ) (into : Bool) :
    (s.wake number).counter into = s.counter into := by
  cases into <;> rfl

theorem insert_eq {sql : Bytes} (hsql : visitSql lua params = some sql) :
    s.insert lua number params = s.wait number ⟨params, .inserting sql⟩ := by
  unfold insert
  generalize visitSql lua params = text at hsql
  subst hsql
  rfl

theorem waiting_insert (h : (s.insert lua number params).waiting k = some v) :
    (k = number ∧ v.params = params) ∨ s.waiting k = some v := by
  unfold insert at h
  split at h
  · exact Or.inr h
  · exact waiting_wait h

theorem insert_calls : (s.insert lua number params).calls = s.calls := by
  unfold insert
  split <;> rfl

theorem insert_counter (into : Bool) :
    (s.insert lua number params).counter into = s.counter into := by
  unfold insert
  split <;> cases into <;> rfl

theorem waiting_visit (h : (s.visit lua params).waiting k = some v) :
    (k = s.calls ∧ v.params = params) ∨ s.waiting k = some v := by
  unfold visit at h
  split at h
  · exact waiting_insert (s := s.called) h
  · exact waiting_wait (s := s.called) h

theorem next_visited (hconnected : s.connected) {sql : Bytes}
    (hsql : visitSql lua params = some sql) :
    (s.next lua (.visited params)).1 = s.called.wait s.calls ⟨params, .inserting sql⟩ := by
  change s.visit lua params = _
  unfold visit
  rw [if_pos hconnected]
  exact insert_eq hsql

theorem visit_calls : (s.visit lua params).calls = s.calls + 1 := by
  unfold visit
  split
  · exact insert_calls
  · rfl

theorem visit_counter (into : Bool) : (s.visit lua params).counter into = s.counter into := by
  unfold visit
  split
  · exact insert_counter into
  · cases into <;> rfl

theorem count_calls (outcome : Outcome) : (s.count params outcome).calls = s.calls := by
  unfold count
  repeat' split
  all_goals rfl

theorem count_waiting (outcome : Outcome) : (s.count params outcome).waiting = s.waiting := by
  unfold count
  repeat' split
  all_goals rfl

theorem count_counter (rs : List Row) (into : Bool) : (s.count params (.rows rs)).counter into =
    s.counter into + if comesIn params = into then 1 else 0 := by
  unfold count
  cases into <;> cases comesIn params <;> simp [counter]

end Waiting

/-- The visits that wait are known by their calls and have not been accepted, and each counter
is the number of the visits accepted since the last refresh. -/
structure Counted (hist : List FootEvent) (s : Doors) : Prop where
  calls : s.calls = (visits hist).length
  waits : ∀ k v, s.waiting k = some v →
    (visits hist)[k]? = some v.params ∧ ∀ e ∈ hist, ¬ e.accepts k
  called : ∀ e ∈ hist, ∀ k, e.accepts k → k < s.calls
  counters : ∀ into, s.counter into = (accepted hist into).card

section Counted

variable {lua : Conversions} {hist : List FootEvent} {s t : Doors} {e : FootEvent}

theorem counted_start : Counted [] start where
  calls := rfl
  waits := nofun
  called := nofun
  counters into := by cases into <;> rfl

theorem Counted.other (h : Counted hist s) (hvisit : e.visit = none)
    (haccepts : ∀ k, e.accepts k → k < s.calls ∧ t.waiting k = none) (hcalls : t.calls = s.calls)
    (hwaiting : ∀ k v, t.waiting k = some v → ∃ v', s.waiting k = some v' ∧ v'.params = v.params)
    (hcounters : ∀ into, t.counter into = (accepted (hist ++ [e]) into).card) :
    Counted (hist ++ [e]) t where
  calls := by rw [visits_other hvisit, hcalls, h.calls]
  waits k v hv := by
    obtain ⟨v', hv', hparams⟩ := hwaiting k v hv
    obtain ⟨hcalled, hfresh⟩ := h.waits k v' hv'
    refine ⟨by rw [visits_other hvisit, hcalled, hparams], fun e' he' hk => ?_⟩
    rcases List.mem_append.mp he' with he' | he'
    · exact hfresh e' he' hk
    · rw [List.mem_singleton.mp he'] at hk
      rw [(haccepts k hk).2] at hv
      cases hv
  called e' he' k hk := by
    rw [hcalls]
    rcases List.mem_append.mp he' with he' | he'
    · exact h.called e' he' k hk
    · rw [List.mem_singleton.mp he'] at hk
      exact (haccepts k hk).1
  counters := hcounters

/-- A refresh clears the counters and forgets the visits accepted before. -/
theorem Counted.refresh (h : Counted hist s) (hrefresh : e.refreshes) (hcalls : t.calls = s.calls)
    (hwaiting : t.waiting = s.waiting) : Counted (hist ++ [e]) t.refresh := by
  obtain ⟨hvisit, haccepts⟩ := quiet_of_refreshes hrefresh
  refine h.other hvisit (fun k hk => (haccepts k hk).elim) hcalls (fun k v hv => ⟨v, ?_, rfl⟩) ?_
  · rw [← hwaiting]
    exact hv
  · intro into
    rw [counter_refresh, accepted_refresh hrefresh, Finset.card_empty]
    rfl

/-- Only refreshes and inserts that succeed change a counter. -/
theorem counter_next (hrefresh : ¬ e.refreshes) (haccepts : ∀ k, ¬ e.accepts k) (into : Bool) :
    (s.next lua e).1.counter into = s.counter into := by
  cases e with
  | started | elapsed => exact absurd rfl hrefresh
  | visited params => exact visit_counter into
  | asked pairs => rfl
  | connected number ok =>
    simp only [next]
    split
    · split
      · rw [insert_counter, ← counter_wake s number into]
        cases into <;> rfl
      · exact counter_wake s number into
    · rfl
  | inserted number outcome =>
    simp only [next]
    split
    · cases outcome with
      | rows rs => exact absurd (decide_eq_true rfl) (haccepts number)
      | raised | err => exact counter_wake s number into
    · rfl

theorem Counted.quiet (h : Counted hist s) (hrefresh : ¬ e.refreshes) (hvisit : e.visit = none)
    (haccepts : ∀ k, ¬ e.accepts k) (hcalls : (s.next lua e).1.calls = s.calls)
    (hwaiting : ∀ k v, (s.next lua e).1.waiting k = some v →
      ∃ v', s.waiting k = some v' ∧ v'.params = v.params) :
    Counted (hist ++ [e]) (s.next lua e).1 := by
  refine h.other hvisit (fun k hk => (haccepts k hk).elim) hcalls hwaiting fun into => ?_
  rw [counter_next hrefresh haccepts, h.counters, accepted_quiet hrefresh hvisit haccepts]

theorem Counted.visited (h : Counted hist s) (params : List Arg) :
    Counted (hist ++ [.visited params]) (s.visit lua params) where
  calls := by rw [visit_calls, visits_visited, List.length_append, h.calls, List.length_singleton]
  waits k v hv := by
    have hlast : ¬ (FootEvent.visited params).accepts k := by simp [FootEvent.accepts]
    rw [visits_visited]
    rcases waiting_visit hv with ⟨rfl, hparams⟩ | hv
    · refine ⟨by rw [h.calls, List.getElem?_concat_length, hparams], fun e' he' hk => ?_⟩
      rcases List.mem_append.mp he' with he' | he'
      · exact Nat.lt_irrefl _ (h.called e' he' _ hk)
      · exact hlast (List.mem_singleton.mp he' ▸ hk)
    · obtain ⟨hcalled, hfresh⟩ := h.waits k v hv
      obtain ⟨hlt, _⟩ := List.getElem?_eq_some_iff.mp hcalled
      refine ⟨by rw [List.getElem?_append_left hlt, hcalled], fun e' he' hk => ?_⟩
      rcases List.mem_append.mp he' with he' | he'
      · exact hfresh e' he' hk
      · exact hlast (List.mem_singleton.mp he' ▸ hk)
  called e' he' k hk := by
    rw [visit_calls]
    rcases List.mem_append.mp he' with he' | he'
    · have := h.called e' he' k hk
      omega
    · rw [List.mem_singleton.mp he'] at hk
      simp [FootEvent.accepts] at hk
  counters into := by
    rw [visit_counter, h.counters, accepted_visited]
    intro e' he' hk
    have := h.called e' he' _ hk
    have := h.calls
    omega

/-- An insert that succeeds counts its visit, which has not been counted before. -/
theorem Counted.inserted (h : Counted hist s) {number : ℕ} {params : List Arg}
    {stage : VisitStage} (hwaits : s.waiting number = some ⟨params, stage⟩) (rs : List Row) :
    Counted (hist ++ [.inserted number (.rows rs)])
      ((s.wake number).count params (.rows rs)) := by
  obtain ⟨hcalled, hfresh⟩ := h.waits number _ hwaits
  obtain ⟨hlt, hparams⟩ := List.getElem?_eq_some_iff.mp hcalled
  refine h.other rfl (fun k hk => ?_) (count_calls _) (fun k v hv => ?_) fun into => ?_
  · have hk : number = k := by simpa [FootEvent.accepts] using hk
    subst hk
    rw [count_waiting, h.calls]
    exact ⟨hlt, by simp [wake]⟩
  · rw [count_waiting] at hv
    exact ⟨v, waiting_wake hv, rfl⟩
  · have hnew : number ∉ accepted hist into := fun hmem => by
      obtain ⟨_, ⟨e', he', hk⟩, _⟩ := mem_accepted.mp hmem
      exact hfresh e' (mem_of_mem_sinceRefresh he') hk
    have hget : (visits hist).getD number [] = params := by
      rw [List.getD_eq_getElem _ _ hlt, hparams]
    rw [count_counter, counter_wake, h.counters, accepted_inserted hlt, hget]
    split
    · rw [Finset.card_insert_of_notMem hnew]
      rfl
    · rw [Int.add_zero]

/-- Every step keeps the books of the visits that wait and of those that have been accepted. -/
theorem Counted.step (h : Counted hist s) (he : s.Enabled e) :
    Counted (hist ++ [e]) (s.next lua e).1 := by
  cases e with
  | started | elapsed => exact h.refresh rfl rfl rfl
  | visited params => exact h.visited params
  | asked pairs =>
    exact h.quiet Bool.false_ne_true rfl (fun _ => Bool.false_ne_true) rfl
      fun _ v hv => ⟨v, hv, rfl⟩
  | connected number ok =>
    obtain ⟨params, hwaits⟩ := he
    refine h.quiet Bool.false_ne_true rfl (fun _ => Bool.false_ne_true) ?_ fun k v hv => ?_
    · simp only [next, hwaits]
      split
      · exact insert_calls
      · rfl
    · simp only [next, hwaits] at hv
      split at hv
      · rcases waiting_insert hv with ⟨rfl, hparams⟩ | hv
        · exact ⟨_, hwaits, hparams.symm⟩
        · exact ⟨v, waiting_wake hv, rfl⟩
      · exact ⟨v, waiting_wake hv, rfl⟩
  | inserted number outcome =>
    obtain ⟨params, sql, hwaits⟩ := he
    cases outcome with
    | rows rs =>
      simp only [next, hwaits]
      exact h.inserted hwaits rs
    | raised | err =>
      refine h.quiet Bool.false_ne_true rfl (fun _ => Bool.false_ne_true) ?_ fun k v hv => ?_
      · simp only [next, hwaits]
        rfl
      · simp only [next, hwaits] at hv
        exact ⟨v, waiting_wake hv, rfl⟩

end Counted

end Doors

section Answer

/-- The trend is the side of the larger number. -/
def trend (ins outs : ℤ) : Bytes :=
  match compare ins outs with
  | .gt => bytes "in"
  | .lt => bytes "out"
  | .eq => bytes "unknown"

/-- What remains of a number in a field of type int32. -/
def int32 (n : ℤ) : ℤ := Int.bmod n (2 ^ 32)

def footFields (ins outs : ℤ) (trend : Bytes) : List (Bytes × Scalar) :=
  [(bytes "in_num", .int ins), (bytes "out_num", .int outs), (bytes "trend", .text trend)]

/-- The reply is a message with the fields. -/
def Tells (reply : Option Ret) (fields : List (Bytes × Scalar)) : Prop :=
  ∃ payload, reply = some (.str payload) ∧
    decode DataServices.footTrafficMessage payload = some fields

theorem int32_eq_self_iff {n : ℕ} : int32 n = n ↔ n < 2 ^ 31 := by
  unfold int32
  rw [Int.bmod_def]
  split <;> omega

theorem footRow_eq (env : Env) :
    footRow env = footFields env.fiveminIn env.fiveminOut (trend env.fiveminIn env.fiveminOut) := by
  unfold footRow footFields trend
  rcases lt_trichotomy env.fiveminIn env.fiveminOut with h | h | h
  · simp [compare_lt_iff_lt.mpr h, h, h.le.not_gt]
  · simp [h]
  · simp [compare_gt_iff_gt.mpr h, h]

theorem conveyed_footFields (lua : Conversions) (ins outs : ℤ) (trend : Bytes) :
    (DataServices.footTrafficMessage.map fun d =>
      (d.name, conveyed lua footColumns (footFields ins outs trend) d)) =
        footFields (int32 ins) (int32 outs) trend := by
  have hout : (bytes "out_num" == bytes "in_num") = false := by decide +kernel
  have htrend : (bytes "trend" == bytes "in_num") = false ∧
      (bytes "trend" == bytes "out_num") = false := by decide +kernel
  simp [DataServices.footTrafficMessage, DataServices.required, DataServices.optional, conveyed,
    footColumns, footFields, List.lookup_cons, hout, htrend, coerce, Kind.truncate, int32]

/-- The reply tells the counters, as far as they are int32, and their trend. -/
theorem tells_iff (env : Env) (params : List Arg) (outcome : Outcome)
    {fields : List (Bytes × Scalar)} :
    Tells (DataServices.getFiveminFootTraffic.run env params outcome) fields ↔
      fields = footFields (int32 env.fiveminIn) (int32 env.fiveminOut)
        (trend env.fiveminIn env.fiveminOut) := by
  have hcolumns : ∀ c ∈ footColumns, ∃ d ∈ DataServices.footTrafficMessage, d.name = c := by
    decide +kernel
  have hsome : (rowFields env DataServices.footTrafficMessage footColumns 0 (footRow env)).isSome :=
    (isSome_rowFields 0 (footRow env)).mpr fun c hc _ => hcolumns c hc
  obtain ⟨fs, hfs⟩ := Option.isSome_iff_exists.mp hsome
  have hreply : DataServices.getFiveminFootTraffic.run env params outcome =
      some (.str (encodeFields fs)) := by
    simp [DataServices.getFiveminFootTraffic, Handler.run, DataHandlers.getFiveminFootTraffic,
      encodeRow, hfs]
  have hsupplies : Supplies DataServices.footTrafficMessage footColumns (footRow env) := by
    have hrequired : ∀ d ∈ DataServices.footTrafficMessage, d.label = .required →
        d.name = bytes "in_num" ∨ d.name = bytes "out_num" := by decide +kernel
    have hout : (bytes "out_num" == bytes "in_num") = false := by decide +kernel
    intro d hd hlabel
    rw [footRow_eq]
    rcases hrequired d hd hlabel with hname | hname
    · simp [hname, footColumns, footFields]
    · simp [hname, footColumns, footFields, List.lookup_cons, hout]
  have hdecode : decode DataServices.footTrafficMessage (encodeFields fs) = some fields ↔ _ :=
    decode_rowFields (by decide +kernel) (by decide +kernel) (by decide +kernel) hfs
  rw [footRow_eq, conveyed_footFields, and_iff_right (footRow_eq env ▸ hsupplies)] at hdecode
  rw [← hdecode]
  constructor
  · rintro ⟨payload, hpayload, hfields⟩
    rw [hreply] at hpayload
    cases hpayload
    exact hfields
  · exact fun hfields => ⟨_, hreply, hfields⟩

end Answer

namespace Doors

theorem counted_exec {lua : Conversions} {es : List FootEvent}
    (henabled : Along Enabled (next lua) start es) :
    Counted es (exec (next lua) start es) :=
  invariant_exec (I := Counted) (fun _ _ _ h he => h.step he) [] counted_start henabled

/-- At every moment the counters are the numbers of the visits of their kinds whose insert
succeeded since the last refresh, and nothing but a refresh and such an insert changes them. Every
reply tells both numbers in fields of type int32, and their trend. -/
theorem foot_traffic_counted (lua : Conversions) (es : List FootEvent)
    (henabled : Along Enabled (next lua) start es) :
    let s := exec (next lua) start es
    let ins := (accepted es true).card
    let outs := (accepted es false).card
    s.fiveminIn = ins ∧ s.fiveminOut = outs ∧
      (∀ e, s.Enabled e → ¬ e.refreshes → (∀ k, ¬ e.accepts k) →
        (s.next lua e).1.fiveminIn = ins ∧ (s.next lua e).1.fiveminOut = outs) ∧
      ∀ pairs, Tells (s.next lua (.asked pairs)).2
          (footFields (int32 ins) (int32 outs) (trend ins outs)) ∧
        (Tells (s.next lua (.asked pairs)).2 (footFields ins outs (trend ins outs)) ↔
          ins < 2 ^ 31 ∧ outs < 2 ^ 31) := by
  intro s ins outs
  have hcounted := counted_exec henabled
  have hins : s.fiveminIn = ins := hcounted.counters true
  have houts : s.fiveminOut = outs := hcounted.counters false
  refine ⟨hins, houts, fun e _ hrefresh haccepts => ⟨?_, ?_⟩, fun pairs => ?_⟩
  · exact (counter_next hrefresh haccepts true).trans hins
  · exact (counter_next hrefresh haccepts false).trans houts
  · have htells : ∀ fields, Tells (s.next lua (.asked pairs)).2 fields ↔
        fields = footFields (int32 ins) (int32 outs) (trend ins outs) := by
      intro fields
      rw [← hins, ← houts]
      exact tells_iff (s.env lua pairs) [] (.rows [])
    refine ⟨(htells _).mpr rfl, (htells _).trans ?_⟩
    rw [← int32_eq_self_iff, ← int32_eq_self_iff]
    simp [footFields, eq_comm]

/-- A visit with the numerals 1, which is none into the building. -/
def passerBy : List Arg := List.replicate 4 (some (bytes "1"))

theorem visitSql_passerBy : visitSql plainEnv.lua passerBy =
    some (bytes "insert into visit_record (id,monitor_video,kind,in_out) values (1,1,1,1)") := by
  decide +kernel

/-- A visit during whose insert the counters are cleared. -/
def lateVisit : List FootEvent :=
  [.started, .visited passerBy, .elapsed, .inserted 0 (.rows [])]

theorem foot_traffic_counted_late :
    Tells ((exec (next plainEnv.lua) start lateVisit).next plainEnv.lua
      (.asked plainEnv.pairs)).2 (footFields 0 1 (bytes "out")) := by
  have hvisited := next_visited (s := (start.next plainEnv.lua .started).1) rfl visitSql_passerBy
  have henabled : Along Enabled (next plainEnv.lua) start lateVisit := by
    refine ⟨rfl, trivial, ?_, ?_, trivial⟩
    · rw [hvisited]
      exact List.cons_ne_nil _ _
    · rw [hvisited]
      exact ⟨passerBy, _, waiting_wait_self (start.next plainEnv.lua .started).1.called 0 _⟩
  have hins : (accepted lateVisit true).card = 0 := by decide +kernel
  have houts : (accepted lateVisit false).card = 1 := by decide +kernel
  have htold := ((foot_traffic_counted plainEnv.lua lateVisit henabled).2.2.2
    plainEnv.pairs).2.mpr ⟨by rw [hins]; decide, by rw [houts]; decide⟩
  rw [hins, houts] at htold
  exact htold

/-- A visit whose insert succeeds at once. -/
theorem visit_run {lua : Conversions} {s : Doors} (hconnected : s.connected) {params : List Arg}
    {sql : Bytes} (hsql : visitSql lua params = some sql) (rs : List Row) :
    Along Enabled (next lua) s [.visited params, .inserted s.calls (.rows rs)] ∧
      exec (next lua) s [.visited params, .inserted s.calls (.rows rs)] =
        (s.called.wake s.calls).count params (.rows rs) := by
  have hvisited := next_visited hconnected hsql
  have hwaits := waiting_wait_self s.called s.calls ⟨params, .inserting sql⟩
  have hwake : (s.called.wait s.calls ⟨params, .inserting sql⟩).wake s.calls =
      s.called.wake s.calls := by
    simp [wait, wake]
  refine ⟨⟨trivial, ?_, trivial⟩, ?_⟩
  · rw [hvisited]
    exact ⟨params, sql, hwaits⟩
  · rw [exec, exec, exec, hvisited]
    simp only [next, hwaits, hwake]

/-- Visits whose inserts succeed one after the other. -/
def crowd (n : ℕ) : List FootEvent :=
  .started :: (List.range n).flatMap fun k => [.visited passerBy, .inserted k (.rows [])]

theorem crowd_succ (n : ℕ) :
    crowd (n + 1) = crowd n ++ [.visited passerBy, .inserted n (.rows [])] := by
  simp [crowd, List.range_succ, List.flatMap_append]

/-- The state after the visits of a crowd. -/
def crowded (n : ℕ) : Doors := ⟨false, true, 0, n, n, fun _ => none, [fiveMinutes]⟩

theorem crowd_run (n : ℕ) : Along Enabled (next plainEnv.lua) start (crowd n) ∧
    exec (next plainEnv.lua) start (crowd n) = crowded n := by
  have hcomes : comesIn passerBy = false := by decide +kernel
  induction n with
  | zero => exact ⟨⟨rfl, trivial⟩, rfl⟩
  | succ n ih =>
    obtain ⟨hlast, hexec⟩ := visit_run (s := crowded n) rfl visitSql_passerBy []
    rw [crowd_succ, along_append, exec_append, ih.2]
    refine ⟨⟨ih.1, hlast⟩, hexec.trans ?_⟩
    simp [count, hcomes, wake, called, crowded]

/-- After 2^31 visits within five minutes the reply tells a negative number. -/
theorem crowd_not_told :
    Along Enabled (next plainEnv.lua) start (crowd (2 ^ 31)) ∧
      (accepted (crowd (2 ^ 31)) true).card = 0 ∧
      (accepted (crowd (2 ^ 31)) false).card = 2 ^ 31 ∧
      (∀ pairs, ¬ Tells ((exec (next plainEnv.lua) start (crowd (2 ^ 31))).next plainEnv.lua
        (.asked pairs)).2 (footFields 0 (2 ^ 31) (bytes "out"))) ∧
      ∀ pairs, Tells ((exec (next plainEnv.lua) start (crowd (2 ^ 31))).next plainEnv.lua
        (.asked pairs)).2 (footFields 0 (-2 ^ 31) (bytes "out")) := by
  obtain ⟨henabled, hexec⟩ := crowd_run (2 ^ 31)
  have hcounted := counted_exec henabled
  rw [hexec] at hcounted
  have htells : ∀ pairs fields, Tells ((exec (next plainEnv.lua) start (crowd (2 ^ 31))).next
      plainEnv.lua (.asked pairs)).2 fields ↔
        fields = footFields 0 (-2 ^ 31) (bytes "out") := by
    intro pairs fields
    have htrend : trend 0 ((2 ^ 31 : ℕ) : ℤ) = bytes "out" := rfl
    have hkept : int32 ((2 ^ 31 : ℕ) : ℤ) = -2 ^ 31 := by decide
    rw [hexec, ← htrend, ← hkept]
    exact tells_iff ((crowded (2 ^ 31)).env plainEnv.lua pairs) [] (.rows [])
  refine ⟨henabled, ?_, ?_, fun pairs => ?_, fun pairs => (htells pairs _).mpr rfl⟩
  · exact Int.ofNat_inj.mp (hcounted.counters true).symm
  · exact Int.ofNat_inj.mp (hcounted.counters false).symm
  · rw [htells]
    simp [footFields]

end Doors

end Ue4Background.Unattended
