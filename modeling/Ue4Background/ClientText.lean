import Ue4Background.DataServices
import Ue4Background.Formats

/-!
The text of a client in the statements of the data services. A handler puts its arguments into
its format as they came, so the statement is read as the fixed one, with one literal for every
argument, only for some of them.
-/

namespace Ue4Background.DataHandlers

open LuaValues Protobuf Sql

/-- An argument that is read back from its place. -/
def Clean : Slot × Directive → Arg → Prop
  | (_, .number), _ => True
  | (.quoted, .text), arg => Harmless (shown arg)
  | (.bare, .text), arg => isSigned (shown arg)

instance : (d : Slot × Directive) → (arg : Arg) → Decidable (Clean d arg)
  | (_, .number), _ => inferInstanceAs (Decidable True)
  | (.quoted, .text), arg => inferInstanceAs (Decidable (Harmless (shown arg) = true))
  | (.bare, .text), arg => inferInstanceAs (Decidable (isSigned (shown arg) = true))

/-- Every argument is read back from its place. -/
def Query.Clean (q : Query) (params : List Arg) : Prop :=
  ∀ x ∈ q.places.zip (q.values params), DataHandlers.Clean x.1 x.2

instance (q : Query) (params : List Arg) : Decidable (q.Clean params) :=
  inferInstanceAs (Decidable (∀ x ∈ _, _))

/-- A text is read as the fixed statement, with one literal for every value. -/
def Query.Kept (lua : Conversions) (q : Query) (params : List Arg) (sql : Bytes) : Prop :=
  ∃ vs ts, q.scalars lua params = some vs ∧ lex sql = some ts ∧ Reads (assign q.segments vs) ts

section Filled

variable {lua : Conversions}

/-- What holds of every part of a filled statement is a matter of every argument. -/
theorem forall_assign_iff {P : Segment × Bytes → Prop} {C : Slot × Directive → Arg → Prop}
    {ps : List Piece} {args : List Arg} (hargs : args.length = (placeholders ps).length)
    {vs : List Scalar} (hvs : scalars lua (placeholders ps) args = some vs)
    (hfixed : ∀ p ∈ ps, p.segment.slot = none → P (p.segment, []))
    (hslot : ∀ p ∈ ps, ∀ slot, p.segment.slot = some slot → ∀ arg ∈ args, ∀ v ∈ vs,
      p.directive.value lua arg = some v →
        (P (p.segment, written v) ↔ C (slot, p.directive) arg)) :
    (∀ p ∈ assign (ps.map Piece.segment) vs, P p) ↔
      ∀ x ∈ (placeholders ps).zip args, C x.1 x.2 := by
  induction ps generalizing args vs with
  | nil => simp [assign, placeholders]
  | cons p ps ih =>
    obtain ⟨hpart, hfixed⟩ := List.forall_mem_cons.mp hfixed
    obtain ⟨hvalue, hslot⟩ := List.forall_mem_cons.mp hslot
    cases hp : p.segment.slot with
    | none =>
      have hplaces : placeholders (p :: ps) = placeholders ps := by simp [placeholders, hp]
      rw [hplaces] at hargs hvs ⊢
      rw [← ih hargs hvs hfixed hslot]
      simp [assign, hp, hpart hp]
    | some slot =>
      have hplaces : placeholders (p :: ps) = (slot, p.directive) :: placeholders ps := by
        simp [placeholders, hp]
      rw [hplaces] at hargs hvs ⊢
      cases args with
      | nil => cases hargs
      | cons arg args =>
        simp only [scalars, Option.bind_eq_bind, Option.bind_eq_some_iff, Option.some.injEq]
          at hvs
        obtain ⟨v, hv, ws, hws, rfl⟩ := hvs
        have hrest := ih (Nat.succ.inj hargs) hws hfixed fun p hp slot hs arg hmem w hw =>
          hslot p hp slot hs arg (List.mem_cons_of_mem _ hmem) w (List.mem_cons_of_mem _ hw)
        have hfirst := hvalue slot hp arg List.mem_cons_self v List.mem_cons_self hv
        simp only [List.map_cons, assign, hp, List.head?_cons, Option.map_some,
          Option.getD_some, List.tail_cons, List.forall_mem_cons, List.zip_cons_cons, hrest,
          hfirst]

theorem decimal_comma (n : ℤ) : 44 ∉ decimal n := by
  have hdigits : 44 ∉ digits n.natAbs := fun hmem =>
    absurd (List.all_eq_true.mp (digits_isDigit n.natAbs) 44 hmem) (by decide)
  unfold decimal
  split
  · exact List.not_mem_cons_of_ne_of_not_mem (by decide) hdigits
  · exact hdigits

theorem safe_value {ps : List Piece} (hbare : ∀ d ∈ placeholders ps, d.2 = .number → d.1 = .bare)
    {p : Piece} (hp : p ∈ ps) {slot : Slot} (hslot : p.segment.slot = some slot) {arg : Arg}
    {v : Scalar} (hv : p.directive.value lua arg = some v) :
    p.segment.Safe (written v) ↔ Clean (slot, p.directive) arg := by
  have hplace : (slot, p.directive) ∈ placeholders ps :=
    List.mem_filterMap.mpr ⟨p, hp, by rw [hslot]; rfl⟩
  cases hd : p.directive with
  | text =>
    rw [hd] at hv
    cases hv
    cases slot <;> simp [Segment.Safe, hslot, Clean, written]
  | number =>
    rw [hd] at hv hplace
    obtain ⟨n, _, rfl⟩ := Option.map_eq_some_iff.mp hv
    obtain rfl := hbare _ hplace rfl
    simp [Segment.Safe, hslot, Clean, written, isSigned_decimal]

/-- A statement with its arguments is the fixed one exactly when they are clean. -/
theorem Query.kept_iff {q : Query} (hq : q.Sound) {params : List Arg}
    (hcomma : ∀ s, some s ∈ params → 44 ∉ s) {sql : Bytes} (hsql : q.text lua params = some sql) :
    q.Kept lua params sql ↔ q.Clean params := by
  rw [q.text_eq hq] at hsql
  obtain ⟨vs, hvs, rfl⟩ := Option.map_eq_some_iff.mp hsql
  obtain ⟨_, hlength, _, hsound, hne, hbare, htight⟩ := hq
  have hargs := (q.length_values params).trans hlength
  have hshown : ∀ arg ∈ q.values params, 44 ∉ shown arg := fun arg harg => by
    obtain ⟨i, _, rfl⟩ := List.mem_map.mp harg
    cases hvalue : i.bind fun i => (params[i]?).join with
    | none => decide
    | some s =>
      obtain ⟨i, _, hjoin⟩ := Option.bind_eq_some_iff.mp hvalue
      exact hcomma s (List.mem_of_getElem? (Option.join_eq_some_iff.mp hjoin))
  have hfree : ∀ p ∈ assign q.segments vs, 44 ∉ p.2 := by
    refine (forall_assign_iff (C := fun _ _ => True) hargs hvs (fun _ _ _ => by simp) ?_).mpr
      fun _ _ => trivial
    rintro p hp slot hslot arg harg v _ hv
    refine iff_true_intro ?_
    cases hd : p.directive with
    | text =>
      rw [hd] at hv
      cases hv
      exact hshown arg harg
    | number =>
      rw [hd] at hv
      obtain ⟨n, _, rfl⟩ := Option.map_eq_some_iff.mp hv
      exact decimal_comma n
  have hsafe : (∀ p ∈ assign q.segments vs, p.1.Safe p.2) ↔ q.Clean params :=
    forall_assign_iff hargs hvs (fun p _ hnone => by simp [Segment.Safe, hnone])
      fun p hp slot hslot _ _ _ _ hv => safe_value hbare hp hslot hv
  have hread : ∀ p ∈ assign q.segments vs, p.1.Tight ∨ p.1.Safe p.2 := by
    refine (forall_assign_iff (C := fun _ _ => True) hargs hvs (fun p _ hnone =>
      Or.inr (by simp [Segment.Safe, hnone])) ?_).mpr fun _ _ => trivial
    rintro p hp slot hslot arg harg v _ hv
    refine iff_true_intro ?_
    cases hd : p.directive with
    | text => exact Or.inl (htight p hp hd)
    | number => exact Or.inr ((safe_value hbare hp hslot hv).mpr (by rw [hd]; trivial))
  rw [← hsafe, ← reads_iff (assign_ne_nil hne vs)
    (fun p hp => ⟨(hsound p.1 (mem_assign hp).1).1, hfree p hp⟩) hread]
  refine ⟨fun ⟨ws, ts, hws, hlex, hreads⟩ => ?_, fun ⟨ts, hlex, hreads⟩ =>
    ⟨vs, ts, hvs, hlex, hreads⟩⟩
  cases hvs.symm.trans hws
  exact ⟨ts, hlex, hreads⟩

end Filled

end Ue4Background.DataHandlers

namespace Ue4Background.DataServices

open LuaValues Protobuf Sql DataHandlers

/-- A format is sound, and has one place for each parameter of its handler, in their order. -/
theorem formats_sound (service : Service) : ∀ h ∈ resp service, ∀ q ∈ h.2.query,
    q.Sound ∧ q.args.reduceOption = List.range q.args.reduceOption.length := by
  cases service <;> decide +kernel

/-- The statement of a handler is the fixed one, with one literal for every argument, exactly
when no text in quotes has a quote or a backslash except in `\%` and `\_`, and every text that
is bare is a numeral. -/
theorem statement_kept {service : Service} {name : Bytes} {h : Handler}
    (hmem : (name, h) ∈ resp service) {q : Query} (hquery : h.query = some q)
    {lua : Conversions} {params : List Arg} (hcomma : ∀ s, some s ∈ params → 44 ∉ s)
    {sql : Bytes} (hsql : q.text lua params = some sql) :
    q.args.reduceOption = List.range q.args.reduceOption.length ∧
      (q.Kept lua params sql ↔ q.Clean params) := by
  obtain ⟨hsound, hplaces⟩ := formats_sound service _ hmem q hquery
  exact ⟨hplaces, Query.kept_iff hsound hcomma hsql⟩

def ownerQuery : Query :=
  query "select * from property_guarantee_record where owner = '%s' LIMIT 1" 1

/-- The statement for the owner `x`. -/
theorem statement_kept_owner : ownerQuery.args.reduceOption =
      List.range ownerQuery.args.reduceOption.length ∧
    (ownerQuery.Kept plainEnv.lua [some (bytes "x")]
      (bytes "select * from property_guarantee_record where owner = 'x' LIMIT 1") ↔
      ownerQuery.Clean [some (bytes "x")]) :=
  statement_kept (List.mem_of_getElem? (i := 21) rfl :
      (bytes "get_property_guarantee_record", getPropertyGuaranteeRecord) ∈ resp .smartmanagement)
    rfl (by simp; decide) (by decide)

/-- An owner with a quote selects every row. -/
theorem statement_kept_injection :
    getPropertyGuaranteeRecord.query = some ownerQuery ∧
    ∃ owner sql, 44 ∉ owner ∧ ¬ [13, 10] <:+: owner ∧
      ownerQuery.text plainEnv.lua [some owner] = some sql ∧
      ¬ ownerQuery.Kept plainEnv.lua [some owner] sql := by
  refine ⟨rfl, bytes "' or '1'='1", _, by decide, by decide, rfl, ?_⟩
  rw [Query.kept_iff (by decide +kernel) (by simp; decide) rfl]
  decide +kernel

end Ue4Background.DataServices
