import Ue4Background.DataHandlers

/-!
Formats and the statements that they make. A format is cut at its commas; a piece has at most
one directive, in quotes or bare, and formatting puts the value of an argument there.
-/

namespace Ue4Background.DataHandlers

open LuaValues Protobuf Sql

inductive Directive
  | text
  | number
  deriving DecidableEq

def Directive.spelled : Directive → Bytes
  | .text => [37, 115]
  | .number => [37, 100]

/-- The value that an argument is formatted as. -/
def Directive.value (lua : Conversions) (arg : Arg) : Directive → Option Scalar
  | .text => some (.text (shown arg))
  | .number => (arg.bind lua.integer).map .int

structure Piece where
  segment : Segment
  directive : Directive

/-- What stands between two commas of a format. -/
def piece (s : Bytes) : Piece :=
  let before := s.takeWhile (· ≠ 37)
  match s.dropWhile (· ≠ 37) with
  | _ :: d :: after =>
    let directive := if d = 100 then Directive.number else .text
    if before.getLast? = some 39 ∧ after.head? = some 39 then
      ⟨⟨before.dropLast, some .quoted, after.tail⟩, directive⟩
    else ⟨⟨before, some .bare, after⟩, directive⟩
  | _ => ⟨⟨s, none, []⟩, .text⟩

def pieces (fmt : Bytes) : List Piece := (fmt.splitOn 44).map piece

def Piece.spelled (p : Piece) : Segment × Bytes := (p.segment, p.directive.spelled)

/-- Where the arguments stand. -/
def placeholders (ps : List Piece) : List (Slot × Directive) :=
  ps.filterMap fun p => p.segment.slot.map fun slot => (slot, p.directive)

/-- The values that stand for the arguments. -/
def scalars (lua : Conversions) : List (Slot × Directive) → List Arg → Option (List Scalar)
  | (_, d) :: ds, arg :: args => do
    let v ← d.value lua arg
    let vs ← scalars lua ds args
    some (v :: vs)
  | _, _ => some []

/-- What follows on the first part of a statement. -/
def following : List (Segment × Bytes) → Bytes
  | [] => []
  | p :: ps => 44 :: statement (p :: ps)

theorem following_eq {ps : List (Segment × Bytes)} (hne : ps ≠ []) :
    following ps = 44 :: statement ps := by
  obtain ⟨p, ps, rfl⟩ := List.exists_cons_of_ne_nil hne
  rfl

theorem statement_following (p : Segment × Bytes) (ps : List (Segment × Bytes)) :
    statement (p :: ps) = p.1.text p.2 ++ following ps := by
  cases ps with
  | nil => simp [statement, following]
  | cons q ps => exact statement_cons p q ps

section Format

variable {lua : Conversions}

theorem format_append {s : Bytes} (hs : 37 ∉ s) (fmt : Bytes) (args : List Arg) :
    format lua (s ++ fmt) args = (format lua fmt args).map (s ++ ·) := by
  induction s with
  | nil => simp
  | cons b s ih =>
    obtain ⟨hb, hs⟩ := not_or.mp (mt List.mem_cons.mpr hs)
    have hstep : format lua (b :: (s ++ fmt)) args = (format lua (s ++ fmt) args).map (b :: ·) := by
      rw [format]
      · rintro _ rfl
        exact absurd rfl hb
      · rintro _ rfl
        exact absurd rfl hb
    rw [List.cons_append, hstep, ih hs, Option.map_map]
    rfl

theorem format_directive (d : Directive) (fmt : Bytes) (arg : Arg) (args : List Arg) :
    format lua (d.spelled ++ fmt) (arg :: args) =
      (d.value lua arg).bind fun v => (format lua fmt args).map (written v ++ ·) := by
  cases d with
  | text => rfl
  | number =>
    show (arg.bind lua.integer).bind _ = ((arg.bind lua.integer).map Scalar.int).bind _
    rw [Option.bind_map]
    rfl

theorem format_fixed {g : Segment} (hg : 37 ∉ g.before ∧ 37 ∉ g.after) (hslot : g.slot = none)
    (v v' fmt : Bytes) (args : List Arg) :
    format lua (g.text v ++ fmt) args = (format lua fmt args).map (g.text v' ++ ·) := by
  have htext : ∀ w, g.text w = g.before ++ g.after := fun w => by rw [Segment.text, hslot]
  rw [htext, htext, format_append (by simp [hg])]

theorem format_slot {g : Segment} (hg : 37 ∉ g.before ∧ 37 ∉ g.after) {slot : Slot}
    (hslot : g.slot = some slot) (d : Directive) (fmt : Bytes) (arg : Arg) (args : List Arg) :
    format lua (g.text d.spelled ++ fmt) (arg :: args) =
      (d.value lua arg).bind fun v => (format lua fmt args).map (g.text (written v) ++ ·) := by
  have hparts : ∃ u w : Bytes, 37 ∉ u ∧ 37 ∉ w ∧ ∀ v, g.text v = u ++ (v ++ w) := by
    cases slot with
    | quoted => exact ⟨g.before ++ [39], 39 :: g.after, by simp [hg], by simp [hg], fun v => by
        simp [Segment.text, hslot]⟩
    | bare => exact ⟨g.before, g.after, hg.1, hg.2, fun v => by rw [Segment.text, hslot]⟩
  obtain ⟨u, w, hu, hw, htext⟩ := hparts
  simp only [htext, List.append_assoc]
  rw [format_append hu, format_directive, format_append hw]
  cases d.value lua arg with
  | none => rfl
  | some v =>
    cases format lua fmt args with
    | none => rfl
    | some s => rfl

/-- Formatting a statement puts the values of the arguments into it. -/
theorem format_statement {ps : List Piece}
    (hps : ∀ p ∈ ps, 37 ∉ p.segment.before ∧ 37 ∉ p.segment.after) {args : List Arg}
    (hargs : args.length = (placeholders ps).length) :
    format lua (statement (ps.map Piece.spelled)) args =
      (scalars lua (placeholders ps) args).map fun vs =>
        statement (assign (ps.map Piece.segment) vs) := by
  induction ps generalizing args with
  | nil => cases args <;> rfl
  | cons p ps ih =>
    obtain ⟨hp, hrest⟩ := List.forall_mem_cons.mp hps
    have hfollow : ∀ args : List Arg, args.length = (placeholders ps).length →
        format lua (following (ps.map Piece.spelled)) args =
          (scalars lua (placeholders ps) args).map fun vs =>
            following (assign (ps.map Piece.segment) vs) := fun args hargs => by
      by_cases hne : ps = []
      · subst hne
        cases args <;> rfl
      · have hcomma : format lua ([44] ++ statement (ps.map Piece.spelled)) args =
            (format lua (statement (ps.map Piece.spelled)) args).map ([44] ++ ·) :=
          format_append (by decide) _ args
        rw [following_eq (by simpa using hne), ← List.singleton_append, hcomma, ih hrest hargs,
          Option.map_map]
        refine Option.map_congr fun vs _ => ?_
        rw [following_eq (assign_ne_nil (by simpa using hne) vs)]
        rfl
    rw [List.map_cons, statement_following]
    cases hslot : p.segment.slot with
    | none =>
      have hplaces : placeholders (p :: ps) = placeholders ps := by simp [placeholders, hslot]
      rw [hplaces] at hargs ⊢
      rw [Piece.spelled, format_fixed hp hslot _ [], hfollow args hargs, Option.map_map]
      refine Option.map_congr fun vs _ => ?_
      simp only [Function.comp, List.map_cons, assign, hslot, statement_following]
    | some slot =>
      have hplaces : placeholders (p :: ps) = (slot, p.directive) :: placeholders ps := by
        simp [placeholders, hslot]
      rw [hplaces] at hargs ⊢
      cases args with
      | nil => cases hargs
      | cons arg args =>
        rw [Piece.spelled, format_slot hp hslot, hfollow args (Nat.succ.inj hargs)]
        cases hvalue : p.directive.value lua arg with
        | none => simp [scalars, hvalue]
        | some v =>
          cases hvalues : scalars lua (placeholders ps) args with
          | none => simp [scalars, hvalue, hvalues]
          | some vs =>
            simp [scalars, hvalue, hvalues, assign, hslot, statement_following]

end Format

section Query

def Query.segments (q : Query) : List Segment := (pieces q.fmt).map Piece.segment

def Query.places (q : Query) : List (Slot × Directive) := placeholders (pieces q.fmt)

/-- The values of a statement, if its format succeeds. -/
def Query.scalars (lua : Conversions) (q : Query) (params : List Arg) : Option (List Scalar) :=
  DataHandlers.scalars lua q.places (q.values params)

/-- A format with an argument for each directive and fixed parts that stay apart from the values;
only integers are bare where something but tokens follows, and none is in quotes. -/
def Query.Sound (q : Query) : Prop :=
  q.fmt = statement ((pieces q.fmt).map Piece.spelled) ∧ q.args.length = q.places.length ∧
  (∀ p ∈ pieces q.fmt, 37 ∉ p.segment.before ∧ 37 ∉ p.segment.after) ∧
  (∀ g ∈ q.segments, g.Sound ∧ Unsigned g.before ∧ Unsigned g.after) ∧
  q.segments ≠ [] ∧ (∀ d ∈ q.places, d.2 = .number → d.1 = .bare) ∧
  ∀ p ∈ pieces q.fmt, p.directive = .text → p.segment.Tight

instance (s : Bytes) : Decidable (Unsigned s) := inferInstanceAs (Decidable (_ = true))

instance (q : Query) : Decidable q.Sound :=
  inferInstanceAs (Decidable (_ ∧ _ ∧ _ ∧ _ ∧ _ ∧ _ ∧ _))

theorem Query.length_values (q : Query) (params : List Arg) :
    (q.values params).length = q.args.length :=
  List.length_map _

theorem Query.text_eq {q : Query} (hq : q.Sound) (lua : Conversions) (params : List Arg) :
    q.text lua params =
      (q.scalars lua params).map fun vs => statement (assign q.segments vs) := by
  obtain ⟨hfmt, hargs, hfixed, _⟩ := hq
  have hlength : (q.values params).length = (placeholders (pieces q.fmt)).length :=
    (q.length_values params).trans hargs
  rw [Query.text, hfmt, format_statement hfixed hlength]
  rfl

end Query

end Ue4Background.DataHandlers
