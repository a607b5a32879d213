import Mathlib.Data.List.Basic

/-!
Finite runs of labelled transition systems. A run keeps the labels of its steps,
oldest first, so a statement may speak of the whole history of a state. An
invariant may depend on that history; it is proved from one step lemma. A run
may be restricted to steps that meet a condition on the state before the step.
A machine answers every enabled event with a state and an output; its runs can be
computed from a list of events.
-/

namespace Ue4Background.Transition

variable {S L : Type*}

inductive Run (step : S → L → S → Prop) (s : S) : List L → S → Prop
  | nil : Run step s [] s
  | snoc {ls : List L} {t u : S} {l : L} :
      Run step s ls t → step t l u → Run step s (ls ++ [l]) u

/-- Only the steps that meet the condition in the state they start from. -/
def Guarded (step : S → L → S → Prop) (meets : S → L → Prop) (s : S) (l : L) (t : S) : Prop :=
  step s l t ∧ meets s l

/-- Only the steps that end in a state satisfying `P`. -/
def Staying (step : S → L → S → Prop) (P : S → Prop) (s : S) (l : L) (t : S) : Prop :=
  step s l t ∧ P t

namespace Run

variable {step : S → L → S → Prop}

/-- One step lemma about an invariant of the history carries it along a run. -/
theorem invariant_history {I : List L → S → Prop} {s t : S} {pre ls : List L}
    (hstep : ∀ hist u l v, I hist u → step u l v → I (hist ++ [l]) v)
    (hs : I pre s) (hrun : Run step s ls t) : I (pre ++ ls) t := by
  induction hrun with
  | nil => simpa only [List.append_nil] using hs
  | snoc hrun hlast ih =>
    rw [← List.append_assoc]
    exact hstep _ _ _ _ ih hlast

/-- One step lemma about a state invariant carries it along a run. -/
theorem invariant {I : S → Prop} {s t : S} {ls : List L}
    (hstep : ∀ u l v, I u → step u l v → I v) (hs : I s) (hrun : Run step s ls t) : I t := by
  induction hrun with
  | nil => exact hs
  | snoc hrun hlast ih => exact hstep _ _ _ ih hlast

theorem mono {step' : S → L → S → Prop} {s t : S} {ls : List L}
    (himp : ∀ u l v, step u l v → step' u l v) (hrun : Run step s ls t) :
    Run step' s ls t := by
  induction hrun with
  | nil => exact Run.nil
  | snoc _ hlast ih => exact Run.snoc ih (himp _ _ _ hlast)

/-- Steps that an abstraction of the states maps to steps of another system map a run to a run. -/
theorem refine {S' : Type*} {step' : S' → L → S' → Prop} {I : S → Prop} {abs : S → S'} {s t : S}
    {ls : List L} (hstep : ∀ u l v, I u → step u l v → I v ∧ step' (abs u) l (abs v)) (hs : I s)
    (hrun : Run step s ls t) : I t ∧ Run step' (abs s) ls (abs t) := by
  induction hrun with
  | nil => exact ⟨hs, Run.nil⟩
  | snoc _ hlast ih =>
    obtain ⟨hmid, habs⟩ := ih
    obtain ⟨hend, hlast'⟩ := hstep _ _ _ hmid hlast
    exact ⟨hend, Run.snoc habs hlast'⟩

theorem unguarded {meets : S → L → Prop} {s t : S} {ls : List L}
    (hrun : Run (Guarded step meets) s ls t) : Run step s ls t :=
  hrun.mono fun _ _ _ h => h.1

theorem staying_end {P : S → Prop} {s t : S} {ls : List L} (hs : P s)
    (hrun : Run (Staying step P) s ls t) : P t := by
  cases hrun with
  | nil => exact hs
  | snoc _ hlast => exact hlast.2

theorem append {s t u : S} {ls ms : List L} (hrun : Run step s ls t) (hrun' : Run step t ms u) :
    Run step s (ls ++ ms) u := by
  induction hrun' with
  | nil => simpa only [List.append_nil] using hrun
  | snoc _ hlast ih =>
    rw [← List.append_assoc]
    exact Run.snoc ih hlast

theorem single {s t : S} {l : L} (h : step s l t) : Run step s [l] t := by
  simpa only [List.nil_append] using Run.snoc Run.nil h

theorem cons {s t u : S} {l : L} {ls : List L} (h : step s l t) (hrun : Run step t ls u) :
    Run step s (l :: ls) u :=
  (single h).append hrun

end Run

section Machine

variable {E O : Type*}

/-- The step relation of a machine; its labels are events with their outputs. -/
def Fires (enabled : S → E → Prop) (next : S → E → S × O) (s : S) (l : E × O) (t : S) : Prop :=
  enabled s l.1 ∧ next s l.1 = (t, l.2)

/-- `P` holds of every event of the list in the state it occurs in. -/
def Along (P : S → E → Prop) (next : S → E → S × O) : S → List E → Prop
  | _, [] => True
  | s, e :: es => P s e ∧ Along P next (next s e).1 es

instance Along.decidable (P : S → E → Prop) (next : S → E → S × O) [∀ s e, Decidable (P s e)] :
    ∀ s es, Decidable (Along P next s es)
  | _, [] => inferInstanceAs (Decidable True)
  | s, e :: es =>
    haveI := Along.decidable P next (next s e).1 es
    inferInstanceAs (Decidable (P s e ∧ Along P next (next s e).1 es))

/-- Two conditions on the events agree along a list when they agree at each event, given
an invariant that the condition carries on. -/
theorem along_iff {I : S → Prop} {enabled P C : S → E → Prop} {next : S → E → S × O}
    (hstep : ∀ s e, I s → enabled s e → (P s e ↔ C s e) ∧ (P s e → I (next s e).1))
    {s : S} {es : List E} (hs : I s) (henabled : Along enabled next s es) :
    Along P next s es ↔ Along C next s es := by
  induction es generalizing s with
  | nil => exact Iff.rfl
  | cons e es ih =>
    obtain ⟨hiff, hinv⟩ := hstep s e hs henabled.1
    constructor
    · rintro ⟨hP, hrest⟩
      exact ⟨hiff.mp hP, (ih (hinv hP) henabled.2).mp hrest⟩
    · rintro ⟨hC, hrest⟩
      have hP := hiff.mpr hC
      exact ⟨hP, (ih (hinv hP) henabled.2).mpr hrest⟩

/-- The state after a list of events. -/
def exec (next : S → E → S × O) : S → List E → S
  | s, [] => s
  | s, e :: es => exec next (next s e).1 es

theorem exec_append (next : S → E → S × O) (s : S) (es es' : List E) :
    exec next s (es ++ es') = exec next (exec next s es) es' := by
  induction es generalizing s with
  | nil => rfl
  | cons e es ih => exact ih (next s e).1

/-- One step lemma about an invariant of the events so far carries it along a list of events. -/
theorem invariant_exec {I : List E → S → Prop} {enabled : S → E → Prop} {next : S → E → S × O}
    (hstep : ∀ hist u e, I hist u → enabled u e → I (hist ++ [e]) (next u e).1) {s : S}
    (pre : List E) {es : List E} (hs : I pre s) (henabled : Along enabled next s es) :
    I (pre ++ es) (exec next s es) := by
  induction es generalizing s pre with
  | nil =>
    rw [List.append_nil]
    exact hs
  | cons e es ih =>
    have hrest := ih (pre ++ [e]) (hstep _ _ _ hs henabled.1) henabled.2
    rwa [List.append_assoc] at hrest

theorem along_append {P : S → E → Prop} {next : S → E → S × O} {s : S} {es es' : List E} :
    Along P next s (es ++ es') ↔ Along P next s es ∧ Along P next (exec next s es) es' := by
  induction es generalizing s with
  | nil => exact (and_iff_right trivial).symm
  | cons e es ih =>
    change P s e ∧ Along P next (next s e).1 (es ++ es') ↔ _
    rw [ih, ← and_assoc]
    rfl

def trace (next : S → E → S × O) : S → List E → List (E × O)
  | _, [] => []
  | s, e :: es => (e, (next s e).2) :: trace next (next s e).1 es

theorem mem_trace {next : S → E → S × O} {s : S} {es : List E} {l : E × O}
    (hl : l ∈ trace next s es) : l.1 ∈ es := by
  induction es generalizing s with
  | nil => cases hl
  | cons e es ih =>
    rcases List.mem_cons.mp hl with rfl | hrest
    · exact List.mem_cons_self ..
    · exact List.mem_cons_of_mem _ (ih hrest)

theorem run_exec_guarded {enabled : S → E → Prop} {next : S → E → S × O}
    {meets : S → E × O → Prop} {s : S} {es : List E}
    (h : Along (fun s e => enabled s e ∧ meets s (e, (next s e).2)) next s es) :
    Run (Guarded (Fires enabled next) meets) s (trace next s es) (exec next s es) := by
  induction es generalizing s with
  | nil => exact Run.nil
  | cons e es ih =>
    obtain ⟨⟨henabled, hmeets⟩, hrest⟩ := h
    exact Run.cons ⟨⟨henabled, rfl⟩, hmeets⟩ (ih hrest)

theorem run_exec {enabled : S → E → Prop} {next : S → E → S × O} {s : S} (es : List E)
    (h : Along enabled next s es) :
    Run (Fires enabled next) s (trace next s es) (exec next s es) := by
  induction es generalizing s with
  | nil => exact Run.nil
  | cons e es ih => exact Run.cons ⟨h.1, rfl⟩ (ih h.2)

end Machine

end Ue4Background.Transition
