import Ue4Background.HandleStorage
import Ue4Background.Transition

/-!
The storage of handles as a registry. Over any calls, the slots and the sorted names behave as two
finite maps, from the handles to the contexts and from the names to the handles. A registration
answers a handle that no context has.
-/

namespace Ue4Background.Kernel

open SortedTable Transition

inductive HandleEvent (Name C : Type*)
  | register (ctx : C)
  | retire (handle : ℕ)
  | grab (handle : ℕ)
  | findname (name : Name)
  | namehandle (handle : ℕ) (name : Name)

inductive HandleOutput (C : Type*)
  | handle (h : ℕ)
  | context (ctx : Option C)
  | done (b : Bool)

/-- The contexts by their handles, and the handles by their names. -/
structure Registry (Name C : Type*) where
  live : ℕ → Option C
  names : Name → Option ℕ

variable {Name C : Type*} [LinearOrder Name]

namespace Registry

def empty : Registry Name C := ⟨fun _ => none, fun _ => none⟩

/-- What a call may answer and leave behind. -/
def Step (r : Registry Name C) (l : HandleEvent Name C × HandleOutput C)
    (r' : Registry Name C) : Prop :=
  match l with
  | (.register ctx, .handle h) =>
    h ≠ 0 ∧ r.live h = none ∧ r' = { r with live := Function.update r.live h (some ctx) }
  | (.retire h, .done b) =>
    b = (r.live h).isSome ∧
      r' = if b then ⟨Function.update r.live h none, fun n => (r.names n).filter (· ≠ h)⟩ else r
  | (.grab h, .context ctx) => ctx = r.live h ∧ r' = r
  | (.findname n, .handle h) => h = (r.names n).getD 0 ∧ r' = r
  | (.namehandle h n, .done b) =>
    b = (r.names n).isNone ∧
      r' = if b then { r with names := Function.update r.names n (some h) } else r
  | _ => False

end Registry

namespace Storage

def Enabled (s : Storage Name C) : HandleEvent Name C → Prop
  | .register ctx => (s.register ctx).isOk
  | .namehandle handle name => s.namehandle handle name ≠ none
  | _ => True

def next (s : Storage Name C) : HandleEvent Name C → Storage Name C × HandleOutput C
  | .register ctx =>
    match s.register ctx with
    | .ok (h, s') => (s', .handle h)
    | .error _ => (s, .handle 0)
  | .retire handle => ((s.retire handle).1, .done (s.retire handle).2)
  | .grab handle => (s, .context (s.grab handle))
  | .findname name => (s, .handle (s.findname name))
  | .namehandle handle name =>
    match s.namehandle handle name with
    | some (s', b) => (s', .done b)
    | none => (s, .done false)

def registry (s : Storage Name C) : Registry Name C := ⟨s.grab, value s.name⟩

theorem Kept.init (harbor : ℕ) : (init harbor : Storage Name C).Kept := by
  refine ⟨⟨2, by decide, by decide, rfl⟩, ⟨harbor &&& 0xff, ?_⟩, ⟨le_rfl, ?_⟩, ?_,
    List.Pairwise.nil⟩
  · exact (Nat.shiftLeft_eq _ _).trans (Nat.mul_comm _ _)
  · exact Nat.one_le_two_pow
  · intro i h c hi
    cases hi

theorem kept_retire {s : Storage Name C} (h : s.Kept) (handle : ℕ) :
    (s.retire handle).1.Kept := by
  unfold retire
  split
  · refine ⟨h.size, h.harbor, h.index, ?_, h.names.filter _⟩
    intro i g c hi
    dsimp only at hi
    by_cases hslot : i = handle &&& (s.slotSize - 1)
    · subst hslot
      rw [Function.update_self] at hi
      cases hi
    · rw [Function.update_of_ne hslot] at hi
      exact h.slots i g c hi
  · exact h

theorem registry_retire {s : Storage Name C} (h : s.Kept) (handle : ℕ) :
    (s.retire handle).2 = (s.grab handle).isSome ∧
      (s.retire handle).1.registry =
        if (s.retire handle).2 then
          ⟨Function.update s.grab handle none, fun n => (value s.name n).filter (· ≠ handle)⟩
        else s.registry := by
  unfold retire
  split
  · rename_i hlive
    refine ⟨hlive.symm, ?_⟩
    rw [if_pos rfl]
    refine congrArg₂ Registry.mk (funext fun g => ?_) (funext fun n => ?_)
    · have hsome := hlive
      unfold grab at hsome ⊢
      dsimp only
      by_cases hg : g = handle
      · subst hg
        rw [Function.update_self, Function.update_self]
      · rw [Function.update_of_ne hg]
        by_cases hslot : g &&& (s.slotSize - 1) = handle &&& (s.slotSize - 1)
        · rw [hslot, Function.update_self]
          split at hsome
          · rename_i ctx hctx
            split at hsome
            · rename_i heq
              subst heq
              exact (if_neg (Ne.symm hg)).symm
            · cases hsome
          · cases hsome
        · rw [Function.update_of_ne hslot]
    · exact value_filter h.names (· ≠ handle) n
  · rename_i hlive
    exact ⟨(Bool.eq_false_iff.mpr hlive).symm, rfl⟩

theorem namehandle_step {s s' : Storage Name C} {handle : ℕ} {name : Name} {b : Bool}
    (h : s.Kept) (hname : s.namehandle handle name = some (s', b)) :
    s'.Kept ∧ b = (value s.name name).isNone ∧
      s'.registry = if b then
        { s.registry with names := Function.update (value s.name) name (some handle) }
      else s.registry := by
  have hfinds := search_finds h.names name
  unfold namehandle at hname
  split at hname
  · rename_i v hsearch
    obtain ⟨rfl, rfl⟩ := Prod.mk.inj (Option.some.inj hname)
    refine ⟨h, ?_, rfl⟩
    rw [value, hsearch]
    rfl
  · rename_i i hsearch
    rw [hsearch] at hfinds
    obtain ⟨hbelow, habove⟩ := hfinds
    have hnone : (value s.name name).isNone = true := by
      rw [value, hsearch]
      rfl
    have hvalue := value_insertBefore h.names handle hbelow habove
    have hsorted := h.names.insertBefore handle hbelow habove
    rw [hnone]
    dsimp only at hname
    split at hname
    · split at hname
      · obtain ⟨rfl, rfl⟩ := Prod.mk.inj (Option.some.inj hname)
        exact ⟨⟨h.size, h.harbor, h.index, h.slots, hsorted⟩, rfl, congrArg _ hvalue⟩
      · cases hname
    · obtain ⟨rfl, rfl⟩ := Prod.mk.inj (Option.some.inj hname)
      exact ⟨⟨h.size, h.harbor, h.index, h.slots, hsorted⟩, rfl, congrArg _ hvalue⟩

theorem next_step {s s' : Storage Name C} {l : HandleEvent Name C × HandleOutput C}
    (h : s.Kept) (hstep : Fires Enabled next s l s') :
    s'.Kept ∧ s.registry.Step l s'.registry := by
  obtain ⟨e, out⟩ := l
  obtain ⟨henabled, hnext⟩ := hstep
  cases e with
  | register ctx =>
    cases hregister : s.register ctx with
    | error fault =>
      have hok : (s.register ctx).isOk := henabled
      rw [hregister] at hok
      cases hok
    | ok result =>
      obtain ⟨g, s''⟩ := result
      simp only [next, hregister] at hnext
      obtain ⟨rfl, rfl⟩ := Prod.mk.inj hnext
      obtain ⟨hkept, hpos, hfresh, hgrab, hname⟩ := registered_of_register h hregister
      refine ⟨hkept, hpos, hfresh, ?_⟩
      refine congrArg₂ Registry.mk (funext fun g' => ?_) (congrArg value hname)
      rw [hgrab, Function.update_apply]
      rfl
  | retire handle =>
    obtain ⟨rfl, rfl⟩ := Prod.mk.inj hnext
    exact ⟨kept_retire h handle, registry_retire h handle⟩
  | grab handle =>
    obtain ⟨rfl, rfl⟩ := Prod.mk.inj hnext
    exact ⟨h, rfl, rfl⟩
  | findname name =>
    obtain ⟨rfl, rfl⟩ := Prod.mk.inj hnext
    refine ⟨h, ?_, rfl⟩
    unfold findname registry value
    dsimp only
    cases search s.name name <;> rfl
  | namehandle handle name =>
    cases hname : s.namehandle handle name with
    | none => exact absurd hname henabled
    | some result =>
      obtain ⟨s'', b⟩ := result
      simp only [next, hname] at hnext
      obtain ⟨rfl, rfl⟩ := Prod.mk.inj hnext
      obtain ⟨hkept, hb, hregistry⟩ := namehandle_step h hname
      exact ⟨hkept, hb, hregistry⟩

/-- In every run in which no registration and no naming fails, the storage answers as the registry
does. -/
theorem storage_refines {harbor : ℕ} {ls : List (HandleEvent Name C × HandleOutput C)}
    {s : Storage Name C} (hrun : Run (Fires Enabled next) (init harbor) ls s) :
    Run Registry.Step Registry.empty ls s.registry := by
  have hstart : (init harbor : Storage Name C).registry = Registry.empty := by
    refine congrArg₂ Registry.mk (funext fun g => ?_) (funext fun n => ?_)
    · rfl
    · rfl
  have hsim : s.Kept ∧ Run Registry.Step (init harbor).registry ls s.registry :=
    Run.refine (fun _ _ _ h hstep => next_step h hstep) (Kept.init harbor) hrun
  rw [← hstart]
  exact hsim.2

theorem storage_refines_one_service :
    Run Registry.Step Registry.empty
      (trace next (init 0) [.register (), .namehandle 1 5, .findname 5, .retire 1, .grab 1])
      (registry (exec next (init 0 : Storage ℕ Unit)
        [.register (), .namehandle 1 5, .findname 5, .retire 1, .grab 1])) := by
  refine storage_refines (run_exec _ ⟨?_, ?_, trivial, trivial, trivial, trivial⟩)
  · rfl
  · exact fun h => by cases h

end Storage

end Ue4Background.Kernel
