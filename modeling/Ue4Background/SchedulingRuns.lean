import Ue4Background.Scheduling
import Ue4Background.Shares

/-!
What the threads hold of a service in every run. A queue that is not dormant has one token, which
stands in the global queue or is held by one thread. The count of references is the number of
holders, so a service is deleted when nobody uses it and its queue is freed once. Hence no service
is run by two workers at a time, no message is lost, and none is overtaken.
-/

namespace Ue4Background.Kernel

open Transition Shares MessageQueue

/-- The shares of a service that a thread can hold. -/
inductive Share
  | token
  | ref
  | delete
  | drop

/-- One share of the service `g`, seen from the service `h`. -/
def one (g h : ℕ) : ℕ := if g = h then 1 else 0

def Action.share (h : ℕ) : Share → Action → ℕ
  | .token, .init g => one g h
  | .token, .globalPush g => one g h
  | .token, .mqRelease g => one g h
  | .token, .drop g => one g h
  | .ref, .push g _ => one g h
  | .ref, .release g => one g h
  | .ref, .init g => one g h
  | .delete, .delete g => one g h
  | .drop, .drop g => one g h
  | _, _ => 0

def Pc.share (h : ℕ) : Share → Pc → ℕ
  | .token, .hold q => one q h
  | .token, .loop q _ _ => one q h
  | .token, .taken q _ _ => one q h
  | .token, .dispatching q _ _ => one q h
  | .token, .finish q => one q h
  | .ref, .loop q _ _ => one q h
  | .ref, .taken q _ _ => one q h
  | .ref, .dispatching q _ _ => one q h
  | .ref, .finish q => one q h
  | _, _ => 0

def Thread.share (h : ℕ) (k : Share) (th : Thread) : ℕ :=
  (th.todo.map (Action.share h k)).sum + th.pc.share h k

attribute [simp] Action.share Pc.share

variable {T : Type*}

namespace Node

section Updates

variable (s : Node T)

@[simp] theorem services_pushGlobal (b : Bool) (g : ℕ) :
    (s.pushGlobal b g).services = s.services := by
  unfold pushGlobal
  split <;> rfl

@[simp] theorem threads_pushGlobal (b : Bool) (g : ℕ) :
    (s.pushGlobal b g).threads = s.threads := by
  unfold pushGlobal
  split <;> rfl

@[simp] theorem threads_setService (g : ℕ) (sv : Service) :
    (s.setService g sv).threads = s.threads := rfl

@[simp] theorem services_setService_self (g : ℕ) (sv : Service) :
    (s.setService g sv).services g = sv := Function.update_self ..

theorem services_setService_of_ne {g h : ℕ} (sv : Service) (hne : h ≠ g) :
    (s.setService g sv).services h = s.services h := Function.update_of_ne hne ..

end Updates

end Node

variable [Fintype T]

namespace Node

def held (s : Node T) (h : ℕ) (k : Share) : ℕ := ∑ t, (s.threads t).share h k

/-- The tokens of a service, in the global queue and with the threads. -/
def tokens (s : Node T) (h : ℕ) : ℕ := s.globalQueue.count h + s.held h .token

end Node

@[simp] theorem Thread.share_cons (h : ℕ) (k : Share) (a : Action) (rest : List Action) (pc : Pc) :
    Thread.share h k ⟨a :: rest, pc⟩ = a.share h k + Thread.share h k ⟨rest, pc⟩ := by
  simp [Thread.share, Nat.add_assoc]

theorem Thread.share_nil (h : ℕ) (k : Share) (pc : Pc) :
    Thread.share h k ⟨[], pc⟩ = pc.share h k := by
  simp [Thread.share]

theorem Node.held_setThread [DecidableEq T] (s : Node T) (t : T) (th : Thread) (h : ℕ) (k : Share) :
    (s.setThread t th).held h k + (s.threads t).share h k = s.held h k + th.share h k :=
  sum_update (Thread.share h k) s.threads t th

/-- What is true of a service and of the shares that are held of it. -/
structure Counted (sv : Service) (tokens : ℕ) (held : Share → ℕ) : Prop where
  tokens : tokens = if sv.freed then 0 else if sv.queue.inGlobal || sv.queue.release then 1 else 0
  refs : sv.ref = (if sv.registered then 1 else 0) + held .ref
  deletes : held .delete + (if sv.queue.release then 1 else 0) = if sv.ref = 0 then 1 else 0
  freed : sv.freed = true → sv.queue.release = true
  drops : 0 < held .drop → sv.queue.release = true
  issued : sv.issued = false → sv.freed = true

theorem Counted.same {sv : Service} {n n' : ℕ} {held held' : Share → ℕ}
    (h : Counted sv n held) (hn : n' = n) (href : held' .ref = held .ref)
    (hdelete : held' .delete = held .delete) (hdrop : held' .drop = held .drop) :
    Counted sv n' held' := by
  obtain ⟨h1, h2, h3, h4, h5, h6⟩ := h
  exact ⟨hn ▸ h1, href ▸ h2, hdelete ▸ h3, h4, hdrop ▸ h5, h6⟩

def Node.Sound (s : Node T) : Prop :=
  ∀ h, Counted (s.services h) (s.tokens h) (s.held h)

namespace Node

variable {s : Node T} {t : T} {pc : Pc} {rest : List Action}

@[simp] theorem held_setService (s : Node T) (g : ℕ) (sv : Service) :
    (s.setService g sv).held = s.held := rfl

@[simp] theorem held_pushGlobal (s : Node T) (b : Bool) (g : ℕ) :
    (s.pushGlobal b g).held = s.held := by
  unfold pushGlobal
  split <;> rfl

@[simp] theorem tokens_setService (s : Node T) (g : ℕ) (sv : Service) :
    (s.setService g sv).tokens = s.tokens := rfl

@[simp] theorem tokens_pushGlobal (s : Node T) (b : Bool) (g h : ℕ) :
    (s.pushGlobal b g).tokens h = s.tokens h + if b then one g h else 0 := by
  unfold pushGlobal tokens
  split
  · change (s.globalQueue ++ [g]).count h + s.held h .token = _
    rw [List.count_append, List.count_singleton, one]
    have hbeq : (g == h) = decide (g = h) := rfl
    simp only [hbeq, decide_eq_true_eq]
    omega
  · rfl

theorem tokens_setThread [DecidableEq T] (s : Node T) (t : T) (th : Thread) (h : ℕ) :
    (s.setThread t th).tokens h + (s.threads t).share h .token =
      s.tokens h + th.share h .token := by
  have hheld := s.held_setThread t th h .token
  have hqueue : (s.setThread t th).globalQueue = s.globalQueue := rfl
  unfold tokens
  rw [hqueue]
  omega

theorem share_le_held (s : Node T) (t : T) (h : ℕ) (k : Share) :
    (s.threads t).share h k ≤ s.held h k := le_sum (Thread.share h k) s.threads t

/-- A step of one thread: the shares of each service are those of the threads now. -/
theorem Sound.step [DecidableEq T] (hs : s.Sound) {base : Node T} {th th' : Thread}
    (hth : s.threads t = th) (hthreads : base.threads = s.threads)
    (hservices : ∀ (g n : ℕ) (held : Share → ℕ),
      Counted (s.services g) (s.tokens g) (s.held g) →
      th.share g .ref ≤ s.held g .ref →
      n + th.share g .token = base.tokens g + th'.share g .token →
      held .ref + th.share g .ref = s.held g .ref + th'.share g .ref →
      held .delete + th.share g .delete = s.held g .delete + th'.share g .delete →
      held .drop + th.share g .drop = s.held g .drop + th'.share g .drop →
      Counted (base.services g) n held) :
    (base.setThread t th').Sound := by
  have hheld : base.held = s.held := by
    unfold held
    rw [hthreads]
  intro g
  have htokens := base.tokens_setThread t th' g
  have hshares := base.held_setThread t th' g
  have hle := s.share_le_held t g
  rw [hth] at hle
  rw [hthreads, hth] at htokens
  rw [hheld, hthreads, hth] at hshares
  exact hservices g _ _ (hs g) (hle .ref) htokens (hshares .ref) (hshares .delete) (hshares .drop)

/-- A step that moves no shares between the services. -/
theorem Sound.pass [DecidableEq T] (hs : s.Sound) {base : Node T} {th th' : Thread}
    (hth : s.threads t = th) (hthreads : base.threads = s.threads)
    (hservices : base.services = s.services)
    (htokens : ∀ g, base.tokens g + th'.share g .token = s.tokens g + th.share g .token)
    (hshares : ∀ g k, k ≠ .token → th'.share g k = th.share g k) :
    (base.setThread t th').Sound := by
  refine hs.step hth hthreads fun g n held hg _ hn href hdelete hdrop => ?_
  have htoken := htokens g
  rw [hshares g _ (by simp)] at href hdelete hdrop
  rw [hservices]
  exact hg.same (by omega) (by omega) (by omega) (by omega)

theorem sound_send [DecidableEq T] (hs : s.Sound) (h : ℕ) (m : SkynetMessage)
    (hth : s.threads t = ⟨.send h m :: rest, pc⟩) : (s.act t pc rest (.send h m)).1.Sound := by
  simp only [act]
  split
  · refine hs.step hth rfl fun g n held hg hle hn href hdelete hdrop => ?_
    simp only [Thread.share_cons, Action.share, tokens_setService] at hn href hdelete hdrop
    by_cases hne : g = h
    · subst hne
      obtain ⟨h1, h2, h3, h4, h5, h6⟩ := hg
      simp only [one, if_true, services_setService_self] at *
      constructor <;> grind
    · simp only [services_setService_of_ne _ _ hne, one, if_neg (Ne.symm hne)] at *
      exact hg.same (by omega) (by omega) (by omega) (by omega)
  · exact hs.pass hth rfl rfl (by simp) (by simp)

theorem sound_push [DecidableEq T] (hs : s.Sound) (h : ℕ) (m : SkynetMessage)
    (hth : s.threads t = ⟨.push h m :: rest, pc⟩) : (s.act t pc rest (.push h m)).1.Sound := by
  refine hs.step hth (by simp) fun g n held hg hle hn href hdelete hdrop => ?_
  simp only [Thread.share_cons, Action.share, tokens_pushGlobal, tokens_setService, push_snd,
    services_pushGlobal] at hn href hdelete hdrop hle ⊢
  by_cases hne : g = h
  · subst hne
    obtain ⟨h1, h2, h3, h4, h5, h6⟩ := hg
    simp only [one, if_true, services_setService_self] at *
    constructor <;> grind [push_inGlobal, push_release]
  · simp only [services_setService_of_ne _ _ hne, one, if_neg (Ne.symm hne)] at *
    exact hg.same (by simpa using hn) (by omega) (by omega) (by omega)

theorem sound_release [DecidableEq T] (hs : s.Sound) (h : ℕ)
    (hth : s.threads t = ⟨.release h :: rest, pc⟩) :
    (s.act t pc rest (.release h)).1.Sound := by
  refine hs.step hth rfl fun g n held hg hle hn href hdelete hdrop => ?_
  by_cases hlast : (s.services h).ref = 1
  · rw [if_pos hlast] at hn href hdelete hdrop
    simp only [Thread.share_cons, Action.share, tokens_setService] at hn href hdelete hdrop hle
    by_cases hne : g = h
    · subst hne
      obtain ⟨h1, h2, h3, h4, h5, h6⟩ := hg
      simp only [one, if_true, services_setService_self] at *
      constructor <;> grind
    · simp only [services_setService_of_ne _ _ hne, one, if_neg (Ne.symm hne)] at *
      exact hg.same (by omega) (by omega) (by omega) (by omega)
  · rw [if_neg hlast] at hn href hdelete hdrop
    simp only [Thread.share_cons, Action.share, tokens_setService] at hn href hdelete hdrop hle
    by_cases hne : g = h
    · subst hne
      obtain ⟨h1, h2, h3, h4, h5, h6⟩ := hg
      simp only [one, if_true, services_setService_self] at *
      constructor <;> grind
    · simp only [services_setService_of_ne _ _ hne, one, if_neg (Ne.symm hne)] at *
      exact hg.same (by omega) (by omega) (by omega) (by omega)

theorem sound_delete [DecidableEq T] (hs : s.Sound) (h : ℕ)
    (hth : s.threads t = ⟨.delete h :: rest, pc⟩) :
    (s.act t pc rest (.delete h)).1.Sound := by
  refine hs.step hth (by simp) fun g n held hg hle hn href hdelete hdrop => ?_
  simp only [Thread.share_cons, Action.share, tokens_pushGlobal, tokens_setService,
    services_pushGlobal, markRelease] at hn href hdelete hdrop hle ⊢
  by_cases hne : g = h
  · subst hne
    obtain ⟨h1, h2, h3, h4, h5, h6⟩ := hg
    simp only [one, if_true, services_setService_self] at *
    constructor <;> grind
  · simp only [services_setService_of_ne _ _ hne, one, if_neg (Ne.symm hne)] at *
    exact hg.same (by simpa using hn) (by omega) (by omega) (by omega)

theorem sound_retire [DecidableEq T] (hs : s.Sound) (h : ℕ)
    (hth : s.threads t = ⟨.retire h :: rest, pc⟩) :
    (s.act t pc rest (.retire h)).1.Sound := by
  simp only [act]
  split
  · refine hs.step hth rfl fun g n held hg hle hn href hdelete hdrop => ?_
    simp only [Thread.share_cons, Action.share, tokens_setService] at hn href hdelete hdrop
    by_cases hne : g = h
    · subst hne
      obtain ⟨h1, h2, h3, h4, h5, h6⟩ := hg
      simp only [one, if_true, services_setService_self] at *
      constructor <;> grind
    · simp only [services_setService_of_ne _ _ hne, one, if_neg (Ne.symm hne)] at *
      exact hg.same (by omega) (by omega) (by omega) (by omega)
  · exact hs.pass hth rfl rfl (by simp) (by simp)

theorem sound_globalPush [DecidableEq T] (hs : s.Sound) (h : ℕ)
    (hth : s.threads t = ⟨.globalPush h :: rest, pc⟩) :
    (s.act t pc rest (.globalPush h)).1.Sound := by
  refine hs.pass hth (by simp) (by simp) ?_ ?_
  · intro g
    simp only [Thread.share_cons, Action.share, tokens_pushGlobal, if_true]
    omega
  · rintro g (- | - | - | -) hk <;> simp at hk ⊢

theorem sound_mqRelease [DecidableEq T] (hs : s.Sound) (h : ℕ)
    (hth : s.threads t = ⟨.mqRelease h :: rest, pc⟩) :
    (s.act t pc rest (.mqRelease h)).1.Sound := by
  simp only [act]
  split
  · rename_i hrelease
    refine hs.step hth rfl fun g n held hg hle hn href hdelete hdrop => ?_
    simp only [Thread.share_cons, Action.share] at hn href hdelete hdrop
    obtain ⟨h1, h2, h3, h4, h5, h6⟩ := hg
    simp only [one] at *
    constructor <;> grind
  · refine hs.pass hth (by simp) (by simp) ?_ ?_
    · intro g
      simp only [Thread.share_cons, Action.share, tokens_pushGlobal, if_true]
      omega
    · rintro g (- | - | - | -) hk <;> simp at hk ⊢

theorem share_dropMessage (g h : ℕ) (k : Share) (m : SkynetMessage) (rest : List Action) (pc : Pc) :
    Thread.share g k ⟨dropMessage h m ++ rest, pc⟩ = Thread.share g k ⟨rest, pc⟩ := by
  unfold dropMessage
  split
  · rfl
  · cases k <;> simp

theorem sound_drop [DecidableEq T] (hs : s.Sound) (h : ℕ)
    (hth : s.threads t = ⟨.drop h :: rest, pc⟩) :
    (s.act t pc rest (.drop h)).1.Sound := by
  have hdropping : 0 < s.held h .drop := by
    have hle := s.share_le_held t h .drop
    rw [hth] at hle
    simp [one] at hle
    omega
  have hreleased := (hs h).drops hdropping
  simp only [act]
  split
  · rename_i m queue hpop
    have hqueue : queue = (s.services h).queue.pop.2 := by rw [hpop]
    subst hqueue
    refine hs.step hth rfl fun g n held hg hle hn href hdelete hdrop => ?_
    rw [share_dropMessage] at hn href hdelete hdrop
    simp only [tokens_setService] at hn
    by_cases hne : g = h
    · subst hne
      obtain ⟨h1, h2, h3, h4, h5, h6⟩ := hg
      simp only [services_setService_self] at *
      constructor <;> grind [pop_release]
    · simp only [services_setService_of_ne _ _ hne] at *
      exact hg.same (by omega) (by omega) (by omega) (by omega)
  · rename_i queue hpop
    have hqueue : queue = (s.services h).queue.pop.2 := by rw [hpop]
    subst hqueue
    refine hs.step hth rfl fun g n held hg hle hn href hdelete hdrop => ?_
    simp only [Thread.share_cons, Action.share, tokens_setService] at hn href hdelete hdrop hle
    by_cases hne : g = h
    · subst hne
      obtain ⟨h1, h2, h3, h4, h5, h6⟩ := hg
      simp only [one, if_true, services_setService_self] at *
      constructor <;> grind [pop_release]
    · simp only [services_setService_of_ne _ _ hne, one, if_neg (Ne.symm hne)] at *
      exact hg.same (by omega) (by omega) (by omega) (by omega)

theorem sound_act [DecidableEq T] (hs : s.Sound) {a : Action}
    (hth : s.threads t = ⟨a :: rest, pc⟩) : (s.act t pc rest a).1.Sound := by
  cases a with
  | send h m => exact sound_send hs h m hth
  | push h m => exact sound_push hs h m hth
  | release h => exact sound_release hs h hth
  | delete h => exact sound_delete hs h hth
  | retire h => exact sound_retire hs h hth
  | init h => exact hs
  | globalPush h => exact sound_globalPush hs h hth
  | mqRelease h => exact sound_mqRelease hs h hth
  | drop h => exact sound_drop hs h hth

/-- Taking the first queue out of the global queue gives its token to the thread. -/
theorem tokens_tail (s : Node T) {q : ℕ} {queues : List ℕ} (hqueue : s.globalQueue = q :: queues)
    (h : ℕ) :
    ({ s with globalQueue := queues } : Node T).tokens h + one q h = s.tokens h := by
  change queues.count h + s.held h .token + one q h = s.tokens h
  rw [tokens, hqueue, List.count_cons, one]
  have hbeq : (q == h) = decide (q = h) := rfl
  simp only [hbeq, decide_eq_true_eq]
  omega

theorem sound_work [DecidableEq T] (hs : s.Sound) (weight : ℤ)
    (hth : s.threads t = ⟨[], pc⟩) : (s.work weight t pc).1.Sound := by
  cases pc with
  | outside => exact hs
  | fetch =>
    simp only [work]
    split
    · exact hs
    · rename_i q queues hqueue
      refine hs.pass hth rfl rfl ?_ ?_
      · intro g
        have htail := s.tokens_tail hqueue g
        simp only [Thread.share_nil, Pc.share]
        omega
      · rintro g (- | - | - | -) hk <;> simp [Thread.share_nil] at hk ⊢
  | hold q =>
    simp only [work]
    split
    · rename_i hregistered
      refine hs.step hth rfl fun g n held hg hle hn href hdelete hdrop => ?_
      simp only [Thread.share_nil, Pc.share, tokens_setService] at hn href hdelete hdrop
      by_cases hne : g = q
      · subst hne
        obtain ⟨h1, h2, h3, h4, h5, h6⟩ := hg
        simp only [one, if_true, services_setService_self] at *
        constructor <;> grind
      · simp only [services_setService_of_ne _ _ hne, one, if_neg (Ne.symm hne)] at *
        exact hg.same (by omega) (by omega) (by omega) (by omega)
    · refine hs.pass hth rfl rfl ?_ ?_
      · intro g
        simp [Thread.share_nil]
      · rintro g (- | - | - | -) hk <;> simp [Thread.share_nil] at hk ⊢
  | loop q i n =>
    have hpop := (s.services q).queue.pop_inGlobal
    simp only [work]
    split
    · rename_i m queue hsome
      have hqueue : queue = (s.services q).queue.pop.2 := by rw [hsome]
      rw [hsome] at hpop
      subst hqueue
      refine hs.step hth rfl fun g n held hg hle hn href hdelete hdrop => ?_
      simp only [Thread.share_nil, Pc.share, tokens_setService] at hn href hdelete hdrop
      by_cases hne : g = q
      · subst hne
        obtain ⟨h1, h2, h3, h4, h5, h6⟩ := hg
        simp only [one, if_true, services_setService_self] at *
        constructor <;> grind [pop_release]
      · simp only [services_setService_of_ne _ _ hne, one, if_neg (Ne.symm hne)] at *
        exact hg.same (by omega) (by omega) (by omega) (by omega)
    · rename_i queue hnone
      have hqueue : queue = (s.services q).queue.pop.2 := by rw [hnone]
      rw [hnone] at hpop
      subst hqueue
      refine hs.step hth rfl fun g n held hg hle hn href hdelete hdrop => ?_
      simp only [Thread.share_cons, Thread.share_nil, Pc.share, Action.share, tokens_setService]
        at hn href hdelete hdrop hle
      by_cases hne : g = q
      · subst hne
        obtain ⟨h1, h2, h3, h4, h5, h6⟩ := hg
        simp only [one, if_true, services_setService_self] at *
        constructor <;> grind [pop_release]
      · simp only [services_setService_of_ne _ _ hne, one, if_neg (Ne.symm hne)] at *
        exact hg.same (by omega) (by omega) (by omega) (by omega)
  | taken q i n =>
    simp only [work]
    refine hs.step hth rfl fun g m held hg hle hn href hdelete hdrop => ?_
    simp only [Thread.share_nil, Pc.share, tokens_setService] at hn href hdelete hdrop
    by_cases hne : g = q
    · subst hne
      obtain ⟨h1, h2, h3, h4, h5, h6⟩ := hg
      simp only [one, if_true, services_setService_self, takeOverload] at *
      constructor <;> grind
    · simp only [services_setService_of_ne _ _ hne, one, if_neg (Ne.symm hne)] at *
      exact hg.same (by omega) (by omega) (by omega) (by omega)
  | dispatching q i n =>
    simp only [work]
    refine hs.pass hth rfl rfl ?_ ?_
    · intro g
      split <;> simp [Thread.share_nil]
    · rintro g k hk
      split <;> cases k <;> simp [Thread.share_nil] at hk ⊢
  | finish q =>
    simp only [work]
    split
    · refine hs.pass hth rfl rfl ?_ ?_
      · intro g
        simp [Thread.share_nil]
      · rintro g (- | - | - | -) hk <;> simp [Thread.share_nil] at hk ⊢
    · rename_i p queues hqueue
      refine hs.pass hth rfl rfl ?_ ?_
      · intro g
        have htail := s.tokens_tail hqueue g
        simp only [Thread.share_cons, Thread.share_nil, Pc.share, Action.share]
        omega
      · rintro g (- | - | - | -) hk <;> simp [Thread.share_nil] at hk ⊢

theorem held_drop_le (s : Node T) (h : ℕ) : s.held h .drop ≤ s.tokens h := by
  have hactions : ∀ todo : List Action,
      (todo.map (Action.share h .drop)).sum ≤ (todo.map (Action.share h .token)).sum := by
    intro todo
    induction todo with
    | nil => simp
    | cons a todo ih =>
      have hhead : a.share h .drop ≤ a.share h .token := by cases a <;> simp
      simp only [List.map_cons, List.sum_cons]
      omega
  have hthreads : ∀ t, (s.threads t).share h .drop ≤ (s.threads t).share h .token := by
    intro t
    have hpc : (s.threads t).pc.share h .drop ≤ (s.threads t).pc.share h .token := by
      cases (s.threads t).pc <;> simp
    exact Nat.add_le_add (hactions _) hpc
  have hsum : s.held h .drop ≤ s.held h .token := Finset.sum_le_sum fun t _ => hthreads t
  unfold tokens
  omega

theorem sound_start (queue : ℕ → SkynetMessage) (worker : T → Bool) :
    (start queue worker : Node T).Sound := by
  intro h
  have hheld : ∀ k, (start queue worker : Node T).held h k = 0 := by
    intro k
    refine Finset.sum_eq_zero fun t _ => ?_
    unfold start
    dsimp only
    rw [Thread.share_nil]
    split <;> cases k <;> rfl
  have htokens : (start queue worker : Node T).tokens h = 0 := by
    rw [tokens, hheld]
    rfl
  rw [htokens]
  refine ⟨rfl, ?_, ?_, fun _ => rfl, fun _ => rfl, fun _ => rfl⟩
  · rw [hheld]
    rfl
  · rw [hheld]
    rfl

theorem sound_launch [DecidableEq T] (hs : s.Sound) {h : ℕ} (queue : ℕ → SkynetMessage)
    {todo : List Action} (hth : s.threads t = ⟨todo, pc⟩)
    (hnew : (s.services h).issued = false) :
    ((s.setService h (.new h queue)).setThread t ⟨.init h :: todo, pc⟩).Sound := by
  have hdrop := s.held_drop_le h
  refine hs.step hth rfl fun g n held hg hle hn href hdelete hdrops => ?_
  simp only [Thread.share_cons, Action.share, tokens_setService] at hn href hdelete hdrops
  by_cases hne : g = h
  · subst hne
    obtain ⟨h1, h2, h3, h4, h5, h6⟩ := hg
    simp only [one, if_true, services_setService_self, Service.new, MessageQueue.create] at *
    constructor <;> grind
  · simp only [services_setService_of_ne _ _ hne, one, if_neg (Ne.symm hne)] at *
    exact hg.same (by omega) (by omega) (by omega) (by omega)

theorem sound_next [DecidableEq T] (hs : s.Sound) (weights : T → ℤ) {e : NodeEvent T}
    (henabled : Enabled s e) : (next weights s e).1.Sound := by
  cases e with
  | send t h m =>
    refine hs.pass rfl rfl rfl ?_ ?_
    · intro g
      rw [Thread.share_cons]
      simp
    · rintro g (- | - | - | -) hk <;> rw [Thread.share_cons] <;> simp
  | launch t h queue => exact sound_launch hs queue rfl henabled.2
  | retire t h =>
    refine hs.pass rfl rfl rfl ?_ ?_
    · intro g
      rw [Thread.share_cons]
      simp
    · rintro g (- | - | - | -) hk <;> rw [Thread.share_cons] <;> simp
  | inited t ok =>
    obtain ⟨h, rest, htodo⟩ := exists_init henabled
    have hth : s.threads t = ⟨.init h :: rest, (s.threads t).pc⟩ := by rw [← htodo]
    simp only [next, htodo]
    split
    · refine hs.pass hth rfl rfl ?_ ?_
      · intro g
        simp
      · rintro g (- | - | - | -) hk <;> simp at hk ⊢
    · refine hs.pass hth rfl rfl ?_ ?_
      · intro g
        simp
      · rintro g (- | - | - | -) hk <;> simp at hk ⊢
  | act t =>
    obtain ⟨a, rest, htodo, -⟩ := exists_action henabled
    have hth : s.threads t = ⟨a :: rest, (s.threads t).pc⟩ := by rw [← htodo]
    simp only [next, htodo]
    exact sound_act hs hth
  | work t =>
    have htodo : (s.threads t).todo = [] := List.isEmpty_iff.mp henabled
    exact sound_work hs (weights t) (by rw [← htodo])

theorem sound_run [DecidableEq T] {weights : T → ℤ} {queue : ℕ → SkynetMessage}
    {worker : T → Bool} {ls : List (NodeEvent T × Note)}
    (hrun : Run (Fires Enabled (next weights)) (start queue worker) ls s) : s.Sound := by
  refine Run.invariant (I := Sound) ?_ (sound_start queue worker) hrun
  rintro u l v hu ⟨henabled, hnext⟩
  have hsound := sound_next hu weights henabled
  rwa [hnext] at hsound

end Node

/-- A worker is between the grab of the service and its release. -/
def Pc.Runs (h : ℕ) : Pc → Prop
  | .loop q _ _ => q = h
  | .taken q _ _ => q = h
  | .dispatching q _ _ => q = h
  | .finish q => q = h
  | _ => False

theorem Pc.Runs.share {h : ℕ} {pc : Pc} (hruns : pc.Runs h) :
    0 < pc.share h .token ∧ 0 < pc.share h .ref := by
  cases pc <;> first | exact hruns.elim | (cases hruns; simp [one])

/-- What the source asserts before an action, or while it runs. -/
def Node.Asserted (s : Node T) : Action → Prop
  | .push h _ => (s.services h).queue.inGlobal = false → h ∉ s.globalQueue
  | .delete h => (s.services h).queue.release = false ∧
      ((s.services h).queue.inGlobal = false → h ∉ s.globalQueue)
  | .globalPush h => h ∉ s.globalQueue
  | .mqRelease h => h ∉ s.globalQueue
  | .drop h => h ∉ s.globalQueue
  | _ => True

namespace Node

variable {s : Node T}

theorem share_of_mem {t : T} {a : Action} (ha : a ∈ (s.threads t).todo) (h : ℕ) (k : Share) :
    a.share h k ≤ s.held h k := by
  have hle : a.share h k ≤ ((s.threads t).todo.map (Action.share h k)).sum :=
    List.le_sum_of_mem (List.mem_map_of_mem ha)
  have hthread : ((s.threads t).todo.map (Action.share h k)).sum ≤ (s.threads t).share h k :=
    Nat.le_add_right ..
  exact hle.trans (hthread.trans (s.share_le_held t h k))

theorem share_of_pc (t : T) (h : ℕ) (k : Share) : (s.threads t).pc.share h k ≤ s.held h k :=
  (Nat.le_add_left ..).trans (s.share_le_held t h k)

theorem Sound.tokens_le_one (hs : s.Sound) (h : ℕ) : s.tokens h ≤ 1 := by
  rw [(hs h).tokens]
  split_ifs <;> omega

/-- A service somebody holds a reference of is neither being deleted nor dropped. -/
theorem Sound.live (hs : s.Sound) {h : ℕ} (href : 0 < s.held h .ref) :
    (s.services h).queue.release = false ∧ (s.services h).freed = false ∧
      s.held h .delete = 0 ∧ s.held h .drop = 0 := by
  obtain ⟨h1, h2, h3, h4, h5, h6⟩ := hs h
  have hrelease : (s.services h).queue.release = false := by
    cases hrelease : (s.services h).queue.release with
    | false => rfl
    | true =>
      rw [hrelease, if_pos rfl] at h3
      split at h3 <;> omega
  refine ⟨hrelease, ?_, ?_, ?_⟩
  · cases hfreed : (s.services h).freed with
    | false => rfl
    | true => rw [h4 hfreed] at hrelease; cases hrelease
  · rw [hrelease, if_neg (by simp)] at h3
    split at h3 <;> omega
  · by_contra hne
    rw [h5 (Nat.pos_of_ne_zero hne)] at hrelease
    cases hrelease

/-- A token that a thread holds is not in the global queue. -/
theorem Sound.notMem_of_held (hs : s.Sound) {h : ℕ} (htoken : 0 < s.held h .token) :
    h ∉ s.globalQueue := by
  intro hmem
  have hcount : 0 < s.globalQueue.count h := List.count_pos_iff.mpr hmem
  have hle := hs.tokens_le_one h
  unfold tokens at hle
  omega

theorem Sound.notMem_of_dormant (hs : s.Sound) {h : ℕ}
    (hrelease : (s.services h).queue.release = false)
    (hdormant : (s.services h).queue.inGlobal = false) : h ∉ s.globalQueue := by
  intro hmem
  have hcount : 0 < s.globalQueue.count h := List.count_pos_iff.mpr hmem
  have htokens := (hs h).tokens
  rw [hrelease, hdormant] at htokens
  simp only [Bool.or_self, Bool.false_eq_true, if_false, ite_self, tokens] at htokens
  omega

theorem Sound.asserted (hs : s.Sound) {t : T} {a : Action} (ha : a ∈ (s.threads t).todo) :
    s.Asserted a := by
  have hshare := share_of_mem ha
  cases a with
  | push h m =>
    have href : 0 < s.held h .ref := by
      have hle := hshare h .ref
      simp only [Action.share, one, if_true] at hle
      omega
    exact hs.notMem_of_dormant (hs.live href).1
  | delete h =>
    have hdelete : 0 < s.held h .delete := by
      have hle := hshare h .delete
      simp only [Action.share, one, if_true] at hle
      omega
    have hrelease : (s.services h).queue.release = false := by
      cases hrelease : (s.services h).queue.release with
      | false => rfl
      | true =>
        have hdeletes := (hs h).deletes
        rw [hrelease, if_pos rfl] at hdeletes
        split at hdeletes <;> omega
    exact ⟨hrelease, hs.notMem_of_dormant hrelease⟩
  | globalPush h | mqRelease h | drop h =>
    refine hs.notMem_of_held ?_
    have hle := hshare h .token
    simp only [Action.share, one, if_true] at hle
    omega
  | send | release | retire | init => trivial

/-- A thread launches the service 1 and sends it a message. -/
def firstMessage : List (NodeEvent Bool) :=
  [.launch false 1 (fun _ => ⟨0, 0, [], 0⟩), .inited false true, .act false, .act false,
    .send false 1 ⟨7, 0, [104], 10⟩, .act false, .act false, .act false]

/-- One worker, the thread `true`. -/
def oneWorker : Node Bool := start (fun _ => ⟨0, 0, [], 0⟩) id

/-- The assertions on the queues hold, so no queue is linked twice. -/
theorem assertions_hold [DecidableEq T] {weights : T → ℤ} {queue : ℕ → SkynetMessage}
    {worker : T → Bool} {ls : List (NodeEvent T × Note)}
    (hrun : Run (Fires Enabled (next weights)) (start queue worker) ls s) :
    s.globalQueue.Nodup ∧ ∀ t, ∀ a ∈ (s.threads t).todo, s.Asserted a := by
  have hs := sound_run hrun
  refine ⟨List.nodup_iff_count_le_one.mpr fun h => ?_, fun t a ha => hs.asserted ha⟩
  exact (Nat.le_add_right ..).trans (hs.tokens_le_one h)

theorem assertions_hold_first_message :
    (exec (next fun _ => -1) oneWorker firstMessage).globalQueue.Nodup :=
  (assertions_hold (run_exec firstMessage (by decide +kernel))).1

/-- A service is run by one worker at a time. Meanwhile it is not in the global queue, and no
thread initialises, deletes or drops it. -/
theorem one_worker [DecidableEq T] {weights : T → ℤ} {queue : ℕ → SkynetMessage}
    {worker : T → Bool} {ls : List (NodeEvent T × Note)}
    (hrun : Run (Fires Enabled (next weights)) (start queue worker) ls s) {t : T} {h : ℕ}
    (hruns : (s.threads t).pc.Runs h) :
    (∀ u, (s.threads u).pc.Runs h → u = t) ∧ h ∉ s.globalQueue ∧
      (s.services h).freed = false ∧ 0 < (s.services h).ref ∧
      ∀ u, .init h ∉ (s.threads u).todo ∧ .delete h ∉ (s.threads u).todo ∧
        .drop h ∉ (s.threads u).todo := by
  have hs := sound_run hrun
  obtain ⟨htoken, href⟩ := hruns.share
  have hheld : 0 < s.held h .token := htoken.trans_le (share_of_pc t h .token)
  have hrefs : 0 < s.held h .ref := href.trans_le (share_of_pc t h .ref)
  obtain ⟨hrelease, hfreed, hdelete, hdrop⟩ := hs.live hrefs
  have hone : ∑ u, (s.threads u).share h .token ≤ 1 :=
    (Nat.le_add_left ..).trans (hs.tokens_le_one h)
  refine ⟨?_, hs.notMem_of_held hheld, hfreed, ?_, ?_⟩
  · intro u hu
    exact eq_of_sum_le_one hone (hu.share.1.trans_le (Nat.le_add_left ..))
      (htoken.trans_le (Nat.le_add_left ..))
  · have hcount := (hs h).refs
    omega
  · intro u
    refine ⟨?_, ?_, ?_⟩
    · intro hmem
      have hinit : 0 < ((s.threads u).todo.map (Action.share h .token)).sum := by
        have hle : (Action.init h).share h .token ≤
            ((s.threads u).todo.map (Action.share h .token)).sum :=
          List.le_sum_of_mem (List.mem_map_of_mem hmem)
        simp only [Action.share, one, if_true] at hle
        omega
      have hut : u = t := eq_of_sum_le_one hone (hinit.trans_le (Nat.le_add_right ..))
        (htoken.trans_le (Nat.le_add_left ..))
      subst hut
      have hboth : (s.threads u).share h .token ≤ 1 :=
        (le_sum (Thread.share h .token) s.threads u).trans hone
      unfold Thread.share at hboth
      omega
    · intro hmem
      have hle := share_of_mem hmem h .delete
      simp only [Action.share, one, if_true] at hle
      omega
    · intro hmem
      have hle := share_of_mem hmem h .drop
      simp only [Action.share, one, if_true] at hle
      omega

theorem one_worker_first_message :
    1 ∉ (exec (next fun _ => -1) oneWorker
      (firstMessage ++ [.work true, .work true])).globalQueue := by
  have henabled : Along Enabled (next fun _ => -1) oneWorker
      (firstMessage ++ [.work true, .work true]) := by decide +kernel
  have hpc : ((exec (next fun _ => -1) oneWorker
      (firstMessage ++ [.work true, .work true])).threads true).pc = .loop 1 0 1 := by
    decide +kernel
  have hruns : Pc.Runs 1 ((exec (next fun _ => -1) oneWorker
      (firstMessage ++ [.work true, .work true])).threads true).pc := by
    rw [hpc]
    rfl
  exact (one_worker (run_exec _ henabled) hruns).2.1

end Node

end Ue4Background.Kernel
