import Ue4Background.SchedulingRuns

/-!
The messages of the services over whole runs. What was pushed to a service has been dispatched by
the workers in that order, or was dropped after the service was deleted, or waits in its queue. A
queue with a message in it has a token, so when every thread rests no message waits.
-/

namespace Ue4Background.Kernel

open Transition MessageQueue

def acceptedBy (h : ℕ) : Note → Option SkynetMessage
  | .accepted g m => if g = h then some m else none
  | _ => none

def dispatchedBy (h : ℕ) : Note → Option SkynetMessage
  | .dispatched g m => if g = h then some m else none
  | _ => none

def droppedBy (h : ℕ) : Note → Option SkynetMessage
  | .dropped g m => if g = h then some m else none
  | _ => none

variable {T : Type*}

/-- The messages pushed to a service. -/
def accepted (h : ℕ) (ls : List (NodeEvent T × Note)) : List SkynetMessage :=
  ls.filterMap fun l => acceptedBy h l.2

/-- The messages a worker has taken out of the queue of a service. -/
def dispatched (h : ℕ) (ls : List (NodeEvent T × Note)) : List SkynetMessage :=
  ls.filterMap fun l => dispatchedBy h l.2

/-- The messages that were dropped with the queue of a service. -/
def dropped (h : ℕ) (ls : List (NodeEvent T × Note)) : List SkynetMessage :=
  ls.filterMap fun l => droppedBy h l.2

/-- What is true of a service after a history; the list waits in its queue. -/
structure Delivered (hist : List (NodeEvent T × Note)) (sv : Service) (h : ℕ)
    (l : List SkynetMessage) : Prop where
  holds : sv.queue.Holds l
  kept : accepted h hist = dispatched h hist ++ dropped h hist ++ l
  undropped : sv.queue.release = false → dropped h hist = []
  freed : sv.freed = true → l = []
  fresh : sv.issued = false → accepted h hist = []

/-- The changes of a service that leave the messages of its queue alone. -/
structure Kept (sv sv' : Service) : Prop where
  holds : ∀ l, sv.queue.Holds l → sv'.queue.Holds l
  release : sv'.queue.release = false → sv.queue.release = false
  freed : sv'.freed = true → sv.freed = true
  issued : sv'.issued = sv.issued

theorem Kept.refl (sv : Service) : Kept sv sv := ⟨fun _ h => h, id, id, rfl⟩

theorem filterMap_note (f : Note → Option SkynetMessage) (hist : List (NodeEvent T × Note))
    (l : NodeEvent T × Note) :
    (hist ++ [l]).filterMap (fun l => f l.2) =
      hist.filterMap (fun l => f l.2) ++ (f l.2).toList := by
  rw [List.filterMap_append]
  cases hf : f l.2 <;> simp [hf]

namespace Delivered

variable {hist : List (NodeEvent T × Note)} {sv sv' : Service} {h : ℕ} {l : List SkynetMessage}
  {e : NodeEvent T} {note : Note}

/-- A step that notes nothing about the service. -/
theorem pass (hd : Delivered hist sv h l) (hkept : Kept sv sv')
    (haccepted : acceptedBy h note = none) (hdispatched : dispatchedBy h note = none)
    (hdropped : droppedBy h note = none) : Delivered (hist ++ [(e, note)]) sv' h l := by
  have h1 : accepted h (hist ++ [(e, note)]) = accepted h hist := by
    rw [accepted, filterMap_note, haccepted]
    exact List.append_nil _
  have h2 : dispatched h (hist ++ [(e, note)]) = dispatched h hist := by
    rw [dispatched, filterMap_note, hdispatched]
    exact List.append_nil _
  have h3 : dropped h (hist ++ [(e, note)]) = dropped h hist := by
    rw [dropped, filterMap_note, hdropped]
    exact List.append_nil _
  refine ⟨hkept.holds l hd.holds, ?_, ?_, ?_, ?_⟩
  · rw [h1, h2, h3]
    exact hd.kept
  · rw [h3]
    exact fun hrelease => hd.undropped (hkept.release hrelease)
  · exact fun hfreed => hd.freed (hkept.freed hfreed)
  · rw [h1, hkept.issued]
    exact hd.fresh

theorem push (hd : Delivered hist sv h l) (m : SkynetMessage) (hfreed : sv.freed = false)
    (hissued : sv.issued = true) :
    Delivered (hist ++ [(e, .accepted h m)]) { sv with queue := (sv.queue.push m).1 } h
      (l ++ [m]) := by
  have h1 : accepted h (hist ++ [(e, .accepted h m)]) = accepted h hist ++ [m] := by
    rw [accepted, filterMap_note]
    simp [acceptedBy, accepted]
  have h2 : dispatched h (hist ++ [(e, .accepted h m)]) = dispatched h hist := by
    rw [dispatched, filterMap_note]
    exact List.append_nil _
  have h3 : dropped h (hist ++ [(e, .accepted h m)]) = dropped h hist := by
    rw [dropped, filterMap_note]
    exact List.append_nil _
  refine ⟨hd.holds.push m, ?_, ?_, ?_, ?_⟩
  · rw [h1, h2, h3, hd.kept, List.append_assoc _ l]
  · rw [h3, push_release]
    exact hd.undropped
  · intro hfreed'
    rw [hfreed] at hfreed'
    cases hfreed'
  · intro hissued'
    rw [hissued] at hissued'
    cases hissued'

theorem dispatch {m : SkynetMessage} (hd : Delivered hist sv h (m :: l))
    (hrelease : sv.queue.release = false) :
    Delivered (hist ++ [(e, .dispatched h m)]) { sv with queue := sv.queue.pop.2 } h l := by
  have h1 : accepted h (hist ++ [(e, .dispatched h m)]) = accepted h hist := by
    rw [accepted, filterMap_note]
    exact List.append_nil _
  have h2 : dispatched h (hist ++ [(e, .dispatched h m)]) = dispatched h hist ++ [m] := by
    rw [dispatched, filterMap_note]
    simp [dispatchedBy, dispatched]
  have h3 : dropped h (hist ++ [(e, .dispatched h m)]) = [] := by
    rw [dropped, filterMap_note]
    exact (List.append_nil _).trans (hd.undropped hrelease)
  have hkept := hd.kept
  rw [hd.undropped hrelease, List.append_nil] at hkept
  refine ⟨hd.holds.pop_cons.2.1, ?_, fun _ => h3, ?_, ?_⟩
  · rw [h1, h2, h3, hkept]
    simp
  · intro hfreed
    exact absurd (hd.freed hfreed) (by simp)
  · rw [h1]
    exact hd.fresh

theorem drop {m : SkynetMessage} (hd : Delivered hist sv h (m :: l))
    (hrelease : sv.queue.release = true) :
    Delivered (hist ++ [(e, .dropped h m)]) { sv with queue := sv.queue.pop.2 } h l := by
  have h1 : accepted h (hist ++ [(e, .dropped h m)]) = accepted h hist := by
    rw [accepted, filterMap_note]
    exact List.append_nil _
  have h2 : dispatched h (hist ++ [(e, .dropped h m)]) = dispatched h hist := by
    rw [dispatched, filterMap_note]
    exact List.append_nil _
  have h3 : dropped h (hist ++ [(e, .dropped h m)]) = dropped h hist ++ [m] := by
    rw [dropped, filterMap_note]
    simp [droppedBy, dropped]
  refine ⟨hd.holds.pop_cons.2.1, ?_, ?_, ?_, ?_⟩
  · rw [h1, h2, h3, hd.kept]
    simp
  · rw [pop_release, hrelease]
    simp
  · intro hfreed
    exact absurd (hd.freed hfreed) (by simp)
  · rw [h1]
    exact hd.fresh

/-- A pop that finds no message. -/
theorem emptied (hd : Delivered hist sv h []) (freed : Bool) :
    Delivered (hist ++ [(e, .none)]) { sv with queue := sv.queue.pop.2, freed } h [] := by
  have hpass : Delivered (hist ++ [(e, .none)]) sv h [] := hd.pass (Kept.refl sv) rfl rfl rfl
  refine ⟨hd.holds.pop_nil_holds, hpass.kept, ?_, fun _ => rfl, hpass.fresh⟩
  rw [pop_release]
  exact hpass.undropped

end Delivered

namespace Node

variable {s : Node T} {t : T} {pc : Pc} {rest : List Action}
  {hist : List (NodeEvent T × Note)} {e : NodeEvent T}

/-- What waits in the queues of all services after a history. -/
def Delivers (hist : List (NodeEvent T × Note)) (s : Node T) : Prop :=
  ∀ h, ∃ l, Delivered hist (s.services h) h l

theorem kept_setService {h : ℕ} {sv : Service} (hkept : Kept (s.services h) sv) (g : ℕ) :
    Kept (s.services g) ((s.setService h sv).services g) := by
  by_cases hg : g = h
  · subst hg
    rw [services_setService_self]
    exact hkept
  · rw [services_setService_of_ne _ _ hg]
    exact Kept.refl _

/-- A silent step that leaves the messages of all queues alone. -/
theorem Delivers.pass {s' : Node T} (hd : Delivers hist s)
    (hkept : ∀ g, Kept (s.services g) (s'.services g)) :
    Delivers (hist ++ [(e, .none)]) s' := by
  intro g
  obtain ⟨l, hl⟩ := hd g
  exact ⟨l, hl.pass (hkept g) rfl rfl rfl⟩

/-- A step that notes something about one service. -/
theorem Delivers.step {s' : Node T} (hd : Delivers hist s) {h : ℕ} {note : Note}
    (hother : ∀ g, g ≠ h → s'.services g = s.services g ∧ acceptedBy g note = none ∧
      dispatchedBy g note = none ∧ droppedBy g note = none)
    (hself : ∀ l, Delivered hist (s.services h) h l →
      ∃ l', Delivered (hist ++ [(e, note)]) (s'.services h) h l') :
    Delivers (hist ++ [(e, note)]) s' := by
  intro g
  obtain ⟨l, hl⟩ := hd g
  by_cases hg : g = h
  · subst hg
    exact hself l hl
  · obtain ⟨hservice, h1, h2, h3⟩ := hother g hg
    rw [hservice]
    exact ⟨l, hl.pass (Kept.refl _) h1 h2 h3⟩

theorem kept_ref (sv : Service) (n : ℕ) : Kept sv { sv with ref := n } :=
  ⟨fun _ h => h, id, id, rfl⟩

variable [DecidableEq T]

theorem delivers_act [Fintype T] (hs : s.Sound) (hd : Delivers hist s) {a : Action}
    (hth : s.threads t = ⟨a :: rest, pc⟩) :
    Delivers (hist ++ [(e, (s.act t pc rest a).2)]) (s.act t pc rest a).1 := by
  have hmem : a ∈ (s.threads t).todo := by
    rw [hth]
    exact List.mem_cons_self ..
  cases a with
  | send h m =>
    simp only [act]
    split
    · exact hd.pass (kept_setService (kept_ref _ _))
    · exact hd.pass fun g => Kept.refl _
  | push h m =>
    have href : 0 < s.held h .ref := by
      have hle := share_of_mem hmem h .ref
      simp only [Action.share, one, if_true] at hle
      omega
    obtain ⟨-, hfreed, -, -⟩ := hs.live href
    have hissued : (s.services h).issued = true := by
      cases hissued : (s.services h).issued with
      | true => rfl
      | false =>
        rw [(hs h).issued hissued] at hfreed
        cases hfreed
    refine hd.step (h := h) ?_ fun l hl => ⟨l ++ [m], ?_⟩
    · intro g hg
      refine ⟨?_, if_neg (Ne.symm hg), rfl, rfl⟩
      change ((s.setService h _).pushGlobal _ h).services g = _
      rw [services_pushGlobal, services_setService_of_ne _ _ hg]
    · change Delivered _ (((s.setService h _).pushGlobal _ h).services h) h _
      rw [services_pushGlobal, services_setService_self]
      exact hl.push m hfreed hissued
  | release h => exact hd.pass (kept_setService (kept_ref _ _))
  | delete h =>
    have hkept : Kept (s.services h)
        { s.services h with queue := (s.services h).queue.markRelease.1 } :=
      ⟨fun l hl => hl.markRelease, fun hrelease => Bool.noConfusion hrelease, id, rfl⟩
    refine hd.pass fun g => ?_
    change Kept _ (((s.setService h _).pushGlobal _ h).services g)
    rw [services_pushGlobal]
    exact kept_setService hkept g
  | retire h =>
    simp only [act]
    split
    · exact hd.pass (kept_setService ⟨fun _ h => h, id, id, rfl⟩)
    · exact hd.pass fun g => Kept.refl _
  | init h => exact hd.pass fun g => Kept.refl _
  | globalPush h =>
    refine hd.pass fun g => ?_
    change Kept _ ((s.pushGlobal true h).services g)
    rw [services_pushGlobal]
    exact Kept.refl _
  | mqRelease h =>
    simp only [act]
    split
    · exact hd.pass fun g => Kept.refl _
    · refine hd.pass fun g => ?_
      change Kept _ ((s.pushGlobal true h).services g)
      rw [services_pushGlobal]
      exact Kept.refl _
  | drop h =>
    have hdrop : 0 < s.held h .drop := by
      have hle := share_of_mem hmem h .drop
      simp only [Action.share, one, if_true] at hle
      omega
    have hrelease := (hs h).drops hdrop
    simp only [act]
    split
    · rename_i m queue hpop
      refine hd.step (h := h) ?_ fun l hl => ?_
      · intro g hg
        exact ⟨services_setService_of_ne _ _ hg, rfl, rfl, if_neg (Ne.symm hg)⟩
      · cases l with
        | nil =>
          rw [hl.holds.pop_nil] at hpop
          cases hpop
        | cons m' l =>
          have hfirst := hl.holds.pop_cons.1
          have hdropped := hl.drop (e := e) hrelease
          rw [hpop] at hfirst hdropped
          obtain rfl := Option.some.inj hfirst
          refine ⟨l, ?_⟩
          change Delivered _ ((s.setService h _).services h) h l
          rw [services_setService_self]
          exact hdropped
    · rename_i queue hpop
      refine hd.step (h := h) ?_ fun l hl => ?_
      · intro g hg
        exact ⟨services_setService_of_ne _ _ hg, rfl, rfl, rfl⟩
      · cases l with
        | nil =>
          have hemptied := hl.emptied (e := e) true
          rw [hpop] at hemptied
          refine ⟨[], ?_⟩
          change Delivered _ ((s.setService h _).services h) h []
          rw [services_setService_self]
          exact hemptied
        | cons m' l =>
          have hfirst := hl.holds.pop_cons.1
          rw [hpop] at hfirst
          cases hfirst

theorem delivers_work [Fintype T] (hs : s.Sound) (hd : Delivers hist s) (weight : ℤ)
    (hth : s.threads t = ⟨[], pc⟩) :
    Delivers (hist ++ [(e, (s.work weight t pc).2)]) (s.work weight t pc).1 := by
  cases pc with
  | outside => exact hd.pass fun g => Kept.refl _
  | fetch =>
    simp only [work]
    split <;> exact hd.pass fun g => Kept.refl _
  | hold q =>
    simp only [work]
    split
    · exact hd.pass (kept_setService (kept_ref _ _))
    · exact hd.pass fun g => Kept.refl _
  | loop q i n =>
    have href : 0 < s.held q .ref := by
      have hle := share_of_pc (s := s) t q .ref
      rw [hth] at hle
      simp only [Pc.share, one, if_true] at hle
      omega
    obtain ⟨hrelease, -, -, -⟩ := hs.live href
    simp only [work]
    split
    · rename_i m queue hpop
      refine hd.step (h := q) ?_ fun l hl => ?_
      · intro g hg
        exact ⟨services_setService_of_ne _ _ hg, rfl, if_neg (Ne.symm hg), rfl⟩
      · cases l with
        | nil =>
          rw [hl.holds.pop_nil] at hpop
          cases hpop
        | cons m' l =>
          have hfirst := hl.holds.pop_cons.1
          have htaken := hl.dispatch (e := e) hrelease
          rw [hpop] at hfirst htaken
          obtain rfl := Option.some.inj hfirst
          refine ⟨l, ?_⟩
          change Delivered _ ((s.setService q _).services q) q l
          rw [services_setService_self]
          exact htaken
    · rename_i queue hpop
      refine hd.step (h := q) ?_ fun l hl => ?_
      · intro g hg
        exact ⟨services_setService_of_ne _ _ hg, rfl, rfl, rfl⟩
      · cases l with
        | nil =>
          have hemptied := hl.emptied (e := e) (s.services q).freed
          rw [hpop] at hemptied
          refine ⟨[], ?_⟩
          change Delivered _ ((s.setService q _).services q) q []
          rw [services_setService_self]
          exact hemptied
        | cons m' l =>
          have hfirst := hl.holds.pop_cons.1
          rw [hpop] at hfirst
          cases hfirst
  | taken q i n =>
    have hkept : Kept (s.services q)
        { s.services q with queue := (s.services q).queue.takeOverload.2 } :=
      ⟨fun l hl => hl.takeOverload, id, id, rfl⟩
    exact hd.pass (kept_setService hkept)
  | dispatching q i n => exact hd.pass fun g => Kept.refl _
  | finish q =>
    simp only [work]
    split <;> exact hd.pass fun g => Kept.refl _

theorem delivers_next [Fintype T] (hs : s.Sound) (hd : Delivers hist s) (weights : T → ℤ)
    (henabled : Enabled s e) :
    Delivers (hist ++ [(e, (next weights s e).2)]) (next weights s e).1 := by
  cases e with
  | send t h m => exact hd.pass fun g => Kept.refl _
  | launch t h queue =>
    have hnew := henabled.2
    have hnote : (next weights s (.launch t h queue)).2 = .none := rfl
    rw [hnote]
    refine hd.step (h := h) ?_ fun l hl => ⟨[], ?_⟩
    · intro g hg
      exact ⟨services_setService_of_ne _ _ hg, rfl, rfl, rfl⟩
    · have hpass : Delivered (hist ++ [(.launch t h queue, .none)]) (s.services h) h l :=
        hl.pass (Kept.refl _) rfl rfl rfl
      have hnone := hpass.fresh hnew
      have hparts := hpass.kept
      rw [hnone] at hparts
      obtain ⟨hparts, -⟩ := List.append_eq_nil_iff.mp hparts.symm
      obtain ⟨hdispatched, hdropped⟩ := List.append_eq_nil_iff.mp hparts
      change Delivered _ ((s.setService h (.new h queue)).services h) h []
      rw [services_setService_self]
      refine ⟨Holds.create h queue, ?_, fun _ => hdropped, fun _ => rfl, fun _ => hnone⟩
      rw [hdispatched, hdropped]
      exact hnone
  | retire t h => exact hd.pass fun g => Kept.refl _
  | inited t ok =>
    obtain ⟨h, rest, htodo⟩ := exists_init henabled
    simp only [next, htodo]
    split <;> exact hd.pass fun g => Kept.refl _
  | act t =>
    obtain ⟨a, rest, htodo, -⟩ := exists_action henabled
    have hth : s.threads t = ⟨a :: rest, (s.threads t).pc⟩ := by rw [← htodo]
    simp only [next, htodo]
    exact delivers_act hs hd hth
  | work t =>
    have htodo : (s.threads t).todo = [] := List.isEmpty_iff.mp henabled
    exact delivers_work hs hd (weights t) (by rw [← htodo])

theorem delivers_run [Fintype T] {weights : T → ℤ} {queue : ℕ → SkynetMessage}
    {worker : T → Bool} {ls : List (NodeEvent T × Note)}
    (hrun : Run (Fires Enabled (next weights)) (start queue worker) ls s) :
    s.Sound ∧ Delivers ls s := by
  have hstart : (start queue worker : Node T).Sound ∧
      Delivers ([] : List (NodeEvent T × Note)) (start queue worker) := by
    refine ⟨sound_start queue worker, fun h => ⟨[], ?_⟩⟩
    exact ⟨(Holds.create 0 queue).markRelease, rfl, fun _ => rfl, fun _ => rfl, fun _ => rfl⟩
  refine Run.invariant_history (I := fun hist s => s.Sound ∧ Delivers hist s) ?_ hstart hrun
  rintro hist u ⟨e, note⟩ v ⟨hu, hd⟩ ⟨henabled, hnext⟩
  have hsound := sound_next hu weights henabled
  have hdelivers := delivers_next hu hd weights henabled
  rw [hnext] at hsound hdelivers
  exact ⟨hsound, hdelivers⟩

/-- The worker runs the service until it finds nothing more to do. -/
def firstDispatch : List (NodeEvent Bool) :=
  firstMessage ++ [.work true, .work true, .work true, .work true, .work true, .work true,
    .act true, .work true, .work true, .act true]

/-- The messages that were pushed to a service were dispatched in this order, or dropped after the
service was deleted, or wait in its queue. As long as one waits, the queue stands in the global
queue or a thread has its token. -/
theorem messages_kept [Fintype T] {weights : T → ℤ} {queue : ℕ → SkynetMessage}
    {worker : T → Bool} {ls : List (NodeEvent T × Note)}
    (hrun : Run (Fires Enabled (next weights)) (start queue worker) ls s) (h : ℕ) :
    ∃ l, (s.services h).queue.Holds l ∧
      accepted h ls = dispatched h ls ++ dropped h ls ++ l ∧
      (dropped h ls ≠ [] → (s.services h).ref = 0) ∧
      (l ≠ [] → h ∈ s.globalQueue ∨ ∃ t, 0 < (s.threads t).share h .token) := by
  obtain ⟨hs, hd⟩ := delivers_run hrun
  obtain ⟨l, hl⟩ := hd h
  obtain ⟨h1, h2, h3, h4, h5, h6⟩ := hs h
  refine ⟨l, hl.holds, hl.kept, ?_, ?_⟩
  · intro hdropped
    have hrelease : (s.services h).queue.release = true := by
      by_contra hne
      exact hdropped (hl.undropped (by simpa using hne))
    rw [hrelease, if_pos rfl] at h3
    split at h3 <;> omega
  · intro hwaits
    have hfreed : (s.services h).freed = false := by
      by_contra hne
      exact hwaits (hl.freed (by simpa using hne))
    have hglobal : (s.services h).queue.inGlobal = true := by
      by_contra hne
      exact hwaits (hl.holds.dormant (by simpa using hne))
    have htokens : s.tokens h = 1 := by simpa [hfreed, hglobal] using h1
    by_cases hcount : 0 < s.globalQueue.count h
    · exact Or.inl (List.count_pos_iff.mp hcount)
    · right
      have hheld : 0 < ∑ t, (s.threads t).share h .token := by
        change 0 < s.held h .token
        unfold tokens at htokens
        omega
      exact Shares.exists_of_sum_pos hheld

/-- A second message arrives after the first was dispatched. -/
def secondMessage : List (NodeEvent Bool) :=
  firstDispatch ++ [.send false 1 ⟨7, 1, [105], 10⟩, .act false, .act false]

theorem messages_kept_second_message :
    ∃ l, ((exec (next fun _ => -1) oneWorker secondMessage).services 1).queue.Holds l ∧
      [⟨7, 0, [104], 10⟩, ⟨7, 1, [105], 10⟩] = [⟨7, 0, [104], 10⟩] ++
        dropped 1 (trace (next fun _ => -1) oneWorker secondMessage) ++ l ∧
      (dropped 1 (trace (next fun _ => -1) oneWorker secondMessage) ≠ [] →
        ((exec (next fun _ => -1) oneWorker secondMessage).services 1).ref = 0) ∧
      (l ≠ [] → 1 ∈ (exec (next fun _ => -1) oneWorker secondMessage).globalQueue ∨
        ∃ t, 0 < ((exec (next fun _ => -1) oneWorker secondMessage).threads t).share 1 .token) := by
  have henabled : Along Enabled (next fun _ => -1) oneWorker secondMessage := by decide +kernel
  have haccepted : accepted 1 (trace (next fun _ => -1) oneWorker secondMessage) =
      [⟨7, 0, [104], 10⟩, ⟨7, 1, [105], 10⟩] := by decide +kernel
  have hdispatched : dispatched 1 (trace (next fun _ => -1) oneWorker secondMessage) =
      [⟨7, 0, [104], 10⟩] := by decide +kernel
  have hrun : Run (Fires Enabled (next fun _ => -1)) oneWorker
      (trace (next fun _ => -1) oneWorker secondMessage) _ := run_exec secondMessage henabled
  obtain ⟨l, hholds, hkept, hrest⟩ := messages_kept hrun 1
  rw [haccepted, hdispatched] at hkept
  exact ⟨l, hholds, hkept, hrest⟩

/-- When no thread has anything to do and the global queue is empty, no message waits. -/
theorem nothing_waits [Fintype T] {weights : T → ℤ} {queue : ℕ → SkynetMessage}
    {worker : T → Bool} {ls : List (NodeEvent T × Note)}
    (hrun : Run (Fires Enabled (next weights)) (start queue worker) ls s)
    (hglobal : s.globalQueue = [])
    (hrest : ∀ t, (s.threads t).todo = [] ∧
      ((s.threads t).pc = .outside ∨ (s.threads t).pc = .fetch)) (h : ℕ) :
    accepted h ls = dispatched h ls ++ dropped h ls := by
  obtain ⟨l, -, hkept, -, hwaits⟩ := messages_kept hrun h
  cases l with
  | nil => rw [hkept, List.append_nil]
  | cons m l =>
    rcases hwaits (by simp) with hmem | ⟨t, htoken⟩
    · rw [hglobal] at hmem
      cases hmem
    · obtain ⟨htodo, hpc⟩ := hrest t
      rcases hpc with hpc | hpc <;> simp [Thread.share, htodo, hpc] at htoken

theorem nothing_waits_first_dispatch :
    accepted 1 (trace (next fun _ => -1) oneWorker firstDispatch) =
      dispatched 1 (trace (next fun _ => -1) oneWorker firstDispatch) ++
        dropped 1 (trace (next fun _ => -1) oneWorker firstDispatch) := by
  have henabled : Along Enabled (next fun _ => -1) oneWorker firstDispatch := by decide +kernel
  refine nothing_waits (run_exec firstDispatch henabled) (by decide +kernel) ?_ 1
  rintro (- | -)
  · exact ⟨by decide +kernel, Or.inl (by decide +kernel)⟩
  · exact ⟨by decide +kernel, Or.inr (by decide +kernel)⟩

end Node

end Ue4Background.Kernel
