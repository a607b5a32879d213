import Ue4Background.AgentScenes

/-!
The ball of a player and the scene his agent names. `enter` tests `s.sname`, waits for a scene,
and writes `s.sname` afterwards, so two enters can bring two balls; and between the kick and the
exit of an agent an enter brings a ball that nobody takes away. In a run without these the ball
is where the agent is: nowhere, or on its way into one scene, or inside it, or gone from it.
-/

namespace Ue4Background.Scene

open LuaValues

variable {Num Node Addr : Type} [DecidableEq Num] [LuaArith Num] {st : State Num Node Addr}

def HasBall (st : State Num Node Addr) (p : Num) : Prop := (st.balls.lookup p).isSome

instance (st : State Num Node Addr) (p : Num) : Decidable (HasBall st p) :=
  inferInstanceAs (Decidable ((st.balls.lookup p).isSome = true))

omit [LuaArith Num] in
theorem hasBall_setBall (b : Ball Num Node Addr) (p q : Num) :
    HasBall (st.setBall b p) q ↔ q = p ∨ HasBall st q := by
  unfold HasBall
  rw [lookup_setBall]
  by_cases h : q = p
  · simp [h]
  · simp [h]

theorem hasBall_update (orders : Orders Num) (draw : ℕ) (x y : Num) (p : Num) :
    HasBall (update st orders draw x y).state p ↔ HasBall st p := by
  have h : (speeds (update st orders draw x y).state p).isSome = (speeds st p).isSome := by
    rw [speeds_update]
  rw [speeds, speeds, Option.isSome_map, Option.isSome_map] at h
  rw [HasBall, HasBall, h]

omit [LuaArith Num] in
theorem hasBall_shift (p q : Num) (x y : Value Num) :
    HasBall (shift st p x y).state q ↔ HasBall st q := by
  unfold shift
  cases hb : st.balls.lookup p with
  | none => rfl
  | some b =>
    rw [hasBall_setBall, or_iff_right_of_imp]
    rintro rfl
    rw [HasBall, hb]
    rfl

omit [LuaArith Num] in
theorem hasBall_leave (orders : Orders Num) (p q : Num) :
    HasBall (leave st orders p).state q ↔ q ≠ p ∧ HasBall st q := by
  unfold leave HasBall
  cases hb : st.balls.lookup p with
  | none =>
    refine (and_iff_right_of_imp fun h => ?_).symm
    rintro rfl
    rw [hb] at h
    cases h
  | some b =>
    by_cases hq : q = p
    · rw [hq, AList.lookup_erase]
      simp
    · rw [AList.lookup_erase_ne hq]
      simp [hq]

theorem hasBall_enter (orders : Orders Num) (p q : Num) (node : Node) (agent : Addr) (x y : Num) :
    HasBall (enter st orders p node agent x y).state q ↔ q = p ∨ HasBall st q := by
  unfold enter
  cases hb : st.balls.lookup p with
  | none => exact hasBall_setBall _ p q
  | some b =>
    refine (or_iff_right_of_imp ?_).symm
    rintro rfl
    rw [HasBall, hb]
    rfl

end Ue4Background.Scene

namespace Ue4Background.AgentScenes

open LuaValues Transition
open Scene (HasBall)

variable {Sid Num Node Addr : Type}

theorem answer_append_ret {outs : List (Scene.Out Num Node Addr)} (a : Option Bool)
    (houts : ∀ b, Scene.Out.ret b ∉ outs) : answer (outs ++ [.ret a]) = some a := by
  induction outs with
  | nil => rfl
  | cons o rest ih =>
    cases o with
    | send agent msg =>
      rw [List.cons_append, answer, List.findSome?_cons]
      exact ih fun b hb => houts b (List.mem_cons_of_mem _ hb)
    | ret b => exact absurd List.mem_cons_self (houts b)

namespace State

variable (st : State Sid Num Node Addr)

/-- An enter that no scene has refused. -/
def Entering (i : ℕ) (scene : Sid) : Prop :=
  st.calls i = some ⟨scene, .enter, none⟩ ∨ st.calls i = some ⟨scene, .enter, some (some true)⟩

def Accepted (i : ℕ) (scene : Sid) : Prop :=
  st.calls i = some ⟨scene, .enter, some (some true)⟩

def Leaving (i : ℕ) (scene : Sid) (answer : Option (Option Bool)) : Prop :=
  st.calls i = some ⟨scene, .leave, answer⟩

/-- No enter or leave is pending. -/
def Settled : Prop :=
  ∀ i c, st.calls i = some c → c.request ≠ .enter ∧ c.request ≠ .leave

end State

/-- The scenes have at most one ball of the player; between his enters and leaves it is in the
scene that `s.sname` names; and an agent that has exited leaves none behind. -/
structure Placed [DecidableEq Num] (me : Agent Num Node Addr) (st : State Sid Num Node Addr) :
    Prop where
  one : ∀ scene scene', HasBall (st.scenes scene) me.id → HasBall (st.scenes scene') me.id →
    scene = scene'
  named : st.Settled → ∀ scene, HasBall (st.scenes scene) me.id ↔ st.sname = some scene
  none_left : st.phase = .exited → (∀ i, st.calls i = none) →
    ∀ scene, ¬ HasBall (st.scenes scene) me.id

/-- An enter that calls a scene does so before the kick, and while no enter to another scene may
still succeed; a kick that has no scene to leave finds no enter that may still succeed; and a
leave does not overtake an enter that was sent to its scene. -/
def Careful (st : State Sid Num Node Addr) (l : Label Sid Num Node Addr) : Prop :=
  match l.1 with
  | .enter scene => st.sname = none →
      st.phase = .alive ∧ ∀ i scene', st.Entering i scene' → scene' = scene
  | .kick => st.sname = none → ∀ i scene, ¬ st.Entering i scene
  | .serve i _ _ _ => ∀ scene, st.Leaving i scene none →
      ∀ j, st.calls j ≠ some ⟨scene, .enter, none⟩
  | _ => True

/-- Where the ball of the player is: nowhere or in a scene that has accepted it, or in the scene
the agent names, or nowhere when that scene has answered the leave. -/
inductive Stage [DecidableEq Num] (me : Agent Num Node Addr) (st : State Sid Num Node Addr) : Prop
  | outside (hname : st.sname = none) (hphase : ∀ i, st.phase ≠ .leaving i)
      (hleave : ∀ i scene a, ¬ st.Leaving i scene a)
      (halive : ∀ i scene, st.Entering i scene → st.phase = .alive)
      (hsame : ∀ i j scene scene', st.Entering i scene → st.Entering j scene' → scene = scene')
      (hone : ∀ i j scene, st.Accepted i scene → st.Accepted j scene → i = j)
      (hball : ∀ scene, HasBall (st.scenes scene) me.id ↔ ∃ i, st.Accepted i scene)
  | inside (scene : Sid) (hname : st.sname = some scene)
      (hphase : st.phase = .alive ∨ ∃ i, st.phase = .leaving i)
      (hleave : ∀ i scene' a, st.Leaving i scene' a ↔
        st.phase = .leaving i ∧ scene' = scene ∧ a = none)
      (hunserved : ∀ i scene', ¬ st.Accepted i scene')
      (hsame : ∀ i scene', st.Entering i scene' → scene' = scene)
      (hball : ∀ scene', HasBall (st.scenes scene') me.id ↔ scene' = scene)
  | gone (i : ℕ) (scene : Sid) (r : Option Bool) (hname : st.sname = some scene)
      (hphase : st.phase = .leaving i)
      (hleave : ∀ j scene' a, st.Leaving j scene' a ↔ j = i ∧ scene' = scene ∧ a = some r)
      (hnone : ∀ j scene', ¬ st.Entering j scene')
      (hball : ∀ scene', ¬ HasBall (st.scenes scene') me.id)

theorem State.Accepted.entering {st : State Sid Num Node Addr} {i : ℕ} {scene : Sid}
    (h : st.Accepted i scene) : st.Entering i scene :=
  Or.inr h

section Stage

variable [DecidableEq Num] {me : Agent Num Node Addr} {st st' : State Sid Num Node Addr}

/-- What a stage says of the player. -/
theorem Stage.placed (h : Stage me st) : Placed me st := by
  cases h with
  | outside hname hphase hleave halive hsame hone hball =>
    refine ⟨fun scene scene' hb hb' => ?_, fun hsettled scene => ?_, fun _ hcalls scene hb => ?_⟩
    · obtain ⟨i, hi⟩ := (hball scene).mp hb
      obtain ⟨j, hj⟩ := (hball scene').mp hb'
      exact hsame i j scene scene' hi.entering hj.entering
    · rw [hball, hname]
      refine iff_of_false ?_ nofun
      rintro ⟨i, hi⟩
      exact (hsettled i _ hi).1 rfl
    · obtain ⟨i, hi⟩ := (hball scene).mp hb
      rw [State.Accepted, hcalls] at hi
      cases hi
  | inside scene hname hphase hleave hunserved hsame hball =>
    refine ⟨fun scene₁ scene₂ hb hb' => ?_, fun _ scene' => ?_, fun hexited => ?_⟩
    · rw [(hball scene₁).mp hb, (hball scene₂).mp hb']
    · rw [hball, hname, Option.some.injEq, eq_comm]
    · rw [hexited] at hphase
      rcases hphase with hphase | ⟨i, hphase⟩ <;> cases hphase
  | gone i scene r hname hphase hleave hnone hball =>
    refine ⟨fun _ _ hb => absurd hb (hball _), fun hsettled => ?_, fun _ _ => hball⟩
    exact absurd rfl (hsettled i _ ((hleave i scene (some r)).mpr ⟨rfl, rfl, rfl⟩)).2

/-- A step that only lets an enter be refused keeps the stage. -/
theorem Stage.fewer (h : Stage me st) (hname : st'.sname = st.sname)
    (hphase : st'.phase = st.phase)
    (hentering : ∀ i scene, st'.Entering i scene → st.Entering i scene)
    (haccepted : ∀ i scene, st'.Accepted i scene ↔ st.Accepted i scene)
    (hleaving : ∀ i scene a, st'.Leaving i scene a ↔ st.Leaving i scene a)
    (hballs : ∀ scene, HasBall (st'.scenes scene) me.id ↔ HasBall (st.scenes scene) me.id) :
    Stage me st' := by
  cases h with
  | outside hname' hphase' hleave halive hsame hone hball =>
    refine .outside (hname.trans hname') (by rwa [hphase]) ?_ (fun i scene hi => ?_)
      (fun i j scene scene' hi hj => ?_) ?_ ?_
    · simpa only [hleaving] using hleave
    · exact hphase.trans (halive i scene (hentering i scene hi))
    · exact hsame i j scene scene' (hentering i scene hi) (hentering j scene' hj)
    · simpa only [haccepted] using hone
    · simpa only [haccepted, hballs] using hball
  | inside scene hname' hphase' hleave hunserved hsame hball =>
    refine .inside scene (hname.trans hname') (by rwa [hphase]) ?_ ?_ (fun i scene' hi => ?_) ?_
    · simpa only [hleaving, hphase] using hleave
    · simpa only [haccepted] using hunserved
    · exact hsame i scene' (hentering i scene' hi)
    · simpa only [hballs] using hball
  | gone i scene r hname' hphase' hleave hnone hball =>
    refine .gone i scene r (hname.trans hname') (hphase.trans hphase') ?_ (fun j scene' hj => ?_) ?_
    · simpa only [hleaving] using hleave
    · exact hnone j scene' (hentering j scene' hj)
    · simpa only [hballs] using hball

/-- The calls that a stage speaks of. -/
def Matters (c : Call Sid Num) : Prop :=
  c.request = .leave ∨ c.request = .enter ∧ (c.answer = none ∨ c.answer = some (some true))

/-- A step that touches no such call keeps the stage. -/
theorem Stage.frame (h : Stage me st) (hname : st'.sname = st.sname)
    (hphase : st'.phase = st.phase)
    (hcalls : ∀ i c, Matters c → (st'.calls i = some c ↔ st.calls i = some c))
    (hballs : ∀ scene, HasBall (st'.scenes scene) me.id ↔ HasBall (st.scenes scene) me.id) :
    Stage me st' := by
  have hunserved : ∀ scene, Matters (⟨scene, .enter, none⟩ : Call Sid Num) := fun scene =>
    Or.inr ⟨rfl, Or.inl rfl⟩
  have haccepted : ∀ scene, Matters (⟨scene, .enter, some (some true)⟩ : Call Sid Num) :=
    fun scene => Or.inr ⟨rfl, Or.inr rfl⟩
  refine h.fewer hname hphase (fun i scene => ?_) (fun i scene => ?_) (fun i scene a => ?_) hballs
  · exact Or.imp (hcalls i _ (hunserved scene)).mp (hcalls i _ (haccepted scene)).mp
  · exact hcalls i _ (haccepted scene)
  · exact hcalls i _ (Or.inl rfl)

end Stage

section Calls

variable {st : State Sid Num Node Addr}

theorem calls_call (hfresh : st.calls st.sessions = none) (scene : Sid) (request : Request Num)
    (i : ℕ) (c : Call Sid Num) : (st.call scene request).calls i = some c ↔
      st.calls i = some c ∨ i = st.sessions ∧ c = ⟨scene, request, none⟩ := by
  show Function.update st.calls st.sessions _ i = some c ↔ _
  by_cases hi : i = st.sessions
  · rw [hi, Function.update_self, hfresh]
    simp [eq_comm]
  · rw [Function.update_of_ne hi]
    simp [hi]

theorem calls_finish (i j : ℕ) (c : Call Sid Num) :
    (st.finish i).calls j = some c ↔ j ≠ i ∧ st.calls j = some c := by
  show Function.update st.calls i none j = some c ↔ _
  by_cases hj : j = i
  · rw [hj, Function.update_self]
    simp
  · rw [Function.update_of_ne hj]
    simp [hj]

theorem calls_update (calls : ℕ → Option (Call Sid Num)) (i j : ℕ) (c c' : Call Sid Num) :
    Function.update calls i (some c) j = some c' ↔
      j = i ∧ c' = c ∨ j ≠ i ∧ calls j = some c' := by
  by_cases hj : j = i
  · rw [hj, Function.update_self]
    simp [eq_comm]
  · rw [Function.update_of_ne hj]
    simp [hj]

theorem not_matters_shift (scene : Sid) (x y : Value Num) (a : Option (Option Bool)) :
    ¬ Matters (⟨scene, .shift x y, a⟩ : Call Sid Num) := by
  simp [Matters]

theorem not_matters_refused (scene : Sid) {a : Option Bool} (ha : a ≠ some true) :
    ¬ Matters (⟨scene, .enter, some a⟩ : Call Sid Num) := by
  simp [Matters, ha]

end Calls

section Agent

variable [DecidableEq Num] {me : Agent Num Node Addr} {st : State Sid Num Node Addr}

/-- A new call that does not matter. -/
theorem Stage.call (h : Stage me st) (hfresh : st.calls st.sessions = none) (scene : Sid)
    (request : Request Num) (hrequest : ¬ Matters (⟨scene, request, none⟩ : Call Sid Num)) :
    Stage me (st.call scene request) := by
  refine h.frame rfl rfl (fun i c hc => ?_) fun _ => Iff.rfl
  rw [calls_call hfresh, or_iff_left]
  rintro ⟨_, rfl⟩
  exact hrequest hc

/-- The end of a call that does not matter. -/
theorem Stage.finish (h : Stage me st) {i : ℕ} {c : Call Sid Num} (hi : st.calls i = some c)
    (hc : ¬ Matters c) : Stage me (st.finish i) := by
  refine h.frame rfl rfl (fun j c' hc' => ?_) fun _ => Iff.rfl
  rw [calls_finish, and_iff_right_of_imp]
  rintro hj rfl
  rw [hi, Option.some.injEq] at hj
  exact hc (hj ▸ hc')

theorem Stage.enter (h : Stage me st) (hfresh : st.calls st.sessions = none) (scene : Sid)
    (hcareful : st.sname = none →
      st.phase = .alive ∧ ∀ i scene', st.Entering i scene' → scene' = scene) :
    Stage me (st.clientEnter scene).1 := by
  unfold State.clientEnter
  cases hname : st.sname with
  | some scene' => exact h
  | none =>
    obtain ⟨halive, hsame⟩ := hcareful hname
    have hentering : ∀ i scene', (st.call scene .enter).Entering i scene' →
        st.Entering i scene' ∨ scene' = scene := fun i scene' hi => by
      rcases hi with hi | hi <;> rcases (calls_call hfresh _ _ _ _).mp hi with hi | ⟨-, hi⟩
      · exact Or.inl (Or.inl hi)
      · cases hi
        exact Or.inr rfl
      · exact Or.inl (Or.inr hi)
      · cases hi
    have haccepted : ∀ i scene', (st.call scene .enter).Accepted i scene' ↔
        st.Accepted i scene' := fun i scene' => by
      unfold State.Accepted
      rw [calls_call hfresh, or_iff_left]
      rintro ⟨-, hi⟩
      cases hi
    have htarget : ∀ i scene', (st.call scene .enter).Entering i scene' → scene' = scene :=
      fun i scene' hi => (hentering i scene' hi).elim (hsame i scene') id
    cases h with
    | outside _ hphase hleave _ _ hone hball =>
      refine .outside hname hphase (fun i scene' a hi => ?_) (fun _ _ _ => halive)
        (fun i j scene₁ scene₂ hi hj => ?_) ?_ ?_
      · rcases (calls_call hfresh _ _ _ _).mp hi with hi | ⟨-, hi⟩
        · exact hleave i scene' a hi
        · cases hi
      · rw [htarget i scene₁ hi, htarget j scene₂ hj]
      · simpa only [haccepted] using hone
      · exact fun scene' => (hball scene').trans (exists_congr fun i => (haccepted i scene').symm)
    | inside _ hsome => rw [hname] at hsome; cases hsome
    | gone _ _ _ hsome => rw [hname] at hsome; cases hsome

theorem Stage.kick (h : Stage me st) (hfresh : st.calls st.sessions = none)
    (halive : st.phase = .alive)
    (hcareful : st.sname = none → ∀ i scene, ¬ st.Entering i scene) :
    Stage me st.leaveScene := by
  unfold State.leaveScene
  cases h with
  | outside hname hphase hleave hlive hsame hone hball =>
    rw [hname]
    exact .outside rfl nofun hleave (fun i scene hi => absurd hi (hcareful hname i scene)) hsame
      hone hball
  | inside scene hname hphase hleave hunserved hsame hball =>
    rw [hname]
    show Stage me { st.call scene .leave with phase := .leaving st.sessions }
    have hold : ∀ i scene' a, ¬ st.Leaving i scene' a := fun i scene' a hi => by
      have hleaving := ((hleave i scene' a).mp hi).1
      rw [halive] at hleaving
      cases hleaving
    refine .inside scene hname (Or.inr ⟨_, rfl⟩) (fun i scene' a => ?_) (fun i scene' hi => ?_)
      (fun i scene' hi => ?_) hball
    · refine (calls_call hfresh scene .leave i ⟨scene', .leave, a⟩).trans ?_
      refine (or_iff_right (hold i scene' a)).trans ?_
      simp [eq_comm]
    · rcases (calls_call hfresh _ _ _ _).mp hi with hi | ⟨-, hi⟩
      · exact hunserved i scene' hi
      · cases hi
    · refine hsame i scene' ?_
      rcases hi with hi | hi <;> rcases (calls_call hfresh _ _ _ _).mp hi with hi | ⟨-, hi⟩
      · exact Or.inl hi
      · cases hi
      · exact Or.inr hi
      · cases hi
  | gone i scene r hname hphase => rw [halive] at hphase; cases hphase

/-- After its sleep the kick has returned, and the agent may exit. -/
theorem Stage.later (h : Stage me st) {phase : Phase}
    (hphase : st.phase = .sleeping ∨ st.phase = .kicked)
    (hlater : phase = .kicked ∨ phase = .exited) : Stage me { st with phase := phase } := by
  have hnotLeaving : ∀ i, phase ≠ .leaving i := by
    rintro i rfl
    rcases hlater with h | h <;> cases h
  cases h with
  | outside hname _ hleave halive hsame hone hball =>
    refine .outside hname hnotLeaving hleave (fun i scene hi => ?_) hsame hone hball
    have halive := halive i scene hi
    rw [halive] at hphase
    rcases hphase with h | h <;> cases h
  | inside _ _ hleaving =>
    rcases hphase with h | h <;> rw [h] at hleaving <;> rcases hleaving with h | ⟨_, h⟩ <;> cases h
  | gone _ _ _ _ hleaving => rw [hleaving] at hphase; rcases hphase with h | h <;> cases h

/-- A player's enter that was accepted takes him to the scene. -/
theorem Stage.accepted (h : Stage me st) {i : ℕ} {scene : Sid} (hi : st.Accepted i scene) :
    Stage me { st.finish i with sname := some scene } := by
  cases h with
  | outside _ hphase hleave halive hsame hone hball =>
    refine .inside scene rfl (Or.inl (halive i scene hi.entering)) (fun j scene' a => ?_)
      (fun j scene' hj => ?_) (fun j scene' hj => ?_) fun scene' => ?_
    · refine iff_of_false (fun hj => ?_) fun hj => hphase j hj.1
      exact hleave j scene' a ((calls_finish i j _).mp hj).2
    · obtain ⟨hne, hj⟩ := (calls_finish i j _).mp hj
      have hj : st.Accepted j scene' := hj
      have hi' : st.Accepted i scene' := by
        rwa [hsame j i scene' scene hj.entering hi.entering]
      exact hne (hone j i scene' hj hi')
    · have hj : st.Entering j scene' :=
        hj.imp (fun hj => ((calls_finish i j _).mp hj).2) fun hj => ((calls_finish i j _).mp hj).2
      exact hsame j i scene' scene hj hi.entering
    · refine (hball scene').trans ⟨?_, ?_⟩
      · rintro ⟨j, hj⟩
        exact hsame j i scene' scene hj.entering hi.entering
      · rintro rfl
        exact ⟨i, hi⟩
  | inside _ _ _ _ hunserved => exact absurd hi (hunserved i scene)
  | gone _ _ _ _ _ _ hnone => exact absurd hi.entering (hnone i scene)

/-- The agent leaves when the scene has answered. -/
theorem Stage.left (h : Stage me st) {i : ℕ} {scene : Sid} {a : Option Bool}
    (hi : st.Leaving i scene (some a)) :
    Stage me { st.finish i with sname := none, phase := .sleeping } := by
  cases h with
  | outside _ _ hleave => exact absurd hi (hleave i scene _)
  | inside _ _ _ hleave => cases ((hleave i scene _).mp hi).2.2
  | gone i' scene' r _ _ hleave hnone hball =>
    let st' : State Sid Num Node Addr := { st.finish i with sname := none, phase := .sleeping }
    have hentering : ∀ j scene', ¬ st'.Entering j scene' := fun j scene' hj =>
      hnone j scene' (hj.imp (fun hj => ((calls_finish i j _).mp hj).2)
        fun hj => ((calls_finish i j _).mp hj).2)
    refine .outside rfl nofun (fun j scene' b hj => ?_) (fun j scene' hj => ?_)
      (fun j _ scene' _ hj => ?_) (fun j _ scene' hj => ?_) fun scene' => ?_
    · obtain ⟨hne, hj⟩ := (calls_finish i j _).mp hj
      exact hne (((hleave j scene' b).mp hj).1.trans ((hleave i scene _).mp hi).1.symm)
    · exact absurd hj (hentering j scene')
    · exact absurd hj (hentering j scene')
    · exact absurd hj.entering (hentering j scene')
    · refine iff_of_false (hball scene') ?_
      rintro ⟨j, hj⟩
      exact hentering j scene' hj.entering

theorem Stage.resume (h : Stage me st) {i : ℕ} {scene : Sid} {request : Request Num}
    {a : Option Bool} (hi : st.calls i = some ⟨scene, request, some a⟩) :
    Stage me (st.resume i ⟨scene, request, some a⟩ a).1 := by
  unfold State.resume
  by_cases hexited : st.phase = .exited
  · -- no enter and no leave of an agent that has exited can still matter
    rw [if_pos hexited]
    refine h.finish hi fun hmatters => ?_
    cases h with
    | outside _ _ hleave halive =>
      rcases hmatters with hreq | ⟨hreq, hanswer⟩
      · exact hleave i scene (some a) (by rw [State.Leaving, hi, ← hreq])
      · have hentering : st.Entering i scene := by
          rcases hanswer with hanswer | hanswer
          · cases hanswer
          · exact Or.inr (by rw [hi, ← hreq, ← hanswer])
        have hphase := halive i scene hentering
        rw [hexited] at hphase
        cases hphase
    | inside _ _ hleaving =>
      rw [hexited] at hleaving
      rcases hleaving with hleaving | ⟨_, hleaving⟩ <;> cases hleaving
    | gone _ _ _ _ hleaving =>
      rw [hexited] at hleaving
      cases hleaving
  · rw [if_neg hexited]
    cases request with
    | enter =>
      by_cases ha : a = some true
      · simp only [if_pos ha]
        rw [ha] at hi
        exact h.accepted hi
      · simp only [if_neg ha]
        exact h.finish hi (not_matters_refused scene ha)
    | leave => exact h.left hi
    | shift x y => exact h.finish hi (not_matters_shift scene x y _)

end Agent

section Scenes

variable [DecidableEq Sid] [DecidableEq Num] [LuaArith Num]
  {me : Agent Num Node Addr} {st : State Sid Num Node Addr}

theorem hasBall_operate (scene scene' : Sid) (ev : Scene.Event Num Node Addr) :
    HasBall ((st.operate scene ev).scenes scene') me.id ↔
      if scene' = scene then HasBall (Scene.next (st.scenes scene) ev).1 me.id
      else HasBall (st.scenes scene') me.id := by
  show HasBall (Function.update st.scenes scene _ scene') me.id ↔ _
  by_cases h : scene' = scene
  · rw [if_pos h, h, Function.update_self]
  · rw [if_neg h, Function.update_of_ne h]

/-- What the other players do leaves the ball alone. -/
theorem hasBall_foreign {ev : Scene.Event Num Node Addr} (hforeign : Foreign me.id ev.1)
    (scene scene' : Sid) :
    HasBall ((st.operate scene ev).scenes scene') me.id ↔ HasBall (st.scenes scene') me.id := by
  rw [hasBall_operate]
  split
  · next h =>
    rw [h]
    obtain ⟨op, orders⟩ := ev
    cases op with
    | enter q node agent x y =>
      exact (Scene.hasBall_enter orders q me.id node agent x y).trans
        (or_iff_right fun h => hforeign h.symm)
    | leave q =>
      exact (Scene.hasBall_leave orders q me.id).trans
        (and_iff_right fun h => hforeign h.symm)
    | shift q x y => exact Scene.hasBall_shift q me.id x y
    | update draw x y => exact Scene.hasBall_update orders draw x y me.id
  · rfl

omit [DecidableEq Sid] in
variable (me st) in
/-- A scene that has the ball refuses it, and a scene that has not accepts it. -/
theorem answer_enter (scene : Sid) (orders : Scene.Orders Num) (x y : Num) :
    answer (Scene.enter (st.scenes scene) orders me.id me.mynode me.self x y).outs =
      some (some (decide (¬ HasBall (st.scenes scene) me.id))) := by
  unfold Scene.enter
  cases hb : (st.scenes scene).balls.lookup me.id with
  | some b =>
    have hhas : HasBall (st.scenes scene) me.id := by
      rw [HasBall, hb]
      rfl
    rw [decide_eq_false (not_not_intro hhas)]
    rfl
  | none =>
    have hhas : ¬ HasBall (st.scenes scene) me.id := by
      rw [HasBall, hb]
      exact Bool.noConfusion
    rw [decide_eq_true hhas]
    have hsplit : ∀ (outs : List (Scene.Out Num Node Addr)) (m₁ m₂ m₃ : Scene.SceneMsg Num)
        (dest : Node × Addr),
        outs ++ [.send dest m₁, .send dest m₂, .send dest m₃, .ret (some true)] =
          (outs ++ [.send dest m₁, .send dest m₂, .send dest m₃]) ++ [.ret (some true)] := by simp
    simp only [hsplit]
    refine answer_append_ret _ fun b hb => ?_
    rcases List.mem_append.mp hb with hb | hb
    · exact Scene.ret_not_broadcast _ _ _ b hb
    · simp at hb

omit [DecidableEq Sid] [LuaArith Num] in
variable (me st) in
theorem answer_leave (scene : Sid) (orders : Scene.Orders Num) :
    ∃ a, answer (Scene.leave (st.scenes scene) orders me.id).outs = some a := by
  unfold Scene.leave
  cases (st.scenes scene).balls.lookup me.id with
  | none => exact ⟨_, rfl⟩
  | some b =>
    exact ⟨_, answer_append_ret _ fun a => Scene.ret_not_broadcast _ _ _ a⟩

theorem Stage.serve_enter (h : Stage me st) {i : ℕ} {scene : Sid}
    (hi : st.calls i = some ⟨scene, .enter, none⟩) (orders : Scene.Orders Num) (x y : Num) :
    Stage me (st.serve me i ⟨scene, .enter, none⟩ orders x y) := by
  set st' := st.serve me i ⟨scene, .enter, none⟩ orders x y with hst'
  have hentering : st.Entering i scene := Or.inl hi
  have hanswer := answer_enter me st scene orders x y
  have hcalls : ∀ j c, st'.calls j = some c ↔ j = i ∧
      c = ⟨scene, .enter, some (some (decide (¬ HasBall (st.scenes scene) me.id)))⟩ ∨
        j ≠ i ∧ st.calls j = some c := fun j c => by
    rw [← hanswer]
    exact calls_update st.calls i j _ c
  have hballs : ∀ scene', HasBall (st'.scenes scene') me.id ↔
      scene' = scene ∨ HasBall (st.scenes scene') me.id := fun scene' => by
    refine (hasBall_operate scene scene' _).trans ?_
    split
    · next heq =>
      rw [heq]
      refine (Scene.hasBall_enter orders me.id me.id me.mynode me.self x y).trans ?_
      simp
    · next hne => simp [hne]
  have hunserved : ∀ scene', ¬ st.Accepted i scene' := fun scene' hacc => by
    rw [State.Accepted, hi] at hacc
    cases hacc
  have hleaving : ∀ j scene' a, st'.Leaving j scene' a ↔ st.Leaving j scene' a :=
    fun j scene' a => by
      unfold State.Leaving
      rw [hcalls]
      by_cases hj : j = i
      · rw [hj, hi]
        simp
      · simp [hj]
  by_cases hb : HasBall (st.scenes scene) me.id
  · refine h.fewer rfl rfl (fun j scene' hj => ?_) (fun j scene' => ?_) hleaving fun scene' => ?_
    · rcases hj with hj | hj <;> rcases (hcalls j _).mp hj with ⟨-, hc⟩ | ⟨-, hj⟩
      · cases hc
      · exact Or.inl hj
      · simp [hb] at hc
      · exact Or.inr hj
    · unfold State.Accepted
      rw [hcalls]
      by_cases hj : j = i
      · rw [hj]
        exact iff_of_false (by simp [hb]) (hunserved scene')
      · simp [hj]
    · rw [hballs, or_iff_right_of_imp]
      rintro rfl
      exact hb
  · cases h with
    | outside hname hphase hleave halive hsame hone hball =>
      have hfirst : ∀ j scene', ¬ st.Accepted j scene' := fun j scene' hj => by
        have heq := hsame j i scene' scene hj.entering hentering
        rw [heq] at hj
        exact hb ((hball scene).mpr ⟨j, hj⟩)
      have haccepted : ∀ j scene', st'.Accepted j scene' ↔ j = i ∧ scene' = scene :=
        fun j scene' => by
          unfold State.Accepted
          rw [hcalls]
          refine (or_iff_left fun hj => hfirst j scene' hj.2).trans ?_
          simp [hb]
      have hold : ∀ j scene', st'.Entering j scene' → st.Entering j scene' :=
        fun j scene' hj => by
          rcases hj with hj | hj
          · rcases (hcalls j _).mp hj with ⟨-, hc⟩ | ⟨-, hj⟩
            · cases hc
            · exact Or.inl hj
          · obtain ⟨rfl, rfl⟩ := (haccepted j scene').mp hj
            exact hentering
      refine .outside hname hphase (fun j scene' a hj => ?_) (fun j scene' hj => ?_)
        (fun j k scene₁ scene₂ hj hk => ?_) (fun j k scene' hj hk => ?_) fun scene' => ?_
      · exact hleave j scene' a ((hleaving j scene' a).mp hj)
      · exact halive j scene' (hold j scene' hj)
      · exact hsame j k scene₁ scene₂ (hold j scene₁ hj) (hold k scene₂ hk)
      · rw [((haccepted j scene').mp hj).1, ((haccepted k scene').mp hk).1]
      · rw [hballs]
        simp only [haccepted, exists_eq_left]
        refine or_iff_left fun hold => ?_
        obtain ⟨j, hj⟩ := (hball scene').mp hold
        exact hfirst j scene' hj
    | inside scene' _ _ _ _ hsame hball =>
      exact absurd ((hball scene).mpr (hsame i scene hentering)) hb
    | gone _ _ _ _ _ _ hnone => exact absurd hentering (hnone i scene)

/-- The scene that the agent leaves gives the ball away, when no enter is left for it. -/
theorem Stage.serve_leave (h : Stage me st) {i : ℕ} {scene : Sid}
    (hi : st.calls i = some ⟨scene, .leave, none⟩)
    (hcareful : ∀ j, st.calls j ≠ some ⟨scene, .enter, none⟩) (orders : Scene.Orders Num)
    (x y : Num) : Stage me (st.serve me i ⟨scene, .leave, none⟩ orders x y) := by
  set st' := st.serve me i ⟨scene, .leave, none⟩ orders x y with hst'
  obtain ⟨a, ha⟩ := answer_leave me st scene orders
  have hcalls : ∀ j c, st'.calls j = some c ↔ j = i ∧ c = ⟨scene, .leave, some a⟩ ∨
      j ≠ i ∧ st.calls j = some c := fun j c => by
    rw [← ha]
    exact calls_update st.calls i j _ c
  have hballs : ∀ scene', HasBall (st'.scenes scene') me.id ↔
      scene' ≠ scene ∧ HasBall (st.scenes scene') me.id := fun scene' => by
    refine (hasBall_operate scene scene' _).trans ?_
    split
    · next heq =>
      rw [heq]
      refine (Scene.hasBall_leave orders me.id me.id).trans ?_
      simp
    · next hne => simp [hne]
  cases h with
  | outside _ _ hleave => exact absurd hi (hleave i scene _)
  | inside scene' hname hphase hleave hunserved hsame hball =>
    obtain ⟨hleaving, rfl, -⟩ := (hleave i scene none).mp hi
    refine .gone i scene a hname hleaving (fun j scene' b => ?_) (fun j scene' hj => ?_)
      fun scene' hb => ?_
    · refine (hcalls j _).trans ⟨?_, ?_⟩
      · rintro (⟨rfl, hc⟩ | ⟨hne, hj⟩)
        · cases hc
          exact ⟨rfl, rfl, rfl⟩
        · have hphase := ((hleave j scene' b).mp hj).1
          rw [hleaving] at hphase
          cases hphase
          exact absurd rfl hne
      · rintro ⟨rfl, rfl, rfl⟩
        exact Or.inl ⟨rfl, rfl⟩
    · rcases hj with hj | hj <;> rcases (hcalls j _).mp hj with ⟨-, hc⟩ | ⟨-, hold⟩
      · cases hc
      · rw [hsame j scene' (Or.inl hold)] at hold
        exact hcareful j hold
      · cases hc
      · exact hunserved j scene' hold
    · obtain ⟨hne, hold⟩ := (hballs scene').mp hb
      exact hne ((hball scene').mp hold)
  | gone i' scene' r _ _ hleave => cases ((hleave i scene none).mp hi).2.2

theorem Stage.serve_shift (h : Stage me st) {i : ℕ} {scene : Sid} {speedx speedy : Value Num}
    (hi : st.calls i = some ⟨scene, .shift speedx speedy, none⟩) (orders : Scene.Orders Num)
    (x y : Num) : Stage me (st.serve me i ⟨scene, .shift speedx speedy, none⟩ orders x y) := by
  refine h.frame rfl rfl (fun j c hc => ?_) fun scene' => ?_
  · refine (calls_update st.calls i j _ c).trans ?_
    by_cases hj : j = i
    · rw [hj, hi]
      refine iff_of_false ?_ ?_
      · rintro (⟨-, rfl⟩ | ⟨hne, -⟩)
        · exact not_matters_shift _ _ _ _ hc
        · exact hne rfl
      · rintro ⟨⟩
        exact not_matters_shift _ _ _ _ hc
    · simp [hj]
  · refine (hasBall_operate scene scene' _).trans ?_
    split
    · next heq =>
      rw [heq]
      exact Scene.hasBall_shift me.id me.id speedx speedy
    · rfl

/-- The stage, and calls only at the sessions that have been given out. -/
structure Invariant (me : Agent Num Node Addr) (st : State Sid Num Node Addr) : Prop where
  stage : Stage me st
  fresh : ∀ i, st.sessions ≤ i → st.calls i = none

omit [DecidableEq Sid] [DecidableEq Num] [LuaArith Num] in
theorem fresh_call (hfresh : ∀ i, st.sessions ≤ i → st.calls i = none) (scene : Sid)
    (request : Request Num) (i : ℕ) (hi : (st.call scene request).sessions ≤ i) :
    (st.call scene request).calls i = none := by
  have hlt : st.sessions < i := hi
  show Function.update st.calls st.sessions _ i = none
  rw [Function.update_of_ne (by omega)]
  exact hfresh i (by omega)

omit [DecidableEq Sid] [DecidableEq Num] [LuaArith Num] in
theorem fresh_finish (hfresh : ∀ i, st.sessions ≤ i → st.calls i = none) (i j : ℕ)
    (hj : st.sessions ≤ j) : (st.finish i).calls j = none := by
  show Function.update st.calls i none j = none
  by_cases h : j = i
  · rw [h, Function.update_self]
  · rw [Function.update_of_ne h]
    exact hfresh j hj

theorem Invariant.step {l : Label Sid Num Node Addr} {st' : State Sid Num Node Addr}
    (h : Invariant me st) (hstep : Guarded (Step me) Careful st l st') : Invariant me st' := by
  obtain ⟨⟨henabled, hnext⟩, hcareful⟩ := hstep
  obtain ⟨ev, reply⟩ := l
  obtain rfl : (next me st ev).1 = st' := congrArg Prod.fst hnext
  have hsession := h.fresh st.sessions le_rfl
  cases ev with
  | enter scene =>
    refine ⟨h.stage.enter hsession scene hcareful, ?_⟩
    simp only [next, State.clientEnter]
    split
    · exact h.fresh
    · exact fresh_call h.fresh scene .enter
  | shift msg =>
    simp only [next, State.clientShift]
    split
    · exact h
    · exact ⟨h.stage.call hsession _ _ (not_matters_shift _ _ _ _), fresh_call h.fresh _ _⟩
  | kick =>
    refine ⟨h.stage.kick hsession henabled hcareful, ?_⟩
    simp only [next, State.leaveScene]
    split
    · exact h.fresh
    · exact fresh_call h.fresh _ .leave
  | wake => exact ⟨h.stage.later (Or.inl henabled) (Or.inl rfl), h.fresh⟩
  | exit => exact ⟨h.stage.later (Or.inr henabled) (Or.inr rfl), h.fresh⟩
  | serve i orders x y =>
    simp only [next]
    obtain ⟨⟨scene, request, a⟩, hi, ha⟩ := Option.map_eq_some_iff.mp henabled
    obtain rfl : a = none := ha
    simp only [hi]
    refine ⟨?_, fun j hj => ?_⟩
    · cases request with
      | enter => exact h.stage.serve_enter hi orders x y
      | leave => exact h.stage.serve_leave hi (hcareful scene hi) orders x y
      | shift speedx speedy => exact h.stage.serve_shift hi orders x y
    · have hne : j ≠ i := by
        rintro rfl
        rw [h.fresh j hj] at hi
        cases hi
      exact (Function.update_of_ne hne _ _).trans (h.fresh j hj)
  | resume i =>
    simp only [next]
    split
    · next scene request a hi =>
      refine ⟨h.stage.resume hi, ?_⟩
      have hfinish := fresh_finish h.fresh i
      unfold State.resume
      split
      · exact hfinish
      · split
        · split <;> exact hfinish
        · exact hfinish
        · exact hfinish
    · exact h
  | other scene ev =>
    exact ⟨h.stage.frame rfl rfl (fun _ _ _ => Iff.rfl)
      fun scene' => hasBall_foreign henabled scene scene', h.fresh⟩

omit [DecidableEq Sid] [LuaArith Num] in
theorem Invariant.init {scenes : Sid → Scene.State Num Node Addr}
    (hscenes : ∀ scene, ¬ HasBall (scenes scene) me.id) : Invariant me (init scenes) := by
  have hentering : ∀ i scene, ¬ (AgentScenes.init scenes).Entering i scene := fun i scene hi => by
    rcases hi with hi | hi <;> cases hi
  refine ⟨.outside rfl nofun nofun (fun i scene hi => absurd hi (hentering i scene))
    (fun i _ scene _ hi => absurd hi (hentering i scene))
    (fun i _ scene hi => absurd hi.entering (hentering i scene)) fun scene => ?_, fun _ _ => rfl⟩
  refine iff_of_false (hscenes scene) ?_
  rintro ⟨i, hi⟩
  exact hentering i scene hi.entering

end Scenes

/-- In a run of careful steps the ball of the player is where his agent says. -/
theorem ball_placed [DecidableEq Sid] [DecidableEq Num] [LuaArith Num] {me : Agent Num Node Addr}
    {scenes : Sid → Scene.State Num Node Addr} {ls : List (Label Sid Num Node Addr)}
    {st : State Sid Num Node Addr} (hscenes : ∀ scene, ¬ HasBall (scenes scene) me.id)
    (hrun : Run (Guarded (Step me) Careful) (init scenes) ls st) : Placed me st :=
  (Run.invariant (I := Invariant me) (fun _ _ _ => Invariant.step) (Invariant.init hscenes)
    hrun).stage.placed

def me : Agent ℚ ℕ ℕ := ⟨7, 1, 100⟩

def empty : ℕ → Scene.State ℚ ℕ ℕ := fun _ => Scene.init

/-- A player who enters a scene and arrives there. -/
def arriving : List (Event ℕ ℚ ℕ ℕ) :=
  [.enter 1, .serve 0 Scene.listed 10 10, .resume 0]

theorem run_arriving : Run (Guarded (Step me) Careful) (init empty)
    (trace (next me) (init empty) arriving) (exec (next me) (init empty) arriving) := by
  refine run_exec_guarded ⟨⟨nofun, fun _ => ⟨rfl, fun i scene hi => ?_⟩⟩,
    ⟨rfl, fun scene hi => ?_⟩, ⟨rfl, trivial⟩, trivial⟩
  · rcases hi with hi | hi <;> cases hi
  · cases hi

theorem ball_placed_arriving : Placed me (exec (next me) (init empty) arriving) :=
  ball_placed (fun _ => Bool.noConfusion) run_arriving

/-- A second enter before the first is answered. -/
def hasty : List (Event ℕ ℚ ℕ ℕ) :=
  [.enter 1, .enter 2, .serve 0 Scene.listed 10 10, .serve 1 Scene.listed 20 20, .resume 0,
    .resume 1]

/-- An enter during the sleep of the kick. -/
def late : List (Event ℕ ℚ ℕ ℕ) :=
  [.kick, .enter 1, .serve 0 Scene.listed 10 10, .resume 0, .wake, .exit]

/-- Two scenes hold a ball of the player; and a scene holds one after his agent has exited. -/
theorem ball_misplaced :
    (Run (Step me) (init empty) (trace (next me) (init empty) hasty)
        (exec (next me) (init empty) hasty) ∧
      ¬ Placed me (exec (next me) (init empty) hasty)) ∧
    Run (Step me) (init empty) (trace (next me) (init empty) late)
        (exec (next me) (init empty) late) ∧
      ¬ Placed me (exec (next me) (init empty) late) := by
  refine ⟨⟨run_exec hasty (by decide), fun h => ?_⟩, run_exec late (by decide), fun h => ?_⟩
  · have htwo := h.one 1 2 (by decide +kernel) (by decide +kernel)
    cases htwo
  · refine h.none_left rfl (fun i => ?_) 1 (by decide +kernel)
    show Function.update (Function.update (Function.update (fun _ => none) 0 _) 0 _) 0 none i = none
    by_cases hi : i = 0
    · rw [hi, Function.update_self]
    · rw [Function.update_of_ne hi, Function.update_of_ne hi, Function.update_of_ne hi]

end Ue4Background.AgentScenes
