import Ue4Background.Issuing

/-!
What the gateways and the agent manager agree on. A binding is made by a `sure_agent` that
a login sends, and is undone by a kick that the agent manager sends; these two take
different ways to the gateway. As long as no binding is overtaken by its kick, a player
is in the table of a gateway exactly if his record is in the game there, up to what is
still on its way.
-/

namespace Ue4Background.System

open LuaValues Transition
open AgentMgr (Handler Kicking held)
open Gateway (agentOf)

variable {Num Node Addr : Type}

section Places

variable [DecidableEq Num]

/-- The record of `p` is in the game at the gateway `g` with this agent. -/
def Game (w : World Num Node Addr) (g : Site Node Addr) (p : Num) (agent : Option Addr) : Prop :=
  held w.manager.mgr p = some ⟨p, g.node, agent, .game, g.addr⟩

/-- The record of `p` is marked for a kick at the gateway `g` with this agent. -/
def Leaving (w : World Num Node Addr) (g : Site Node Addr) (p : Num) (agent : Option Addr) :
    Prop :=
  held w.manager.mgr p = some ⟨p, g.node, agent, .logout, g.addr⟩

end Places

/-- A kick of `p` at the gateway `g`. -/
def Kicks (g : Site Node Addr) (p : Num) : Packet Num Node Addr → Prop
  | .kick g' p' => g' = g ∧ p' = p
  | .callKick g' _ p' => g' = g ∧ p' = p
  | _ => False

instance Kicks.decidable [DecidableEq Num] [DecidableEq Node] [DecidableEq Addr]
    (g : Site Node Addr) (p : Num) : ∀ q : Packet Num Node Addr, Decidable (Kicks g p q)
  | .kick g' p' => inferInstanceAs (Decidable (g' = g ∧ p' = p))
  | .callKick g' _ p' => inferInstanceAs (Decidable (g' = g ∧ p' = p))
  | .client _ _ _ _ _ | .command _ _ _ _ | .reqlogin _ _ _ | .answered _ _
  | .sureAgent _ _ _ _ _ | .sured _ _ _ | .sendByFd _ _ _ _ | .send _ _ _ _
  | .reqkick _ _ _ _ | .returned _ _ | .kicked _ _ | .kickAgent _ _ | .agentKicked _ _
  | .exit _ | .newservice _ _ _ | .launched _ _ _ => inferInstanceAs (Decidable False)

/-- A kick of `p` is on its way to the gateway `g`. -/
def KickSent (w : World Num Node Addr) (g : Site Node Addr) (p : Num) : Prop :=
  ∃ q ∈ w.wire, Kicks g p q

/-- A packet that leads to the binding of `p` at `g`, or to the end of its record. -/
def Brings (w : World Num Node Addr) (g : Site Node Addr) (p : Num) (agent : Option Addr) :
    Packet Num Node Addr → Prop
  | .answered c (.granted agent') => agent' = agent ∧ c.login.node = g.node ∧
      Requesting w c (some p) g.addr
  | .sureAgent _ g' _ p' agent' => g' = g ∧ p' = p ∧ agent' = agent
  | .reqkick _ _ p' _ => p' = p
  | _ => False

def Coming (w : World Num Node Addr) (g : Site Node Addr) (p : Num) (agent : Option Addr) : Prop :=
  ∃ q ∈ w.wire, Brings w g p agent q

/-- What holds of a player at a gateway. -/
structure Fits [DecidableEq Num] (w : World Num Node Addr) (g : Site Node Addr) (p : Num) :
    Prop where
  left : ∀ agent, agentOf (w.gates g) p = some agent →
    Game w g p agent ∨ Leaving w g p agent ∨ KickSent w g p
  joined : ∀ agent, Game w g p agent → agentOf (w.gates g) p = some agent ∨ Coming w g p agent
  safe : ∀ agent, Game w g p agent → agentOf (w.gates g) p = some agent → ¬ KickSent w g p

variable {w w' : World Num Node Addr} {e : Event Num Node Addr}
  {pkts : List (Packet Num Node Addr)} {g : Site Node Addr} {p : Num}

theorem Brings.mono {agent : Option Addr} {q : Packet Num Node Addr} (h : Brings w g p agent q)
    (hreq : ∀ c, q = .answered c (.granted agent) → Requesting w c (some p) g.addr →
      Requesting w' c (some p) g.addr) : Brings w' g p agent q := by
  cases q with
  | answered c answer =>
    cases answer with
    | granted agent' =>
      obtain ⟨rfl, hnode, hwaits⟩ := h
      exact ⟨rfl, hnode, hreq c rfl hwaits⟩
    | _ => exact h
  | _ => exact h

theorem kickSent_iff (hposts : Posts w e pkts w')
    (htaken : ∀ pkt, taken w e = some pkt → ¬ Kicks g p pkt)
    (hpkts : ∀ q ∈ pkts, ¬ Kicks g p q) : KickSent w' g p ↔ KickSent w g p := by
  constructor
  · rintro ⟨q, hq, hkicks⟩
    rw [hposts.wire] at hq
    rcases List.mem_append.mp hq with hold | hnew
    · exact ⟨q, left_subset e hold, hkicks⟩
    · exact absurd hkicks (hpkts q hnew)
  · rintro ⟨q, hq, hkicks⟩
    rcases mem_wire.mp hq with hgone | hleft
    · exact absurd hkicks (htaken q hgone)
    · exact ⟨q, by rw [hposts.wire]; exact List.mem_append_left _ hleft, hkicks⟩

/-- What comes still comes, unless the packet was the one that arrived. -/
theorem Coming.step {agent : Option Addr} (h : Coming w g p agent) (hposts : Posts w e pkts w')
    (htaken : ∀ pkt, taken w e = some pkt → Brings w g p agent pkt → Coming w' g p agent)
    (hreq : ∀ c, .answered c (.granted agent) ∈ left w e → Requesting w c (some p) g.addr →
      Requesting w' c (some p) g.addr) : Coming w' g p agent := by
  obtain ⟨q, hq, hbrings⟩ := h
  rcases mem_wire.mp hq with hgone | hleft
  · exact htaken q hgone hbrings
  · refine ⟨q, by rw [hposts.wire]; exact List.mem_append_left _ hleft, hbrings.mono ?_⟩
    rintro c rfl
    exact hreq c hleft

/-- A kick is sent for a record that the agent manager removes. -/
theorem kick_sent {outs : List (AgentMgr.Out Num Node Addr (Caller Node Addr))}
    {q : Packet Num Node Addr} (hq : q ∈ outs.flatMap mgrPackets) (hkicks : Kicks g p q) :
    ∃ o ∈ outs, o.gateKick = some (g.node, g.addr, p) := by
  obtain ⟨o, ho, hpkt⟩ := List.mem_flatMap.mp hq
  refine ⟨o, ho, ?_⟩
  cases o with
  | callKick h node agent => obtain ⟨a, _, rfl⟩ := List.mem_map.mp hpkt; exact hkicks.elim
  | sendExit node agent => obtain ⟨a, _, rfl⟩ := List.mem_map.mp hpkt; exact hkicks.elim
  | ret caller answer =>
    cases caller with
    | login c => rw [List.mem_singleton.mp hpkt] at hkicks; exact hkicks.elim
    | gateway s session => rw [List.mem_singleton.mp hpkt] at hkicks; exact hkicks.elim
    | admin => cases hpkt
  | callGateKick h node gate q =>
    rw [List.mem_singleton.mp hpkt] at hkicks
    obtain ⟨rfl, rfl⟩ := hkicks
    rfl
  | sendGateKick node gate q =>
    rw [List.mem_singleton.mp hpkt] at hkicks
    obtain ⟨rfl, rfl⟩ := hkicks
    rfl
  | _ => rw [List.mem_singleton.mp hpkt] at hkicks; exact hkicks.elim

namespace Fits

variable [DecidableEq Num]

theorem keep (h : Fits w g p) (hheld : held w'.manager.mgr p = held w.manager.mgr p)
    (hagents : agentOf (w'.gates g) p = agentOf (w.gates g) p)
    (hkick : KickSent w' g p ↔ KickSent w g p)
    (hcoming : ∀ agent, Game w g p agent → Coming w g p agent → Coming w' g p agent) :
    Fits w' g p := by
  have hgame : ∀ agent, Game w' g p agent ↔ Game w g p agent := fun agent => by
    simp only [Game, hheld]
  have hleaving : ∀ agent, Leaving w' g p agent ↔ Leaving w g p agent := fun agent => by
    simp only [Leaving, hheld]
  refine ⟨?_, ?_, ?_⟩
  · intro agent hagent
    rw [hagents] at hagent
    rw [hgame, hleaving, hkick]
    exact h.left agent hagent
  · intro agent hg
    rw [hgame] at hg
    rw [hagents]
    rcases h.joined agent hg with hagent | hold
    · exact Or.inl hagent
    · exact Or.inr (hcoming agent hg hold)
  · intro agent hg hagent
    rw [hgame] at hg
    rw [hagents] at hagent
    rw [hkick]
    exact h.safe agent hg hagent

/-- A player who is not in the game needs a mark or a kick to leave the gateway. -/
theorem out (h : Fits w g p) (hagents : agentOf (w'.gates g) p = agentOf (w.gates g) p)
    (hkept : KickSent w g p → KickSent w' g p) (hout : ∀ agent, ¬ Game w' g p agent)
    (hleft : ∀ agent, Game w g p agent ∨ Leaving w g p agent →
      Leaving w' g p agent ∨ KickSent w' g p) : Fits w' g p := by
  refine ⟨fun agent hagent => ?_, fun agent hgame => absurd hgame (hout agent),
    fun agent hgame => absurd hgame (hout agent)⟩
  rw [hagents] at hagent
  rcases h.left agent hagent with hgame | hleaving | hsent
  · exact Or.inr (hleft agent (Or.inl hgame))
  · exact Or.inr (hleft agent (Or.inr hleaving))
  · exact Or.inr (Or.inr (hkept hsent))

/-- The gateway binds `agent` to the player. -/
theorem bound (h : Fits w g p) {agent : Option Addr}
    (hheld : held w'.manager.mgr p = held w.manager.mgr p)
    (hagent : agentOf (w'.gates g) p = some agent) (hkick : KickSent w' g p ↔ KickSent w g p)
    (hcoming : ∀ agent', agent' ≠ agent → Coming w g p agent' → Coming w' g p agent')
    (hcases : (Game w g p agent ∧ ¬ KickSent w g p) ∨ Leaving w g p agent ∨
      (KickSent w g p ∧ ¬ Game w g p agent)) : Fits w' g p := by
  refine ⟨fun agent' hagent' => ?_, fun agent' hgame' => ?_, fun agent' hgame' hagent' => ?_⟩
  · rw [hagent, Option.some.injEq] at hagent'
    subst hagent'
    rw [hkick]
    unfold Game Leaving
    rw [hheld]
    rcases hcases with ⟨hgame, _⟩ | hleaving | ⟨hkicked, _⟩
    · exact Or.inl hgame
    · exact Or.inr (Or.inl hleaving)
    · exact Or.inr (Or.inr hkicked)
  · unfold Game at hgame'
    rw [hheld] at hgame'
    by_cases heq : agent' = agent
    · exact Or.inl (by rw [hagent, heq])
    · right
      rcases hcases with ⟨hgame, _⟩ | hleaving | ⟨hkicked, _⟩
      · cases hgame'.symm.trans hgame
        exact absurd rfl heq
      · cases hgame'.symm.trans hleaving
      · rcases h.joined agent' hgame' with hold | hold
        · exact absurd hkicked (h.safe agent' hgame' hold)
        · exact hcoming agent' heq hold
  · unfold Game at hgame'
    rw [hheld] at hgame'
    rw [hagent, Option.some.injEq] at hagent'
    subst hagent'
    rw [hkick]
    rcases hcases with ⟨_, hnot⟩ | hleaving | ⟨_, hnot⟩
    · exact hnot
    · cases hgame'.symm.trans hleaving
    · exact absurd hgame' hnot

/-- The gateway drops the player, for whom a kick was under way. -/
theorem dropped (h : Fits w g p) (hheld : held w'.manager.mgr p = held w.manager.mgr p)
    (hnone : agentOf (w'.gates g) p = none) (hsent : KickSent w g p)
    (hcoming : ∀ agent, Coming w g p agent → Coming w' g p agent) : Fits w' g p := by
  refine ⟨fun agent hagent => ?_, fun agent hgame => ?_, fun agent _ hagent => ?_⟩
  · rw [hnone] at hagent
    cases hagent
  · unfold Game at hgame
    rw [hheld] at hgame
    rcases h.joined agent hgame with hold | hold
    · exact absurd hsent (h.safe agent hgame hold)
    · exact Or.inr (hcoming agent hold)
  · rw [hnone] at hagent
    cases hagent

/-- A handler of a gateway runs. A binding must find the record as it was granted and no
kick under way, or must have a kick to come. -/
theorem gate (h : Fits w g p) {s : Site Node Addr} {ev : Gateway.Event Num Addr}
    {back : Option (LoginCall Node)} {outs : List (Gateway.Out Num Addr)}
    (hinput : GateInput w e s ev back)
    (hassigns : Gateway.Assigns (w.gates s) (w'.gates s) ev outs)
    (hother : ∀ k, k ≠ s → w'.gates k = w.gates k) (hlogins : w'.logins = w.logins)
    (hmanager : w'.manager = w.manager) (hposts : Posts w e pkts w')
    (hpkts : ∀ q ∈ pkts, ¬ Kicks g p q)
    (hreqkick : ∀ q reason waiting, .reqkick q reason waiting ∈ outs →
      ∃ session, .reqkick s session q reason ∈ pkts)
    (horder : ∀ c fd agent, taken w e = some (.sureAgent c g fd p agent) →
      (w.gates g).conns fd ≠ none → (Game w g p agent ∧ ¬ KickSent w g p) ∨
        Leaving w g p agent ∨ (KickSent w g p ∧ ¬ Game w g p agent)) : Fits w' g p := by
  have hheld : held w'.manager.mgr p = held w.manager.mgr p := by rw [hmanager]
  have hreq : ∀ c, Requesting w c (some p) g.addr → Requesting w' c (some p) g.addr := by
    rintro c ⟨fd, hwaits⟩
    exact ⟨fd, by rw [hlogins, hwaits]⟩
  cases hassigns with
  | bound fd q agent key c _ hconn hagents =>
    cases hinput with
    | external _ _ hext => cases hext
    | sureAgent d _ _ _ _ htaken =>
      have hkick : KickSent w' g p ↔ KickSent w g p := by
        refine kickSent_iff hposts (fun pkt hpkt hkicks => ?_) hpkts
        rw [htaken, Option.some.injEq] at hpkt
        rw [← hpkt] at hkicks
        exact hkicks
      have hcoming : ∀ agent', ¬ (g = s ∧ p = q ∧ agent' = agent) → Coming w g p agent' →
          Coming w' g p agent' := by
        intro agent' hne hold
        refine hold.step hposts (fun pkt hpkt hbrings => ?_) fun c _ => hreq c
        rw [htaken, Option.some.injEq] at hpkt
        rw [← hpkt] at hbrings
        obtain ⟨hs, hq, hagent⟩ := hbrings
        exact absurd ⟨hs.symm, hq.symm, hagent.symm⟩ hne
      by_cases hsame : g = s ∧ p = q
      · obtain ⟨rfl, rfl⟩ := hsame
        have hagent : agentOf (w'.gates g) p = some agent := by
          rw [hagents, Function.update_self]
        exact h.bound hheld hagent hkick
          (fun agent' hne => hcoming agent' fun ⟨_, _, heq⟩ => hne heq)
          (horder d fd agent htaken (by rw [hconn]; simp))
      · refine h.keep hheld ?_ hkick fun agent' _ =>
          hcoming agent' fun ⟨hs, hq, _⟩ => hsame ⟨hs, hq⟩
        by_cases hs : g = s
        · subst hs
          rw [hagents, Function.update_of_ne fun hq => hsame ⟨rfl, hq⟩]
        · rw [hother g hs]
  | offline fd q agent key hconn hagents =>
    cases hinput with
    | external _ _ hext => cases hext
    | sureAgent d _ _ _ _ htaken =>
      refine h.keep hheld ?_ ?_ fun agent' _ hold => ?_
      · by_cases hs : g = s
        · rw [hs, hagents]
        · rw [hother g hs]
      · refine kickSent_iff hposts (fun pkt hpkt hkicks => ?_) hpkts
        rw [htaken, Option.some.injEq] at hpkt
        rw [← hpkt] at hkicks
        exact hkicks
      · -- the login ends with a `reqkick` of its player
        refine hold.step hposts (fun pkt hpkt hbrings => ?_) fun c _ => hreq c
        rw [htaken, Option.some.injEq] at hpkt
        rw [← hpkt] at hbrings
        obtain ⟨rfl, rfl, rfl⟩ := hbrings
        obtain ⟨session, hsent⟩ := hreqkick _ _ _ (List.mem_singleton.mpr rfl)
        refine ⟨.reqkick s session q Gateway.offlineReason, ?_, rfl⟩
        rw [hposts.wire]
        exact List.mem_append_right _ hsent
  | kicked q _ hagents =>
    have hkicked : ∃ pkt, taken w e = some pkt ∧ Kicks s q pkt := by
      cases hinput with
      | external _ _ hext => cases hext
      | kick _ htaken => exact ⟨_, htaken, rfl, rfl⟩
      | callKick k _ htaken => exact ⟨_, htaken, rfl, rfl⟩
    obtain ⟨pkt, htaken, hkicks⟩ := hkicked
    have hcoming : ∀ agent, Coming w g p agent → Coming w' g p agent := by
      intro agent hold
      refine hold.step hposts (fun pkt' hpkt' hbrings => ?_) fun c _ => hreq c
      rw [htaken, Option.some.injEq] at hpkt'
      subst hpkt'
      cases pkt <;> first | exact hkicks.elim | exact hbrings.elim
    by_cases hsame : g = s ∧ p = q
    · obtain ⟨rfl, rfl⟩ := hsame
      have hnone : agentOf (w'.gates g) p = none := by rw [hagents, Function.update_self]
      have hsent : KickSent w g p := ⟨pkt, mem_wire.mpr (Or.inl htaken), hkicks⟩
      exact h.dropped hheld hnone hsent hcoming
    · refine h.keep hheld ?_ ?_ fun agent _ => hcoming agent
      · by_cases hs : g = s
        · subst hs
          rw [hagents, Function.update_of_ne fun hq => hsame ⟨rfl, hq⟩]
        · rw [hother g hs]
      · refine kickSent_iff hposts (fun pkt' hpkt' hkicks' => ?_) hpkts
        rw [htaken, Option.some.injEq] at hpkt'
        subst hpkt'
        cases pkt with
        | kick => exact hsame ⟨hkicks'.1.symm.trans hkicks.1, hkicks'.2.symm.trans hkicks.2⟩
        | callKick => exact hsame ⟨hkicks'.1.symm.trans hkicks.1, hkicks'.2.symm.trans hkicks.2⟩
        | _ => exact hkicks
  | same _ _ hagents hsure hnotKick =>
    have hother' : ∀ pkt, taken w e = some pkt → (∀ q s', ¬ Kicks s' q pkt) ∧
        ∀ agent, ¬ Brings w g p agent pkt := by
      intro pkt hpkt
      cases hinput with
      | external _ he _ =>
        rw [he] at hpkt
        cases hpkt
      | sureAgent => exact absurd rfl (hsure _ _ _ _)
      | kick => exact absurd rfl (hnotKick _)
      | callKick => exact absurd rfl (hnotKick _)
      | sendByFd _ _ _ htaken =>
        cases htaken.symm.trans hpkt
        exact ⟨fun _ _ h => h, fun _ h => h⟩
      | send _ _ _ htaken =>
        cases htaken.symm.trans hpkt
        exact ⟨fun _ _ h => h, fun _ h => h⟩
      | returned _ _ _ _ htaken =>
        cases htaken.symm.trans hpkt
        exact ⟨fun _ _ h => h, fun _ h => h⟩
    refine h.keep hheld ?_ ?_ fun agent _ hold => ?_
    · by_cases hs : g = s
      · rw [hs, hagents]
      · rw [hother g hs]
    · exact kickSent_iff hposts (fun pkt hpkt => (hother' pkt hpkt).1 p g) hpkts
    · exact hold.step hposts (fun pkt hpkt hbrings => absurd hbrings ((hother' pkt hpkt).2 agent))
        fun c _ => hreq c

/-- A handler of a login service goes on. -/
theorem login [LuaNumber Num] (h : Fits w g p) (hc : Calls w) {rows : List Bytes}
    {c : LoginCall Node} {t : Login.Task Num Addr} {response : Login.Response Addr}
    {next : Option (Login.Task Num Addr)} {outs : List (Login.Out Num Node Addr)}
    (hnotRaised : e ≠ .raiseLogin c.session) (hinput : LoginInput rows w e c.session response)
    (htask : w.logins.lookup c.session = some (c.login, t))
    (hresume : Login.Change c.login.node t response next outs) (hgates : w'.gates = w.gates)
    (hlogins : w'.logins = store w.logins c next) (hmanager : w'.manager = w.manager)
    (hposts : Posts w e (outs.flatMap (loginPackets c)) w') : Fits w' g p := by
  have hlookup : ∀ entry, w.logins.lookup c.session = some entry → entry.1 = c.login := by
    intro entry hentry
    rw [htask, Option.some.injEq] at hentry
    rw [← hentry]
  have hsame : ∀ d playerid gate, Requesting w d playerid gate → d.session = c.session →
      d = c ∧ ∃ fd, t = .requesting fd playerid gate := by
    rintro d playerid gate ⟨fd, hwaits⟩ hs
    rw [hs, htask, Option.some.injEq, Prod.mk.injEq] at hwaits
    refine ⟨?_, fd, hwaits.2⟩
    cases c
    cases d
    simp_all
  refine h.keep (by rw [hmanager]) (by rw [hgates]) (kickSent_iff hposts ?_ ?_) ?_
  · intro pkt hpkt hkicks
    cases hinput with
    | answered _ _ htaken _ => cases htaken.symm.trans hpkt; exact hkicks
    | sured _ _ _ htaken _ => cases htaken.symm.trans hpkt; exact hkicks
    | query he => rw [he] at hpkt; cases hpkt
    | raised he => rw [he] at hpkt; cases hpkt
  · intro q hq hkicks
    have hsender := sender_login hq
    cases q with
    | kick => cases hsender
    | callKick => cases hsender
    | _ => exact hkicks
  · intro agent _ hold
    refine hold.step hposts ?_ ?_
    · -- the answer that grants the agent makes the login send its `sure_agent`
      intro pkt hpkt hbrings
      cases hinput with
      | answered d answer htaken hd =>
        cases htaken.symm.trans hpkt
        cases answer with
        | granted agent' =>
          obtain ⟨rfl, hnode, hwaits⟩ := hbrings
          obtain ⟨rfl, fd, rfl⟩ := hsame d _ _ hwaits hd
          cases hresume with
          | granted _ _ _ _ =>
            refine ⟨.sureAgent d g fd p agent', ?_, rfl, rfl, rfl⟩
            rw [hposts.wire]
            refine List.mem_append_right _ ?_
            simp [loginPackets, hnode]
          | denied _ _ _ _ hdenied => exact absurd rfl (hdenied agent' p rfl)
          | ignored _ _ hexpects => exact absurd trivial hexpects
        | _ => exact hbrings.elim
      | sured _ _ _ htaken _ =>
        cases htaken.symm.trans hpkt
        exact hbrings.elim
      | query he => rw [he] at hpkt; cases hpkt
      | raised he => rw [he] at hpkt; cases hpkt
    · intro d hleft hwaits
      by_cases hd : d = c
      · subst hd
        obtain ⟨_, fd, rfl⟩ := hsame d _ _ hwaits rfl
        have hignored : ¬ Login.Expects (.requesting fd (some p) g.addr : Login.Task Num Addr)
            response := by
          intro hexpects
          cases hinput with
          | answered d' answer htaken hd' =>
            obtain ⟨playerid, gate, hwaits'⟩ := hc.answered d' answer
              (mem_wire.mpr (Or.inl htaken))
            obtain ⟨rfl, _⟩ := hsame d' _ _ hwaits' hd'
            exact unique_taken hc.tokens.packets htaken rfl _ hleft rfl
          | sured => exact hexpects
          | query => exact hexpects
          | raised he => exact hnotRaised he
        cases hresume with
        | raised => exact absurd trivial hignored
        | granted => exact absurd trivial hignored
        | denied => exact absurd trivial hignored
        | ignored => exact ⟨fd, by rw [hlogins, lookup_store, if_pos rfl, Option.map_some]⟩
      · exact hwaits.store hd hlookup hlogins

/-- The agent manager goes on. -/
theorem mgr (h : Fits w g p) (hc : Calls w) (hi : Issues w)
    {ev : AgentMgr.Event Num Node Addr (Caller Node Addr)}
    {outs : List (AgentMgr.Out Num Node Addr (Caller Node Addr))} (hinput : MgrInput w e ev)
    (hstep : AgentMgr.Step w.manager.mgr (ev, outs) w'.manager.mgr) (hgates : w'.gates = w.gates)
    (hlogins : w'.logins = w.logins) (hposts : Posts w e (outs.flatMap mgrPackets) w') :
    Fits w' g p := by
  have hagents : agentOf (w'.gates g) p = agentOf (w.gates g) p := by rw [hgates]
  have hreq : ∀ c, Requesting w c (some p) g.addr → Requesting w' c (some p) g.addr := by
    rintro c ⟨fd, hwaits⟩
    exact ⟨fd, by rw [hlogins, hwaits]⟩
  have htaken : ∀ pkt, taken w e = some pkt → ¬ Kicks g p pkt ∧
      ∀ agent, Brings w g p agent pkt → ∃ caller reason, ev = .reqkick caller p reason := by
    intro pkt hpkt
    cases hinput with
    | reqlogin c _ _ hgone =>
      cases hgone.symm.trans hpkt
      exact ⟨fun h => h, fun _ h => h.elim⟩
    | reqkick s session q reason hgone =>
      cases hgone.symm.trans hpkt
      exact ⟨fun h => h, fun _ hq => ⟨_, reason, by rw [show q = p from hq]⟩⟩
    | shutdown _ _ he => rw [he] at hpkt; cases hpkt
    | wake _ he => rw [he] at hpkt; cases hpkt
    | raised _ he => rw [he] at hpkt; cases hpkt
    | kicked _ _ _ hgone => cases hgone.symm.trans hpkt; exact ⟨fun h => h, fun _ h => h.elim⟩
    | agentKicked _ _ _ hgone => cases hgone.symm.trans hpkt; exact ⟨fun h => h, fun _ h => h.elim⟩
    | launched _ _ _ _ hgone => cases hgone.symm.trans hpkt; exact ⟨fun h => h, fun _ h => h.elim⟩
  have hkeptKick : KickSent w g p → KickSent w' g p := by
    rintro ⟨q, hq, hkicks⟩
    rcases mem_wire.mp hq with hgone | hleft
    · exact absurd hkicks (htaken q hgone).1
    · exact ⟨q, by rw [hposts.wire]; exact List.mem_append_left _ hleft, hkicks⟩
  have hkick : (∀ o ∈ outs, o.gateKick ≠ some (g.node, g.addr, p)) →
      (KickSent w' g p ↔ KickSent w g p) := by
    intro hnone
    refine kickSent_iff hposts (fun pkt hpkt => (htaken pkt hpkt).1) fun q hq hkicks => ?_
    obtain ⟨o, ho, heq⟩ := kick_sent hq hkicks
    exact hnone o ho heq
  have hkeep : held w'.manager.mgr p = held w.manager.mgr p →
      (∀ o ∈ outs, o.gateKick ≠ some (g.node, g.addr, p)) →
      (∀ caller reason, ev = .reqkick caller p reason → ∀ agent, ¬ Game w g p agent) →
      Fits w' g p := by
    intro hheld hnone hnotGame
    refine h.keep hheld hagents (hkick hnone) fun agent hgame hold => ?_
    refine hold.step hposts (fun pkt hpkt hbrings => ?_) fun c _ => hreq c
    obtain ⟨caller, reason, hev⟩ := (htaken pkt hpkt).2 agent hbrings
    exact absurd hgame (hnotGame caller reason hev agent)
  have hmoved := AgentMgr.moved_step hc.locks hstep
  dsimp only at hmoved
  cases hmoved with
  | same _ _ hsame hnot hgate =>
    refine hkeep (congrFun hsame p) (fun o ho => by rw [hgate o ho]; simp) ?_
    intro caller reason hev agent hgame
    exact hnot caller p reason _ hev hgame rfl
  | registered caller q node gate hnone hupdate =>
    by_cases hpq : p = q
    · subst hpq
      have hheld : held w'.manager.mgr p = some ⟨p, node, none, .login, gate⟩ := by
        rw [hupdate, Function.update_self]
      refine h.out hagents hkeptKick (fun agent hgame => ?_) ?_
      · cases hheld.symm.trans hgame
      · rintro agent (hgame | hleaving)
        · cases hnone.symm.trans hgame
        · cases hnone.symm.trans hleaving
    · exact hkeep (by rw [hupdate, Function.update_of_ne hpq]) (by simp [AgentMgr.Out.gateKick])
        (by simp)
  | marked _ k q mp hq hgame hupdate hnot _ =>
    by_cases hpq : p = q
    · subst hpq
      have hheld : held w'.manager.mgr p = some { mp with status := .logout } := by
        rw [hupdate, Function.update_self]
      refine h.out hagents hkeptKick (fun agent hgame' => ?_) ?_
      · cases congrArg AgentMgr.MgrPlayer.status (Option.some.inj (hheld.symm.trans hgame'))
      · rintro agent (hold | hleaving)
        · rw [Option.some.inj (hq.symm.trans hold)] at hheld
          exact Or.inl hheld
        · rw [Option.some.inj (hq.symm.trans hleaving)] at hgame
          cases hgame
    · refine hkeep (by rw [hupdate, Function.update_of_ne hpq]) (by simp [AgentMgr.Out.gateKick]) ?_
      intro caller reason hev
      exact absurd (hnot caller p reason hev) hpq
  | granted k value caller q node gate r htask hq hended hupdate =>
    by_cases hpq : p = q
    · subst hpq
      have hheld : held w'.manager.mgr p = some ⟨p, node, value, .game, gate⟩ := by
        rw [hupdate, Function.update_self]
      have hissued := hi.launched_fresh hinput htask
      refine ⟨fun agent hagent => ?_, fun agent hgame => ?_, fun agent hgame hagent => ?_⟩
      · rw [hagents] at hagent
        rcases h.left agent hagent with hold | hleaving | hsent
        · cases hq.symm.trans hold
        · cases hq.symm.trans hleaving
        · exact Or.inr (Or.inr (hkeptKick hsent))
      · have heq := Option.some.inj (hheld.symm.trans hgame)
        simp only [AgentMgr.MgrPlayer.mk.injEq, true_and] at heq
        obtain ⟨rfl, rfl, rfl⟩ := heq
        obtain ⟨c, gate', rfl, hnode, hwaits, hrecord⟩ := hc.spawning k _ p g.node r htask
        cases hq.symm.trans hrecord
        refine Or.inr ⟨.answered c (.granted value), ?_, rfl, hnode, hreq c hwaits⟩
        rw [hposts.wire]
        exact List.mem_append_right _ (by simp [mgrPackets])
      · have heq := Option.some.inj (hheld.symm.trans hgame)
        simp only [AgentMgr.MgrPlayer.mk.injEq, true_and] at heq
        obtain ⟨rfl, rfl, rfl⟩ := heq
        rw [hagents] at hagent
        exact absurd (hi.bound g p value hagent) hissued
    · exact hkeep (by rw [hupdate, Function.update_of_ne hpq]) (by simp [AgentMgr.Out.gateKick])
        (by simp)
  | removed k value caller q pnode agent pgate hq hupdate =>
    by_cases hpq : p = q
    · subst hpq
      have hheld : held w'.manager.mgr p = none := by rw [hupdate, Function.update_self]
      refine h.out hagents hkeptKick (fun agent' hgame => ?_) ?_
      · cases hheld.symm.trans hgame
      · rintro agent' (hold | hleaving)
        · cases hq.symm.trans hold
        · have heq := Option.some.inj (hq.symm.trans hleaving)
          simp only [AgentMgr.MgrPlayer.mk.injEq, true_and] at heq
          obtain ⟨rfl, _, rfl⟩ := heq
          refine Or.inr ⟨.kick g p, ?_, rfl, rfl⟩
          rw [hposts.wire]
          exact List.mem_append_right _ (by simp [mgrPackets])
    · refine hkeep (by rw [hupdate, Function.update_of_ne hpq]) ?_ (by simp)
      intro o ho heq
      rcases List.mem_append.mp ho with hsent | hsent
      · simp only [List.mem_cons, List.not_mem_nil, or_false] at hsent
        rcases hsent with rfl | rfl
        · cases heq
        · simp only [AgentMgr.Out.gateKick, Option.some.injEq, Prod.mk.injEq] at heq
          exact hpq heq.2.2.symm
      · obtain ⟨d, _, rfl⟩ := List.mem_map.mp hsent
        cases heq

end Fits

variable [DecidableEq Num]

section Order

/-- A `sure_agent` that finds its connection comes in order: the record is in the game as it
was granted and no kick is under way, or the kick of that session is still to come. -/
def InOrder (w : World Num Node Addr) (l : Label Num Node Addr) : Prop :=
  match taken w l.1 with
  | some (.sureAgent _ g fd p agent) => (w.gates g).conns fd ≠ none →
      (Game w g p agent ∧ ¬ KickSent w g p) ∨ Leaving w g p agent ∨
        (KickSent w g p ∧ ¬ Game w g p agent)
  | _ => True

instance InOrder.decidable [DecidableEq Node] [DecidableEq Addr] (w : World Num Node Addr)
    (l : Label Num Node Addr) : Decidable (InOrder w l) := by
  unfold InOrder Game Leaving KickSent
  split <;> infer_instance

/-- No message is in flight and no handler is suspended. -/
def Idle (w : World Num Node Addr) : Prop :=
  w.wire = [] ∧ w.jobs = [] ∧ w.waits.keys = [] ∧ w.logins.keys = [] ∧
    ∀ h, w.manager.mgr.tasks h = none

/-- Only handlers that have begun can be suspended. -/
theorem idle_of_started (hl : AgentMgr.Locks w.manager.mgr) (hwire : w.wire = [])
    (hjobs : w.jobs = []) (hwaits : w.waits.keys = []) (hlogins : w.logins.keys = [])
    (htasks : ∀ h < w.manager.mgr.taskCount, (w.manager.mgr.tasks h).isNone = true) : Idle w := by
  refine ⟨hwire, hjobs, hwaits, hlogins, fun h => ?_⟩
  cases hk : w.manager.mgr.tasks h with
  | none => rfl
  | some t =>
    have hnone := htasks h (hl.task_lt h t hk)
    rw [hk] at hnone
    cases hnone

/-- The agent manager has `p` in the game at the gateway `g` with this agent. -/
def Assigned (w : World Num Node Addr) (g : Site Node Addr) (p : Num) (agent : Option Addr) :
    Prop :=
  ∃ mp, held w.manager.mgr p = some mp ∧ mp.status = .game ∧ mp.node = g.node ∧
    mp.gate = g.addr ∧ mp.agent = agent

/-- The invariant: the calls and the agents are in order, a marked record has its handler,
and every player fits at every gateway. -/
structure Settled (w : World Num Node Addr) : Prop where
  calls : Calls w
  issues : Issues w
  leaving : ∀ p mp, held w.manager.mgr p = some mp → mp.status = .logout →
    Kicking w.manager.mgr p
  fits : ∀ g p, Fits w g p

end Order

namespace Settled

theorem init [LuaNumber Num] : Settled (init : World Num Node Addr) where
  calls := Calls.init
  issues := Issues.init
  leaving _ _ h := by cases h
  fits g p := ⟨(by rintro _ ⟨⟩), (by rintro _ ⟨⟩), (by rintro _ ⟨⟩)⟩

/-- The kick of an agent that has been granted does not raise. -/
theorem mgr_leaving (h : Settled w) {ev : AgentMgr.Event Num Node Addr (Caller Node Addr)}
    {outs : List (AgentMgr.Out Num Node Addr (Caller Node Addr))} (hinput : MgrInput w e ev)
    (hstep : AgentMgr.Step w.manager.mgr (ev, outs) w'.manager.mgr)
    (hreliable : Reliable w (e, pkts)) {p : Num} {mp : AgentMgr.MgrPlayer Num Node Addr}
    (hmp : held w'.manager.mgr p = some mp) (hlogout : mp.status = .logout) :
    Kicking w'.manager.mgr p := by
  have hkept : held w.manager.mgr p = some mp → Kicking w'.manager.mgr p := by
    intro hold
    rcases AgentMgr.kicking_step h.calls.locks hstep (h.leaving p mp hold hlogout) with
      hkicking | hnone | ⟨k, caller, r, pnode, pagent, pgate, hev, htask⟩
    · exact hkicking
    · cases hnone.symm.trans hmp
    · dsimp only at hev
      subst hev
      have hstored := h.calls.locks.holds k _ htask
      obtain ⟨addr, hagent, _⟩ := h.issues.recorded p _ hstored.held (by simp)
      dsimp only at hagent
      subst hagent
      cases hinput with
      | raised _ he =>
        subst he
        exact absurd (fun hnone => by cases hnone) (hreliable _ htask)
  have hmoved := AgentMgr.moved_step h.calls.locks hstep
  dsimp only at hmoved
  cases hmoved with
  | same _ _ hsame _ _ => exact hkept (by rw [← hmp, hsame])
  | registered caller q node gate hnone hupdate =>
    rw [hupdate] at hmp
    rcases entry_assigned hmp with ⟨_, rfl⟩ | ⟨_, hold⟩
    · cases hlogout
    · exact hkept hold
  | marked _ k q mp' hq hgame hupdate _ hkicking =>
    rw [hupdate] at hmp
    rcases entry_assigned hmp with ⟨rfl, _⟩ | ⟨_, hold⟩
    · exact hkicking
    · exact hkept hold
  | granted k value caller q node gate r htask hq hended hupdate =>
    rw [hupdate] at hmp
    rcases entry_assigned hmp with ⟨_, rfl⟩ | ⟨_, hold⟩
    · cases hlogout
    · exact hkept hold
  | removed k value caller q pnode agent pgate hq hupdate =>
    rw [hupdate] at hmp
    exact hkept (entry_erased hmp).2

/-- A step that changes no table and sends nothing that binds or kicks. -/
theorem fits_still (h : Settled w) (hgates : w'.gates = w.gates)
    (hmgr : w'.manager.mgr = w.manager.mgr) (hposts : Posts w e pkts w')
    (hreq : ∀ c p gate, Requesting w c (some p) gate → Requesting w' c (some p) gate)
    (htaken : ∀ pkt, taken w e = some pkt → ∀ g p, ¬ Kicks g p pkt ∧
      ∀ agent, ¬ Brings w g p agent pkt)
    (hpkts : ∀ q ∈ pkts, ∀ g p, ¬ Kicks g p q) (g : Site Node Addr) (p : Num) : Fits w' g p := by
  refine (h.fits g p).keep (by rw [hmgr]) (by rw [hgates]) ?_ fun agent _ hold => ?_
  · exact kickSent_iff hposts (fun pkt hpkt => (htaken pkt hpkt g p).1) fun q hq => hpkts q hq g p
  · exact hold.step hposts
      (fun pkt hpkt hbrings => absurd hbrings ((htaken pkt hpkt g p).2 agent))
      fun c _ => hreq c p g.addr

variable [DecidableEq Node] [DecidableEq Addr] [LuaNumber Num] {users : List (Num × Bytes)}

theorem leaving_step {l : Label Num Node Addr} (h : Settled w) (hstep : Step users w l w')
    (hreliable : Reliable w l) {p : Num} {mp : AgentMgr.MgrPlayer Num Node Addr}
    (hmp : held w'.manager.mgr p = some mp) (hlogout : mp.status = .logout) :
    Kicking w'.manager.mgr p := by
  have hsame : w'.manager.mgr = w.manager.mgr → Kicking w'.manager.mgr p := by
    intro hmgr
    rw [hmgr] at hmp ⊢
    exact h.leaving p mp hmp hlogout
  have hchange := step_change hstep
  obtain ⟨e, pkts⟩ := l
  dsimp only at hchange
  cases hchange
  case gate hmanager _ => exact hsame (by rw [hmanager])
  case started hmanager _ _ => exact hsame (by rw [hmanager])
  case login hmanager _ => exact hsame (by rw [hmanager])
  case mgr ev hinput henabled _ _ hmanager _ =>
    have hmgr : AgentMgr.Step w.manager.mgr (ev, (AgentMgr.next w.manager.mgr ev).2)
        w'.manager.mgr := ⟨henabled, by rw [hmanager]⟩
    exact h.mgr_leaving hinput hmgr hreliable hmp hlogout
  case spawn hmanager _ => exact hsame (by rw [hmanager, AgentMgr.World.spawn_mgr])
  case failed hmanager _ => exact hsame (by rw [hmanager])
  case quiet hmanager _ _ => exact hsame (by rw [hmanager])

theorem fits_step {l : Label Num Node Addr} (h : Settled w) (hstep : Step users w l w')
    (hreliable : Reliable w l) (horder : InOrder w l) (g : Site Node Addr) (p : Num) :
    Fits w' g p := by
  have hchange := step_change hstep
  obtain ⟨e, pkts⟩ := l
  dsimp only at hchange
  cases hchange
  case gate s ev back tail hinput henabled htail hgates hlogins hmanager hposts =>
    have hsite : Gateway.Step (w.gates s) (ev, (Gateway.handle (w.gates s) ev).outs)
        (w'.gates s) := ⟨henabled, by rw [hgates, Function.update_self]; rfl⟩
    refine (h.fits g p).gate hinput (Gateway.assigns_step (h.issues.shape s) hsite)
      (fun k hk => by rw [hgates, Function.update_of_ne hk]) hlogins hmanager hposts ?_ ?_ ?_
    · intro q hq hkicks
      rcases List.mem_append.mp hq with hsent | hsent
      · have hsender := sender_gate hsent
        cases q with
        | kick => cases hsender
        | callKick => cases hsender
        | _ => exact hkicks
      · rcases htail with rfl | ⟨k, rfl⟩
        · cases hsent
        · rw [List.mem_singleton.mp hsent] at hkicks
          exact hkicks
    · intro q reason waiting hout
      refine ⟨w.sessions, List.mem_append_left _ (List.mem_flatMap.mpr ⟨_, hout, ?_⟩)⟩
      simp [gatePackets]
    · intro c fd agent htaken hconn
      simp only [InOrder, htaken] at horder
      exact horder hconn
  case started s loginid fd cmd msg htaken hgates hlogins hmanager _ hposts =>
    have hfresh : w.logins.lookup w.sessions = none := by
      by_contra hsome
      exact Nat.lt_irrefl _ (h.calls.session_lt w.sessions hsome)
    refine h.fits_still hgates (by rw [hmanager]) hposts ?_ ?_ (by simp) g p
    · intro c q gate hwaits
      refine hwaits.store (c := ⟨⟨s.node, loginid⟩, w.sessions⟩) ?_ (by simp [hfresh]) hlogins
      rintro rfl
      obtain ⟨_, hlookup⟩ := hwaits
      rw [hfresh] at hlookup
      cases hlookup
    · intro pkt hpkt k q
      cases htaken.symm.trans hpkt
      exact ⟨fun h => h, fun _ h => h⟩
  case login c t response next outs hinput htask hresume hgates hlogins hmanager hposts =>
    refine (h.fits g p).login h.calls ?_ hinput htask hresume hgates hlogins hmanager hposts
    rintro rfl
    exact hreliable
  case mgr ev hinput henabled hgates hlogins hmanager hposts =>
    exact (h.fits g p).mgr h.calls h.issues hinput ⟨henabled, by rw [hmanager]⟩ hgates hlogins
      hposts
  case spawn i node k addr he _ hgates hlogins hmanager hposts =>
    refine h.fits_still hgates (by rw [hmanager, AgentMgr.World.spawn_mgr]) hposts ?_ ?_ ?_ g p
    · rintro c q gate ⟨fd, hwaits⟩
      exact ⟨fd, by rw [hlogins, hwaits]⟩
    · intro pkt hpkt
      rw [he] at hpkt
      cases hpkt
    · intro q hq k' p' hkicks
      rw [List.mem_singleton.mp hq] at hkicks
      exact hkicks
  case failed i _ _ he _ _ _ _ =>
    subst he
    exact hreliable.elim
  case quiet htaken hgates hlogins hmanager hpkts hposts =>
    refine h.fits_still hgates (by rw [hmanager]) hposts ?_ ?_ ?_ g p
    · rintro c q gate ⟨fd, hwaits⟩
      exact ⟨fd, by rw [hlogins, hwaits]⟩
    · intro pkt hpkt k q
      have hinert := htaken pkt hpkt
      cases pkt with
      | answered c answer =>
        refine ⟨fun h => h, fun agent hbrings => ?_⟩
        cases answer with
        | granted =>
          obtain ⟨_, _, fd, hlookup⟩ := hbrings
          cases hinert.symm.trans hlookup
        | _ => exact hbrings
      | sureAgent => exact hinert.elim
      | reqkick => exact hinert.elim
      | kick => exact hinert.elim
      | callKick => exact hinert.elim
      | _ => exact ⟨fun h => h, fun _ h => h⟩
    · intro q hq k p' hkicks
      cases hpkts q hq <;> exact hkicks

theorem step {l : Label Num Node Addr} (h : Settled w) (hstep : Step users w l w')
    (hreliable : Reliable w l) (horder : InOrder w l) : Settled w' where
  calls := h.calls.step hstep hreliable
  issues := h.issues.step h.calls hstep hreliable
  leaving _ _ := h.leaving_step hstep hreliable
  fits := h.fits_step hstep hreliable horder

end Settled

variable [DecidableEq Node] [DecidableEq Addr] [LuaNumber Num] {users : List (Num × Bytes)}

/-- When the system is idle, a player is in the table of a gateway exactly if his record is
in the game there, with the same agent. -/
theorem idle_agreement {ls : List (Label Num Node Addr)} (hrun :
      Run (Guarded (Step users) fun w l => Reliable w l ∧ InOrder w l) System.init ls w)
    (hidle : Idle w) (g : Site Node Addr) (p : Num) (agent : Option Addr) :
    agentOf (w.gates g) p = some agent ↔ Assigned w g p agent := by
  have h : Settled w := Run.invariant (I := Settled)
    (fun u l v hu hstep => hu.step hstep.1 hstep.2.1 hstep.2.2) Settled.init hrun
  obtain ⟨hwire, _, _, _, htasks⟩ := hidle
  have hnoKick : ¬ KickSent w g p := by
    rintro ⟨q, hq, _⟩
    rw [hwire] at hq
    cases hq
  constructor
  · intro hagent
    rcases (h.fits g p).left agent hagent with hgame | hleaving | hsent
    · exact ⟨_, hgame, rfl, rfl, rfl, rfl⟩
    · obtain ⟨k, caller, r, pnode, pagent, pgate, hk⟩ := h.leaving p _ hleaving rfl
      rw [htasks k] at hk
      cases hk
    · exact absurd hsent hnoKick
  · rintro ⟨⟨pid, node, agent', status, gate⟩, hheld, rfl, rfl, rfl, rfl⟩
    have hid : pid = p := by
      obtain ⟨r, hlookup, hheap⟩ := AgentMgr.held_eq_some.mp hheld
      obtain ⟨mp, hheap', hmp⟩ := h.calls.locks.stored p r hlookup
      cases hheap.symm.trans hheap'
      exact hmp
    subst hid
    rcases (h.fits g pid).joined agent' hheld with hagent | ⟨q, hq, _⟩
    · exact hagent
    · rw [hwire] at hq
      cases hq

def onePassword : List (ℕ × Bytes) := [(1, bytes "pw")]

/-- A login that goes through, with the answers that follow the binding. -/
def loggedIn : World ℕ ℕ ℕ :=
  exec (World.next onePassword) System.init
    (loginWith (bytes "login,7,pw") ++ [.deliver 0 31, .deliver 0 0, .deliver 0 0])

theorem idle_agreement_logged_in :
    agentOf (loggedIn.gates gate1) 7 = some (some 100) ∧ Assigned loggedIn gate1 7 (some 100) := by
  have hrun : Run (Guarded (Step onePassword) fun w l => Reliable w l ∧ InOrder w l) System.init _
      loggedIn := run_exec_guarded (by decide)
  have hcalls : Calls loggedIn := Run.invariant (I := Calls)
    (fun u l v hu hstep => hu.step hstep.1 hstep.2.1) Calls.init hrun
  have hidle : Idle loggedIn := idle_of_started hcalls.locks (by decide) (by decide) (by decide)
    (by decide) (by decide)
  have hagent : agentOf (loggedIn.gates gate1) 7 = some (some 100) := by decide
  exact ⟨hagent, (idle_agreement hrun hidle gate1 7 (some 100)).mp hagent⟩

/-- An operator's `shutdown` kicks the player while his login is about to bind him: the kick
arrives at the gateway before the `sure_agent`. -/
def overtaken : World ℕ ℕ ℕ :=
  exec (World.next onePassword) System.init
    [.gate gate1 (.connect 1), .gate gate1 (.line 1 (bytes "login,7,pw") 1), .deliver 0 0,
      .query 0, .deliver 0 0, .deliver 0 0, .spawn 0 100, .deliver 0 0, .shutdown 1 [7], .wake 2,
      .deliver 1 0, .kicked 0, .deliver 1 0, .deliver 1 0, .deliver 1 0, .wake 1, .deliver 0 0,
      .deliver 0 31, .deliver 0 0, .deliver 0 0]

theorem idle_disagreement :
    ¬ ∀ (ls : List (Label ℕ ℕ ℕ)) (w : World ℕ ℕ ℕ),
      Run (Guarded (Step onePassword) Reliable) System.init ls w → Idle w →
        ∀ g p agent, agentOf (w.gates g) p = some agent ↔ Assigned w g p agent := by
  intro h
  have hrun : Run (Guarded (Step onePassword) Reliable) System.init _ overtaken :=
    run_exec_guarded (by decide)
  have hcalls : Calls overtaken := Run.invariant (I := Calls)
    (fun u l v hu hstep => hu.step hstep.1 hstep.2) Calls.init hrun
  have hidle : Idle overtaken := idle_of_started hcalls.locks (by decide) (by decide) (by decide)
    (by decide) (by decide)
  have hagent : agentOf (overtaken.gates gate1) 7 = some (some 100) := by decide
  obtain ⟨mp, hheld, _⟩ := (h _ _ hrun hidle gate1 7 (some 100)).mp hagent
  have hnone : held overtaken.manager.mgr 7 = none := by decide
  cases hnone.symm.trans hheld

end Ue4Background.System
