import Mathlib.Data.List.Perm.Basic

/-!
Packets in flight. The wire is one list, oldest packet first; packets of one channel are
delivered in that order and packets of different channels in any order. A delivery takes
one packet out of the list and leaves the others, so facts about the wire are facts about
its members, and about the tokens that its members carry.
-/

namespace Ue4Background.Wire

variable {P T : Type*}

variable {wire : List P} {i : ℕ} {pkt : P}

theorem perm_eraseIdx (h : wire[i]? = some pkt) : (pkt :: wire.eraseIdx i).Perm wire := by
  obtain ⟨hlt, rfl⟩ := List.getElem?_eq_some_iff.mp h
  exact List.getElem_cons_eraseIdx_perm hlt

theorem mem_delivered (h : wire[i]? = some pkt) {q : P} :
    q ∈ wire ↔ q = pkt ∨ q ∈ wire.eraseIdx i := by
  rw [← (perm_eraseIdx h).mem_iff, List.mem_cons]

/-- No token is carried by two packets of the wire. -/
def Unique (token : P → Option T) (wire : List P) : Prop := (wire.filterMap token).Nodup

theorem Unique.erase {token : P → Option T} (hu : Unique token wire) (i : ℕ) :
    Unique token (wire.eraseIdx i) :=
  ((List.eraseIdx_sublist wire i).filterMap token).nodup hu

/-- Nobody else carries the token of a delivered packet. -/
theorem Unique.delivered {token : P → Option T} (hu : Unique token wire)
    (h : wire[i]? = some pkt) {c : T} (hc : token pkt = some c) :
    ∀ q ∈ wire.eraseIdx i, token q ≠ some c := by
  have hperm := ((perm_eraseIdx h).filterMap token).nodup_iff.mpr hu
  rw [List.filterMap_cons_some hc, List.nodup_cons] at hperm
  intro q hq hqc
  exact hperm.1 (List.mem_filterMap.mpr ⟨q, hq, hqc⟩)

/-- Packets with no token of the wire may join it. -/
theorem Unique.append {token : P → Option T} (hu : Unique token wire) {pkts : List P}
    (hpkts : Unique token pkts)
    (hfresh : ∀ q ∈ pkts, ∀ c, token q = some c → ∀ q' ∈ wire, token q' ≠ some c) :
    Unique token (wire ++ pkts) := by
  unfold Unique
  rw [List.filterMap_append, List.nodup_append]
  refine ⟨hu, hpkts, ?_⟩
  intro c hc d hd heq
  subst heq
  obtain ⟨q', hq', hqc'⟩ := List.mem_filterMap.mp hc
  obtain ⟨q, hq, hqc⟩ := List.mem_filterMap.mp hd
  exact hfresh q hq c hqc q' hq' hqc'

end Ue4Background.Wire
