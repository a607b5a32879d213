import Ue4Background.Cutting
import Ue4Background.Transition

/-!
The buffer of a socket (`lua-socket.c`). What arrives is kept in nodes as it came; reading goes
over their borders. A read of a number of bytes, of a line or of everything answers as it would on
the bytes of all nodes in a row, so it does not depend on how they arrived.
-/

namespace Ue4Background.Socket

open LuaValues Transition

/-- The nodes from the head on; the first `offset` bytes of the head are read already. -/
structure SocketBuffer where
  size : ℕ
  offset : ℕ
  nodes : List Bytes

/-- The loop of `pop_lstring`; it fails where the next node is asserted. -/
def popLoop : List Bytes → ℕ → ℕ → ℕ → Bytes → Option (Bytes × List Bytes × ℕ)
  | [], _, _, _, _ => none
  | current :: rest, offset, sz, skip, b =>
    let bytes := current.length - offset
    if bytes ≥ sz then
      let b := if sz > skip then b ++ (current.drop offset).take (sz - skip) else b
      if bytes = sz then some (b, rest, 0) else some (b, current :: rest, offset + sz)
    else
      let realSz := sz - skip
      let b := if realSz > 0 then
          b ++ (current.drop offset).take (if realSz < bytes then realSz else bytes)
        else b
      if sz - bytes = 0 then some (b, rest, 0) else popLoop rest 0 (sz - bytes) skip b

/-- `pop_lstring`: the next `sz` bytes without the last `skip`. -/
def popLstring (nodes : List Bytes) (offset sz skip : ℕ) : Option (Bytes × List Bytes × ℕ) :=
  match nodes with
  | [] => none
  | current :: rest =>
    if sz < current.length - offset then
      some ((current.drop offset).take (sz - skip), current :: rest, offset + sz)
    else if sz = current.length - offset then
      some ((current.drop offset).take (sz - skip), rest, 0)
    else popLoop (current :: rest) offset sz skip []

/-- `check_sep`; it fails where it would follow the `next` of the last node. -/
def checkSep : List Bytes → ℕ → Bytes → Option Bool
  | [], _, _ => none
  | node :: rest, start, sep =>
    let sz := node.length - start
    if sz ≥ sep.length then some ((node.drop start).take sep.length = sep)
    else if sz > 0 ∧ (node.drop start).take sz ≠ sep.take sz then some false
    else checkSep rest 0 (sep.drop sz)

/-- The loop of `lreadline` at index `i`, with the turns it has left. -/
def scan (sep : Bytes) : ℕ → List Bytes → ℕ → ℕ → Option (Option ℕ)
  | 0, _, _, _ => some none
  | _ + 1, [], _, _ => none
  | n + 1, current :: rest, start, i =>
    match checkSep (current :: rest) start sep with
    | none => none
    | some true => some (some i)
    | some false =>
      if start + 1 = current.length then
        match rest with
        | [] => some none
        | next :: rest => scan sep n (next :: rest) 0 (i + 1)
      else scan sep n (current :: rest) (start + 1) (i + 1)

namespace SocketBuffer

/-- `lnewbuffer`. -/
def new : SocketBuffer := ⟨0, 0, []⟩

/-- `lpushbuffer`. -/
def push (sb : SocketBuffer) (msg : Bytes) : SocketBuffer :=
  { sb with nodes := sb.nodes ++ [msg], size := sb.size + msg.length }

/-- `lpopbuffer`. -/
def popbuffer (sb : SocketBuffer) (sz : ℕ) : Option (Option Bytes × SocketBuffer) :=
  if sb.size < sz ∨ sz = 0 then some (none, sb)
  else (popLstring sb.nodes sb.offset sz 0).map fun r =>
    (some r.1, { nodes := r.2.1, offset := r.2.2, size := sb.size - sz })

/-- `lreadline` up to the separator it finds. -/
def findline (sb : SocketBuffer) (sep : Bytes) : Option (Option ℕ) :=
  match sb.nodes with
  | [] => some none
  | _ :: _ =>
    if sep.length ≤ sb.size then scan sep (sb.size - sep.length + 1) sb.nodes sb.offset 0
    else some none

/-- `lreadline` with a pool: the line without its separator. -/
def readline (sb : SocketBuffer) (sep : Bytes) : Option (Option Bytes × SocketBuffer) :=
  (sb.findline sep).bind fun found =>
    match found with
    | none => some (none, sb)
    | some i => (popLstring sb.nodes sb.offset (i + sep.length) sep.length).map fun r =>
      (some r.1, { nodes := r.2.1, offset := r.2.2, size := sb.size - (i + sep.length) })

/-- The loop of `lreadall`. -/
def collect : List Bytes → ℕ → Bytes → Bytes
  | [], _, b => b
  | current :: rest, offset, b => collect rest 0 (b ++ current.drop offset)

/-- `lreadall`. -/
def readall (sb : SocketBuffer) : Bytes × SocketBuffer :=
  (collect sb.nodes sb.offset [], new)

inductive Call
  | push (msg : Bytes)
  | popbuffer (sz : ℕ)
  | readline (sep : Bytes)
  | check (sep : Bytes)
  | readall

inductive Answer
  | size (n : ℕ)
  | popped (b : Option Bytes) (size : ℕ)
  | line (b : Option Bytes)
  | found (b : Bool)
  | all (b : Bytes)

/-- A call from Lua; `lreadline` without a pool only checks. -/
def call (sb : SocketBuffer) : Call → Option (SocketBuffer × Answer)
  | .push msg => some (sb.push msg, .size (sb.push msg).size)
  | .popbuffer sz => (sb.popbuffer sz).map fun r => (r.2, .popped r.1 r.2.size)
  | .readline sep => (sb.readline sep).map fun r => (r.2, .line r.1)
  | .check sep => (sb.findline sep).map fun found => (sb, .found found.isSome)
  | .readall => some (sb.readall.2, .all sb.readall.1)

/-- The bytes that are not read yet. -/
def view (sb : SocketBuffer) : Bytes := sb.nodes.flatten.drop sb.offset

end SocketBuffer

/-- A message has bytes, and so has a separator. -/
def SocketBuffer.Call.Proper : SocketBuffer.Call → Prop
  | .push msg => msg ≠ []
  | .readline sep => sep ≠ []
  | .check sep => sep ≠ []
  | _ => True

instance : DecidablePred SocketBuffer.Call.Proper
  | .push msg => inferInstanceAs (Decidable (msg ≠ []))
  | .readline sep => inferInstanceAs (Decidable (sep ≠ []))
  | .check sep => inferInstanceAs (Decidable (sep ≠ []))
  | .popbuffer _ => inferInstanceAs (Decidable True)
  | .readall => inferInstanceAs (Decidable True)

/-- The first `sz` bytes and what follows them. -/
def popped (s : Bytes) (sz : ℕ) : Option Bytes × Bytes :=
  if s.length < sz ∨ sz = 0 then (none, s) else (some (s.take sz), s.drop sz)

/-- The first line and what follows its separator. -/
def lined (sep s : Bytes) : Option Bytes × Bytes :=
  match cut sep s with
  | none => (none, s)
  | some (line, rest) => (some line, rest)

/-- The calls on the bytes themselves, in a row. -/
def stream (s : Bytes) : SocketBuffer.Call → Bytes × SocketBuffer.Answer
  | .push msg => (s ++ msg, .size (s ++ msg).length)
  | .popbuffer sz => ((popped s sz).2, .popped (popped s sz).1 (popped s sz).2.length)
  | .readline sep => ((lined sep s).2, .line (lined sep s).1)
  | .check sep => (s, .found (cut sep s).isSome)
  | .readall => ([], .all s)

/-- The nodes from the head on, none of them empty or read to its end. -/
def Cut : List Bytes → ℕ → Prop
  | [], offset => offset = 0
  | current :: rest, offset => offset < current.length ∧ ∀ n ∈ rest, n ≠ []

structure SocketBuffer.Kept (sb : SocketBuffer) : Prop where
  cut : Cut sb.nodes sb.offset
  size : sb.size = sb.view.length

theorem cut_rest {current : Bytes} {rest : List Bytes} {offset : ℕ}
    (h : Cut (current :: rest) offset) : Cut rest 0 := by
  cases rest with
  | nil => rfl
  | cons next rest =>
    refine ⟨?_, fun n hn => h.2 n (List.mem_cons_of_mem _ hn)⟩
    exact List.length_pos_of_ne_nil (h.2 next (List.mem_cons_self ..))

theorem drop_flatten {current : Bytes} {offset : ℕ} (rest : List Bytes)
    (h : offset ≤ current.length) :
    (current :: rest).flatten.drop offset = current.drop offset ++ rest.flatten := by
  rw [List.flatten_cons, List.drop_append_of_le_length h]

/-- The comparison goes on in the next node where the last ends. -/
theorem checkSep_eq {nodes : List Bytes} {start : ℕ} {sep : Bytes} (hcut : Cut nodes start)
    (hnodes : nodes ≠ []) (hlength : sep.length ≤ (nodes.flatten.drop start).length) :
    checkSep nodes start sep = some (decide (sep <+: nodes.flatten.drop start)) := by
  induction nodes generalizing start sep with
  | nil => exact absurd rfl hnodes
  | cons node rest ih =>
    have hstart := hcut.1
    rw [drop_flatten rest hstart.le] at hlength ⊢
    simp only [checkSep]
    have hsz : (node.drop start).length = node.length - start := List.length_drop ..
    by_cases hfits : sep.length ≤ node.length - start
    · rw [if_pos hfits]
      congr 1
      rw [decide_eq_decide, List.prefix_iff_eq_take, List.take_append_of_le_length (by omega),
        eq_comm]
    · rw [if_neg hfits, List.take_of_length_le hsz.le]
      have hsplit := List.take_append_drop (node.length - start) sep
      by_cases heq : node.drop start = sep.take (node.length - start)
      · have hrest : sep <+: node.drop start ++ rest.flatten ↔
            sep.drop (node.length - start) <+: rest.flatten := by
          conv_lhs => rw [← hsplit, heq]
          exact List.prefix_append_right_inj _
        rw [List.length_append, hsz] at hlength
        rw [if_neg fun h => h.2 heq, decide_eq_decide.2 hrest]
        refine ih (cut_rest hcut) ?_ ?_
        · rintro rfl
          rw [List.flatten_nil, List.length_nil] at hlength
          omega
        · rw [List.length_drop, List.drop_zero]
          omega
      · have hnot : ¬ sep <+: node.drop start ++ rest.flatten := by
          intro hprefix
          apply heq
          have htake := List.prefix_iff_eq_take.1 hprefix
          rw [htake, List.take_take, min_eq_left (by omega), List.take_left' hsz]
        rw [if_pos ⟨by omega, heq⟩, decide_eq_false hnot]

theorem cut_short {sep s : Bytes} (h : s.length < sep.length) : cut sep s = none := by
  cases hcut : cut sep s with
  | none => rfl
  | some r =>
    obtain ⟨a, rest⟩ := r
    have hspells := congrArg List.length (cut_spells hcut)
    rw [List.length_append, List.length_append] at hspells
    omega

/-- The turns are as many as the places where the separator still fits. -/
theorem scan_eq {sep : Bytes} (hsep : sep ≠ []) {n : ℕ} {nodes : List Bytes} {start i : ℕ}
    (hcut : Cut nodes start) (hn : n = (nodes.flatten.drop start).length + 1 - sep.length) :
    scan sep n nodes start i =
      some ((cut sep (nodes.flatten.drop start)).map fun r => i + r.1.length) := by
  have hpos := List.length_pos_of_ne_nil hsep
  induction n generalizing nodes start i with
  | zero =>
    rw [cut_short (by omega)]
    rfl
  | succ n ih =>
    obtain _ | ⟨current, rest⟩ := nodes
    · rw [List.flatten_nil, List.drop_nil, List.length_nil] at hn
      omega
    have hstart := hcut.1
    have hcheck : checkSep (current :: rest) start sep = _ :=
      checkSep_eq hcut (List.cons_ne_nil current rest) (by omega)
    have hview := drop_flatten rest hstart.le
    rw [List.drop_eq_getElem_cons hstart, List.cons_append] at hview
    rw [scan.eq_def]
    simp only [hcheck]
    rw [hview, cut]
    rw [hview, List.length_cons] at hn
    by_cases hprefix : sep <+: current[start] :: (current.drop (start + 1) ++ rest.flatten)
    · rw [if_pos hprefix, decide_eq_true hprefix]
      rfl
    · rw [if_neg hprefix, decide_eq_false hprefix]
      dsimp only
      rw [Option.map_map]
      have hlast : (fun r : Bytes × Bytes => i + r.1.length) ∘
          (fun r : Bytes × Bytes => (current[start] :: r.1, r.2)) =
            fun r : Bytes × Bytes => i + 1 + r.1.length := by
        funext r
        simp only [Function.comp_apply, List.length_cons]
        omega
      rw [hlast]
      by_cases hend : start + 1 = current.length
      · rw [if_pos hend, hend, List.drop_length, List.nil_append]
        obtain _ | ⟨next, rest⟩ := rest
        · rw [List.flatten_nil, cut, if_neg hsep]
          rfl
        · have hrest := ih (i := i + 1) (cut_rest hcut) (by
            rw [hend, List.drop_length, List.nil_append] at hn
            rw [List.drop_zero]
            omega)
          rwa [List.drop_zero] at hrest
      · rw [if_neg hend]
        have hnext : Cut (current :: rest) (start + 1) := ⟨by omega, hcut.2⟩
        have hdrop := drop_flatten rest hnext.1.le
        rw [← hdrop] at hn ⊢
        exact ih hnext (by omega)

/-- What is popped is a prefix of the bytes of the nodes in a row. -/
theorem popLoop_eq {nodes : List Bytes} {offset sz : ℕ} (skip : ℕ) (b : Bytes)
    (hcut : Cut nodes offset) (hsz : 0 < sz) (hlength : sz ≤ (nodes.flatten.drop offset).length) :
    ∃ nodes' offset', popLoop nodes offset sz skip b =
        some (b ++ (nodes.flatten.drop offset).take (sz - skip), nodes', offset') ∧
      Cut nodes' offset' ∧
      nodes'.flatten.drop offset' = (nodes.flatten.drop offset).drop sz := by
  induction nodes generalizing offset sz b with
  | nil =>
    rw [List.flatten_nil, List.drop_nil, List.length_nil] at hlength
    omega
  | cons current rest ih =>
    have hoffset := hcut.1
    have hbytes : (current.drop offset).length = current.length - offset := List.length_drop ..
    rw [drop_flatten rest hoffset.le] at hlength ⊢
    simp only [popLoop]
    by_cases hfits : sz ≤ current.length - offset
    · have htake : (current.drop offset ++ rest.flatten).take (sz - skip) =
          (current.drop offset).take (sz - skip) := List.take_append_of_le_length (by omega)
      have hb : (if sz > skip then b ++ (current.drop offset).take (sz - skip) else b) =
          b ++ (current.drop offset).take (sz - skip) := by
        split
        · rfl
        · rw [show sz - skip = 0 by omega, List.take_zero, List.append_nil]
      rw [if_pos hfits, hb, htake, List.drop_append_of_le_length (by omega), List.drop_drop]
      by_cases hend : current.length - offset = sz
      · refine ⟨rest, 0, by rw [if_pos hend], cut_rest hcut, ?_⟩
        rw [show offset + sz = current.length by omega, List.drop_length, List.drop_zero,
          List.nil_append]
      · refine ⟨current :: rest, offset + sz, by rw [if_neg hend], ⟨by omega, hcut.2⟩, ?_⟩
        exact drop_flatten rest (by omega)
    · have hb : (if sz - skip > 0 then b ++ (current.drop offset).take
            (if sz - skip < current.length - offset then sz - skip else current.length - offset)
          else b) = b ++ (current.drop offset).take (sz - skip) := by
        split
        · split
          · rfl
          · rw [List.take_of_length_le hbytes.le, List.take_of_length_le (by omega)]
        · rw [show sz - skip = 0 by omega, List.take_zero, List.append_nil]
      rw [if_neg hfits, hb, if_neg (by omega)]
      rw [List.length_append, hbytes] at hlength
      obtain ⟨nodes', offset', hpop, hcut', hrest⟩ :=
        ih (b ++ (current.drop offset).take (sz - skip)) (cut_rest hcut)
          (show 0 < sz - (current.length - offset) by omega) (by rw [List.drop_zero]; omega)
      refine ⟨nodes', offset', ?_, hcut', ?_⟩
      · rw [hpop, List.drop_zero, List.take_append, hbytes, List.append_assoc]
        rw [show sz - (current.length - offset) - skip = sz - skip - (current.length - offset) by
          omega]
      · rw [hrest, List.drop_zero, List.drop_append, hbytes,
          List.drop_of_length_le (show (current.drop offset).length ≤ sz by omega), List.nil_append]

theorem popLstring_eq {nodes : List Bytes} {offset sz : ℕ} (skip : ℕ) (hcut : Cut nodes offset)
    (hsz : 0 < sz) (hlength : sz ≤ (nodes.flatten.drop offset).length) :
    ∃ nodes' offset', popLstring nodes offset sz skip =
        some ((nodes.flatten.drop offset).take (sz - skip), nodes', offset') ∧
      Cut nodes' offset' ∧
      nodes'.flatten.drop offset' = (nodes.flatten.drop offset).drop sz := by
  obtain ⟨nodes', offset', hpop, hrest⟩ := popLoop_eq skip [] hcut hsz hlength
  refine ⟨nodes', offset', ?_, hrest⟩
  rw [← List.nil_append (List.take ..), ← hpop]
  obtain _ | ⟨current, rest⟩ := nodes
  · rfl
  · have hb : (if sz > skip then [] ++ (current.drop offset).take (sz - skip) else []) =
        (current.drop offset).take (sz - skip) := by
      split
      · rfl
      · rw [show sz - skip = 0 by omega, List.take_zero]
    simp only [popLstring, popLoop, hb]
    split
    · rw [if_pos (by omega), if_neg (by omega)]
    · split
      · rw [if_pos (by omega), if_pos (by omega)]
      · rfl

namespace SocketBuffer

variable {sb : SocketBuffer}

theorem new_kept : new.Kept := ⟨rfl, rfl⟩

theorem view_nil (h : sb.Kept) : sb.view = [] ↔ sb.nodes = [] := by
  obtain ⟨size, offset, nodes⟩ := sb
  obtain _ | ⟨current, rest⟩ := nodes
  · simp [view]
  · have hoffset : offset < current.length := h.cut.1
    have hne : current.drop offset ≠ [] := by
      rw [Ne, List.drop_eq_nil_iff]
      omega
    rw [view, drop_flatten rest hoffset.le, List.append_eq_nil_iff]
    exact iff_of_false (fun hnil => hne hnil.1) (List.cons_ne_nil current rest)

theorem push_spec (h : sb.Kept) {msg : Bytes} (hmsg : msg ≠ []) :
    (sb.push msg).Kept ∧ (sb.push msg).view = sb.view ++ msg := by
  have hview : (sb.push msg).view = sb.view ++ msg := by
    obtain ⟨size, offset, nodes⟩ := sb
    have hoffset : offset ≤ nodes.flatten.length := by
      obtain _ | ⟨current, rest⟩ := nodes
      · have hzero : offset = 0 := h.cut
        omega
      · have hcurrent : offset < current.length := h.cut.1
        rw [List.flatten_cons, List.length_append]
        omega
    rw [view, push, List.flatten_append, List.flatten_singleton,
      List.drop_append_of_le_length hoffset]
    rfl
  refine ⟨⟨?_, ?_⟩, hview⟩
  · obtain ⟨size, offset, nodes⟩ := sb
    obtain _ | ⟨current, rest⟩ := nodes
    · have hzero : offset = 0 := h.cut
      have hpos := List.length_pos_of_ne_nil hmsg
      refine ⟨?_, by simp⟩
      change offset < msg.length
      omega
    · have hcut : Cut (current :: rest) offset := h.cut
      refine ⟨hcut.1, fun n hn => ?_⟩
      rcases List.mem_append.mp hn with hrest | hlast
      · exact hcut.2 n hrest
      · rw [List.mem_singleton.mp hlast]
        exact hmsg
  · rw [hview, List.length_append, ← h.size]
    rfl

/-- Popping takes the first bytes of the view, wherever the borders of the nodes are. -/
theorem pop_spec (h : sb.Kept) {sz : ℕ} (skip : ℕ) (hsz : 0 < sz) (hlength : sz ≤ sb.view.length) :
    ∃ nodes offset, popLstring sb.nodes sb.offset sz skip =
        some (sb.view.take (sz - skip), nodes, offset) ∧
      (SocketBuffer.mk (sb.size - sz) offset nodes).Kept ∧
      (SocketBuffer.mk (sb.size - sz) offset nodes).view = sb.view.drop sz := by
  obtain ⟨nodes, offset, hpop, hcut, hview⟩ := popLstring_eq skip h.cut hsz hlength
  have hsize : sb.size - sz = (sb.view.drop sz).length := by
    rw [List.length_drop, h.size]
  refine ⟨nodes, offset, hpop, ⟨hcut, ?_⟩, hview⟩
  rw [hsize]
  exact congrArg List.length hview.symm

theorem findline_eq (h : sb.Kept) {sep : Bytes} (hsep : sep ≠ []) :
    sb.findline sep = some ((cut sep sb.view).map fun r => r.1.length) := by
  have hscan : scan sep (sb.view.length + 1 - sep.length) sb.nodes sb.offset 0 =
      some ((cut sep sb.view).map fun r => 0 + r.1.length) := scan_eq hsep h.cut rfl
  simp only [Nat.zero_add] at hscan
  by_cases hempty : sb.view = []
  · rw [findline, (view_nil h).1 hempty, hempty, cut, if_neg hsep]
    rfl
  · obtain ⟨current, rest, hnodes⟩ := List.exists_cons_of_ne_nil (mt (view_nil h).2 hempty)
    rw [findline, hnodes]
    dsimp only
    by_cases hfits : sep.length ≤ sb.size
    · have hturns : sb.size - sep.length + 1 = sb.view.length + 1 - sep.length := by
        rw [← h.size]
        omega
      rw [if_pos hfits, ← hnodes, hturns, hscan]
    · rw [if_neg hfits, cut_short (by rw [← h.size]; omega)]
      rfl

/-- The check never runs off the end, not even for an empty separator. -/
theorem findline_isSome (h : sb.Kept) (sep : Bytes) : (sb.findline sep).isSome := by
  by_cases hsep : sep = []
  · subst hsep
    rw [findline]
    cases sb.nodes with
    | nil => rfl
    | cons current rest =>
      dsimp only
      have hfits : ([] : Bytes).length ≤ sb.size := Nat.zero_le _
      have hcheck : checkSep (current :: rest) sb.offset [] = some true := by
        simp [checkSep]
      rw [if_pos hfits, scan.eq_def]
      simp only [hcheck]
      rfl
  · rw [findline_eq h hsep]
    rfl

theorem popbuffer_spec (h : sb.Kept) (sz : ℕ) :
    ∃ t, sb.popbuffer sz = some ((popped sb.view sz).1, t) ∧ t.Kept ∧
      t.view = (popped sb.view sz).2 := by
  rw [popped, ← h.size]
  by_cases hnone : sb.size < sz ∨ sz = 0
  · exact ⟨sb, by rw [popbuffer, if_pos hnone, if_pos hnone], h, by rw [if_pos hnone]⟩
  · have hlength : sz ≤ sb.view.length := by
      rw [← h.size]
      omega
    obtain ⟨nodes, offset, hpop, hkept, hview⟩ := pop_spec h 0 (by omega) hlength
    refine ⟨_, ?_, hkept, ?_⟩
    · rw [popbuffer, if_neg hnone, hpop, if_neg hnone]
      rfl
    · rw [hview, if_neg hnone]

/-- The separator is popped with the line and left out of the answer. -/
theorem readline_spec (h : sb.Kept) {sep : Bytes} (hsep : sep ≠ []) :
    ∃ t, sb.readline sep = some ((lined sep sb.view).1, t) ∧ t.Kept ∧
      t.view = (lined sep sb.view).2 := by
  have hfound := findline_eq h hsep
  cases hcut : cut sep sb.view with
  | none =>
    rw [hcut] at hfound
    refine ⟨sb, ?_, h, ?_⟩
    · rw [readline, hfound, lined, hcut]
      rfl
    · rw [lined, hcut]
  | some r =>
    obtain ⟨line, rest⟩ := r
    rw [hcut] at hfound
    have hspells := cut_spells hcut
    have hpos := List.length_pos_of_ne_nil hsep
    have hlength : line.length + sep.length ≤ sb.view.length := by
      rw [hspells, List.length_append, List.length_append]
      omega
    obtain ⟨nodes, offset, hpop, hkept, hview⟩ := pop_spec h sep.length (by omega) hlength
    have hline : sb.view.take (line.length + sep.length - sep.length) = line := by
      rw [Nat.add_sub_cancel, hspells, List.append_assoc, List.take_left]
    have hrest : sb.view.drop (line.length + sep.length) = rest := by
      rw [hspells, ← List.length_append, List.drop_left]
    rw [hline] at hpop
    rw [hrest] at hview
    refine ⟨_, ?_, hkept, ?_⟩
    · rw [readline, hfound]
      simp only [Option.map_some, Option.bind_some]
      rw [hpop, lined, hcut]
      rfl
    · rw [hview, lined, hcut]

theorem collect_eq {nodes : List Bytes} {offset : ℕ} (hcut : Cut nodes offset) (b : Bytes) :
    collect nodes offset b = b ++ nodes.flatten.drop offset := by
  induction nodes generalizing offset b with
  | nil => rw [collect, List.flatten_nil, List.drop_nil, List.append_nil]
  | cons current rest ih =>
    have hoffset := hcut.1
    rw [collect, ih (cut_rest hcut), drop_flatten rest hoffset.le, List.drop_zero,
      List.append_assoc]

theorem readall_spec (h : sb.Kept) : sb.readall = (sb.view, new) := by
  rw [readall, collect_eq h.cut]
  rfl

/-- Every call answers as it would on the bytes in a row. -/
theorem call_spec (h : sb.Kept) {c : Call} (hc : c.Proper) :
    ∃ t, sb.call c = some (t, (stream sb.view c).2) ∧ t.Kept ∧ t.view = (stream sb.view c).1 := by
  cases c with
  | push msg =>
    obtain ⟨hkept, hview⟩ := push_spec h hc
    refine ⟨_, ?_, hkept, hview⟩
    rw [call, hkept.size, hview]
    rfl
  | popbuffer sz =>
    obtain ⟨t, hpop, hkept, hview⟩ := popbuffer_spec h sz
    refine ⟨t, ?_, hkept, hview⟩
    rw [call, hpop, Option.map_some, hkept.size, hview]
    rfl
  | readline sep =>
    obtain ⟨t, hline, hkept, hview⟩ := readline_spec h hc
    refine ⟨t, ?_, hkept, hview⟩
    rw [call, hline]
    rfl
  | check sep =>
    refine ⟨sb, ?_, h, rfl⟩
    rw [call, findline_eq h hc, stream, Option.map_some, Option.isSome_map]
  | readall =>
    refine ⟨new, ?_, new_kept, rfl⟩
    rw [call, readall_spec h]
    rfl

end SocketBuffer

/-- A call and its answer. -/
def Serves (sb : SocketBuffer) (l : SocketBuffer.Call × SocketBuffer.Answer) (t : SocketBuffer) :
    Prop :=
  l.1.Proper ∧ sb.call l.1 = some (t, l.2)

def Streams (s : Bytes) (l : SocketBuffer.Call × SocketBuffer.Answer) (t : Bytes) : Prop :=
  stream s l.1 = (t, l.2)

theorem serves_streams {sb t : SocketBuffer} {l : SocketBuffer.Call × SocketBuffer.Answer}
    (h : sb.Kept) (hstep : Serves sb l t) : t.Kept ∧ Streams sb.view l t.view := by
  obtain ⟨u, hcall, hkept, hview⟩ := SocketBuffer.call_spec h hstep.1
  rw [hstep.2] at hcall
  simp only [Option.some.injEq, Prod.mk.injEq] at hcall
  obtain ⟨rfl, hanswer⟩ := hcall
  exact ⟨hkept, Prod.ext hview.symm hanswer.symm⟩

/-- The bytes that an answer took from the buffer, with the separator of a line. -/
def taken : SocketBuffer.Call × SocketBuffer.Answer → Bytes
  | (_, .popped (some b) _) => b
  | (.readline sep, .line (some b)) => b ++ sep
  | (_, .all b) => b
  | _ => []

def pushed : SocketBuffer.Call × SocketBuffer.Answer → Bytes
  | (.push msg, _) => msg
  | _ => []

theorem taken_popped (c : SocketBuffer.Call) (b : Option Bytes) (n : ℕ) :
    taken (c, .popped b n) = b.getD [] := by
  cases b <;> cases c <;> rfl

theorem taken_line (sep : Bytes) (b : Option Bytes) :
    taken (.readline sep, .line b) = (b.map (· ++ sep)).getD [] := by
  cases b <;> rfl

theorem popped_spells (s : Bytes) (sz : ℕ) :
    (popped s sz).1.getD [] ++ (popped s sz).2 = s := by
  rw [popped]
  split
  · rfl
  · exact List.take_append_drop sz s

theorem lined_spells (sep s : Bytes) :
    ((lined sep s).1.map (· ++ sep)).getD [] ++ (lined sep s).2 = s := by
  rw [lined]
  split
  · rfl
  · rename_i hcut
    exact (cut_spells hcut).symm

theorem streams_step {s t : Bytes} {l : SocketBuffer.Call × SocketBuffer.Answer}
    (h : Streams s l t) : taken l ++ t = s ++ pushed l := by
  obtain ⟨c, a⟩ := l
  have hstep : stream s c = (t, a) := h
  cases c with
  | push msg =>
    rw [stream, Prod.mk.injEq] at hstep
    obtain ⟨rfl, rfl⟩ := hstep
    rfl
  | popbuffer sz =>
    rw [stream, Prod.mk.injEq] at hstep
    obtain ⟨rfl, rfl⟩ := hstep
    rw [taken_popped, popped_spells]
    exact (List.append_nil s).symm
  | readline sep =>
    rw [stream, Prod.mk.injEq] at hstep
    obtain ⟨rfl, rfl⟩ := hstep
    rw [taken_line, lined_spells]
    exact (List.append_nil s).symm
  | check sep =>
    rw [stream, Prod.mk.injEq] at hstep
    obtain ⟨rfl, rfl⟩ := hstep
    exact (List.append_nil _).symm
  | readall =>
    rw [stream, Prod.mk.injEq] at hstep
    obtain ⟨rfl, rfl⟩ := hstep
    rfl

/-- No byte is lost, doubled or moved. -/
theorem streams_spell {ls : List (SocketBuffer.Call × SocketBuffer.Answer)} {s : Bytes}
    (hrun : Run Streams [] ls s) : ls.flatMap taken ++ s = ls.flatMap pushed := by
  have hspell : ([] ++ ls).flatMap taken ++ s = ([] ++ ls).flatMap pushed := by
    refine Run.invariant_history
      (I := fun hist s => hist.flatMap taken ++ s = hist.flatMap pushed) ?_ rfl hrun
    intro hist u l v hu hstep
    have hlast := streams_step hstep
    simp only [List.flatMap_append, List.flatMap_singleton]
    rw [List.append_assoc, hlast, ← List.append_assoc, hu]
  exact hspell

/-- The answers do not depend on how the bytes are cut into messages, and no call runs off the end
of the nodes. -/
theorem buffer_streams {ls : List (SocketBuffer.Call × SocketBuffer.Answer)} {sb : SocketBuffer}
    (hrun : Run Serves SocketBuffer.new ls sb) :
    Run Streams [] ls sb.view ∧ ls.flatMap taken ++ sb.view = ls.flatMap pushed ∧
      ∀ c : SocketBuffer.Call, c.Proper → (sb.call c).isSome := by
  have hrefine : sb.Kept ∧ Run Streams SocketBuffer.new.view ls sb.view :=
    hrun.refine (fun _ _ _ h => serves_streams h) SocketBuffer.new_kept
  obtain ⟨hkept, hstream⟩ := hrefine
  refine ⟨hstream, streams_spell hstream, fun c hc => ?_⟩
  obtain ⟨t, hcall, -⟩ := SocketBuffer.call_spec hkept hc
  rw [hcall]
  rfl

/-- A line that arrives in two messages, read as one. -/
theorem buffer_streams_split_line :
    Run Streams [] [(.push [104, 13], .size 2), (.push [10, 120], .size 4),
      (.readline [13, 10], .line (some [104]))] [120] := by
  have hpush : Serves SocketBuffer.new (.push [104, 13], .size 2) ⟨2, 0, [[104, 13]]⟩ :=
    ⟨by decide, rfl⟩
  have hmore : Serves ⟨2, 0, [[104, 13]]⟩ (.push [10, 120], .size 4)
      ⟨4, 0, [[104, 13], [10, 120]]⟩ := ⟨by decide, rfl⟩
  have hline : Serves ⟨4, 0, [[104, 13], [10, 120]]⟩ (.readline [13, 10], .line (some [104]))
      ⟨1, 1, [[10, 120]]⟩ := ⟨by decide, rfl⟩
  exact (buffer_streams (Run.cons hpush (Run.cons hmore (Run.single hline)))).1

end Ue4Background.Socket
