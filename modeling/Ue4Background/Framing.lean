import Ue4Background.Cutting
import Ue4Background.Gateway

/-!
The text protocol of the gateway. `process_buff` cuts what has arrived into lines and keeps
the rest for the next chunk; `str_pack` and `str_unpack` turn a message into a line and back.
-/

namespace Ue4Background.Gateway

open LuaValues

/-- Every match removes at least CR LF, so the length bounds the iterations. -/
def buffLoop : ℕ → Bytes → List Bytes × Bytes
  | 0, readbuff => ([], readbuff)
  | fuel + 1, readbuff =>
    match cut crlf readbuff with
    | some (msgstr, rest) => (msgstr :: (buffLoop fuel rest).1, (buffLoop fuel rest).2)
    | none => ([], readbuff)

/-- The lines that `process_buff` hands to `process_msg`, and the buffer it returns. -/
def processBuff (readbuff : Bytes) : List Bytes × Bytes := buffLoop readbuff.length readbuff

/-- The turns of `recv_loop` over the chunks that `socket.read` returns: the lines handed to
`process_msg`, and the final `readbuff`. -/
def recvLoop : Bytes → List Bytes → List Bytes × Bytes
  | readbuff, [] => ([], readbuff)
  | readbuff, recvstr :: chunks =>
    ((processBuff (readbuff ++ recvstr)).1 ++
        (recvLoop (processBuff (readbuff ++ recvstr)).2 chunks).1,
      (recvLoop (processBuff (readbuff ++ recvstr)).2 chunks).2)

theorem crlf_ne_nil : crlf ≠ [] := by decide

theorem comma_ne_nil : comma ≠ [] := by decide

theorem cuts_buffLoop {fuel : ℕ} {readbuff : Bytes} (hfuel : readbuff.length ≤ fuel) :
    Cuts crlf readbuff (buffLoop fuel readbuff).1 (buffLoop fuel readbuff).2 := by
  induction fuel generalizing readbuff with
  | zero =>
    rw [List.length_eq_zero_iff.mp (Nat.le_zero.mp hfuel)]
    exact Cuts.stop (by decide)
  | succ fuel ih =>
    unfold buffLoop
    cases hcut : cut crlf readbuff with
    | none => exact Cuts.stop hcut
    | some entry =>
      obtain ⟨msgstr, rest⟩ := entry
      have hlength := congrArg List.length (cut_spells hcut)
      have hcrlf : crlf.length = 2 := by decide
      simp only [List.length_append, hcrlf] at hlength
      exact Cuts.more hcut (ih (by omega))

theorem cuts_processBuff (readbuff : Bytes) :
    Cuts crlf readbuff (processBuff readbuff).1 (processBuff readbuff).2 :=
  cuts_buffLoop (Nat.le_refl _)

theorem processBuff_eq {readbuff rest : Bytes} {lines : List Bytes}
    (h : Cuts crlf readbuff lines rest) : processBuff readbuff = (lines, rest) := by
  obtain ⟨hlines, hrest⟩ := (cuts_processBuff readbuff).unique h
  rw [← hlines, ← hrest]

theorem cuts_recvLoop (readbuff : Bytes) (chunks : List Bytes) (hbuff : ¬ crlf <:+: readbuff) :
    Cuts crlf (readbuff ++ chunks.flatten) (recvLoop readbuff chunks).1
      (recvLoop readbuff chunks).2 := by
  induction chunks generalizing readbuff with
  | nil =>
    rw [List.flatten_nil, List.append_nil]
    exact Cuts.stop ((cut_eq_none crlf_ne_nil).mpr hbuff)
  | cons recvstr chunks ih =>
    have hfirst := cuts_processBuff (readbuff ++ recvstr)
    rw [List.flatten_cons, ← List.append_assoc]
    exact hfirst.append (ih _ (hfirst.free crlf_ne_nil).2)

/-- However the stream is cut into chunks, the lines and the final buffer are those of the
whole stream, and they spell it. -/
theorem framing_chunks (chunks : List Bytes) :
    recvLoop [] chunks = processBuff chunks.flatten ∧
      (∀ line ∈ (recvLoop [] chunks).1, ¬ crlf <:+: line) ∧ ¬ crlf <:+: (recvLoop [] chunks).2 ∧
      (recvLoop [] chunks).1.flatMap (· ++ crlf) ++ (recvLoop [] chunks).2 = chunks.flatten := by
  have hcuts := cuts_recvLoop [] chunks (by decide)
  rw [List.nil_append] at hcuts
  obtain ⟨hlines, hrest⟩ := hcuts.free crlf_ne_nil
  exact ⟨(processBuff_eq hcuts).symm, hlines, hrest, hcuts.spells⟩

theorem unpackLoop_eq {fuel : ℕ} {msgstr rest : Bytes} {args : List Bytes}
    (hfuel : msgstr.length ≤ fuel) (h : Cuts comma msgstr args rest) :
    unpackLoop fuel msgstr = args ++ [rest] := by
  induction fuel generalizing msgstr args with
  | zero =>
    have hnil := List.length_eq_zero_iff.mp (Nat.le_zero.mp hfuel)
    subst hnil
    cases h with
    | stop => rfl
    | more hcut _ => cases hcut
  | succ fuel ih =>
    unfold unpackLoop
    cases h with
    | stop hcut =>
      rw [hcut]
      rfl
    | more hcut hrest =>
      have hlength := congrArg List.length (cut_spells hcut)
      have hcomma : comma.length = 1 := by decide
      simp only [List.length_append, hcomma] at hlength
      rw [hcut]
      dsimp only
      rw [ih (by omega) hrest]
      rfl

theorem strUnpack_eq {msgstr rest : Bytes} {args : List Bytes} (h : Cuts comma msgstr args rest) :
    strUnpack msgstr = args ++ [rest] :=
  unpackLoop_eq (Nat.le_refl _) h

theorem concat_str {Num : Type} [LuaNumber Num] (sep : Bytes) (args : List Bytes) :
    concat sep (args.map (Value.str : Bytes → Value Num)) = sep.intercalate args := by
  rw [concat, List.map_map]
  congr 1
  exact List.map_id args

/-- Joining what `str_unpack` returns gives the line back. -/
theorem concat_strUnpack {Num : Type} [LuaNumber Num] (line : Bytes) :
    concat comma ((strUnpack line).map (Value.str : Bytes → Value Num)) = line := by
  obtain ⟨args, rest, hcuts⟩ := Cuts.exists_pieces comma_ne_nil line
  rw [strUnpack_eq hcuts, concat_str, intercalate_append]
  exact hcuts.spells

theorem crlf_eq : crlf = [13, 10] := by decide

theorem comma_eq : comma = [44] := by decide

/-- Joining with commas makes no CR LF, not even with the CR of the one that follows. -/
theorem crlf_intercalate {args : List Bytes} (hargs : ∀ a ∈ args, ¬ crlf <:+: a) :
    ¬ crlf <:+: comma.intercalate args ++ crlf.dropLast := by
  rw [crlf_eq, comma_eq] at *
  intro hwithin
  have hjoined := pair_infix_concat (by decide) hwithin
  clear hwithin
  induction args with
  | nil => simp at hjoined
  | cons a args ih =>
    obtain ⟨ha, hargs⟩ := List.forall_mem_cons.mp hargs
    cases args with
    | nil =>
      rw [List.intercalate_singleton] at hjoined
      exact ha hjoined
    | cons b rest =>
      rw [List.intercalate_cons_cons, List.append_assoc, List.singleton_append] at hjoined
      rcases pair_infix_append (by decide) (by decide) hjoined with hfirst | hrest
      · exact ha hfirst
      · exact ih hargs hrest

/-- The line of a message is unpacked into its fields. -/
theorem strUnpack_intercalate {msg : List Bytes} (hmsg : msg ≠ [])
    (hcomma : ∀ a ∈ msg, ¬ comma <:+: a) : strUnpack (comma.intercalate msg) = msg := by
  obtain ⟨args, rest, rfl⟩ : ∃ args rest, msg = args ++ [rest] :=
    ⟨msg.dropLast, msg.getLast hmsg, (List.dropLast_append_getLast hmsg).symm⟩
  rw [intercalate_append]
  refine strUnpack_eq (Cuts.of_pieces comma_ne_nil (fun a ha => ?_) (hcomma rest (by simp)))
  have hnil : comma.dropLast = [] := by decide
  rw [hnil, List.append_nil]
  exact hcomma a (List.mem_append_left _ ha)

/-- Packed messages, one after the other, are handed over as one line each and unpacked again;
the command is the first field. And a line without CR LF is what its fields pack to. -/
theorem codec_round_trip {Num : Type} [LuaNumber Num] (msgs : List (List Bytes))
    (hmsgs : ∀ msg ∈ msgs, msg ≠ [] ∧ ∀ a ∈ msg, ¬ comma <:+: a ∧ ¬ crlf <:+: a) :
    (∃ lines, processBuff (msgs.flatMap fun msg =>
        strPack (msg.map (Value.str : Bytes → Value Num))) = (lines, []) ∧
      lines.map (fun line => ((strUnpack line).headD [], strUnpack line)) =
        msgs.map fun msg => (msg.headD [], msg)) ∧
    ∀ line, ¬ crlf <:+: line →
      concat comma ((strUnpack line).map (Value.str : Bytes → Value Num)) = line := by
  refine ⟨⟨msgs.map comma.intercalate, ?_, ?_⟩, fun line _ => concat_strUnpack line⟩
  · have hpacked : (msgs.flatMap fun msg => strPack (msg.map (Value.str : Bytes → Value Num))) =
        (msgs.map comma.intercalate).flatMap (· ++ crlf) ++ [] := by
      simp only [strPack, concat_str, List.flatMap_map, List.append_nil]
    rw [hpacked]
    refine processBuff_eq (Cuts.of_pieces crlf_ne_nil (fun line hline => ?_) (by decide))
    obtain ⟨msg, hmsg, rfl⟩ := List.mem_map.mp hline
    exact crlf_intercalate fun a ha => ((hmsgs msg hmsg).2 a ha).2
  · rw [List.map_map]
    refine List.map_congr_left fun msg hmsg => ?_
    obtain ⟨hne, hargs⟩ := hmsgs msg hmsg
    simp only [Function.comp, strUnpack_intercalate hne fun a ha => (hargs a ha).1]

/-- Two messages with fields at the edges: empty ones, and ones that end in CR or begin
with LF. -/
theorem codec_round_trip_edges :
    ∃ lines, processBuff ([[bytes "get", [], bytes "\r"], [bytes "\n"]].flatMap fun msg =>
        strPack (msg.map (Value.str : Bytes → Value ℕ))) = (lines, []) ∧
      lines.map (fun line => ((strUnpack line).headD [], strUnpack line)) =
        [(bytes "get", [bytes "get", [], bytes "\r"]), (bytes "\n", [bytes "\n"])] :=
  (codec_round_trip [[bytes "get", [], bytes "\r"], [bytes "\n"]] (by decide)).1

end Ue4Background.Gateway
