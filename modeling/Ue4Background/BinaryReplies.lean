import Ue4Background.DataServices
import Ue4Background.Framing

/-!
Replies in the wire format of protocol buffers, sent as the one field of a text message.
Nothing is escaped, so the reply arrives whole exactly when no comma and no CR LF comes up in
it. Tags are never one of these bytes, but lengths and numbers may be, and the tag of a text
under number 1 is LF.
-/

namespace Ue4Background.DataServices

open LuaValues Protobuf DataHandlers Gateway
open Sql (Row)

/-- The bytes of a one-field message are handed over as that field. -/
def Framed (payload buff : Bytes) : Prop :=
  ∃ line, processBuff buff = ([line], []) ∧ strUnpack line = [payload]

def Undivided (s : Bytes) : Prop := 44 ∉ s ∧ ¬ [13, 10] <:+: s

theorem comma_within {s : Bytes} : comma <:+: s ↔ 44 ∈ s := by
  rw [comma_eq, List.singleton_infix_iff]

theorem framed_iff {Num : Type} [LuaNumber Num] (payload : Bytes) :
    Framed payload (strPack ([.str payload] : Msg Num)) ↔ Undivided payload := by
  have hpack : strPack ([.str payload] : Msg Num) = payload ++ crlf := by
    simp [strPack, concat, Value.text, List.intercalate_singleton]
  refine ⟨?_, ?_⟩
  · rintro ⟨line, hbuff, hline⟩
    have hcuts := cuts_processBuff (strPack ([.str payload] : Msg Num))
    rw [hbuff] at hcuts
    have hpayload : line = payload := by
      have hjoin : concat comma ((strUnpack line).map (Value.str : Bytes → Value Num)) = line :=
        concat_strUnpack line
      rw [hline, concat_str, List.intercalate_singleton] at hjoin
      exact hjoin.symm
    subst hpayload
    refine ⟨fun hcomma => ?_, ?_⟩
    · obtain ⟨args, rest, hargs⟩ := Cuts.exists_pieces comma_ne_nil line
      rw [strUnpack_eq hargs] at hline
      have hfree := (hargs.free comma_ne_nil).2
      cases args with
      | nil =>
        cases hargs with
        | stop hcut => exact hfree (comma_within.mpr hcomma)
      | cons a args => simp at hline
    · have hfree := (hcuts.free crlf_ne_nil).1 line List.mem_cons_self
      rwa [crlf_eq] at hfree
  · rintro ⟨hcomma, hcrlf⟩
    rw [← crlf_eq] at hcrlf
    have hargs : ∀ a ∈ [payload], ¬ crlf <:+: a := List.forall_mem_singleton.mpr hcrlf
    refine ⟨comma.intercalate [payload], ?_, ?_⟩
    · refine processBuff_eq ?_
      have hcuts : Cuts crlf _ [comma.intercalate [payload]] [] := Cuts.of_pieces crlf_ne_nil
        (List.forall_mem_singleton.mpr (crlf_intercalate hargs)) (by decide)
      rw [List.flatMap_singleton, List.append_nil, List.intercalate_singleton] at hcuts
      rw [hpack, List.intercalate_singleton]
      exact hcuts
    · exact strUnpack_intercalate (by simp)
        (List.forall_mem_singleton.mpr (comma_within.not.mpr hcomma))

/-! Where a comma or CR LF comes up. -/

theorem undivided_append {s t : Bytes} : Undivided (s ++ t) ↔
    Undivided s ∧ Undivided t ∧ ¬ (s.getLast? = some 13 ∧ t.head? = some 10) := by
  simp only [Undivided, List.mem_append, pair_infix_iff]
  tauto

theorem undivided_varint (n : ℕ) : Undivided (varint n) ↔ lead n ≠ 44 := by
  have hcrlf : ¬ [13, 10] <:+: varint n := by
    induction n using varint_induction with
    | small n h =>
      rw [varint_small h]
      intro hwithin
      have hlength := hwithin.length_le
      simp at hlength
    | large n h ih =>
      rw [varint_large h, List.infix_cons_iff, not_or]
      refine ⟨fun hstarts => ?_, ih⟩
      have hdigit := (ofNat_eq_iff (by omega) 13).mp (List.cons_prefix_cons.mp hstarts).1.symm
      have hthirteen : (13 : UInt8).toNat = 13 := rfl
      omega
  have hcomma : 44 ∈ varint n ↔ lead n = 44 := mem_varint (by decide) n
  simp only [Undivided, hcrlf, hcomma, not_false_iff, and_true, ne_eq]

/-- A value has no delimiter in it, and none where a text follows its length. -/
def Plain : Scalar → Prop
  | .int n => lead (unsigned n) ≠ 44
  | .text s => lead s.length ≠ 44 ∧ Undivided s ∧ ¬ (lead s.length = 13 ∧ s.head? = some 10)

def EndsCr : Scalar → Prop
  | .int n => lead (unsigned n) = 13
  | .text s => s.getLast? = some 13

/-- The tag of the field is LF. -/
def BeginsLf (f : ℕ × Scalar) : Prop := f.1 = 1 ∧ ∃ s, f.2 = .text s

/-- No field has a delimiter in it, and no two make one where they meet. -/
def Clean : List (ℕ × Scalar) → Prop
  | [] => True
  | [f] => Plain f.2
  | f :: g :: fs => Plain f.2 ∧ ¬ (EndsCr f.2 ∧ BeginsLf g) ∧ Clean (g :: fs)

theorem getLast_varint_eq (n : ℕ) : (varint n).getLast? = some 13 ↔ lead n = 13 := by
  rw [getLast_varint, Option.some.injEq, ofNat_eq_iff (by have := lead_lt n; omega)]
  rfl

theorem undivided_body (v : Scalar) : Undivided v.body ↔ Plain v := by
  cases v with
  | int n => exact undivided_varint (unsigned n)
  | text s =>
    simp only [Scalar.body, Plain, undivided_append, undivided_varint, getLast_varint_eq]

theorem body_ne_nil (v : Scalar) : v.body ≠ [] := by
  cases v with
  | int n => exact varint_ne_nil _
  | text s => simp [Scalar.body, varint_ne_nil]

theorem getLast_body (v : Scalar) : v.body.getLast? = some 13 ↔ EndsCr v := by
  cases v with
  | int n => exact getLast_varint_eq _
  | text s =>
    by_cases hs : s = []
    · subst hs
      simp only [Scalar.body, EndsCr, List.append_nil, List.length_nil, getLast_varint_eq,
        lead_small (by decide : 0 < 128), List.getLast?_nil]
      simp
    · rw [Scalar.body, List.getLast?_append_of_ne_nil _ hs]
      rfl

section Fields

variable {f : ℕ × Scalar} {fs : List (ℕ × Scalar)}

theorem tag_lt (hf : f.1 < 16) : tag f.1 f.2 < 128 := by
  unfold tag
  split <;> omega

theorem undivided_field (hf : f.1 < 16) : Undivided (encodeField f) ↔ Plain f.2 := by
  have hlead := lead_small (tag_lt hf)
  have hne : tag f.1 f.2 ≠ 44 ∧ tag f.1 f.2 ≠ 13 := by
    unfold tag
    split <;> omega
  rw [encodeField, undivided_append, undivided_varint, undivided_body, getLast_varint_eq, hlead]
  simp [hne]

theorem getLast_field : (encodeField f).getLast? = some 13 ↔ EndsCr f.2 := by
  rw [encodeField, List.getLast?_append_of_ne_nil _ (body_ne_nil f.2), getLast_body]

theorem head_field (hf : f.1 < 16) : (encodeField f).head? = some 10 ↔ BeginsLf f := by
  obtain ⟨number, v⟩ := f
  rw [encodeField, List.head?_append_of_ne_nil _ (varint_ne_nil _), head_varint (by decide)]
  have hten : (10 : UInt8).toNat = 10 := rfl
  cases v with
  | int n =>
    simp only [tag, BeginsLf, hten, reduceCtorEq, exists_false, and_false, iff_false]
    omega
  | text s =>
    simp only [tag, BeginsLf, hten, Scalar.text.injEq, exists_eq', and_true]
    omega

/-- The fields of a row arrive whole exactly when they are clean. -/
theorem undivided_fields (hfs : ∀ f ∈ fs, f.1 < 16) : Undivided (encodeFields fs) ↔ Clean fs := by
  induction fs with
  | nil => exact iff_of_true ⟨by simp [encodeFields], by simp [encodeFields]⟩ trivial
  | cons f fs ih =>
    obtain ⟨hf, hrest⟩ := List.forall_mem_cons.mp hfs
    cases fs with
    | nil => simpa [encodeFields, Clean] using undivided_field hf
    | cons g fs =>
      have hg := (List.forall_mem_cons.mp hrest).1
      have hhead : (encodeFields (g :: fs)).head? = (encodeField g).head? := by
        rw [encodeFields, List.flatMap_cons,
          List.head?_append_of_ne_nil _ (encodeField_ne_nil g)]
      have hcons : encodeFields (f :: g :: fs) = encodeField f ++ encodeFields (g :: fs) := rfl
      rw [hcons, undivided_append, undivided_field hf, ih hrest, getLast_field, hhead,
        head_field hg, Clean]
      tauto

theorem ends_fields : (encodeFields fs).getLast? = some 13 ↔ ∃ f ∈ fs.getLast?, EndsCr f.2 := by
  induction fs with
  | nil => simp [encodeFields]
  | cons f fs ih =>
    have hcons : encodeFields (f :: fs) = encodeField f ++ encodeFields fs := rfl
    cases fs with
    | nil => simpa [encodeFields] using getLast_field
    | cons g fs =>
      have hne : encodeFields (g :: fs) ≠ [] := by
        simp [encodeFields, encodeField_ne_nil]
      rw [hcons, List.getLast?_append_of_ne_nil _ hne, ih, List.getLast?_cons_cons]

theorem begins_fields (hfs : ∀ f ∈ fs, f.1 < 16) :
    (encodeFields fs).head? = some 10 ↔ ∃ f ∈ fs.head?, BeginsLf f := by
  cases fs with
  | nil => simp [encodeFields]
  | cons f fs =>
    rw [encodeFields, List.flatMap_cons, List.head?_append_of_ne_nil _ (encodeField_ne_nil f),
      head_field (hfs f List.mem_cons_self)]
    simp

/-- The number of bytes of a row. -/
def size (fs : List (ℕ × Scalar)) : ℕ :=
  (fs.map fun f => match f.2 with
    | .int n => Nat.log 128 (unsigned n) + 2
    | .text s => Nat.log 128 s.length + 2 + s.length).sum

theorem length_encodeFields (hfs : ∀ f ∈ fs, f.1 < 16) : (encodeFields fs).length = size fs := by
  induction fs with
  | nil => rfl
  | cons f fs ih =>
    obtain ⟨hf, hrest⟩ := List.forall_mem_cons.mp hfs
    have hcons : encodeFields (f :: fs) = encodeField f ++ encodeFields fs := rfl
    rw [hcons, List.length_append, ih hrest, size, size, List.map_cons, List.sum_cons,
      encodeField, List.length_append, length_varint, Nat.log_of_lt (tag_lt hf)]
    obtain ⟨number, v⟩ := f
    cases v <;> simp only [Scalar.body, List.length_append, length_varint] <;> omega

end Fields

/-- No row has a delimiter in it, nor does its length, and no two rows make one where they
meet. -/
def CleanRows : List (List (ℕ × Scalar)) → Prop
  | [] => True
  | fs :: fss => Clean fs ∧ lead (size fs) ≠ 44 ∧
      ¬ (lead (size fs) = 13 ∧ ∃ f ∈ fs.head?, BeginsLf f) ∧
      ((∃ f ∈ fs.getLast?, EndsCr f.2) → fss = []) ∧ CleanRows fss

theorem undivided_records {fss : List (List (ℕ × Scalar))}
    (hfss : ∀ fs ∈ fss, ∀ f ∈ fs, f.1 < 16) : Undivided (encodeRecords fss) ↔ CleanRows fss := by
  have hone : ∀ f ∈ fss.map fun fs => (1, Scalar.text (encodeFields fs)), f.1 < 16 := by
    intro f hf
    obtain ⟨fs, _, rfl⟩ := List.mem_map.mp hf
    show 1 < 16
    omega
  rw [encodeRecords, undivided_fields hone]
  clear hone
  induction fss with
  | nil => exact Iff.rfl
  | cons fs fss ih =>
    obtain ⟨hfs, hrest⟩ := List.forall_mem_cons.mp hfss
    have hplain : Plain (.text (encodeFields fs)) ↔ lead (size fs) ≠ 44 ∧ Clean fs ∧
        ¬ (lead (size fs) = 13 ∧ ∃ f ∈ fs.head?, BeginsLf f) := by
      simp only [Plain, length_encodeFields hfs, undivided_fields hfs, begins_fields hfs]
    have hends : EndsCr (.text (encodeFields fs)) ↔ ∃ f ∈ fs.getLast?, EndsCr f.2 := ends_fields
    cases fss with
    | nil =>
      simp only [List.map_cons, List.map_nil, Clean, CleanRows, hplain, implies_true, and_true]
      exact ⟨fun ⟨hlead, hfs, hmeet⟩ => ⟨hfs, hlead, hmeet⟩,
        fun ⟨hfs, hlead, hmeet⟩ => ⟨hlead, hfs, hmeet⟩⟩
    | cons gs fss =>
      have hbegins : BeginsLf (1, .text (encodeFields gs)) := ⟨rfl, _, rfl⟩
      have hcons : Clean ((fs :: gs :: fss).map fun fs => (1, .text (encodeFields fs))) ↔
          Plain (.text (encodeFields fs)) ∧
            ¬ (EndsCr (.text (encodeFields fs)) ∧ BeginsLf (1, .text (encodeFields gs))) ∧
              Clean ((gs :: fss).map fun fs => (1, .text (encodeFields fs))) := Iff.rfl
      have hrows : CleanRows (fs :: gs :: fss) ↔ Clean fs ∧ lead (size fs) ≠ 44 ∧
          ¬ (lead (size fs) = 13 ∧ ∃ f ∈ fs.head?, BeginsLf f) ∧
            ((∃ f ∈ fs.getLast?, EndsCr f.2) → gs :: fss = []) ∧ CleanRows (gs :: fss) := Iff.rfl
      have hstep : Clean ((gs :: fss).map fun fs => (1, .text (encodeFields fs))) ↔
          CleanRows (gs :: fss) := ih hrest
      rw [hcons, hrows, hplain, hends, hstep]
      simp only [hbegins, and_true, reduceCtorEq, imp_false]
      exact ⟨fun ⟨⟨hlead, hfs, hmeet⟩, hends, hrest⟩ => ⟨hfs, hlead, hmeet, hends, hrest⟩,
        fun ⟨hfs, hlead, hmeet, hends, hrest⟩ => ⟨⟨hlead, hfs, hmeet⟩, hends, hrest⟩⟩

/-! What the handlers encode. -/

inductive Content
  | row (fs : List (ℕ × Scalar))
  | records (fss : List (List (ℕ × Scalar)))

def Content.encode : Content → Bytes
  | .row fs => encodeFields fs
  | .records fss => encodeRecords fss

def Content.Clean : Content → Prop
  | .row fs => DataServices.Clean fs
  | .records fss => CleanRows fss

/-- The fields that a `get_*` handler writes for the rows of its query, in the order of
`pairs`: of the first row, or of the first ten. -/
def encoded (env : Env) (rs : List Row) : Handler → Option Content
  | .get _ _ message columns => do
    let members ← message
    let row ← rs.head?
    (rowFields env members columns 0 row).map .row
  | .getTen _ members columns => do
    let members ← members
    (rowsFields env members columns 0 (rs.take 10)).map .records
  | .accessRecords _ => if rs.isEmpty then some (.records []) else none
  | .carRecord _ members columns =>
    if rs.isEmpty then none else (rowsFields env members columns 0 (rs.take 10)).map .records
  | .footTraffic message => (rowFields env message footColumns 0 (footRow env)).map .row
  | .set _ | .setVisit _ => none

/-- The message type that a handler encodes by. -/
def members : Handler → List Member
  | .get _ _ message _ => message.getD []
  | .getTen _ item _ => item.getD []
  | .carRecord _ item _ => item
  | .footTraffic message => message
  | .set _ | .setVisit _ | .accessRecords _ => []

/-- All numbers are small, so every tag is one byte. -/
theorem members_small (s : Service) : ∀ p ∈ resp s, ∀ d ∈ members p.2, d.number < 16 := by
  cases s <;> decide

theorem writeFields_numbers {lua : Conversions} {ds : List Member}
    {data : List (Bytes × Scalar)} {fs : List (ℕ × Scalar)}
    (h : writeFields lua ds data = some fs) : ∀ f ∈ fs, ∃ d ∈ ds, f.1 = d.number := by
  induction data generalizing fs with
  | nil =>
    cases h
    simp
  | cons entry data ih =>
    simp only [writeFields, Option.bind_eq_bind, Option.bind_eq_some_iff] at h
    obtain ⟨first, hfirst, rest, hrest, hfs⟩ := h
    cases hfs
    obtain ⟨d, hd, rfl⟩ := Option.map_eq_some_iff.mp hfirst
    intro f hf
    rcases List.mem_append.mp hf with hf | hf
    · split at hf
      · cases hf
      · cases List.mem_singleton.mp hf
        exact ⟨d, List.mem_of_find?_eq_some hd, rfl⟩
    · exact ih hrest f hf

theorem rowsFields_numbers {env : Env} {ds : List Member} {columns : List Bytes} {i : ℕ}
    {rs : List Row} {fss : List (List (ℕ × Scalar))}
    (h : rowsFields env ds columns i rs = some fss) :
    ∀ fs ∈ fss, ∀ f ∈ fs, ∃ d ∈ ds, f.1 = d.number := by
  induction rs generalizing i fss with
  | nil =>
    cases h
    simp
  | cons row rs ih =>
    simp only [rowsFields, Option.bind_eq_bind, Option.bind_eq_some_iff] at h
    obtain ⟨fs, hfs, rest, hrest, heq⟩ := h
    cases heq
    exact List.forall_mem_cons.mpr ⟨writeFields_numbers hfs, ih hrest⟩

def Content.fields : Content → List (List (ℕ × Scalar))
  | .row fs => [fs]
  | .records fss => fss

theorem encoded_numbers {env : Env} {rs : List Row} {h : Handler} {content : Content}
    (hcontent : encoded env rs h = some content) :
    ∀ fs ∈ content.fields, ∀ f ∈ fs, ∃ d ∈ members h, f.1 = d.number := by
  cases h with
  | set q | setVisit q => cases hcontent
  | accessRecords q =>
    simp only [encoded] at hcontent
    split at hcontent <;> cases hcontent
    simp [Content.fields]
  | get peek q message columns =>
    simp only [encoded, Option.bind_eq_bind, Option.bind_eq_some_iff, Option.map_eq_some_iff]
      at hcontent
    obtain ⟨ds, rfl, row, _, fs, hfs, rfl⟩ := hcontent
    exact List.forall_mem_singleton.mpr (writeFields_numbers hfs)
  | getTen q item columns =>
    simp only [encoded, Option.bind_eq_bind, Option.bind_eq_some_iff, Option.map_eq_some_iff]
      at hcontent
    obtain ⟨ds, rfl, fss, hfss, rfl⟩ := hcontent
    exact rowsFields_numbers hfss
  | carRecord q item columns =>
    simp only [encoded] at hcontent
    split at hcontent
    · cases hcontent
    · obtain ⟨fss, hfss, rfl⟩ := Option.map_eq_some_iff.mp hcontent
      exact rowsFields_numbers hfss
  | footTraffic message =>
    obtain ⟨fs, hfs, rfl⟩ := Option.map_eq_some_iff.mp hcontent
    exact List.forall_mem_singleton.mpr (writeFields_numbers hfs)

/-- What a handler returns for the rows is what it encodes. -/
theorem run_encoded {env : Env} {params : List Arg} {rs : List Row} {h : Handler}
    {content : Content} {payload : Bytes} (hcontent : encoded env rs h = some content)
    (hrun : h.run env params (.rows rs) = some (.str payload)) : payload = content.encode := by
  cases h with
  | set q | setVisit q => cases hcontent
  | get peek q message columns =>
    simp only [encoded, Option.bind_eq_bind, Option.bind_eq_some_iff, Option.map_eq_some_iff]
      at hcontent
    obtain ⟨ds, rfl, row, hrow, fs, hfs, rfl⟩ := hcontent
    obtain ⟨text, _, hreturn⟩ := Option.bind_eq_some_iff.mp hrun
    cases rs with
    | nil => cases hrow
    | cons first rs =>
      cases hrow
      simp only [Option.bind_some, encodeRow, hfs, Option.map_some, Option.some.injEq,
        Ret.str.injEq] at hreturn
      exact hreturn.symm
  | getTen q item columns =>
    simp only [encoded, Option.bind_eq_bind, Option.bind_eq_some_iff, Option.map_eq_some_iff]
      at hcontent
    obtain ⟨ds, rfl, fss, hfss, rfl⟩ := hcontent
    obtain ⟨text, _, hreturn⟩ := Option.bind_eq_some_iff.mp hrun
    simp only [Option.bind_some, encodeRows, hfss, Option.map_some, Option.some.injEq,
      Ret.str.injEq] at hreturn
    exact hreturn.symm
  | accessRecords q =>
    obtain ⟨text, _, hreturn⟩ := Option.bind_eq_some_iff.mp hrun
    cases rs with
    | nil =>
      cases hcontent
      cases hreturn
      rfl
    | cons row rs => cases hreturn
  | carRecord q item columns =>
    obtain ⟨text, _, hreturn⟩ := Option.bind_eq_some_iff.mp hrun
    cases rs with
    | nil => cases hreturn
    | cons row rs =>
      obtain ⟨fss, hfss, rfl⟩ := Option.map_eq_some_iff.mp hcontent
      simp only [encodeRows, hfss, Option.map_some, Option.some.injEq, Ret.str.injEq] at hreturn
      exact hreturn.symm
  | footTraffic message =>
    obtain ⟨fs, hfs, rfl⟩ := Option.map_eq_some_iff.mp hcontent
    have hreturn : (encodeRow env message footColumns (footRow env)).map Ret.str =
        some (.str payload) := hrun
    simp only [encodeRow, hfs, Option.map_some, Option.some.injEq, Ret.str.injEq] at hreturn
    exact hreturn.symm

theorem undivided_content {content : Content}
    (hsmall : ∀ fs ∈ content.fields, ∀ f ∈ fs, f.1 < 16) :
    Undivided content.encode ↔ content.Clean := by
  cases content with
  | row fs => exact undivided_fields (hsmall fs List.mem_cons_self)
  | records fss => exact undivided_records hsmall

section Connected

variable {Num Addr : Type} [LuaNumber Num]

/-- A connected player's reply of one text is written to his connection. -/
theorem send_str {g : Gateway.State Num Addr} {p : Num} {r : PlayerRef} {c c' : ConnRef}
    (hplayer : g.players p = some r) (hconn : (g.playerHeap r).conn = some c)
    (hopen : g.conns (g.connHeap c).fd = some c') (s : Bytes) :
    sendReply g p (some (.str s)) =
      [.write (g.connHeap c).fd [.str s] (strPack ([.str s] : Msg Num))] := by
  simp [sendReply, Gateway.send, hplayer, hconn, sendByFd, hopen]

/-- What a handler encodes from the rows of its query arrives as one message of one field
exactly when it is clean. -/
theorem binary_reply {service : Service} {name : Bytes} {h : Handler}
    (hmem : (name, h) ∈ resp service) {env : Env} {params : List Arg} {rs : List Row}
    {content : Content} {payload : Bytes} (hcontent : encoded env rs h = some content)
    (hrun : h.run env params (.rows rs) = some (.str payload)) {g : Gateway.State Num Addr}
    {p : Num} {r : PlayerRef} {c c' : ConnRef} (hplayer : g.players p = some r)
    (hconn : (g.playerHeap r).conn = some c) (hopen : g.conns (g.connHeap c).fd = some c') :
    ∃ buff, sendReply g p (some (.str payload)) =
        [.write (g.connHeap c).fd [.str payload] buff] ∧
      (Framed payload buff ↔ content.Clean) := by
  have hsmall : ∀ fs ∈ content.fields, ∀ f ∈ fs, f.1 < 16 := fun fs hfs f hf => by
    obtain ⟨d, hd, heq⟩ := encoded_numbers hcontent fs hfs f hf
    rw [heq]
    exact members_small service _ hmem d hd
  refine ⟨_, send_str hplayer hconn hopen payload, ?_⟩
  rw [framed_iff, run_encoded hcontent hrun, undivided_content hsmall]

end Connected

/-- Player 7 on socket 1. -/
def online : Gateway.State ℕ ℕ :=
  ((Gateway.init.openConn 1).setPlayerid 0 7).addPlayer 7 ⟨7, some 0, some 0, 0, []⟩

def wetRow (wet : ℤ) : Row :=
  [(bytes "record_id", .text (bytes "r")), (bytes "id", .int 1), (bytes "time", .text (bytes "t")),
    (bytes "tempature", .int 20), (bytes "wet", .int wet)]

def wetPayload (wet : UInt8) : Bytes := [10, 1, 114, 16, 1, 26, 1, 116, 32, 20, 40, wet]

/-- The reply with a humidity of 45. -/
theorem binary_reply_wet : ∃ buff, sendReply online 7 (some (.str (wetPayload 45))) =
      [.write 1 [.str (wetPayload 45)] buff] ∧
    (Framed (wetPayload 45) buff ↔ (Content.row [(1, .text (bytes "r")), (2, .int 1),
      (3, .text (bytes "t")), (4, .int 20), (5, .int 45)]).Clean) :=
  binary_reply (g := online) (p := 7) (c := 0) (List.mem_of_getElem? (i := 11) rfl :
      (bytes "get_wet_temp_record", getWetTempRecord) ∈ resp .smartmanagement)
    (show encoded plainEnv [wetRow 45] getWetTempRecord = some (.row [(1, .text (bytes "r")),
      (2, .int 1), (3, .text (bytes "t")), (4, .int 20), (5, .int 45)]) from rfl)
    (show getWetTempRecord.run plainEnv [some (bytes "r")] (.rows [wetRow 45]) =
      some (.str (wetPayload 45)) from by decide)
    rfl rfl rfl

/-- A humidity of 44 is a comma. -/
theorem binary_reply_comma : ∃ payload buff,
    getWetTempRecord.run plainEnv [some (bytes "r")] (.rows [wetRow 44]) = some (.str payload) ∧
    sendReply online 7 (some (.str payload)) = [.write 1 [.str payload] buff] ∧
    ¬ Framed payload buff := by
  have hsend := send_str (g := online) (p := 7) (c := 0) rfl rfl rfl (wetPayload 44)
  refine ⟨wetPayload 44, _, by decide, hsend, ?_⟩
  rw [framed_iff]
  exact fun h => h.1 (by decide)

end Ue4Background.DataServices
