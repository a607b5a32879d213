import Ue4Background.SqlText

/-!
Statements with values put into their text. Between two commas stands at most one value,
in single quotes or bare. A quoted value is read back as one string exactly when it has no
quote and only the backslashes of `\%` and `\_`; a bare one is read back exactly when it is a
numeral.
-/

namespace Ue4Background.Sql

open LuaValues Mode

/-- A text that means itself between single quotes. -/
def Harmless : Bytes → Bool
  | [] => true
  | [b] => b ≠ 39 && b ≠ 92
  | b :: c :: s =>
    if b = 92 then (c = 37 || c = 95) && Harmless s else b ≠ 39 && Harmless (c :: s)

/-- A numeral with or without a sign. -/
def isSigned : Bytes → Bool
  | [] => false
  | b :: s => if b = 43 ∨ b = 45 then isNumber s else isNumber (b :: s)

section Quoted

variable {ends : Mode → Option (List Token)} {acc : Bytes}

theorem quoted_quote (s : Bytes) :
    tokens ends (.quoted .single acc) (39 :: s) = tokens ends (.closing .single acc) s := by
  simp [tokens_cons, step, Quote.byte]

theorem quoted_backslash (s : Bytes) :
    tokens ends (.quoted .single acc) (92 :: s) = tokens ends (.escaped .single acc) s := by
  simp [tokens_cons, step, Quote.byte]

theorem quoted_other {b : UInt8} (hquote : b ≠ 39) (hbackslash : b ≠ 92) (s : Bytes) :
    tokens ends (.quoted .single acc) (b :: s) =
      tokens ends (.quoted .single (acc ++ [b])) s := by
  simp [tokens_cons, step, Quote.byte, hquote, hbackslash]

theorem escaped_cons (b : UInt8) (s : Bytes) :
    tokens ends (.escaped .single acc) (b :: s) =
      tokens ends (.quoted .single (acc ++ unescape b)) s := by
  simp [tokens_cons, step]

theorem closing_quote (s : Bytes) :
    tokens ends (.closing .single acc) (39 :: s) =
      tokens ends (.quoted .single (acc ++ [39])) s := by
  simp [tokens_cons, step, Quote.byte]

theorem closing_other (hends : Ends ends) {s : Bytes} (hs : s.head? ≠ some 39) :
    tokens ends (.closing .single acc) s = (tokens ends .start s).map (.str acc :: ·) := by
  cases s with
  | nil => rcases hends with rfl | rfl <;> rfl
  | cons b s =>
    have hb : b ≠ Quote.byte .single := fun heq => hs (congrArg some heq)
    simp only [tokens_cons, step, if_neg hb, turn, Option.map_map]
    rfl

/-- A string that is not closed has no tokens. -/
theorem tokens_open (hends : Ends ends) {s : Bytes} (hs : 39 ∉ s) :
    tokens ends (.quoted .single acc) s = none ∧ tokens ends (.escaped .single acc) s = none := by
  induction s generalizing acc with
  | nil => rcases hends with rfl | rfl <;> exact ⟨rfl, rfl⟩
  | cons b s ih =>
    have hb : b ≠ 39 := fun heq => hs (heq ▸ List.mem_cons_self)
    have hrest : 39 ∉ s := fun hmem => hs (List.mem_cons_of_mem b hmem)
    refine ⟨?_, ?_⟩
    · by_cases hbackslash : b = 92
      · rw [hbackslash, quoted_backslash]
        exact (ih hrest).2
      · rw [quoted_other hb hbackslash]
        exact (ih hrest).1
    · rw [escaped_cons]
      exact (ih hrest).1

variable {after : Bytes}

/-- Whatever else a text in quotes may be read as, it begins with a string, and escapes and
doubled quotes only make that shorter than the text. -/
theorem tokens_quoted (hends : Ends ends) (hafter : 39 ∉ after) (a : Bytes) {ts : List Token} :
    (tokens ends (.quoted .single acc) (a ++ 39 :: after) = some ts →
      ∃ v us, ts = .str v :: us ∧ v.length ≤ acc.length + a.length) ∧
    (tokens ends (.escaped .single acc) (a ++ 39 :: after) = some ts →
      ∃ v us, ts = .str v :: us ∧ v.length ≤ acc.length + a.length + 1) ∧
    (tokens ends (.closing .single acc) (a ++ 39 :: after) = some ts →
      ∃ v us, ts = .str v :: us ∧ v.length ≤ acc.length + a.length) := by
  induction a generalizing acc with
  | nil =>
    refine ⟨fun h => ?_, fun h => ?_, fun h => ?_⟩
    · have hhead : after.head? ≠ some 39 := fun heq => hafter (List.mem_of_mem_head? heq)
      rw [List.nil_append, quoted_quote, closing_other hends hhead] at h
      obtain ⟨us, _, rfl⟩ := Option.map_eq_some_iff.mp h
      exact ⟨acc, us, rfl, Nat.le_refl _⟩
    · rw [List.nil_append, escaped_cons, (tokens_open hends hafter).1] at h
      cases h
    · rw [List.nil_append, closing_quote, (tokens_open hends hafter).1] at h
      cases h
  | cons b a ih =>
    rw [List.cons_append, List.length_cons]
    refine ⟨fun h => ?_, fun h => ?_, fun h => ?_⟩
    · by_cases hquote : b = 39
      · rw [hquote, quoted_quote] at h
        obtain ⟨v, us, rfl, hv⟩ := ih.2.2 h
        exact ⟨v, us, rfl, by omega⟩
      · by_cases hbackslash : b = 92
        · rw [hbackslash, quoted_backslash] at h
          obtain ⟨v, us, rfl, hv⟩ := ih.2.1 h
          exact ⟨v, us, rfl, by omega⟩
        · rw [quoted_other hquote hbackslash] at h
          obtain ⟨v, us, rfl, hv⟩ := ih.1 h
          rw [List.length_append, List.length_singleton] at hv
          exact ⟨v, us, rfl, by omega⟩
    · rw [escaped_cons] at h
      obtain ⟨v, us, rfl, hv⟩ := ih.1 h
      have hescape := length_unescape b
      rw [List.length_append] at hv
      exact ⟨v, us, rfl, by omega⟩
    · by_cases hquote : b = 39
      · rw [hquote, closing_quote] at h
        obtain ⟨v, us, rfl, hv⟩ := ih.1 h
        rw [List.length_append, List.length_singleton] at hv
        exact ⟨v, us, rfl, by omega⟩
      · have hhead : (b :: (a ++ 39 :: after)).head? ≠ some 39 := fun heq =>
          hquote (Option.some.inj heq)
        rw [closing_other hends hhead] at h
        obtain ⟨us, _, rfl⟩ := Option.map_eq_some_iff.mp h
        exact ⟨acc, us, rfl, by omega⟩

theorem unescape_full {b : UInt8} (h : 2 ≤ (unescape b).length) :
    (b = 37 ∨ b = 95) ∧ unescape b = [92, b] := by
  by_cases hb : b = 37 ∨ b = 95
  · refine ⟨hb, ?_⟩
    rcases hb with rfl | rfl <;> rfl
  · unfold unescape at h
    rw [if_neg hb] at h
    repeat' split at h
    all_goals simp at h

/-- A text that is read back from its quotes is harmless. -/
theorem harmless_of_tokens (hends : Ends ends) (hafter : 39 ∉ after) {a : Bytes}
    {us : List Token}
    (h : tokens ends (.quoted .single acc) (a ++ 39 :: after) = some (.str (acc ++ a) :: us)) :
    Harmless a := by
  induction a using Harmless.induct generalizing acc with
  | case1 => rfl
  | case2 b =>
    rw [List.singleton_append] at h
    by_cases hquote : b = 39
    · rw [hquote, quoted_quote, closing_quote, (tokens_open hends hafter).1] at h
      cases h
    · by_cases hbackslash : b = 92
      · rw [hbackslash, quoted_backslash, escaped_cons, (tokens_open hends hafter).1] at h
        cases h
      · simp [Harmless, hquote, hbackslash]
  | case3 c s ih =>
    rw [List.cons_append, List.cons_append, quoted_backslash, escaped_cons] at h
    obtain ⟨v, vs, heq, hv⟩ := (tokens_quoted hends hafter s).1 h
    cases heq
    simp only [List.length_append, List.length_cons] at hv
    obtain ⟨hc, hfull⟩ := unescape_full (b := c) (by omega)
    rw [hfull] at h
    have hs := @ih (acc ++ [92, c]) (by rwa [List.append_assoc])
    simp [Harmless, hc, hs]
  | case4 b c s hb ih =>
    have hquote : b ≠ 39 := by
      rintro rfl
      rw [List.cons_append, List.cons_append, quoted_quote] at h
      by_cases hc : c = 39
      · rw [hc, closing_quote] at h
        obtain ⟨v, vs, heq, hv⟩ := (tokens_quoted hends hafter s).1 h
        cases heq
        simp only [List.length_append, List.length_cons, List.length_nil] at hv
        omega
      · have hhead : (c :: (s ++ 39 :: after)).head? ≠ some 39 := fun heq =>
          hc (Option.some.inj heq)
        rw [closing_other hends hhead] at h
        obtain ⟨vs, _, heq⟩ := Option.map_eq_some_iff.mp h
        have hacc := congrArg List.length (Token.str.inj (List.cons.inj heq).1)
        simp at hacc
    rw [List.cons_append, quoted_other hquote hb] at h
    have hs := @ih (acc ++ [b]) (by rwa [List.append_assoc])
    simp [Harmless, hb, hquote, hs]

/-- A harmless text is read as it is. -/
theorem tokens_harmless {a : Bytes} (ha : Harmless a) (s : Bytes) :
    tokens ends (.quoted .single acc) (a ++ s) =
      tokens ends (.quoted .single (acc ++ a)) s := by
  induction a using Harmless.induct generalizing acc with
  | case1 => simp
  | case2 b =>
    simp only [Harmless, Bool.and_eq_true] at ha
    exact quoted_other (by simpa using ha.1) (by simpa using ha.2) s
  | case3 c s' ih =>
    simp only [Harmless, if_true, Bool.and_eq_true, Bool.or_eq_true, decide_eq_true_eq] at ha
    obtain ⟨hc, hs⟩ := ha
    have hfull : unescape c = [92, c] := by
      rcases hc with rfl | rfl <;> rfl
    rw [List.cons_append, List.cons_append, quoted_backslash, escaped_cons, hfull, ih hs,
      List.append_assoc]
    rfl
  | case4 b c s' hb ih =>
    simp only [Harmless, if_neg hb, Bool.and_eq_true, decide_eq_true_eq] at ha
    rw [List.cons_append, quoted_other ha.1 hb, ih ha.2, List.append_assoc]
    rfl

end Quoted

/-! The statement between its commas. -/

inductive Slot
  | quoted
  | bare
  deriving DecidableEq

/-- What stands between two commas: a fixed text, or a value with a fixed text around it. -/
structure Segment where
  before : Bytes
  slot : Option Slot
  after : Bytes
  deriving DecidableEq

/-- The text with a value put in. -/
def Segment.text (g : Segment) (v : Bytes) : Bytes :=
  match g.slot with
  | none => g.before ++ g.after
  | some .quoted => g.before ++ 39 :: (v ++ 39 :: g.after)
  | some .bare => g.before ++ (v ++ g.after)

/-- The tokens of one literal, and its value. -/
inductive IsLiteral : List Token → Bytes → Prop
  | str (s : Bytes) : IsLiteral [.str s] s
  | number (t : Bytes) : IsLiteral [.number t] t
  | signed (b : UInt8) (t : Bytes) (hb : b = 43 ∨ b = 45) :
      IsLiteral [.symbol b, .number t] (b :: t)

/-- The literal that a value is meant to be. -/
def Slot.literal : Slot → Bytes → List Token
  | .quoted, v => [.str v]
  | .bare, [] => [.number []]
  | .bare, b :: t => if b = 43 ∨ b = 45 then [.symbol b, .number t] else [.number (b :: t)]

theorem Slot.isLiteral (slot : Slot) (v : Bytes) : IsLiteral (slot.literal v) v := by
  cases slot with
  | quoted => exact .str v
  | bare =>
    cases v with
    | nil => exact .number []
    | cons b t =>
      simp only [Slot.literal]
      split
      · rename_i hb
        exact .signed b t hb
      · exact .number (b :: t)

/-- The tokens are those of the fixed text, with one literal for the value. -/
def Segment.Reads (g : Segment) (v : Bytes) (ts : List Token) : Prop :=
  ∃ us vs, lex g.before = some us ∧ lex g.after = some vs ∧
    match g.slot with
    | none => ts = us ++ vs
    | some _ => ∃ l, IsLiteral l v ∧ ts = us ++ l ++ vs

/-- The tokens that a part is meant to have. -/
def Segment.meant (g : Segment) (v : Bytes) : List Token :=
  (lex g.before).getD [] ++ (g.slot.map fun slot => slot.literal v).getD [] ++
    (lex g.after).getD []

/-- When a value is read back. -/
def Segment.Safe (g : Segment) (v : Bytes) : Prop :=
  match g.slot with
  | none => True
  | some .quoted => Harmless v
  | some .bare => isSigned v

/-- The fixed text has no open token where it is cut, and next to a bare value stands nothing
that could belong to a numeral. -/
def Segment.Sound (g : Segment) : Prop :=
  44 ∉ g.before ∧ 44 ∉ g.after ∧
    (tokens flush .start g.after).isSome ∧ tokens flush .start g.after = lex g.after ∧
    match g.slot with
    | none => g.after = [] ∧ (tokens flush .start g.before).isSome ∧
        tokens flush .start g.before = lex g.before
    | some .quoted => (scan .start g.before).2 = .start ∧ 39 ∉ g.after
    | some .bare => (scan .start g.before).2 = .start ∧
        g.after.head?.all fun b => b = 41 || b = 32

/-- After a bare value every byte belongs to a token. -/
def Segment.Tight (g : Segment) : Prop :=
  g.slot = some .bare → (lex g.after).map size = some g.after.length

instance (g : Segment) : Decidable g.Tight := inferInstanceAs (Decidable (_ → _))

instance Segment.Sound.decidable (g : Segment) : Decidable g.Sound := by
  unfold Segment.Sound
  cases g.slot with
  | none => exact inferInstance
  | some slot => cases slot <;> exact inferInstance

theorem tokens_eq {s : Bytes} {ends : Mode → Option (List Token)} (hends : Ends ends)
    (h : tokens flush .start s = lex s) : tokens ends .start s = lex s := by
  rcases hends with rfl | rfl
  · exact h
  · rfl

theorem tokens_from_start (ends : Mode → Option (List Token)) {before : Bytes}
    (h : (scan .start before).2 = .start) (s : Bytes) :
    lex before = some (scan .start before).1 ∧
      tokens ends .start (before ++ s) =
        (tokens ends .start s).map ((scan .start before).1 ++ ·) := by
  refine ⟨?_, ?_⟩
  · rw [lex, tokens, h]
    simp [finish, flush]
  · rw [tokens_append, h]

theorem IsLiteral.commas {l : List Token} {v : Bytes} (h : IsLiteral l v) : commas l = 0 := by
  cases h with
  | str | number => rfl
  | signed b t hb => rcases hb with rfl | rfl <;> rfl

/-- What stands next to a numeral ends it. -/
theorem tokens_number {ends : Mode → Option (List Token)} (hends : Ends ends) {n : Numeral}
    {acc after : Bytes} (hafter : after.head?.all (fun b => b = 41 || b = 32)) :
    tokens ends (.number n acc) after = (tokens ends .start after).map (n.tokens acc ++ ·) := by
  cases after with
  | nil => rcases hends with rfl | rfl <;> simp [tokens, scan, flush, finish]
  | cons b s =>
    have hstep : (Mode.number n acc).step b = turn (n.tokens acc) b := by
      have hb : b = 41 ∨ b = 32 := by simpa using hafter
      rcases hb with rfl | rfl <;> cases n <;> rfl
    rw [tokens_cons, tokens_cons, hstep]
    simp only [turn, Option.map_map, step]
    congr 1
    funext ts
    exact List.append_assoc _ _ _

theorem isNumber_tokens {t : Bytes} (h : isNumber t) :
    ∃ n, readNumeral t = some n ∧ n.tokens t = [.number t] := by
  unfold isNumber at h
  split at h
  · exact ⟨.whole, by assumption, rfl⟩
  · exact ⟨.fraction, by assumption, rfl⟩
  · exact ⟨.power, by assumption, rfl⟩
  · cases h

theorem head_number {t : Bytes} (h : isNumber t) (s : Bytes) :
    ∃ b, (t ++ s).head? = some b ∧ b ≠ 43 ∧ b ≠ 45 := by
  obtain ⟨n, hn, _⟩ := isNumber_tokens h
  cases t with
  | nil => cases hn
  | cons b t =>
    refine ⟨b, rfl, not_or.mp ?_⟩
    intro hsign
    have hopening : Numeral.opening b = none := by
      rcases hsign with rfl | rfl <;> rfl
    rw [readNumeral, hopening] at hn
    have hnone : ∀ s : Bytes,
        s.foldl (fun n c => n.bind (Numeral.next c)) none = none := fun s => by
      induction s with
      | nil => rfl
      | cons c s ih => exact ih
    cases (hnone t).symm.trans hn

theorem tokens_sign {ends : Mode → Option (List Token)} {b : UInt8} (hb : b = 43 ∨ b = 45)
    {s : Bytes} (hs : ∃ c, s.head? = some c ∧ c ≠ 43 ∧ c ≠ 45) :
    tokens ends .start (b :: s) = (tokens ends .start s).map ([.symbol b] ++ ·) := by
  rcases hb with rfl | rfl
  · rw [tokens_cons]
    rfl
  · obtain ⟨c, hhead, _, hc⟩ := hs
    cases s with
    | nil => cases hhead
    | cons d s =>
      cases hhead
      rw [tokens_cons, tokens_cons, tokens_cons]
      have hdash : Mode.step 45 .start = ([], .dash) := rfl
      have hturn : Mode.dash.step c = turn [.symbol 45] c := if_neg hc
      simp only [hdash, hturn, turn, Option.map_map]
      congr 1

/-- A numeral with its sign is read as one literal. -/
theorem tokens_signed {ends : Mode → Option (List Token)} (hends : Ends ends) {v after : Bytes}
    (hv : isSigned v) (hafter : after.head?.all (fun b => b = 41 || b = 32)) :
    tokens ends .start (v ++ after) =
      (tokens ends .start after).map (Slot.bare.literal v ++ ·) := by
  have hunsigned : ∀ t, isNumber t → tokens ends .start (t ++ after) =
      (tokens ends .start after).map ([.number t] ++ ·) := fun t ht => by
    obtain ⟨n, hn, htokens⟩ := isNumber_tokens ht
    rw [tokens_append, scan_numeral hn, tokens_number hends hafter, htokens, Option.map_map]
    rfl
  cases v with
  | nil => cases hv
  | cons b t =>
    simp only [isSigned] at hv
    simp only [Slot.literal]
    split at hv
    · rename_i hb
      rw [if_pos hb, List.cons_append, tokens_sign hb (head_number hv after), hunsigned t hv,
        Option.map_map]
      rfl
    · rename_i hb
      rw [if_neg hb]
      exact hunsigned _ hv

theorem IsLiteral.signed_of_numbers {l : List Token} {v : Bytes} (h : IsLiteral l v)
    (hstr : ∀ s, l ≠ [.str s]) (hl : Numbers l) : isSigned v := by
  cases h with
  | str => exact absurd rfl (hstr v)
  | number =>
    have hv := hl v (by simp)
    obtain ⟨b, hhead, hplus, hminus⟩ := head_number hv []
    cases v with
    | nil => cases hhead
    | cons c s =>
      cases hhead
      simpa [isSigned, hplus, hminus] using hv
  | signed b t hb =>
    have ht := hl t (by simp)
    simpa [isSigned, hb] using ht

theorem start_quote {ends : Mode → Option (List Token)} (s : Bytes) :
    tokens ends .start (39 :: s) = tokens ends (.quoted .single []) s := by
  rw [tokens_cons]
  exact Option.map_id_apply

section Part

variable {ends : Mode → Option (List Token)} {g : Segment}

/-- A safe value leaves the tokens of a part as they are meant to be. -/
theorem Segment.tokens_safe (hends : Ends ends) (hg : g.Sound) {v : Bytes} (hv : g.Safe v) :
    tokens ends .start (g.text v) = some (g.meant v) ∧ g.Reads v (g.meant v) := by
  obtain ⟨before, slot, after⟩ := g
  obtain ⟨_, _, hsome, heq, hslot⟩ := hg
  have hafter := tokens_eq hends heq
  obtain ⟨vs, hvs⟩ := Option.isSome_iff_exists.mp (heq ▸ hsome)
  have hvs : lex after = some vs := hvs
  cases slot with
  | none =>
    obtain ⟨rfl, hbefore, hbeq⟩ := hslot
    obtain ⟨us, hus⟩ := Option.isSome_iff_exists.mp (hbeq ▸ hbefore)
    have hus : lex before = some us := hus
    cases hvs
    have hnil : lex [] = some [] := rfl
    refine ⟨?_, us, [], hus, hnil, ?_⟩
    · simp [Segment.text, tokens_eq hends hbeq, Segment.meant, hus, hnil]
    · simp [Segment.meant, hus, hnil]
  | some slot =>
    have hstart : (scan .start before).2 = .start := by
      cases slot <;> exact hslot.1
    have hbefore := (tokens_from_start ends hstart []).1
    refine ⟨?_, _, vs, hbefore, hvs, slot.literal v, slot.isLiteral v, ?_⟩
    · cases slot with
      | quoted =>
        have hhead : after.head? ≠ some 39 := fun h => hslot.2 (List.mem_of_mem_head? h)
        simp only [Segment.text, (tokens_from_start ends hstart _).2, start_quote,
          tokens_harmless hv, quoted_quote, closing_other hends hhead, hafter, hvs]
        simp [Segment.meant, hbefore, hvs, Slot.literal]
      | bare =>
        simp only [Segment.text, (tokens_from_start ends hstart _).2,
          tokens_signed hends hv hslot.2, hafter, hvs]
        simp [Segment.meant, hbefore, hvs]
    · simp [Segment.meant, hbefore, hvs]

/-- Only safe values are read back. -/
theorem Segment.safe_of_reads (hends : Ends ends) (hg : g.Sound) {v : Bytes}
    (htight : g.Tight ∨ g.Safe v) {ts : List Token}
    (hts : tokens ends .start (g.text v) = some ts) (hreads : g.Reads v ts) : g.Safe v := by
  refine htight.elim (fun htight => ?_) id
  obtain ⟨before, slot, after⟩ := g
  obtain ⟨us, vs, hus, hvs, hl⟩ := hreads
  cases slot with
  | none => trivial
  | some slot =>
    obtain ⟨l, hl, rfl⟩ := hl
    have hslot := hg.2.2.2.2
    have hstart : (scan .start before).2 = .start := by
      cases slot <;> exact hslot.1
    have hcut : ∀ s, tokens ends .start (before ++ s) = some (us ++ l ++ vs) →
        tokens ends .start s = some (l ++ vs) := fun s hs => by
      obtain ⟨hbefore, hall⟩ := tokens_from_start ends hstart s
      cases hbefore.symm.trans hus
      obtain ⟨rest, hrest, hjoin⟩ := Option.map_eq_some_iff.mp (hall.symm.trans hs)
      rw [List.append_assoc] at hjoin
      rw [hrest, List.append_cancel_left hjoin]
    cases slot with
    | quoted =>
      have hrest := hcut _ hts
      rw [start_quote] at hrest
      obtain ⟨s, us', hs, _⟩ := (tokens_quoted hends hslot.2 v).1 hrest
      cases hl with
      | str => exact harmless_of_tokens hends hslot.2 hrest
      | number => cases hs
      | signed => cases hs
    | bare =>
      have hrest := hcut _ hts
      refine hl.signed_of_numbers (fun s hstr => ?_) fun t ht =>
        numbers_tokens hends hrest t (List.mem_append_left _ ht)
      -- The two quotes of a string are not in its value, and all of `after` is tokens.
      have hle : size (l ++ vs) ≤ (v ++ after).length := size_tokens hends hrest
      subst hstr
      cases hl
      have hsize : (lex after).map size = some after.length := htight rfl
      rw [show lex after = some vs from hvs] at hsize
      have hsize : size vs = after.length := Option.some.inj hsize
      have hquotes : size [.str v] = v.length + 2 := rfl
      rw [size_append, hsize, hquotes, List.length_append] at hle
      omega

end Part

/-- The tokens of a statement, part by part. -/
def Reads : List (Segment × Bytes) → List Token → Prop
  | [], _ => False
  | [p], ts => p.1.Reads p.2 ts
  | p :: ps, ts => ∃ us vs, ts = us ++ .symbol 44 :: vs ∧ p.1.Reads p.2 us ∧ Reads ps vs

/-- The tokens that a statement is meant to have. -/
def statementTokens : List (Segment × Bytes) → List Token
  | [] => []
  | [p] => p.1.meant p.2
  | p :: ps => p.1.meant p.2 ++ .symbol 44 :: statementTokens ps

/-- The text of a statement. -/
def statement (ps : List (Segment × Bytes)) : Bytes :=
  comma.intercalate (ps.map fun p => p.1.text p.2)

theorem commas_lex {s : Bytes} (hs : 44 ∉ s) {ts : List Token} (h : lex s = some ts) :
    commas ts = 0 := by
  have hle := commas_tokens (Or.inr rfl) h
  rw [List.count_eq_zero_of_not_mem hs] at hle
  exact Nat.le_zero.mp hle

theorem Segment.Sound.commas {g : Segment} (hg : g.Sound) {v : Bytes} {ts : List Token}
    (h : g.Reads v ts) : Sql.commas ts = 0 := by
  obtain ⟨us, vs, hus, hvs, hslot⟩ := h
  have hbefore := commas_lex hg.1 hus
  have hafter := commas_lex hg.2.1 hvs
  split at hslot
  · rw [hslot, commas_append, hbefore, hafter]
  · obtain ⟨l, hl, rfl⟩ := hslot
    rw [commas_append, commas_append, hbefore, hafter, hl.commas]

theorem Segment.Sound.not_mem_text {g : Segment} (hg : g.Sound) {v : Bytes} (hv : 44 ∉ v) :
    44 ∉ g.text v := by
  have hbefore := hg.1
  have hafter := hg.2.1
  unfold Segment.text
  split <;> simp [hbefore, hafter, hv]

theorem append_cons_inj {c : Token} {us us' vs vs' : List Token} (hus : c ∉ us) (hus' : c ∉ us')
    (h : us ++ c :: vs = us' ++ c :: vs') : us = us' ∧ vs = vs' := by
  induction us generalizing us' with
  | nil =>
    cases us' with
    | nil => exact ⟨rfl, (List.cons.inj h).2⟩
    | cons t us' =>
      have ht := (List.cons.inj h).1
      exact absurd (ht ▸ List.mem_cons_self) hus'
  | cons t us ih =>
    cases us' with
    | nil =>
      have ht := (List.cons.inj h).1
      exact absurd (ht ▸ List.mem_cons_self) hus
    | cons t' us' =>
      obtain ⟨rfl, hrest⟩ := List.cons.inj h
      obtain ⟨rfl, hvs⟩ := ih (fun hmem => hus (List.mem_cons_of_mem _ hmem))
        (fun hmem => hus' (List.mem_cons_of_mem _ hmem)) hrest
      exact ⟨rfl, hvs⟩

section Statement

variable {ps : List (Segment × Bytes)}

theorem Reads.commas (hps : ∀ p ∈ ps, p.1.Sound) {ts : List Token} (h : Reads ps ts) :
    commas ts + 1 = ps.length := by
  induction ps generalizing ts with
  | nil => exact h.elim
  | cons p ps ih =>
    obtain ⟨hp, hrest⟩ := List.forall_mem_cons.mp hps
    cases ps with
    | nil => rw [hp.commas h, List.length_singleton]
    | cons q ps =>
      obtain ⟨us, vs, rfl, hus, hvs⟩ := h
      have hcount := ih hrest hvs
      have hcomma : Sql.commas [.symbol 44] = 1 := rfl
      rw [← List.singleton_append, commas_append, commas_append, hp.commas hus, hcomma,
        List.length_cons]
      omega

theorem statement_cons (p q : Segment × Bytes) (ps : List (Segment × Bytes)) :
    statement (p :: q :: ps) = p.1.text p.2 ++ 44 :: statement (q :: ps) := by
  simp only [statement, List.map_cons, List.intercalate_cons_cons, List.append_assoc]
  rfl

theorem count_statement (hne : ps ≠ []) (hps : ∀ p ∈ ps, p.1.Sound ∧ 44 ∉ p.2) :
    (statement ps).count 44 + 1 = ps.length := by
  induction ps with
  | nil => exact absurd rfl hne
  | cons p ps ih =>
    obtain ⟨⟨hp, hv⟩, hrest⟩ := List.forall_mem_cons.mp hps
    have hzero := List.count_eq_zero_of_not_mem (hp.not_mem_text hv)
    cases ps with
    | nil => simp [statement, hzero]
    | cons q ps =>
      have hcount := ih (by simp) hrest
      rw [statement_cons, List.count_append, hzero, List.count_cons_self, List.length_cons]
      omega

/-- Safe values leave the tokens of a statement as they are meant to be. -/
theorem lex_statement (hne : ps ≠ []) (hps : ∀ p ∈ ps, p.1.Sound)
    (hsafe : ∀ p ∈ ps, p.1.Safe p.2) :
    lex (statement ps) = some (statementTokens ps) ∧ Reads ps (statementTokens ps) := by
  induction ps with
  | nil => exact absurd rfl hne
  | cons p ps ih =>
    obtain ⟨hp, hrest⟩ := List.forall_mem_cons.mp hps
    obtain ⟨hv, hvs⟩ := List.forall_mem_cons.mp hsafe
    cases ps with
    | nil =>
      obtain ⟨htokens, hpart⟩ := Segment.tokens_safe (Or.inr rfl) hp hv
      refine ⟨?_, hpart⟩
      rw [statement, List.map_singleton, List.intercalate_singleton]
      exact htokens
    | cons q ps =>
      obtain ⟨hlex, hreads⟩ := ih (by simp) hrest hvs
      obtain ⟨htokens, hpart⟩ := Segment.tokens_safe (Or.inl rfl) hp hv
      rw [statement_cons]
      exact ⟨tokens_comma_append htokens hlex, _, _, rfl, hpart, hreads⟩

/-- Only safe values leave the statement as it is fixed. -/
theorem safe_of_reads (hps : ∀ p ∈ ps, p.1.Sound ∧ 44 ∉ p.2)
    (htight : ∀ p ∈ ps, p.1.Tight ∨ p.1.Safe p.2) {ts : List Token}
    (hts : lex (statement ps) = some ts) (hreads : Reads ps ts) : ∀ p ∈ ps, p.1.Safe p.2 := by
  induction ps generalizing ts with
  | nil => exact hreads.elim
  | cons p ps ih =>
    obtain ⟨⟨hp, hv⟩, hrest⟩ := List.forall_mem_cons.mp hps
    obtain ⟨hpart, hparts⟩ := List.forall_mem_cons.mp htight
    cases ps with
    | nil =>
      simp only [statement, List.map_cons, List.map_nil, List.intercalate_singleton] at hts
      exact List.forall_mem_singleton.mpr
        (Segment.safe_of_reads (Or.inr rfl) hp hpart hts hreads)
    | cons q ps =>
      obtain ⟨us, vs, rfl, hus, hvs⟩ := hreads
      rw [statement_cons] at hts
      have hzero := hp.commas hus
      have hcount := Reads.commas (fun p hmem => (hrest p hmem).1) hvs
      have htext := count_statement (by simp) hrest
      have hcomma : Sql.commas [.symbol 44] = 1 := rfl
      obtain ⟨us', vs', hus', hvs', heq, hzero', _⟩ := tokens_comma (Or.inr rfl)
        (hp.not_mem_text hv) hts (by
          rw [← List.singleton_append, commas_append, commas_append, hzero, hcomma]
          omega)
      obtain ⟨rfl, rfl⟩ := append_cons_inj (List.count_eq_zero.mp hzero)
        (List.count_eq_zero.mp hzero') heq
      exact List.forall_mem_cons.mpr ⟨Segment.safe_of_reads (Or.inl rfl) hp hpart hus' hus,
        ih hrest hparts hvs' hvs⟩

/-- A statement is read as its fixed text with one literal for every value exactly when every
value is safe where it stands. -/
theorem reads_iff (hne : ps ≠ []) (hps : ∀ p ∈ ps, p.1.Sound ∧ 44 ∉ p.2)
    (htight : ∀ p ∈ ps, p.1.Tight ∨ p.1.Safe p.2) :
    (∃ ts, lex (statement ps) = some ts ∧ Reads ps ts) ↔ ∀ p ∈ ps, p.1.Safe p.2 :=
  ⟨fun ⟨_, hts, hreads⟩ => safe_of_reads hps htight hts hreads,
    fun hsafe => ⟨_, lex_statement hne (fun p hp => (hps p hp).1) hsafe⟩⟩

end Statement

end Ue4Background.Sql
