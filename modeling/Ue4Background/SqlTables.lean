import Ue4Background.Protobuf
import Ue4Background.SqlTemplates

/-!
What statements do, over one table per name. A table is the list of its rows, and a row holds
an integer or a text in each of its columns. Parsing does not look at the values, so a
statement is parsed once with the places of its values and then filled.
-/

namespace Ue4Background.Sql

open LuaValues Mode Protobuf

/-! Decimal numerals. -/

def digits (n : ℕ) : Bytes := (Nat.toDigits 10 n).map fun c => c.val.toUInt8

def ofDigits (s : Bytes) : ℕ := s.foldl (fun n b => 10 * n + (b.toNat - 48)) 0

def decimal (n : ℤ) : Bytes := if n < 0 then 45 :: digits n.natAbs else digits n.natAbs

theorem digits_ne_nil (n : ℕ) : digits n ≠ [] := by
  simp [digits, Nat.toDigits_ne_nil]

theorem toNat_digit_char {c : Char} (hc : c.isDigit) :
    c.val.toUInt8.toNat = c.toNat ∧ 48 ≤ c.toNat ∧ c.toNat ≤ 57 := by
  have hrange : 48 ≤ c.toNat ∧ c.toNat ≤ 57 := by
    simpa [Char.isDigit, UInt32.le_iff_toNat_le] using hc
  refine ⟨?_, hrange⟩
  show c.toNat % 256 = c.toNat
  omega

theorem digits_isDigit (n : ℕ) : (digits n).all isDigit := by
  rw [digits, List.all_map, List.all_eq_true]
  intro c hc
  obtain ⟨heq, hlow, hhigh⟩ := toNat_digit_char
    (Nat.isDigit_of_mem_toDigits (by decide) (by decide) hc)
  simp only [Function.comp, isDigit, Bool.and_eq_true, decide_eq_true_eq, UInt8.le_iff_toNat_le,
    heq]
  exact ⟨hlow, hhigh⟩

theorem ofDigits_digits (n : ℕ) : ofDigits (digits n) = n := by
  have hchars : ∀ (cs : List Char) (init : ℕ), (∀ c ∈ cs, c.isDigit) →
      (cs.map fun c => c.val.toUInt8).foldl (fun n b => 10 * n + (b.toNat - 48)) init =
        Nat.ofDigitChars 10 cs init := by
    intro cs
    induction cs with
    | nil => intro init _; rfl
    | cons c cs ih =>
      intro init hcs
      obtain ⟨hc, hrest⟩ := List.forall_mem_cons.mp hcs
      rw [List.map_cons, List.foldl_cons, ih _ hrest, Nat.ofDigitChars_cons,
        (toNat_digit_char hc).1]
      rfl
  rw [ofDigits, digits, hchars _ _ fun c hc =>
    Nat.isDigit_of_mem_toDigits (by decide) (by decide) hc]
  exact Nat.ofDigitChars_toDigits (by decide) (by decide)

theorem isNumber_of_digits {s : Bytes} (hne : s ≠ []) (hs : s.all isDigit) : isNumber s := by
  have hwhole : readNumeral s = some .whole := by
    obtain ⟨b, s, rfl⟩ := List.exists_cons_of_ne_nil hne
    simp only [List.all_cons, Bool.and_eq_true] at hs
    obtain ⟨hb, hs⟩ := hs
    rw [readNumeral, Numeral.opening, if_pos hb]
    clear hne
    induction s with
    | nil => rfl
    | cons c s ih =>
      simp only [List.all_cons, Bool.and_eq_true] at hs
      rw [List.foldl_cons, Option.bind_some, Numeral.next, if_pos hs.1]
      exact ih hs.2
  rw [isNumber, hwhole]

theorem literal_decimal (n : ℤ) : Slot.bare.literal (decimal n) =
    if n < 0 then [.symbol 45, .number (digits n.natAbs)] else [.number (digits n.natAbs)] := by
  unfold decimal
  split
  · rfl
  · obtain ⟨b, s, hbs⟩ := List.exists_cons_of_ne_nil (digits_ne_nil n.natAbs)
    have hall := digits_isDigit n.natAbs
    rw [hbs] at hall ⊢
    have hb : ¬ (b = 43 ∨ b = 45) := by
      rintro (rfl | rfl) <;> simp [isDigit] at hall
    simp only [Slot.literal, if_neg hb]

theorem isSigned_decimal (n : ℤ) : isSigned (decimal n) := by
  have hnumber := isNumber_of_digits (digits_ne_nil n.natAbs) (digits_isDigit n.natAbs)
  have hliteral := (Slot.bare.isLiteral (decimal n)).signed_of_numbers
  rw [literal_decimal] at hliteral
  refine hliteral (fun s => ?_) fun t ht => ?_
  · split <;> simp
  · split at ht <;> simp_all

/-- A token with the values of its literals told apart. -/
inductive Lexeme (V : Type)
  | word (w : Bytes)
  | symbol (b : UInt8)
  | value (v : V)
  deriving DecidableEq

/-- A signed integer; other numerals stay words. -/
def integer (minus : Bool) (t : Bytes) : Lexeme Scalar :=
  if t.all isDigit then .value (.int (if minus then -ofDigits t else ofDigits t)) else .word t

def lexemes : List Token → List (Lexeme Scalar)
  | .symbol b :: .number t :: ts =>
    if b = 45 then integer true t :: lexemes ts
    else if b = 43 then integer false t :: lexemes ts
    else .symbol b :: integer false t :: lexemes ts
  | .symbol b :: ts => .symbol b :: lexemes ts
  | .number t :: ts => integer false t :: lexemes ts
  | .word w :: ts => .word w :: lexemes ts
  | .str s :: ts => .value (.text s) :: lexemes ts
  | [] => []

/-- A row is the list of its columns. -/
abbrev Row := List (Bytes × Scalar)

abbrev Tables := Bytes → List Row

inductive Statement (V : Type)
  | insert (table : Bytes) (columns : List Bytes) (values : List V)
  | select (table : Bytes) (key : Option (Bytes × V)) (limit : V)
  deriving DecidableEq

/-- Keywords are written in either case. -/
def isKeyword (keyword : String) (w : Bytes) : Bool :=
  w.map (fun b => if 65 ≤ b && b ≤ 90 then b + 32 else b) = bytes keyword

section Parse

variable {V A : Type}

def Lexeme.name : Lexeme V → Option Bytes
  | .word w => some w
  | _ => none

def Lexeme.toValue : Lexeme V → Option V
  | .value v => some v
  | _ => none

/-- Items with commas between them and a parenthesis after the last. -/
def parseList (item : Lexeme V → Option A) :
    List (Lexeme V) → Option (List A × List (Lexeme V))
  | l :: .symbol b :: ls =>
    (item l).bind fun a =>
      if b = 44 then (parseList item ls).map fun r => (a :: r.1, r.2)
      else if b = 41 then some ([a], ls)
      else none
  | _ => none

/-- `values (...)` -/
def parseValues (table : Bytes) (columns : List Bytes) :
    List (Lexeme V) → Option (Statement V)
  | .word w :: .symbol b :: ls =>
    if isKeyword "values" w && b = 40 then
      (parseList Lexeme.toValue ls).bind fun r =>
        if r.2.isEmpty then some (.insert table columns r.1) else none
    else none
  | _ => none

/-- `into table (...) values (...)` -/
def parseInsert : List (Lexeme V) → Option (Statement V)
  | .word w :: .word table :: .symbol b :: ls =>
    if isKeyword "into" w && b = 40 then
      (parseList Lexeme.name ls).bind fun r => parseValues table r.1 r.2
    else none
  | _ => none

/-- `limit n` -/
def parseLimit (table : Bytes) (key : Option (Bytes × V)) :
    List (Lexeme V) → Option (Statement V)
  | [.word w, .value n] => if isKeyword "limit" w then some (.select table key n) else none
  | _ => none

/-- `where column = value limit n` -/
def parseWhere (table : Bytes) : List (Lexeme V) → Option (Statement V)
  | .word w :: .word column :: .symbol b :: .value v :: ls =>
    if isKeyword "where" w && b = 61 then parseLimit table (some (column, v)) ls else none
  | ls => parseLimit table none ls

/-- `* from table ...` -/
def parseSelect : List (Lexeme V) → Option (Statement V)
  | .symbol b :: .word w :: .word table :: ls =>
    if isKeyword "from" w && b = 42 then parseWhere table ls else none
  | _ => none

def parseStatement : List (Lexeme V) → Option (Statement V)
  | .word w :: ls =>
    if isKeyword "insert" w then parseInsert ls
    else if isKeyword "select" w then parseSelect ls
    else none
  | _ => none

end Parse

/-- The rows with the key, or all of them. -/
def hasKey (key : Option (Bytes × Scalar)) (row : Row) : Bool :=
  key.all fun k => row.lookup k.1 = some k.2

/-- The rows of the answer, and the tables afterwards. -/
def Statement.run (db : Tables) : Statement Scalar → Option (List Row × Tables)
  | .insert table columns values =>
    if columns.length = values.length then
      some ([], Function.update db table (db table ++ [columns.zip values]))
    else none
  | .select table key (.int n) => some (((db table).filter (hasKey key)).take n.toNat, db)
  | .select _ _ (.text _) => none

/-- A text that is no statement answers with an error. -/
def execute (sql : Bytes) (db : Tables) : Option (List Row × Tables) :=
  (lex sql).bind fun ts => (parseStatement (lexemes ts)).bind (·.run db)

example : (execute (bytes "select * from t where id = 5 limit 1")
    fun _ => [[(bytes "id", .int 4)], [(bytes "id", .int 5)]]).map Prod.fst =
      some [[(bytes "id", .int 5)]] := by decide

/-! The values of a statement are put in after it has been parsed. -/

section Map

variable {V W A : Type}

def Lexeme.map (f : V → W) : Lexeme V → Lexeme W
  | .word w => .word w
  | .symbol b => .symbol b
  | .value v => .value (f v)

def Statement.map (f : V → W) : Statement V → Statement W
  | .insert table columns values => .insert table columns (values.map f)
  | .select table key limit => .select table (key.map fun k => (k.1, f k.2)) (f limit)

theorem parseList_map {B : Type} (f : V → W) (g : A → B) {item : Lexeme V → Option A}
    {item' : Lexeme W → Option B} (hitem : ∀ l, item' (l.map f) = (item l).map g)
    (ls : List (Lexeme V)) :
    parseList item' (ls.map (Lexeme.map f)) =
      (parseList item ls).map fun r => (r.1.map g, r.2.map (Lexeme.map f)) := by
  induction ls using parseList.induct with
  | case1 l b ls ih =>
    have hcons : (l :: .symbol b :: ls).map (Lexeme.map f) =
        l.map f :: .symbol b :: ls.map (Lexeme.map f) := rfl
    rw [hcons, parseList, parseList, hitem, ih]
    cases item l with
    | none => rfl
    | some a =>
      simp only [Option.map_some, Option.bind_some]
      split
      · simp [Option.map_map, Function.comp_def]
      · split <;> simp
  | case2 ls hls =>
    rcases ls with _ | ⟨l, _ | ⟨l', ls⟩⟩
    · rfl
    · rfl
    · cases l' with
      | symbol b => exact absurd rfl (hls l b ls)
      | word w => rfl
      | value v => rfl

theorem parseValues_map (f : V → W) (table : Bytes) (columns : List Bytes)
    (ls : List (Lexeme V)) :
    parseValues table columns (ls.map (Lexeme.map f)) =
      (parseValues table columns ls).map (Statement.map f) := by
  rcases ls with _ | ⟨l, _ | ⟨l', ls⟩⟩
  · rfl
  · cases l <;> rfl
  · cases l with
    | symbol b | value v => rfl
    | word w =>
      cases l' with
      | word w' | value v => rfl
      | symbol b =>
        have hitem : ∀ l : Lexeme V, (l.map f).toValue = l.toValue.map f := by
          rintro (_ | _ | _) <;> rfl
        show parseValues table columns (.word w :: .symbol b :: ls.map (Lexeme.map f)) = _
        rw [parseValues, parseValues, parseList_map f f hitem]
        split
        · cases parseList Lexeme.toValue ls with
          | none => rfl
          | some r =>
            simp only [Option.map_some, Option.bind_some, List.isEmpty_map]
            split <;> rfl
        · rfl

theorem parseInsert_map (f : V → W) (ls : List (Lexeme V)) :
    parseInsert (ls.map (Lexeme.map f)) = (parseInsert ls).map (Statement.map f) := by
  rcases ls with _ | ⟨l, _ | ⟨l', _ | ⟨m, ls⟩⟩⟩
  · rfl
  · cases l <;> rfl
  · cases l <;> cases l' <;> rfl
  · cases l with
    | symbol b | value v => rfl
    | word w =>
      cases l' with
      | symbol b | value v => rfl
      | word table =>
        cases m with
        | word w' | value v => rfl
        | symbol b =>
          have hitem : ∀ l : Lexeme V, (l.map f).name = l.name.map id := by
            rintro (_ | _ | _) <;> rfl
          show parseInsert (.word w :: .word table :: .symbol b :: ls.map (Lexeme.map f)) = _
          rw [parseInsert, parseInsert, parseList_map f id hitem]
          split
          · cases parseList Lexeme.name ls with
            | none => rfl
            | some r =>
              rw [Option.map_some, Option.bind_some, Option.bind_some, List.map_id,
                parseValues_map]
          · rfl

theorem parseLimit_map (f : V → W) (table : Bytes) (key : Option (Bytes × V))
    (ls : List (Lexeme V)) :
    parseLimit table (key.map fun k => (k.1, f k.2)) (ls.map (Lexeme.map f)) =
      (parseLimit table key ls).map (Statement.map f) := by
  rcases ls with _ | ⟨l, _ | ⟨l', _ | ⟨m, ls⟩⟩⟩
  · rfl
  · cases l <;> rfl
  · cases l with
    | symbol b | value v => rfl
    | word w =>
      cases l' with
      | symbol b | word w' => rfl
      | value v =>
        show parseLimit table _ [.word w, .value (f v)] = _
        rw [parseLimit, parseLimit]
        split <;> rfl
  · cases l <;> cases l' <;> rfl

theorem parseWhere_map (f : V → W) (table : Bytes) (ls : List (Lexeme V)) :
    parseWhere table (ls.map (Lexeme.map f)) = (parseWhere table ls).map (Statement.map f) := by
  fun_cases parseWhere table ls with
  | case1 w column b v ls hwhere =>
    show parseWhere table (.word w :: .word column :: .symbol b :: .value (f v) ::
      ls.map (Lexeme.map f)) = _
    rw [parseWhere, if_pos hwhere, ← parseLimit_map]
    rfl
  | case2 w column b v ls hwhere =>
    show parseWhere table (.word w :: .word column :: .symbol b :: .value (f v) ::
      ls.map (Lexeme.map f)) = _
    rw [parseWhere, if_neg hwhere]
    rfl
  | case3 ls hls =>
    rw [← parseLimit_map, Option.map_none]
    rcases ls with _ | ⟨l, _ | ⟨l', _ | ⟨m, _ | ⟨m', ls⟩⟩⟩⟩
    · rfl
    · cases l <;> rfl
    · cases l <;> cases l' <;> rfl
    · cases l <;> cases l' <;> cases m <;> rfl
    · cases l <;> cases l' <;> cases m <;> cases m' <;>
        first
          | rfl
          | exact absurd rfl (hls _ _ _ _ _)

theorem parseStatement_map (f : V → W) (ls : List (Lexeme V)) :
    parseStatement (ls.map (Lexeme.map f)) = (parseStatement ls).map (Statement.map f) := by
  rcases ls with _ | ⟨l, ls⟩
  · rfl
  · cases l with
    | symbol b | value v => rfl
    | word w =>
      show parseStatement (.word w :: ls.map (Lexeme.map f)) = _
      rw [parseStatement, parseStatement, parseInsert_map]
      split
      · rfl
      · split
        · rcases ls with _ | ⟨l, _ | ⟨l', _ | ⟨m, ls⟩⟩⟩
          · rfl
          · cases l <;> rfl
          · cases l <;> cases l' <;> rfl
          · cases l <;> cases l' <;> cases m <;> try rfl
            rename_i b w' table
            show parseSelect (.symbol b :: .word w' :: .word table ::
              ls.map (Lexeme.map f)) = _
            rw [parseSelect, parseSelect, parseWhere_map]
            split <;> rfl
        · rfl

end Map

section Template

/-- How a value is put into a statement. -/
def written : Scalar → Bytes
  | .int n => decimal n
  | .text s => s

def Slot.Fits : Slot → Scalar → Prop
  | .quoted, .text _ => True
  | .bare, .int _ => True
  | _, _ => False

/-- The parts of a statement, each with its value. -/
def assign : List Segment → List Scalar → List (Segment × Bytes)
  | [], _ => []
  | g :: gs, vs =>
    match g.slot with
    | none => (g, []) :: assign gs vs
    | some _ => (g, (vs.head?.map written).getD []) :: assign gs vs.tail

theorem assign_ne_nil {gs : List Segment} (hne : gs ≠ []) (vs : List Scalar) :
    assign gs vs ≠ [] := by
  obtain ⟨g, gs, rfl⟩ := List.exists_cons_of_ne_nil hne
  unfold assign
  split <;> simp

theorem mem_assign {gs : List Segment} {vs : List Scalar} {p : Segment × Bytes}
    (hp : p ∈ assign gs vs) : p.1 ∈ gs ∧ (p.2 = [] ∨ ∃ v ∈ vs, p.2 = written v) := by
  induction gs generalizing vs with
  | nil => cases hp
  | cons g gs ih =>
    unfold assign at hp
    split at hp
    · rcases List.mem_cons.mp hp with rfl | hp
      · exact ⟨List.mem_cons_self, Or.inl rfl⟩
      · exact ⟨List.mem_cons_of_mem g (ih hp).1, (ih hp).2⟩
    · rcases List.mem_cons.mp hp with rfl | hp
      · refine ⟨List.mem_cons_self, ?_⟩
        cases vs with
        | nil => exact Or.inl rfl
        | cons v vs => exact Or.inr ⟨v, List.mem_cons_self, rfl⟩
      · obtain ⟨hmem, hvalue⟩ := ih hp
        refine ⟨List.mem_cons_of_mem g hmem, hvalue.imp_right ?_⟩
        exact fun ⟨v, hv, heq⟩ => ⟨v, List.mem_of_mem_tail hv, heq⟩

/-- There is a value of the right type for every slot. -/
def Fits : List Segment → List Scalar → Prop
  | [], _ => True
  | g :: gs, vs =>
    match g.slot with
    | none => Fits gs vs
    | some slot => (∃ v ∈ vs.head?, slot.Fits v) ∧ Fits gs vs.tail

def fixed (s : Bytes) : List (Lexeme (ℕ ⊕ Scalar)) :=
  (lexemes ((lex s).getD [])).map (Lexeme.map Sum.inr)

/-- A part with the place of its value. -/
def Segment.template (g : Segment) (i : ℕ) : List (Lexeme (ℕ ⊕ Scalar)) :=
  fixed g.before ++ (g.slot.map fun _ => Lexeme.value (Sum.inl i)).toList ++ fixed g.after

/-- A statement with the places of its values. -/
def template : ℕ → List Segment → List (Lexeme (ℕ ⊕ Scalar))
  | _, [] => []
  | i, [g] => g.template i
  | i, g :: gs =>
    g.template i ++ .symbol 44 :: template (if g.slot.isSome then i + 1 else i) gs

/-- A fixed text does not end in a sign, which a numeral after it would take. -/
def Unsigned (s : Bytes) : Prop :=
  ((lex s).getD []).getLast?.all fun t => t ≠ .symbol 43 && t ≠ .symbol 45

theorem lexemes_symbol {b : UInt8} {ts : List Token}
    (h : (b ≠ 43 ∧ b ≠ 45) ∨ ∀ t us, ts ≠ .number t :: us) :
    lexemes (.symbol b :: ts) = .symbol b :: lexemes ts := by
  rcases ts with _ | ⟨t, ts⟩
  · rfl
  · cases t with
    | number t =>
      rcases h with ⟨hplus, hminus⟩ | hne
      · simp only [lexemes, if_neg hplus, if_neg hminus]
      · exact absurd rfl (hne t ts)
    | word | str | symbol =>
      rw [lexemes]
      simp

theorem lexemes_append {us : List Token}
    (hus : us.getLast?.all fun t => t ≠ .symbol 43 && t ≠ .symbol 45) (ts : List Token) :
    lexemes (us ++ ts) = lexemes us ++ lexemes ts := by
  have htail : ∀ {t : Token} {us : List Token},
      ((t :: us).getLast?.all fun t => t ≠ .symbol 43 && t ≠ .symbol 45) →
        us.getLast?.all fun t => t ≠ .symbol 43 && t ≠ .symbol 45 := fun {t us} h => by
    cases us with
    | nil => rfl
    | cons t' us => rwa [List.getLast?_cons_cons] at h
  induction us using lexemes.induct with
  | case1 t us ih =>
    have hrest := ih (htail (htail hus))
    simp [lexemes, hrest]
  | case2 t us hb ih =>
    have hrest := ih (htail (htail hus))
    simp [lexemes, hrest]
  | case3 b t us hminus hplus ih =>
    have hrest := ih (htail (htail hus))
    simp [lexemes, hrest, hminus, hplus]
  | case4 b us hus' ih =>
    have hrest := ih (htail hus)
    have hleft : lexemes (.symbol b :: us) = .symbol b :: lexemes us :=
      lexemes_symbol (Or.inr hus')
    have hright : lexemes (.symbol b :: (us ++ ts)) = .symbol b :: lexemes (us ++ ts) := by
      refine lexemes_symbol ?_
      cases us with
      | nil => exact Or.inl (by simpa using hus)
      | cons t us => exact Or.inr fun t' us' heq => hus' t' us (by
          rw [(List.cons.inj heq).1])
    rw [List.cons_append, hleft, hright, hrest, List.cons_append]
  | case5 t us ih =>
    have hrest := ih (htail hus)
    simp [lexemes, hrest]
  | case6 w us ih =>
    have hrest := ih (htail hus)
    simp [lexemes, hrest]
  | case7 s us ih =>
    have hrest := ih (htail hus)
    simp [lexemes, hrest]
  | case8 => rfl

theorem lexemes_literal {slot : Slot} {v : Scalar} (h : slot.Fits v) (ts : List Token) :
    lexemes (slot.literal (written v) ++ ts) = .value v :: lexemes ts := by
  cases slot with
  | quoted =>
    cases v with
    | int n => exact h.elim
    | text s => rfl
  | bare =>
    cases v with
    | text s => exact h.elim
    | int n =>
      have hdigits := digits_isDigit n.natAbs
      rw [written, literal_decimal]
      split
      · have hn : -((n.natAbs : ℕ) : ℤ) = n := by omega
        have hinteger : integer true (digits n.natAbs) = .value (.int n) := by
          rw [integer, if_pos hdigits, ofDigits_digits, if_pos rfl, hn]
        rw [← hinteger]
        rfl
      · have hn : ((n.natAbs : ℕ) : ℤ) = n := by omega
        have hinteger : integer false (digits n.natAbs) = .value (.int n) := by
          rw [integer, if_pos hdigits, ofDigits_digits, if_neg Bool.false_ne_true, hn]
        rw [← hinteger]
        rfl

theorem fixed_fill (f : ℕ ⊕ Scalar → Scalar) (hf : ∀ v, f (.inr v) = v) (s : Bytes) :
    (fixed s).map (Lexeme.map f) = lexemes ((lex s).getD []) := by
  rw [fixed, List.map_map]
  have hid : Lexeme.map f ∘ Lexeme.map Sum.inr = id := by
    funext l
    cases l with
    | word | symbol => rfl
    | value v => exact congrArg Lexeme.value (hf v)
  rw [hid, List.map_id]

theorem lexemes_meant {g : Segment} (hbefore : Unsigned g.before) (hafter : Unsigned g.after)
    {f : ℕ ⊕ Scalar → Scalar} (hfixed : ∀ v, f (.inr v) = v) {i : ℕ} {v : Bytes}
    (hv : ∀ slot ∈ g.slot, slot.Fits (f (.inl i)) ∧ v = written (f (.inl i))) (ts : List Token) :
    lexemes (g.meant v ++ ts) = (g.template i).map (Lexeme.map f) ++ lexemes ts := by
  have hslot : lexemes ((g.slot.map fun slot => slot.literal v).getD [] ++
      ((lex g.after).getD [] ++ ts)) =
        ((g.slot.map fun _ => Lexeme.value (Sum.inl i)).toList).map (Lexeme.map f) ++
          lexemes ((lex g.after).getD [] ++ ts) := by
    cases hg : g.slot with
    | none => rfl
    | some slot =>
      obtain ⟨hfits, rfl⟩ := hv slot hg
      exact lexemes_literal hfits _
  rw [Segment.meant, List.append_assoc, List.append_assoc, lexemes_append hbefore, hslot,
    lexemes_append hafter]
  simp only [Segment.template, List.map_append, fixed_fill f hfixed, List.append_assoc]

/-- Filling the template gives the lexemes that the statement is meant to have. -/
theorem lexemes_statementTokens {gs : List Segment}
    (hgs : ∀ g ∈ gs, Unsigned g.before ∧ Unsigned g.after) {vs : List Scalar} (hvs : Fits gs vs)
    {i : ℕ} {f : ℕ ⊕ Scalar → Scalar} (hfixed : ∀ v, f (.inr v) = v)
    (hf : ∀ j v, vs[j]? = some v → f (.inl (i + j)) = v) :
    lexemes (statementTokens (assign gs vs)) = (template i gs).map (Lexeme.map f) := by
  induction gs generalizing vs i with
  | nil => rfl
  | cons g gs ih =>
    obtain ⟨⟨hbefore, hafter⟩, hrest⟩ := List.forall_mem_cons.mp hgs
    obtain ⟨v, us, hassign, hv, htail, hnext⟩ : ∃ v us,
        assign (g :: gs) vs = (g, v) :: assign gs us ∧
        (∀ slot ∈ g.slot, slot.Fits (f (.inl i)) ∧ v = written (f (.inl i))) ∧
        Fits gs us ∧ ∀ j w, us[j]? = some w →
          f (.inl ((if g.slot.isSome then i + 1 else i) + j)) = w := by
      cases hg : g.slot with
      | none =>
        simp only [Fits, hg] at hvs
        exact ⟨[], vs, by simp [assign, hg], by simp, hvs, hf⟩
      | some slot =>
        simp only [Fits, hg] at hvs
        obtain ⟨⟨v, hhead, hfits⟩, htail⟩ := hvs
        cases vs with
        | nil => cases hhead
        | cons w us =>
          cases hhead
          have hvalue := hf 0 v rfl
          refine ⟨written v, us, by simp [assign, hg], ?_, htail, fun j w hw => ?_⟩
          · rintro _ ⟨⟩
            rw [Nat.add_zero] at hvalue
            exact ⟨hvalue ▸ hfits, by rw [hvalue]⟩
          · have hplace : i + 1 + j = i + (j + 1) := by omega
            simpa [hplace] using hf (j + 1) w hw
    have hpart := lexemes_meant hbefore hafter hfixed hv
    rw [hassign]
    cases gs with
    | nil =>
      have hlast := hpart []
      rw [List.append_nil] at hlast
      exact hlast.trans (List.append_nil _)
    | cons g' gs =>
      have hcons : ∃ p ps, assign (g' :: gs) us = p :: ps := by
        unfold assign
        split <;> exact ⟨_, _, rfl⟩
      obtain ⟨p, ps, hps⟩ := hcons
      have hstatement := ih hrest htail hnext
      rw [hps] at hstatement ⊢
      show lexemes (g.meant v ++ .symbol 44 :: statementTokens (p :: ps)) = _
      rw [hpart, lexemes_symbol (Or.inl (by decide)), hstatement]
      show _ = (g.template i ++ .symbol 44 :: template _ (g' :: gs)).map (Lexeme.map f)
      rw [List.map_append]
      rfl

/-- A statement with values of the right types is parsed as its template is, and then filled. -/
theorem execute_statement {gs : List Segment} (hne : gs ≠ []) {vs : List Scalar}
    (hgs : ∀ g ∈ gs, g.Sound ∧ Unsigned g.before ∧ Unsigned g.after) (hvs : Fits gs vs)
    (hsafe : ∀ p ∈ assign gs vs, p.1.Safe p.2) (db : Tables) :
    execute (statement (assign gs vs)) db =
      (parseStatement (template 0 gs)).bind fun s =>
        (s.map (Sum.elim (fun i => (vs[i]?).getD (.text [])) id)).run db := by
  have hlex := (lex_statement (assign_ne_nil hne vs)
    (fun p hp => (hgs p.1 (mem_assign hp).1).1) hsafe).1
  rw [execute, hlex, Option.bind_some,
    lexemes_statementTokens (fun g hg => (hgs g hg).2) hvs (fun v => rfl)
      (f := Sum.elim (fun i => (vs[i]?).getD (.text [])) id) (i := 0)
      (fun j v hv => by simp [hv]),
    parseStatement_map, Option.bind_map]
  rfl

end Template

end Ue4Background.Sql
