import Mathlib.Algebra.Ring.Nat
import Mathlib.Data.List.Count
import Mathlib.Data.List.Induction
import Ue4Background.LuaValues

/-!
How MySQL cuts the text of a statement into tokens, in its default mode. A string stands in
single or double quotes; inside it a backslash and the next byte stand for one byte, except
that `\%` and `\_` stay as they are, and a quote is also written twice. Comments run from `#`
or `-- ` to the end of the line, or from `/*` to `*/`; version comments are not told apart.
Hexadecimal and bit literals, whose values are binary strings, count as words. Bytes from 128
on are letters, as in UTF-8.
-/

namespace Ue4Background.Sql

open LuaValues

/-- A numeral is kept as it is spelled; its sign is a symbol. -/
inductive Token
  | word (w : Bytes)
  | number (t : Bytes)
  | str (s : Bytes)
  | symbol (b : UInt8)
  deriving DecidableEq

inductive Quote
  | single
  | double
  | back
  deriving DecidableEq

def Quote.byte : Quote → UInt8
  | .single => 39
  | .double => 34
  | .back => 96

/-- Names may stand in backticks. -/
def Quote.token (s : Bytes) : Quote → Token
  | .single | .double => .str s
  | .back => .word s

def isSpace (b : UInt8) : Bool := b == 32 || (9 ≤ b && b ≤ 13)

def isExponent (b : UInt8) : Bool := b == 69 || b == 101

def isWord (b : UInt8) : Bool :=
  isDigit b || (65 ≤ b && b ≤ 90) || (97 ≤ b && b ≤ 122) || b == 36 || b == 95 || 128 ≤ b

/-- How far a numeral has been read: `5`, `.`, `5.5`, `5e`, `5e-`, `5e-5`. -/
inductive Numeral
  | whole
  | point
  | fraction
  | expo
  | sign (minus : Bool)
  | power
  deriving DecidableEq

def Numeral.next (b : UInt8) : Numeral → Option Numeral
  | .whole =>
    if isDigit b then some .whole
    else if b = 46 then some .fraction
    else if isExponent b then some .expo
    else none
  | .point => if isDigit b then some .fraction else none
  | .fraction =>
    if isDigit b then some .fraction else if isExponent b then some .expo else none
  | .expo =>
    if isDigit b then some .power
    else if b = 43 then some (.sign false)
    else if b = 45 then some (.sign true)
    else none
  | .sign _ | .power => if isDigit b then some .power else none

def Numeral.opening (b : UInt8) : Option Numeral :=
  if isDigit b then some .whole else if b = 46 then some .point else none

/-- `acc` holds the bytes of the token so far. After a quote, `closing` waits whether it is
the first of two. -/
inductive Mode
  | start
  | word (acc : Bytes)
  | number (n : Numeral) (acc : Bytes)
  | quoted (q : Quote) (acc : Bytes)
  | escaped (q : Quote) (acc : Bytes)
  | closing (q : Quote) (acc : Bytes)
  | dash
  | dashes
  | slash
  | line
  | block
  | star
  deriving DecidableEq

/-- What a backslash and a byte stand for. -/
def unescape (b : UInt8) : Bytes :=
  if b = 48 then [0]
  else if b = 98 then [8]
  else if b = 110 then [10]
  else if b = 114 then [13]
  else if b = 116 then [9]
  else if b = 90 then [26]
  else if b = 37 ∨ b = 95 then [92, b]
  else [b]

/-- A numeral that breaks off is the word it began as. -/
def Numeral.tokens (acc : Bytes) : Numeral → List Token
  | .whole | .fraction | .power => [.number acc]
  | .point => [.symbol 46]
  | .expo => [.word acc]
  | .sign minus => [.word acc.dropLast, .symbol (if minus then 45 else 43)]

namespace Mode

/-- The tokens of a mode that the next byte ends; an open string or comment has none. -/
def flush : Mode → Option (List Token)
  | start => some []
  | word acc => some [.word acc]
  | number n acc => some (n.tokens acc)
  | closing q acc => some [q.token acc]
  | dash => some [.symbol 45]
  | dashes => some [.symbol 45, .symbol 45]
  | slash => some [.symbol 47]
  | quoted _ _ | escaped _ _ | line | block | star => none

/-- The first byte of a token. -/
def opening (b : UInt8) : List Token × Mode :=
  match Numeral.opening b with
  | some n => ([], number n [b])
  | none =>
    if isSpace b then ([], start)
    else if isWord b then ([], word [b])
    else if b = 39 then ([], quoted .single [])
    else if b = 34 then ([], quoted .double [])
    else if b = 96 then ([], quoted .back [])
    else if b = 35 then ([], line)
    else if b = 45 then ([], dash)
    else if b = 47 then ([], slash)
    else ([.symbol b], start)

/-- A byte that ends the token before it. -/
def turn (ts : List Token) (b : UInt8) : List Token × Mode :=
  (ts ++ (opening b).1, (opening b).2)

def step (b : UInt8) : Mode → List Token × Mode
  | start => opening b
  | word acc => if isWord b then ([], word (acc ++ [b])) else turn [.word acc] b
  | number n acc =>
    match n.next b with
    | some n' => ([], number n' (acc ++ [b]))
    | none =>
      if isWord b && acc.all isWord && (n = .whole || n = .expo) then ([], word (acc ++ [b]))
      else turn (n.tokens acc) b
  | quoted q acc =>
    if b = q.byte then ([], closing q acc)
    else if b = 92 && q ≠ .back then ([], escaped q acc)
    else ([], quoted q (acc ++ [b]))
  | escaped q acc => ([], quoted q (acc ++ unescape b))
  | closing q acc =>
    if b = q.byte then ([], quoted q (acc ++ [b])) else turn [q.token acc] b
  | dash => if b = 45 then ([], dashes) else turn [.symbol 45] b
  | dashes =>
    if b = 45 then ([.symbol 45], dashes)
    else if b = 10 then ([], start)
    else if b ≤ 32 || b = 127 then ([], line)
    else turn [.symbol 45, .symbol 45] b
  | slash => if b = 42 then ([], block) else turn [.symbol 47] b
  | line => if b = 10 then ([], start) else ([], line)
  | block => if b = 42 then ([], star) else ([], block)
  | star => if b = 47 then ([], start) else if b = 42 then ([], star) else ([], block)

/-- At the end of the text, a comment may be left open to the end of its line. -/
def finish : Mode → Option (List Token)
  | dashes | line => some []
  | m => m.flush

def scan : Mode → Bytes → List Token × Mode
  | m, [] => ([], m)
  | m, b :: s => ((m.step b).1 ++ (scan (m.step b).2 s).1, (scan (m.step b).2 s).2)

end Mode

open Mode

/-- The tokens of a text from a mode on, when `ends` ends the last one. -/
def tokens (ends : Mode → Option (List Token)) (m : Mode) (s : Bytes) : Option (List Token) :=
  (ends (scan m s).2).map ((scan m s).1 ++ ·)

/-- The tokens of a statement. -/
def lex (s : Bytes) : Option (List Token) := tokens finish .start s

example : lex (bytes "id = 5 -- five") =
    some [.word (bytes "id"), .symbol 61, .number [53]] := by decide

theorem scan_append (m : Mode) (s t : Bytes) :
    scan m (s ++ t) = ((scan m s).1 ++ (scan (scan m s).2 t).1, (scan (scan m s).2 t).2) := by
  induction s generalizing m with
  | nil => rfl
  | cons b s ih => simp only [List.cons_append, scan, ih, List.append_assoc]

theorem tokens_append (ends : Mode → Option (List Token)) (m : Mode) (s t : Bytes) :
    tokens ends m (s ++ t) = (tokens ends (scan m s).2 t).map ((scan m s).1 ++ ·) := by
  simp only [tokens, scan_append, Option.map_map]
  congr 1
  funext ts
  exact List.append_assoc _ _ _

theorem tokens_cons (ends : Mode → Option (List Token)) (m : Mode) (b : UInt8) (s : Bytes) :
    tokens ends m (b :: s) = (tokens ends (m.step b).2 s).map ((m.step b).1 ++ ·) := by
  simp only [tokens, scan, Option.map_map]
  congr 1
  funext ts
  exact List.append_assoc _ _ _

/-! A comma is a token of its own, unless it stands in a string or a comment. -/

def commas (ts : List Token) : ℕ := ts.count (.symbol 44)

theorem commas_append (ts us : List Token) : commas (ts ++ us) = commas ts + commas us :=
  List.count_append

theorem Numeral.commas_tokens (n : Numeral) (acc : Bytes) : commas (n.tokens acc) = 0 := by
  cases n with
  | sign minus => cases minus <;> rfl
  | _ => rfl

theorem Quote.commas_token (q : Quote) (s : Bytes) : commas [q.token s] = 0 := by
  cases q <;> rfl

theorem commas_opening {b : UInt8} (hb : b ≠ 44) : commas (opening b).1 = 0 := by
  unfold opening
  split
  · rfl
  · repeat' split
    all_goals first
      | rfl
      | simp [commas, hb]

theorem commas_step {b : UInt8} (hb : b ≠ 44) (m : Mode) : commas (m.step b).1 = 0 := by
  have hturn : ∀ ts, commas ts = 0 → commas (turn ts b).1 = 0 := fun ts hts => by
    rw [turn, commas_append, hts, commas_opening hb]
  cases m with
  | start => exact commas_opening hb
  | word acc =>
    simp only [step]
    split
    · rfl
    · exact hturn _ rfl
  | number n acc =>
    simp only [step]
    split
    · rfl
    · split
      · rfl
      · exact hturn _ (n.commas_tokens acc)
  | closing q acc =>
    simp only [step]
    split
    · rfl
    · exact hturn _ (q.commas_token acc)
  | dash | slash =>
    simp only [step]
    split
    · rfl
    · exact hturn _ rfl
  | dashes =>
    simp only [step]
    repeat' split
    all_goals first
      | rfl
      | exact hturn _ rfl
  | quoted q acc | escaped q acc | line | block | star =>
    simp only [step]
    repeat' split
    all_goals rfl

theorem commas_flush {m : Mode} {ts : List Token} (h : m.flush = some ts) : commas ts = 0 := by
  cases m with
  | number n acc =>
    cases h
    exact n.commas_tokens acc
  | closing q acc =>
    cases h
    exact q.commas_token acc
  | _ => cases h <;> rfl

theorem step_comma (m : Mode) :
    (∃ ts, m.flush = some ts ∧ m.step 44 = (ts ++ [.symbol 44], start)) ∨
      m.flush = none ∧ (m.step 44).1 = [] := by
  cases m with
  | start => exact Or.inl ⟨[], rfl, rfl⟩
  | word acc => exact Or.inl ⟨[.word acc], rfl, rfl⟩
  | number n acc =>
    refine Or.inl ⟨n.tokens acc, rfl, ?_⟩
    cases n <;> rfl
  | closing q acc =>
    refine Or.inl ⟨[q.token acc], rfl, ?_⟩
    cases q <;> rfl
  | dash => exact Or.inl ⟨[.symbol 45], rfl, rfl⟩
  | dashes => exact Or.inl ⟨[.symbol 45, .symbol 45], rfl, rfl⟩
  | slash => exact Or.inl ⟨[.symbol 47], rfl, rfl⟩
  | quoted q acc =>
    refine Or.inr ⟨rfl, ?_⟩
    cases q <;> rfl
  | escaped q acc | line | block | star => exact Or.inr ⟨rfl, rfl⟩

/-- A text is followed by a comma or ends the statement. -/
def Ends (ends : Mode → Option (List Token)) : Prop := ends = flush ∨ ends = finish

theorem Ends.eq {ends : Mode → Option (List Token)} (hends : Ends ends) (m : Mode) :
    ends m = m.flush ∨ ends m = some [] := by
  rcases hends with rfl | rfl
  · exact Or.inl rfl
  · cases m with
    | dashes | line => exact Or.inr rfl
    | _ => exact Or.inl rfl

theorem commas_ends {ends : Mode → Option (List Token)} (hends : Ends ends) {m : Mode}
    {ts : List Token} (h : ends m = some ts) : commas ts = 0 := by
  rcases hends.eq m with heq | heq
  · exact commas_flush (heq.symm.trans h)
  · rw [heq] at h
    cases h
    rfl

theorem commas_scan (m : Mode) (s : Bytes) : commas (scan m s).1 ≤ s.count 44 := by
  induction s generalizing m with
  | nil => exact Nat.le_refl _
  | cons b s ih =>
    have hrest := ih (m.step b).2
    rw [scan, commas_append]
    by_cases hb : b = 44
    · subst hb
      have hfirst : commas (m.step 44).1 ≤ 1 := by
        rcases step_comma m with ⟨ts, hts, heq⟩ | ⟨_, heq⟩
        · rw [heq, commas_append, commas_flush hts]
          exact Nat.le_refl _
        · rw [heq]
          exact Nat.zero_le _
      rw [List.count_cons_self]
      omega
    · rw [commas_step hb, List.count_cons_of_ne hb]
      omega

theorem commas_tokens {ends : Mode → Option (List Token)} (hends : Ends ends) {m : Mode}
    {s : Bytes} {ts : List Token} (h : tokens ends m s = some ts) : commas ts ≤ s.count 44 := by
  obtain ⟨rest, hrest, rfl⟩ := Option.map_eq_some_iff.mp h
  rw [commas_append, commas_ends hends hrest]
  exact commas_scan m s

/-- When every comma of a text is a token, what stands before the first one is cut into tokens
for itself. -/
theorem tokens_comma {ends : Mode → Option (List Token)} (hends : Ends ends) {x y : Bytes}
    (hx : 44 ∉ x) {ts : List Token} (h : tokens ends .start (x ++ 44 :: y) = some ts)
    (hcount : commas ts = 1 + y.count 44) :
    ∃ us vs, tokens flush .start x = some us ∧ tokens ends .start y = some vs ∧
      ts = us ++ .symbol 44 :: vs ∧ commas us = 0 ∧ commas vs = y.count 44 := by
  rw [tokens_append, tokens_cons, Option.map_map] at h
  obtain ⟨vs, hvs, hts⟩ := Option.map_eq_some_iff.mp h
  have hfirst : commas (scan .start x).1 = 0 := by
    have hle := commas_scan .start x
    rw [List.count_eq_zero_of_not_mem hx] at hle
    exact Nat.le_zero.mp hle
  have hrest := commas_tokens hends hvs
  rcases step_comma (scan .start x).2 with ⟨us, hus, heq⟩ | ⟨_, heq⟩
  · rw [heq] at hvs hts
    have hnone := commas_flush hus
    refine ⟨(scan .start x).1 ++ us, vs, ?_, hvs, ?_, ?_, ?_⟩
    · rw [tokens, hus, Option.map_some]
    · rw [← hts]
      simp
    · rw [commas_append, hfirst, hnone]
    · rw [← hts] at hcount
      simp only [Function.comp, commas_append, hfirst, hnone] at hcount
      have hcomma : commas [.symbol 44] = 1 := rfl
      omega
  · rw [heq] at hts
    rw [← hts] at hcount
    simp only [Function.comp, List.nil_append, commas_append, hfirst] at hcount
    omega

/-- And it is put together again at the comma. -/
theorem tokens_comma_append {ends : Mode → Option (List Token)} {x y : Bytes}
    {us vs : List Token} (hus : tokens flush .start x = some us)
    (hvs : tokens ends .start y = some vs) :
    tokens ends .start (x ++ 44 :: y) = some (us ++ .symbol 44 :: vs) := by
  obtain ⟨last, hlast, rfl⟩ := Option.map_eq_some_iff.mp hus
  rcases step_comma (scan .start x).2 with ⟨ts, hts, heq⟩ | ⟨hnone, _⟩
  · rw [hts] at hlast
    cases hlast
    rw [tokens_append, tokens_cons, heq, hvs]
    simp
  · rw [hnone] at hlast
    cases hlast

/-! A numeral is read to its end. -/

def readNumeral : Bytes → Option Numeral
  | [] => none
  | b :: s => s.foldl (fun n c => n.bind (Numeral.next c)) (Numeral.opening b)

/-- The bytes that a numeral token may have. -/
def isNumber (s : Bytes) : Bool :=
  match readNumeral s with
  | some .whole | some .fraction | some .power => true
  | _ => false

theorem readNumeral_concat {s : Bytes} (hs : s ≠ []) (b : UInt8) :
    readNumeral (s ++ [b]) = (readNumeral s).bind (Numeral.next b) := by
  obtain ⟨c, s, rfl⟩ := List.exists_cons_of_ne_nil hs
  simp [readNumeral]

theorem scan_numeral {s : Bytes} {n : Numeral} (h : readNumeral s = some n) :
    scan .start s = ([], .number n s) := by
  induction s using List.reverseRecOn generalizing n with
  | nil => cases h
  | append_singleton s b ih =>
    by_cases hs : s = []
    · subst hs
      have hopening : Numeral.opening b = some n := h
      simp only [List.nil_append, scan, step, opening, hopening]
    · rw [readNumeral_concat hs] at h
      obtain ⟨n', hn', hnext⟩ := Option.bind_eq_some_iff.mp h
      rw [scan_append, ih hn']
      simp only [scan, step, hnext]
      rfl

/-- The numeral of a mode is the one its bytes spell. -/
def Spelled : Mode → Prop
  | .number n acc => readNumeral acc = some n
  | _ => True

def Numbers (ts : List Token) : Prop := ∀ t, .number t ∈ ts → isNumber t

theorem Numbers.append {ts us : List Token} (hts : Numbers ts) (hus : Numbers us) :
    Numbers (ts ++ us) := fun t ht => (List.mem_append.mp ht).elim (hts t) (hus t)

theorem Numeral.numbers {n : Numeral} {acc : Bytes} (h : readNumeral acc = some n) :
    Numbers (n.tokens acc) := by
  intro t ht
  cases n with
  | whole | fraction | power =>
    cases List.mem_singleton.mp ht
    simp [isNumber, h]
  | point | expo | sign => simp [Numeral.tokens] at ht

theorem numbers_flush {m : Mode} (hm : Spelled m) {ts : List Token} (h : m.flush = some ts) :
    Numbers ts := by
  intro t ht
  cases m with
  | number n acc =>
    cases h
    exact Numeral.numbers hm t ht
  | closing q acc =>
    cases h
    cases q <;> simp [Quote.token] at ht
  | _ => cases h <;> simp at ht

theorem opening_spelled (b : UInt8) : Numbers (opening b).1 ∧ Spelled (opening b).2 := by
  unfold opening
  split
  · rename_i n hn
    exact ⟨by simp [Numbers], hn⟩
  · repeat' split
    all_goals exact ⟨by simp [Numbers], trivial⟩

theorem turn_spelled {ts : List Token} (hts : Numbers ts) (b : UInt8) :
    Numbers (turn ts b).1 ∧ Spelled (turn ts b).2 :=
  ⟨hts.append (opening_spelled b).1, (opening_spelled b).2⟩

theorem step_spelled {m : Mode} (hm : Spelled m) (b : UInt8) :
    Numbers (m.step b).1 ∧ Spelled (m.step b).2 := by
  have hturn : ∀ ts, m.flush = some ts → Numbers (turn ts b).1 ∧ Spelled (turn ts b).2 :=
    fun ts hts => turn_spelled (numbers_flush hm hts) b
  have hnone : Numbers [] := by simp [Numbers]
  cases m with
  | start => exact opening_spelled b
  | number n acc =>
    simp only [step]
    split
    · rename_i n' hn'
      refine ⟨hnone, ?_⟩
      have hacc : acc ≠ [] := by
        rintro rfl
        cases hm
      show readNumeral (acc ++ [b]) = some n'
      rw [readNumeral_concat hacc, show readNumeral acc = some n from hm]
      exact hn'
    · split
      · exact ⟨hnone, trivial⟩
      · exact hturn _ rfl
  | dashes =>
    simp only [step]
    repeat' split
    · exact ⟨by simp [Numbers], trivial⟩
    · exact ⟨hnone, trivial⟩
    · exact ⟨hnone, trivial⟩
    · exact hturn _ rfl
  | word acc | closing q acc | dash | slash =>
    simp only [step]
    split
    · exact ⟨hnone, trivial⟩
    · exact hturn _ rfl
  | quoted q acc | escaped q acc | line | block | star =>
    simp only [step]
    repeat' split
    all_goals exact ⟨hnone, trivial⟩

theorem scan_spelled {m : Mode} (hm : Spelled m) (s : Bytes) :
    Numbers (scan m s).1 ∧ Spelled (scan m s).2 := by
  induction s generalizing m with
  | nil => exact ⟨by simp [Numbers, scan], hm⟩
  | cons b s ih =>
    obtain ⟨hfirst, hm'⟩ := step_spelled hm b
    obtain ⟨hrest, hlast⟩ := ih hm'
    exact ⟨hfirst.append hrest, hlast⟩

theorem numbers_tokens {ends : Mode → Option (List Token)} (hends : Ends ends) {s : Bytes}
    {ts : List Token} (h : tokens ends .start s = some ts) : Numbers ts := by
  obtain ⟨last, hlast, rfl⟩ := Option.map_eq_some_iff.mp h
  obtain ⟨hscan, hm⟩ := scan_spelled (m := .start) trivial s
  refine hscan.append ?_
  rcases hends.eq (scan .start s).2 with heq | heq
  · exact numbers_flush hm (heq.symm.trans hlast)
  · rw [heq] at hlast
    cases hlast
    simp [Numbers]

/-! A token is no longer than the text it comes from, and a string is shorter by its quotes. -/

def Token.size : Token → ℕ
  | .word w => w.length
  | .number t => t.length
  | .str s => s.length + 2
  | .symbol _ => 1

def size (ts : List Token) : ℕ := (ts.map Token.size).sum

def Mode.size : Mode → ℕ
  | start | line | block | star => 0
  | word acc => acc.length
  | number _ acc => max acc.length 1
  | quoted _ acc => acc.length + 1
  | escaped _ acc | closing _ acc => acc.length + 2
  | dash | slash => 1
  | dashes => 2

theorem size_append (ts us : List Token) : size (ts ++ us) = size ts + size us := by
  simp [size]

theorem Numeral.size_tokens (n : Numeral) (acc : Bytes) :
    size (n.tokens acc) ≤ max acc.length 1 := by
  cases n <;> simp [Numeral.tokens, size, Token.size]
  all_goals omega

theorem size_flush {m : Mode} {ts : List Token} (h : m.flush = some ts) : size ts ≤ m.size := by
  cases m with
  | number n acc =>
    cases h
    exact n.size_tokens acc
  | closing q acc =>
    cases h
    cases q <;> simp [Quote.token, size, Token.size, Mode.size]
  | _ => cases h <;> simp [size, Token.size, Mode.size]

theorem size_opening (b : UInt8) : size (opening b).1 + (opening b).2.size ≤ 1 := by
  unfold opening
  split
  · simp [size, Mode.size]
  · repeat' split
    all_goals simp [size, Token.size, Mode.size]

theorem length_unescape (b : UInt8) : (unescape b).length ≤ 2 := by
  unfold unescape
  repeat' split
  all_goals simp

theorem size_step (m : Mode) (b : UInt8) :
    size (m.step b).1 + (m.step b).2.size ≤ m.size + 1 := by
  have hturn : ∀ ts, m.flush = some ts → size (turn ts b).1 + (turn ts b).2.size ≤ m.size + 1 :=
    fun ts hts => by
      have hflush := size_flush hts
      have hopening := size_opening b
      simp only [turn, size_append]
      omega
  cases m with
  | start => exact size_opening b
  | word acc =>
    simp only [step]
    split
    · simp [size, Mode.size]
    · exact hturn _ rfl
  | number n acc =>
    have hlength : (acc ++ [b]).length = acc.length + 1 := List.length_append
    simp only [step]
    split
    · simp only [size, Mode.size, List.map_nil, List.sum_nil, hlength]
      omega
    · split
      · simp only [size, Mode.size, List.map_nil, List.sum_nil, hlength]
        omega
      · exact hturn _ rfl
  | quoted q acc =>
    simp only [step]
    repeat' split
    all_goals simp [size, Mode.size]
  | escaped q acc =>
    have hlength := length_unescape b
    simp only [step, size, Mode.size, List.map_nil, List.sum_nil, List.length_append]
    omega
  | closing q acc =>
    simp only [step]
    split
    · simp [size, Mode.size]
    · exact hturn _ rfl
  | dash | slash =>
    simp only [step]
    split
    · simp [size, Mode.size]
    · exact hturn _ rfl
  | dashes =>
    simp only [step]
    repeat' split
    · simp [size, Token.size, Mode.size]
    · simp [size, Mode.size]
    · simp [size, Mode.size]
    · exact hturn _ rfl
  | line | block | star =>
    simp only [step]
    repeat' split
    all_goals simp [size, Mode.size]

theorem size_scan (m : Mode) (s : Bytes) :
    size (scan m s).1 + (scan m s).2.size ≤ m.size + s.length := by
  induction s generalizing m with
  | nil => simp [scan, size]
  | cons b s ih =>
    have hfirst := size_step m b
    have hrest := ih (m.step b).2
    simp only [scan, size_append, List.length_cons]
    omega

theorem size_tokens {ends : Mode → Option (List Token)} (hends : Ends ends) {s : Bytes}
    {ts : List Token} (h : tokens ends .start s = some ts) : size ts ≤ s.length := by
  obtain ⟨last, hlast, rfl⟩ := Option.map_eq_some_iff.mp h
  have hscan := size_scan .start s
  have hsize : size last ≤ (scan .start s).2.size := by
    rcases hends.eq (scan .start s).2 with heq | heq
    · exact size_flush (heq.symm.trans hlast)
    · rw [heq] at hlast
      cases hlast
      exact Nat.zero_le _
  rw [size_append]
  have hstart : Mode.size .start = 0 := rfl
  omega

end Ue4Background.Sql
