import Mathlib.Algebra.Ring.Int.Defs
import Mathlib.Algebra.Ring.Nat
import Mathlib.Data.List.Basic
import Mathlib.Data.Nat.Log
import Ue4Background.LuaValues

/-!
The wire format of protocol buffers, for messages whose fields are int32 or string. A field
is a tag followed by a varint, or by a length and that many bytes. Varints are written in
base 128, the lowest digit first; only the last digit lacks the high bit, and it is the
leading digit of the number. Reading what was written gives every field back.
-/

namespace Ue4Background.Protobuf

open LuaValues

/-- The last argument bounds the digits. -/
def varintLoop : ℕ → ℕ → Bytes
  | 0, n => [UInt8.ofNat n]
  | fuel + 1, n =>
    if n < 128 then [UInt8.ofNat n]
    else UInt8.ofNat (n % 128 + 128) :: varintLoop fuel (n / 128)

def varint (n : ℕ) : Bytes := varintLoop n n

/-- The leading digit in base 128. -/
def lead (n : ℕ) : ℕ := n / 128 ^ Nat.log 128 n

theorem varintLoop_eq {fuel n : ℕ} (h : n ≤ fuel) : varintLoop fuel n = varint n := by
  suffices hall : ∀ m fuel fuel', m ≤ fuel → m ≤ fuel' →
      varintLoop fuel m = varintLoop fuel' m from hall n fuel n h (Nat.le_refl n)
  intro m
  induction m using Nat.strongRecOn with
  | ind m ih =>
    intro fuel fuel' hfuel hfuel'
    by_cases hsmall : m < 128
    · cases fuel <;> cases fuel' <;> simp [varintLoop, hsmall]
    · obtain ⟨fuel, rfl⟩ := Nat.exists_eq_succ_of_ne_zero (by omega : fuel ≠ 0)
      obtain ⟨fuel', rfl⟩ := Nat.exists_eq_succ_of_ne_zero (by omega : fuel' ≠ 0)
      simp only [varintLoop, if_neg hsmall]
      rw [ih (m / 128) (by omega) fuel fuel' (by omega) (by omega)]

theorem varint_small {n : ℕ} (h : n < 128) : varint n = [UInt8.ofNat n] := by
  cases n <;> simp [varint, varintLoop, h]

theorem varint_large {n : ℕ} (h : 128 ≤ n) :
    varint n = UInt8.ofNat (n % 128 + 128) :: varint (n / 128) := by
  obtain ⟨m, rfl⟩ := Nat.exists_eq_succ_of_ne_zero (by omega : n ≠ 0)
  have hlarge : ¬ m + 1 < 128 := by omega
  simp only [varint, varintLoop, if_neg hlarge]
  rw [varintLoop_eq (by omega)]
  rfl

theorem lead_small {n : ℕ} (h : n < 128) : lead n = n := by
  rw [lead, Nat.log_of_lt h, Nat.pow_zero, Nat.div_one]

theorem lead_large {n : ℕ} (h : 128 ≤ n) : lead n = lead (n / 128) := by
  rw [lead, Nat.log_of_one_lt_of_le (by decide) h, Nat.pow_succ, Nat.mul_comm,
    ← Nat.div_div_eq_div_mul]
  rfl

theorem toNat_digit {n : ℕ} (h : n < 256) : (UInt8.ofNat n).toNat = n := by
  simpa using Nat.mod_eq_of_lt h

/-- Numbers by the digits of their varints. -/
theorem varint_induction {P : ℕ → Prop} (small : ∀ n, n < 128 → P n)
    (large : ∀ n, 128 ≤ n → P (n / 128) → P n) (n : ℕ) : P n := by
  induction n using Nat.strongRecOn with
  | ind n ih =>
    rcases Nat.lt_or_ge n 128 with h | h
    · exact small n h
    · exact large n h (ih (n / 128) (by omega))

theorem varint_ne_nil (n : ℕ) : varint n ≠ [] := by
  rcases Nat.lt_or_ge n 128 with h | h
  · simp [varint_small h]
  · simp [varint_large h]

theorem length_varint (n : ℕ) : (varint n).length = Nat.log 128 n + 1 := by
  induction n using varint_induction with
  | small n h => rw [varint_small h, Nat.log_of_lt h, List.length_singleton]
  | large n h ih =>
    rw [varint_large h, List.length_cons, ih, Nat.log_of_one_lt_of_le (by decide) h]

theorem ofNat_eq_iff {n : ℕ} (h : n < 256) (b : UInt8) : UInt8.ofNat n = b ↔ n = b.toNat := by
  rw [← UInt8.toNat_inj, toNat_digit h]

/-- Below 128 a byte occurs only as the leading digit. -/
theorem mem_varint {b : UInt8} (hb : b.toNat < 128) (n : ℕ) :
    b ∈ varint n ↔ lead n = b.toNat := by
  induction n using varint_induction with
  | small n h =>
    rw [varint_small h, lead_small h, List.mem_singleton, eq_comm, ofNat_eq_iff (by omega)]
  | large n h ih =>
    have hdigit : b ≠ UInt8.ofNat (n % 128 + 128) := fun heq => by
      have := (ofNat_eq_iff (by omega) b).mp heq.symm
      omega
    rw [varint_large h, lead_large h, List.mem_cons, ih]
    exact or_iff_right hdigit

theorem getLast_varint (n : ℕ) : (varint n).getLast? = some (UInt8.ofNat (lead n)) := by
  induction n using varint_induction with
  | small n h => rw [varint_small h, lead_small h, List.getLast?_singleton]
  | large n h ih =>
    rw [varint_large h, lead_large h, List.getLast?_cons, ih, Option.getD_some]

theorem head_varint {b : UInt8} (hb : b.toNat < 128) (n : ℕ) :
    (varint n).head? = some b ↔ n = b.toNat := by
  rcases Nat.lt_or_ge n 128 with h | h
  · rw [varint_small h, List.head?_cons, Option.some.injEq, ofNat_eq_iff (by omega)]
  · rw [varint_large h, List.head?_cons, Option.some.injEq, ofNat_eq_iff (by omega)]
    omega

theorem lead_lt (n : ℕ) : lead n < 128 := by
  induction n using varint_induction with
  | small n h => rwa [lead_small h]
  | large n h ih => rwa [lead_large h]

/-- A varint, and the bytes after it. -/
def parseVarint : Bytes → Option (ℕ × Bytes)
  | [] => none
  | b :: s =>
    if b.toNat < 128 then some (b.toNat, s)
    else (parseVarint s).map fun r => (b.toNat - 128 + 128 * r.1, r.2)

theorem parseVarint_varint (n : ℕ) (s : Bytes) : parseVarint (varint n ++ s) = some (n, s) := by
  induction n using varint_induction with
  | small n h =>
    have hdigit := toNat_digit (by omega : n < 256)
    simp only [varint_small h, List.singleton_append, parseVarint, hdigit, if_pos h]
  | large n h ih =>
    have hdigit := toNat_digit (by omega : n % 128 + 128 < 256)
    have hhigh : ¬ n % 128 + 128 < 128 := by omega
    simp only [varint_large h, List.cons_append, parseVarint, hdigit, if_neg hhigh, ih,
      Option.map_some, Option.some.injEq, Prod.mk.injEq, and_true]
    omega

/-- The value of a field. -/
inductive Scalar
  | int (n : ℤ)
  | text (s : Bytes)
  deriving DecidableEq

/-- The 64 bits of a number, as a varint holds them. -/
def unsigned (n : ℤ) : ℕ := (n % 2 ^ 64).toNat

def tag (number : ℕ) : Scalar → ℕ
  | .int _ => 8 * number
  | .text _ => 8 * number + 2

def Scalar.body : Scalar → Bytes
  | .int n => varint (unsigned n)
  | .text s => varint s.length ++ s

/-- A field under its number. -/
def encodeField (f : ℕ × Scalar) : Bytes := varint (tag f.1 f.2) ++ f.2.body

def encodeFields (fs : List (ℕ × Scalar)) : Bytes := fs.flatMap encodeField

/-- What follows a tag. -/
inductive Wire
  | varint (n : ℕ)
  | fixed (s : Bytes)
  | len (s : Bytes)
  deriving DecidableEq

def Scalar.wire : Scalar → Wire
  | .int n => .varint (unsigned n)
  | .text s => .len s

def parseBytes (n : ℕ) (s : Bytes) : Option (Bytes × Bytes) :=
  if n ≤ s.length then some (s.take n, s.drop n) else none

/-- A field of any type, and the bytes after it. -/
def parseField (s : Bytes) : Option ((ℕ × Wire) × Bytes) := do
  let (t, s) ← parseVarint s
  match t % 8 with
  | 0 => (parseVarint s).map fun r => ((t / 8, .varint r.1), r.2)
  | 1 => (parseBytes 8 s).map fun r => ((t / 8, .fixed r.1), r.2)
  | 2 => do
    let (n, s) ← parseVarint s
    (parseBytes n s).map fun r => ((t / 8, .len r.1), r.2)
  | 5 => (parseBytes 4 s).map fun r => ((t / 8, .fixed r.1), r.2)
  | _ => none

/-- A field is never empty, so the length bounds their number. -/
def parseLoop : ℕ → Bytes → Option (List (ℕ × Wire))
  | _, [] => some []
  | 0, _ :: _ => none
  | fuel + 1, b :: s => do
    let (f, s) ← parseField (b :: s)
    (parseLoop fuel s).map (f :: ·)

def parse (s : Bytes) : Option (List (ℕ × Wire)) := parseLoop s.length s

theorem parseBytes_append (s t : Bytes) : parseBytes s.length (s ++ t) = some (s, t) := by
  simp [parseBytes]

theorem parseField_encodeField (number : ℕ) (v : Scalar) (s : Bytes) :
    parseField (encodeField (number, v) ++ s) = some ((number, v.wire), s) := by
  cases v with
  | int n =>
    have hkind : 8 * number % 8 = 0 := by omega
    have hnumber : 8 * number / 8 = number := by omega
    simp [parseField, encodeField, tag, Scalar.body, List.append_assoc, parseVarint_varint, hkind,
      hnumber, Scalar.wire]
  | text x =>
    have hkind : (8 * number + 2) % 8 = 2 := by omega
    have hnumber : (8 * number + 2) / 8 = number := by omega
    simp [parseField, encodeField, tag, Scalar.body, List.append_assoc, parseVarint_varint, hkind,
      hnumber, Scalar.wire, parseBytes_append]

theorem encodeField_ne_nil (f : ℕ × Scalar) : encodeField f ≠ [] := by
  simp [encodeField, varint_ne_nil]

theorem parseLoop_encodeFields {fuel : ℕ} (fs : List (ℕ × Scalar))
    (hfuel : fs.length ≤ fuel) :
    parseLoop fuel (encodeFields fs) = some (fs.map fun f => (f.1, f.2.wire)) := by
  induction fs generalizing fuel with
  | nil => cases fuel <;> rfl
  | cons f fs ih =>
    obtain ⟨number, v⟩ := f
    cases fuel with
    | zero => simp at hfuel
    | succ fuel =>
      have hrest := ih (Nat.le_of_succ_le_succ hfuel)
      have hfield := parseField_encodeField number v (encodeFields fs)
      obtain ⟨b, s, hbs⟩ := List.exists_cons_of_ne_nil (encodeField_ne_nil (number, v))
      have hall : encodeFields ((number, v) :: fs) = b :: (s ++ encodeFields fs) := by
        rw [encodeFields, List.flatMap_cons, hbs]
        rfl
      rw [hbs, List.cons_append] at hfield
      rw [hall]
      simp [parseLoop, hfield, hrest]

theorem length_le_encodeFields (fs : List (ℕ × Scalar)) :
    fs.length ≤ (encodeFields fs).length := by
  induction fs with
  | nil => simp
  | cons f fs ih =>
    have hne := List.length_pos_of_ne_nil (encodeField_ne_nil f)
    simp only [encodeFields, List.flatMap_cons, List.length_append, List.length_cons] at ih ⊢
    omega

/-- Reading the fields that were written gives them back in order. -/
theorem parse_encodeFields (fs : List (ℕ × Scalar)) :
    parse (encodeFields fs) = some (fs.map fun f => (f.1, f.2.wire)) :=
  parseLoop_encodeFields fs (length_le_encodeFields fs)

inductive Label
  | required
  | optional
  deriving DecidableEq

inductive Kind
  | int32
  | string
  deriving DecidableEq

/-- A field of a message type. -/
structure Member where
  name : Bytes
  number : ℕ
  label : Label
  kind : Kind
  deriving DecidableEq

def Kind.default : Kind → Scalar
  | .int32 => .int 0
  | .string => .text []

/-- The values of a type. -/
def Kind.Fits : Kind → Scalar → Prop
  | .int32, .int n => -2 ^ 31 ≤ n ∧ n < 2 ^ 31
  | .string, .text _ => True
  | _, _ => False

/-- An int32 is the low 32 bits of a varint. -/
def Kind.read : Kind → Wire → Option Scalar
  | .int32, .varint n => some (.int (Int.bmod n (2 ^ 32)))
  | .string, .len s => some (.text s)
  | _, _ => none

/-- The last field that has the number and the type of a member. -/
def Member.read (d : Member) (fs : List (ℕ × Wire)) : Option Scalar :=
  (fs.filterMap fun f => if f.1 = d.number then d.kind.read f.2 else none).getLast?

/-- Absent optional members have their default; a required one must be there. -/
def readMembers (fs : List (ℕ × Wire)) : List Member → Option (List (Bytes × Scalar))
  | [] => some []
  | d :: message =>
    match d.read fs, d.label with
    | some v, _ => (readMembers fs message).map ((d.name, v) :: ·)
    | none, .optional => (readMembers fs message).map ((d.name, d.kind.default) :: ·)
    | none, .required => none

def decode (message : List Member) (s : Bytes) : Option (List (Bytes × Scalar)) :=
  (parse s).bind fun fs => readMembers fs message

def Scalar.kind : Scalar → Kind
  | .int _ => .int32
  | .text _ => .string

theorem Kind.Fits.kind_eq {kind : Kind} {v : Scalar} (h : kind.Fits v) : v.kind = kind := by
  cases kind <;> cases v <;> first | rfl | exact h.elim

/-- What a reader makes of a value of the type, of which it keeps 32 bits. -/
def Kind.truncate : Kind → Scalar → Scalar
  | .int32, .int n => .int (Int.bmod n (2 ^ 32))
  | _, v => v

theorem Kind.read_truncate {kind : Kind} {v : Scalar} (h : v.kind = kind) :
    kind.read v.wire = some (kind.truncate v) := by
  subst h
  cases v with
  | int n =>
    have hbits : ((unsigned n : ℕ) : ℤ) = n % 2 ^ 64 := by
      unfold unsigned
      omega
    have hmod : Int.bmod (n % 2 ^ 64) (2 ^ 32) = Int.bmod n (2 ^ 32) := by
      rw [Int.bmod_def, Int.bmod_def]
      omega
    simp only [Scalar.kind, Scalar.wire, Kind.read, Kind.truncate, hbits, hmod]
  | text s => rfl

theorem Kind.kind_truncate {kind : Kind} {v : Scalar} (h : v.kind = kind) :
    (kind.truncate v).kind = kind := by
  subst h
  cases v <;> rfl

/-- The values of a type are those that a reader keeps. -/
theorem Kind.truncate_eq_iff {kind : Kind} {v : Scalar} (h : v.kind = kind) :
    kind.truncate v = v ↔ kind.Fits v := by
  subst h
  cases v with
  | int n =>
    simp only [Scalar.kind, Kind.truncate, Kind.Fits, Scalar.int.injEq]
    rw [Int.bmod_def]
    constructor
    · intro heq
      split at heq <;> omega
    · rintro ⟨hlow, hhigh⟩
      split <;> omega
  | text s => exact iff_of_true rfl trivial

theorem Member.read_written (d : Member) {fs : List (ℕ × Scalar)} (hfs : (fs.map Prod.fst).Nodup)
    (hkind : ∀ v, fs.lookup d.number = some v → v.kind = d.kind) :
    d.read (fs.map fun f => (f.1, f.2.wire)) = (fs.lookup d.number).map d.kind.truncate := by
  induction fs with
  | nil => rfl
  | cons f fs ih =>
    obtain ⟨number, v⟩ := f
    obtain ⟨hfresh, hfs⟩ := List.nodup_cons.mp hfs
    by_cases hnumber : d.number = number
    · subst hnumber
      rw [List.lookup_cons_self] at hkind ⊢
      have hnone : (fs.map fun f => (f.1, f.2.wire)).filterMap
          (fun f => if f.1 = d.number then d.kind.read f.2 else none) = [] := by
        rw [List.filterMap_eq_nil_iff]
        intro f hf
        obtain ⟨g, hg, rfl⟩ := List.mem_map.mp hf
        have hmem : g.1 ∈ fs.map Prod.fst := List.mem_map_of_mem hg
        have hne : g.1 ≠ d.number := fun heq => hfresh (heq ▸ hmem)
        rw [if_neg hne]
      have hread := Kind.read_truncate (hkind v rfl)
      simp only [Member.read, List.map_cons, List.filterMap_cons, if_true, hread, hnone,
        List.getLast?_singleton, Option.map_some]
    · have hlookup : ((number, v) :: fs).lookup d.number = fs.lookup d.number := by
        rw [List.lookup_cons, beq_eq_false_iff_ne.mpr hnumber]
      rw [hlookup] at hkind ⊢
      rw [← ih hfs hkind]
      simp only [Member.read, List.map_cons, List.filterMap_cons, if_neg (Ne.symm hnumber)]

/-- What was written is decoded when every required member was, and gives every member its
value as a reader keeps it, or its default. -/
theorem decode_encodeFields_iff {message : List Member} {fs : List (ℕ × Scalar)}
    (hfs : (fs.map Prod.fst).Nodup)
    (hkind : ∀ d ∈ message, ∀ v, fs.lookup d.number = some v → v.kind = d.kind)
    {fields : List (Bytes × Scalar)} :
    decode message (encodeFields fs) = some fields ↔
      (∀ d ∈ message, d.label = .required → (fs.lookup d.number).isSome) ∧
        fields = message.map fun d =>
          (d.name, ((fs.lookup d.number).map d.kind.truncate).getD d.kind.default) := by
  rw [decode, parse_encodeFields, Option.bind_some]
  induction message generalizing fields with
  | nil =>
    rw [readMembers, Option.some.injEq]
    exact ⟨fun heq => ⟨nofun, heq.symm⟩, fun h => h.2.symm⟩
  | cons d message ih =>
    obtain ⟨hfirst, hrest⟩ := List.forall_mem_cons.mp hkind
    have hread := d.read_written hfs hfirst
    have hcons : ∀ v, ((readMembers (fs.map fun f => (f.1, f.2.wire)) message).map
        ((d.name, v) :: ·) = some fields ↔
          (∀ d ∈ message, d.label = .required → (fs.lookup d.number).isSome) ∧
            fields = (d.name, v) :: message.map fun d =>
              (d.name, ((fs.lookup d.number).map d.kind.truncate).getD d.kind.default)) := by
      intro v
      rw [Option.map_eq_some_iff]
      constructor
      · rintro ⟨rest, hdecode, rfl⟩
        obtain ⟨hrequired, rfl⟩ := (ih hrest).mp hdecode
        exact ⟨hrequired, rfl⟩
      · rintro ⟨hrequired, rfl⟩
        exact ⟨_, (ih hrest).mpr ⟨hrequired, rfl⟩, rfl⟩
    rw [readMembers, hread, List.forall_mem_cons, List.map_cons]
    cases hlookup : fs.lookup d.number with
    | some v =>
      rw [Option.map_some, hcons, Option.getD_some]
      exact and_congr_left' (iff_and_self.mpr fun _ _ => rfl)
    | none =>
      cases hlabel : d.label with
      | optional =>
        rw [Option.map_none, hcons, Option.getD_none]
        exact and_congr_left' (iff_and_self.mpr fun _ hrequired => nomatch hrequired)
      | required => simp

theorem Kind.read_kind {kind : Kind} {w : Wire} {v : Scalar} (h : kind.read w = some v) :
    v.kind = kind := by
  cases kind <;> cases w <;> cases h <;> rfl

theorem Member.read_kind {d : Member} {fs : List (ℕ × Wire)} {v : Scalar}
    (h : d.read fs = some v) : v.kind = d.kind := by
  obtain ⟨f, _, hf⟩ := List.mem_filterMap.mp (List.mem_of_getLast? h)
  split at hf
  · exact Kind.read_kind hf
  · cases hf

theorem readMembers_kind {fs : List (ℕ × Wire)} {message : List Member}
    {fields : List (Bytes × Scalar)} (h : readMembers fs message = some fields) :
    ∀ f ∈ fields, ∃ d ∈ message, f.1 = d.name ∧ f.2.kind = d.kind := by
  induction message generalizing fields with
  | nil =>
    cases h
    simp
  | cons d message ih =>
    obtain ⟨v, rest, hv, hrest, rfl⟩ : ∃ v rest, v.kind = d.kind ∧
        readMembers fs message = some rest ∧ fields = (d.name, v) :: rest := by
      have hdefault : d.kind.default.kind = d.kind := by cases d.kind <;> rfl
      rw [readMembers] at h
      cases hvalue : d.read fs with
      | some v =>
        rw [hvalue] at h
        obtain ⟨rest, hrest, heq⟩ := Option.map_eq_some_iff.mp h
        exact ⟨v, rest, Member.read_kind hvalue, hrest, heq.symm⟩
      | none =>
        rw [hvalue] at h
        cases hlabel : d.label with
        | optional =>
          rw [hlabel] at h
          obtain ⟨rest, hrest, heq⟩ := Option.map_eq_some_iff.mp h
          exact ⟨_, rest, hdefault, hrest, heq.symm⟩
        | required =>
          rw [hlabel] at h
          cases h
    refine List.forall_mem_cons.mpr ⟨⟨d, List.mem_cons_self, rfl, hv⟩, fun f hf => ?_⟩
    obtain ⟨d', hd', heq⟩ := ih hrest f hf
    exact ⟨d', List.mem_cons_of_mem d hd', heq⟩

/-- What is decoded has the types of the members. -/
theorem decode_kind {message : List Member} {s : Bytes} {fields : List (Bytes × Scalar)}
    (h : decode message s = some fields) :
    ∀ f ∈ fields, ∃ d ∈ message, f.1 = d.name ∧ f.2.kind = d.kind := by
  obtain ⟨fs, _, hread⟩ := Option.bind_eq_some_iff.mp h
  exact readMembers_kind hread

/-- A message with `repeated item records = 1`. -/
def decodeRecords (item : List Member) (s : Bytes) : Option (List (List (Bytes × Scalar))) :=
  (parse s).bind fun fs => (fs.filterMap fun f =>
    match f with
    | (1, .len t) => some t
    | _ => none).mapM (decode item)

/-- Sub-messages are decoded one after the other. -/
theorem decodeRecords_encodeFields (item : List Member) (ss : List Bytes) :
    decodeRecords item (encodeFields (ss.map fun s => (1, .text s))) = ss.mapM (decode item) := by
  have hsub : ((ss.map fun s => (1, Scalar.text s)).map fun f => (f.1, f.2.wire)).filterMap
      (fun f => match f with
        | (1, .len t) => some t
        | _ => none) = ss := by
    induction ss with
    | nil => rfl
    | cons s ss ih => simpa [Scalar.wire] using ih
  rw [decodeRecords, parse_encodeFields, Option.bind_some, hsub]

end Ue4Background.Protobuf
