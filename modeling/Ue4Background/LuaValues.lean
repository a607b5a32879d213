import Mathlib.Data.List.AList
import Mathlib.Logic.Function.Basic

/-!
The Lua values that the services exchange. A Lua string is its list of bytes. A
Lua number is any type with decidable equality, conversions to and from text and
the natural numbers, so results hold for integers and floats at once. The two
standard functions used on messages are `table.concat` and the lazy pattern
`"(.-)" .. sep .. "(.*)"`, which cuts a string at the first separator. A Lua table
that the code enumerates is a list of entries with distinct keys.
-/

namespace Ue4Background.LuaValues

abbrev Bytes := List UInt8

/-- A Lua table whose entries are counted or enumerated. -/
abbrev Table (K V : Type) := AList fun _ : K => V

section Fields

variable {K V : Type} [DecidableEq K] {t : K → Option V} {k k' : K} {w : V}

/-- What a table holds after `t[k] = v`. -/
theorem entry_assigned {v : V} (h : Function.update t k (some v) k' = some w) :
    (k' = k ∧ w = v) ∨ (k' ≠ k ∧ t k' = some w) := by
  by_cases hk : k' = k
  · rw [hk, Function.update_self, Option.some.injEq] at h
    exact Or.inl ⟨hk, h.symm⟩
  · rw [Function.update_of_ne hk] at h
    exact Or.inr ⟨hk, h⟩

/-- What a table holds after `t[k] = nil`. -/
theorem entry_erased (h : Function.update t k none k' = some w) : k' ≠ k ∧ t k' = some w := by
  by_cases hk : k' = k
  · rw [hk, Function.update_self] at h
    cases h
  · rw [Function.update_of_ne hk] at h
    exact ⟨hk, h⟩

/-- An assignment to a field of the object `r` leaves the other fields of every object. -/
theorem field_kept {R O F : Type} [DecidableEq R] {heap : R → O} {r : R} {o : O} (field : O → F)
    (ho : field o = field (heap r)) (r' : R) :
    field (Function.update heap r o r') = field (heap r') := by
  by_cases hr : r' = r
  · rw [hr, Function.update_self, ho]
  · rw [Function.update_of_ne hr]

end Fields

/-- The orders in which the uses of `pairs`, told apart by `ι`, enumerate their tables. -/
structure Pairs (ι K : Type) where
  order : ι → List K → List K
  perm : ∀ i keys, (order i keys).Perm keys

/-- The list of some entries of a table, each under its key, looks up as the table does. -/
theorem lookup_entries {K V W : Type} [DecidableEq K] (t : Table K V) (id : V → K) (g : V → W)
    (hid : ∀ k v, t.lookup k = some v → id v = k) (keys : List K) (k : K) :
    ((keys.filterMap t.lookup).map fun v => (id v, g v)).lookup k =
      if k ∈ keys then (t.lookup k).map g else none := by
  induction keys with
  | nil => simp
  | cons k' rest ih =>
    cases hv : t.lookup k' with
    | none =>
      simp only [List.filterMap_cons, hv]
      rw [ih]
      by_cases hk : k = k'
      · subst hk
        simp [hv]
      · simp [hk]
    | some v =>
      simp only [List.filterMap_cons, hv, List.map_cons, hid k' v hv, List.lookup_cons]
      rw [ih]
      by_cases hk : k = k'
      · subst hk
        simp [hv]
      · simp [hk, beq_eq_false_iff_ne.mpr hk]

/-- So it does in any order of `pairs`. -/
theorem lookup_pairs {ι K V W : Type} [DecidableEq K] (t : Table K V) (id : V → K) (g : V → W)
    (hid : ∀ k v, t.lookup k = some v → id v = k) (pairs : Pairs ι K) (i : ι) (k : K) :
    (((pairs.order i t.keys).filterMap t.lookup).map fun v => (id v, g v)).lookup k =
      (t.lookup k).map g := by
  rw [lookup_entries t id g hid]
  cases hv : t.lookup k with
  | none => simp
  | some v =>
    have hmem : k ∈ pairs.order i t.keys := by
      refine (pairs.perm i t.keys).mem_iff.mpr ?_
      exact AList.mem_keys.mp (AList.lookup_isSome.mp (by rw [hv]; rfl))
    rw [if_pos hmem]

/-- The bytes of a literal of the source, which is UTF-8 text. -/
def bytes (s : String) : Bytes := s.toUTF8.data.toList

def comma : Bytes := bytes ","

def crlf : Bytes := bytes "\r\n"

/-- What the services use of Lua numbers. `tonumber` answers `none` for nil. -/
class LuaNumber (Num : Type) where
  tonumber : Bytes → Option Num
  tostring : Num → Bytes
  ofNat : ℕ → Num

export LuaNumber (tonumber tostring)

def isDigit (b : UInt8) : Bool := 48 ≤ b && b ≤ 57

/-- Arithmetic on Lua numbers, with the one law that the scene relies on. -/
class LuaArith (Num : Type) extends LuaNumber Num where
  add : Num → Num → Num
  sub : Num → Num → Num
  mul : Num → Num → Num
  pow : Num → Num → Num
  lt : Num → Num → Bool
  fifth : Num
  add_zero_mul : ∀ x, add x (mul (ofNat 0) fifth) = x

/-- The natural numbers among Lua's integers, written in decimal. -/
instance : LuaNumber ℕ where
  tonumber s :=
    if s ≠ [] ∧ s.all isDigit then some (s.foldl (fun n b => 10 * n + (b.toNat - 48)) 0) else none
  tostring n := (Nat.toDigits 10 n).map fun c => c.val.toUInt8
  ofNat n := n

/-- An element of a message list: `table.concat` takes strings and numbers. -/
inductive Value (Num : Type)
  | str (s : Bytes)
  | num (n : Num)
  deriving DecidableEq

abbrev Msg (Num : Type) := List (Value Num)

variable {Num : Type} [LuaNumber Num]

def Value.text : Value Num → Bytes
  | .str s => s
  | .num n => tostring n

/-- The number that arithmetic takes a value for, if there is one. -/
def Value.toNumber : Value Num → Option Num
  | .str s => tonumber s
  | .num n => some n

/-- `table.concat(msg, sep)` -/
def concat (sep : Bytes) (msg : Msg Num) : Bytes := sep.intercalate (msg.map Value.text)

/-- `string.match(s, "(.-)" .. sep .. "(.*)")`, the first occurrence of `sep`. -/
def cut (sep : Bytes) : Bytes → Option (Bytes × Bytes)
  | [] => if sep = [] then some ([], []) else none
  | b :: s =>
    if sep <+: b :: s then some ([], (b :: s).drop sep.length)
    else (cut sep s).map fun r => (b :: r.1, r.2)

end Ue4Background.LuaValues
