import Ue4Background.LuaValues
import Ue4Background.Readers

/-!
Packing Lua values into a message and unpacking them (`lua-seri.c`). A value is a byte of type and
cookie, and what they call for. The writer fills a chain of blocks of 128 bytes that `seri` copies
into one buffer. A table is its array part and the pairs that `lua_next` gives besides; unpacking
gives the elements and the pairs in the order in which they are set.
-/

namespace Ue4Background.Seri

open LuaValues Readers

inductive LuaValue
  | nil
  | boolean (b : Bool)
  | integer (v : BitVec 64)
  /-- The bits of a double. -/
  | real (v : BitVec 64)
  | string (s : Bytes)
  | userdata (v : BitVec 64)
  | table (arr : List LuaValue) (hash : List (LuaValue × LuaValue))
  /-- A function, a full userdata or a thread. -/
  | other (typename : Bytes)

def typeNil : ℕ := 0
def typeBoolean : ℕ := 1
def typeNumber : ℕ := 2
def typeUserdata : ℕ := 3
def typeShortString : ℕ := 4
def typeLongString : ℕ := 5
def typeTable : ℕ := 6

def typeNumberZero : ℕ := 0
def typeNumberByte : ℕ := 1
def typeNumberWord : ℕ := 2
def typeNumberDword : ℕ := 4
def typeNumberQword : ℕ := 6
def typeNumberReal : ℕ := 8

def maxCookie : ℕ := 32
def blockSize : ℕ := 128
def maxDepth : ℕ := 32

/-- `COMBINE_TYPE`, as the byte that is written. -/
def combineType (t v : ℕ) : UInt8 := UInt8.ofNat (t ||| v <<< 3)

/-- The full blocks of the chain, what is written of the current one, and the length of all. -/
structure WriteBlock where
  full : List Bytes
  current : Bytes
  len : ℕ

namespace WriteBlock

/-- `wb_init`. -/
def init : WriteBlock := ⟨[], [], 0⟩

/-- A new block is linked to the current one. -/
def link (b : WriteBlock) : WriteBlock := { b with full := b.full ++ [b.current], current := [] }

/-- The rest of `wb_push`, with the turns it may take. -/
def fill : ℕ → WriteBlock → Bytes → WriteBlock
  | 0, b, _ => b
  | n + 1, b, buf =>
    if b.current.length + buf.length ≤ blockSize then
      { b with current := b.current ++ buf, len := b.len + buf.length }
    else
      let copy := blockSize - b.current.length
      fill n (link { b with current := b.current ++ buf.take copy, len := b.len + copy })
        (buf.drop copy)

/-- `wb_push`. -/
def push (b : WriteBlock) (buf : Bytes) : WriteBlock :=
  fill (buf.length + 1) (if b.current.length = blockSize then b.link else b) buf

/-- `wb_nil`. -/
def wbNil (b : WriteBlock) : WriteBlock := b.push [UInt8.ofNat typeNil]

/-- `wb_boolean`. -/
def wbBoolean (b : WriteBlock) (boolean : Bool) : WriteBlock :=
  b.push [combineType typeBoolean (if boolean then 1 else 0)]

/-- `wb_integer`. -/
def wbInteger (b : WriteBlock) (v : BitVec 64) : WriteBlock :=
  if v = 0 then b.push [combineType typeNumber typeNumberZero]
  else if v ≠ (v.setWidth 32).signExtend 64 then
    (b.push [combineType typeNumber typeNumberQword]).push (leBytes 8 v.toNat)
  else if v.toInt < 0 then
    (b.push [combineType typeNumber typeNumberDword]).push (leBytes 4 (v.setWidth 32).toNat)
  else if v.toInt < 0x100 then
    (b.push [combineType typeNumber typeNumberByte]).push (leBytes 1 (v.setWidth 8).toNat)
  else if v.toInt < 0x10000 then
    (b.push [combineType typeNumber typeNumberWord]).push (leBytes 2 (v.setWidth 16).toNat)
  else (b.push [combineType typeNumber typeNumberDword]).push (leBytes 4 (v.setWidth 32).toNat)

/-- `wb_real`. -/
def wbReal (b : WriteBlock) (v : BitVec 64) : WriteBlock :=
  (b.push [combineType typeNumber typeNumberReal]).push (leBytes 8 v.toNat)

/-- `wb_pointer`. -/
def wbPointer (b : WriteBlock) (v : BitVec 64) : WriteBlock :=
  (b.push [UInt8.ofNat typeUserdata]).push (leBytes 8 v.toNat)

/-- `wb_string`. -/
def wbString (b : WriteBlock) (str : Bytes) : WriteBlock :=
  let len := str.length
  if len < maxCookie then
    let b := b.push [combineType typeShortString len]
    if len > 0 then b.push str else b
  else if len < 0x10000 then
    ((b.push [combineType typeLongString 2]).push (leBytes 2 len)).push str
  else ((b.push [combineType typeLongString 4]).push (leBytes 4 len)).push str

/-- `wb_table_array`, up to its elements. -/
def tableHead (b : WriteBlock) (arraySize : ℕ) : WriteBlock :=
  if arraySize ≥ maxCookie - 1 then
    (b.push [combineType typeTable (maxCookie - 1)]).wbInteger (BitVec.ofNat 64 arraySize)
  else b.push [combineType typeTable arraySize]

end WriteBlock

inductive PackError
  | tooDeep
  | unsupported (typename : Bytes)
  deriving DecidableEq

/-- The text of `luaL_error`. -/
def PackError.message : PackError → Bytes
  | .tooDeep => bytes "serialize can't pack too depth table"
  | .unsupported typename => bytes "Unsupport type " ++ typename ++ bytes " to serialize"

mutual

/-- `pack_one`. -/
def packOne (b : WriteBlock) (depth : ℕ) (v : LuaValue) : Except PackError WriteBlock :=
  if depth > maxDepth then .error .tooDeep
  else match v with
    | .nil => .ok b.wbNil
    | .boolean boolean => .ok (b.wbBoolean boolean)
    | .integer v => .ok (b.wbInteger v)
    | .real v => .ok (b.wbReal v)
    | .string s => .ok (b.wbString s)
    | .userdata v => .ok (b.wbPointer v)
    | .table arr hash =>
      (packAll (b.tableHead arr.length) (depth + 1) arr).bind fun b =>
        (packPairs b (depth + 1) hash).map WriteBlock.wbNil
    | .other typename => .error (.unsupported typename)
  termination_by structural v

/-- The elements of `wb_table_array`, and `pack_from`. -/
def packAll (b : WriteBlock) (depth : ℕ) : List LuaValue → Except PackError WriteBlock
  | [] => .ok b
  | v :: vs => (packOne b depth v).bind fun b => packAll b depth vs
  termination_by structural vs => vs

/-- `wb_table_hash`. -/
def packPairs (b : WriteBlock) (depth : ℕ) :
    List (LuaValue × LuaValue) → Except PackError WriteBlock
  | [] => .ok b
  | (k, v) :: ps =>
    (packOne b depth k).bind fun b => (packOne b depth v).bind fun b => packPairs b depth ps
  termination_by structural ps => ps

end

/-- `seri`; it fails where it would follow the `next` of the last block. -/
def seri : List Bytes → ℕ → Option Bytes
  | [], len => if len > 0 then none else some []
  | b :: rest, len =>
    if len ≥ blockSize then (seri rest (len - blockSize)).map (b ++ ·)
    else some (b.take len)

/-- `luaseri_pack`. -/
def luaseriPack (vs : List LuaValue) : Except PackError (Option Bytes) :=
  (packAll .init 0 vs).map fun b => seri (b.full ++ [b.current]) b.len

/-- `get_integer`. -/
def getInteger (cookie : ℕ) : Reader UInt8 (BitVec 64) :=
  if cookie = typeNumberZero then pure 0
  else if cookie = typeNumberByte then BitVec.ofNat 64 <$> word 1
  else if cookie = typeNumberWord then BitVec.ofNat 64 <$> word 2
  else if cookie = typeNumberDword then (fun n => (BitVec.ofNat 32 n).signExtend 64) <$> word 4
  else if cookie = typeNumberQword then BitVec.ofNat 64 <$> word 8
  else failure

/-- The type and the cookie of a value. -/
def getType : Reader UInt8 (ℕ × ℕ) := (fun n => (n &&& 7, n >>> 3)) <$> word 1

def LuaValue.isNil : LuaValue → Bool
  | .nil => true
  | _ => false

/-- `lua_rawset` does not take a NaN for a key. -/
def LuaValue.isNaN : LuaValue → Bool
  | .real v => (v >>> 52 &&& 0x7ff#64) = 0x7ff#64 ∧ (v &&& 0xfffffffffffff#64) ≠ 0
  | _ => false

/-- The array size of `unpack_table`. -/
def getSize (cookie : ℕ) : Reader UInt8 ℕ :=
  if cookie = maxCookie - 1 then do
    let (type, cookie) ← getType
    if type ≠ typeNumber ∨ cookie = typeNumberReal then failure
    else (fun n : BitVec 64 => (n.setWidth 32).toInt.toNat) <$> getInteger cookie
  else pure cookie

/-- `unpack_table`, with the number of pairs it may read. -/
def unpackTable (unpack : Reader UInt8 LuaValue) (fuel cookie : ℕ) : Reader UInt8 LuaValue := do
  let arraySize ← getSize cookie
  let arr ← many unpack arraySize
  let hash ← pairs unpack LuaValue.isNil fuel
  if hash.any fun p => p.1.isNaN then failure else return .table arr hash

/-- `push_value`. -/
def pushValue (unpack : Reader UInt8 LuaValue) (fuel type cookie : ℕ) : Reader UInt8 LuaValue :=
  if type = typeNil then pure .nil
  else if type = typeBoolean then pure (.boolean (cookie ≠ 0))
  else if type = typeNumber then
    if cookie = typeNumberReal then (fun n => .real (BitVec.ofNat 64 n)) <$> word 8
    else .integer <$> getInteger cookie
  else if type = typeUserdata then (fun n => .userdata (BitVec.ofNat 64 n)) <$> word 8
  else if type = typeShortString then .string <$> take cookie
  else if type = typeLongString then
    if cookie = 2 then word 2 >>= fun n => .string <$> take n
    else if cookie = 4 then word 4 >>= fun n => .string <$> take n
    else failure
  else if type = typeTable then unpackTable unpack fuel cookie
  else failure

/-- `unpack_one`, with a bound on the nesting and on the pairs of a table. -/
def unpackOne : ℕ → Reader UInt8 LuaValue
  | 0 => failure
  | fuel + 1 => do
    let (type, cookie) ← getType
    pushValue (unpackOne fuel) fuel type cookie

/-- `luaseri_unpack`; every value takes a byte, so the length of the stream bounds them. -/
def luaseriUnpack (s : Bytes) : Option (List LuaValue) := whole (unpackOne s.length) s.length s

end Ue4Background.Seri
