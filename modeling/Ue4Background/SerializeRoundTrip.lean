import Mathlib.Tactic.SplitIfs
import Ue4Background.Serialize

/-!
Unpacking gives back the values that were packed, and a message that is cut off never passes for
more than its first values. The chain of blocks spells the same bytes as one buffer. Packing fails
for values that are nested too deep or have no wire form, and for no others.
-/

namespace Ue4Background.Seri

open LuaValues Readers

namespace WriteBlock

def bytes (b : WriteBlock) : Bytes := b.full.flatten ++ b.current

structure Kept (b : WriteBlock) : Prop where
  full : ∀ block ∈ b.full, block.length = blockSize
  current : b.current.length ≤ blockSize
  len : b.len = b.bytes.length

theorem init_kept : init.Kept := ⟨nofun, Nat.zero_le _, rfl⟩

theorem Kept.link {b : WriteBlock} (h : b.Kept) (hfull : b.current.length = blockSize) :
    b.link.Kept ∧ b.link.bytes = b.bytes := by
  have hbytes : b.link.bytes = b.bytes := by
    simp only [bytes, WriteBlock.link, List.flatten_append, List.flatten_singleton, List.append_nil]
  refine ⟨⟨?_, Nat.zero_le _, ?_⟩, hbytes⟩
  · intro block hblock
    rcases List.mem_append.1 hblock with hold | hnew
    · exact h.full block hold
    · rw [List.mem_singleton.1 hnew, hfull]
  · rw [hbytes, ← h.len]
    rfl

/-- Every turn fills a block, and the first has room. -/
theorem fill_spec {n : ℕ} {b : WriteBlock} {buf : Bytes} (h : b.Kept) (hn : buf.length < n)
    (hroom : b.current.length < blockSize) :
    (fill n b buf).Kept ∧ (fill n b buf).bytes = b.bytes ++ buf := by
  induction n generalizing b buf with
  | zero => cases hn
  | succ n ih =>
    rw [fill]
    by_cases hfits : b.current.length + buf.length ≤ blockSize
    · rw [if_pos hfits]
      refine ⟨⟨h.full, ?_, ?_⟩, ?_⟩
      · simpa using hfits
      · simp [bytes, h.len, Nat.add_assoc]
      · simp [bytes]
    · rw [if_neg hfits]
      dsimp only
      have hcopy : (buf.take (blockSize - b.current.length)).length =
          blockSize - b.current.length := by
        rw [List.length_take]
        omega
      have hwritten : Kept { b with
          current := b.current ++ buf.take (blockSize - b.current.length)
          len := b.len + (blockSize - b.current.length) } := by
        refine ⟨h.full, ?_, ?_⟩
        · rw [List.length_append, hcopy]
          omega
        · simp only [bytes, h.len, List.length_append, hcopy]
          omega
      obtain ⟨hlinked, hbytes⟩ := hwritten.link (by
        rw [List.length_append, hcopy]
        omega)
      have hleft : (buf.drop (blockSize - b.current.length)).length < n := by
        rw [List.length_drop]
        omega
      obtain ⟨hkept, hrest⟩ := ih hlinked hleft (show 0 < blockSize by decide)
      refine ⟨hkept, ?_⟩
      rw [hrest, hbytes]
      simp only [bytes, List.append_assoc, List.take_append_drop]

theorem push_spec {b : WriteBlock} (h : b.Kept) (buf : Bytes) :
    (b.push buf).Kept ∧ (b.push buf).bytes = b.bytes ++ buf := by
  rw [push]
  by_cases hfull : b.current.length = blockSize
  · obtain ⟨hlinked, hbytes⟩ := h.link hfull
    rw [if_pos hfull, ← hbytes]
    exact fill_spec hlinked (Nat.lt_succ_self _) (show 0 < blockSize by decide)
  · rw [if_neg hfull]
    exact fill_spec h (Nat.lt_succ_self _) (Nat.lt_of_le_of_ne h.current hfull)

/-- What a writer appends. -/
def Writes (f : WriteBlock → WriteBlock) (s : Bytes) : Prop :=
  ∀ b : WriteBlock, b.Kept → (f b).Kept ∧ (f b).bytes = b.bytes ++ s

theorem Writes.push (s : Bytes) : Writes (push · s) s := fun _ h => push_spec h s

theorem Writes.comp {f g : WriteBlock → WriteBlock} {s t : Bytes} (hf : Writes f s)
    (hg : Writes g t) : Writes (fun b => g (f b)) (s ++ t) := by
  intro b h
  obtain ⟨hkept, hbytes⟩ := hf b h
  obtain ⟨hkept', hbytes'⟩ := hg (f b) hkept
  exact ⟨hkept', by rw [hbytes', hbytes, List.append_assoc]⟩

end WriteBlock

/-- `seri` copies what was written. -/
theorem seri_eq {full : List Bytes} {current : Bytes}
    (hfull : ∀ block ∈ full, block.length = blockSize) (hcurrent : current.length ≤ blockSize) :
    seri (full ++ [current]) (full.flatten ++ current).length = some (full.flatten ++ current) := by
  induction full with
  | nil =>
    rw [List.nil_append, List.flatten_nil, List.nil_append, seri]
    split
    · have hlast : current.length - blockSize = 0 := by omega
      rw [hlast, seri, if_neg (Nat.lt_irrefl 0), Option.map_some, List.append_nil]
    · rw [List.take_length]
  | cons block full ih =>
    have hblock := hfull block (List.mem_cons_self ..)
    have hrest := ih fun b hb => hfull b (List.mem_cons_of_mem block hb)
    have hlength : ((block :: full).flatten ++ current).length - blockSize =
        (full.flatten ++ current).length := by
      simp only [List.flatten_cons, List.length_append]
      omega
    have hlong : ((block :: full).flatten ++ current).length ≥ blockSize := by
      simp only [List.flatten_cons, List.length_append]
      omega
    rw [List.cons_append, seri, if_pos hlong, hlength, hrest, Option.map_some, List.flatten_cons,
      List.append_assoc]

/-- The bytes of `wb_integer`. -/
def encodeInteger (v : BitVec 64) : Bytes :=
  if v = 0 then [combineType typeNumber typeNumberZero]
  else if v ≠ (v.setWidth 32).signExtend 64 then
    combineType typeNumber typeNumberQword :: leBytes 8 v.toNat
  else if v.toInt < 0 then
    combineType typeNumber typeNumberDword :: leBytes 4 (v.setWidth 32).toNat
  else if v.toInt < 0x100 then
    combineType typeNumber typeNumberByte :: leBytes 1 (v.setWidth 8).toNat
  else if v.toInt < 0x10000 then
    combineType typeNumber typeNumberWord :: leBytes 2 (v.setWidth 16).toNat
  else combineType typeNumber typeNumberDword :: leBytes 4 (v.setWidth 32).toNat

/-- The bytes of `wb_string`. -/
def encodeString (s : Bytes) : Bytes :=
  if s.length < maxCookie then combineType typeShortString s.length :: s
  else if s.length < 0x10000 then
    combineType typeLongString 2 :: (leBytes 2 s.length ++ s)
  else combineType typeLongString 4 :: (leBytes 4 s.length ++ s)

/-- The bytes before the elements of a table. -/
def encodeSize (n : ℕ) : Bytes :=
  if n ≥ maxCookie - 1 then
    combineType typeTable (maxCookie - 1) :: encodeInteger (BitVec.ofNat 64 n)
  else [combineType typeTable n]

mutual

/-- The bytes of a value. -/
def encode : LuaValue → Bytes
  | .nil => [UInt8.ofNat typeNil]
  | .boolean b => [combineType typeBoolean (if b then 1 else 0)]
  | .integer v => encodeInteger v
  | .real v => combineType typeNumber typeNumberReal :: leBytes 8 v.toNat
  | .string s => encodeString s
  | .userdata v => UInt8.ofNat typeUserdata :: leBytes 8 v.toNat
  | .table arr hash =>
    encodeSize arr.length ++ (encodeAll arr ++ (encodePairs hash ++ [UInt8.ofNat typeNil]))
  | .other _ => []
  termination_by structural v => v

def encodeAll : List LuaValue → Bytes
  | [] => []
  | v :: vs => encode v ++ encodeAll vs
  termination_by structural vs => vs

def encodePairs : List (LuaValue × LuaValue) → Bytes
  | [] => []
  | (k, v) :: ps => encode k ++ (encode v ++ encodePairs ps)
  termination_by structural ps => ps

end

mutual

/-- Why a value is not packed, as the first reason met. -/
def flaw (depth : ℕ) (v : LuaValue) : Option PackError :=
  if depth > maxDepth then some .tooDeep
  else match v with
    | .table arr hash => (flawAll (depth + 1) arr).or (flawPairs (depth + 1) hash)
    | .other typename => some (.unsupported typename)
    | _ => none
  termination_by structural v

def flawAll (depth : ℕ) : List LuaValue → Option PackError
  | [] => none
  | v :: vs => (flaw depth v).or (flawAll depth vs)
  termination_by structural vs => vs

def flawPairs (depth : ℕ) : List (LuaValue × LuaValue) → Option PackError
  | [] => none
  | (k, v) :: ps => (flaw depth k).or ((flaw depth v).or (flawPairs depth ps))
  termination_by structural ps => ps

end

namespace WriteBlock

theorem wbInteger_writes (v : BitVec 64) : Writes (wbInteger · v) (encodeInteger v) := by
  have htwo (c : UInt8) (s : Bytes) : Writes (fun b => (b.push [c]).push s) (c :: s) :=
    (Writes.push [c]).comp (Writes.push s)
  unfold wbInteger encodeInteger
  split_ifs
  · exact Writes.push _
  all_goals exact htwo _ _

theorem wbString_writes (s : Bytes) : Writes (wbString · s) (encodeString s) := by
  have hthree (c : UInt8) (size : Bytes) :
      Writes (fun b => ((b.push [c]).push size).push s) (c :: (size ++ s)) :=
    (Writes.push [c]).comp ((Writes.push size).comp (Writes.push s))
  unfold wbString encodeString
  dsimp only
  split_ifs with hshort hpos
  · exact (Writes.push [_]).comp (Writes.push s)
  · have hempty : s = [] := List.length_eq_zero_iff.1 (by omega)
    subst hempty
    exact Writes.push _
  · exact hthree _ _
  · exact hthree _ _

theorem tableHead_writes (n : ℕ) : Writes (tableHead · n) (encodeSize n) := by
  unfold tableHead encodeSize
  split_ifs
  · exact (Writes.push [_]).comp (wbInteger_writes _)
  · exact Writes.push _

end WriteBlock

/-- A packing either reports the flaw or appends the bytes. -/
def Packs (result : Except PackError WriteBlock) (flaw : Option PackError) (b : WriteBlock)
    (s : Bytes) : Prop :=
  match flaw with
  | some e => result = .error e
  | none => ∃ b', result = .ok b' ∧ b'.Kept ∧ b'.bytes = b.bytes ++ s

theorem Packs.ok {f : WriteBlock → WriteBlock} {s : Bytes} (hf : WriteBlock.Writes f s)
    {b : WriteBlock} (h : b.Kept) : Packs (.ok (f b)) none b s := ⟨f b, rfl, hf b h⟩

/-- Two packings in a row report the first flaw. -/
theorem Packs.bind {x : Except PackError WriteBlock} {g : WriteBlock → Except PackError WriteBlock}
    {e e' : Option PackError} {b : WriteBlock} {s t : Bytes} (hx : Packs x e b s)
    (hg : ∀ b' : WriteBlock, b'.Kept → Packs (g b') e' b' t) :
    Packs (x.bind g) (e.or e') b (s ++ t) := by
  cases e with
  | some e =>
    have hx' : x = .error e := hx
    rw [hx']
    rfl
  | none =>
    obtain ⟨b', rfl, hkept, hbytes⟩ := hx
    have hrest := hg b' hkept
    cases e' with
    | some e => exact hrest
    | none =>
      obtain ⟨b'', hok, hkept', hbytes'⟩ := hrest
      exact ⟨b'', hok, hkept', by rw [hbytes', hbytes, List.append_assoc]⟩

theorem Packs.map {x : Except PackError WriteBlock} {f : WriteBlock → WriteBlock}
    {e : Option PackError} {b : WriteBlock} {s t : Bytes} (hx : Packs x e b s)
    (hf : WriteBlock.Writes f t) : Packs (x.map f) e b (s ++ t) := by
  cases e with
  | some e =>
    have hx' : x = .error e := hx
    rw [hx']
    rfl
  | none =>
    obtain ⟨b', rfl, hkept, hbytes⟩ := hx
    obtain ⟨hkept', hbytes'⟩ := hf b' hkept
    exact ⟨f b', rfl, hkept', by rw [hbytes', hbytes, List.append_assoc]⟩

mutual

theorem packOne_packs {b : WriteBlock} (h : b.Kept) (depth : ℕ) (v : LuaValue) :
    Packs (packOne b depth v) (flaw depth v) b (encode v) := by
  unfold packOne flaw
  split_ifs
  · rfl
  · match v with
    | .nil => exact Packs.ok (WriteBlock.Writes.push _) h
    | .boolean boolean => exact Packs.ok (WriteBlock.Writes.push _) h
    | .integer v => exact Packs.ok (WriteBlock.wbInteger_writes v) h
    | .real v =>
      exact Packs.ok ((WriteBlock.Writes.push [_]).comp (WriteBlock.Writes.push _)) h
    | .string s => exact Packs.ok (WriteBlock.wbString_writes s) h
    | .userdata v =>
      exact Packs.ok ((WriteBlock.Writes.push [_]).comp (WriteBlock.Writes.push _)) h
    | .table arr hash =>
      have hhead : Packs (.ok (b.tableHead arr.length)) none b (encodeSize arr.length) :=
        Packs.ok (WriteBlock.tableHead_writes arr.length) h
      exact hhead.bind fun b' h' => (packAll_packs h' (depth + 1) arr).bind fun b'' h'' =>
        (packPairs_packs h'' (depth + 1) hash).map (WriteBlock.Writes.push _)
    | .other typename => rfl

theorem packAll_packs {b : WriteBlock} (h : b.Kept) (depth : ℕ) (vs : List LuaValue) :
    Packs (packAll b depth vs) (flawAll depth vs) b (encodeAll vs) := by
  match vs with
  | [] => exact ⟨b, rfl, h, (List.append_nil _).symm⟩
  | v :: vs =>
    exact (packOne_packs h depth v).bind fun b' h' => packAll_packs h' depth vs

theorem packPairs_packs {b : WriteBlock} (h : b.Kept) (depth : ℕ)
    (ps : List (LuaValue × LuaValue)) :
    Packs (packPairs b depth ps) (flawPairs depth ps) b (encodePairs ps) := by
  match ps with
  | [] => exact ⟨b, rfl, h, (List.append_nil _).symm⟩
  | (k, v) :: ps =>
    exact (packOne_packs h depth k).bind fun b' h' =>
      (packOne_packs h' depth v).bind fun b'' h'' => packPairs_packs h'' depth ps

end

/-- Packing answers with the bytes of the values in a row, or with the first flaw. -/
theorem luaseriPack_eq (vs : List LuaValue) : luaseriPack vs =
    match flawAll 0 vs with
    | some e => .error e
    | none => .ok (some (encodeAll vs)) := by
  have hpacks := packAll_packs WriteBlock.init_kept 0 vs
  rw [luaseriPack]
  cases hflaw : flawAll 0 vs with
  | some e =>
    rw [hflaw] at hpacks
    rw [show packAll .init 0 vs = .error e from hpacks]
    rfl
  | none =>
    rw [hflaw] at hpacks
    obtain ⟨b, hok, hkept, hbytes⟩ := hpacks
    have hseri : seri (b.full ++ [b.current]) b.len = some (encodeAll vs) := by
      rw [hkept.len, WriteBlock.bytes, seri_eq hkept.full hkept.current]
      exact congrArg some hbytes
    rw [hok, ← hseri]
    rfl

theorem combineType_eq {t c : ℕ} (ht : t < 8) : combineType t c = UInt8.ofNat (t + 8 * c) := by
  have hor := Nat.shiftLeft_add_eq_or_of_lt (show t < 2 ^ 3 by omega) c
  rw [combineType, Nat.or_comm, ← hor, Nat.shiftLeft_eq]
  congr 1
  omega

/-- The type and the cookie share a byte. -/
theorem getType_codes {t c : ℕ} (ht : t < 8) (hc : c < 32) :
    Codes getType [combineType t c] (t, c) := by
  have hbyte := Codes.word (k := 1) (n := t + 8 * c) (by omega)
  have hcode := hbyte.map fun n => (n &&& 7, n >>> 3)
  have htype : (t + 8 * c) &&& 7 = t := by
    rw [Nat.and_two_pow_sub_one_eq_mod (t + 8 * c) 3]
    omega
  have hcookie : (t + 8 * c) >>> 3 = c := by
    rw [Nat.shiftRight_eq_div_pow]
    omega
  have hspelling : leBytes 1 (t + 8 * c) = [combineType t c] := by
    rw [combineType_eq ht, leBytes, leBytes, Nat.mod_eq_of_lt (by omega)]
  rwa [htype, hcookie, hspelling] at hcode

theorem unpackOne_codes {n t c : ℕ} {s : Bytes} {v : LuaValue} (ht : t < 8) (hc : c < 32)
    (h : Codes (pushValue (unpackOne n) n t c) s v) :
    Codes (unpackOne (n + 1)) (combineType t c :: s) v := by
  have hone : unpackOne (n + 1) = getType >>= fun x => pushValue (unpackOne n) n x.1 x.2 := rfl
  rw [hone]
  exact (getType_codes ht hc).bind h

/-- An integer is written in the shortest of its forms and read back by its cookie. -/
theorem integer_codes (v : BitVec 64) : ∃ c s, encodeInteger v = combineType typeNumber c :: s ∧
    c < 32 ∧ c ≠ typeNumberReal ∧ Codes (getInteger c) s v := by
  have hnat (w : ℕ) (hw : v.toNat < 256 ^ w) :
      Codes (BitVec.ofNat 64 <$> word w) (leBytes w v.toNat) v := by
    have hcode := (Codes.word hw).map (BitVec.ofNat 64)
    rwa [BitVec.ofNat_toNat, BitVec.setWidth_eq] at hcode
  have hint (hv : v = (v.setWidth 32).signExtend 64) :
      Codes (getInteger typeNumberDword) (leBytes 4 (v.setWidth 32).toNat) v := by
    have hcode := (Codes.word (k := 4) (v.setWidth 32).isLt).map
      fun n => (BitVec.ofNat 32 n).signExtend 64
    rwa [BitVec.ofNat_toNat, BitVec.setWidth_eq, ← hv] at hcode
  have hsmall (hpos : ¬ v.toInt < 0) (m : ℕ) (hm : v.toInt < m) : v.toNat < m := by
    have hcond := BitVec.toInt_eq_toNat_cond v
    split at hcond <;> omega
  rw [encodeInteger]
  split_ifs with hzero hwide hneg hbyte hword
  · subst hzero
    exact ⟨_, _, rfl, by decide, by decide, Codes.pure 0⟩
  · exact ⟨_, _, rfl, by decide, by decide, hnat 8 v.isLt⟩
  · exact ⟨_, _, rfl, by decide, by decide, hint (not_not.1 hwide)⟩
  · have hlt := hsmall hneg 256 hbyte
    rw [BitVec.toNat_setWidth, Nat.mod_eq_of_lt hlt]
    exact ⟨_, _, rfl, by decide, by decide, hnat 1 hlt⟩
  · have hlt := hsmall hneg 65536 hword
    rw [BitVec.toNat_setWidth, Nat.mod_eq_of_lt hlt]
    exact ⟨_, _, rfl, by decide, by decide, hnat 2 hlt⟩
  · exact ⟨_, _, rfl, by decide, by decide, hint (not_not.1 hwide)⟩

/-- Small tables have their size in the cookie, others in an integer that follows. -/
theorem size_codes {n : ℕ} (hn : n < 2 ^ 31) : ∃ c s, encodeSize n = combineType typeTable c :: s ∧
    c < 32 ∧ Codes (getSize c) s n := by
  rw [encodeSize]
  split_ifs with hlarge
  · obtain ⟨c, s, hspelling, hc, hreal, hcode⟩ := integer_codes (BitVec.ofNat 64 n)
    refine ⟨_, _, rfl, by decide, ?_⟩
    have hn' : ((BitVec.ofNat 64 n).setWidth 32).toInt.toNat = n := by
      have hcond := BitVec.toInt_eq_toNat_cond ((BitVec.ofNat 64 n).setWidth 32)
      rw [BitVec.toNat_setWidth, BitVec.toNat_ofNat, Nat.mod_eq_of_lt (show n < 2 ^ 64 by omega),
        Nat.mod_eq_of_lt (show n < 2 ^ 32 by omega), if_pos (by omega)] at hcond
      rw [hcond, Int.toNat_natCast]
    have hsize : getSize (maxCookie - 1) = getType >>= fun x =>
        if x.1 ≠ typeNumber ∨ x.2 = typeNumberReal then failure
        else (fun n : BitVec 64 => (n.setWidth 32).toInt.toNat) <$> getInteger x.2 := rfl
    rw [hsize, hspelling]
    refine (getType_codes (by decide) hc).bind ?_
    rw [if_neg (not_or.2 ⟨fun h => h rfl, hreal⟩)]
    have hread := hcode.map fun n : BitVec 64 => (n.setWidth 32).toInt.toNat
    rwa [hn'] at hread
  · have hc : n ≠ maxCookie - 1 := fun h => hlarge h.ge
    have hmax : maxCookie = 32 := rfl
    refine ⟨n, [], rfl, by omega, ?_⟩
    rw [getSize, if_neg hc]
    exact Codes.pure n

theorem string_codes {s : Bytes} (hs : s.length < 2 ^ 31) (n : ℕ) :
    Codes (unpackOne (n + 1)) (encodeString s) (.string s) := by
  have hlong {k : ℕ} (hk : s.length < 256 ^ k) :
      Codes (word k >>= fun n => LuaValue.string <$> take n) (leBytes k s.length ++ s)
        (.string s) := (Codes.word hk).bind ((Codes.take s).map _)
  rw [encodeString]
  split_ifs with hshort hword
  · exact unpackOne_codes (by decide) hshort ((Codes.take s).map _)
  · exact unpackOne_codes (by decide) (by decide) (hlong (k := 2) hword)
  · exact unpackOne_codes (by decide) (by decide) (hlong (k := 4) (by omega))

mutual

/-- What the sizes of the wire and the keys of a table allow. -/
def Proper : LuaValue → Prop
  | .string s => s.length < 2 ^ 31
  | .table arr hash => arr.length < 2 ^ 31 ∧ ProperAll arr ∧ ProperPairs hash
  | _ => True
  termination_by structural v => v

def ProperAll : List LuaValue → Prop
  | [] => True
  | v :: vs => Proper v ∧ ProperAll vs
  termination_by structural vs => vs

def ProperPairs : List (LuaValue × LuaValue) → Prop
  | [] => True
  | (k, v) :: ps => (k.isNil = false ∧ k.isNaN = false) ∧ Proper k ∧ Proper v ∧ ProperPairs ps
  termination_by structural ps => ps

end

theorem flaw_table {depth : ℕ} {arr : List LuaValue} {hash : List (LuaValue × LuaValue)}
    (h : flaw depth (.table arr hash) = none) :
    flawAll (depth + 1) arr = none ∧ flawPairs (depth + 1) hash = none := by
  unfold flaw at h
  split at h
  · cases h
  · exact Option.or_eq_none_iff.1 h

theorem encode_ne_nil {depth : ℕ} {v : LuaValue} (h : flaw depth v = none) : encode v ≠ [] := by
  cases v with
  | other typename =>
    unfold flaw at h
    split at h <;> cases h
  | integer v =>
    obtain ⟨c, s, hspelling, -⟩ := integer_codes v
    rw [encode, hspelling]
    nofun
  | string s =>
    rw [encode, encodeString]
    split_ifs <;> nofun
  | table arr hash =>
    rw [encode, encodeSize]
    split_ifs <;> nofun
  | nil => nofun
  | boolean b => nofun
  | real v => nofun
  | userdata v => nofun

theorem encodeAll_eq (vs : List LuaValue) : encodeAll vs = vs.flatMap encode := by
  induction vs with
  | nil => rfl
  | cons v vs ih => rw [encodeAll, List.flatMap_cons, ih]

theorem encodePairs_eq (ps : List (LuaValue × LuaValue)) :
    encodePairs ps = ps.flatMap fun p => encode p.1 ++ encode p.2 := by
  induction ps with
  | nil => rfl
  | cons p ps ih => rw [encodePairs, List.flatMap_cons, ih, List.append_assoc]

theorem length_pairs {depth : ℕ} {ps : List (LuaValue × LuaValue)}
    (h : flawPairs depth ps = none) : ps.length ≤ (encodePairs ps).length := by
  induction ps with
  | nil => exact Nat.le_refl 0
  | cons p ps ih =>
    rw [flawPairs, Option.or_eq_none_iff, Option.or_eq_none_iff] at h
    have hkey := List.length_pos_of_ne_nil (encode_ne_nil h.1)
    have hrest := ih h.2.2
    simp only [encodePairs, List.length_append, List.length_cons]
    omega

theorem nan_free {ps : List (LuaValue × LuaValue)} (h : ProperPairs ps) :
    (ps.any fun p => p.1.isNaN) = false := by
  induction ps with
  | nil => rfl
  | cons p ps ih =>
    rw [ProperPairs] at h
    rw [List.any_cons, h.1.2, ih h.2.2.2, Bool.false_or]

/-- The parts of a table, read one after the other. -/
theorem table_codes {arr : List LuaValue} {hash : List (LuaValue × LuaValue)} {n c : ℕ} {s : Bytes}
    (hsize : Codes (getSize c) s arr.length)
    (harr : ∀ v ∈ arr, Codes (unpackOne n) (encode v) v)
    (hhash : ∀ p ∈ hash, Codes (unpackOne n) (encode p.1) p.1 ∧
      Codes (unpackOne n) (encode p.2) p.2 ∧ p.1.isNil = false)
    (hnan : (hash.any fun p => p.1.isNaN) = false) (hn : hash.length < n) :
    Codes (unpackTable (unpackOne n) n c)
      (s ++ (encodeAll arr ++ (encodePairs hash ++ [UInt8.ofNat typeNil]))) (.table arr hash) := by
  obtain ⟨n, rfl⟩ := Nat.exists_eq_succ_of_ne_zero (Nat.ne_of_gt (Nat.zero_lt_of_lt hn))
  have hnil : Codes (unpackOne (n + 1)) [UInt8.ofNat typeNil] .nil :=
    unpackOne_codes (t := typeNil) (c := 0) (by decide) (by decide) (Codes.pure _)
  have hend : Codes (if hash.any fun p => p.1.isNaN then failure
      else pure (LuaValue.table arr hash)) ([] : Bytes) (.table arr hash) := by
    rw [hnan]
    exact Codes.pure _
  have hpairs := (Codes.pairs hhash hnil rfl hn).bind (f := fun hash =>
    if hash.any fun p => p.1.isNaN then failure else pure (LuaValue.table arr hash)) hend
  have hmany := (Codes.many harr).bind (f := fun arr => pairs (unpackOne (n + 1)) LuaValue.isNil
    (n + 1) >>= fun hash => if hash.any fun p => p.1.isNaN then failure
      else pure (LuaValue.table arr hash)) hpairs
  have hall := hsize.bind (f := fun arraySize => many (unpackOne (n + 1)) arraySize >>= fun arr =>
    pairs (unpackOne (n + 1)) LuaValue.isNil (n + 1) >>= fun hash =>
      if hash.any fun p => p.1.isNaN then failure else pure (LuaValue.table arr hash)) hmany
  rw [encodeAll_eq, encodePairs_eq]
  rw [List.append_nil] at hall
  exact hall

mutual

/-- The bytes of a value are read back as the value, and no beginning of them as any. -/
theorem encode_codes (v : LuaValue) {depth n : ℕ} (hflaw : flaw depth v = none) (hv : Proper v)
    (hn : (encode v).length ≤ n) : Codes (unpackOne n) (encode v) v := by
  obtain ⟨n, rfl⟩ := Nat.exists_eq_succ_of_ne_zero (n := n) (by
    have hpos := List.length_pos_of_ne_nil (encode_ne_nil hflaw)
    omega)
  match v with
  | .nil => exact unpackOne_codes (t := typeNil) (c := 0) (by decide) (by decide) (Codes.pure _)
  | .boolean b =>
    cases b
    · exact unpackOne_codes (t := typeBoolean) (c := 0) (by decide) (by decide) (Codes.pure _)
    · exact unpackOne_codes (t := typeBoolean) (c := 1) (by decide) (by decide) (Codes.pure _)
  | .integer v =>
    obtain ⟨c, s, hspelling, hc, hreal, hcode⟩ := integer_codes v
    rw [encode, hspelling]
    refine unpackOne_codes (by decide) hc ?_
    have hpush : pushValue (unpackOne n) n typeNumber c = LuaValue.integer <$> getInteger c :=
      if_neg hreal
    rw [hpush]
    exact hcode.map _
  | .real v =>
    have hcode := (Codes.word (k := 8) v.isLt).map fun n => LuaValue.real (BitVec.ofNat 64 n)
    rw [BitVec.ofNat_toNat, BitVec.setWidth_eq] at hcode
    exact unpackOne_codes (by decide) (by decide) hcode
  | .string s => exact string_codes hv n
  | .userdata v =>
    have hcode := (Codes.word (k := 8) v.isLt).map fun n => LuaValue.userdata (BitVec.ofNat 64 n)
    rw [BitVec.ofNat_toNat, BitVec.setWidth_eq] at hcode
    exact unpackOne_codes (t := typeUserdata) (c := 0) (by decide) (by decide) hcode
  | .table arr hash =>
    obtain ⟨harr, hhash⟩ := flaw_table hflaw
    rw [Proper] at hv
    obtain ⟨c, s, hspelling, hc, hsize⟩ := size_codes hv.1
    rw [encode, hspelling] at hn ⊢
    simp only [List.cons_append, List.length_cons, List.length_append, List.length_nil] at hn
    have hlength := length_pairs hhash
    refine unpackOne_codes (by decide) hc (table_codes hsize ?_ ?_ (nan_free hv.2.2) (by omega))
    · exact all_codes arr harr hv.2.1 (by omega)
    · exact pairs_codes hash hhash hv.2.2 (by omega)
  | .other typename =>
    unfold flaw at hflaw
    split at hflaw <;> cases hflaw

theorem all_codes (vs : List LuaValue) {depth n : ℕ} (hflaw : flawAll depth vs = none)
    (hvs : ProperAll vs) (hn : (encodeAll vs).length ≤ n) :
    ∀ v ∈ vs, Codes (unpackOne n) (encode v) v := by
  match vs with
  | [] => nofun
  | v :: vs =>
    rw [flawAll, Option.or_eq_none_iff] at hflaw
    rw [ProperAll] at hvs
    rw [encodeAll, List.length_append] at hn
    exact List.forall_mem_cons.2 ⟨encode_codes v hflaw.1 hvs.1 (by omega),
      all_codes vs hflaw.2 hvs.2 (by omega)⟩

theorem pairs_codes (ps : List (LuaValue × LuaValue)) {depth n : ℕ}
    (hflaw : flawPairs depth ps = none) (hps : ProperPairs ps)
    (hn : (encodePairs ps).length ≤ n) :
    ∀ p ∈ ps, Codes (unpackOne n) (encode p.1) p.1 ∧ Codes (unpackOne n) (encode p.2) p.2 ∧
      p.1.isNil = false := by
  match ps with
  | [] => nofun
  | (k, v) :: ps =>
    rw [flawPairs, Option.or_eq_none_iff, Option.or_eq_none_iff] at hflaw
    rw [ProperPairs] at hps
    rw [encodePairs, List.length_append, List.length_append] at hn
    exact List.forall_mem_cons.2 ⟨⟨encode_codes k hflaw.1 hps.2.1 (by omega),
      encode_codes v hflaw.2.1 hps.2.2.1 (by omega), hps.1.1⟩,
      pairs_codes ps hflaw.2.2 hps.2.2.2 (by omega)⟩

end

theorem unpackOne_extends (n m : ℕ) : Extends (unpackOne n) (unpackOne (n + m)) := by
  induction n with
  | zero => exact nofun
  | succ n ih =>
    rw [Nat.succ_add]
    refine (Extends.refl getType).bind (f := fun x => pushValue (unpackOne n) n x.1 x.2)
      (g := fun x => pushValue (unpackOne (n + m)) (n + m) x.1 x.2) fun x => ?_
    have htable : Extends (unpackTable (unpackOne n) n x.2)
        (unpackTable (unpackOne (n + m)) (n + m) x.2) := by
      refine (Extends.refl _).bind fun size => (ih.many size).bind fun arr => ?_
      exact (ih.pairs _ (Nat.le_add_right n m)).bind fun hash => Extends.refl _
    unfold pushValue
    split_ifs
    all_goals first | exact Extends.refl _ | exact htable

mutual

/-- How deep tables are nested; the parts of a table are one deeper than the table. -/
def height : LuaValue → ℕ
  | .table arr hash => max (heightAll arr) (heightPairs hash)
  | _ => 0
  termination_by structural v => v

def heightAll : List LuaValue → ℕ
  | [] => 0
  | v :: vs => max (height v + 1) (heightAll vs)
  termination_by structural vs => vs

def heightPairs : List (LuaValue × LuaValue) → ℕ
  | [] => 0
  | (k, v) :: ps => max (height k + 1) (max (height v + 1) (heightPairs ps))
  termination_by structural ps => ps

end

mutual

/-- Nothing in the value lacks a wire form. -/
def Plain : LuaValue → Prop
  | .table arr hash => PlainAll arr ∧ PlainPairs hash
  | .other _ => False
  | _ => True
  termination_by structural v => v

def PlainAll : List LuaValue → Prop
  | [] => True
  | v :: vs => Plain v ∧ PlainAll vs
  termination_by structural vs => vs

def PlainPairs : List (LuaValue × LuaValue) → Prop
  | [] => True
  | (k, v) :: ps => Plain k ∧ Plain v ∧ PlainPairs ps
  termination_by structural ps => ps

end

mutual

theorem flaw_none_iff (v : LuaValue) (depth : ℕ) :
    flaw depth v = none ↔ depth + height v ≤ maxDepth ∧ Plain v := by
  unfold flaw
  split_ifs with hdeep
  · refine iff_of_false nofun fun h => ?_
    omega
  · have hdepth := Nat.not_lt.1 hdeep
    match v with
    | .table arr hash =>
      dsimp only
      have hmax : depth + max (heightAll arr) (heightPairs hash) ≤ maxDepth ↔
          depth + heightAll arr ≤ maxDepth ∧ depth + heightPairs hash ≤ maxDepth := by omega
      rw [Option.or_eq_none_iff, flawAll_none_iff arr hdepth, flawPairs_none_iff hash hdepth,
        height, Plain, hmax, and_and_and_comm]
    | .other typename => exact iff_of_false nofun fun h => h.2
    | .nil => exact iff_of_true rfl ⟨hdepth, trivial⟩
    | .boolean b => exact iff_of_true rfl ⟨hdepth, trivial⟩
    | .integer v => exact iff_of_true rfl ⟨hdepth, trivial⟩
    | .real v => exact iff_of_true rfl ⟨hdepth, trivial⟩
    | .string s => exact iff_of_true rfl ⟨hdepth, trivial⟩
    | .userdata v => exact iff_of_true rfl ⟨hdepth, trivial⟩

theorem flawAll_none_iff (vs : List LuaValue) {depth : ℕ} (hdepth : depth ≤ maxDepth) :
    flawAll (depth + 1) vs = none ↔ depth + heightAll vs ≤ maxDepth ∧ PlainAll vs := by
  match vs with
  | [] => exact iff_of_true rfl ⟨hdepth, trivial⟩
  | v :: vs =>
    have hmax : depth + max (height v + 1) (heightAll vs) ≤ maxDepth ↔
        depth + 1 + height v ≤ maxDepth ∧ depth + heightAll vs ≤ maxDepth := by omega
    rw [flawAll, Option.or_eq_none_iff, flaw_none_iff v, flawAll_none_iff vs hdepth, heightAll,
      PlainAll, hmax, and_and_and_comm]

theorem flawPairs_none_iff (ps : List (LuaValue × LuaValue)) {depth : ℕ}
    (hdepth : depth ≤ maxDepth) :
    flawPairs (depth + 1) ps = none ↔ depth + heightPairs ps ≤ maxDepth ∧ PlainPairs ps := by
  match ps with
  | [] => exact iff_of_true rfl ⟨hdepth, trivial⟩
  | (k, v) :: ps =>
    have hmax : depth + max (height k + 1) (max (height v + 1) (heightPairs ps)) ≤ maxDepth ↔
        depth + 1 + height k ≤ maxDepth ∧ depth + 1 + height v ≤ maxDepth ∧
          depth + heightPairs ps ≤ maxDepth := by omega
    rw [flawPairs, Option.or_eq_none_iff, Option.or_eq_none_iff, flaw_none_iff k, flaw_none_iff v,
      flawPairs_none_iff ps hdepth, heightPairs, PlainPairs, hmax]
    constructor
    · rintro ⟨⟨hkey, hkey'⟩, ⟨hvalue, hvalue'⟩, hrest, hrest'⟩
      exact ⟨⟨hkey, hvalue, hrest⟩, hkey', hvalue', hrest'⟩
    · rintro ⟨⟨hkey, hvalue, hrest⟩, hkey', hvalue', hrest'⟩
      exact ⟨⟨hkey, hkey'⟩, ⟨hvalue, hvalue'⟩, hrest, hrest'⟩

end

theorem pack_none_iff (vs : List LuaValue) :
    flawAll 0 vs = none ↔ ∀ v ∈ vs, height v ≤ maxDepth ∧ Plain v := by
  induction vs with
  | nil => exact iff_of_true rfl nofun
  | cons v vs ih =>
    rw [flawAll, Option.or_eq_none_iff, flaw_none_iff, ih, List.forall_mem_cons, Nat.zero_add]

theorem properAll_iff (vs : List LuaValue) : ProperAll vs ↔ ∀ v ∈ vs, Proper v := by
  induction vs with
  | nil => exact iff_of_true trivial nofun
  | cons v vs ih => rw [ProperAll, ih, List.forall_mem_cons]

/-- The values of a flawless list, as the readers of their bytes see them. -/
theorem coded {vs : List LuaValue} (hflaw : flawAll 0 vs = none) (hvs : ∀ v ∈ vs, Proper v) {n : ℕ}
    (hn : (encodeAll vs).length ≤ n) :
    ∀ v ∈ vs, Codes (unpackOne n) (encode v) v ∧ encode v ≠ [] := by
  intro v hv
  refine ⟨all_codes vs hflaw ((properAll_iff vs).2 hvs) hn v hv, ?_⟩
  have hnone := (pack_none_iff vs).1 hflaw v hv
  exact encode_ne_nil ((flaw_none_iff v 0).2 (by rwa [Nat.zero_add]))

theorem length_all {vs : List LuaValue} (h : ∀ v ∈ vs, encode v ≠ []) :
    vs.length ≤ (encodeAll vs).length := by
  induction vs with
  | nil => exact Nat.le_refl 0
  | cons v vs ih =>
    have hhead := List.length_pos_of_ne_nil (h v (List.mem_cons_self ..))
    have htail := ih fun v' hv' => h v' (List.mem_cons_of_mem v hv')
    rw [encodeAll, List.length_append, List.length_cons]
    omega

/-- Packing fails for values nested more than 32 deep or with a part that has no wire form, and only
for these; whatever is packed is unpacked again, value by value. -/
theorem pack_unpack (vs : List LuaValue) (hvs : ∀ v ∈ vs, Proper v) :
    ((∀ v ∈ vs, height v ≤ maxDepth ∧ Plain v) →
      ∃ s, luaseriPack vs = .ok (some s) ∧ luaseriUnpack s = some vs) ∧
    ((¬ ∀ v ∈ vs, height v ≤ maxDepth ∧ Plain v) → ∃ e, luaseriPack vs = .error e) := by
  rw [← pack_none_iff, luaseriPack_eq]
  refine ⟨fun hflaw => ⟨encodeAll vs, by rw [hflaw], ?_⟩, fun hflaw => ?_⟩
  · have hcoded := coded hflaw hvs (Nat.le_refl _)
    have hread := whole_reads hcoded (length_all fun v hv => (hcoded v hv).2)
    rwa [← encodeAll_eq] at hread
  · obtain ⟨e, he⟩ := Option.ne_none_iff_exists'.1 hflaw
    exact ⟨e, by rw [he]⟩

/-- A list with a string, a nested table and a number in two forms. -/
theorem pack_unpack_nested : ∃ s,
    luaseriPack [.string [97], .table [.integer 7] [(.string [98], .table [] [])], .nil] =
      .ok (some s) ∧
    luaseriUnpack s =
      some [.string [97], .table [.integer 7] [(.string [98], .table [] [])], .nil] := by
  refine (pack_unpack _ ?_).1 ?_
  · simp [Proper, ProperAll, ProperPairs, LuaValue.isNil, LuaValue.isNaN]
  · simp [height, heightAll, heightPairs, Plain, PlainAll, PlainPairs, maxDepth]

/-- Whatever is left out at the end of a message, what unpacks are its first values and not all of
them; no bound on the nesting or on the turns is needed. -/
theorem unpack_cut {vs : List LuaValue} (hvs : ∀ v ∈ vs, Proper v) {s t : Bytes}
    (hpack : luaseriPack vs = .ok (some s)) (hcut : t <+: s) (hne : t ≠ s) {fuel turns : ℕ}
    {ws : List LuaValue} (hunpack : whole (unpackOne fuel) turns t = some ws) :
    ws <+: vs ∧ ws ≠ vs := by
  rw [luaseriPack_eq] at hpack
  cases hflaw : flawAll 0 vs with
  | some e =>
    rw [hflaw] at hpack
    cases hpack
  | none =>
    rw [hflaw] at hpack
    have hs : encodeAll vs = s := Option.some.inj (Except.ok.inj hpack)
    have hcoded := coded hflaw hvs (n := fuel + (encodeAll vs).length) (Nat.le_add_left _ _)
    rw [← hs, encodeAll_eq] at hcut hne
    exact whole_short hcoded hcut hne (whole_mono (unpackOne_extends fuel _) hunpack)

/-- One byte of a string is missing, after a number. -/
theorem unpack_cut_string : [LuaValue.integer 7] <+: [LuaValue.integer 7, .string [97]] ∧
    [.integer 7] ≠ [LuaValue.integer 7, .string [97]] := by
  have hpack : luaseriPack [.integer 7, .string [97]] = .ok (some [10, 7, 12, 97]) := by rfl
  have hunpack : whole (unpackOne 2) 2 [10, 7] = some [.integer 7] := by rfl
  refine unpack_cut ?_ hpack ?_ ?_ hunpack
  · simp [Proper]
  · decide
  · decide

end Ue4Background.Seri
