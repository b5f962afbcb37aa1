import WidevineCdm.Format.Integers
import WidevineCdm.Lib.Format
import WidevineCdm.Model.Pssh

/-!
# The PSSH box format

`PsshBox` is the format by its fields (pssh.h:10–24), with its length limits
as proofs it carries; `PsshBox.encode` lays it out: a `front`, up to the end of
the key ids, then the init data after its size. The parser is reduced to one
equation per section of the box, each at a buffer split as `pre ++ rest` with
the offset `pre.length`, for any `size_t` that holds the offsets within the
buffer.
-/

namespace WidevineCdm

open Lib

/-! ## The format -/

/-- A PSSH box by its fields. Only version 1 lists key ids. -/
structure PsshBox where
  size : List.Vector UInt8 4
  version : UInt8
  flags : List.Vector UInt8 3
  systemId : List.Vector UInt8 16
  keyIds : List (List.Vector UInt8 16)
  initData : Bytes
  keyIds_lt : keyIds.length < 2 ^ 32
  keyIds_nil : version ≠ 1 → keyIds = []
  initData_lt : initData.length < 2 ^ 32

namespace PsshBox

/-- The key ids as byte strings. -/
def kids (box : PsshBox) : List Bytes := box.keyIds.map (·.toList)

/-- The key id section, absent unless the version is 1. -/
def encodeKids (box : PsshBox) : Bytes :=
  if box.version = 1 then beBytes 4 box.kids.length ++ box.kids.flatten else []

/-- The bytes of a box in front of its data size. -/
def front (box : PsshBox) : Bytes :=
  box.size.toList ++ (ascii "pssh" ++ (box.version :: (box.flags.toList ++ (box.systemId.toList
    ++ box.encodeKids))))

/-- The bytes of a box. -/
def encode (box : PsshBox) : Bytes :=
  box.size.toList ++ (ascii "pssh" ++ (box.version :: (box.flags.toList ++ (box.systemId.toList
    ++ (box.encodeKids ++ (beBytes 4 box.initData.length ++ box.initData))))))

/-- What the accessors of a parsed object report. -/
def fields (box : PsshBox) (raw : Bytes) : Pssh where
  rawData := raw
  version := box.version
  systemId := box.systemId.toList
  keyIds := box.kids
  initData := box.initData

theorem length_of_mem_kids (box : PsshBox) : ∀ kid ∈ box.kids, kid.length = 16 := by
  intro kid hkid
  obtain ⟨v, -, rfl⟩ := List.mem_map.mp hkid
  exact v.toList_length

theorem encode_eq (box : PsshBox) :
    box.encode = box.front ++ (beBytes 4 box.initData.length ++ box.initData) := by
  simp only [encode, front, List.append_assoc, List.cons_append]

theorem kids_length_lt (box : PsshBox) : box.kids.length < 2 ^ 32 := by
  rw [kids, List.length_map]
  exact box.keyIds_lt

/-- The front is the header, and for version 1 the count and the key ids. -/
theorem front_length (box : PsshBox) :
    (box.version = 1 → box.front.length = 32 + 16 * box.kids.length) ∧
      (box.version ≠ 1 → box.front.length = 28 ∧ box.kids.length = 0) := by
  have hm : (ascii "pssh").length = 4 := rfl
  have hfront : box.front.length = 28 + box.encodeKids.length := by
    simp only [front, List.length_append, List.length_cons, List.Vector.toList_length, hm]
    omega
  rw [hfront, encodeKids]
  constructor
  · intro hv
    rw [if_pos hv, List.length_append, beBytes_length, flatten_length box.length_of_mem_kids]
    omega
  · intro hv
    rw [if_neg hv, kids, box.keyIds_nil hv]
    exact ⟨rfl, rfl⟩

theorem front_bounds (box : PsshBox) :
    28 + 16 * box.kids.length ≤ box.front.length ∧
      box.front.length ≤ 32 + 16 * box.kids.length := by
  obtain ⟨hlisted, hunlisted⟩ := box.front_length
  by_cases hv : box.version = 1
  · have hlen := hlisted hv
    omega
  · have hlen := hunlisted hv
    omega

end PsshBox

namespace Pssh

/-! ## Reads at a split buffer -/

theorem sizeAdd_of_lt {w a b : Nat} (h : a + b < 2 ^ w) : sizeAdd w a b = a + b :=
  Nat.mod_eq_of_lt h

/-- `read_be32` at four bytes that are there. -/
theorem readBe32_append {n : Nat} (hn : n < 2 ^ 32) (pre rest : Bytes) :
    readBe32 (pre ++ (beBytes 4 n ++ rest)) pre.length = pure (UInt32.ofNat n) := by
  obtain ⟨b0, b1, b2, b3, hbytes⟩ : ∃ b0 b1 b2 b3, beBytes 4 n = [b0, b1, b2, b3] :=
    ⟨_, _, _, _, rfl⟩
  have hvalue : beNat [b0, b1, b2, b3] = n := by
    rw [← hbytes, beNat_beBytes]
    exact Nat.mod_eq_of_lt hn
  have hword : ((b0.toUInt32 <<< 24) ||| (b1.toUInt32 <<< 16) ||| (b2.toUInt32 <<< 8)
      ||| b3.toUInt32) = UInt32.ofNat n := by
    apply UInt32.toNat_inj.mp
    rw [be32_toNat, hvalue, UInt32.toNat_ofNat_of_lt' hn]
  rw [hbytes]
  have h0 : (element (pre ++ ([b0, b1, b2, b3] ++ rest)) pre.length : EStateM Exn Pssh UInt8)
      = pure b0 := element_append pre _ b0
  have h1 : (element (pre ++ ([b0, b1, b2, b3] ++ rest)) (pre.length + 1)
      : EStateM Exn Pssh UInt8) = pure b1 := by
    simpa using element_append (m := EStateM Exn Pssh) (pre ++ [b0]) (b2 :: b3 :: rest) b1
  have h2 : (element (pre ++ ([b0, b1, b2, b3] ++ rest)) (pre.length + 2)
      : EStateM Exn Pssh UInt8) = pure b2 := by
    simpa using element_append (m := EStateM Exn Pssh) (pre ++ [b0, b1]) (b3 :: rest) b2
  have h3 : (element (pre ++ ([b0, b1, b2, b3] ++ rest)) (pre.length + 3)
      : EStateM Exn Pssh UInt8) = pure b3 := by
    simpa using element_append (m := EStateM Exn Pssh) (pre ++ [b0, b1, b2]) rest b3
  rw [readBe32, h0, h1, h2, h3, ← hword]
  rfl

/-! ## The sections of the parser -/

/-- The fixed part: 28 bytes, of which the tag is checked. -/
theorem exec_parseHeader {w : Nat} (hw : 2 ^ 5 ≤ 2 ^ w) {z m f sys rest : Bytes} {v : UInt8}
    (hz : z.length = 4) (hm : m.length = 4) (hf : f.length = 3) (hsys : sys.length = 16)
    (hrest : 4 ≤ rest.length) {pssh : Pssh}
    (hraw : pssh.rawData = z ++ (m ++ (v :: (f ++ (sys ++ rest))))) :
    exec (parseHeader w) pssh =
      if m = ascii "pssh" then (.ok 28, { pssh with version := v, systemId := sys })
      else (.error (.runtimeError "Invalid PSSH magic"), pssh) := by
  obtain ⟨z0, z1, z2, z3, rfl⟩ : ∃ z0 z1 z2 z3, z = [z0, z1, z2, z3] := by
    match z, hz with
    | [z0, z1, z2, z3], _ => exact ⟨z0, z1, z2, z3, rfl⟩
  obtain ⟨m0, m1, m2, m3, rfl⟩ : ∃ m0 m1 m2 m3, m = [m0, m1, m2, m3] := by
    match m, hm with
    | [m0, m1, m2, m3], _ => exact ⟨m0, m1, m2, m3, rfl⟩
  obtain ⟨f0, f1, f2, rfl⟩ := List.length_eq_three.mp hf
  have hlen : ¬ pssh.rawData.length < 32 := by
    rw [hraw]
    simp only [List.length_append, List.length_cons, List.length_nil, hsys]
    omega
  -- the offsets are constants below 32
  have hsum : ∀ {a b : Nat}, a + b < 2 ^ 5 → sizeAdd w a b = a + b := fun h =>
    sizeAdd_of_lt (lt_of_lt_of_le h hw)
  have hslice : (slice pssh.rawData 12 (12 + 16) : EStateM Exn Pssh Bytes) = pure sys := by
    have h := slice_append (m := EStateM Exn Pssh)
      [z0, z1, z2, z3, m0, m1, m2, m3, v, f0, f1, f2] sys rest
    rw [hsys] at h
    rw [hraw]
    exact h
  have hmagic : ([m0, m1, m2, m3] = ascii "pssh") ↔
      ¬ (m0 ≠ 0x70 ∨ m1 ≠ 0x73 ∨ m2 ≠ 0x73 ∨ m3 ≠ 0x68) := by
    have hascii : ascii "pssh" = [0x70, 0x73, 0x73, 0x68] := by decide
    rw [hascii]
    simp only [List.cons.injEq, and_true, not_or, not_not]
  have h4 : (element pssh.rawData 4 : EStateM Exn Pssh UInt8) = pure m0 := by rw [hraw]; rfl
  have h5 : (element pssh.rawData 5 : EStateM Exn Pssh UInt8) = pure m1 := by rw [hraw]; rfl
  have h6 : (element pssh.rawData 6 : EStateM Exn Pssh UInt8) = pure m2 := by rw [hraw]; rfl
  have h7 : (element pssh.rawData 7 : EStateM Exn Pssh UInt8) = pure m3 := by rw [hraw]; rfl
  have h8 : (element pssh.rawData 8 : EStateM Exn Pssh UInt8) = pure v := by rw [hraw]; rfl
  have s4 : sizeAdd w 0 4 = 4 := hsum (by decide)
  have s5 : sizeAdd w 4 1 = 5 := hsum (by decide)
  have s6 : sizeAdd w 4 2 = 6 := hsum (by decide)
  have s7 : sizeAdd w 4 3 = 7 := hsum (by decide)
  have s8 : sizeAdd w 4 4 = 8 := hsum (by decide)
  have s9 : sizeAdd w 8 1 = 9 := hsum (by decide)
  have s12 : sizeAdd w 9 3 = 12 := hsum (by decide)
  have s28 : sizeAdd w 12 16 = 28 := hsum (by decide)
  rw [parseHeader, exec_bind_ok (exec_get pssh), if_neg hlen]
  simp only [s4, s5, s6, s7, s8, s9, s12, s28, h4, h5, h6, h7, h8, hslice, pure_bind]
  by_cases hbad : m0 ≠ 0x70 ∨ m1 ≠ 0x73 ∨ m2 ≠ 0x73 ∨ m3 ≠ 0x68
  · rw [if_pos hbad, if_neg fun h => hmagic.mp h hbad]
    rfl
  · rw [if_neg hbad, if_pos (hmagic.mpr hbad)]
    rfl

/-- The key id loop: it collects every whole key id there is, up to the
count, and throws when the count asks for more. -/
theorem exec_readKids {w n : Nat} {pre rest : Bytes} {pssh : Pssh}
    (hraw : pssh.rawData = pre ++ rest)
    (hw : min (pre.length + 16 * n) (pre.length + rest.length + 16) < 2 ^ w) :
    exec (readKids w n pre.length) pssh =
      if 16 * n ≤ rest.length then
        (.ok (pre.length + 16 * n), { pssh with keyIds := pssh.keyIds ++ chunks 16 n rest })
      else
        (.error (.runtimeError "Truncated PSSH (KID data)"),
          { pssh with keyIds := pssh.keyIds ++ chunks 16 (rest.length / 16) rest }) := by
  induction n generalizing pre rest pssh with
  | zero =>
    rw [if_pos (Nat.zero_le _)]
    simp only [readKids, chunks, exec_pure, List.append_nil, Nat.mul_zero, Nat.add_zero]
  | succ n ih =>
    rw [Nat.mul_succ] at hw ⊢
    have hsum : sizeAdd w pre.length 16 = pre.length + 16 := sizeAdd_of_lt (by omega)
    have hlen : pssh.rawData.length = pre.length + rest.length := by
      rw [hraw, List.length_append]
    rw [readKids, exec_bind_ok (exec_get pssh), hsum]
    by_cases hshort : rest.length < 16
    · have hgt : pre.length + 16 > pssh.rawData.length := by omega
      have hdiv : rest.length / 16 = 0 := Nat.div_eq_of_lt hshort
      rw [if_pos hgt, if_neg (by omega), hdiv]
      simp only [chunks, List.append_nil]
      rfl
    · have hle : ¬ pre.length + 16 > pssh.rawData.length := by omega
      have hslice := slice_take (m := EStateM Exn Pssh) pre rest (n := 16) (by omega)
      rw [← hraw] at hslice
      -- the key id read moves from `rest` to `pre`
      have hsplit : ({ pssh with keyIds := pssh.keyIds ++ [rest.take 16] } : Pssh).rawData
          = (pre ++ rest.take 16) ++ rest.drop 16 := by
        rw [hraw, List.append_assoc, List.take_append_drop]
      have hpre : (pre ++ rest.take 16).length = pre.length + 16 := by
        rw [List.length_append, List.length_take]
        omega
      have hdrop : (rest.drop 16).length = rest.length - 16 := List.length_drop
      have hdiv : rest.length / 16 = (rest.length - 16) / 16 + 1 := by omega
      rw [if_neg hle, hslice, pure_bind, exec_bind_ok (exec_modify ..), ← hpre,
        ih hsplit (by omega)]
      by_cases hfit : 16 * n + 16 ≤ rest.length
      · rw [if_pos (by omega), if_pos hfit]
        simp only [chunks, List.append_assoc, List.singleton_append, hpre]
        rw [Nat.add_assoc, Nat.add_comm 16 (16 * n)]
      · rw [if_neg (by omega), if_neg hfit, hdiv, hdrop]
        simp only [chunks, List.append_assoc, List.singleton_append]

/-- The key id section: the four bytes of the count, then the loop. -/
theorem exec_parseKeyIds {w n : Nat} {pre t : Bytes} (hw : pre.length + 4 < 2 ^ w)
    (hn : n < 2 ^ 32) {pssh : Pssh} (hraw : pssh.rawData = pre ++ (beBytes 4 n ++ t))
    (hversion : pssh.version = 1) :
    exec (parseKeyIds w pre.length) pssh
      = exec (readKids w n (pre ++ beBytes 4 n).length) pssh := by
  have hlen : pssh.rawData.length = pre.length + (4 + t.length) := by
    rw [hraw, List.length_append, List.length_append, beBytes_length]
  have hsum : sizeAdd w pre.length 4 = pre.length + 4 := sizeAdd_of_lt hw
  have hread := readBe32_append hn pre t
  rw [← hraw] at hread
  rw [parseKeyIds, exec_bind_ok (exec_get pssh), if_pos hversion, hsum, if_neg (by omega), hread,
    pure_bind, UInt32.toNat_ofNat_of_lt' hn, List.length_append, beBytes_length]

theorem exec_parseKeyIds_short {w : Nat} {pre rest : Bytes} (hw : pre.length + 4 < 2 ^ w)
    {pssh : Pssh} (hraw : pssh.rawData = pre ++ rest) (hversion : pssh.version = 1)
    (hshort : rest.length < 4) :
    exec (parseKeyIds w pre.length) pssh
      = (.error (.runtimeError "Truncated PSSH (KID count)"), pssh) := by
  have hlen : pssh.rawData.length = pre.length + rest.length := by
    rw [hraw, List.length_append]
  have hsum : sizeAdd w pre.length 4 = pre.length + 4 := sizeAdd_of_lt hw
  rw [parseKeyIds, exec_bind_ok (exec_get pssh), if_pos hversion, hsum, if_pos (by omega)]
  rfl

/-- Only version 1 has a key id section. -/
theorem exec_parseKeyIds_none {w offset : Nat} {pssh : Pssh} (hversion : pssh.version ≠ 1) :
    exec (parseKeyIds w offset) pssh = (.ok offset, pssh) := by
  rw [parseKeyIds, exec_bind_ok (exec_get pssh), if_neg hversion]
  rfl

/-- The data size and the init data. Where the offset and the data size do not
fit `size_t`, their sum wraps to less than the offset, passes the check, and
the range of the init data ends before it begins. -/
theorem exec_parseInitData {w n : Nat} {pre t : Bytes} (hw : pre.length + 4 < 2 ^ w)
    (hsize : 2 ^ 32 ≤ 2 ^ w) (hn : n < 2 ^ 32) {pssh : Pssh}
    (hraw : pssh.rawData = pre ++ (beBytes 4 n ++ t)) :
    exec (parseInitData w pre.length) pssh =
      if 2 ^ w ≤ pre.length + 4 + n then (.error .outOfBounds, pssh)
      else if t.length < n then (.error (.runtimeError "Truncated PSSH (init data)"), pssh)
      else (.ok (), { pssh with initData := t.take n }) := by
  have hlen : pssh.rawData.length = pre.length + 4 + t.length := by
    rw [hraw, List.length_append, List.length_append, beBytes_length, Nat.add_assoc]
  have hpre : pre.length + 4 = (pre ++ beBytes 4 n).length := by
    rw [List.length_append, beBytes_length]
  have hread := readBe32_append hn pre t
  rw [← hraw] at hread
  rw [parseInitData, exec_bind_ok (exec_get pssh), sizeAdd_of_lt hw, if_neg (by omega), hread]
  simp only [pure_bind, UInt32.toNat_ofNat_of_lt' hn]
  by_cases hwrap : 2 ^ w ≤ pre.length + 4 + n
  · have hsum : sizeAdd w (pre.length + 4) n = pre.length + 4 + n - 2 ^ w := by
      rw [sizeAdd, Nat.mod_eq_sub_mod hwrap, Nat.mod_eq_of_lt (by omega)]
    -- the wrapped sum is within the buffer, and before the offset
    have hrange : (slice pssh.rawData (pre.length + 4) (pre.length + 4 + n - 2 ^ w)
        : EStateM Exn Pssh Bytes) = throw .outOfBounds := by
      rw [slice, range, if_neg (by omega)]
    rw [if_pos hwrap, hsum, if_neg (by omega), hrange]
    rfl
  · have hsum : sizeAdd w (pre.length + 4) n = pre.length + 4 + n := sizeAdd_of_lt (by omega)
    rw [if_neg hwrap, hsum]
    by_cases hdata : t.length < n
    · rw [if_pos hdata, if_pos (by omega)]
      rfl
    · have hslice := slice_take (m := EStateM Exn Pssh) (pre ++ beBytes 4 n) t (n := n) (by omega)
      rw [List.append_assoc, ← hpre, ← hraw] at hslice
      rw [if_neg hdata, if_neg (by omega), hslice]
      rfl

theorem exec_parseInitData_short {w : Nat} {pre rest : Bytes} (hw : pre.length + 4 < 2 ^ w)
    {pssh : Pssh} (hraw : pssh.rawData = pre ++ rest) (hshort : rest.length < 4) :
    exec (parseInitData w pre.length) pssh
      = (.error (.runtimeError "Truncated PSSH (data size)"), pssh) := by
  have hlen : pssh.rawData.length = pre.length + rest.length := by
    rw [hraw, List.length_append]
  rw [parseInitData, exec_bind_ok (exec_get pssh), sizeAdd_of_lt hw, if_pos (by omega)]
  rfl

/-! ## The front of a box -/

theorem exec_parseKeyIds_encode {w : Nat} {pre rest : Bytes} {kids : List Bytes}
    (hkids : ∀ kid ∈ kids, kid.length = 16) (hcount : kids.length < 2 ^ 32)
    (hw : pre.length + 4 + 16 * kids.length < 2 ^ w) {pssh : Pssh}
    (hraw : pssh.rawData = pre ++ (beBytes 4 kids.length ++ (kids.flatten ++ rest)))
    (hversion : pssh.version = 1) :
    exec (parseKeyIds w pre.length) pssh =
      (.ok (pre ++ beBytes 4 kids.length ++ kids.flatten).length,
        { pssh with keyIds := pssh.keyIds ++ kids }) := by
  have hflat := flatten_length hkids
  have hpre : (pre ++ beBytes 4 kids.length).length = pre.length + 4 := by
    rw [List.length_append, beBytes_length]
  have hend : (pre ++ beBytes 4 kids.length).length + 16 * kids.length
      = (pre ++ beBytes 4 kids.length ++ kids.flatten).length := by
    simp only [List.length_append, hflat]
  rw [exec_parseKeyIds (by omega) hcount hraw hversion,
    exec_readKids (hraw.trans (List.append_assoc ..).symm) (by rw [hpre]; omega),
    if_pos (by rw [List.length_append, hflat]; omega), chunks_flatten hkids, hend]

/-- The bytes in front of the key id section. -/
def header (z m : Bytes) (v : UInt8) (f sys : Bytes) : Bytes := z ++ (m ++ (v :: (f ++ sys)))

theorem header_append (z m : Bytes) (v : UInt8) (f sys rest : Bytes) :
    header z m v f sys ++ rest = z ++ (m ++ (v :: (f ++ (sys ++ rest)))) := by
  simp only [header, List.append_assoc, List.cons_append]

theorem header_length {z m f sys : Bytes} (v : UInt8) (hz : z.length = 4) (hm : m.length = 4)
    (hf : f.length = 3) (hsys : sys.length = 16) : (header z m v f sys).length = 28 := by
  simp only [header, List.length_append, List.length_cons, hz, hm, hf, hsys]

theorem parse_eq (w : Nat) :
    parse w = (parseHeader w >>= parseKeyIds w) >>= parseInitData w :=
  (bind_assoc ..).symm

/-- What the parser has collected at the end of a box's front. -/
theorem exec_front {w : Nat} (h5 : 2 ^ 5 ≤ 2 ^ w) (box : PsshBox) (hw : box.front.length < 2 ^ w)
    {rest : Bytes} (hlong : 32 ≤ (box.front ++ rest).length) :
    exec (parseHeader w >>= parseKeyIds w) (unparsed (box.front ++ rest))
      = (.ok box.front.length, { box.fields (box.front ++ rest) with initData := [] }) := by
  have hz := box.size.toList_length
  have hm : (ascii "pssh").length = 4 := rfl
  have hf := box.flags.toList_length
  have hsys := box.systemId.toList_length
  have h28 := header_length box.version hz hm hf hsys
  generalize hpre : header box.size.toList (ascii "pssh") box.version box.flags.toList
    box.systemId.toList = pre at h28
  have hfront : box.front = pre ++ box.encodeKids := by
    rw [← hpre, header_append, PsshBox.front]
  have hraw : box.front ++ rest = pre ++ (box.encodeKids ++ rest) := by
    rw [hfront, List.append_assoc]
  have hrest : 4 ≤ (box.encodeKids ++ rest).length := by
    rw [hraw, List.length_append] at hlong
    omega
  have hheader : exec (parseHeader w) (unparsed (box.front ++ rest)) = _ :=
    exec_parseHeader (w := w) h5 hz hm hf hsys hrest (by rw [← header_append, hpre]; exact hraw)
  rw [if_pos rfl, ← h28] at hheader
  rw [exec_bind_ok hheader]
  by_cases hv : box.version = 1
  · have hkids : box.encodeKids = beBytes 4 box.kids.length ++ box.kids.flatten := by
      rw [PsshBox.encodeKids, if_pos hv]
    have hcount := box.kids_length_lt
    have hlen := box.front_length.1 hv
    rw [hkids, List.append_assoc] at hraw
    rw [exec_parseKeyIds_encode box.length_of_mem_kids hcount (by omega) hraw hv, hfront, hkids,
      List.append_assoc]
    rfl
  · have hkids : box.encodeKids = [] := by rw [PsshBox.encodeKids, if_neg hv]
    rw [exec_parseKeyIds_none hv, hfront, hkids, List.append_nil, PsshBox.fields, PsshBox.kids,
      box.keyIds_nil hv]
    rfl

theorem exec_parseInitData_cases {w : Nat} {pre rest : Bytes} (hw : pre.length + 4 < 2 ^ w)
    (hsize : 2 ^ 32 ≤ 2 ^ w) {pssh : Pssh} (hraw : pssh.rawData = pre ++ rest) :
    (∃ what, exec (parseInitData w pre.length) pssh = (.error (.runtimeError what), pssh)) ∨
      (∃ (n : Nat) (t : Bytes), n < 2 ^ 32 ∧ 2 ^ w ≤ pre.length + 4 + n ∧
        rest = beBytes 4 n ++ t) ∨
      ∃ d t : Bytes, d.length < 2 ^ 32 ∧ rest = beBytes 4 d.length ++ (d ++ t) := by
  rcases exists_beBytes 4 rest with hshort | ⟨n, t, hn, rfl⟩
  · exact .inl ⟨_, exec_parseInitData_short hw hraw hshort⟩
  have heq := exec_parseInitData hw hsize hn hraw
  by_cases hwrap : 2 ^ w ≤ pre.length + 4 + n
  · exact .inr (.inl ⟨n, t, hn, hwrap, rfl⟩)
  rw [if_neg hwrap] at heq
  by_cases hdata : t.length < n
  · exact .inl ⟨_, heq.trans (if_pos hdata)⟩
  · have hd : (t.take n).length = n := by
      rw [List.length_take]
      omega
    refine .inr (.inr ⟨t.take n, t.drop n, ?_, ?_⟩)
    · rw [hd]
      exact hn
    · rw [hd, List.take_append_drop]

theorem exec_parseKeyIds_cases {w : Nat} {pre rest : Bytes}
    (hw : pre.length + min (4 + 16 * 2 ^ 32) (rest.length + 17) ≤ 2 ^ w) {pssh : Pssh}
    (hraw : pssh.rawData = pre ++ rest) (hversion : pssh.version = 1) :
    (∃ what ids, exec (parseKeyIds w pre.length) pssh =
        (.error (.runtimeError what), { pssh with keyIds := pssh.keyIds ++ ids }) ∧
        16 * ids.length ≤ rest.length - 4) ∨
      ∃ (kids : List Bytes) (t : Bytes), (∀ kid ∈ kids, kid.length = 16) ∧
        kids.length < 2 ^ 32 ∧
        rest = beBytes 4 kids.length ++ (kids.flatten ++ t) := by
  rcases exists_beBytes 4 rest with hshort | ⟨n, t, hn, rfl⟩
  · refine .inl ⟨"Truncated PSSH (KID count)", [], ?_, Nat.zero_le _⟩
    rw [exec_parseKeyIds_short (by omega) hraw hversion hshort, List.append_nil]
  by_cases hfit : 16 * n ≤ t.length
  · refine .inr ⟨chunks 16 n t, t.drop (16 * n), fun kid hkid => length_of_mem_chunks hfit hkid,
      ?_, ?_⟩
    · rw [chunks_length]
      exact hn
    · rw [chunks_length, flatten_chunks, List.take_append_drop]
  · rw [List.length_append, beBytes_length] at hw ⊢
    -- the loop collects what is there, then throws
    have hpre : (pre ++ beBytes 4 n).length = pre.length + 4 := by
      rw [List.length_append, beBytes_length]
    refine .inl ⟨"Truncated PSSH (KID data)", chunks 16 (t.length / 16) t, ?_, ?_⟩
    · rw [exec_parseKeyIds (by omega) hn hraw hversion,
        exec_readKids (hraw.trans (List.append_assoc ..).symm) (by rw [hpre]; omega), if_neg hfit]
    · rw [chunks_length]
      omega

theorem exists_header {data : Bytes} (h : 32 ≤ data.length) :
    ∃ z m v f sys rest, data = header z m v f sys ++ rest ∧ z.length = 4 ∧ m.length = 4 ∧
      f.length = 3 ∧ sys.length = 16 ∧ 4 ≤ rest.length := by
  obtain ⟨z, d1, rfl, hz⟩ := exists_append_of_le_length (n := 4) (l := data) (by omega)
  rw [List.length_append] at h
  obtain ⟨m, d2, rfl, hm⟩ := exists_append_of_le_length (n := 4) (l := d1) (by omega)
  rw [List.length_append] at h
  obtain ⟨vs, d3, rfl, hv⟩ := exists_append_of_le_length (n := 1) (l := d2) (by omega)
  obtain ⟨v, rfl⟩ := List.length_eq_one_iff.mp hv
  rw [List.length_append, List.length_singleton] at h
  obtain ⟨f, d4, rfl, hf⟩ := exists_append_of_le_length (n := 3) (l := d3) (by omega)
  rw [List.length_append] at h
  obtain ⟨sys, rest, rfl, hsys⟩ := exists_append_of_le_length (n := 16) (l := d4) (by omega)
  rw [List.length_append] at h
  exact ⟨z, m, v, f, sys, rest, by rw [header_append, List.singleton_append], hz, hm, hf, hsys,
    by omega⟩

/-- The box with the given sections. -/
theorem exists_box {z f sys : Bytes} {v : UInt8} {kids : List Bytes} (hz : z.length = 4)
    (hf : f.length = 3) (hsys : sys.length = 16) (hkids : ∀ kid ∈ kids, kid.length = 16)
    (hcount : kids.length < 2 ^ 32) (hnil : v ≠ 1 → kids = []) :
    ∃ box : PsshBox, box.version = v ∧ box.kids = kids ∧
      box.front = header z (ascii "pssh") v f sys ++ box.encodeKids := by
  obtain ⟨keyIds, rfl⟩ := exists_vectors hkids
  rw [List.length_map] at hcount
  refine ⟨{ size := ⟨z, hz⟩, version := v, flags := ⟨f, hf⟩, systemId := ⟨sys, hsys⟩, keyIds,
            initData := [], keyIds_lt := hcount,
            keyIds_nil := fun hv => List.map_eq_nil_iff.mp (hnil hv),
            initData_lt := by decide }, rfl, rfl, ?_⟩
  rw [header_append, PsshBox.front]
  rfl

/-- An input starts with a box's front, or the parser throws a message before
it reaches the data size, having collected no more key ids than fit after the
count. -/
theorem exec_front_cases {w : Nat} {data : Bytes}
    (hw : min (2 ^ 37) (data.length + 17) ≤ 2 ^ w) :
    (∃ what, (exec (parseHeader w >>= parseKeyIds w) (unparsed data)).1
          = .error (.runtimeError what) ∧
        16 * (exec (parseHeader w >>= parseKeyIds w) (unparsed data)).2.keyIds.length
          ≤ data.length - 32) ∨
      ∃ (box : PsshBox) (rest : Bytes), data = box.front ++ rest ∧ 32 ≤ data.length := by
  by_cases hshort : data.length < 32
  · have hheader : exec (parseHeader w) (unparsed data)
        = (.error (.runtimeError "PSSH too small"), unparsed data) := by
      rw [parseHeader, exec_bind_ok (exec_get _)]
      show exec (if data.length < 32 then _ else _) _ = _
      rw [if_pos hshort]
      rfl
    rw [exec_bind_error hheader]
    exact .inl ⟨_, rfl, Nat.zero_le _⟩
  have hlong := Nat.not_lt.mp hshort
  obtain ⟨z, m, v, f, sys, rest, hdata, hz, hm, hf, hsys, hrest⟩ := exists_header hlong
  have h28 := header_length v hz hm hf hsys
  have hlen : data.length = 28 + rest.length := by
    rw [hdata, List.length_append, h28]
  have hheader : exec (parseHeader w) (unparsed data) = _ :=
    exec_parseHeader (w := w) (by omega) hz hm hf hsys hrest (hdata.trans (header_append ..))
  by_cases hmagic : m = ascii "pssh"
  · rw [if_pos hmagic, ← h28] at hheader
    rw [exec_bind_ok hheader]
    have hraw : ({ unparsed data with version := v, systemId := sys } : Pssh).rawData
        = header z m v f sys ++ rest := hdata
    -- what follows the header depends on the version it gave
    by_cases hv : v = 1
    · rcases exec_parseKeyIds_cases (w := w) (by omega) hraw hv
        with ⟨what, ids, hids, hbound⟩ | ⟨kids, t, hkids, hcount, rfl⟩
      · rw [hids]
        refine .inl ⟨what, rfl, ?_⟩
        show 16 * ([] ++ ids).length ≤ _
        rw [List.nil_append]
        omega
      · obtain ⟨box, hbv, hbk, hfront⟩ := exists_box (v := v) hz hf hsys hkids hcount
          fun h => absurd hv h
        refine .inr ⟨box, t, ?_, hlong⟩
        rw [hfront, PsshBox.encodeKids, if_pos (hbv.trans hv), hbk, hdata, hmagic]
        simp only [List.append_assoc]
    · obtain ⟨box, hbv, -, hfront⟩ := exists_box (v := v) hz hf hsys (List.forall_mem_nil _)
        (by decide) fun _ => rfl
      refine .inr ⟨box, rest, ?_, hlong⟩
      rw [hfront, PsshBox.encodeKids, if_neg (by rw [hbv]; exact hv), hdata, hmagic,
        List.append_nil]
  · rw [if_neg hmagic] at hheader
    rw [exec_bind_error hheader]
    exact .inl ⟨_, rfl, Nat.zero_le _⟩

end Pssh

end WidevineCdm
