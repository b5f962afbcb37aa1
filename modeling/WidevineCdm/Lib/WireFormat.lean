import WidevineCdm.Lib.Bytes

/-!
# The protobuf wire format

A message is a sequence of fields, each a varint tag followed by a varint or
by a length and that many bytes. `parseFields` inverts `encodeFields`
(`parseFields_encodeFields`), for every field number and every length: the
recursions are on fuel that the encoded value, or the input, bounds.

`allBytes` and `allVarints` read the values of one field number in order of
appearance; a singular field takes the last one.
-/

namespace WidevineCdm.Lib.Wire

open Lib

/-! ## Varints -/

/-- Seven bits a byte, least significant first, the top bit set on all but the
last. -/
def encodeVarintAux : Nat → Nat → Bytes
  | 0, _ => []
  | fuel + 1, x =>
    if x < 128 then [UInt8.ofNat x]
    else UInt8.ofNat (x % 128 + 128) :: encodeVarintAux fuel (x / 128)

/-- The varint of `x`. -/
def encodeVarint (x : Nat) : Bytes := encodeVarintAux (x + 1) x

/-- The varint at the front of the input, and what follows it. -/
def decodeVarint : Bytes → Option (Nat × Bytes)
  | [] => none
  | b :: rest =>
    if b.toNat < 128 then some (b.toNat, rest)
    else (decodeVarint rest).map fun (x, rest') => (b.toNat - 128 + 128 * x, rest')

theorem decodeVarint_encodeVarintAux {fuel x : Nat} (h : x < fuel) (rest : Bytes) :
    decodeVarint (encodeVarintAux fuel x ++ rest) = some (x, rest) := by
  induction fuel generalizing x with
  | zero => omega
  | succ fuel ih =>
    rw [encodeVarintAux]
    by_cases hx : x < 128
    · have hb : (UInt8.ofNat x).toNat = x := by
        rw [UInt8.toNat_ofNat']
        omega
      rw [if_pos hx, List.singleton_append, decodeVarint, hb, if_pos hx]
    · have hb : (UInt8.ofNat (x % 128 + 128)).toNat = x % 128 + 128 := by
        rw [UInt8.toNat_ofNat']
        omega
      rw [if_neg hx, List.cons_append, decodeVarint, hb, if_neg (by omega), ih (by omega)]
      simp only [Option.map_some, Option.some.injEq, Prod.mk.injEq, and_true]
      omega

theorem decodeVarint_encodeVarint (x : Nat) (rest : Bytes) :
    decodeVarint (encodeVarint x ++ rest) = some (x, rest) :=
  decodeVarint_encodeVarintAux (Nat.lt_succ_self x) rest

theorem encodeVarint_ne_nil (x : Nat) : encodeVarint x ≠ [] := by
  rw [encodeVarint, encodeVarintAux]
  split <;> exact List.cons_ne_nil _ _

/-! ## Fields -/

/-- The value of a field: a varint (wire type 0) or bytes (wire type 2). -/
inductive Value where
  | varint (n : Nat)
  | bytes (b : Bytes)
deriving DecidableEq, Repr

/-- A field number and a value. -/
abbrev Field := Nat × Value

/-- The bytes of one field. -/
def encodeField : Field → Bytes
  | (number, .varint n) => encodeVarint (8 * number) ++ encodeVarint n
  | (number, .bytes b) =>
    encodeVarint (8 * number + 2) ++ (encodeVarint b.length ++ b)

/-- The bytes of a message. -/
def encodeFields (fields : List Field) : Bytes := fields.flatMap encodeField

/-- The field at the front of the input, and what follows it. -/
def parseField (data : Bytes) : Option (Field × Bytes) := do
  let (tag, rest) ← decodeVarint data
  if tag % 8 = 0 then
    let (n, rest) ← decodeVarint rest
    return ((tag / 8, .varint n), rest)
  else if tag % 8 = 2 then
    let (len, rest) ← decodeVarint rest
    if rest.length < len then none
    else return ((tag / 8, .bytes (rest.take len)), rest.drop len)
  else none

/-- The fields of a message, with fuel for one field a byte. -/
def parseFieldsAux : Nat → Bytes → Option (List Field)
  | _, [] => some []
  | 0, _ :: _ => none
  | fuel + 1, data@(_ :: _) => do
    let (field, rest) ← parseField data
    let fields ← parseFieldsAux fuel rest
    return field :: fields

/-- The fields of a message. -/
def parseFields (data : Bytes) : Option (List Field) := parseFieldsAux data.length data

theorem parseField_encodeField (field : Field) (rest : Bytes) :
    parseField (encodeField field ++ rest) = some (field, rest) := by
  obtain ⟨number, n | b⟩ := field
  · have h0 : 8 * number % 8 = 0 := by omega
    have hdiv : 8 * number / 8 = number := by omega
    rw [encodeField, List.append_assoc, parseField, decodeVarint_encodeVarint]
    show (if 8 * number % 8 = 0 then _ else _) = _
    rw [if_pos h0, decodeVarint_encodeVarint]
    show some ((8 * number / 8, Value.varint n), rest) = _
    rw [hdiv]
  · have h0 : ¬ (8 * number + 2) % 8 = 0 := by omega
    have h2 : (8 * number + 2) % 8 = 2 := by omega
    have hdiv : (8 * number + 2) / 8 = number := by omega
    have hlen : ¬ (b ++ rest).length < b.length := by
      rw [List.length_append]
      omega
    rw [encodeField, List.append_assoc, List.append_assoc, parseField, decodeVarint_encodeVarint]
    show (if (8 * number + 2) % 8 = 0 then _ else _) = _
    rw [if_neg h0, if_pos h2, decodeVarint_encodeVarint]
    show (if (b ++ rest).length < b.length then _ else _) = _
    rw [if_neg hlen, List.take_left' rfl, List.drop_left' rfl, hdiv]
    rfl

theorem encodeField_ne_nil (field : Field) : encodeField field ≠ [] := by
  obtain ⟨number, n | b⟩ := field <;>
    exact List.append_ne_nil_of_left_ne_nil (encodeVarint_ne_nil _) _

theorem parseFieldsAux_encodeFields (fields : List Field) {fuel : Nat}
    (h : (encodeFields fields).length ≤ fuel) :
    parseFieldsAux fuel (encodeFields fields) = some fields := by
  induction fields generalizing fuel with
  | nil => cases fuel <;> rfl
  | cons field fields ih =>
    have hcons : encodeFields (field :: fields) = encodeField field ++ encodeFields fields :=
      List.flatMap_cons
    have hpos := List.length_pos_iff.mpr (encodeField_ne_nil field)
    rw [hcons, List.length_append] at h
    obtain ⟨fuel, rfl⟩ : ∃ k, fuel = k + 1 := ⟨fuel - 1, by omega⟩
    obtain ⟨b, bs, hb⟩ := List.exists_cons_of_ne_nil (encodeField_ne_nil field)
    have hparse := parseField_encodeField field (encodeFields fields)
    rw [hcons]
    rw [hb, List.cons_append] at hparse ⊢
    rw [parseFieldsAux, hparse]
    show ((parseFieldsAux fuel (encodeFields fields)).bind fun fields => some (field :: fields))
      = _
    rw [ih (by omega)]
    rfl

/-- **Round trip**: parsing the encoding of a message gives its fields back. -/
theorem parseFields_encodeFields (fields : List Field) :
    parseFields (encodeFields fields) = some fields :=
  parseFieldsAux_encodeFields fields (Nat.le_refl _)

/-! ## Reading one field number -/

/-- The byte strings of a field number, in order. -/
def allBytes (number : Nat) (fields : List Field) : List Bytes :=
  fields.filterMap fun
    | (k, .bytes b) => if k = number then some b else none
    | (_, .varint _) => none

/-- The varints of a field number, in order. -/
def allVarints (number : Nat) (fields : List Field) : List Nat :=
  fields.filterMap fun
    | (k, .varint n) => if k = number then some n else none
    | (_, .bytes _) => none

/-- An optional field of bytes. -/
def optBytes (number : Nat) (b : Option Bytes) : List Field :=
  b.toList.map fun b => (number, .bytes b)

/-- An optional varint field. -/
def optVarint (number : Nat) (n : Option Nat) : List Field :=
  n.toList.map fun n => (number, .varint n)

/-- A repeated field of bytes. -/
def repBytes (number : Nat) (bs : List Bytes) : List Field :=
  bs.map fun b => (number, .bytes b)

@[simp] theorem allBytes_append (number : Nat) (xs ys : List Field) :
    allBytes number (xs ++ ys) = allBytes number xs ++ allBytes number ys :=
  List.filterMap_append

@[simp] theorem allVarints_append (number : Nat) (xs ys : List Field) :
    allVarints number (xs ++ ys) = allVarints number xs ++ allVarints number ys :=
  List.filterMap_append

@[simp] theorem allBytes_repBytes (number k : Nat) (bs : List Bytes) :
    allBytes number (repBytes k bs) = if k = number then bs else [] := by
  induction bs with
  | nil => rw [ite_self]; rfl
  | cons b bs ih =>
    have hcons : allBytes number (repBytes k (b :: bs))
        = (if k = number then [b] else []) ++ allBytes number (repBytes k bs) := by
      by_cases hk : k = number <;> simp [allBytes, repBytes, hk]
    rw [hcons, ih]
    by_cases hk : k = number
    · rw [if_pos hk, if_pos hk, if_pos hk]
      rfl
    · rw [if_neg hk, if_neg hk, if_neg hk]
      rfl

@[simp] theorem allVarints_repBytes (number k : Nat) (bs : List Bytes) :
    allVarints number (repBytes k bs) = [] := by
  induction bs with
  | nil => rfl
  | cons b bs ih => exact ih

@[simp] theorem allBytes_optBytes (number k : Nat) (b : Option Bytes) :
    allBytes number (optBytes k b) = if k = number then b.toList else [] :=
  allBytes_repBytes number k b.toList

@[simp] theorem allVarints_optBytes (number k : Nat) (b : Option Bytes) :
    allVarints number (optBytes k b) = [] :=
  allVarints_repBytes number k b.toList

@[simp] theorem allBytes_optVarint (number k : Nat) (n : Option Nat) :
    allBytes number (optVarint k n) = [] := by
  cases n <;> rfl

@[simp] theorem allVarints_optVarint (number k : Nat) (n : Option Nat) :
    allVarints number (optVarint k n) = if k = number then n.toList else [] := by
  cases n with
  | none => rw [Option.toList_none, ite_self]; rfl
  | some n => by_cases hk : k = number <;> simp [allVarints, optVarint, hk]

end WidevineCdm.Lib.Wire
