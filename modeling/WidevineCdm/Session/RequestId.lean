import WidevineCdm.Session.Isolation

/-!
# The counter of ANDROID request ids

`generate_request_id` writes the 32-bit session number into an eight-byte
field by shifting it by 0, 8, …, 56 bits. The last four shifts are not below
the width of their operand, so the second half of the field is whatever the
platform yields for them. A machine that takes the distance modulo 32 repeats
the session number there, and the field is the 64-bit counter only for 0.
-/

namespace WidevineCdm

open Lib

variable {P : Platform}

/-! ## The loop -/

/-- The byte pushed for one shift. -/
def counterByte (sessionNum : UInt32) (amount : Nat) : CryptoM P UInt8 := do
  let byte ← shiftRight sessionNum amount
  return (byte &&& 0xFF).toUInt8

/-- An ANDROID id is made of the random bytes, four zeros and one shift of
`session_num` by each of these amounts, one after the other. -/
def ShiftsBy (P : Platform) (sessionNum : UInt32) (amounts : List Nat) : Prop :=
  (generateRequestId .ANDROID sessionNum : CryptoM P Bytes) = do
    let random ← Crypto.randomBytes 4
    let field ← amounts.mapM (counterByte sessionNum)
    return hexBytes (random.toList ++ List.replicate 4 0x00 ++ field)

/-- The amounts the loop shifts by. -/
def counterShifts : List Nat := (List.range' 0 8).map (· * 8)

/-- The loop pushes one byte for each shift. -/
theorem pushCounter_eq (sessionNum : UInt32) (n i : Nat) (requestId : Bytes) :
    (pushCounter sessionNum n i requestId : CryptoM P Bytes)
      = (requestId ++ ·) <$> ((List.range' i n).map (· * 8)).mapM (counterByte sessionNum) := by
  induction n generalizing i requestId with
  | zero => simp [pushCounter]
  | succ n ih =>
    simp only [pushCounter, ih, List.range'_succ, List.map_cons, List.mapM_cons, counterByte,
      bind_assoc, pure_bind, map_eq_pure_bind, List.append_assoc, List.singleton_append]

theorem shiftsBy_counterShifts (sessionNum : UInt32) : ShiftsBy P sessionNum counterShifts := by
  rw [ShiftsBy, generateRequestId, if_pos rfl, counterShifts]
  simp only [pushCounter_eq, map_eq_pure_bind, bind_assoc, pure_bind]

/-- The bytes pushed for the shifts that are not below the width. -/
def wideBytes (sessionNum : UInt32) : CryptoM P Bytes :=
  [32, 40, 48, 56].mapM (counterByte sessionNum)

/-- The first half of the field is the session number. -/
theorem exec_generateRequestId {sessionNum : UInt32} {random : List.Vector UInt8 4}
    {host host' : Host P} (h : exec (Crypto.randomBytes 4) host = (.ok random, host')) :
    exec (generateRequestId .ANDROID sessionNum) host =
      exec ((fun tail => hexBytes (random.toList ++ List.replicate 4 0x00
        ++ leBytes 4 sessionNum.toNat ++ tail)) <$> wideBytes sessionNum) host' := by
  have hfour : leBytes 4 sessionNum.toNat = [UInt8.ofNat (sessionNum.toNat / 256 ^ 0),
      UInt8.ofNat (sessionNum.toNat / 256 ^ 1), UInt8.ofNat (sessionNum.toNat / 256 ^ 2),
      UInt8.ofNat (sessionNum.toNat / 256 ^ 3)] := by
    simp only [leBytes, Nat.div_div_eq_div_mul, Nat.reducePow, Nat.reduceMul, Nat.div_one]
  -- the first four shifts are below the width and push the number
  have hloop : ∀ requestId : Bytes, exec (pushCounter sessionNum 8 0 requestId) host'
      = exec (pushCounter sessionNum 4 4 (requestId ++ leBytes 4 sessionNum.toNat)) host' := by
    intro requestId
    rw [exec_pushCounter_low sessionNum (by decide), exec_pushCounter_low sessionNum (by decide),
      exec_pushCounter_low sessionNum (by decide), exec_pushCounter_low sessionNum (by decide),
      hfour]
    simp only [List.append_assoc, List.cons_append, List.nil_append, Nat.reduceAdd]
  rw [generateRequestId, if_pos rfl, exec_bind_ok h, exec_bind, hloop, pushCounter_eq,
    exec_map, exec_map]
  rcases exec ([32, 40, 48, 56].mapM (counterByte sessionNum)) host' with ⟨e | tail, host''⟩ <;> rfl

/-- The field is the 64-bit counter exactly when the shifts past the width
yield zero bytes. -/
theorem encodes_iff {sessionNum : UInt32} {random : List.Vector UInt8 4} {host host' : Host P}
    (h : exec (Crypto.randomBytes 4) host = (.ok random, host')) :
    (exec (generateRequestId .ANDROID sessionNum) host).1
        = .ok (hexBytes (random.toList ++ List.replicate 4 0x00 ++ leBytes 8 sessionNum.toNat)) ↔
      (exec (wideBytes sessionNum) host').1 = .ok [0, 0, 0, 0] := by
  have hzero : sessionNum.toNat / 256 ^ 4 = 0 := Nat.div_eq_of_lt sessionNum.toNat_lt
  have height : leBytes 8 sessionNum.toNat = leBytes 4 sessionNum.toNat ++ [0, 0, 0, 0] := by
    have hsplit := leBytes_add 4 4 sessionNum.toNat
    rwa [hzero] at hsplit
  rw [exec_generateRequestId h, exec_map, height, ← List.append_assoc]
  rcases exec (wideBytes sessionNum) host' with ⟨e | tail, host''⟩
  · constructor <;> intro heq <;> cases heq
  · constructor
    · intro heq
      have htail := hexBytes_inj (Except.ok.inj heq)
      exact congrArg Except.ok (List.append_cancel_left htail)
    · intro heq
      cases heq
      rfl

/-- A machine that takes shift distances modulo 32 repeats the number. -/
theorem returns_wideBytes
    (hmask : ∀ x s w, (P.wideShift x s w).1 = x >>> UInt32.ofNat (s % 32)) (sessionNum : UInt32) :
    Returns (leBytes 4 sessionNum.toNat) (wideBytes sessionNum : CryptoM P Bytes) := by
  have hbyte : ∀ amount ∈ [32, 40, 48, 56], Returns
      (UInt8.ofNat (sessionNum.toNat / 256 ^ (amount / 8 - 4)))
      (counterByte sessionNum amount : CryptoM P UInt8) := by
    intro amount hamount
    have hwide : ¬ amount < 32 := by
      revert amount
      decide
    have hdist : (UInt32.ofNat (amount % 32)).toNat = 8 * (amount / 8 - 4) ∧
        amount / 8 - 4 < 4 := by
      revert amount
      decide
    intro host
    refine ⟨{ host with world := (P.wideShift sessionNum amount host.world).2 }, ?_⟩
    rw [counterByte, shiftRight, if_neg hwide, ← shifted_byte sessionNum _ _ hdist.1 hdist.2,
      ← hmask sessionNum amount host.world]
    rfl
  have hall := returns_mapM hbyte
  have hbytes : [32, 40, 48, 56].map (fun amount =>
      UInt8.ofNat (sessionNum.toNat / 256 ^ (amount / 8 - 4))) = leBytes 4 sessionNum.toNat := by
    simp only [leBytes, Nat.div_div_eq_div_mul, Nat.reducePow, Nat.reduceMul, List.map_cons,
      List.map_nil, Nat.reduceDiv, Nat.reduceSub, Nat.div_one]
  rwa [hbytes] at hall

/-- **ANDROID request ids**: for no session number, in no state of any
platform, is every shift the id is made by within the width and the id the
hexadecimal form of the random bytes, four zeros and the 64-bit counter. The
id has that form exactly when the platform yields zero bytes for the wide
shifts, which one that takes distances modulo 32 does only for the number 0. -/
theorem requestId_encoding (sessionNum : UInt32) (host : Host P) :
    ShiftsBy P sessionNum counterShifts ∧
    ¬ ((∀ amount ∈ counterShifts, amount < 32) ∧
      ∀ random host', exec (Crypto.randomBytes 4) host = (.ok random, host') →
        (exec (generateRequestId .ANDROID sessionNum) host).1 = .ok (hexBytes
          (random.toList ++ List.replicate 4 0x00 ++ leBytes 8 sessionNum.toNat))) ∧
    ∀ random host', exec (Crypto.randomBytes 4) host = (.ok random, host') →
      ((exec (generateRequestId .ANDROID sessionNum) host).1 = .ok (hexBytes
          (random.toList ++ List.replicate 4 0x00 ++ leBytes 8 sessionNum.toNat)) ↔
        (exec (wideBytes sessionNum) host').1 = .ok [0, 0, 0, 0]) ∧
      ((∀ x s w, (P.wideShift x s w).1 = x >>> UInt32.ofNat (s % 32)) →
        ((exec (wideBytes sessionNum) host').1 = .ok [0, 0, 0, 0] ↔ sessionNum = 0)) := by
  refine ⟨shiftsBy_counterShifts sessionNum, ?_, ?_⟩
  · -- the fifth byte is shifted by the whole width
    rintro ⟨hshifts, -⟩
    exact absurd (hshifts 32 (by decide)) (by decide)
  · intro random host' hrandom
    refine ⟨encodes_iff hrandom, ?_⟩
    intro hmask
    obtain ⟨host'', hwide⟩ := returns_wideBytes hmask sessionNum host'
    rw [hwide]
    -- the second half repeats the first, so it is zero only with it
    constructor
    · intro heq
      have hbytes : leBytes 4 sessionNum.toNat = leBytes 4 0 := Except.ok.inj heq
      have hzero := leBytes_inj sessionNum.toNat_lt (by decide) hbytes
      exact UInt32.toNat_inj.mp hzero
    · rintro rfl
      rfl

/-- Session 1 on a machine that takes distances modulo 32, all random bytes
being zero: the loop shifts by 32 and more, and the counter field is
`0100000001000000`. -/
theorem requestId_encoding_one :
    (ShiftsBy (Reference.platform Reference.nominal) 1 counterShifts ∧
      ¬ ∀ amount ∈ counterShifts, amount < 32) ∧
    ¬ ∀ (sessionNum : UInt32) (host : Host (Reference.platform Reference.nominal)) random host',
      exec (Crypto.randomBytes 4) host = (.ok random, host') →
        (exec (generateRequestId .ANDROID sessionNum) host).1 = .ok (hexBytes
          (random.toList ++ List.replicate 4 0x00 ++ leBytes 8 sessionNum.toNat)) := by
  constructor
  · exact ⟨shiftsBy_counterShifts 1, by decide⟩
  · intro h
    have hone := h 1 ⟨(0 : Nat), []⟩ (List.Vector.replicate 4 0) _ rfl
    revert hone
    decide +kernel

end WidevineCdm
