import WidevineCdm.Lib.Format

/-!
# Bit strings

Bit strings are lists of `Bool`, most significant bit first. `toBits n x` is
the `n`-bit form of `x` and `ofBits` the number a bit string spells;
`bytesToBits` spells out a byte string, and `cutBytes` cuts a bit string into
bytes, dropping the fewer than 8 bits left over. Cutting commutes with
extension on the right: what a longer bit string adds comes after the bytes
of the shorter one.
-/

namespace WidevineCdm.Lib

/-- The `n` low bits of `x`. -/
def toBits : Nat → Nat → List Bool
  | 0, _ => []
  | n + 1, x => x.testBit n :: toBits n x

/-- The number a bit string spells. -/
def ofBits : List Bool → Nat
  | [] => 0
  | b :: bs => b.toNat * 2 ^ bs.length + ofBits bs

@[simp] theorem toBits_length (n x : Nat) : (toBits n x).length = n := by
  induction n with
  | zero => rfl
  | succ n ih => rw [toBits, List.length_cons, ih]

theorem ofBits_append (a b : List Bool) : ofBits (a ++ b) = ofBits a * 2 ^ b.length + ofBits b := by
  induction a with
  | nil => simp [ofBits]
  | cons x xs ih =>
    rw [List.cons_append, ofBits, ofBits, ih, List.length_append, pow_add]
    ring

theorem ofBits_lt (l : List Bool) : ofBits l < 2 ^ l.length := by
  induction l with
  | nil => exact Nat.one_pos
  | cons b bs ih =>
    have hb := Bool.toNat_le b
    rw [ofBits, List.length_cons, pow_succ']
    nlinarith

/-- Spelling out keeps the low bits. -/
theorem ofBits_toBits (n x : Nat) : ofBits (toBits n x) = x % 2 ^ n := by
  induction n with
  | zero => rw [toBits, ofBits, pow_zero, Nat.mod_one]
  | succ n ih =>
    rw [toBits, ofBits, toBits_length, ih, Nat.toNat_testBit, pow_succ, Nat.mod_mul]
    ring

/-- Bits above the length do not matter. -/
theorem toBits_add_mul (n x k : Nat) : toBits n (x + 2 ^ n * k) = toBits n x := by
  induction n generalizing k with
  | zero => rfl
  | succ n ih =>
    -- what is added is a multiple of the next power too, so bit `n` stays
    have hk : 2 ^ (n + 1) * k = 2 ^ n * (2 * k) := by ring
    have hbit : (x + 2 ^ n * (2 * k)).testBit n = x.testBit n := by
      rw [Nat.testBit_eq_decide_div_mod_eq, Nat.testBit_eq_decide_div_mod_eq,
        Nat.add_mul_div_left _ _ (Nat.two_pow_pos n), Nat.add_mul_mod_self_left]
    rw [toBits, toBits, hk, hbit, ih]

/-- The bits of what a bit string spells are the bit string. -/
theorem toBits_ofBits (l : List Bool) : toBits l.length (ofBits l) = l := by
  induction l with
  | nil => rfl
  | cons b bs ih =>
    have hlt := ofBits_lt bs
    have hsum : b.toNat * 2 ^ bs.length + ofBits bs = ofBits bs + 2 ^ bs.length * b.toNat := by
      ring
    have hbit : (ofBits bs + 2 ^ bs.length * b.toNat).testBit bs.length = b := by
      rw [Nat.testBit_eq_decide_div_mod_eq, Nat.add_mul_div_left _ _ (Nat.two_pow_pos _),
        Nat.div_eq_of_lt hlt]
      cases b <;> rfl
    rw [List.length_cons, toBits, ofBits, hsum, hbit, toBits_add_mul, ih]

/-- A stretch of a bit string, in terms of the number the whole spells. -/
theorem ofBits_take_drop {l : List Bool} {i j : Nat} (h : i + j ≤ l.length) :
    ofBits ((l.drop i).take j) = ofBits l / 2 ^ (l.length - (i + j)) % 2 ^ j := by
  have hlen : ((l.drop i).take j).length = j := by
    rw [List.length_take, List.length_drop]
    omega
  have htail : ((l.drop i).drop j).length = l.length - (i + j) := by
    rw [List.length_drop, List.length_drop]
    omega
  have hlt := ofBits_lt ((l.drop i).take j)
  have htailLt := ofBits_lt ((l.drop i).drop j)
  rw [hlen] at hlt
  rw [htail] at htailLt
  have hsplit : l = (l.take i ++ (l.drop i).take j) ++ (l.drop i).drop j := by
    rw [List.append_assoc, List.take_append_drop, List.take_append_drop]
  -- the bits behind the stretch, then the stretch with what is in front of it
  have hvalue : ofBits l = ofBits ((l.drop i).drop j)
      + 2 ^ (l.length - (i + j)) * (ofBits (l.take i) * 2 ^ j + ofBits ((l.drop i).take j)) := by
    conv_lhs => rw [hsplit]
    rw [ofBits_append, ofBits_append, hlen, htail]
    ring
  rw [hvalue, Nat.add_mul_div_left _ _ (Nat.two_pow_pos _), Nat.div_eq_of_lt htailLt,
    Nat.zero_add, Nat.add_comm, Nat.add_mul_mod_self_right, Nat.mod_eq_of_lt hlt]

/-! ## Bytes -/

/-- The bits of a byte string. -/
def bytesToBits (b : Bytes) : List Bool := b.flatMap fun x => toBits 8 x.toNat

/-- The whole bytes at the front of a bit string. -/
def cutBytes (l : List Bool) : Bytes :=
  (chunks 8 (l.length / 8) l).map fun c => UInt8.ofNat (ofBits c)

@[simp] theorem cutBytes_length (l : List Bool) : (cutBytes l).length = l.length / 8 := by
  rw [cutBytes, List.length_map, chunks_length]

@[simp] theorem bytesToBits_length (b : Bytes) : (bytesToBits b).length = 8 * b.length := by
  induction b with
  | nil => rfl
  | cons x xs ih =>
    rw [bytesToBits, List.flatMap_cons, List.length_append, toBits_length, ← bytesToBits, ih,
      List.length_cons]
    ring

/-- What a longer bit string adds comes after the bytes of the shorter. -/
theorem cutBytes_append (a b : List Bool) : cutBytes a <+: cutBytes (a ++ b) := by
  have hfit : 8 * (a.length / 8) ≤ a.length := Nat.mul_div_le a.length 8
  have hle : a.length / 8 ≤ (a ++ b).length / 8 := by
    rw [List.length_append]
    omega
  rw [cutBytes, ← chunks_append hfit b]
  exact (chunks_isPrefixOf hle).map _

/-- Fewer bits than complete a byte add nothing. -/
theorem cutBytes_append_short {a b : List Bool} (h : a.length % 8 + b.length < 8) :
    cutBytes (a ++ b) = cutBytes a := by
  have hcount : (a ++ b).length / 8 = a.length / 8 := by
    rw [List.length_append]
    omega
  refine ((cutBytes_append a b).eq_of_length ?_).symm
  rw [cutBytes_length, cutBytes_length, hcount]

/-- Bits that complete one byte add that byte. -/
theorem cutBytes_append_byte {a b : List Bool} (h : 8 ≤ a.length % 8 + b.length)
    (hb : a.length % 8 + b.length < 16) :
    cutBytes (a ++ b) = cutBytes a
      ++ [UInt8.ofNat (ofBits (a ++ b) / 2 ^ (a.length % 8 + b.length - 8))] := by
  have hfit : 8 * (a.length / 8) ≤ a.length := Nat.mul_div_le a.length 8
  have hcount : (a ++ b).length / 8 = a.length / 8 + 1 := by
    rw [List.length_append]
    omega
  have hend : 8 * (a.length / 8) + 8 ≤ (a ++ b).length := by
    rw [List.length_append]
    omega
  have hleft : (a ++ b).length - (8 * (a.length / 8) + 8) = a.length % 8 + b.length - 8 := by
    rw [List.length_append]
    omega
  -- the new byte starts where the whole bytes of `a` end
  have hbyte : UInt8.ofNat (ofBits (((a ++ b).drop (8 * (a.length / 8))).take 8))
      = UInt8.ofNat (ofBits (a ++ b) / 2 ^ (a.length % 8 + b.length - 8)) := by
    apply UInt8.toNat_inj.mp
    rw [ofBits_take_drop hend, hleft, UInt8.toNat_ofNat', UInt8.toNat_ofNat', Nat.mod_mod]
  rw [cutBytes, hcount, chunks_succ, chunks_append hfit, List.map_append, List.map_singleton,
    hbyte, cutBytes]

/-- Cutting undoes spelling out, whatever bits are left over. -/
theorem cutBytes_bytesToBits (b : Bytes) {r : List Bool} (hr : r.length < 8) :
    cutBytes (bytesToBits b ++ r) = b := by
  have hpieces : ∀ c ∈ b.map fun x => toBits 8 x.toNat, c.length = 8 := by
    intro c hc
    obtain ⟨x, -, rfl⟩ := List.mem_map.mp hc
    exact toBits_length ..
  have hflat : bytesToBits b = (b.map fun x => toBits 8 x.toNat).flatten := List.flatMap_def ..
  have hcount : (bytesToBits b ++ r).length / 8 = (b.map fun x => toBits 8 x.toNat).length := by
    rw [List.length_append, bytesToBits_length, List.length_map]
    omega
  have hbyte : ∀ x : UInt8, UInt8.ofNat (ofBits (toBits 8 x.toNat)) = x := by
    intro x
    rw [ofBits_toBits, Nat.mod_eq_of_lt x.toNat_lt, UInt8.ofNat_toNat]
  rw [cutBytes, hcount, hflat, chunks_flatten hpieces, List.map_map]
  conv_rhs => rw [← List.map_id b]
  exact List.map_congr_left fun x _ => hbyte x

end WidevineCdm.Lib
