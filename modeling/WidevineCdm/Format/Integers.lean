import WidevineCdm.Model.Cdm

/-!
# Shifted bytes are big-endian integers

The code assembles integers from bytes with shifts and ors and takes them
apart with shifts and masks. These lemmas name the results in terms of
`beBytes` and `beNat`; nothing later looks at a shift.
-/

namespace WidevineCdm

open Lib

/-- Or-ing a byte below a multiple of a power of two adds it. -/
theorem or_eq_add {a b k : Nat} (hb : b < 2 ^ k) : (a * 2 ^ k) ||| b = a * 2 ^ k + b := by
  rw [Nat.mul_comm, Nat.two_pow_add_eq_or_of_lt hb]

theorem be32_toNat (b0 b1 b2 b3 : UInt8) :
    ((b0.toUInt32 <<< 24) ||| (b1.toUInt32 <<< 16) ||| (b2.toUInt32 <<< 8)
      ||| b3.toUInt32).toNat = beNat [b0, b1, b2, b3] := by
  have h0 := b0.toNat_lt
  have h1 := b1.toNat_lt
  have h2 := b2.toNat_lt
  have h3 := b3.toNat_lt
  have e01 : b0.toNat * 2 ^ 24 ||| b1.toNat * 2 ^ 16 = (b0.toNat * 2 ^ 8 + b1.toNat) * 2 ^ 16 := by
    rw [or_eq_add (by omega)]
    ring
  have e012 : (b0.toNat * 2 ^ 8 + b1.toNat) * 2 ^ 16 ||| b2.toNat * 2 ^ 8
      = ((b0.toNat * 2 ^ 8 + b1.toNat) * 2 ^ 8 + b2.toNat) * 2 ^ 8 := by
    rw [or_eq_add (by omega)]
    ring
  have hbe : beNat [b0, b1, b2, b3]
      = ((b0.toNat * 2 ^ 8 + b1.toNat) * 2 ^ 8 + b2.toNat) * 2 ^ 8 + b3.toNat := by
    simp only [beNat, leNat, List.reverse_cons, List.reverse_nil, List.nil_append,
      List.cons_append]
    ring
  simp only [UInt32.toNat_or, UInt32.toNat_shiftLeft, UInt8.toNat_toUInt32, Nat.shiftLeft_eq,
    UInt32.toNat_ofNat, Nat.reduceMod, Nat.reducePow] at *
  rw [Nat.mod_eq_of_lt (by omega), Nat.mod_eq_of_lt (by omega), Nat.mod_eq_of_lt (by omega),
    e01, e012, hbe]
  exact or_eq_add (k := 8) h3

theorem be16_toNat (b0 b1 : UInt8) :
    ((b0.toUInt16 <<< 8) ||| b1.toUInt16).toNat = beNat [b0, b1] := by
  have h0 := b0.toNat_lt
  have h1 := b1.toNat_lt
  have hbe : beNat [b0, b1] = b0.toNat * 2 ^ 8 + b1.toNat := by
    simp only [beNat, leNat, List.reverse_cons, List.reverse_nil, List.nil_append,
      List.cons_append]
    ring
  simp only [UInt16.toNat_or, UInt16.toNat_shiftLeft, UInt8.toNat_toUInt16, Nat.shiftLeft_eq,
    UInt16.reduceToNat, Nat.reduceMod, Nat.reducePow] at *
  rw [Nat.mod_eq_of_lt (by omega), hbe]
  exact or_eq_add (k := 8) h1

/-- Masking an integer shifted by `k` bytes selects its digit `k` in base 256. -/
theorem shifted_byte (x s : UInt32) (k : Nat) (hs : s.toNat = 8 * k) (hk : k < 4) :
    ((x >>> s) &&& 0xFF).toUInt8 = UInt8.ofNat (x.toNat / 256 ^ k) := by
  apply UInt8.toNat_inj.mp
  have hpow : 2 ^ (8 * k) = 256 ^ k := by
    rw [pow_mul]
    norm_num
  have hshift : 8 * k % 32 = 8 * k := Nat.mod_eq_of_lt (by omega)
  have hmask := Nat.and_two_pow_sub_one_eq_mod (x.toNat / 256 ^ k) 8
  rw [UInt32.toNat_toUInt8, UInt32.toNat_and, UInt32.toNat_shiftRight, UInt8.toNat_ofNat',
    hs, hshift, Nat.shiftRight_eq_div_pow, hpow]
  simp only [UInt32.reduceToNat, Nat.reducePow, Nat.reduceSub] at hmask ⊢
  rw [hmask, Nat.mod_mod]

/-- The four pushes write the integer big-endian. -/
theorem pushBe32_eq (x : UInt32) : pushBe32 x = beBytes 4 x.toNat := by
  have h0 := shifted_byte x 0 0 rfl (by decide)
  rw [UInt32.shiftRight_zero] at h0
  rw [pushBe32, shifted_byte x 24 3 rfl (by decide), shifted_byte x 16 2 rfl (by decide),
    shifted_byte x 8 1 rfl (by decide), h0]
  simp only [beBytes, leBytes, List.reverse_cons, List.reverse_nil, List.nil_append,
    List.cons_append, Nat.div_div_eq_div_mul, Nat.reducePow, Nat.reduceMul, Nat.div_one]

@[simp] theorem pushBe32_length (x : UInt32) : (pushBe32 x).length = 4 := rfl

theorem pushBe32_inj {x y : UInt32} (h : pushBe32 x = pushBe32 y) : x = y := by
  rw [pushBe32_eq, pushBe32_eq] at h
  exact UInt32.toNat_inj.mp (beBytes_inj x.toNat_lt y.toNat_lt h)

end WidevineCdm
