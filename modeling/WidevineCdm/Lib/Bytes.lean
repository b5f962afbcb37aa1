import Mathlib

/-!
# Byte strings and fixed-width integers

Byte strings are lists of `UInt8`. An integer occupies `n` bytes, most
significant first (`beBytes`) or least significant first (`leBytes`); reading
`n` bytes back (`beNat`, `leNat`) recovers it whenever it fits, so both
encodings are injective below `256 ^ n`. `hexBytes` is the upper-case
hexadecimal form, two ASCII digits a byte, injective too.

`readAt` and `range` are the checked element access and the checked iterator
range of a byte vector: `none` is an access outside the vector.
-/

namespace WidevineCdm.Lib

abbrev Bytes := List UInt8

/-- The bytes of a string of ASCII characters. -/
def ascii (s : String) : Bytes := s.toList.map fun c => UInt8.ofNat c.toNat

/-! ## Splitting -/

/-- A byte string of at least `n` bytes has a prefix of exactly `n`. -/
theorem exists_append_of_le_length {α : Type} {n : Nat} {l : List α} (h : n ≤ l.length) :
    ∃ a b, l = a ++ b ∧ a.length = n :=
  ⟨l.take n, l.drop n, (List.take_append_drop n l).symm, by simpa using h⟩

/-! ## Checked access -/

/-- Element access, `none` past the end. -/
def readAt (data : Bytes) (i : Nat) : Option UInt8 := data[i]?

/-- The bytes from position `first` up to `last`, `none` unless
`first ≤ last` and `last` is not past the end. -/
def range (data : Bytes) (first last : Nat) : Option Bytes :=
  if first ≤ last ∧ last ≤ data.length then some ((data.drop first).take (last - first))
  else none

theorem readAt_append (pre rest : Bytes) (b : UInt8) :
    readAt (pre ++ b :: rest) pre.length = some b := by
  simp [readAt]

theorem range_append (pre x rest : Bytes) :
    range (pre ++ (x ++ rest)) pre.length (pre.length + x.length) = some x := by
  rw [range, if_pos (by simp)]
  simp

/-! ## Integers as bytes -/

/-- The `n` low bytes of `x`, least significant first. -/
def leBytes : Nat → Nat → Bytes
  | 0, _ => []
  | n + 1, x => UInt8.ofNat x :: leBytes n (x / 256)

/-- The `n` low bytes of `x`, most significant first. -/
def beBytes (n x : Nat) : Bytes := (leBytes n x).reverse

/-- The integer a byte string spells, least significant byte first. -/
def leNat : Bytes → Nat
  | [] => 0
  | b :: bs => b.toNat + 256 * leNat bs

/-- The integer a byte string spells, most significant byte first. -/
def beNat (b : Bytes) : Nat := leNat b.reverse

@[simp] theorem leBytes_length (n x : Nat) : (leBytes n x).length = n := by
  induction n generalizing x with
  | zero => rfl
  | succ n ih => simp [leBytes, ih]

@[simp] theorem beBytes_length (n x : Nat) : (beBytes n x).length = n := by
  simp [beBytes]

/-- The low digits, then the digits of the quotient. -/
theorem leBytes_add (m n x : Nat) : leBytes (m + n) x = leBytes m x ++ leBytes n (x / 256 ^ m) := by
  induction m generalizing x with
  | zero => simp [leBytes]
  | succ m ih =>
    rw [Nat.succ_add, leBytes, ih, leBytes, Nat.div_div_eq_div_mul, ← pow_succ']
    rfl

/-- Reading an encoded integer back, modulo what fits. -/
theorem leNat_leBytes (n x : Nat) : leNat (leBytes n x) = x % 256 ^ n := by
  induction n generalizing x with
  | zero => simp [leBytes, leNat, Nat.mod_one]
  | succ n ih =>
    have h : x % 256 ^ (n + 1) = x % 256 + 256 * (x / 256 % 256 ^ n) := by
      rw [pow_succ', Nat.mod_mul]
    rw [leBytes, leNat, ih, UInt8.toNat_ofNat', h]

theorem beNat_beBytes (n x : Nat) : beNat (beBytes n x) = x % 256 ^ n := by
  rw [beNat, beBytes, List.reverse_reverse, leNat_leBytes]

theorem leNat_lt (b : Bytes) : leNat b < 256 ^ b.length := by
  induction b with
  | nil => simp [leNat]
  | cons x xs ih =>
    have hx := x.toNat_lt
    rw [leNat, List.length_cons, pow_succ]
    omega

theorem beNat_lt (b : Bytes) : beNat b < 256 ^ b.length := by
  have h := leNat_lt b.reverse
  rwa [List.length_reverse] at h

/-- Encoding what was read gives the bytes back. -/
theorem leBytes_leNat (b : Bytes) : leBytes b.length (leNat b) = b := by
  induction b with
  | nil => rfl
  | cons x xs ih =>
    have hx := x.toNat_lt
    have hlow : UInt8.ofNat (x.toNat + 256 * leNat xs) = x := by
      apply UInt8.toNat_inj.mp
      rw [UInt8.toNat_ofNat']
      omega
    have hhigh : (x.toNat + 256 * leNat xs) / 256 = leNat xs := by omega
    rw [List.length_cons, leNat, leBytes, hlow, hhigh, ih]

theorem beBytes_beNat (b : Bytes) : beBytes b.length (beNat b) = b := by
  have h := leBytes_leNat b.reverse
  rw [List.length_reverse] at h
  rw [beBytes, beNat, h, List.reverse_reverse]

/-- Enough bytes start with an integer, whatever they are. -/
theorem exists_beBytes (n : Nat) (b : Bytes) :
    b.length < n ∨ ∃ x t, x < 256 ^ n ∧ b = beBytes n x ++ t := by
  by_cases hshort : b.length < n
  · exact .inl hshort
  have htake : (b.take n).length = n := by
    rw [List.length_take]
    omega
  have hlt := beNat_lt (b.take n)
  have hbytes := beBytes_beNat (b.take n)
  rw [htake] at hlt hbytes
  refine .inr ⟨beNat (b.take n), b.drop n, hlt, ?_⟩
  rw [hbytes, List.take_append_drop]

/-- A field after its length is there, or the bytes end in the length or in
the field. -/
theorem exists_counted (n : Nat) (b : Bytes) :
    b.length < n ∨ (∃ x t, x < 256 ^ n ∧ b = beBytes n x ++ t ∧ t.length < x) ∨
      ∃ d t : Bytes, d.length < 256 ^ n ∧ b = beBytes n d.length ++ (d ++ t) := by
  rcases exists_beBytes n b with hshort | ⟨x, t, hx, rfl⟩
  · exact .inl hshort
  by_cases hfield : t.length < x
  · exact .inr (.inl ⟨x, t, hx, rfl, hfield⟩)
  have hlen : (t.take x).length = x := by
    rw [List.length_take]
    omega
  refine .inr (.inr ⟨t.take x, t.drop x, ?_, ?_⟩)
  · rw [hlen]
    exact hx
  · rw [hlen, List.take_append_drop]

/-- Little-endian encodings are injective on the integers that fit. -/
theorem leBytes_inj {n x y : Nat} (hx : x < 256 ^ n) (hy : y < 256 ^ n)
    (h : leBytes n x = leBytes n y) : x = y := by
  have h' := congrArg leNat h
  rwa [leNat_leBytes, leNat_leBytes, Nat.mod_eq_of_lt hx, Nat.mod_eq_of_lt hy] at h'

/-- Big-endian encodings are injective on the integers that fit. -/
theorem beBytes_inj {n x y : Nat} (hx : x < 256 ^ n) (hy : y < 256 ^ n)
    (h : beBytes n x = beBytes n y) : x = y :=
  leBytes_inj hx hy (List.reverse_injective h)

/-! ## Upper-case hexadecimal -/

/-- The ASCII digit of a number below 16: `0`–`9`, then `A`–`F`. -/
def hexDigit (n : Nat) : UInt8 := UInt8.ofNat (if n < 10 then 48 + n else 55 + n)

/-- Two upper-case hexadecimal digits for every byte. -/
def hexBytes (b : Bytes) : Bytes :=
  b.flatMap fun x => [hexDigit (x.toNat / 16), hexDigit (x.toNat % 16)]

theorem hexDigit_inj {m n : Nat} (hm : m < 16) (hn : n < 16) (h : hexDigit m = hexDigit n) :
    m = n := by
  have h' := congrArg UInt8.toNat h
  simp only [hexDigit, UInt8.toNat_ofNat'] at h'
  split at h' <;> split at h' <;> omega

@[simp] theorem hexBytes_length (b : Bytes) : (hexBytes b).length = 2 * b.length := by
  induction b with
  | nil => rfl
  | cons x xs ih =>
    rw [hexBytes, List.flatMap_cons, List.length_append, ← hexBytes, ih]
    simp only [List.length_cons, List.length_nil]
    omega

theorem hexBytes_inj {a b : Bytes} (h : hexBytes a = hexBytes b) : a = b := by
  induction a generalizing b with
  | nil =>
    have hl := congrArg List.length h
    simp only [hexBytes_length, List.length_nil] at hl
    exact (List.length_eq_zero_iff.mp (by omega)).symm
  | cons x xs ih =>
    cases b with
    | nil =>
      have hl := congrArg List.length h
      simp at hl
    | cons y ys =>
      simp only [hexBytes, List.flatMap_cons, List.cons_append, List.nil_append,
        List.cons.injEq] at h
      obtain ⟨h1, h2, h3⟩ := h
      have hx := x.toNat_lt
      have hy := y.toNat_lt
      have e1 := hexDigit_inj (by omega) (by omega) h1
      have e2 := hexDigit_inj (by omega) (by omega) h2
      have hxy : x = y := UInt8.toNat_inj.mp (by omega)
      rw [hxy, ih h3]

end WidevineCdm.Lib
