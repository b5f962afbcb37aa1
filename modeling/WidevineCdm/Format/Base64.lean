import WidevineCdm.Lib.Base64
import WidevineCdm.Model.Base64

/-!
# The base64 decoder and its accumulator

After the characters whose six-bit values concatenate to `bits`, the loop of
`base64_decode` has put out the whole bytes of `bits`, its `val` is the number
`bits` spells wrapped to 32 bits, and its `valb` counts the bits left over
(`Accumulates`). The stale high bits never reach a byte, since at most 13 bits
of `val` are looked at. So the decoder computes `Base64.decode` on every input
(`base64Decode_eq`), although `val` stays within an `int` only as long as the
number spelled does.
-/

namespace WidevineCdm

open Lib

/-! ## 32-bit arithmetic -/

/-- Shifting in a digit of six bits. -/
theorem shiftLeft_add (n d : Nat) :
    (Int32.ofNat n <<< 6) + Int32.ofNat d = Int32.ofNat (n * 2 ^ 6 + d) := by
  have hshift : Int32.ofNat n <<< 6 = Int32.ofNat n * Int32.ofNat (2 ^ 6) := by
    apply Int32.toBitVec_inj.mp
    exact BitVec.shiftLeft_eq_mul_twoPow _ 6
  rw [hshift, Int32.ofNat_add, Int32.ofNat_mul]

/-- The byte at bit position `k`, for a position that leaves all its bits
below the sign bit: the arithmetic shift brings in no sign. -/
theorem shiftRight_byte (n : Nat) {k : Nat} (hk : k < 8) :
    ((Int32.ofNat n >>> Int32.ofNat k) &&& 0xFF).toUInt32.toUInt8 = UInt8.ofNat (n / 2 ^ k) := by
  apply UInt8.toBitVec_inj.mp
  -- `Int32` reduces a shift distance modulo 32, which leaves `k` alone
  have hcount : (BitVec.ofNat 32 k).smod 32#32 = BitVec.ofNat 32 k := by
    interval_cases k <;> rfl
  have hk' : (BitVec.ofNat 32 k).toNat = k := by
    rw [BitVec.toNat_ofNat]
    omega
  show (((BitVec.ofNat 32 n).sshiftRight' ((BitVec.ofNat 32 k).smod 32#32)) &&& 255#32).setWidth 8
    = BitVec.ofNat 8 (n / 2 ^ k)
  rw [hcount, BitVec.sshiftRight_eq', hk']
  ext i hi
  have h255 : (255#32).getLsbD i = true := by
    interval_cases i <;> rfl
  have h32 : ¬ 32 ≤ i := by omega
  -- `k + i` stays below 15, so no copy of the sign bit is looked at
  have hlow : k + i < 32 := by omega
  rw [BitVec.getElem_setWidth, BitVec.getLsbD_and, h255, Bool.and_true,
    BitVec.getLsbD_sshiftRight, if_pos hlow, ← BitVec.getLsbD_eq_getElem]
  simp only [BitVec.getLsbD_ofNat, Nat.testBit_div_two_pow, h32, hlow, hi, decide_true,
    decide_false, Bool.not_false, Bool.true_and, Nat.add_comm]

/-- The bit position after one more character, when it completes a byte. -/
theorem valb_of_le {k : Nat} (hk : k < 8) (h : 2 ≤ k) :
    Int32.ofNat k - 8 + 6 = Int32.ofNat (k - 2) ∧ Int32.ofNat k - 8 + 6 ≥ 0 := by
  interval_cases k <;> decide

/-- The bit position after one more character, when it completes no byte. -/
theorem valb_of_lt {k : Nat} (h : k < 2) :
    Int32.ofNat k - 8 + 6 = Int32.ofNat (k + 6) - 8 ∧ ¬ Int32.ofNat k - 8 + 6 ≥ 0 := by
  interval_cases k <;> decide

/-! ## The table -/

/-- Writing characters with their positions: a character that is written once
holds its position, and every other entry is left. -/
theorem getElem_foldl_zipIdx {chars : Bytes} (h : chars.Nodup) (T : Vector Int32 256) (k : Nat)
    {c : UInt8} (hc : c.toNat < 256) :
    ((chars.zipIdx k).foldl (fun T (x, i) => T.set x.toNat (Int32.ofNat i) x.toNat_lt) T)[c.toNat]
      = if c ∈ chars then Int32.ofNat (k + chars.idxOf c) else T[c.toNat] := by
  induction chars generalizing T k with
  | nil => rfl
  | cons x chars ih =>
    obtain ⟨hx, hchars⟩ := List.nodup_cons.mp h
    rw [List.zipIdx_cons, List.foldl_cons, ih hchars]
    by_cases hcx : c = x
    · subst hcx
      rw [if_neg hx, if_pos List.mem_cons_self, Vector.getElem_set_self, List.idxOf_cons_self,
        Nat.add_zero]
    · have hne : x.toNat ≠ c.toNat := fun heq => hcx (UInt8.toNat_inj.mp heq).symm
      rw [Vector.getElem_set_ne _ _ hne, List.idxOf_cons_ne _ (Ne.symm hcx), Nat.add_right_comm]
      simp only [List.mem_cons, hcx, false_or, Nat.add_assoc]

/-- `T` holds the value of each character of the alphabet and −1 elsewhere. -/
theorem base64Lookup_eq (c : UInt8) :
    base64Lookup c = if c ∈ Base64.alphabet then Int32.ofNat (Base64.value c) else -1 := by
  have htable := getElem_foldl_zipIdx Base64.alphabet_nodup (Vector.replicate 256 (-1)) 0 c.toNat_lt
  rw [Nat.zero_add, Vector.getElem_replicate] at htable
  exact htable

theorem base64Lookup_of_mem {c : UInt8} (hc : c ∈ Base64.alphabet) :
    base64Lookup c = Int32.ofNat (Base64.value c) := by
  rw [base64Lookup_eq, if_pos hc]

/-- The loop stops exactly at the characters outside the alphabet. -/
theorem base64Lookup_eq_neg_one {c : UInt8} : base64Lookup c = -1 ↔ c ∉ Base64.alphabet := by
  rw [base64Lookup_eq]
  constructor
  · intro h hc
    rw [if_pos hc] at h
    have hdigit : ∀ n < 64, Int32.ofNat n ≠ -1 := by decide
    exact hdigit _ (Base64.value_lt_iff.mpr hc) h
  · intro hc
    rw [if_neg hc]

/-! ## The loop -/

/-- The local variables after characters whose values concatenate to `bits`. -/
structure Accumulates (bits : List Bool) (locals : Base64Locals) : Prop where
  result : locals.result = cutBytes bits
  val : locals.val = Int32.ofNat (ofBits bits)
  valb : locals.valb = Int32.ofNat (bits.length % 8) - 8

theorem accumulates_initial : Accumulates [] .initial := ⟨rfl, rfl, rfl⟩

/-- One character adds its six bits. -/
theorem accumulates_body {bits : List Bool} {locals : Base64Locals} (h : Accumulates bits locals)
    {c : UInt8} (hc : c ∈ Base64.alphabet) :
    Accumulates (bits ++ toBits 6 (Base64.value c)) (base64Body locals c) := by
  have hbits : ofBits (bits ++ toBits 6 (Base64.value c))
      = ofBits bits * 2 ^ 6 + Base64.value c := by
    rw [ofBits_append, toBits_length, Base64.ofBits_value hc]
  have hval : (locals.val <<< 6) + base64Lookup c
      = Int32.ofNat (ofBits (bits ++ toBits 6 (Base64.value c))) := by
    rw [h.val, base64Lookup_of_mem hc, shiftLeft_add, hbits]
  have hlen : (toBits 6 (Base64.value c)).length = 6 := toBits_length ..
  have hmod : bits.length % 8 < 8 := Nat.mod_lt _ (by decide)
  by_cases hbyte : 2 ≤ bits.length % 8
  · -- eight bits are there: one byte is put out
    obtain ⟨hpos, hge⟩ := valb_of_le hmod hbyte
    have hrest : bits.length % 8 + (toBits 6 (Base64.value c)).length - 8
        = bits.length % 8 - 2 := by
      omega
    have hnext : (bits ++ toBits 6 (Base64.value c)).length % 8 = bits.length % 8 - 2 := by
      rw [List.length_append]
      omega
    rw [base64Body, h.valb, if_pos hge, hpos, hval, shiftRight_byte _ (by omega)]
    refine ⟨?_, rfl, ?_⟩
    · rw [h.result, cutBytes_append_byte (by omega) (by omega), hrest]
    · rw [hnext]
  · -- at most one bit was left over, and six more complete no byte
    obtain ⟨hpos, hlt⟩ := valb_of_lt (Nat.not_le.mp hbyte)
    have hnext : (bits ++ toBits 6 (Base64.value c)).length % 8 = bits.length % 8 + 6 := by
      rw [List.length_append]
      omega
    rw [base64Body, h.valb, if_neg hlt, hpos, hval]
    refine ⟨?_, rfl, ?_⟩
    · rw [h.result, cutBytes_append_short (by omega)]
    · rw [hnext]

/-- The loop adds the bits of the characters up to the first one outside the
alphabet. -/
theorem accumulates_loop {bits : List Bool} {locals : Base64Locals} (h : Accumulates bits locals)
    (input : Bytes) :
    Accumulates (bits ++ Base64.bits (Base64.text input)) (base64Loop locals input) := by
  induction input generalizing bits locals with
  | nil =>
    show Accumulates (bits ++ []) locals
    rwa [List.append_nil]
  | cons c input ih =>
    rw [base64Loop, Base64.text_cons]
    by_cases hc : c ∈ Base64.alphabet
    · rw [if_neg fun hstop => base64Lookup_eq_neg_one.mp hstop hc, if_pos hc]
      have hstep := ih (accumulates_body h hc)
      rwa [List.append_assoc] at hstep
    · rw [if_pos (base64Lookup_eq_neg_one.mpr hc), if_neg hc]
      show Accumulates (bits ++ []) locals
      rwa [List.append_nil]

/-- **The decoder computes the reference decoding** of every input. -/
theorem base64Decode_eq (input : Bytes) : base64Decode input = Base64.decode input :=
  (accumulates_loop accumulates_initial input).result

/-! ## The accumulator stays an `int` -/

/-- The iterations of the loop: the local variables each one starts from and
the character it reads. -/
def base64Iterations : Base64Locals → Bytes → List (Base64Locals × UInt8)
  | _, [] => []
  | locals, c :: input =>
    if base64Lookup c = -1 then []
    else (locals, c) :: base64Iterations (base64Body locals c) input

/-- The loop ends with the body of its last iteration. -/
theorem base64Loop_eq (locals : Base64Locals) (input : Bytes) :
    base64Loop locals input
      = (base64Iterations locals input).foldl (fun _ it => base64Body it.1 it.2) locals := by
  induction input generalizing locals with
  | nil => rfl
  | cons c input ih =>
    rw [base64Loop, base64Iterations]
    by_cases hstop : base64Lookup c = -1
    · rw [if_pos hstop, if_pos hstop, List.foldl_nil]
    · rw [if_neg hstop, if_neg hstop, List.foldl_cons, ih]

/-- The amounts the body shifts `val` by. -/
def Base64Locals.shiftAmounts (locals : Base64Locals) : List Int :=
  6 :: if locals.valb + 6 ≥ 0 then [(locals.valb + 6).toInt] else []

/-- `(val << 6) + T[c]` is an `int` and every shift is by less than its width. -/
def Base64Locals.BodyDefined (locals : Base64Locals) (c : UInt8) : Prop :=
  -2 ^ 31 ≤ locals.val.toInt * 2 ^ 6 + (base64Lookup c).toInt ∧
    locals.val.toInt * 2 ^ 6 + (base64Lookup c).toInt < 2 ^ 31 ∧
    ∀ amount ∈ locals.shiftAmounts, 0 ≤ amount ∧ amount < 32

instance (locals : Base64Locals) (c : UInt8) : Decidable (locals.BodyDefined c) :=
  inferInstanceAs (Decidable (_ ∧ _ ∧ _))

theorem shiftAmounts_lt {bits : List Bool} {locals : Base64Locals} (h : Accumulates bits locals) :
    ∀ amount ∈ locals.shiftAmounts, 0 ≤ amount ∧ amount < 32 := by
  have hmod : bits.length % 8 < 8 := Nat.mod_lt _ (by decide)
  have hcases : ∀ k < 8, ∀ amount ∈ (6 :: if Int32.ofNat k - 8 + 6 ≥ 0
      then [(Int32.ofNat k - 8 + 6).toInt] else [] : List Int), 0 ≤ amount ∧ amount < 32 := by
    decide
  rw [Base64Locals.shiftAmounts, h.valb]
  exact hcases _ hmod

/-- The value of a character, as the table gives it. -/
theorem base64Lookup_toInt {c : UInt8} (hc : c ∈ Base64.alphabet) :
    (base64Lookup c).toInt = Base64.value c := by
  have hvalue := Base64.value_lt_iff.mpr hc
  rw [base64Lookup_of_mem hc, Int32.toInt_ofNat_of_lt (by omega)]

/-- While the number spelled fits, the body is defined exactly when it still
fits with one more character. -/
theorem bodyDefined_iff {s : Bytes} {locals : Base64Locals}
    (h : Accumulates (Base64.bits s) locals) (hfit : ofBits (Base64.bits s) < 2 ^ 31) {c : UInt8}
    (hc : c ∈ Base64.alphabet) :
    locals.BodyDefined c ↔ ofBits (Base64.bits (s ++ [c])) < 2 ^ 31 := by
  have hval : locals.val.toInt = ofBits (Base64.bits s) := by
    rw [h.val, Int32.toInt_ofNat_of_lt hfit]
  rw [Base64.ofBits_bits_append hc, Base64Locals.BodyDefined, hval, base64Lookup_toInt hc]
  constructor
  · rintro ⟨-, hlt, -⟩
    omega
  · intro hlt
    refine ⟨by omega, by omega, shiftAmounts_lt h⟩

/-- The iterations are the characters over the alphabet, each in the state the
ones before it leave. -/
theorem mem_base64Iterations {s : Bytes} {locals : Base64Locals}
    (h : Accumulates (Base64.bits s) locals) {input : Bytes} {locals' : Base64Locals} {c : UInt8}
    (hit : (locals', c) ∈ base64Iterations locals input) :
    ∃ before after, Base64.text input = before ++ c :: after ∧
      Accumulates (Base64.bits (s ++ before)) locals' := by
  induction input generalizing s locals with
  | nil => cases hit
  | cons x input ih =>
    rw [base64Iterations] at hit
    by_cases hx : x ∈ Base64.alphabet
    · rw [if_neg fun hstop => base64Lookup_eq_neg_one.mp hstop hx] at hit
      have hbody := accumulates_body h hx
      have hsingle : Base64.bits [x] = toBits 6 (Base64.value x) := List.flatMap_singleton ..
      rw [← hsingle, ← Base64.bits_append] at hbody
      rw [Base64.text_cons, if_pos hx]
      rcases List.mem_cons.mp hit with heq | hit
      · cases heq
        exact ⟨[], Base64.text input, rfl, by rwa [List.append_nil]⟩
      · obtain ⟨before, after, htext, hacc⟩ := ih hbody hit
        refine ⟨x :: before, after, ?_, ?_⟩
        · rw [htext, List.cons_append]
        · rwa [List.append_assoc, List.singleton_append] at hacc
    · rw [if_pos (base64Lookup_eq_neg_one.mpr hx)] at hit
      cases hit

/-- Every character over the alphabet has its iteration. -/
theorem exists_base64Iterations {locals : Base64Locals} {input before after : Bytes} {c : UInt8}
    (htext : Base64.text input = before ++ c :: after) :
    (base64Loop locals before, c) ∈ base64Iterations locals input := by
  induction input generalizing locals before with
  | nil =>
    exact absurd htext.symm (List.append_ne_nil_of_right_ne_nil _ (List.cons_ne_nil _ _))
  | cons x input ih =>
    rw [Base64.text_cons] at htext
    by_cases hx : x ∈ Base64.alphabet
    · have hstop : ¬ base64Lookup x = -1 := fun hstop => base64Lookup_eq_neg_one.mp hstop hx
      rw [if_pos hx] at htext
      rw [base64Iterations, if_neg hstop]
      cases before with
      | nil =>
        obtain ⟨rfl, -⟩ := List.cons.inj htext
        exact List.mem_cons_self ..
      | cons y before =>
        obtain ⟨rfl, hrest⟩ := List.cons.inj htext
        rw [base64Loop, if_neg hstop]
        exact List.mem_cons_of_mem _ (ih hrest)
    · rw [if_neg hx] at htext
      exact absurd htext.symm (List.append_ne_nil_of_right_ne_nil _ (List.cons_ne_nil _ _))

/-- The number spelled by a front part is no larger. -/
theorem ofBits_bits_le (s t : Bytes) :
    ofBits (Base64.bits s) ≤ ofBits (Base64.bits (s ++ t)) := by
  rw [Base64.bits_append, ofBits_append]
  have hle := Nat.le_mul_of_pos_right (ofBits (Base64.bits s))
    (Nat.two_pow_pos (Base64.bits t).length)
  omega

/-- If the body is defined in every iteration, the number spelled fits after
each of them. -/
theorem ofBits_lt_of_bodyDefined {input : Bytes}
    (hdef : ∀ locals c, (locals, c) ∈ base64Iterations .initial input → locals.BodyDefined c)
    {before after : Bytes} (htext : Base64.text input = before ++ after) :
    ofBits (Base64.bits before) < 2 ^ 31 := by
  induction before using List.reverseRecOn generalizing after with
  | nil => decide
  | append_singleton before c ih =>
    have htext' : Base64.text input = before ++ c :: after := by
      rw [htext, List.append_assoc, List.singleton_append]
    have hmem : ∀ x ∈ before ++ c :: after, x ∈ Base64.alphabet := by
      rw [← htext']
      exact Base64.text_mem input
    have hbefore : Base64.text before = before :=
      Base64.text_eq_self fun x hx => hmem x (List.mem_append_left _ hx)
    have hacc := accumulates_loop accumulates_initial before
    rw [List.nil_append, hbefore] at hacc
    have hc := hmem c (List.mem_append_right _ (List.mem_cons_self ..))
    -- the number fits before this iteration, and the body keeps it so
    exact (bodyDefined_iff hacc (ih htext') hc).mp
      (hdef _ c (exists_base64Iterations htext'))

/-- **When the accumulator overflows**: every iteration computes within an
`int`, and shifts by less than its width, exactly when the number spelled by
the characters read, as digits in base 64, is below `2 ^ 31`. -/
theorem base64_accumulator (input : Bytes) :
    (∀ locals c, (locals, c) ∈ base64Iterations .initial input → locals.BodyDefined c) ↔
      Base64.number (Base64.text input) < 2 ^ 31 := by
  rw [← Base64.ofBits_bits (Base64.text_mem input)]
  constructor
  · intro hdef
    exact ofBits_lt_of_bodyDefined hdef (List.append_nil _).symm
  · intro hfit locals c hit
    have hempty : Accumulates (Base64.bits []) .initial := accumulates_initial
    obtain ⟨before, after, htext, hacc⟩ := mem_base64Iterations hempty hit
    rw [List.nil_append] at hacc
    have hc : c ∈ Base64.alphabet := by
      refine Base64.text_mem input c ?_
      rw [htext]
      exact List.mem_append_right _ (List.mem_cons_self ..)
    have hnext : ofBits (Base64.bits (before ++ [c])) < 2 ^ 31 := by
      have hle := ofBits_bits_le (before ++ [c]) after
      rw [List.append_assoc, List.singleton_append, ← htext] at hle
      omega
    exact (bodyDefined_iff hacc (lt_of_le_of_lt (ofBits_bits_le before [c]) hnext) hc).mpr hnext

/-- A valid text overflows the accumulator: 32 bytes, the shortest box there
is, with the Widevine system id. -/
theorem base64_accumulator_overflows :
    ¬ ∀ input : Bytes, ∀ locals c, (locals, c) ∈ base64Iterations .initial input →
      locals.BodyDefined c := by
  intro h
  have hbox : ∀ it ∈ base64Iterations .initial
      (ascii "AAAAIHBzc2gAAAAA7e+LqXnWSs6jyCfc1R0h7QAAAAA="), it.1.BodyDefined it.2 :=
    fun it hit => h _ it.1 it.2 hit
  revert hbox
  decide +kernel

end WidevineCdm
