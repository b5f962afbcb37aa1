import WidevineCdm.Lib.Bits

/-!
# Base 64

The base 64 encoding of RFC 4648, section 4. `encode` adds zero bits on the
right to form whole groups of six, writes a character for each group and, when
padding is asked for, fills the last quantum of four characters with `=`.
`decode` reads the longest front part of a text that is over the alphabet: it
concatenates the six-bit values and cuts the bits into bytes, dropping the
fewer than 8 bits left over. It undoes the encoding, padded or not, and
decoding more of a text only adds bytes at the end.
-/

namespace WidevineCdm.Lib.Base64

/-- The 64 characters, each at the position of its value. -/
def alphabet : Bytes := ascii "ABCDEFGHIJKLMNOPQRSTUVWXYZabcdefghijklmnopqrstuvwxyz0123456789+/"

/-- The value of a character, 64 outside the alphabet. -/
def value (c : UInt8) : Nat := alphabet.idxOf c

/-- The character of a value. -/
def digit (n : Nat) : UInt8 := alphabet.getD n 61

theorem alphabet_length : alphabet.length = 64 := by decide

theorem alphabet_nodup : alphabet.Nodup := by decide

theorem value_lt_iff {c : UInt8} : value c < 64 ↔ c ∈ alphabet := by
  rw [← alphabet_length]
  exact List.idxOf_lt_length_iff

theorem digit_mem {n : Nat} (h : n < 64) : digit n ∈ alphabet := by
  rw [digit, List.getD_eq_getElem _ _ (by rwa [alphabet_length])]
  exact List.getElem_mem _

theorem value_digit {n : Nat} (h : n < 64) : value (digit n) = n := by
  rw [digit, List.getD_eq_getElem _ _ (by rwa [alphabet_length])]
  exact alphabet_nodup.idxOf_getElem n _

/-- The value of a character of the alphabet fits six bits. -/
theorem ofBits_value {c : UInt8} (hc : c ∈ alphabet) : ofBits (toBits 6 (value c)) = value c := by
  rw [ofBits_toBits]
  exact Nat.mod_eq_of_lt (value_lt_iff.mpr hc)

/-! ## Decoding -/

/-- The longest front part over the alphabet. -/
def text (s : Bytes) : Bytes := s.takeWhile fun c => c ∈ alphabet

/-- The six-bit values of characters, one after the other. -/
def bits (s : Bytes) : List Bool := s.flatMap fun c => toBits 6 (value c)

def decode (s : Bytes) : Bytes := cutBytes (bits (text s))

@[simp] theorem bits_length (s : Bytes) : (bits s).length = 6 * s.length := by
  induction s with
  | nil => rfl
  | cons c cs ih =>
    rw [bits, List.flatMap_cons, List.length_append, toBits_length, ← bits, ih, List.length_cons]
    ring

theorem bits_append (s t : Bytes) : bits (s ++ t) = bits s ++ bits t := List.flatMap_append

theorem decode_length (s : Bytes) : (decode s).length = 6 * (text s).length / 8 := by
  rw [decode, cutBytes_length, bits_length]

/-- The number the characters spell as digits in base 64. -/
def number (s : Bytes) : Nat := s.foldl (fun n c => n * 64 + value c) 0

theorem ofBits_bits_append {s : Bytes} {c : UInt8} (hc : c ∈ alphabet) :
    ofBits (bits (s ++ [c])) = ofBits (bits s) * 64 + value c := by
  have hsingle : bits [c] = toBits 6 (value c) := List.flatMap_singleton ..
  rw [bits_append, ofBits_append, hsingle, toBits_length, ofBits_value hc]
  rfl

theorem ofBits_bits {s : Bytes} (h : ∀ c ∈ s, c ∈ alphabet) : ofBits (bits s) = number s := by
  induction s using List.reverseRecOn with
  | nil => rfl
  | append_singleton s c ih =>
    have hs : ∀ x ∈ s, x ∈ alphabet := fun x hx => h x (List.mem_append_left _ hx)
    have hc : c ∈ alphabet := h c (List.mem_append_right _ (List.mem_singleton_self c))
    rw [ofBits_bits_append hc, ih hs, number, number, List.foldl_append, List.foldl_cons,
      List.foldl_nil]

/-- Every character read is in the alphabet. -/
theorem text_mem (s : Bytes) : ∀ c ∈ text s, c ∈ alphabet := by
  intro c hc
  exact of_decide_eq_true (List.mem_takeWhile_imp (p := fun c => c ∈ alphabet) hc)

/-- A text is longer than its bytes. -/
theorem decode_length_le (s : Bytes) : (decode s).length ≤ s.length := by
  have hle : (text s).length ≤ s.length := (List.takeWhile_prefix _).length_le
  rw [decode_length]
  omega

/-- Text over the alphabet is read to its end. -/
theorem text_append {s : Bytes} (h : ∀ c ∈ s, c ∈ alphabet) (t : Bytes) :
    text (s ++ t) = s ++ text t :=
  List.takeWhile_append_of_pos fun c hc => decide_eq_true (h c hc)

theorem text_eq_self {s : Bytes} (h : ∀ c ∈ s, c ∈ alphabet) : text s = s := by
  have happend := text_append h []
  rw [List.append_nil] at happend
  rw [happend]
  exact List.append_nil s

theorem text_cons (c : UInt8) (s : Bytes) :
    text (c :: s) = if c ∈ alphabet then c :: text s else [] := by
  by_cases hc : c ∈ alphabet
  · rw [if_pos hc]
    exact List.takeWhile_cons_of_pos (decide_eq_true hc)
  · rw [if_neg hc]
    exact List.takeWhile_cons_of_neg fun h => hc (of_decide_eq_true h)

/-- Reading stops at a character outside the alphabet. -/
theorem text_append_cons (s : Bytes) {c : UInt8} (hc : c ∉ alphabet) (t : Bytes) :
    text (s ++ c :: t) = text s := by
  induction s with
  | nil => exact (text_cons c t).trans (if_neg hc)
  | cons x xs ih => rw [List.cons_append, text_cons, text_cons, ih]

/-- A longer text adds to what is read of a shorter one. -/
theorem text_prefix_append (s t : Bytes) : text s <+: text (s ++ t) := by
  induction s with
  | nil => exact List.nil_prefix
  | cons x xs ih =>
    rw [List.cons_append, text_cons, text_cons]
    by_cases hx : x ∈ alphabet
    · rw [if_pos hx, if_pos hx]
      exact List.cons_prefix_cons.mpr ⟨rfl, ih⟩
    · rw [if_neg hx]
      exact List.nil_prefix

/-- **Decoding is monotone**: the bytes of a text start with the bytes of
each of its front parts. -/
theorem decode_prefix_append (s t : Bytes) : decode s <+: decode (s ++ t) := by
  obtain ⟨u, hu⟩ := text_prefix_append s t
  rw [decode, decode, ← hu, bits_append]
  exact cutBytes_append ..

/-- What follows a character outside the alphabet is not decoded. -/
theorem decode_append_cons (s : Bytes) {c : UInt8} (hc : c ∉ alphabet) (t : Bytes) :
    decode (s ++ c :: t) = decode s := by
  rw [decode, text_append_cons s hc t, decode]

/-! ## Encoding -/

/-- The bits of `b`, with zero bits added on the right to form whole groups
of six. -/
def groupBits (b : Bytes) : List Bool :=
  bytesToBits b ++ List.replicate ((6 - 8 * b.length % 6) % 6) false

/-- One character for each group of six bits. -/
def digits (b : Bytes) : Bytes :=
  (chunks 6 ((groupBits b).length / 6) (groupBits b)).map fun c => digit (ofBits c)

/-- The encoding of `b`, with `=` to whole quanta of four characters when it
is padded. -/
def encode (padded : Bool) (b : Bytes) : Bytes :=
  digits b ++ if padded then List.replicate ((4 - (digits b).length % 4) % 4) 61 else []

theorem dvd_length_groupBits (b : Bytes) : 6 ∣ (groupBits b).length := by
  rw [groupBits, List.length_append, bytesToBits_length, List.length_replicate]
  omega

theorem length_of_mem_groups {b : Bytes} {c : List Bool}
    (hc : c ∈ chunks 6 ((groupBits b).length / 6) (groupBits b)) : c.length = 6 :=
  length_of_mem_chunks (Nat.mul_div_le ..) hc

theorem ofBits_group_lt {b : Bytes} {c : List Bool}
    (hc : c ∈ chunks 6 ((groupBits b).length / 6) (groupBits b)) : ofBits c < 64 := by
  have hlt := ofBits_lt c
  rwa [length_of_mem_groups hc] at hlt

theorem digits_mem (b : Bytes) : ∀ c ∈ digits b, c ∈ alphabet := by
  intro c hc
  obtain ⟨group, hgroup, rfl⟩ := List.mem_map.mp hc
  exact digit_mem (ofBits_group_lt hgroup)

/-- The values of the characters are the groups. -/
theorem bits_digits (b : Bytes) : bits (digits b) = groupBits b := by
  have hgroup : ∀ c ∈ chunks 6 ((groupBits b).length / 6) (groupBits b),
      toBits 6 (value (digit (ofBits c))) = c := by
    intro c hc
    have hbits := toBits_ofBits c
    rwa [length_of_mem_groups hc, ← value_digit (ofBits_group_lt hc)] at hbits
  -- the groups are full, so putting them together leaves nothing out
  rw [bits, digits, List.flatMap_map, List.flatMap_def, List.map_congr_left hgroup, List.map_id',
    flatten_chunks, Nat.mul_div_cancel' (dvd_length_groupBits b), List.take_length]

theorem text_encode (padded : Bool) (b : Bytes) : text (encode padded b) = digits b := by
  -- reading stops at the first `=`
  have hpad : (61 : UInt8) ∉ alphabet := by decide
  have hrest : text (if padded then List.replicate ((4 - (digits b).length % 4) % 4) 61 else [])
      = [] := by
    cases padded with
    | false => rfl
    | true =>
      generalize (4 - (digits b).length % 4) % 4 = n
      cases n with
      | zero => rfl
      | succ n => exact text_append_cons [] hpad _
  rw [encode, text_append (digits_mem b), hrest, List.append_nil]

/-- **Round trip**: decoding undoes encoding, padded or not. -/
theorem decode_encode (padded : Bool) (b : Bytes) : decode (encode padded b) = b := by
  rw [decode, text_encode, bits_digits, groupBits]
  -- at most five zero bits were added: no byte of them
  exact cutBytes_bytesToBits b (by rw [List.length_replicate]; omega)

example : encode true (ascii "f") = ascii "Zg==" := by decide +kernel

example : encode false (ascii "foobar") = ascii "Zm9vYmFy" := by decide +kernel

end WidevineCdm.Lib.Base64
