import WidevineCdm.License.Primitives
import WidevineCdm.Reference.Platform

/-!
# PKCS7 removal is exact

The last byte of a decrypted key says how many padding bytes to expect. If
that many bytes of that value end the key, they are the only padding it can be
read to have and are removed; otherwise the key is kept whole. What
`aes_cbc_encrypt` pads is therefore recovered exactly, also when the plaintext
itself ends in bytes that look like padding, as long as the lengths are those
of an `int`: libcrypto is told the number of bytes in one, and a plaintext of
`2 ^ 32` bytes is encrypted as if it were empty.
-/

namespace WidevineCdm

open Lib

variable {P : Platform} {C : BlockCipher 16}

/-- Encrypt, decrypt and strip. -/
def roundTrip (key iv plaintext : Bytes) : CryptoM P Bytes := do
  let ciphertext ← Crypto.aesCbcEncrypt key iv plaintext
  let decrypted ← Crypto.aesCbcDecrypt key iv ciphertext
  liftExcept (stripPadding decrypted)

section RoundTrip

variable (hcbc : P.CbcCalls C) {key iv plaintext : Bytes} {n : Nat}
  (harguments : CbcArguments key iv plaintext n)
  (hinl : Int32.ofNat plaintext.length = Int32.ofNat n)

include hcbc harguments hinl

/-- A round trip that returns gives back the bytes that were to be read. -/
theorem roundTrip_ok {stripped : Bytes} {host host' : Host P}
    (h : exec (roundTrip key iv plaintext) host = (.ok stripped, host')) :
    stripped = plaintext.take n := by
  obtain ⟨ciphertext, h₁, henc, h⟩ := exec_bind_eq_ok.mp h
  obtain ⟨decrypted, h₂, hdec, h⟩ := exec_bind_eq_ok.mp h
  obtain ⟨-, -, -, -, -, hint, -, -⟩ := aesCbcEncrypt_ok henc
  have hwhole : CbcArguments key iv ciphertext ciphertext.length :=
    ⟨harguments.key_length, harguments.iv_length, Nat.le_refl _, hint⟩
  have hplain := hcbc.aesCbcDecrypt_ok hwhole rfl hdec
  rw [List.take_length, hcbc.aesCbcEncrypt_ok harguments hinl henc,
    cbcDecrypt_encrypted C key harguments.iv_length] at hplain
  rw [hplain, stripPadding_eq, unpad_pkcs7Pad] at h
  obtain ⟨hstripped, -⟩ := Prod.mk.inj h
  exact (Except.ok.inj hstripped).symm

/-- It returns, from any state, when no call fails. -/
theorem returns_roundTrip (hsucceeds : P.CbcSucceeds) (hint : n + 16 < 2 ^ 31) :
    Returns (plaintext.take n) (roundTrip key iv plaintext : CryptoM P Bytes) := by
  have hlength : (plaintext.take n).length + 16 < 2 ^ 31 := by
    rwa [List.length_take_of_le harguments.le_length]
  have hdec := hcbc.aesCbcDecrypt_encrypted hsucceeds harguments.key_length harguments.iv_length
    hlength
  refine returns_bind (hcbc.aesCbcEncrypt harguments hinl hsucceeds hint) ?_
  refine returns_bind hdec ?_
  rw [stripPadding_eq, unpad_pkcs7Pad]
  exact returns_pure _

end RoundTrip

/-- **PKCS7 removal is exact.** Bytes that end in padding have one reading as
padded bytes and lose exactly the padding; all others are kept whole; nothing
outside them is read. So stripping a decrypted encryption gives the plaintext
back, for every key and IV of sixteen bytes and every plaintext whose
ciphertext has a length that is an `int`. -/
theorem pkcs7_exact (hcbc : P.CbcCalls C) :
    (∀ d : Bytes,
      (∀ p n, Pkcs7Padded 16 d p n →
        stripPadding d = .ok p ∧ ∀ q m, Pkcs7Padded 16 d q m → m = n ∧ q = p) ∧
      ((∀ p n, ¬ Pkcs7Padded 16 d p n) → stripPadding d = .ok d) ∧
      stripPadding d ≠ .error .outOfBounds) ∧
    ∀ key iv plaintext : Bytes, key.length = 16 → iv.length = 16 →
      plaintext.length + 16 < 2 ^ 31 →
      (∀ (host : Host P) stripped host',
        exec (roundTrip key iv plaintext) host = (.ok stripped, host') → stripped = plaintext) ∧
      (P.CbcSucceeds → Returns plaintext (roundTrip key iv plaintext : CryptoM P Bytes)) := by
  constructor
  · intro d
    refine ⟨?_, ?_, ?_⟩
    · intro p n hpadded
      constructor
      · rw [stripPadding_eq, unpad_of_padded hpadded]
      · intro q m hq
        exact hq.unique (by decide) hpadded
    · intro hnone
      rw [stripPadding_eq, unpad_of_not_padded hnone]
    · rw [stripPadding_eq]
      intro herror
      cases herror
  · intro key iv plaintext hkey hiv hint
    have harguments : CbcArguments key iv plaintext plaintext.length :=
      ⟨hkey, hiv, Nat.le_refl _, by omega⟩
    constructor
    · intro host stripped host' h
      rw [roundTrip_ok hcbc harguments rfl h, List.take_length]
    · intro hsucceeds
      have h := returns_roundTrip hcbc harguments rfl hsucceeds hint
      rwa [List.take_length] at h

/-- A plaintext that looks padded survives. -/
theorem pkcs7_exact_padded_plaintext :
    (Reference.platform Reference.nominal).CbcCalls
      (Reference.cipher Reference.nominal.recording.blocks) ∧
    Returns [7, 2, 2] (roundTrip (List.replicate 16 1) (List.replicate 16 9) [7, 2, 2]
      : CryptoM (Reference.platform Reference.nominal) Bytes) := by
  have hexact := pkcs7_exact (Reference.cbcCalls Reference.nominal)
  obtain ⟨-, hreturns⟩ := hexact.2 (List.replicate 16 1) (List.replicate 16 9) [7, 2, 2]
    (by decide) (by decide) (by decide)
  exact ⟨Reference.cbcCalls Reference.nominal,
    hreturns (Reference.cbcSucceeds Reference.nominal_proper)⟩

/-- **A plaintext of `2 ^ 32` bytes comes back empty**: its length is 0 as an
`int`. -/
theorem wide_plaintext_lost :
    (Reference.platform Reference.nominal).CbcCalls
      (Reference.cipher Reference.nominal.recording.blocks) ∧
    (Reference.platform Reference.nominal).CbcSucceeds ∧
    Returns [] (roundTrip (List.replicate 16 1) (List.replicate 16 9) (List.replicate (2 ^ 32) 0)
      : CryptoM (Reference.platform Reference.nominal) Bytes) ∧
    ¬ ∀ (key iv plaintext : Bytes) (host : Host (Reference.platform Reference.nominal)) stripped
        host', exec (roundTrip key iv plaintext) host = (.ok stripped, host') →
      stripped = plaintext := by
  have hcbc := Reference.cbcCalls Reference.nominal
  have hsucceeds := Reference.cbcSucceeds Reference.nominal_proper
  have hlost : Returns [] (roundTrip (List.replicate 16 1) (List.replicate 16 9)
      (List.replicate (2 ^ 32) 0) : CryptoM (Reference.platform Reference.nominal) Bytes) := by
    refine returns_roundTrip hcbc (n := 0) ⟨by decide, by decide, Nat.zero_le _, by decide⟩ ?_
      hsucceeds (by decide)
    rw [List.length_replicate]
    decide
  refine ⟨hcbc, hsucceeds, hlost, ?_⟩
  intro h
  obtain ⟨host, hempty⟩ := hlost ⟨(0 : Nat), []⟩
  have hlengths := congrArg List.length (h _ _ _ _ _ _ hempty)
  rw [List.length_replicate] at hlengths
  cases hlengths

/-- A padding byte of 0, one above 16, a padding longer than the bytes and a
mismatch in it are all left alone. -/
example : [[], [0], [17], [5, 3], [1, 2, 9, 3, 3]].map stripPadding
    = ([[], [0], [17], [5, 3], [1, 2, 9, 3, 3]] : List Bytes).map .ok := by decide

end WidevineCdm
