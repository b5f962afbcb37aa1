import WidevineCdm.Lib.BlockChaining
import WidevineCdm.Model.Platform

/-!
# What protobuf and libcrypto promise

Nothing is assumed of a platform unless a result says so. These are the
contracts such a result may ask for, each a property the documentation of the
library states: that messages survive serialisation, that primitives are
functions of their arguments, that a CMAC has the size of a block, and what
the calls compute when nothing fails.
-/

namespace WidevineCdm

open Lib

/-- Protobuf's contract: parsing what was serialised gives the message back. -/
structure Platform.LawfulCodec (P : Platform) : Prop where
  signedMessage : ∀ m, P.parseSignedMessage (P.serializeSignedMessage m) = some m
  licenseRequest : ∀ m, P.parseLicenseRequest (P.serializeLicenseRequest m) = some m
  license : ∀ m, P.parseLicense (P.serializeLicense m) = some m

/-- The primitives `parse_license` calls are functions of their arguments:
the world they are called in does not matter. -/
structure Platform.Deterministic (P : Platform) : Prop where
  succeeds : ∀ call w w', (P.succeeds call w).1 = (P.succeeds call w').1
  evpPkeyDecrypt : ∀ key ciphertext w w',
    (P.evpPkeyDecrypt key ciphertext w).1 = (P.evpPkeyDecrypt key ciphertext w').1
  cmacFinal : ∀ key data w w', (P.cmacFinal key data w).1 = (P.cmacFinal key data w').1
  hmac : ∀ key data w w', (P.hmac key data w).1 = (P.hmac key data w').1
  evpDecryptUpdate : ∀ ctx ciphertext inl w w',
    (P.evpDecryptUpdate ctx ciphertext inl w).1 = (P.evpDecryptUpdate ctx ciphertext inl w').1

/-- `CMAC_Final` for AES writes one block. -/
def Platform.CmacBlock (P : Platform) : Prop :=
  ∀ key data world mac world', P.cmacFinal key data world = (some mac, world') → mac.length = 16

/-- The calls that report success when they are given the sizes they expect. -/
def LibCall.Proper {PKey : Type} : LibCall PKey → Prop
  | .cmacInit key => key.length = 16
  | .cmacUpdate key _ => key.length = 16
  | .evpDecryptInit key iv => key.length = 16 ∧ iv.length = 16
  | .evpEncryptInit key iv => key.length = 16 ∧ iv.length = 16
  | _ => True

/-- What the calls of AES-128-CBC are documented for: sixteen bytes of key and
of IV, and a number of bytes to read that is an `int` and that the data has. -/
structure CbcArguments (key iv data : Bytes) (n : Nat) : Prop where
  key_length : key.length = 16
  iv_length : iv.length = 16
  le_length : n ≤ data.length
  lt_int : n < 2 ^ 31

/-- The AES-128-CBC calls as documented. A call may fail; one that reports
success has put out the complete blocks of what it was to read, with the
padded rest in the final call of an encryption, and an incomplete last block
given to the update call of a decryption stays buffered. The length of what is
put out is an `int` whatever the length given is. -/
structure Platform.CbcCalls (P : Platform) (C : BlockCipher 16) : Prop where
  evpEncryptUpdate : ∀ key iv plaintext n w body, CbcArguments key iv plaintext n →
    (P.evpEncryptUpdate ⟨key, iv, true⟩ plaintext (Int32.ofNat n) w).1 = some body →
      body = (cbcEncrypt C key iv (pkcs7Pad 16 (plaintext.take n))).take (16 * (n / 16))
  evpEncryptFinal : ∀ key iv plaintext n w last, CbcArguments key iv plaintext n →
    (P.evpEncryptFinal ⟨key, iv, true⟩ plaintext (Int32.ofNat n) w).1 = some last →
      last = (cbcEncrypt C key iv (pkcs7Pad 16 (plaintext.take n))).drop (16 * (n / 16))
  evpDecryptUpdate : ∀ key iv ciphertext n w plaintext, CbcArguments key iv ciphertext n →
    (P.evpDecryptUpdate ⟨key, iv, false⟩ ciphertext (Int32.ofNat n) w).1 = some plaintext →
      plaintext = cbcDecrypt C key iv (ciphertext.take n)
  evpDecryptUpdate_length : ∀ key iv ciphertext inl w plaintext, key.length = 16 →
    iv.length = 16 → (P.evpDecryptUpdate ⟨key, iv, false⟩ ciphertext inl w).1 = some plaintext →
      plaintext.length < 2 ^ 31

/-- No AES-128-CBC call fails that is given what it is documented for. -/
structure Platform.CbcSucceeds (P : Platform) : Prop where
  evpCipherCtxNew : ∀ w, (P.succeeds .evpCipherCtxNew w).1 = true
  evpEncryptInit : ∀ key iv w, key.length = 16 → iv.length = 16 →
    (P.succeeds (.evpEncryptInit key iv) w).1 = true
  evpDecryptInit : ∀ key iv w, key.length = 16 → iv.length = 16 →
    (P.succeeds (.evpDecryptInit key iv) w).1 = true
  evpEncryptUpdate : ∀ key iv plaintext n w, CbcArguments key iv plaintext n →
    (P.evpEncryptUpdate ⟨key, iv, true⟩ plaintext (Int32.ofNat n) w).1.isSome
  evpEncryptFinal : ∀ key iv plaintext n w, CbcArguments key iv plaintext n →
    (P.evpEncryptFinal ⟨key, iv, true⟩ plaintext (Int32.ofNat n) w).1.isSome
  evpDecryptUpdate : ∀ key iv ciphertext n w, CbcArguments key iv ciphertext n →
    (P.evpDecryptUpdate ⟨key, iv, false⟩ ciphertext (Int32.ofNat n) w).1.isSome

/-- libcrypto as documented, for the block cipher of `EVP_aes_128_cbc`, the
CMAC built on it, and the RSA-OAEP ciphertexts `wraps key plaintext` of a
plaintext under the public key of `key`. -/
structure Platform.Working (P : Platform) (C : BlockCipher 16) (cmac : Bytes → Bytes → Bytes)
    (wraps : P.PKey → Bytes → Bytes → Prop) : Prop where
  succeeds : ∀ call w, call.Proper → (P.succeeds call w).1 = true
  cbcCalls : P.CbcCalls C
  cbcSucceeds : P.CbcSucceeds
  cmacFinal : ∀ key data w, key.length = 16 → (P.cmacFinal key data w).1 = some (cmac key data)
  cmac_length : ∀ key data, (cmac key data).length = 16
  evpPkeyDecrypt : ∀ key plaintext ciphertext w, wraps key plaintext ciphertext →
    (P.evpPkeyDecrypt key ciphertext w).1 = some plaintext
  wraps_ne_nil : ∀ key plaintext ciphertext, wraps key plaintext ciphertext → ciphertext ≠ []

/-- Neither the random generator nor a call that signing makes fails. -/
structure Platform.Signs (P : Platform) : Prop where
  randBytes : ∀ n w, (P.randBytes n w).1.isSome
  evpMdCtxNew : ∀ w, (P.succeeds .evpMdCtxNew w).1 = true
  evpDigestSignInit : ∀ key w, (P.succeeds (.evpDigestSignInit key) w).1 = true
  evpPssPadding : ∀ key w, (P.succeeds (.evpPssPadding key) w).1 = true
  evpPssSaltlen : ∀ key w, (P.succeeds (.evpPssSaltlen key) w).1 = true
  evpDigestSignUpdate : ∀ key data w, (P.succeeds (.evpDigestSignUpdate key data) w).1 = true
  evpDigestSignLength : ∀ key data w, (P.succeeds (.evpDigestSignLength key data) w).1 = true
  evpDigestSignFinal : ∀ key data w, (P.evpDigestSignFinal key data w).1.isSome

end WidevineCdm
