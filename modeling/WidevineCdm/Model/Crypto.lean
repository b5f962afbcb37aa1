import WidevineCdm.Model.Contracts

/-!
# The crypto wrappers (`crypto.cpp`)

Each wrapper is a sequence of libcrypto calls; a call that reports failure
throws the message of its line. Freeing contexts has no effect the model can
see. The size of the data becomes the `int` that the update calls take.

The cipher reads sixteen bytes of key and of IV through raw pointers. Where a
vector has fewer it reads on past the end, which in general does not fault: the
run does not end there, and what the call answers is the platform's. That it
was made can be seen in `Host.aesCalls`, the record of the `aes_cbc_decrypt`
calls with their arguments.
-/

namespace WidevineCdm

open Lib

/-- The arguments of one call of `aes_cbc_decrypt`. -/
structure AesCall where
  key : Bytes
  iv : Bytes
  ciphertext : Bytes
deriving DecidableEq, Repr

/-- The outside world, and the record of the `aes_cbc_decrypt` calls made. -/
structure Host (P : Platform) where
  world : P.World
  aesCalls : List AesCall

abbrev CryptoM (P : Platform) := EStateM Exn (Host P)

namespace Crypto

variable {P : Platform}

/-- One call to the outside. -/
def ask {α : Type} (f : P.World → α × P.World) : CryptoM P α :=
  fun host => .ok (f host.world).1 { host with world := (f host.world).2 }

/-- `if (call(…) != 1) throw std::runtime_error(what)`. -/
def require (call : LibCall P.PKey) (what : String) : CryptoM P Unit := do
  if !(← ask (P.succeeds call)) then
    throw (.runtimeError what)

/-- A call that produces a value, or fails with the message `what`. -/
def demand {α : Type} (f : P.World → Option α × P.World) (what : String) : CryptoM P α := do
  match ← ask f with
  | some a => pure a
  | none => throw (.runtimeError what)

/-- `RSA::from_pkcs8_der` (crypto.cpp:27–36). -/
def rsaFromPkcs8Der (der : Bytes) : CryptoM P P.PKey :=
  demand (P.d2iPrivateKey der) "Failed to load RSA private key from PKCS#8 DER"

/-- `RSA::sign_pss_sha1` (crypto.cpp:42–90). -/
def signPssSha1 (key : P.PKey) (data : Bytes) : CryptoM P Bytes := do
  require .evpMdCtxNew "Failed to create EVP context"
  require (.evpDigestSignInit key) "Failed to initialize signing"
  require (.evpPssPadding key) "Failed to set PSS padding"
  require (.evpPssSaltlen key) "Failed to set salt length"
  require (.evpDigestSignUpdate key data) "Failed to update digest"
  require (.evpDigestSignLength key data) "Failed to get signature length"
  demand (P.evpDigestSignFinal key data) "Failed to sign"

/-- `RSA::decrypt_oaep_sha1` (crypto.cpp:92–139). -/
def decryptOaepSha1 (key : P.PKey) (ciphertext : Bytes) : CryptoM P Bytes := do
  require (.evpPkeyCtxNew key) "Failed to create PKEY context"
  require (.evpPkeyDecryptInit key) "Failed to initialize decryption"
  require (.evpOaepPadding key) "Failed to set OAEP padding"
  require (.evpOaepMd key) "Failed to set OAEP hash"
  require (.evpMgf1Md key) "Failed to set MGF1 hash"
  require (.evpPkeyDecryptLength key ciphertext) "Failed to get output length"
  demand (P.evpPkeyDecrypt key ciphertext) "Failed to decrypt"

/-- `hmac_sha256` (crypto.cpp:169–182): the status of `HMAC` is not checked,
and a failed call leaves the length at zero. -/
def hmacSha256 (key data : Bytes) : CryptoM P Bytes := do
  return (← ask (P.hmac key data)).getD []

/-- `aes_cbc_decrypt` (crypto.cpp:185–214): one update, no finalisation. -/
def aesCbcDecrypt (key iv ciphertext : Bytes) : CryptoM P Bytes := do
  modify fun host => { host with aesCalls := host.aesCalls ++ [⟨key, iv, ciphertext⟩] }
  require .evpCipherCtxNew "Failed to create cipher context"
  require (.evpDecryptInit key iv) "Failed to initialize decryption"
  -- Disable automatic padding
  demand (P.evpDecryptUpdate ⟨key, iv, false⟩ ciphertext (Int32.ofNat ciphertext.length))
    "Failed to decrypt"

/-- `aes_cbc_encrypt` (crypto.cpp:216–250). -/
def aesCbcEncrypt (key iv plaintext : Bytes) : CryptoM P Bytes := do
  require .evpCipherCtxNew "Failed to create cipher context"
  require (.evpEncryptInit key iv) "Failed to initialize encryption"
  let inl := Int32.ofNat plaintext.length
  let body ← demand (P.evpEncryptUpdate ⟨key, iv, true⟩ plaintext inl) "Failed to encrypt"
  let last ← demand (P.evpEncryptFinal ⟨key, iv, true⟩ plaintext inl)
    "Failed to finalize encryption"
  -- `ciphertext_len += len` overflows
  if 2 ^ 31 ≤ body.length + last.length then
    throw .outOfBounds
  return body ++ last

/-- `cmac_aes` (crypto.cpp:253–283). -/
def cmacAes (key data : Bytes) : CryptoM P Bytes := do
  require .cmacCtxNew "Failed to create CMAC context"
  require (.cmacInit key) "Failed to initialize CMAC"
  require (.cmacUpdate key data) "Failed to update CMAC"
  demand (P.cmacFinal key data) "Failed to finalize CMAC"

/-- `random_bytes` (crypto.cpp:286–292). -/
def randomBytes (length : Nat) : CryptoM P (List.Vector UInt8 length) :=
  demand (P.randBytes length) "Failed to generate random bytes"

end Crypto

end WidevineCdm
