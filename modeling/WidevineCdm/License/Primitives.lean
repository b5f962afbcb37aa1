import WidevineCdm.License.Extraction

/-!
# What the crypto wrappers return

A wrapper that returns has returned what its last calls produced, and it
returns from every state when no call fails. Under the contracts of libcrypto
that is the CMAC, the CBC encryption of the padded plaintext and the CBC
decryption of the complete blocks, of as many bytes as the `int` made of their
number says; so decrypting what was encrypted gives the padded plaintext back
if that is not too long.
-/

namespace WidevineCdm

open Lib

variable {P : Platform}

/-! ## Single calls -/

theorem exec_ask {α : Type} (f : P.World → α × P.World) (host : Host P) :
    exec (Crypto.ask f) host = (.ok (f host.world).1, { host with world := (f host.world).2 }) :=
  rfl

theorem exec_require (call : LibCall P.PKey) (what : String) (host : Host P) :
    exec (Crypto.require call what) host =
      (if (P.succeeds call host.world).1 then .ok () else .error (.runtimeError what),
        { host with world := (P.succeeds call host.world).2 }) := by
  rw [Crypto.require, exec_bind_ok (exec_ask ..)]
  cases (P.succeeds call host.world).1 <;> rfl

theorem isOk_demand {α : Type} (f : P.World → Option α × P.World) (what : String)
    (host : Host P) : (exec (Crypto.demand f what) host).1.isOk = (f host.world).1.isSome := by
  rw [Crypto.demand, exec_bind_ok (exec_ask ..)]
  cases (f host.world).1 <;> rfl

/-! ## Calls that do not fail -/

theorem returns_ask {α : Type} {f : P.World → α × P.World} {a : α} (h : ∀ w, (f w).1 = a) :
    Returns a (Crypto.ask f) := by
  intro host
  refine ⟨{ host with world := (f host.world).2 }, ?_⟩
  rw [← h host.world]
  rfl

theorem returns_demand {α : Type} {f : P.World → Option α × P.World} {a : α}
    (h : ∀ w, (f w).1 = some a) (what : String) :
    Returns a (Crypto.demand (P := P) f what) :=
  returns_bind (returns_ask h) (returns_pure a)

theorem returns_require {call : LibCall P.PKey} (h : ∀ w, (P.succeeds call w).1 = true)
    (what : String) : Returns () (Crypto.require (P := P) call what) :=
  returns_bind (returns_ask h) (returns_pure ())

theorem returns_aesCbcEncrypt {key iv plaintext body last : Bytes}
    (hnew : ∀ w, (P.succeeds .evpCipherCtxNew w).1 = true)
    (hinit : ∀ w, (P.succeeds (.evpEncryptInit key iv) w).1 = true)
    (hupdate : ∀ w, (P.evpEncryptUpdate ⟨key, iv, true⟩ plaintext
      (Int32.ofNat plaintext.length) w).1 = some body)
    (hfinal : ∀ w, (P.evpEncryptFinal ⟨key, iv, true⟩ plaintext
      (Int32.ofNat plaintext.length) w).1 = some last)
    (hint : body.length + last.length < 2 ^ 31) :
    Returns (body ++ last) (Crypto.aesCbcEncrypt (P := P) key iv plaintext) := by
  refine returns_bind (returns_require hnew _) ?_
  refine returns_bind (returns_require hinit _) ?_
  refine returns_bind (returns_demand hupdate _) ?_
  refine returns_bind (returns_demand hfinal _) ?_
  rw [if_neg (Nat.not_le.mpr hint)]
  exact returns_pure _

theorem returns_aesCbcDecrypt {key iv ciphertext plaintext : Bytes}
    (hnew : ∀ w, (P.succeeds .evpCipherCtxNew w).1 = true)
    (hinit : ∀ w, (P.succeeds (.evpDecryptInit key iv) w).1 = true)
    (hupdate : ∀ w, (P.evpDecryptUpdate ⟨key, iv, false⟩ ciphertext
      (Int32.ofNat ciphertext.length) w).1 = some plaintext) :
    Returns plaintext (Crypto.aesCbcDecrypt (P := P) key iv ciphertext) := by
  refine returns_bind (returns_modify _) ?_
  refine returns_bind (returns_require hnew _) ?_
  refine returns_bind (returns_require hinit _) ?_
  exact returns_demand hupdate _

/-! ## Calls that return -/

theorem demand_ok {α : Type} {f : P.World → Option α × P.World} {what : String} {a : α}
    {host host' : Host P} (h : exec (Crypto.demand f what) host = (.ok a, host')) :
    (f host.world).1 = some a := by
  obtain ⟨answer, h₁, hanswer, h⟩ := exec_bind_eq_ok.mp h
  cases answer with
  | none => cases h
  | some b =>
    cases h
    obtain ⟨hsome, -⟩ := Prod.mk.inj hanswer
    exact Except.ok.inj hsome

/-- An encryption that returns puts out what its last two calls did, and the
length of that is an `int`. -/
theorem aesCbcEncrypt_ok {key iv plaintext ciphertext : Bytes} {host host' : Host P}
    (h : exec (Crypto.aesCbcEncrypt key iv plaintext) host = (.ok ciphertext, host')) :
    ∃ body last w w', ciphertext = body ++ last ∧ ciphertext.length < 2 ^ 31 ∧
      (P.evpEncryptUpdate ⟨key, iv, true⟩ plaintext (Int32.ofNat plaintext.length) w).1
        = some body ∧
      (P.evpEncryptFinal ⟨key, iv, true⟩ plaintext (Int32.ofNat plaintext.length) w').1
        = some last := by
  obtain ⟨-, h₁, -, h⟩ := exec_bind_eq_ok.mp h
  obtain ⟨-, h₂, -, h⟩ := exec_bind_eq_ok.mp h
  obtain ⟨body, h₃, hbody, h⟩ := exec_bind_eq_ok.mp h
  obtain ⟨last, h₄, hlast, h⟩ := exec_bind_eq_ok.mp h
  by_cases hint : 2 ^ 31 ≤ body.length + last.length
  · rw [if_pos hint] at h
    cases h
  · rw [if_neg hint] at h
    cases h
    refine ⟨body, last, _, _, rfl, ?_, demand_ok hbody, demand_ok hlast⟩
    rw [List.length_append]
    exact Nat.not_le.mp hint

/-- A decryption that returns puts out what its last call did. -/
theorem aesCbcDecrypt_ok {key iv ciphertext plaintext : Bytes} {host host' : Host P}
    (h : exec (Crypto.aesCbcDecrypt key iv ciphertext) host = (.ok plaintext, host')) :
    ∃ w, (P.evpDecryptUpdate ⟨key, iv, false⟩ ciphertext (Int32.ofNat ciphertext.length) w).1
      = some plaintext := by
  obtain ⟨-, h₁, -, h⟩ := exec_bind_eq_ok.mp h
  obtain ⟨-, h₂, -, h⟩ := exec_bind_eq_ok.mp h
  obtain ⟨-, h₃, -, h⟩ := exec_bind_eq_ok.mp h
  exact ⟨_, demand_ok h⟩

/-! ## Under the contracts of AES-128-CBC -/

/-- Decrypting an encryption gives the padded plaintext. -/
theorem cbcDecrypt_encrypted (C : BlockCipher 16) (key : Bytes) {iv : Bytes}
    (hiv : iv.length = 16) (plaintext : Bytes) :
    cbcDecrypt C key iv (cbcEncrypt C key iv (pkcs7Pad 16 plaintext)) = pkcs7Pad 16 plaintext :=
  cbcDecrypt_cbcEncrypt C key hiv (dvd_length_pkcs7Pad (by decide) plaintext)

/-- The ciphertext of a plaintext is at most a block longer. -/
theorem cbcEncrypt_padded_length_le (C : BlockCipher 16) (key : Bytes) {iv : Bytes}
    (hiv : iv.length = 16) (plaintext : Bytes) :
    (cbcEncrypt C key iv (pkcs7Pad 16 plaintext)).length ≤ plaintext.length + 16 := by
  rw [cbcEncrypt_length C key hiv (dvd_length_pkcs7Pad (by decide) plaintext)]
  exact pkcs7Pad_length_le 16 plaintext

namespace Platform.CbcCalls

variable {C : BlockCipher 16} (hcbc : P.CbcCalls C) {key iv : Bytes}

include hcbc

section Calls

variable {data : Bytes} {n : Nat} (harguments : CbcArguments key iv data n)
  (hinl : Int32.ofNat data.length = Int32.ofNat n)

include harguments hinl

/-- What an encryption that returns has returned, for the `n` bytes that the
length of the plaintext comes to as an `int`. -/
theorem aesCbcEncrypt_ok {ciphertext : Bytes} {host host' : Host P}
    (h : exec (Crypto.aesCbcEncrypt key iv data) host = (.ok ciphertext, host')) :
    ciphertext = cbcEncrypt C key iv (pkcs7Pad 16 (data.take n)) := by
  obtain ⟨body, last, w, w', hciphertext, -, hbody, hlast⟩ := WidevineCdm.aesCbcEncrypt_ok h
  rw [hinl] at hbody hlast
  rw [hciphertext, hcbc.evpEncryptUpdate _ _ _ _ _ _ harguments hbody,
    hcbc.evpEncryptFinal _ _ _ _ _ _ harguments hlast, List.take_append_drop]

/-- What a decryption that returns has returned. -/
theorem aesCbcDecrypt_ok {plaintext : Bytes} {host host' : Host P}
    (h : exec (Crypto.aesCbcDecrypt key iv data) host = (.ok plaintext, host')) :
    plaintext = cbcDecrypt C key iv (data.take n) := by
  obtain ⟨w, hplaintext⟩ := WidevineCdm.aesCbcDecrypt_ok h
  rw [hinl] at hplaintext
  exact hcbc.evpDecryptUpdate _ _ _ _ _ _ harguments hplaintext

theorem aesCbcEncrypt (hsucceeds : P.CbcSucceeds) (hint : n + 16 < 2 ^ 31) :
    Returns (cbcEncrypt C key iv (pkcs7Pad 16 (data.take n)))
      (Crypto.aesCbcEncrypt (P := P) key iv data) := by
  have hupdate : ∀ w, (P.evpEncryptUpdate ⟨key, iv, true⟩ data (Int32.ofNat data.length) w).1
      = some ((cbcEncrypt C key iv (pkcs7Pad 16 (data.take n))).take (16 * (n / 16))) := by
    intro w
    obtain ⟨body, hbody⟩ := Option.isSome_iff_exists.mp
      (hsucceeds.evpEncryptUpdate _ _ _ _ w harguments)
    rw [hinl, hbody, hcbc.evpEncryptUpdate _ _ _ _ _ _ harguments hbody]
  have hfinal : ∀ w, (P.evpEncryptFinal ⟨key, iv, true⟩ data (Int32.ofNat data.length) w).1
      = some ((cbcEncrypt C key iv (pkcs7Pad 16 (data.take n))).drop (16 * (n / 16))) := by
    intro w
    obtain ⟨last, hlast⟩ := Option.isSome_iff_exists.mp
      (hsucceeds.evpEncryptFinal _ _ _ _ w harguments)
    rw [hinl, hlast, hcbc.evpEncryptFinal _ _ _ _ _ _ harguments hlast]
  have hlength := cbcEncrypt_padded_length_le C key harguments.iv_length (data.take n)
  rw [List.length_take_of_le harguments.le_length] at hlength
  have h := returns_aesCbcEncrypt hsucceeds.evpCipherCtxNew
    (hsucceeds.evpEncryptInit key iv · harguments.key_length harguments.iv_length) hupdate hfinal
    (by
      rw [← List.length_append, List.take_append_drop]
      omega)
  rwa [List.take_append_drop] at h

theorem aesCbcDecrypt (hsucceeds : P.CbcSucceeds) :
    Returns (cbcDecrypt C key iv (data.take n))
      (Crypto.aesCbcDecrypt (P := P) key iv data) := by
  refine returns_aesCbcDecrypt hsucceeds.evpCipherCtxNew
    (hsucceeds.evpDecryptInit key iv · harguments.key_length harguments.iv_length) ?_
  intro w
  obtain ⟨plaintext, hplaintext⟩ := Option.isSome_iff_exists.mp
    (hsucceeds.evpDecryptUpdate _ _ _ _ w harguments)
  rw [hinl, hplaintext, hcbc.evpDecryptUpdate _ _ _ _ _ _ harguments hplaintext]

end Calls

variable (hsucceeds : P.CbcSucceeds) (hkey : key.length = 16) (hiv : iv.length = 16)
  {plaintext : Bytes}

include hsucceeds hkey hiv

/-- A plaintext whose ciphertext has a length that is an `int` is encrypted
whole. -/
theorem aesCbcEncrypt_whole (hint : plaintext.length + 16 < 2 ^ 31) :
    Returns (cbcEncrypt C key iv (pkcs7Pad 16 plaintext))
      (Crypto.aesCbcEncrypt (P := P) key iv plaintext) := by
  have h := hcbc.aesCbcEncrypt ⟨hkey, hiv, Nat.le_refl _, by omega⟩ rfl hsucceeds hint
  rwa [List.take_length] at h

/-- Decryption gives back what encryption padded. -/
theorem aesCbcDecrypt_encrypted (hint : plaintext.length + 16 < 2 ^ 31) :
    Returns (pkcs7Pad 16 plaintext)
      (Crypto.aesCbcDecrypt (P := P) key iv (cbcEncrypt C key iv (pkcs7Pad 16 plaintext))) := by
  have hlength := cbcEncrypt_padded_length_le C key hiv plaintext
  have harguments : CbcArguments key iv (cbcEncrypt C key iv (pkcs7Pad 16 plaintext))
      (cbcEncrypt C key iv (pkcs7Pad 16 plaintext)).length :=
    ⟨hkey, hiv, Nat.le_refl _, by omega⟩
  have h := hcbc.aesCbcDecrypt harguments rfl hsucceeds
  rwa [List.take_length, cbcDecrypt_encrypted C key hiv] at h

end Platform.CbcCalls

/-! ## Under the contract of libcrypto -/

namespace Platform.Working

variable {C : BlockCipher 16} {cmac : Bytes → Bytes → Bytes}
  {wraps : P.PKey → Bytes → Bytes → Prop} (hworking : P.Working C cmac wraps)

include hworking

theorem require {call : LibCall P.PKey} (hproper : call.Proper) (what : String) :
    Returns () (Crypto.require (P := P) call what) :=
  returns_require (fun w => hworking.succeeds call w hproper) what

theorem cmacAes {key : Bytes} (hkey : key.length = 16) (data : Bytes) :
    Returns (cmac key data) (Crypto.cmacAes (P := P) key data) := by
  refine returns_bind (hworking.require (by trivial) _) ?_
  refine returns_bind (hworking.require (by exact hkey) _) ?_
  refine returns_bind (hworking.require (by exact hkey) _) ?_
  exact returns_demand (fun w => hworking.cmacFinal key data w hkey) _

end Platform.Working

end WidevineCdm
