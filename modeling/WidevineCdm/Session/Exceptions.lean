import WidevineCdm.Session.Operations

/-!
# What the operations throw

No call on an open session throws the exception of an unknown session id: the
messages of the crypto wrappers, those of the operations themselves and the
prefixes of the two `catch` blocks all differ from it. The walk through
`parse_license` is made for any `Closed` property of its `Primitives`, since
what it throws is not the only thing that follows from the calls it makes.
-/

namespace WidevineCdm

open Lib Proto

variable {P : Platform}

/-- Not the exception of an unknown session id. -/
def Known (e : Exn) : Prop := e ≠ invalidSession

instance (e : Exn) : Decidable (Known e) := inferInstanceAs (Decidable (e ≠ invalidSession))

/-! ## Messages -/

/-- A prefixed message begins with its prefix. -/
theorem rethrow_startsWith {context what : String} {e : Exn}
    (h : e.rethrow context = .runtimeError what) : context.toList <+: what.toList := by
  cases e with
  | outOfBounds => cases h
  | runtimeError w | stdException w =>
    have hw : context ++ w = what := Exn.runtimeError.inj h
    rw [← hw, String.toList_append]
    exact List.prefix_append _ _

theorem known_rethrow_keys (e : Exn) : Known (e.rethrow "Failed to extract keys: ") := by
  intro h
  exact absurd (rethrow_startsWith h) (by decide)

theorem known_rethrow_contentId (e : Exn) : Known (e.rethrow "Failed to set content_id: ") := by
  intro h
  exact absurd (rethrow_startsWith h) (by decide)

/-- Whatever leaves a handler that prefixes and rethrows carries the prefix. -/
theorem tryCatch_rethrow {α : Type} {context : String} {x : Except Exn α} {e : Exn}
    (h : tryCatch x (fun e' : Exn => throw (e'.rethrow context)) = .error e) :
    ∃ e' : Exn, e = e'.rethrow context := by
  cases x with
  | ok a => cases h
  | error e' => exact ⟨e', (Except.error.inj h).symm⟩

theorem setContentId_known {pssh : Pssh} {licenseType : LicenseType} {requestId : Bytes} {e : Exn}
    (h : setContentId pssh licenseType requestId = .error e) : Known e := by
  obtain ⟨e', rfl⟩ := tryCatch_rethrow h
  exact known_rethrow_contentId e'

theorem decodeLicense_known {licenseResponse : Bytes} {e : Exn}
    (h : decodeLicense (P := P) licenseResponse = .error e) : Known e := by
  unfold decodeLicense at h
  split at h
  · rw [← Except.error.inj h]
    decide
  · split at h
    · rw [← Except.error.inj h]
      decide
    · split at h
      · rw [← Except.error.inj h]
        decide
      · cases h

/-! ## The walk through `parse_license` -/

theorem closed_require {E : Exn → Prop} {R : ∀ {α : Type}, CryptoM P α → Prop}
    (hR : Closed E R) {call : LibCall P.PKey} (hcall : R (Crypto.ask (P.succeeds call)))
    {what : String} (h : E (.runtimeError what)) : R (Crypto.require call what) := by
  refine hR.bind hcall fun ok => ?_
  cases ok with
  | true => exact hR.pure ()
  | false => exact hR.bind (hR.throw h) hR.pure

theorem closed_demand {E : Exn → Prop} {R : ∀ {α : Type}, CryptoM P α → Prop}
    (hR : Closed E R) {α : Type} {f : P.World → Option α × P.World} (hf : R (Crypto.ask f))
    {what : String} (h : E (.runtimeError what)) : R (Crypto.demand f what) := by
  refine hR.bind hf fun r => ?_
  cases r with
  | some a => exact hR.pure a
  | none => exact hR.throw h

/-- A property of the libcrypto calls that `parse_license` makes. -/
structure Primitives (P : Platform) (R : ∀ {α : Type}, CryptoM P α → Prop) : Prop where
  succeeds : ∀ call, R (Crypto.ask (P.succeeds call))
  evpPkeyDecrypt : ∀ key ciphertext, R (Crypto.ask (P.evpPkeyDecrypt key ciphertext))
  cmacFinal : ∀ key data, R (Crypto.ask (P.cmacFinal key data))
  hmac : ∀ key data, R (Crypto.ask (P.hmac key data))
  evpDecryptUpdate : ∀ ctx ciphertext inl, R (Crypto.ask (P.evpDecryptUpdate ctx ciphertext inl))

namespace Primitives

variable {R : ∀ {α : Type}, CryptoM P α → Prop} (hP : Primitives P R) (hR : Closed Known R)

include hP hR

theorem decryptOaepSha1 (key : P.PKey) (ciphertext : Bytes) :
    R (Crypto.decryptOaepSha1 key ciphertext) := by
  refine hR.bind (closed_require hR (hP.succeeds _) (by decide)) fun _ => ?_
  refine hR.bind (closed_require hR (hP.succeeds _) (by decide)) fun _ => ?_
  refine hR.bind (closed_require hR (hP.succeeds _) (by decide)) fun _ => ?_
  refine hR.bind (closed_require hR (hP.succeeds _) (by decide)) fun _ => ?_
  refine hR.bind (closed_require hR (hP.succeeds _) (by decide)) fun _ => ?_
  refine hR.bind (closed_require hR (hP.succeeds _) (by decide)) fun _ => ?_
  exact closed_demand hR (hP.evpPkeyDecrypt key ciphertext) (by decide)

theorem unwrapSessionKey (rsaKey : P.PKey) (signedMessage : SignedMessage) :
    R (unwrapSessionKey rsaKey signedMessage) := by
  unfold WidevineCdm.unwrapSessionKey
  split
  · exact hP.decryptOaepSha1 hR _ _
  · exact hR.pure _

theorem cmacAes (key data : Bytes) : R (Crypto.cmacAes key data) := by
  refine hR.bind (closed_require hR (hP.succeeds _) (by decide)) fun _ => ?_
  refine hR.bind (closed_require hR (hP.succeeds _) (by decide)) fun _ => ?_
  refine hR.bind (closed_require hR (hP.succeeds _) (by decide)) fun _ => ?_
  exact closed_demand hR (hP.cmacFinal key data) (by decide)

theorem deriveKeys (encContext macContext sessionKey : Bytes) :
    R (deriveKeys encContext macContext sessionKey) := by
  refine hR.bind (hP.cmacAes hR _ _) fun _ => ?_
  refine hR.bind (hP.cmacAes hR _ _) fun _ => ?_
  refine hR.bind (hP.cmacAes hR _ _) fun _ => ?_
  refine hR.bind (hP.cmacAes hR _ _) fun _ => ?_
  exact hR.bind (hP.cmacAes hR _ _) fun _ => hR.pure _

theorem hmacSha256 (key data : Bytes) : R (Crypto.hmacSha256 key data) :=
  hR.bind (hP.hmac key data) fun _ => hR.pure _

/-- Everything before the key extraction loop. -/
theorem openLicense (rsaKey : P.PKey) (contexts : Finmap fun _ : Bytes => Context)
    (licenseResponse : Bytes) : R (openLicense rsaKey contexts licenseResponse) := by
  refine hR.bind (hR.liftExcept fun _ => decodeLicense_known) ?_
  rintro ⟨signedMessage, license⟩
  dsimp only
  cases contexts.lookup license.requestIdD with
  | none => exact hR.throw (by decide)
  | some context =>
    refine hR.bind (hP.unwrapSessionKey hR _ _) fun _ => ?_
    refine hR.bind (hP.deriveKeys hR _ _ _) fun _ => ?_
    exact hR.bind (hP.hmacSha256 hR _ _) fun _ => hR.pure _

/-- `aes_cbc_decrypt` after its call has been recorded. -/
theorem aesCbcDecrypt_calls (key iv ciphertext : Bytes) :
    R (do
      Crypto.require .evpCipherCtxNew "Failed to create cipher context"
      Crypto.require (.evpDecryptInit key iv) "Failed to initialize decryption"
      Crypto.demand (P.evpDecryptUpdate ⟨key, iv, false⟩ ciphertext
        (Int32.ofNat ciphertext.length)) "Failed to decrypt") := by
  refine hR.bind (closed_require hR (hP.succeeds _) (by decide)) fun _ => ?_
  refine hR.bind (closed_require hR (hP.succeeds _) (by decide)) fun _ => ?_
  exact closed_demand hR (hP.evpDecryptUpdate _ ciphertext _) (by decide)

end Primitives

/-! ## Exceptions of the crypto wrappers -/

theorem throws_ask {α : Type} {E : Exn → Prop} (f : P.World → α × P.World) :
    Throws E (Crypto.ask f) := by
  intro s e s' h
  cases h

theorem throws_primitives : Primitives P (fun m => Throws Known m) where
  succeeds _ := throws_ask _
  evpPkeyDecrypt _ _ := throws_ask _
  cmacFinal _ _ := throws_ask _
  hmac _ _ := throws_ask _
  evpDecryptUpdate _ _ _ := throws_ask _

/-- What stops `parse_license` before its key extraction loop. -/
theorem throws_openLicense (rsaKey : P.PKey) (contexts : Finmap fun _ : Bytes => Context)
    (licenseResponse : Bytes) : Throws Known (openLicense rsaKey contexts licenseResponse) :=
  throws_primitives.openLicense (throws_closed Known) rsaKey contexts licenseResponse

theorem throws_randomBytes (n : Nat) :
    Throws (· = .runtimeError "Failed to generate random bytes")
      (Crypto.randomBytes (P := P) n) :=
  closed_demand (throws_closed (· = .runtimeError "Failed to generate random bytes"))
    (throws_ask _) rfl

theorem throws_randomBytes_known (n : Nat) : Throws Known (Crypto.randomBytes (P := P) n) :=
  closed_demand (throws_closed Known) (throws_ask _) (by decide)

theorem throws_signPssSha1 (key : P.PKey) (data : Bytes) :
    Throws Known (Crypto.signPssSha1 (P := P) key data) := by
  have hrequire : ∀ call what, Known (.runtimeError what) →
      Throws Known (Crypto.require (P := P) call what) := fun call what h =>
    closed_require (throws_closed Known) (throws_ask _) h
  refine throws_bind (hrequire _ _ (by decide)) fun _ => ?_
  refine throws_bind (hrequire _ _ (by decide)) fun _ => ?_
  refine throws_bind (hrequire _ _ (by decide)) fun _ => ?_
  refine throws_bind (hrequire _ _ (by decide)) fun _ => ?_
  refine throws_bind (hrequire _ _ (by decide)) fun _ => ?_
  refine throws_bind (hrequire _ _ (by decide)) fun _ => ?_
  exact closed_demand (throws_closed Known) (throws_ask _) (by decide)

/-! ## Exceptions of `get_license_challenge` -/

theorem throws_pushCounter (sessionNum : UInt32) (n i : Nat) (requestId : Bytes) :
    Throws Known (pushCounter (P := P) sessionNum n i requestId) := by
  induction n generalizing i requestId with
  | zero => exact throws_pure _
  | succ n ih =>
    refine throws_bind ?_ fun byte => ih _ _
    unfold shiftRight
    split
    · exact throws_pure _
    · exact throws_ask _

theorem throws_generateRequestId (type : DeviceType) (sessionNum : UInt32) :
    Throws Known (generateRequestId (P := P) type sessionNum) := by
  cases type with
  | CHROME => exact throws_bind (throws_randomBytes_known 16) fun _ => throws_pure _
  | ANDROID =>
    refine throws_bind (throws_randomBytes_known 4) fun _ => ?_
    exact throws_bind (throws_pushCounter _ _ _ _) fun _ => throws_pure _

theorem throws_keyControlNonce : Throws Known (keyControlNonce (P := P)) := by
  refine throws_bind (throws_randomBytes_known 4) fun _ => ?_
  refine throws_bind (throws_randomBytes_known 4) fun _ => ?_
  refine throws_bind (throws_randomBytes_known 4) fun _ => ?_
  exact throws_bind (throws_randomBytes_known 4) fun _ => throws_pure _

theorem throws_buildChallenge (impl : Impl P) (session : SessionState) (pssh : Pssh)
    (licenseType : LicenseType) :
    Throws Known (buildChallenge impl session pssh licenseType) := by
  unfold buildChallenge
  cases pssh.isWidevine with
  | false =>
    intro host e host' h
    have he : (.error (.runtimeError "PSSH is not Widevine"), host)
        = ((.error e, host') : Except Exn Challenge × Host P) := h
    cases he
    decide
  | true =>
    refine throws_bind (throws_generateRequestId _ _) fun _ => ?_
    refine throws_bind ((throws_closed Known).liftExcept fun _ => setContentId_known) fun _ => ?_
    refine throws_bind (throws_ask _) fun _ => ?_
    refine throws_bind throws_keyControlNonce fun _ => ?_
    exact throws_bind (throws_signPssSha1 _ _) fun _ => throws_pure _

end WidevineCdm
