import WidevineCdm.Model.Cdm

/-!
# What each operation does

One equation per public operation, in terms of a computation that touches the
outside world only (`buildChallenge`, `openLicense`, `extractAll`) and of the
change it makes to the object. Everything later about sessions is derived
from these equations, so a change in the body of an operation is absorbed
here.
-/

namespace WidevineCdm

open Lib Proto

variable {P : Platform}

/-- The exception of an operation on an id that names no session. -/
def invalidSession : Exn := .runtimeError "Invalid session ID"

/-- The exception of `open_session` when 16 sessions are open. -/
def tooManySessions : Exn := .runtimeError "Too many sessions open (max 16)"

/-! ## Access -/

@[simp] theorem exec_crypto {α : Type} (m : CryptoM P α) (M : Machine P) :
    exec (crypto m) M = ((exec m M.host).1, { M with host := (exec m M.host).2 }) :=
  exec_zoom ..

@[simp] theorem exec_getImpl (M : Machine P) : exec (getImpl : CdmM P _) M = (.ok M.impl, M) := rfl

@[simp] theorem exec_modifyImpl (f : Impl P → Impl P) (M : Machine P) :
    exec (modifyImpl f) M = (.ok (), { M with impl := f M.impl }) := rfl

theorem exec_findSession_some {M : Machine P} {S : Bytes} {s : SessionState}
    (h : M.impl.sessions.lookup S = some s) : exec (findSession S) M = (.ok s, M) := by
  rw [findSession, exec_bind_ok (exec_getImpl M), h]
  rfl

theorem exec_findSession_none {M : Machine P} {S : Bytes}
    (h : M.impl.sessions.lookup S = none) :
    exec (findSession S) M = (.error invalidSession, M) := by
  rw [findSession, exec_bind_ok (exec_getImpl M), h]
  rfl

/-- The object with `s` stored under the id `S`. -/
def Impl.store (impl : Impl P) (S : Bytes) (s : SessionState) : Impl P :=
  { impl with sessions := impl.sessions.insert S s }

@[simp] theorem store_lookup_self (impl : Impl P) (S : Bytes) (s : SessionState) :
    (impl.store S s).sessions.lookup S = some s :=
  Finmap.lookup_insert _

theorem store_lookup_ne {S T : Bytes} (h : T ≠ S) (impl : Impl P) (s : SessionState) :
    (impl.store S s).sessions.lookup T = impl.sessions.lookup T :=
  Finmap.lookup_insert_of_ne _ h

/-- Storing over a stored session replaces it. -/
@[simp] theorem store_store (impl : Impl P) (S : Bytes) (s t : SessionState) :
    (impl.store S s).store S t = impl.store S t := by
  simp [Impl.store]

/-- Storing back what is stored changes nothing. -/
theorem store_self {impl : Impl P} {S : Bytes} {s : SessionState}
    (h : impl.sessions.lookup S = some s) : impl.store S s = impl := by
  have hs : impl.sessions.insert S s = impl.sessions := by
    refine Finmap.ext_lookup fun T => ?_
    by_cases hT : T = S
    · rw [hT, Finmap.lookup_insert, h]
    · exact Finmap.lookup_insert_of_ne _ hT
  rw [Impl.store, hs]

/-- Writing through a reference to an open session. -/
theorem modifySession_some {impl : Impl P} {S : Bytes} {s : SessionState}
    (h : impl.sessions.lookup S = some s) (f : SessionState → SessionState) :
    impl.modifySession S f = impl.store S (f s) := by
  rw [Impl.modifySession, h]
  rfl

/-! ## `open_session`, `close_session`, `set_service_certificate` -/

/-- A session as `open_session` stores it. -/
def newSession (id : Bytes) (number : UInt32) : SessionState :=
  { id, number, keys := [], serviceCertificate := [], contexts := ∅ }

theorem exec_openSession_full {M : Machine P} (h : 16 ≤ M.impl.sessions.keys.card) :
    exec openSession M = (.error tooManySessions, M) := by
  rw [openSession, exec_bind_ok (exec_getImpl M), if_pos h]
  rfl

/-- The object after `generate_session_id` counted one more session. -/
def Impl.count (impl : Impl P) : Impl P :=
  { impl with sessionCounter := impl.sessionCounter + 1 }

/-- The id made of 12 random bytes and the counter. -/
def sessionIdOf (random : List.Vector UInt8 12) (counter : UInt32) : Bytes :=
  random.toList ++ pushBe32 counter

theorem exec_openSession {M : Machine P} (h : M.impl.sessions.keys.card < 16) :
    exec openSession M =
      match exec (Crypto.randomBytes 12) M.host with
      | (.error e, host) => (.error e, ⟨host, M.impl.count⟩)
      | (.ok random, host) =>
        (.ok (sessionIdOf random M.impl.count.sessionCounter),
          ⟨host, M.impl.count.store (sessionIdOf random M.impl.count.sessionCounter)
            (newSession (sessionIdOf random M.impl.count.sessionCounter)
              M.impl.count.sessionCounter)⟩) := by
  rw [openSession, exec_bind_ok (exec_getImpl M), if_neg (Nat.not_le.mpr h)]
  simp only [generateSessionId, exec_bind, exec_modifyImpl, exec_crypto]
  rcases exec (Crypto.randomBytes 12) M.host with ⟨_ | random, host⟩ <;> rfl

theorem exec_closeSession (S : Bytes) (M : Machine P) :
    exec (closeSession S) M =
      (.ok (), { M with impl := { M.impl with sessions := M.impl.sessions.erase S } }) := rfl

theorem exec_setServiceCertificate {M : Machine P} {S : Bytes} {s : SessionState}
    (h : M.impl.sessions.lookup S = some s) (certificate : Bytes) :
    exec (setServiceCertificate S certificate) M =
      (.ok (), ⟨M.host, M.impl.store S { s with serviceCertificate := certificate }⟩) := by
  rw [setServiceCertificate, exec_bind_ok (exec_findSession_some h), exec_modifyImpl,
    modifySession_some h]

/-! ## `get_license_challenge` -/

/-- A challenge under construction: the request id, the serialised request
and its signature. -/
structure Challenge where
  requestId : Bytes
  msg : Bytes
  signature : Bytes

/-- The message a challenge is sent as. -/
def Challenge.signedMessage (c : Challenge) : SignedMessage :=
  { type := some .LICENSE_REQUEST, msg := some c.msg, signature := some c.signature }

/-- Everything `get_license_challenge` does between finding the session and
storing the context. -/
def buildChallenge (impl : Impl P) (session : SessionState) (pssh : Pssh)
    (licenseType : LicenseType) : CryptoM P Challenge := do
  if !pssh.isWidevine then
    throw (.runtimeError "PSSH is not Widevine")
  let requestId ← generateRequestId impl.device.type session.number
  let contentId ← liftExcept (setContentId pssh licenseType requestId)
  let requestTime ← Crypto.ask P.time
  let nonce ← keyControlNonce
  let msg := P.serializeLicenseRequest
    { clientId := some impl.clientId
      contentId := some contentId
      type := some .NEW
      requestTime := some requestTime
      protocolVersion := some .VERSION_2_1
      keyControlNonce := some nonce }
  let signature ← Crypto.signPssSha1 impl.rsaKey msg
  return { requestId, msg, signature }

theorem exec_getLicenseChallenge {M : Machine P} {S : Bytes} {s : SessionState}
    (h : M.impl.sessions.lookup S = some s) (pssh : Pssh) (licenseType : LicenseType)
    (privacyMode : Bool) :
    exec (getLicenseChallenge S pssh licenseType privacyMode) M =
      match exec (buildChallenge M.impl s pssh licenseType) M.host with
      | (.error e, host) => (.error e, { M with host })
      | (.ok c, host) =>
        (.ok (P.serializeSignedMessage c.signedMessage),
          ⟨host, M.impl.store S
            { s with contexts := s.contexts.insert c.requestId (deriveContext c.msg) }⟩) := by
  rw [getLicenseChallenge, exec_bind_ok (exec_findSession_some h), buildChallenge]
  cases pssh.isWidevine with
  | false => rfl
  | true =>
    simp only [ite_self, Bool.not_true, Bool.false_eq_true, if_false, exec_bind, exec_pure,
      exec_getImpl, exec_crypto]
    rcases exec (generateRequestId M.impl.device.type s.number) M.host with ⟨_ | requestId, h1⟩
    · rfl
    simp only [exec_liftExcept]
    cases setContentId pssh licenseType requestId with
    | error e => rfl
    | ok contentId =>
      simp only
      rcases exec (Crypto.ask P.time) h1 with ⟨_ | requestTime, h2⟩
      · rfl
      simp only
      rcases exec keyControlNonce h2 with ⟨_ | nonce, h3⟩
      · rfl
      simp only
      rcases exec (Crypto.signPssSha1 M.impl.rsaKey _) h3 with ⟨_ | signature, h4⟩
      · rfl
      simp only [exec_modifyImpl, modifySession_some h]
      rfl

/-! ## `parse_license` -/

/-- What `parse_license` has computed when its key extraction loop starts. -/
structure OpenedLicense where
  signedMessage : SignedMessage
  license : License
  sessionKey : Bytes
  derived : DerivedKeys
  computedMac : Bytes

/-- Everything `parse_license` does between finding the session and its key
extraction loop. The MAC is computed and not looked at. -/
def openLicense (rsaKey : P.PKey) (contexts : Finmap fun _ : Bytes => Context)
    (licenseResponse : Bytes) : CryptoM P OpenedLicense := do
  let (signedMessage, license) ← liftExcept (decodeLicense (P := P) licenseResponse)
  match contexts.lookup license.requestIdD with
  | none => throw (.runtimeError "No context found for this license")
  | some context =>
    let sessionKey ← unwrapSessionKey rsaKey signedMessage
    let derived ← deriveKeys context.encContext context.macContext sessionKey
    let computedMac ← Crypto.hmacSha256 derived.macKeyServer (msgToSign signedMessage)
    return { signedMessage, license, sessionKey, derived, computedMac }

/-- A licence that was serialised decodes. -/
theorem decodeLicense_serialize (hcodec : P.LawfulCodec) {m : SignedMessage} {l : License}
    (htype : m.typeD = .LICENSE) (hmsg : m.msgD = P.serializeLicense l) :
    decodeLicense (P := P) (P.serializeSignedMessage m) = .ok (m, l) := by
  rw [decodeLicense, hcodec.signedMessage]
  dsimp only
  rw [htype, hmsg, hcodec.license]
  rfl

/-- The keys of the containers up to the first that throws, and what it
throws. -/
def extractAll (encKey : Bytes) : List KeyContainer → Host P → (List Key × Option Exn) × Host P
  | [], host => (([], none), host)
  | keyContainer :: rest, host =>
    match exec (extractKey encKey keyContainer) host with
    | (.error e, host) => (([], some e), host)
    | (.ok key, host) =>
      ((key :: (extractAll encKey rest host).1.1, (extractAll encKey rest host).1.2),
        (extractAll encKey rest host).2)

/-- The session after its key extraction loop pushed `keys`. -/
def SessionState.pushKeys (s : SessionState) (keys : List Key) : SessionState :=
  { s with keys := s.keys ++ keys }

@[simp] theorem pushKeys_nil (s : SessionState) : s.pushKeys [] = s := by
  simp [SessionState.pushKeys]

/-- The loop appends the extracted keys to the session, also when it throws. -/
theorem exec_extractKeys (S encKey : Bytes) (cs : List KeyContainer) {M : Machine P}
    {s : SessionState} (h : M.impl.sessions.lookup S = some s) :
    exec (extractKeys S encKey cs) M =
      (match (extractAll encKey cs M.host).1.2 with
        | none => .ok ()
        | some e => .error e,
        ⟨(extractAll encKey cs M.host).2,
          M.impl.store S (s.pushKeys (extractAll encKey cs M.host).1.1)⟩) := by
  induction cs generalizing M s with
  | nil =>
    simp only [extractKeys, extractAll, exec_pure, pushKeys_nil, store_self h]
  | cons c rest ih =>
    rw [extractKeys, exec_bind, exec_crypto, extractAll]
    rcases exec (extractKey encKey c) M.host with ⟨e | key, h1⟩
    · simp only [pushKeys_nil, store_self h]
    · simp only [exec_bind, exec_modifyImpl, modifySession_some h]
      rw [ih (store_lookup_self ..)]
      simp [SessionState.pushKeys]

/-- What `parse_license` leaves of a session: the keys pushed, and the
context removed when every container was extracted. -/
def SessionState.licensed (s : SessionState) (requestId : Bytes) :
    List Key × Option Exn → SessionState
  | (keys, none) => { s.pushKeys keys with contexts := s.contexts.erase requestId }
  | (keys, some _) => s.pushKeys keys

theorem exec_parseLicense {M : Machine P} {S : Bytes} {s : SessionState}
    (h : M.impl.sessions.lookup S = some s) (licenseResponse : Bytes) :
    exec (parseLicense S licenseResponse) M =
      match exec (openLicense M.impl.rsaKey s.contexts licenseResponse) M.host with
      | (.error e, host) => (.error e, { M with host })
      | (.ok opened, host) =>
        (match (extractAll opened.derived.encKey opened.license.key host).1.2 with
          | none => .ok ()
          | some e => .error (e.rethrow "Failed to extract keys: "),
          ⟨(extractAll opened.derived.encKey opened.license.key host).2,
            M.impl.store S (s.licensed opened.license.requestIdD
              (extractAll opened.derived.encKey opened.license.key host).1)⟩) := by
  rw [parseLicense, exec_bind_ok (exec_findSession_some h), openLicense]
  simp only [exec_bind, exec_liftExcept]
  rcases decodeLicense (P := P) licenseResponse with e | ⟨signedMessage, license⟩
  · rfl
  simp only
  cases s.contexts.lookup license.requestIdD with
  | none => rfl
  | some context =>
    simp only [exec_bind, exec_getImpl, exec_crypto]
    rcases exec (unwrapSessionKey M.impl.rsaKey signedMessage) M.host with ⟨_ | sessionKey, h1⟩
    · rfl
    simp only
    rcases exec (deriveKeys context.encContext context.macContext sessionKey) h1
      with ⟨_ | derived, h2⟩
    · rfl
    simp only
    rcases exec (Crypto.hmacSha256 derived.macKeyServer (msgToSign signedMessage)) h2
      with ⟨_ | mac, h3⟩
    · rfl
    simp only [Bool.false_and, Bool.false_eq_true, if_false, exec_pure]
    rw [exec_bind, exec_tryCatch, exec_extractKeys (M := ⟨h3, M.impl⟩) S _ _ h]
    rcases extractAll derived.encKey license.key h3 with ⟨⟨keys, failure⟩, h4⟩
    cases failure with
    | some e => rfl
    | none =>
      simp only [exec_modifyImpl, modifySession_some (store_lookup_self ..), store_store]
      rfl

/-! ## `get_keys` -/

theorem exec_getKeys {M : Machine P} {S : Bytes} {s : SessionState}
    (h : M.impl.sessions.lookup S = some s) (type : String) :
    exec (getKeys S type) M =
      (.ok (if type.isEmpty then s.keys else s.keys.filter fun key => key.type == type), M) := by
  rw [getKeys, exec_bind_ok (exec_findSession_some h)]
  cases type.isEmpty <;> rfl

end WidevineCdm
