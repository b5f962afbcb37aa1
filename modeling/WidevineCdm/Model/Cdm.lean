import WidevineCdm.Model.Crypto
import WidevineCdm.Model.Device
import WidevineCdm.Model.Pssh

/-!
# The CDM (`cdm.cpp`, `session.h`)

A `Machine` is the `CDM::Impl` object together with the outside world. Every
public operation of `CDM` is a computation over machines that returns or
throws; the writes it made before throwing stay. `auto& session = it->second`
is a reference into the map, so writing through it is `modifySession`.
-/

namespace WidevineCdm

open Lib Proto

/-- `struct Key` (cdm.h:19–27). -/
structure Key where
  kid : Bytes
  key : Bytes
  type : String
deriving DecidableEq, Repr

/-- `SessionState::Context` (session.h:20–23). -/
structure Context where
  encContext : Bytes
  macContext : Bytes
deriving DecidableEq, Repr

/-- `struct SessionState` (session.h:13–25). -/
structure SessionState where
  id : Bytes
  number : UInt32
  keys : List Key
  serviceCertificate : Bytes
  contexts : Finmap fun _ : Bytes => Context
deriving DecidableEq

/-- `class CDM::Impl` (cdm.cpp:89–95). -/
structure Impl (P : Platform) where
  device : Device
  rsaKey : P.PKey
  clientId : P.ClientIdentification
  sessions : Finmap fun _ : Bytes => SessionState
  sessionCounter : UInt32

/-- The members of a CDM object that no operation has been called on. -/
def Impl.fresh {P : Platform} (device : Device) (rsaKey : P.PKey)
    (clientId : P.ClientIdentification) : Impl P :=
  { device, rsaKey, clientId, sessions := ∅, sessionCounter := 0 }

/-- The CDM object and the outside world. -/
structure Machine (P : Platform) where
  host : Host P
  impl : Impl P

abbrev CdmM (P : Platform) := EStateM Exn (Machine P)

/-! ## Key derivation -/

/-- `x` as four bytes, most significant first, as the code pushes them. -/
def pushBe32 (x : UInt32) : Bytes :=
  [((x >>> 24) &&& 0xFF).toUInt8, ((x >>> 16) &&& 0xFF).toUInt8,
   ((x >>> 8) &&& 0xFF).toUInt8, (x &&& 0xFF).toUInt8]

/-- `derive_context` (cdm.cpp:14–42). -/
def deriveContext (message : Bytes) : Context where
  encContext := ascii "ENCRYPTION" ++ [0x00] ++ message ++ pushBe32 128
  macContext := ascii "AUTHENTICATION" ++ [0x00] ++ message ++ pushBe32 512

/-- `struct DerivedKeys` (cdm.cpp:56–60). -/
structure DerivedKeys where
  encKey : Bytes
  macKeyClient : Bytes
  macKeyServer : Bytes
deriving DecidableEq, Repr

variable {P : Platform}

/-- `derive_key` (cdm.cpp:44–54). -/
def deriveKey (sessionKey context : Bytes) (counter : UInt8) : CryptoM P Bytes :=
  Crypto.cmacAes sessionKey (counter :: context)

/-- `derive_keys` (cdm.cpp:62–87). -/
def deriveKeys (encContext macContext sessionKey : Bytes) : CryptoM P DerivedKeys := do
  let encKey ← deriveKey sessionKey encContext 1
  let macServer1 ← deriveKey sessionKey macContext 1
  let macServer2 ← deriveKey sessionKey macContext 2
  let macClient3 ← deriveKey sessionKey macContext 3
  let macClient4 ← deriveKey sessionKey macContext 4
  return { encKey, macKeyClient := macClient3 ++ macClient4,
           macKeyServer := macServer1 ++ macServer2 }

/-! ## Access to the object -/

/-- Run a crypto computation against the outside world. -/
def crypto {α : Type} (m : CryptoM P α) : CdmM P α :=
  zoom Machine.host (fun host machine => { machine with host }) m

def getImpl : CdmM P (Impl P) := do
  return (← get).impl

def modifyImpl (f : Impl P → Impl P) : CdmM P Unit :=
  modify fun machine => { machine with impl := f machine.impl }

/-- Write through a reference to the session stored under `sessionId`. -/
def Impl.modifySession (impl : Impl P) (sessionId : Bytes) (f : SessionState → SessionState) :
    Impl P :=
  match impl.sessions.lookup sessionId with
  | some session => { impl with sessions := impl.sessions.insert sessionId (f session) }
  | none => impl

/-- `sessions_.find(session_id)`, throwing when it is `end()`. -/
def findSession (sessionId : Bytes) : CdmM P SessionState := do
  match (← getImpl).sessions.lookup sessionId with
  | some session => pure session
  | none => throw (.runtimeError "Invalid session ID")

/-! ## `CDM::Impl` -/

/-- The constructor of `CDM::Impl` (cdm.cpp:97–115). -/
def newImpl (device : Device) : CryptoM P (Impl P) := do
  let rsaKey ← Crypto.rsaFromPkcs8Der device.privateKey
  match P.parseClientIdentification device.clientId with
  | none => throw (.runtimeError "Failed to parse client ID")
  | some clientId =>
    if !P.isInitialized clientId then
      throw (.runtimeError "Client ID not fully initialized")
    if P.byteSizeLong clientId > 10000 then
      throw (.runtimeError
        ("Client ID suspiciously large: " ++ toString (P.byteSizeLong clientId) ++ " bytes"))
    return Impl.fresh device rsaKey clientId

/-- `CDM::Impl::generate_session_id` (cdm.cpp:117–130). -/
def generateSessionId : CdmM P Bytes := do
  modifyImpl fun impl => { impl with sessionCounter := impl.sessionCounter + 1 }
  let random ← crypto (Crypto.randomBytes 12)
  return random.toList ++ pushBe32 (← getImpl).sessionCounter

/-- `x >> s` for a 32-bit `x`: whatever the platform yields when `s` is not
below the width. -/
def shiftRight (x : UInt32) (s : Nat) : CryptoM P UInt32 :=
  if s < 32 then pure (x >>> UInt32.ofNat s) else Crypto.ask (P.wideShift x s)

/-- The loop `for (int i = 0; i < 8; i++)` of `generate_request_id`
(cdm.cpp:141–143), with `n` iterations to go. -/
def pushCounter (sessionNum : UInt32) : Nat → Nat → Bytes → CryptoM P Bytes
  | 0, _, requestId => pure requestId
  | n + 1, i, requestId => do
    let byte ← shiftRight sessionNum (i * 8)
    pushCounter sessionNum n (i + 1) (requestId ++ [(byte &&& 0xFF).toUInt8])

/-- `CDM::Impl::generate_request_id` (cdm.cpp:132–157). -/
def generateRequestId (type : DeviceType) (sessionNum : UInt32) : CryptoM P Bytes := do
  if type = .ANDROID then
    -- Android: 4 random bytes + 4 zeros + 8 byte counter (hex encoded)
    let random ← Crypto.randomBytes 4
    let requestId ← pushCounter sessionNum 8 0 (random.toList ++ List.replicate 4 0x00)
    return hexBytes requestId
  else
    -- Chrome: 16 random bytes
    return (← Crypto.randomBytes 16).toList

/-! ## Sessions -/

/-- `CDM::open_session` (cdm.cpp:165–176). -/
def openSession : CdmM P Bytes := do
  if (← getImpl).sessions.keys.card ≥ 16 then
    throw (.runtimeError "Too many sessions open (max 16)")
  let id ← generateSessionId
  let number := (← getImpl).sessionCounter
  let session : SessionState :=
    { id, number, keys := [], serviceCertificate := [], contexts := ∅ }
  modifyImpl fun impl => { impl with sessions := impl.sessions.insert session.id session }
  return session.id

/-- `CDM::close_session` (cdm.cpp:178–180). -/
def closeSession (sessionId : Bytes) : CdmM P Unit :=
  modifyImpl fun impl => { impl with sessions := impl.sessions.erase sessionId }

/-- `CDM::set_service_certificate` (cdm.cpp:182–192). Nothing reads the
certificate but `get_license_challenge`, and it encrypts nothing under it. -/
def setServiceCertificate (sessionId certificate : Bytes) : CdmM P Unit := do
  let _ ← findSession sessionId
  modifyImpl fun impl => impl.modifySession sessionId fun session =>
    { session with serviceCertificate := certificate }

/-! ## License challenges -/

/-- The content id of a request (cdm.cpp:228–259); its `catch` block prefixes
what the `try` block throws. -/
def setContentId (pssh : Pssh) (licenseType : LicenseType) (requestId : Bytes) :
    Except Exn ContentIdentification :=
  tryCatch
    (do
      if pssh.initData.isEmpty then
        throw (.runtimeError "PSSH init_data is empty")
      if pssh.initData.length > 100000 then
        throw (.runtimeError
          ("PSSH init_data suspiciously large: " ++ toString pssh.initData.length))
      return { widevinePsshData := some {
        psshData := [pssh.initData]
        licenseType := some licenseType
        requestId := some requestId } })
    (fun e => throw (e.rethrow "Failed to set content_id: "))

/-- The key control nonce (cdm.cpp:267–271): one byte of each of four draws. -/
def keyControlNonce : CryptoM P UInt32 := do
  let r0 ← Crypto.randomBytes 4
  let r1 ← Crypto.randomBytes 4
  let r2 ← Crypto.randomBytes 4
  let r3 ← Crypto.randomBytes 4
  let nonce := (r0.get 0).toUInt32 ||| ((r1.get 1).toUInt32 <<< 8)
    ||| ((r2.get 2).toUInt32 <<< 16) ||| ((r3.get 3).toUInt32 <<< 24)
  return nonce &&& 0x7FFFFFFF

/-- `CDM::get_license_challenge` (cdm.cpp:194–300). -/
def getLicenseChallenge (sessionId : Bytes) (pssh : Pssh) (licenseType : LicenseType)
    (privacyMode : Bool) : CdmM P Bytes := do
  let session ← findSession sessionId
  if !pssh.isWidevine then
    throw (.runtimeError "PSSH is not Widevine")
  let impl ← getImpl
  let requestId ← crypto (generateRequestId impl.device.type session.number)
  -- Both branches copy the plain client id (encryption is a TODO)
  let clientId :=
    if !privacyMode || session.serviceCertificate.isEmpty then impl.clientId
    else impl.clientId
  let contentId ← liftExcept (setContentId pssh licenseType requestId)
  let requestTime ← crypto (Crypto.ask P.time)
  let nonce ← crypto keyControlNonce
  let licenseRequest : LicenseRequest P.ClientIdentification :=
    { clientId := some clientId
      contentId := some contentId
      type := some .NEW
      requestTime := some requestTime
      protocolVersion := some .VERSION_2_1
      keyControlNonce := some nonce }
  let licenseRequestBytes := P.serializeLicenseRequest licenseRequest
  -- Sign with RSA
  let signature ← crypto (Crypto.signPssSha1 impl.rsaKey licenseRequestBytes)
  let signedMessage : SignedMessage :=
    { type := some .LICENSE_REQUEST
      msg := some licenseRequestBytes
      signature := some signature }
  -- Store context for later key derivation
  modifyImpl fun impl => impl.modifySession sessionId fun session =>
    { session with
      contexts := session.contexts.insert requestId (deriveContext licenseRequestBytes) }
  return P.serializeSignedMessage signedMessage

/-! ## License responses -/

/-- The checks of `parse_license` on the response bytes (cdm.cpp:313–328). -/
def decodeLicense (licenseResponse : Bytes) : Except Exn (SignedMessage × License) :=
  match P.parseSignedMessage licenseResponse with
  | none => .error (.runtimeError "Failed to parse license response")
  | some signedMessage =>
    if signedMessage.typeD ≠ .LICENSE then
      .error (.runtimeError "Response is not a LICENSE message")
    else
      match P.parseLicense signedMessage.msgD with
      | none => .error (.runtimeError "Failed to parse license")
      | some license => .ok (signedMessage, license)

/-- The session key of a response (cdm.cpp:341–354). -/
def unwrapSessionKey (rsaKey : P.PKey) (signedMessage : SignedMessage) : CryptoM P Bytes :=
  if !signedMessage.sessionKeyD.isEmpty then
    Crypto.decryptOaepSha1 rsaKey signedMessage.sessionKeyD
  else
    -- Some licenses don't have session key, use zeros
    pure (List.replicate 16 0)

/-- What the signature of a response covers (cdm.cpp:359–368). -/
def msgToSign (signedMessage : SignedMessage) : Bytes :=
  (if signedMessage.oemcryptoCoreMessage.isSome
      && !signedMessage.oemcryptoCoreMessageD.isEmpty
    then signedMessage.oemcryptoCoreMessageD else [])
  ++ signedMessage.msgD

/-- The loop that verifies the padding bytes (cdm.cpp:404–409): `n` positions
from `i` on are still to be compared. -/
def validPadding (key : Bytes) (padding : UInt8) : Nat → Nat → Except Exn Bool
  | 0, _ => .ok true
  | n + 1, i => do
    let byte ← element key i
    if byte ≠ padding then return false
    validPadding key padding n (i + 1)

/-- PKCS7 removal (cdm.cpp:398–415). -/
def stripPadding (key : Bytes) : Except Exn Bytes := do
  if key.isEmpty then return key
  let padding ← element key (key.length - 1)
  if padding > 0 ∧ padding ≤ 16 ∧ padding.toNat ≤ key.length then
    if ← validPadding key padding padding.toNat (key.length - padding.toNat) then
      return key.take (key.length - padding.toNat)
  return key

/-- The body of the key extraction loop up to `push_back` (cdm.cpp:385–420). -/
def extractKey (encKey : Bytes) (keyContainer : KeyContainer) : CryptoM P Key := do
  let decrypted ← Crypto.aesCbcDecrypt encKey keyContainer.ivD keyContainer.keyD
  let key ← liftExcept (stripPadding decrypted)
  return { kid := keyContainer.idD, key, type := keyContainer.typeD.name }

/-- The key extraction loop (cdm.cpp:384–423). -/
def extractKeys (sessionId encKey : Bytes) : List KeyContainer → CdmM P Unit
  | [] => pure ()
  | keyContainer :: rest => do
    let key ← crypto (extractKey encKey keyContainer)
    modifyImpl fun impl => impl.modifySession sessionId fun session =>
      { session with keys := session.keys ++ [key] }
    extractKeys sessionId encKey rest

/-- `CDM::parse_license` (cdm.cpp:302–430). -/
def parseLicense (sessionId licenseResponse : Bytes) : CdmM P Unit := do
  let session ← findSession sessionId
  let (signedMessage, license) ← liftExcept (decodeLicense (P := P) licenseResponse)
  -- Get request ID to find context
  let requestId := license.requestIdD
  match session.contexts.lookup requestId with
  | none => throw (.runtimeError "No context found for this license")
  | some context =>
    let sessionKey ← crypto (unwrapSessionKey (← getImpl).rsaKey signedMessage)
    let derived ← crypto (deriveKeys context.encContext context.macContext sessionKey)
    let computedMac ← crypto (Crypto.hmacSha256 derived.macKeyServer (msgToSign signedMessage))
    -- Signature verification - skip for now
    if false && computedMac != signedMessage.signatureD then
      throw (.runtimeError "License signature verification failed")
    tryCatch (extractKeys sessionId derived.encKey license.key)
      (fun e => throw (e.rethrow "Failed to extract keys: "))
    -- Clean up context
    modifyImpl fun impl => impl.modifySession sessionId fun session =>
      { session with contexts := session.contexts.erase requestId }

/-- `CDM::get_keys` (cdm.cpp:432–452). -/
def getKeys (sessionId : Bytes) (type : String) : CdmM P (List Key) := do
  let session ← findSession sessionId
  if type.isEmpty then
    return session.keys
  return session.keys.filter fun key => key.type == type

/-! ## Runs -/

/-- A call of a public member of `CDM`. -/
inductive Op where
  | openSession
  | closeSession (sessionId : Bytes)
  | setServiceCertificate (sessionId certificate : Bytes)
  | getLicenseChallenge (sessionId : Bytes) (pssh : Pssh) (licenseType : LicenseType)
      (privacyMode : Bool)
  | parseLicense (sessionId licenseResponse : Bytes)
  | getKeys (sessionId : Bytes) (type : String)
deriving DecidableEq

/-- What a call returns. -/
inductive Reply where
  | sessionId (id : Bytes)
  | done
  | challenge (c : Bytes)
  | keys (ks : List Key)
deriving DecidableEq

/-- The call as a computation. -/
def Op.run : Op → CdmM P Reply
  | .openSession => Reply.sessionId <$> WidevineCdm.openSession
  | .closeSession sessionId => do
    WidevineCdm.closeSession sessionId
    return .done
  | .setServiceCertificate sessionId certificate => do
    WidevineCdm.setServiceCertificate sessionId certificate
    return .done
  | .getLicenseChallenge sessionId pssh licenseType privacyMode =>
    Reply.challenge <$>
      WidevineCdm.getLicenseChallenge sessionId pssh licenseType privacyMode
  | .parseLicense sessionId licenseResponse => do
    WidevineCdm.parseLicense sessionId licenseResponse
    return .done
  | .getKeys sessionId type => Reply.keys <$> WidevineCdm.getKeys sessionId type

/-- One call on a machine: what it ends in and the machine it leaves. -/
def step (machine : Machine P) (op : Op) : Except Exn Reply × Machine P :=
  exec op.run machine

/-- A fresh CDM object in a given world. -/
def Machine.fresh (device : Device) (rsaKey : P.PKey) (clientId : P.ClientIdentification)
    (world : P.World) : Machine P :=
  { host := { world, aesCalls := [] }, impl := Impl.fresh device rsaKey clientId }

end WidevineCdm
