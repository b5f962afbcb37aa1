import WidevineCdm.Model.Types

/-!
# What the library is linked against

The protobuf messages of `license_protocol.proto` with the fields the code
sets or reads, and the `Platform`: the generated protobuf code, libcrypto and
the clock, none of which is part of the repository. A platform has a `World`
of hidden state that every impure call may read and change, so its answers
are arbitrary from call to call: random bytes may repeat, the clock may jump,
an allocation may fail. Nothing about a platform is assumed here; what a
result needs of it is a hypothesis of that result.
-/

namespace WidevineCdm

open Lib

/-! ## Messages -/

namespace Proto

/-- `SignedMessage.MessageType` (license_protocol.proto:377–388). -/
inductive MessageType where
  | LICENSE_REQUEST
  | LICENSE
  | ERROR_RESPONSE
  | SERVICE_CERTIFICATE_REQUEST
  | SERVICE_CERTIFICATE
  | SUB_LICENSE
  | CAS_LICENSE_REQUEST
  | CAS_LICENSE
  | EXTERNAL_LICENSE_REQUEST
  | EXTERNAL_LICENSE
deriving DecidableEq, Repr

/-- `SignedMessage`, the fields the code sets or reads. -/
structure SignedMessage where
  type : Option MessageType := none
  msg : Option Bytes := none
  signature : Option Bytes := none
  sessionKey : Option Bytes := none
  oemcryptoCoreMessage : Option Bytes := none
deriving DecidableEq, Repr

/-- `type()`: the first value of the enumeration unless the field is set. -/
def SignedMessage.typeD (m : SignedMessage) : MessageType := m.type.getD .LICENSE_REQUEST

/-- `msg()`. -/
def SignedMessage.msgD (m : SignedMessage) : Bytes := m.msg.getD []

/-- `signature()`. -/
def SignedMessage.signatureD (m : SignedMessage) : Bytes := m.signature.getD []

/-- `session_key()`. -/
def SignedMessage.sessionKeyD (m : SignedMessage) : Bytes := m.sessionKey.getD []

/-- `oemcrypto_core_message()`. -/
def SignedMessage.oemcryptoCoreMessageD (m : SignedMessage) : Bytes :=
  m.oemcryptoCoreMessage.getD []

/-- `License.KeyContainer.KeyType` (license_protocol.proto:114–121). -/
inductive KeyType where
  | SIGNING
  | CONTENT
  | KEY_CONTROL
  | OPERATOR_SESSION
  | ENTITLEMENT
  | OEM_CONTENT
deriving DecidableEq, Repr

/-- `KeyType_Name`. -/
def KeyType.name : KeyType → String
  | .SIGNING => "SIGNING"
  | .CONTENT => "CONTENT"
  | .KEY_CONTROL => "KEY_CONTROL"
  | .OPERATOR_SESSION => "OPERATOR_SESSION"
  | .ENTITLEMENT => "ENTITLEMENT"
  | .OEM_CONTENT => "OEM_CONTENT"

/-- `License.KeyContainer`. -/
structure KeyContainer where
  id : Option Bytes := none
  iv : Option Bytes := none
  key : Option Bytes := none
  type : Option KeyType := none
deriving DecidableEq, Repr

/-- `id()`. -/
def KeyContainer.idD (c : KeyContainer) : Bytes := c.id.getD []

/-- `iv()`. -/
def KeyContainer.ivD (c : KeyContainer) : Bytes := c.iv.getD []

/-- `key()`. -/
def KeyContainer.keyD (c : KeyContainer) : Bytes := c.key.getD []

/-- `type()`. -/
def KeyContainer.typeD (c : KeyContainer) : KeyType := c.type.getD .SIGNING

/-- `LicenseIdentification`. -/
structure LicenseIdentification where
  requestId : Option Bytes := none
deriving DecidableEq, Repr

/-- `License`. -/
structure License where
  id : Option LicenseIdentification := none
  key : List KeyContainer := []
deriving DecidableEq, Repr

/-- `id().request_id()`. -/
def License.requestIdD (l : License) : Bytes := ((l.id.bind (·.requestId)).getD [])

/-- `LicenseRequest.ContentIdentification.WidevinePsshData`. -/
structure WidevinePsshData where
  psshData : List Bytes := []
  licenseType : Option LicenseType := none
  requestId : Option Bytes := none
deriving DecidableEq, Repr

/-- `LicenseRequest.ContentIdentification`, the variant the code sets. -/
structure ContentIdentification where
  widevinePsshData : Option WidevinePsshData := none
deriving DecidableEq, Repr

/-- `LicenseRequest.RequestType`. -/
inductive RequestType where
  | NEW
  | RENEWAL
  | RELEASE
deriving DecidableEq, Repr

/-- `ProtocolVersion`. -/
inductive ProtocolVersion where
  | VERSION_2_0
  | VERSION_2_1
  | VERSION_2_2
deriving DecidableEq, Repr

/-- `LicenseRequest`, the fields the code sets; `C` is the generated
`ClientIdentification` class, which the code only copies. -/
structure LicenseRequest (C : Type) where
  clientId : Option C := none
  contentId : Option ContentIdentification := none
  type : Option RequestType := none
  requestTime : Option Int64 := none
  protocolVersion : Option ProtocolVersion := none
  keyControlNonce : Option UInt32 := none
deriving DecidableEq, Repr

end Proto

/-! ## The platform -/

/-- The libcrypto calls that only report success, with what they were given. -/
inductive LibCall (PKey : Type) where
  | evpMdCtxNew
  | evpDigestSignInit (key : PKey)
  | evpPssPadding (key : PKey)
  | evpPssSaltlen (key : PKey)
  | evpDigestSignUpdate (key : PKey) (data : Bytes)
  | evpDigestSignLength (key : PKey) (data : Bytes)
  | evpPkeyCtxNew (key : PKey)
  | evpPkeyDecryptInit (key : PKey)
  | evpOaepPadding (key : PKey)
  | evpOaepMd (key : PKey)
  | evpMgf1Md (key : PKey)
  | evpPkeyDecryptLength (key : PKey) (ciphertext : Bytes)
  | evpCipherCtxNew
  | evpDecryptInit (key iv : Bytes)
  | evpEncryptInit (key iv : Bytes)
  | cmacCtxNew
  | cmacInit (key : Bytes)
  | cmacUpdate (key data : Bytes)

/-- An initialised `EVP_CIPHER_CTX` for `EVP_aes_128_cbc`. -/
structure CipherCtx where
  key : Bytes
  iv : Bytes
  padding : Bool
deriving DecidableEq, Repr

/-- Generated protobuf code, libcrypto and the clock. -/
structure Platform where
  World : Type
  /-- `EVP_PKEY`. -/
  PKey : Type
  /-- The generated class `ClientIdentification`. -/
  ClientIdentification : Type
  parseClientIdentification : Bytes → Option ClientIdentification
  isInitialized : ClientIdentification → Bool
  byteSizeLong : ClientIdentification → Nat
  serializeLicenseRequest : Proto.LicenseRequest ClientIdentification → Bytes
  parseLicenseRequest : Bytes → Option (Proto.LicenseRequest ClientIdentification)
  serializeSignedMessage : Proto.SignedMessage → Bytes
  parseSignedMessage : Bytes → Option Proto.SignedMessage
  serializeLicense : Proto.License → Bytes
  parseLicense : Bytes → Option Proto.License
  /-- `std::time(nullptr)`. -/
  time : World → Int64 × World
  /-- `x >> s` for a 32-bit `x` and `s ≥ 32`, which C++ leaves undefined. -/
  wideShift : UInt32 → Nat → World → UInt32 × World
  /-- `RAND_bytes`. -/
  randBytes : (n : Nat) → World → Option (List.Vector UInt8 n) × World
  d2iPrivateKey : Bytes → World → Option PKey × World
  /-- Whether a status-only call reports success. -/
  succeeds : LibCall PKey → World → Bool × World
  /-- `EVP_DigestSignFinal` over everything fed so far. -/
  evpDigestSignFinal : PKey → Bytes → World → Option Bytes × World
  evpPkeyDecrypt : PKey → Bytes → World → Option Bytes × World
  /-- `EVP_DecryptUpdate` at a pointer to the bytes, with `inl` of them to read. -/
  evpDecryptUpdate : CipherCtx → Bytes → (inl : Int32) → World → Option Bytes × World
  evpEncryptUpdate : CipherCtx → Bytes → (inl : Int32) → World → Option Bytes × World
  /-- `EVP_EncryptFinal_ex` after the update call with these arguments. -/
  evpEncryptFinal : CipherCtx → Bytes → (inl : Int32) → World → Option Bytes × World
  /-- `CMAC_Final` for a key after the given data. -/
  cmacFinal : Bytes → Bytes → World → Option Bytes × World
  /-- `HMAC(EVP_sha256(), …)`: the bytes written, if any. -/
  hmac : Bytes → Bytes → World → Option Bytes × World

end WidevineCdm
