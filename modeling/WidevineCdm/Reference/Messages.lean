import WidevineCdm.Lib.WireFormat
import WidevineCdm.Model.Platform

/-!
# The messages of `license_protocol.proto` on the wire

The reference codec: every message is written with its fields in the order of
their numbers and read back by field number, the last occurrence of a
singular field winning, unknown fields and unknown enumeration values being
skipped. The generated class `ClientIdentification` is represented by the
bytes of the message, which the code only copies. Each message has one round
trip theorem.
-/

namespace WidevineCdm.Reference

open Lib Lib.Wire Proto

/-! ## Enumerations -/

/-- An enumeration as the proto file numbers it. -/
class WireEnum (α : Type) where
  number : α → Nat
  ofNumber : Nat → Option α
  ofNumber_number : ∀ a, ofNumber (number a) = some a

instance : WireEnum MessageType where
  number
    | .LICENSE_REQUEST => 1 | .LICENSE => 2 | .ERROR_RESPONSE => 3
    | .SERVICE_CERTIFICATE_REQUEST => 4 | .SERVICE_CERTIFICATE => 5 | .SUB_LICENSE => 6
    | .CAS_LICENSE_REQUEST => 7 | .CAS_LICENSE => 8
    | .EXTERNAL_LICENSE_REQUEST => 9 | .EXTERNAL_LICENSE => 10
  ofNumber
    | 1 => some .LICENSE_REQUEST | 2 => some .LICENSE | 3 => some .ERROR_RESPONSE
    | 4 => some .SERVICE_CERTIFICATE_REQUEST | 5 => some .SERVICE_CERTIFICATE
    | 6 => some .SUB_LICENSE | 7 => some .CAS_LICENSE_REQUEST | 8 => some .CAS_LICENSE
    | 9 => some .EXTERNAL_LICENSE_REQUEST | 10 => some .EXTERNAL_LICENSE
    | _ => none
  ofNumber_number a := by cases a <;> rfl

instance : WireEnum KeyType where
  number
    | .SIGNING => 1 | .CONTENT => 2 | .KEY_CONTROL => 3
    | .OPERATOR_SESSION => 4 | .ENTITLEMENT => 5 | .OEM_CONTENT => 6
  ofNumber
    | 1 => some .SIGNING | 2 => some .CONTENT | 3 => some .KEY_CONTROL
    | 4 => some .OPERATOR_SESSION | 5 => some .ENTITLEMENT | 6 => some .OEM_CONTENT
    | _ => none
  ofNumber_number a := by cases a <;> rfl

instance : WireEnum LicenseType where
  number
    | .STREAMING => 1 | .OFFLINE => 2 | .AUTOMATIC => 3
  ofNumber
    | 1 => some .STREAMING | 2 => some .OFFLINE | 3 => some .AUTOMATIC
    | _ => none
  ofNumber_number a := by cases a <;> rfl

instance : WireEnum RequestType where
  number
    | .NEW => 1 | .RENEWAL => 2 | .RELEASE => 3
  ofNumber
    | 1 => some .NEW | 2 => some .RENEWAL | 3 => some .RELEASE
    | _ => none
  ofNumber_number a := by cases a <;> rfl

instance : WireEnum ProtocolVersion where
  number
    | .VERSION_2_0 => 20 | .VERSION_2_1 => 21 | .VERSION_2_2 => 22
  ofNumber
    | 20 => some .VERSION_2_0 | 21 => some .VERSION_2_1 | 22 => some .VERSION_2_2
    | _ => none
  ofNumber_number a := by cases a <;> rfl

/-- An optional enumeration field. -/
def optEnum {α : Type} [WireEnum α] (number : Nat) (a : Option α) : List Field :=
  optVarint number (a.map WireEnum.number)

/-- The last known value of an enumeration field. -/
def lastEnum (α : Type) [WireEnum α] (number : Nat) (fields : List Field) : Option α :=
  ((allVarints number fields).filterMap WireEnum.ofNumber).getLast?

/-- The last value of a field of bytes. -/
def lastBytes (number : Nat) (fields : List Field) : Option Bytes :=
  (allBytes number fields).getLast?

/-- The last value of a varint field. -/
def lastVarint (number : Nat) (fields : List Field) : Option Nat :=
  (allVarints number fields).getLast?

@[simp] theorem filterMap_ofNumber {α : Type} [WireEnum α] (a : Option α) :
    (a.map WireEnum.number).toList.filterMap (WireEnum.ofNumber : Nat → Option α) = a.toList := by
  cases a with
  | none => rfl
  | some a => simp [WireEnum.ofNumber_number]

@[simp] theorem getLast?_toList {α : Type} (a : Option α) : a.toList.getLast? = a := by
  cases a <;> rfl

/-! ## Messages -/

/-- `SignedMessage` on the wire. -/
def serializeSignedMessage (m : SignedMessage) : Bytes :=
  encodeFields (optEnum 1 m.type ++ optBytes 2 m.msg ++ optBytes 3 m.signature
    ++ optBytes 4 m.sessionKey ++ optBytes 9 m.oemcryptoCoreMessage)

/-- `SignedMessage::ParseFromArray`. -/
def parseSignedMessage (data : Bytes) : Option SignedMessage := do
  let fields ← parseFields data
  return { type := lastEnum MessageType 1 fields
           msg := lastBytes 2 fields
           signature := lastBytes 3 fields
           sessionKey := lastBytes 4 fields
           oemcryptoCoreMessage := lastBytes 9 fields }

theorem parseSignedMessage_serialize (m : SignedMessage) :
    parseSignedMessage (serializeSignedMessage m) = some m := by
  rw [parseSignedMessage, serializeSignedMessage, parseFields_encodeFields]
  simp [lastEnum, lastBytes, optEnum, -List.getLast?_filterMap]

/-- `License.KeyContainer` on the wire. -/
def serializeKeyContainer (c : KeyContainer) : Bytes :=
  encodeFields (optBytes 1 c.id ++ optBytes 2 c.iv ++ optBytes 3 c.key ++ optEnum 4 c.type)

def parseKeyContainer (data : Bytes) : Option KeyContainer := do
  let fields ← parseFields data
  return { id := lastBytes 1 fields
           iv := lastBytes 2 fields
           key := lastBytes 3 fields
           type := lastEnum KeyType 4 fields }

theorem parseKeyContainer_serialize (c : KeyContainer) :
    parseKeyContainer (serializeKeyContainer c) = some c := by
  rw [parseKeyContainer, serializeKeyContainer, parseFields_encodeFields]
  simp [lastEnum, lastBytes, optEnum, -List.getLast?_filterMap]

/-- `LicenseIdentification` on the wire. -/
def serializeLicenseIdentification (id : LicenseIdentification) : Bytes :=
  encodeFields (optBytes 1 id.requestId)

def parseLicenseIdentification (data : Bytes) : Option LicenseIdentification := do
  let fields ← parseFields data
  return { requestId := lastBytes 1 fields }

theorem parseLicenseIdentification_serialize (id : LicenseIdentification) :
    parseLicenseIdentification (serializeLicenseIdentification id) = some id := by
  rw [parseLicenseIdentification, serializeLicenseIdentification, parseFields_encodeFields]
  simp [lastBytes]

/-- An optional submessage: absent, or present and well formed. -/
def parseOpt {α : Type} (parse : Bytes → Option α) : Option Bytes → Option (Option α)
  | none => some none
  | some data => (parse data).map some

@[simp] theorem parseOpt_map {α : Type} {parse : Bytes → Option α} {serialize : α → Bytes}
    (h : ∀ a, parse (serialize a) = some a) (a : Option α) :
    parseOpt parse (a.map serialize) = some a := by
  cases a with
  | none => rfl
  | some a => rw [Option.map_some, parseOpt, h, Option.map_some]

theorem mapM_map {α : Type} {parse : Bytes → Option α} {serialize : α → Bytes}
    (h : ∀ a, parse (serialize a) = some a) (as : List α) :
    (as.map serialize).mapM parse = some as := by
  induction as with
  | nil => rfl
  | cons a as ih => rw [List.map_cons, List.mapM_cons, h, ih]; rfl

/-- `License` on the wire. -/
def serializeLicense (l : License) : Bytes :=
  encodeFields (optBytes 1 (l.id.map serializeLicenseIdentification)
    ++ repBytes 3 (l.key.map serializeKeyContainer))

/-- `License::ParseFromString`. -/
def parseLicense (data : Bytes) : Option License := do
  let fields ← parseFields data
  let id ← parseOpt parseLicenseIdentification (lastBytes 1 fields)
  let key ← (allBytes 3 fields).mapM parseKeyContainer
  return { id, key }

theorem parseLicense_serialize (l : License) : parseLicense (serializeLicense l) = some l := by
  rw [parseLicense, serializeLicense, parseFields_encodeFields]
  simp [lastBytes, parseOpt_map parseLicenseIdentification_serialize,
    mapM_map parseKeyContainer_serialize]

/-- `LicenseRequest.ContentIdentification.WidevinePsshData` on the wire. -/
def serializeWidevinePsshData (d : WidevinePsshData) : Bytes :=
  encodeFields (repBytes 1 d.psshData ++ optEnum 2 d.licenseType ++ optBytes 3 d.requestId)

def parseWidevinePsshData (data : Bytes) : Option WidevinePsshData := do
  let fields ← parseFields data
  return { psshData := allBytes 1 fields
           licenseType := lastEnum LicenseType 2 fields
           requestId := lastBytes 3 fields }

theorem parseWidevinePsshData_serialize (d : WidevinePsshData) :
    parseWidevinePsshData (serializeWidevinePsshData d) = some d := by
  rw [parseWidevinePsshData, serializeWidevinePsshData, parseFields_encodeFields]
  simp [lastEnum, lastBytes, optEnum, -List.getLast?_filterMap]

/-- `LicenseRequest.ContentIdentification` on the wire. -/
def serializeContentIdentification (c : ContentIdentification) : Bytes :=
  encodeFields (optBytes 1 (c.widevinePsshData.map serializeWidevinePsshData))

def parseContentIdentification (data : Bytes) : Option ContentIdentification := do
  let fields ← parseFields data
  let widevinePsshData ← parseOpt parseWidevinePsshData (lastBytes 1 fields)
  return { widevinePsshData }

theorem parseContentIdentification_serialize (c : ContentIdentification) :
    parseContentIdentification (serializeContentIdentification c) = some c := by
  rw [parseContentIdentification, serializeContentIdentification, parseFields_encodeFields]
  simp [lastBytes, parseOpt_map parseWidevinePsshData_serialize]

/-- `LicenseRequest` on the wire; the client id is its own bytes. -/
def serializeLicenseRequest (r : LicenseRequest Bytes) : Bytes :=
  encodeFields (optBytes 1 r.clientId
    ++ optBytes 2 (r.contentId.map serializeContentIdentification)
    ++ optEnum 3 r.type
    ++ optVarint 4 (r.requestTime.map fun t => t.toUInt64.toNat)
    ++ optEnum 6 r.protocolVersion
    ++ optVarint 7 (r.keyControlNonce.map UInt32.toNat))

def parseLicenseRequest (data : Bytes) : Option (LicenseRequest Bytes) := do
  let fields ← parseFields data
  let contentId ← parseOpt parseContentIdentification (lastBytes 2 fields)
  return { clientId := lastBytes 1 fields
           contentId
           type := lastEnum RequestType 3 fields
           requestTime := (lastVarint 4 fields).map Int64.ofNat
           protocolVersion := lastEnum ProtocolVersion 6 fields
           keyControlNonce := (lastVarint 7 fields).map UInt32.ofNat }

theorem parseLicenseRequest_serialize (r : LicenseRequest Bytes) :
    parseLicenseRequest (serializeLicenseRequest r) = some r := by
  have htime : ∀ t : Option Int64,
      (t.map fun t => t.toUInt64.toNat).map Int64.ofNat = t := by
    rintro (_ | t)
    · rfl
    · show some (Int64.ofNat t.toUInt64.toNat) = some t
      rw [← UInt64.toInt64_ofNat', UInt64.ofNat_toNat, Int64.toInt64_toUInt64]
  have hnonce : ∀ n : Option UInt32, (n.map UInt32.toNat).map UInt32.ofNat = n := by
    rintro (_ | n)
    · rfl
    · show some (UInt32.ofNat n.toNat) = some n
      rw [UInt32.ofNat_toNat]
  rw [parseLicenseRequest, serializeLicenseRequest, parseFields_encodeFields]
  simp [lastEnum, lastBytes, lastVarint, optEnum,
    parseOpt_map parseContentIdentification_serialize, -Option.map_map,
    -List.getLast?_filterMap, htime, hnonce]

end WidevineCdm.Reference
