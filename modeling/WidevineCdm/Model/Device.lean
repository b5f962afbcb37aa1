import WidevineCdm.Model.Types

/-!
# Devices and the WVD file format (`device.cpp`)

`Device::from_wvd_data` reads a header of seven bytes and two length-prefixed
fields. No sum it forms exceeds `9 + 2 * 65535 + 2`, so its `size_t`
arithmetic is exact at every width and offsets are plain numbers.

The comments describe other layouts: the table in `device.cpp` has the private
key at offset 10 and the client id length little-endian, `device.h` a magic of
four bytes. The model follows the code.
-/

namespace WidevineCdm

open Lib

/-- The data members of `Device::Impl` (device.cpp:11–14). -/
structure Device where
  type : DeviceType
  securityLevel : UInt8
  privateKey : Bytes
  clientId : Bytes
deriving DecidableEq, Repr

namespace Device

/-- `read_be16(&data[offset])` (device.cpp:34–36). -/
def readBe16 (data : Bytes) (offset : Nat) : Except Exn UInt16 := do
  let b0 ← element data offset
  let b1 ← element data (offset + 1)
  return (b0.toUInt16 <<< 8) ||| b1.toUInt16

/-- The device type byte (device.cpp:53–62). -/
def typeOf (typeVal : UInt8) : Except Exn DeviceType :=
  if typeVal = 1 then .ok .CHROME
  else if typeVal = 2 then .ok .ANDROID
  else .error (.runtimeError ("Unknown device type: " ++ toString typeVal.toNat))

/-- `Device::from_wvd_data` (device.cpp:38–106). -/
def fromWvdData (data : Bytes) : Except Exn Device := do
  if data.length < 8 then
    throw (.runtimeError "WVD file too small")
  -- Check magic
  let m0 ← element data 0
  let m1 ← element data 1
  let m2 ← element data 2
  if m0 ≠ 0x57 ∨ m1 ≠ 0x56 ∨ m2 ≠ 0x44 then
    throw (.runtimeError "Invalid WVD magic")
  let version ← element data 3
  if version ≠ 1 ∧ version ≠ 2 then
    throw (.runtimeError ("Unsupported WVD version: " ++ toString version.toNat))
  let typeVal ← element data 4
  let type ← typeOf typeVal
  let securityLevel ← element data 5
  -- offset 6 holds the flags, which are skipped
  let offset := 7
  if offset + 2 > data.length then
    throw (.runtimeError "Truncated WVD file (private_key length)")
  let privateKeyLen ← readBe16 data offset
  let offset := offset + 2
  if offset + privateKeyLen.toNat > data.length then
    throw (.runtimeError
      ("Truncated WVD file (private_key data): offset=" ++ toString (offset - 2)
        ++ ", key_len=" ++ toString privateKeyLen.toNat
        ++ ", file_size=" ++ toString data.length
        ++ ", need=" ++ toString (offset + privateKeyLen.toNat)))
  let privateKey ← slice data offset (offset + privateKeyLen.toNat)
  let offset := offset + privateKeyLen.toNat
  if offset + 2 > data.length then
    throw (.runtimeError "Truncated WVD file (client_id length)")
  let clientIdLen ← readBe16 data offset
  let offset := offset + 2
  if offset + clientIdLen.toNat > data.length then
    throw (.runtimeError "Truncated WVD file (client_id data)")
  let clientId ← slice data offset (offset + clientIdLen.toNat)
  return { type, securityLevel, privateKey, clientId }

/-- A file that opens. -/
inductive OpenFile where
  | bytes (data : Bytes)
  /-- The bytes cannot be read. -/
  | unreadable
  /-- No vector has the size that `tellg()` reports, and its constructor throws
  an exception with this text: for a directory, which opens and reports
  `2 ^ 63 - 1`, `std::bad_alloc`. -/
  | unsized (what : String)
deriving DecidableEq, Repr

/-- What a path names, if it opens. -/
abbrev Files := String → Option OpenFile

/-- `Device::from_wvd` (device.cpp:108–123). Not everything it throws is a
`std::runtime_error`, as `device.h` has it. -/
def fromWvd (files : Files) (path : String) : Except Exn Device :=
  match files path with
  | none => .error (.runtimeError ("Cannot open WVD file: " ++ path))
  | some (.unsized what) => .error (.stdException what)
  | some .unreadable => .error (.runtimeError ("Failed to read WVD file: " ++ path))
  | some (.bytes data) => fromWvdData data

end Device

end WidevineCdm
