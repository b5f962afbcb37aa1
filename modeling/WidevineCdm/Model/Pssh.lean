import WidevineCdm.Model.Base64

/-!
# The PSSH box parser (`pssh.cpp`)

`PSSH::Impl::parse` walks the buffer with a running `size_t offset`. The
width `w` of `size_t` and of the addresses is a parameter: every sum the code
forms in `size_t` is taken modulo `2 ^ w`, and so is the position of an
iterator `begin() + offset + n`; `slice` checks that a range lies in its vector
and does not end before it begins. The object's fields are the state of the
computation, so a parse that throws shows what had been collected by then.

The version byte is not checked: `pssh.h` speaks of versions 0 and 1, and any
other is taken like 0.
-/

namespace WidevineCdm

open Lib

/-- The data members of `PSSH::Impl` (pssh.cpp:37–41). -/
structure Pssh where
  rawData : Bytes
  version : UInt8
  systemId : Bytes
  keyIds : List Bytes
  initData : Bytes
deriving DecidableEq, Repr

namespace Pssh

/-- A sum of two `size_t` values, or of a position and an offset. -/
def sizeAdd (w a b : Nat) : Nat := (a + b) % 2 ^ w

/-- `read_be32(&data[offset])` (pssh.cpp:31–33). -/
def readBe32 (data : Bytes) (offset : Nat) : EStateM Exn Pssh UInt32 := do
  let b0 ← element data offset
  let b1 ← element data (offset + 1)
  let b2 ← element data (offset + 2)
  let b3 ← element data (offset + 3)
  return (b0.toUInt32 <<< 24) ||| (b1.toUInt32 <<< 16) ||| (b2.toUInt32 <<< 8) ||| b3.toUInt32

/-- The fixed part of the box (pssh.cpp:48–73); returns the offset after it. -/
def parseHeader (w : Nat) : EStateM Exn Pssh Nat := do
  let rawData := (← get).rawData
  if rawData.length < 32 then
    throw (.runtimeError "PSSH too small")
  -- Size (skip, we have the data)
  let offset := sizeAdd w 0 4
  -- Type 'pssh'
  let t0 ← element rawData offset
  let t1 ← element rawData (sizeAdd w offset 1)
  let t2 ← element rawData (sizeAdd w offset 2)
  let t3 ← element rawData (sizeAdd w offset 3)
  if t0 ≠ 0x70 ∨ t1 ≠ 0x73 ∨ t2 ≠ 0x73 ∨ t3 ≠ 0x68 then
    throw (.runtimeError "Invalid PSSH magic")
  let offset := sizeAdd w offset 4
  let version ← element rawData offset
  modify fun pssh => { pssh with version }
  let offset := sizeAdd w offset 1
  -- Flags (skip 3 bytes)
  let offset := sizeAdd w offset 3
  let systemId ← slice rawData offset (sizeAdd w offset 16)
  modify fun pssh => { pssh with systemId }
  return sizeAdd w offset 16

/-- The loop that collects `n` more key ids (pssh.cpp:84–91). -/
def readKids (w : Nat) : Nat → Nat → EStateM Exn Pssh Nat
  | 0, offset => pure offset
  | n + 1, offset => do
    let rawData := (← get).rawData
    if sizeAdd w offset 16 > rawData.length then
      throw (.runtimeError "Truncated PSSH (KID data)")
    let kid ← slice rawData offset (sizeAdd w offset 16)
    modify fun pssh => { pssh with keyIds := pssh.keyIds ++ [kid] }
    readKids w n (sizeAdd w offset 16)

/-- The version 1 key id list (pssh.cpp:75–92). -/
def parseKeyIds (w offset : Nat) : EStateM Exn Pssh Nat := do
  let pssh ← get
  if pssh.version = 1 then
    if sizeAdd w offset 4 > pssh.rawData.length then
      throw (.runtimeError "Truncated PSSH (KID count)")
    let kidCount ← readBe32 pssh.rawData offset
    readKids w kidCount.toNat (sizeAdd w offset 4)
  else
    return offset

/-- The data size and the init data (pssh.cpp:94–106). -/
def parseInitData (w offset : Nat) : EStateM Exn Pssh Unit := do
  let rawData := (← get).rawData
  if sizeAdd w offset 4 > rawData.length then
    throw (.runtimeError "Truncated PSSH (data size)")
  let dataSize ← readBe32 rawData offset
  let offset := sizeAdd w offset 4
  if sizeAdd w offset dataSize.toNat > rawData.length then
    throw (.runtimeError "Truncated PSSH (init data)")
  let initData ← slice rawData offset (sizeAdd w offset dataSize.toNat)
  modify fun pssh => { pssh with initData }

/-- `PSSH::Impl::parse` (pssh.cpp:47–107). -/
def parse (w : Nat) : EStateM Exn Pssh Unit := do
  let offset ← parseHeader w
  let offset ← parseKeyIds w offset
  parseInitData w offset

/-- The members before `parse` runs (pssh.cpp:38, 43). -/
def unparsed (data : Bytes) : Pssh :=
  { rawData := data, version := 0, systemId := [], keyIds := [], initData := [] }

/-- `PSSH::from_bytes` (pssh.cpp:117–119). -/
def fromBytes (w : Nat) (data : Bytes) : Except Exn Pssh :=
  match exec (parse w) (unparsed data) with
  | (.ok _, pssh) => .ok pssh
  | (.error e, _) => .error e

/-- `PSSH::from_base64` (pssh.cpp:112–115). -/
def fromBase64 (w : Nat) (base64 : Bytes) : Except Exn Pssh :=
  fromBytes w (base64Decode base64)

/-- The Widevine system id of `is_widevine` (pssh.cpp:157–160). -/
def widevineId : Bytes :=
  [0xed, 0xef, 0x8b, 0xa9, 0x79, 0xd6, 0x4a, 0xce,
   0xa3, 0xc8, 0x27, 0xdc, 0xd5, 0x1d, 0x21, 0xed]

/-- `PSSH::is_widevine` (pssh.cpp:155–167). -/
def isWidevine (pssh : Pssh) : Bool :=
  if pssh.systemId.length ≠ 16 then false else pssh.systemId == widevineId

end Pssh

end WidevineCdm
