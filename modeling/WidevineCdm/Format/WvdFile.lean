import WidevineCdm.Format.Integers
import WidevineCdm.Lib.Format
import WidevineCdm.Model.Device

/-!
# The WVD device file format

`WvdFile` is the format by its fields (device.cpp:22–32), the version and the
16-bit length limits being proofs it carries. `from_wvd_data` is evaluated
along a buffer split at its offsets, with one equation for the header and one
for each field; both directions of `fromWvdData_recognizes` read off them.
-/

namespace WidevineCdm

open Lib

/-- The byte that stands for a device type. -/
def DeviceType.code : DeviceType → UInt8
  | .CHROME => 1
  | .ANDROID => 2

/-- A WVD file by its fields. -/
structure WvdFile where
  version : UInt8
  type : DeviceType
  securityLevel : UInt8
  flags : UInt8
  privateKey : Bytes
  clientId : Bytes
  version_known : version = 1 ∨ version = 2
  privateKey_le : privateKey.length ≤ 65535
  clientId_le : clientId.length ≤ 65535

namespace WvdFile

/-- The seven bytes in front of the private key's length. -/
def header (version typeVal securityLevel flags : UInt8) : Bytes :=
  ascii "WVD" ++ [version, typeVal, securityLevel, flags]

/-- The bytes of a file. -/
def encode (file : WvdFile) : Bytes :=
  header file.version file.type.code file.securityLevel file.flags
    ++ (beBytes 2 file.privateKey.length ++ (file.privateKey
    ++ (beBytes 2 file.clientId.length ++ file.clientId)))

/-- The device a file describes. -/
def device (file : WvdFile) : Device where
  type := file.type
  securityLevel := file.securityLevel
  privateKey := file.privateKey
  clientId := file.clientId

theorem encode_length (file : WvdFile) :
    file.encode.length = 11 + file.privateKey.length + file.clientId.length := by
  have hheader : (header file.version file.type.code file.securityLevel file.flags).length = 7 :=
    rfl
  simp only [encode, List.length_append, beBytes_length, hheader]
  omega

end WvdFile

namespace Device

/-! ## Reads at a split buffer -/

/-- `read_be16` at two bytes that are there. -/
theorem readBe16_append {n : Nat} (hn : n < 2 ^ 16) (pre rest : Bytes) :
    readBe16 (pre ++ (beBytes 2 n ++ rest)) pre.length = .ok (UInt16.ofNat n) := by
  obtain ⟨b0, b1, hbytes⟩ : ∃ b0 b1, beBytes 2 n = [b0, b1] := ⟨_, _, rfl⟩
  have hvalue : beNat [b0, b1] = n := by
    rw [← hbytes, beNat_beBytes]
    exact Nat.mod_eq_of_lt hn
  have hword : (b0.toUInt16 <<< 8) ||| b1.toUInt16 = UInt16.ofNat n := by
    apply UInt16.toNat_inj.mp
    rw [be16_toNat, hvalue, UInt16.toNat_ofNat_of_lt' hn]
  rw [hbytes]
  have h0 : (element (pre ++ ([b0, b1] ++ rest)) pre.length : Except Exn UInt8) = pure b0 :=
    element_append pre _ b0
  have h1 : (element (pre ++ ([b0, b1] ++ rest)) (pre.length + 1) : Except Exn UInt8)
      = pure b1 := by
    simpa using element_append (m := Except Exn) (pre ++ [b0]) rest b1
  rw [readBe16, h0, h1, ← hword]
  rfl

theorem typeOf_code (type : DeviceType) : typeOf type.code = .ok type := by
  cases type <;> rfl

/-- The type byte of a file is the code of a type, or the call throws. -/
theorem typeOf_cases (typeVal : UInt8) :
    (∃ type : DeviceType, typeVal = type.code) ∨
      ∃ what, typeOf typeVal = .error (.runtimeError what) := by
  by_cases h1 : typeVal = 1
  · exact .inl ⟨.CHROME, h1⟩
  by_cases h2 : typeVal = 2
  · exact .inl ⟨.ANDROID, h2⟩
  exact .inr ⟨_, by rw [typeOf, if_neg h1, if_neg h2]⟩

/-! ## The two halves of the reader -/

/-- What `from_wvd_data` does from the client id's length on. -/
def readClientId (data : Bytes) (offset : Nat) (type : DeviceType) (securityLevel : UInt8)
    (privateKey : Bytes) : Except Exn Device := do
  if offset + 2 > data.length then
    throw (.runtimeError "Truncated WVD file (client_id length)")
  let clientIdLen ← readBe16 data offset
  if offset + 2 + clientIdLen.toNat > data.length then
    throw (.runtimeError "Truncated WVD file (client_id data)")
  let clientId ← slice data (offset + 2) (offset + 2 + clientIdLen.toNat)
  return { type, securityLevel, privateKey, clientId }

/-- What `from_wvd_data` does from the private key's length on. -/
def readPrivateKey (data : Bytes) (type : DeviceType) (securityLevel : UInt8) :
    Except Exn Device := do
  if 7 + 2 > data.length then
    throw (.runtimeError "Truncated WVD file (private_key length)")
  let privateKeyLen ← readBe16 data 7
  if 9 + privateKeyLen.toNat > data.length then
    throw (.runtimeError
      ("Truncated WVD file (private_key data): offset=" ++ toString 7
        ++ ", key_len=" ++ toString privateKeyLen.toNat
        ++ ", file_size=" ++ toString data.length
        ++ ", need=" ++ toString (9 + privateKeyLen.toNat)))
  let privateKey ← slice data 9 (9 + privateKeyLen.toNat)
  readClientId data (9 + privateKeyLen.toNat) type securityLevel privateKey

/-- The header checks, then the fields. -/
theorem fromWvdData_header {m : Bytes} (hm : m.length = 3) (v ty lvl fl : UInt8) {rest : Bytes}
    (hrest : 1 ≤ rest.length) :
    fromWvdData (m ++ [v, ty, lvl, fl] ++ rest) =
      if m ≠ ascii "WVD" then .error (.runtimeError "Invalid WVD magic")
      else if v ≠ 1 ∧ v ≠ 2 then
        .error (.runtimeError ("Unsupported WVD version: " ++ toString v.toNat))
      else typeOf ty >>= fun type => readPrivateKey (m ++ [v, ty, lvl, fl] ++ rest) type lvl := by
  obtain ⟨m0, m1, m2, rfl⟩ := List.length_eq_three.mp hm
  have hlen : ¬ ([m0, m1, m2] ++ [v, ty, lvl, fl] ++ rest).length < 8 := by
    simp only [List.length_append, List.length_cons, List.length_nil]
    omega
  have hmagic : [m0, m1, m2] ≠ ascii "WVD" ↔ (m0 ≠ 0x57 ∨ m1 ≠ 0x56 ∨ m2 ≠ 0x44) := by
    have hascii : ascii "WVD" = [0x57, 0x56, 0x44] := by decide
    rw [hascii]
    simp only [ne_eq, List.cons.injEq, and_true, not_and_or]
  generalize hdata : [m0, m1, m2] ++ [v, ty, lvl, fl] ++ rest = data at hlen
  have e0 : (element data 0 : Except Exn UInt8) = pure m0 := by rw [← hdata]; rfl
  have e1 : (element data 1 : Except Exn UInt8) = pure m1 := by rw [← hdata]; rfl
  have e2 : (element data 2 : Except Exn UInt8) = pure m2 := by rw [← hdata]; rfl
  have e3 : (element data 3 : Except Exn UInt8) = pure v := by rw [← hdata]; rfl
  have e4 : (element data 4 : Except Exn UInt8) = pure ty := by rw [← hdata]; rfl
  have e5 : (element data 5 : Except Exn UInt8) = pure lvl := by rw [← hdata]; rfl
  rw [fromWvdData, if_neg hlen]
  simp only [e0, e1, e2, e3, e4, e5, pure_bind]
  by_cases hbad : m0 ≠ 0x57 ∨ m1 ≠ 0x56 ∨ m2 ≠ 0x44
  · rw [if_pos hbad, if_pos (hmagic.mpr hbad)]
    rfl
  rw [if_neg hbad, if_neg fun h => hbad (hmagic.mp h)]
  by_cases hversion : v ≠ 1 ∧ v ≠ 2
  · rw [if_pos hversion, if_pos hversion]
    rfl
  · rw [if_neg hversion, if_neg hversion]
    rfl

/-- The private key field, at a buffer split around its length. -/
theorem readPrivateKey_split {n : Nat} {pre : Bytes} (hpre : pre.length = 7) (hn : n < 2 ^ 16)
    (t : Bytes) (type : DeviceType) (securityLevel : UInt8) :
    readPrivateKey (pre ++ (beBytes 2 n ++ t)) type securityLevel =
      if t.length < n then
        .error (.runtimeError
          ("Truncated WVD file (private_key data): offset=" ++ toString 7
            ++ ", key_len=" ++ toString n
            ++ ", file_size=" ++ toString (pre ++ (beBytes 2 n ++ t)).length
            ++ ", need=" ++ toString (9 + n)))
      else
        readClientId (pre ++ (beBytes 2 n ++ t)) (9 + n) type securityLevel (t.take n) := by
  have hlen : (pre ++ (beBytes 2 n ++ t)).length = 9 + t.length := by
    rw [List.length_append, List.length_append, beBytes_length, hpre]
    omega
  have hread := readBe16_append hn pre t
  rw [hpre] at hread
  rw [readPrivateKey, if_neg (by omega), hread]
  show (if 9 + (UInt16.ofNat n).toNat > _ then _ else _) = _
  rw [UInt16.toNat_ofNat_of_lt' hn]
  by_cases hkey : t.length < n
  · rw [if_pos hkey, if_pos (by omega)]
    rfl
  · have hslice := slice_take (m := Except Exn) (pre ++ beBytes 2 n) t (n := n) (by omega)
    rw [List.append_assoc, List.length_append, beBytes_length, hpre] at hslice
    rw [if_neg hkey, if_neg (by omega), hslice]
    rfl

/-- The client id field, at a buffer split around its length. -/
theorem readClientId_split {n : Nat} (hn : n < 2 ^ 16) (pre t : Bytes) (type : DeviceType)
    (securityLevel : UInt8) (privateKey : Bytes) :
    readClientId (pre ++ (beBytes 2 n ++ t)) pre.length type securityLevel privateKey =
      if t.length < n then .error (.runtimeError "Truncated WVD file (client_id data)")
      else .ok { type, securityLevel, privateKey, clientId := t.take n } := by
  have hlen : (pre ++ (beBytes 2 n ++ t)).length = pre.length + 2 + t.length := by
    rw [List.length_append, List.length_append, beBytes_length, Nat.add_assoc]
  rw [readClientId, if_neg (by omega), readBe16_append hn]
  show (if pre.length + 2 + (UInt16.ofNat n).toNat > _ then _ else _) = _
  rw [UInt16.toNat_ofNat_of_lt' hn]
  by_cases hid : t.length < n
  · rw [if_pos hid, if_pos (by omega)]
    rfl
  · have hslice := slice_take (m := Except Exn) (pre ++ beBytes 2 n) t (n := n) (by omega)
    rw [List.append_assoc, List.length_append, beBytes_length] at hslice
    rw [if_neg hid, if_neg (by omega), hslice]
    rfl

/-! ## Both directions -/

/-- A private key field that is there is read. -/
theorem readPrivateKey_field {pre pk : Bytes} (hpre : pre.length = 7) (hpk : pk.length ≤ 65535)
    (rest : Bytes) (type : DeviceType) (securityLevel : UInt8) :
    readPrivateKey (pre ++ (beBytes 2 pk.length ++ (pk ++ rest))) type securityLevel =
      readClientId ((pre ++ (beBytes 2 pk.length ++ pk)) ++ rest)
        (pre ++ (beBytes 2 pk.length ++ pk)).length type securityLevel pk := by
  have hoffset : 9 + pk.length = (pre ++ (beBytes 2 pk.length ++ pk)).length := by
    rw [List.length_append, List.length_append, beBytes_length, hpre]
    omega
  have hfit : ¬ (pk ++ rest).length < pk.length := by
    rw [List.length_append]
    omega
  rw [readPrivateKey_split hpre (by omega), if_neg hfit, List.take_left' rfl, ← hoffset]
  simp only [List.append_assoc]

/-- A client id field that is there is read. -/
theorem readClientId_field {cid : Bytes} (hcid : cid.length ≤ 65535) (pre rest : Bytes)
    (type : DeviceType) (securityLevel : UInt8) (privateKey : Bytes) :
    readClientId (pre ++ (beBytes 2 cid.length ++ (cid ++ rest))) pre.length type securityLevel
      privateKey = .ok { type, securityLevel, privateKey, clientId := cid } := by
  have hfit : ¬ (cid ++ rest).length < cid.length := by
    rw [List.length_append]
    omega
  rw [readClientId_split (by omega), if_neg hfit, List.take_left' rfl]

/-- **Completeness**: every file is read back, whatever follows it. -/
theorem fromWvdData_encode (file : WvdFile) (t : Bytes) :
    fromWvdData (file.encode ++ t) = .ok file.device := by
  generalize hpre : WvdFile.header file.version file.type.code file.securityLevel file.flags
    = pre
  generalize hrest : beBytes 2 file.privateKey.length ++ (file.privateKey
    ++ (beBytes 2 file.clientId.length ++ (file.clientId ++ t))) = rest
  have hdata : file.encode ++ t = pre ++ rest := by
    rw [← hpre, ← hrest, WvdFile.encode]
    simp only [List.append_assoc]
  have hlen : 1 ≤ rest.length := by
    rw [← hrest, List.length_append, beBytes_length]
    omega
  have hpre7 : pre.length = 7 := by
    rw [← hpre]
    rfl
  have hheader := fromWvdData_header (m := ascii "WVD") rfl file.version file.type.code
    file.securityLevel file.flags hlen
  have hversion : ¬ (file.version ≠ 1 ∧ file.version ≠ 2) := by
    rcases file.version_known with h | h <;> simp [h]
  rw [if_neg (fun h => h rfl), if_neg hversion, typeOf_code] at hheader
  calc fromWvdData (file.encode ++ t)
      = readPrivateKey (pre ++ rest) file.type file.securityLevel := by
        rw [hdata, ← hpre]
        exact hheader
    _ = .ok file.device := by
        rw [← hrest, readPrivateKey_field hpre7 file.privateKey_le,
          readClientId_field file.clientId_le]
        rfl

/-- A private key field is there, or the call throws a message. -/
theorem readPrivateKey_cases {pre : Bytes} (hpre : pre.length = 7) (rest : Bytes)
    (type : DeviceType) (securityLevel : UInt8) :
    (∃ what, readPrivateKey (pre ++ rest) type securityLevel = .error (.runtimeError what)) ∨
      ∃ pk after : Bytes, pk.length ≤ 65535 ∧
        rest = beBytes 2 pk.length ++ (pk ++ after) := by
  rcases exists_counted 2 rest with hshort | ⟨n, t, hn, rfl, hkey⟩ | ⟨pk, after, hpk, hrest⟩
  · have hlen : 7 + 2 > (pre ++ rest).length := by
      rw [List.length_append]
      omega
    exact .inl ⟨_, by rw [readPrivateKey, if_pos hlen]; rfl⟩
  · exact .inl ⟨_, by rw [readPrivateKey_split hpre hn, if_pos hkey]⟩
  · exact .inr ⟨pk, after, Nat.le_of_lt_succ hpk, hrest⟩

/-- A client id field is there, or the call throws a message. -/
theorem readClientId_cases (pre rest : Bytes) (type : DeviceType) (securityLevel : UInt8)
    (privateKey : Bytes) :
    (∃ what, readClientId (pre ++ rest) pre.length type securityLevel privateKey
        = .error (.runtimeError what)) ∨
      ∃ cid after : Bytes, cid.length ≤ 65535 ∧
        rest = beBytes 2 cid.length ++ (cid ++ after) := by
  rcases exists_counted 2 rest with hshort | ⟨n, t, hn, rfl, hid⟩ | ⟨cid, after, hcid, hrest⟩
  · have hlen : pre.length + 2 > (pre ++ rest).length := by
      rw [List.length_append]
      omega
    exact .inl ⟨_, by rw [readClientId, if_pos hlen]; rfl⟩
  · exact .inl ⟨_, by rw [readClientId_split hn, if_pos hid]⟩
  · exact .inr ⟨cid, after, Nat.le_of_lt_succ hcid, hrest⟩

/-- **Soundness**: an input is a file with something appended, or the call
throws a message. -/
theorem fromWvdData_cases (data : Bytes) :
    (∃ what, fromWvdData data = .error (.runtimeError what)) ∨
      ∃ (file : WvdFile) (t : Bytes), data = file.encode ++ t := by
  by_cases hshort : data.length < 8
  · exact .inl ⟨_, by rw [fromWvdData, if_pos hshort]; rfl⟩
  obtain ⟨m, d1, rfl, hm⟩ := exists_append_of_le_length (n := 3) (l := data) (by omega)
  rw [List.length_append, hm] at hshort
  obtain ⟨h, rest, rfl, hh⟩ := exists_append_of_le_length (n := 4) (l := d1) (by omega)
  rw [List.length_append, hh] at hshort
  obtain ⟨v, ty, lvl, fl, rfl⟩ : ∃ v ty lvl fl, h = [v, ty, lvl, fl] := by
    match h, hh with
    | [v, ty, lvl, fl], _ => exact ⟨v, ty, lvl, fl, rfl⟩
  have hheader := fromWvdData_header hm v ty lvl fl (show 1 ≤ rest.length by omega)
  rw [← List.append_assoc, hheader]
  have hpre7 : (m ++ [v, ty, lvl, fl]).length = 7 := by rw [List.length_append, hm]; rfl
  by_cases hmagic : m ≠ ascii "WVD"
  · exact .inl ⟨_, by rw [if_pos hmagic]⟩
  by_cases hversion : v ≠ 1 ∧ v ≠ 2
  · exact .inl ⟨_, by rw [if_neg hmagic, if_pos hversion]⟩
  rw [if_neg hmagic, if_neg hversion]
  -- the type byte is checked between the header and the fields
  rcases typeOf_cases ty with ⟨type, rfl⟩ | ⟨what, hwhat⟩
  swap
  · exact .inl ⟨what, by rw [hwhat]; rfl⟩
  rw [typeOf_code]
  show (∃ what, readPrivateKey _ type lvl = _) ∨ _
  rcases readPrivateKey_cases hpre7 rest type lvl with herror | ⟨pk, rest2, hpk, rfl⟩
  · exact .inl herror
  rw [readPrivateKey_field hpre7 hpk]
  rcases readClientId_cases _ rest2 type lvl pk with herror | ⟨cid, t, hcid, rfl⟩
  · exact .inl herror
  refine .inr ⟨{ version := v, type, securityLevel := lvl, flags := fl, privateKey := pk,
                 clientId := cid, version_known := by tauto, privateKey_le := hpk,
                 clientId_le := hcid }, t, ?_⟩
  rw [not_not.mp hmagic, WvdFile.encode, WvdFile.header]
  simp only [List.append_assoc]

/-! ## Main results -/

/-- `from_wvd_data` accepts exactly the files with anything appended. -/
theorem fromWvdData_recognizes :
    Recognizes fromWvdData WvdFile.encode (fun file _ => file.device)
      (fun e => ∃ what, e = .runtimeError what) where
  complete file t := fromWvdData_encode file t
  total data := by
    rcases fromWvdData_cases data with ⟨what, herror⟩ | hfile
    · exact .inr ⟨_, herror, what, rfl⟩
    · exact .inl hfile

/-- **The WVD file format**: every file with anything appended is read back;
what is returned is the device of such a file; every other input, every
strict prefix of a file included, ends in a message, and none in a read past
the buffer. -/
theorem fromWvdData_format (data : Bytes) :
    (∀ (file : WvdFile) (t : Bytes), fromWvdData (file.encode ++ t) = .ok file.device) ∧
    (∀ device, fromWvdData data = .ok device ↔
      ∃ (file : WvdFile) (t : Bytes), data = file.encode ++ t ∧ device = file.device) ∧
    ((∃ what, fromWvdData data = .error (.runtimeError what)) ↔
      ¬ ∃ (file : WvdFile) (t : Bytes), data = file.encode ++ t) ∧
    (∀ (file : WvdFile) (n : Fin file.encode.length),
      ∃ what, fromWvdData (file.encode.take n) = .error (.runtimeError what)) ∧
    fromWvdData data ≠ .error .outOfBounds := by
  refine ⟨fromWvdData_encode, ?_, ?_, ?_, ?_⟩
  · intro device
    exact fromWvdData_recognizes.ok_iff
  · constructor
    · rintro ⟨what, herror⟩ ⟨file, t, rfl⟩
      rw [fromWvdData_encode file t] at herror
      cases herror
    · intro hno
      obtain ⟨e, herror, what, rfl⟩ :=
        fromWvdData_recognizes.rejects fun file t hdata => hno ⟨file, t, hdata⟩
      exact ⟨what, herror⟩
  · intro file n
    -- the device fixes the length of its file, so a file is not a prefix of another's
    have hlen : ∀ (a b : WvdFile) (_ _ : Bytes), a.device = b.device →
        a.encode.length = b.encode.length := by
      intro a b _ _ h
      rw [WvdFile.encode_length, WvdFile.encode_length]
      show 11 + a.device.privateKey.length + a.device.clientId.length = _
      rw [h]
      rfl
    have hrest : file.encode.drop n ≠ [] := by
      intro h
      exact absurd (List.drop_eq_nil_iff.mp h) (Nat.not_le.mpr n.isLt)
    obtain ⟨e, herror, what, rfl⟩ := fromWvdData_recognizes.rejects_truncated hlen hrest
      (List.take_append_drop n file.encode).symm
    exact ⟨what, herror⟩
  · intro herror
    obtain ⟨what, hwhat⟩ := fromWvdData_recognizes.error_class herror
    cases hwhat

end Device

end WidevineCdm
