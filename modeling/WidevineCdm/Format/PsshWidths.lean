import WidevineCdm.Format.PsshParser

/-!
# The PSSH parser on every target

The parser forms its offsets in `size_t`, so builds of different widths could
take the same box differently. They do not: in an input that half of `size_t`
holds, both builds throw the same exception or return the same object, except
where a declared data size takes the offset out of the narrower `size_t`. The
64-bit build rejects that box as truncated; in the narrower one the sum wraps
past the check and the range it forms ends before it begins.
-/

namespace WidevineCdm

open Lib

namespace Pssh

variable {w v : Nat}

/-! ## The front of a box -/

/-- Past the header the two parsers collect the same key ids, or fail alike. -/
theorem exec_parseKeyIds_width {data pre rest : Bytes}
    (hw : min (2 ^ 37) (data.length + 17) ≤ 2 ^ w) (hv : min (2 ^ 37) (data.length + 17) ≤ 2 ^ v)
    {pssh : Pssh} (hdata : data = pre ++ rest) (hpre : pre.length = 28)
    (hraw : pssh.rawData = data) :
    exec (parseKeyIds w pre.length) pssh = exec (parseKeyIds v pre.length) pssh := by
  rw [hdata] at hraw
  rw [hdata, List.length_append, hpre] at hw hv
  by_cases hversion : pssh.version = 1
  · rcases exists_beBytes 4 rest with hshort | ⟨n, t, hn, rfl⟩
    · rw [exec_parseKeyIds_short (by omega) hraw hversion hshort,
        exec_parseKeyIds_short (by omega) hraw hversion hshort]
    · have hcount : (pre ++ beBytes 4 n).length = 32 := by
        rw [List.length_append, beBytes_length, hpre]
      have hloop : pssh.rawData = (pre ++ beBytes 4 n) ++ t :=
        hraw.trans (List.append_assoc ..).symm
      rw [List.length_append, beBytes_length] at hw hv
      rw [exec_parseKeyIds (by omega) hn hraw hversion,
        exec_parseKeyIds (by omega) hn hraw hversion,
        exec_readKids hloop (by omega), exec_readKids hloop (by omega)]
  · rw [exec_parseKeyIds_none hversion, exec_parseKeyIds_none hversion]

/-- Both parsers come to the data size alike. -/
theorem exec_front_width {data : Bytes} (hw : min (2 ^ 37) (data.length + 17) ≤ 2 ^ w)
    (hv : min (2 ^ 37) (data.length + 17) ≤ 2 ^ v) :
    exec (parseHeader w >>= parseKeyIds w) (unparsed data)
      = exec (parseHeader v >>= parseKeyIds v) (unparsed data) := by
  by_cases hshort : data.length < 32
  · have hsmall : ∀ u, exec (parseHeader u) (unparsed data)
        = (.error (.runtimeError "PSSH too small"), unparsed data) := by
      intro u
      rw [parseHeader, exec_bind_ok (exec_get _)]
      show exec (if data.length < 32 then _ else _) _ = _
      rw [if_pos hshort]
      rfl
    rw [exec_bind_error (hsmall w), exec_bind_error (hsmall v)]
  · obtain ⟨z, m, version, f, sys, rest, hdata, hz, hm, hf, hsys, hrest⟩ :=
      exists_header (Nat.not_lt.mp hshort)
    have h28 := header_length version hz hm hf hsys
    have hraw := hdata.trans (header_append ..)
    have hw' : exec (parseHeader w) (unparsed data) = _ :=
      exec_parseHeader (by omega) hz hm hf hsys hrest hraw
    have hv' : exec (parseHeader v) (unparsed data) = _ :=
      exec_parseHeader (by omega) hz hm hf hsys hrest hraw
    by_cases hmagic : m = ascii "pssh"
    · rw [if_pos hmagic, ← h28] at hw' hv'
      rw [exec_bind_ok hw', exec_bind_ok hv']
      exact exec_parseKeyIds_width hw hv hdata h28 rfl
    · rw [if_neg hmagic] at hw' hv'
      rw [exec_bind_error hw', exec_bind_error hv']

/-! ## The whole box -/

/-- Where no data size wraps, the two parsers run alike to the end. -/
theorem exec_parse_width {data : Bytes} (hw : SizeHolds w data.length)
    (hv : SizeHolds v data.length) (hnw : ¬ SizeWraps w data) (hnv : ¬ SizeWraps v data) :
    exec (parse w) (unparsed data) = exec (parse v) (unparsed data) := by
  have hminw : min (2 ^ 37) (data.length + 17) ≤ 2 ^ w := by
    rcases hw with hw | hw <;> omega
  have hminv : min (2 ^ 37) (data.length + 17) ≤ 2 ^ v := by
    rcases hv with hv | hv <;> omega
  have hfront := exec_front_width hminw hminv
  rw [parse_eq, parse_eq]
  rcases exec_front_cases hminw with ⟨what, herror, -⟩ | ⟨box, rest, rfl, hlong⟩
  · have herror' : (exec (parseHeader v >>= parseKeyIds v) (unparsed data)).1
        = .error (.runtimeError what) := by
      rw [← hfront]
      exact herror
    rw [exec_bind_fst_error herror, exec_bind_fst_error herror', hfront]
  · have hw4 := hw.front
    have hv4 := hv.front
    have hsizew := hw.le
    have hsizev := hv.le
    have hcollected := exec_front (by omega) box (w := w) (by omega) hlong
    rw [exec_bind_ok hcollected, exec_bind_ok (hfront ▸ hcollected)]
    have hraw : ({ box.fields (box.front ++ rest) with initData := [] } : Pssh).rawData
        = box.front ++ rest := rfl
    rcases exists_beBytes 4 rest with hshort | ⟨n, t, hn, rfl⟩
    · rw [exec_parseInitData_short hw4 hraw hshort, exec_parseInitData_short hv4 hraw hshort]
    · -- the data size wraps in neither
      rw [exec_parseInitData hw4 hsizew hn hraw,
        exec_parseInitData hv4 hsizev hn hraw,
        if_neg fun hwrap => hnw ⟨box, n, t, rfl, hn, hwrap⟩,
        if_neg fun hwrap => hnv ⟨box, n, t, rfl, hn, hwrap⟩]

/-- A data size that wraps is past the end of the input, and rejected where it
does not wrap. -/
theorem fromBytes_truncated {data : Bytes} (hw : 32 ≤ w) (hlen : data.length < 2 ^ (w - 1))
    (hwraps : SizeWraps w data) :
    fromBytes 64 data = .error (.runtimeError "Truncated PSSH (init data)") := by
  obtain ⟨box, n, t, rfl, hn, hwrap⟩ := hwraps
  have h64 : SizeHolds 64 (box.front ++ (beBytes 4 n ++ t)).length := .inl (by decide)
  have hfront := h64.front
  have hcount := box.kids_length_lt
  have hbounds := box.front_bounds
  have hdouble : 2 * 2 ^ (w - 1) = 2 ^ w := mul_pow_sub_one (by omega) 2
  have hhalf : 2 ^ 31 ≤ 2 ^ (w - 1) := Nat.pow_le_pow_right (by decide) (by omega)
  simp only [List.length_append, beBytes_length] at hlen
  have hlong : 32 ≤ (box.front ++ (beBytes 4 n ++ t)).length := by
    simp only [List.length_append, beBytes_length]
    omega
  have hcollected := exec_front (w := 64) (by decide) box (by omega) hlong
  refine fromBytes_eq_error ?_
  rw [parse_eq, exec_bind_ok hcollected,
    exec_parseInitData hfront (by decide) hn rfl, if_neg (by omega), if_pos (by omega)]

/-- **Portability.** In an input that half of a `size_t` of 32 or more bits
holds, the parser ends as it does with 64 bits, in the same object or the same
message, unless a data size takes the offset out of `size_t`: then 64 bits
reject the box as truncated, and with the narrower `size_t` an invalid range is
formed. The same holds of the text form. -/
theorem fromBytes_portable (hw : 32 ≤ w) {data : Bytes} (hlen : data.length < 2 ^ (w - 1)) :
    (SizeWraps w data → fromBytes w data = .error .outOfBounds ∧
      fromBytes 64 data = .error (.runtimeError "Truncated PSSH (init data)")) ∧
    (¬ SizeWraps w data → fromBytes w data = fromBytes 64 data) ∧
    ∀ base64 : Bytes, base64Decode base64 = data → ¬ SizeWraps w data →
      fromBase64 w base64 = fromBase64 64 base64 := by
  have hholds := sizeHolds_of_length_lt hw hlen
  have h64 : SizeHolds 64 data.length := .inl (by decide)
  have hsame : ¬ SizeWraps w data → fromBytes w data = fromBytes 64 data := by
    intro hno
    rw [fromBytes, fromBytes,
      exec_parse_width hholds h64 hno (not_sizeWraps (by decide))]
  refine ⟨fun hwraps => ⟨?_, fromBytes_truncated hw hlen hwraps⟩, hsame, ?_⟩
  · exact fromBytes_eq_error (exec_parse_wraps hholds hwraps)
  · rintro base64 rfl hno
    exact hsame hno

/-- The box whose range is invalid with 32 bits is rejected with 64. -/
theorem fromBytes_portable_wraps :
    fromBytes 32 (header [0, 0, 0, 32] (ascii "pssh") 0 [0, 0, 0] widevineId
        ++ [0xFF, 0xFF, 0xFF, 0xF0]) = .error .outOfBounds ∧
      fromBytes 64 (header [0, 0, 0, 32] (ascii "pssh") 0 [0, 0, 0] widevineId
        ++ [0xFF, 0xFF, 0xFF, 0xF0]) = .error (.runtimeError "Truncated PSSH (init data)") := by
  refine (fromBytes_portable (w := 32) (by decide) (by decide)).1 ?_
  refine ⟨{ size := ⟨[0, 0, 0, 32], rfl⟩, version := 0, flags := ⟨[0, 0, 0], rfl⟩,
            systemId := ⟨widevineId, rfl⟩, keyIds := [], initData := [], keyIds_lt := by decide,
            keyIds_nil := fun _ => rfl, initData_lt := by decide },
    0xFFFFFFF0, [], by decide +kernel, by decide, by decide +kernel⟩

end Pssh

end WidevineCdm
