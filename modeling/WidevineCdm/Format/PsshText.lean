import WidevineCdm.Format.Base64
import WidevineCdm.Format.PsshParser

/-!
# PSSH boxes as text

`from_base64` is `from_bytes` after the decoder, which computes the reference
decoding of its text. Two facts carry over to text: decoding undoes encoding,
and decoding less of a text gives the front of its bytes. Since a box parses
to the same fields whatever follows it, a text that is cut short, or that the
decoder cuts at a character outside the alphabet, is rejected or gives the
fields of the whole.
-/

namespace WidevineCdm

open Lib

namespace Pssh

/-! ## The decoder and `from_base64` -/

/-- **Base 64**: on every input the decoder puts out the `⌊6 n / 8⌋` bytes cut
from the six-bit values of the `n` characters in front of the first one
outside the alphabet. So `from_base64` of an encoding, padded or not, is
`from_bytes` of what was encoded. -/
theorem base64_reference (s : Bytes) :
    base64Decode s = cutBytes (Base64.bits (Base64.text s)) ∧
      (base64Decode s).length = 6 * (Base64.text s).length / 8 ∧
      ∀ (w : Nat) (padded : Bool) (b : Bytes),
        fromBase64 w (Base64.encode padded b) = fromBytes w b := by
  have heq := base64Decode_eq s
  refine ⟨heq, ?_, ?_⟩
  · rw [heq, Base64.decode_length]
  · intro w padded b
    rw [fromBase64, base64Decode_eq, Base64.decode_encode]

/-! ## Text cut short -/

/-- Two objects agree on all but the raw bytes. -/
def Agrees (a b : Pssh) : Prop :=
  a.version = b.version ∧ a.systemId = b.systemId ∧ a.keyIds = b.keyIds ∧ a.initData = b.initData

/-- What is returned for a byte string is returned, but for the raw bytes, for
every longer one. -/
theorem fromBytes_extend {w : Nat} {data t : Bytes} (hw : SizeHolds w (data ++ t).length)
    {pssh : Pssh} (h : fromBytes w data = .ok pssh) :
    ∃ pssh', fromBytes w (data ++ t) = .ok pssh' ∧ Agrees pssh pssh' := by
  have hdata : SizeHolds w data.length := by
    rw [List.length_append] at hw
    exact hw.imp_right fun hle => ⟨hle.1, by omega⟩
  rcases exec_parse_cases hdata with ⟨what, herror, -⟩ | hwraps | ⟨box, u, rfl⟩
  · rw [fromBytes_eq_error herror] at h
    cases h
  · rw [fromBytes_eq_error (exec_parse_wraps hdata hwraps)] at h
    cases h
  · rw [fromBytes, exec_parse_encode hdata] at h
    cases h
    rw [List.append_assoc] at hw ⊢
    exact ⟨box.fields (box.encode ++ (u ++ t)), by rw [fromBytes, exec_parse_encode hw], rfl,
      rfl, rfl, rfl⟩

/-- A text that extends another by more characters parses to the same fields. -/
theorem fromBase64_extend {w : Nat} {p t : Bytes} (hw : SizeHolds w (p ++ t).length) {pssh : Pssh}
    (h : fromBase64 w p = .ok pssh) :
    ∃ pssh', fromBase64 w (p ++ t) = .ok pssh' ∧ Agrees pssh pssh' := by
  obtain ⟨u, hu⟩ := Base64.decode_prefix_append p t
  have hle := Base64.decode_length_le (p ++ t)
  rw [fromBase64, base64Decode_eq] at h
  rw [fromBase64, base64Decode_eq, ← hu]
  rw [← hu] at hle
  exact fromBytes_extend (hw.imp_right fun hn => ⟨hn.1, by omega⟩) h

/-- A text parses, or a message is thrown. -/
theorem fromBase64_total (s : Bytes) :
    (∃ what, fromBase64 64 s = .error (.runtimeError what)) ∨
      ∃ pssh, fromBase64 64 s = .ok pssh := by
  have hformat := fromBytes_recognizes (w := 64) (by decide)
  rcases hformat.total (base64Decode s) with ⟨box, t, hdata⟩ | ⟨e, herror, what, rfl⟩
  · refine .inr ⟨box.fields (box.encode ++ t), ?_⟩
    rw [fromBase64, hdata]
    exact hformat.complete box t
  · exact .inl ⟨what, herror⟩

/-- **Truncation**: if a text is accepted, every text it is the front of is
accepted with the same version, system id, key ids and init data. So a text
cut short, or cut by the decoder at a character outside the alphabet, ends in
a message or gives the fields of the uncut text. -/
theorem fromBase64_truncated (p t : Bytes) :
    (∀ w pssh, SizeHolds w (p ++ t).length → fromBase64 w p = .ok pssh →
      ∃ pssh', fromBase64 w (p ++ t) = .ok pssh' ∧ Agrees pssh pssh') ∧
    ∀ cut, (cut = p ∨ ∃ c q, c ∉ Base64.alphabet ∧ cut = p ++ c :: q) →
      (∃ what, fromBase64 64 cut = .error (.runtimeError what)) ∨
        ∃ pssh pssh', fromBase64 64 cut = .ok pssh ∧ fromBase64 64 (p ++ t) = .ok pssh' ∧
          Agrees pssh pssh' := by
  constructor
  · intro w pssh hw h
    exact fromBase64_extend hw h
  · intro cut hcut
    have hsame : fromBase64 64 cut = fromBase64 64 p := by
      rcases hcut with rfl | ⟨c, q, hc, rfl⟩
      · rfl
      · rw [fromBase64, fromBase64, base64Decode_eq, base64Decode_eq,
          Base64.decode_append_cons p hc]
    have hwide : SizeHolds 64 (p ++ t).length := .inl (by decide)
    rw [hsame]
    rcases fromBase64_total p with herror | ⟨pssh, hok⟩
    · exact .inl herror
    · obtain ⟨pssh', hok', hagrees⟩ := fromBase64_extend hwide hok
      exact .inr ⟨pssh, pssh', hok, hok', hagrees⟩

/-- A line break is such a cut: the 32 bytes decoded in front of it are a
box, and the rest of the text is not looked at. -/
example : (fromBase64 64 (ascii "AAAAIHBzc2gAAAAA7e+LqXnWSs6jyCfc1R0h7QAAAAA\nAAAA")).toOption.map
    (fun pssh => (pssh.systemId, pssh.keyIds, pssh.initData)) = some (widevineId, [], []) := by
  rw [fromBase64, base64Decode_eq]
  decide +kernel

end Pssh

end WidevineCdm
