import WidevineCdm.Format.PsshBox

/-!
# The PSSH parser accepts exactly the boxes

The sections of the parser put together. With a `size_t` that holds every
offset, the parser accepts exactly the boxes with anything appended and throws
a message on every other input. In a narrower `size_t`, of 32 bits or more,
the offsets within the input are still exact, and the one sum that can wrap is
that of the offset and the data size: the parser forms an invalid range exactly
when it does.
-/

namespace WidevineCdm

open Lib

namespace Pssh

/-! ## What `size_t` has to hold -/

/-- `size_t` holds the offsets of the parser up to the data size: those of the
longest list of key ids, or those within an input of `n` bytes. -/
def SizeHolds (w n : Nat) : Prop := 2 ^ 37 ≤ 2 ^ w ∨ 2 ^ 32 ≤ 2 ^ w ∧ n + 17 ≤ 2 ^ w

/-- The input declares, after the front of a box, a data size that takes the
offset out of `size_t`. -/
def SizeWraps (w : Nat) (data : Bytes) : Prop :=
  ∃ (box : PsshBox) (dataSize : Nat) (t : Bytes), data = box.front ++ (beBytes 4 dataSize ++ t) ∧
    dataSize < 2 ^ 32 ∧ 2 ^ w ≤ box.front.length + 4 + dataSize

/-- A `size_t` that holds every offset holds every data size after it. -/
theorem not_sizeWraps {w : Nat} (hw : 2 ^ 37 ≤ 2 ^ w) {data : Bytes} : ¬ SizeWraps w data := by
  rintro ⟨box, dataSize, t, -, hlt, hwrap⟩
  have hcount := box.kids_length_lt
  have hbounds := box.front_bounds
  omega

theorem SizeHolds.le {w n : Nat} (h : SizeHolds w n) : 2 ^ 32 ≤ 2 ^ w := by
  rcases h with h | h <;> omega

/-- What is left of a box's front within `size_t`, whatever follows it. -/
theorem SizeHolds.front {w : Nat} {box : PsshBox} {rest : Bytes}
    (h : SizeHolds w (box.front ++ rest).length) :
    box.front.length + 4 < 2 ^ w := by
  have hcount := box.kids_length_lt
  have hbounds := box.front_bounds
  rw [List.length_append] at h
  rcases h with h | ⟨-, h⟩
  · omega
  · omega

/-! ## The outcomes of the parser -/

/-- **Completeness**: every box parses to its fields, whatever follows it. -/
theorem exec_parse_encode {w : Nat} {box : PsshBox} {t : Bytes}
    (hw : SizeHolds w (box.encode ++ t).length) :
    exec (parse w) (unparsed (box.encode ++ t)) = (.ok (), box.fields (box.encode ++ t)) := by
  have hraw : box.encode ++ t
      = box.front ++ (beBytes 4 box.initData.length ++ (box.initData ++ t)) := by
    rw [box.encode_eq, List.append_assoc, List.append_assoc]
  rw [hraw] at hw ⊢
  have hsize := hw.le
  have hfront := hw.front
  have hcount := box.kids_length_lt
  have hbounds := box.front_bounds
  have hlength : (box.front
      ++ (beBytes 4 box.initData.length ++ (box.initData ++ t))).length
        = box.front.length + 4 + box.initData.length + t.length := by
    simp only [List.length_append, beBytes_length, Nat.add_assoc]
  have hlong : 32 ≤ (box.front
      ++ (beBytes 4 box.initData.length ++ (box.initData ++ t))).length := by
    omega
  have hlt := box.initData_lt
  -- init data that is there ends within `size_t`
  have hdata : box.front.length + 4 + box.initData.length < 2 ^ w := by
    rcases hw with hw | ⟨-, hw⟩
    · omega
    · omega
  rw [parse_eq, exec_bind_ok (exec_front (by omega) box (by omega) hlong),
    exec_parseInitData hfront hsize hlt rfl, if_neg (by omega),
    if_neg (by rw [List.length_append]; omega), List.take_left' rfl]
  rfl

/-- A data size that wraps ends in a range that is not one of the buffer. -/
theorem exec_parse_wraps {w : Nat} {data : Bytes} (hw : SizeHolds w data.length)
    (h : SizeWraps w data) : (exec (parse w) (unparsed data)).1 = .error .outOfBounds := by
  obtain ⟨box, dataSize, t, rfl, hlt, hwrap⟩ := h
  have hsize := hw.le
  have hfront := hw.front
  have hbounds := box.front_bounds
  have hlong : 32 ≤ (box.front ++ (beBytes 4 dataSize ++ t)).length := by
    rw [List.length_append, List.length_append, beBytes_length]
    omega
  rw [parse_eq, exec_bind_ok (exec_front (by omega) box (by omega) hlong),
    exec_parseInitData hfront hsize hlt rfl, if_pos hwrap]

/-- A computation that fails fails with whatever follows it. -/
theorem exec_bind_fst_error {α β : Type} {m : EStateM Exn Pssh α} {k : α → EStateM Exn Pssh β}
    {s : Pssh} {e : Exn} (h : (exec m s).1 = .error e) :
    exec (m >>= k) s = (.error e, (exec m s).2) :=
  exec_bind_error (Prod.ext h rfl)

/-- **Soundness**: an input is a box with something appended, or its data size
wraps, or the parser throws a message, having collected no more key ids than
fit after the count. -/
theorem exec_parse_cases {w : Nat} {data : Bytes} (hw : SizeHolds w data.length) :
    (∃ what, (exec (parse w) (unparsed data)).1 = .error (.runtimeError what) ∧
        16 * (exec (parse w) (unparsed data)).2.keyIds.length ≤ data.length - 32) ∨
      SizeWraps w data ∨ ∃ (box : PsshBox) (t : Bytes), data = box.encode ++ t := by
  have hmin : min (2 ^ 37) (data.length + 17) ≤ 2 ^ w := by
    rcases hw with hw | hw <;> omega
  rw [parse_eq]
  -- past the front only the data size and the init data are left to decide
  rcases exec_front_cases hmin with ⟨what, herror, hbound⟩ | ⟨box, rest, rfl, hlong⟩
  · rw [exec_bind_fst_error herror]
    exact .inl ⟨what, rfl, hbound⟩
  have hsize := hw.le
  have hfront := hw.front
  have hraw : ({ box.fields (box.front ++ rest) with initData := [] } : Pssh).rawData
      = box.front ++ rest := rfl
  rw [exec_bind_ok (exec_front (by omega) box (by omega) hlong)]
  rcases exec_parseInitData_cases hfront hsize hraw
    with ⟨what, hinit⟩ | ⟨n, t, hn, hwrap, rfl⟩ | ⟨d, t, hd, rfl⟩
  · rw [hinit]
    refine .inl ⟨what, rfl, ?_⟩
    show 16 * box.kids.length ≤ _
    obtain ⟨hlisted, hunlisted⟩ := box.front_length
    rw [List.length_append]
    by_cases hv : box.version = 1
    · have hlen := hlisted hv
      omega
    · have hlen := hunlisted hv
      omega
  · exact .inr (.inl ⟨box, n, t, rfl, hn, hwrap⟩)
  · have hencode := ({ box with initData := d, initData_lt := hd } : PsshBox).encode_eq
    refine .inr (.inr ⟨{ box with initData := d, initData_lt := hd }, t, ?_⟩)
    rw [hencode, List.append_assoc, List.append_assoc]
    rfl

theorem fromBytes_eq_error {w : Nat} {data : Bytes} {e : Exn}
    (h : (exec (parse w) (unparsed data)).1 = .error e) : fromBytes w data = .error e := by
  rw [fromBytes]
  generalize exec (parse w) (unparsed data) = r at h
  obtain ⟨outcome, pssh⟩ := r
  subst h
  rfl

/-! ## Main results -/

/-- `from_bytes` accepts exactly the boxes with anything appended, whenever
`size_t` holds the offsets. -/
theorem fromBytes_recognizes {w : Nat} (hw : 2 ^ 37 ≤ 2 ^ w) :
    Recognizes (fromBytes w) PsshBox.encode PsshBox.fields
      (fun e => ∃ what, e = .runtimeError what) where
  complete box t := by rw [fromBytes, exec_parse_encode (.inl hw)]
  total data := by
    rcases exec_parse_cases (.inl hw) with ⟨what, herror, -⟩ | hwraps | hbox
    · exact .inr ⟨.runtimeError what, fromBytes_eq_error herror, what, rfl⟩
    · exact absurd hwraps (not_sizeWraps hw)
    · exact .inl hbox

/-- A box is long enough for its key ids. -/
theorem kids_length_le (box : PsshBox) (t : Bytes) :
    box.kids.length ≤ ((box.encode ++ t).length - 36) / 16 := by
  have hencode : (box.encode ++ t).length
      = box.front.length + (4 + (box.initData.length + t.length)) := by
    simp only [box.encode_eq, List.length_append, beBytes_length, Nat.add_assoc]
  obtain ⟨hlisted, hunlisted⟩ := box.front_length
  by_cases hv : box.version = 1
  · have hlen := hlisted hv
    omega
  · have hlen := hunlisted hv
    omega

/-- However many key ids the box declares, the parser collects no more than
the input holds after the count, also on its way to an exception. -/
theorem collected_le {w : Nat} (hw : 2 ^ 37 ≤ 2 ^ w) (data : Bytes) :
    (exec (parse w) (unparsed data)).2.keyIds.length ≤ (data.length - 32) / 16 := by
  have hholds : SizeHolds w data.length := .inl hw
  rcases exec_parse_cases hholds with ⟨-, -, hbound⟩ | hwraps | ⟨box, t, rfl⟩
  · omega
  · exact absurd hwraps (not_sizeWraps hw)
  · have hle := kids_length_le box t
    rw [exec_parse_encode (.inl hw)]
    show box.kids.length ≤ _
    omega

/-- **The PSSH box format**, with a 64-bit `size_t`: every box with anything
appended is parsed to its fields; what is returned is the fields of such a
box; every other input ends in a message, none in a read past the buffer; and
the key ids returned, or collected before a throw, fit the input. -/
theorem fromBytes_format (data : Bytes) :
    (∀ (box : PsshBox) (t : Bytes),
      fromBytes 64 (box.encode ++ t) = .ok (box.fields (box.encode ++ t)) ∧
      (box.fields (box.encode ++ t)).keyIds.length ≤ ((box.encode ++ t).length - 36) / 16) ∧
    (∀ pssh, fromBytes 64 data = .ok pssh ↔
      ∃ (box : PsshBox) (t : Bytes), data = box.encode ++ t ∧ pssh = box.fields data) ∧
    ((∃ what, fromBytes 64 data = .error (.runtimeError what)) ↔
      ¬ ∃ (box : PsshBox) (t : Bytes), data = box.encode ++ t) ∧
    fromBytes 64 data ≠ .error .outOfBounds ∧
    (exec (parse 64) (unparsed data)).2.keyIds.length ≤ (data.length - 32) / 16 := by
  have hw : 2 ^ 37 ≤ 2 ^ 64 := by decide
  have hformat := fromBytes_recognizes hw
  refine ⟨?_, ?_, ?_, ?_, collected_le hw data⟩
  · intro box t
    constructor
    · exact hformat.complete box t
    · show box.kids.length ≤ _
      exact kids_length_le box t
  · intro pssh
    exact hformat.ok_iff
  · constructor
    · rintro ⟨what, herror⟩ ⟨box, t, rfl⟩
      rw [hformat.complete box t] at herror
      cases herror
    · intro hno
      obtain ⟨e, herror, what, rfl⟩ := hformat.rejects fun box t hdata => hno ⟨box, t, hdata⟩
      exact ⟨what, herror⟩
  · intro herror
    obtain ⟨what, hwhat⟩ := hformat.error_class herror
    cases hwhat

/-- A parse that throws can have collected more: a version 1 box cut off
after its only key id, 48 bytes in all, throws with that key id collected. -/
theorem collected_past_data_size :
    ¬ ∀ data : Bytes,
      (exec (parse 64) (unparsed data)).2.keyIds.length ≤ (data.length - 36) / 16 := by
  intro h
  have hcut := h (header [0, 0, 0, 48] (ascii "pssh") 1 [0, 0, 0] widevineId
    ++ (beBytes 4 1 ++ List.replicate 16 0))
  revert hcut
  decide +kernel

/-! ## Narrow `size_t` -/

theorem sizeHolds_of_length_lt {w n : Nat} (hw : 32 ≤ w) (hn : n < 2 ^ (w - 1)) :
    SizeHolds w n := by
  have hpow : 2 ^ 31 ≤ 2 ^ (w - 1) := Nat.pow_le_pow_right (by decide) (by omega)
  have hdouble : 2 * 2 ^ (w - 1) = 2 ^ w := mul_pow_sub_one (by omega) 2
  exact .inr ⟨by omega, by omega⟩

/-- From 33 bits on, no data size wraps in an input that half of `size_t`
holds. -/
theorem not_sizeWraps_of_length_lt {w : Nat} (hw : 33 ≤ w) {data : Bytes}
    (hlen : data.length < 2 ^ (w - 1)) : ¬ SizeWraps w data := by
  rintro ⟨box, dataSize, t, rfl, hlt, hwrap⟩
  have hpow : 2 ^ 32 ≤ 2 ^ (w - 1) := Nat.pow_le_pow_right (by decide) (by omega)
  have hdouble : 2 * 2 ^ (w - 1) = 2 ^ w := mul_pow_sub_one (by omega) 2
  rw [List.length_append, List.length_append, beBytes_length] at hlen
  omega

/-- **Bounds**: in an input that half of `size_t` holds, every element read
and every range formed lies inside the buffer exactly when no declared data
size takes the offset out of `size_t`, which needs a `size_t` of 32 bits. No
count of key ids does. -/
theorem fromBytes_bounds {w : Nat} (hw : 32 ≤ w) {data : Bytes}
    (hlen : data.length < 2 ^ (w - 1)) :
    (fromBytes w data ≠ .error .outOfBounds ↔ ¬ SizeWraps w data) ∧
      (33 ≤ w → fromBytes w data ≠ .error .outOfBounds) := by
  have hholds := sizeHolds_of_length_lt hw hlen
  have hsafe : ¬ SizeWraps w data → fromBytes w data ≠ .error .outOfBounds := by
    intro hno hbad
    rcases exec_parse_cases hholds with ⟨what, herror, -⟩ | hwraps | ⟨box, t, rfl⟩
    · rw [fromBytes_eq_error herror] at hbad
      cases hbad
    · exact hno hwraps
    · rw [fromBytes, exec_parse_encode hholds] at hbad
      cases hbad
  constructor
  · constructor
    · intro hne hwraps
      exact hne (fromBytes_eq_error (exec_parse_wraps hholds hwraps))
    · exact hsafe
  · intro hwide
    exact hsafe (not_sizeWraps_of_length_lt hwide hlen)

/-- A 32-byte box of version 0 with an empty init data, on a 32-bit target. -/
theorem fromBytes_bounds_box :
    (fromBytes 32 (header [0, 0, 0, 32] (ascii "pssh") 0 [0, 0, 0] widevineId ++ [0, 0, 0, 0])
        ≠ .error .outOfBounds ↔
      ¬ SizeWraps 32 (header [0, 0, 0, 32] (ascii "pssh") 0 [0, 0, 0] widevineId
        ++ [0, 0, 0, 0])) ∧
      (33 ≤ 32 → fromBytes 32 (header [0, 0, 0, 32] (ascii "pssh") 0 [0, 0, 0] widevineId
        ++ [0, 0, 0, 0]) ≠ .error .outOfBounds) :=
  fromBytes_bounds (by decide) (by decide)

/-- The same box with the data size `0xFFFFFFF0` is not rejected as truncated
on a 32-bit target: the sum wraps to 16, and the range from 32 to 16 is formed. -/
theorem fromBytes_invalid_range :
    ¬ ∀ w : Nat, w = 64 ∨ w = 32 → ∀ data : Bytes, data.length < 2 ^ (w - 1) →
      fromBytes w data ≠ .error .outOfBounds := by
  intro h
  have hread := h 32 (.inr rfl)
    (header [0, 0, 0, 32] (ascii "pssh") 0 [0, 0, 0] widevineId ++ [0xFF, 0xFF, 0xFF, 0xF0])
    (by decide)
  revert hread
  decide +kernel

end Pssh

end WidevineCdm
