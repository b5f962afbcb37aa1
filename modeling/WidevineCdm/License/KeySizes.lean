import WidevineCdm.License.Atomicity
import WidevineCdm.License.Primitives

/-!
# The sizes `aes_cbc_decrypt` is called with

`EVP_DecryptInit_ex` reads 16 bytes through `key.data()` and 16 through
`iv.data()`, whatever the sizes of the vectors. The key is a CMAC and has 16
bytes. The IV is what the response says: nothing looks at its length, so a
response with an IV of another length in a container the loop reaches is a
read outside the vector. `Host.aesCalls` records what the calls were given.
-/

namespace WidevineCdm

open Lib Proto

variable {P : Platform}

/-! ## The calls made -/

theorem keeps_primitives : Primitives P (fun m => Keeps Host.aesCalls m) where
  succeeds _ _ := rfl
  evpPkeyDecrypt _ _ _ := rfl
  cmacFinal _ _ _ := rfl
  hmac _ _ _ := rfl
  evpDecryptUpdate _ _ _ _ := rfl

/-- Nothing is decrypted before the key extraction loop. -/
theorem keeps_openLicense (rsaKey : P.PKey) (contexts : Finmap fun _ : Bytes => Context)
    (licenseResponse : Bytes) :
    Keeps Host.aesCalls (openLicense rsaKey contexts licenseResponse) :=
  keeps_primitives.openLicense (keeps_closed Known _) rsaKey contexts licenseResponse

/-- A call of `aes_cbc_decrypt` is recorded whether it returns or throws. -/
theorem aesCbcDecrypt_aesCalls (key iv ciphertext : Bytes) (host : Host P) :
    (exec (Crypto.aesCbcDecrypt key iv ciphertext) host).2.aesCalls
      = host.aesCalls ++ [⟨key, iv, ciphertext⟩] := by
  rw [Crypto.aesCbcDecrypt, exec_bind, exec_modify]
  exact keeps_primitives.aesCbcDecrypt_calls (keeps_closed Known _) key iv ciphertext _

/-- The containers the loop calls `aes_cbc_decrypt` for. -/
def reached (encKey : Bytes) : List KeyContainer → Host P → List KeyContainer
  | [], _ => []
  | c :: rest, host =>
    c :: if decrypts encKey c host then
        reached encKey rest (exec (Crypto.aesCbcDecrypt encKey c.ivD c.keyD) host).2
      else []

/-- **The calls of the loop** are one for each container reached, in order. -/
theorem extractAll_aesCalls (encKey : Bytes) (cs : List KeyContainer) (host : Host P) :
    (extractAll encKey cs host).2.aesCalls =
      host.aesCalls ++ (reached encKey cs host).map fun c => ⟨encKey, c.ivD, c.keyD⟩ := by
  induction cs generalizing host with
  | nil => exact (List.append_nil _).symm
  | cons c rest ih =>
    rw [reached]
    cases hc : decrypts encKey c host with
    | true =>
      obtain ⟨key, hloop⟩ := extractAll_cons_of_decrypts rest hc
      rw [hloop, if_pos rfl, List.map_cons]
      show (extractAll encKey rest _).2.aesCalls = _
      rw [ih, aesCbcDecrypt_aesCalls, List.append_assoc]
      rfl
    | false =>
      obtain ⟨e, hloop⟩ := extractAll_cons_of_not_decrypts rest hc
      rw [hloop]
      exact aesCbcDecrypt_aesCalls ..

/-- A container is reached when those before it decrypt. -/
theorem mem_reached {encKey : Bytes} {cs : List KeyContainer} {host : Host P}
    {c : KeyContainer} :
    c ∈ reached encKey cs host ↔
      ∃ front back, cs = front ++ c :: back ∧ allDecrypt encKey front host := by
  induction cs generalizing host with
  | nil =>
    constructor
    · intro h
      cases h
    · rintro ⟨front, back, h, -⟩
      have hlen := congrArg List.length h
      rw [List.length_append, List.length_cons] at hlen
      cases hlen
  | cons d rest ih =>
    rw [reached, List.mem_cons]
    constructor
    · rintro (rfl | h)
      · exact ⟨[], rest, rfl, rfl⟩
      · split at h
        · next hd =>
          obtain ⟨front, back, rfl, hfront⟩ := ih.mp h
          exact ⟨d :: front, back, rfl, Bool.and_eq_true_iff.mpr ⟨hd, hfront⟩⟩
        · cases h
    · rintro ⟨front, back, h, hfront⟩
      cases front with
      | nil =>
        obtain ⟨rfl, -⟩ := List.cons.inj h
        exact .inl rfl
      | cons d' front =>
        obtain ⟨rfl, hrest⟩ := List.cons.inj h
        obtain ⟨hd, hfront⟩ := Bool.and_eq_true_iff.mp hfront
        rw [if_pos hd]
        exact .inr (ih.mpr ⟨front, back, hrest, hfront⟩)

/-! ## The key -/

theorem cmacAes_length (hcmac : P.CmacBlock) {key data mac : Bytes} {host host' : Host P}
    (h : exec (Crypto.cmacAes key data) host = (.ok mac, host')) : mac.length = 16 := by
  obtain ⟨-, h₁, -, h⟩ := exec_bind_eq_ok.mp h
  obtain ⟨-, h₂, -, h⟩ := exec_bind_eq_ok.mp h
  obtain ⟨-, h₃, -, h⟩ := exec_bind_eq_ok.mp h
  exact hcmac key data h₃.world mac _ (Prod.ext (demand_ok h) rfl)

/-- **The key of the loop has 16 bytes**, whatever the session key was. -/
theorem openLicense_encKey_length (hcmac : P.CmacBlock) {rsaKey : P.PKey}
    {contexts : Finmap fun _ : Bytes => Context} {licenseResponse : Bytes}
    {opened : OpenedLicense} {host host' : Host P}
    (ho : exec (openLicense rsaKey contexts licenseResponse) host = (.ok opened, host')) :
    opened.derived.encKey.length = 16 := by
  obtain ⟨-, context, h₁, h₂, -, -, hderived, -⟩ := openLicense_ok.mp ho
  obtain ⟨encKey, g₁, henc, hderived⟩ := exec_bind_eq_ok.mp hderived
  obtain ⟨server1, g₂, -, hderived⟩ := exec_bind_eq_ok.mp hderived
  obtain ⟨server2, g₃, -, hderived⟩ := exec_bind_eq_ok.mp hderived
  obtain ⟨client3, g₄, -, hderived⟩ := exec_bind_eq_ok.mp hderived
  obtain ⟨client4, g₅, -, hderived⟩ := exec_bind_eq_ok.mp hderived
  have hlength := cmacAes_length hcmac henc
  obtain ⟨hopened, -⟩ := Prod.mk.inj hderived
  rw [← Except.ok.inj hopened]
  exact hlength

/-! ## Main result -/

/-- Every `aes_cbc_decrypt` of a `parse_license` gets a key and an IV of 16
bytes, and a licence with a container for which it would not is refused. -/
def SizesChecked (M : Machine P) : Op → Prop
  | .parseLicense S licenseResponse =>
    (∃ calls, (step M (.parseLicense S licenseResponse)).2.host.aesCalls
        = M.host.aesCalls ++ calls ∧
      ∀ call ∈ calls, call.key.length = 16 ∧ call.iv.length = 16) ∧
    ∀ signedMessage license c,
      decodeLicense (P := P) licenseResponse = .ok (signedMessage, license) →
      c ∈ license.key → c.ivD.length ≠ 16 →
        ∃ e, (step M (.parseLicense S licenseResponse)).1 = .error e
  | _ => True

/-- A response whose key extraction loop starts, with a container whose IV has
not 16 bytes and before which every container decrypts. -/
def BadIv (M : Machine P) : Op → Prop
  | .parseLicense S licenseResponse =>
    ∃ (loop : LoopStart M S licenseResponse) (front back : List KeyContainer) (c : KeyContainer),
      loop.license.key = front ++ c :: back ∧ allDecrypt loop.derived.encKey front loop.host ∧
      c.ivD.length ≠ 16
  | _ => False

/-- The calls of a `parse_license` whose loop starts. -/
theorem step_parseLicense_aesCalls {M : Machine P} {S licenseResponse : Bytes}
    (loop : LoopStart M S licenseResponse) :
    (step M (.parseLicense S licenseResponse)).2.host.aesCalls = M.host.aesCalls
      ++ (reached loop.derived.encKey loop.license.key loop.host).map
        fun c => ⟨loop.derived.encKey, c.ivD, c.keyD⟩ := by
  have hs := loop.lookup_session
  have ho := loop.exec_openLicense
  have hquiet := keeps_openLicense M.impl.rsaKey loop.session.contexts licenseResponse M.host
  rw [ho] at hquiet
  rw [← hquiet, ← extractAll_aesCalls]
  by_cases hall : allDecrypt loop.derived.encKey loop.license.key loop.host
  · rw [step_parseLicense_accepted hs ho hall]
    rfl
  · obtain ⟨e, hstep⟩ := step_parseLicense_interrupted hs ho hall
    rw [hstep]
    rfl

/-- A call that throws before the loop gives `aes_cbc_decrypt` no sizes. -/
theorem sizesChecked_of_quiet {M : Machine P} {S licenseResponse : Bytes} {e : Exn}
    (he : (step M (.parseLicense S licenseResponse)).1 = .error e)
    (hquiet : (step M (.parseLicense S licenseResponse)).2.host.aesCalls = M.host.aesCalls) :
    SizesChecked M (.parseLicense S licenseResponse) := by
  constructor
  · refine ⟨[], by rw [hquiet, List.append_nil], ?_⟩
    intro call hcall
    cases hcall
  · intro signedMessage license c _ _ _
    exact ⟨e, he⟩

/-- A call is given the right sizes unless a container with a wrong IV is
reached. -/
theorem sizesChecked_iff (hcmac : P.CmacBlock) (M : Machine P) (op : Op) :
    SizesChecked M op ↔ ¬ BadIv M op := by
  cases op with
  | parseLicense S licenseResponse =>
    constructor
    · rintro ⟨⟨calls, hcalls, hsizes⟩, -⟩ ⟨loop, front, back, c, hkey, hfront, hiv⟩
      rw [step_parseLicense_aesCalls loop] at hcalls
      have hmem := mem_reached.mpr ⟨front, back, hkey, hfront⟩
      refine hiv (hsizes ⟨loop.derived.encKey, c.ivD, c.keyD⟩ ?_).2
      rw [← List.append_cancel_left hcalls]
      exact List.mem_map_of_mem hmem
    · intro hgood
      cases hs : M.impl.sessions.lookup S with
      | none =>
        have htarget : (Op.parseLicense S licenseResponse).target = some S := rfl
        have hstep := step_unknown htarget hs
        exact sizesChecked_of_quiet (by rw [hstep]) (by rw [hstep])
      | some s =>
        rcases ho : exec (openLicense M.impl.rsaKey s.contexts licenseResponse) M.host
          with ⟨e | opened, host⟩
        · have hquiet := keeps_openLicense M.impl.rsaKey s.contexts licenseResponse M.host
          rw [ho] at hquiet
          have hstep := step_parseLicense_refused hs ho
          refine sizesChecked_of_quiet (by rw [hstep]) ?_
          rw [hstep]
          exact hquiet
        · obtain ⟨loop, -, rfl, rfl⟩ := exists_loopStart hs ho
          refine ⟨⟨_, step_parseLicense_aesCalls loop, ?_⟩, ?_⟩
          · intro call hcall
            obtain ⟨c, hc, rfl⟩ := List.mem_map.mp hcall
            refine ⟨openLicense_encKey_length hcmac ho, ?_⟩
            obtain ⟨front, back, hkey, hfront⟩ := mem_reached.mp hc
            by_contra hiv
            exact hgood ⟨loop, front, back, c, hkey, hfront, hiv⟩
          · intro signedMessage license c hdec hc hiv
            obtain ⟨-, hlicense⟩ := Prod.mk.inj (Except.ok.inj (hdec.symm.trans loop.decodes))
            rw [hlicense] at hc
            obtain ⟨front, back, hkey⟩ := List.append_of_mem hc
            -- a container before the bad one does not decrypt
            have hall : ¬ allDecrypt loop.derived.encKey loop.license.key loop.host := by
              intro hall
              refine hgood ⟨loop, front, back, c, hkey, ?_, hiv⟩
              rw [hkey] at hall
              exact allDecrypt_of_append hall
            obtain ⟨e, hstep⟩ := step_parseLicense_interrupted hs ho hall
            exact ⟨e, by rw [hstep]⟩
  | _ => exact iff_of_true trivial (fun h => h)

/-- **Key and IV sizes, but for IVs nothing checked.** Along a run every
`aes_cbc_decrypt` of `parse_license` gets 16 bytes of key and 16 of IV, and
the licences for which it would not are refused, exactly when no call of the
run reaches a container whose IV has another length. -/
theorem decrypt_sizes (hcmac : P.CmacBlock) (start : Start P) (ops : List Op) :
    (∀ M op, start.Calls ops M op → SizesChecked M op) ↔
      ∀ M op, start.Calls ops M op → ¬ BadIv M op := by
  refine Start.calls_congr ?_ start ops
  intro M op
  exact sizesChecked_iff hcmac M op

/-- The calls of the recorded exchange reach no container with a wrong IV, so
they get the right sizes. -/
theorem decrypt_sizes_exchange :
    (∀ M op, Reference.chrome.Calls Reference.exchange M op → ¬ BadIv M op) ∧
      ∀ M op, Reference.chrome.Calls Reference.exchange M op → SizesChecked M op := by
  have hgood : ∀ M op, Reference.chrome.Calls Reference.exchange M op → ¬ BadIv M op := by
    intro M op hcall hbad
    cases op with
    | parseLicense S licenseResponse =>
      obtain ⟨loop, front, back, c, hkey, -, hiv⟩ := hbad
      obtain rfl := Reference.exchange_response hcall.mem
      rw [← Reference.license_of_honestResponse loop.decodes] at hkey
      have hsizes : ∀ c ∈ Reference.containers, c.ivD.length = 16 := by decide
      refine hiv (hsizes c ?_)
      rw [show Reference.containers = front ++ c :: back from hkey]
      exact List.mem_append_right _ List.mem_cons_self
    | _ => exact hbad
  exact ⟨hgood, (decrypt_sizes (Reference.cmacBlock Reference.nominal) Reference.chrome
    Reference.exchange).mpr hgood⟩

/-- A container with an IV of four bytes is decrypted. -/
theorem short_iv_decrypted :
    (Reference.platform Reference.nominal).CmacBlock ∧
    ¬ ∀ (ops : List Op) (M : Machine (Reference.platform Reference.nominal)) (op : Op),
      Reference.chrome.Calls ops M op → SizesChecked M op := by
  refine ⟨Reference.cmacBlock Reference.nominal, ?_⟩
  intro h
  let short := Reference.response
    (Reference.license [{ Reference.forgedContainer with iv := some [0x00, 0x01, 0x02, 0x03] }])
    none none
  obtain ⟨⟨calls, hcalls, hsizes⟩, -⟩ := h _ _ _ (Reference.chrome.calls_last
    Reference.oneSession (.parseLicense (Reference.sessionId 1) short))
  have hmade : (step (Reference.chrome.run Reference.oneSession).2
      (.parseLicense (Reference.sessionId 1) short)).2.host.aesCalls
      = [⟨beBytes 16 0x52A6C153DEA296E53BF3CF26601C229D, [0x00, 0x01, 0x02, 0x03],
          Reference.forgedContainer.keyD⟩] := by
    decide +kernel
  have hbefore : (Reference.chrome.run Reference.oneSession).2.host.aesCalls = [] := by
    decide +kernel
  rw [hmade, hbefore, List.nil_append] at hcalls
  have hiv := (hsizes _ (by rw [← hcalls]; exact List.mem_singleton_self _)).2
  cases hiv

end WidevineCdm
