import WidevineCdm.License.Atomicity
import WidevineCdm.License.Primitives

/-!
# Ciphertexts that are not whole blocks

`aes_cbc_decrypt` makes one update call and no final call, and without padding
it is the final call that reports an incomplete last block. So the wrapper
returns the complete blocks and drops the rest (`aes_cbc_encrypt` makes both
calls), and `parse_license` stores what is left of a truncated key as if it
were the key. The update call is told the number of bytes in an `int`, so a
ciphertext with more is not decrypted whole either.
-/

namespace WidevineCdm

open Lib Proto

variable {P : Platform} {C : BlockCipher 16}

/-! ## One decryption -/

/-- The calls of a decryption report success, one after the other. -/
def decryptionSucceeds (P : Platform) (key iv ciphertext : Bytes) (w : P.World) : Bool :=
  let created := P.succeeds .evpCipherCtxNew w
  let initialized := P.succeeds (.evpDecryptInit key iv) created.2
  let decrypted := P.evpDecryptUpdate ⟨key, iv, false⟩ ciphertext
    (Int32.ofNat ciphertext.length) initialized.2
  created.1 && initialized.1 && decrypted.1.isSome

/-- A decryption returns exactly when its calls succeed. -/
theorem isOk_aesCbcDecrypt (key iv ciphertext : Bytes) (host : Host P) :
    (exec (Crypto.aesCbcDecrypt key iv ciphertext) host).1.isOk
      = decryptionSucceeds P key iv ciphertext host.world := by
  rw [Crypto.aesCbcDecrypt, exec_bind_ok (exec_modify ..), exec_bind, exec_require,
    decryptionSucceeds]
  dsimp only
  cases (P.succeeds .evpCipherCtxNew host.world).1 with
  | false => rfl
  | true =>
    rw [if_pos rfl, Bool.true_and]
    show (exec (Crypto.require (.evpDecryptInit key iv) _ >>= _) _).1.isOk = _
    rw [exec_bind, exec_require]
    dsimp only
    cases (P.succeeds (.evpDecryptInit key iv)
      (P.succeeds .evpCipherCtxNew host.world).2).1 with
    | false => rfl
    | true => exact isOk_demand ..

/-- A decryption that returns has decrypted the whole ciphertext. -/
def DecryptsWhole (C : BlockCipher 16) (key iv ciphertext : Bytes) (host : Host P) : Prop :=
  ∀ plaintext host', exec (Crypto.aesCbcDecrypt key iv ciphertext) host = (.ok plaintext, host') →
    plaintext = cbcDecrypt C key iv ciphertext ∧ plaintext.length = ciphertext.length

/-- Exactly the ciphertexts of whole blocks whose length is an `int` are
decrypted whole, unless a call fails and nothing is returned. -/
theorem decryptsWhole_iff (hcbc : P.CbcCalls C) {key iv : Bytes} (hkey : key.length = 16)
    (hiv : iv.length = 16) (ciphertext : Bytes) (host : Host P) :
    DecryptsWhole C key iv ciphertext host ↔
      16 ∣ ciphertext.length ∧ ciphertext.length < 2 ^ 31 ∨
        decryptionSucceeds P key iv ciphertext host.world = false := by
  have hok := isOk_aesCbcDecrypt key iv ciphertext host
  have hlen := cbcDecrypt_length C key hiv ciphertext
  -- what is returned for a length that is an `int`
  have hvalue : ∀ plaintext host', ciphertext.length < 2 ^ 31 →
      exec (Crypto.aesCbcDecrypt key iv ciphertext) host = (.ok plaintext, host') →
        plaintext = cbcDecrypt C key iv ciphertext := by
    intro plaintext host' hint h
    rw [hcbc.aesCbcDecrypt_ok ⟨hkey, hiv, Nat.le_refl _, hint⟩ rfl h, List.take_length]
  rcases hdec : exec (Crypto.aesCbcDecrypt key iv ciphertext) host with ⟨e | plaintext, host'⟩
  · rw [hdec] at hok
    refine iff_of_true ?_ (.inr hok.symm)
    intro plaintext host'' h
    rw [hdec] at h
    cases h
  · rw [hdec] at hok
    rw [← hok]
    constructor
    · -- the plaintext is as long as the complete blocks
      intro h
      obtain ⟨hplain, hwhole⟩ := h _ _ hdec
      obtain ⟨w, hupdate⟩ := aesCbcDecrypt_ok hdec
      have hint := hcbc.evpDecryptUpdate_length _ _ _ _ w _ hkey hiv hupdate
      rw [hwhole] at hint
      rw [hplain, hlen] at hwhole
      exact .inl ⟨⟨ciphertext.length / 16, hwhole.symm⟩, hint⟩
    · rintro (⟨hdvd, hint⟩ | hfails) plaintext' host'' h
      · rw [hvalue _ _ hint h]
        exact ⟨rfl, hlen.trans (Nat.mul_div_cancel' hdvd)⟩
      · cases hfails

/-! ## The key extraction loop -/

/-- A container contributes a key exactly when it and those before it
decrypt. -/
theorem lt_extractAll_length {encKey : Bytes} {front back : List KeyContainer}
    {c : KeyContainer} {host : Host P} :
    front.length < (extractAll encKey (front ++ c :: back) host).1.1.length ↔
      allDecrypt encKey (front ++ [c]) host := by
  induction front generalizing host with
  | nil =>
    rw [List.nil_append, List.nil_append, allDecrypt, allDecrypt, Bool.and_true]
    cases hc : decrypts encKey c host with
    | true =>
      obtain ⟨key, hloop⟩ := extractAll_cons_of_decrypts back hc
      rw [hloop]
      exact iff_of_true (Nat.succ_pos _) rfl
    | false =>
      obtain ⟨e, hloop⟩ := extractAll_cons_of_not_decrypts back hc
      rw [hloop]
      exact iff_of_false (Nat.lt_irrefl 0) Bool.false_ne_true
  | cons d front ih =>
    rw [List.cons_append, List.cons_append, allDecrypt]
    cases hd : decrypts encKey d host with
    | true =>
      obtain ⟨key, hloop⟩ := extractAll_cons_of_decrypts (front ++ c :: back) hd
      rw [hloop, Bool.true_and, ← ih]
      exact Nat.succ_lt_succ_iff
    | false =>
      obtain ⟨e, hloop⟩ := extractAll_cons_of_not_decrypts (front ++ c :: back) hd
      rw [hloop, Bool.false_and]
      exact iff_of_false (Nat.not_lt_zero _) Bool.false_ne_true

/-- The key a container contributes has its id. -/
theorem extractAll_getElem? {encKey : Bytes} {front : List KeyContainer} {c : KeyContainer}
    (back : List KeyContainer) {host : Host P} (h : allDecrypt encKey (front ++ [c]) host) :
    ∃ key, (extractAll encKey (front ++ c :: back) host).1.1[front.length]? = some key ∧
      key.kid = c.idD := by
  have hlt : front.length < (extractAll encKey (front ++ c :: back) host).1.1.length :=
    lt_extractAll_length.mpr h
  refine ⟨_, List.getElem?_eq_getElem hlt, ?_⟩
  -- the keys come in container order
  have horder := (extractAll_keys_order encKey (front ++ c :: back) host).getElem
    (by rwa [List.length_map])
  rw [List.getElem_map, List.getElem_map, List.getElem_append_right (Nat.le_refl _)] at horder
  simp only [Nat.sub_self, List.getElem_cons_zero] at horder
  exact (Prod.mk.inj horder).1

/-! ## Runs -/

/-- A `parse_license` that stores a key for a container whose encrypted key is
not a whole number of blocks: the key in its place after those that the
session had has its id. -/
def StoresPartial (M : Machine P) : Op → Prop
  | .parseLicense S licenseResponse =>
    ∃ (s s' : SessionState) (signedMessage : SignedMessage) (license : License)
        (front back : List KeyContainer) (c : KeyContainer) (key : Key),
      M.impl.sessions.lookup S = some s ∧
      decodeLicense (P := P) licenseResponse = .ok (signedMessage, license) ∧
      license.key = front ++ c :: back ∧ ¬ 16 ∣ c.keyD.length ∧
      (step M (.parseLicense S licenseResponse)).2.impl.sessions.lookup S = some s' ∧
      s'.keys[s.keys.length + front.length]? = some key ∧ key.kid = c.idD
  | _ => False

/-- A `parse_license` whose key extraction loop reaches such a container, the
calls for it and for those before it succeeding. -/
def PartialContainer (M : Machine P) : Op → Prop
  | .parseLicense S licenseResponse =>
    ∃ (loop : LoopStart M S licenseResponse) (front back : List KeyContainer) (c : KeyContainer),
      loop.license.key = front ++ c :: back ∧ ¬ 16 ∣ c.keyD.length ∧
      allDecrypt loop.derived.encKey (front ++ [c]) loop.host
  | _ => False

/-- The keys after a `parse_license` whose loop started, returned or not. -/
theorem step_parseLicense_keys {M : Machine P} {S licenseResponse : Bytes}
    (loop : LoopStart M S licenseResponse) :
    ∃ s', (step M (.parseLicense S licenseResponse)).2.impl.sessions.lookup S = some s' ∧
      s'.keys = loop.session.keys
        ++ (extractAll loop.derived.encKey loop.license.key loop.host).1.1 := by
  have hs := loop.lookup_session
  have ho := loop.exec_openLicense
  by_cases hall : allDecrypt loop.derived.encKey loop.license.key loop.host
  · rw [step_parseLicense_accepted hs ho hall]
    exact ⟨_, store_lookup_self .., rfl⟩
  · obtain ⟨e, hstep⟩ := step_parseLicense_interrupted hs ho hall
    rw [hstep]
    exact ⟨_, store_lookup_self .., rfl⟩

/-- Each such container contributes a key. -/
theorem storesPartial_iff (M : Machine P) (op : Op) :
    StoresPartial M op ↔ PartialContainer M op := by
  cases op with
  | parseLicense S licenseResponse =>
    constructor
    · rintro ⟨s, s', signedMessage, license, front, back, c, key, hs, hdec, hcs, hpartial, hs',
        hkey, -⟩
      rcases ho : exec (openLicense M.impl.rsaKey s.contexts licenseResponse) M.host
        with ⟨e | opened, host⟩
      · -- a refused response stores no key
        rw [step_parseLicense_refused hs ho, hs] at hs'
        obtain rfl := Option.some.inj hs'
        obtain ⟨hlt, -⟩ := List.getElem?_eq_some_iff.mp hkey
        omega
      · obtain ⟨loop, rfl, -, -⟩ := exists_loopStart hs ho
        obtain ⟨-, rfl⟩ := Prod.mk.inj (Except.ok.inj (loop.decodes.symm.trans hdec))
        refine ⟨loop, front, back, c, hcs, hpartial, ?_⟩
        obtain ⟨s'', hs'', hkeys⟩ := step_parseLicense_keys loop
        obtain rfl := Option.some.inj (hs'.symm.trans hs'')
        obtain ⟨hlt, -⟩ := List.getElem?_eq_some_iff.mp hkey
        rw [hkeys, List.length_append, hcs] at hlt
        exact lt_extractAll_length.mp (Nat.lt_of_add_lt_add_left hlt)
    · rintro ⟨loop, front, back, c, hcs, hpartial, hall⟩
      obtain ⟨s', hs', hkeys⟩ := step_parseLicense_keys loop
      obtain ⟨key, hkey, hkid⟩ := extractAll_getElem? back hall
      refine ⟨loop.session, s', loop.signedMessage, loop.license, front, back, c, key,
        loop.lookup_session, loop.decodes, hcs, hpartial, hs', ?_, hkid⟩
      rw [hkeys, hcs, List.getElem?_append_right (Nat.le_add_right ..), Nat.add_sub_cancel_left,
        hkey]
  | _ => exact Iff.rfl

/-- **Partial blocks are dropped without a word.** A decryption that returns
has decrypted its whole ciphertext exactly when that is a whole number of
blocks and its length an `int`, unless a call of libcrypto fails and it throws;
and along a run no container with an incomplete block contributes a key exactly
when no key extraction loop reaches such a container with its calls
succeeding. -/
theorem partial_blocks (hcbc : P.CbcCalls C) :
    (∀ key iv ciphertext, key.length = 16 → iv.length = 16 → ∀ host : Host P,
      DecryptsWhole C key iv ciphertext host ↔
        16 ∣ ciphertext.length ∧ ciphertext.length < 2 ^ 31 ∨
          decryptionSucceeds P key iv ciphertext host.world = false) ∧
    ∀ (start : Start P) (ops : List Op),
      (∀ M op, start.Calls ops M op → ¬ StoresPartial M op) ↔
        ∀ M op, start.Calls ops M op → ¬ PartialContainer M op := by
  constructor
  · intro key iv ciphertext hkey hiv host
    exact decryptsWhole_iff hcbc hkey hiv ciphertext host
  · intro start ops
    refine Start.calls_congr ?_ start ops
    intro M op
    exact not_congr (storesPartial_iff M op)

/-- A ciphertext of two blocks is decrypted whole, and the recorded exchange,
whose licence has whole blocks only, stores no key of another container. -/
theorem partial_blocks_exchange :
    DecryptsWhole (Reference.cipher Reference.nominal.recording.blocks) (List.replicate 16 1)
        (List.replicate 16 2) (List.replicate 32 3) Reference.chrome.machine.host ∧
      ∀ M op, Reference.chrome.Calls Reference.exchange M op → ¬ StoresPartial M op := by
  obtain ⟨hone, hruns⟩ := partial_blocks (Reference.cbcCalls Reference.nominal)
  constructor
  · exact (hone _ _ _ (by decide) (by decide) _).mpr (.inl (by decide))
  · refine (hruns Reference.chrome Reference.exchange).mpr ?_
    intro M op hcall hpartial
    cases op with
    | parseLicense S licenseResponse =>
      obtain ⟨loop, front, back, c, hcs, hdvd, -⟩ := hpartial
      obtain rfl := Reference.exchange_response hcall.mem
      rw [← Reference.license_of_honestResponse loop.decodes] at hcs
      have hwhole : ∀ c ∈ Reference.containers, 16 ∣ c.keyD.length := by decide
      refine hdvd (hwhole c ?_)
      rw [show Reference.containers = front ++ c :: back from hcs]
      exact List.mem_append_right _ List.mem_cons_self
    | _ => exact hpartial

/-- A ciphertext of 20 bytes is decrypted to 16, and a container whose
encrypted key has three bytes adds a key to the session. -/
theorem partial_block_stored :
    (Reference.platform Reference.nominal).CbcCalls
      (Reference.cipher Reference.nominal.recording.blocks) ∧
    ¬ (∀ key iv ciphertext, key.length = 16 → iv.length = 16 →
      ∀ host : Host (Reference.platform Reference.nominal),
        DecryptsWhole (Reference.cipher Reference.nominal.recording.blocks) key iv ciphertext
          host) ∧
    ¬ ∀ (ops : List Op) (M : Machine (Reference.platform Reference.nominal)) (op : Op),
      Reference.chrome.Calls ops M op → ¬ StoresPartial M op := by
  refine ⟨Reference.cbcCalls Reference.nominal, ?_, ?_⟩
  · intro h
    have hwhole := h (List.replicate 16 1) (List.replicate 16 2) (List.replicate 20 3)
      (by decide) (by decide) Reference.chrome.machine.host
    rw [decryptsWhole_iff (Reference.cbcCalls Reference.nominal) (by decide) (by decide)] at hwhole
    rcases hwhole with ⟨hdvd, -⟩ | hfails
    · revert hdvd
      decide
    · revert hfails
      decide +kernel
  · intro h
    let short := Reference.response
      (Reference.license [{ Reference.forgedContainer with key := some [1, 2, 3] }]) none none
    have hno := h _ _ _ (Reference.chrome.calls_last Reference.oneSession
      (.parseLicense (Reference.sessionId 1) short))
    have hdec := Reference.decodeLicense_response Reference.nominal
      (Reference.license [{ Reference.forgedContainer with key := some [1, 2, 3] }]) none none
    have hbefore : ((Reference.chrome.run Reference.oneSession).2.impl.sessions.lookup
        (Reference.sessionId 1)).map SessionState.keys = some [] := by
      decide +kernel
    have hafter : ((step (Reference.chrome.run Reference.oneSession).2
        (.parseLicense (Reference.sessionId 1) short)).2.impl.sessions.lookup
          (Reference.sessionId 1)).map SessionState.keys
        = some [{ kid := [0x2A], key := [], type := "CONTENT" }] := by
      decide +kernel
    obtain ⟨s, hs, hkeys⟩ := Option.map_eq_some_iff.mp hbefore
    obtain ⟨s', hs', hkeys'⟩ := Option.map_eq_some_iff.mp hafter
    have hkey : s'.keys[s.keys.length + 0]?
        = some { kid := [0x2A], key := [], type := "CONTENT" } := by
      rw [hkeys, hkeys']
      rfl
    exact hno ⟨s, s', _, _, [], [], _, _, hs, hdec, rfl, by decide, hs', hkey, rfl⟩

end WidevineCdm
