import WidevineCdm.Lib.BlockChaining
import WidevineCdm.Session.Transition

/-!
# The key extraction loop

Removing the padding never fails (`stripPadding_eq`), so a container fails
exactly when `aes_cbc_decrypt` throws on it. `extractAll` is described by the
answers of `aes_cbc_decrypt` alone: `allDecrypt` says that it returns for
every container in turn. `LoopStart` is what it takes to come to the loop.
-/

namespace WidevineCdm

open Lib Proto

variable {P : Platform}

/-! ## Padding removal -/

/-- The decrypted bytes without their PKCS7 padding, if they end in one. -/
def unpad (key : Bytes) : Bytes :=
  match key.getLast? with
  | none => key
  | some padding =>
    if padding > 0 ∧ padding ≤ 16 ∧ padding.toNat ≤ key.length ∧
        (key.drop (key.length - padding.toNat)).all (· == padding) then
      key.take (key.length - padding.toNat)
    else key

/-- The verification loop compares the bytes from `i` on. -/
theorem validPadding_eq {key : Bytes} {padding : UInt8} {n i : Nat} (h : i + n = key.length) :
    validPadding key padding n i = .ok ((key.drop i).all (· == padding)) := by
  induction n generalizing i with
  | zero =>
    rw [validPadding, List.drop_eq_nil_of_le (by omega)]
    rfl
  | succ n ih =>
    have hi : i < key.length := by omega
    have hread : (element key i : Except Exn UInt8) = .ok key[i] := by
      rw [element, readAt, List.getElem?_eq_getElem hi]
      rfl
    rw [validPadding, hread, List.drop_eq_getElem_cons hi, List.all_cons]
    show (if key[i] ≠ padding then _ else _) = _
    by_cases hne : key[i] ≠ padding
    · have hbeq : (key[i] == padding) = false := beq_eq_false_iff_ne.mpr hne
      rw [if_pos hne, hbeq]
      rfl
    · have hbeq : (key[i] == padding) = true := beq_iff_eq.mpr (not_not.mp hne)
      rw [if_neg hne, hbeq, Bool.true_and]
      exact ih (by omega)

/-- **Padding removal never fails.** -/
theorem stripPadding_eq (key : Bytes) : stripPadding key = .ok (unpad key) := by
  rcases List.eq_nil_or_concat key with rfl | ⟨front, padding, rfl⟩
  · rfl
  rw [List.concat_eq_append]
  have hempty : (front ++ [padding]).isEmpty = false := by
    cases front <;> rfl
  have hlen : (front ++ [padding]).length - 1 = front.length := by
    rw [List.length_append, List.length_singleton, Nat.add_sub_cancel]
  have hread : (element (front ++ [padding]) front.length : Except Exn UInt8) = .ok padding :=
    element_append front [] padding
  have hlast : (front ++ [padding]).getLast? = some padding := List.getLast?_concat
  rw [stripPadding, hempty, hlen, hread, unpad, hlast]
  show (if padding > 0 ∧ padding ≤ 16 ∧ padding.toNat ≤ _ then _ else _) = _
  by_cases hrange : padding > 0 ∧ padding ≤ 16 ∧ padding.toNat ≤ (front ++ [padding]).length
  · obtain ⟨hpos, hle, hfit⟩ := hrange
    rw [if_pos ⟨hpos, hle, hfit⟩, validPadding_eq (by omega)]
    dsimp only
    cases hall : ((front ++ [padding]).drop ((front ++ [padding]).length - padding.toNat)).all
        (· == padding) with
    | true => rw [if_pos ⟨hpos, hle, hfit, rfl⟩]; rfl
    | false => rw [if_neg (fun h => Bool.noConfusion h.2.2.2)]; rfl
  · rw [if_neg hrange]
    dsimp only
    rw [if_neg fun h => hrange ⟨h.1, h.2.1, h.2.2.1⟩]
    rfl

/-- **Padding is removed** where there is one. -/
theorem unpad_of_padded {d p : Bytes} {n : Nat} (h : Pkcs7Padded 16 d p n) : unpad d = p := by
  have hlast := h.getLast?
  obtain ⟨hpos, hle, hd⟩ := h
  have hnat : (UInt8.ofNat n).toNat = n := by
    rw [UInt8.toNat_ofNat']
    omega
  have hlen : d.length = p.length + n := by
    rw [hd, List.length_append, List.length_replicate]
  have hfront : d.length - (UInt8.ofNat n).toNat = p.length := by
    rw [hlen, hnat, Nat.add_sub_cancel]
  rw [unpad, hlast]
  dsimp only
  rw [hfront, hd, List.drop_left' rfl, List.take_left' rfl, if_pos]
  refine ⟨?_, ?_, ?_, ?_⟩
  · exact UInt8.lt_iff_toNat_lt.mpr (by rw [hnat]; exact hpos)
  · exact UInt8.le_iff_toNat_le.mpr (by rw [hnat]; exact hle)
  · rw [hnat, List.length_append, List.length_replicate]
    omega
  · exact List.all_eq_true.mpr fun x hx => by
      rw [List.eq_of_mem_replicate hx]
      exact beq_self_eq_true _

/-- Bytes that end in no padding are left as they are. -/
theorem unpad_of_not_padded {d : Bytes} (h : ∀ p n, ¬ Pkcs7Padded 16 d p n) : unpad d = d := by
  rw [unpad]
  cases d.getLast? with
  | none => rfl
  | some padding =>
    dsimp only
    by_cases hvalid : padding > 0 ∧ padding ≤ 16 ∧ padding.toNat ≤ d.length ∧
        (d.drop (d.length - padding.toNat)).all (· == padding)
    · obtain ⟨hpos, hle, hfit, hall⟩ := hvalid
      have htail : d.drop (d.length - padding.toNat)
          = List.replicate padding.toNat (UInt8.ofNat padding.toNat) := by
        rw [UInt8.ofNat_toNat, List.eq_replicate_iff, List.length_drop]
        refine ⟨by omega, ?_⟩
        intro x hx
        exact beq_iff_eq.mp (List.all_eq_true.mp hall x hx)
      refine absurd ?_ (h (d.take (d.length - padding.toNat)) padding.toNat)
      refine ⟨UInt8.lt_iff_toNat_lt.mp hpos, UInt8.le_iff_toNat_le.mp hle, ?_⟩
      rw [← htail, List.take_append_drop]
    · rw [if_neg hvalid]

/-- **Padding that was added is removed.** -/
theorem unpad_pkcs7Pad (key : Bytes) : unpad (pkcs7Pad 16 key) = key :=
  unpad_of_padded (pkcs7Padded_pkcs7Pad (by decide) key)

/-! ## One container -/

/-- The key stored for a container whose decryption gave `decrypted`. -/
def Proto.KeyContainer.toKey (c : KeyContainer) (decrypted : Bytes) : Key :=
  { kid := c.idD, key := unpad decrypted, type := c.typeD.name }

/-- **A container fails exactly when its decryption does.** -/
theorem exec_extractKey (encKey : Bytes) (c : KeyContainer) (host : Host P) :
    exec (extractKey encKey c) host =
      ((exec (Crypto.aesCbcDecrypt encKey c.ivD c.keyD) host).1.map c.toKey,
        (exec (Crypto.aesCbcDecrypt encKey c.ivD c.keyD) host).2) := by
  rw [extractKey, exec_bind]
  rcases exec (Crypto.aesCbcDecrypt encKey c.ivD c.keyD) host with ⟨e | decrypted, host'⟩
  · rfl
  · simp only [stripPadding_eq, exec_bind, exec_liftExcept]
    rfl

/-! ## The loop -/

/-- The decryption of a container returns. -/
def decrypts (encKey : Bytes) (c : KeyContainer) (host : Host P) : Bool :=
  (exec (Crypto.aesCbcDecrypt encKey c.ivD c.keyD) host).1.isOk

/-- The decryptions of the containers return, one after the other. -/
def allDecrypt (encKey : Bytes) : List KeyContainer → Host P → Bool
  | [], _ => true
  | c :: rest, host =>
    decrypts encKey c host &&
      allDecrypt encKey rest (exec (Crypto.aesCbcDecrypt encKey c.ivD c.keyD) host).2

theorem allDecrypt_of_append {encKey : Bytes} {front back : List KeyContainer} {host : Host P}
    (h : allDecrypt encKey (front ++ back) host) : allDecrypt encKey front host := by
  induction front generalizing host with
  | nil => rfl
  | cons c rest ih =>
    rw [List.cons_append, allDecrypt, Bool.and_eq_true] at h
    rw [allDecrypt, Bool.and_eq_true]
    exact ⟨h.1, ih h.2⟩

/-- The loop after a container that decrypts. -/
theorem extractAll_cons_of_decrypts {encKey : Bytes} {c : KeyContainer}
    (rest : List KeyContainer) {host : Host P} (h : decrypts encKey c host) :
    ∃ key, extractAll encKey (c :: rest) host =
      ((key :: (extractAll encKey rest
            (exec (Crypto.aesCbcDecrypt encKey c.ivD c.keyD) host).2).1.1,
          (extractAll encKey rest
            (exec (Crypto.aesCbcDecrypt encKey c.ivD c.keyD) host).2).1.2),
        (extractAll encKey rest (exec (Crypto.aesCbcDecrypt encKey c.ivD c.keyD) host).2).2) := by
  rw [decrypts] at h
  rw [extractAll, exec_extractKey]
  rcases hr : exec (Crypto.aesCbcDecrypt encKey c.ivD c.keyD) host with ⟨e | decrypted, host'⟩
  · rw [hr] at h
    cases h
  · exact ⟨c.toKey decrypted, rfl⟩

/-- The loop at a container that does not decrypt. -/
theorem extractAll_cons_of_not_decrypts {encKey : Bytes} {c : KeyContainer}
    (rest : List KeyContainer) {host : Host P} (h : decrypts encKey c host = false) :
    ∃ e, extractAll encKey (c :: rest) host =
      (([], some e), (exec (Crypto.aesCbcDecrypt encKey c.ivD c.keyD) host).2) := by
  rw [decrypts] at h
  rw [extractAll, exec_extractKey]
  rcases hr : exec (Crypto.aesCbcDecrypt encKey c.ivD c.keyD) host with ⟨e | decrypted, host'⟩
  · exact ⟨e, rfl⟩
  · rw [hr] at h
    cases h

/-- **The loop completes exactly when every container decrypts.** -/
theorem extractAll_failure {encKey : Bytes} {cs : List KeyContainer} {host : Host P} :
    (extractAll encKey cs host).1.2 = none ↔ allDecrypt encKey cs host := by
  induction cs generalizing host with
  | nil => exact iff_of_true rfl rfl
  | cons c rest ih =>
    rw [allDecrypt]
    cases hc : decrypts encKey c host with
    | true =>
      obtain ⟨key, hloop⟩ := extractAll_cons_of_decrypts rest hc
      rw [hloop, Bool.true_and]
      exact ih
    | false =>
      obtain ⟨e, hloop⟩ := extractAll_cons_of_not_decrypts rest hc
      rw [hloop, Bool.false_and]
      show some e = none ↔ false = true
      exact iff_of_false (Option.some_ne_none e) Bool.false_ne_true

/-- The loop pushes no key exactly when its first container, if there is one,
does not decrypt. -/
theorem extractAll_keys_nil {encKey : Bytes} {cs : List KeyContainer} {host : Host P} :
    (extractAll encKey cs host).1.1 = [] ↔
      ∀ c ∈ cs.head?, decrypts encKey c host = false := by
  cases cs with
  | nil =>
    refine iff_of_true rfl ?_
    intro c hc
    cases hc
  | cons c rest =>
    constructor
    · intro h d hd
      obtain rfl : c = d := Option.some.inj hd
      by_contra hdec
      obtain ⟨key, hloop⟩ :=
        extractAll_cons_of_decrypts rest (Bool.eq_true_of_not_eq_false hdec)
      rw [hloop] at h
      cases h
    · intro h
      obtain ⟨e, hloop⟩ := extractAll_cons_of_not_decrypts rest (h c rfl)
      rw [hloop]

/-- The ids and types of the keys are those of the containers, in order. -/
theorem extractAll_keys_order (encKey : Bytes) (cs : List KeyContainer) (host : Host P) :
    (extractAll encKey cs host).1.1.map (fun key => (key.kid, key.type))
      <+: cs.map fun c => (c.idD, c.typeD.name) := by
  induction cs generalizing host with
  | nil => exact List.prefix_refl _
  | cons c rest ih =>
    rw [extractAll, exec_extractKey]
    rcases exec (Crypto.aesCbcDecrypt encKey c.ivD c.keyD) host with ⟨e | decrypted, host'⟩
    · exact List.nil_prefix
    · exact (List.prefix_cons_inj (c.idD, c.typeD.name)).mpr (ih host')

/-! ## Where the loop starts -/

/-- What `parse_license` has found when its key extraction loop starts: the
session, the decoded message and licence, the context of the request, and the
keys computed from it. Then the MAC has been computed, whatever `HMAC`
reports. -/
structure LoopStart (M : Machine P) (S licenseResponse : Bytes) where
  session : SessionState
  signedMessage : SignedMessage
  license : License
  context : Context
  sessionKey : Bytes
  derived : DerivedKeys
  /-- The outside world after the session key was unwrapped. -/
  unwrapped : Host P
  /-- The outside world when the MAC is computed. -/
  keyed : Host P
  lookup_session : M.impl.sessions.lookup S = some session
  decodes : decodeLicense (P := P) licenseResponse = .ok (signedMessage, license)
  lookup_context : session.contexts.lookup license.requestIdD = some context
  unwraps : exec (unwrapSessionKey M.impl.rsaKey signedMessage) M.host = (.ok sessionKey, unwrapped)
  derives : exec (deriveKeys context.encContext context.macContext sessionKey) unwrapped
    = (.ok derived, keyed)

namespace LoopStart

variable {M : Machine P} {S licenseResponse : Bytes} (loop : LoopStart M S licenseResponse)

/-- What `HMAC` puts out, if it succeeds. -/
def hmac : Option Bytes :=
  (P.hmac loop.derived.macKeyServer (msgToSign loop.signedMessage) loop.keyed.world).1

/-- The outside world when the loop starts. -/
def host : Host P :=
  { loop.keyed with world :=
      (P.hmac loop.derived.macKeyServer (msgToSign loop.signedMessage) loop.keyed.world).2 }

/-- What has been computed by then. -/
def opened : OpenedLicense :=
  { signedMessage := loop.signedMessage
    license := loop.license
    sessionKey := loop.sessionKey
    derived := loop.derived
    computedMac := loop.hmac.getD [] }

theorem exec_openLicense :
    exec (openLicense M.impl.rsaKey loop.session.contexts licenseResponse) M.host
      = (.ok loop.opened, loop.host) :=
  openLicense_ok.mpr ⟨loop.decodes, loop.context, loop.unwrapped, loop.keyed,
    loop.lookup_context, loop.unwraps, loop.derives, rfl⟩

end LoopStart

/-- A response that opens comes to the loop. -/
theorem exists_loopStart {M : Machine P} {S licenseResponse : Bytes} {s : SessionState}
    {opened : OpenedLicense} {host : Host P} (hs : M.impl.sessions.lookup S = some s)
    (ho : exec (openLicense M.impl.rsaKey s.contexts licenseResponse) M.host
      = (.ok opened, host)) :
    ∃ loop : LoopStart M S licenseResponse,
      loop.session = s ∧ loop.opened = opened ∧ loop.host = host := by
  obtain ⟨hdec, context, h₁, h₂, hctx, hkey, hderived, hmac⟩ := openLicense_ok.mp ho
  let loop : LoopStart M S licenseResponse :=
    { session := s
      signedMessage := opened.signedMessage
      license := opened.license
      context
      sessionKey := opened.sessionKey
      derived := opened.derived
      unwrapped := h₁
      keyed := h₂
      lookup_session := hs
      decodes := hdec
      lookup_context := hctx
      unwraps := hkey
      derives := hderived }
  have hsame := loop.exec_openLicense.symm.trans ho
  obtain ⟨hopened, hhost⟩ := Prod.mk.inj hsame
  exact ⟨loop, rfl, Except.ok.inj hopened, hhost⟩

/-- There is one way to come to the loop. -/
instance {M : Machine P} {S licenseResponse : Bytes} :
    Subsingleton (LoopStart M S licenseResponse) where
  allEq := by
    rintro ⟨session, signedMessage, license, context, sessionKey, derived, unwrapped, keyed, hs,
      hdec, hctx, hkey, hderived⟩ ⟨session', signedMessage', license', context', sessionKey',
      derived', unwrapped', keyed', hs', hdec', hctx', hkey', hderived'⟩
    obtain rfl := Option.some.inj (hs.symm.trans hs')
    obtain ⟨rfl, rfl⟩ := Prod.mk.inj (Except.ok.inj (hdec.symm.trans hdec'))
    obtain rfl := Option.some.inj (hctx.symm.trans hctx')
    obtain ⟨hsessionKey, rfl⟩ := Prod.mk.inj (hkey.symm.trans hkey')
    obtain rfl := Except.ok.inj hsessionKey
    obtain ⟨hkeys, rfl⟩ := Prod.mk.inj (hderived.symm.trans hderived')
    obtain rfl := Except.ok.inj hkeys
    rfl

theorem LoopStart.eq_of_opened {M : Machine P} {S licenseResponse : Bytes} {s : SessionState}
    {opened : OpenedLicense} {host : Host P} (loop : LoopStart M S licenseResponse)
    (hs : M.impl.sessions.lookup S = some s)
    (ho : exec (openLicense M.impl.rsaKey s.contexts licenseResponse) M.host
      = (.ok opened, host)) :
    loop.session = s ∧ loop.opened = opened ∧ loop.host = host := by
  obtain ⟨loop', hloop'⟩ := exists_loopStart hs ho
  rwa [Subsingleton.elim loop loop']

/-! ## Pushing keys -/

/-- Pushing keys changes a session unless there are none. -/
theorem pushKeys_eq_self {s : SessionState} {keys : List Key} :
    s.pushKeys keys = s ↔ keys = [] := by
  constructor
  · intro h
    have hkeys : s.keys ++ keys = s.keys := congrArg SessionState.keys h
    exact List.append_right_eq_self.mp hkeys
  · rintro rfl
    exact pushKeys_nil s

/-- Storing a session changes the map unless it was stored already. -/
theorem store_sessions_eq_self {impl : Impl P} {S : Bytes} {s t : SessionState}
    (hs : impl.sessions.lookup S = some s) :
    (impl.store S t).sessions = impl.sessions ↔ t = s := by
  constructor
  · intro h
    have hlookup := store_lookup_self impl S t
    rw [h, hs] at hlookup
    exact (Option.some.inj hlookup).symm
  · rintro rfl
    rw [store_self hs]

end WidevineCdm
