import WidevineCdm.License.Atomicity
import WidevineCdm.License.Primitives
import WidevineCdm.Session.PendingLedger

/-!
# A licence exchange with an honest server

A challenge is answered by a server that derives the encryption key from the
request it was sent, encrypts every key with `aes_cbc_encrypt` and wraps the
session key. Whatever happens on the CDM in between, as long as the request
stays pending, the answer is accepted and the keys of the session grow by the
server's keys. What libcrypto documents about the calls involved is
`Platform.Working`; the rest is the chain of bytes from the stored context to
the stripped padding.
-/

namespace WidevineCdm

open Lib Proto

variable {P : Platform}

/-! ## The server -/

/-- A key on the server, with an IV of sixteen bytes and short enough for a
protobuf message to carry its ciphertext. -/
structure ServerKey where
  kid : Bytes
  iv : Bytes
  key : Bytes
  type : KeyType
  iv_length : iv.length = 16
  key_length : key.length + 16 < 2 ^ 31

/-- The key as the CDM hands it out. -/
def ServerKey.toKey (k : ServerKey) : Key := { kid := k.kid, key := k.key, type := k.type.name }

/-- The container of a key and its ciphertext. -/
def ServerKey.container (k : ServerKey) (ciphertext : Bytes) : KeyContainer :=
  { id := some k.kid, iv := some k.iv, key := some ciphertext, type := some k.type }

/-- The containers of the keys, encrypted one after the other. -/
def encryptKeys (encKey : Bytes) : List ServerKey → CryptoM P (List KeyContainer)
  | [] => pure []
  | k :: rest => do
    let ciphertext ← Crypto.aesCbcEncrypt encKey k.iv k.key
    let containers ← encryptKeys encKey rest
    return k.container ciphertext :: containers

/-- The containers of the keys under the block cipher `C`. -/
def encryptedKeys (C : BlockCipher 16) (encKey : Bytes) (keys : List ServerKey) :
    List KeyContainer :=
  keys.map fun k => k.container (cbcEncrypt C encKey k.iv (pkcs7Pad 16 k.key))

/-- The message a licence is sent in. What the server signs with and whether it
adds a core message is left open. -/
def licenseMessage (P : Platform) (license : License) (wrapped : Bytes)
    (signature coreMessage : Option Bytes) : SignedMessage :=
  { type := some .LICENSE
    msg := some (P.serializeLicense license)
    signature
    sessionKey := some wrapped
    oemcryptoCoreMessage := coreMessage }

/-- The server's answer to the request `msg` with request id `requestId`: the
keys under the key derived from the session key and `msg`. -/
def answerRequest (msg requestId sessionKey wrapped : Bytes) (keys : List ServerKey)
    (signature coreMessage : Option Bytes) : CryptoM P Bytes := do
  let encKey ← Crypto.cmacAes sessionKey
    (0x01 :: (ascii "ENCRYPTION" ++ [0x00] ++ msg ++ beBytes 4 128))
  let containers ← encryptKeys encKey keys
  let license : License := { id := some { requestId := some requestId }, key := containers }
  return P.serializeSignedMessage (licenseMessage P license wrapped signature coreMessage)

/-- What the server answers decodes. -/
theorem decodeLicense_answer (hcodec : P.LawfulCodec) {msg requestId sessionKey wrapped : Bytes}
    {keys : List ServerKey} {signature coreMessage : Option Bytes} {response : Bytes}
    {host host' : Host P}
    (h : exec (answerRequest msg requestId sessionKey wrapped keys signature coreMessage) host
      = (.ok response, host')) :
    ∃ signedMessage license,
      decodeLicense (P := P) response = .ok (signedMessage, license) := by
  obtain ⟨encKey, h₁, -, h⟩ := exec_bind_eq_ok.mp h
  obtain ⟨containers, h₂, -, h⟩ := exec_bind_eq_ok.mp h
  cases h
  exact ⟨_, _, decodeLicense_serialize hcodec (m := licenseMessage P _ _ _ _) rfl rfl⟩

/-! ## The CDM's computations return -/

namespace Platform.Working

variable {C : BlockCipher 16} {cmac : Bytes → Bytes → Bytes}
  {wraps : P.PKey → Bytes → Bytes → Prop} (hworking : P.Working C cmac wraps)

include hworking

theorem unwrapSessionKey {rsaKey : P.PKey} {sessionKey wrapped : Bytes}
    (hwraps : wraps rsaKey sessionKey wrapped) (signedMessage : SignedMessage)
    (hsm : signedMessage.sessionKeyD = wrapped) :
    Returns sessionKey (unwrapSessionKey rsaKey signedMessage) := by
  have hempty : (!signedMessage.sessionKeyD.isEmpty) = true := by
    rw [hsm, Bool.not_eq_true', List.isEmpty_eq_false_iff]
    exact hworking.wraps_ne_nil rsaKey sessionKey wrapped hwraps
  rw [WidevineCdm.unwrapSessionKey, if_pos hempty, hsm]
  refine returns_bind (hworking.require (by trivial) _) ?_
  refine returns_bind (hworking.require (by trivial) _) ?_
  refine returns_bind (hworking.require (by trivial) _) ?_
  refine returns_bind (hworking.require (by trivial) _) ?_
  refine returns_bind (hworking.require (by trivial) _) ?_
  refine returns_bind (hworking.require (by trivial) _) ?_
  exact returns_demand
    (fun w => hworking.evpPkeyDecrypt rsaKey sessionKey wrapped w hwraps) _

/-- The keys derived from a session key. -/
theorem deriveKeys {sessionKey : Bytes} (hkey : sessionKey.length = 16)
    (encContext macContext : Bytes) :
    Returns
      { encKey := cmac sessionKey (1 :: encContext)
        macKeyClient := cmac sessionKey (3 :: macContext) ++ cmac sessionKey (4 :: macContext)
        macKeyServer := cmac sessionKey (1 :: macContext) ++ cmac sessionKey (2 :: macContext) }
      (deriveKeys (P := P) encContext macContext sessionKey) := by
  refine returns_bind (hworking.cmacAes hkey _) ?_
  refine returns_bind (hworking.cmacAes hkey _) ?_
  refine returns_bind (hworking.cmacAes hkey _) ?_
  refine returns_bind (hworking.cmacAes hkey _) ?_
  exact returns_bind (hworking.cmacAes hkey _) (returns_pure _)

/-! ## The server and the loop -/

theorem encryptKeys {encKey : Bytes} (hkey : encKey.length = 16) (keys : List ServerKey) :
    Returns (encryptedKeys C encKey keys) (encryptKeys (P := P) encKey keys) := by
  induction keys with
  | nil => exact returns_pure _
  | cons k rest ih =>
    exact returns_bind
      (hworking.cbcCalls.aesCbcEncrypt_whole hworking.cbcSucceeds hkey k.iv_length k.key_length)
      (returns_bind ih (returns_pure _))

/-- **The loop recovers the server's keys**, in order. -/
theorem extractAll {encKey : Bytes} (hkey : encKey.length = 16) (keys : List ServerKey)
    (host : Host P) :
    (extractAll encKey (encryptedKeys C encKey keys) host).1
      = (keys.map ServerKey.toKey, none) := by
  induction keys generalizing host with
  | nil => rfl
  | cons k rest ih =>
    obtain ⟨host', hdec⟩ := hworking.cbcCalls.aesCbcDecrypt_encrypted hworking.cbcSucceeds hkey
      k.iv_length k.key_length host
    have hextract : exec (extractKey encKey
        (k.container (cbcEncrypt C encKey k.iv (pkcs7Pad 16 k.key)))) host
          = (.ok k.toKey, host') := by
      rw [exec_extractKey]
      show (Except.map _ (exec (Crypto.aesCbcDecrypt encKey k.iv
          (cbcEncrypt C encKey k.iv (pkcs7Pad 16 k.key))) host).1,
        (exec (Crypto.aesCbcDecrypt encKey k.iv
          (cbcEncrypt C encKey k.iv (pkcs7Pad 16 k.key))) host).2) = _
      rw [hdec]
      show (Except.ok (KeyContainer.toKey _ (pkcs7Pad 16 k.key)), host') = _
      rw [KeyContainer.toKey, unpad_pkcs7Pad]
      rfl
    have hrest := ih host'
    rw [encryptedKeys, List.map_cons, WidevineCdm.extractAll, hextract, ← encryptedKeys]
    show (k.toKey :: (WidevineCdm.extractAll encKey (encryptedKeys C encKey rest) host').1.1,
      (WidevineCdm.extractAll encKey (encryptedKeys C encKey rest) host').1.2) = _
    rw [hrest]
    rfl

/-- The licence the server sends, and the message it sends it in. -/
theorem answerRequest {sessionKey : Bytes} (hkey : sessionKey.length = 16)
    (msg requestId wrapped : Bytes) (keys : List ServerKey)
    (signature coreMessage : Option Bytes) :
    Returns
      (P.serializeSignedMessage (licenseMessage P
        { id := some { requestId := some requestId }
          key := encryptedKeys C (cmac sessionKey (1 :: (deriveContext msg).encContext)) keys }
        wrapped signature coreMessage))
      (answerRequest (P := P) msg requestId sessionKey wrapped keys signature coreMessage) := by
  have hcontext : 0x01 :: (ascii "ENCRYPTION" ++ [0x00] ++ msg ++ beBytes 4 128)
      = 1 :: (deriveContext msg).encContext := by
    rw [deriveContext, pushBe32_eq]
    rfl
  unfold WidevineCdm.answerRequest
  rw [hcontext]
  exact returns_bind (hworking.cmacAes hkey _)
    (returns_bind (hworking.encryptKeys (hworking.cmac_length _ _) keys) (returns_pure _))

/-- **The server's answer to a pending request is accepted**, and its keys are
appended to the session's. -/
theorem step_answer (hcodec : P.LawfulCodec) {M : Machine P} {S : Bytes} {s : SessionState}
    (hs : M.impl.sessions.lookup S = some s) {msg requestId : Bytes}
    (hcontext : s.contexts.lookup requestId = some (deriveContext msg)) {sessionKey wrapped : Bytes}
    (hkey : sessionKey.length = 16) (hwraps : wraps M.impl.rsaKey sessionKey wrapped)
    (keys : List ServerKey) (signature coreMessage : Option Bytes) :
    ∃ host', step M (.parseLicense S (P.serializeSignedMessage (licenseMessage P
        { id := some { requestId := some requestId }
          key := encryptedKeys C (cmac sessionKey (1 :: (deriveContext msg).encContext)) keys }
        wrapped signature coreMessage))) =
      (.ok .done, ⟨host', M.impl.store S
        { s.pushKeys (keys.map ServerKey.toKey) with
          contexts := s.contexts.erase requestId }⟩) := by
  let license : License :=
    { id := some { requestId := some requestId }
      key := encryptedKeys C (cmac sessionKey (1 :: (deriveContext msg).encContext)) keys }
  have hdec := decodeLicense_serialize hcodec (l := license)
    (m := licenseMessage P license wrapped signature coreMessage) rfl rfl
  obtain ⟨h₁, hunwrap⟩ := hworking.unwrapSessionKey hwraps
    (licenseMessage P license wrapped signature coreMessage) rfl M.host
  obtain ⟨h₂, hderive⟩ := hworking.deriveKeys hkey (deriveContext msg).encContext
    (deriveContext msg).macContext h₁
  obtain ⟨mac, h₃, hmac⟩ : ∃ mac h₃, exec (Crypto.hmacSha256
      (cmac sessionKey (1 :: (deriveContext msg).macContext)
        ++ cmac sessionKey (2 :: (deriveContext msg).macContext))
      (msgToSign (licenseMessage P license wrapped signature coreMessage))) h₂
        = (.ok mac, h₃) := ⟨_, _, rfl⟩
  have hopen : exec (openLicense M.impl.rsaKey s.contexts
      (P.serializeSignedMessage (licenseMessage P license wrapped signature coreMessage))) M.host
        = (.ok ⟨licenseMessage P license wrapped signature coreMessage, license, sessionKey, _,
          mac⟩, h₃) :=
    openLicense_ok.mpr ⟨hdec, deriveContext msg, h₁, h₂, hcontext, hunwrap, hderive, hmac⟩
  have hloop := hworking.extractAll
    (hworking.cmac_length sessionKey (1 :: (deriveContext msg).encContext)) keys h₃
  have hall := extractAll_failure.mp (congrArg Prod.snd hloop)
  have hkeys := congrArg Prod.fst hloop
  have hstep := step_parseLicense_accepted hs hopen hall
  dsimp only [license] at hkeys hstep
  rw [hkeys] at hstep
  exact ⟨_, hstep⟩

end Platform.Working

/-! ## Main result -/

/-- What is pending stays pending while its session is neither opened nor
closed, its request not issued again and no licence for it accepted. -/
theorem pending_between (hcodec : P.LawfulCodec) {M : Machine P} {S r msg : Bytes}
    (hpending : M.impl.pending S r = some (deriveContext msg)) {between : List Op}
    (hkeep : ∀ e ∈ (runFrom step M between).1,
      issued P S r e = none ∧ accepts P S r e = false ∧ restarts S e = false) :
    (runFrom step M between).2.impl.pending S r = some (deriveContext msg) := by
  have hrun := runFrom_induction step (h := [])
    (I := fun history M' =>
      M'.impl.pending S r = (ledger (pendingEffect P S r) (some msg) history).map deriveContext)
    (fun history M' op hslot => by
      rw [ledger_snoc]
      exact (step_transition M' op).pending hcodec hslot)
    hpending between
  rw [List.nil_append, ledger_keep fun e he => pendingEffect_keep.mpr (hkeep e he)] at hrun
  exact hrun

theorem rsaKey_between (M : Machine P) (ops : List Op) :
    (runFrom step M ops).2.impl.rsaKey = M.impl.rsaKey :=
  runFrom_invariant (I := fun _ M' => M'.impl.rsaKey = M.impl.rsaKey) step rfl
    (fun _ M' op h => ((step_transition M' op).rsaKey).trans h) ops

/-- A returned challenge left its request pending. -/
theorem challenge_pending {M M' : Machine P} {S : Bytes} {pssh : Pssh}
    {licenseType : LicenseType} {privacyMode : Bool} {challenge : Bytes}
    (h : step M (.getLicenseChallenge S pssh licenseType privacyMode)
      = (.ok (.challenge challenge), M')) :
    ∃ (s : SessionState) (c : Challenge), Issued M.impl s pssh licenseType c ∧
      challenge = P.serializeSignedMessage c.signedMessage ∧
      M'.impl.pending S c.requestId = some (deriveContext c.msg) := by
  have htransition := step_transition M (.getLicenseChallenge S pssh licenseType privacyMode)
  rw [h] at htransition
  obtain ⟨impl', himpl⟩ : ∃ impl', impl' = M'.impl := ⟨_, rfl⟩
  rw [← himpl] at htransition ⊢
  cases htransition with
  | @challenged _ s hs _ _ _ c hc =>
    refine ⟨s, c, hc, rfl, ?_⟩
    rw [pending_store_self]
    exact Finmap.lookup_insert _

/-- The response is accepted in `S` and appends the keys to those of `S`. -/
def Delivers (M : Machine P) (S response : Bytes) (keys : List Key) : Prop :=
  ∃ previous, (step M (.getKeys S "")).1 = .ok (.keys previous) ∧
    (step M (.parseLicense S response)).1 = .ok .done ∧
    (step (step M (.parseLicense S response)).2 (.getKeys S "")).1
      = .ok (.keys (previous ++ keys))

/-- The event neither closes `S`, nor issues another challenge in `S` with
request id `r`, nor is an accepted licence for `r` in `S`. -/
def Spares (P : Platform) (S r : Bytes) (e : Event) : Prop :=
  e.1 ≠ .closeSession S ∧ issued P S r e = none ∧ accepts P S r e = false

instance (P : Platform) (S r : Bytes) (e : Event) : Decidable (Spares P S r e) :=
  inferInstanceAs (Decidable (_ ∧ _ ∧ _))

/-- A returned challenge carries the init data of the PSSH and a request id,
and the honest server's answer to it is delivered after any calls that are
undisturbing for the session and the request id. -/
def Exchanges (P : Platform) (wraps : P.PKey → Bytes → Bytes → Prop) (start : Start P)
    (undisturbing : Bytes → Bytes → Event → Prop) : Prop :=
  ∀ (ops : List Op) (S raw : Bytes) (pssh : Pssh) (licenseType : LicenseType)
    (privacyMode : Bool) (c : Bytes) (M : Machine P),
    Pssh.fromBytes 64 raw = .ok pssh → pssh.isWidevine →
    1 ≤ pssh.initData.length → pssh.initData.length ≤ 100000 →
    step (start.run ops).2 (.getLicenseChallenge S pssh licenseType privacyMode)
      = (.ok (.challenge c), M) →
    ∃ signedMessage msg request psshData r,
      P.parseSignedMessage c = some signedMessage ∧ signedMessage.msg = some msg ∧
      P.parseLicenseRequest msg = some request ∧
      request.contentId = some { widevinePsshData := some psshData } ∧
      psshData.psshData = [pssh.initData] ∧ psshData.requestId = some r ∧
      ∀ (sessionKey wrapped : Bytes) (keys : List ServerKey) (signature coreMessage : Option Bytes)
        (host : Host P), sessionKey.length = 16 → wraps start.rsaKey sessionKey wrapped →
        ∃ response, (exec (answerRequest msg r sessionKey wrapped keys signature coreMessage)
            host).1 = .ok response ∧
          ∀ between, (∀ e ∈ (runFrom step M between).1, undisturbing S r e) →
            Delivers (runFrom step M between).2 S response (keys.map ServerKey.toKey)

theorem restarts_eq_false {S : Bytes} {e : Event} (hclose : e.1 ≠ .closeSession S)
    (hopen : e ≠ Event.opened S) : restarts S e = false := by
  unfold restarts
  split
  · exact decide_eq_false fun hid => hopen (by rw [hid])
  · exact decide_eq_false fun hid => hclose (by rw [hid])
  · rfl

/-- **The licence exchange.** From every reachable state, with every key list
and whatever the random bytes and the clock were, the honest server's answer
to a challenge is delivered after any calls that spare the request and do not
open the session anew. -/
theorem license_exchange {C : BlockCipher 16} {cmac : Bytes → Bytes → Bytes}
    {wraps : P.PKey → Bytes → Bytes → Prop} (hcodec : P.LawfulCodec)
    (hworking : P.Working C cmac wraps) (start : Start P) :
    Exchanges P wraps start fun S r e => Spares P S r e ∧ e ≠ Event.opened S := by
  intro ops S raw pssh licenseType privacyMode c M _ _ _ _ hc
  obtain ⟨s, challenge, hissued, rfl, hpending⟩ := challenge_pending hc
  obtain ⟨requestTime, nonce, hmsg⟩ := hissued.msg
  refine ⟨challenge.signedMessage, challenge.msg, _, _, challenge.requestId,
    hcodec.signedMessage _, rfl, by rw [hmsg, hcodec.licenseRequest], rfl, rfl, rfl, ?_⟩
  intro sessionKey wrapped keys signature coreMessage host hkey hwraps
  obtain ⟨host', hanswer⟩ := hworking.answerRequest hkey challenge.msg challenge.requestId wrapped
    keys signature coreMessage host
  refine ⟨_, by rw [hanswer], ?_⟩
  intro between hbetween
  have hkeep : ∀ e ∈ (runFrom step M between).1, issued P S challenge.requestId e = none ∧
      accepts P S challenge.requestId e = false ∧ restarts S e = false := by
    intro e he
    obtain ⟨⟨hclose, hissue, haccept⟩, hopen⟩ := hbetween e he
    exact ⟨hissue, haccept, restarts_eq_false hclose hopen⟩
  have hstill := pending_between hcodec hpending hkeep
  have hrsa : (runFrom step M between).2.impl.rsaKey = start.rsaKey := by
    rw [rsaKey_between, ← (pending_run hcodec start ops).rsaKey_eq]
    have htransition := step_transition (start.run ops).2
      (.getLicenseChallenge S pssh licenseType privacyMode)
    rw [hc] at htransition
    exact htransition.rsaKey
  obtain ⟨t, ht, hcontext⟩ := Option.bind_eq_some_iff.mp hstill
  rw [← hrsa] at hwraps
  obtain ⟨host'', hstep⟩ := hworking.step_answer hcodec ht hcontext hkey hwraps keys signature
    coreMessage
  refine ⟨t.keys, ?_, by rw [hstep], ?_⟩
  · rw [step, Op.run, exec_map, exec_getKeys ht]
    rfl
  · rw [hstep, step, Op.run, exec_map, exec_getKeys (store_lookup_self ..)]
    rfl

/-- The recorded exchange, with a second session opened and challenged before
the response arrives. -/
theorem license_exchange_recorded :
    ∃ response, (exec (answerRequest (P := Reference.platform Reference.nominal)
        Reference.requestMsg (List.replicate 16 0) Reference.sessionKey Reference.wrapped
        [⟨beBytes 16 0xB0B1B2B3B4B5B6B7B8B9BABBBCBDBEBF,
          beBytes 16 0xC0C1C2C3C4C5C6C7C8C9CACBCCCDCECF,
          beBytes 16 0x101112131415161718191A1B1C1D1E1F, .CONTENT, rfl, by decide⟩] none none)
        Reference.chrome.machine.host).1 = .ok response ∧
      Delivers (Reference.chrome.run (Reference.oneSession
        ++ [.openSession, Reference.getChallenge (Reference.sessionId 2)])).2
        (Reference.sessionId 1) response
        [⟨beBytes 16 0xB0B1B2B3B4B5B6B7B8B9BABBBCBDBEBF,
          beBytes 16 0x101112131415161718191A1B1C1D1E1F, "CONTENT"⟩] := by
  have hreturned : (step (Reference.chrome.run [.openSession]).2
      (Reference.getChallenge (Reference.sessionId 1))).1
        = .ok (.challenge Reference.challenge) := by
    decide +kernel
  obtain ⟨signedMessage, msg, request, psshData, r, hparse, hmsg, hrequest, hcontent, -, hr,
      hserve⟩ :=
    license_exchange (Reference.lawfulCodec Reference.nominal)
      (Reference.working Reference.nominal_proper) Reference.chrome [.openSession]
      (Reference.sessionId 1) Reference.psshBox Reference.pssh .STREAMING false Reference.challenge
      (step (Reference.chrome.run [.openSession]).2
        (Reference.getChallenge (Reference.sessionId 1))).2
      (by decide +kernel) (by decide +kernel) (by decide +kernel) (by decide +kernel)
      (Prod.ext hreturned rfl)
  obtain rfl := Option.some.inj
    ((Reference.parseSignedMessage_serialize _).symm.trans hparse)
  obtain rfl := Option.some.inj hmsg
  obtain rfl := Option.some.inj
    ((Reference.parseLicenseRequest_serialize _).symm.trans hrequest)
  cases hcontent
  obtain rfl := Option.some.inj hr
  obtain ⟨response, hresponse, hdeliver⟩ := hserve Reference.sessionKey Reference.wrapped _ none
    none Reference.chrome.machine.host rfl Reference.recorded_wraps
  refine ⟨response, hresponse, ?_⟩
  exact hdeliver [.openSession, Reference.getChallenge (Reference.sessionId 2)]
    (by decide +kernel)

/-- Entropy fails from the challenge on, for the next `2 ^ 32 - 1` calls. -/
def drought : Reference.Environment :=
  { Reference.nominal with entropy := fun tick => tick < 14 ∨ 14 + (2 ^ 32 - 1) ≤ tick }

/-- **An open session can be opened anew.** After a challenge in the first
session, `2 ^ 32 - 1` calls of `open_session` that find no entropy bring the
counter round; one more, drawing the bytes the first session was made of,
returns its id and overwrites it, and the response to the challenge is
refused. All else works as documented. -/
theorem exchange_overwritten :
    (Reference.platform drought).LawfulCodec ∧
    (Reference.platform drought).Working (Reference.cipher drought.recording.blocks)
      (Reference.digest 16 drought.recording.cmacs) drought.recording.Wraps ∧
    ¬ Exchanges (Reference.platform drought) drought.recording.Wraps
      (Reference.start drought .CHROME) (Spares (Reference.platform drought)) := by
  refine ⟨Reference.lawfulCodec drought, Reference.working Reference.nominal_proper, ?_⟩
  intro h
  obtain ⟨M, hM⟩ : ∃ M, M = (step ((Reference.start drought .CHROME).run [.openSession]).2
      (Reference.getChallenge (Reference.sessionId 1))).2 := ⟨_, rfl⟩
  have hc : (step ((Reference.start drought .CHROME).run [.openSession]).2
      (Reference.getChallenge (Reference.sessionId 1))).1
        = .ok (.challenge Reference.challenge) := by
    decide +kernel
  have hticks : Reference.ticks M.host = 14 := by
    rw [hM]
    decide +kernel
  have hcounter : M.impl.sessionCounter = 1 := by
    rw [hM]
    decide +kernel
  have hroom : M.impl.sessions.keys.card < 16 := by
    rw [hM]
    decide +kernel
  obtain ⟨signedMessage, msg, request, psshData, r, -, -, -, -, -, -, hserve⟩ :=
    h [.openSession] (Reference.sessionId 1) Reference.psshBox Reference.pssh .STREAMING false
      Reference.challenge M (by decide +kernel) (by decide +kernel) (by decide +kernel)
      (by decide +kernel) (by rw [hM]; exact Prod.ext hc rfl)
  obtain ⟨response, hresponse, hdeliver⟩ := hserve Reference.sessionKey Reference.wrapped [] none
    none M.host rfl Reference.recorded_wraps
  obtain ⟨n, hn⟩ : ∃ n, n = 2 ^ 32 - 1 := ⟨_, rfl⟩
  -- the counter comes round and the last call opens the first session anew
  have hstarved : runFrom step M (List.replicate n .openSession) = _ :=
    Reference.run_starved hroom n fun tick htick => by
      rw [hticks]
      refine decide_eq_false ?_
      omega
  have hid : sessionIdOf (List.Vector.replicate 12 0)
      ((Reference.starve M n).impl.sessionCounter + 1) = Reference.sessionId 1 := by
    show sessionIdOf _ (M.impl.sessionCounter + UInt32.ofNat n + 1) = _
    rw [hcounter, hn]
    decide +kernel
  have hanew := Reference.step_openSession_fed (M := Reference.starve M n) hroom (by
    show drought.entropy (Reference.ticks M.host + n) = true
    rw [hticks, hn]
    decide +kernel)
  rw [hid] at hanew
  have hrun := runFrom_append step M (List.replicate n .openSession) [.openSession]
  rw [hstarved, runFrom_cons, hanew, runFrom_nil] at hrun
  have hdelivered := hdeliver (List.replicate n .openSession ++ [.openSession]) (by
    rw [hrun]
    intro e he
    rcases List.mem_append.mp he with he | he
    · rw [List.eq_of_mem_replicate he]
      exact ⟨Op.noConfusion, rfl, rfl⟩
    · rw [List.mem_singleton.mp he]
      exact ⟨Op.noConfusion, rfl, rfl⟩)
  -- the new session has no context for the response
  obtain ⟨signedMessage, license, hdec⟩ :=
    decodeLicense_answer (Reference.lawfulCodec drought) (Prod.ext hresponse rfl)
  obtain ⟨previous, -, haccepted, -⟩ := hdelivered
  rw [hrun] at haccepted
  have hrefused := step_parseLicense_noContext
    (M := ⟨(Reference.starve (Reference.starve M n) 1).host,
      (Reference.starve M n).impl.count.store (Reference.sessionId 1)
        (newSession (Reference.sessionId 1) ((Reference.starve M n).impl.sessionCounter + 1))⟩)
    (store_lookup_self ..) hdec Finmap.notMem_empty
  rw [hrefused] at haccepted
  cases haccepted

end WidevineCdm
