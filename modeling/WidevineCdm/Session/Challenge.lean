import WidevineCdm.License.Primitives
import WidevineCdm.Session.Isolation

/-!
# Challenges

What `get_license_challenge` sends, and when it sends it. A challenge that is
returned asks for the init data it was called with, under the client id in the
clear, with a request id of its session and a nonce that is a positive 32-bit
integer. When neither the random generator nor signing fails, the session, the
system id and the size of the init data alone decide whether there is one, and
a call that is refused leaves the object as it was.
-/

namespace WidevineCdm

open Lib Proto

variable {P : Platform}

/-! ## What a challenge is made of -/

/-- The request ids of a session, given the device and the session's number. -/
def RequestIdOf (type : DeviceType) (number : UInt32) (requestId : Bytes) : Prop :=
  match type with
  | .CHROME => requestId.length = 16
  | .ANDROID => AndroidRequestId number requestId

theorem generateRequestId_of {type : DeviceType} {number : UInt32} {requestId : Bytes}
    {host host' : Host P}
    (h : exec (generateRequestId type number) host = (.ok requestId, host')) :
    RequestIdOf type number requestId := by
  cases type with
  | CHROME =>
    obtain ⟨random, host₁, -, h⟩ := exec_bind_eq_ok.mp h
    cases h
    exact random.toList_length
  | ANDROID => exact generateRequestId_android h

/-- The sum of the shifted bytes, with the sign bit cleared. -/
theorem nonce_toNat (b0 b1 b2 b3 : UInt8) :
    ((b0.toUInt32 ||| (b1.toUInt32 <<< 8) ||| (b2.toUInt32 <<< 16) ||| (b3.toUInt32 <<< 24))
      &&& 0x7FFFFFFF).toNat = leNat [b0, b1, b2, b3] % 2 ^ 31 := by
  have hreverse : ∀ a b c d : UInt32, a ||| b ||| c ||| d = d ||| c ||| b ||| a := by
    intro a b c d
    rw [UInt32.or_comm _ d, UInt32.or_comm _ c, UInt32.or_comm a b, UInt32.or_assoc,
      UInt32.or_assoc]
  rw [hreverse, UInt32.toNat_and, be32_toNat]
  exact Nat.and_two_pow_sub_one_eq_mod (beNat [b3, b2, b1, b0]) 31

/-- The nonce is made of one byte of each of four draws. -/
theorem keyControlNonce_toNat {nonce : UInt32} {host host' : Host P}
    (h : exec keyControlNonce host = (.ok nonce, host')) :
    ∃ b0 b1 b2 b3 : UInt8, nonce.toNat = leNat [b0, b1, b2, b3] % 2 ^ 31 := by
  obtain ⟨r0, h₁, -, h⟩ := exec_bind_eq_ok.mp h
  obtain ⟨r1, h₂, -, h⟩ := exec_bind_eq_ok.mp h
  obtain ⟨r2, h₃, -, h⟩ := exec_bind_eq_ok.mp h
  obtain ⟨r3, h₄, -, h⟩ := exec_bind_eq_ok.mp h
  have hnonce := Except.ok.inj (Prod.mk.inj h).1
  refine ⟨r0.get 0, r1.get 1, r2.get 2, r3.get 3, ?_⟩
  rw [← hnonce]
  exact nonce_toNat _ _ _ _

/-- The message of a request, given what was drawn for it. -/
def requestFor (clientId : P.ClientIdentification) (pssh : Pssh) (licenseType : LicenseType)
    (requestId : Bytes) (requestTime : Int64) (nonce : UInt32) :
    LicenseRequest P.ClientIdentification :=
  { clientId := some clientId
    contentId := some { widevinePsshData := some {
      psshData := [pssh.initData]
      licenseType := some licenseType
      requestId := some requestId } }
    type := some .NEW
    requestTime := some requestTime
    protocolVersion := some .VERSION_2_1
    keyControlNonce := some nonce }

/-- A challenge for the session number: what it decodes to. -/
structure ChallengeFor (start : Start P) (number : UInt32) (pssh : Pssh)
    (licenseType : LicenseType) (challenge : Bytes) : Prop where
  isWidevine : pssh.isWidevine = true
  initData : 1 ≤ pssh.initData.length ∧ pssh.initData.length ≤ 100000
  decodes : ∃ msg signature requestId requestTime nonce,
    P.parseSignedMessage challenge = some
      { type := some .LICENSE_REQUEST, msg := some msg, signature := some signature } ∧
    P.parseLicenseRequest msg
      = some (requestFor start.clientId pssh licenseType requestId requestTime nonce) ∧
    Yields (Crypto.signPssSha1 start.rsaKey msg) signature ∧
    RequestIdOf start.device.type number requestId ∧
    ∃ b0 b1 b2 b3 : UInt8, nonce.toNat = leNat [b0, b1, b2, b3] % 2 ^ 31

/-- The `try` block in front of the content id. -/
theorem setContentId_bounds {pssh : Pssh} {licenseType : LicenseType} {requestId : Bytes}
    {contentId : ContentIdentification}
    (h : setContentId pssh licenseType requestId = .ok contentId) :
    1 ≤ pssh.initData.length ∧ pssh.initData.length ≤ 100000 := by
  unfold setContentId at h
  cases hempty : pssh.initData.isEmpty with
  | true =>
    rw [hempty] at h
    cases h
  | false =>
    rw [hempty] at h
    rw [List.isEmpty_eq_false_iff, ← List.length_pos_iff] at hempty
    refine ⟨hempty, Nat.not_lt.mp fun hlong => ?_⟩
    rw [if_pos hlong] at h
    cases h

/-- What a challenge that was completed is made of. -/
theorem buildChallenge_ok {impl : Impl P} {s : SessionState} {pssh : Pssh}
    {licenseType : LicenseType} {c : Challenge} {host host' : Host P}
    (h : exec (buildChallenge impl s pssh licenseType) host = (.ok c, host')) :
    pssh.isWidevine = true ∧
      (1 ≤ pssh.initData.length ∧ pssh.initData.length ≤ 100000) ∧
      RequestIdOf impl.device.type s.number c.requestId ∧
      Yields (Crypto.signPssSha1 impl.rsaKey c.msg) c.signature ∧
      ∃ requestTime nonce, (∃ b0 b1 b2 b3 : UInt8, nonce.toNat = leNat [b0, b1, b2, b3] % 2 ^ 31) ∧
        c.msg = P.serializeLicenseRequest
          (requestFor impl.clientId pssh licenseType c.requestId requestTime nonce) := by
  unfold buildChallenge at h
  cases hw : pssh.isWidevine with
  | false =>
    rw [hw] at h
    cases h
  | true =>
    rw [hw] at h
    simp only [Bool.not_true, Bool.false_eq_true, if_false] at h
    obtain ⟨requestId, h1, hrid, h⟩ := exec_bind_eq_ok.mp h
    obtain ⟨contentId, h2, hcid, h⟩ := exec_bind_eq_ok.mp h
    obtain ⟨requestTime, h3, -, h⟩ := exec_bind_eq_ok.mp h
    obtain ⟨nonce, h4, hnonce, h⟩ := exec_bind_eq_ok.mp h
    obtain ⟨signature, h5, hsig, h⟩ := exec_bind_eq_ok.mp h
    rw [exec_liftExcept] at hcid
    have hbounds := setContentId_bounds (Prod.mk.inj hcid).1
    obtain rfl := setContentId_ok (Prod.mk.inj hcid).1
    cases h
    exact ⟨rfl, hbounds, generateRequestId_of hrid, yields_of_exec hsig, requestTime, nonce,
      keyControlNonce_toNat hnonce, rfl⟩

theorem challengeFor_of_build (hcodec : P.LawfulCodec) {start : Start P} {impl : Impl P}
    (hdevice : impl.device = start.device) (hrsa : impl.rsaKey = start.rsaKey)
    (hclient : impl.clientId = start.clientId) {s : SessionState} {pssh : Pssh}
    {licenseType : LicenseType} {c : Challenge} {host host' : Host P}
    (h : exec (buildChallenge impl s pssh licenseType) host = (.ok c, host')) :
    ChallengeFor start s.number pssh licenseType
      (P.serializeSignedMessage c.signedMessage) := by
  obtain ⟨hwidevine, hbounds, hid, hsig, requestTime, nonce, hnonce, hmsg⟩ := buildChallenge_ok h
  rw [hdevice] at hid
  rw [hrsa] at hsig
  rw [hclient] at hmsg
  refine ⟨hwidevine, hbounds, c.msg, c.signature, c.requestId, requestTime, nonce,
    hcodec.signedMessage _, ?_, hsig, hid, hnonce⟩
  rw [hmsg]
  exact hcodec.licenseRequest _

/-- No call replaces what the object was made from. -/
theorem made_from (start : Start P) (ops : List Op) :
    (start.run ops).2.impl.device = start.device ∧
      (start.run ops).2.impl.rsaKey = start.rsaKey ∧
      (start.run ops).2.impl.clientId = start.clientId :=
  start.run_invariant
    (I := fun _ impl => impl.device = start.device ∧ impl.rsaKey = start.rsaKey ∧
      impl.clientId = start.clientId)
    ⟨rfl, rfl, rfl⟩ (fun _ _ _ _ _ h hinv => by cases h <;> exact hinv) ops

/-- **What challenges say.** Whenever a call of `get_license_challenge` of a
run returns, the challenge decodes to a request for the init data it was given,
under the client id of the object, with a request id that carries the number
of the session (ANDROID) or is 16 bytes (CHROME), and with a signature over
these very bytes; the init data had between 1 and 100000 bytes. -/
theorem challenge_contents (hcodec : P.LawfulCodec) (start : Start P) (ops : List Op)
    {M : Machine P} {S : Bytes} {pssh : Pssh} {licenseType : LicenseType} {privacyMode : Bool}
    (hcall : start.Calls ops M (.getLicenseChallenge S pssh licenseType privacyMode))
    {challenge : Bytes}
    (hreturn : (step M (.getLicenseChallenge S pssh licenseType privacyMode)).1
      = .ok (.challenge challenge)) :
    ∃ number : UInt32, S.drop 12 = beBytes 4 number.toNat ∧
      ChallengeFor start number pssh licenseType challenge := by
  obtain ⟨earlier, later, -, rfl⟩ := hcall
  cases hs : (start.run earlier).2.impl.sessions.lookup S with
  | none =>
    rw [step_unknown rfl hs] at hreturn
    cases hreturn
  | some s =>
    obtain ⟨-, -, hnumber⟩ := (lifecycle_run start earlier).stored_shape hs
    obtain ⟨hdevice, hrsa, hclient⟩ := made_from start earlier
    rw [step, Op.run, exec_map, exec_getLicenseChallenge hs] at hreturn
    rcases hc : exec (buildChallenge (start.run earlier).2.impl s pssh licenseType)
        (start.run earlier).2.host with ⟨e | c, host⟩
    · rw [hc] at hreturn
      cases hreturn
    · rw [hc] at hreturn
      cases hreturn
      exact ⟨s.number, hnumber, challengeFor_of_build hcodec hdevice hrsa hclient hc⟩

/-- The challenge of the recorded exchange. -/
theorem challenge_contents_exchange :
    ∃ number : UInt32, (Reference.sessionId 1).drop 12 = beBytes 4 number.toNat ∧
      ChallengeFor Reference.chrome number Reference.pssh .STREAMING Reference.challenge := by
  have hcall : Reference.chrome.Calls Reference.oneSession (Reference.chrome.run [.openSession]).2
      (.getLicenseChallenge (Reference.sessionId 1) Reference.pssh .STREAMING false) :=
    ⟨[.openSession], [], rfl, rfl⟩
  exact challenge_contents (Reference.lawfulCodec Reference.nominal) Reference.chrome
    Reference.oneSession hcall (by decide +kernel)

/-! ## When there is a challenge -/

/-- Why a challenge for a PSSH is refused in an open session. -/
def Pssh.refusal (pssh : Pssh) : Option Exn :=
  if !pssh.isWidevine then
    some (.runtimeError "PSSH is not Widevine")
  else if pssh.initData.isEmpty then
    some (.runtimeError "Failed to set content_id: PSSH init_data is empty")
  else if pssh.initData.length > 100000 then
    some (.runtimeError
      ("Failed to set content_id: " ++
        ("PSSH init_data suspiciously large: " ++ toString pssh.initData.length)))
  else
    none

/-- Why a challenge is refused, when nothing fails outside. -/
def challengeRefusal (impl : Impl P) (sessionId : Bytes) (pssh : Pssh) : Option Exn :=
  if (impl.sessions.lookup sessionId).isNone then some invalidSession else pssh.refusal

theorem challengeRefusal_open {impl : Impl P} {sessionId : Bytes} {s : SessionState}
    (hs : impl.sessions.lookup sessionId = some s) (pssh : Pssh) :
    challengeRefusal impl sessionId pssh = pssh.refusal := by
  rw [challengeRefusal, hs]
  rfl

section Walk

variable {E : Exn → Prop} (hrandom : ∀ n, Throws E (Crypto.randomBytes (P := P) n))

include hrandom

theorem throws_requestId (type : DeviceType) (sessionNum : UInt32) :
    Throws E (generateRequestId (P := P) type sessionNum) := by
  have hcounter : ∀ n i requestId, Throws E (pushCounter (P := P) sessionNum n i requestId) := by
    intro n
    induction n with
    | zero => exact fun _ _ => throws_pure _
    | succ n ih =>
      intro i requestId
      refine throws_bind ?_ fun byte => ih _ _
      unfold shiftRight
      split
      · exact throws_pure _
      · exact throws_ask _
  cases type with
  | CHROME => exact throws_bind (hrandom 16) fun _ => throws_pure _
  | ANDROID =>
    refine throws_bind (hrandom 4) fun _ => ?_
    exact throws_bind (hcounter _ _ _) fun _ => throws_pure _

theorem throws_nonce : Throws E (keyControlNonce (P := P)) := by
  refine throws_bind (hrandom 4) fun _ => ?_
  refine throws_bind (hrandom 4) fun _ => ?_
  refine throws_bind (hrandom 4) fun _ => ?_
  exact throws_bind (hrandom 4) fun _ => throws_pure _

/-- A challenge on an open session fails in its check of the system id, in the
random bytes, in the check of the init data, or in signing. -/
theorem throws_challenge {impl : Impl P} {s : SessionState} {pssh : Pssh}
    {licenseType : LicenseType}
    (hwidevine : pssh.isWidevine = false → E (.runtimeError "PSSH is not Widevine"))
    (hcontent : pssh.isWidevine = true → ∀ requestId e,
      setContentId pssh licenseType requestId = .error e → E e)
    (hsign : ∀ msg, Throws E (Crypto.signPssSha1 impl.rsaKey msg)) :
    Throws E (buildChallenge impl s pssh licenseType) := by
  unfold buildChallenge
  cases hid : pssh.isWidevine with
  | false =>
    intro host e host' h
    have he : (.error (.runtimeError "PSSH is not Widevine"), host)
        = ((.error e, host') : Except Exn Challenge × Host P) := h
    cases he
    exact hwidevine hid
  | true =>
    refine throws_bind (throws_requestId hrandom _ _) fun requestId => ?_
    refine throws_bind ((throws_closed E).liftExcept (hcontent hid requestId)) fun _ => ?_
    refine throws_bind (throws_ask _) fun _ => throws_bind (throws_nonce hrandom) fun _ => ?_
    exact throws_bind (hsign _) fun _ => throws_pure _

end Walk

/-! ## When nothing fails outside -/

/-- Nothing is thrown. -/
abbrev Quiet {α : Type} (m : CryptoM P α) : Prop := Throws (fun _ => False) m

theorem quiet_demand {α : Type} {f : P.World → Option α × P.World} (h : ∀ w, (f w).1.isSome)
    (what : String) : Quiet (Crypto.demand f what) := by
  intro host e host' heq
  have hok := isOk_demand f what host
  rw [heq, h] at hok
  cases hok

theorem quiet_require {call : LibCall P.PKey} (h : ∀ w, (P.succeeds call w).1 = true)
    (what : String) : Quiet (Crypto.require call what) := by
  intro host e host' heq
  rw [exec_require, if_pos (h host.world)] at heq
  cases heq

namespace Platform.Signs

variable (hsigns : P.Signs)

include hsigns

theorem randomBytes (n : Nat) : Quiet (Crypto.randomBytes (P := P) n) :=
  quiet_demand (hsigns.randBytes n) _

theorem signPssSha1 (key : P.PKey) (data : Bytes) : Quiet (Crypto.signPssSha1 key data) := by
  refine throws_bind (quiet_require hsigns.evpMdCtxNew _) fun _ => ?_
  refine throws_bind (quiet_require (hsigns.evpDigestSignInit key) _) fun _ => ?_
  refine throws_bind (quiet_require (hsigns.evpPssPadding key) _) fun _ => ?_
  refine throws_bind (quiet_require (hsigns.evpPssSaltlen key) _) fun _ => ?_
  refine throws_bind (quiet_require (hsigns.evpDigestSignUpdate key data) _) fun _ => ?_
  refine throws_bind (quiet_require (hsigns.evpDigestSignLength key data) _) fun _ => ?_
  exact quiet_demand (hsigns.evpDigestSignFinal key data) _

/-- What a challenge on an open session throws is what it is refused for. -/
theorem buildChallenge (impl : Impl P) (s : SessionState) (pssh : Pssh)
    (licenseType : LicenseType) :
    Throws (fun e => pssh.refusal = some e) (buildChallenge impl s pssh licenseType) := by
  refine throws_challenge (fun n => (hsigns.randomBytes n).mono fun _ => False.elim)
    (fun hid => ?_) (fun hid requestId e he => ?_)
    fun msg => (hsigns.signPssSha1 _ msg).mono fun _ => False.elim
  · rw [Pssh.refusal, if_pos (by rw [hid]; rfl)]
  · rw [Pssh.refusal, if_neg (by simp [hid])]
    unfold setContentId at he
    cases hempty : pssh.initData.isEmpty with
    | true =>
      rw [hempty] at he
      rw [if_pos rfl, ← Except.error.inj he]
      rfl
    | false =>
      rw [hempty] at he
      rw [if_neg Bool.false_ne_true]
      by_cases hlong : pssh.initData.length > 100000
      · rw [if_pos hlong] at he ⊢
        rw [← Except.error.inj he]
        rfl
      · rw [if_neg hlong] at he
        cases he

end Platform.Signs

/-- A challenge that was completed is not refused. -/
theorem refusal_of_build {impl : Impl P} {s : SessionState} {pssh : Pssh}
    {licenseType : LicenseType} {c : Challenge} {host host' : Host P}
    (h : exec (buildChallenge impl s pssh licenseType) host = (.ok c, host')) :
    pssh.refusal = none := by
  obtain ⟨hwidevine, ⟨hpos, hle⟩, -⟩ := buildChallenge_ok h
  have hempty : pssh.initData.isEmpty = false := by
    rw [List.isEmpty_eq_false_iff, ← List.length_pos_iff]
    exact hpos
  simp [Pssh.refusal, hwidevine, hempty, hle]

/-- **When challenges are refused.** With a random generator and signing calls
that do not fail, `get_license_challenge` throws exactly what
`challengeRefusal` says, from any state of the object, and then leaves the
object as it was; when that is nothing it returns a challenge. -/
theorem challenge_refused_iff (hsigns : P.Signs) (M : Machine P) (S : Bytes) (pssh : Pssh)
    (licenseType : LicenseType) (privacyMode : Bool) :
    (∀ e, (step M (.getLicenseChallenge S pssh licenseType privacyMode)).1 = .error e ↔
        challengeRefusal M.impl S pssh = some e) ∧
      (challengeRefusal M.impl S pssh ≠ none →
        (step M (.getLicenseChallenge S pssh licenseType privacyMode)).2.impl = M.impl) := by
  cases hs : M.impl.sessions.lookup S with
  | none =>
    have hrefusal : challengeRefusal M.impl S pssh = some invalidSession := by
      simp [challengeRefusal, hs]
    rw [step_unknown rfl hs, hrefusal]
    refine ⟨fun e => ?_, fun _ => rfl⟩
    simp
  | some s =>
    rw [step, Op.run, exec_map, exec_getLicenseChallenge hs]
    rcases hc : exec (buildChallenge M.impl s pssh licenseType) M.host with ⟨e | c, host⟩
    · rw [challengeRefusal_open hs, hsigns.buildChallenge M.impl s pssh licenseType _ _ _ hc]
      refine ⟨fun e' => ?_, fun _ => rfl⟩
      simp [Except.map]
    · rw [challengeRefusal_open hs, refusal_of_build hc]
      simp [Except.map]

/-- The reference platform signs, and refuses a challenge without init data. -/
theorem challenge_refused_nominal :
    (step (Reference.chrome.run [.openSession]).2 (.getLicenseChallenge (Reference.sessionId 1)
      { Reference.pssh with initData := [] } .STREAMING false)).1
      = .error (.runtimeError "Failed to set content_id: PSSH init_data is empty") := by
  refine ((challenge_refused_iff Reference.nominal_signs _ _ _ _ _).1 _).mpr ?_
  decide +kernel

end WidevineCdm
