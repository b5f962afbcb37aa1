import WidevineCdm.License.Atomicity

/-!
# Authentication of licences

`parse_license` computes the MAC of a response and does not compare it: the
comparison stands behind `false &&`. `Authentic` is what comparing it would
establish, spelled out in calls of `cmac_aes` and `HMAC`; a response is not
authentic because `HMAC` fails and leaves an empty MAC. A response that is not
authentic is rejected with the sessions unchanged in exactly the cases in
which something else stops it before a key is pushed; `Forged` is the other
case.
-/

namespace WidevineCdm

open Lib Proto

variable {P : Platform}

/-! ## What a valid signature is -/

/-- HMAC-SHA256 under `mac_key_server`, the two CMACs of the MAC context with
counters 1 and 2; nothing if `HMAC` fails. The other blocks that `derive_keys`
computes on the way are kept, since every call may change the world the next
one is made in. -/
def serverMac (context : Context) (sessionKey data : Bytes) : CryptoM P (Option Bytes) := do
  let _ ← Crypto.cmacAes sessionKey (0x01 :: context.encContext)
  let server1 ← Crypto.cmacAes sessionKey (0x01 :: context.macContext)
  let server2 ← Crypto.cmacAes sessionKey (0x02 :: context.macContext)
  let _ ← Crypto.cmacAes sessionKey (0x03 :: context.macContext)
  let _ ← Crypto.cmacAes sessionKey (0x04 :: context.macContext)
  Crypto.ask (P.hmac (server1 ++ server2) data)

/-- The response is a licence for a request pending in `s`, and its signature
field is the HMAC of core message and `msg` under the key derived from the
session key of the call and the MAC context stored for the request. -/
def Authentic (M : Machine P) (s : SessionState) (licenseResponse : Bytes) : Prop :=
  ∃ (signedMessage : SignedMessage) (license : License) (context : Context)
    (sessionKey : Bytes) (h₁ h₂ : Host P),
    decodeLicense (P := P) licenseResponse = .ok (signedMessage, license) ∧
    s.contexts.lookup license.requestIdD = some context ∧
    exec (unwrapSessionKey M.impl.rsaKey signedMessage) M.host = (.ok sessionKey, h₁) ∧
    exec (serverMac context sessionKey
        (signedMessage.oemcryptoCoreMessageD ++ signedMessage.msgD)) h₁
      = (.ok (some signedMessage.signatureD), h₂)

/-- The core message is prepended when there is one. -/
theorem msgToSign_eq (signedMessage : SignedMessage) :
    msgToSign signedMessage = signedMessage.oemcryptoCoreMessageD ++ signedMessage.msgD := by
  unfold msgToSign SignedMessage.oemcryptoCoreMessageD
  rcases signedMessage.oemcryptoCoreMessage with _ | _ | ⟨b, core⟩ <;> rfl

/-- `derive_keys` followed by `HMAC` computes the server MAC. -/
theorem exec_serverMac {context : Context} {sessionKey : Bytes} {derived : DerivedKeys}
    {h₁ h₂ : Host P} (data : Bytes)
    (hderived : exec (deriveKeys context.encContext context.macContext sessionKey) h₁
      = (.ok derived, h₂)) :
    exec (serverMac context sessionKey data) h₁
      = exec (Crypto.ask (P.hmac derived.macKeyServer data)) h₂ := by
  obtain ⟨encKey, g₁, henc, hderived⟩ := exec_bind_eq_ok.mp hderived
  obtain ⟨server1, g₂, hs1, hderived⟩ := exec_bind_eq_ok.mp hderived
  obtain ⟨server2, g₃, hs2, hderived⟩ := exec_bind_eq_ok.mp hderived
  obtain ⟨client3, g₄, hc3, hderived⟩ := exec_bind_eq_ok.mp hderived
  obtain ⟨client4, g₅, hc4, hderived⟩ := exec_bind_eq_ok.mp hderived
  cases hderived
  calc exec (serverMac context sessionKey data) h₁
    _ = _ := exec_bind_ok henc
    _ = _ := exec_bind_ok hs1
    _ = _ := exec_bind_ok hs2
    _ = _ := exec_bind_ok hc3
    _ = _ := exec_bind_ok hc4

/-- A server MAC that was computed came from derived keys. -/
theorem serverMac_ok {context : Context} {sessionKey data : Bytes} {mac : Option Bytes}
    {h₁ h₃ : Host P} (h : exec (serverMac context sessionKey data) h₁ = (.ok mac, h₃)) :
    ∃ derived h₂,
      exec (deriveKeys context.encContext context.macContext sessionKey) h₁
        = (.ok derived, h₂) ∧
      (P.hmac derived.macKeyServer data h₂.world).1 = mac := by
  obtain ⟨encKey, g₁, henc, h⟩ := exec_bind_eq_ok.mp h
  obtain ⟨server1, g₂, hs1, h⟩ := exec_bind_eq_ok.mp h
  obtain ⟨server2, g₃, hs2, h⟩ := exec_bind_eq_ok.mp h
  obtain ⟨client3, g₄, hc3, h⟩ := exec_bind_eq_ok.mp h
  obtain ⟨client4, g₅, hc4, h⟩ := exec_bind_eq_ok.mp h
  obtain ⟨hmac, -⟩ := Prod.mk.inj h
  refine ⟨⟨encKey, client3 ++ client4, server1 ++ server2⟩, g₅, ?_, Except.ok.inj hmac⟩
  exact exec_bind_eq_ok.mpr ⟨encKey, g₁, henc, exec_bind_eq_ok.mpr ⟨server1, g₂, hs1,
    exec_bind_eq_ok.mpr ⟨server2, g₃, hs2, exec_bind_eq_ok.mpr ⟨client3, g₄, hc3,
      exec_bind_eq_ok.mpr ⟨client4, g₅, hc4, rfl⟩⟩⟩⟩⟩

/-- **A response is authentic exactly if it comes to the key extraction loop
with a signature that is the output of `HMAC`.** -/
theorem authentic_iff {M : Machine P} {S : Bytes} {s : SessionState} {licenseResponse : Bytes}
    (hs : M.impl.sessions.lookup S = some s) :
    Authentic M s licenseResponse ↔
      ∃ loop : LoopStart M S licenseResponse, loop.hmac = some loop.signedMessage.signatureD := by
  constructor
  · rintro ⟨signedMessage, license, context, sessionKey, h₁, h₃, hdec, hctx, hkey, hmac⟩
    obtain ⟨derived, h₂, hderived, hhmac⟩ := serverMac_ok hmac
    rw [← msgToSign_eq] at hhmac
    exact ⟨{ session := s, signedMessage, license, context, sessionKey, derived, unwrapped := h₁,
             keyed := h₂, lookup_session := hs, decodes := hdec, lookup_context := hctx,
             unwraps := hkey, derives := hderived }, hhmac⟩
  · rintro ⟨loop, hsig⟩
    obtain rfl := Option.some.inj (loop.lookup_session.symm.trans hs)
    refine ⟨loop.signedMessage, loop.license, loop.context, loop.sessionKey, loop.unwrapped,
      loop.host, loop.decodes, loop.lookup_context, loop.unwraps, ?_⟩
    rw [exec_serverMac _ loop.derives, ← msgToSign_eq, ← hsig]
    rfl

/-! ## What `parse_license` does with it -/

/-- The call returned, or the session has more keys than before it. -/
def Changes (M : Machine P) (S : Bytes) (s : SessionState) (licenseResponse : Bytes) : Prop :=
  (∃ reply, (step M (.parseLicense S licenseResponse)).1 = .ok reply) ∨
    ∃ s', (step M (.parseLicense S licenseResponse)).2.impl.sessions.lookup S = some s' ∧
      s.keys.length < s'.keys.length

/-- Only an authentic response makes `parse_license` return or add a key; any
other is rejected with the sessions unchanged. -/
def OnlyAuthentic (M : Machine P) : Op → Prop
  | .parseLicense S licenseResponse =>
    ∀ s, M.impl.sessions.lookup S = some s →
      (Changes M S s licenseResponse → Authentic M s licenseResponse) ∧
      (¬ Authentic M s licenseResponse →
        (∃ e, (step M (.parseLicense S licenseResponse)).1 = .error e) ∧
        (step M (.parseLicense S licenseResponse)).2.impl.sessions = M.impl.sessions)
  | _ => True

/-- A response for a pending request that comes to the key extraction loop
with a signature that is not its HMAC, or with no HMAC computed, and that its
own first container does not stop. -/
def Forged (M : Machine P) : Op → Prop
  | .parseLicense S licenseResponse =>
    ∃ loop : LoopStart M S licenseResponse, loop.hmac ≠ some loop.signedMessage.signatureD ∧
      ∀ c ∈ loop.license.key.head?, decrypts loop.derived.encKey c loop.host
  | _ => False

section Loop

variable {M : Machine P} {S licenseResponse : Bytes} (loop : LoopStart M S licenseResponse)

include loop

theorem authentic_of_loop :
    Authentic M loop.session licenseResponse ↔
      loop.hmac = some loop.signedMessage.signatureD := by
  rw [authentic_iff loop.lookup_session]
  constructor
  · rintro ⟨loop', hsig⟩
    rwa [Subsingleton.elim loop loop']
  · intro hsig
    exact ⟨loop, hsig⟩

/-- A response that comes to the loop changes the session unless its first
container does not decrypt, in which case it is rejected with nothing
changed. -/
theorem parseLicense_loop :
    if ∀ c ∈ loop.license.key.head?, decrypts loop.derived.encKey c loop.host then
      Changes M S loop.session licenseResponse
    else
      (∃ e, (step M (.parseLicense S licenseResponse)).1 = .error e) ∧
        (step M (.parseLicense S licenseResponse)).2.impl.sessions = M.impl.sessions := by
  have hs := loop.lookup_session
  have ho := loop.exec_openLicense
  by_cases hall : allDecrypt loop.derived.encKey loop.license.key loop.host
  · have hstep := step_parseLicense_accepted hs ho hall
    rw [if_pos]
    · exact .inl ⟨.done, by rw [hstep]⟩
    · intro c hc
      obtain ⟨rest, hkey⟩ := List.head?_eq_some_iff.mp hc
      rw [hkey, allDecrypt, Bool.and_eq_true] at hall
      exact hall.1
  · obtain ⟨e, hstep⟩ := step_parseLicense_interrupted hs ho hall
    by_cases hfirst : ∀ c ∈ loop.license.key.head?, decrypts loop.derived.encKey c loop.host
    · rw [if_pos hfirst]
      refine .inr ⟨_, by rw [hstep]; exact store_lookup_self .., ?_⟩
      -- there is a first container, else the loop would have completed
      have hkeys : (extractAll loop.derived.encKey loop.license.key loop.host).1.1 ≠ [] := by
        intro hnil
        cases hkey : loop.license.key with
        | nil =>
          rw [hkey] at hall
          exact hall rfl
        | cons c rest =>
          have hc : c ∈ loop.license.key.head? := by
            rw [hkey]
            rfl
          have hdec := hfirst c hc
          rw [extractAll_keys_nil.mp hnil c hc] at hdec
          cases hdec
      show loop.session.keys.length < (loop.session.keys ++ _).length
      rw [List.length_append]
      exact Nat.lt_add_of_pos_right (List.length_pos_iff.mpr hkeys)
    · rw [if_neg hfirst]
      refine ⟨⟨e, by rw [hstep]⟩, ?_⟩
      rw [hstep]
      refine (store_sessions_eq_self hs).mpr (pushKeys_eq_self.mpr ?_)
      refine extractAll_keys_nil.mpr fun c hc => Bool.eq_false_of_not_eq_true fun hdec => ?_
      refine hfirst fun d hd => ?_
      rw [← Option.some.inj (hc.symm.trans hd)]
      exact hdec

end Loop

/-- A call that throws with the sessions unchanged does not change one. -/
theorem not_changes_of_rejected {M : Machine P} {S : Bytes} {s : SessionState}
    {licenseResponse : Bytes} (hs : M.impl.sessions.lookup S = some s) {e : Exn}
    (he : (step M (.parseLicense S licenseResponse)).1 = .error e)
    (hsame : (step M (.parseLicense S licenseResponse)).2.impl.sessions = M.impl.sessions) :
    ¬ Changes M S s licenseResponse := by
  rintro (⟨reply, hreply⟩ | ⟨s', hs', hlt⟩)
  · rw [he] at hreply
    cases hreply
  · rw [hsame, hs] at hs'
    rw [Option.some.inj hs'] at hlt
    exact absurd hlt (lt_irrefl _)

/-- A call keeps to authentic licences unless it is given a forged one. -/
theorem onlyAuthentic_iff (M : Machine P) (op : Op) : OnlyAuthentic M op ↔ ¬ Forged M op := by
  cases op with
  | parseLicense S licenseResponse =>
    constructor
    · rintro honly ⟨loop, hsig, hfirst⟩
      have hchanges := parseLicense_loop loop
      rw [if_pos hfirst] at hchanges
      exact hsig ((authentic_of_loop loop).mp ((honly _ loop.lookup_session).1 hchanges))
    · intro hforged s hs
      rcases ho : exec (openLicense M.impl.rsaKey s.contexts licenseResponse) M.host
        with ⟨e | opened, host⟩
      · have hstep := step_parseLicense_refused hs ho
        constructor
        · intro hchanges
          have hnot := not_changes_of_rejected hs (by rw [hstep]) (by rw [hstep])
          exact absurd hchanges hnot
        · intro _
          rw [hstep]
          exact ⟨⟨e, rfl⟩, rfl⟩
      · obtain ⟨loop, rfl, -, -⟩ := exists_loopStart hs ho
        by_cases hsig : loop.hmac = some loop.signedMessage.signatureD
        · have hauth := (authentic_of_loop loop).mpr hsig
          constructor
          · intro _
            exact hauth
          · intro hnot
            exact absurd hauth hnot
        · have hrejected := parseLicense_loop loop
          rw [if_neg fun hfirst => hforged ⟨loop, hsig, hfirst⟩] at hrejected
          obtain ⟨⟨e, he⟩, hsame⟩ := hrejected
          constructor
          · intro hchanges
            exact absurd hchanges (not_changes_of_rejected hs he hsame)
          · intro _
            exact ⟨⟨e, he⟩, hsame⟩
  | _ => exact iff_of_true trivial (fun h => h)

/-! ## Main result -/

/-- **Only authentic licences change a session, but for forged ones that
nothing else stops.** Along a run every change to a session comes from an
authentic response, and every other response is rejected with the sessions
unchanged, exactly when no call of the run is given a response for a pending
request with a signature that is not its HMAC, or with `HMAC` failing, whose
other primitives return and whose first container, if there is one,
decrypts. -/
theorem only_authentic_licenses (start : Start P) (ops : List Op) :
    (∀ M op, start.Calls ops M op → OnlyAuthentic M op) ↔
      ∀ M op, start.Calls ops M op → ¬ Forged M op := by
  refine Start.calls_congr ?_ start ops
  intro M op
  exact onlyAuthentic_iff M op

/-- A response without signature and session key, made by anyone who saw the
request, adds a key. -/
theorem forged_license_accepted :
    ¬ ∀ (ops : List Op) (M : Machine (Reference.platform Reference.nominal)) (op : Op),
      Reference.chrome.Calls ops M op → OnlyAuthentic M op := by
  intro h
  let forged := Reference.response (Reference.license [Reference.forgedContainer]) none none
  have honly := h _ _ _ (Reference.chrome.calls_last Reference.oneSession
    (.parseLicense (Reference.sessionId 1) forged))
  have hopen : ((Reference.chrome.run Reference.oneSession).2.impl.sessions.lookup
      (Reference.sessionId 1)).isSome := by
    decide +kernel
  have haccepted : (step (Reference.chrome.run Reference.oneSession).2
      (.parseLicense (Reference.sessionId 1) forged)).1 = .ok .done := by
    decide +kernel
  have hdec := Reference.decodeLicense_response Reference.nominal
    (Reference.license [Reference.forgedContainer]) none none
  obtain ⟨s, hs⟩ := Option.isSome_iff_exists.mp hopen
  obtain ⟨signedMessage, license, context, sessionKey, h₁, h₂, hdec', -, -, hmac⟩ :=
    (honly s hs).1 (.inl ⟨.done, haccepted⟩)
  rw [hdec] at hdec'
  obtain ⟨rfl, -⟩ := Prod.mk.inj (Except.ok.inj hdec')
  -- the signature field is empty and an HMAC is not
  obtain ⟨derived, h₃, -, hmac⟩ := serverMac_ok hmac
  have hlength := Reference.hmac_length hmac
  cases hlength

end WidevineCdm
