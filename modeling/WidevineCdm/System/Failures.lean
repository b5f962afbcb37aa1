import WidevineCdm.License.Delivery
import WidevineCdm.Reference.Platform
import WidevineCdm.Session.Challenge

/-!
# What a failure tells

Every exception of a call carries one of a short list of messages, which the
call alone determines, as long as the standard library finds the memory for the
library's own containers. None of them is the failed verification of a
signature, although the code has a message for it. The text also tells whether
the call had an effect: the sessions are as they were unless it begins with the
words of the key extraction loop. What libcrypto reads through the pointers it
is given is the subject of `License.KeySizes`, not of this list.
-/

namespace WidevineCdm

open Lib Proto

variable {P : Platform}

/-! ## Messages -/

/-- The messages of `RSA::sign_pss_sha1`. -/
def signMessages : List String :=
  ["Failed to create EVP context", "Failed to initialize signing", "Failed to set PSS padding",
    "Failed to set salt length", "Failed to update digest", "Failed to get signature length",
    "Failed to sign"]

/-- The messages of `RSA::decrypt_oaep_sha1`. -/
def oaepMessages : List String :=
  ["Failed to create PKEY context", "Failed to initialize decryption",
    "Failed to set OAEP padding", "Failed to set OAEP hash", "Failed to set MGF1 hash",
    "Failed to get output length", "Failed to decrypt"]

/-- The messages of `cmac_aes`. -/
def cmacMessages : List String :=
  ["Failed to create CMAC context", "Failed to initialize CMAC", "Failed to update CMAC",
    "Failed to finalize CMAC"]

/-- The messages of `aes_cbc_decrypt`. -/
def aesMessages : List String :=
  ["Failed to create cipher context", "Failed to initialize decryption", "Failed to decrypt"]

/-- The messages of `parse_license` on an open session before its loop. -/
def refusalMessages : List String :=
  ["Failed to parse license response", "Response is not a LICENSE message",
    "Failed to parse license", "No context found for this license"] ++ oaepMessages ++ cmacMessages

/-- The messages of `get_license_challenge` on an open session. -/
def challengeMessages (pssh : Pssh) : List String :=
  ["PSSH is not Widevine", "Failed to generate random bytes",
    "Failed to set content_id: PSSH init_data is empty",
    "Failed to set content_id: " ++
      ("PSSH init_data suspiciously large: " ++ toString pssh.initData.length)] ++ signMessages

/-- The messages a call can throw, when no allocation fails. -/
def Op.messages : Op → List String
  | .openSession => ["Too many sessions open (max 16)", "Failed to generate random bytes"]
  | .closeSession _ => []
  | .setServiceCertificate _ _ => ["Invalid session ID"]
  | .getLicenseChallenge _ pssh _ _ => "Invalid session ID" :: challengeMessages pssh
  | .parseLicense _ _ =>
    "Invalid session ID" :: (refusalMessages
      ++ aesMessages.map fun what => "Failed to extract keys: " ++ what)
  | .getKeys _ _ => ["Invalid session ID"]

/-- The exception is a `runtime_error` with one of the messages. -/
def OneOf (messages : List String) (e : Exn) : Prop := ∃ what ∈ messages, e = .runtimeError what

theorem oneOf_of_mem {messages : List String} {what : String} (h : what ∈ messages) :
    OneOf messages (.runtimeError what) := ⟨what, h, rfl⟩

theorem OneOf.mono {shorter longer : List String} {e : Exn} (h : OneOf shorter e)
    (hsub : shorter ⊆ longer) : OneOf longer e := by
  obtain ⟨what, hmem, rfl⟩ := h
  exact ⟨what, hsub hmem, rfl⟩

/-- Prefixing and rethrowing prefixes the message. -/
theorem OneOf.rethrow {messages : List String} {e : Exn} (h : OneOf messages e)
    (context : String) : OneOf (messages.map fun what => context ++ what) (e.rethrow context) := by
  obtain ⟨what, hmem, rfl⟩ := h
  exact ⟨context ++ what, List.mem_map_of_mem hmem, rfl⟩

/-! ## The crypto wrappers -/

section Wrappers

theorem throws_require {messages : List String} {what : String} (h : what ∈ messages)
    (call : LibCall P.PKey) : Throws (OneOf messages) (Crypto.require call what) :=
  closed_require (throws_closed (OneOf messages)) (throws_ask _) (oneOf_of_mem h)

theorem throws_demand {α : Type} {messages : List String} {what : String} (h : what ∈ messages)
    (f : P.World → Option α × P.World) : Throws (OneOf messages) (Crypto.demand f what) :=
  closed_demand (throws_closed (OneOf messages)) (throws_ask _) (oneOf_of_mem h)

theorem signPssSha1_messages (key : P.PKey) (data : Bytes) :
    Throws (OneOf signMessages) (Crypto.signPssSha1 key data) := by
  refine throws_bind (throws_require (by decide) _) fun _ => ?_
  refine throws_bind (throws_require (by decide) _) fun _ => ?_
  refine throws_bind (throws_require (by decide) _) fun _ => ?_
  refine throws_bind (throws_require (by decide) _) fun _ => ?_
  refine throws_bind (throws_require (by decide) _) fun _ => ?_
  refine throws_bind (throws_require (by decide) _) fun _ => ?_
  exact throws_demand (by decide) _

theorem decryptOaepSha1_messages (key : P.PKey) (ciphertext : Bytes) :
    Throws (OneOf oaepMessages) (Crypto.decryptOaepSha1 key ciphertext) := by
  refine throws_bind (throws_require (by decide) _) fun _ => ?_
  refine throws_bind (throws_require (by decide) _) fun _ => ?_
  refine throws_bind (throws_require (by decide) _) fun _ => ?_
  refine throws_bind (throws_require (by decide) _) fun _ => ?_
  refine throws_bind (throws_require (by decide) _) fun _ => ?_
  refine throws_bind (throws_require (by decide) _) fun _ => ?_
  exact throws_demand (by decide) _

theorem cmacAes_messages (key data : Bytes) :
    Throws (OneOf cmacMessages) (Crypto.cmacAes (P := P) key data) := by
  refine throws_bind (throws_require (by decide) _) fun _ => ?_
  refine throws_bind (throws_require (by decide) _) fun _ => ?_
  refine throws_bind (throws_require (by decide) _) fun _ => ?_
  exact throws_demand (by decide) _

theorem aesCbcDecrypt_messages (key iv ciphertext : Bytes) :
    Throws (OneOf aesMessages) (Crypto.aesCbcDecrypt (P := P) key iv ciphertext) := by
  refine throws_bind (fun _ _ _ h => nomatch h) fun _ => ?_
  refine throws_bind (throws_require (by decide) _) fun _ => ?_
  refine throws_bind (throws_require (by decide) _) fun _ => ?_
  exact throws_demand (by decide) _

end Wrappers

/-! ## `get_license_challenge` -/

theorem setContentId_messages {pssh : Pssh} {licenseType : LicenseType} {requestId : Bytes}
    {e : Exn} (h : setContentId pssh licenseType requestId = .error e) :
    OneOf (challengeMessages pssh) e := by
  unfold setContentId at h
  cases hempty : pssh.initData.isEmpty with
  | true =>
    rw [hempty] at h
    rw [← Except.error.inj h]
    exact oneOf_of_mem (by simp [challengeMessages])
  | false =>
    rw [hempty] at h
    by_cases hlong : pssh.initData.length > 100000
    · rw [if_pos hlong] at h
      rw [← Except.error.inj h]
      exact oneOf_of_mem (by simp [challengeMessages])
    · rw [if_neg hlong] at h
      cases h

theorem buildChallenge_messages (impl : Impl P) (s : SessionState) (pssh : Pssh)
    (licenseType : LicenseType) :
    Throws (OneOf (challengeMessages pssh)) (buildChallenge impl s pssh licenseType) := by
  have hsign : signMessages ⊆ challengeMessages pssh := List.subset_append_right _ _
  refine throws_challenge (fun n => throws_demand (by simp [challengeMessages]) _)
    (fun hid => oneOf_of_mem (by simp [challengeMessages]))
    (fun hid requestId e => setContentId_messages)
    fun msg => (signPssSha1_messages impl.rsaKey msg).mono fun _ h => h.mono hsign

/-! ## `parse_license` -/

theorem decodeLicense_messages {licenseResponse : Bytes} {e : Exn}
    (h : decodeLicense (P := P) licenseResponse = .error e) : OneOf refusalMessages e := by
  unfold decodeLicense at h
  split at h
  · rw [← Except.error.inj h]
    exact oneOf_of_mem (by decide)
  · split at h
    · rw [← Except.error.inj h]
      exact oneOf_of_mem (by decide)
    · split at h
      · rw [← Except.error.inj h]
        exact oneOf_of_mem (by decide)
      · cases h

theorem openLicense_messages (rsaKey : P.PKey) (contexts : Finmap fun _ : Bytes => Context)
    (licenseResponse : Bytes) :
    Throws (OneOf refusalMessages) (openLicense rsaKey contexts licenseResponse) := by
  have hoaep : oaepMessages ⊆ refusalMessages := by decide
  have hcmac : ∀ key data, Throws (OneOf refusalMessages) (Crypto.cmacAes (P := P) key data) :=
    fun key data => (cmacAes_messages key data).mono fun _ h => h.mono (by decide)
  refine throws_bind ((throws_closed _).liftExcept fun _ => decodeLicense_messages) ?_
  rintro ⟨signedMessage, license⟩
  dsimp only
  cases contexts.lookup license.requestIdD with
  | none => exact throws_throw (oneOf_of_mem (by decide))
  | some context =>
    have hunwrap : Throws (OneOf refusalMessages) (unwrapSessionKey rsaKey signedMessage) := by
      unfold unwrapSessionKey
      split
      · exact (decryptOaepSha1_messages _ _).mono fun _ h => h.mono hoaep
      · exact throws_pure _
    refine throws_bind hunwrap fun _ => throws_bind ?_ fun _ => ?_
    · refine throws_bind (hcmac _ _) fun _ => throws_bind (hcmac _ _) fun _ => ?_
      refine throws_bind (hcmac _ _) fun _ => throws_bind (hcmac _ _) fun _ => ?_
      exact throws_bind (hcmac _ _) fun _ => throws_pure _
    · exact throws_bind (throws_bind (throws_ask _) fun _ => throws_pure _) fun _ => throws_pure _

/-- What breaks the loop off is an exception of `aes_cbc_decrypt`. -/
theorem extractAll_messages {encKey : Bytes} {cs : List KeyContainer} {host host' : Host P}
    {keys : List Key} {e : Exn} (h : extractAll encKey cs host = ((keys, some e), host')) :
    OneOf aesMessages e := by
  induction cs generalizing host keys with
  | nil => cases h
  | cons c rest ih =>
    rw [extractAll, exec_extractKey] at h
    rcases hr : exec (Crypto.aesCbcDecrypt encKey c.ivD c.keyD) host with ⟨e' | decrypted, host₁⟩
    · rw [hr] at h
      cases h
      exact aesCbcDecrypt_messages _ _ _ _ _ _ hr
    · rw [hr] at h
      obtain ⟨hpair, hhost⟩ := Prod.mk.inj h
      obtain ⟨-, hfailure⟩ := Prod.mk.inj hpair
      have hrest : extractAll encKey rest host₁
          = (((extractAll encKey rest host₁).1.1, some e), host') :=
        Prod.ext (Prod.ext rfl hfailure) hhost
      exact ih hrest

/-! ## One call -/

/-- The messages of a call. -/
theorem step_messages {M : Machine P} {op : Op} {e : Exn} (h : (step M op).1 = .error e) :
    OneOf op.messages e := by
  -- an unknown session comes first on every list of an operation that looks it up
  have hunknown : ∀ {S : Bytes}, op.target = some S → M.impl.sessions.lookup S = none →
      ∀ {messages : List String}, op.messages = "Invalid session ID" :: messages →
      OneOf op.messages e := by
    intro S htarget hnone messages hmessages
    rw [step_unknown htarget hnone] at h
    rw [hmessages, ← Except.error.inj h]
    exact oneOf_of_mem List.mem_cons_self
  cases op with
  | openSession =>
    have htransition := step_transition M .openSession
    rw [h] at htransition
    generalize (step M .openSession).2.impl = impl' at htransition
    cases htransition with
    | full hfull => exact oneOf_of_mem (by decide)
    | noEntropy hroom => exact oneOf_of_mem (by decide)
    | unknown htarget hnone => cases htarget
    | refused htarget hs he => cases htarget
  | closeSession S => cases h
  | setServiceCertificate S certificate =>
    cases hs : M.impl.sessions.lookup S with
    | none => exact hunknown rfl hs rfl
    | some s =>
      rw [step, Op.run, exec_bind_ok (exec_setServiceCertificate hs certificate)] at h
      cases h
  | getLicenseChallenge S pssh licenseType privacyMode =>
    cases hs : M.impl.sessions.lookup S with
    | none => exact hunknown rfl hs rfl
    | some s =>
      rw [step, Op.run, exec_map, exec_getLicenseChallenge hs] at h
      rcases hc : exec (buildChallenge M.impl s pssh licenseType) M.host with ⟨e' | c, host⟩
      · rw [hc] at h
        cases h
        exact (buildChallenge_messages _ _ _ _ _ _ _ hc).mono (List.subset_cons_self _ _)
      · rw [hc] at h
        cases h
  | parseLicense S licenseResponse =>
    cases hs : M.impl.sessions.lookup S with
    | none => exact hunknown rfl hs rfl
    | some s =>
      rcases ho : exec (openLicense M.impl.rsaKey s.contexts licenseResponse) M.host
        with ⟨e' | opened, host⟩
      · rw [step_parseLicense_refused hs ho] at h
        cases h
        refine (openLicense_messages _ _ _ _ _ _ ho).mono fun what hwhat => ?_
        exact List.mem_cons_of_mem _ (List.mem_append_left _ hwhat)
      · rw [step, Op.run, exec_bind, exec_parseLicense hs, ho] at h
        dsimp only at h
        rcases hloop : extractAll opened.derived.encKey opened.license.key host
          with ⟨⟨keys, failure⟩, host'⟩
        rw [hloop] at h
        cases failure with
        | none => cases h
        | some e' =>
          cases h
          refine ((extractAll_messages hloop).rethrow _).mono fun what hwhat => ?_
          exact List.mem_cons_of_mem _ (List.mem_append_right _ hwhat)
  | getKeys S type =>
    cases hs : M.impl.sessions.lookup S with
    | none => exact hunknown rfl hs rfl
    | some s =>
      rw [step, Op.run, exec_map, exec_getKeys hs] at h
      cases h

/-- Only the loop of `parse_license` throws after it has changed a session. -/
theorem step_sessions {M : Machine P} {op : Op} {e : Exn} (h : (step M op).1 = .error e) :
    (step M op).2.impl.sessions = M.impl.sessions ∨
      ∃ e' : Exn, e = e'.rethrow "Failed to extract keys: " := by
  by_cases hparse : ∃ S licenseResponse s, op = .parseLicense S licenseResponse ∧
      M.impl.sessions.lookup S = some s
  · obtain ⟨S, licenseResponse, s, rfl, hs⟩ := hparse
    have hdelivery := step_delivery hs licenseResponse
    rw [h] at hdelivery
    generalize (step M (.parseLicense S licenseResponse)).2 = M' at hdelivery ⊢
    cases hdelivery with
    | refused he host => exact .inl rfl
    | brokenOff ho hloop => exact .inr ⟨_, rfl⟩
  · have htransition := step_transition M op
    rw [h] at htransition
    generalize (step M op).2.impl = impl' at htransition ⊢
    cases htransition with
    | full hfull => exact .inl rfl
    | noEntropy hroom => exact .inl rfl
    | unknown htarget hnone => exact .inl rfl
    | refused htarget hs he => exact .inl rfl
    | interrupted hs keys he => exact absurd ⟨_, _, _, rfl, hs⟩ hparse

/-- No call has the message of a failed verification. -/
theorem messages_ne_verification {op : Op} {what : String} (h : what ∈ op.messages) :
    what ≠ "License signature verification failed" := by
  -- none begins with its first letter
  suffices hhead : what.toList.head? ≠ some 'L' by
    rintro rfl
    exact hhead (by decide)
  cases op with
  | openSession => revert what; decide
  | closeSession S => cases h
  | setServiceCertificate S certificate =>
    rw [List.mem_singleton.mp h]
    decide
  | getLicenseChallenge S pssh licenseType privacyMode =>
    simp only [Op.messages, challengeMessages, List.mem_cons, List.mem_append, List.not_mem_nil,
      or_false] at h
    rcases h with rfl | (rfl | rfl | rfl | rfl) | h
    · decide
    · decide
    · decide
    · decide
    · simp [String.toList_append]
    · revert what
      decide
  | parseLicense S licenseResponse =>
    have hall : ∀ what ∈ "Invalid session ID" :: (refusalMessages
        ++ aesMessages.map fun what => "Failed to extract keys: " ++ what),
        what.toList.head? ≠ some 'L' := by
      decide
    exact hall what h
  | getKeys S type =>
    rw [List.mem_singleton.mp h]
    decide

/-! ## Main result -/

/-- **What a failure tells.** A call that throws, whatever the state of the
object, throws one of the messages of the call, never that of a failed
verification; and the sessions are as they were, unless the message begins
with that of the key extraction loop. -/
theorem failure_messages (M : Machine P) (op : Op) {e : Exn} (h : (step M op).1 = .error e) :
    ∃ what ∈ op.messages, e = .runtimeError what ∧
      what ≠ "License signature verification failed" ∧
      ((step M op).2.impl.sessions = M.impl.sessions ∨
        "Failed to extract keys: ".toList <+: what.toList) := by
  obtain ⟨what, hwhat, rfl⟩ := step_messages h
  refine ⟨what, hwhat, rfl, messages_ne_verification hwhat, ?_⟩
  rcases step_sessions h with hsame | ⟨e', he'⟩
  · exact .inl hsame
  · exact .inr (rethrow_startsWith he'.symm)

/-- A response of no bytes in an open session, which the codec takes for a
message of the first type. -/
theorem failure_messages_empty :
    ∃ what ∈ (Op.parseLicense (Reference.sessionId 1) []).messages,
      Exn.runtimeError "Response is not a LICENSE message" = .runtimeError what ∧
      what ≠ "License signature verification failed" ∧
      ((step (Reference.chrome.run Reference.oneSession).2
          (.parseLicense (Reference.sessionId 1) [])).2.impl.sessions
          = (Reference.chrome.run Reference.oneSession).2.impl.sessions ∨
        "Failed to extract keys: ".toList <+: what.toList) :=
  failure_messages _ _ (by decide +kernel)

end WidevineCdm
