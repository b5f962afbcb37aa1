import WidevineCdm.Format.PsshParser
import WidevineCdm.Format.WvdFile
import WidevineCdm.Model.Client
import WidevineCdm.Session.Challenge
import WidevineCdm.System.Failures
import WidevineCdm.System.Provenance

/-!
# The example client, end to end

Whatever files and server it meets, the client ends with exit code 0 or 1. It
prints keys only for an answer that names the request it sent, and then one
line for every container of the licence, each key decrypted under the key
derived from that request. An answer of less than 100 bytes is not looked into.
-/

namespace WidevineCdm

open Lib Proto

variable {P : Platform}

/-! ## Single steps -/

@[simp] theorem exec_print (text : String) (process : Process P) :
    exec (print text) process = (.ok (), { process with out := process.out ++ text }) := rfl

@[simp] theorem exec_printError (text : String) (process : Process P) :
    exec (printError text) process = (.ok (), { process with err := process.err ++ text }) := rfl

/-- An exception with a text is reported. -/
theorem exec_reportError {words what : String} {e : Exn} (h : e.what = some what)
    (process : Process P) :
    exec (reportError words e) process
      = (.ok 1, { process with err := process.err ++ (words ++ what ++ "\n") }) := by
  rw [reportError, h]
  rfl

theorem exec_callCrypto {α : Type} (m : CryptoM P α) (process : Process P) :
    exec (callCrypto m) process
      = ((exec m process.host).1, { process with host := (exec m process.host).2 }) :=
  exec_zoom ..

theorem exec_callCrypto_ok {α : Type} {m : CryptoM P α} {a : α} {host : Host P} {p : Process P}
    (h : exec m p.host = (.ok a, host)) :
    exec (callCrypto m) p = (.ok a, { p with host }) := by
  rw [exec_callCrypto, h]

theorem exec_callCdm {α : Type} (cdm : Impl P) (m : CdmM P α) (process : Process P) :
    exec (callCdm cdm m) process
      = ((exec m ⟨process.host, cdm⟩).1.map fun a => (a, (exec m ⟨process.host, cdm⟩).2.impl),
        { process with host := (exec m ⟨process.host, cdm⟩).2.host }) := by
  unfold exec callCdm
  cases m ⟨process.host, cdm⟩ <;> rfl

theorem exec_callCdm_ok {α : Type} {cdm : Impl P} {m : CdmM P α} {a : α} {M : Machine P}
    {p : Process P} (h : exec m ⟨p.host, cdm⟩ = (.ok a, M)) :
    exec (callCdm cdm m) p = (.ok (a, M.impl), { p with host := M.host }) := by
  rw [exec_callCdm, h]
  rfl

/-- A member that returned to the program returned. -/
theorem callCdm_ok {α : Type} {cdm cdm' : Impl P} {m : CdmM P α} {process process' : Process P}
    {a : α} (h : exec (callCdm cdm m) process = (.ok (a, cdm'), process')) :
    exec m ⟨process.host, cdm⟩ = (.ok a, ⟨process'.host, cdm'⟩) ∧
      process' = { process with host := process'.host } := by
  rw [exec_callCdm] at h
  rcases hm : exec m ⟨process.host, cdm⟩ with ⟨e | b, M⟩
  · rw [hm] at h
    cases h
  · rw [hm] at h
    cases h
    exact ⟨rfl, rfl⟩

/-- What a new object keeps of the device it was made from. -/
theorem newImpl_ok {device : Device} {host host' : Host P} {cdm : Impl P}
    (h : exec (newImpl device) host = (.ok cdm, host')) :
    ∃ rsaKey clientId, cdm = Impl.fresh device rsaKey clientId ∧
      Yields (Crypto.rsaFromPkcs8Der device.privateKey) rsaKey := by
  obtain ⟨rsaKey, clientId, rfl⟩ := newImpl_fresh h
  obtain ⟨loaded, h₁, hload, h⟩ := exec_bind_eq_ok.mp h
  refine ⟨rsaKey, clientId, rfl, ?_⟩
  obtain rfl : loaded = rsaKey := by
    cases hclient : P.parseClientIdentification device.clientId with
    | none =>
      rw [hclient] at h
      cases h
    | some parsed =>
      rw [hclient] at h
      dsimp only at h
      split at h
      · cases h
      · split at h
        · cases h
        · exact congrArg Impl.rsaKey (Except.ok.inj (Prod.mk.inj h).1)
  exact yields_of_exec hload

/-! ## The challenge of the program -/

/-- What the program holds when it has its answer: an object with one session,
no key in it and one request pending, the one the server was sent. -/
structure Sent (setting : Setting) (devicePath : String) (cdm : Impl P)
    (sessionId response : Bytes) : Prop where
  made : ∃ device, Device.fromWvd setting.files devicePath = .ok device ∧
    Yields (Crypto.rsaFromPkcs8Der device.privateKey) cdm.rsaKey
  pending : ∃ (s : SessionState) (c : Challenge), cdm.sessions.lookup sessionId = some s ∧
    s.keys = [] ∧
    s.contexts = (∅ : Finmap fun _ : Bytes => Context).insert c.requestId (deriveContext c.msg) ∧
    Yields (Crypto.signPssSha1 cdm.rsaKey c.msg) c.signature ∧
    (∃ clientId pssh requestTime nonce, c.msg = P.serializeLicenseRequest
      (requestFor clientId pssh .STREAMING c.requestId requestTime nonce)) ∧
    setting.post licenseUrl (P.serializeSignedMessage c.signedMessage) = some response

theorem httpPost_ok {setting : Setting} {url : String} {data response : Bytes}
    (h : httpPost setting url data = .ok response) : setting.post url data = some response := by
  unfold httpPost at h
  split at h
  · rename_i answer hanswer
    rw [hanswer, Except.ok.inj h]
  · cases h

/-- A new session in an object without any. -/
theorem openSession_fresh {host : Host P} {device : Device} {rsaKey : P.PKey}
    {clientId : P.ClientIdentification} {sessionId : Bytes} {M : Machine P}
    (h : exec openSession ⟨host, Impl.fresh device rsaKey clientId⟩ = (.ok sessionId, M)) :
    M.impl.rsaKey = rsaKey ∧ M.impl.device = device ∧ M.impl.clientId = clientId ∧
      ∃ number, M.impl.sessions.lookup sessionId = some (newSession sessionId number) := by
  rw [exec_openSession (by exact Nat.zero_lt_of_lt (by decide : 0 < 16))] at h
  rcases hr : exec (Crypto.randomBytes 12) host with ⟨e | random, host'⟩
  · rw [hr] at h
    cases h
  · rw [hr] at h
    cases h
    exact ⟨rfl, rfl, rfl, _, store_lookup_self ..⟩

theorem openSession_returns (hsigns : P.Signs) (host : Host P) (device : Device) (rsaKey : P.PKey)
    (clientId : P.ClientIdentification) :
    ∃ sessionId M, exec openSession ⟨host, Impl.fresh device rsaKey clientId⟩
      = (.ok sessionId, M) := by
  rw [exec_openSession (by exact Nat.zero_lt_of_lt (by decide : 0 < 16))]
  rcases hr : exec (Crypto.randomBytes 12) host with ⟨e | random, host'⟩
  · exact (hsigns.randomBytes 12 _ _ _ hr).elim
  · exact ⟨_, _, rfl⟩

theorem sendChallenge_ok {setting : Setting} {devicePath : String} {cdm : Impl P}
    {sessionId response : Bytes} {process process' : Process P}
    (h : exec (sendChallenge setting devicePath) process
      = (.ok (cdm, sessionId, response), process')) :
    Sent setting devicePath cdm sessionId response := by
  obtain ⟨-, p₁, -, h⟩ := exec_bind_eq_ok.mp h
  obtain ⟨device, p₂, hdevice, h⟩ := exec_bind_eq_ok.mp h
  obtain ⟨-, p₃, -, h⟩ := exec_bind_eq_ok.mp h
  obtain ⟨made, p₄, hmade, h⟩ := exec_bind_eq_ok.mp h
  obtain ⟨-, p₅, -, h⟩ := exec_bind_eq_ok.mp h
  obtain ⟨⟨opened, cdm₁⟩, p₆, hopened, h⟩ := exec_bind_eq_ok.mp h
  obtain ⟨-, p₇, -, h⟩ := exec_bind_eq_ok.mp h
  obtain ⟨pssh, p₈, -, h⟩ := exec_bind_eq_ok.mp h
  obtain ⟨-, p₉, -, h⟩ := exec_bind_eq_ok.mp h
  obtain ⟨⟨challenge, cdm₂⟩, p₁₀, hchallenge, h⟩ := exec_bind_eq_ok.mp h
  obtain ⟨-, p₁₁, -, h⟩ := exec_bind_eq_ok.mp h
  obtain ⟨answer, p₁₂, hanswer, h⟩ := exec_bind_eq_ok.mp h
  obtain ⟨-, p₁₃, -, h⟩ := exec_bind_eq_ok.mp h
  cases h
  rw [exec_liftExcept] at hdevice hanswer
  rw [exec_callCrypto] at hmade
  obtain ⟨rsaKey, clientId, rfl, hload⟩ :=
    newImpl_ok (Prod.ext (Prod.mk.inj hmade).1 rfl)
  obtain ⟨hopen, -⟩ := callCdm_ok hopened
  obtain ⟨hrsa, -, -, number, hs⟩ := openSession_fresh hopen
  obtain ⟨hget, -⟩ := callCdm_ok hchallenge
  rw [exec_getLicenseChallenge (M := ⟨p₉.host, cdm₁⟩) hs] at hget
  rcases hc : exec (buildChallenge cdm₁ (newSession sessionId number) pssh .STREAMING) p₉.host
    with ⟨e | c, host⟩
  · rw [hc] at hget
    cases hget
  · rw [hc] at hget
    cases hget
    obtain ⟨-, -, -, hsign, requestTime, nonce, -, hmsg⟩ := buildChallenge_ok hc
    refine ⟨⟨device, (Prod.mk.inj hdevice).1, ?_⟩, _, c, store_lookup_self .., rfl, rfl, hsign,
      ⟨_, pssh, requestTime, nonce, hmsg⟩, httpPost_ok (Prod.mk.inj hanswer).1⟩
    show Yields _ cdm₁.rsaKey
    rw [hrsa]
    exact hload

/-! ## The answer -/

/-- What a licence for the request of the program leaves in the session. -/
structure Licensed (rsaKey : P.PKey) (response : Bytes) (c : Challenge) (keys : List Key) :
    Prop where
  listed : ∃ signedMessage license,
    decodeLicense (P := P) response = .ok (signedMessage, license) ∧
    license.requestIdD = c.requestId ∧ keyLabels keys = license.labels
  decrypted : ∀ key ∈ keys, DecryptedFrom rsaKey response key c.requestId c.msg

/-- An accepted answer names the request that is pending. -/
theorem parseLicense_licensed {cdm : Impl P} {host : Host P} {M : Machine P}
    {sessionId response : Bytes} {s : SessionState} (hs : cdm.sessions.lookup sessionId = some s)
    (hkeys : s.keys = []) {c : Challenge}
    (hcontexts : s.contexts
      = (∅ : Finmap fun _ : Bytes => Context).insert c.requestId (deriveContext c.msg))
    (h : exec (parseLicense sessionId response) ⟨host, cdm⟩ = (.ok (), M)) :
    ∃ s', M.impl.sessions.lookup sessionId = some s' ∧
      Licensed cdm.rsaKey response c s'.keys := by
  rw [exec_parseLicense (M := ⟨host, cdm⟩) hs] at h
  rcases ho : exec (openLicense cdm.rsaKey s.contexts response) host with ⟨e | opened, host₁⟩
  · rw [ho] at h
    cases h
  · rw [ho] at h
    dsimp only at h
    rcases hloop : extractAll opened.derived.encKey opened.license.key host₁
      with ⟨⟨keys, failure⟩, host₂⟩
    rw [hloop] at h
    cases failure with
    | some e => cases h
    | none =>
      obtain ⟨hdec, context, h₁, h₂, hctx, -⟩ := openLicense_ok.mp ho
      -- the only context is that of the request that was sent
      obtain hid : opened.license.requestIdD = c.requestId := by
        by_contra hne
        rw [hcontexts, Finmap.lookup_insert_of_ne _ hne, Finmap.lookup_empty] at hctx
        cases hctx
      have hpending : s.contexts.lookup opened.license.requestIdD
          = some (deriveContext c.msg) := by
        rw [hcontexts, hid, Finmap.lookup_insert]
      cases h
      refine ⟨_, store_lookup_self .., ?_⟩
      show Licensed cdm.rsaKey response c (s.keys ++ keys)
      rw [hkeys, List.nil_append]
      refine ⟨⟨_, _, hdec, hid, keyLabels_complete hloop⟩, fun key hkey => ?_⟩
      rw [← hid]
      refine decryptedFrom_loop ho hpending ?_
      rw [hloop]
      exact hkey

section Receive

variable {cdm : Impl P} {sessionId response : Bytes} {process : Process P}

theorem receiveLicense_short (h : response.length < 100) :
    exec (receiveLicense cdm sessionId response) process
      = (.ok 0, { process with out := process.out ++ serverErrorText response }) := by
  rw [receiveLicense, if_pos h]
  rfl

theorem receiveLicense_refused (h : ¬ response.length < 100) {e : Exn} {M : Machine P}
    (hparse : exec (parseLicense sessionId response) ⟨process.host, cdm⟩ = (.error e, M)) :
    exec (receiveLicense cdm sessionId response) process
      = (.error e, { process with
          host := M.host
          out := process.out ++ textLines ["", "[7] Parsing license..."] }) := by
  rw [receiveLicense, if_neg h, exec_bind_ok (exec_print ..), exec_bind, exec_callCdm]
  dsimp only
  rw [hparse]
  rfl

theorem receiveLicense_accepted (h : ¬ response.length < 100) {M : Machine P}
    (hparse : exec (parseLicense sessionId response) ⟨process.host, cdm⟩ = (.ok (), M))
    {s : SessionState} (hs : M.impl.sessions.lookup sessionId = some s) :
    exec (receiveLicense cdm sessionId response) process
      = (.ok 0, { process with
          host := M.host
          out := process.out ++ textLines ["", "[7] Parsing license..."] ++ keysText s.keys }) := by
  have hcall := exec_callCdm_ok
    (p := ⟨process.host, process.out ++ textLines ["", "[7] Parsing license..."], process.err⟩)
    hparse
  rw [receiveLicense, if_neg h, exec_bind_ok (exec_print ..), exec_bind_ok hcall]
  dsimp only
  rw [exec_bind_ok (exec_print ..)]
  dsimp only
  have hread := exec_callCdm_ok (p := ⟨M.host, process.out
    ++ textLines ["", "[7] Parsing license..."]
    ++ textLines ["    License parsed successfully", "", "[8] Extracting keys..."], process.err⟩)
    (exec_getKeys hs "")
  rw [exec_bind_ok hread]
  simp only [exec_bind, exec_print, exec_callCdm, exec_closeSession, exec_pure, Except.map,
    keysText, String.append_assoc]
  rfl

end Receive

/-! ## Exceptions reach the handler -/

/-- An exception with a text, which the handler of `main` reports. -/
def Reported (e : Exn) : Prop := ∃ what, e.what = some what

theorem reported_oneOf {messages : List String} {e : Exn} (h : OneOf messages e) : Reported e := by
  obtain ⟨what, -, rfl⟩ := h
  exact ⟨what, rfl⟩

theorem throws_callCdm {α : Type} {E : Exn → Prop} {m : CdmM P α} (h : Throws E m)
    (cdm : Impl P) : Throws E (callCdm cdm m) := by
  intro process e process' heq
  rw [exec_callCdm] at heq
  rcases hm : exec m ⟨process.host, cdm⟩ with ⟨e' | a, M⟩
  · rw [hm] at heq
    cases heq
    exact h _ _ _ hm
  · rw [hm] at heq
    cases heq

theorem throws_callCrypto {α : Type} {E : Exn → Prop} {m : CryptoM P α} (h : Throws E m) :
    Throws E (callCrypto m) := by
  intro process e process' heq
  rw [exec_callCrypto] at heq
  exact h process.host e _ (Prod.ext (Prod.mk.inj heq).1 rfl)

theorem throws_print {E : Exn → Prop} (text : String) : Throws E (print (P := P) text) := by
  intro process e process' heq
  cases heq

/-- What a call of the object throws is on the list of its messages. -/
theorem reported_step {op : Op} {M : Machine P} {e : Exn} (h : (step M op).1 = .error e) :
    Reported e := reported_oneOf (step_messages h)

theorem throws_openSession : Throws Reported (openSession (P := P)) := by
  intro M e M' heq
  have hstep : (step M .openSession).1 = .error e := by
    rw [step, Op.run, exec_map, heq]
    rfl
  exact reported_step hstep

theorem throws_getLicenseChallenge (sessionId : Bytes) (pssh : Pssh) (licenseType : LicenseType)
    (privacyMode : Bool) :
    Throws Reported (getLicenseChallenge (P := P) sessionId pssh licenseType privacyMode) := by
  intro M e M' heq
  have hstep : (step M (.getLicenseChallenge sessionId pssh licenseType privacyMode)).1
      = .error e := by
    rw [step, Op.run, exec_map, heq]
    rfl
  exact reported_step hstep

theorem throws_newImpl (device : Device) : Throws Reported (newImpl (P := P) device) := by
  refine throws_bind ?_ fun rsaKey => ?_
  · exact closed_demand (throws_closed Reported) (throws_ask _) ⟨_, rfl⟩
  · cases P.parseClientIdentification device.clientId with
    | none => exact throws_throw ⟨_, rfl⟩
    | some clientId =>
      have hsize : Throws Reported (do
          if P.byteSizeLong clientId > 10000 then
            throw (.runtimeError ("Client ID suspiciously large: "
              ++ toString (P.byteSizeLong clientId) ++ " bytes"))
          return Impl.fresh device rsaKey clientId : CryptoM P (Impl P)) := by
        split
        · exact throws_bind (throws_throw ⟨_, rfl⟩) fun _ => throws_pure _
        · exact throws_pure _
      dsimp only
      split
      · exact throws_bind (throws_throw ⟨_, rfl⟩) fun _ => hsize
      · exact hsize

theorem fromWvd_reported {files : Device.Files} {path : String} {e : Exn}
    (h : Device.fromWvd files path = .error e) : Reported e := by
  unfold Device.fromWvd at h
  split at h
  · rw [← Except.error.inj h]
    exact ⟨_, rfl⟩
  · rw [← Except.error.inj h]
    exact ⟨_, rfl⟩
  · rw [← Except.error.inj h]
    exact ⟨_, rfl⟩
  · obtain ⟨what, rfl⟩ := Device.fromWvdData_recognizes.error_class h
    exact ⟨what, rfl⟩

theorem fromBase64_reported {base64 : Bytes} {e : Exn} (h : Pssh.fromBase64 64 base64 = .error e) :
    Reported e := by
  obtain ⟨what, rfl⟩ := (Pssh.fromBytes_recognizes (by decide)).error_class h
  exact ⟨what, rfl⟩

theorem httpPost_reported {setting : Setting} {url : String} {data : Bytes} {e : Exn}
    (h : httpPost setting url data = .error e) : Reported e := by
  unfold httpPost at h
  split at h
  · cases h
  · rw [← Except.error.inj h]
    exact ⟨_, rfl⟩

theorem throws_sendChallenge (setting : Setting) (devicePath : String) :
    Throws Reported (sendChallenge (P := P) setting devicePath) := by
  have hlift : ∀ {α : Type} {r : Except Exn α}, (∀ e, r = .error e → Reported e) →
      Throws Reported (liftExcept r : ClientM P α) := (throws_closed Reported).liftExcept
  refine throws_bind (throws_print _) fun _ => ?_
  refine throws_bind (hlift fun _ => fromWvd_reported) fun device => ?_
  refine throws_bind (throws_print _) fun _ => ?_
  refine throws_bind (throws_callCrypto (throws_newImpl device)) fun cdm => ?_
  refine throws_bind (throws_print _) fun _ => ?_
  refine throws_bind (throws_callCdm throws_openSession cdm) ?_
  rintro ⟨sessionId, cdm⟩
  refine throws_bind (throws_print _) fun _ => ?_
  refine throws_bind (hlift fun _ => fromBase64_reported) fun pssh => ?_
  refine throws_bind (throws_print _) fun _ => ?_
  refine throws_bind (throws_callCdm (throws_getLicenseChallenge _ _ _ _) cdm) ?_
  rintro ⟨challenge, cdm⟩
  refine throws_bind (throws_print _) fun _ => ?_
  refine throws_bind (hlift fun _ => httpPost_reported) fun response => ?_
  exact throws_bind (throws_print _) fun _ => throws_pure _

/-- Standard error is left to the handler. -/
theorem keeps_err_sendChallenge (setting : Setting) (devicePath : String) :
    Keeps Process.err (sendChallenge (P := P) setting devicePath) := by
  have hlift : ∀ {α : Type} (r : Except Exn α),
      Keeps Process.err (liftExcept r : ClientM P α) := fun r =>
    (keeps_closed (fun _ => True) Process.err).liftExcept fun _ _ => trivial
  have hprint : ∀ text, Keeps Process.err (print (P := P) text) := fun _ _ => rfl
  have hcall : ∀ {α : Type} (cdm : Impl P) (m : CdmM P α), Keeps Process.err (callCdm cdm m) := by
    intro α cdm m process
    rw [exec_callCdm]
  have hcrypto : ∀ {α : Type} (m : CryptoM P α), Keeps Process.err (callCrypto m) := by
    intro α m process
    rw [exec_callCrypto]
  refine keeps_bind (hprint _) fun _ => keeps_bind (hlift _) fun device => ?_
  refine keeps_bind (hprint _) fun _ => keeps_bind (hcrypto _) fun cdm => ?_
  refine keeps_bind (hprint _) fun _ => keeps_bind (hcall _ _) ?_
  rintro ⟨sessionId, cdm⟩
  refine keeps_bind (hprint _) fun _ => keeps_bind (hlift _) fun pssh => ?_
  refine keeps_bind (hprint _) fun _ => keeps_bind (hcall _ _) ?_
  rintro ⟨challenge, cdm⟩
  refine keeps_bind (hprint _) fun _ => keeps_bind (hlift _) fun response => ?_
  exact keeps_bind (hprint _) fun _ => keeps_pure _

/-! ## How the program ends -/

/-- The ways the program can end, with its exit code. -/
inductive ClientEnd (setting : Setting) (devicePath : String) (process : Process P) :
    Nat → Process P → Prop where
  | notSent {e : Exn} {what : String} {sent : Process P}
      (h : exec (sendChallenge setting devicePath) process = (.error e, sent))
      (hwhat : e.what = some what) :
    ClientEnd setting devicePath process 1 { sent with err := "\nERROR: " ++ what ++ "\n" }
  | turnedAway {cdm : Impl P} {sessionId response : Bytes} {sent : Process P}
      (h : exec (sendChallenge setting devicePath) process
        = (.ok (cdm, sessionId, response), sent))
      (hsent : Sent setting devicePath cdm sessionId response) (hshort : response.length < 100) :
    ClientEnd setting devicePath process 0
      { sent with out := sent.out ++ serverErrorText response, err := "" }
  | refused {cdm : Impl P} {sessionId response : Bytes} {sent : Process P} {what : String}
      (h : exec (sendChallenge setting devicePath) process
        = (.ok (cdm, sessionId, response), sent))
      (hsent : Sent setting devicePath cdm sessionId response)
      (hwhat : what ∈ (Op.parseLicense sessionId response).messages) (host : Host P) :
    ClientEnd setting devicePath process 1
      ⟨host, sent.out ++ textLines ["", "[7] Parsing license..."],
        "\nERROR: " ++ what ++ "\n"⟩
  | licensed {cdm : Impl P} {sessionId response : Bytes} {sent : Process P} {device : Device}
      {c : Challenge} {keys : List Key}
      (h : exec (sendChallenge setting devicePath) process
        = (.ok (cdm, sessionId, response), sent))
      (hdevice : Device.fromWvd setting.files devicePath = .ok device)
      (hload : Yields (Crypto.rsaFromPkcs8Der device.privateKey) cdm.rsaKey)
      (hsign : Yields (Crypto.signPssSha1 cdm.rsaKey c.msg) c.signature)
      (hpost : setting.post licenseUrl (P.serializeSignedMessage c.signedMessage)
        = some response)
      (hlicensed : Licensed cdm.rsaKey response c keys) (host : Host P) :
    ClientEnd setting devicePath process 0
      ⟨host, sent.out ++ textLines ["", "[7] Parsing license..."] ++ keysText keys, ""⟩

/-- **How the client ends**, whatever the files, the server and the arguments:
it always ends, with exit code 1 and a message for an exception, or with 0,
either because the answer is shorter than 100 bytes, or having printed keys.
Then the answer was given to the very challenge the program made, the licence
in it names the request of that challenge, every container has its line, in
order, and every key was decrypted under the key derived from that request. -/
theorem client_ends (setting : Setting) (args : List String) (host : Host P) :
    ∃ status process, exec (testLicenseServer setting args) ⟨host, "", ""⟩
        = (.ok status, process) ∧
      ClientEnd setting (args.headD "device.wvd") ⟨host, "", ""⟩ status process := by
  have hreported := throws_sendChallenge (P := P) setting (args.headD "device.wvd")
  have herr := keeps_err_sendChallenge setting (args.headD "device.wvd") ⟨host, "", ""⟩
  rw [testLicenseServer, exec_tryCatch, exec_bind]
  rcases h : exec (sendChallenge setting (args.headD "device.wvd")) ⟨host, "", ""⟩
    with ⟨e | ⟨cdm, sessionId, response⟩, ⟨host₁, out, err⟩⟩
  · obtain ⟨what, hwhat⟩ := hreported _ _ _ h
    rw [h] at herr
    obtain rfl : err = "" := herr
    exact ⟨1, _, exec_reportError hwhat _, .notSent h hwhat⟩
  · rw [h] at herr
    obtain rfl : err = "" := herr
    have hsent := sendChallenge_ok h
    dsimp only
    by_cases hshort : response.length < 100
    · rw [receiveLicense_short hshort]
      exact ⟨0, _, rfl, .turnedAway h hsent hshort⟩
    · rcases hparse : exec (parseLicense sessionId response) ⟨host₁, cdm⟩ with ⟨e | ⟨⟩, M⟩
      · -- the answer is refused, or its key extraction breaks off
        have hstep : (step ⟨host₁, cdm⟩ (.parseLicense sessionId response)).1 = .error e := by
          rw [step, Op.run, exec_bind_error hparse]
        obtain ⟨what, hwhat, rfl⟩ := step_messages hstep
        rw [receiveLicense_refused hshort hparse]
        exact ⟨1, _, rfl, .refused h hsent hwhat M.host⟩
      · obtain ⟨⟨device, hdevice, hload⟩, s, c, hs, hkeys, hcontexts, hsign, -, hpost⟩ := hsent
        obtain ⟨s', hs', hlicensed⟩ := parseLicense_licensed hs hkeys hcontexts hparse
        rw [receiveLicense_accepted hshort hparse hs']
        exact ⟨0, _, rfl, .licensed h hdevice hload hsign hpost hlicensed M.host⟩

end WidevineCdm
