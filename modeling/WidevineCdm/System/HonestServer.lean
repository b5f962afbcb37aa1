import WidevineCdm.License.Exchange
import WidevineCdm.System.Client

/-!
# The example client and an honest server

From the file of a device of which an object can be made, the client gets an
answer from a server that answers what it is sent, accepts it and prints the
keys of the server as the server has them.
-/

namespace WidevineCdm

open Lib Proto

variable {P : Platform}

/-! ## The two sides -/

/-- A device of which a CDM object can be made. -/
structure Loads (P : Platform) (device : Device) (rsaKey : P.PKey) : Prop where
  rsaKey : ∀ w, (P.d2iPrivateKey device.privateKey w).1 = some rsaKey
  clientId : ∃ clientId, P.parseClientIdentification device.clientId = some clientId ∧
    P.isInitialized clientId = true ∧ P.byteSizeLong clientId ≤ 10000

/-- A server that answers every request with its keys, in answers of 100 bytes
at least: of shorter ones the client prints the text only. -/
def Serves (P : Platform) (wraps : P.PKey → Bytes → Bytes → Prop) (rsaKey : P.PKey)
    (keys : List ServerKey) (post : Bytes → Option Bytes) : Prop :=
  ∀ challenge signedMessage msg request psshData r,
    P.parseSignedMessage challenge = some signedMessage → signedMessage.msg = some msg →
    P.parseLicenseRequest msg = some request →
    request.contentId = some { widevinePsshData := some psshData } →
    psshData.requestId = some r →
    ∃ (sessionKey wrapped : Bytes) (signature coreMessage : Option Bytes) (host : Host P)
        (response : Bytes),
      sessionKey.length = 16 ∧ wraps rsaKey sessionKey wrapped ∧
      (exec (answerRequest msg r sessionKey wrapped keys signature coreMessage) host).1
        = .ok response ∧
      post challenge = some response ∧ 100 ≤ response.length

theorem returns_newImpl {device : Device} {rsaKey : P.PKey} (h : Loads P device rsaKey) :
    ∃ clientId, Returns (Impl.fresh device rsaKey clientId) (newImpl (P := P) device) := by
  obtain ⟨clientId, hparse, hinit, hsize⟩ := h.clientId
  refine ⟨clientId, returns_bind (returns_demand h.rsaKey _) ?_⟩
  rw [hparse]
  simp only [hinit, Bool.not_true, Bool.false_eq_true, if_false, Nat.not_lt.mpr hsize]
  exact returns_pure _

/-- The PSSH of the example. -/
def examplePssh : Pssh where
  rawData := base64Decode (ascii psshBase64)
  version := 0
  systemId := Pssh.widevineId
  keyIds := []
  initData := (base64Decode (ascii psshBase64)).drop 32

theorem fromBase64_example : Pssh.fromBase64 64 (ascii psshBase64) = .ok examplePssh := by
  decide +kernel

/-- The example is a Widevine PSSH with init data. -/
theorem refusal_example : examplePssh.refusal = none := by
  have hwidevine : examplePssh.isWidevine = true := by decide +kernel
  have hempty : examplePssh.initData.isEmpty = false := by decide +kernel
  have hlong : ¬ examplePssh.initData.length > 100000 := by decide +kernel
  rw [Pssh.refusal, hwidevine, hempty, if_neg hlong]
  rfl

/-- What an honest server is sent it can answer. -/
theorem Serves.answers {wraps : P.PKey → Bytes → Bytes → Prop} {rsaKey : P.PKey}
    {keys : List ServerKey} {post : Bytes → Option Bytes} (hcodec : P.LawfulCodec)
    (hserver : Serves P wraps rsaKey keys post) {c : Challenge}
    {clientId : P.ClientIdentification} {pssh : Pssh} {requestTime : Int64} {nonce : UInt32}
    (hmsg : c.msg = P.serializeLicenseRequest
      (requestFor clientId pssh .STREAMING c.requestId requestTime nonce)) :
    ∃ (sessionKey wrapped : Bytes) (signature coreMessage : Option Bytes) (host : Host P)
        (response : Bytes),
      sessionKey.length = 16 ∧ wraps rsaKey sessionKey wrapped ∧
      (exec (answerRequest c.msg c.requestId sessionKey wrapped keys signature coreMessage)
        host).1 = .ok response ∧
      post (P.serializeSignedMessage c.signedMessage) = some response ∧
      100 ≤ response.length := by
  have hrequest : P.parseLicenseRequest c.msg = some
      (requestFor clientId pssh .STREAMING c.requestId requestTime nonce) := by
    rw [hmsg]
    exact hcodec.licenseRequest _
  exact hserver _ _ _ _ _ _ (hcodec.signedMessage _) rfl hrequest rfl rfl

/-- From good files and with an honest server the program gets its answer. -/
theorem sendChallenge_returns (hcodec : P.LawfulCodec) (hsigns : P.Signs) {setting : Setting}
    {devicePath : String} {device : Device}
    (hdevice : Device.fromWvd setting.files devicePath = .ok device) {rsaKey : P.PKey}
    (hloads : Loads P device rsaKey) {wraps : P.PKey → Bytes → Bytes → Prop}
    {keys : List ServerKey} (hserver : Serves P wraps rsaKey keys (setting.post licenseUrl))
    (process : Process P) :
    ∃ sent process', exec (sendChallenge setting devicePath) process = (.ok sent, process') := by
  have hlift : ∀ {α : Type} {r : Except Exn α} {a : α}, r = .ok a → ∀ p : Process P,
      exec (liftExcept r : ClientM P α) p = (.ok a, p) := by
    rintro α r a rfl p
    rfl
  obtain ⟨clientId, hmakes⟩ := returns_newImpl hloads
  refine exec_bind_returned (exec_print ..) ?_
  refine exec_bind_returned (hlift hdevice _) ?_
  refine exec_bind_returned (exec_print ..) ?_
  obtain ⟨host₁, hnew⟩ := hmakes process.host
  refine exec_bind_returned (exec_callCrypto_ok (p := ⟨process.host, _, _⟩) hnew) ?_
  refine exec_bind_returned (exec_print ..) ?_
  obtain ⟨sessionId, M, hopen⟩ := openSession_returns hsigns host₁ device rsaKey clientId
  obtain ⟨hrsa, -, -, number, hs⟩ := openSession_fresh hopen
  refine exec_bind_returned (exec_callCdm_ok (p := ⟨host₁, _, _⟩) hopen) ?_
  refine exec_bind_returned (exec_print ..) ?_
  refine exec_bind_returned (hlift fromBase64_example _) ?_
  refine exec_bind_returned (exec_print ..) ?_
  have hbuild := hsigns.buildChallenge M.impl (newSession sessionId number) examplePssh .STREAMING
  rcases hc : exec (buildChallenge M.impl (newSession sessionId number) examplePssh .STREAMING)
      M.host with ⟨e | c, host₂⟩
  · have hrefused := hbuild _ _ _ hc
    rw [refusal_example] at hrefused
    cases hrefused
  · have hget := exec_getLicenseChallenge hs examplePssh .STREAMING false
    rw [hc] at hget
    refine exec_bind_returned (exec_callCdm_ok (p := ⟨M.host, _, _⟩) hget) ?_
    refine exec_bind_returned (exec_print ..) ?_
    obtain ⟨-, -, -, -, requestTime, nonce, -, hmsg⟩ := buildChallenge_ok hc
    obtain ⟨-, -, -, -, -, response, -, -, -, hpost, -⟩ := hserver.answers hcodec hmsg
    refine exec_bind_returned (a := response) (hlift ?_ _) ?_
    · rw [httpPost, hpost]
    · exact exec_bind_returned (exec_print ..) ⟨_, _, rfl⟩

/-- An honest answer to what the program sends is accepted. -/
theorem parseLicense_answer {C : BlockCipher 16} {cmac : Bytes → Bytes → Bytes}
    {wraps : P.PKey → Bytes → Bytes → Prop} (hcodec : P.LawfulCodec)
    (hworking : P.Working C cmac wraps) {cdm : Impl P} (host : Host P) {sessionId : Bytes}
    {s : SessionState} (hs : cdm.sessions.lookup sessionId = some s) {msg requestId : Bytes}
    (hcontext : s.contexts.lookup requestId = some (deriveContext msg))
    {sessionKey wrapped response : Bytes} (hkey : sessionKey.length = 16)
    (hwraps : wraps cdm.rsaKey sessionKey wrapped) {keys : List ServerKey}
    {signature coreMessage : Option Bytes} {server : Host P}
    (hanswer : (exec (answerRequest msg requestId sessionKey wrapped keys signature coreMessage)
      server).1 = .ok response) :
    ∃ M s', exec (parseLicense sessionId response) ⟨host, cdm⟩ = (.ok (), M) ∧
      M.impl.sessions.lookup sessionId = some s' ∧
      s'.keys = s.keys ++ keys.map ServerKey.toKey := by
  obtain ⟨server', hreturns⟩ := hworking.answerRequest hkey msg requestId wrapped keys signature
    coreMessage server
  rw [hreturns] at hanswer
  obtain ⟨host', hstep⟩ := hworking.step_answer hcodec (M := ⟨host, cdm⟩) hs hcontext hkey hwraps
    keys signature coreMessage
  rw [Except.ok.inj hanswer] at hstep
  obtain ⟨⟨⟩, M, hparse, hdone⟩ := exec_bind_eq_ok.mp hstep
  cases hdone
  exact ⟨_, _, hparse, store_lookup_self .., rfl⟩

/-- **The client prints the server's keys.** From the file of a device of which
an object can be made, with libcrypto as documented, random bytes, and a server
that answers the request it is sent with 100 bytes at least, the client ends
with exit code 0 and prints the keys of the server, in its order. -/
theorem client_prints_keys {C : BlockCipher 16} {cmac : Bytes → Bytes → Bytes}
    {wraps : P.PKey → Bytes → Bytes → Prop} (hcodec : P.LawfulCodec)
    (hworking : P.Working C cmac wraps) (hsigns : P.Signs) {setting : Setting}
    {args : List String} {file : WvdFile} {trailing : Bytes}
    (hfile : setting.files (args.headD "device.wvd") = some (.bytes (file.encode ++ trailing)))
    {rsaKey : P.PKey} (hloads : Loads P file.device rsaKey) {keys : List ServerKey}
    (hserver : Serves P wraps rsaKey keys (setting.post licenseUrl)) (host : Host P) :
    ∃ printed process, exec (testLicenseServer setting args) ⟨host, "", ""⟩ = (.ok 0, process) ∧
      process.out = printed ++ keysText (keys.map ServerKey.toKey) ∧ process.err = "" := by
  have hdevice : Device.fromWvd setting.files (args.headD "device.wvd") = .ok file.device := by
    rw [Device.fromWvd, hfile]
    exact Device.fromWvdData_encode file trailing
  obtain ⟨⟨cdm, sessionId, response⟩, ⟨host₁, out, err⟩, h⟩ :=
    sendChallenge_returns hcodec hsigns hdevice hloads hserver ⟨host, "", ""⟩
  have herr := keeps_err_sendChallenge setting (args.headD "device.wvd") ⟨host, "", ""⟩
  rw [h] at herr
  obtain rfl : err = "" := herr
  obtain ⟨⟨device, hdevice', hload⟩, s, c, hs, hkeys, hcontexts, -,
    ⟨clientId, pssh, requestTime, nonce, hmsg⟩, hpost⟩ := sendChallenge_ok h
  -- the key of the object is the one the file holds
  obtain rfl : file.device = device := Except.ok.inj (hdevice.symm.trans hdevice')
  have hrsa : cdm.rsaKey = rsaKey := by
    obtain ⟨hostA, hostB, hexec⟩ := hload
    have hloaded := demand_ok hexec
    rw [hloads.rsaKey] at hloaded
    exact (Option.some.inj hloaded).symm
  obtain ⟨sessionKey, wrapped, signature, coreMessage, server, response', hkey, hwraps, hanswer,
    hpost', hlong⟩ := hserver.answers hcodec hmsg
  obtain rfl : response' = response := Option.some.inj (hpost'.symm.trans hpost)
  rw [← hrsa] at hwraps
  obtain ⟨M, s', hparse, hs', hs'keys⟩ := parseLicense_answer hcodec hworking host₁ hs
    (by rw [hcontexts, Finmap.lookup_insert]) hkey hwraps hanswer
  rw [hkeys, List.nil_append] at hs'keys
  rw [testLicenseServer, exec_tryCatch, exec_bind, h]
  dsimp only
  rw [receiveLicense_accepted (Nat.not_lt.mpr hlong) hparse hs', hs'keys]
  exact ⟨_, _, rfl, rfl, rfl⟩

/-! ## On the reference platform -/

namespace Reference

/-- The key the server has. -/
def serverKey : ServerKey :=
  ⟨beBytes 16 0xB0B1B2B3B4B5B6B7B8B9BABBBCBDBEBF, beBytes 16 0xC0C1C2C3C4C5C6C7C8C9CACBCCCDCECF,
    beBytes 16 0x101112131415161718191A1B1C1D1E1F, .CONTENT, rfl, by decide⟩

/-- A server that answers the request it finds in what it is sent, with a
signature of zeros. -/
def serve (challenge : Bytes) : Option Bytes := do
  let signedMessage ← parseSignedMessage challenge
  let msg ← signedMessage.msg
  let request ← parseLicenseRequest msg
  let contentId ← request.contentId
  let psshData ← contentId.widevinePsshData
  let requestId ← psshData.requestId
  let answer := answerRequest (P := platform nominal) msg requestId sessionKey wrapped
    [serverKey] (some (List.replicate 32 0)) none
  (exec answer chrome.machine.host).1.toOption

/-- The files of the example: one device file, under every name. -/
def deviceFile : WvdFile where
  version := 2
  type := .CHROME
  securityLevel := 3
  flags := 0
  privateKey := []
  clientId := [0x08, 0x01]
  version_known := .inr rfl
  privateKey_le := by decide
  clientId_le := by decide

def setting : Setting where
  files _ := some (.bytes deviceFile.encode)
  post _ := serve

/-- The signature and the session key alone make an answer of 100 bytes. -/
theorem answer_long (license : License) :
    100 ≤ (serializeSignedMessage (licenseMessage (platform nominal) license wrapped
      (some (List.replicate 32 0)) none)).length := by
  have hend : (Wire.encodeFields (Wire.optBytes 3 (some (List.replicate 32 (0 : UInt8)))
      ++ Wire.optBytes 4 (some wrapped))).length = 100 := by
    decide +kernel
  simp only [serializeSignedMessage, licenseMessage, Wire.encodeFields, List.flatMap_append,
    List.length_append] at hend ⊢
  omega

theorem serve_eq {challenge msg r : Bytes} {signedMessage : SignedMessage}
    {request : LicenseRequest Bytes} {psshData : WidevinePsshData}
    (hsigned : parseSignedMessage challenge = some signedMessage)
    (hmsg : signedMessage.msg = some msg) (hrequest : parseLicenseRequest msg = some request)
    (hcontent : request.contentId = some { widevinePsshData := some psshData })
    (hr : psshData.requestId = some r) :
    serve challenge = (exec (answerRequest (P := platform nominal) msg r sessionKey wrapped
      [serverKey] (some (List.replicate 32 0)) none) chrome.machine.host).1.toOption := by
  simp only [serve, hsigned, hmsg, hrequest, hcontent, hr, Option.bind_eq_bind, Option.bind_some]

theorem serves : Serves (platform nominal) recorded.Wraps () [serverKey] serve := by
  intro challenge signedMessage msg request psshData r hsigned hmsg hrequest hcontent hr
  have hworking : (platform nominal).Working (cipher recorded.blocks)
      (digest 16 recorded.cmacs) recorded.Wraps := working nominal_proper
  have hkey : sessionKey.length = 16 := rfl
  obtain ⟨host, hanswer⟩ := hworking.answerRequest hkey msg r wrapped [serverKey]
    (some (List.replicate 32 0)) none chrome.machine.host
  refine ⟨sessionKey, wrapped, some (List.replicate 32 0), none, chrome.machine.host, _, hkey,
    recorded_wraps, congrArg Prod.fst hanswer, ?_, answer_long _⟩
  rw [serve_eq hsigned hmsg hrequest hcontent hr, hanswer]
  rfl

end Reference

/-- A device file and a server, at the reference platform. -/
theorem client_prints_keys_recorded :
    ∃ printed process,
      exec (testLicenseServer (P := Reference.platform Reference.nominal) Reference.setting [])
        ⟨Reference.chrome.machine.host, "", ""⟩ = (.ok 0, process) ∧
      process.out = printed ++ keysText [Reference.serverKey.toKey] ∧ process.err = "" := by
  have hloads : Loads (Reference.platform Reference.nominal) Reference.deviceFile.device () := {
    rsaKey := fun _ => rfl
    clientId := ⟨_, rfl, rfl, by decide⟩ }
  have hfile : Reference.setting.files (([] : List String).headD "device.wvd")
      = some (.bytes (Reference.deviceFile.encode ++ [])) := by
    rw [List.append_nil]
    rfl
  exact client_prints_keys (Reference.lawfulCodec Reference.nominal)
    (Reference.working Reference.nominal_proper) Reference.nominal_signs hfile hloads
    Reference.serves Reference.chrome.machine.host

end WidevineCdm
