import WidevineCdm.Lib.Run
import WidevineCdm.Session.Exceptions

/-!
# What one step can do

`Transition impl op outcome impl'` lists, guards included, every way a call
can end and the change it makes to the CDM object. `step_transition` shows
the list is complete, so an invariant of runs is a case analysis on it and
never unfolds an operation again. A run of calls has a history, from the state
an object is made in; `Start.run_invariant` is the rule for its invariants.
-/

namespace WidevineCdm

open Lib Proto

variable {P : Platform}

/-! ## What an issued challenge is made of -/

/-- A challenge that `buildChallenge` completed: the request id was drawn for
the session's number, the message is a request carrying it, and the signature
was made over that very message. -/
structure Issued (impl : Impl P) (session : SessionState) (pssh : Pssh)
    (licenseType : LicenseType) (c : Challenge) : Prop where
  requestId : ∃ host host' : Host P, exec (generateRequestId impl.device.type session.number) host
    = (.ok c.requestId, host')
  msg : ∃ requestTime nonce, c.msg = P.serializeLicenseRequest
    { clientId := some impl.clientId
      contentId := some { widevinePsshData := some {
        psshData := [pssh.initData]
        licenseType := some licenseType
        requestId := some c.requestId } }
      type := some .NEW
      requestTime := some requestTime
      protocolVersion := some .VERSION_2_1
      keyControlNonce := some nonce }
  signature : ∃ host host' : Host P, exec (Crypto.signPssSha1 impl.rsaKey c.msg) host
    = (.ok c.signature, host')

theorem setContentId_ok {pssh : Pssh} {licenseType : LicenseType} {requestId : Bytes}
    {contentId : ContentIdentification}
    (h : setContentId pssh licenseType requestId = .ok contentId) :
    contentId = { widevinePsshData := some {
      psshData := [pssh.initData]
      licenseType := some licenseType
      requestId := some requestId } } := by
  unfold setContentId at h
  cases hempty : pssh.initData.isEmpty with
  | true =>
    rw [hempty] at h
    cases h
  | false =>
    rw [hempty] at h
    by_cases hlong : pssh.initData.length > 100000
    · rw [if_pos hlong] at h
      cases h
    · rw [if_neg hlong] at h
      exact (Except.ok.inj h).symm

theorem buildChallenge_issued {impl : Impl P} {session : SessionState} {pssh : Pssh}
    {licenseType : LicenseType} {c : Challenge} {host host' : Host P}
    (h : exec (buildChallenge impl session pssh licenseType) host = (.ok c, host')) :
    Issued impl session pssh licenseType c := by
  unfold buildChallenge at h
  cases hw : pssh.isWidevine with
  | false =>
    rw [hw] at h
    cases h
  | true =>
    rw [hw] at h
    simp only [Bool.not_true, Bool.false_eq_true, if_false] at h
    obtain ⟨requestId, h1, hrid, h⟩ := exec_bind_eq_ok.mp h
    obtain ⟨contentId, h2, hcid, h⟩ := exec_bind_eq_ok.mp h
    obtain ⟨requestTime, h3, -, h⟩ := exec_bind_eq_ok.mp h
    obtain ⟨nonce, h4, -, h⟩ := exec_bind_eq_ok.mp h
    obtain ⟨signature, h5, hsig, h⟩ := exec_bind_eq_ok.mp h
    rw [exec_liftExcept] at hcid
    have hcid' := setContentId_ok (Prod.mk.inj hcid).1
    subst hcid'
    cases h
    exact { requestId := ⟨_, _, hrid⟩
            msg := ⟨_, _, rfl⟩
            signature := ⟨_, _, hsig⟩ }

/-! ## The transition relation -/

/-- The session an operation looks up and refuses to do without. -/
def Op.target : Op → Option Bytes
  | .openSession => none
  | .closeSession _ => none
  | .setServiceCertificate S _ => some S
  | .getLicenseChallenge S _ _ _ => some S
  | .parseLicense S _ => some S
  | .getKeys S _ => some S

/-- Every way a call can end, and the change it makes to the object. -/
inductive Transition (impl : Impl P) : Op → Except Exn Reply → Impl P → Prop where
  | full (hfull : 16 ≤ impl.sessions.keys.card) :
    Transition impl .openSession (.error tooManySessions) impl
  | noEntropy (hroom : impl.sessions.keys.card < 16) :
    Transition impl .openSession
      (.error (.runtimeError "Failed to generate random bytes")) impl.count
  | opened (random : List.Vector UInt8 12) (hroom : impl.sessions.keys.card < 16) :
    Transition impl .openSession
      (.ok (.sessionId (sessionIdOf random impl.count.sessionCounter)))
      (impl.count.store (sessionIdOf random impl.count.sessionCounter)
        (newSession (sessionIdOf random impl.count.sessionCounter) impl.count.sessionCounter))
  | closed (S : Bytes) :
    Transition impl (.closeSession S) (.ok .done)
      { impl with sessions := impl.sessions.erase S }
  | unknown {op : Op} {S : Bytes} (htarget : op.target = some S)
      (hnone : impl.sessions.lookup S = none) :
    Transition impl op (.error invalidSession) impl
  | certified {S : Bytes} {s : SessionState} (hs : impl.sessions.lookup S = some s)
      (certificate : Bytes) :
    Transition impl (.setServiceCertificate S certificate) (.ok .done)
      (impl.store S { s with serviceCertificate := certificate })
  | refused {op : Op} {S : Bytes} {s : SessionState} {e : Exn} (htarget : op.target = some S)
      (hs : impl.sessions.lookup S = some s) (he : Known e) :
    Transition impl op (.error e) impl
  | challenged {S : Bytes} {s : SessionState} (hs : impl.sessions.lookup S = some s)
      {pssh : Pssh} {licenseType : LicenseType} (privacyMode : Bool) {c : Challenge}
      (hc : Issued impl s pssh licenseType c) :
    Transition impl (.getLicenseChallenge S pssh licenseType privacyMode)
      (.ok (.challenge (P.serializeSignedMessage c.signedMessage)))
      (impl.store S
        { s with contexts := s.contexts.insert c.requestId (deriveContext c.msg) })
  | accepted {S : Bytes} {s : SessionState} (hs : impl.sessions.lookup S = some s)
      {licenseResponse : Bytes} {signedMessage : SignedMessage} {license : License}
      (hdec : decodeLicense (P := P) licenseResponse = .ok (signedMessage, license))
      {context : Context} (hctx : s.contexts.lookup license.requestIdD = some context)
      (keys : List Key) :
    Transition impl (.parseLicense S licenseResponse) (.ok .done)
      (impl.store S
        { s.pushKeys keys with contexts := s.contexts.erase license.requestIdD })
  | interrupted {S : Bytes} {s : SessionState} (hs : impl.sessions.lookup S = some s)
      {licenseResponse : Bytes} (keys : List Key) {e : Exn} (he : Known e) :
    Transition impl (.parseLicense S licenseResponse) (.error e)
      (impl.store S (s.pushKeys keys))
  | keysRead {S : Bytes} {s : SessionState} (hs : impl.sessions.lookup S = some s)
      (type : String) :
    Transition impl (.getKeys S type)
      (.ok (.keys (if type.isEmpty then s.keys
        else s.keys.filter fun key => key.type == type))) impl

/-- What `openLicense` returned was decoded from the response, names a pending
context, and was computed in this order. -/
theorem openLicense_ok {rsaKey : P.PKey} {contexts : Finmap fun _ : Bytes => Context}
    {licenseResponse : Bytes} {opened : OpenedLicense} {host host' : Host P} :
    exec (openLicense rsaKey contexts licenseResponse) host = (.ok opened, host') ↔
      decodeLicense (P := P) licenseResponse = .ok (opened.signedMessage, opened.license) ∧
      ∃ context h₁ h₂, contexts.lookup opened.license.requestIdD = some context ∧
        exec (unwrapSessionKey rsaKey opened.signedMessage) host = (.ok opened.sessionKey, h₁) ∧
        exec (deriveKeys context.encContext context.macContext opened.sessionKey) h₁
          = (.ok opened.derived, h₂) ∧
        exec (Crypto.hmacSha256 opened.derived.macKeyServer (msgToSign opened.signedMessage)) h₂
          = (.ok opened.computedMac, host') := by
  constructor
  · intro h
    obtain ⟨⟨signedMessage, license⟩, h₀, hdec, h⟩ := exec_bind_eq_ok.mp h
    rw [exec_liftExcept] at hdec
    obtain ⟨hdecoded, rfl⟩ := Prod.mk.inj hdec
    cases hctx : contexts.lookup license.requestIdD with
    | none =>
      simp only [hctx] at h
      cases h
    | some context =>
      simp only [hctx] at h
      obtain ⟨sessionKey, h₁, hkey, h⟩ := exec_bind_eq_ok.mp h
      obtain ⟨derived, h₂, hderived, h⟩ := exec_bind_eq_ok.mp h
      obtain ⟨computedMac, h₃, hmac, h⟩ := exec_bind_eq_ok.mp h
      cases h
      exact ⟨hdecoded, context, h₁, h₂, hctx, hkey, hderived, hmac⟩
  · rintro ⟨hdec, context, h₁, h₂, hctx, hkey, hderived, hmac⟩
    rw [openLicense, exec_bind, exec_liftExcept, hdec]
    simp only [hctx]
    rw [exec_bind_ok hkey, exec_bind_ok hderived, exec_bind_ok hmac]
    rfl

/-- An operation that looks up a missing session throws and does nothing. -/
theorem step_unknown {M : Machine P} {op : Op} {S : Bytes} (htarget : op.target = some S)
    (hnone : M.impl.sessions.lookup S = none) : step M op = (.error invalidSession, M) := by
  have hfind := exec_findSession_none hnone
  cases op with
  | openSession => cases htarget
  | closeSession T => cases htarget
  | setServiceCertificate T certificate =>
    cases htarget
    exact exec_bind_error (exec_bind_error hfind)
  | getLicenseChallenge T pssh licenseType privacyMode =>
    cases htarget
    rw [step, Op.run, exec_map, getLicenseChallenge, exec_bind_error hfind]
    rfl
  | parseLicense T licenseResponse =>
    cases htarget
    exact exec_bind_error (exec_bind_error hfind)
  | getKeys T type =>
    cases htarget
    rw [step, Op.run, exec_map, getKeys, exec_bind_error hfind]
    rfl

theorem known_randomBytes_error {n : Nat} {host host' : Host P} {e : Exn}
    (h : exec (Crypto.randomBytes n) host = (.error e, host')) :
    e = .runtimeError "Failed to generate random bytes" :=
  throws_randomBytes n host e host' h

theorem transition_unknown {M : Machine P} {op : Op} {S : Bytes} (htarget : op.target = some S)
    (hs : M.impl.sessions.lookup S = none) :
    Transition M.impl op (step M op).1 (step M op).2.impl := by
  rw [step_unknown htarget hs]
  exact .unknown htarget hs

/-- **The transition relation is complete**: every step is one of its rules. -/
theorem step_transition (M : Machine P) (op : Op) :
    Transition M.impl op (step M op).1 (step M op).2.impl := by
  cases op with
  | openSession =>
    rw [step, Op.run, exec_map]
    by_cases hroom : M.impl.sessions.keys.card < 16
    · rw [exec_openSession hroom]
      rcases hr : exec (Crypto.randomBytes 12) M.host with ⟨e | random, host⟩
      · rw [known_randomBytes_error hr]
        exact .noEntropy hroom
      · exact .opened random hroom
    · rw [exec_openSession_full (Nat.not_lt.mp hroom)]
      exact .full (Nat.not_lt.mp hroom)
  | closeSession S =>
    rw [step, Op.run, exec_bind_ok (exec_closeSession S M)]
    exact .closed S
  | setServiceCertificate S certificate =>
    cases hs : M.impl.sessions.lookup S with
    | none => exact transition_unknown rfl hs
    | some s =>
      rw [step, Op.run, exec_bind_ok (exec_setServiceCertificate hs certificate)]
      exact .certified hs certificate
  | getLicenseChallenge S pssh licenseType privacyMode =>
    cases hs : M.impl.sessions.lookup S with
    | none => exact transition_unknown rfl hs
    | some s =>
      rw [step, Op.run, exec_map, exec_getLicenseChallenge hs]
      rcases hc : exec (buildChallenge M.impl s pssh licenseType) M.host with ⟨e | c, host⟩
      · exact .refused rfl hs (throws_buildChallenge _ _ _ _ _ _ _ hc)
      · exact .challenged hs privacyMode (buildChallenge_issued hc)
  | parseLicense S licenseResponse =>
    cases hs : M.impl.sessions.lookup S with
    | none => exact transition_unknown rfl hs
    | some s =>
      rw [step, Op.run, exec_bind, exec_parseLicense hs]
      rcases ho : exec (openLicense M.impl.rsaKey s.contexts licenseResponse) M.host
        with ⟨e | opened, host⟩
      · exact .refused rfl hs (throws_openLicense _ _ _ _ _ _ ho)
      · obtain ⟨hdec, context, h₁, h₂, hctx, -⟩ := openLicense_ok.mp ho
        rcases he : extractAll opened.derived.encKey opened.license.key host
          with ⟨⟨keys, failure⟩, host'⟩
        simp only [he]
        -- the keys in front of a failure are pushed all the same
        cases failure with
        | none => exact .accepted hs hdec hctx keys
        | some e => exact .interrupted hs keys (known_rethrow_keys e)
  | getKeys S type =>
    cases hs : M.impl.sessions.lookup S with
    | none => exact transition_unknown rfl hs
    | some s =>
      rw [step, Op.run, exec_map, exec_getKeys hs]
      exact .keysRead hs type

/-! ## Histories -/

/-- A call and what it ended in. -/
abbrev Event := Op × Except Exn Reply

/-- An `open_session` that returned `id`. -/
abbrev Event.opened (id : Bytes) : Event := (.openSession, .ok (.sessionId id))

/-- What a CDM object is made from, and the world it starts in. -/
structure Start (P : Platform) where
  device : Device
  rsaKey : P.PKey
  clientId : P.ClientIdentification
  world : P.World

/-- The object before its first call. -/
def Start.machine (start : Start P) : Machine P :=
  Machine.fresh start.device start.rsaKey start.clientId start.world

/-- The history of a run of calls and the machine it reaches. -/
def Start.run (start : Start P) (ops : List Op) : List Event × Machine P :=
  runFrom step start.machine ops

/-- A run made the call `op` on the machine `M`. -/
def Start.Calls (start : Start P) (ops : List Op) (M : Machine P) (op : Op) : Prop :=
  ∃ earlier later, ops = earlier ++ op :: later ∧ M = (start.run earlier).2

theorem Start.calls_last (start : Start P) (ops : List Op) (op : Op) :
    start.Calls (ops ++ [op]) (start.run ops).2 op := ⟨ops, [], rfl, rfl⟩

theorem Start.Calls.mem {start : Start P} {ops : List Op} {M : Machine P} {op : Op}
    (h : start.Calls ops M op) : op ∈ ops := by
  obtain ⟨earlier, later, rfl, -⟩ := h
  exact List.mem_append_right _ List.mem_cons_self

/-- Two properties of a call that agree on every call agree along every run. -/
theorem Start.calls_congr {A B : Machine P → Op → Prop} (h : ∀ M op, A M op ↔ B M op)
    (start : Start P) (ops : List Op) :
    (∀ M op, start.Calls ops M op → A M op) ↔ ∀ M op, start.Calls ops M op → B M op := by
  constructor
  · intro hA M op hcall
    exact (h M op).mp (hA M op hcall)
  · intro hB M op hcall
    exact (h M op).mpr (hB M op hcall)

/-- The constructor returns such an object. -/
theorem newImpl_fresh {device : Device} {host host' : Host P} {impl : Impl P}
    (h : exec (newImpl device) host = (.ok impl, host')) :
    ∃ rsaKey clientId, impl = Impl.fresh device rsaKey clientId := by
  obtain ⟨rsaKey, h1, -, h⟩ := exec_bind_eq_ok.mp h
  cases hclient : P.parseClientIdentification device.clientId with
  | none =>
    rw [hclient] at h
    cases h
  | some clientId =>
    rw [hclient] at h
    refine ⟨rsaKey, clientId, ?_⟩
    cases hinit : P.isInitialized clientId with
    | false =>
      simp only [hinit] at h
      cases h
    | true =>
      simp only [hinit] at h
      by_cases hsize : P.byteSizeLong clientId > 10000
      · rw [if_pos hsize] at h
        cases h
      · rw [if_neg hsize] at h
        cases h
        rfl

/-- **The run rule for CDM objects**: an invariant of the object and its
history, preserved by every rule of the transition relation. -/
theorem Start.run_invariant {I : List Event → Impl P → Prop} (start : Start P)
    (h0 : I [] (Impl.fresh start.device start.rsaKey start.clientId))
    (hstep : ∀ history impl op outcome impl', Transition impl op outcome impl' →
      I history impl → I (history ++ [(op, outcome)]) impl') (ops : List Op) :
    I (start.run ops).1 (start.run ops).2.impl :=
  runFrom_invariant (I := fun history M => I history M.impl) step h0
    (fun history M op hinv => hstep history M.impl op _ _ (step_transition M op) hinv) ops

end WidevineCdm
