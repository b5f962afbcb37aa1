import WidevineCdm.Session.Isolation

/-!
# The ledger of pending requests

Whether a session holds a context for a request id is a function of its
history: every challenge returned on it that carries the id writes the
serialised request, every licence accepted for the id erases it, and so does
opening or closing the session. `pendingEffect` reads these events off the
bytes that crossed the interface, by decoding challenges and responses, and
`pending_run` shows that the map of contexts is the ledger of the history,
every entry being `derive_context` of the request that was sent and signed.
-/

namespace WidevineCdm

open Lib Proto

variable {P : Platform}

/-! ## Reading events -/

/-- The request id a request carries. -/
def Proto.LicenseRequest.requestId? {C : Type} (request : LicenseRequest C) : Option Bytes :=
  request.contentId.bind fun contentId =>
    contentId.widevinePsshData.bind fun psshData => psshData.requestId

/-- The request id and the `msg` field of a challenge. -/
def carried (P : Platform) (challenge : Bytes) : Option (Bytes × Bytes) := do
  let signedMessage ← P.parseSignedMessage challenge
  let msg ← signedMessage.msg
  let request ← P.parseLicenseRequest msg
  let requestId ← request.requestId?
  return (requestId, msg)

/-- The request id of the licence in a response. -/
def answered (P : Platform) (licenseResponse : Bytes) : Option Bytes :=
  match decodeLicense (P := P) licenseResponse with
  | .ok (_, license) => some license.requestIdD
  | .error _ => none

/-- The `msg` field of the challenge returned by the event, if it is one on
`S` carrying `r`. -/
def issued (P : Platform) (S r : Bytes) : Event → Option Bytes
  | (.getLicenseChallenge T _ _ _, .ok (.challenge c)) =>
    match carried P c with
    | some (r', msg) => if T = S ∧ r' = r then some msg else none
    | none => none
  | _ => none

/-- A `parse_license` on `S` for `r` that returned. -/
def accepts (P : Platform) (S r : Bytes) : Event → Bool
  | (.parseLicense T licenseResponse, .ok _) => T = S ∧ answered P licenseResponse = some r
  | _ => false

/-- `S` was opened or closed. -/
def restarts (S : Bytes) : Event → Bool
  | (.openSession, .ok (.sessionId id)) => id = S
  | (.closeSession T, _) => T = S
  | _ => false

/-- What an event does to the request pending in `S` under `r`. -/
def pendingEffect (P : Platform) (S r : Bytes) (e : Event) : SlotEffect Bytes :=
  match issued P S r e with
  | some msg => .write msg
  | none => if accepts P S r e || restarts S e then .erase else .keep

/-- The context stored in `S` under `r`. -/
def Impl.pending (impl : Impl P) (S r : Bytes) : Option Context :=
  (impl.sessions.lookup S).bind fun s => s.contexts.lookup r

/-! ## What an event does -/

theorem pendingEffect_openSession (S r id : Bytes) :
    pendingEffect P S r (Event.opened id) = if id = S then .erase else .keep := by
  show (if (false || decide (id = S)) = true then SlotEffect.erase else .keep) = _
  simp only [Bool.false_or, decide_eq_true_eq]

theorem pendingEffect_closeSession (S r T : Bytes) :
    pendingEffect P S r (.closeSession T, .ok .done) = if T = S then .erase else .keep := by
  show (if (false || decide (T = S)) = true then SlotEffect.erase else .keep) = _
  simp only [Bool.false_or, decide_eq_true_eq]

theorem pendingEffect_challenge {challenge requestId msg : Bytes}
    (hcarried : carried P challenge = some (requestId, msg)) (S r T : Bytes) (pssh : Pssh)
    (licenseType : LicenseType) (privacyMode : Bool) :
    pendingEffect P S r (.getLicenseChallenge T pssh licenseType privacyMode,
        .ok (.challenge challenge))
      = if T = S ∧ requestId = r then .write msg else .keep := by
  rw [pendingEffect, issued, hcarried]
  dsimp only
  by_cases h : T = S ∧ requestId = r
  · rw [if_pos h, if_pos h]
  · rw [if_neg h, if_neg h]
    rfl

theorem pendingEffect_license {licenseResponse requestId : Bytes}
    (hanswered : answered P licenseResponse = some requestId) (S r T : Bytes) (reply : Reply) :
    pendingEffect P S r (.parseLicense T licenseResponse, .ok reply)
      = if T = S ∧ requestId = r then .erase else .keep := by
  show (if (decide (T = S ∧ answered P licenseResponse = some r) || false) = true
    then SlotEffect.erase else .keep) = _
  simp only [hanswered, Bool.or_false, decide_eq_true_eq, Option.some_inj]

/-- A call that throws has no effect on the ledger. -/
theorem pendingEffect_error (S r : Bytes) (op : Op) (e : Exn) (hop : ∀ T, op ≠ .closeSession T) :
    pendingEffect P S r (op, .error e) = .keep := by
  cases op with
  | closeSession T => exact absurd rfl (hop T)
  | _ => rfl

/-! ## What a write to the sessions does -/

theorem pending_store_self {impl : Impl P} {S : Bytes} {s : SessionState} (r : Bytes) :
    (impl.store S s).pending S r = s.contexts.lookup r := by
  rw [Impl.pending, store_lookup_self]
  rfl

theorem pending_store_ne {impl : Impl P} {S T : Bytes} (h : S ≠ T) (s : SessionState)
    (r : Bytes) : (impl.store T s).pending S r = impl.pending S r := by
  rw [Impl.pending, store_lookup_ne h, Impl.pending]

/-- Storing a session with the contexts it had changes no pending request. -/
theorem pending_store_contexts {impl : Impl P} {T : Bytes} {s s' : SessionState}
    (hs : impl.sessions.lookup T = some s) (hcontexts : s'.contexts = s.contexts) (S r : Bytes) :
    (impl.store T s').pending S r = impl.pending S r := by
  by_cases hS : S = T
  · rw [hS, pending_store_self, hcontexts, Impl.pending, hs]
    rfl
  · exact pending_store_ne hS s' r

/-- A session stored without contexts has nothing pending. -/
theorem pending_store_empty (impl : Impl P) (T : Bytes) {s : SessionState}
    (hcontexts : s.contexts = ∅) (S r : Bytes) :
    (impl.store T s).pending S r = if T = S then none else impl.pending S r := by
  by_cases hT : T = S
  · rw [if_pos hT, hT, pending_store_self, hcontexts]
    exact Finmap.lookup_empty r
  · rw [if_neg hT, pending_store_ne (Ne.symm hT)]

theorem pending_closed (impl : Impl P) (T S r : Bytes) :
    ({ impl with sessions := impl.sessions.erase T } : Impl P).pending S r
      = if T = S then none else impl.pending S r := by
  by_cases hT : T = S
  · rw [if_pos hT, hT, Impl.pending, Finmap.lookup_erase]
    rfl
  · rw [if_neg hT, Impl.pending, Finmap.lookup_erase_ne (Ne.symm hT), Impl.pending]

theorem pending_store_insert {impl : Impl P} {T : Bytes} {s s' : SessionState}
    (hs : impl.sessions.lookup T = some s) {requestId : Bytes} {context : Context}
    (hcontexts : s'.contexts = s.contexts.insert requestId context) (S r : Bytes) :
    (impl.store T s').pending S r
      = if T = S ∧ requestId = r then some context else impl.pending S r := by
  by_cases hT : T = S
  · rw [← hT, pending_store_self, hcontexts, Impl.pending, hs]
    by_cases hr : requestId = r
    · rw [if_pos ⟨rfl, hr⟩, hr, Finmap.lookup_insert]
    · rw [if_neg fun h => hr h.2, Finmap.lookup_insert_of_ne _ (Ne.symm hr)]
      rfl
  · rw [if_neg fun h => hT h.1, pending_store_ne (Ne.symm hT)]

theorem pending_store_erase {impl : Impl P} {T : Bytes} {s s' : SessionState}
    (hs : impl.sessions.lookup T = some s) {requestId : Bytes}
    (hcontexts : s'.contexts = s.contexts.erase requestId) (S r : Bytes) :
    (impl.store T s').pending S r
      = if T = S ∧ requestId = r then none else impl.pending S r := by
  by_cases hT : T = S
  · rw [← hT, pending_store_self, hcontexts, Impl.pending, hs]
    by_cases hr : requestId = r
    · rw [if_pos ⟨rfl, hr⟩, hr, Finmap.lookup_erase]
    · rw [if_neg fun h => hr h.2, Finmap.lookup_erase_ne (Ne.symm hr)]
      rfl
  · rw [if_neg fun h => hT h.1, pending_store_ne (Ne.symm hT)]

/-! ## The step lemma -/

/-- A returned challenge carries the request id its context is stored under,
and the request that was signed. -/
theorem carried_challenge (hcodec : P.LawfulCodec) {impl : Impl P} {s : SessionState}
    {pssh : Pssh} {licenseType : LicenseType} {c : Challenge}
    (hc : Issued impl s pssh licenseType c) :
    carried P (P.serializeSignedMessage c.signedMessage) = some (c.requestId, c.msg) := by
  obtain ⟨requestTime, nonce, hmsg⟩ := hc.msg
  rw [carried, hcodec.signedMessage]
  show (P.parseLicenseRequest c.msg >>= fun request => _) = _
  rw [hmsg, hcodec.licenseRequest]
  rfl

/-- **The step lemma**: a step does to the pending request what its event
says. -/
theorem Transition.pending (hcodec : P.LawfulCodec) {impl impl' : Impl P} {op : Op}
    {outcome : Except Exn Reply} (h : Transition impl op outcome impl') {S r : Bytes}
    {slot : Option Bytes} (hslot : impl.pending S r = slot.map deriveContext) :
    impl'.pending S r
      = ((pendingEffect P S r (op, outcome)).apply slot).map deriveContext := by
  cases h with
  | full hfull => exact hslot
  | noEntropy hroom => exact hslot
  | opened random hroom =>
    rw [pending_store_empty _ _ rfl, pendingEffect_openSession]
    split
    · rfl
    · exact hslot
  | closed T =>
    rw [pending_closed, pendingEffect_closeSession]
    split
    · rfl
    · exact hslot
  | unknown htarget hnone =>
    rw [pendingEffect_error]
    · exact hslot
    · rintro T rfl
      cases htarget
  | certified hs certificate =>
    refine Eq.trans (pending_store_contexts hs ?_ S r) hslot
    rfl
  | refused htarget hs he =>
    rw [pendingEffect_error]
    · exact hslot
    · rintro T rfl
      cases htarget
  | challenged hs privacyMode hc =>
    rw [pending_store_insert hs rfl, pendingEffect_challenge (carried_challenge hcodec hc)]
    split
    · rfl
    · exact hslot
  | @accepted T s hs licenseResponse signedMessage license hdec context hctx keys =>
    have hanswered : answered P licenseResponse = some license.requestIdD := by
      rw [answered, hdec]
    rw [pending_store_erase hs rfl, pendingEffect_license hanswered]
    split
    · rfl
    · exact hslot
  | interrupted hs keys he =>
    refine Eq.trans (pending_store_contexts hs ?_ S r) hslot
    rfl
  | keysRead hs type => exact hslot

/-! ## The invariant of runs -/

/-- A challenge whose `msg` is what its signature was made over. -/
def Signed (rsaKey : P.PKey) (challenge : Bytes) : Prop :=
  ∃ (signedMessage : SignedMessage) (msg signature : Bytes) (host host' : Host P),
    P.parseSignedMessage challenge = some signedMessage ∧ signedMessage.msg = some msg ∧
    signedMessage.signature = some signature ∧
    exec (Crypto.signPssSha1 rsaKey msg) host = (.ok signature, host')

theorem generateRequestId_ne_nil {type : DeviceType} {number : UInt32} {requestId : Bytes}
    {host host' : Host P}
    (h : exec (generateRequestId type number) host = (.ok requestId, host')) :
    requestId ≠ [] := by
  rw [← List.length_pos_iff]
  cases type with
  | CHROME =>
    obtain ⟨random, host₁, -, h⟩ := exec_bind_eq_ok.mp h
    cases h
    rw [random.toList_length]
    decide
  | ANDROID =>
    obtain ⟨random, tail, rfl⟩ := generateRequestId_android h
    rw [hexBytes_length, List.length_append, tail.toList_length]
    omega

/-- Only a returned challenge issues a request. -/
theorem issued_isSome {S r : Bytes} {op : Op} {outcome : Except Exn Reply} {msg : Bytes}
    (h : issued P S r (op, outcome) = some msg) :
    ∃ pssh licenseType privacyMode c, op = .getLicenseChallenge S pssh licenseType privacyMode ∧
      outcome = .ok (.challenge c) ∧ carried P c = some (r, msg) := by
  unfold issued at h
  split at h
  · next T pssh licenseType privacyMode c heq =>
    obtain ⟨rfl, rfl⟩ := Prod.mk.inj heq
    split at h
    · next r' msg' hcarried =>
      split at h
      · next hTr =>
        obtain ⟨rfl, rfl⟩ := hTr
        rw [Option.some.inj h] at hcarried
        exact ⟨pssh, licenseType, privacyMode, c, rfl, rfl, hcarried⟩
      · cases h
    · cases h
  · cases h

/-- What the run rule carries: the contexts are the ledger, a licence was only
accepted for a request pending at that point, and every challenge is signed
and names a request id. -/
structure PendingLedger (rsaKey : P.PKey) (history : List Event) (impl : Impl P) : Prop where
  rsaKey_eq : impl.rsaKey = rsaKey
  slots : ∀ S r,
    impl.pending S r = (ledger (pendingEffect P S r) none history).map deriveContext
  spent : ∀ S r before e after, history = before ++ e :: after → accepts P S r e →
    (ledger (pendingEffect P S r) none before).isSome
  signed : ∀ S pssh licenseType privacyMode c,
    (Op.getLicenseChallenge S pssh licenseType privacyMode, .ok (.challenge c)) ∈ history →
      Signed rsaKey c
  named : ∀ S e, e ∈ history → issued P S [] e = none

theorem Transition.rsaKey {impl impl' : Impl P} {op : Op} {outcome : Except Exn Reply}
    (h : Transition impl op outcome impl') : impl'.rsaKey = impl.rsaKey := by
  cases h <;> rfl

/-- A licence is accepted only for a pending request. -/
theorem Transition.accepts_pending {impl impl' : Impl P} {op : Op} {outcome : Except Exn Reply}
    (h : Transition impl op outcome impl') {S r : Bytes} (hacc : accepts P S r (op, outcome)) :
    (impl.pending S r).isSome := by
  cases h with
  | @accepted T s hs licenseResponse signedMessage license hdec context hctx keys =>
    have hanswered : answered P licenseResponse = some license.requestIdD := by
      rw [answered, hdec]
    obtain ⟨rfl, hr⟩ : T = S ∧ answered P licenseResponse = some r := of_decide_eq_true hacc
    rw [hanswered] at hr
    rw [← Option.some.inj hr, Impl.pending, hs]
    exact Option.isSome_iff_exists.mpr ⟨context, hctx⟩
  | @unknown op T htarget hnone => cases op <;> cases hacc
  | @refused op T s e htarget hs he => cases op <;> cases hacc
  | _ => cases hacc

/-- The challenge of a step is signed with the object's key. -/
theorem Transition.challenge_signed (hcodec : P.LawfulCodec) {impl impl' : Impl P} {S : Bytes}
    {pssh : Pssh} {licenseType : LicenseType} {privacyMode : Bool} {c : Bytes}
    (h : Transition impl (.getLicenseChallenge S pssh licenseType privacyMode)
      (.ok (.challenge c)) impl') : Signed impl.rsaKey c := by
  cases h with
  | @challenged _ s hs _ _ _ c hc =>
    obtain ⟨host, host', hsig⟩ := hc.signature
    exact ⟨c.signedMessage, c.msg, c.signature, host, host', hcodec.signedMessage _, rfl, rfl,
      hsig⟩

/-- No challenge carries the empty request id. -/
theorem Transition.issued_named (hcodec : P.LawfulCodec) {impl impl' : Impl P} {op : Op}
    {outcome : Except Exn Reply} (h : Transition impl op outcome impl') (S : Bytes) :
    issued P S [] (op, outcome) = none := by
  cases hiss : issued P S [] (op, outcome) with
  | none => rfl
  | some msg =>
    obtain ⟨pssh, licenseType, privacyMode, c, rfl, rfl, hcarried⟩ := issued_isSome hiss
    cases h with
    | @challenged _ s hs _ _ _ c hc =>
      rw [carried_challenge hcodec hc] at hcarried
      obtain ⟨host, host', hgen⟩ := hc.requestId
      exact absurd (Prod.mk.inj (Option.some.inj hcarried)).1 (generateRequestId_ne_nil hgen)

theorem pending_fresh (device : Device) (rsaKey : P.PKey) (clientId : P.ClientIdentification) :
    PendingLedger rsaKey [] (Impl.fresh device rsaKey clientId : Impl P) where
  rsaKey_eq := rfl
  slots S r := by
    rw [Impl.pending, Impl.fresh, Finmap.lookup_empty]
    rfl
  spent S r before e after h := absurd h (by simp)
  signed S pssh licenseType privacyMode c h := nomatch h
  named S e h := nomatch h

theorem pending_step (hcodec : P.LawfulCodec) {rsaKey : P.PKey} {history : List Event}
    {impl impl' : Impl P} {op : Op} {outcome : Except Exn Reply}
    (h : Transition impl op outcome impl') (hinv : PendingLedger rsaKey history impl) :
    PendingLedger rsaKey (history ++ [(op, outcome)]) impl' where
  rsaKey_eq := h.rsaKey.trans hinv.rsaKey_eq
  slots S r := by rw [h.pending hcodec (hinv.slots S r), ledger_snoc]
  spent S r before e after hsplit hacc := by
    rcases List.eq_nil_or_concat after with rfl | ⟨after', last, rfl⟩
    · obtain ⟨rfl, heq⟩ := List.append_inj' hsplit rfl
      rw [← List.head_eq_of_cons_eq heq] at hacc
      have hpending := h.accepts_pending hacc
      rwa [hinv.slots, Option.isSome_map] at hpending
    · have hsplit' : history ++ [(op, outcome)] = (before ++ e :: after') ++ [last] := by
        rw [hsplit, List.concat_eq_append, List.append_assoc, List.cons_append]
      exact hinv.spent S r before e after' (List.append_inj_left' hsplit' rfl) hacc
  signed S pssh licenseType privacyMode c hmem := by
    rcases List.mem_append.mp hmem with hmem | hmem
    · exact hinv.signed S pssh licenseType privacyMode c hmem
    · obtain ⟨rfl, rfl⟩ := Prod.mk.inj (List.mem_singleton.mp hmem)
      rw [← hinv.rsaKey_eq]
      exact h.challenge_signed hcodec
  named S e hmem := by
    rcases List.mem_append.mp hmem with hmem | hmem
    · exact hinv.named S e hmem
    · rw [List.mem_singleton.mp hmem]
      exact h.issued_named hcodec S

theorem pending_run (hcodec : P.LawfulCodec) (start : Start P) (ops : List Op) :
    PendingLedger start.rsaKey (start.run ops).1 (start.run ops).2.impl :=
  start.run_invariant (I := PendingLedger start.rsaKey)
    (pending_fresh start.device start.rsaKey start.clientId)
    (fun _ _ _ _ _ => pending_step hcodec) ops

/-! ## Main result -/

theorem pendingEffect_write {S r : Bytes} {e : Event} {msg : Bytes} :
    pendingEffect P S r e = .write msg ↔ issued P S r e = some msg := by
  unfold pendingEffect
  cases issued P S r e with
  | some m =>
    constructor
    · intro h
      rw [SlotEffect.write.inj h]
    · intro h
      rw [Option.some.inj h]
  | none =>
    constructor
    · intro h
      dsimp only at h
      split at h <;> cases h
    · intro h
      cases h

theorem pendingEffect_keep {S r : Bytes} {e : Event} :
    pendingEffect P S r e = .keep ↔
      issued P S r e = none ∧ accepts P S r e = false ∧ restarts S e = false := by
  unfold pendingEffect
  cases issued P S r e with
  | some m => simp
  | none => cases accepts P S r e <;> cases restarts S e <;> simp

/-- Accepting a licence and opening the session erase the pending request. -/
theorem pendingEffect_erase {S r : Bytes} {e : Event} (hnone : issued P S r e = none)
    (h : accepts P S r e = true ∨ restarts S e = true) : pendingEffect P S r e = .erase := by
  unfold pendingEffect
  rw [hnone]
  exact if_pos (Bool.or_eq_true_iff.mpr h)

theorem issued_accepts {S r : Bytes} {e : Event} (h : accepts P S r e = true) :
    issued P S r e = none := by
  obtain ⟨op, outcome⟩ := e
  cases op <;> first | rfl | cases h

theorem pendingEffect_opened (S r : Bytes) :
    pendingEffect P S r (Event.opened S) = .erase := by
  rw [pendingEffect_openSession, if_pos rfl]

/-- Nothing pending after a stretch that issued nothing and followed an
erasure. -/
theorem ledger_none_of_not_issued {before after : List Event} {e : Event} {S r : Bytes}
    (he : pendingEffect P S r e = .erase) (hafter : ∀ e' ∈ after, issued P S r e' = none) :
    ledger (pendingEffect P S r) none (before ++ e :: after) = none := by
  rw [ledger_append, ledger_cons, he]
  refine ledger_none fun e' he' msg hwrite => ?_
  rw [pendingEffect_write, hafter e' he'] at hwrite
  cases hwrite

/-- A response for a request that is not pending is refused. -/
theorem step_parseLicense_notPending {M : Machine P} {S : Bytes} {s : SessionState}
    (hs : M.impl.sessions.lookup S = some s) {licenseResponse r : Bytes}
    (hanswered : answered P licenseResponse = some r) (hnone : M.impl.pending S r = none) :
    step M (.parseLicense S licenseResponse)
      = (.error (.runtimeError "No context found for this license"), M) := by
  unfold answered at hanswered
  split at hanswered
  · next signedMessage license hdec =>
    refine step_parseLicense_noContext hs hdec ?_
    rw [Option.some.inj hanswered, ← Finmap.lookup_eq_none]
    rwa [Impl.pending, hs] at hnone
  · cases hanswered

/-- **The pending-request ledger.** In every reachable state an open session
has a context for `r` exactly if some challenge carrying `r` was returned on
it, with nothing since that opened or closed the session, issued `r` again or
accepted a licence for `r`; the entry is derived from that challenge's `msg`,
and every challenge's `msg` is what its signature was made over. Since the
session was opened no more licences were accepted for `r` than challenges
carried it; and a response accepted before, with no challenge carrying `r`
since, a response whose request id is missing, and one whose request id was
never issued since the session was opened are refused with nothing changed. -/
theorem pending_ledger (hcodec : P.LawfulCodec) (start : Start P) (ops : List Op) {S : Bytes}
    {s : SessionState} (hs : (start.run ops).2.impl.sessions.lookup S = some s) (r : Bytes) :
    (∀ context, s.contexts.lookup r = some context ↔
      ∃ before e after msg, (start.run ops).1 = before ++ e :: after ∧
        issued P S r e = some msg ∧ context = deriveContext msg ∧
        ∀ e' ∈ after, issued P S r e' = none ∧ accepts P S r e' = false ∧
          restarts S e' = false) ∧
    (∀ T pssh licenseType privacyMode c,
      (Op.getLicenseChallenge T pssh licenseType privacyMode, .ok (.challenge c))
        ∈ (start.run ops).1 → Signed start.rsaKey c) ∧
    (∀ before after, (start.run ops).1 = before ++ Event.opened S :: after →
      after.countP (accepts P S r) ≤ after.countP fun e => (issued P S r e).isSome) ∧
    (∀ before licenseResponse reply after,
      (start.run ops).1 = before ++ (.parseLicense S licenseResponse, .ok reply) :: after →
      answered P licenseResponse = some r → (∀ e ∈ after, issued P S r e = none) →
        step (start.run ops).2 (.parseLicense S licenseResponse)
          = (.error (.runtimeError "No context found for this license"), (start.run ops).2)) ∧
    (∀ licenseResponse signedMessage license,
      decodeLicense (P := P) licenseResponse = .ok (signedMessage, license) →
      (license.id.bind fun id => id.requestId) = none →
        step (start.run ops).2 (.parseLicense S licenseResponse)
          = (.error (.runtimeError "No context found for this license"), (start.run ops).2)) ∧
    (∀ before after licenseResponse,
      (start.run ops).1 = before ++ Event.opened S :: after →
      answered P licenseResponse = some r → (∀ e ∈ after, issued P S r e = none) →
        step (start.run ops).2 (.parseLicense S licenseResponse)
          = (.error (.runtimeError "No context found for this license"), (start.run ops).2)) := by
  have hinv := pending_run hcodec start ops
  have hpending : (start.run ops).2.impl.pending S r = s.contexts.lookup r := by
    rw [Impl.pending, hs]
    rfl
  refine ⟨?_, hinv.signed, ?_, ?_, ?_, ?_⟩
  · intro context
    rw [← hpending, hinv.slots, Option.map_eq_some_iff]
    constructor
    · rintro ⟨msg, hledger, rfl⟩
      obtain ⟨before, e, after, hsplit, he, hafter⟩ := ledger_eq_some_iff.mp hledger
      exact ⟨before, e, after, msg, hsplit, pendingEffect_write.mp he, rfl,
        fun e' he' => pendingEffect_keep.mp (hafter e' he')⟩
    · rintro ⟨before, e, after, msg, hsplit, he, rfl, hafter⟩
      exact ⟨msg, ledger_eq_some_iff.mpr ⟨before, e, after, hsplit, pendingEffect_write.mpr he,
        fun e' he' => pendingEffect_keep.mpr (hafter e' he')⟩, rfl⟩
  · -- an accepted licence empties a slot that a challenge had filled
    intro before after hsplit
    have hwrites : ∀ e msg, pendingEffect P S r e = .write msg → (issued P S r e).isSome := by
      intro e msg he
      rw [pendingEffect_write.mp he]
      rfl
    refine countP_le_writes (accepts P S r) _ hwrites ?_
    intro front e back heq hacc
    refine ⟨?_, pendingEffect_erase (issued_accepts hacc) (.inl hacc)⟩
    have hspent := hinv.spent S r (before ++ Event.opened S :: front) e back
      (by rw [hsplit, heq, List.append_assoc, List.cons_append]) hacc
    rwa [ledger_append, ledger_cons, pendingEffect_opened] at hspent
  · intro before licenseResponse reply after hsplit hanswered hafter
    have hacc : accepts P S r (.parseLicense S licenseResponse, .ok reply) = true :=
      decide_eq_true ⟨rfl, hanswered⟩
    refine step_parseLicense_notPending hs hanswered ?_
    rw [hinv.slots, hsplit,
      ledger_none_of_not_issued (pendingEffect_erase (issued_accepts hacc) (.inl hacc)) hafter]
    rfl
  · -- a missing request id reads as the empty one, which no challenge carries
    intro licenseResponse signedMessage license hdec hmissing
    have hanswered : answered P licenseResponse = some [] := by
      rw [answered, hdec]
      show some ((license.id.bind fun id => id.requestId).getD []) = some []
      rw [hmissing]
      rfl
    refine step_parseLicense_notPending hs hanswered ?_
    rw [hinv.slots, ledger_none]
    · rfl
    · intro e he msg hwrite
      rw [pendingEffect_write, hinv.named S e he] at hwrite
      cases hwrite
  · intro before after licenseResponse hsplit hanswered hafter
    refine step_parseLicense_notPending hs hanswered ?_
    rw [hinv.slots, hsplit, ledger_none_of_not_issued (pendingEffect_opened S r) hafter]
    rfl

/-- The recorded exchange: its response is refused when it is delivered again. -/
theorem pending_ledger_exchange :
    step (Reference.chrome.run Reference.exchange).2
      (.parseLicense (Reference.sessionId 1) Reference.honestResponse)
    = (.error (.runtimeError "No context found for this license"),
      (Reference.chrome.run Reference.exchange).2) := by
  have hopen : ((Reference.chrome.run Reference.exchange).2.impl.sessions.lookup
      (Reference.sessionId 1)).isSome := by
    decide +kernel
  have hhistory : (Reference.chrome.run Reference.exchange).1
      = (Reference.chrome.run Reference.oneSession).1
        ++ (.parseLicense (Reference.sessionId 1) Reference.honestResponse, .ok .done) :: [] := by
    decide +kernel
  have hanswered : answered (Reference.platform Reference.nominal) Reference.honestResponse
      = some (List.replicate 16 0) := by
    decide +kernel
  obtain ⟨s, hs⟩ := Option.isSome_iff_exists.mp hopen
  have hledger := pending_ledger (Reference.lawfulCodec Reference.nominal) _ _ hs
    (List.replicate 16 0)
  exact hledger.2.2.2.1 _ _ _ _ hhistory hanswered fun e he => nomatch he

/-- A second challenge with the same request id, all random bytes being zero,
lets a response that was accepted be accepted again. -/
theorem replay_accepted_after_reissue :
    (Reference.platform Reference.nominal).LawfulCodec ∧
    ¬ ∀ (ops : List Op) (S : Bytes) (s : SessionState) (before : List Event)
        (licenseResponse : Bytes) (reply : Reply) (after : List Event),
      (Reference.chrome.run ops).2.impl.sessions.lookup S = some s →
      (Reference.chrome.run ops).1
        = before ++ (.parseLicense S licenseResponse, .ok reply) :: after →
      ∃ e, step (Reference.chrome.run ops).2 (.parseLicense S licenseResponse)
        = (.error e, (Reference.chrome.run ops).2) := by
  refine ⟨Reference.lawfulCodec Reference.nominal, ?_⟩
  intro h
  let ops := Reference.exchange ++ [Reference.getChallenge (Reference.sessionId 1)]
  have hopen : ((Reference.chrome.run ops).2.impl.sessions.lookup
      (Reference.sessionId 1)).isSome := by
    decide +kernel
  have hhistory : (Reference.chrome.run ops).1
      = (Reference.chrome.run Reference.oneSession).1
        ++ (.parseLicense (Reference.sessionId 1) Reference.honestResponse, .ok .done)
          :: (Reference.chrome.run ops).1.drop 3 := by
    decide +kernel
  have hagain : (step (Reference.chrome.run ops).2
      (.parseLicense (Reference.sessionId 1) Reference.honestResponse)).1 = .ok .done := by
    decide +kernel
  obtain ⟨s, hs⟩ := Option.isSome_iff_exists.mp hopen
  obtain ⟨e, he⟩ := h ops _ s _ _ _ _ hs hhistory
  rw [he] at hagain
  cases hagain

end WidevineCdm
