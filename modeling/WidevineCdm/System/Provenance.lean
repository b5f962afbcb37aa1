import WidevineCdm.License.Delivery
import WidevineCdm.Session.PendingLedger

/-!
# Where keys come from

Every key a session holds can be traced back: to a response given to it since
it was opened, to a container of the licence in it, to the challenge the
licence answers, which was pending at that moment, and to the chain of
cryptographic calls between them. So no key enters a session without a
challenge of its own, and none survives the closing of the session.
-/

namespace WidevineCdm

open Lib Proto

variable {P : Platform}

/-! ## One step of the key's history -/

theorem Start.run_snoc (start : Start P) (ops : List Op) (op : Op) :
    start.run (ops ++ [op]) =
      ((start.run ops).1 ++ [(op, (step (start.run ops).2 op).1)],
        (step (start.run ops).2 op).2) := by
  rw [Start.run, runFrom_append]
  rfl

/-- A key found in a session after a call other than `parse_license` on it was
there before, and the call neither opened nor closed the session. -/
theorem Transition.key_kept {impl impl' : Impl P} {op : Op} {outcome : Except Exn Reply}
    (h : Transition impl op outcome impl') {S : Bytes} {s' : SessionState}
    (hs' : impl'.sessions.lookup S = some s') {key : Key} (hkey : key ∈ s'.keys)
    (hop : ∀ licenseResponse, op ≠ .parseLicense S licenseResponse) :
    restarts S (op, outcome) = false ∧ ∃ s, impl.sessions.lookup S = some s ∧ key ∈ s.keys := by
  -- storing a session with the keys it had
  have hstored : ∀ {T : Bytes} {t t' : SessionState}, impl.sessions.lookup T = some t →
      (impl.store T t').sessions.lookup S = some s' → t'.keys = t.keys →
      ∃ s, impl.sessions.lookup S = some s ∧ key ∈ s.keys := by
    intro T t t' ht hlookup hkeys
    by_cases hT : S = T
    · subst hT
      rw [store_lookup_self] at hlookup
      rw [← Option.some.inj hlookup, hkeys] at hkey
      exact ⟨t, ht, hkey⟩
    · rw [store_lookup_ne hT] at hlookup
      exact ⟨s', hlookup, hkey⟩
  cases h with
  | full hfull => exact ⟨rfl, s', hs', hkey⟩
  | noEntropy hroom => exact ⟨rfl, s', hs', hkey⟩
  | opened random hroom =>
    by_cases hid : S = sessionIdOf random impl.count.sessionCounter
    · rw [hid, store_lookup_self] at hs'
      rw [← Option.some.inj hs'] at hkey
      cases hkey
    · rw [store_lookup_ne hid] at hs'
      exact ⟨decide_eq_false (Ne.symm hid), s', hs', hkey⟩
  | closed T =>
    by_cases hT : S = T
    · rw [hT, Finmap.lookup_erase] at hs'
      cases hs'
    · rw [Finmap.lookup_erase_ne hT] at hs'
      exact ⟨decide_eq_false (Ne.symm hT), s', hs', hkey⟩
  | @unknown op T htarget hnone =>
    refine ⟨?_, s', hs', hkey⟩
    cases op with
    | openSession => cases htarget
    | closeSession T => cases htarget
    | _ => rfl
  | certified ht certificate => exact ⟨rfl, hstored ht hs' rfl⟩
  | @refused op T t e htarget ht he =>
    refine ⟨?_, s', hs', hkey⟩
    cases op with
    | openSession => cases htarget
    | closeSession T => cases htarget
    | _ => rfl
  | challenged ht privacyMode hc => exact ⟨rfl, hstored ht hs' rfl⟩
  | @accepted T t ht licenseResponse signedMessage license hdec context hctx keys =>
    have hT : S ≠ T := by
      rintro rfl
      exact hop licenseResponse rfl
    rw [store_lookup_ne hT] at hs'
    exact ⟨rfl, s', hs', hkey⟩
  | @interrupted T t ht licenseResponse keys e he =>
    have hT : S ≠ T := by
      rintro rfl
      exact hop licenseResponse rfl
    rw [store_lookup_ne hT] at hs'
    exact ⟨rfl, s', hs', hkey⟩
  | keysRead ht type => exact ⟨rfl, s', hs', hkey⟩

/-- A key found after a `parse_license` was there before, or its loop pushed
it. -/
theorem key_pushed {M : Machine P} {S licenseResponse : Bytes} {s' : SessionState} {key : Key}
    (hs' : (step M (.parseLicense S licenseResponse)).2.impl.sessions.lookup S = some s')
    (hkey : key ∈ s'.keys) :
    ∃ s, M.impl.sessions.lookup S = some s ∧ (key ∈ s.keys ∨ ∃ opened host,
      exec (openLicense M.impl.rsaKey s.contexts licenseResponse) M.host = (.ok opened, host) ∧
      key ∈ (extractAll opened.derived.encKey opened.license.key host).1.1) := by
  cases hs : M.impl.sessions.lookup S with
  | none =>
    rw [step_unknown rfl hs, hs] at hs'
    cases hs'
  | some s =>
    refine ⟨s, rfl, ?_⟩
    have hdelivery := step_delivery hs licenseResponse
    generalize (step M (.parseLicense S licenseResponse)).1 = outcome at hdelivery
    generalize (step M (.parseLicense S licenseResponse)).2 = M' at hdelivery hs'
    -- the loop appends to the keys of the session, however it ends
    have happended : ∀ {opened : OpenedLicense} {host host' : Host P} {keys : List Key}
        {failure : Option Exn},
        exec (openLicense M.impl.rsaKey s.contexts licenseResponse) M.host = (.ok opened, host) →
        extractAll opened.derived.encKey opened.license.key host = ((keys, failure), host') →
        key ∈ s.keys ++ keys → key ∈ s.keys ∨ ∃ opened host,
          exec (openLicense M.impl.rsaKey s.contexts licenseResponse) M.host
            = (.ok opened, host) ∧
          key ∈ (extractAll opened.derived.encKey opened.license.key host).1.1 := by
      intro opened host host' keys failure ho hloop hin
      refine (List.mem_append.mp hin).imp_right fun hin => ⟨opened, host, ho, ?_⟩
      rw [hloop]
      exact hin
    cases hdelivery with
    | refused he host =>
      rw [hs] at hs'
      rw [Option.some.inj hs']
      exact .inl hkey
    | complete ho hloop =>
      rw [store_lookup_self] at hs'
      rw [← Option.some.inj hs'] at hkey
      exact happended ho hloop hkey
    | brokenOff ho hloop =>
      rw [store_lookup_self] at hs'
      rw [← Option.some.inj hs'] at hkey
      exact happended ho hloop hkey

/-! ## Provenance -/

/-- The chain from a response to a key: the licence in the response and a
container of it, the message of the challenge it answers, the session key, the
encryption key derived from both, and the decrypted container. -/
def DecryptedFrom (rsaKey : P.PKey) (licenseResponse : Bytes) (key : Key)
    (requestId msg : Bytes) : Prop :=
  ∃ signedMessage license container sessionKey encKey decrypted,
    decodeLicense (P := P) licenseResponse = .ok (signedMessage, license) ∧
    license.requestIdD = requestId ∧ container ∈ license.key ∧
    Yields (unwrapSessionKey rsaKey signedMessage) sessionKey ∧
    Yields (deriveKey (P := P) sessionKey (deriveContext msg).encContext 1) encKey ∧
    Yields (Crypto.aesCbcDecrypt (P := P) encKey container.ivD container.keyD) decrypted ∧
    key = container.toKey decrypted

/-- The encryption key of an opened licence is the first block derived. -/
theorem deriveKeys_encKey {encContext macContext sessionKey : Bytes} {derived : DerivedKeys}
    {host host' : Host P}
    (h : exec (deriveKeys encContext macContext sessionKey) host = (.ok derived, host')) :
    Yields (deriveKey (P := P) sessionKey encContext 1) derived.encKey := by
  obtain ⟨encKey, h₁, henc, h⟩ := exec_bind_eq_ok.mp h
  obtain ⟨macServer1, h₂, -, h⟩ := exec_bind_eq_ok.mp h
  obtain ⟨macServer2, h₃, -, h⟩ := exec_bind_eq_ok.mp h
  obtain ⟨macClient3, h₄, -, h⟩ := exec_bind_eq_ok.mp h
  obtain ⟨macClient4, h₅, -, h⟩ := exec_bind_eq_ok.mp h
  cases h
  exact yields_of_exec henc

/-- The challenge for `r` with the message `msg` is the latest in `S`, and
nothing since opened or closed the session or used the request up. -/
def IsPending (P : Platform) (history : List Event) (S r msg : Bytes) : Prop :=
  ∃ before challenge after, history = before ++ challenge :: after ∧
    issued P S r challenge = some msg ∧
    ∀ e ∈ after, issued P S r e = none ∧ accepts P S r e = false ∧ restarts S e = false

/-- A stored context was derived from a pending challenge. -/
theorem isPending_of_lookup (hcodec : P.LawfulCodec) (start : Start P) (ops : List Op)
    {S r : Bytes} {s : SessionState} (hs : (start.run ops).2.impl.sessions.lookup S = some s)
    {context : Context} (hcontext : s.contexts.lookup r = some context) :
    ∃ msg, context = deriveContext msg ∧ IsPending P (start.run ops).1 S r msg := by
  have hpending : (start.run ops).2.impl.pending S r = some context := by
    rw [Impl.pending, hs]
    exact hcontext
  rw [(pending_run hcodec start ops).slots, Option.map_eq_some_iff] at hpending
  obtain ⟨msg, hledger, rfl⟩ := hpending
  obtain ⟨before, challenge, after, hsplit, hissued, hafter⟩ := ledger_eq_some_iff.mp hledger
  exact ⟨msg, rfl, before, challenge, after, hsplit, pendingEffect_write.mp hissued,
    fun e he => pendingEffect_keep.mp (hafter e he)⟩

/-- A key that a loop pushed, traced back to the response. -/
theorem decryptedFrom_loop {rsaKey : P.PKey} {contexts : Finmap fun _ : Bytes => Context}
    {licenseResponse msg : Bytes} {opened : OpenedLicense} {host host' : Host P}
    (ho : exec (openLicense rsaKey contexts licenseResponse) host = (.ok opened, host'))
    (hcontext : contexts.lookup opened.license.requestIdD = some (deriveContext msg)) {key : Key}
    (hkey : key ∈ (extractAll opened.derived.encKey opened.license.key host').1.1) :
    DecryptedFrom rsaKey licenseResponse key opened.license.requestIdD msg := by
  obtain ⟨hdec, context, h₁, h₂, hctx, hunwrap, hderive, -⟩ := openLicense_ok.mp ho
  rw [hcontext] at hctx
  rw [← Option.some.inj hctx] at hderive
  obtain ⟨container, hcontainer, decrypted, hdecrypted, rfl⟩ := mem_extractAll hkey
  exact ⟨opened.signedMessage, opened.license, container, opened.sessionKey,
    opened.derived.encKey, decrypted, hdec, rfl, hcontainer, yields_of_exec hunwrap,
    deriveKeys_encKey hderive, hdecrypted, rfl⟩

/-- A key found after a `parse_license` was there before, or came with it. -/
theorem key_after_parse (hcodec : P.LawfulCodec) (start : Start P) (ops : List Op)
    {S licenseResponse : Bytes} {s' : SessionState} {key : Key}
    (hs' : (step (start.run ops).2 (.parseLicense S licenseResponse)).2.impl.sessions.lookup S
      = some s') (hkey : key ∈ s'.keys) :
    (∃ s, (start.run ops).2.impl.sessions.lookup S = some s ∧ key ∈ s.keys) ∨
      ∃ requestId msg, IsPending P (start.run ops).1 S requestId msg ∧
        DecryptedFrom start.rsaKey licenseResponse key requestId msg := by
  obtain ⟨s, hs, hin | ⟨opened, host, ho, hin⟩⟩ := key_pushed hs' hkey
  · exact .inl ⟨s, hs, hin⟩
  · obtain ⟨-, context, h₁, h₂, hctx, -⟩ := openLicense_ok.mp ho
    obtain ⟨msg, rfl, hpending⟩ := isPending_of_lookup hcodec start ops hs hctx
    rw [(pending_run hcodec start ops).rsaKey_eq] at ho
    exact .inr ⟨_, msg, hpending, decryptedFrom_loop ho hctx hin⟩

/-! ## Main result -/

/-- **Provenance of keys.** For every key of an open session of a reachable
state the run contains a call of `parse_license` on that session, with no
opening or closing of the session after it, whose response carried the key:
the licence names a request that was pending in the session at that moment,
and the key is what the container decrypts to, the padding removed, under the
key derived from the session key and the message of that very challenge. -/
theorem key_provenance (hcodec : P.LawfulCodec) (start : Start P) (ops : List Op) {S : Bytes}
    {s : SessionState} (hs : (start.run ops).2.impl.sessions.lookup S = some s) {key : Key}
    (hkey : key ∈ s.keys) :
    ∃ earlier licenseResponse later requestId msg,
      ops = earlier ++ .parseLicense S licenseResponse :: later ∧
      IsPending P (start.run earlier).1 S requestId msg ∧
      DecryptedFrom start.rsaKey licenseResponse key requestId msg ∧
      ∀ e ∈ (runFrom step (start.run (earlier ++ [.parseLicense S licenseResponse])).2 later).1,
        restarts S e = false := by
  induction ops using List.reverseRecOn generalizing s with
  | nil =>
    cases (Finmap.lookup_empty S).symm.trans hs
  | append_singleton init op ih =>
    rw [start.run_snoc] at hs
    -- a key that was there before keeps its history, one event longer
    have hkept : restarts S (op, (step (start.run init).2 op).1) = false →
        (∃ t, (start.run init).2.impl.sessions.lookup S = some t ∧ key ∈ t.keys) →
        ∃ earlier licenseResponse later requestId msg,
          init ++ [op] = earlier ++ .parseLicense S licenseResponse :: later ∧
          IsPending P (start.run earlier).1 S requestId msg ∧
          DecryptedFrom start.rsaKey licenseResponse key requestId msg ∧
          ∀ e ∈ (runFrom step
              (start.run (earlier ++ [.parseLicense S licenseResponse])).2 later).1,
            restarts S e = false := by
      rintro hrestarts ⟨t, ht, hin⟩
      obtain ⟨earlier, licenseResponse, later, requestId, msg, hinit, hpending, hfrom, hlater⟩ :=
        ih ht hin
      refine ⟨earlier, licenseResponse, later ++ [op], requestId, msg, ?_, hpending, hfrom, ?_⟩
      · rw [hinit, List.append_assoc, List.cons_append]
      · have hreached : (start.run init).2
            = (runFrom step (start.run (earlier ++ [.parseLicense S licenseResponse])).2
              later).2 := by
          rw [hinit, ← List.singleton_append, ← List.append_assoc, Start.run, runFrom_append]
          rfl
        intro e he
        rw [runFrom_append] at he
        rcases List.mem_append.mp he with he | he
        · exact hlater e he
        · rw [List.mem_singleton.mp he, ← hreached]
          exact hrestarts
    by_cases hparse : ∃ licenseResponse, op = .parseLicense S licenseResponse
    · obtain ⟨licenseResponse, rfl⟩ := hparse
      rcases key_after_parse hcodec start init hs hkey with hold | ⟨requestId, msg, hpending, hfrom⟩
      · exact hkept rfl hold
      · exact ⟨init, licenseResponse, [], requestId, msg, rfl, hpending, hfrom,
          fun e he => absurd he List.not_mem_nil⟩
    · obtain ⟨hrestarts, hold⟩ := (step_transition (start.run init).2 op).key_kept hs hkey
        fun licenseResponse heq => hparse ⟨licenseResponse, heq⟩
      exact hkept hrestarts hold

/-- The first key of the recorded exchange. -/
theorem key_provenance_exchange :
    ∃ key earlier licenseResponse later requestId msg,
      Reference.exchange
        = earlier ++ .parseLicense (Reference.sessionId 1) licenseResponse :: later ∧
      DecryptedFrom (P := Reference.platform Reference.nominal) () licenseResponse key requestId
        msg := by
  have hfirst : ((Reference.chrome.run Reference.exchange).2.impl.sessions.lookup
      (Reference.sessionId 1)).any fun s => !s.keys.isEmpty := by
    decide +kernel
  obtain ⟨s, hs, hkeys⟩ := (Option.any_eq_true _ _).mp hfirst
  rw [Bool.not_eq_true', List.isEmpty_eq_false_iff] at hkeys
  obtain ⟨key, hkey⟩ := List.exists_mem_of_ne_nil _ hkeys
  obtain ⟨earlier, licenseResponse, later, requestId, msg, hsplit, -, hfrom, -⟩ :=
    key_provenance (Reference.lawfulCodec Reference.nominal) Reference.chrome Reference.exchange hs
      hkey
  exact ⟨key, earlier, licenseResponse, later, requestId, msg, hsplit, hfrom⟩

end WidevineCdm
