import WidevineCdm.License.Atomicity

/-!
# The order of licence responses

With primitives that answer the same whenever they are asked, what a response
does to a session is a `Settlement`: how the call ends, the keys it pushes and
the request it uses up. It depends on the session only through the context of
the request the licence names, and it changes nothing but the keys and that
context. So two responses in different sessions commute, and two responses in
one session for different requests commute up to the order of the keys.
-/

namespace WidevineCdm

open Lib Proto

variable {P : Platform}

/-! ## Determinism of the computations -/

theorem steady_ask {α : Type} {f : P.World → α × P.World} (h : ∀ w w', (f w).1 = (f w').1) :
    Steady (Crypto.ask f) := by
  intro s t
  exact congrArg Except.ok (h s.world t.world)

namespace Platform.Deterministic

variable (hdet : P.Deterministic)

include hdet

theorem primitives : Primitives P (fun m => Steady m) where
  succeeds call := steady_ask (hdet.succeeds call)
  evpPkeyDecrypt key ciphertext := steady_ask (hdet.evpPkeyDecrypt key ciphertext)
  cmacFinal key data := steady_ask (hdet.cmacFinal key data)
  hmac key data := steady_ask (hdet.hmac key data)
  evpDecryptUpdate ctx ciphertext inl := steady_ask (hdet.evpDecryptUpdate ctx ciphertext inl)

theorem openLicense (rsaKey : P.PKey) (contexts : Finmap fun _ : Bytes => Context)
    (licenseResponse : Bytes) : Steady (openLicense rsaKey contexts licenseResponse) :=
  hdet.primitives.openLicense (steady_closed Known) rsaKey contexts licenseResponse

theorem aesCbcDecrypt (key iv ciphertext : Bytes) :
    Steady (Crypto.aesCbcDecrypt (P := P) key iv ciphertext) := by
  refine steady_bind (steady_modify _) fun _ => ?_
  exact hdet.primitives.aesCbcDecrypt_calls (steady_closed Known) key iv ciphertext

theorem extractAll (encKey : Bytes) (cs : List KeyContainer) (h h' : Host P) :
    (extractAll encKey cs h).1 = (extractAll encKey cs h').1 := by
  induction cs generalizing h h' with
  | nil => rfl
  | cons c rest ih =>
    have hc := hdet.aesCbcDecrypt encKey c.ivD c.keyD h h'
    rw [WidevineCdm.extractAll, WidevineCdm.extractAll, exec_extractKey, exec_extractKey]
    rcases hr : exec (Crypto.aesCbcDecrypt encKey c.ivD c.keyD) h with ⟨r, g⟩
    rcases hr' : exec (Crypto.aesCbcDecrypt encKey c.ivD c.keyD) h' with ⟨r', g'⟩
    rw [hr, hr'] at hc
    obtain rfl : r = r' := hc
    cases r with
    | error e => rfl
    | ok decrypted =>
      show (c.toKey decrypted :: (WidevineCdm.extractAll encKey rest g).1.1,
          (WidevineCdm.extractAll encKey rest g).1.2)
        = (c.toKey decrypted :: (WidevineCdm.extractAll encKey rest g').1.1,
          (WidevineCdm.extractAll encKey rest g').1.2)
      rw [ih g g']

end Platform.Deterministic

/-! ## Settlements -/

/-- What a response does to a session: how the call ends, the keys it pushes
and the request whose context it removes. -/
structure Settlement where
  outcome : Except Exn Reply
  keys : List Key
  spent : Option Bytes

/-- The settlement of a response by a session with the given contexts. -/
def settlement (rsaKey : P.PKey) (contexts : Finmap fun _ : Bytes => Context)
    (licenseResponse : Bytes) (host : Host P) : Settlement :=
  match exec (openLicense rsaKey contexts licenseResponse) host with
  | (.error e, _) => ⟨.error e, [], none⟩
  | (.ok opened, host) =>
    match (extractAll opened.derived.encKey opened.license.key host).1 with
    | (keys, none) => ⟨.ok .done, keys, some opened.license.requestIdD⟩
    | (keys, some e) => ⟨.error (e.rethrow "Failed to extract keys: "), keys, none⟩

/-- The contexts left after a request was used up. -/
def remaining (contexts : Finmap fun _ : Bytes => Context) :
    Option Bytes → Finmap fun _ : Bytes => Context
  | none => contexts
  | some requestId => contexts.erase requestId

/-- The session after a settlement. -/
def SessionState.settle (s : SessionState) (t : Settlement) : SessionState :=
  { s.pushKeys t.keys with contexts := remaining s.contexts t.spent }

/-- `parse_license` as a function of the object and the world. -/
def Impl.parse (impl : Impl P) (S licenseResponse : Bytes) (host : Host P) :
    Except Exn Reply × Impl P :=
  match impl.sessions.lookup S with
  | none => (.error invalidSession, impl)
  | some s =>
    ((settlement impl.rsaKey s.contexts licenseResponse host).outcome,
      impl.store S (s.settle (settlement impl.rsaKey s.contexts licenseResponse host)))

/-- **A call of `parse_license` settles its response.** -/
theorem step_parse (M : Machine P) (S licenseResponse : Bytes) :
    ((step M (.parseLicense S licenseResponse)).1,
        (step M (.parseLicense S licenseResponse)).2.impl)
      = M.impl.parse S licenseResponse M.host := by
  unfold Impl.parse
  cases hs : M.impl.sessions.lookup S with
  | none => rw [step_unknown rfl hs]
  | some s =>
    rw [step, Op.run, exec_bind, exec_parseLicense hs]
    unfold settlement
    dsimp only
    rcases exec (openLicense M.impl.rsaKey s.contexts licenseResponse) M.host
      with ⟨e | opened, host⟩
    · show (_, M.impl) = (_, M.impl.store S (s.settle ⟨_, [], none⟩))
      rw [SessionState.settle, pushKeys_nil]
      exact congrArg (Prod.mk _) (store_self hs).symm
    · dsimp only
      rcases extractAll opened.derived.encKey opened.license.key host
        with ⟨⟨keys, failure⟩, host'⟩
      cases failure with
      | none => rfl
      | some e => rfl

/-- A settlement does not depend on the world. -/
theorem settlement_steady (hdet : P.Deterministic) (rsaKey : P.PKey)
    (contexts : Finmap fun _ : Bytes => Context) (licenseResponse : Bytes) (h h' : Host P) :
    settlement rsaKey contexts licenseResponse h
      = settlement rsaKey contexts licenseResponse h' := by
  have hopen := hdet.openLicense rsaKey contexts licenseResponse h h'
  unfold settlement
  rcases hr : exec (openLicense rsaKey contexts licenseResponse) h with ⟨r, g⟩
  rcases hr' : exec (openLicense rsaKey contexts licenseResponse) h' with ⟨r', g'⟩
  rw [hr, hr'] at hopen
  obtain rfl : r = r' := hopen
  cases r with
  | error e => rfl
  | ok opened =>
    dsimp only
    rw [hdet.extractAll opened.derived.encKey opened.license.key g g']

theorem parse_steady (hdet : P.Deterministic) (impl : Impl P) (S licenseResponse : Bytes)
    (h h' : Host P) : impl.parse S licenseResponse h = impl.parse S licenseResponse h' := by
  unfold Impl.parse
  cases impl.sessions.lookup S with
  | none => rfl
  | some s =>
    dsimp only
    rw [settlement_steady hdet impl.rsaKey s.contexts licenseResponse h h']

/-- A call settles its response as it would in any world. -/
theorem step_parse_in (hdet : P.Deterministic) (M : Machine P) (S licenseResponse : Bytes)
    (host : Host P) :
    ((step M (.parseLicense S licenseResponse)).1,
        (step M (.parseLicense S licenseResponse)).2.impl)
      = M.impl.parse S licenseResponse host := by
  rw [step_parse]
  exact parse_steady hdet M.impl S licenseResponse M.host host

/-- Two calls settle their responses one after the other, in one and the same
world. -/
theorem step_step_parse (hdet : P.Deterministic) (M : Machine P) (S r T q : Bytes) :
    ((step (step M (.parseLicense S r)).2 (.parseLicense T q)).1,
        (step (step M (.parseLicense S r)).2 (.parseLicense T q)).2.impl)
      = (M.impl.parse S r M.host).2.parse T q M.host := by
  rw [step_parse_in hdet _ T q M.host, ← step_parse M S r]

/-- A settlement reads one context: that of the request the licence names. -/
theorem settlement_contexts {contexts contexts' : Finmap fun _ : Bytes => Context}
    {licenseResponse : Bytes}
    (h : ∀ signedMessage license,
      decodeLicense (P := P) licenseResponse = .ok (signedMessage, license) →
        contexts'.lookup license.requestIdD = contexts.lookup license.requestIdD)
    (rsaKey : P.PKey) (host : Host P) :
    settlement rsaKey contexts' licenseResponse host
      = settlement rsaKey contexts licenseResponse host := by
  have hopen : exec (openLicense rsaKey contexts' licenseResponse) host
      = exec (openLicense rsaKey contexts licenseResponse) host := by
    rw [openLicense, openLicense, exec_bind, exec_bind, exec_liftExcept]
    rcases hdec : decodeLicense (P := P) licenseResponse with e | ⟨signedMessage, license⟩
    · rfl
    · dsimp only
      rw [h signedMessage license hdec]
  unfold settlement
  rw [hopen]

/-- A settlement uses up the request the licence names, or none. -/
theorem settlement_spent {rsaKey : P.PKey} {contexts : Finmap fun _ : Bytes => Context}
    {licenseResponse requestId : Bytes} {host : Host P}
    (h : (settlement rsaKey contexts licenseResponse host).spent = some requestId) :
    ∃ signedMessage license,
      decodeLicense (P := P) licenseResponse = .ok (signedMessage, license) ∧
        license.requestIdD = requestId := by
  unfold settlement at h
  rcases ho : exec (openLicense rsaKey contexts licenseResponse) host with ⟨e | opened, host'⟩
  · rw [ho] at h
    cases h
  · rw [ho] at h
    dsimp only at h
    rcases hloop : extractAll opened.derived.encKey opened.license.key host'
      with ⟨⟨keys, failure⟩, g⟩
    rw [hloop] at h
    cases failure with
    | none => exact ⟨opened.signedMessage, opened.license, (openLicense_ok.mp ho).1,
        Option.some.inj h⟩
    | some e => cases h

/-- The keys of a settlement are in container order. -/
theorem settlement_keys_order {rsaKey : P.PKey} {contexts : Finmap fun _ : Bytes => Context}
    {licenseResponse : Bytes} {signedMessage : SignedMessage} {license : License}
    (hdec : decodeLicense (P := P) licenseResponse = .ok (signedMessage, license))
    (host : Host P) :
    (settlement rsaKey contexts licenseResponse host).keys.map (fun key => (key.kid, key.type))
      <+: license.key.map fun c => (c.idD, c.typeD.name) := by
  unfold settlement
  rcases ho : exec (openLicense rsaKey contexts licenseResponse) host with ⟨e | opened, host'⟩
  · exact List.nil_prefix
  · obtain ⟨hdec', -⟩ := openLicense_ok.mp ho
    rw [hdec] at hdec'
    obtain ⟨-, hlicense⟩ := Prod.mk.inj (Except.ok.inj hdec')
    have horder := extractAll_keys_order opened.derived.encKey opened.license.key host'
    rw [hlicense]
    dsimp only
    rcases hloop : extractAll opened.derived.encKey opened.license.key host'
      with ⟨⟨keys, failure⟩, g⟩
    rw [hloop] at horder
    cases failure with
    | none => exact horder
    | some e => exact horder

/-! ## Commutation -/

theorem parse_lookup_ne {S T : Bytes} (h : T ≠ S) (impl : Impl P) (licenseResponse : Bytes)
    (host : Host P) :
    (impl.parse S licenseResponse host).2.sessions.lookup T = impl.sessions.lookup T := by
  unfold Impl.parse
  cases impl.sessions.lookup S with
  | none => rfl
  | some s => exact store_lookup_ne h _ _

theorem parse_rsaKey (impl : Impl P) (S licenseResponse : Bytes) (host : Host P) :
    (impl.parse S licenseResponse host).2.rsaKey = impl.rsaKey := by
  unfold Impl.parse
  cases impl.sessions.lookup S <;> rfl

theorem store_comm {S T : Bytes} (h : S ≠ T) (impl : Impl P) (s t : SessionState) :
    (impl.store S s).store T t = (impl.store T t).store S s := by
  unfold Impl.store
  rw [Finmap.insert_insert_of_ne _ h]

/-- Responses in different sessions commute. -/
theorem parse_comm_of_ne {S₁ S₂ : Bytes} (hne : S₁ ≠ S₂) (impl : Impl P) (r₁ r₂ : Bytes)
    (host : Host P) :
    (impl.parse S₁ r₁ host).2.parse S₂ r₂ host =
      ((impl.parse S₂ r₂ host).1, ((impl.parse S₂ r₂ host).2.parse S₁ r₁ host).2) := by
  -- neither call changes what the other one looks at
  have h₁ := parse_lookup_ne hne impl r₂ host
  have h₂ := parse_lookup_ne (Ne.symm hne) impl r₁ host
  have k₁ := parse_rsaKey impl S₂ r₂ host
  have k₂ := parse_rsaKey impl S₁ r₁ host
  cases hs₁ : impl.sessions.lookup S₁ with
  | none =>
    have hfst : impl.parse S₁ r₁ host = (.error invalidSession, impl) := by
      rw [Impl.parse, hs₁]
    have hsnd : (impl.parse S₂ r₂ host).2.parse S₁ r₁ host
        = (.error invalidSession, (impl.parse S₂ r₂ host).2) := by
      rw [Impl.parse, h₁, hs₁]
    rw [hfst, hsnd]
  | some s₁ =>
    cases hs₂ : impl.sessions.lookup S₂ with
    | none =>
      have hfst : impl.parse S₂ r₂ host = (.error invalidSession, impl) := by
        rw [Impl.parse, hs₂]
      have hsnd : (impl.parse S₁ r₁ host).2.parse S₂ r₂ host
          = (.error invalidSession, (impl.parse S₁ r₁ host).2) := by
        rw [Impl.parse, h₂, hs₂]
      rw [hfst, hsnd]
    | some s₂ =>
      rw [Impl.parse, h₂, hs₂, k₂, Impl.parse.eq_def (impl.parse S₂ r₂ host).2, h₁, hs₁, k₁,
        Impl.parse, hs₁, Impl.parse, hs₂]
      dsimp only
      rw [store_comm hne]

/-- Removing the context of one request leaves that of another. -/
theorem remaining_lookup {contexts : Finmap fun _ : Bytes => Context} {spent : Option Bytes}
    {requestId : Bytes} (h : spent ≠ some requestId) :
    (remaining contexts spent).lookup requestId = contexts.lookup requestId := by
  cases spent with
  | none => rfl
  | some r =>
    refine Finmap.lookup_erase_ne fun heq => h ?_
    rw [heq]

theorem remaining_comm (contexts : Finmap fun _ : Bytes => Context) (a b : Option Bytes) :
    remaining (remaining contexts a) b = remaining (remaining contexts b) a := by
  cases a <;> cases b <;> first | rfl | exact Finmap.erase_erase

/-- The requests of the licences in two responses differ, or one response is
not a licence. -/
def Unrelated (P : Platform) (r₁ r₂ : Bytes) : Prop :=
  ∀ m₁ l₁ m₂ l₂, decodeLicense (P := P) r₁ = .ok (m₁, l₁) →
    decodeLicense (P := P) r₂ = .ok (m₂, l₂) → l₁.requestIdD ≠ l₂.requestIdD

theorem Unrelated.symm {r₁ r₂ : Bytes} (h : Unrelated P r₁ r₂) : Unrelated P r₂ r₁ :=
  fun m₂ l₂ m₁ l₁ h₂ h₁ heq => h m₁ l₁ m₂ l₂ h₁ h₂ heq.symm

/-- The settlement of a response is not changed by an unrelated one. -/
theorem settlement_after {r₁ r₂ : Bytes} (h : Unrelated P r₁ r₂) (rsaKey : P.PKey)
    (contexts : Finmap fun _ : Bytes => Context) (host : Host P) :
    settlement rsaKey (remaining contexts (settlement rsaKey contexts r₁ host).spent) r₂ host
      = settlement rsaKey contexts r₂ host := by
  refine settlement_contexts (fun m₂ l₂ hdec₂ => remaining_lookup fun hspent => ?_) rsaKey host
  obtain ⟨m₁, l₁, hdec₁, hid⟩ := settlement_spent hspent
  exact h m₁ l₁ m₂ l₂ hdec₁ hdec₂ hid

/-- Two responses in one session. -/
theorem parse_parse {impl : Impl P} {S : Bytes} {s : SessionState}
    (hs : impl.sessions.lookup S = some s) {r₁ r₂ : Bytes} (h : Unrelated P r₁ r₂)
    (host : Host P) :
    (impl.parse S r₁ host).2.parse S r₂ host =
      ((impl.parse S r₂ host).1,
        impl.store S ((s.settle (settlement impl.rsaKey s.contexts r₁ host)).settle
          (settlement impl.rsaKey s.contexts r₂ host))) := by
  have hafter := settlement_after h impl.rsaKey s.contexts host
  have h₁ : impl.parse S r₁ host = ((settlement impl.rsaKey s.contexts r₁ host).outcome,
      impl.store S (s.settle (settlement impl.rsaKey s.contexts r₁ host))) := by
    rw [Impl.parse, hs]
  have h₂ : impl.parse S r₂ host = ((settlement impl.rsaKey s.contexts r₂ host).outcome,
      impl.store S (s.settle (settlement impl.rsaKey s.contexts r₂ host))) := by
    rw [Impl.parse, hs]
  rw [h₁, h₂, Impl.parse, store_lookup_self]
  show ((settlement impl.rsaKey (remaining s.contexts _) r₂ host).outcome,
    (impl.store S _).store S (SessionState.settle _
      (settlement impl.rsaKey (remaining s.contexts _) r₂ host))) = _
  rw [hafter, store_store]

/-! ## Main result -/

/-- Two objects with the same counter and the same sessions, but for the order
of each session's keys. -/
structure SameUpToKeyOrder (a b : Impl P) : Prop where
  device : a.device = b.device
  rsaKey : a.rsaKey = b.rsaKey
  clientId : a.clientId = b.clientId
  sessionCounter : a.sessionCounter = b.sessionCounter
  ids : ∀ T, a.sessions.lookup T = none ↔ b.sessions.lookup T = none
  sessions : ∀ T s t, a.sessions.lookup T = some s → b.sessions.lookup T = some t →
    s.id = t.id ∧ s.number = t.number ∧ s.serviceCertificate = t.serviceCertificate ∧
      s.contexts = t.contexts ∧ s.keys.Perm t.keys

theorem SameUpToKeyOrder.refl (a : Impl P) : SameUpToKeyOrder a a where
  device := rfl
  rsaKey := rfl
  clientId := rfl
  sessionCounter := rfl
  ids T := Iff.rfl
  sessions T s t hs ht := by
    obtain rfl := Option.some.inj (hs.symm.trans ht)
    exact ⟨rfl, rfl, rfl, rfl, List.Perm.refl _⟩

/-- Settling two responses in either order differs in the order of keys only. -/
theorem sameUpToKeyOrder_settle (impl : Impl P) (S : Bytes) (s : SessionState)
    (t₁ t₂ : Settlement) :
    SameUpToKeyOrder (impl.store S ((s.settle t₁).settle t₂))
      (impl.store S ((s.settle t₂).settle t₁)) where
  device := rfl
  rsaKey := rfl
  clientId := rfl
  sessionCounter := rfl
  ids T := by
    by_cases hT : T = S
    · rw [hT, store_lookup_self, store_lookup_self]
      exact iff_of_false (Option.some_ne_none _) (Option.some_ne_none _)
    · rw [store_lookup_ne hT, store_lookup_ne hT]
  sessions T a b ha hb := by
    by_cases hT : T = S
    · rw [hT, store_lookup_self] at ha hb
      rw [← Option.some.inj ha, ← Option.some.inj hb]
      refine ⟨rfl, rfl, rfl, remaining_comm _ _ _, ?_⟩
      show (s.keys ++ t₁.keys ++ t₂.keys).Perm (s.keys ++ t₂.keys ++ t₁.keys)
      rw [List.append_assoc, List.append_assoc]
      exact List.Perm.append_left _ List.perm_append_comm
    · rw [store_lookup_ne hT] at ha hb
      obtain rfl := Option.some.inj (ha.symm.trans hb)
      exact ⟨rfl, rfl, rfl, rfl, List.Perm.refl _⟩

/-- The session `S` is open and its keys are `keys`. -/
def HasKeys (M : Machine P) (S : Bytes) (keys : List Key) : Prop :=
  ∃ s, M.impl.sessions.lookup S = some s ∧ s.keys = keys

/-- The keys are those of a licence in the response: their ids and types are
the ids and types of its first containers, in order. -/
def InContainerOrder (P : Platform) (licenseResponse : Bytes) (keys : List Key) : Prop :=
  ∀ signedMessage license,
    decodeLicense (P := P) licenseResponse = .ok (signedMessage, license) →
      keys.map (fun key => (key.kid, key.type)) <+: license.key.map fun c => (c.idD, c.typeD.name)

/-- **Order independence of licence responses.** Two calls of `parse_license`
on different sessions, or on responses whose licences name different requests
or do not decode, end the same way in either order and leave the same object
up to the order of keys: the very same object when the sessions differ, and in
one session the keys of each call together, in container order, after the keys
of the calls before. -/
theorem order_independent (hdet : P.Deterministic) (M : Machine P) (S₁ r₁ S₂ r₂ : Bytes)
    (hind : S₁ ≠ S₂ ∨ Unrelated P r₁ r₂) :
    (step (step M (.parseLicense S₂ r₂)).2 (.parseLicense S₁ r₁)).1
      = (step M (.parseLicense S₁ r₁)).1 ∧
    (step (step M (.parseLicense S₁ r₁)).2 (.parseLicense S₂ r₂)).1
      = (step M (.parseLicense S₂ r₂)).1 ∧
    SameUpToKeyOrder (step (step M (.parseLicense S₁ r₁)).2 (.parseLicense S₂ r₂)).2.impl
      (step (step M (.parseLicense S₂ r₂)).2 (.parseLicense S₁ r₁)).2.impl ∧
    (S₁ ≠ S₂ → (step (step M (.parseLicense S₁ r₁)).2 (.parseLicense S₂ r₂)).2.impl
      = (step (step M (.parseLicense S₂ r₂)).2 (.parseLicense S₁ r₁)).2.impl) ∧
    (S₁ = S₂ → ∀ keys, HasKeys M S₁ keys → ∃ keys₁ keys₂,
      InContainerOrder P r₁ keys₁ ∧ InContainerOrder P r₂ keys₂ ∧
      HasKeys (step M (.parseLicense S₁ r₁)).2 S₁ (keys ++ keys₁) ∧
      HasKeys (step M (.parseLicense S₂ r₂)).2 S₁ (keys ++ keys₂) ∧
      HasKeys (step (step M (.parseLicense S₁ r₁)).2 (.parseLicense S₂ r₂)).2 S₁
        (keys ++ keys₁ ++ keys₂) ∧
      HasKeys (step (step M (.parseLicense S₂ r₂)).2 (.parseLicense S₁ r₁)).2 S₁
        (keys ++ keys₂ ++ keys₁)) := by
  -- both orders as functions of the object, in one and the same world
  have hout : ∀ S r, (step M (.parseLicense S r)).1 = (M.impl.parse S r M.host).1 := by
    intro S r
    rw [← step_parse]
  have himpl : ∀ S r, (step M (.parseLicense S r)).2.impl = (M.impl.parse S r M.host).2 := by
    intro S r
    rw [← step_parse]
  have hout₂ : ∀ S r T q, (step (step M (.parseLicense S r)).2 (.parseLicense T q)).1
      = ((M.impl.parse S r M.host).2.parse T q M.host).1 := by
    intro S r T q
    rw [← step_step_parse hdet]
  have himpl₂ : ∀ S r T q, (step (step M (.parseLicense S r)).2 (.parseLicense T q)).2.impl
      = ((M.impl.parse S r M.host).2.parse T q M.host).2 := by
    intro S r T q
    rw [← step_step_parse hdet]
  unfold HasKeys
  rw [hout₂, hout₂, himpl₂, himpl₂, hout, hout, himpl, himpl]
  by_cases hS : S₁ = S₂
  · -- one session: the licences name different requests, so each call finds its
    -- context in either order
    subst hS
    have hrel : Unrelated P r₁ r₂ := hind.resolve_left fun hne => hne rfl
    cases hs : M.impl.sessions.lookup S₁ with
    | none =>
      have hnone : ∀ r, M.impl.parse S₁ r M.host = (.error invalidSession, M.impl) := by
        intro r
        rw [Impl.parse, hs]
      rw [hnone r₁, hnone r₂, hnone r₁]
      refine ⟨rfl, rfl, .refl _, fun _ => rfl, ?_⟩
      rintro - keys ⟨s, hs', -⟩
      cases hs'
    | some s =>
      rw [parse_parse hs hrel, parse_parse hs hrel.symm]
      refine ⟨rfl, rfl, sameUpToKeyOrder_settle .., fun hne => absurd rfl hne, ?_⟩
      rintro - keys ⟨s', hs', rfl⟩
      obtain rfl := Option.some.inj hs'
      have hstored : ∀ r, (M.impl.parse S₁ r M.host).2.sessions.lookup S₁
          = some (s.settle (settlement M.impl.rsaKey s.contexts r M.host)) := by
        intro r
        rw [Impl.parse, hs]
        exact store_lookup_self ..
      refine ⟨(settlement M.impl.rsaKey s.contexts r₁ M.host).keys,
        (settlement M.impl.rsaKey s.contexts r₂ M.host).keys, ?_, ?_,
        ⟨_, hstored r₁, rfl⟩, ⟨_, hstored r₂, rfl⟩,
        ⟨_, store_lookup_self .., rfl⟩, ⟨_, store_lookup_self .., rfl⟩⟩
      · intro signedMessage license hdec
        exact settlement_keys_order hdec _
      · intro signedMessage license hdec
        exact settlement_keys_order hdec _
  · -- two sessions: the calls write to different places
    have h₁₂ := parse_comm_of_ne hS M.impl r₁ r₂ M.host
    have h₂₁ := parse_comm_of_ne (Ne.symm hS) M.impl r₂ r₁ M.host
    obtain ⟨hout₁₂, hsame⟩ := Prod.ext_iff.mp h₁₂
    obtain ⟨hout₂₁, -⟩ := Prod.ext_iff.mp h₂₁
    refine ⟨hout₂₁, hout₁₂, ?_, fun _ => hsame, fun heq => absurd heq hS⟩
    rw [hsame]
    exact .refl _

/-- The session of the recorded exchange with a second request pending. -/
def Reference.twoPending : Machine (Reference.platform Reference.nominal) :=
  { (Reference.chrome.run Reference.oneSession).2 with
    impl := (Reference.chrome.run Reference.oneSession).2.impl.modifySession
      (Reference.sessionId 1) fun s =>
        { s with contexts := s.contexts.insert [0x01] (deriveContext Reference.requestMsg) } }

/-- A licence for the second request. -/
def Reference.secondResponse : Bytes :=
  Reference.response { id := some { requestId := some [0x01] }, key := [Reference.forgedContainer] }
    none none

/-- The response of the recorded exchange delivered to two sessions; and the
responses to two requests of one session, which adds the keys of both. -/
theorem order_independent_exchange :
    (step (step (Reference.chrome.run Reference.twoSessions).2
        (.parseLicense (Reference.sessionId 1) Reference.honestResponse)).2
        (.parseLicense (Reference.sessionId 2) Reference.honestResponse)).2.impl
      = (step (step (Reference.chrome.run Reference.twoSessions).2
        (.parseLicense (Reference.sessionId 2) Reference.honestResponse)).2
        (.parseLicense (Reference.sessionId 1) Reference.honestResponse)).2.impl ∧
    (step (step Reference.twoPending
        (.parseLicense (Reference.sessionId 1) Reference.secondResponse)).2
        (.parseLicense (Reference.sessionId 1) Reference.honestResponse)).1 = .ok .done ∧
    ∃ keys₁ keys₂,
      HasKeys (step (step Reference.twoPending
        (.parseLicense (Reference.sessionId 1) Reference.honestResponse)).2
        (.parseLicense (Reference.sessionId 1) Reference.secondResponse)).2
        (Reference.sessionId 1) (keys₁ ++ keys₂) ∧
      HasKeys (step (step Reference.twoPending
        (.parseLicense (Reference.sessionId 1) Reference.secondResponse)).2
        (.parseLicense (Reference.sessionId 1) Reference.honestResponse)).2
        (Reference.sessionId 1) (keys₂ ++ keys₁) := by
  have hdet := Reference.deterministic Reference.nominal_steady
  have hunrelated : Unrelated (Reference.platform Reference.nominal) Reference.honestResponse
      Reference.secondResponse := by
    intro m₁ l₁ m₂ l₂ h₁ h₂
    have hsent := Reference.decodeLicense_response Reference.nominal
      { id := some { requestId := some [0x01] }, key := [Reference.forgedContainer] } none none
    obtain ⟨-, rfl⟩ := Prod.mk.inj (Except.ok.inj (hsent.symm.trans h₂))
    rw [← Reference.license_of_honestResponse h₁]
    decide
  have haccepted : (step Reference.twoPending
      (.parseLicense (Reference.sessionId 1) Reference.honestResponse)).1 = .ok .done := by
    decide +kernel
  have hempty : HasKeys Reference.twoPending (Reference.sessionId 1) [] :=
    Option.map_eq_some_iff.mp (by decide +kernel)
  obtain ⟨-, -, -, hsame, -⟩ := order_independent hdet
    (Reference.chrome.run Reference.twoSessions).2 (Reference.sessionId 1) Reference.honestResponse
    (Reference.sessionId 2) Reference.honestResponse (.inl (by decide))
  obtain ⟨hout, -, -, -, hkeys⟩ := order_independent hdet Reference.twoPending
    (Reference.sessionId 1) Reference.honestResponse (Reference.sessionId 1)
    Reference.secondResponse (.inr hunrelated)
  obtain ⟨keys₁, keys₂, -, -, -, -, h₁₂, h₂₁⟩ := hkeys rfl [] hempty
  exact ⟨hsame (by decide), hout.trans haccepted, keys₁, keys₂, h₁₂, h₂₁⟩

end WidevineCdm
