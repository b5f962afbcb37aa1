import WidevineCdm.Session.PendingLedger
import WidevineCdm.Spec.Vault
import WidevineCdm.System.Failures

/-!
# The CDM refines a vault

Accounts are sessions, requests are the pending challenges with the
serialised request as their message, and a licence response redeems a
request, or spills some of its keys when the key extraction loop breaks off.
Every event of a run is explained by one action of the vault (`Explains`),
read off the bytes that crossed the interface where they show it: the request
id and message of a challenge, the request id and the key ids and types of a
licence. `cdm_refines_vault` matches every run with a history of the vault,
which `History.booked` of `Spec.Vault` then reads.
-/

namespace WidevineCdm

open Lib Proto Spec

variable {P : Platform}

/-- The vault of a CDM. -/
abbrev CdmVault := Vault Bytes Bytes Bytes Key

abbrev CdmAction := Action Bytes Bytes Bytes Key

/-! ## Representation -/

/-- The account of a session: its keys, and for every pending request the
message its context was derived from. -/
structure SessionState.Represents (s : SessionState) (a : Account Bytes Bytes Key) : Prop where
  keys : a.keys = s.keys
  requests : ∀ r, s.contexts.lookup r = (a.requests r).map deriveContext

/-- The accounts of a vault are the sessions of the object. -/
def Impl.Represents (impl : Impl P) (v : CdmVault) : Prop :=
  ∀ S, Option.Rel SessionState.Represents (impl.sessions.lookup S) (v.account S)

theorem represents_fresh (device : Device) (rsaKey : P.PKey) (clientId : P.ClientIdentification) :
    (Impl.fresh device rsaKey clientId : Impl P).Represents Vault.empty := by
  intro S
  rw [Impl.fresh, Finmap.lookup_empty]
  exact .none

namespace Impl.Represents

variable {impl : Impl P} {v : CdmVault} (h : impl.Represents v)

include h

theorem account_some {S : Bytes} {s : SessionState} (hs : impl.sessions.lookup S = some s) :
    ∃ a, v.account S = some a ∧ s.Represents a := by
  have hS := h S
  rw [hs] at hS
  cases ha : v.account S with
  | none =>
    rw [ha] at hS
    cases hS
  | some a =>
    rw [ha] at hS
    cases hS with
    | some hsa => exact ⟨a, rfl, hsa⟩

theorem account_none {S : Bytes} (hnone : impl.sessions.lookup S = none) :
    v.account S = none := by
  have hS := h S
  rw [hnone] at hS
  cases ha : v.account S with
  | none => rfl
  | some a =>
    rw [ha] at hS
    cases hS

theorem store {S : Bytes} {s : SessionState} {a : Account Bytes Bytes Key}
    (hs : s.Represents a) : (impl.store S s).Represents (v.put S (some a)) := by
  intro T
  by_cases hT : T = S
  · rw [hT, store_lookup_self, Vault.put_self]
    exact .some hs
  · rw [store_lookup_ne hT, Vault.put_ne hT]
    exact h T

theorem erase (S : Bytes) :
    ({ impl with sessions := impl.sessions.erase S } : Impl P).Represents (v.put S none) := by
  intro T
  by_cases hT : T = S
  · rw [hT, Finmap.lookup_erase, Vault.put_self]
    exact .none
  · rw [Finmap.lookup_erase_ne hT, Vault.put_ne hT]
    exact h T

/-- Storing a session with the keys and contexts it had. -/
theorem store_same {S : Bytes} {s t : SessionState} (hs : impl.sessions.lookup S = some s)
    (hkeys : t.keys = s.keys) (hcontexts : t.contexts = s.contexts) :
    (impl.store S t).Represents v := by
  intro T
  by_cases hT : T = S
  · obtain ⟨a, ha, hsa⟩ := h.account_some hs
    rw [hT, store_lookup_self, ha]
    exact .some ⟨hsa.keys.trans hkeys.symm, hcontexts ▸ hsa.requests⟩
  · rw [store_lookup_ne hT]
    exact h T

end Impl.Represents

namespace SessionState.Represents

variable {s : SessionState} {a : Account Bytes Bytes Key} (h : s.Represents a)

include h

theorem pushKeys (keys : List Key) : (s.pushKeys keys).Represents (a.add keys) where
  keys := congrArg (· ++ keys) h.keys
  requests := h.requests

theorem insert (r msg : Bytes) :
    ({ s with contexts := s.contexts.insert r (deriveContext msg) } : SessionState).Represents
      (a.put r (some msg)) where
  keys := h.keys
  requests r' := by
    show (s.contexts.insert r (deriveContext msg)).lookup r'
      = (Function.update a.requests r (some msg) r').map deriveContext
    by_cases hr : r' = r
    · rw [hr, Finmap.lookup_insert, Function.update_self]
      rfl
    · rw [Finmap.lookup_insert_of_ne _ hr, Function.update_of_ne hr]
      exact h.requests r'

theorem erase (r : Bytes) :
    ({ s with contexts := s.contexts.erase r } : SessionState).Represents (a.put r none) where
  keys := h.keys
  requests r' := by
    show (s.contexts.erase r).lookup r' = (Function.update a.requests r none r').map deriveContext
    by_cases hr : r' = r
    · rw [hr, Finmap.lookup_erase, Function.update_self]
      rfl
    · rw [Finmap.lookup_erase_ne hr, Function.update_of_ne hr]
      exact h.requests r'

/-- The request behind a stored context is open. -/
theorem isSome {r : Bytes} {context : Context} (hr : s.contexts.lookup r = some context) :
    (a.requests r).isSome := by
  have hrequest := h.requests r
  rw [hr] at hrequest
  rw [← Option.isSome_map, ← hrequest]
  rfl

end SessionState.Represents

/-! ## Explanations -/

/-- The keys `get_keys` picks out for a type. -/
def selectKeys (type : String) (keys : List Key) : List Key :=
  if type.isEmpty then keys else keys.filter fun key => key.type == type

/-- What an event says has happened to the vault `v`. -/
inductive Explains (P : Platform) (v : CdmVault) : CdmAction → Event → Prop where
  | opened (id : Bytes) : Explains P v (.opened id) (Event.opened id)
  | closed (S : Bytes) : Explains P v (.closed S) (.closeSession S, .ok .done)
  | issued {c r msg : Bytes} (hcarried : carried P c = some (r, msg)) (S : Bytes) (pssh : Pssh)
      (licenseType : LicenseType) (privacyMode : Bool) :
    Explains P v (.issued S r msg)
      (.getLicenseChallenge S pssh licenseType privacyMode, .ok (.challenge c))
  | redeemed {licenseResponse : Bytes} {signedMessage : SignedMessage} {license : License}
      (hdec : decodeLicense (P := P) licenseResponse = .ok (signedMessage, license))
      {keys : List Key} (hkeys : keyLabels keys = license.labels) (S : Bytes) :
    Explains P v (.redeemed S license.requestIdD keys) (.parseLicense S licenseResponse, .ok .done)
  | spilled {licenseResponse : Bytes} {signedMessage : SignedMessage} {license : License}
      (hdec : decodeLicense (P := P) licenseResponse = .ok (signedMessage, license))
      {keys : List Key}
      (hkeys : keyLabels keys <+: license.labels ∧ keyLabels keys ≠ license.labels)
      (S : Bytes) (e : Exn) :
    Explains P v (.spilled S license.requestIdD keys)
      (.parseLicense S licenseResponse, .error (e.rethrow "Failed to extract keys: "))
  | certified {S : Bytes} (hopen : (v.account S).isSome) (certificate : Bytes) :
    Explains P v .idle (.setServiceCertificate S certificate, .ok .done)
  | read {S : Bytes} {a : Account Bytes Bytes Key} (ha : v.account S = some a) (type : String) :
    Explains P v .idle (.getKeys S type, .ok (.keys (selectKeys type a.keys)))
  | unknown {op : Op} {S : Bytes} (htarget : op.target = some S) (hnone : v.account S = none) :
    Explains P v .idle (op, .error invalidSession)
  | refused {op : Op} {e : Exn} (hmessage : OneOf op.messages e) (he : Known e) :
    Explains P v .idle (op, .error e)

/-- A step of the vault and the event it explains. -/
def Explained (P : Platform) (v : CdmVault) (label : CdmAction × Event) (w : CdmVault) : Prop :=
  v.Step label.1 w ∧ Explains P v label.1 label.2

/-! ## The step lemma -/

/-- A step is matched by the vault: it takes a step that explains the event,
ends up representing the object, and has used the ids the events opened. -/
def Matched (P : Platform) (v : CdmVault) (event : Event) (impl' : Impl P) : Prop :=
  ∃ action w, Explained P v (action, event) w ∧ impl'.Represents w ∧
    ∀ id ∈ w.used, id ∈ v.used ∨ event = Event.opened id

theorem matched_idle {v : CdmVault} {event : Event} {impl' : Impl P}
    (h : Explains P v .idle event) (hrep : impl'.Represents v) : Matched P v event impl' :=
  ⟨.idle, v, ⟨.idle v, h⟩, hrep, fun _ hid => .inl hid⟩

/-- Every call but `parse_license` is matched, provided a new id is unused. -/
theorem Transition.matched (hcodec : P.LawfulCodec) {impl impl' : Impl P} {op : Op}
    {outcome : Except Exn Reply} (h : Transition impl op outcome impl')
    (hop : ∀ S licenseResponse, op ≠ .parseLicense S licenseResponse)
    (hmessages : ∀ e, outcome = .error e → OneOf op.messages e) {v : CdmVault}
    (hrep : impl.Represents v) (hfresh : ∀ id, (op, outcome) = Event.opened id → id ∉ v.used) :
    Matched P v (op, outcome) impl' := by
  cases h with
  | full hfull => exact matched_idle (.refused (hmessages _ rfl) (by decide)) hrep
  | noEntropy hroom => exact matched_idle (.refused (hmessages _ rfl) (by decide)) hrep
  | opened random hroom =>
    refine ⟨.opened _, _, ⟨.opened (hfresh _ rfl), .opened _⟩, ?_, ?_⟩
    · exact hrep.store ⟨rfl, fun r => Finmap.lookup_empty r⟩
    · intro id hid
      rcases Set.mem_insert_iff.mp hid with rfl | hid
      · exact .inr rfl
      · exact .inl hid
  | closed S =>
    exact ⟨.closed S, _, ⟨.closed v S, .closed S⟩, hrep.erase S, fun _ hid => .inl hid⟩
  | unknown htarget hnone => exact matched_idle (.unknown htarget (hrep.account_none hnone)) hrep
  | certified hs certificate =>
    obtain ⟨a, ha, -⟩ := hrep.account_some hs
    refine matched_idle (.certified ?_ certificate) (hrep.store_same hs rfl rfl)
    rw [ha]
    rfl
  | refused htarget hs he => exact matched_idle (.refused (hmessages _ rfl) he) hrep
  | @challenged S s hs pssh licenseType privacyMode c hc =>
    obtain ⟨a, ha, hsa⟩ := hrep.account_some hs
    exact ⟨.issued S c.requestId c.msg, _,
      ⟨.issued ha _ _, .issued (carried_challenge hcodec hc) S pssh licenseType privacyMode⟩,
      hrep.store (hsa.insert c.requestId c.msg), fun _ hid => .inl hid⟩
  | accepted hs hdec hctx keys => exact absurd rfl (hop _ _)
  | interrupted hs keys he => exact absurd rfl (hop _ _)
  | keysRead hs type =>
    obtain ⟨a, ha, hsa⟩ := hrep.account_some hs
    refine matched_idle ?_ hrep
    rw [← hsa.keys]
    exact .read ha type

/-- A call of `parse_license` is matched. -/
theorem Delivery.matched {M M' : Machine P} {S licenseResponse : Bytes} {s : SessionState}
    {outcome : Except Exn Reply} (hs : M.impl.sessions.lookup S = some s)
    (h : Delivery M S licenseResponse s outcome M')
    (hmessages : ∀ e, outcome = .error e →
      OneOf (Op.parseLicense S licenseResponse).messages e)
    {v : CdmVault} (hrep : M.impl.Represents v) :
    Matched P v (.parseLicense S licenseResponse, outcome) M'.impl := by
  obtain ⟨a, ha, hsa⟩ := hrep.account_some hs
  cases h with
  | refused he host => exact matched_idle (.refused (hmessages _ rfl) he) hrep
  | @complete opened host host' keys ho hloop =>
    obtain ⟨hdec, context, h₁, h₂, hctx, -⟩ := openLicense_ok.mp ho
    exact ⟨.redeemed S opened.license.requestIdD keys, _,
      ⟨.redeemed ha (hsa.isSome hctx) keys, .redeemed hdec (keyLabels_complete hloop) S⟩,
      hrep.store ((hsa.pushKeys keys).erase _), fun _ hid => .inl hid⟩
  | @brokenOff opened host host' keys e ho hloop =>
    obtain ⟨hdec, context, h₁, h₂, hctx, -⟩ := openLicense_ok.mp ho
    exact ⟨.spilled S opened.license.requestIdD keys, _,
      ⟨.spilled ha (hsa.isSome hctx) keys, .spilled hdec (keyLabels_brokenOff hloop) S e⟩,
      hrep.store (hsa.pushKeys keys), fun _ hid => .inl hid⟩

/-- The simulation relation: the object is where its history leads, and the
vault represents it and has used no id but those that were returned. -/
structure Simulates (history : List Event) (M : Machine P) (v : CdmVault) : Prop where
  lifecycle : Lifecycle history M.impl
  represents : M.impl.Represents v
  used : ∀ id ∈ v.used, Event.opened id ∈ history

/-- **The step lemma** of the simulation: within `2 ^ 32` generated ids every
call is matched. -/
theorem simulates_step (hcodec : P.LawfulCodec) {history : List Event} {M : Machine P}
    {v : CdmVault} (h : Simulates history M v) (op : Op)
    (hfew : (history ++ [(op, (step M op).1)]).countP generated < 2 ^ 32) :
    ∃ label w, Prod.snd label = (op, (step M op).1) ∧ Explained P v label w ∧
      Simulates (history ++ [(op, (step M op).1)]) (step M op).2 w := by
  have hlifecycle := lifecycle_step (step_transition M op) h.lifecycle
  have hmatched : Matched P v (op, (step M op).1) (step M op).2.impl := by
    by_cases hparse : ∃ S licenseResponse, op = .parseLicense S licenseResponse
    · obtain ⟨S, licenseResponse, rfl⟩ := hparse
      cases hs : M.impl.sessions.lookup S with
      | none =>
        rw [step_unknown rfl hs]
        exact matched_idle (.unknown rfl (h.represents.account_none hs)) h.represents
      | some s =>
        exact (step_delivery hs licenseResponse).matched hs (fun e => step_messages) h.represents
    · refine (step_transition M op).matched hcodec ?_ (fun e => step_messages) h.represents ?_
      · intro S licenseResponse hop
        exact hparse ⟨S, licenseResponse, hop⟩
      · -- an id that was returned before is not returned again
        intro id heq hused
        obtain ⟨before, between, hsplit⟩ := List.append_of_mem (h.used id hused)
        rw [heq, hsplit] at hlifecycle hfew
        rw [List.append_assoc, List.cons_append] at hlifecycle hfew
        exact hlifecycle.not_twice hfew rfl
  obtain ⟨action, w, hexplained, hrep, hused⟩ := hmatched
  refine ⟨(action, (op, (step M op).1)), w, rfl, hexplained, hlifecycle, hrep, ?_⟩
  intro id hid
  rcases hused id hid with hid | hid
  · exact List.mem_append_left _ (h.used id hid)
  · rw [hid]
    exact List.mem_append_right _ (List.mem_singleton.mpr rfl)

/-- The run lemma: a run is matched by a trace of the vault. -/
theorem simulates_run (hcodec : P.LawfulCodec) (start : Start P) (ops : List Op)
    (hops : ops.count .openSession < 2 ^ 32) :
    ∃ labels v, labels.map Prod.snd = (start.run ops).1 ∧
      Trace (Explained P) Vault.empty labels v ∧
      Simulates (start.run ops).1 (start.run ops).2 v := by
  have hfew := lt_of_le_of_lt (countP_generated_le start ops) hops
  have hstart : Simulates [] start.machine (Vault.empty : CdmVault) :=
    { lifecycle := lifecycle_fresh start.device start.rsaKey start.clientId
      represents := represents_fresh start.device start.rsaKey start.clientId
      used := fun id hid => absurd hid (Set.notMem_empty id) }
  have hbound : ∀ (history : List Event) e, (history ++ [e]).countP generated < 2 ^ 32 →
      history.countP generated < 2 ^ 32 := by
    intro history e h
    rw [List.countP_append] at h
    omega
  exact simulation_run (f := step (P := P)) (R := Simulates) (A := Explained P)
    (fun history => history.countP generated < 2 ^ 32) hbound
    Prod.snd (fun _ _ _ op h hin => simulates_step hcodec h op hin) hstart ops hfew

/-- The actions that explain a run are a history of the vault. -/
theorem explained_history {labels : List (CdmAction × Event)} {v : CdmVault}
    (h : Trace (Explained P) Vault.empty labels v) : History (labels.map Prod.fst) v :=
  h.map fun _ _ _ hstep => hstep.1

/-! ## Main result -/

/-- **The CDM refines a vault.** Every run with fewer than `2 ^ 32` calls of
`open_session` is a history of the vault, each event explained by one action,
and the vault it leads to represents the object: the same accounts, with the
same keys, and with the pending requests for open requests. -/
theorem cdm_refines_vault (hcodec : P.LawfulCodec) (start : Start P) (ops : List Op)
    (hops : ops.count .openSession < 2 ^ 32) :
    ∃ labels v, labels.map Prod.snd = (start.run ops).1 ∧
      Trace (Explained P) Vault.empty labels v ∧ (start.run ops).2.impl.Represents v := by
  obtain ⟨labels, v, hlabels, htrace, hsim⟩ := simulates_run hcodec start ops hops
  exact ⟨labels, v, hlabels, htrace, hsim.represents⟩

/-- The recorded exchange as a history of the vault. -/
theorem cdm_refines_vault_exchange :
    ∃ labels v, labels.map Prod.snd = (Reference.chrome.run Reference.exchange).1 ∧
      Trace (Explained (Reference.platform Reference.nominal)) Vault.empty labels v ∧
      (Reference.chrome.run Reference.exchange).2.impl.Represents v :=
  cdm_refines_vault (Reference.lawfulCodec Reference.nominal) Reference.chrome Reference.exchange
    (by decide)

end WidevineCdm
