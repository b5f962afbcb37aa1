import WidevineCdm.System.Noninterference
import WidevineCdm.System.Refinement

/-!
# The keys of a session are a log

What `get_keys` answers is determined by the licence responses the session
was given since it was opened: each one that was accepted appended a key for
every container of its licence, each one that broke off a key for some first
containers, and nothing else appended or removed any. This is what the books
of the vault say of its accounts, carried over to the CDM.
-/

namespace WidevineCdm

open Lib Proto Spec

variable {P : Platform}

/-! ## What an event delivered -/

/-- The event may have delivered the keys to the session `S`. -/
inductive Delivered (P : Platform) (S : Bytes) : Event → List Key → Prop where
  | complete {licenseResponse : Bytes} {signedMessage : SignedMessage} {license : License}
      (hdec : decodeLicense (P := P) licenseResponse = .ok (signedMessage, license))
      {keys : List Key} (hkeys : keyLabels keys = license.labels) :
    Delivered P S (.parseLicense S licenseResponse, .ok .done) keys
  | brokenOff {licenseResponse : Bytes} {signedMessage : SignedMessage} {license : License}
      (hdec : decodeLicense (P := P) licenseResponse = .ok (signedMessage, license))
      {keys : List Key}
      (hkeys : keyLabels keys <+: license.labels ∧ keyLabels keys ≠ license.labels) (e : Exn) :
    Delivered P S (.parseLicense S licenseResponse,
      .error (e.rethrow "Failed to extract keys: ")) keys
  | nothing {event : Event}
      (hevent : ∀ licenseResponse reply, event ≠ (.parseLicense S licenseResponse, .ok reply)) :
    Delivered P S event []

/-- An event delivered what the action that explains it adds. -/
theorem Explains.delivered {v : CdmVault} {action : CdmAction} {event : Event}
    (h : Explains P v action event) (S : Bytes) : Delivered P S event (action.keysFor S) := by
  cases h with
  | @redeemed licenseResponse signedMessage license hdec keys hkeys T =>
    rw [Action.keysFor]
    by_cases hT : T = S
    · rw [if_pos hT, hT]
      exact .complete hdec hkeys
    · rw [if_neg hT]
      refine .nothing fun _ _ heq => hT ?_
      exact (Op.parseLicense.inj (Prod.mk.inj heq).1).1
  | @spilled licenseResponse signedMessage license hdec keys hkeys T e =>
    rw [Action.keysFor]
    by_cases hT : T = S
    · rw [if_pos hT, hT]
      exact .brokenOff hdec hkeys e
    · rw [if_neg hT]
      exact .nothing (by rintro _ _ ⟨⟩)
  | opened id => exact .nothing (by rintro _ _ ⟨⟩)
  | closed T => exact .nothing (by rintro _ _ ⟨⟩)
  | issued hcarried T pssh licenseType privacyMode => exact .nothing (by rintro _ _ ⟨⟩)
  | certified hopen certificate => exact .nothing (by rintro _ _ ⟨⟩)
  | read ha type => exact .nothing (by rintro _ _ ⟨⟩)
  | unknown htarget hnone => exact .nothing (by rintro _ _ ⟨⟩)
  | refused hmessage he => exact .nothing (by rintro _ _ ⟨⟩)

/-- A call of `close_session` is explained by a close. -/
theorem Explains.closes {v : CdmVault} {action : CdmAction} {event : Event}
    (h : Explains P v action event) {S : Bytes} (hevent : event.1 = .closeSession S) :
    action = .closed S := by
  cases h with
  | closed T =>
    rw [Op.closeSession.inj hevent]
  | unknown htarget hnone =>
    obtain rfl : _ = Op.closeSession S := hevent
    cases htarget
  | refused hmessage he =>
    -- `close_session` has no message
    obtain rfl : _ = Op.closeSession S := hevent
    obtain ⟨what, hmem, -⟩ := hmessage
    cases hmem
  | _ => cases hevent

/-! ## Keys are only appended -/

/-- A call that neither closes nor reopens a session keeps it open and appends
to its keys. -/
theorem Transition.appends {impl impl' : Impl P} {op : Op} {outcome : Except Exn Reply}
    (h : Transition impl op outcome impl') {S : Bytes} {s : SessionState}
    (hs : impl.sessions.lookup S = some s) (hclose : op ≠ .closeSession S)
    (hopen : (op, outcome) ≠ Event.opened S) :
    ∃ s', impl'.sessions.lookup S = some s' ∧ s.keys <+: s'.keys := by
  have hstored : ∀ {T : Bytes} {t t' : SessionState}, impl.sessions.lookup T = some t →
      t.keys <+: t'.keys →
      ∃ s', (impl.store T t').sessions.lookup S = some s' ∧ s.keys <+: s'.keys := by
    intro T t t' ht hkeys
    by_cases hT : S = T
    · subst hT
      rw [hs] at ht
      rw [Option.some.inj ht]
      exact ⟨t', store_lookup_self .., hkeys⟩
    · exact ⟨s, by rw [store_lookup_ne hT, hs], List.prefix_refl _⟩
  cases h with
  | full hfull => exact ⟨s, hs, List.prefix_refl _⟩
  | noEntropy hroom => exact ⟨s, hs, List.prefix_refl _⟩
  | opened random hroom =>
    refine ⟨s, ?_, List.prefix_refl _⟩
    rw [store_lookup_ne]
    · exact hs
    · rintro rfl
      exact hopen rfl
  | closed T =>
    refine ⟨s, ?_, List.prefix_refl _⟩
    rw [← hs]
    refine Finmap.lookup_erase_ne ?_
    rintro rfl
    exact hclose rfl
  | unknown htarget hnone => exact ⟨s, hs, List.prefix_refl _⟩
  | certified ht certificate => exact hstored ht (List.prefix_refl _)
  | refused htarget ht he => exact ⟨s, hs, List.prefix_refl _⟩
  | challenged ht privacyMode hc => exact hstored ht (List.prefix_refl _)
  | accepted ht hdec hctx keys => exact hstored ht (List.prefix_append _ _)
  | interrupted ht keys he => exact hstored ht (List.prefix_append _ _)
  | keysRead ht type => exact ⟨s, hs, List.prefix_refl _⟩

/-- Along a run that neither closes nor reopens it a session's keys grow at
the end. -/
theorem appends_run {M : Machine P} {S : Bytes} {s : SessionState}
    (hs : M.impl.sessions.lookup S = some s) (later : List Op)
    (hkeep : ∀ e ∈ (runFrom step M later).1, e.1 ≠ .closeSession S ∧ e ≠ Event.opened S) :
    ∃ s', (runFrom step M later).2.impl.sessions.lookup S = some s' ∧ s.keys <+: s'.keys := by
  induction later generalizing M s with
  | nil => exact ⟨s, hs, List.prefix_refl _⟩
  | cons op later ih =>
    rw [runFrom_cons] at hkeep ⊢
    obtain ⟨hclose, hopen⟩ := hkeep _ List.mem_cons_self
    obtain ⟨s₁, hs₁, hgrown⟩ := (step_transition M op).appends hs hclose hopen
    obtain ⟨s₂, hs₂, hmore⟩ := ih hs₁ fun e he => hkeep e (List.mem_cons_of_mem _ he)
    exact ⟨s₂, hs₂, hgrown.trans hmore⟩

/-! ## Main result -/

/-- **The key log.** In every state reached with fewer than `2 ^ 32` calls of
`open_session`, the keys of an open session are what the events since it was
opened delivered, one after the other: an accepted response one key for each
container of its licence, a response that broke off keys for its first
containers but not for all. `get_keys` answers with those of the asked type,
in that order; and until the session is closed, later calls only append. -/
theorem key_log (hcodec : P.LawfulCodec) (start : Start P) (ops : List Op)
    (hops : ops.count .openSession < 2 ^ 32) {S : Bytes} {s : SessionState}
    (hs : (start.run ops).2.impl.sessions.lookup S = some s) :
    ∃ before after deliveries,
      (start.run ops).1 = before ++ Event.opened S :: after ∧
      (∀ e ∈ after, e.1 ≠ .closeSession S) ∧
      List.Forall₂ (Delivered P S) after deliveries ∧
      (∀ type, (step (start.run ops).2 (.getKeys S type)).1
        = .ok (.keys (selectKeys type deliveries.flatten))) ∧
      ∀ later, (ops ++ later).count .openSession < 2 ^ 32 →
        (∀ e ∈ (runFrom step (start.run ops).2 later).1, e.1 ≠ .closeSession S) →
        ∃ more, (step (runFrom step (start.run ops).2 later).2 (.getKeys S "")).1
          = .ok (.keys (deliveries.flatten ++ more)) := by
  obtain ⟨labels, v, hlabels, htrace, hsim⟩ := simulates_run hcodec start ops hops
  obtain ⟨a, ha, hsa⟩ := hsim.represents.account_some hs
  obtain ⟨actionsBefore, actionsSince, hsplit, hclosed, hkeys, -⟩ :=
    History.booked (explained_history htrace) S a ha
  -- split the explained events where the account was opened
  obtain ⟨labelsBefore, rest, rfl, -, hrest⟩ := List.map_eq_append_iff.mp hsplit
  obtain ⟨opening, since, rfl, hopening, rfl⟩ := List.map_eq_cons_iff.mp hrest
  have hopened : opening.2 = Event.opened S := by
    obtain ⟨u, w, -, hexplains⟩ := htrace.mem (List.mem_append_right _ List.mem_cons_self)
    rw [hopening] at hexplains
    generalize opening.2 = event at hexplains ⊢
    cases hexplains with
    | opened id => rfl
  have hexplained : ∀ label ∈ since, ∃ u, Explains P u label.1 label.2 := by
    intro label hlabel
    obtain ⟨u, w, -, hexplains⟩ :=
      htrace.mem (List.mem_append_right _ (List.mem_cons_of_mem _ hlabel))
    exact ⟨u, hexplains⟩
  have hlog : (since.map fun label => label.1.keysFor S).flatten = s.keys := by
    rw [← List.flatMap_def, ← List.flatMap_map, ← hkeys, hsa.keys]
  refine ⟨labelsBefore.map Prod.snd, since.map Prod.snd,
    since.map fun label => label.1.keysFor S, ?_, ?_, ?_, ?_, ?_⟩
  · rw [← hlabels, List.map_append, List.map_cons, hopened]
  · intro e he hclose
    obtain ⟨label, hlabel, rfl⟩ := List.mem_map.mp he
    obtain ⟨u, hexplains⟩ := hexplained label hlabel
    exact hclosed (hexplains.closes hclose ▸ List.mem_map_of_mem hlabel)
  · rw [List.forall₂_map_left_iff, List.forall₂_map_right_iff, List.forall₂_same]
    intro label hlabel
    obtain ⟨u, hexplains⟩ := hexplained label hlabel
    exact hexplains.delivered S
  · intro type
    rw [hlog, step, Op.run, exec_map, exec_getKeys hs]
    rfl
  · intro later hlater hkeep
    have hreopened := not_reopened start ops later hlater (by
      rw [Finmap.mem_keys, Finmap.mem_iff]
      exact ⟨s, hs⟩)
    obtain ⟨s', hs', more, hmore⟩ := appends_run hs later fun e he =>
      ⟨hkeep e he, fun heq => hreopened (heq ▸ he)⟩
    refine ⟨more, ?_⟩
    rw [hlog, hmore, step, Op.run, exec_map, exec_getKeys hs']
    rfl

/-- The log of the recorded exchange: one accepted response. -/
theorem key_log_exchange :
    ∃ before after deliveries,
      (Reference.chrome.run Reference.exchange).1
        = before ++ Event.opened (Reference.sessionId 1) :: after ∧
      List.Forall₂ (Delivered (Reference.platform Reference.nominal) (Reference.sessionId 1))
        after deliveries ∧
      (step (Reference.chrome.run Reference.exchange).2
        (.getKeys (Reference.sessionId 1) "CONTENT")).1
          = .ok (.keys (selectKeys "CONTENT" deliveries.flatten)) := by
  have hopen : ((Reference.chrome.run Reference.exchange).2.impl.sessions.lookup
      (Reference.sessionId 1)).isSome := by
    decide +kernel
  obtain ⟨s, hs⟩ := Option.isSome_iff_exists.mp hopen
  obtain ⟨before, after, deliveries, hsplit, -, hdelivered, hkeys, -⟩ :=
    key_log (Reference.lawfulCodec Reference.nominal) Reference.chrome Reference.exchange
      (by decide) hs
  exact ⟨before, after, deliveries, hsplit, hdelivered, hkeys "CONTENT"⟩

end WidevineCdm
