import WidevineCdm.Format.Integers
import WidevineCdm.Lib.Ledger
import WidevineCdm.Reference.Platform

/-!
# The lifecycle of sessions

A session id is outstanding in a history when some `open_session` returned it
and no `close_session` on it followed. The invariant `Lifecycle` ties the
object to its history: the keys of `sessions_` are the outstanding ids, the
32-bit counter is the number of generated ids modulo `2 ^ 32`, and every id
ends in the counter value it was generated with. Freshness never rests on
randomness: two equal ids have equal last four bytes, so a multiple of
`2 ^ 32` ids were generated from one to the other.
-/

namespace WidevineCdm

open Lib

variable {P : Platform}

/-! ## Outstanding ids -/

/-- The call went through `generate_session_id`: an `open_session` that was
not refused for the number of open sessions. -/
def generated : Event → Bool
  | (.openSession, outcome) => outcome ≠ .error tooManySessions
  | _ => false

/-- The id was returned by `open_session` and not closed since. -/
def Outstanding (history : List Event) (id : Bytes) : Prop :=
  ∃ before after, history = before ++ .opened id :: after ∧
    ∀ e ∈ after, e.1 ≠ .closeSession id

/-- What an event does to the presence of `id` in `sessions_`. -/
def presenceEffect (id : Bytes) : Event → SlotEffect Unit
  | (.openSession, .ok (.sessionId id')) => if id' = id then .write () else .keep
  | (.closeSession id', _) => if id' = id then .erase else .keep
  | _ => .keep

theorem presenceEffect_write {id : Bytes} {e : Event} (h : presenceEffect id e = .write ()) :
    e = Event.opened id := by
  unfold presenceEffect at h
  split at h
  · split at h
    · next hid => rw [hid]
    · cases h
  · split at h <;> cases h
  · cases h

theorem presenceEffect_erase {id : Bytes} {e : Event} :
    presenceEffect id e = .erase ↔ e.1 = .closeSession id := by
  constructor
  · intro h
    unfold presenceEffect at h
    split at h
    · split at h <;> cases h
    · split at h
      · next hid => rw [hid]
      · cases h
    · cases h
  · obtain ⟨op, outcome⟩ := e
    rintro rfl
    exact if_pos rfl

/-- Outstanding ids are the ones whose presence the ledger records. -/
theorem outstanding_iff {history : List Event} {id : Bytes} :
    Outstanding history id ↔ ledger (presenceEffect id) none history = some () := by
  constructor
  · rintro ⟨before, after, rfl, hafter⟩
    have hopen : presenceEffect id (Event.opened id) = .write () := if_pos rfl
    rw [ledger_append, ledger_cons, hopen]
    have hsome : (ledger (presenceEffect id) (some ()) after).isSome :=
      ledger_isSome (fun e he herase => hafter e he (presenceEffect_erase.mp herase)) rfl
    exact Option.eq_some_iff_get_eq.mpr ⟨hsome, rfl⟩
  · intro h
    obtain ⟨before, e, after, rfl, he, hafter⟩ := ledger_eq_some_iff.mp h
    refine ⟨before, after, by rw [presenceEffect_write he], ?_⟩
    intro e' he' hclose
    have hkeep := hafter e' he'
    rw [presenceEffect_erase.mpr hclose] at hkeep
    cases hkeep

/-! ## What a step does to the set of sessions -/

/-- The fields of a session that never change. -/
def SameSession (s t : SessionState) : Prop := t.id = s.id ∧ t.number = s.number

/-- A step counts exactly the ids it generates. -/
theorem Transition.counter {impl impl' : Impl P} {op : Op} {outcome : Except Exn Reply}
    (h : Transition impl op outcome impl') :
    impl'.sessionCounter
      = if generated (op, outcome) then impl.sessionCounter + 1 else impl.sessionCounter := by
  cases h with
  | full hfull => rfl
  | noEntropy hroom => rfl
  | opened random hroom => rfl
  | closed S => rfl
  | @unknown op S htarget hnone =>
    cases op with
    | openSession => cases htarget
    | _ => rfl
  | certified hs certificate => rfl
  | @refused op S s e htarget hs he =>
    cases op with
    | openSession => cases htarget
    | _ => rfl
  | challenged hs privacyMode hc => rfl
  | accepted hs hdec hctx keys => rfl
  | interrupted hs keys he => rfl
  | keysRead hs type => rfl

/-- The presence of an id among the keys of `sessions_`. -/
def Impl.present (impl : Impl P) (id : Bytes) : Option Unit :=
  (impl.sessions.lookup id).map fun _ => ()

theorem present_eq_some_iff {impl : Impl P} {id : Bytes} :
    impl.present id = some () ↔ id ∈ impl.sessions.keys := by
  rw [Finmap.mem_keys, Finmap.mem_iff]
  cases h : impl.sessions.lookup id <;> simp [Impl.present, h]

/-- The presence of an id after storing a session that was present already. -/
theorem present_store {impl : Impl P} {S : Bytes} {s : SessionState}
    (hs : impl.sessions.lookup S = some s) (t : SessionState) (id : Bytes) :
    (impl.store S t).present id = impl.present id := by
  unfold Impl.present
  by_cases hid : id = S
  · rw [hid, store_lookup_self, hs]
    rfl
  · rw [store_lookup_ne hid]

/-- A step does to the presence of an id what its event says. -/
theorem Transition.presence {impl impl' : Impl P} {op : Op} {outcome : Except Exn Reply}
    (h : Transition impl op outcome impl') (id : Bytes) :
    impl'.present id = (presenceEffect id (op, outcome)).apply (impl.present id) := by
  cases h with
  | full hfull => rfl
  | noEntropy hroom => rfl
  | opened random hroom =>
    by_cases hid : sessionIdOf random impl.count.sessionCounter = id
    · have hwrite : presenceEffect id (.openSession,
          .ok (.sessionId (sessionIdOf random impl.count.sessionCounter))) = .write () :=
        if_pos hid
      rw [hwrite, hid, Impl.present, store_lookup_self]
      rfl
    · have hkeep : presenceEffect id (.openSession,
          .ok (.sessionId (sessionIdOf random impl.count.sessionCounter))) = .keep := if_neg hid
      rw [hkeep, Impl.present, store_lookup_ne (Ne.symm hid)]
      rfl
  | closed S =>
    by_cases hid : S = id
    · have herase : presenceEffect id (.closeSession S, .ok .done) = .erase := if_pos hid
      rw [herase, hid, Impl.present, Finmap.lookup_erase]
      rfl
    · have hkeep : presenceEffect id (.closeSession S, .ok .done) = .keep := if_neg hid
      rw [hkeep, Impl.present, Finmap.lookup_erase_ne (Ne.symm hid)]
      rfl
  | @unknown op S htarget hnone =>
    cases op with
    | openSession => cases htarget
    | closeSession => cases htarget
    | _ => rfl
  | certified hs certificate => exact present_store hs _ id
  | @refused op S s e htarget hs he =>
    cases op with
    | openSession => cases htarget
    | closeSession => cases htarget
    | _ => rfl
  | challenged hs privacyMode hc => exact present_store hs _ id
  | accepted hs hdec hctx keys => exact present_store hs _ id
  | interrupted hs keys he => exact present_store hs _ id
  | keysRead hs type => rfl

/-- Storing a session under its own id keeps every stored session's id and
number. -/
theorem origin_store {impl : Impl P} {S T : Bytes} {s s' t : SessionState}
    (hs : impl.sessions.lookup S = some s)
    (ht : (impl.store S s').sessions.lookup T = some t) (hsame : SameSession s s') :
    ∃ s, impl.sessions.lookup T = some s ∧ SameSession s t := by
  by_cases hT : T = S
  · subst hT
    rw [store_lookup_self] at ht
    rw [← Option.some.inj ht]
    exact ⟨s, hs, hsame⟩
  · rw [store_lookup_ne hT] at ht
    exact ⟨t, ht, rfl, rfl⟩

/-- A session found after a step was there before, or the step opened it. -/
theorem Transition.origin {impl impl' : Impl P} {op : Op} {outcome : Except Exn Reply}
    (h : Transition impl op outcome impl') {T : Bytes} {t : SessionState}
    (ht : impl'.sessions.lookup T = some t) :
    (∃ s, impl.sessions.lookup T = some s ∧ SameSession s t) ∨
      ∃ random, T = sessionIdOf random impl'.sessionCounter ∧
        t = newSession T impl'.sessionCounter := by
  cases h with
  | full hfull => exact .inl ⟨t, ht, rfl, rfl⟩
  | noEntropy hroom => exact .inl ⟨t, ht, rfl, rfl⟩
  | opened random hroom =>
    by_cases hT : T = sessionIdOf random impl.count.sessionCounter
    · subst hT
      rw [store_lookup_self] at ht
      exact .inr ⟨random, rfl, (Option.some.inj ht).symm⟩
    · rw [store_lookup_ne hT] at ht
      exact .inl ⟨t, ht, rfl, rfl⟩
  | closed S =>
    by_cases hT : T = S
    · rw [hT, Finmap.lookup_erase] at ht
      cases ht
    · rw [Finmap.lookup_erase_ne hT] at ht
      exact .inl ⟨t, ht, rfl, rfl⟩
  | unknown htarget hnone => exact .inl ⟨t, ht, rfl, rfl⟩
  | certified hs certificate => exact .inl (origin_store hs ht ⟨rfl, rfl⟩)
  | refused htarget hs he => exact .inl ⟨t, ht, rfl, rfl⟩
  | challenged hs privacyMode hc => exact .inl (origin_store hs ht ⟨rfl, rfl⟩)
  | accepted hs hdec hctx keys => exact .inl (origin_store hs ht ⟨rfl, rfl⟩)
  | interrupted hs keys he => exact .inl (origin_store hs ht ⟨rfl, rfl⟩)
  | keysRead hs type => exact .inl ⟨t, ht, rfl, rfl⟩

/-- What an `open_session` returned was made from the counter it left. -/
theorem Transition.returned {impl impl' : Impl P} {id : Bytes}
    (h : Transition impl .openSession (.ok (.sessionId id)) impl') :
    ∃ random, id = sessionIdOf random (impl.sessionCounter + 1) := by
  cases h with
  | opened random hroom => exact ⟨random, rfl⟩

/-- No step lets the number of sessions pass 16. -/
theorem Transition.bounded {impl impl' : Impl P} {op : Op} {outcome : Except Exn Reply}
    (h : Transition impl op outcome impl') (hle : impl.sessions.keys.card ≤ 16) :
    impl'.sessions.keys.card ≤ 16 := by
  by_cases hopen : ∃ id, (op, outcome) = Event.opened id
  · obtain ⟨id, heq⟩ := hopen
    obtain ⟨rfl, rfl⟩ := Prod.mk.inj heq
    have hroom : impl.sessions.keys.card < 16 := by
      cases h with
      | opened random hroom => exact hroom
    have hsub : impl'.sessions.keys ⊆ insert id impl.sessions.keys := by
      intro T hT
      have hp := h.presence T
      rw [present_eq_some_iff.mpr hT] at hp
      rw [Finset.mem_insert]
      by_cases hid : T = id
      · exact .inl hid
      · have hkeep : presenceEffect T (Event.opened id) = .keep :=
          if_neg (Ne.symm hid)
        rw [hkeep] at hp
        exact .inr (present_eq_some_iff.mp hp.symm)
    have hcard := Finset.card_le_card hsub
    have hinsert := Finset.card_insert_le id impl.sessions.keys
    omega
  · have hsub : impl'.sessions.keys ⊆ impl.sessions.keys := by
      intro T hT
      have hp := h.presence T
      rw [present_eq_some_iff.mpr hT] at hp
      cases heff : presenceEffect T (op, outcome) with
      | keep =>
        rw [heff] at hp
        exact present_eq_some_iff.mp hp.symm
      | write u => exact absurd ⟨T, presenceEffect_write heff⟩ hopen
      | erase =>
        rw [heff] at hp
        cases hp
    exact le_trans (Finset.card_le_card hsub) hle

/-! ## The invariant -/

/-- How the object and its history belong together. -/
structure Lifecycle (history : List Event) (impl : Impl P) : Prop where
  counter : impl.sessionCounter = UInt32.ofNat (history.countP generated)
  returned : ∀ before id after,
    history = before ++ .opened id :: after →
      ∃ random, id = sessionIdOf random (UInt32.ofNat (before.countP generated + 1))
  stored : ∀ id s, impl.sessions.lookup id = some s →
    s.id = id ∧ ∃ random, id = sessionIdOf random s.number
  present : ∀ id, impl.present id = ledger (presenceEffect id) none history
  bounded : impl.sessions.keys.card ≤ 16

theorem ofNat_countP_generated (history : List Event) (e : Event) :
    UInt32.ofNat ((history ++ [e]).countP generated)
      = if generated e then UInt32.ofNat (history.countP generated) + 1
        else UInt32.ofNat (history.countP generated) := by
  rw [List.countP_append, List.countP_singleton]
  by_cases he : generated e
  · rw [if_pos he, if_pos he, UInt32.ofNat_add]
    rfl
  · rw [if_neg he, if_neg he, Nat.add_zero]

theorem lifecycle_fresh (device : Device) (rsaKey : P.PKey) (clientId : P.ClientIdentification) :
    Lifecycle [] (Impl.fresh device rsaKey clientId : Impl P) where
  counter := rfl
  returned before id after h := by
    have hlen := congrArg List.length h
    rw [List.length_append, List.length_cons] at hlen
    cases hlen
  stored id s h := by
    rw [Impl.fresh, Finmap.lookup_empty] at h
    cases h
  present id := rfl
  bounded := Nat.zero_le _

/-- **The step lemma** of the lifecycle invariant. -/
theorem lifecycle_step {history : List Event} {impl impl' : Impl P} {op : Op}
    {outcome : Except Exn Reply} (h : Transition impl op outcome impl')
    (hinv : Lifecycle history impl) : Lifecycle (history ++ [(op, outcome)]) impl' where
  counter := by rw [h.counter, hinv.counter, ofNat_countP_generated]
  returned before id after hsplit := by
    rcases List.eq_nil_or_concat after with rfl | ⟨after', last, rfl⟩
    · obtain ⟨rfl, heq⟩ := List.append_inj' hsplit rfl
      obtain ⟨rfl, rfl⟩ := Prod.mk.inj (List.head_eq_of_cons_eq heq)
      obtain ⟨random, hid⟩ := h.returned
      refine ⟨random, ?_⟩
      rw [hid, hinv.counter, UInt32.ofNat_add]
      rfl
    · have hsplit' : history ++ [(op, outcome)]
          = (before ++ .opened id :: after') ++ [last] := by
        rw [hsplit, List.concat_eq_append, List.append_assoc, List.cons_append]
      exact hinv.returned before id after' (List.append_inj_left' hsplit' rfl)
  stored id s hs := by
    rcases h.origin hs with ⟨s', hs', hid, hnumber⟩ | ⟨random, hid, rfl⟩
    · obtain ⟨hid', random, hrandom⟩ := hinv.stored id s' hs'
      exact ⟨hid.trans hid', random, by rw [hnumber]; exact hrandom⟩
    · exact ⟨rfl, random, hid⟩
  present id := by rw [h.presence, hinv.present, ledger_snoc]
  bounded := h.bounded hinv.bounded

/-- The invariant holds in every state of every run. -/
theorem lifecycle_run (start : Start P) (ops : List Op) :
    Lifecycle (start.run ops).1 (start.run ops).2.impl :=
  start.run_invariant (lifecycle_fresh ..) (fun _ _ _ _ _ => lifecycle_step) ops

/-! ## Consequences of the invariant -/

theorem sessionIdOf_counter {r₁ r₂ : List.Vector UInt8 12} {c₁ c₂ : UInt32}
    (h : sessionIdOf r₁ c₁ = sessionIdOf r₂ c₂) : c₁ = c₂ :=
  pushBe32_inj (List.append_inj h (by rw [r₁.toList_length, r₂.toList_length])).2

theorem sessionIdOf_length (random : List.Vector UInt8 12) (counter : UInt32) :
    (sessionIdOf random counter).length = 16 := by
  rw [sessionIdOf, List.length_append, random.toList_length, pushBe32_length]

namespace Lifecycle

variable {history : List Event} {impl : Impl P}

theorem mem_keys (hinv : Lifecycle history impl) {id : Bytes} :
    id ∈ impl.sessions.keys ↔ Outstanding history id := by
  rw [outstanding_iff, ← hinv.present, present_eq_some_iff]

theorem lookup_none (hinv : Lifecycle history impl) {id : Bytes} :
    impl.sessions.lookup id = none ↔ ¬ Outstanding history id := by
  rw [← hinv.mem_keys, Finmap.mem_keys, Finmap.lookup_eq_none]

/-- **Equal ids are `2 ^ 32` generated ids apart**, or a multiple of it. -/
theorem collision (hinv : Lifecycle history impl) {before between after : List Event}
    {id : Bytes} (h : history = before ++ Event.opened id
      :: (between ++ Event.opened id :: after)) :
    ∃ k, 0 < k ∧
      (between ++ [Event.opened id]).countP generated = k * 2 ^ 32 := by
  have hgen : generated (Event.opened id) = true := rfl
  obtain ⟨r₁, hid₁⟩ := hinv.returned _ _ _ h
  obtain ⟨r₂, hid₂⟩ := hinv.returned
    (before ++ Event.opened id :: between) id after (by rw [h]; simp)
  have hcounter := congrArg UInt32.toNat (sessionIdOf_counter (hid₁.symm.trans hid₂))
  rw [UInt32.toNat_ofNat', UInt32.toNat_ofNat', List.countP_append, List.countP_cons,
    if_pos hgen] at hcounter
  have hcount : (between ++ [Event.opened id]).countP generated
      = between.countP generated + 1 := by
    rw [List.countP_append, List.countP_singleton, if_pos hgen]
  rw [hcount]
  obtain ⟨k, hk⟩ : 2 ^ 32 ∣ between.countP generated + 1 := by omega
  refine ⟨k, ?_, by rw [hk, Nat.mul_comm]⟩
  by_contra hzero
  have hk0 : k = 0 := by omega
  rw [hk0] at hk
  omega

/-- With fewer than `2 ^ 32` generated ids, none was returned twice. -/
theorem not_twice (hinv : Lifecycle history impl) (hfew : history.countP generated < 2 ^ 32)
    {before between after : List Event} {id : Bytes} :
    history ≠ before ++ Event.opened id :: (between ++ Event.opened id :: after) := by
  intro h
  obtain ⟨k, hk, hcount⟩ := hinv.collision h
  have hle : (between ++ [Event.opened id]).countP generated ≤ history.countP generated := by
    refine List.Sublist.countP_le ?_
    rw [h]
    refine List.Sublist.trans ?_ (List.sublist_append_right ..)
    refine List.Sublist.cons _ (List.Sublist.append (List.Sublist.refl _) ?_)
    exact List.Sublist.cons_cons _ (List.nil_sublist _)
  have hpos : 1 * 2 ^ 32 ≤ k * 2 ^ 32 := Nat.mul_le_mul_right _ hk
  omega

/-- An id that was returned and closed is not outstanding again. -/
theorem closed_not_outstanding (hinv : Lifecycle history impl)
    (hfew : history.countP generated < 2 ^ 32) {before after : List Event} {id : Bytes}
    {outcome : Except Exn Reply} (h : history = before ++ (.closeSession id, outcome) :: after)
    (hopen : Event.opened id ∈ before) : ¬ Outstanding history id := by
  rintro ⟨front, back, hsplit, hback⟩
  rw [h] at hsplit
  rcases List.append_eq_append_iff.mp hsplit with ⟨c, rfl, hc⟩ | ⟨c, rfl, hc⟩
  · obtain ⟨b₁, b₂, rfl⟩ := List.append_of_mem hopen
    have htwice : history = b₁ ++ Event.opened id :: ((b₂ ++ c) ++ Event.opened id :: back) := by
      rw [h, hc]
      simp only [List.append_assoc, List.cons_append]
    exact hinv.not_twice hfew htwice
  · cases c with
    | nil => cases (List.cons.inj hc).1
    | cons e c =>
      have hmem : (Op.closeSession id, outcome) ∈ back := by
        rw [(List.cons.inj hc).2]
        exact List.mem_append_right _ (List.mem_cons_self ..)
      exact hback _ hmem rfl

/-- With fewer than `2 ^ 32` generated ids, the next one is not in use. -/
theorem open_fresh (hinv : Lifecycle history impl) (hfew : history.countP generated < 2 ^ 32)
    {impl' : Impl P} {id : Bytes}
    (h : Transition impl .openSession (.ok (.sessionId id)) impl') :
    impl.sessions.lookup id = none := by
  rw [hinv.lookup_none]
  rintro ⟨before, after, hsplit, -⟩
  have htwice : history ++ [Event.opened id]
      = before ++ Event.opened id :: (after ++ Event.opened id :: []) := by
    rw [hsplit, List.append_assoc, List.cons_append]
  obtain ⟨k, hk, hcount⟩ := (lifecycle_step h hinv).collision htwice
  have hlen : (after ++ [Event.opened id]).countP generated ≤ history.countP generated := by
    rw [hsplit]
    simp only [List.countP_append, List.countP_cons, List.countP_nil]
    omega
  have hpos : 1 * 2 ^ 32 ≤ k * 2 ^ 32 := Nat.mul_le_mul_right _ hk
  omega

/-- A session is stored under its own id, which ends in its number. -/
theorem stored_shape (hinv : Lifecycle history impl) {id : Bytes} {s : SessionState}
    (hs : impl.sessions.lookup id = some s) :
    id.length = 16 ∧ s.id = id ∧ id.drop 12 = beBytes 4 s.number.toNat := by
  obtain ⟨hid, random, hrandom⟩ := hinv.stored id s hs
  refine ⟨?_, hid, ?_⟩
  · rw [hrandom, sessionIdOf_length]
  · rw [hrandom, sessionIdOf, List.drop_left' random.toList_length, pushBe32_eq]

end Lifecycle

/-- A call on an open session does not throw that it is unknown. -/
theorem Transition.usable {impl impl' : Impl P} {op : Op} {outcome : Except Exn Reply} {S : Bytes}
    {s : SessionState} (h : Transition impl op outcome impl') (htarget : op.target = some S)
    (hs : impl.sessions.lookup S = some s) : outcome ≠ .error invalidSession := by
  cases h with
  | full hfull => cases htarget
  | noEntropy hroom => cases htarget
  | opened random hroom => intro herror; cases herror
  | closed S => intro herror; cases herror
  | unknown htarget' hnone =>
    rw [htarget] at htarget'
    rw [← Option.some.inj htarget', hs] at hnone
    cases hnone
  | certified hs certificate => intro herror; cases herror
  | refused htarget' hs he =>
    intro herror
    exact he (Except.error.inj herror)
  | challenged hs privacyMode hc => intro herror; cases herror
  | accepted hs hdec hctx keys => intro herror; cases herror
  | interrupted hs keys he =>
    intro herror
    exact he (Except.error.inj herror)
  | keysRead hs type => intro herror; cases herror

/-- An `open_session` is refused exactly when 16 sessions are open. -/
theorem Transition.tooMany_iff {impl impl' : Impl P} {outcome : Except Exn Reply}
    (h : Transition impl .openSession outcome impl') :
    outcome = .error tooManySessions ↔ 16 ≤ impl.sessions.keys.card := by
  cases h with
  | full hfull =>
    constructor
    · intro _
      exact hfull
    · intro _
      rfl
  | noEntropy hroom =>
    constructor
    · intro herror
      exact absurd (Except.error.inj herror) (by decide)
    · intro hfull
      exact absurd hroom (Nat.not_lt.mpr hfull)
  | opened random hroom =>
    constructor
    · intro herror
      cases herror
    · intro hfull
      exact absurd hroom (Nat.not_lt.mpr hfull)
  | unknown htarget hnone => cases htarget
  | refused htarget hs he => cases htarget

/-- A call generates an id only if it is an `open_session`. -/
theorem countP_generated_le (start : Start P) (ops : List Op) :
    (start.run ops).1.countP generated ≤ ops.count .openSession := by
  calc (start.run ops).1.countP generated
      ≤ (start.run ops).1.countP fun e => e.1 == .openSession := by
        refine List.countP_mono_left fun e _ he => ?_
        obtain ⟨op, outcome⟩ := e
        cases op with
        | openSession => rfl
        | _ => cases he
    _ = ((start.run ops).1.map Prod.fst).countP fun op => op == .openSession := by
        rw [List.countP_map]
        rfl
    _ = ops.count .openSession := by
        rw [Start.run, runFrom_inputs]
        rfl

/-! ## Main result -/

/-- **The session lifecycle.** Whatever the random bytes were, equal ids are a
positive multiple of `2 ^ 32` generated ids apart; and in a state reached with
fewer than `2 ^ 32` calls of `open_session` no open session is overwritten,
the sessions are the outstanding ids, stored under their own 16 bytes ending
in their number, at most 16 at a time, and exactly the ids that are not
outstanding are refused, those closed before among them. -/
theorem session_lifecycle (start : Start P) (ops : List Op) :
    (∀ before between after id,
      (start.run ops).1 = before ++ Event.opened id :: (between ++ Event.opened id :: after) →
        ∃ k, 0 < k ∧ (between ++ [Event.opened id]).countP generated = k * 2 ^ 32) ∧
    (ops.count .openSession < 2 ^ 32 →
      (∀ id, (step (start.run ops).2 .openSession).1 = .ok (.sessionId id) →
        (start.run ops).2.impl.sessions.lookup id = none) ∧
      (∀ id, id ∈ (start.run ops).2.impl.sessions.keys ↔ Outstanding (start.run ops).1 id) ∧
      (∀ id s, (start.run ops).2.impl.sessions.lookup id = some s →
        id.length = 16 ∧ s.id = id ∧ id.drop 12 = beBytes 4 s.number.toNat) ∧
      (start.run ops).2.impl.sessions.keys.card ≤ 16 ∧
      ((step (start.run ops).2 .openSession).1 = .error tooManySessions ↔
        (start.run ops).2.impl.sessions.keys.card = 16) ∧
      (∀ op id, op.target = some id →
        ((step (start.run ops).2 op).1 = .error invalidSession ↔
          ¬ Outstanding (start.run ops).1 id)) ∧
      (∀ before after id outcome,
        (start.run ops).1 = before ++ (.closeSession id, outcome) :: after →
          Event.opened id ∈ before → ¬ Outstanding (start.run ops).1 id)) := by
  have hinv := lifecycle_run start ops
  constructor
  · intro before between after id h
    exact hinv.collision h
  intro hops
  have hfew : (start.run ops).1.countP generated < 2 ^ 32 :=
    lt_of_le_of_lt (countP_generated_le start ops) hops
  have hstep := step_transition (start.run ops).2
  refine ⟨?_, ?_, ?_, hinv.bounded, ?_, ?_, ?_⟩
  · intro id hid
    have hopen := hstep .openSession
    rw [hid] at hopen
    exact hinv.open_fresh hfew hopen
  · intro id
    exact hinv.mem_keys
  · intro id s hs
    exact hinv.stored_shape hs
  · rw [(hstep .openSession).tooMany_iff]
    have hle := hinv.bounded
    omega
  · intro op id htarget
    constructor
    · intro herror hout
      rw [← hinv.mem_keys, Finmap.mem_keys, Finmap.mem_iff] at hout
      obtain ⟨s, hs⟩ := hout
      exact (hstep op).usable htarget hs herror
    · intro hout
      rw [step_unknown htarget (hinv.lookup_none.mpr hout)]
  · intro before after id outcome h hopen
    exact hinv.closed_not_outstanding hfew h hopen

/-- Of three sessions opened, the one that was closed is refused and the others
are there. -/
example :
    let M := (Reference.chrome.run [.openSession, .openSession,
      .closeSession (Reference.sessionId 1), .openSession]).2
    M.impl.sessions.keys = {Reference.sessionId 2, Reference.sessionId 3} ∧
      (step M (.getKeys (Reference.sessionId 3) "")).1 = .ok (.keys []) ∧
      (step M (.getKeys (Reference.sessionId 1) "")).1 = .error invalidSession := by
  decide +kernel

end WidevineCdm
