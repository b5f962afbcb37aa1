import WidevineCdm.Lib.FiniteMap
import WidevineCdm.License.Delivery
import WidevineCdm.Session.Lifecycle

/-!
# What a run can accumulate

Over all sessions together, each returned challenge pays for one pending
request, which an accepted licence uses up; and each container of a licence
pays for one stored key. The balances hold whatever the random bytes and the
request ids are, across openings and closings of sessions, so they bound what
the CDM can be made to hold by what it was made to do.
-/

namespace WidevineCdm

open Lib Proto

variable {P : Platform}

/-! ## Balances -/

/-- The pending requests of all sessions. -/
def Impl.pendingTotal (impl : Impl P) : Nat := total (fun s => s.contexts.keys.card) impl.sessions

/-- The keys of all sessions. -/
def Impl.keysTotal (impl : Impl P) : Nat := total (fun s => s.keys.length) impl.sessions

/-- A `get_license_challenge` that returned. -/
def challengeReturned : Event → Bool
  | (.getLicenseChallenge _ _ _ _, .ok _) => true
  | _ => false

/-- A `parse_license` that returned. -/
def licenseAccepted : Event → Bool
  | (.parseLicense _ _, .ok _) => true
  | _ => false

/-- The number of containers in the licence of a response. -/
def containers (P : Platform) : Event → Nat
  | (.parseLicense _ licenseResponse, _) =>
    match decodeLicense (P := P) licenseResponse with
    | .ok (_, license) => license.key.length
    | .error _ => 0
  | _ => 0

section Totals

variable (f : SessionState → Nat) {impl : Impl P} {S : Bytes} {s : SessionState}

/-- Storing over a stored session trades the two. -/
theorem total_store (hs : impl.sessions.lookup S = some s) (t : SessionState) :
    total f (impl.store S t).sessions + f s = total f impl.sessions + f t := by
  have hbalance := total_insert f impl.sessions S t
  rw [hs] at hbalance
  exact hbalance

/-- Storing a session adds at most what it weighs. -/
theorem total_store_le (t : SessionState) :
    total f (impl.store S t).sessions ≤ total f impl.sessions + f t := by
  have hbalance := total_insert f impl.sessions S t
  show total f (impl.sessions.insert S t) ≤ _
  omega

theorem total_close_le (S : Bytes) :
    total f (impl.sessions.erase S) ≤ total f impl.sessions := by
  have hbalance := total_erase f impl.sessions S
  omega

end Totals

/-! ## One step -/

/-- A step keeps the balance of pending requests. -/
theorem Transition.pendingTotal {impl impl' : Impl P} {op : Op} {outcome : Except Exn Reply}
    (h : Transition impl op outcome impl') :
    impl'.pendingTotal + (if licenseAccepted (op, outcome) then 1 else 0)
      ≤ impl.pendingTotal + if challengeReturned (op, outcome) then 1 else 0 := by
  unfold Impl.pendingTotal
  cases h with
  | full hfull => exact Nat.le_add_right _ _
  | noEntropy hroom => exact Nat.le_add_right _ _
  | opened random hroom =>
    -- a new session has nothing pending
    exact total_store_le _ (newSession _ _)
  | closed S => exact total_close_le _ S
  | @unknown op S htarget hnone => cases op <;> exact Nat.le_add_right _ _
  | @certified S s hs certificate =>
    have hstored := total_store (fun s => s.contexts.keys.card) hs
      { s with serviceCertificate := certificate }
    exact (Nat.add_right_cancel hstored).le
  | @refused op S s e htarget hs he => cases op <;> exact Nat.le_add_right _ _
  | @challenged S s hs pssh licenseType privacyMode c hc =>
    have hstored := total_store (fun s => s.contexts.keys.card) hs
      { s with contexts := s.contexts.insert c.requestId (deriveContext c.msg) }
    have hgrown := card_keys_insert_le s.contexts c.requestId (deriveContext c.msg)
    dsimp only at hstored
    show _ + 0 ≤ _ + 1
    omega
  | @accepted S s hs licenseResponse signedMessage license hdec context hctx keys =>
    have hstored := total_store (fun s => s.contexts.keys.card) hs
      { s.pushKeys keys with contexts := s.contexts.erase license.requestIdD }
    have hused := card_keys_erase s.contexts (a := license.requestIdD)
      (Finmap.mem_iff.mpr ⟨context, hctx⟩)
    show total _ _ + 1 ≤ total _ _ + 0
    dsimp only at hstored ⊢
    omega
  | @interrupted S s hs _ keys e he =>
    have hstored := total_store (fun s => s.contexts.keys.card) hs (s.pushKeys keys)
    exact (Nat.add_right_cancel hstored).le
  | keysRead hs type => exact Nat.le_add_right _ _

/-- A call other than `parse_license` adds no key. -/
theorem Transition.keysTotal {impl impl' : Impl P} {op : Op} {outcome : Except Exn Reply}
    (h : Transition impl op outcome impl')
    (hop : ∀ S licenseResponse, op ≠ .parseLicense S licenseResponse) :
    impl'.keysTotal ≤ impl.keysTotal := by
  unfold Impl.keysTotal
  cases h with
  | full hfull => exact Nat.le_refl _
  | noEntropy hroom => exact Nat.le_refl _
  | opened random hroom => exact total_store_le _ (newSession _ _)
  | closed S => exact total_close_le _ S
  | unknown htarget hnone => exact Nat.le_refl _
  | certified hs certificate => exact Nat.le_of_add_le_add_right (total_store _ hs _).le
  | refused htarget hs he => exact Nat.le_refl _
  | challenged hs privacyMode hc => exact Nat.le_of_add_le_add_right (total_store _ hs _).le
  | accepted hs hdec hctx keys => exact absurd rfl (hop _ _)
  | interrupted hs keys he => exact absurd rfl (hop _ _)
  | keysRead hs type => exact Nat.le_refl _

/-- A step adds at most one key for each container of the licence it is
given. -/
theorem step_keysTotal (M : Machine P) (op : Op) :
    (step M op).2.impl.keysTotal
      ≤ M.impl.keysTotal + containers P (op, (step M op).1) := by
  by_cases hparse : ∃ S licenseResponse, op = .parseLicense S licenseResponse
  · obtain ⟨S, licenseResponse, rfl⟩ := hparse
    cases hs : M.impl.sessions.lookup S with
    | none =>
      rw [step_unknown rfl hs]
      exact Nat.le_add_right _ _
    | some s =>
      have hdelivery := step_delivery hs licenseResponse
      generalize (step M (.parseLicense S licenseResponse)).1 = outcome at hdelivery ⊢
      generalize (step M (.parseLicense S licenseResponse)).2 = M' at hdelivery ⊢
      -- the loop pushes one key for each container it completes
      have hpushed : ∀ {opened : OpenedLicense} {host host' : Host P} {keys : List Key}
          {failure : Option Exn},
          exec (openLicense M.impl.rsaKey s.contexts licenseResponse) M.host
            = (.ok opened, host) →
          extractAll opened.derived.encKey opened.license.key host = ((keys, failure), host') →
          keys.length ≤ containers P (.parseLicense S licenseResponse, outcome) := by
        intro opened host host' keys failure ho hloop
        have horder := extractAll_keys_order opened.derived.encKey opened.license.key host
        rw [hloop] at horder
        rw [containers, (openLicense_ok.mp ho).1]
        have hlength := horder.length_le
        rwa [List.length_map, List.length_map] at hlength
      cases hdelivery with
      | refused he host => exact Nat.le_add_right _ _
      | @complete opened host host' keys ho hloop =>
        have hstored := total_store (fun s => s.keys.length) hs
          { s.pushKeys keys with contexts := s.contexts.erase opened.license.requestIdD }
        have hlength : (s.keys ++ keys).length = s.keys.length + keys.length :=
          List.length_append
        have hkeys := hpushed ho hloop
        show total _ _ ≤ total _ _ + _
        dsimp only [SessionState.pushKeys] at hstored ⊢
        omega
      | @brokenOff opened host host' keys e ho hloop =>
        have hstored := total_store (fun s => s.keys.length) hs (s.pushKeys keys)
        have hlength : (s.keys ++ keys).length = s.keys.length + keys.length :=
          List.length_append
        have hkeys := hpushed ho hloop
        show total _ _ ≤ total _ _ + _
        dsimp only [SessionState.pushKeys] at hstored ⊢
        omega
  · have hother := (step_transition M op).keysTotal fun S licenseResponse heq =>
      hparse ⟨S, licenseResponse, heq⟩
    omega

/-! ## Main result -/

/-- What the run rule carries: both balances. -/
structure Balanced (history : List Event) (M : Machine P) : Prop where
  pending : M.impl.pendingTotal + history.countP licenseAccepted ≤ history.countP challengeReturned
  keys : M.impl.keysTotal ≤ (history.map (containers P)).sum

theorem balanced_step {history : List Event} {M : Machine P} (h : Balanced history M) (op : Op) :
    Balanced (history ++ [(op, (step M op).1)]) (step M op).2 where
  pending := by
    have hstep := (step_transition M op).pendingTotal
    have hinv := h.pending
    rw [List.countP_append, List.countP_append, List.countP_singleton, List.countP_singleton]
    omega
  keys := by
    have hstep := step_keysTotal M op
    have hinv := h.keys
    rw [List.map_append, List.sum_append, List.map_singleton, List.sum_singleton]
    omega

/-- **Conservation.** After any calls in any order, the pending requests of
all sessions and the licences accepted so far are together at most the
challenges returned; and the keys of all sessions are at most the containers
of the licences they were given. -/
theorem requests_conserved (start : Start P) (ops : List Op) :
    (start.run ops).2.impl.pendingTotal + (start.run ops).1.countP licenseAccepted
        ≤ (start.run ops).1.countP challengeReturned ∧
      (start.run ops).2.impl.keysTotal ≤ ((start.run ops).1.map (containers P)).sum := by
  have hstart : Balanced [] start.machine := by
    constructor
    · exact (total_empty (α := Bytes) (fun s : SessionState => s.contexts.keys.card)).le
    · exact (total_empty (α := Bytes) (fun s : SessionState => s.keys.length)).le
  have hrun : Balanced (start.run ops).1 (start.run ops).2 :=
    runFrom_invariant (I := Balanced) step hstart (fun _ _ op h => balanced_step h op) ops
  exact ⟨hrun.pending, hrun.keys⟩

/-- The recorded exchange, and a second challenge after it: two challenges pay
for one accepted licence and one pending request, and the licence for two
keys. -/
example :
    let run := Reference.chrome.run
      (Reference.exchange ++ [Reference.getChallenge (Reference.sessionId 1)])
    run.1.countP challengeReturned = 2 ∧ run.1.countP licenseAccepted = 1 ∧
      run.2.impl.pendingTotal = 1 ∧ run.2.impl.keysTotal = 2 ∧
      (run.1.map (containers (Reference.platform Reference.nominal))).sum = 2 := by
  decide +kernel

end WidevineCdm
