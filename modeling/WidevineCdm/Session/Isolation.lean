import WidevineCdm.Session.Lifecycle

/-!
# Isolation between sessions

An operation on one session leaves every other session alone
(`Transition.frame`). On an ANDROID device the request ids of two sessions
never meet either: bytes 8 to 11 of an id, before the hex encoding, are the
little-endian session number, whatever the random bytes and whatever the
over-wide shifts produce (`PendingFor`). Numbers are determined by session
ids and differ between ids returned within `2 ^ 32` generated ids, so a
licence for one session finds no context in another.
-/

namespace WidevineCdm

open Lib Proto

variable {P : Platform}

/-! ## Frames -/

/-- The session an operation is called on. -/
def Op.subject : Op → Option Bytes
  | .openSession => none
  | .closeSession S => some S
  | .setServiceCertificate S _ => some S
  | .getLicenseChallenge S _ _ _ => some S
  | .parseLicense S _ => some S
  | .getKeys S _ => some S

/-- **An operation on `A` leaves every other session exactly as it was.** -/
theorem Transition.frame {impl impl' : Impl P} {op : Op} {outcome : Except Exn Reply}
    (h : Transition impl op outcome impl') {A B : Bytes} (hop : op.subject = some A)
    (hne : B ≠ A) : impl'.sessions.lookup B = impl.sessions.lookup B := by
  cases h with
  | full hfull => cases hop
  | noEntropy hroom => cases hop
  | opened random hroom => cases hop
  | closed S =>
    cases hop
    exact Finmap.lookup_erase_ne hne
  | unknown htarget hnone => rfl
  | certified hs certificate =>
    cases hop
    exact store_lookup_ne hne _ _
  | refused htarget hs he => rfl
  | challenged hs privacyMode hc =>
    cases hop
    exact store_lookup_ne hne _ _
  | accepted hs hdec hctx keys =>
    cases hop
    exact store_lookup_ne hne _ _
  | interrupted hs keys he =>
    cases hop
    exact store_lookup_ne hne _ _
  | keysRead hs type => rfl

/-- No call replaces the device. -/
theorem Transition.device {impl impl' : Impl P} {op : Op} {outcome : Except Exn Reply}
    (h : Transition impl op outcome impl') : impl'.device = impl.device := by
  cases h <;> rfl

/-! ## ANDROID request ids -/

/-- The request ids `generate_request_id` can yield for a session number on an
ANDROID device. -/
def AndroidRequestId (number : UInt32) (requestId : Bytes) : Prop :=
  ∃ (random : List.Vector UInt8 4) (tail : List.Vector UInt8 4), requestId =
    hexBytes (random.toList ++ List.replicate 4 0x00 ++ leBytes 4 number.toNat ++ tail.toList)

/-- A shift within the width picks a byte of the number. -/
theorem exec_pushCounter_low (number : UInt32) {i : Nat} (hi : i < 4) (n : Nat)
    (requestId : Bytes) (host : Host P) :
    exec (pushCounter number (n + 1) i requestId) host =
      exec (pushCounter number n (i + 1)
        (requestId ++ [UInt8.ofNat (number.toNat / 256 ^ i)])) host := by
  have hshift : (UInt32.ofNat (i * 8)).toNat = 8 * i := by
    rw [UInt32.toNat_ofNat', Nat.mul_comm]
    exact Nat.mod_eq_of_lt (by omega)
  rw [pushCounter, shiftRight, if_pos (by omega), pure_bind, shifted_byte number _ i hshift hi]

/-- Whatever the remaining shifts yield, each pushes one byte. -/
theorem exec_pushCounter_tail {number : UInt32} {n i : Nat} {requestId r : Bytes}
    {host host' : Host P}
    (h : exec (pushCounter number n i requestId) host = (.ok r, host')) :
    ∃ tail : List.Vector UInt8 n, r = requestId ++ tail.toList := by
  induction n generalizing i requestId host with
  | zero =>
    cases h
    exact ⟨List.Vector.nil, (List.append_nil _).symm⟩
  | succ n ih =>
    obtain ⟨byte, host₁, -, h⟩ := exec_bind_eq_ok.mp h
    obtain ⟨tail, rfl⟩ := ih h
    refine ⟨List.Vector.cons (byte &&& 0xFF).toUInt8 tail, ?_⟩
    rw [List.append_assoc, List.Vector.toList_cons]
    rfl

/-- **The session number is in every ANDROID request id.** -/
theorem generateRequestId_android {number : UInt32} {requestId : Bytes} {host host' : Host P}
    (h : exec (generateRequestId .ANDROID number) host = (.ok requestId, host')) :
    AndroidRequestId number requestId := by
  obtain ⟨random, host₁, -, h⟩ := exec_bind_eq_ok.mp h
  obtain ⟨r, host₂, hr, h⟩ := exec_bind_eq_ok.mp h
  cases h
  rw [exec_pushCounter_low number (by decide), exec_pushCounter_low number (by decide),
    exec_pushCounter_low number (by decide), exec_pushCounter_low number (by decide)] at hr
  obtain ⟨tail, rfl⟩ := exec_pushCounter_tail hr
  refine ⟨random, tail, ?_⟩
  simp only [leBytes, Nat.div_div_eq_div_mul, List.append_assoc, List.cons_append,
    List.nil_append, Nat.reduceAdd, Nat.reducePow, Nat.reduceMul, Nat.div_one]

/-- Request ids of different numbers differ. -/
theorem AndroidRequestId.number_eq {m n : UInt32} {requestId : Bytes}
    (hm : AndroidRequestId m requestId) (hn : AndroidRequestId n requestId) : m = n := by
  obtain ⟨r₁, t₁, h₁⟩ := hm
  obtain ⟨r₂, t₂, h₂⟩ := hn
  have hbytes := hexBytes_inj (h₁.symm.trans h₂)
  have hfront := (List.append_inj' hbytes (by rw [t₁.toList_length, t₂.toList_length])).1
  have hnumber := (List.append_inj' hfront (by rw [leBytes_length, leBytes_length])).2
  exact UInt32.toNat_inj.mp (leBytes_inj m.toNat_lt n.toNat_lt hnumber)

/-! ## Pending ids belong to their session -/

/-- On an ANDROID device every pending request id carries the number of its
session. -/
def PendingNumbered (impl : Impl P) : Prop :=
  impl.device.type = .ANDROID →
    ∀ S s, impl.sessions.lookup S = some s → ∀ r ∈ s.contexts, AndroidRequestId s.number r

theorem pendingNumbered_fresh (device : Device) (rsaKey : P.PKey)
    (clientId : P.ClientIdentification) :
    PendingNumbered (Impl.fresh device rsaKey clientId : Impl P) := by
  intro _ S s hs
  rw [Impl.fresh, Finmap.lookup_empty] at hs
  cases hs

/-- Storing a session whose pending ids are numbered. -/
theorem pendingNumbered_store {impl : Impl P} {S : Bytes} {s : SessionState}
    (hinv : PendingNumbered impl)
    (hs : impl.device.type = .ANDROID → ∀ r ∈ s.contexts, AndroidRequestId s.number r) :
    PendingNumbered (impl.store S s) := by
  intro htype T t ht r hr
  by_cases hT : T = S
  · subst hT
    rw [store_lookup_self] at ht
    rw [← Option.some.inj ht] at hr ⊢
    exact hs htype r hr
  · rw [store_lookup_ne hT] at ht
    exact hinv htype T t ht r hr

theorem pendingNumbered_step {impl impl' : Impl P} {op : Op} {outcome : Except Exn Reply}
    (h : Transition impl op outcome impl') (hinv : PendingNumbered impl) :
    PendingNumbered impl' := by
  cases h with
  | full hfull => exact hinv
  | noEntropy hroom => exact hinv
  | opened random hroom =>
    refine pendingNumbered_store hinv fun _ r hr => ?_
    exact absurd hr (Finmap.notMem_empty)
  | closed S =>
    intro htype T t ht
    by_cases hT : T = S
    · rw [hT, Finmap.lookup_erase] at ht
      cases ht
    · rw [Finmap.lookup_erase_ne hT] at ht
      exact hinv htype T t ht
  | unknown htarget hnone => exact hinv
  | certified hs certificate =>
    exact pendingNumbered_store hinv fun htype r hr => hinv htype _ _ hs r hr
  | refused htarget hs he => exact hinv
  | challenged hs privacyMode hc =>
    refine pendingNumbered_store hinv fun htype r hr => ?_
    rcases Finmap.mem_insert.mp hr with rfl | hr
    · obtain ⟨host, host', hgen⟩ := hc.requestId
      rw [htype] at hgen
      exact generateRequestId_android hgen
    · exact hinv htype _ _ hs r hr
  | accepted hs hdec hctx keys =>
    exact pendingNumbered_store hinv fun htype r hr =>
      hinv htype _ _ hs r (Finmap.mem_erase.mp hr).2
  | interrupted hs keys he =>
    exact pendingNumbered_store hinv fun htype r hr => hinv htype _ _ hs r hr
  | keysRead hs type => exact hinv

theorem pendingNumbered_run (start : Start P) (ops : List Op) :
    PendingNumbered (start.run ops).2.impl :=
  start.run_invariant (I := fun _ impl => PendingNumbered impl)
    (pendingNumbered_fresh start.device start.rsaKey start.clientId)
    (fun _ _ _ _ _ h hinv => pendingNumbered_step h hinv) ops

theorem device_run (start : Start P) (ops : List Op) :
    (start.run ops).2.impl.device = start.device :=
  start.run_invariant (I := fun _ impl => impl.device = start.device) rfl
    (fun _ _ _ _ _ h hinv => h.device.trans hinv) ops

/-- Outstanding ids returned within `2 ^ 32` generated ids carry different
numbers. -/
theorem Lifecycle.number_ne {history : List Event} {impl : Impl P}
    (hinv : Lifecycle history impl) (hfew : history.countP generated < 2 ^ 32)
    {A B : Bytes} (hA : Event.opened A ∈ history) (hB : Event.opened B ∈ history) (hne : A ≠ B)
    {rA rB : List.Vector UInt8 12} {m n : UInt32} (hm : A = sessionIdOf rA m)
    (hn : B = sessionIdOf rB n) : m ≠ n := by
  -- of the two openings, the later one was counted later
  have key : ∀ {A B : Bytes} {rA rB : List.Vector UInt8 12} {m n : UInt32}
      {before between after : List Event}, A = sessionIdOf rA m → B = sessionIdOf rB n →
      history = before ++ Event.opened A :: (between ++ Event.opened B :: after) → m ≠ n := by
    intro A B rA rB m n before between after hm hn hsplit heq
    have hsplit' : history = (before ++ Event.opened A :: between) ++ Event.opened B :: after := by
      rw [hsplit, List.append_assoc, List.cons_append]
    obtain ⟨r₁, h₁⟩ := hinv.returned _ _ _ hsplit
    obtain ⟨r₂, h₂⟩ := hinv.returned _ _ _ hsplit'
    have e₁ := sessionIdOf_counter (hm.symm.trans h₁)
    have e₂ := sessionIdOf_counter (hn.symm.trans h₂)
    rw [← heq, e₁] at e₂
    have hcount := congrArg UInt32.toNat e₂
    rw [hsplit] at hfew
    simp only [List.countP_append, List.countP_cons, UInt32.toNat_ofNat'] at hcount hfew
    have hgen : ∀ id, generated (Event.opened id) = true := fun _ => rfl
    simp only [hgen, if_true] at hcount hfew
    omega
  obtain ⟨before, after, hsplit⟩ := List.append_of_mem hA
  rw [hsplit, List.mem_append, List.mem_cons] at hB
  rcases hB with hB | hB | hB
  · obtain ⟨b₁, b₂, rfl⟩ := List.append_of_mem hB
    rw [List.append_assoc, List.cons_append] at hsplit
    exact (key hn hm hsplit).symm
  · exact absurd (Reply.sessionId.inj (Except.ok.inj (Prod.mk.inj hB).2)).symm hne
  · obtain ⟨b₁, b₂, rfl⟩ := List.append_of_mem hB
    exact key hm hn hsplit

/-! ## Main result -/

/-- A licence that names no pending context is refused, and nothing changes. -/
theorem step_parseLicense_noContext {M : Machine P} {S : Bytes} {s : SessionState}
    (hs : M.impl.sessions.lookup S = some s) {licenseResponse : Bytes}
    {signedMessage : SignedMessage} {license : License}
    (hdec : decodeLicense (P := P) licenseResponse = .ok (signedMessage, license))
    (hnone : license.requestIdD ∉ s.contexts) :
    step M (.parseLicense S licenseResponse)
      = (.error (.runtimeError "No context found for this license"), M) := by
  have hopen : exec (openLicense M.impl.rsaKey s.contexts licenseResponse) M.host
      = (.error (.runtimeError "No context found for this license"), M.host) := by
    rw [openLicense, exec_bind, exec_liftExcept, hdec]
    simp only [Finmap.lookup_eq_none.mpr hnone, exec_throw]
  rw [step, Op.run, exec_bind, exec_parseLicense hs, hopen]

/-- **Session isolation.** In a state reached with fewer than `2 ^ 32` calls of
`open_session`, an operation on an open session `A` leaves every other session
as it is; and on an ANDROID device the pending request ids of two open
sessions are disjoint, so that a licence for a request id that was pending in
`A` at any point of the run is refused by `B` with nothing changed. -/
theorem session_isolation (start : Start P) (ops : List Op)
    (hops : ops.count .openSession < 2 ^ 32) {A B : Bytes} {a b : SessionState} (hne : A ≠ B)
    (hA : (start.run ops).2.impl.sessions.lookup A = some a)
    (hB : (start.run ops).2.impl.sessions.lookup B = some b) :
    (∀ op, op.subject = some A →
      (step (start.run ops).2 op).2.impl.sessions.lookup B = some b) ∧
    (start.device.type = .ANDROID →
      (∀ r, ¬ (r ∈ a.contexts ∧ r ∈ b.contexts)) ∧
      ∀ earlier a' licenseResponse signedMessage license,
        earlier <+: ops →
        (start.run earlier).2.impl.sessions.lookup A = some a' →
        decodeLicense (P := P) licenseResponse = .ok (signedMessage, license) →
        license.requestIdD ∈ a'.contexts →
          step (start.run ops).2 (.parseLicense B licenseResponse)
            = (.error (.runtimeError "No context found for this license"),
                (start.run ops).2)) := by
  have hinv := lifecycle_run start ops
  have hfew := lt_of_le_of_lt (countP_generated_le start ops) hops
  constructor
  · intro op hop
    rw [(step_transition (start.run ops).2 op).frame hop (Ne.symm hne), hB]
  intro htype
  have hopened : ∀ {S : Bytes} {s : SessionState},
      (start.run ops).2.impl.sessions.lookup S = some s → Event.opened S ∈ (start.run ops).1 := by
    intro S s hs
    have hmem : S ∈ (start.run ops).2.impl.sessions.keys := by
      rw [Finmap.mem_keys, Finmap.mem_iff]
      exact ⟨s, hs⟩
    obtain ⟨before, after, hsplit, -⟩ := hinv.mem_keys.mp hmem
    rw [hsplit]
    exact List.mem_append_right _ (List.mem_cons_self ..)
  have hdevice : ∀ ops', (start.run ops').2.impl.device.type = .ANDROID := by
    intro ops'
    rw [device_run, htype]
  -- the number a session has is a function of its id, at any point of the run
  have hdisjoint : ∀ {earlier : List Op} {a' : SessionState} {r : Bytes},
      (start.run earlier).2.impl.sessions.lookup A = some a' → r ∈ a'.contexts →
        r ∉ b.contexts := by
    intro earlier a' r ha' hra hrb
    obtain ⟨-, rA, hAid⟩ := (lifecycle_run start earlier).stored A a' ha'
    obtain ⟨-, rB, hBid⟩ := hinv.stored B b hB
    have hnumbers := hinv.number_ne hfew (hopened hA) (hopened hB) hne hAid hBid
    have hra' := pendingNumbered_run start earlier (hdevice earlier) A a' ha' r hra
    have hrb' := pendingNumbered_run start ops (hdevice ops) B b hB r hrb
    exact hnumbers (hra'.number_eq hrb')
  constructor
  · rintro r ⟨hra, hrb⟩
    exact hdisjoint hA hra hrb
  · rintro earlier a' licenseResponse signedMessage license - ha' hdec hpending
    exact step_parseLicense_noContext hB hdec (hdisjoint ha' hpending)

/-- Two sessions of an ANDROID device with a challenge each, all random bytes
being zero. -/
theorem session_isolation_android :
    ∃ a b : SessionState,
      ((Reference.start Reference.nominal .ANDROID).run
        Reference.twoSessions).2.impl.sessions.lookup (Reference.sessionId 1) = some a ∧
      ((Reference.start Reference.nominal .ANDROID).run
        Reference.twoSessions).2.impl.sessions.lookup (Reference.sessionId 2) = some b ∧
      a.contexts.keys.card = 1 ∧ b.contexts.keys.card = 1 ∧
      ∀ r, ¬ (r ∈ a.contexts ∧ r ∈ b.contexts) := by
  have hpending : ∀ n ∈ [1, 2], (((Reference.start Reference.nominal .ANDROID).run
      Reference.twoSessions).2.impl.sessions.lookup (Reference.sessionId n)).map
        (fun s => s.contexts.keys.card) = some 1 := by
    decide +kernel
  obtain ⟨a, ha, hca⟩ := Option.map_eq_some_iff.mp (hpending 1 (by decide))
  obtain ⟨b, hb, hcb⟩ := Option.map_eq_some_iff.mp (hpending 2 (by decide))
  exact ⟨a, b, ha, hb, hca, hcb,
    ((session_isolation _ _ (by decide) (by decide) ha hb).2 rfl).1⟩

end WidevineCdm
