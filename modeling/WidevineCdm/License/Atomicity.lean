import WidevineCdm.License.Extraction
import WidevineCdm.Reference.Platform

/-!
# Calls that throw

Every operation but `parse_license` writes to its session after its last call
that can throw; `get_license_challenge` stores its context when the challenge
is complete. `parse_license` pushes each key as it goes, so one that throws
between two containers leaves the keys it pushed behind, its context still
pending. `FailsLate` is that case and `Atomic` fails in no other.
-/

namespace WidevineCdm

open Lib Proto

variable {P : Platform}

/-- A call that throws leaves the sessions as they were. -/
def Atomic (M : Machine P) (op : Op) : Prop :=
  ∀ e, (step M op).1 = .error e → (step M op).2.impl.sessions = M.impl.sessions

/-- A `parse_license` whose key extraction loop starts, decrypts its first
container and fails to decrypt a later one. -/
def FailsLate (M : Machine P) : Op → Prop
  | .parseLicense S licenseResponse =>
    ∃ (loop : LoopStart M S licenseResponse) (c : KeyContainer) (rest : List KeyContainer),
      loop.license.key = c :: rest ∧ decrypts loop.derived.encKey c loop.host ∧
      ¬ allDecrypt loop.derived.encKey rest
        (exec (Crypto.aesCbcDecrypt loop.derived.encKey c.ivD c.keyD) loop.host).2
  | _ => False

/-- Every other operation commits last. -/
theorem Transition.error_sessions {impl impl' : Impl P} {op : Op} {e : Exn}
    (h : Transition impl op (.error e) impl')
    (hop : ∀ S licenseResponse, op ≠ .parseLicense S licenseResponse) :
    impl'.sessions = impl.sessions := by
  cases h with
  | full hfull => rfl
  | noEntropy hroom => rfl
  | unknown htarget hnone => rfl
  | refused htarget hs he => rfl
  | interrupted hs keys he => exact absurd rfl (hop _ _)

/-! ## `parse_license` -/

section ParseLicense

variable {M : Machine P} {S : Bytes} {s : SessionState} {licenseResponse : Bytes}
  {opened : OpenedLicense} {host : Host P}

/-- A response refused before the loop changes nothing in the object. -/
theorem step_parseLicense_refused (hs : M.impl.sessions.lookup S = some s) {e : Exn}
    (ho : exec (openLicense M.impl.rsaKey s.contexts licenseResponse) M.host
      = (.error e, host)) :
    step M (.parseLicense S licenseResponse) = (.error e, { M with host }) := by
  rw [step, Op.run, exec_bind, exec_parseLicense hs, ho]

/-- A licence whose containers all decrypt is accepted. -/
theorem step_parseLicense_accepted (hs : M.impl.sessions.lookup S = some s)
    (ho : exec (openLicense M.impl.rsaKey s.contexts licenseResponse) M.host
      = (.ok opened, host))
    (hall : allDecrypt opened.derived.encKey opened.license.key host) :
    step M (.parseLicense S licenseResponse) =
      (.ok .done, ⟨(extractAll opened.derived.encKey opened.license.key host).2,
        M.impl.store S
          { s.pushKeys (extractAll opened.derived.encKey opened.license.key host).1.1 with
            contexts := s.contexts.erase opened.license.requestIdD }⟩) := by
  have hnone := extractAll_failure.mpr hall
  rw [step, Op.run, exec_bind, exec_parseLicense hs, ho]
  rcases hloop : extractAll opened.derived.encKey opened.license.key host
    with ⟨⟨keys, failure⟩, host'⟩
  rw [hloop] at hnone
  obtain rfl : failure = none := hnone
  simp only [hloop]
  rfl

/-- A licence with a container that does not decrypt is interrupted there, and
the keys before it stay. -/
theorem step_parseLicense_interrupted (hs : M.impl.sessions.lookup S = some s)
    (ho : exec (openLicense M.impl.rsaKey s.contexts licenseResponse) M.host
      = (.ok opened, host))
    (hall : ¬ allDecrypt opened.derived.encKey opened.license.key host) :
    ∃ e, step M (.parseLicense S licenseResponse) =
      (.error e, ⟨(extractAll opened.derived.encKey opened.license.key host).2,
        M.impl.store S
          (s.pushKeys (extractAll opened.derived.encKey opened.license.key host).1.1)⟩) := by
  have hsome := mt extractAll_failure.mp hall
  rw [step, Op.run, exec_bind, exec_parseLicense hs, ho]
  rcases hloop : extractAll opened.derived.encKey opened.license.key host
    with ⟨⟨keys, failure⟩, host'⟩
  rw [hloop] at hsome
  cases failure with
  | none => exact absurd rfl hsome
  | some e =>
    simp only [hloop]
    exact ⟨_, rfl⟩

/-- Once the loop has started, failing late is to push a key and fail. -/
theorem failsLate_iff (hs : M.impl.sessions.lookup S = some s)
    (ho : exec (openLicense M.impl.rsaKey s.contexts licenseResponse) M.host
      = (.ok opened, host)) :
    FailsLate M (.parseLicense S licenseResponse) ↔
      (extractAll opened.derived.encKey opened.license.key host).1.1 ≠ [] ∧
        ¬ allDecrypt opened.derived.encKey opened.license.key host := by
  constructor
  · rintro ⟨loop, c, rest, hkey, hc, hrest⟩
    obtain ⟨rfl, rfl, rfl⟩ := loop.eq_of_opened hs ho
    show (extractAll loop.derived.encKey loop.license.key loop.host).1.1 ≠ [] ∧
      ¬ allDecrypt loop.derived.encKey loop.license.key loop.host
    rw [hkey, allDecrypt, hc, Bool.true_and]
    refine ⟨?_, hrest⟩
    intro hnil
    rw [extractAll_keys_nil.mp hnil c rfl] at hc
    cases hc
  · rintro ⟨hkeys, hall⟩
    cases hkey : opened.license.key with
    | nil =>
      rw [hkey] at hkeys
      exact absurd rfl hkeys
    | cons c rest =>
      rw [hkey] at hkeys hall
      have hc : decrypts opened.derived.encKey c host := by
        by_contra hc
        refine hkeys (extractAll_keys_nil.mpr ?_)
        intro d hd
        rw [← Option.some.inj hd]
        exact Bool.eq_false_of_not_eq_true hc
      rw [allDecrypt, hc, Bool.true_and] at hall
      obtain ⟨loop, rfl, rfl, rfl⟩ := exists_loopStart hs ho
      exact ⟨loop, c, rest, hkey, hc, hall⟩

/-- A response refused before the loop does not fail late. -/
theorem not_failsLate_refused (hs : M.impl.sessions.lookup S = some s) {e : Exn}
    (ho : exec (openLicense M.impl.rsaKey s.contexts licenseResponse) M.host
      = (.error e, host)) : ¬ FailsLate M (.parseLicense S licenseResponse) := by
  rintro ⟨loop, -⟩
  have ho' := loop.exec_openLicense
  rw [Option.some.inj (loop.lookup_session.symm.trans hs), ho] at ho'
  cases ho'

theorem not_failsLate_unknown (hs : M.impl.sessions.lookup S = none) :
    ¬ FailsLate M (.parseLicense S licenseResponse) := by
  rintro ⟨loop, -⟩
  cases hs.symm.trans loop.lookup_session

end ParseLicense

/-- A `parse_license` is atomic unless it fails late: an interrupted one left
the sessions alone exactly if it was interrupted at its first container. -/
theorem atomic_parseLicense_iff (M : Machine P) (S licenseResponse : Bytes) :
    Atomic M (.parseLicense S licenseResponse) ↔
      ¬ FailsLate M (.parseLicense S licenseResponse) := by
  cases hs : M.impl.sessions.lookup S with
  | none =>
    refine iff_of_true ?_ (not_failsLate_unknown hs)
    intro e _
    rw [step_unknown rfl hs]
  | some s =>
    rcases ho : exec (openLicense M.impl.rsaKey s.contexts licenseResponse) M.host
      with ⟨e | opened, host⟩
    · refine iff_of_true ?_ (not_failsLate_refused hs ho)
      intro e' _
      rw [step_parseLicense_refused hs ho]
    · rw [failsLate_iff hs ho]
      by_cases hall : allDecrypt opened.derived.encKey opened.license.key host
      · refine iff_of_true ?_ (fun hlate => hlate.2 hall)
        intro e he
        rw [step_parseLicense_accepted hs ho hall] at he
        cases he
      · obtain ⟨e, hstep⟩ := step_parseLicense_interrupted hs ho hall
        constructor
        · rintro hatomic ⟨hkeys, -⟩
          have hsame := hatomic e (by rw [hstep])
          rw [hstep] at hsame
          exact hkeys (pushKeys_eq_self.mp ((store_sessions_eq_self hs).mp hsame))
        · intro hlate e' _
          rw [hstep]
          show (M.impl.store S _).sessions = M.impl.sessions
          refine (store_sessions_eq_self hs).mpr (pushKeys_eq_self.mpr ?_)
          by_contra hkeys
          exact hlate ⟨hkeys, hall⟩

/-- A call is atomic unless it fails late. -/
theorem atomic_iff (M : Machine P) (op : Op) : Atomic M op ↔ ¬ FailsLate M op := by
  by_cases hop : ∃ S licenseResponse, op = .parseLicense S licenseResponse
  · obtain ⟨S, licenseResponse, rfl⟩ := hop
    exact atomic_parseLicense_iff M S licenseResponse
  · push Not at hop
    constructor
    · intro _ hlate
      cases op with
      | parseLicense S licenseResponse => exact hop S licenseResponse rfl
      | _ => exact hlate
    · intro _ e he
      have h := step_transition M op
      rw [he] at h
      exact h.error_sessions hop

/-! ## Main result -/

/-- **Failed calls are atomic, but for late failures.** All calls of a run that
throw leave the sessions as they were exactly when no `parse_license` of the
run throws after its first container was decrypted. -/
theorem failed_calls_atomic (start : Start P) (ops : List Op) :
    (∀ M op, start.Calls ops M op → Atomic M op) ↔
      ∀ M op, start.Calls ops M op → ¬ FailsLate M op := by
  refine Start.calls_congr ?_ start ops
  intro M op
  exact atomic_iff M op

/-- The recorded exchange with `EVP_CIPHER_CTX_new` failing for the second
container: the call throws and the first key stays. -/
theorem late_failure_keeps_key :
    ¬ ∀ (env : Reference.Environment) (ops : List Op) (M : Machine (Reference.platform env))
        (op : Op), (Reference.start env .CHROME).Calls ops M op → Atomic M op := by
  intro h
  let env : Reference.Environment :=
    { Reference.nominal with
      succeeds := fun call tick =>
        match call with
        | .evpCipherCtxNew => tick ≠ 45
        | call => Reference.nominal.succeeds call tick }
  have hatomic := h env _ _ _ ((Reference.start env .CHROME).calls_last Reference.oneSession
    (.parseLicense (Reference.sessionId 1) Reference.honestResponse))
  have hthrows : (step ((Reference.start env .CHROME).run Reference.oneSession).2
      (.parseLicense (Reference.sessionId 1) Reference.honestResponse)).1
        = .error (.runtimeError "Failed to extract keys: Failed to create cipher context") := by
    decide +kernel
  have hkeys : (step ((Reference.start env .CHROME).run Reference.oneSession).2
      (.parseLicense (Reference.sessionId 1) Reference.honestResponse)).2.impl.sessions
        ≠ ((Reference.start env .CHROME).run Reference.oneSession).2.impl.sessions := by
    decide +kernel
  exact hkeys (hatomic _ hthrows)

end WidevineCdm
