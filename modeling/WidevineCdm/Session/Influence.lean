import WidevineCdm.Lib.Simulation
import WidevineCdm.Reference.Platform

/-!
# What never influences an answer

`set_service_certificate` stores bytes that no operation reads, the privacy
flag of `get_license_challenge` chooses between two equal branches, and after
the constructor nothing of the device but its type is looked at. Two machines
that agree up to these are `Alike`, and a call leaves them alike whatever
certificate or flag it is given on either side. By the lockstep rule whole
runs may differ in all of this, and in the calls that only set a certificate
or read the keys, without any other answer changing.
-/

namespace WidevineCdm

open Lib Proto

variable {P : Platform}

/-! ## Machines that answer alike -/

/-- The session without its service certificate. -/
def SessionState.uncertified (s : SessionState) : SessionState :=
  { s with serviceCertificate := [] }

/-- The objects agree but for service certificates and for the fields of the
device that are not its type. -/
structure Impl.Alike (impl impl' : Impl P) : Prop where
  type : impl'.device.type = impl.device.type
  rsaKey : impl'.rsaKey = impl.rsaKey
  clientId : impl'.clientId = impl.clientId
  sessionCounter : impl'.sessionCounter = impl.sessionCounter
  sessions : ∀ S, (impl'.sessions.lookup S).map SessionState.uncertified
    = (impl.sessions.lookup S).map SessionState.uncertified

/-- The machines agree up to the same. -/
structure Machine.Alike (M N : Machine P) : Prop where
  host : N.host = M.host
  impl : M.impl.Alike N.impl

/-- The calls agree but for a certificate or a privacy flag. -/
inductive Op.Alike : Op → Op → Prop where
  | same (op : Op) : Op.Alike op op
  | certificate (S c c' : Bytes) :
    Op.Alike (.setServiceCertificate S c) (.setServiceCertificate S c')
  | privacyMode (S : Bytes) (pssh : Pssh) (licenseType : LicenseType) (p p' : Bool) :
    Op.Alike (.getLicenseChallenge S pssh licenseType p)
      (.getLicenseChallenge S pssh licenseType p')

namespace Impl.Alike

variable {impl impl' : Impl P} (h : impl.Alike impl')

include h

theorem lookup_none {S : Bytes} (hnone : impl.sessions.lookup S = none) :
    impl'.sessions.lookup S = none := by
  have hS := h.sessions S
  rwa [hnone, Option.map_none, Option.map_eq_none_iff] at hS

theorem lookup_some {S : Bytes} {s : SessionState} (hs : impl.sessions.lookup S = some s) :
    ∃ t, impl'.sessions.lookup S = some t ∧ t.uncertified = s.uncertified := by
  have hS := h.sessions S
  rw [hs, Option.map_some] at hS
  exact Option.map_eq_some_iff.mp hS

theorem keys_eq : impl'.sessions.keys = impl.sessions.keys := by
  ext S
  rw [Finmap.mem_keys, Finmap.mem_keys, Finmap.mem_iff, Finmap.mem_iff]
  have hS := congrArg Option.isSome (h.sessions S)
  rw [Option.isSome_map, Option.isSome_map] at hS
  rw [← Option.isSome_iff_exists, ← Option.isSome_iff_exists, hS]

theorem count : impl.count.Alike impl'.count :=
  { h with
    sessionCounter := by
      show impl'.sessionCounter + 1 = impl.sessionCounter + 1
      rw [h.sessionCounter] }

/-- Storing sessions that agree up to the certificate. -/
theorem store {S : Bytes} {s t : SessionState} (hst : t.uncertified = s.uncertified) :
    (impl.store S s).Alike (impl'.store S t) :=
  { h with
    sessions := by
      intro T
      by_cases hT : T = S
      · rw [hT, store_lookup_self, store_lookup_self, Option.map_some, Option.map_some, hst]
      · rw [store_lookup_ne hT, store_lookup_ne hT]
        exact h.sessions T }

theorem erase (S : Bytes) :
    ({ impl with sessions := impl.sessions.erase S } : Impl P).Alike
      { impl' with sessions := impl'.sessions.erase S } :=
  { h with
    sessions := by
      intro T
      by_cases hT : T = S
      · rw [hT, Finmap.lookup_erase, Finmap.lookup_erase]
      · rw [Finmap.lookup_erase_ne hT, Finmap.lookup_erase_ne hT]
        exact h.sessions T }

end Impl.Alike

/-! ## One step -/

/-- Sessions that agree up to the certificate differ in nothing else. -/
theorem uncertified_eq {s t : SessionState} (h : t.uncertified = s.uncertified) :
    t = { s with serviceCertificate := t.serviceCertificate } := by
  cases s
  cases t
  cases h
  rfl

theorem buildChallenge_alike {impl impl' : Impl P} (h : impl.Alike impl') {s t : SessionState}
    (hst : t.uncertified = s.uncertified) (pssh : Pssh) (licenseType : LicenseType) :
    buildChallenge impl' t pssh licenseType = buildChallenge impl s pssh licenseType := by
  have hnumber : t.number = s.number := by
    rw [uncertified_eq hst]
  unfold buildChallenge
  rw [h.type, h.rsaKey, h.clientId, hnumber]

/-- The answers of two machines, and the machines they leave. -/
def AnswersAlike (M N : Machine P) (op op' : Op) : Prop :=
  (step N op').1 = (step M op).1 ∧ (step M op).2.Alike (step N op').2

namespace Machine.Alike

variable {M N : Machine P} (h : M.Alike N)

include h

theorem unknown {op op' : Op} {S : Bytes} (htarget : op.target = some S)
    (htarget' : op'.target = some S) (hnone : M.impl.sessions.lookup S = none) :
    AnswersAlike M N op op' := by
  rw [AnswersAlike, step_unknown htarget hnone,
    step_unknown htarget' (h.impl.lookup_none hnone)]
  exact ⟨rfl, h⟩

theorem openSession : AnswersAlike M N .openSession .openSession := by
  by_cases hroom : M.impl.sessions.keys.card < 16
  · have hroom' : N.impl.sessions.keys.card < 16 := by
      rwa [h.impl.keys_eq]
    rw [AnswersAlike, step, step, Op.run, exec_map, exec_map, exec_openSession hroom,
      exec_openSession hroom', h.host, h.impl.count.sessionCounter]
    rcases exec (Crypto.randomBytes 12) M.host with ⟨e | random, host⟩
    · exact ⟨rfl, rfl, h.impl.count⟩
    · exact ⟨rfl, rfl, h.impl.count.store rfl⟩
  · have hfull : 16 ≤ M.impl.sessions.keys.card := Nat.not_lt.mp hroom
    have hfull' : 16 ≤ N.impl.sessions.keys.card := by
      rwa [h.impl.keys_eq]
    rw [AnswersAlike, step, step, Op.run, exec_map, exec_map, exec_openSession_full hfull,
      exec_openSession_full hfull']
    exact ⟨rfl, h⟩

theorem setServiceCertificate (S c c' : Bytes) :
    AnswersAlike M N (.setServiceCertificate S c) (.setServiceCertificate S c') := by
  cases hs : M.impl.sessions.lookup S with
  | none => exact h.unknown rfl rfl hs
  | some s =>
    obtain ⟨t, ht, hst⟩ := h.impl.lookup_some hs
    rw [AnswersAlike, step, step, Op.run, Op.run,
      exec_bind_ok (exec_setServiceCertificate hs c),
      exec_bind_ok (exec_setServiceCertificate ht c')]
    refine ⟨rfl, h.host, h.impl.store ?_⟩
    rw [uncertified_eq hst]
    rfl

theorem getLicenseChallenge (S : Bytes) (pssh : Pssh) (licenseType : LicenseType) (p p' : Bool) :
    AnswersAlike M N (.getLicenseChallenge S pssh licenseType p)
      (.getLicenseChallenge S pssh licenseType p') := by
  cases hs : M.impl.sessions.lookup S with
  | none => exact h.unknown rfl rfl hs
  | some s =>
    obtain ⟨t, ht, hst⟩ := h.impl.lookup_some hs
    rw [AnswersAlike, step, step, Op.run, Op.run, exec_map, exec_map,
      exec_getLicenseChallenge hs, exec_getLicenseChallenge ht, h.host,
      buildChallenge_alike h.impl hst]
    rcases exec (buildChallenge M.impl s pssh licenseType) M.host with ⟨e | c, host⟩
    · exact ⟨rfl, rfl, h.impl⟩
    · refine ⟨rfl, rfl, h.impl.store ?_⟩
      rw [uncertified_eq hst]
      rfl

theorem parseLicense (S licenseResponse : Bytes) :
    AnswersAlike M N (.parseLicense S licenseResponse) (.parseLicense S licenseResponse) := by
  cases hs : M.impl.sessions.lookup S with
  | none => exact h.unknown rfl rfl hs
  | some s =>
    obtain ⟨t, ht, hst⟩ := h.impl.lookup_some hs
    have hcontexts : t.contexts = s.contexts := by
      rw [uncertified_eq hst]
    rw [AnswersAlike, step, step, Op.run, exec_bind, exec_bind, exec_parseLicense hs,
      exec_parseLicense ht, h.host, h.impl.rsaKey, hcontexts]
    rcases exec (openLicense M.impl.rsaKey s.contexts licenseResponse) M.host
      with ⟨e | opened, host⟩
    · exact ⟨rfl, rfl, h.impl⟩
    · dsimp only
      rcases extractAll opened.derived.encKey opened.license.key host
        with ⟨⟨keys, failure⟩, host'⟩
      have hlicensed : (t.licensed opened.license.requestIdD (keys, failure)).uncertified
          = (s.licensed opened.license.requestIdD (keys, failure)).uncertified := by
        rw [uncertified_eq hst]
        cases failure <;> rfl
      cases failure with
      | none => exact ⟨rfl, rfl, h.impl.store hlicensed⟩
      | some e => exact ⟨rfl, rfl, h.impl.store hlicensed⟩

theorem getKeys (S : Bytes) (type : String) :
    AnswersAlike M N (.getKeys S type) (.getKeys S type) := by
  cases hs : M.impl.sessions.lookup S with
  | none => exact h.unknown rfl rfl hs
  | some s =>
    obtain ⟨t, ht, hst⟩ := h.impl.lookup_some hs
    have hkeys : t.keys = s.keys := by
      rw [uncertified_eq hst]
    rw [AnswersAlike, step, step, Op.run, exec_map, exec_map, exec_getKeys hs, exec_getKeys ht,
      hkeys]
    exact ⟨rfl, h⟩

/-- **The step lemma**: alike calls on alike machines are answered alike. -/
theorem step {op op' : Op} (hop : op.Alike op') : AnswersAlike M N op op' := by
  cases hop with
  | certificate S c c' => exact h.setServiceCertificate S c c'
  | privacyMode S pssh licenseType p p' => exact h.getLicenseChallenge S pssh licenseType p p'
  | same op =>
    cases op with
    | openSession => exact h.openSession
    | closeSession S => exact ⟨rfl, h.host, h.impl.erase S⟩
    | setServiceCertificate S c => exact h.setServiceCertificate S c c
    | getLicenseChallenge S pssh licenseType p =>
      exact h.getLicenseChallenge S pssh licenseType p p
    | parseLicense S licenseResponse => exact h.parseLicense S licenseResponse
    | getKeys S type => exact h.getKeys S type

end Machine.Alike

/-! ## Calls that may be left out -/

end WidevineCdm
