import WidevineCdm.Lib.Simulation
import WidevineCdm.License.Order
import WidevineCdm.Session.PendingLedger

/-!
# Sessions do not interfere

Isolation says what one call leaves alone. Here is what follows for whole
interleavings: with primitives that answer the same whenever they are asked,
the calls made on a session are answered, and the session ends, as if none of
the calls in between had been made. Those may open, close and use any number
of other sessions. Calls of `get_license_challenge` on the session itself are
the exception, since every challenge draws from one source of random bytes.
-/

namespace WidevineCdm

open Lib Proto

variable {P : Platform}

/-! ## Agreement on one session -/

/-- The call is made on `S`. -/
def Op.on (S : Bytes) (op : Op) : Bool := op.subject = some S

/-- The objects agree on the RSA key and on the session `S`. -/
structure AgreeOn (S : Bytes) (impl impl' : Impl P) : Prop where
  rsaKey : impl'.rsaKey = impl.rsaKey
  session : impl'.sessions.lookup S = impl.sessions.lookup S

/-- The event neither opens `S` anew nor is a challenge on it. -/
def Undisturbing (S : Bytes) (e : Event) : Prop :=
  e ≠ Event.opened S ∧
    ∀ pssh licenseType privacyMode, e.1 ≠ .getLicenseChallenge S pssh licenseType privacyMode

/-- A call on another session, or an `open_session` that returns another id,
leaves `S` as it was. -/
theorem Transition.agreeOn {impl impl' : Impl P} {op : Op} {outcome : Except Exn Reply}
    (h : Transition impl op outcome impl') {S : Bytes} (hop : op.on S = false)
    (hopened : (op, outcome) ≠ Event.opened S) : AgreeOn S impl' impl where
  rsaKey := h.rsaKey.symm
  session := by
    have hne : ¬ op.subject = some S := of_decide_eq_false hop
    cases hsubject : op.subject with
    | some T =>
      refine (h.frame hsubject ?_).symm
      rintro rfl
      exact hne hsubject
    | none =>
      have hopen : op = .openSession := by
        cases op with
        | openSession => rfl
        | _ => cases hsubject
      subst hopen
      cases h with
      | full hfull => rfl
      | noEntropy hroom => rfl
      | opened random hroom =>
        refine (store_lookup_ne ?_ _ _).symm
        rintro rfl
        exact hopened rfl
      | unknown htarget hnone => cases htarget
      | refused htarget hs he => cases htarget

/-- Responses are settled alike by objects that agree on the session. -/
theorem AgreeOn.parse (hdet : P.Deterministic) {S : Bytes} {impl impl' : Impl P}
    (h : AgreeOn S impl impl') (licenseResponse : Bytes) (host host' : Host P) :
    (impl'.parse S licenseResponse host').1 = (impl.parse S licenseResponse host).1 ∧
      AgreeOn S (impl.parse S licenseResponse host).2
        (impl'.parse S licenseResponse host').2 := by
  rw [parse_steady hdet impl' S licenseResponse host' host]
  unfold Impl.parse
  rw [h.session, h.rsaKey]
  cases impl.sessions.lookup S with
  | none => exact ⟨rfl, h.rsaKey, h.session⟩
  | some s =>
    refine ⟨rfl, h.rsaKey, ?_⟩
    rw [store_lookup_self, store_lookup_self]

/-- A call on `S` is answered alike by machines that agree on `S`. -/
theorem AgreeOn.step (hdet : P.Deterministic) {S : Bytes} {M N : Machine P}
    (h : AgreeOn S M.impl N.impl) {op : Op} (hop : op.on S = true)
    (hdraw : ∀ pssh licenseType privacyMode,
      op ≠ .getLicenseChallenge S pssh licenseType privacyMode) :
    (step N op).1 = (step M op).1 ∧ AgreeOn S (step M op).2.impl (step N op).2.impl := by
  have hsubject : op.subject = some S := of_decide_eq_true hop
  have hunknown : op.target = some S → M.impl.sessions.lookup S = none →
      (WidevineCdm.step N op).1 = (WidevineCdm.step M op).1 ∧
        AgreeOn S (WidevineCdm.step M op).2.impl (WidevineCdm.step N op).2.impl := by
    intro htarget hnone
    rw [step_unknown htarget hnone, step_unknown htarget (h.session.trans hnone)]
    exact ⟨rfl, h⟩
  cases op with
  | openSession => cases hsubject
  | closeSession T =>
    cases hsubject
    refine ⟨rfl, h.rsaKey, ?_⟩
    show (N.impl.sessions.erase S).lookup S = (M.impl.sessions.erase S).lookup S
    rw [Finmap.lookup_erase, Finmap.lookup_erase]
  | setServiceCertificate T certificate =>
    cases hsubject
    cases hs : M.impl.sessions.lookup S with
    | none => exact hunknown rfl hs
    | some s =>
      rw [WidevineCdm.step, WidevineCdm.step, Op.run,
        exec_bind_ok (exec_setServiceCertificate hs certificate),
        exec_bind_ok (exec_setServiceCertificate (h.session.trans hs) certificate)]
      refine ⟨rfl, h.rsaKey, ?_⟩
      show (N.impl.store S _).sessions.lookup S = (M.impl.store S _).sessions.lookup S
      rw [store_lookup_self, store_lookup_self]
  | getLicenseChallenge T pssh licenseType privacyMode =>
    cases hsubject
    exact absurd rfl (hdraw pssh licenseType privacyMode)
  | parseLicense T licenseResponse =>
    cases hsubject
    have hM := step_parse M S licenseResponse
    have hN := step_parse N S licenseResponse
    obtain ⟨hout, hagree⟩ := h.parse hdet licenseResponse M.host N.host
    obtain ⟨hM₁, hM₂⟩ := Prod.ext_iff.mp hM
    obtain ⟨hN₁, hN₂⟩ := Prod.ext_iff.mp hN
    dsimp only at hM₁ hM₂ hN₁ hN₂
    rw [hM₁, hM₂, hN₁, hN₂]
    exact ⟨hout, hagree⟩
  | getKeys T type =>
    cases hsubject
    cases hs : M.impl.sessions.lookup S with
    | none => exact hunknown rfl hs
    | some s =>
      rw [WidevineCdm.step, WidevineCdm.step, Op.run, exec_map, exec_map, exec_getKeys hs,
        exec_getKeys (h.session.trans hs)]
      exact ⟨rfl, h⟩

/-- A machine against itself with only the calls on `S`. -/
theorem lockstep_agreeOn (hdet : P.Deterministic) (S : Bytes) :
    Lockstep (step (P := P)) step (fun M N => AgreeOn S M.impl N.impl) (Undisturbing S)
      (Op.on S) id where
  kept _ _ _ h hallowed hk := h.step hdet hk hallowed.2
  erased M _ op h hallowed hk := by
    have hframe := (step_transition M op).agreeOn hk hallowed.1
    exact ⟨h.rsaKey.trans hframe.rsaKey, h.session.trans hframe.session⟩

/-! ## Main result -/

/-- An open session is not opened anew within `2 ^ 32` calls of
`open_session`. -/
theorem not_reopened (start : Start P) (ops later : List Op)
    (hops : (ops ++ later).count .openSession < 2 ^ 32) {S : Bytes}
    (hS : S ∈ (start.run ops).2.impl.sessions.keys) :
    Event.opened S ∉ (runFrom step (start.run ops).2 later).1 := by
  intro hmem
  have hfew := lt_of_le_of_lt (countP_generated_le start (ops ++ later)) hops
  have hinv := lifecycle_run start (ops ++ later)
  obtain ⟨before, between, hsplit, -⟩ := (lifecycle_run start ops).mem_keys.mp hS
  obtain ⟨front, back, hlater⟩ := List.append_of_mem hmem
  have hhistory : (start.run (ops ++ later)).1
      = (start.run ops).1 ++ (runFrom step (start.run ops).2 later).1 := by
    rw [Start.run, runFrom_append]
    rfl
  have htwice : (start.run (ops ++ later)).1
      = before ++ Event.opened S :: ((between ++ front) ++ Event.opened S :: back) := by
    rw [hhistory, hsplit, hlater]
    simp only [List.append_assoc, List.cons_append]
  exact hinv.not_twice hfew htwice

/-- **Noninterference of sessions.** Let `S` be open in a reachable state, and
let any calls follow, fewer than `2 ^ 32` of them in all being calls of
`open_session` and none being a challenge on `S`. Then the calls on `S` among
them are answered as they are when the others are not made at all, and leave
the session `S` the same. -/
theorem sessions_do_not_interfere (hdet : P.Deterministic) (start : Start P) (ops later : List Op)
    (hops : (ops ++ later).count .openSession < 2 ^ 32) {S : Bytes}
    (hS : S ∈ (start.run ops).2.impl.sessions.keys)
    (hdraw : ∀ pssh licenseType privacyMode,
      Op.getLicenseChallenge S pssh licenseType privacyMode ∉ later) :
    (runFrom step (start.run ops).2 (later.filter (Op.on S))).1
        = (runFrom step (start.run ops).2 later).1.filter (fun e => e.1.on S) ∧
      (runFrom step (start.run ops).2 (later.filter (Op.on S))).2.impl.sessions.lookup S
        = (runFrom step (start.run ops).2 later).2.impl.sessions.lookup S := by
  have hopened := not_reopened start ops later hops hS
  have hallowed : ∀ e ∈ (runFrom step (start.run ops).2 later).1, Undisturbing S e := by
    intro e he
    refine ⟨fun heq => hopened (heq ▸ he), fun pssh licenseType privacyMode heq => ?_⟩
    have hin : e.1 ∈ later := by
      rw [← runFrom_inputs step (start.run ops).2 later]
      exact List.mem_map_of_mem he
    rw [heq] at hin
    exact hdraw pssh licenseType privacyMode hin
  have hruns := (lockstep_agreeOn hdet S).run
    (s := (start.run ops).2) (t := (start.run ops).2) ⟨rfl, rfl⟩ later hallowed
  rw [List.map_id] at hruns
  refine ⟨?_, hruns.2.session⟩
  rw [hruns.1]
  exact List.map_id _

/-- Two sessions with a challenge pending in each: the first is answered the
same whether or not the second is used in between. -/
theorem sessions_do_not_interfere_exchange :
    (runFrom step (Reference.chrome.run Reference.twoSessions).2
        [.parseLicense (Reference.sessionId 1) Reference.honestResponse,
          .getKeys (Reference.sessionId 1) ""]).1
      = (runFrom step (Reference.chrome.run Reference.twoSessions).2
          [.parseLicense (Reference.sessionId 2) Reference.honestResponse, .openSession,
            .parseLicense (Reference.sessionId 1) Reference.honestResponse,
            .closeSession (Reference.sessionId 2),
            .getKeys (Reference.sessionId 1) ""]).1.filter
              (fun e => e.1.on (Reference.sessionId 1)) :=
  (sessions_do_not_interfere (Reference.deterministic Reference.nominal_steady) Reference.chrome
    Reference.twoSessions
    [.parseLicense (Reference.sessionId 2) Reference.honestResponse, .openSession,
      .parseLicense (Reference.sessionId 1) Reference.honestResponse,
      .closeSession (Reference.sessionId 2), .getKeys (Reference.sessionId 1) ""]
    (by decide) (S := Reference.sessionId 1) (by decide +kernel)
    (by simp)).1

end WidevineCdm
