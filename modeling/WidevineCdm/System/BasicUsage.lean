import WidevineCdm.System.Client

/-!
# The example that stops at the challenge

`basic_usage` checks a device file, a PSSH, the parts of the device, and
whether there is a challenge for the PSSH, in this order. When random bytes and
signatures do not fail, it ends as the first check that fails says, and when
none does it has made its challenge.
-/

namespace WidevineCdm

open Lib Proto

variable {P : Platform}

/-- The checks of the program, in its order: the device file, the PSSH, the
object made of the device, and the challenge for the PSSH. -/
def basicChecks (files : Device.Files) (host : Host P) (devicePath psshB64 : String) :
    Except Exn Unit := do
  let device ← Device.fromWvd files devicePath
  let pssh ← Pssh.fromBase64 64 (ascii psshB64)
  let _ ← (exec (newImpl (P := P) device) host).1
  match pssh.refusal with
  | some e => .error e
  | none => .ok ()

section Steps

variable {files : Device.Files} {host : Host P} {devicePath psshB64 : String}

/-- How the `try` block ends: as the checks do, and if they pass the next
steps are printed last. -/
inductive StepsEnd (files : Device.Files) (host : Host P) (devicePath psshB64 : String) :
    Except Exn Unit × Process P → Prop where
  | refused {e : Exn} (h : basicChecks files host devicePath psshB64 = .error e)
      (host' : Host P) (out : String) :
    StepsEnd files host devicePath psshB64 (.error e, ⟨host', out, ""⟩)
  | done (h : basicChecks files host devicePath psshB64 = .ok ()) (host' : Host P)
      (printed : String) :
    StepsEnd files host devicePath psshB64 (.ok (), ⟨host', printed ++ nextSteps, ""⟩)

/-- In an open session the PSSH decides whether there is a challenge. -/
theorem challenge_or_refusal (hsigns : P.Signs) {M : Machine P} {sessionId : Bytes}
    {s : SessionState} (hs : M.impl.sessions.lookup sessionId = some s) (pssh : Pssh) :
    (∃ e M', pssh.refusal = some e ∧
      exec (getLicenseChallenge sessionId pssh .STREAMING true) M = (.error e, M')) ∨
    ∃ challenge M', pssh.refusal = none ∧
      exec (getLicenseChallenge sessionId pssh .STREAMING true) M = (.ok challenge, M') := by
  rw [exec_getLicenseChallenge hs]
  rcases hc : exec (buildChallenge M.impl s pssh .STREAMING) M.host with ⟨e | c, host⟩
  · exact .inl ⟨e, _, hsigns.buildChallenge M.impl s pssh .STREAMING _ _ _ hc, rfl⟩
  · exact .inr ⟨_, _, refusal_of_build hc, rfl⟩

theorem basicSteps_ends (hsigns : P.Signs) (files : Device.Files) (host : Host P)
    (devicePath psshB64 : String) :
    StepsEnd files host devicePath psshB64
      (exec (basicSteps files devicePath psshB64) ⟨host, "", ""⟩) := by
  have hlift : ∀ {α : Type} {r : Except Exn α} (p : Process P),
      exec (liftExcept r : ClientM P α) p = (r, p) := by
    intro α r p
    rw [exec_liftExcept]
  rw [basicSteps, exec_bind_ok (exec_print ..)]
  cases hdevice : Device.fromWvd files devicePath with
  | error e =>
    rw [exec_bind_error (hlift _)]
    exact .refused (by simp [basicChecks, bind, Except.bind, hdevice]) _ _
  | ok device =>
    rw [exec_bind_ok (hlift _), exec_bind_ok (exec_print ..)]
    cases hpssh : Pssh.fromBase64 64 (ascii psshB64) with
    | error e =>
      rw [exec_bind_error (hlift _)]
      exact .refused (by simp [basicChecks, bind, Except.bind, hdevice, hpssh]) _ _
    | ok pssh =>
      rw [exec_bind_ok (hlift _), exec_bind_ok (exec_print ..)]
      rcases hnew : exec (newImpl (P := P) device) host with ⟨e | cdm, host₁⟩
      · rw [exec_bind_error (by rw [exec_callCrypto, hnew])]
        exact .refused (by simp [basicChecks, bind, Except.bind, hdevice, hpssh, hnew]) _ _
      · obtain ⟨rsaKey, clientId, rfl⟩ := newImpl_fresh hnew
        rw [exec_bind_ok (exec_callCrypto_ok hnew)]
        obtain ⟨sessionId, M, hopen⟩ := openSession_returns hsigns host₁ device rsaKey clientId
        obtain ⟨-, -, -, number, hs⟩ := openSession_fresh hopen
        rw [exec_bind_ok (exec_callCdm_ok hopen)]
        dsimp only
        rw [exec_bind_ok (exec_print ..)]
        rcases challenge_or_refusal hsigns hs pssh with
          ⟨e, M', hrefusal, hget⟩ | ⟨challenge, M', hrefusal, hget⟩
        · rw [exec_bind_error (by rw [exec_callCdm, hget]; rfl)]
          exact .refused
            (by simp [basicChecks, bind, Except.bind, hdevice, hpssh, hnew, hrefusal]) _ _
        · rw [exec_bind_ok (exec_callCdm_ok hget)]
          dsimp only
          rw [exec_bind_ok (exec_print ..), exec_bind_ok (exec_print ..)]
          exact .done (by simp [basicChecks, bind, Except.bind, hdevice, hpssh, hnew, hrefusal]) _ _

end Steps

/-- The ways the program can end, with its exit code. -/
inductive BasicEnd (files : Device.Files) (program : String) (host : Host P) :
    List String → Nat → Process P → Prop where
  | usage {args : List String} (h : args.length < 2) :
    BasicEnd files program host args 1
      ⟨host, "", "Usage: " ++ program ++ " <device.wvd> <pssh_base64>\n"⟩
  | refused {devicePath psshB64 what : String} {e : Exn}
      (h : basicChecks files host devicePath psshB64 = .error e) (hwhat : e.what = some what)
      (more : List String) (host' : Host P) (out : String) :
    BasicEnd files program host (devicePath :: psshB64 :: more) 1
      ⟨host', out, "Error: " ++ what ++ "\n"⟩
  | done {devicePath psshB64 : String}
      (h : basicChecks files host devicePath psshB64 = .ok ()) (more : List String)
      (host' : Host P) (printed : String) :
    BasicEnd files program host (devicePath :: psshB64 :: more) 0
      ⟨host', printed ++ nextSteps, ""⟩

theorem refusal_reported {pssh : Pssh} {e : Exn} (h : pssh.refusal = some e) : Reported e := by
  unfold Pssh.refusal at h
  split at h
  · rw [← Option.some.inj h]
    exact ⟨_, rfl⟩
  · split at h
    · rw [← Option.some.inj h]
      exact ⟨_, rfl⟩
    · split at h
      · rw [← Option.some.inj h]
        exact ⟨_, rfl⟩
      · cases h

/-- What the checks report has a text. -/
theorem basicChecks_reported {files : Device.Files} {host : Host P} {devicePath psshB64 : String}
    {e : Exn} (h : basicChecks files host devicePath psshB64 = .error e) : Reported e := by
  simp only [basicChecks, bind, Except.bind] at h
  cases hdevice : Device.fromWvd files devicePath with
  | error e' =>
    rw [hdevice] at h
    rw [← Except.error.inj h]
    exact fromWvd_reported hdevice
  | ok device =>
    cases hpssh : Pssh.fromBase64 64 (ascii psshB64) with
    | error e' =>
      rw [hdevice, hpssh] at h
      rw [← Except.error.inj h]
      exact fromBase64_reported hpssh
    | ok pssh =>
      simp only [hdevice, hpssh] at h
      rcases hnew : exec (newImpl (P := P) device) host with ⟨e' | cdm, host'⟩
      · rw [hnew] at h
        rw [← Except.error.inj h]
        exact throws_newImpl device _ _ _ hnew
      · rw [hnew] at h
        cases hrefusal : pssh.refusal with
        | none =>
          rw [hrefusal] at h
          cases h
        | some e' =>
          rw [hrefusal] at h
          rw [← Except.error.inj h]
          exact refusal_reported hrefusal

/-- **How the basic example ends.** With random bytes and signatures that do
not fail, the program ends with exit code 0 exactly when it has its two
arguments and all checks pass, its output then ending with the next steps.
Otherwise it ends with exit code 1 and the usage, or the message of the first
check that fails. -/
theorem basic_usage_ends (hsigns : P.Signs) (files : Device.Files) (program : String)
    (args : List String) (host : Host P) :
    ∃ status process, exec (basicUsage files program args) ⟨host, "", ""⟩
        = (.ok status, process) ∧ BasicEnd files program host args status process := by
  rcases args with _ | ⟨devicePath, _ | ⟨psshB64, more⟩⟩
  · exact ⟨1, _, rfl, .usage Nat.two_pos⟩
  · exact ⟨1, _, rfl, .usage Nat.one_lt_two⟩
  · have hend := basicSteps_ends hsigns files host devicePath psshB64
    rw [basicUsage, exec_tryCatch, exec_bind]
    generalize exec (basicSteps files devicePath psshB64) ⟨host, "", ""⟩ = ended at hend ⊢
    cases hend with
    | @refused e h host' out =>
      obtain ⟨what, hwhat⟩ := basicChecks_reported h
      refine ⟨1, _, exec_reportError hwhat _, ?_⟩
      show BasicEnd files program host _ 1 ⟨host', out, "" ++ ("Error: " ++ what ++ "\n")⟩
      rw [String.empty_append]
      exact .refused h hwhat more host' out
    | done h host' printed => exact ⟨0, _, rfl, .done h more host' printed⟩

/-- The example PSSH and a device file on the reference platform. -/
theorem basic_usage_ends_example :
    ∃ process, exec (basicUsage (P := Reference.platform Reference.nominal)
        (fun _ => some (.bytes (ascii "WVD" ++ [2, 1, 3, 0, 0, 0, 0, 2, 8, 1]))) "basic_usage"
        ["device.wvd", psshBase64]) ⟨Reference.chrome.machine.host, "", ""⟩ = (.ok 0, process) ∧
      process.err = "" := by
  obtain ⟨status, process, hexec, hend⟩ := basic_usage_ends Reference.nominal_signs
    (fun _ => some (.bytes (ascii "WVD" ++ [2, 1, 3, 0, 0, 0, 0, 2, 8, 1]))) "basic_usage"
    ["device.wvd", psshBase64] Reference.chrome.machine.host
  have hchecks : basicChecks
      (fun _ => some (.bytes (ascii "WVD" ++ [2, 1, 3, 0, 0, 0, 0, 2, 8, 1])))
      Reference.chrome.machine.host "device.wvd" psshBase64 = .ok () := by
    decide +kernel
  cases hend with
  | usage h => exact absurd h (by decide)
  | refused h hwhat more host' out =>
    rw [hchecks] at h
    cases h
  | done h more host' printed => exact ⟨_, hexec, rfl⟩

end WidevineCdm
