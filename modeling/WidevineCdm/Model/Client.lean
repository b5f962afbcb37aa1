import WidevineCdm.Model.Key

/-!
# The example programs

`test_license_server` goes through a whole licence exchange: it reads a device
file, makes a CDM object, opens a session, sends a challenge to a server and
prints the keys of the answer. `basic_usage` stops at the challenge, which is
for a PSSH it is given. The files and the server are parameters; the object is
a local variable, so an exception ends its life.
-/

namespace WidevineCdm

open Lib

/-- What the program finds outside: files, and the server's answer to a POST,
unless the transfer fails. -/
structure Setting where
  files : Device.Files
  post : String → Bytes → Option Bytes

/-- A process: the outside world its CDM object calls, and what it has written
to standard output and standard error. -/
structure Process (P : Platform) where
  host : Host P
  out : String
  err : String

abbrev ClientM (P : Platform) := EStateM Exn (Process P)

variable {P : Platform}

/-- Write to standard output. -/
def print (text : String) : ClientM P Unit :=
  modify fun process => { process with out := process.out ++ text }

/-- Write to standard error. -/
def printError (text : String) : ClientM P Unit :=
  modify fun process => { process with err := process.err ++ text }

/-- The lines, each with its end. -/
def textLines (lines : List String) : String :=
  lines.foldl (fun text line => text ++ line ++ "\n") ""

/-- Run a crypto computation of the library. -/
def callCrypto {α : Type} (m : CryptoM P α) : ClientM P α :=
  zoom Process.host (fun host process => { process with host }) m

/-- Call a member of the CDM object; the object is what the call leaves. -/
def callCdm {α : Type} (cdm : Impl P) (m : CdmM P α) : ClientM P (α × Impl P) := fun process =>
  match m ⟨process.host, cdm⟩ with
  | .ok a machine => .ok (a, machine.impl) { process with host := machine.host }
  | .error e machine => .error e { process with host := machine.host }

/-- The handler `catch (const std::exception& e)` of `main`, with the words
that it puts before the text of the exception. -/
def reportError (words : String) (e : Exn) : ClientM P Nat :=
  match e.what with
  | some what => do
    printError (words ++ what ++ "\n")
    return 1
  | none => throw e

/-- The licence server of the example. -/
def licenseUrl : String := "https://cwip-shaka-proxy.appspot.com/no_auth"

/-- The PSSH of the example. -/
def psshBase64 : String :=
  "AAAAW3Bzc2gAAAAA7e+LqXnWSs6jyCfc1R0h7QAAADsIARIQ62dqu8s0Xpa"
    ++ "7z2FmMPGj2hoNd2lkZXZpbmVfdGVzdCIQZmtqM2xqYVNkZmFsa3IzaioCSEQyAA=="

/-- `http_post` (test_license_server.cpp:15–41). -/
def httpPost (setting : Setting) (url : String) (data : Bytes) : Except Exn Bytes :=
  match setting.post url data with
  | some response => .ok response
  | none => .error (.runtimeError "HTTP POST failed")

/-- Bytes printed as they are, shown as the characters of these codes. -/
def rawText (bytes : Bytes) : String := String.ofList (bytes.map fun b => Char.ofNat b.toNat)

/-- The first part of `main`, up to the answer of the server
(test_license_server.cpp:51–94): the object, the id of its session and the
answer. -/
def sendChallenge (setting : Setting) (devicePath : String) :
    ClientM P (Impl P × Bytes × Bytes) := do
  print (textLines
    ["=== Widevine-CPP Example ===",
     "License URL: " ++ licenseUrl,
     "Device file: " ++ devicePath,
     "",
     "[1] Loading device from: " ++ devicePath])
  let device ← liftExcept (Device.fromWvd setting.files devicePath)
  print (textLines
    ["    Device loaded successfully",
     "    Type: " ++ (if device.type = .CHROME then "Chrome" else "Android"),
     "    Security Level: L" ++ toString device.securityLevel.toNat,
     "",
     "[2] Creating CDM..."])
  let cdm ← callCrypto (newImpl device)
  print (textLines ["    CDM initialized", "", "[3] Opening session..."])
  let (sessionId, cdm) ← callCdm cdm openSession
  print (textLines ["    Session ID: " ++ hexString sessionId, "", "[4] Parsing PSSH..."])
  let pssh ← liftExcept (Pssh.fromBase64 64 (ascii psshBase64))
  print (textLines
    ["    PSSH version: " ++ toString pssh.version.toNat,
     "    Is Widevine: " ++ (if pssh.isWidevine then "Yes" else "No"),
     "",
     "[5] Generating license challenge...",
     "    Using PSSH for Google's Widevine test content",
     "    Note: This may fail if your device isn't whitelisted"])
  let (challenge, cdm) ← callCdm cdm (getLicenseChallenge sessionId pssh .STREAMING false)
  print (textLines
    ["    Challenge size: " ++ toString challenge.length ++ " bytes",
     "",
     "[6] Sending challenge to license server..."])
  let response ← liftExcept (httpPost setting licenseUrl challenge)
  print (textLines ["    Response size: " ++ toString response.length ++ " bytes"])
  return (cdm, sessionId, response)

/-- What is printed for an answer that is taken for an error. -/
def serverErrorText (response : Bytes) : String :=
  textLines
    ["    Server error: " ++ rawText response,
     "",
     "This is expected - the test server requires whitelisted devices.",
     "The library is working correctly. Use with real content URLs."]

/-- What is printed around the keys. -/
def keysText (keys : List Key) : String :=
  textLines ["    License parsed successfully", "", "[8] Extracting keys..."] ++ listing keys
    ++ textLines ["", "[9] Closing session..."]
    ++ textLines ["    Session closed", "", "=== SUCCESS ==="]

/-- The second part of `main` (test_license_server.cpp:97–125), with the exit
code. -/
def receiveLicense (cdm : Impl P) (sessionId response : Bytes) : ClientM P Nat := do
  -- Check if response looks like an error
  if response.length < 100 then
    print (serverErrorText response)
    return 0
  print (textLines ["", "[7] Parsing license..."])
  let (_, cdm) ← callCdm cdm (parseLicense sessionId response)
  print (textLines ["    License parsed successfully", "", "[8] Extracting keys..."])
  let (keys, cdm) ← callCdm cdm (getKeys sessionId "")
  print (listing keys)
  print (textLines ["", "[9] Closing session..."])
  let _ ← callCdm cdm (closeSession sessionId)
  print (textLines ["    Session closed", "", "=== SUCCESS ==="])
  return 0

/-- `main` (test_license_server.cpp:43–131), given the arguments after the name
of the program. -/
def testLicenseServer (setting : Setting) (args : List String) : ClientM P Nat :=
  tryCatch
    (do
      let (cdm, sessionId, response) ← sendChallenge setting (args.headD "device.wvd")
      receiveLicense cdm sessionId response)
    (reportError "\nERROR: ")

/-! ## `examples/basic_usage.cpp` -/

/-- What is printed when the challenge is made. -/
def nextSteps : String :=
  textLines
    ["",
     "=== SUCCESS ===",
     "To complete the flow:",
     "1. POST challenge to license server",
     "2. Call cdm.parse_license() with response",
     "3. Extract keys with cdm.get_keys()"]

/-- The `try` block of `main` (basic_usage.cpp:13–62). An argument is shown as
the characters of its bytes' codes. -/
def basicSteps (files : Device.Files) (devicePath psshB64 : String) : ClientM P Unit := do
  print (textLines ["Loading device from: " ++ devicePath])
  let device ← liftExcept (Device.fromWvd files devicePath)
  print (textLines
    ["Device loaded: L" ++ toString device.securityLevel.toNat, "", "Parsing PSSH..."])
  let pssh ← liftExcept (Pssh.fromBase64 64 (ascii psshB64))
  print (textLines
    ["PSSH version: " ++ toString pssh.version.toNat,
     "Is Widevine: " ++ (if pssh.isWidevine then "Yes" else "No"),
     "",
     "Creating CDM..."])
  let cdm ← callCrypto (newImpl device)
  let (sessionId, cdm) ← callCdm cdm openSession
  print (textLines
    ["Session opened: " ++ hexString sessionId, "", "Generating license challenge..."])
  let (challenge, cdm) ← callCdm cdm (getLicenseChallenge sessionId pssh .STREAMING true)
  print (textLines ["Challenge generated: " ++ toString challenge.length ++ " bytes"])
  print nextSteps
  let _ ← callCdm cdm (closeSession sessionId)

/-- `main` (basic_usage.cpp:7–70), given the name of the program and the
arguments after it. -/
def basicUsage (files : Device.Files) (program : String) (args : List String) :
    ClientM P Nat :=
  match args with
  | devicePath :: psshB64 :: _ =>
    tryCatch
      (do
        basicSteps files devicePath psshB64
        return 0)
      (reportError "Error: ")
  | _ => do
    printError ("Usage: " ++ program ++ " <device.wvd> <pssh_base64>\n")
    return 1

end WidevineCdm
