import WidevineCdm.Reference.Messages
import WidevineCdm.Session.Transition

/-!
# A reference platform

A platform that runs: the codec of `Reference.Messages`, a libcrypto that
answers from a recording of the real one, random bytes that are all zero, a
clock that stands still. An `Environment` says when entropy and when
libcrypto fail. The block cipher of a recording exchanges each recorded
plaintext block with its ciphertext block and is a permutation for every key,
so the contracts of `Model.Contracts` hold of the platform as they do of the
real thing.
-/

namespace WidevineCdm.Reference

open Lib Proto

/-! ## Recordings -/

/-- An AES-128 block; byte strings are given as big-endian numbers. -/
structure BlockRecord where
  key : Nat
  plain : Nat
  cipher : Nat

/-- A keyed digest of some data. -/
structure DigestRecord where
  key : Bytes
  data : Bytes
  digest : Nat

/-- What libcrypto was asked and what it answered. -/
structure Recording where
  blocks : List BlockRecord := []
  cmacs : List DigestRecord := []
  hmacs : List DigestRecord := []
  signatures : List (Bytes × Bytes) := []
  unwrapped : List (Bytes × Bytes) := []

/-- The digest of `size` bytes recorded for a key and data, or zeros. -/
def digest (size : Nat) (records : List DigestRecord) (key data : Bytes) : Bytes :=
  match records.find? fun r => r.key = key ∧ r.data = data with
  | some r => beBytes size r.digest
  | none => List.replicate size 0

theorem digest_length (size : Nat) (records : List DigestRecord) (key data : Bytes) :
    (digest size records key data).length = size := by
  unfold digest
  cases records.find? fun r => r.key = key ∧ r.data = data with
  | none => exact List.length_replicate
  | some r => exact beBytes_length size r.digest

/-! ## The block cipher of a recording -/

/-- Exchange the plaintext and the ciphertext of a record of the key. -/
def BlockRecord.exchange (r : BlockRecord) (key block : Bytes) : Bytes :=
  if key = beBytes 16 r.key then
    Equiv.swap (beBytes 16 r.plain) (beBytes 16 r.cipher) block
  else block

theorem BlockRecord.exchange_exchange (r : BlockRecord) (key block : Bytes) :
    r.exchange key (r.exchange key block) = block := by
  unfold BlockRecord.exchange
  by_cases hkey : key = beBytes 16 r.key
  · rw [if_pos hkey, if_pos hkey, Equiv.swap_apply_self]
  · rw [if_neg hkey, if_neg hkey]

theorem BlockRecord.exchange_length (r : BlockRecord) (key : Bytes) {block : Bytes}
    (h : block.length = 16) : (r.exchange key block).length = 16 := by
  unfold BlockRecord.exchange
  by_cases hkey : key = beBytes 16 r.key
  · rw [if_pos hkey, Equiv.swap_apply_def]
    split
    · exact beBytes_length ..
    · split
      · exact beBytes_length ..
      · exact h
  · rw [if_neg hkey]
    exact h

def encryptBlock (records : List BlockRecord) (key block : Bytes) : Bytes :=
  records.foldl (fun b r => r.exchange key b) block

def decryptBlock (records : List BlockRecord) (key block : Bytes) : Bytes :=
  records.foldr (fun r b => r.exchange key b) block

/-- The cipher of a recording: encryption applies its records in order,
decryption in reverse. -/
def cipher (records : List BlockRecord) : BlockCipher 16 where
  encrypt := encryptBlock records
  decrypt := decryptBlock records
  encrypt_length key block h := by
    induction records generalizing block with
    | nil => exact h
    | cons r rest ih => exact ih _ (r.exchange_length key h)
  decrypt_encrypt key block h := by
    induction records generalizing block with
    | nil => rfl
    | cons r rest ih =>
      show r.exchange key (decryptBlock rest key (encryptBlock rest key (r.exchange key block)))
        = block
      rw [ih _ (r.exchange_length key h), r.exchange_exchange]

/-! ## The platform -/

/-- When the outside fails. The world counts the calls made to it. -/
structure Environment where
  recording : Recording
  entropy : Nat → Bool
  succeeds : LibCall Unit → Nat → Bool
  time : Int64

/-- The plaintext recorded for an RSA-OAEP ciphertext. -/
def Recording.unwrap (rec : Recording) (ciphertext : Bytes) : Option Bytes :=
  (rec.unwrapped.find? fun r => r.1 = ciphertext).map Prod.snd

/-- An RSA-OAEP ciphertext of the plaintext. -/
def Recording.Wraps (rec : Recording) (_ : Unit) (plaintext ciphertext : Bytes) : Prop :=
  ciphertext ≠ [] ∧ rec.unwrap ciphertext = some plaintext

instance (rec : Recording) (u : Unit) (plaintext ciphertext : Bytes) :
    Decidable (rec.Wraps u plaintext ciphertext) :=
  inferInstanceAs (Decidable (_ ∧ _))

/-- The signature recorded for the data, or zeros. -/
def Recording.sign (rec : Recording) (data : Bytes) : Bytes :=
  match rec.signatures.find? fun r => r.1 = data with
  | some r => r.2
  | none => List.replicate 64 0

/-- The bytes that a call given the length `inl` reads; with a negative length
it fails. -/
def readable (data : Bytes) (inl : Int32) : Option Bytes :=
  if 0 ≤ inl.toInt then some (data.take inl.toNatClampNeg) else none

/-- The platform of an environment, with one RSA key. -/
def platform (env : Environment) : Platform where
  World := Nat
  PKey := Unit
  ClientIdentification := Bytes
  parseClientIdentification := some
  isInitialized _ := true
  byteSizeLong := List.length
  serializeLicenseRequest := serializeLicenseRequest
  parseLicenseRequest := parseLicenseRequest
  serializeSignedMessage := serializeSignedMessage
  parseSignedMessage := parseSignedMessage
  serializeLicense := serializeLicense
  parseLicense := parseLicense
  time tick := (env.time, tick + 1)
  -- the shift distance of the usual machines is taken modulo 32
  wideShift x s tick := (x >>> UInt32.ofNat (s % 32), tick + 1)
  randBytes n tick := (if env.entropy tick then some (List.Vector.replicate n 0) else none,
    tick + 1)
  d2iPrivateKey _ tick := (some (), tick + 1)
  succeeds call tick := (env.succeeds call tick, tick + 1)
  evpDigestSignFinal _ data tick := (some (env.recording.sign data), tick + 1)
  evpPkeyDecrypt _ ciphertext tick := (env.recording.unwrap ciphertext, tick + 1)
  evpDecryptUpdate ctx ciphertext inl tick :=
    ((readable ciphertext inl).map (cbcDecrypt (cipher env.recording.blocks) ctx.key ctx.iv),
      tick + 1)
  evpEncryptUpdate ctx plaintext inl tick :=
    ((readable plaintext inl).map fun data =>
      (cbcEncrypt (cipher env.recording.blocks) ctx.key ctx.iv (pkcs7Pad 16 data)).take
        (16 * (data.length / 16)), tick + 1)
  evpEncryptFinal ctx plaintext inl tick :=
    ((readable plaintext inl).map fun data =>
      (cbcEncrypt (cipher env.recording.blocks) ctx.key ctx.iv (pkcs7Pad 16 data)).drop
        (16 * (data.length / 16)), tick + 1)
  cmacFinal key data tick := (some (digest 16 env.recording.cmacs key data), tick + 1)
  hmac key data tick := (some (digest 32 env.recording.hmacs key data), tick + 1)

/-- **The codec of the reference platform is lawful.** -/
theorem lawfulCodec (env : Environment) : (platform env).LawfulCodec where
  signedMessage := parseSignedMessage_serialize
  licenseRequest := parseLicenseRequest_serialize
  license := parseLicense_serialize

theorem cmacBlock (env : Environment) : (platform env).CmacBlock := by
  intro key data world mac world' h
  obtain ⟨hmac, -⟩ := Prod.mk.inj h
  rw [← Option.some.inj hmac]
  exact digest_length 16 env.recording.cmacs key data

theorem hmac_length {env : Environment} {key data mac : Bytes} {tick : Nat}
    (h : ((platform env).hmac key data tick).1 = some mac) : mac.length = 32 := by
  rw [← Option.some.inj h]
  exact digest_length 32 env.recording.hmacs key data

/-- The primitives are functions of their arguments if no call fails at one
time and not at another. -/
theorem deterministic {env : Environment}
    (h : ∀ call tick tick', env.succeeds call tick = env.succeeds call tick') :
    (platform env).Deterministic where
  succeeds := h
  evpPkeyDecrypt _ _ _ _ := rfl
  cmacFinal _ _ _ _ := rfl
  hmac _ _ _ _ := rfl
  evpDecryptUpdate _ _ _ _ _ := rfl

theorem readable_ofNat {data : Bytes} {n : Nat} (h : n < 2 ^ 31) :
    readable data (Int32.ofNat n) = some (data.take n) := by
  rw [readable, Int32.toInt_ofNat_of_lt h, if_pos (Int.natCast_nonneg n),
    Int32.toNatClampNeg_ofNat_of_lt h]

theorem readable_length {data read : Bytes} {inl : Int32} (h : readable data inl = some read) :
    read.length < 2 ^ 31 := by
  have hinl : inl.toInt < 2 ^ 31 := inl.toInt_lt
  unfold readable at h
  split at h
  · rw [← Option.some.inj h, List.length_take, Int32.toNatClampNeg]
    omega
  · cases h

section CipherCalls

variable (env : Environment) {key iv data : Bytes} {n : Nat} (h : CbcArguments key iv data n)
  (tick : Nat)

include h

theorem evpEncryptUpdate_eq :
    ((platform env).evpEncryptUpdate ⟨key, iv, true⟩ data (Int32.ofNat n) tick).1
      = some ((cbcEncrypt (cipher env.recording.blocks) key iv (pkcs7Pad 16 (data.take n))).take
        (16 * (n / 16))) := by
  show (readable data (Int32.ofNat n)).map _ = _
  rw [readable_ofNat h.lt_int, Option.map_some, List.length_take_of_le h.le_length]

theorem evpEncryptFinal_eq :
    ((platform env).evpEncryptFinal ⟨key, iv, true⟩ data (Int32.ofNat n) tick).1
      = some ((cbcEncrypt (cipher env.recording.blocks) key iv (pkcs7Pad 16 (data.take n))).drop
        (16 * (n / 16))) := by
  show (readable data (Int32.ofNat n)).map _ = _
  rw [readable_ofNat h.lt_int, Option.map_some, List.length_take_of_le h.le_length]

theorem evpDecryptUpdate_eq :
    ((platform env).evpDecryptUpdate ⟨key, iv, false⟩ data (Int32.ofNat n) tick).1
      = some (cbcDecrypt (cipher env.recording.blocks) key iv (data.take n)) := by
  show (readable data (Int32.ofNat n)).map _ = _
  rw [readable_ofNat h.lt_int, Option.map_some]

end CipherCalls

/-- **The cipher calls of the reference platform are as documented.** -/
theorem cbcCalls (env : Environment) :
    (platform env).CbcCalls (cipher env.recording.blocks) where
  evpEncryptUpdate _ _ _ _ w _ harguments h :=
    (Option.some.inj ((evpEncryptUpdate_eq env harguments w).symm.trans h)).symm
  evpEncryptFinal _ _ _ _ w _ harguments h :=
    (Option.some.inj ((evpEncryptFinal_eq env harguments w).symm.trans h)).symm
  evpDecryptUpdate _ _ _ _ w _ harguments h :=
    (Option.some.inj ((evpDecryptUpdate_eq env harguments w).symm.trans h)).symm
  evpDecryptUpdate_length _ _ _ _ _ _ _ hiv h := by
    obtain ⟨read, hread, hplaintext⟩ := Option.map_eq_some_iff.mp h
    have hlength := readable_length hread
    rw [← hplaintext, cbcDecrypt_length _ _ hiv]
    omega

theorem cbcSucceeds {env : Environment}
    (h : ∀ call tick, call.Proper → env.succeeds call tick = true) :
    (platform env).CbcSucceeds where
  evpCipherCtxNew w := h _ w trivial
  evpEncryptInit _ _ w hkey hiv := h _ w ⟨hkey, hiv⟩
  evpDecryptInit _ _ w hkey hiv := h _ w ⟨hkey, hiv⟩
  evpEncryptUpdate _ _ _ _ w harguments :=
    Option.isSome_of_eq_some (evpEncryptUpdate_eq env harguments w)
  evpEncryptFinal _ _ _ _ w harguments :=
    Option.isSome_of_eq_some (evpEncryptFinal_eq env harguments w)
  evpDecryptUpdate _ _ _ _ w harguments :=
    Option.isSome_of_eq_some (evpDecryptUpdate_eq env harguments w)

/-- **libcrypto works on the reference platform** if no proper call fails. -/
theorem working {env : Environment}
    (h : ∀ call tick, call.Proper → env.succeeds call tick = true) :
    (platform env).Working (cipher env.recording.blocks) (digest 16 env.recording.cmacs)
      env.recording.Wraps where
  succeeds := h
  cbcCalls := cbcCalls env
  cbcSucceeds := cbcSucceeds h
  cmacFinal _ _ _ _ := rfl
  cmac_length := digest_length 16 env.recording.cmacs
  evpPkeyDecrypt _ _ _ _ hwraps := hwraps.2
  wraps_ne_nil _ _ _ hwraps := hwraps.1

/-! ## Entropy failures -/

/-- The number of calls made so far. -/
def ticks {env : Environment} (host : Host (platform env)) : Nat := host.world

/-- Nothing changes in the machine but the number of calls and of ids. -/
def starve {env : Environment} (M : Machine (platform env)) (n : Nat) :
    Machine (platform env) :=
  ⟨⟨ticks M.host + n, M.host.aesCalls⟩,
    { M.impl with sessionCounter := M.impl.sessionCounter + UInt32.ofNat n }⟩

theorem exec_randomBytes {env : Environment} (n : Nat) (M : Machine (platform env)) :
    exec (Crypto.randomBytes n) M.host =
      (if env.entropy (ticks M.host) then .ok (List.Vector.replicate n 0)
        else .error (.runtimeError "Failed to generate random bytes"), (starve M 1).host) := by
  have hask : exec (Crypto.ask ((platform env).randBytes n)) M.host
      = (.ok (if env.entropy (ticks M.host) then some (List.Vector.replicate n 0) else none),
        (starve M 1).host) := rfl
  rw [Crypto.randomBytes, Crypto.demand, exec_bind_ok hask]
  cases env.entropy (ticks M.host) <;> rfl

theorem step_openSession_starved {env : Environment} {M : Machine (platform env)}
    (hroom : M.impl.sessions.keys.card < 16) (hentropy : env.entropy (ticks M.host) = false) :
    step M .openSession
      = (.error (.runtimeError "Failed to generate random bytes"), starve M 1) := by
  rw [step, Op.run, exec_map, exec_openSession hroom, exec_randomBytes, hentropy]
  rfl

/-- With entropy the id is made of zeros and the counter. -/
theorem step_openSession_fed {env : Environment} {M : Machine (platform env)}
    (hroom : M.impl.sessions.keys.card < 16) (hentropy : env.entropy (ticks M.host) = true) :
    step M .openSession
      = (.ok (.sessionId (sessionIdOf (List.Vector.replicate 12 0) (M.impl.sessionCounter + 1))),
        ⟨(starve M 1).host, M.impl.count.store
          (sessionIdOf (List.Vector.replicate 12 0) (M.impl.sessionCounter + 1))
          (newSession (sessionIdOf (List.Vector.replicate 12 0) (M.impl.sessionCounter + 1))
            (M.impl.sessionCounter + 1))⟩) := by
  rw [step, Op.run, exec_map, exec_openSession hroom, exec_randomBytes, hentropy]
  rfl

theorem starve_starve {env : Environment} (M : Machine (platform env)) (m n : Nat) :
    starve (starve M m) n = starve M (m + n) := by
  have hcounter : M.impl.sessionCounter + UInt32.ofNat m + UInt32.ofNat n
      = M.impl.sessionCounter + UInt32.ofNat (m + n) := by
    rw [UInt32.add_assoc, ← UInt32.ofNat_add]
  have hticks : ticks M.host + m + n = ticks M.host + (m + n) := Nat.add_assoc ..
  show Machine.mk ⟨ticks M.host + m + n, _⟩ { M.impl with
    sessionCounter := M.impl.sessionCounter + UInt32.ofNat m + UInt32.ofNat n } = _
  rw [hcounter, hticks]
  rfl

/-- While there is no entropy every `open_session` counts an id and throws. -/
theorem run_starved {env : Environment} {M : Machine (platform env)}
    (hroom : M.impl.sessions.keys.card < 16) (n : Nat)
    (hentropy : ∀ tick < n, env.entropy (ticks M.host + tick) = false) :
    runFrom step M (List.replicate n .openSession) =
      (List.replicate n (.openSession,
        .error (.runtimeError "Failed to generate random bytes")), starve M n) := by
  induction n generalizing M with
  | zero =>
    have hcounter : M.impl.sessionCounter + UInt32.ofNat 0 = M.impl.sessionCounter :=
      UInt32.add_zero _
    rw [starve, hcounter]
    rfl
  | succ n ih =>
    have hfirst := step_openSession_starved hroom (hentropy 0 (Nat.succ_pos n))
    have hrest := ih (M := starve M 1) hroom fun tick htick => by
      have hticks : ticks (starve M 1).host + tick = ticks M.host + (tick + 1) :=
        Nat.add_right_comm ..
      rw [hticks]
      exact hentropy (tick + 1) (Nat.succ_lt_succ htick)
    rw [List.replicate_succ, runFrom_cons, hfirst, hrest, starve_starve, Nat.add_comm 1 n]
    rfl

/-! ## The recorded exchange -/

/-- The init data of the exchange, with one key id. -/
def initData : Bytes := [0x12, 0x10] ++ beBytes 16 0xA0A1A2A3A4A5A6A7A8A9AAABACADAEAF

/-- A version 0 PSSH box. -/
def psshBox : Bytes :=
  beBytes 4 50 ++ ascii "pssh" ++ [0x00, 0x00, 0x00, 0x00] ++ Pssh.widevineId ++ beBytes 4 18
    ++ initData

/-- The box as the library holds it. -/
def pssh : Pssh :=
  { rawData := psshBox, version := 0, systemId := Pssh.widevineId, keyIds := [], initData }

/-- The request of the exchange: a client id of two bytes, request id and
nonce zero. -/
def request : LicenseRequest Bytes :=
  { clientId := some [0x08, 0x01]
    contentId := some { widevinePsshData := some {
      psshData := [initData]
      licenseType := some .STREAMING
      requestId := some (List.replicate 16 0) } }
    type := some .NEW
    requestTime := some 1700000000
    protocolVersion := some .VERSION_2_1
    keyControlNonce := some 0 }

def requestMsg : Bytes := serializeLicenseRequest request

/-- The session key of the exchange, and its RSA-OAEP ciphertext. -/
def sessionKey : Bytes := beBytes 16 0x000102030405060708090A0B0C0D0E0F

def wrapped : Bytes :=
  beBytes 32 0x08E2BF516A956FA6860AB264A01B5AC4E745686667B3D37AFDC76DA4BDE915D5
  ++ beBytes 32 0xF9174660739A2A0B69B3B51C8DC44293C1E097F37243733356FFC4B1125E4DF5

/-- The containers of the exchange: a content key of 16 bytes and a signing
key of 8. -/
def containers : List KeyContainer :=
  [{ id := some (beBytes 16 0xB0B1B2B3B4B5B6B7B8B9BABBBCBDBEBF)
     iv := some (beBytes 16 0xC0C1C2C3C4C5C6C7C8C9CACBCCCDCECF)
     key := some (beBytes 16 0x0EB186811457E67D6F02E41E5B25CC34
       ++ beBytes 16 0x2E28829E2476D478B6583484D468CED2)
     type := some .CONTENT },
   { id := some (beBytes 16 0xD0D1D2D3D4D5D6D7D8D9DADBDCDDDEDF)
     iv := some (beBytes 16 0xE0E1E2E3E4E5E6E7E8E9EAEBECEDEEEF)
     key := some (beBytes 16 0x6B7EFBF0F3BF27B99F6A6D649D9BCBFB)
     type := some .SIGNING }]

/-- A container under the key derived from a session key of zeros, which
anyone who saw the request can derive. -/
def forgedContainer : KeyContainer :=
  { id := some [0x2A]
    iv := some (List.replicate 16 0)
    key := some (beBytes 16 0x1FB2B7952ED809CD45E311B0EC6DEF9E)
    type := some .CONTENT }

/-- A licence for the recorded request. -/
def license (key : List KeyContainer) : License :=
  { id := some { requestId := some (List.replicate 16 0) }, key }

/-- The response that carries a licence. -/
def response (license : License) (signature sessionKey : Option Bytes) : Bytes :=
  serializeSignedMessage
    { type := some .LICENSE
      msg := some (serializeLicense license)
      signature
      sessionKey }

/-- What libcrypto answers during the exchange, for the session key and for
the zero key of a response without one. -/
def recorded : Recording where
  blocks :=
    [⟨0x62E20596376AD1ECEED8C4768DA7C678, 0xD0D0D0D0D0D0D0D0D0D0D0D0D0D0D0D0,
        0x0EB186811457E67D6F02E41E5B25CC34⟩,
      ⟨0x62E20596376AD1ECEED8C4768DA7C678, 0x1EA196910447F66D7F12F40E4B35DC24,
        0x2E28829E2476D478B6583484D468CED2⟩,
      ⟨0x62E20596376AD1ECEED8C4768DA7C678, 0xC0C0C0C0C0C0C0C0E0E1E2E3E4E5E6E7,
        0x6B7EFBF0F3BF27B99F6A6D649D9BCBFB⟩,
      ⟨0x52A6C153DEA296E53BF3CF26601C229D, 0x30313233343536370808080808080808,
        0x1FB2B7952ED809CD45E311B0EC6DEF9E⟩]
  cmacs :=
    [⟨sessionKey, 1 :: (deriveContext requestMsg).encContext,
        0x62E20596376AD1ECEED8C4768DA7C678⟩,
      ⟨sessionKey, 1 :: (deriveContext requestMsg).macContext,
        0xAC0433047D0713C388F284FC72FF9E87⟩,
      ⟨sessionKey, 2 :: (deriveContext requestMsg).macContext,
        0xD5B3AC728E1F0E1B56F147BF8733B36A⟩,
      ⟨sessionKey, 3 :: (deriveContext requestMsg).macContext,
        0x6DB2868A5B5CA86EA0DBF68DB308A485⟩,
      ⟨sessionKey, 4 :: (deriveContext requestMsg).macContext,
        0xB67C231EC80701257795C35B6D55C5CC⟩,
      ⟨List.replicate 16 0, 1 :: (deriveContext requestMsg).encContext,
        0x52A6C153DEA296E53BF3CF26601C229D⟩,
      ⟨List.replicate 16 0, 1 :: (deriveContext requestMsg).macContext,
        0x3E6079C4879FA40ABFD99E7B9CBEC552⟩,
      ⟨List.replicate 16 0, 2 :: (deriveContext requestMsg).macContext,
        0xC571588EBFE60D1D0FA332D62F3D2D43⟩,
      ⟨List.replicate 16 0, 3 :: (deriveContext requestMsg).macContext,
        0x72ED36210D2EDF2C928C6AFF902ACE4C⟩,
      ⟨List.replicate 16 0, 4 :: (deriveContext requestMsg).macContext,
        0x60CC24C39145E31B7FD795EC0028A1C0⟩]
  hmacs :=
    [⟨beBytes 16 0xAC0433047D0713C388F284FC72FF9E87
          ++ beBytes 16 0xD5B3AC728E1F0E1B56F147BF8733B36A,
        serializeLicense (license containers),
        0x30A2B9BB1AF96E53A096EE3CAD12BEA3FCA74952E324C5C8CB15EC44DC6ADC66⟩,
      ⟨beBytes 16 0x3E6079C4879FA40ABFD99E7B9CBEC552
          ++ beBytes 16 0xC571588EBFE60D1D0FA332D62F3D2D43,
        serializeLicense (license [forgedContainer]),
        0xF662E73DA3CFF1BCA0236111C6F7E18153A7A356E43048EE01E8325E8DE889EE⟩]
  signatures :=
    [(requestMsg,
      beBytes 32 0x0F9C89C2333513C2038ECFF60B6248BFB989B4B912B6FF1A1940FE347E6CCE5D
      ++ beBytes 32 0x196E33018E0DC87CD3B7B25801DA7914468AD2EABB4777EE081451D604619454)]
  unwrapped := [(wrapped, sessionKey)]

theorem recorded_wraps : recorded.Wraps () sessionKey wrapped := by decide +kernel

/-- Nothing fails but a CMAC under a key of the wrong size. -/
def nominal : Environment where
  recording := recorded
  entropy _ := true
  succeeds
    | .cmacInit key, _ | .cmacUpdate key _, _ => key.length == 16
    | _, _ => true
  time := 1700000000

theorem nominal_steady (call : LibCall Unit) (tick tick' : Nat) :
    nominal.succeeds call tick = nominal.succeeds call tick' := by
  cases call <;> rfl

theorem nominal_proper (call : LibCall Unit) (tick : Nat) (h : call.Proper) :
    nominal.succeeds call tick = true := by
  cases call with
  | cmacInit key | cmacUpdate key data => exact beq_iff_eq.mpr h
  | _ => rfl

theorem nominal_signs : (platform nominal).Signs := by
  constructor <;> intros <;> rfl

/-- A CDM object on the reference platform. -/
def start (env : Environment) (type : DeviceType) : Start (platform env) where
  device := { type, securityLevel := 3, privateKey := [], clientId := [0x08, 0x01] }
  rsaKey := ()
  clientId := ([0x08, 0x01] : Bytes)
  world := (0 : Nat)

/-- The id of the session with the given number. -/
def sessionId (number : Nat) : Bytes := List.replicate 12 0 ++ beBytes 4 number

/-- The challenge of the exchange, in the given session. -/
def getChallenge (S : Bytes) : Op := .getLicenseChallenge S pssh .STREAMING false

/-- One session with its challenge pending. -/
def oneSession : List Op := [.openSession, getChallenge (sessionId 1)]

/-- The challenge returned for it. -/
def challenge : Bytes :=
  serializeSignedMessage
    { type := some .LICENSE_REQUEST
      msg := some requestMsg
      signature := some (recorded.sign requestMsg) }

/-- Two sessions with a challenge pending in each. -/
def twoSessions : List Op :=
  [.openSession, .openSession, getChallenge (sessionId 1), getChallenge (sessionId 2)]

/-- The server's response in the exchange. -/
def honestResponse : Bytes :=
  response (license containers)
    (some (beBytes 32 0x30A2B9BB1AF96E53A096EE3CAD12BEA3FCA74952E324C5C8CB15EC44DC6ADC66))
    (some wrapped)

/-- The message of a response is what was put in it. -/
theorem decodeLicense_response (env : Environment) (l : License)
    (signature sessionKey : Option Bytes) :
    decodeLicense (P := platform env) (response l signature sessionKey)
      = .ok ({ type := some .LICENSE, msg := some (serializeLicense l), signature, sessionKey },
        l) :=
  decodeLicense_serialize (lawfulCodec env)
    (m := { type := some .LICENSE, msg := some (serializeLicense l), signature, sessionKey })
    (l := l) rfl rfl

/-- The licence of the exchange is the one decoded from its response. -/
theorem license_of_honestResponse {env : Environment} {signedMessage : SignedMessage} {l : License}
    (h : decodeLicense (P := platform env) honestResponse = .ok (signedMessage, l)) :
    license containers = l := by
  have hsent := decodeLicense_response env (license containers)
    (some (beBytes 32 0x30A2B9BB1AF96E53A096EE3CAD12BEA3FCA74952E324C5C8CB15EC44DC6ADC66))
    (some wrapped)
  exact (Prod.mk.inj (Except.ok.inj (hsent.symm.trans h))).2

/-- A CHROME device on which nothing fails. -/
def chrome : Start (platform nominal) := start nominal .CHROME

/-- The exchange: a session, a challenge and its response. -/
def exchange : List Op := oneSession ++ [.parseLicense (sessionId 1) honestResponse]

/-- It parses one response. -/
theorem exchange_response {S licenseResponse : Bytes}
    (h : Op.parseLicense S licenseResponse ∈ exchange) : licenseResponse = honestResponse := by
  simp [exchange, oneSession, getChallenge] at h
  exact h.2

end WidevineCdm.Reference
