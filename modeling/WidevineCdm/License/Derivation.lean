import WidevineCdm.Format.Integers

/-!
# Separation of the key derivations

`derive_keys` computes five CMACs under the session key. The input of each is
a counter in front of a context, and a context is a label, a zero byte, the
licence request and the size of the keys. The label determines the purpose,
and what surrounds the request has a fixed length for each purpose, so the
input determines the derivation and the request, whatever the request
contains.
-/

namespace WidevineCdm

open Lib

variable {P : Platform}

/-- What a derived key is for. -/
inductive Purpose where
  | encryption
  | authentication
deriving DecidableEq, Repr

/-- The CMAC computations of `derive_keys` (cdm.cpp:70–84). -/
inductive Derivation where
  | encKey
  | macServer1
  | macServer2
  | macClient3
  | macClient4
deriving DecidableEq, Repr

namespace Derivation

def purpose : Derivation → Purpose
  | .encKey => .encryption
  | .macServer1 | .macServer2 | .macClient3 | .macClient4 => .authentication

def counter : Derivation → UInt8
  | .encKey | .macServer1 => 1
  | .macServer2 => 2
  | .macClient3 => 3
  | .macClient4 => 4

/-- The context of a purpose. -/
def contextOf (context : Context) : Purpose → Bytes
  | .encryption => context.encContext
  | .authentication => context.macContext

/-- The bytes fed to the CMAC for a request. -/
def input (d : Derivation) (message : Bytes) : Bytes :=
  d.counter :: contextOf (deriveContext message) d.purpose

/-- Purpose and counter together tell the derivations apart. -/
theorem eq_of_purpose_counter {d e : Derivation} (hp : d.purpose = e.purpose)
    (hc : d.counter = e.counter) : d = e := by
  cases d <;> cases e <;> first
    | rfl
    | exact absurd hp (by decide)
    | exact absurd hc (by decide)

/-- The label in front of a context tells its purpose. -/
theorem contextOf_purpose {m m' : Bytes} {p q : Purpose}
    (h : contextOf (deriveContext m) p = contextOf (deriveContext m') q) : p = q := by
  -- the labels differ in their first letter
  have hfirst := congrArg List.head? h
  cases p <;> cases q
  · rfl
  · cases hfirst
  · cases hfirst
  · rfl

/-- Within one purpose the context determines the message. -/
theorem contextOf_message {m m' : Bytes} {p : Purpose}
    (h : contextOf (deriveContext m) p = contextOf (deriveContext m') p) : m = m' := by
  -- label and suffix have the same bytes on both sides, whatever the messages
  cases p <;> exact List.append_cancel_left (List.append_cancel_right h)

theorem input_injective {d e : Derivation} {m m' : Bytes} (h : d.input m = e.input m') :
    d = e ∧ m = m' := by
  obtain ⟨hcounter, hcontext⟩ := List.cons.inj h
  have hpurpose := contextOf_purpose hcontext
  rw [hpurpose] at hcontext
  exact ⟨eq_of_purpose_counter hpurpose hcounter, contextOf_message hcontext⟩

end Derivation

/-- `derive_keys` on the contexts of a request is the five CMACs in order. -/
theorem deriveKeys_eq (sessionKey message : Bytes) :
    (deriveKeys (deriveContext message).encContext (deriveContext message).macContext sessionKey
        : CryptoM P DerivedKeys) = do
      let encKey ← Crypto.cmacAes sessionKey (Derivation.encKey.input message)
      let macServer1 ← Crypto.cmacAes sessionKey (Derivation.macServer1.input message)
      let macServer2 ← Crypto.cmacAes sessionKey (Derivation.macServer2.input message)
      let macClient3 ← Crypto.cmacAes sessionKey (Derivation.macClient3.input message)
      let macClient4 ← Crypto.cmacAes sessionKey (Derivation.macClient4.input message)
      return { encKey, macKeyClient := macClient3 ++ macClient4,
               macKeyServer := macServer1 ++ macServer2 } := rfl

/-- **The derivations are separated**: the five inputs `derive_keys` feeds to
the CMAC for a request are those of the five derivations, and an input
determines the purpose, the counter and the request it is for. So no two
blocks of the derived keys, of one request or of two, come from one input. -/
theorem derivations_separated :
    (∀ (P : Platform) (sessionKey message : Bytes),
      (deriveKeys (deriveContext message).encContext (deriveContext message).macContext sessionKey
          : CryptoM P DerivedKeys) = do
        let encKey ← Crypto.cmacAes sessionKey (Derivation.encKey.input message)
        let macServer1 ← Crypto.cmacAes sessionKey (Derivation.macServer1.input message)
        let macServer2 ← Crypto.cmacAes sessionKey (Derivation.macServer2.input message)
        let macClient3 ← Crypto.cmacAes sessionKey (Derivation.macClient3.input message)
        let macClient4 ← Crypto.cmacAes sessionKey (Derivation.macClient4.input message)
        return { encKey, macKeyClient := macClient3 ++ macClient4,
                 macKeyServer := macServer1 ++ macServer2 }) ∧
    ∀ (d e : Derivation) (m m' : Bytes), d.input m = e.input m' →
      d.purpose = e.purpose ∧ d.counter = e.counter ∧ m = m' ∧ d = e := by
  constructor
  · intro P sessionKey message
    exact deriveKeys_eq sessionKey message
  · intro d e m m' h
    obtain ⟨rfl, rfl⟩ := Derivation.input_injective h
    exact ⟨rfl, rfl, rfl, rfl⟩

end WidevineCdm
