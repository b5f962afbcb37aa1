import WidevineCdm.License.Atomicity

/-!
# What a licence response delivers

The rules of the transition relation leave open which keys a response pushes.
Here is the rest of the story: a response is refused before the loop, or its
loop runs to the end, or it breaks off at a container; and the keys pushed are
the decryptions of the containers the loop came to, in order.
-/

namespace WidevineCdm

open Lib Proto

variable {P : Platform}

/-! ## The loop -/

/-- A loop that runs to the end pushes a key for every container, one that
breaks off fewer. -/
theorem extractAll_length (encKey : Bytes) (cs : List KeyContainer) (host : Host P) :
    match (extractAll encKey cs host).1.2 with
    | none => (extractAll encKey cs host).1.1.length = cs.length
    | some _ => (extractAll encKey cs host).1.1.length < cs.length := by
  induction cs generalizing host with
  | nil => rfl
  | cons c rest ih =>
    rw [extractAll, exec_extractKey]
    rcases exec (Crypto.aesCbcDecrypt encKey c.ivD c.keyD) host with ⟨e | decrypted, host'⟩
    · exact Nat.succ_pos _
    · have hrest := ih host'
      dsimp only [Except.map]
      cases hfail : (extractAll encKey rest host').1.2 with
      | none =>
        rw [hfail] at hrest
        exact congrArg Nat.succ hrest
      | some e =>
        rw [hfail] at hrest
        exact Nat.succ_lt_succ hrest

/-- A key the loop pushed is the decryption of one of its containers. -/
theorem mem_extractAll {encKey : Bytes} {cs : List KeyContainer} {host : Host P} {key : Key}
    (h : key ∈ (extractAll encKey cs host).1.1) :
    ∃ c ∈ cs, ∃ decrypted, Yields (Crypto.aesCbcDecrypt (P := P) encKey c.ivD c.keyD) decrypted ∧
      key = c.toKey decrypted := by
  induction cs generalizing host with
  | nil => cases h
  | cons c rest ih =>
    rw [extractAll, exec_extractKey] at h
    rcases hdec : exec (Crypto.aesCbcDecrypt encKey c.ivD c.keyD) host with ⟨e | decrypted, host'⟩
    · rw [hdec] at h
      cases h
    · rw [hdec] at h
      rcases List.mem_cons.mp h with rfl | h
      · exact ⟨c, List.mem_cons_self, decrypted, yields_of_exec hdec, rfl⟩
      · obtain ⟨d, hd, hkey⟩ := ih h
        exact ⟨d, List.mem_cons_of_mem _ hd, hkey⟩

/-! ## The call -/

/-- How a call of `parse_license` on an open session ends, and what it leaves. -/
inductive Delivery (M : Machine P) (S licenseResponse : Bytes) (s : SessionState) :
    Except Exn Reply → Machine P → Prop where
  | refused {e : Exn} (he : Known e) (host : Host P) :
    Delivery M S licenseResponse s (.error e) { M with host }
  | complete {opened : OpenedLicense} {host host' : Host P} {keys : List Key}
      (ho : exec (openLicense M.impl.rsaKey s.contexts licenseResponse) M.host
        = (.ok opened, host))
      (hloop : extractAll opened.derived.encKey opened.license.key host = ((keys, none), host')) :
    Delivery M S licenseResponse s (.ok .done)
      ⟨host', M.impl.store S
        { s.pushKeys keys with contexts := s.contexts.erase opened.license.requestIdD }⟩
  | brokenOff {opened : OpenedLicense} {host host' : Host P} {keys : List Key} {e : Exn}
      (ho : exec (openLicense M.impl.rsaKey s.contexts licenseResponse) M.host
        = (.ok opened, host))
      (hloop : extractAll opened.derived.encKey opened.license.key host
        = ((keys, some e), host')) :
    Delivery M S licenseResponse s (.error (e.rethrow "Failed to extract keys: "))
      ⟨host', M.impl.store S (s.pushKeys keys)⟩

/-- **Every response is delivered in one of these ways.** -/
theorem step_delivery {M : Machine P} {S : Bytes} {s : SessionState}
    (hs : M.impl.sessions.lookup S = some s) (licenseResponse : Bytes) :
    Delivery M S licenseResponse s (step M (.parseLicense S licenseResponse)).1
      (step M (.parseLicense S licenseResponse)).2 := by
  rcases ho : exec (openLicense M.impl.rsaKey s.contexts licenseResponse) M.host
    with ⟨e | opened, host⟩
  · rw [step_parseLicense_refused hs ho]
    exact .refused (throws_openLicense _ _ _ _ _ _ ho) host
  · rw [step, Op.run, exec_bind, exec_parseLicense hs, ho]
    dsimp only
    rcases hloop : extractAll opened.derived.encKey opened.license.key host
      with ⟨⟨keys, failure⟩, host'⟩
    cases failure with
    | none => exact .complete ho hloop
    | some e => exact .brokenOff ho hloop

/-! ## Ids and types -/

/-- The ids and types of keys, as `get_keys` reports them. -/
def keyLabels (keys : List Key) : List (Bytes × String) := keys.map fun key => (key.kid, key.type)

/-- The ids and types of the containers of a licence. -/
def Proto.License.labels (license : License) : List (Bytes × String) :=
  license.key.map fun c => (c.idD, c.typeD.name)

theorem keyLabels_complete {encKey : Bytes} {license : License} {keys : List Key}
    {host host' : Host P} (hloop : extractAll encKey license.key host = ((keys, none), host')) :
    keyLabels keys = license.labels := by
  have horder := extractAll_keys_order encKey license.key host
  have hlength := extractAll_length encKey license.key host
  rw [hloop] at horder hlength
  refine horder.eq_of_length ?_
  rw [List.length_map, List.length_map]
  exact hlength

theorem keyLabels_brokenOff {encKey : Bytes} {license : License} {keys : List Key} {e : Exn}
    {host host' : Host P} (hloop : extractAll encKey license.key host = ((keys, some e), host')) :
    keyLabels keys <+: license.labels ∧ keyLabels keys ≠ license.labels := by
  have horder := extractAll_keys_order encKey license.key host
  have hlength := extractAll_length encKey license.key host
  rw [hloop] at horder hlength
  refine ⟨horder, fun heq => ?_⟩
  have hsame := congrArg List.length heq
  rw [keyLabels, License.labels, List.length_map, List.length_map] at hsame
  exact absurd hsame (Nat.ne_of_lt hlength)

end WidevineCdm
