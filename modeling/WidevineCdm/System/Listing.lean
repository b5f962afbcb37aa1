import WidevineCdm.Model.Key
import WidevineCdm.Reference.Platform
import WidevineCdm.System.Provenance

/-!
# What a client is shown

The type of every key in a session is the name of a key type of the protocol,
so the typed calls of `get_keys` share the keys out between them, and the
lines in which the client prints them can be read back: they determine the
keys, but for an empty key id, which is printed as sixteen zero bytes.
-/

namespace WidevineCdm

open Lib Proto

variable {P : Platform}

/-! ## Types of stored keys -/

/-- Every stored key has a type of the protocol. -/
def KeysTyped (impl : Impl P) : Prop :=
  ∀ S s, impl.sessions.lookup S = some s → ∀ key ∈ s.keys, ∃ type : KeyType, key.type = type.name

/-- The keys of a loop have the types of their containers. -/
theorem extractAll_typed {encKey : Bytes} {cs : List KeyContainer} {host : Host P} {key : Key}
    (hkey : key ∈ (extractAll encKey cs host).1.1) : ∃ type : KeyType, key.type = type.name := by
  obtain ⟨c, -, decrypted, -, rfl⟩ := mem_extractAll hkey
  exact ⟨c.typeD, rfl⟩

theorem keysTyped_step {M : Machine P} (hinv : KeysTyped M.impl) (op : Op) :
    KeysTyped (step M op).2.impl := by
  intro S s' hs' key hkey
  by_cases hparse : ∃ licenseResponse, op = .parseLicense S licenseResponse
  · obtain ⟨licenseResponse, rfl⟩ := hparse
    obtain ⟨s, hs, hin | ⟨opened, host, -, hin⟩⟩ := key_pushed hs' hkey
    · exact hinv S s hs key hin
    · exact extractAll_typed hin
  · obtain ⟨-, s, hs, hin⟩ := (step_transition M op).key_kept hs' hkey
      fun licenseResponse heq => hparse ⟨licenseResponse, heq⟩
    exact hinv S s hs key hin

theorem keysTyped_run (start : Start P) (ops : List Op) : KeysTyped (start.run ops).2.impl := by
  have hstart : KeysTyped start.machine.impl := by
    intro S s hs
    cases (Finmap.lookup_empty S).symm.trans hs
  exact runFrom_invariant (I := fun _ M => KeysTyped M.impl) step hstart
    (fun _ _ op hinv => keysTyped_step hinv op) ops

/-! ## The typed calls of `get_keys` -/

/-- The types of the protocol. -/
def keyTypes : List KeyType :=
  [.SIGNING, .CONTENT, .KEY_CONTROL, .OPERATOR_SESSION, .ENTITLEMENT, .OEM_CONTENT]

/-- Keys of these types, sorted by type, are the keys. -/
theorem perm_flatMap_types {keys : List Key}
    (h : ∀ key ∈ keys, ∃ type : KeyType, key.type = type.name) :
    (keyTypes.flatMap fun type => keys.filter fun key => key.type == type.name).Perm keys := by
  induction keys with
  | nil => exact List.Perm.refl _
  | cons key rest ih =>
    have hrest := ih fun k hk => h k (List.mem_cons_of_mem _ hk)
    obtain ⟨type, htype⟩ := h key List.mem_cons_self
    refine List.Perm.trans ?_ (hrest.cons key)
    rw [List.perm_iff_count]
    intro k
    rw [List.count_cons, List.count_flatMap, List.count_flatMap]
    cases type <;>
      simp [keyTypes, List.filter_cons, htype, KeyType.name, List.count_cons] <;> omega

/-- **The types share the keys out.** In every reachable state the replies for
the six types of the protocol are together the reply for no type, up to the
order, and any other type is answered with no keys. -/
theorem get_keys_by_type (start : Start P) (ops : List Op) (S : Bytes) {all : List Key}
    (hall : (step (start.run ops).2 (.getKeys S "")).1 = .ok (.keys all)) :
    (∃ replies : KeyType → List Key,
      (∀ type : KeyType, (step (start.run ops).2 (.getKeys S type.name)).1
        = .ok (.keys (replies type))) ∧
      (keyTypes.flatMap replies).Perm all) ∧
    ∀ type : String, type ≠ "" → (∀ t : KeyType, t.name ≠ type) →
      (step (start.run ops).2 (.getKeys S type)).1 = .ok (.keys []) := by
  cases hs : (start.run ops).2.impl.sessions.lookup S with
  | none =>
    rw [step_unknown rfl hs] at hall
    cases hall
  | some s =>
    have hreply : ∀ type : String, (step (start.run ops).2 (.getKeys S type)).1
        = .ok (.keys (if type.isEmpty then s.keys
          else s.keys.filter fun key => key.type == type)) := by
      intro type
      rw [step, Op.run, exec_map, exec_getKeys hs]
      rfl
    rw [hreply] at hall
    obtain rfl : s.keys = all := Reply.keys.inj (Except.ok.inj hall)
    have htyped := keysTyped_run start ops S s hs
    refine ⟨⟨fun type => s.keys.filter fun key => key.type == type.name, fun type => ?_,
      perm_flatMap_types htyped⟩, fun type hne hother => ?_⟩
    · rw [hreply]
      cases type <;> rfl
    · rw [hreply, if_neg (by rwa [String.isEmpty_iff])]
      refine congrArg (fun keys => Except.ok (Reply.keys keys)) (List.filter_eq_nil_iff.mpr ?_)
      intro key hkey
      obtain ⟨t, ht⟩ := htyped key hkey
      rw [ht, beq_iff_eq]
      exact hother t

/-- The keys of the recorded exchange; `get_keys` compares the case of letters. -/
theorem get_keys_by_type_exchange :
    ∃ (all : List Key) (replies : KeyType → List Key),
      (step (Reference.chrome.run Reference.exchange).2
        (.getKeys (Reference.sessionId 1) "")).1 = .ok (.keys all) ∧
      (keyTypes.flatMap replies).Perm all ∧
      (step (Reference.chrome.run Reference.exchange).2
        (.getKeys (Reference.sessionId 1) "content")).1 = .ok (.keys []) := by
  obtain ⟨s, hs⟩ : ∃ s, (Reference.chrome.run Reference.exchange).2.impl.sessions.lookup
      (Reference.sessionId 1) = some s := Option.isSome_iff_exists.mp (by decide +kernel)
  have hall : (step (Reference.chrome.run Reference.exchange).2
      (.getKeys (Reference.sessionId 1) "")).1 = .ok (.keys s.keys) := by
    rw [step, Op.run, exec_map, exec_getKeys hs]
    rfl
  obtain ⟨⟨replies, -, hperm⟩, hother⟩ :=
    get_keys_by_type Reference.chrome Reference.exchange (Reference.sessionId 1) hall
  have hunnamed : ∀ t : KeyType, t.name ≠ "content" := by
    intro t
    cases t <;> decide
  exact ⟨s.keys, replies, hall, hperm, hother "content" (by decide) hunnamed⟩

/-! ## The listing -/

/-- What the listing shows of a key. -/
def Key.shown (key : Key) : String × Bytes × Bytes :=
  (key.type, if key.kid.isEmpty then List.replicate 16 0 else key.kid, key.key)

theorem kidHex_toList (key : Key) : key.kidHex.toList = key.shown.2.1.flatMap lowerHex := by
  rw [Key.kidHex, Key.shown]
  cases key.kid.isEmpty with
  | true =>
    show "00000000000000000000000000000000".toList = (List.replicate 16 0).flatMap lowerHex
    decide
  | false => exact hexString_toList key.kid

theorem line_toList (key : Key) :
    key.line.toList = '[' :: (key.type.toList ++ ']' :: ' ' :: (key.shown.2.1.flatMap lowerHex
      ++ ':' :: key.key.flatMap lowerHex)) := by
  rw [Key.line]
  simp only [String.toList_append, kidHex_toList, Key.keyHex, hexString_toList]
  simp

theorem line_eq_iff {key key' : Key} (h : ']' ∉ key.type.toList) (h' : ']' ∉ key'.type.toList) :
    key.line.toList = key'.line.toList ↔ key.shown = key'.shown := by
  have hcolon : ∀ n < 16, ':' ≠ lowerDigit n := by decide
  constructor
  · intro heq
    rw [line_toList, line_toList] at heq
    obtain ⟨htype, hrest⟩ := append_separator_inj h h' (List.cons.inj heq).2
    obtain ⟨hkid, hkey⟩ := append_separator_inj (not_mem_flatMap_lowerHex hcolon _)
      (not_mem_flatMap_lowerHex hcolon _) (List.cons.inj hrest).2
    exact Prod.ext (String.toList_inj.mp htype)
      (Prod.ext (flatMap_lowerHex_injective hkid) (flatMap_lowerHex_injective hkey))
  · intro heq
    obtain ⟨htype, hrest⟩ := Prod.mk.inj heq
    obtain ⟨hkid, hkey⟩ := Prod.mk.inj hrest
    rw [line_toList, line_toList, htype, show key.key = key'.key from hkey]
    exact congrArg (fun kid => '[' :: (key'.type.toList ++ ']' :: ' ' :: (kid.flatMap lowerHex
      ++ ':' :: key'.key.flatMap lowerHex))) hkid

/-- No type of the protocol has a bracket or the end of a line in its name. -/
theorem name_characters (type : KeyType) :
    ']' ∉ type.name.toList ∧ '\n' ∉ type.name.toList := by
  cases type <;> decide

theorem newline_not_mem_line {key : Key} (h : '\n' ∉ key.type.toList) :
    '\n' ∉ key.line.toList := by
  have hdigit : ∀ n < 16, '\n' ≠ lowerDigit n := by decide
  have hkid := not_mem_flatMap_lowerHex hdigit key.shown.2.1
  have hkey := not_mem_flatMap_lowerHex hdigit key.key
  rw [line_toList]
  simp [h, hkid, hkey]

/-- **The listing can be read back.** The texts printed for the keys of two
sessions, of any reachable states, are equal exactly when the keys have the
same types and values in the same order and the same key ids, an empty key id
and sixteen zero bytes not being told apart. -/
theorem listing_eq_iff (start start' : Start P) (ops ops' : List Op) {S S' : Bytes}
    {s s' : SessionState} (hs : (start.run ops).2.impl.sessions.lookup S = some s)
    (hs' : (start'.run ops').2.impl.sessions.lookup S' = some s') :
    listing s.keys = listing s'.keys ↔ s.keys.map Key.shown = s'.keys.map Key.shown := by
  have hnames : ∀ {start : Start P} {ops : List Op} {S : Bytes} {s : SessionState},
      (start.run ops).2.impl.sessions.lookup S = some s → ∀ key ∈ s.keys,
      ']' ∉ key.type.toList ∧ '\n' ∉ key.type.toList := by
    intro start ops S s hs key hkey
    obtain ⟨type, htype⟩ := keysTyped_run start ops S s hs key hkey
    rw [htype]
    exact name_characters type
  have hlines : ∀ {keys : List Key},
      (∀ key ∈ keys, ']' ∉ key.type.toList ∧ '\n' ∉ key.type.toList) →
      ∀ piece ∈ keys.map fun key => key.line.toList, '\n' ∉ piece := by
    intro keys hkeys piece hpiece
    obtain ⟨key, hkey, rfl⟩ := List.mem_map.mp hpiece
    exact newline_not_mem_line (hkeys key hkey).2
  have hshown : s.keys.map (fun key => key.line.toList) = s'.keys.map (fun key => key.line.toList)
      ↔ s.keys.map Key.shown = s'.keys.map Key.shown :=
    map_eq_map_congr fun key hkey key' hkey' =>
      line_eq_iff (hnames hs key hkey).1 (hnames hs' key' hkey').1
  rw [← String.toList_inj, listing_toList, listing_toList, ← hshown]
  constructor
  · exact terminated_inj (hlines (hnames hs)) (hlines (hnames hs'))
  · exact congrArg (terminated '\n')

/-- The sessions of the recorded exchange and of one without its response. -/
theorem listing_eq_iff_exchange :
    ∃ s s' : SessionState,
      (Reference.chrome.run Reference.exchange).2.impl.sessions.lookup (Reference.sessionId 1)
        = some s ∧
      (Reference.chrome.run Reference.oneSession).2.impl.sessions.lookup (Reference.sessionId 1)
        = some s' ∧ listing s.keys ≠ listing s'.keys := by
  obtain ⟨s, hs⟩ : ∃ s, (Reference.chrome.run Reference.exchange).2.impl.sessions.lookup
      (Reference.sessionId 1) = some s := Option.isSome_iff_exists.mp (by decide +kernel)
  obtain ⟨s', hs'⟩ : ∃ s', (Reference.chrome.run Reference.oneSession).2.impl.sessions.lookup
      (Reference.sessionId 1) = some s' := Option.isSome_iff_exists.mp (by decide +kernel)
  have hkeys : ((Reference.chrome.run Reference.exchange).2.impl.sessions.lookup
      (Reference.sessionId 1)).map (fun s => s.keys.map Key.shown)
      ≠ ((Reference.chrome.run Reference.oneSession).2.impl.sessions.lookup
        (Reference.sessionId 1)).map (fun s => s.keys.map Key.shown) := by
    decide +kernel
  rw [hs, hs'] at hkeys
  refine ⟨s, s', hs, hs', fun heq => hkeys (congrArg some ?_)⟩
  exact (listing_eq_iff Reference.chrome Reference.chrome Reference.exchange Reference.oneSession
    hs hs').mp heq

end WidevineCdm
