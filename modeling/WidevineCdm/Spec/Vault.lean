import WidevineCdm.Lib.Ledger
import WidevineCdm.Lib.Simulation

/-!
# Vaults: what a content decryption module is for

A vault holds accounts under ids. A request is issued on an account and stays
open until it is redeemed, which adds keys to the account; a delivery that
breaks off adds some keys and leaves the request open (`spilled`). Nothing
else adds a key, no id names two accounts, and closing an account discards
it. Ids, requests, messages and keys are of any types.

`History.booked` reads a vault off its history, whatever implements it: an
account holds exactly the keys redeemed or spilled on it since it was opened,
in order, and its open requests are the ledger of what was issued and
redeemed.
-/

namespace WidevineCdm.Spec

open Lib

variable {Id Req Msg Key : Type}

/-- An account: its keys, and the message behind every open request. -/
structure Account (Req Msg Key : Type) where
  keys : List Key
  requests : Req → Option Msg

/-- The accounts, and the ids that have ever named one. -/
structure Vault (Id Req Msg Key : Type) where
  account : Id → Option (Account Req Msg Key)
  used : Set Id

/-- What can happen to a vault. -/
inductive Action (Id Req Msg Key : Type) where
  | opened (id : Id)
  | closed (id : Id)
  | issued (id : Id) (r : Req) (m : Msg)
  | redeemed (id : Id) (r : Req) (ks : List Key)
  | spilled (id : Id) (r : Req) (ks : List Key)
  | idle

/-- An account with nothing in it. -/
def Account.new : Account Req Msg Key := ⟨[], fun _ => none⟩

/-- The account with more keys. -/
def Account.add (a : Account Req Msg Key) (ks : List Key) : Account Req Msg Key :=
  { a with keys := a.keys ++ ks }

/-- The vault nothing has happened to. -/
def Vault.empty : Vault Id Req Msg Key := ⟨fun _ => none, ∅⟩

variable [DecidableEq Id] [DecidableEq Req]

/-- The account with the request `r` open for a message, or closed. -/
def Account.put (a : Account Req Msg Key) (r : Req) (m : Option Msg) : Account Req Msg Key :=
  { a with requests := Function.update a.requests r m }

/-- The vault with another account, or none, under `id`. -/
def Vault.put (v : Vault Id Req Msg Key) (id : Id) (a : Option (Account Req Msg Key)) :
    Vault Id Req Msg Key :=
  { v with account := Function.update v.account id a }

/-- The steps of a vault. -/
inductive Vault.Step :
    Vault Id Req Msg Key → Action Id Req Msg Key → Vault Id Req Msg Key → Prop where
  | opened {v : Vault Id Req Msg Key} {id : Id} (hfresh : id ∉ v.used) :
    Step v (.opened id) { v.put id (some .new) with used := insert id v.used }
  | closed (v : Vault Id Req Msg Key) (id : Id) : Step v (.closed id) (v.put id none)
  | issued {v : Vault Id Req Msg Key} {id : Id} {a : Account Req Msg Key}
      (ha : v.account id = some a) (r : Req) (m : Msg) :
    Step v (.issued id r m) (v.put id (some (a.put r (some m))))
  | redeemed {v : Vault Id Req Msg Key} {id : Id} {a : Account Req Msg Key}
      (ha : v.account id = some a) {r : Req} (hr : (a.requests r).isSome) (ks : List Key) :
    Step v (.redeemed id r ks) (v.put id (some ((a.add ks).put r none)))
  | spilled {v : Vault Id Req Msg Key} {id : Id} {a : Account Req Msg Key}
      (ha : v.account id = some a) {r : Req} (hr : (a.requests r).isSome) (ks : List Key) :
    Step v (.spilled id r ks) (v.put id (some (a.add ks)))
  | idle (v : Vault Id Req Msg Key) : Step v .idle v

omit [DecidableEq Req] in
@[simp] theorem Vault.put_self (v : Vault Id Req Msg Key) (id : Id)
    (a : Option (Account Req Msg Key)) : (v.put id a).account id = a :=
  Function.update_self ..

omit [DecidableEq Req] in
theorem Vault.put_ne {v : Vault Id Req Msg Key} {id id' : Id} (h : id' ≠ id)
    (a : Option (Account Req Msg Key)) : (v.put id a).account id' = v.account id' :=
  Function.update_of_ne h ..

/-! ## Reading actions -/

/-- The keys an action adds to the account `id`. -/
def Action.keysFor (id : Id) : Action Id Req Msg Key → List Key
  | .redeemed id' _ ks => if id' = id then ks else []
  | .spilled id' _ ks => if id' = id then ks else []
  | _ => []

/-- What an action does to the request `r` of the account `id`. -/
def Action.effect (id : Id) (r : Req) : Action Id Req Msg Key → SlotEffect Msg
  | .issued id' r' m => if id' = id ∧ r' = r then .write m else .keep
  | .redeemed id' r' _ => if id' = id ∧ r' = r then .erase else .keep
  | _ => .keep

/-! ## The books of a vault -/

/-- What a history says of the account under `id`: the part of the history
since the account was opened, without a close, holds its keys and requests. -/
def Booked (history : List (Action Id Req Msg Key)) (id : Id) (a : Account Req Msg Key) : Prop :=
  ∃ before after, history = before ++ .opened id :: after ∧ .closed id ∉ after ∧
    a.keys = after.flatMap (Action.keysFor id) ∧
    ∀ r, a.requests r = ledger (Action.effect id r) none after

/-- The account after an action that neither opens nor closes it. -/
theorem Booked.snoc {history : List (Action Id Req Msg Key)} {id : Id}
    {a b : Account Req Msg Key} {action : Action Id Req Msg Key} (h : Booked history id a)
    (hclosed : action ≠ .closed id) (hkeys : b.keys = a.keys ++ action.keysFor id)
    (hrequests : ∀ r, b.requests r = (action.effect id r).apply (a.requests r)) :
    Booked (history ++ [action]) id b := by
  obtain ⟨before, after, rfl, hopen, hbooks, hledger⟩ := h
  refine ⟨before, after ++ [action], by simp, ?_, ?_, ?_⟩
  · intro hmem
    rcases List.mem_append.mp hmem with hmem | hmem
    · exact hopen hmem
    · exact hclosed (List.mem_singleton.mp hmem).symm
  · rw [hkeys, hbooks, List.flatMap_append, List.flatMap_singleton]
  · intro r
    rw [hrequests, hledger, ledger_snoc]

/-- A vault whose accounts are what its history says. -/
def Vault.Sound (history : List (Action Id Req Msg Key)) (v : Vault Id Req Msg Key) : Prop :=
  ∀ id a, v.account id = some a → Booked history id a

theorem Vault.sound_empty : Vault.Sound [] (Vault.empty : Vault Id Req Msg Key) := by
  intro id a ha
  cases ha

/-- An action that concerns no account keeps the books. -/
theorem Vault.Sound.idle {history : List (Action Id Req Msg Key)} {v : Vault Id Req Msg Key}
    (h : v.Sound history) : v.Sound (history ++ [.idle]) := by
  intro id a ha
  refine (h id a ha).snoc nofun ?_ fun r => rfl
  exact (List.append_nil _).symm

/-- An action on the account `id` keeps the books of the others. -/
theorem Vault.Sound.put {history : List (Action Id Req Msg Key)} {v : Vault Id Req Msg Key}
    (h : v.Sound history) {id : Id} {b : Option (Account Req Msg Key)}
    {action : Action Id Req Msg Key}
    (hself : ∀ a, b = some a → Booked (history ++ [action]) id a)
    (hothers : ∀ id', id' ≠ id → action ≠ .closed id' ∧ action.keysFor id' = [] ∧
      ∀ r, action.effect id' r = .keep) :
    (v.put id b).Sound (history ++ [action]) := by
  intro id' c hc
  by_cases hid : id' = id
  · subst hid
    rw [put_self] at hc
    exact hself c hc
  · rw [put_ne hid] at hc
    obtain ⟨hclosed, hnone, hkeep⟩ := hothers id' hid
    refine (h id' c hc).snoc hclosed ?_ fun r => ?_
    · rw [hnone, List.append_nil]
    · rw [hkeep r]
      rfl

/-- **The step lemma**: every step keeps the books. -/
theorem Vault.Sound.step {history : List (Action Id Req Msg Key)} {v w : Vault Id Req Msg Key}
    {action : Action Id Req Msg Key} (h : v.Sound history) (hstep : v.Step action w) :
    w.Sound (history ++ [action]) := by
  cases hstep with
  | @opened id hfresh =>
    refine h.put (fun a ha => ?_) fun id' hid => ⟨nofun, rfl, fun r => rfl⟩
    rw [← Option.some.inj ha]
    exact ⟨history, [], rfl, List.not_mem_nil, rfl, fun r => rfl⟩
  | closed id =>
    refine h.put (fun a ha => ?_) fun id' hid => ⟨?_, rfl, fun r => rfl⟩
    · cases ha
    · rintro heq
      exact hid (Action.closed.inj heq).symm
  | @issued id a ha r m =>
    refine h.put (fun b hb => ?_)
      fun id' hid => ⟨nofun, rfl, fun r' => if_neg fun heq => hid heq.1.symm⟩
    rw [← Option.some.inj hb]
    refine (h id a ha).snoc nofun (List.append_nil _).symm fun r' => ?_
    show Function.update a.requests r (some m) r' = _
    by_cases hr : r' = r
    · rw [hr, Function.update_self, Action.effect, if_pos ⟨rfl, rfl⟩]
      rfl
    · rw [Function.update_of_ne hr, Action.effect, if_neg fun heq => hr heq.2.symm]
      rfl
  | @redeemed id a ha r hr ks =>
    refine h.put (fun b hb => ?_) fun id' hid =>
      ⟨nofun, if_neg (Ne.symm hid), fun r' => if_neg fun heq => hid heq.1.symm⟩
    rw [← Option.some.inj hb]
    refine (h id a ha).snoc nofun ?_ fun r' => ?_
    · rw [Action.keysFor, if_pos rfl]
      rfl
    · show Function.update a.requests r none r' = _
      by_cases hr' : r' = r
      · rw [hr', Function.update_self, Action.effect, if_pos ⟨rfl, rfl⟩]
        rfl
      · rw [Function.update_of_ne hr', Action.effect, if_neg fun heq => hr' heq.2.symm]
        rfl
  | @spilled id a ha r hr ks =>
    refine h.put (fun b hb => ?_) fun id' hid =>
      ⟨nofun, if_neg (Ne.symm hid), fun r' => rfl⟩
    rw [← Option.some.inj hb]
    refine (h id a ha).snoc nofun ?_ fun r' => rfl
    rw [Action.keysFor, if_pos rfl]
    rfl
  | idle => exact h.idle

/-- A history of a vault. -/
abbrev History (history : List (Action Id Req Msg Key)) (v : Vault Id Req Msg Key) : Prop :=
  Trace Vault.Step Vault.empty history v

/-- **The books are right after every history.** -/
theorem History.booked {history : List (Action Id Req Msg Key)} {v : Vault Id Req Msg Key}
    (h : History history v) : v.Sound history :=
  Trace.invariant (I := fun history (v : Vault Id Req Msg Key) => v.Sound history)
    Vault.sound_empty (fun _ _ _ _ hsound hstep => hsound.step hstep) h

end WidevineCdm.Spec
