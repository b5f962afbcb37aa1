import Mathlib

/-!
# Ledgers: what a history leaves in one slot

Every event of a history writes a value into a slot, erases it, or keeps it.
`ledger` folds the history into the slot's final content. The content is `v`
exactly when some event wrote `v` and every later one kept the slot
(`ledger_eq_some_iff`); and if every event of a class erases a full slot, the
class never occurs more often than a write (`countP_le_writes`).
-/

namespace WidevineCdm.Lib

/-- What an event does to the slot. -/
inductive SlotEffect (V : Type) where
  | keep
  | write (v : V)
  | erase

variable {E V : Type}

/-- The slot after an event. -/
def SlotEffect.apply : SlotEffect V → Option V → Option V
  | .keep, slot => slot
  | .write v, _ => some v
  | .erase, _ => none

variable (effect : E → SlotEffect V)

/-- The slot after a history. -/
def ledger (slot : Option V) (history : List E) : Option V :=
  history.foldl (fun slot e => (effect e).apply slot) slot

@[simp] theorem ledger_nil (slot : Option V) : ledger effect slot [] = slot := rfl

theorem ledger_cons (slot : Option V) (e : E) (history : List E) :
    ledger effect slot (e :: history) = ledger effect ((effect e).apply slot) history := rfl

theorem ledger_append (slot : Option V) (h₁ h₂ : List E) :
    ledger effect slot (h₁ ++ h₂) = ledger effect (ledger effect slot h₁) h₂ :=
  List.foldl_append ..

theorem ledger_snoc (slot : Option V) (history : List E) (e : E) :
    ledger effect slot (history ++ [e]) = (effect e).apply (ledger effect slot history) := by
  rw [ledger_append, ledger_cons, ledger_nil]

variable {effect}

/-- A history that only keeps leaves the slot alone. -/
theorem ledger_keep {history : List E} (h : ∀ e ∈ history, effect e = .keep)
    (slot : Option V) : ledger effect slot history = slot := by
  induction history with
  | nil => rfl
  | cons e rest ih =>
    rw [ledger_cons, h e (List.mem_cons_self ..)]
    exact ih fun e' he' => h e' (List.mem_cons_of_mem _ he')

/-- A full slot stays full while nothing erases it. -/
theorem ledger_isSome {history : List E} (h : ∀ e ∈ history, effect e ≠ .erase)
    {slot : Option V} (hslot : slot.isSome) : (ledger effect slot history).isSome := by
  induction history generalizing slot with
  | nil => exact hslot
  | cons e rest ih =>
    have hrest : ∀ e' ∈ rest, effect e' ≠ .erase := fun e' he' => h e' (List.mem_cons_of_mem _ he')
    have he := h e (List.mem_cons_self ..)
    rw [ledger_cons]
    cases heff : effect e with
    | keep => exact ih hrest hslot
    | write v => exact ih hrest rfl
    | erase => exact absurd heff he

/-- An empty slot stays empty while nothing writes it. -/
theorem ledger_none {history : List E} (h : ∀ e ∈ history, ∀ v, effect e ≠ .write v) :
    ledger effect none history = none := by
  induction history with
  | nil => rfl
  | cons e rest ih =>
    have hrest := ih fun e' he' => h e' (List.mem_cons_of_mem _ he')
    rw [ledger_cons]
    cases heff : effect e with
    | keep => exact hrest
    | write v => exact absurd heff (h e (List.mem_cons_self ..) v)
    | erase => exact hrest

/-- **Last write wins**: an initially empty slot holds `v` exactly when some
event wrote `v` and every later event kept the slot. -/
theorem ledger_eq_some_iff {history : List E} {v : V} :
    ledger effect none history = some v ↔
      ∃ before e after, history = before ++ e :: after ∧ effect e = .write v ∧
        ∀ e' ∈ after, effect e' = .keep := by
  constructor
  · intro h
    induction history using List.reverseRecOn with
    | nil => cases h
    | append_singleton init e ih =>
      rw [ledger_snoc] at h
      cases he : effect e with
      | keep =>
        rw [he] at h
        obtain ⟨before, w, after, rfl, hw, hafter⟩ := ih h
        refine ⟨before, w, after ++ [e], by simp, hw, ?_⟩
        intro e' he'
        rcases List.mem_append.mp he' with hin | hin
        · exact hafter e' hin
        · rw [List.mem_singleton.mp hin]
          exact he
      | write w =>
        rw [he] at h
        have hwv : w = v := Option.some.inj h
        exact ⟨init, e, [], rfl, hwv ▸ he, fun _ hin => nomatch hin⟩
      | erase =>
        rw [he] at h
        cases h
  · rintro ⟨before, e, after, rfl, he, hafter⟩
    rw [ledger_append, ledger_cons, he]
    exact ledger_keep hafter _

/-- If every event of a class finds the slot full and erases it, the class
occurs at most as often as a write. The invariant carried along the history:
occurrences so far, plus one while the slot is full, never exceed writes. -/
theorem countP_le_writes (consumes writes : E → Bool)
    (hw : ∀ e v, effect e = .write v → writes e)
    {history : List E}
    (hc : ∀ before e after, history = before ++ e :: after → consumes e →
      (ledger effect none before).isSome ∧ effect e = .erase) :
    history.countP consumes ≤ history.countP writes := by
  suffices h : history.countP consumes + (ledger effect none history).toList.length
      ≤ history.countP writes by omega
  induction history using List.reverseRecOn with
  | nil => simp
  | append_singleton init e ih =>
    have ih' := ih fun before e' after heq hce =>
      hc before e' (after ++ [e]) (by simp [heq]) hce
    have hlast := hc init e [] rfl
    rw [List.countP_append, List.countP_append, List.countP_singleton,
      List.countP_singleton, ledger_snoc]
    cases he : effect e with
    | keep =>
      have hnc : ¬ consumes e := fun hce => by
        have := (hlast hce).2
        rw [he] at this
        cases this
      rw [if_neg hnc]
      show _ + 0 + (ledger effect none init).toList.length ≤ _
      omega
    | write v =>
      have hnc : ¬ consumes e := fun hce => by
        have := (hlast hce).2
        rw [he] at this
        cases this
      rw [if_neg hnc, if_pos (hw e v he)]
      show _ + 0 + 1 ≤ _
      omega
    | erase =>
      show _ + _ + 0 ≤ _
      by_cases hce : consumes e
      · obtain ⟨v, hv⟩ := Option.isSome_iff_exists.mp (hlast hce).1
        have hfull : (ledger effect none init).toList.length = 1 := by
          rw [hv]
          rfl
        rw [if_pos hce]
        omega
      · rw [if_neg hce]
        omega

end WidevineCdm.Lib
