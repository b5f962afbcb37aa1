import Mathlib

/-!
# Totals over finite maps

The total weight of the entries of a finite map, and how inserting and erasing
an entry change it. Stated as balances, with what was under the key before on
one side, so that no subtraction is needed.
-/

namespace WidevineCdm.Lib

variable {α β : Type} [DecidableEq α] (f : β → Nat) (m : Finmap fun _ : α => β)

/-- The weight of what is found under a key. -/
def weight : Option β → Nat
  | none => 0
  | some b => f b

/-- The weight of all entries of a map. -/
def total : Nat := ∑ a ∈ m.keys, weight f (m.lookup a)

@[simp] theorem total_empty : total f (∅ : Finmap fun _ : α => β) = 0 := by
  simp [total]

/-- Keys that are not there weigh nothing. -/
theorem sum_weight_eq_total {keys : Finset α} (h : m.keys ⊆ keys) :
    ∑ a ∈ keys, weight f (m.lookup a) = total f m := by
  refine (Finset.sum_subset h fun a _ ha => ?_).symm
  rw [Finmap.mem_keys, ← Finmap.lookup_eq_none] at ha
  rw [ha, weight]

theorem keys_insert_subset (a : α) (b : β) : (m.insert a b).keys ⊆ insert a m.keys := by
  intro a' ha'
  rw [Finmap.mem_keys, Finmap.mem_insert] at ha'
  rw [Finset.mem_insert, Finmap.mem_keys]
  exact ha'

/-- **Inserting** trades what was under the key for the new entry. -/
theorem total_insert (a : α) (b : β) :
    total f (m.insert a b) + weight f (m.lookup a) = total f m + f b := by
  have hnew := Finset.add_sum_erase (insert a m.keys)
    (fun a' => weight f ((m.insert a b).lookup a')) (Finset.mem_insert_self a m.keys)
  have hold := Finset.add_sum_erase (insert a m.keys)
    (fun a' => weight f (m.lookup a')) (Finset.mem_insert_self a m.keys)
  have hrest : ∑ a' ∈ (insert a m.keys).erase a, weight f ((m.insert a b).lookup a')
      = ∑ a' ∈ (insert a m.keys).erase a, weight f (m.lookup a') := by
    refine Finset.sum_congr rfl fun a' ha' => ?_
    rw [Finmap.lookup_insert_of_ne _ (Finset.ne_of_mem_erase ha')]
  rw [sum_weight_eq_total f _ (keys_insert_subset m a b), hrest] at hnew
  rw [sum_weight_eq_total f _ (Finset.subset_insert a m.keys)] at hold
  rw [Finmap.lookup_insert, weight] at hnew
  omega

/-- **Erasing** gives up what was under the key. -/
theorem total_erase (a : α) : total f (m.erase a) + weight f (m.lookup a) = total f m := by
  have hold := Finset.add_sum_erase (insert a m.keys)
    (fun a' => weight f (m.lookup a')) (Finset.mem_insert_self a m.keys)
  rw [sum_weight_eq_total f _ (Finset.subset_insert a m.keys)] at hold
  have hrest : ∑ a' ∈ (insert a m.keys).erase a, weight f (m.lookup a')
      = ∑ a' ∈ (insert a m.keys).erase a, weight f ((m.erase a).lookup a') := by
    refine Finset.sum_congr rfl fun a' ha' => ?_
    rw [Finmap.lookup_erase_ne (Finset.ne_of_mem_erase ha')]
  have hsub : (m.erase a).keys ⊆ (insert a m.keys).erase a := by
    rw [Finmap.keys_erase]
    exact Finset.erase_subset_erase a (Finset.subset_insert a m.keys)
  rw [hrest, sum_weight_eq_total f _ hsub] at hold
  omega

/-! ## Numbers of entries -/

theorem card_keys_insert_le (a : α) (b : β) :
    (m.insert a b).keys.card ≤ m.keys.card + 1 :=
  (Finset.card_le_card (keys_insert_subset m a b)).trans (Finset.card_insert_le a m.keys)

/-- Erasing an entry that is there leaves one less. -/
theorem card_keys_erase {a : α} (h : a ∈ m) : (m.erase a).keys.card + 1 = m.keys.card := by
  rw [Finmap.keys_erase]
  exact Finset.card_erase_add_one (Finmap.mem_keys.mpr h)

end WidevineCdm.Lib
