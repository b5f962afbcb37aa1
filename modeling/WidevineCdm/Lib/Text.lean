import Mathlib

/-!
# Texts that can be read back

A text put together from pieces determines the pieces when each ends in a
separator it does not contain, or when all have the same length. The
lower-case hexadecimal form of bytes is of the second kind.
-/

namespace WidevineCdm.Lib

variable {α β : Type}

/-! ## Pieces up to a separator -/

/-- A text determines what stands in front of its first separator. -/
theorem append_separator_inj {separator : α} {xs xs' rest rest' : List α} (h : separator ∉ xs)
    (h' : separator ∉ xs') (heq : xs ++ separator :: rest = xs' ++ separator :: rest') :
    xs = xs' ∧ rest = rest' := by
  induction xs generalizing xs' with
  | nil =>
    cases xs' with
    | nil => exact ⟨rfl, (List.cons.inj heq).2⟩
    | cons x xs' =>
      obtain ⟨rfl, -⟩ := List.cons.inj heq
      exact absurd List.mem_cons_self h'
  | cons x xs ih =>
    rw [List.mem_cons, not_or] at h
    cases xs' with
    | nil =>
      obtain ⟨rfl, -⟩ := List.cons.inj heq
      exact absurd rfl h.1
    | cons x' xs' =>
      rw [List.mem_cons, not_or] at h'
      obtain ⟨rfl, htail⟩ := List.cons.inj heq
      obtain ⟨rfl, hrest⟩ := ih h.2 h'.2 htail
      exact ⟨rfl, hrest⟩

/-- The pieces, each with a separator after it. -/
def terminated (separator : α) (pieces : List (List α)) : List α :=
  pieces.flatMap fun piece => piece ++ [separator]

@[simp] theorem terminated_nil (separator : α) : terminated separator [] = [] := rfl

@[simp] theorem terminated_cons (separator : α) (piece : List α) (pieces : List (List α)) :
    terminated separator (piece :: pieces)
      = piece ++ separator :: terminated separator pieces := by
  simp [terminated]

/-- **Terminated pieces can be read back** when none contains the separator. -/
theorem terminated_inj {separator : α} {pieces pieces' : List (List α)}
    (h : ∀ piece ∈ pieces, separator ∉ piece) (h' : ∀ piece ∈ pieces', separator ∉ piece)
    (heq : terminated separator pieces = terminated separator pieces') : pieces = pieces' := by
  induction pieces generalizing pieces' with
  | nil =>
    cases pieces' with
    | nil => rfl
    | cons piece' pieces' => simp at heq
  | cons piece pieces ih =>
    cases pieces' with
    | nil => simp at heq
    | cons piece' pieces' =>
      rw [terminated_cons, terminated_cons] at heq
      obtain ⟨rfl, hrest⟩ := append_separator_inj (h piece List.mem_cons_self)
        (h' piece' List.mem_cons_self) heq
      rw [ih (fun p hp => h p (List.mem_cons_of_mem _ hp))
        (fun p hp => h' p (List.mem_cons_of_mem _ hp)) hrest]

/-! ## Pieces of one length -/

/-- Pieces of one positive length can be read back. -/
theorem flatMap_injective {f : α → List β} {n : Nat} (hpos : 0 < n)
    (hlength : ∀ a, (f a).length = n) (hf : Function.Injective f) :
    Function.Injective fun xs : List α => xs.flatMap f := by
  intro xs ys heq
  dsimp only at heq
  induction xs generalizing ys with
  | nil =>
    cases ys with
    | nil => rfl
    | cons y ys =>
      have hlen := congrArg List.length heq
      rw [List.flatMap_nil, List.flatMap_cons, List.length_append, hlength] at hlen
      simp only [List.length_nil] at hlen
      omega
  | cons x xs ih =>
    cases ys with
    | nil =>
      have hlen := congrArg List.length heq
      rw [List.flatMap_nil, List.flatMap_cons, List.length_append, hlength] at hlen
      simp only [List.length_nil] at hlen
      omega
    | cons y ys =>
      rw [List.flatMap_cons, List.flatMap_cons] at heq
      obtain ⟨hhead, htail⟩ := List.append_inj heq ((hlength x).trans (hlength y).symm)
      rw [hf hhead, ih htail]

/-- Two functions that tell the same elements apart tell the same lists
apart. -/
theorem map_eq_map_congr {γ : Type} {f : α → β} {g : α → γ} {xs ys : List α}
    (h : ∀ x ∈ xs, ∀ y ∈ ys, f x = f y ↔ g x = g y) :
    xs.map f = ys.map f ↔ xs.map g = ys.map g := by
  induction xs generalizing ys with
  | nil => cases ys <;> simp
  | cons x xs ih =>
    cases ys with
    | nil => simp
    | cons y ys =>
      have hhead := h x List.mem_cons_self y List.mem_cons_self
      have htail := ih fun x' hx' y' hy' =>
        h x' (List.mem_cons_of_mem _ hx') y' (List.mem_cons_of_mem _ hy')
      simp only [List.map_cons, List.cons.injEq, hhead, htail]

/-! ## Lower-case hexadecimal -/

/-- The lower-case hexadecimal digit of a number below 16. -/
def lowerDigit (n : Nat) : Char := Char.ofNat (if n < 10 then 48 + n else 87 + n)

/-- Two lower-case digits of a byte. -/
def lowerHex (byte : UInt8) : List Char :=
  [lowerDigit (byte.toNat / 16), lowerDigit (byte.toNat % 16)]

/-- Digits are told apart by their codes, all below 128. -/
theorem lowerDigit_toNat {n : Nat} (h : n < 16) :
    (lowerDigit n).toNat = if n < 10 then 48 + n else 87 + n := by
  interval_cases n <;> rfl

theorem lowerDigit_inj {m n : Nat} (hm : m < 16) (hn : n < 16)
    (h : lowerDigit m = lowerDigit n) : m = n := by
  have hcode := congrArg Char.toNat h
  rw [lowerDigit_toNat hm, lowerDigit_toNat hn] at hcode
  split at hcode <;> split at hcode <;> omega

theorem lowerHex_injective : Function.Injective lowerHex := by
  intro x y h
  have hx := x.toNat_lt
  have hy := y.toNat_lt
  obtain ⟨hhigh, htail⟩ := List.cons.inj h
  obtain ⟨hlow, -⟩ := List.cons.inj htail
  have ehigh := lowerDigit_inj (by omega) (by omega) hhigh
  have elow := lowerDigit_inj (by omega) (by omega) hlow
  exact UInt8.toNat_inj.mp (by omega)

/-- A character that is no digit and no letter from `a` to `f` is not in the
hexadecimal form of any bytes. -/
theorem not_mem_flatMap_lowerHex {c : Char} (hc : ∀ n < 16, c ≠ lowerDigit n)
    (bytes : List UInt8) : c ∉ bytes.flatMap lowerHex := by
  rw [List.mem_flatMap]
  rintro ⟨byte, -, hmem⟩
  have hlt := byte.toNat_lt
  rcases List.mem_cons.mp hmem with rfl | hmem
  · exact hc _ (by omega) rfl
  · exact hc _ (by omega) (List.mem_singleton.mp hmem)

/-- **Hexadecimal text can be read back.** -/
theorem flatMap_lowerHex_injective :
    Function.Injective fun bytes : List UInt8 => bytes.flatMap lowerHex :=
  flatMap_injective (n := 2) (by decide) (fun _ => rfl) lowerHex_injective

end WidevineCdm.Lib
