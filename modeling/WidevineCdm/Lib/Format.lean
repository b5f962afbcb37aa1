import WidevineCdm.Lib.Bytes

/-!
# Formats and their decoders

A format is a set of encodings `encode b`; a decoder reports a `view` of the
`b` it finds at the front of its input. `Recognizes` bundles the two
obligations of a decoder proof: every encoding decodes to its view whatever
follows it, and every input either starts with an encoding or is rejected
with an exception of a given class. Both directions of a format's correctness
follow.

`chunks` cuts a list into pieces of one size, the shape of a counted list of
fixed-width records.
-/

namespace WidevineCdm.Lib

variable {ε α β : Type}

/-- `decode` accepts exactly the encodings with anything appended. -/
structure Recognizes (decode : Bytes → Except ε α) (encode : β → Bytes)
    (view : β → Bytes → α) (E : ε → Prop) : Prop where
  complete : ∀ b t, decode (encode b ++ t) = .ok (view b (encode b ++ t))
  total : ∀ data, (∃ b t, data = encode b ++ t) ∨ ∃ e, decode data = .error e ∧ E e

namespace Recognizes

variable {decode : Bytes → Except ε α} {encode : β → Bytes} {view : β → Bytes → α}
  {E : ε → Prop}

/-- What is returned is the view of an encoding the input starts with, and
the view of every such encoding is returned. -/
theorem ok_iff (h : Recognizes decode encode view E) {data : Bytes} {a : α} :
    decode data = .ok a ↔ ∃ b t, data = encode b ++ t ∧ a = view b data := by
  constructor
  · intro hok
    rcases h.total data with ⟨b, t, rfl⟩ | ⟨e, he, -⟩
    · rw [h.complete b t] at hok
      exact ⟨b, t, rfl, (Except.ok.inj hok).symm⟩
    · rw [he] at hok
      cases hok
  · rintro ⟨b, t, rfl, rfl⟩
    exact h.complete b t

/-- An input that starts with no encoding is rejected. -/
theorem rejects (h : Recognizes decode encode view E) {data : Bytes}
    (hno : ∀ b t, data ≠ encode b ++ t) : ∃ e, decode data = .error e ∧ E e := by
  rcases h.total data with ⟨b, t, hbt⟩ | he
  · exact absurd hbt (hno b t)
  · exact he

/-- Every rejection is of the given class. -/
theorem error_class (h : Recognizes decode encode view E) {data : Bytes} {e : ε}
    (he : decode data = .error e) : E e := by
  rcases h.total data with ⟨b, t, rfl⟩ | ⟨e', he', hE⟩
  · rw [h.complete b t] at he
    cases he
  · rw [he] at he'
    rwa [Except.error.inj he']

/-- **No truncated encoding is accepted**, provided the view of an encoding
determines its length. -/
theorem rejects_truncated (h : Recognizes decode encode view E)
    (hlen : ∀ b b' d d', view b d = view b' d' → (encode b).length = (encode b').length)
    {b : β} {data rest : Bytes} (hrest : rest ≠ []) (hpre : encode b = data ++ rest) :
    ∃ e, decode data = .error e ∧ E e := by
  refine h.rejects fun b' t hbt => ?_
  have hlong : encode b = encode b' ++ (t ++ rest) := by
    rw [hpre, hbt, List.append_assoc]
  have hb := h.complete b []
  rw [List.append_nil] at hb
  have hb' := h.complete b' (t ++ rest)
  rw [← hlong, hb] at hb'
  have hsame := hlen _ _ _ _ (Except.ok.inj hb')
  have hl := congrArg List.length hlong
  have hpos := List.length_pos_iff.mpr hrest
  rw [List.length_append, List.length_append] at hl
  omega

end Recognizes

/-! ## Chunks -/

/-- The first `n` pieces of `size` elements. -/
def chunks (size : Nat) : Nat → List α → List (List α)
  | 0, _ => []
  | n + 1, l => l.take size :: chunks size n (l.drop size)

@[simp] theorem chunks_length (size n : Nat) (l : List α) : (chunks size n l).length = n := by
  induction n generalizing l with
  | zero => rfl
  | succ n ih => rw [chunks, List.length_cons, ih]

/-- The last piece apart. -/
theorem chunks_succ (size n : Nat) (l : List α) :
    chunks size (n + 1) l = chunks size n l ++ [(l.drop (size * n)).take size] := by
  induction n generalizing l with
  | zero => simp [chunks]
  | succ n ih =>
    rw [chunks, ih, List.drop_drop, Nat.mul_succ, Nat.add_comm size]
    rfl

/-- Fewer pieces are the front of more. -/
theorem chunks_isPrefixOf {size m n : Nat} (h : m ≤ n) {l : List α} :
    chunks size m l <+: chunks size n l := by
  induction h with
  | refl => exact List.prefix_rfl
  | step _ ih =>
    rw [chunks_succ]
    exact ih.trans (List.prefix_append ..)

/-- What follows the pieces does not matter. -/
theorem chunks_append {size n : Nat} {l : List α} (h : size * n ≤ l.length) (rest : List α) :
    chunks size n (l ++ rest) = chunks size n l := by
  induction n generalizing l with
  | zero => rfl
  | succ n ih =>
    rw [Nat.mul_succ] at h
    have hdrop : size * n ≤ (l.drop size).length := by
      rw [List.length_drop]
      omega
    rw [chunks, chunks, List.take_append_of_le_length (by omega),
      List.drop_append_of_le_length (by omega), ih hdrop]

/-- The pieces are full when the list is long enough. -/
theorem length_of_mem_chunks {size n : Nat} {l c : List α} (h : size * n ≤ l.length)
    (hc : c ∈ chunks size n l) : c.length = size := by
  induction n generalizing l with
  | zero => cases hc
  | succ n ih =>
    rw [Nat.mul_succ] at h
    rcases List.mem_cons.mp hc with rfl | hc
    · rw [List.length_take]
      omega
    · refine ih ?_ hc
      rw [List.length_drop]
      omega

theorem flatten_length {size : Nat} {pieces : List (List α)}
    (h : ∀ c ∈ pieces, c.length = size) : pieces.flatten.length = size * pieces.length := by
  rw [List.length_flatten, List.map_congr_left h, List.map_const', List.sum_replicate,
    smul_eq_mul, Nat.mul_comm]

/-- Pieces of one size are vectors. -/
theorem exists_vectors {size : Nat} {pieces : List (List α)}
    (h : ∀ c ∈ pieces, c.length = size) :
    ∃ vs : List (List.Vector α size), vs.map (·.toList) = pieces := by
  induction pieces with
  | nil => exact ⟨[], rfl⟩
  | cons c cs ih =>
    obtain ⟨vs, hvs⟩ := ih fun c' hc' => h c' (List.mem_cons_of_mem _ hc')
    exact ⟨⟨c, h c (List.mem_cons_self ..)⟩ :: vs, congrArg (c :: ·) hvs⟩

/-- The pieces in order are the front of the list. -/
theorem flatten_chunks (size n : Nat) (l : List α) :
    (chunks size n l).flatten = l.take (size * n) := by
  induction n generalizing l with
  | zero => simp [chunks]
  | succ n ih =>
    rw [chunks, List.flatten_cons, ih, Nat.mul_succ, Nat.add_comm, List.take_add]

/-- Cutting recovers full pieces that were joined. -/
theorem chunks_flatten {size : Nat} {pieces : List (List α)}
    (h : ∀ c ∈ pieces, c.length = size) (rest : List α) :
    chunks size pieces.length (pieces.flatten ++ rest) = pieces := by
  induction pieces with
  | nil => rfl
  | cons c cs ih =>
    have hc : c.length = size := h c (List.mem_cons_self ..)
    have hcs := ih fun c' hc' => h c' (List.mem_cons_of_mem _ hc')
    rw [List.length_cons, List.flatten_cons, List.append_assoc, chunks, List.take_left' hc,
      List.drop_left' hc, hcs]

end WidevineCdm.Lib
