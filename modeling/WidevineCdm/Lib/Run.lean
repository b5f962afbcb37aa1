import Mathlib

/-!
# Runs of a state machine and their histories

A machine answers each input with an output and a next state. A run feeds it
a list of inputs; its history pairs every input with the answer it got. An
invariant relates the history so far to the state reached: established for
the empty history and preserved by one step, it holds of every run.
-/

namespace WidevineCdm.Lib

variable {σ ι ο : Type} (step : σ → ι → ο × σ)

/-- The history of a run and the state it reaches. -/
def runFrom : σ → List ι → List (ι × ο) × σ
  | s, [] => ([], s)
  | s, i :: is =>
    (((i, (step s i).1) :: (runFrom (step s i).2 is).1), (runFrom (step s i).2 is).2)

@[simp] theorem runFrom_nil (s : σ) : runFrom step s [] = ([], s) := rfl

theorem runFrom_cons (s : σ) (i : ι) (is : List ι) :
    runFrom step s (i :: is) =
      ((i, (step s i).1) :: (runFrom step (step s i).2 is).1,
        (runFrom step (step s i).2 is).2) := rfl

/-- The inputs of the history are the inputs of the run. -/
theorem runFrom_inputs (s : σ) (is : List ι) : (runFrom step s is).1.map Prod.fst = is := by
  induction is generalizing s with
  | nil => rfl
  | cons i is ih => rw [runFrom_cons, List.map_cons, ih]

/-- A run of two lists of inputs is a run of the second from where the first
ended. -/
theorem runFrom_append (s : σ) (xs ys : List ι) :
    runFrom step s (xs ++ ys) =
      ((runFrom step s xs).1 ++ (runFrom step (runFrom step s xs).2 ys).1,
        (runFrom step (runFrom step s xs).2 ys).2) := by
  induction xs generalizing s with
  | nil => simp
  | cons i is ih =>
    rw [List.cons_append, runFrom_cons, runFrom_cons, ih]
    rfl

/-- **The run rule**: what one step preserves, with the history it extends,
every run preserves. -/
theorem runFrom_induction {I : List (ι × ο) → σ → Prop}
    (hstep : ∀ h s i, I h s → I (h ++ [(i, (step s i).1)]) (step s i).2)
    {h : List (ι × ο)} {s : σ} (hs : I h s) (is : List ι) :
    I (h ++ (runFrom step s is).1) (runFrom step s is).2 := by
  induction is generalizing h s with
  | nil => simpa using hs
  | cons i is ih =>
    have h1 := ih (hstep h s i hs)
    rwa [List.append_assoc] at h1

/-- The run rule from a start with no history. -/
theorem runFrom_invariant {I : List (ι × ο) → σ → Prop} {s : σ} (h0 : I [] s)
    (hstep : ∀ h s i, I h s → I (h ++ [(i, (step s i).1)]) (step s i).2)
    (is : List ι) : I (runFrom step s is).1 (runFrom step s is).2 := by
  have h := runFrom_induction step hstep h0 is
  rwa [List.nil_append] at h

end WidevineCdm.Lib
