import WidevineCdm.Lib.Run

/-!
# Comparing the runs of two machines

Two ways in which a relation between states, established once and preserved
by one step, relates whole runs.

- `Lockstep` compares two machines input by input. The inputs the filter
  `keep` passes are answered alike by both, after a translation; the others
  are given to the first machine only and must not break the relation. So the
  second machine's run is the first's with some inputs erased, and it answers
  what is left of them as the first did (`Lockstep.run`). Comparing a machine
  with itself this way is noninterference of the erased inputs.
- `simulation_run` matches the run of a machine by a trace of a labelled
  transition system, the labels reporting the events of the run.
-/

namespace WidevineCdm.Lib

variable {σ τ ι κ ο : Type}

/-! ## Lockstep -/

/-- `R` survives every step of `f` answered as `allowed` says: on an input that
`keep` passes `g` answers the translated input alike, and on any other input
`g` stands still. -/
structure Lockstep (f : σ → ι → ο × σ) (g : τ → κ → ο × τ) (R : σ → τ → Prop)
    (allowed : ι × ο → Prop) (keep : ι → Bool) (translate : ι → κ) : Prop where
  kept : ∀ s t i, R s t → allowed (i, (f s i).1) → keep i = true →
    (g t (translate i)).1 = (f s i).1 ∧ R (f s i).2 (g t (translate i)).2
  erased : ∀ s t i, R s t → allowed (i, (f s i).1) → keep i = false → R (f s i).2 t

/-- **The lockstep rule**: erasing and translating inputs keeps the other
answers, and the states reached are related. -/
theorem Lockstep.run {f : σ → ι → ο × σ} {g : τ → κ → ο × τ} {R : σ → τ → Prop}
    {allowed : ι × ο → Prop} {keep : ι → Bool} {translate : ι → κ}
    (h : Lockstep f g R allowed keep translate) {s : σ} {t : τ} (hR : R s t) (is : List ι)
    (hallowed : ∀ e ∈ (runFrom f s is).1, allowed e) :
    (runFrom g t ((is.filter keep).map translate)).1
        = ((runFrom f s is).1.filter fun e => keep e.1).map (fun e => (translate e.1, e.2)) ∧
      R (runFrom f s is).2 (runFrom g t ((is.filter keep).map translate)).2 := by
  induction is generalizing s t with
  | nil => exact ⟨rfl, hR⟩
  | cons i is ih =>
    rw [runFrom_cons] at hallowed ⊢
    have hi := hallowed _ List.mem_cons_self
    have hrest : ∀ e ∈ (runFrom f (f s i).2 is).1, allowed e :=
      fun e he => hallowed e (List.mem_cons_of_mem _ he)
    simp only [List.filter_cons]
    cases hk : keep i with
    | true =>
      obtain ⟨hout, hR'⟩ := h.kept s t i hR hi hk
      obtain ⟨hhistory, hstate⟩ := ih hR' hrest
      simp only [if_true, List.map_cons, runFrom_cons]
      exact ⟨by rw [hout, hhistory], hstate⟩
    | false =>
      obtain ⟨hhistory, hstate⟩ := ih (h.erased s t i hR hi hk) hrest
      simp only [Bool.false_eq_true, if_false]
      exact ⟨hhistory, hstate⟩

/-! ## Traces of a transition system -/

variable {α l : Type} {A : α → l → α → Prop}

/-- The paths of a labelled transition system. -/
inductive Trace (A : α → l → α → Prop) : α → List l → α → Prop where
  | nil (a : α) : Trace A a [] a
  | snoc {a b c : α} {labels : List l} {label : l} (h : Trace A a labels b) (hstep : A b label c) :
    Trace A a (labels ++ [label]) c

/-- **The trace rule**: what holds at the start and survives one step holds
along every trace, with the labels so far. -/
theorem Trace.invariant {I : List l → α → Prop} {a : α} (h0 : I [] a)
    (hstep : ∀ labels b label c, I labels b → A b label c → I (labels ++ [label]) c)
    {labels : List l} {b : α} (h : Trace A a labels b) : I labels b := by
  induction h with
  | nil => exact h0
  | snoc _ hs ih => exact hstep _ _ _ _ ih hs

/-- Every label of a trace labels a step. -/
theorem Trace.mem {a b : α} {labels : List l} (h : Trace A a labels b) {label : l}
    (hmem : label ∈ labels) : ∃ c d, A c label d := by
  induction h with
  | nil => cases hmem
  | snoc _ hs ih =>
    rcases List.mem_append.mp hmem with hmem | hmem
    · exact ih hmem
    · rw [List.mem_singleton.mp hmem]
      exact ⟨_, _, hs⟩

/-- Relabelling a trace. -/
theorem Trace.map {m : Type} {B : α → m → α → Prop} {f : l → m}
    (hf : ∀ a label b, A a label b → B a (f label) b) {a b : α} {labels : List l}
    (h : Trace A a labels b) : Trace B a (labels.map f) b := by
  induction h with
  | nil => exact .nil _
  | snoc _ hs ih =>
    rw [List.map_append]
    exact .snoc ih (hf _ _ _ hs)

/-- **Simulation**: if every step of a machine from a state related to `a` is
matched by a step of the transition system whose label reports the event, as
long as the history stays within `bound`, then so is every run. -/
theorem simulation_run {f : σ → ι → ο × σ} {R : List (ι × ο) → σ → α → Prop}
    (bound : List (ι × ο) → Prop) (hbound : ∀ h e, bound (h ++ [e]) → bound h)
    (report : l → ι × ο)
    (hstep : ∀ h s a i, R h s a → bound (h ++ [(i, (f s i).1)]) →
      ∃ label b, report label = (i, (f s i).1) ∧ A a label b ∧
        R (h ++ [(i, (f s i).1)]) (f s i).2 b)
    {s : σ} {a : α} (hR : R [] s a) (is : List ι) (hin : bound (runFrom f s is).1) :
    ∃ labels b, labels.map report = (runFrom f s is).1 ∧ Trace A a labels b ∧
      R (runFrom f s is).1 (runFrom f s is).2 b := by
  induction is using List.reverseRecOn with
  | nil => exact ⟨[], a, rfl, .nil a, hR⟩
  | append_singleton init i ih =>
    rw [runFrom_append] at hin ⊢
    obtain ⟨labels, b, hlabels, htrace, hb⟩ := ih (hbound _ _ hin)
    obtain ⟨label, c, hlabel, hlast, hc⟩ := hstep _ _ _ i hb hin
    refine ⟨labels ++ [label], c, ?_, .snoc htrace hlast, hc⟩
    rw [List.map_append, hlabels, List.map_singleton, hlabel]
    rfl

end WidevineCdm.Lib
