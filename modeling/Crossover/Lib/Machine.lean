import Crossover.Lib.History

/-!
# Machine — deterministic machines with output

A machine reads one event at a time, changes its state and emits a list of outputs.  Runs are lists
of events; the log of a run is everything it emitted, in order.  An invariant may speak about the
events read so far, the state and the log; `Machine.run_invariant` is its induction rule and
`Machine.run_invariant_of` the rule for runs whose steps all satisfy a side condition.
-/

namespace Crossover

universe u v w

/-- A deterministic machine with states `σ`, events `ε` and outputs `ω`. -/
structure Machine (σ : Type u) (ε : Type v) (ω : Type w) where
  step : σ → ε → σ × List ω

namespace Machine

variable {σ : Type u} {ε : Type v} {ω : Type w} (M : Machine σ ε ω)

/-- The state after a list of events, and everything emitted on the way. -/
def run : σ → List ε → σ × List ω
  | s, [] => (s, [])
  | s, e :: es =>
      let first := M.step s e
      let rest := run first.1 es
      (rest.1, first.2 ++ rest.2)

/-- The state after a list of events. -/
abbrev state (s : σ) (es : List ε) : σ :=
  (M.run s es).1

/-- Everything emitted during a list of events. -/
abbrev log (s : σ) (es : List ε) : List ω :=
  (M.run s es).2

/-- The steps of a run: each event with the state it meets. -/
def steps : σ → List ε → List (σ × ε)
  | _, [] => []
  | s, e :: es => (s, e) :: steps (M.step s e).1 es

/-- Every step of the run from `s` meets `C`, a condition on the state before the step and its
event. -/
def StepsSatisfy (C : σ → ε → Prop) (s : σ) (es : List ε) : Prop :=
  History.Every (fun before e => C (M.state s before) e) es

/-- Every state of the run from `s` has the property `P`. -/
def StatesSatisfy (P : σ → Prop) (s : σ) (es : List ε) : Prop :=
  ∀ before, before <+: es → P (M.state s before)

/-! ## Splitting runs -/

@[simp] theorem run_nil (s : σ) : M.run s [] = (s, []) :=
  rfl

theorem run_cons (s : σ) (e : ε) (es : List ε) :
    M.run s (e :: es) =
      ((M.run (M.step s e).1 es).1, (M.step s e).2 ++ (M.run (M.step s e).1 es).2) :=
  rfl

theorem state_cons (s : σ) (e : ε) (es : List ε) :
    M.state s (e :: es) = M.state (M.step s e).1 es :=
  rfl

theorem log_cons (s : σ) (e : ε) (es : List ε) :
    M.log s (e :: es) = (M.step s e).2 ++ M.log (M.step s e).1 es :=
  rfl

theorem run_append (s : σ) (es fs : List ε) :
    M.run s (es ++ fs) =
      ((M.run (M.state s es) fs).1, M.log s es ++ (M.run (M.state s es) fs).2) := by
  induction es generalizing s with
  | nil => simp [run, state, log]
  | cons e es ih =>
    simp [run, state, log, ih]

theorem state_append (s : σ) (es fs : List ε) :
    M.state s (es ++ fs) = M.state (M.state s es) fs := by
  simp [state, run_append]

theorem log_append (s : σ) (es fs : List ε) :
    M.log s (es ++ fs) = M.log s es ++ M.log (M.state s es) fs := by
  simp [log, run_append]

theorem state_snoc (s : σ) (es : List ε) (e : ε) :
    M.state s (es ++ [e]) = (M.step (M.state s es) e).1 := by
  simp [state, run_append, run]

theorem log_snoc (s : σ) (es : List ε) (e : ε) :
    M.log s (es ++ [e]) = M.log s es ++ (M.step (M.state s es) e).2 := by
  simp [log, run_append, run]

theorem steps_append (s : σ) (es fs : List ε) :
    M.steps s (es ++ fs) = M.steps s es ++ M.steps (M.state s es) fs := by
  induction es generalizing s with
  | nil => rfl
  | cons e es ih => simp [steps, ih, state_cons]

theorem exists_of_mem_steps {s s' : σ} {e : ε} {es : List ε} (h : (s', e) ∈ M.steps s es) :
    ∃ before after, es = before ++ e :: after ∧ s' = M.state s before := by
  induction es generalizing s with
  | nil => cases h
  | cons first es ih =>
    rcases List.mem_cons.1 h with heq | hlater
    · cases heq
      exact ⟨[], es, rfl, rfl⟩
    · rcases ih hlater with ⟨before, after, rfl, hstate⟩
      exact ⟨first :: before, after, rfl, hstate⟩

/-! ## Conditions on every step -/

theorem stepsSatisfy_nil (C : σ → ε → Prop) (s : σ) : M.StepsSatisfy C s [] :=
  History.every_nil _

theorem stepsSatisfy_cons {C : σ → ε → Prop} {s : σ} {e : ε} {es : List ε} :
    M.StepsSatisfy C s (e :: es) ↔ C s e ∧ M.StepsSatisfy C (M.step s e).1 es := by
  have hsplit : e :: es = [e] ++ es := rfl
  rw [StepsSatisfy, hsplit, History.every_append, History.every_singleton]
  rfl

theorem stepsSatisfy_snoc {C : σ → ε → Prop} {s : σ} {es : List ε} {e : ε} :
    M.StepsSatisfy C s (es ++ [e]) ↔ M.StepsSatisfy C s es ∧ C (M.state s es) e :=
  History.every_snoc

/-! ## Induction over runs -/

variable {M}

/-- A property of the state, the events read and the log that every step meeting `C` preserves
holds after every run whose steps meet `C`. -/
theorem run_invariant_of {C : σ → ε → Prop} {I : List ε → σ → List ω → Prop} {s₀ : σ}
    (init : I [] s₀ [])
    (step : ∀ es s log e, I es s log → C s e →
      I (es ++ [e]) (M.step s e).1 (log ++ (M.step s e).2)) :
    ∀ es, M.StepsSatisfy C s₀ es → I es (M.state s₀ es) (M.log s₀ es) := by
  intro es
  induction es using List.reverseRecOn with
  | nil =>
    intro _
    exact init
  | append_singleton es e ih =>
    intro hC
    rw [state_snoc, log_snoc]
    rcases (stepsSatisfy_snoc M).1 hC with ⟨hes, he⟩
    exact step es _ _ e (ih hes) he

/-- A property of the state, the events read and the log that every step preserves holds after
every run. -/
theorem run_invariant {I : List ε → σ → List ω → Prop} {s₀ : σ}
    (init : I [] s₀ [])
    (step : ∀ es s log e, I es s log → I (es ++ [e]) (M.step s e).1 (log ++ (M.step s e).2)) :
    ∀ es, I es (M.state s₀ es) (M.log s₀ es) := by
  intro es
  refine run_invariant_of (C := fun _ _ => True) init ?_ es (fun _ _ _ _ => trivial)
  intro es s log e hI _
  exact step es s log e hI

/-- What every step keeps on the events of a run holds in every state of it, and so does at every
step what follows from it. -/
theorem satisfy_of {I : σ → Prop} {A : ε → Prop} {C : σ → ε → Prop}
    (keeps : ∀ s e, I s → A e → I (M.step s e).1) (gives : ∀ s e, I s → A e → C s e) {s : σ}
    (init : I s) {es : List ε} (h : ∀ e ∈ es, A e) :
    M.StatesSatisfy I s es ∧ M.StepsSatisfy C s es := by
  induction es generalizing s with
  | nil =>
    refine ⟨?_, stepsSatisfy_nil M C s⟩
    intro before hbefore
    rw [List.prefix_nil.1 hbefore]
    exact init
  | cons e es ih =>
    rcases List.forall_mem_cons.1 h with ⟨he, hes⟩
    rcases ih (keeps s e init he) hes with ⟨hstates, hsteps⟩
    refine ⟨?_, (stepsSatisfy_cons M).2 ⟨gives s e init he, hsteps⟩⟩
    intro before hbefore
    cases before with
    | nil => exact init
    | cons first before =>
      rcases List.cons_prefix_cons.1 hbefore with ⟨rfl, hrest⟩
      exact hstates before hrest

/-- If `I` gives `P`, a step that meets `C` keeps `I` and one that keeps `P` meets `C`, then `P`
holds in every state of a run exactly when every step of the run meets `C`. -/
theorem statesSatisfy_iff {I P : σ → Prop} {C : σ → ε → Prop} (gives : ∀ s, I s → P s)
    (keeps : ∀ s e, I s → C s e → I (M.step s e).1)
    (needs : ∀ s e, I s → P (M.step s e).1 → C s e) {s : σ} (init : I s) (es : List ε) :
    M.StatesSatisfy P s es ↔ M.StepsSatisfy C s es := by
  have hinv : ∀ es, M.StepsSatisfy C s es → I (M.state s es) := by
    intro es hC
    refine run_invariant_of (I := fun _ s _ => I s) init ?_ es hC
    intro _ s _ e hI he
    exact keeps s e hI he
  constructor
  · intro h
    induction es using List.reverseRecOn with
    | nil => exact stepsSatisfy_nil M C s
    | append_singleton es e ih =>
      have hes := ih fun before hbefore => h before (hbefore.trans (List.prefix_append es [e]))
      have hlast := h (es ++ [e]) List.prefix_rfl
      rw [state_snoc] at hlast
      exact (stepsSatisfy_snoc M).2 ⟨hes, needs _ e (hinv es hes) hlast⟩
  · rintro h before ⟨after, rfl⟩
    exact gives _ (hinv before (History.every_append.1 h).1)

/-- What every step's outputs are like under `C` and only then, the whole log is like in the runs
whose steps all meet `C`. -/
theorem forall_log_iff {C : σ → ε → Prop} {P : ω → Prop}
    (step : ∀ s e, (∀ o ∈ (M.step s e).2, P o) ↔ C s e) (s : σ) (es : List ε) :
    (∀ o ∈ M.log s es, P o) ↔ M.StepsSatisfy C s es := by
  induction es generalizing s with
  | nil => exact iff_of_true (fun _ hmem => absurd hmem List.not_mem_nil) (stepsSatisfy_nil M C s)
  | cons e es ih =>
    rw [log_cons, List.forall_mem_append, stepsSatisfy_cons, step, ih]

/-! ## Two runs -/

/-- Runs over pairwise indistinguishable events are the same run. -/
theorem run_congr {R : ε → ε → Prop} (hstep : ∀ s e f, R e f → M.step s e = M.step s f)
    {es fs : List ε} (h : List.Forall₂ R es fs) (s : σ) : M.run s es = M.run s fs := by
  induction h generalizing s with
  | nil => rfl
  | @cons e f es fs hef _ ih => rw [run_cons, run_cons, hstep s e f hef, ih]

/-- A machine that another one is a coarser view of: forgetting in every step is forgetting in the
whole run. -/
theorem run_map {σ' : Type*} {ε' : Type*} {ω' : Type*} {N : Machine σ' ε' ω'} {f : σ → σ'}
    {g : ε → ε'} {h : ω → ω'}
    (hstep : ∀ s e, N.step (f s) (g e) = (f (M.step s e).1, (M.step s e).2.map h)) (s : σ)
    (es : List ε) : N.run (f s) (es.map g) = (f (M.state s es), (M.log s es).map h) := by
  induction es generalizing s with
  | nil => rfl
  | cons e es ih =>
    rw [List.map_cons, run_cons, hstep, ih, state_cons, log_cons, List.map_append]

end Machine
end Crossover
