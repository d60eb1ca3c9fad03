import Crossover.Lib.History

/-!
# Fallible — runs of a step function that can fail

A run reads its events from left to right and ends at the first failure.  `run_append_ok` splits a
run that returns, `run_invariant` is its induction rule and `run_invariant_of` the rule for runs
whose steps all meet a side condition.
-/

namespace Crossover
namespace Fallible

universe u v w

variable {σ : Type u} {ε : Type v} {φ : Type w} (step : σ → ε → Except φ σ)

/-- The state after a list of events, or the first failure. -/
def run : σ → List ε → Except φ σ
  | s, [] => .ok s
  | s, e :: es =>
      match step s e with
      | .error fault => .error fault
      | .ok s' => run s' es

/-- Every step of the run from `s` that is reached meets `C`. -/
def StepsSatisfy (C : σ → ε → Prop) (s : σ) (es : List ε) : Prop :=
  History.Every (fun before e => ∀ s', run step s before = .ok s' → C s' e) es

/-- Every state of the run from `s` that is reached meets `I`. -/
def StatesSatisfy (I : σ → Prop) (s : σ) (es : List ε) : Prop :=
  ∀ before after, es = before ++ after → ∀ s', run step s before = .ok s' → I s'

@[simp] theorem run_nil (s : σ) : run step s [] = .ok s :=
  rfl

theorem run_cons_of_ok {s s' : σ} {e : ε} (h : step s e = .ok s') (es : List ε) :
    run step s (e :: es) = run step s' es := by
  simp [run, h]

variable {step}

theorem run_cons_ok {s s'' : σ} {e : ε} {es : List ε} :
    run step s (e :: es) = .ok s'' ↔ ∃ s', step s e = .ok s' ∧ run step s' es = .ok s'' := by
  cases h : step s e with
  | error fault => simp [run, h]
  | ok s' => simp [run, h]

theorem run_append_ok {s s'' : σ} {es fs : List ε} :
    run step s (es ++ fs) = .ok s'' ↔
      ∃ s', run step s es = .ok s' ∧ run step s' fs = .ok s'' := by
  induction es generalizing s with
  | nil => simp
  | cons e es ih =>
    rw [List.cons_append, run_cons_ok]
    constructor
    · rintro ⟨s₁, hfirst, hrest⟩
      rcases ih.1 hrest with ⟨s', hes, hfs⟩
      exact ⟨s', run_cons_ok.2 ⟨s₁, hfirst, hes⟩, hfs⟩
    · rintro ⟨s', hes, hfs⟩
      rcases run_cons_ok.1 hes with ⟨s₁, hfirst, hrest⟩
      exact ⟨s₁, hfirst, ih.2 ⟨s', hrest, hfs⟩⟩

theorem run_snoc_ok {s s'' : σ} {es : List ε} {e : ε} :
    run step s (es ++ [e]) = .ok s'' ↔
      ∃ s', run step s es = .ok s' ∧ step s' e = .ok s'' := by
  rw [run_append_ok]
  simp [run_cons_ok]

/-- A run fails with the failure of its first step that fails. -/
theorem run_eq_error {s : σ} {es : List ε} {fault : φ} :
    run step s es = .error fault ↔
      ∃ before e after s', es = before ++ e :: after ∧ run step s before = .ok s' ∧
        step s' e = .error fault := by
  induction es generalizing s with
  | nil => simp
  | cons e es ih =>
    cases h : step s e with
    | error first =>
      constructor
      · intro hrun
        have hfirst : first = fault := by simpa [run, h] using hrun
        exact ⟨[], e, es, s, rfl, rfl, by rw [h, hfirst]⟩
      · rintro ⟨before, e', after, s', hsplit, hbefore, hfault⟩
        cases before with
        | nil =>
          cases hsplit
          cases hbefore
          simpa [run, h] using hfault
        | cons e'' before =>
          cases hsplit
          simp [run, h] at hbefore
    | ok s₁ =>
      rw [run_cons_of_ok step h, ih]
      constructor
      · rintro ⟨before, e', after, s', rfl, hbefore, hfault⟩
        exact ⟨e :: before, e', after, s', rfl, run_cons_ok.2 ⟨s₁, h, hbefore⟩, hfault⟩
      · rintro ⟨before, e', after, s', hsplit, hbefore, hfault⟩
        cases before with
        | nil =>
          cases hsplit
          cases hbefore
          simp [h] at hfault
        | cons e'' before =>
          cases hsplit
          rw [run_cons_of_ok step h] at hbefore
          exact ⟨before, e', after, s', rfl, hbefore, hfault⟩

/-! ## Induction over runs -/

theorem stepsSatisfy_snoc {C : σ → ε → Prop} {s : σ} {es : List ε} {e : ε} :
    StepsSatisfy step C s (es ++ [e]) ↔
      StepsSatisfy step C s es ∧ ∀ s', run step s es = .ok s' → C s' e :=
  History.every_snoc

theorem stepsSatisfy_cons {C : σ → ε → Prop} {s : σ} {e : ε} {es : List ε} :
    StepsSatisfy step C s (e :: es) ↔
      C s e ∧ ∀ s', step s e = .ok s' → StepsSatisfy step C s' es := by
  constructor
  · intro h
    refine ⟨h [] e es rfl s rfl, ?_⟩
    intro s' he before x after hsplit s'' hrun
    exact h (e :: before) x after (by rw [hsplit, List.cons_append]) s''
      (run_cons_ok.2 ⟨s', he, hrun⟩)
  · rintro ⟨hfirst, hrest⟩ before x after hsplit s'' hrun
    cases before with
    | nil =>
      cases hsplit
      cases hrun
      exact hfirst
    | cons e' before =>
      cases hsplit
      rcases run_cons_ok.1 hrun with ⟨s', he, hbefore⟩
      exact hrest s' he before x after rfl s'' hbefore

instance decidableStepsSatisfy (C : σ → ε → Prop) [∀ s e, Decidable (C s e)] :
    ∀ s es, Decidable (StepsSatisfy step C s es)
  | _, [] => isTrue (History.every_nil _)
  | s, e :: es =>
      match h : step s e with
      | .error _ => decidable_of_iff (C s e) (by simp [stepsSatisfy_cons, h])
      | .ok s' =>
          have := decidableStepsSatisfy C s' es
          decidable_of_iff (C s e ∧ StepsSatisfy step C s' es) (by simp [stepsSatisfy_cons, h])

theorem stepsSatisfy_of_forall {C : σ → ε → Prop} {s₀ : σ} {es : List ε}
    (h : ∀ e ∈ es, ∀ s, C s e) : StepsSatisfy step C s₀ es := by
  rintro before e after rfl s _
  exact h e (by simp) s

/-- A run that is known to return gives its state. -/
theorem run_eq_ok {s₀ : σ} {es : List ε} (h : (run step s₀ es).toOption.isSome = true) (s : σ) :
    run step s₀ es = .ok ((run step s₀ es).toOption.getD s) := by
  cases hrun : run step s₀ es with
  | error fault =>
    rw [hrun] at h
    cases h
  | ok s' => rfl

/-- A property that every step meeting `C` preserves holds after every run whose steps meet
`C`. -/
theorem run_invariant_of {C : σ → ε → Prop} {I : σ → Prop} {s₀ : σ} (init : I s₀)
    (hstep : ∀ s e s', I s → C s e → step s e = .ok s' → I s') :
    ∀ es s, StepsSatisfy step C s₀ es → run step s₀ es = .ok s → I s := by
  intro es
  induction es using List.reverseRecOn with
  | nil =>
    intro s _ hrun
    cases hrun
    exact init
  | append_singleton es e ih =>
    intro s'' hC hrun
    rcases run_snoc_ok.1 hrun with ⟨s', hes, he⟩
    rcases stepsSatisfy_snoc.1 hC with ⟨hbefore, hlast⟩
    exact hstep s' e s'' (ih s' hbefore hes) (hlast s' hes) he

/-- A property that every step preserves holds after every run. -/
theorem run_invariant {I : σ → Prop} {s₀ s : σ} {es : List ε} (init : I s₀)
    (hstep : ∀ s e s', I s → step s e = .ok s' → I s') (hrun : run step s₀ es = .ok s) : I s :=
  run_invariant_of (C := fun _ _ => True) init (fun s e s' hI _ => hstep s e s' hI) es s
    (fun _ _ _ _ _ _ => trivial) hrun

/-- Conditions that agree wherever an invariant holds are met by the same runs. -/
theorem stepsSatisfy_congr {C D : σ → ε → Prop} {I : σ → Prop} {s₀ : σ} {es : List ε}
    (init : I s₀) (hstep : ∀ s e s', I s → step s e = .ok s' → I s')
    (h : ∀ s e, I s → (C s e ↔ D s e)) :
    StepsSatisfy step C s₀ es ↔ StepsSatisfy step D s₀ es := by
  have hreached : ∀ before s, run step s₀ before = .ok s → I s :=
    fun before s hrun => run_invariant init hstep hrun
  constructor
  · intro hC
    exact hC.mono fun before e hmet s hrun => (h s e (hreached before s hrun)).1 (hmet s hrun)
  · intro hD
    exact hD.mono fun before e hmet s hrun => (h s e (hreached before s hrun)).2 (hmet s hrun)

/-- A run fails in no way of the kind `P` exactly when all its steps meet a condition that rules
out such failures of one step. -/
theorem avoids_iff {C : σ → ε → Prop} {J : σ → Prop} {P : φ → Prop} {s₀ : σ} {es : List ε}
    (initJ : J s₀) (hJ : ∀ s e s', J s → step s e = .ok s' → J s')
    (h : ∀ s e, J s → ((∀ fault, step s e = .error fault → ¬ P fault) ↔ C s e)) :
    (∀ fault, run step s₀ es = .error fault → ¬ P fault) ↔ StepsSatisfy step C s₀ es := by
  constructor
  · intro hno before e after hsplit s hrun
    refine (h s e (run_invariant initJ hJ hrun)).1 ?_
    intro fault hfault
    exact hno fault (run_eq_error.2 ⟨before, e, after, s, hsplit, hrun, hfault⟩)
  · intro hC fault hfault
    rcases run_eq_error.1 hfault with ⟨before, e, after, s, hsplit, hrun, hstep⟩
    exact (h s e (run_invariant initJ hJ hrun)).2 (hC before e after hsplit s hrun) fault hstep

/-- An invariant `I` that `C` steps preserve and that every other step from it breaks holds all
along a run exactly when all its steps meet `C`.  `J` is what holds along every run. -/
theorem statesSatisfy_iff {C : σ → ε → Prop} {I J : σ → Prop} {s₀ : σ} {es : List ε}
    (initI : I s₀) (initJ : J s₀)
    (hJ : ∀ s e s', J s → step s e = .ok s' → J s')
    (hkeep : ∀ s e s', J s → I s → C s e → step s e = .ok s' → I s')
    (hbreak : ∀ s e, J s → I s → ¬ C s e → ∃ s', step s e = .ok s' ∧ ¬ I s') :
    StatesSatisfy step I s₀ es ↔ StepsSatisfy step C s₀ es := by
  constructor
  · intro hI before e after hsplit s hrun
    by_contra hC
    have hIs := hI before (e :: after) hsplit s hrun
    rcases hbreak s e (run_invariant initJ hJ hrun) hIs hC with ⟨s', hstep, hnot⟩
    exact hnot (hI (before ++ [e]) after (by simp [hsplit]) s' (run_snoc_ok.2 ⟨s, hrun, hstep⟩))
  · intro hC before after hsplit s hrun
    have hbefore : StepsSatisfy step C s₀ before := by
      rw [hsplit] at hC
      exact (History.every_append.1 hC).1
    have hboth := run_invariant_of (C := C) (I := fun s => J s ∧ I s) ⟨initJ, initI⟩
      (fun s e s' h hCs hstep => ⟨hJ s e s' h.1 hstep, hkeep s e s' h.1 h.2 hCs hstep⟩)
      before s hbefore hrun
    exact hboth.2

end Fallible
end Crossover
