import Crossover.Lib.Machine

/-!
# RateLimit — a limiter with tumbling windows

The limiter admits the first `limit` arrivals of a window and counts all of them.  A window has no
grid of its own: it opens with the first arrival at least `span` after the start of the one before.

* `Verdict` records an arrival: when it came, which window it fell into and whether it was admitted;
* `Kept` is the invariant of the verdicts so far, for clocks that never run behind the open window;
* an interval of one span meets at most two windows (`admitted_in_interval`), and an arrival is
  turned away only from a crowded interval (`crowded_of_rejected`).
-/

namespace Crossover
namespace RateLimit

open History

/-- The open window: when it started and how many arrivals it has counted. -/
structure Window where
  start : Int
  count : Nat
  deriving DecidableEq, Repr

/-- The limiter's answer to one arrival. -/
structure Verdict where
  time : Int
  /-- The start of the window the arrival was counted in. -/
  window : Int
  admitted : Bool
  deriving DecidableEq, Repr

/-- A late arrival opens a window of its own. -/
def Window.roll (span : Int) (w : Window) (time : Int) : Window :=
  if time - w.start ≥ span then { start := time, count := 0 } else w

def Window.judge (limit : Nat) (span : Int) (w : Window) (time : Int) : Window × List Verdict :=
  let rolled := w.roll span time
  ({ rolled with count := rolled.count + 1 },
    [{ time := time, window := rolled.start, admitted := decide (rolled.count < limit) }])

/-- The limiter as a machine over arrival times. -/
def limiter (limit : Nat) (span : Int) : Machine Window Int Verdict where
  step := Window.judge limit span

/-- The verdict is about an arrival in the half-open interval of length `span` from `a` on. -/
def Verdict.InInterval (span a : Int) (v : Verdict) : Prop :=
  a ≤ v.time ∧ v.time < a + span

instance (span a : Int) (v : Verdict) : Decidable (v.InInterval span a) :=
  inferInstanceAs (Decidable (_ ∧ _))

/-! ## Windows of one log -/

/-- Two windows are the same or a span apart. -/
def Apart (span : Int) (a b : Int) : Prop :=
  a = b ∨ a + span ≤ b ∨ b + span ≤ a

/-- What the verdicts so far look like when the open window is `w`. -/
structure Kept (limit : Nat) (span : Int) (vs : List Verdict) (w : Window) : Prop where
  inside : ∀ v ∈ vs, v.window ≤ v.time ∧ v.time < v.window + span
  /-- The windows of the past are the open one or over. -/
  behind : ∀ v ∈ vs, v.window = w.start ∨ v.window + span ≤ w.start
  apart : ∀ u ∈ vs, ∀ v ∈ vs, Apart span u.window v.window
  counted : vs.countP (fun v => v.window = w.start) = w.count
  /-- The open window has admitted its arrivals up to the limit. -/
  filled : vs.countP (fun v => v.admitted && decide (v.window = w.start)) = min w.count limit
  within : ∀ a, vs.countP (fun v => v.admitted && decide (v.window = a)) ≤ limit
  crowded : ∀ v ∈ vs, v.admitted = false →
    limit < vs.countP (fun u => u.window = v.window)

variable {limit : Nat} {span : Int} {vs : List Verdict} {w : Window} {time : Int}

theorem kept_init (start : Int) : Kept limit span [] { start := start, count := 0 } := by
  constructor <;> simp

section Roll

variable (hspan : 0 < span)

include hspan in
/-- A window that opens later is empty so far. -/
theorem Kept.roll (h : Kept limit span vs w) : Kept limit span vs (w.roll span time) := by
  unfold Window.roll
  by_cases hlate : time - w.start ≥ span
  · rw [if_pos hlate]
    have hpast : ∀ v ∈ vs, v.window + span ≤ time := by
      intro v hv
      rcases h.behind v hv with hopen | hover <;> omega
    have hnew : ∀ v ∈ vs, v.window ≠ time := by
      intro v hv hsame
      have hv' := hpast v hv
      omega
    have hnone : vs.countP (fun v => v.window = time) = 0 := by
      simpa [List.countP_eq_zero] using hnew
    have hadmitted : vs.countP (fun v => v.admitted && decide (v.window = time)) = 0 := by
      simp only [List.countP_eq_zero, Bool.and_eq_true, decide_eq_true_eq, not_and]
      exact fun v hv _ => hnew v hv
    exact
      { inside := h.inside
        behind := fun v hv => Or.inr (hpast v hv)
        apart := h.apart
        counted := hnone
        filled := by simpa using hadmitted
        within := h.within
        crowded := h.crowded }
  · rw [if_neg hlate]
    exact h

end Roll

theorem roll_start_le (hspan : 0 < span) (htime : w.start ≤ time) :
    (w.roll span time).start ≤ time ∧ time < (w.roll span time).start + span := by
  unfold Window.roll
  by_cases hlate : time - w.start ≥ span
  · rw [if_pos hlate]
    exact ⟨Int.le_refl _, by simp only; omega⟩
  · rw [if_neg hlate]
    exact ⟨htime, by omega⟩

/-- Counting one more arrival in the open window. -/
theorem Kept.count (h : Kept limit span vs w) (hopen : w.start ≤ time)
    (hfresh : time < w.start + span) :
    Kept limit span
      (vs ++ [{ time := time, window := w.start, admitted := decide (w.count < limit) }])
      { w with count := w.count + 1 } := by
  have hmem : ∀ v ∈ vs ++
      [{ time := time, window := w.start, admitted := decide (w.count < limit) }],
      v ∈ vs ∨ v = { time := time, window := w.start, admitted := decide (w.count < limit) } := by
    intro v hv
    simpa using hv
  constructor
  case inside =>
    intro v hv
    rcases hmem v hv with hold | rfl
    · exact h.inside v hold
    · exact ⟨hopen, hfresh⟩
  case behind =>
    intro v hv
    rcases hmem v hv with hold | rfl
    · exact h.behind v hold
    · exact Or.inl rfl
  case apart =>
    intro u hu v hv
    rcases hmem u hu with huold | rfl <;> rcases hmem v hv with hvold | rfl
    · exact h.apart u huold v hvold
    · rcases h.behind u huold with hsame | hover
      · exact Or.inl hsame
      · exact Or.inr (Or.inl hover)
    · rcases h.behind v hvold with hsame | hover
      · exact Or.inl hsame.symm
      · exact Or.inr (Or.inr hover)
    · exact Or.inl rfl
  case counted =>
    rw [List.countP_append, h.counted]
    simp
  case filled =>
    rw [List.countP_append, h.filled]
    by_cases hroom : w.count < limit
    · simp [hroom]
      omega
    · simp [hroom]
      omega
  case within =>
    intro a
    rw [List.countP_append]
    by_cases hnew : w.count < limit ∧ w.start = a
    · obtain ⟨hroom, rfl⟩ := hnew
      -- The verdict that is added counts for one at most.
      rw [h.filled]
      refine Nat.le_trans (Nat.add_le_add_left List.countP_le_length _) ?_
      rw [List.length_singleton]
      omega
    · have hold := h.within a
      have hnone : (decide (w.count < limit) && decide (w.start = a)) = false := by
        simpa using hnew
      simp [hnone, hold]
  case crowded =>
    intro v hv hrejected
    rcases hmem v hv with hold | rfl
    · have hbefore := h.crowded v hold hrejected
      rw [List.countP_append]
      omega
    · have hfull : limit ≤ w.count := by simpa using hrejected
      rw [List.countP_append, h.counted]
      simp
      omega

theorem kept_step (hspan : 0 < span) (h : Kept limit span vs w) (htime : w.start ≤ time) :
    Kept limit span (vs ++ ((limiter limit span).step w time).2)
      ((limiter limit span).step w time).1 := by
  have hrolled := roll_start_le hspan htime
  exact (h.roll hspan).count hrolled.1 hrolled.2

/-- The clock never runs behind the open window. -/
abbrev Timely (w : Window) (time : Int) : Prop :=
  w.start ≤ time

theorem kept_run (hspan : 0 < span) {start : Int} {times : List Int}
    (htimely : (limiter limit span).StepsSatisfy Timely { start := start, count := 0 } times) :
    Kept limit span ((limiter limit span).log { start := start, count := 0 } times)
      ((limiter limit span).state { start := start, count := 0 } times) := by
  refine Machine.run_invariant_of (C := Timely) (I := fun _ w vs => Kept limit span vs w)
    (kept_init start) ?_ times htimely
  intro _ w vs time h htime
  exact kept_step hspan h htime

/-! ## Clocks that do not run backwards -/

theorem log_times (w : Window) (times : List Int) :
    ((limiter limit span).log w times).map Verdict.time = times := by
  induction times generalizing w with
  | nil => rfl
  | cons time times ih =>
    rw [Machine.log_cons, List.map_append, ih]
    rfl

theorem judge_start_le (htime : w.start ≤ time) :
    ((limiter limit span).step w time).1.start ≤ time := by
  show (w.roll span time).start ≤ time
  unfold Window.roll
  by_cases hlate : time - w.start ≥ span
  · simp [hlate]
  · rw [if_neg hlate]
    exact htime

theorem timely_of_sorted :
    ∀ {times : List Int} {w : Window}, (w.start :: times).Pairwise (· ≤ ·) →
      (limiter limit span).StepsSatisfy Timely w times := by
  intro times
  induction times with
  | nil =>
    intro w _
    exact Machine.stepsSatisfy_nil _ _ _
  | cons time times ih =>
    intro w hsorted
    rcases List.pairwise_cons.1 hsorted with ⟨hstart, hrest⟩
    rcases List.pairwise_cons.1 hrest with ⟨hlater, htail⟩
    have htime : w.start ≤ time := hstart time (by simp)
    refine (Machine.stepsSatisfy_cons _).2 ⟨htime, ih (List.pairwise_cons.2 ⟨?_, htail⟩)⟩
    intro t ht
    exact Int.le_trans (judge_start_le htime) (hlater t ht)

/-! ## Intervals -/

theorem countP_le_add {α : Type*} {p q r : α → Bool} {l : List α}
    (hcover : ∀ x, p x = true → q x = true ∨ r x = true) :
    l.countP p ≤ l.countP q + l.countP r := by
  induction l with
  | nil => simp
  | cons x l ih =>
    simp only [List.countP_cons]
    have hx := hcover x
    cases hp : p x <;> cases hq : q x <;> cases hr : r x <;> simp_all <;> omega

section Intervals

variable (h : Kept limit span vs w)

include h

/-- Admitted arrivals that all fell into one window are within the limit. -/
theorem Kept.admitted_le {q : Verdict → Bool}
    (hsame : ∀ u ∈ vs, ∀ v ∈ vs, q u → q v → u.window = v.window) :
    vs.countP (fun v => v.admitted && q v) ≤ limit := by
  by_cases hsome : ∃ u ∈ vs, q u
  · obtain ⟨u, hu, hqu⟩ := hsome
    refine Nat.le_trans (List.countP_mono_left ?_) (h.within u.window)
    intro v hv hqv
    simp only [Bool.and_eq_true, decide_eq_true_eq] at hqv ⊢
    exact ⟨hqv.1, hsame v hv u hu hqv.2 hqu⟩
  · have hnone : vs.countP (fun v => v.admitted && q v) = 0 := by
      simp only [List.countP_eq_zero, Bool.and_eq_true, not_and]
      exact fun v hv _ hqv => hsome ⟨v, hv, hqv⟩
    omega

/-- An interval of one span meets at most two windows: one that was open before it begins and one
that opens in it. -/
theorem Kept.admitted_in_interval (a : Int) :
    vs.countP (fun v => v.admitted && decide (v.InInterval span a)) ≤ 2 * limit := by
  let earlier (v : Verdict) : Bool := decide (v.InInterval span a) && decide (v.window < a)
  let later (v : Verdict) : Bool := decide (v.InInterval span a) && !decide (v.window < a)
  have hearlier : vs.countP (fun v => v.admitted && earlier v) ≤ limit := by
    refine h.admitted_le ?_
    intro u hu v hv hqu hqv
    have huin := h.inside u hu
    have hvin := h.inside v hv
    simp only [earlier, Bool.and_eq_true, decide_eq_true_eq] at hqu hqv
    obtain ⟨⟨hu1, hu2⟩, hu3⟩ := hqu
    obtain ⟨⟨hv1, hv2⟩, hv3⟩ := hqv
    rcases h.apart u hu v hv with hsame | hbefore | hafter <;> omega
  have hlater : vs.countP (fun v => v.admitted && later v) ≤ limit := by
    refine h.admitted_le ?_
    intro u hu v hv hqu hqv
    have huin := h.inside u hu
    have hvin := h.inside v hv
    simp only [later, Bool.and_eq_true, Bool.not_eq_true', decide_eq_true_eq,
      decide_eq_false_iff_not] at hqu hqv
    obtain ⟨⟨hu1, hu2⟩, hu3⟩ := hqu
    obtain ⟨⟨hv1, hv2⟩, hv3⟩ := hqv
    rcases h.apart u hu v hv with hsame | hbefore | hafter <;> omega
  have hsplit : vs.countP (fun v => v.admitted && decide (v.InInterval span a)) ≤
      vs.countP (fun v => v.admitted && earlier v) +
        vs.countP (fun v => v.admitted && later v) := by
    refine countP_le_add ?_
    intro v hv
    simp only [Bool.and_eq_true] at hv
    cases hwindow : decide (v.window < a) with
    | true => exact Or.inl (by simp [earlier, hv.1, of_decide_eq_true hv.2, hwindow])
    | false => exact Or.inr (by simp [later, hv.1, of_decide_eq_true hv.2, hwindow])
  omega

/-- An arrival is turned away only when more than `limit` arrivals came within one span. -/
theorem Kept.crowded_of_rejected {v : Verdict} (hv : v ∈ vs) (hrejected : v.admitted = false) :
    limit < vs.countP (fun u => u.InInterval span v.window) := by
  refine Nat.lt_of_lt_of_le (h.crowded v hv hrejected) (List.countP_mono_left ?_)
  intro u hu hsame
  have hin := h.inside u hu
  simp only [decide_eq_true_eq] at hsame ⊢
  exact hsame ▸ hin

end Intervals

end RateLimit
end Crossover
