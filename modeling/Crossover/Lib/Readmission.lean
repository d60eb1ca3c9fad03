import Mathlib.Tactic.Ring
import Crossover.Lib.RateLimit

/-!
# Readmission — a limiter whose window can be opened anew

Whoever is let in again gets a fresh window, so the bound on what an interval admits has to count
the times the window has been opened in it: each costs one limit (`admitted_within_span`).  A
refusal still needs a crowded span (`crowded_of_refused`).
-/

namespace Crossover
namespace RateLimit

open History

/-- An arrival, or a fresh window for the arrivals to come. -/
inductive Signal
  | arrive (time : Int)
  | reopen (time : Int)
  deriving DecidableEq, Repr

def Signal.time : Signal → Int
  | .arrive time => time
  | .reopen time => time

/-- The window is opened anew in the half-open interval of length `span` from `a` on. -/
def Signal.Reopens (span a : Int) : Signal → Prop
  | .arrive _ => False
  | .reopen time => a ≤ time ∧ time < a + span

instance (span a : Int) : DecidablePred (Signal.Reopens span a)
  | .arrive _ => instDecidableFalse
  | .reopen _ => inferInstanceAs (Decidable (_ ∧ _))

/-- An arrival in the half-open interval of length `span` from `a` on. -/
def Signal.Arrives (span a : Int) : Signal → Prop
  | .arrive time => a ≤ time ∧ time < a + span
  | .reopen _ => False

instance (span a : Int) : DecidablePred (Signal.Arrives span a)
  | .arrive _ => inferInstanceAs (Decidable (_ ∧ _))
  | .reopen _ => instDecidableFalse

section Signals

variable {span a time : Int}

@[simp] theorem time_arrive : (Signal.arrive time).time = time :=
  rfl

@[simp] theorem time_reopen : (Signal.reopen time).time = time :=
  rfl

@[simp] theorem arrives_arrive : (Signal.arrive time).Arrives span a ↔ a ≤ time ∧ time < a + span :=
  Iff.rfl

@[simp] theorem not_arrives_reopen : ¬ (Signal.reopen time).Arrives span a :=
  not_false

@[simp] theorem reopens_reopen : (Signal.reopen time).Reopens span a ↔ a ≤ time ∧ time < a + span :=
  Iff.rfl

@[simp] theorem not_reopens_arrive : ¬ (Signal.arrive time).Reopens span a :=
  not_false

end Signals

/-- The limiter with its restarts, as a machine over signals. -/
def reopening (limit : Nat) (span : Int) : Machine Window Signal Verdict where
  step w
    | .arrive time => w.judge limit span time
    | .reopen time => ({ start := time, count := 0 }, [])

/-! ## What an interval admits -/

/-- The verdict admits an arrival in the interval. -/
def Verdict.Passes (span a : Int) (v : Verdict) : Bool :=
  v.admitted && decide (v.InInterval span a)

theorem passes_iff {span a : Int} {v : Verdict} :
    v.Passes span a = true ↔ v.admitted = true ∧ a ≤ v.time ∧ v.time < a + span := by
  rw [Verdict.Passes, Bool.and_eq_true, decide_eq_true_eq]
  rfl

/-- What has been admitted in the interval from `a` on, by `now` and with so many fresh windows in
it, when the open window is `w`. -/
structure Spent (limit : Nat) (span a now : Int) (reopened admitted : Nat) (w : Window) : Prop where
  started : w.start ≤ now
  early : now < a → admitted = 0
  /-- A window from before the interval is the first to admit in it. -/
  inherited : w.start < a → admitted ≤ min w.count limit
  own : a ≤ w.start → w.start < a + span → admitted ≤ limit * (reopened + 1) + min w.count limit
  total : admitted ≤ limit * (reopened + 2)

namespace Spent

variable {limit : Nat} {span a now time : Int} {reopened admitted : Nat} {w : Window}

theorem nothing (hstart : w.start ≤ now) : Spent limit span a now 0 0 w :=
  ⟨hstart, fun _ => rfl, fun _ => Nat.zero_le _, fun _ _ => Nat.zero_le _, Nat.zero_le _⟩

theorem le_limit (h : admitted ≤ min w.count limit) (n : Nat) : admitted ≤ limit * (n + 1) :=
  (h.trans (Nat.min_le_right _ _)).trans (Nat.le_mul_of_pos_right limit n.succ_pos)

/-- A late arrival opens a window of its own. -/
theorem roll (h : Spent limit span a now reopened admitted w) (htime : now ≤ time) :
    Spent limit span a time reopened admitted (w.roll span time) := by
  have hearly : time < a → admitted = 0 := fun hlt => h.early (htime.trans_lt hlt)
  unfold Window.roll
  split
  · rename_i hlate
    refine ⟨le_refl _, hearly, fun hlt => (hearly hlt).trans_le (Nat.zero_le _), ?_, h.total⟩
    intro hfrom hto
    -- The window before it did not open in the interval, or it would still be open.
    have hbefore : w.start < a := by
      have hto' : time < a + span := hto
      omega
    exact (le_limit (h.inherited hbefore) reopened).trans (Nat.le_add_right _ _)
  · exact ⟨h.started.trans htime, hearly, h.inherited, h.own, h.total⟩

/-- One more arrival is counted in the open window, and perhaps admitted. -/
theorem count (h : Spent limit span a now reopened admitted w) {passed : Nat} (hone : passed ≤ 1)
    (hpassed : 0 < passed → w.count < limit ∧ a ≤ now ∧ now < a + span) :
    Spent limit span a now reopened (admitted + passed) { w with count := w.count + 1 } := by
  rcases Nat.eq_zero_or_pos passed with rfl | hpos
  · have hmin : min w.count limit ≤ min (w.count + 1) limit := by omega
    exact ⟨h.started, h.early, fun hbefore => (h.inherited hbefore).trans hmin,
      fun hfrom hto => (h.own hfrom hto).trans (Nat.add_le_add_left hmin _), h.total⟩
  · obtain rfl : passed = 1 := by omega
    rcases hpassed hpos with ⟨hroom, hfrom, hto⟩
    have hcount : min (w.count + 1) limit = min w.count limit + 1 := by omega
    refine ⟨h.started, fun hlt => absurd hfrom (not_le.2 hlt), ?_, ?_, ?_⟩
    · intro hbefore
      rw [hcount]
      exact Nat.add_le_add_right (h.inherited hbefore) 1
    · intro hstart hend
      rw [hcount, ← Nat.add_assoc]
      exact Nat.add_le_add_right (h.own hstart hend) 1
    · have hmin : min w.count limit + 1 ≤ limit := by omega
      by_cases hbefore : w.start < a
      · refine ((Nat.add_le_add_right (h.inherited hbefore) 1).trans hmin).trans ?_
        exact Nat.le_mul_of_pos_right limit (Nat.succ_pos _)
      · have hown := h.own (not_lt.1 hbefore) (h.started.trans_lt hto)
        calc admitted + 1 ≤ limit * (reopened + 1) + (min w.count limit + 1) := by omega
          _ ≤ limit * (reopened + 1) + limit := Nat.add_le_add_left hmin _
          _ = limit * (reopened + 2) := by ring

/-- A fresh window in the interval may cost a limit. -/
theorem reopen (h : Spent limit span a now reopened admitted w) (htime : now ≤ time) {fresh : Nat}
    (hfresh : a ≤ time → time < a + span → 0 < fresh) :
    Spent limit span a time (reopened + fresh) admitted { start := time, count := 0 } := by
  have hearly : time < a → admitted = 0 := fun hlt => h.early (htime.trans_lt hlt)
  refine ⟨le_refl _, hearly, fun hlt => (hearly hlt).trans_le (Nat.zero_le _), ?_, ?_⟩
  · intro hfrom hto
    have hmore := hfresh hfrom hto
    have hlimits : limit * (reopened + 2) ≤ limit * (reopened + fresh + 1) :=
      Nat.mul_le_mul_left limit (by omega)
    exact (h.total.trans hlimits).trans (Nat.le_add_right _ _)
  · exact h.total.trans (Nat.mul_le_mul_left limit (by omega))

/-- One signal. -/
theorem step (h : Spent limit span a now reopened admitted w) (signal : Signal)
    (htime : now ≤ signal.time) :
    Spent limit span a signal.time
      (reopened + [signal].countP fun s => decide (s.Reopens span a))
      (admitted + ((reopening limit span).step w signal).2.countP (Verdict.Passes span a))
      ((reopening limit span).step w signal).1 := by
  cases signal with
  | arrive time =>
    refine (h.roll htime).count List.countP_le_length ?_
    intro hpassed
    rw [List.countP_pos_iff] at hpassed
    rcases hpassed with ⟨v, hv, hpasses⟩
    obtain rfl := List.mem_singleton.1 hv
    simpa [passes_iff] using hpasses
  | reopen time =>
    refine h.reopen htime ?_
    intro hfrom hto
    simp only [List.countP_pos_iff, List.mem_singleton, decide_eq_true_eq]
    exact ⟨_, rfl, hfrom, hto⟩

/-- A run of signals whose times do not run back. -/
theorem run {signals : List Signal} (h : Spent limit span a now reopened admitted w)
    (hsorted : (now :: signals.map Signal.time).Pairwise (· ≤ ·)) :
    admitted + ((reopening limit span).log w signals).countP (Verdict.Passes span a) ≤
      limit * (reopened + (signals.countP fun s => decide (s.Reopens span a)) + 2) := by
  induction signals generalizing now reopened admitted w with
  | nil => exact h.total
  | cons signal signals ih =>
    rcases List.pairwise_cons.1 hsorted with ⟨hnow, hrest⟩
    have hlater := ih (h.step signal (hnow _ (by simp))) hrest
    have hsignals : signal :: signals = [signal] ++ signals := rfl
    rw [Machine.log_cons, hsignals, List.countP_append, List.countP_append, ← Nat.add_assoc,
      ← Nat.add_assoc]
    exact hlater

end Spent

variable {limit : Nat} {span : Int}

/-- An interval of one span admits at most two limits, and one more for each fresh window that is
opened in it. -/
theorem admitted_within_span (a : Int) {w : Window} {signals : List Signal}
    (hsorted : (w.start :: signals.map Signal.time).Pairwise (· ≤ ·)) :
    ((reopening limit span).log w signals).countP (Verdict.Passes span a) ≤
      limit * ((signals.countP fun s => decide (s.Reopens span a)) + 2) := by
  have hnothing : Spent limit span a w.start 0 0 w := .nothing (le_refl w.start)
  simpa using hnothing.run hsorted

/-! ## Refusals -/

/-- The open window counts arrivals of its span only, and the clock is not behind it. -/
structure Tallied (span now : Int) (signals : List Signal) (w : Window) : Prop where
  started : w.start ≤ now
  counted : w.count ≤ signals.countP fun s => decide (s.Arrives span w.start)

namespace Tallied

variable {now time : Int} {signals : List Signal} {w : Window}

/-- The window that an arrival is counted in, before it is counted. -/
theorem roll (h : Tallied span now signals w) (htime : now ≤ time) :
    Tallied span time signals (w.roll span time) := by
  unfold Window.roll
  split
  · exact ⟨le_refl _, Nat.zero_le _⟩
  · exact ⟨h.started.trans htime, h.counted⟩

/-- An arrival that finds the window full is one of a crowd. -/
theorem crowded (h : Tallied span now signals w) (hfresh : now < w.start + span)
    (hfull : limit ≤ w.count) :
    limit < (signals ++ [Signal.arrive now]).countP fun s => decide (s.Arrives span w.start) := by
  have hone : [Signal.arrive now].countP (fun s => decide (s.Arrives span w.start)) = 1 := by
    simp [h.started, hfresh]
  rw [List.countP_append, hone]
  have hcounted := h.counted
  omega

theorem step (h : Tallied span now signals w) (hspan : 0 < span) (signal : Signal)
    (htime : now ≤ signal.time) :
    Tallied span signal.time (signals ++ [signal]) ((reopening limit span).step w signal).1 := by
  cases signal with
  | arrive time =>
    have hrolled : Tallied span time signals (w.roll span time) := h.roll htime
    have hfresh := (roll_start_le hspan (h.started.trans htime)).2
    exact ⟨hrolled.started, hrolled.crowded hfresh (le_refl _)⟩
  | reopen time => exact ⟨le_refl _, Nat.zero_le _⟩

/-- Signals whose times do not run back. -/
theorem run (hspan : 0 < span) {more : List Signal} (h : Tallied span now signals w)
    (hsorted : (now :: more.map Signal.time).Pairwise (· ≤ ·)) (hlast : ∀ s ∈ more, s.time ≤ time)
    (htime : now ≤ time) :
    Tallied span time (signals ++ more) ((reopening limit span).state w more) := by
  induction more generalizing now signals w with
  | nil =>
    rw [List.append_nil]
    exact ⟨h.started.trans htime, h.counted⟩
  | cons signal more ih =>
    rcases List.pairwise_cons.1 hsorted with ⟨hnow, hrest⟩
    rcases List.forall_mem_cons.1 hlast with ⟨hsignal, hmore⟩
    have hstep : Tallied span signal.time (signals ++ [signal])
        ((reopening limit span).step w signal).1 := h.step hspan signal (hnow _ (by simp))
    have hlater := ih hstep hrest hmore hsignal
    rw [Machine.state_cons]
    simpa using hlater

end Tallied

/-- An arrival is refused only if it is one of more than a limit within one span. -/
theorem crowded_of_refused (hspan : 0 < span) {time : Int} {w : Window} {before : List Signal}
    (hempty : w.count = 0)
    (hsorted : (w.start :: (before ++ [Signal.arrive time]).map Signal.time).Pairwise (· ≤ ·))
    (hfull : limit ≤ (((reopening limit span).state w before).roll span time).count) :
    ∃ start, start ≤ time ∧ time < start + span ∧
      limit < (before ++ [Signal.arrive time]).countP fun s => decide (s.Arrives span start) := by
  have hbegun : Tallied span w.start [] w := ⟨le_refl _, by simp [hempty]⟩
  have hsplit : (w.start :: (before ++ [Signal.arrive time]).map Signal.time) =
      (w.start :: before.map Signal.time) ++ [time] := by simp
  rw [hsplit] at hsorted
  rcases List.pairwise_append.1 hsorted with ⟨hearlier, _, hlast⟩
  have hstart : w.start ≤ time := hlast _ (by simp) _ (by simp)
  have hbefore : ∀ s ∈ before, s.time ≤ time := fun s hs =>
    hlast _ (List.mem_cons_of_mem _ (List.mem_map_of_mem hs)) _ (by simp)
  have htallied : Tallied span time ([] ++ before) ((reopening limit span).state w before) :=
    hbegun.run hspan hearlier hbefore hstart
  have hrolled := htallied.roll (le_refl time)
  have hfresh : time < (((reopening limit span).state w before).roll span time).start + span :=
    (roll_start_le hspan htallied.started).2
  exact ⟨_, hrolled.started, hfresh, hrolled.crowded hfresh hfull⟩

end RateLimit
end Crossover
