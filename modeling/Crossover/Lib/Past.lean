import Mathlib.Logic.Relation

/-!
# Past — what has happened on the way to a state

`Once step start P w` says that one of the steps from `start` to `w` was a `P` step.  What a state
shows and the start does not has appeared in one of the steps (`Once.of_appears`), so a thing can
be followed back from where it is seen to where it comes from.
-/

namespace Crossover
namespace Past

open Relation

universe u

variable {α : Type u} {step : α → α → Prop} {start w w' : α} {P Q : α → α → Prop}

/-- One of the steps on the way from `start` to `w` was a `P` step. -/
def Once (step : α → α → Prop) (start : α) (P : α → α → Prop) (w : α) : Prop :=
  ∃ v v', ReflTransGen step start v ∧ step v v' ∧ P v v' ∧ ReflTransGen step v' w

namespace Once

/-- What has happened stays so. -/
theorem later (h : Once step start P w) (hmore : ReflTransGen step w w') :
    Once step start P w' := by
  rcases h with ⟨v, v', hbefore, hstep, hP, hafter⟩
  exact ⟨v, v', hbefore, hstep, hP, hafter.trans hmore⟩

theorem now (h : ReflTransGen step start w) (hstep : step w w') (hP : P w w') :
    Once step start P w' :=
  ⟨w, w', h, hstep, hP, .refl⟩

/-- A step can be told more about, as it has been taken in a reachable state. -/
theorem imp (h : Once step start P w)
    (himp : ∀ v v', ReflTransGen step start v → step v v' → P v v' → Q v v') :
    Once step start Q w := by
  rcases h with ⟨v, v', hbefore, hstep, hP, hafter⟩
  exact ⟨v, v', hbefore, hstep, himp v v' hbefore hstep hP, hafter⟩

/-- What a state shows and the start does not has appeared in one of the steps. -/
theorem of_appears {S : α → Prop} (h : ReflTransGen step start w) (hstart : ¬ S start)
    (hshows : S w) : Once step start (fun v v' => ¬ S v ∧ S v') w := by
  induction h with
  | refl => exact absurd hshows hstart
  | @tail v v' hbefore hstep ih =>
    by_cases hv : S v
    · exact (ih hv).later (.single hstep)
    · exact now hbefore hstep ⟨hv, hshows⟩

end Once

end Past
end Crossover
