import Mathlib.Data.List.Basic

/-!
# Walk — a loop over a map whose callbacks erase

A loop visits the entries of an ordered map; what a visited entry has to run may erase entries, its
own among them, and read what it carries.  An iterator survives the erasure of every entry but the
one it is at: it is an option that an erasure of that entry makes `none`.

* `visit` is the loop, with a trace of the accesses that need something to be alive;
* `Unharmed` says that no entry that is visited erases itself;
* `visit_safe_iff` says that these are the loops without a bad access.
-/

namespace Crossover
namespace Walk

universe u v

variable {κ : Type u} {β : Type v} [DecidableEq κ]

/-- What an entry does when it is visited, as far as the map can tell. -/
inductive Act (κ : Type u)
  | erase (key : κ)
  /-- It reads a value that it carries. -/
  | capture
  deriving DecidableEq, Repr

/-- An access and whether what it needs was there. -/
inductive Access
  | capture (alive : Bool)
  | advance (valid : Bool)
  deriving DecidableEq, Repr

def Access.ok : Access → Bool
  | .capture alive => alive
  | .advance valid => valid

/-- A map and an iterator in it: the key it is at and the entries behind. -/
structure Cursor (κ : Type u) (β : Type v) where
  map : List (κ × β)
  iterator : Option (κ × List (κ × β))

/-- The entries that an erasure leaves. -/
def without (key : κ) (entries : List (κ × β)) : List (κ × β) :=
  entries.filter fun entry => entry.1 != key

def Cursor.erase (key : κ) (c : Cursor κ β) : Cursor κ β where
  map := without key c.map
  iterator := c.iterator.bind fun at_ =>
    if at_.1 = key then none else some (at_.1, without key at_.2)

/-- The acts of the visited entry.  What it carries lives as long as its entry. -/
def perform : List (Act κ) → Cursor κ β → Cursor κ β × List Access
  | [], c => (c, [])
  | .erase key :: acts, c => perform acts (c.erase key)
  | .capture :: acts, c =>
      let rest := perform acts c
      (rest.1, .capture c.iterator.isSome :: rest.2)

/-- The entries that none of the acts erases. -/
def spared (acts : List (Act κ)) (entries : List (κ × β)) : List (κ × β) :=
  entries.filter fun entry => decide (Act.erase entry.1 ∉ acts)

theorem length_spared_le (acts : List (Act κ)) (entries : List (κ × β)) :
    (spared acts entries).length ≤ entries.length :=
  List.length_filter_le _ _

theorem spared_cons_erase (key : κ) (acts : List (Act κ)) (entries : List (κ × β)) :
    spared (.erase key :: acts) entries = spared acts (without key entries) := by
  rw [spared, spared, without, List.filter_filter]
  apply List.filter_congr
  intro entry _
  simp only [List.mem_cons, Act.erase.injEq, not_or, Bool.decide_and, decide_not, bne,
    beq_eq_decide, Bool.and_comm]

theorem spared_cons_capture (acts : List (Act κ)) (entries : List (κ × β)) :
    spared (.capture :: acts) entries = spared acts entries := by
  simp [spared]

@[simp] theorem spared_nil (entries : List (κ × β)) : spared [] entries = entries := by
  simp [spared]

/-! ## One visit -/

/-- The cursor after the acts: its iterator is gone if they erase the visited entry, and else in
front of what they spare. -/
theorem perform_cursor (acts : List (Act κ)) (c : Cursor κ β) :
    (perform acts c).1 =
      { map := spared acts c.map
        iterator := c.iterator.bind fun at_ =>
          if Act.erase at_.1 ∈ acts then none else some (at_.1, spared acts at_.2) } := by
  induction acts generalizing c with
  | nil =>
    obtain ⟨map, iterator⟩ := c
    cases iterator <;> simp [perform]
  | cons act acts ih =>
    cases act with
    | erase key =>
      rw [perform, ih, spared_cons_erase]
      cases hiterator : c.iterator with
      | none => simp [Cursor.erase, hiterator]
      | some at_ =>
        by_cases hown : at_.1 = key
        · simp [Cursor.erase, hiterator, hown]
        · simp [Cursor.erase, hiterator, hown, spared_cons_erase]
    | capture =>
      simp only [perform, ih, spared_cons_capture, List.mem_cons, reduceCtorEq, false_or]

/-- Nothing bad happens in a visit that does not erase its own entry. -/
theorem perform_ok {acts : List (Act κ)} {c : Cursor κ β} {key : κ} {rest : List (κ × β)}
    (hat : c.iterator = some (key, rest)) (hown : Act.erase key ∉ acts) :
    ∀ access ∈ (perform acts c).2, access.ok = true := by
  induction acts generalizing c rest with
  | nil => simp [perform]
  | cons act acts ih =>
    have hacts : Act.erase key ∉ acts := fun hmem => hown (List.mem_cons_of_mem _ hmem)
    cases act with
    | erase other =>
      have hother : key ≠ other := by
        rintro rfl
        exact hown List.mem_cons_self
      have hat' : (c.erase other).iterator = some (key, without other rest) := by
        simp [Cursor.erase, hat, hother]
      exact ih hat' hacts
    | capture =>
      intro access hmem
      rcases List.mem_cons.1 hmem with rfl | hrest
      · simp [Access.ok, hat]
      · exact ih hat hacts access hrest

/-! ## The loop -/

/-- The loop over the entries from the iterator on, with the map it leaves and its accesses.  After
a step on a lost iterator nothing can be said, so it stops there. -/
def visit (body : β → List (Act κ)) (map : List (κ × β)) :
    List (κ × β) → List (κ × β) × List Access
  | [] => (map, [])
  | (key, value) :: rest =>
      let ran := perform (body value) { map := map, iterator := some (key, rest) }
      match hnext : ran.1.iterator with
      | none => (ran.1.map, ran.2 ++ [.advance false])
      | some at_ =>
          let visited := visit body ran.1.map at_.2
          (visited.1, ran.2 ++ .advance true :: visited.2)
termination_by entries => entries.length
decreasing_by
  rw [perform_cursor] at hnext
  by_cases hown : Act.erase key ∈ body value
  · simp [hown] at hnext
  · simp only [Option.bind_some, if_neg hown, Option.some.injEq] at hnext
    rw [← hnext]
    exact Nat.lt_succ_of_le (length_spared_le _ _)

/-- The range-for over the whole map. -/
def forEach (body : β → List (Act κ)) (map : List (κ × β)) : List (κ × β) × List Access :=
  visit body map map

/-- No entry that is visited erases itself; what an entry erases is not visited. -/
def Unharmed (body : β → List (Act κ)) : List (κ × β) → Prop
  | [] => True
  | (key, value) :: rest =>
      Act.erase key ∉ body value ∧ Unharmed body (spared (body value) rest)
termination_by entries => entries.length
decreasing_by exact Nat.lt_succ_of_le (length_spared_le _ _)

section Loop

variable {body : β → List (Act κ)} {map : List (κ × β)} {key : κ} {value : β}
  {rest : List (κ × β)}

theorem visit_nil : visit body map [] = (map, []) := by
  rw [visit]

/-- A visit that keeps its entry goes on with what it spares. -/
theorem visit_cons_kept (hown : Act.erase key ∉ body value) :
    visit body map ((key, value) :: rest) =
      let ran := perform (body value) { map := map, iterator := some (key, rest) }
      let visited := visit body (spared (body value) map) (spared (body value) rest)
      (visited.1, ran.2 ++ .advance true :: visited.2) := by
  have hcursor := perform_cursor (body value) { map := map, iterator := some (key, rest) }
  simp only [Option.bind_some, if_neg hown] at hcursor
  rw [visit]
  split
  · rename_i hnone
    rw [hcursor] at hnone
    cases hnone
  · rename_i at_ hsome
    rw [hcursor] at hsome
    obtain rfl := Option.some.inj hsome
    rw [hcursor]

/-- A visit that erases its entry ends with a step on a lost iterator. -/
theorem visit_cons_lost (hown : Act.erase key ∈ body value) :
    visit body map ((key, value) :: rest) =
      (spared (body value) map,
        (perform (body value) { map := map, iterator := some (key, rest) }).2 ++
          [.advance false]) := by
  have hcursor := perform_cursor (body value) { map := map, iterator := some (key, rest) }
  simp only [Option.bind_some, if_pos hown] at hcursor
  rw [visit]
  split
  · rw [hcursor]
  · rename_i at_ hsome
    rw [hcursor] at hsome
    cases hsome

theorem unharmed_nil : Unharmed body ([] : List (κ × β)) := by
  rw [Unharmed]
  trivial

theorem unharmed_cons :
    Unharmed body ((key, value) :: rest) ↔
      Act.erase key ∉ body value ∧ Unharmed body (spared (body value) rest) := by
  rw [Unharmed]

/-- The loop makes no bad access exactly when no entry that is visited erases itself. -/
theorem visit_safe_iff (body : β → List (Act κ)) (map entries : List (κ × β)) :
    (∀ access ∈ (visit body map entries).2, access.ok = true) ↔ Unharmed body entries := by
  induction hlength : entries.length using Nat.strongRecOn generalizing map entries with
  | ind n ih =>
    cases entries with
    | nil => simp [visit_nil, unharmed_nil]
    | cons entry rest =>
      obtain ⟨key, value⟩ := entry
      rw [unharmed_cons]
      by_cases hown : Act.erase key ∈ body value
      · rw [visit_cons_lost hown]
        refine iff_of_false ?_ fun h => h.1 hown
        intro hall
        exact absurd (hall (.advance false) (by simp)) (by decide)
      · have hshort : (spared (body value) rest).length < n := by
          rw [← hlength]
          exact Nat.lt_succ_of_le (length_spared_le _ _)
        have hrest := ih _ hshort (spared (body value) map) (spared (body value) rest) rfl
        rw [visit_cons_kept hown, ← hrest]
        constructor
        · intro hall
          refine ⟨hown, fun access hmem => hall access ?_⟩
          exact List.mem_append_right _ (List.mem_cons_of_mem _ hmem)
        · rintro ⟨-, hvisited⟩ access hmem
          rcases List.mem_append.1 hmem with hran | hafter
          · exact perform_ok (c := { map := map, iterator := some (key, rest) }) rfl hown access
              hran
          · rcases List.mem_cons.1 hafter with rfl | hvisited'
            · rfl
            · exact hvisited access hvisited'

theorem forEach_safe_iff (body : β → List (Act κ)) (map : List (κ × β)) :
    (∀ access ∈ (forEach body map).2, access.ok = true) ↔ Unharmed body map :=
  visit_safe_iff body map map

/-- Entries that erase nobody do no harm. -/
theorem unharmed_of_forall {entries : List (κ × β)}
    (hown : ∀ entry ∈ entries, ∀ other ∈ entries, Act.erase entry.1 ∉ body other.2) :
    Unharmed body entries := by
  induction hlength : entries.length using Nat.strongRecOn generalizing entries with
  | ind n ih =>
    cases entries with
    | nil => exact unharmed_nil
    | cons entry rest =>
      obtain ⟨key, value⟩ := entry
      refine unharmed_cons.2 ⟨hown _ List.mem_cons_self _ List.mem_cons_self, ?_⟩
      refine ih _ (hlength ▸ Nat.lt_succ_of_le (length_spared_le _ _)) ?_ rfl
      intro one hone other hother
      exact hown one (List.mem_cons_of_mem _ (List.mem_filter.1 hone).1) other
        (List.mem_cons_of_mem _ (List.mem_filter.1 hother).1)

end Loop

end Walk
end Crossover
