import Mathlib.Data.List.Range

/-!
# Search — where a text occurs in another one

`find` is the first occurrence from an offset on, `occurrences` the loop that goes on one behind
each of them.  The loop misses none, lists them in order and lists nothing else
(`mem_occurrences`, `pairwise_occurrences`).  From an occurrence one can walk both ways to the ends
of the run around it, which is the only one there (`isRun_around`, `IsRun.unique`).  `collect` is a
loop over what has been found whose body lists something too, and may fail.
-/

namespace Crossover
namespace Search

universe u

variable {α : Type u} [DecidableEq α]

/-- The needle stands at the offset. -/
def At (needle data : List α) (i : Nat) : Prop :=
  i ≤ data.length ∧ needle <+: data.drop i

instance (needle data : List α) (i : Nat) : Decidable (At needle data i) :=
  inferInstanceAs (Decidable (_ ∧ _))

/-- The first occurrence at `off` or behind it. -/
def find (needle data : List α) (off : Nat) : Option Nat :=
  (List.range' off (data.length + 1 - off)).find? fun i => decide (At needle data i)

section Find

variable {needle data : List α} {off i : Nat}

theorem find_spec (h : find needle data off = some i) :
    off ≤ i ∧ At needle data i ∧ ∀ j, off ≤ j → j < i → ¬ At needle data j := by
  rcases List.find?_eq_some_iff_append.1 h with ⟨hat, before, after, hsplit, hbefore⟩
  -- The range in front of `i` is what the search has passed.
  have hlength : i = off + before.length := by
    have hget : (List.range' off (data.length + 1 - off))[before.length]? = some i := by
      rw [hsplit]
      simp
    have hbound := (List.getElem?_eq_some_iff.1 hget).1
    rw [List.length_range'] at hbound
    rw [List.getElem?_range' hbound] at hget
    have hsome := Option.some.inj hget
    omega
  refine ⟨by omega, of_decide_eq_true hat, ?_⟩
  intro j hj hlt hfound
  have hmem : j ∈ before := by
    have hget : (List.range' off (data.length + 1 - off))[j - off]? = some j := by
      have hle := (of_decide_eq_true hat : At needle data i).1
      rw [List.getElem?_range' (by omega)]
      congr 1
      omega
    rw [hsplit, List.getElem?_append_left (by omega)] at hget
    exact List.mem_of_getElem? hget
  have hnot := hbefore j hmem
  simp [hfound] at hnot

theorem find_none (h : find needle data off = none) :
    ∀ j, off ≤ j → ¬ At needle data j := by
  intro j hj hat
  have hnot := List.find?_eq_none.1 h j (List.mem_range'_1.2 ⟨hj, by have := hat.1; omega⟩)
  simp [hat] at hnot

theorem find_isSome : (find needle data off).isSome = true ↔ ∃ i, off ≤ i ∧ At needle data i := by
  cases h : find needle data off with
  | none => simpa using find_none h
  | some i => exact iff_of_true rfl ⟨i, (find_spec h).1, (find_spec h).2.1⟩

end Find

/-- `while True: i = data.find(needle, off); ...; off = i + 1`. -/
def occurrencesFrom (needle data : List α) (off : Nat) : List Nat :=
  match h : find needle data off with
  | none => []
  | some i => i :: occurrencesFrom needle data (i + 1)
termination_by data.length + 1 - off
decreasing_by
  rcases find_spec h with ⟨hoff, hat, _⟩
  have := hat.1
  omega

def occurrences (needle data : List α) : List Nat :=
  occurrencesFrom needle data 0

variable {needle data : List α}

theorem mem_occurrencesFrom {off i : Nat} :
    i ∈ occurrencesFrom needle data off ↔ off ≤ i ∧ At needle data i := by
  induction off using occurrencesFrom.induct needle data with
  | case1 off hnone =>
    rw [occurrencesFrom, hnone]
    constructor
    · intro hmem
      cases hmem
    · rintro ⟨hoff, hat⟩
      exact absurd hat (find_none hnone i hoff)
  | case2 off first hsome ih =>
    rcases find_spec hsome with ⟨hoff, hat, hbefore⟩
    rw [occurrencesFrom, hsome]
    simp only [List.mem_cons, ih]
    constructor
    · rintro (rfl | ⟨hbehind, hati⟩)
      · exact ⟨hoff, hat⟩
      · exact ⟨by omega, hati⟩
    · rintro ⟨hi, hati⟩
      rcases Nat.lt_trichotomy i first with hlt | rfl | hgt
      · exact absurd hati (hbefore i hi hlt)
      · exact Or.inl rfl
      · exact Or.inr ⟨hgt, hati⟩

/-- Exactly the places where the needle stands. -/
theorem mem_occurrences {i : Nat} : i ∈ occurrences needle data ↔ At needle data i := by
  rw [occurrences, mem_occurrencesFrom]
  exact and_iff_right (Nat.zero_le i)

theorem pairwise_occurrencesFrom (off : Nat) :
    (occurrencesFrom needle data off).Pairwise (· < ·) := by
  induction off using occurrencesFrom.induct needle data with
  | case1 off hnone =>
    rw [occurrencesFrom, hnone]
    exact List.Pairwise.nil
  | case2 off first hsome ih =>
    rw [occurrencesFrom, hsome]
    refine List.Pairwise.cons ?_ ih
    intro i hi
    exact (mem_occurrencesFrom.1 hi).1

/-- In order, and each once. -/
theorem pairwise_occurrences : (occurrences needle data).Pairwise (· < ·) :=
  pairwise_occurrencesFrom 0

/-! ## The run around a place -/

section Runs

variable {p : α → Bool} {data : List α} {i s e s' e' : Nat}

/-- `while s > 0 and p(data[s - 1]): s -= 1`. -/
def walkBack (p : α → Bool) (data : List α) : Nat → Nat
  | 0 => 0
  | s + 1 => if (data[s]?).any p then walkBack p data s else s + 1

/-- `while e < len(data) and p(data[e]): e += 1`. -/
def walkOn (p : α → Bool) (data : List α) (e : Nat) : Nat :=
  e + ((data.drop e).takeWhile p).length

/-- All from `s` up to `e` pass, and neither neighbour does. -/
structure IsRun (p : α → Bool) (data : List α) (s e : Nat) : Prop where
  ordered : s ≤ e
  within : e ≤ data.length
  passes : ∀ j, s ≤ j → j < e → (data[j]?).any p = true
  left : s = 0 ∨ (data[s - 1]?).any p = false
  right : e = data.length ∨ (data[e]?).any p = false

omit [DecidableEq α] in
theorem walkBack_le (p : α → Bool) (data : List α) (i : Nat) : walkBack p data i ≤ i := by
  induction i with
  | zero => exact le_rfl
  | succ i ih =>
    rw [walkBack]
    split
    · exact Nat.le_succ_of_le ih
    · exact le_rfl

omit [DecidableEq α] in
theorem walkBack_mono (p : α → Bool) (data : List α) {i i' : Nat} (h : i ≤ i') :
    walkBack p data i ≤ walkBack p data i' := by
  induction h with
  | refl => exact le_rfl
  | @step n hle ih =>
    rw [walkBack]
    split
    · exact ih
    · exact (walkBack_le p data i).trans (Nat.le_succ_of_le hle)

omit [DecidableEq α] in
theorem walkBack_spec (p : α → Bool) (data : List α) (i : Nat) :
    (∀ j, walkBack p data i ≤ j → j < i → (data[j]?).any p = true) ∧
      (walkBack p data i = 0 ∨ (data[walkBack p data i - 1]?).any p = false) := by
  induction i with
  | zero => exact ⟨fun j _ hj => absurd hj (Nat.not_lt_zero j), Or.inl rfl⟩
  | succ i ih =>
    rw [walkBack]
    split
    · rename_i hpass
      refine ⟨fun j hle hlt => ?_, ih.2⟩
      rcases Nat.lt_succ_iff_lt_or_eq.1 hlt with hlt | rfl
      · exact ih.1 j hle hlt
      · exact hpass
    · rename_i hfail
      refine ⟨fun j hle hlt => absurd hlt (Nat.not_lt.2 hle), Or.inr ?_⟩
      simpa using hfail

omit [DecidableEq α] in
/-- Walking both ways from a place of the text finds a run. -/
theorem isRun_around (h : i ≤ data.length) :
    IsRun p data (walkBack p data i) (walkOn p data i) := by
  have hback := walkBack_spec p data i
  have hsplit := List.takeWhile_append_dropWhile (p := p) (l := data.drop i)
  have hlength := congrArg List.length hsplit
  rw [List.length_append, List.length_drop] at hlength
  have hall : ∀ b ∈ (data.drop i).takeWhile p, p b = true :=
    List.all_eq_true.1 List.all_takeWhile
  refine ⟨(walkBack_le p data i).trans (Nat.le_add_right i _), ?_, ?_, hback.2, ?_⟩
  · rw [walkOn]
    omega
  · intro j hle hlt
    rcases Nat.lt_or_ge j i with hj | hj
    · exact hback.1 j hle hj
    · have hbound : j - i < ((data.drop i).takeWhile p).length := by
        rw [walkOn] at hlt
        omega
      have hget : data[j]? = some ((data.drop i).takeWhile p)[j - i] := by
        have happend : ((data.drop i).takeWhile p ++ (data.drop i).dropWhile p)[j - i]? =
            ((data.drop i).takeWhile p)[j - i]? := List.getElem?_append_left hbound
        rw [hsplit, List.getElem?_drop, List.getElem?_eq_getElem hbound] at happend
        rw [← happend]
        congr 1
        omega
      rw [hget]
      exact hall _ (List.getElem_mem hbound)
  · have hget : data[walkOn p data i]? = ((data.drop i).dropWhile p).head? := by
      have hdrop := @List.getElem?_drop _ data i ((data.drop i).takeWhile p).length
      rw [walkOn, ← hdrop]
      nth_rewrite 1 [← hsplit]
      rw [List.getElem?_append_right le_rfl, Nat.sub_self, List.head?_eq_getElem?]
    cases hrest : (data.drop i).dropWhile p with
    | nil =>
      left
      rw [hrest, List.length_nil] at hlength
      rw [walkOn]
      omega
    | cons b rest =>
      right
      have hfail := List.head?_dropWhile_not p (data.drop i)
      rw [hget, hrest]
      rw [hrest] at hfail
      simpa using hfail

omit [DecidableEq α] in
/-- A place touches one run only. -/
theorem IsRun.unique (h : IsRun p data s e) (h' : IsRun p data s' e') (hi : s ≤ i ∧ i ≤ e)
    (hi' : s' ≤ i ∧ i ≤ e') : s = s' ∧ e = e' := by
  -- Of two runs the longer one would pass the other's neighbour.
  have hleft : ∀ {s e s' e' : Nat}, IsRun p data s e → IsRun p data s' e' → s ≤ i ∧ i ≤ e →
      s' ≤ i ∧ i ≤ e' → ¬ s < s' := by
    intro s e s' e' h h' hi hi' hlt
    rcases h'.left with hzero | hfail
    · omega
    · rw [h.passes (s' - 1) (by omega) (by omega)] at hfail
      cases hfail
  have hright : ∀ {s e s' e' : Nat}, IsRun p data s e → IsRun p data s' e' → s ≤ i ∧ i ≤ e →
      s' ≤ i ∧ i ≤ e' → ¬ e < e' := by
    intro s e s' e' h h' hi hi' hlt
    rcases h.right with hend | hfail
    · have := h'.within
      omega
    · rw [h'.passes e (by omega) hlt] at hfail
      cases hfail
  have h₁ := hleft h h' hi hi'
  have h₂ := hleft h' h hi' hi
  have h₃ := hright h h' hi hi'
  have h₄ := hright h' h hi' hi
  omega

end Runs

/-! ## Loops over what has been found -/

section Collect

universe v

variable {β : Type v} {f : α → Option (List β)} {as : List α} {bs : List β}

/-- What the body lists for each item, unless it fails. -/
def collect (f : α → Option (List β)) : List α → Option (List β)
  | [] => some []
  | a :: as =>
      match f a with
      | none => none
      | some first => (collect f as).map (first ++ ·)

omit [DecidableEq α] in
theorem collect_isSome :
    (collect f as).isSome = true ↔ ∀ a ∈ as, (f a).isSome = true := by
  induction as with
  | nil => simp [collect]
  | cons a as ih =>
    rw [List.forall_mem_cons, ← ih, collect]
    cases f a with
    | none => simp
    | some first => simp

omit [DecidableEq α] in
theorem collect_cons {a : α} (h : collect f (a :: as) = some bs) :
    ∃ first rest, f a = some first ∧ collect f as = some rest ∧ bs = first ++ rest := by
  rw [collect] at h
  split at h
  · cases h
  · rename_i first hfirst
    rcases Option.map_eq_some_iff.1 h with ⟨rest, hrest, rfl⟩
    exact ⟨first, rest, hfirst, hrest, rfl⟩

omit [DecidableEq α] in
theorem mem_collect (h : collect f as = some bs) {b : β} :
    b ∈ bs ↔ ∃ a ∈ as, ∃ listed, f a = some listed ∧ b ∈ listed := by
  induction as generalizing bs with
  | nil =>
    cases h
    simp
  | cons a as ih =>
    rcases collect_cons h with ⟨first, rest, hfirst, hrest, rfl⟩
    rw [List.mem_append, ih hrest]
    constructor
    · rintro (hb | ⟨a', ha', hlisted⟩)
      · exact ⟨a, List.mem_cons_self, first, hfirst, hb⟩
      · exact ⟨a', List.mem_cons_of_mem _ ha', hlisted⟩
    · rintro ⟨a', ha', listed, hlisted, hb⟩
      rcases List.mem_cons.1 ha' with rfl | ha'
      · rw [hfirst] at hlisted
        exact Or.inl (Option.some.inj hlisted ▸ hb)
      · exact Or.inr ⟨a', ha', listed, hlisted, hb⟩

omit [DecidableEq α] in
/-- The order within the items' lists and between them. -/
theorem pairwise_collect {R : α → α → Prop} {S : β → β → Prop} (h : collect f as = some bs)
    (horder : as.Pairwise R) (hwithin : ∀ a ∈ as, ∀ listed, f a = some listed → listed.Pairwise S)
    (hbetween : ∀ a a', R a a' → ∀ listed listed', f a = some listed → f a' = some listed' →
      ∀ b ∈ listed, ∀ b' ∈ listed', S b b') : bs.Pairwise S := by
  induction as generalizing bs with
  | nil =>
    cases h
    exact List.Pairwise.nil
  | cons a as ih =>
    rcases collect_cons h with ⟨first, rest, hfirst, hrest, rfl⟩
    rcases List.pairwise_cons.1 horder with ⟨hhead, htail⟩
    refine List.pairwise_append.2 ⟨hwithin a List.mem_cons_self first hfirst, ?_, ?_⟩
    · exact ih hrest htail fun a' ha' => hwithin a' (List.mem_cons_of_mem _ ha')
    · intro b hb b' hb'
      rcases (mem_collect hrest).1 hb' with ⟨a', ha', listed, hlisted, hmem⟩
      exact hbetween a a' (hhead a' ha') first listed hfirst hlisted b hb b' hmem

end Collect

end Search
end Crossover
