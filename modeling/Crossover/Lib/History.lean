import Mathlib.Data.List.Induction

/-!
# History — properties of every point of a list read as a history

`Every P l` says that each entry of `l` stands in relation `P` to the entries before it.
`Behind` is the order of a queue in which some entries have to wait for another one.
`afterLast p l` is the part of `l` behind its last entry satisfying `p`.
-/

namespace Crossover
namespace History

universe u v

variable {β : Type u}

/-- Each entry of the list is in relation `P` to the entries before it. -/
def Every (P : List β → β → Prop) (l : List β) : Prop :=
  ∀ before x after, l = before ++ x :: after → P before x

theorem every_nil (P : List β → β → Prop) : Every P [] := by
  intro before x after h
  simp at h

/-- A history extended by another one: the later entries look back on all of the first. -/
theorem every_append {P : List β → β → Prop} {l m : List β} :
    Every P (l ++ m) ↔ Every P l ∧ Every (fun before x => P (l ++ before) x) m := by
  constructor
  · intro h
    refine ⟨?_, ?_⟩
    · intro before x after hl
      exact h before x (after ++ m) (by simp [hl])
    · intro before x after hm
      exact h (l ++ before) x after (by simp [hm])
  · rintro ⟨hl, hm⟩ before x after hsplit
    rcases List.append_eq_append_iff.1 hsplit with ⟨mid, hbefore, hmid⟩ | ⟨mid, hlmid, hafter⟩
    · subst hbefore
      exact hm mid x after hmid
    · cases mid with
      | nil =>
        have hm' := hm [] x after (by simpa using hafter.symm)
        have hbefore : l = before := by simpa using hlmid
        simpa [hbefore] using hm'
      | cons y mid =>
        have hxy : x = y ∧ after = mid ++ m := by simpa using hafter
        exact hl before x mid (by simp [hlmid, hxy.1])

/-- Two points of a history are one, or one of them is behind the other. -/
theorem split_cases {a b a' b' : List β} {x y : β} (h : a ++ x :: b = a' ++ y :: b') :
    (x = y ∧ b = b') ∨ y ∈ b ∨ x ∈ b' := by
  rcases List.append_eq_append_iff.1 h with ⟨mid, _, hmid⟩ | ⟨mid, _, hmid⟩
  · cases mid with
    | nil => exact Or.inl (by simpa using hmid)
    | cons z mid =>
      have hb : b = mid ++ y :: b' := (List.cons.inj hmid).2
      exact Or.inr (Or.inl (by simp [hb]))
  · cases mid with
    | nil => exact Or.inl (by simpa [eq_comm] using hmid)
    | cons z mid =>
      have hb' : b' = mid ++ x :: b := (List.cons.inj hmid).2
      exact Or.inr (Or.inr (by simp [hb']))

theorem every_singleton {P : List β → β → Prop} {x : β} : Every P [x] ↔ P [] x := by
  constructor
  · intro h
    exact h [] x [] rfl
  · intro h before y after hsplit
    cases before with
    | nil =>
      have hxy : x = y ∧ after = [] := by simpa using hsplit
      simpa [hxy.1] using h
    | cons z before =>
      simp at hsplit

theorem every_snoc {P : List β → β → Prop} {l : List β} {x : β} :
    Every P (l ++ [x]) ↔ Every P l ∧ P l x := by
  rw [every_append, every_singleton]
  simp

theorem Every.mono {P Q : List β → β → Prop} {l : List β} (h : Every P l)
    (hPQ : ∀ before x, P before x → Q before x) : Every Q l := by
  intro before x after hsplit
  exact hPQ before x (h before x after hsplit)

/-- Entry by entry. -/
theorem every_iff_take {P : List β → β → Prop} {l : List β} :
    Every P l ↔ ∀ i (h : i < l.length), P (l.take i) l[i] := by
  constructor
  · intro hP i hi
    refine hP (l.take i) l[i] (l.drop (i + 1)) ?_
    rw [← List.drop_eq_getElem_cons hi, List.take_append_drop]
  · rintro hP before x after rfl
    have hlast := hP before.length (by simp)
    simpa using hlast

instance (P : List β → β → Prop) [∀ before x, Decidable (P before x)] (l : List β) :
    Decidable (Every P l) :=
  decidable_of_iff _ every_iff_take.symm

/-- A property of the entries that a filter keeps, read off the unfiltered history. -/
theorem every_filterMap {γ : Type v} {P : List γ → γ → Prop} {f : β → Option γ} {l : List β} :
    Every P (l.filterMap f) ↔
      Every (fun before x => ∀ y, f x = some y → P (before.filterMap f) y) l := by
  induction l using List.reverseRecOn with
  | nil => exact ⟨fun _ => every_nil _, fun _ => every_nil _⟩
  | append_singleton l x ih =>
    rw [List.filterMap_append, every_snoc, ← ih]
    cases hx : f x with
    | none => simp [hx]
    | some y =>
      have hsingle : [x].filterMap f = [y] := by simp [hx]
      rw [hsingle, every_snoc]
      simp

/-! ## Entries that stay in force -/

section Live

variable {κ : Type v} {adds removes : κ → β → Prop}

/-- An entry of the list adds `k` and no later one removes it. -/
def Live (adds removes : κ → β → Prop) (l : List β) (k : κ) : Prop :=
  ∃ before x after, l = before ++ x :: after ∧ adds k x ∧ ∀ y ∈ after, ¬ removes k y

theorem not_live_nil (k : κ) : ¬ Live adds removes [] k := by
  rintro ⟨before, x, after, hsplit, _⟩
  simp at hsplit

theorem live_snoc {l : List β} {x : β} {k : κ} :
    Live adds removes (l ++ [x]) k ↔ adds k x ∨ Live adds removes l k ∧ ¬ removes k x := by
  constructor
  · rintro ⟨before, y, after, hsplit, hadds, hafter⟩
    induction after using List.reverseRecOn with
    | nil =>
      have heq : x = y := List.singleton_inj.1 (List.append_inj' hsplit rfl).2
      exact Or.inl (heq ▸ hadds)
    | append_singleton after z _ =>
      have hsplit' : l ++ [x] = (before ++ y :: after) ++ [z] := by simpa using hsplit
      rcases List.append_inj' hsplit' rfl with ⟨hl, hx⟩
      have heq : x = z := List.singleton_inj.1 hx
      refine Or.inr ⟨⟨before, y, after, hl, hadds, ?_⟩, ?_⟩
      · intro w hw
        exact hafter w (List.mem_append_left _ hw)
      · exact heq ▸ hafter z (by simp)
  · rintro (hadds | ⟨⟨before, y, after, hsplit, hadds, hafter⟩, hnot⟩)
    · exact ⟨l, x, [], rfl, hadds, by simp⟩
    · refine ⟨before, y, after ++ [x], by simp [hsplit], hadds, ?_⟩
      intro z hz
      rcases List.mem_append.1 hz with hz | hz
      · exact hafter z hz
      · rw [List.mem_singleton.1 hz]
        exact hnot

/-- No entry adds what is in force exactly when something between any two additions removes it. -/
theorem every_not_live_iff {l : List β} :
    Every (fun before x => ∀ k, adds k x → ¬ Live adds removes before k) l ↔
      ∀ before first between second after k, l = before ++ first :: between ++ second :: after →
        adds k first → adds k second → ∃ y ∈ between, removes k y := by
  constructor
  · intro h before first between second after k hsplit hfirst hsecond
    by_contra hnone
    refine h (before ++ first :: between) second after hsplit k hsecond ?_
    exact ⟨before, first, between, rfl, hfirst, fun y hy hr => hnone ⟨y, hy, hr⟩⟩
  · rintro h _ second after hsplit k hsecond ⟨before, first, between, rfl, hfirst, hbetween⟩
    rcases h before first between second after k hsplit hfirst hsecond with ⟨y, hy, hr⟩
    exact hbetween y hy hr

end Live

/-! ## Entries that come behind an opening one -/

section Behind

variable {opens held : β → Prop} {x : β} {l : List β}

/-- Every held entry has an opening one somewhere before it. -/
def Behind (opens held : β → Prop) (l : List β) : Prop :=
  Every (fun before x => held x → ∃ y ∈ before, opens y) l

theorem behind_nil : Behind opens held [] :=
  every_nil _

/-- The first entry has nothing before it. -/
theorem Behind.head (h : Behind opens held (x :: l)) : ¬ held x := by
  intro hx
  rcases h [] x l rfl hx with ⟨y, hy, _⟩
  cases hy

theorem Behind.tail (h : Behind opens held (x :: l)) (hx : ¬ opens x) : Behind opens held l := by
  intro before y after hsplit hy
  rcases h (x :: before) y after (by simp [hsplit]) hy with ⟨z, hz, hopens⟩
  rcases List.mem_cons.1 hz with rfl | hz
  · exact absurd hopens hx
  · exact ⟨z, hz, hopens⟩

/-- Behind an opening entry anything may follow. -/
theorem Behind.append (h : Behind opens held l) (hl : ∃ y ∈ l, opens y) (m : List β) :
    Behind opens held (l ++ m) := by
  refine every_append.2 ⟨h, ?_⟩
  intro before y after _ _
  rcases hl with ⟨z, hz, hopens⟩
  exact ⟨z, List.mem_append_left _ hz, hopens⟩

theorem Behind.snoc (h : Behind opens held l) (hx : ¬ held x) : Behind opens held (l ++ [x]) :=
  every_snoc.2 ⟨h, fun hheld => absurd hheld hx⟩

end Behind

/-! ## The part behind the last marked entry -/

def afterLastStep (p : β → Bool) (acc : List β) (x : β) : List β :=
  if p x then [] else acc ++ [x]

/-- The part of the list behind its last entry satisfying `p`, or all of it without one. -/
def afterLast (p : β → Bool) (l : List β) : List β :=
  l.foldl (afterLastStep p) []

theorem afterLast_snoc (p : β → Bool) (l : List β) (x : β) :
    afterLast p (l ++ [x]) = if p x then [] else afterLast p l ++ [x] := by
  simp [afterLast, afterLastStep]

end History
end Crossover
