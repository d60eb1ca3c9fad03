import Mathlib.Algebra.Group.Nat.Defs
import Mathlib.Data.List.Nodup
import Mathlib.Logic.Function.Iterate

/-!
# FirstFree — the unbounded search for the first unused candidate

The loop `for (c = c0;; c = next(c)) if (!used(c)) return c;` has no bound of its own.  It stops
because the used values come from a finite list: among more candidates than list entries one is
free, as long as the candidates do not repeat that early.

* `FirstFree.Finds used next c r` is the loop itself: started at `c` it returns `r`;
* `FirstFree.search` runs it with an explicit budget;
* `FirstFree.finds_search` says that the length of the list is budget enough;
* `FirstFree.least_int32` is the case of an `int` that counts up: the least unused one is found.
-/

namespace Crossover
namespace FirstFree

universe u

variable {α : Type u}

/-! ## The loop and its bounded run -/

/-- The loop started at `c` returns `r`. -/
inductive Finds (used : α → Prop) (next : α → α) : α → α → Prop
  | found {c : α} : ¬ used c → Finds used next c c
  | advance {c r : α} : used c → Finds used next (next c) r → Finds used next c r

/-- The loop with a budget of `n` rejected candidates. -/
def search (used : α → Bool) (next : α → α) : Nat → α → α
  | 0, c => c
  | n + 1, c => if used c then search used next n (next c) else c

/-! ## What a returning loop has found -/

theorem Finds.not_used {used : α → Prop} {next : α → α} {c r : α}
    (h : Finds used next c r) : ¬ used r := by
  induction h with
  | found hfree => exact hfree
  | advance _ _ ih => exact ih

/-- The result is an iterate of the start, and every earlier iterate is used. -/
theorem Finds.exists_iterate {used : α → Prop} {next : α → α} {c r : α}
    (h : Finds used next c r) :
    ∃ n, r = next^[n] c ∧ ∀ k < n, used (next^[k] c) := by
  induction h with
  | found _ => exact ⟨0, rfl, fun k hk => absurd hk (Nat.not_lt_zero k)⟩
  | @advance c r hused _ ih =>
    rcases ih with ⟨n, hr, hbefore⟩
    refine ⟨n + 1, by simpa using hr, ?_⟩
    intro k hk
    cases k with
    | zero => simpa using hused
    | succ k => simpa using hbefore k (by omega)

/-! ## Termination -/

/-- A budget that is not exhausted by used candidates only makes the loop return. -/
theorem finds_search_of_exists {used : α → Bool} {next : α → α} :
    ∀ (n : Nat) (c : α), (∃ k ≤ n, used (next^[k] c) = false) →
      Finds (fun x => used x = true) next c (search used next n c) := by
  intro n
  induction n with
  | zero =>
    rintro c ⟨k, hk, hfree⟩
    obtain rfl : k = 0 := by omega
    exact Finds.found (by simpa [search] using hfree)
  | succ n ih =>
    rintro c ⟨k, hk, hfree⟩
    cases hc : used c with
    | false =>
      have hfound : Finds (fun x => used x = true) next c c := Finds.found (by simp [hc])
      simpa [search, hc] using hfound
    | true =>
      have hpos : k ≠ 0 := by
        rintro rfl
        simp [hc] at hfree
      obtain ⟨j, rfl⟩ := Nat.exists_eq_succ_of_ne_zero hpos
      have hrest := ih (next c) ⟨j, by omega, by simpa using hfree⟩
      simpa [search, hc] using Finds.advance (by simpa using hc) hrest

/-- The search only looks at the candidates it comes to. -/
theorem search_congr {used used' : α → Bool} {next : α → α} :
    ∀ (n : Nat) (c : α), (∀ k < n, used (next^[k] c) = used' (next^[k] c)) →
      search used next n c = search used' next n c := by
  intro n
  induction n with
  | zero =>
    intro c _
    rfl
  | succ n ih =>
    intro c hsame
    have hfirst : used c = used' c := hsame 0 (Nat.succ_pos n)
    have hrest := ih (next c) fun k hk => hsame (k + 1) (Nat.succ_lt_succ hk)
    rw [search, search, hfirst, hrest]

/-- Pigeonhole: a list has fewer entries than it would need to hold all of the first
`l.length + 1` candidates, so one of them is free. -/
theorem exists_iterate_not_mem {next : α → α} {c : α} {l : List α}
    (hinj : ∀ i ≤ l.length, ∀ j ≤ l.length, next^[i] c = next^[j] c → i = j) :
    ∃ k ≤ l.length, next^[k] c ∉ l := by
  by_contra hall
  simp only [not_exists, not_and, not_not] at hall
  let candidates := (List.range (l.length + 1)).map fun i => next^[i] c
  have hnodup : candidates.Nodup := by
    refine List.Nodup.map_on ?_ List.nodup_range
    intro i hi j hj hij
    exact hinj i (by simp at hi; omega) j (by simp at hj; omega) hij
  have hsub : candidates ⊆ l := by
    intro x hx
    obtain ⟨i, hi, rfl⟩ := List.mem_map.1 hx
    exact hall i (by simp at hi; omega)
  have hlen := List.Nodup.length_le_of_subset hnodup hsub
  simp only [candidates, List.length_map, List.length_range] at hlen
  omega

/-- The search over the members of a list returns within as many rejections as the list has
entries. -/
theorem finds_search [DecidableEq α] {next : α → α} {c : α} {l : List α}
    (hinj : ∀ i ≤ l.length, ∀ j ≤ l.length, next^[i] c = next^[j] c → i = j) :
    Finds (· ∈ l) next c (search (fun x => decide (x ∈ l)) next l.length c) := by
  rcases exists_iterate_not_mem hinj with ⟨k, hk, hfree⟩
  have hreturns : Finds (fun x => decide (x ∈ l) = true) next c
      (search (fun x => decide (x ∈ l)) next l.length c) :=
    finds_search_of_exists l.length c ⟨k, hk, by simpa using hfree⟩
  simpa using hreturns

/-- The number of rejected candidates is at most the number of list entries. -/
theorem Finds.exists_iterate_le [DecidableEq α] {next : α → α} {c r : α} {l : List α}
    (hinj : ∀ i ≤ l.length, ∀ j ≤ l.length, next^[i] c = next^[j] c → i = j)
    (h : Finds (· ∈ l) next c r) :
    ∃ n ≤ l.length, r = next^[n] c ∧ ∀ k < n, next^[k] c ∈ l := by
  rcases h.exists_iterate with ⟨n, hr, hbefore⟩
  rcases exists_iterate_not_mem hinj with ⟨k, hk, hfree⟩
  refine ⟨n, ?_, hr, hbefore⟩
  by_contra hn
  exact hfree (hbefore k (by omega))

/-! ## Counting an `int` up -/

theorem iterate_int32 (first n : Nat) :
    (fun c : Int32 => c + 1)^[n] (Int32.ofNat first) = Int32.ofNat (first + n) := by
  induction n with
  | zero => rfl
  | succ n ih =>
    rw [Function.iterate_succ_apply', ih, ← Nat.add_assoc, Int32.ofNat_add (first + n) 1]
    rfl

theorem int32_injective {first n : Nat} (hn : first + n < 2 ^ 31) :
    ∀ i ≤ n, ∀ j ≤ n, (fun c : Int32 => c + 1)^[i] (Int32.ofNat first) =
      (fun c : Int32 => c + 1)^[j] (Int32.ofNat first) → i = j := by
  intro i hi j hj hij
  rw [iterate_int32, iterate_int32] at hij
  have htoInt := congrArg Int32.toInt hij
  rw [Int32.toInt_ofNat_of_lt (by omega), Int32.toInt_ofNat_of_lt (by omega)] at htoInt
  omega

/-! ### Numbers held by the entries of a list -/

section Held

variable {β : Type*} {f : β → Int32} {l : List β} {first : Nat}

/-- As long as the numbers do not run out, the loop returns. -/
theorem finds_int32 (hlen : first + l.length < 2 ^ 31) :
    Finds (· ∈ l.map f) (· + 1) (Int32.ofNat first)
      (search (fun x => decide (x ∈ l.map f)) (· + 1) l.length (Int32.ofNat first)) := by
  have hfit : first + (l.map f).length < 2 ^ 31 := by rwa [List.length_map]
  have hfinds := finds_search (int32_injective hfit)
  rwa [List.length_map] at hfinds

/-- Whatever the loop returns is the least number from the start on that nobody holds, and within as
many steps as there are holders. -/
theorem least_int32 {r : Int32} (hlen : first + l.length < 2 ^ 31)
    (h : Finds (· ∈ l.map f) (· + 1) (Int32.ofNat first) r) :
    first ≤ r.toInt ∧ r.toInt ≤ first + l.length ∧ r ∉ l.map f ∧
      ∀ j : Int32, first ≤ j.toInt → j < r → j ∈ l.map f := by
  have hfit : first + (l.map f).length < 2 ^ 31 := by rwa [List.length_map]
  obtain ⟨n, hn, rfl, hbelow⟩ := h.exists_iterate_le (int32_injective hfit)
  have hfree := h.not_used
  rw [List.length_map] at hn
  rw [iterate_int32] at hfree ⊢
  have htoInt : (Int32.ofNat (first + n)).toInt = (first + n : Nat) :=
    Int32.toInt_ofNat_of_lt (by omega)
  refine ⟨by omega, by omega, hfree, ?_⟩
  intro j hfirst hlt
  rw [Int32.lt_iff_toInt_lt, htoInt] at hlt
  have hused := hbelow (j.toInt.toNat - first) (by omega)
  rw [iterate_int32] at hused
  have hj : Int32.ofNat (first + (j.toInt.toNat - first)) = j := by
    rw [← Int32.toInt_inj, Int32.toInt_ofNat_of_lt (by omega)]
    omega
  exact hj ▸ hused

end Held

end FirstFree
end Crossover
