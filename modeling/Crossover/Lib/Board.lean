import Mathlib.Data.List.Basic

/-!
# Board — the last value heard about a key

A board is a list of keys with a value each; a key may stand on it several times, and a value is
written to the first of them.  A reader who hears what is posted keeps the announcements, newest
first.  `Agrees` says that a key with a single entry shows the value last heard about it, and
`agrees_step_iff` says which posts leave that true when a new entry starts out blank.
-/

namespace Crossover
namespace Board

universe u v

variable {κ : Type u} {ν : Type v} [DecidableEq κ]

/-- What can happen to a board. -/
inductive Post (κ : Type u) (ν : Type v)
  | create (k : κ) (v : ν)
  | move (k : κ) (v : ν)
  | destroy (k : κ)
  | clear

/-- A board, and what has been heard about its keys. -/
structure State (κ : Type u) (ν : Type v) where
  board : List (κ × ν) := []
  heard : List (κ × ν) := []

/-- The value of the first entry of a key is replaced. -/
def assign (k : κ) (v : ν) : List (κ × ν) → List (κ × ν)
  | [] => []
  | entry :: rest => if entry.1 = k then (k, v) :: rest else entry :: assign k v rest

/-- The first entry of a key is taken away. -/
def erase (k : κ) (board : List (κ × ν)) : List (κ × ν) :=
  board.eraseP fun entry => entry.1 == k

/-- The entries of a key. -/
def entries (k : κ) (board : List (κ × ν)) : List (κ × ν) :=
  board.filter fun entry => entry.1 == k

/-- The board and the announcements after a post; a created entry is blank, whatever was
announced. -/
def step (blank : ν) (s : State κ ν) : Post κ ν → State κ ν
  | .create k v => { board := s.board ++ [(k, blank)], heard := (k, v) :: s.heard }
  | .move k v => { board := assign k v s.board, heard := (k, v) :: s.heard }
  | .destroy k => { s with board := erase k s.board }
  | .clear => { s with board := [] }

/-- A key with a single entry shows what was last heard about it. -/
def Agrees (s : State κ ν) : Prop :=
  ∀ k v, entries k s.board = [(k, v)] → s.heard.lookup k = some v

/-- A new key is announced at the blank value; when one of two entries goes, the other one shows
what was last heard. -/
def Sound (blank : ν) (s : State κ ν) : Post κ ν → Prop
  | .create k v => entries k s.board = [] → v = blank
  | .move _ _ => True
  | .destroy k =>
      ∀ first last, entries k s.board = [first, last] → s.heard.lookup k = some last.2
  | .clear => True

/-! ## Entries -/

theorem entries_append_self (k : κ) (v : ν) (board : List (κ × ν)) :
    entries k (board ++ [(k, v)]) = entries k board ++ [(k, v)] := by
  simp [entries]

theorem entries_append_ne {j k : κ} (hne : j ≠ k) (v : ν) (board : List (κ × ν)) :
    entries j (board ++ [(k, v)]) = entries j board := by
  simp [entries, Ne.symm hne]

theorem fst_of_mem_entries {k : κ} {board : List (κ × ν)} {entry : κ × ν}
    (h : entry ∈ entries k board) : entry.1 = k := by
  simpa using (List.mem_filter.1 h).2

theorem entries_eq_nil {k : κ} {board : List (κ × ν)} :
    entries k board = [] ↔ k ∉ board.map Prod.fst := by
  rw [entries, List.filter_eq_nil_iff]
  constructor
  · intro h hmem
    rcases List.mem_map.1 hmem with ⟨entry, hentry, hkey⟩
    exact h entry hentry (by simp [hkey])
  · intro h entry hentry hkey
    exact h (List.mem_map.2 ⟨entry, hentry, by simpa using hkey⟩)

theorem entries_assign_self (k : κ) (v : ν) (board : List (κ × ν)) :
    entries k (assign k v board) = assign k v (entries k board) := by
  induction board with
  | nil => rfl
  | cons entry rest ih =>
    by_cases hk : entry.1 = k
    · simp [assign, entries, hk]
    · simpa [assign, entries, hk] using ih

theorem entries_assign_ne {j k : κ} (hne : j ≠ k) (v : ν) (board : List (κ × ν)) :
    entries j (assign k v board) = entries j board := by
  induction board with
  | nil => rfl
  | cons entry rest ih =>
    by_cases hk : entry.1 = k
    · simp [assign, entries, hk, Ne.symm hne]
    · by_cases hj : entry.1 = j
      · simpa [assign, entries, hk, hj, hne] using ih
      · simpa [assign, entries, hk, hj] using ih

theorem entries_erase_self (k : κ) (board : List (κ × ν)) :
    entries k (erase k board) = (entries k board).tail := by
  induction board with
  | nil => rfl
  | cons entry rest ih =>
    by_cases hk : entry.1 = k
    · simp [erase, entries, hk]
    · simpa [erase, entries, hk] using ih

theorem entries_erase_ne {j k : κ} (hne : j ≠ k) (board : List (κ × ν)) :
    entries j (erase k board) = entries j board := by
  induction board with
  | nil => rfl
  | cons entry rest ih =>
    by_cases hk : entry.1 = k
    · simp [erase, entries, hk, Ne.symm hne]
    · by_cases hj : entry.1 = j
      · simpa [erase, entries, hk, hj, hne] using ih
      · simpa [erase, entries, hk, hj] using ih

/-! ## One post -/

section Posts

variable {blank : ν} {s : State κ ν}

theorem lookup_heard_ne {j k : κ} (hne : j ≠ k) (v : ν) (heard : List (κ × ν)) :
    ((k, v) :: heard).lookup j = heard.lookup j := by
  have hbeq : (j == k) = false := by simpa using hne
  simp [List.lookup_cons, hbeq]

/-- A key that is new on the board shows the blank value. -/
theorem agrees_create_iff {k : κ} {v : ν} (hnew : entries k s.board = []) :
    Agrees (step blank s (.create k v)) ↔ Agrees s ∧ v = blank := by
  constructor
  · intro h
    refine ⟨?_, ?_⟩
    · intro j w hj
      by_cases hjk : j = k
      · subst hjk
        rw [hnew] at hj
        cases hj
      · have hkeep := h j w (by simpa only [step, entries_append_ne hjk] using hj)
        simpa only [step, lookup_heard_ne hjk] using hkeep
    · have hself := h k blank (by simp [step, entries_append_self, hnew])
      simpa [step] using hself
  · rintro ⟨h, rfl⟩ j w hj
    by_cases hjk : j = k
    · subst hjk
      have hw : v = w := by simpa [step, entries_append_self, hnew] using hj
      simp [step, hw]
    · simp only [step, lookup_heard_ne hjk]
      exact h j w (by simpa only [step, entries_append_ne hjk] using hj)

theorem agrees_create_of_mem {k : κ} {v : ν} (hold : entries k s.board ≠ []) (h : Agrees s) :
    Agrees (step blank s (.create k v)) := by
  intro j w hj
  by_cases hjk : j = k
  · -- The key has two entries now.
    subst hjk
    have hlength := congrArg List.length hj
    simp only [step, entries_append_self, List.length_append, List.length_singleton,
      Nat.add_eq_right] at hlength
    exact absurd (List.length_eq_zero_iff.1 hlength) hold
  · simp only [step, lookup_heard_ne hjk]
    exact h j w (by simpa only [step, entries_append_ne hjk] using hj)

theorem agrees_move {k : κ} {v : ν} (h : Agrees s) : Agrees (step blank s (.move k v)) := by
  intro j w hj
  by_cases hjk : j = k
  · subst hjk
    simp only [step, entries_assign_self] at hj
    cases hold : entries j s.board with
    | nil =>
      rw [hold] at hj
      cases hj
    | cons entry rest =>
      have hkey : entry.1 = j := by
        apply fst_of_mem_entries
        rw [hold]
        exact List.mem_cons_self
      have hw : v = w := by
        rw [hold] at hj
        simp only [assign, hkey, if_true] at hj
        exact congrArg Prod.snd (List.cons.inj hj).1
      simp [step, hw]
  · simp only [step, lookup_heard_ne hjk]
    refine h j w ?_
    simpa only [step, entries_assign_ne hjk] using hj

theorem agrees_destroy_iff {k : κ} (h : Agrees s) :
    Agrees (step blank s (.destroy k)) ↔
      ∀ first last, entries k s.board = [first, last] → s.heard.lookup k = some last.2 := by
  constructor
  · intro hafter first last htwo
    have hkey : last.1 = k := by
      apply fst_of_mem_entries
      rw [htwo]
      simp
    refine hafter k last.2 ?_
    simp only [step, entries_erase_self, htwo, List.tail_cons]
    rw [← hkey]
  · intro htwo j w hj
    by_cases hjk : j = k
    · subst hjk
      simp only [step, entries_erase_self] at hj
      cases hold : entries j s.board with
      | nil =>
        rw [hold] at hj
        cases hj
      | cons first rest =>
        rw [hold, List.tail_cons] at hj
        exact htwo first (j, w) (by rw [hold, hj])
    · refine h j w ?_
      simpa only [step, entries_erase_ne hjk] using hj

/-- From a board that agrees, exactly the sound posts lead to one that agrees. -/
theorem agrees_step_iff (h : Agrees s) (post : Post κ ν) :
    Agrees (step blank s post) ↔ Sound blank s post := by
  cases post with
  | create k v =>
    by_cases hnew : entries k s.board = []
    · rw [agrees_create_iff hnew]
      simp [Sound, hnew, h]
    · simp [Sound, hnew, agrees_create_of_mem hnew h]
  | move k v => simp [Sound, agrees_move h]
  | destroy k => exact agrees_destroy_iff h
  | clear =>
    refine ⟨fun _ => trivial, fun _ => ?_⟩
    intro k v hk
    cases hk

end Posts

/-! ## Several new keys -/

/-- Each key is new when its entry is added. -/
def Fresh (blank : ν) : State κ ν → List (κ × ν) → Prop
  | _, [] => True
  | s, entry :: rest =>
      entries entry.1 s.board = [] ∧ Fresh blank (step blank s (.create entry.1 entry.2)) rest

/-- The state after entries have been added in order. -/
def createAll (blank : ν) (s : State κ ν) (created : List (κ × ν)) : State κ ν :=
  created.foldl (fun s entry => step blank s (.create entry.1 entry.2)) s

theorem createAll_board (blank : ν) (s : State κ ν) (created : List (κ × ν)) :
    (createAll blank s created).board = s.board ++ created.map fun entry => (entry.1, blank) := by
  unfold createAll
  induction created generalizing s with
  | nil => simp
  | cons entry rest ih =>
    rw [List.foldl_cons, ih]
    simp [step]

theorem agrees_createAll_iff {blank : ν} {s : State κ ν} {created : List (κ × ν)}
    (hfresh : Fresh blank s created) :
    Agrees (createAll blank s created) ↔ Agrees s ∧ ∀ entry ∈ created, entry.2 = blank := by
  induction created generalizing s with
  | nil => simp [createAll]
  | cons entry rest ih =>
    have hrest := ih hfresh.2
    rw [createAll, List.foldl_cons, ← createAll, hrest, agrees_create_iff hfresh.1, and_assoc]
    simp

/-- A key that is new when its entry is added is new from the start. -/
theorem Fresh.new {blank : ν} {s : State κ ν} {created : List (κ × ν)}
    (hfresh : Fresh blank s created) : ∀ entry ∈ created, entries entry.1 s.board = [] := by
  induction created generalizing s with
  | nil => simp
  | cons first rest ih =>
    intro entry hentry
    rcases List.mem_cons.1 hentry with rfl | hrest
    · exact hfresh.1
    · have hlater := ih hfresh.2 entry hrest
      by_cases hkey : entry.1 = first.1
      · simp [step, hkey, entries_append_self] at hlater
      · simpa only [step, entries_append_ne hkey] using hlater

/-- The same as one post after the other. -/
theorem agrees_createAll_iff_sound {blank : ν} {s : State κ ν} {created : List (κ × ν)}
    (h : Agrees s) (hfresh : Fresh blank s created) :
    Agrees (createAll blank s created) ↔
      ∀ entry ∈ created, Sound blank s (.create entry.1 entry.2) := by
  rw [agrees_createAll_iff hfresh]
  constructor
  · rintro ⟨_, hblank⟩ entry hentry _
    exact hblank entry hentry
  · intro hsound
    exact ⟨h, fun entry hentry => hsound entry hentry (hfresh.new entry hentry)⟩

end Board
end Crossover
