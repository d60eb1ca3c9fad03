import Crossover.Lib.Lobby

/-!
# Listener — what a receiver makes of its notes

A listener keeps a table of the members it has been told of.  A single announcement is appended
without a look at the table, a roster only adds what is new, a departure removes the first entry
with its id.  So the table holds everybody once as long as nobody is announced who is known:
`Listener.distinct_of_fresh` is this for any list of notes, and a lobby's notes never announce a
receiver to itself.
-/

namespace Crossover
namespace Lobby

open History

universe u v w

variable {α : Type u} {κ : Type v} {ι : Type w}

/-- The receiver's own id, once it has one, and the members it holds. -/
structure Listener (κ : Type v) (ι : Type w) where
  own : Option κ := none
  table : List (κ × ι) := []

namespace Listener

/-- The ids held. -/
def ids (l : Listener κ ι) : List κ :=
  l.table.map Prod.fst

variable [DecidableEq κ]

/-- An entry of a roster, unless its id is the receiver's own or held already. -/
def addNew (l : Listener κ ι) (entry : κ × ι) : Listener κ ι :=
  if l.own = some entry.1 ∨ entry.1 ∈ l.ids then l else { l with table := l.table ++ [entry] }

/-- How a note changes what its receiver holds. -/
def hear (l : Listener κ ι) : Note κ ι → Listener κ ι
  | .assign id => { own := some id }
  | .create id info => { l with table := l.table ++ [(id, info)] }
  | .roster entries => entries.foldl addNew l
  | .destroy id => { l with table := l.table.eraseP fun entry => decide (entry.1 = id) }
  | .relay _ => l

/-- What a receiver holds after these notes. -/
def after (notes : List (Note κ ι)) : Listener κ ι :=
  notes.foldl hear {}

theorem after_snoc (notes : List (Note κ ι)) (note : Note κ ι) :
    after (notes ++ [note]) = (after notes).hear note := by
  simp [after]

theorem after_append (notes more : List (Note κ ι)) :
    after (notes ++ more) = more.foldl hear (after notes) := by
  simp [after]

/-- An assignment starts afresh. -/
theorem after_assign (notes more : List (Note κ ι)) (id : κ) :
    after (notes ++ .assign id :: more) = more.foldl hear { own := some id } := by
  rw [after_append, List.foldl_cons]
  rfl

/-! ## The own id -/

@[simp] theorem addNew_own (l : Listener κ ι) (entry : κ × ι) : (l.addNew entry).own = l.own := by
  unfold addNew
  split <;> rfl

@[simp] theorem foldl_addNew_own (l : Listener κ ι) (entries : List (κ × ι)) :
    (entries.foldl addNew l).own = l.own := by
  induction entries generalizing l with
  | nil => rfl
  | cons entry entries ih => simp [ih]

/-- Only an assignment changes the own id. -/
theorem hear_own (l : Listener κ ι) (note : Note κ ι) :
    (l.hear note).own = match note with
      | .assign id => some id
      | _ => l.own := by
  cases note <;> simp [hear]

theorem foldl_hear_own {notes : List (Note κ ι)} (h : ∀ id, Note.assign id ∉ notes)
    (l : Listener κ ι) : (notes.foldl hear l).own = l.own := by
  induction notes generalizing l with
  | nil => rfl
  | cons note notes ih =>
    rw [List.foldl_cons, ih fun id hmem => h id (List.mem_cons_of_mem _ hmem), hear_own]
    cases note with
    | assign id => exact absurd List.mem_cons_self (h id)
    | _ => rfl

/-! ## Notes that say nothing new -/

end Listener

/-- A note that may change what its receiver knows. -/
def Note.spoken : Note κ ι → Option (Note κ ι)
  | .relay _ => none
  | note => some note

section Spoken

variable [DecidableEq κ]

theorem told_spoken (notes : List (Note κ ι)) :
    told (notes.filterMap Note.spoken) = told notes := by
  induction notes using List.reverseRecOn with
  | nil => rfl
  | append_singleton notes note ih =>
    rw [List.filterMap_append, told_append, ih, told_snoc]
    cases note <;> rfl

theorem Listener.after_spoken (notes : List (Note κ ι)) :
    Listener.after (notes.filterMap Note.spoken) = Listener.after notes := by
  induction notes using List.reverseRecOn with
  | nil => rfl
  | append_singleton notes note ih =>
    rw [List.filterMap_append, Listener.after_append, ih, Listener.after_snoc]
    cases note <;> rfl

end Spoken

namespace Listener

variable [DecidableEq κ]

/-! ## Distinct entries -/

/-- Everybody is held once, and nobody is the receiver itself. -/
structure Distinct (l : Listener κ ι) : Prop where
  nodup : l.ids.Nodup
  notOwn : ∀ id, l.own = some id → id ∉ l.ids

theorem ids_addNew (l : Listener κ ι) (entry : κ × ι) :
    (l.addNew entry).ids =
      if l.own = some entry.1 ∨ entry.1 ∈ l.ids then l.ids else l.ids ++ [entry.1] := by
  unfold addNew
  split
  · rfl
  · simp [ids]

theorem Distinct.addNew {l : Listener κ ι} (h : Distinct l) (entry : κ × ι) :
    Distinct (l.addNew entry) := by
  refine ⟨?_, ?_⟩
  · rw [ids_addNew]
    split
    · exact h.nodup
    · rename_i hnew
      have hfree : entry.1 ∉ l.ids := fun hmem => hnew (Or.inr hmem)
      simpa using List.Nodup.concat hfree h.nodup
  · intro id hown
    rw [addNew_own] at hown
    rw [ids_addNew]
    split
    · exact h.notOwn id hown
    · rename_i hnew
      intro hmem
      rcases List.mem_append.1 hmem with hold | hlast
      · exact h.notOwn id hown hold
      · exact hnew (Or.inl (by rw [hown, List.mem_singleton.1 hlast]))

theorem Distinct.roster {l : Listener κ ι} (h : Distinct l) (entries : List (κ × ι)) :
    Distinct (entries.foldl Listener.addNew l) := by
  induction entries generalizing l with
  | nil => exact h
  | cons entry entries ih => exact ih (h.addNew entry)

theorem Distinct.create {l : Listener κ ι} (h : Distinct l) {id : κ} (info : ι)
    (hown : l.own ≠ some id) (hfree : id ∉ l.ids) : Distinct (l.hear (.create id info)) := by
  have hids : (l.hear (.create id info)).ids = l.ids ++ [id] := by simp [hear, ids]
  refine ⟨?_, ?_⟩
  · rw [hids]
    simpa using List.Nodup.concat hfree h.nodup
  · intro k hk
    rw [hids]
    intro hmem
    rcases List.mem_append.1 hmem with hold | hlast
    · exact h.notOwn k hk hold
    · exact hown (by rw [← List.mem_singleton.1 hlast]; exact hk)

theorem Distinct.destroy {l : Listener κ ι} (h : Distinct l) (id : κ) :
    Distinct (l.hear (.destroy id)) := by
  have hsub : (l.hear (.destroy id)).ids.Sublist l.ids := List.eraseP_sublist.map Prod.fst
  exact ⟨h.nodup.sublist hsub, fun k hk hmem => h.notOwn k hk (hsub.subset hmem)⟩

/-- Removing the first entry with an id from a table without repetitions removes the id. -/
theorem Distinct.mem_destroy {l : Listener κ ι} (h : Distinct l) {id k : κ} :
    k ∈ (l.hear (.destroy id)).ids ↔ k ∈ l.ids ∧ k ≠ id := by
  have hids : (l.hear (.destroy id)).ids = l.ids.eraseP fun k => decide (k = id) := by
    simp only [ids, hear, List.eraseP_map, Function.comp_def]
  have herase : (l.ids.eraseP fun k => decide (k = id)) = l.ids.erase id := by
    rw [List.erase_eq_eraseP]
    congr 1
    funext k
    simp [Bool.beq_eq_decide_eq, eq_comm]
  rw [hids, herase, h.nodup.mem_erase_iff, and_comm]

/-- Nor does it remove anything else. -/
theorem Distinct.mem_table_destroy {l : Listener κ ι} (h : Distinct l) {id : κ} {e : κ × ι} :
    e ∈ (l.hear (.destroy id)).table ↔ e ∈ l.table ∧ e.1 ≠ id := by
  have htable : (l.hear (.destroy id)).table = l.table.eraseP fun e => decide (e.1 = id) := rfl
  constructor
  · intro he
    have hgone := h.mem_destroy.1 (List.mem_map_of_mem (f := Prod.fst) he)
    rw [htable] at he
    exact ⟨List.mem_of_mem_eraseP he, hgone.2⟩
  · rintro ⟨he, hne⟩
    rw [htable, List.mem_eraseP_of_neg (by simp [hne])]
    exact he

theorem mem_addNew {l : Listener κ ι} {entry : κ × ι} {k : κ} :
    k ∈ (l.addNew entry).ids ↔ k ∈ l.ids ∨ k = entry.1 ∧ l.own ≠ some entry.1 := by
  rw [ids_addNew]
  split
  · rename_i hold
    rcases hold with hown | hmem
    · simp [hown]
    · constructor
      · exact Or.inl
      · rintro (h | ⟨rfl, _⟩)
        · exact h
        · exact hmem
  · rename_i hnew
    have hown : l.own ≠ some entry.1 := fun h => hnew (Or.inl h)
    simp [hown]

theorem mem_roster {l : Listener κ ι} {entries : List (κ × ι)} {k : κ} :
    k ∈ (entries.foldl addNew l).ids ↔
      k ∈ l.ids ∨ k ∈ entries.map Prod.fst ∧ l.own ≠ some k := by
  induction entries generalizing l with
  | nil => simp
  | cons entry entries ih =>
    rw [List.foldl_cons, ih, mem_addNew, addNew_own, List.map_cons, List.mem_cons]
    constructor
    · rintro ((h | ⟨rfl, hown⟩) | ⟨h, hown⟩)
      · exact Or.inl h
      · exact Or.inr ⟨Or.inl rfl, hown⟩
      · exact Or.inr ⟨Or.inr h, hown⟩
    · rintro (h | ⟨rfl | h, hown⟩)
      · exact Or.inl (Or.inl h)
      · exact Or.inl (Or.inr ⟨rfl, hown⟩)
      · exact Or.inr ⟨h, hown⟩

/-- What is held behind a roster was held before or is in the roster. -/
theorem table_roster {l : Listener κ ι} {entries : List (κ × ι)} {e : κ × ι}
    (h : e ∈ (entries.foldl addNew l).table) : e ∈ l.table ∨ e ∈ entries := by
  induction entries generalizing l with
  | nil => exact Or.inl h
  | cons entry entries ih =>
    rcases ih h with hheld | hrest
    · unfold addNew at hheld
      split at hheld
      · exact Or.inl hheld
      · rcases List.mem_append.1 hheld with hold | hnew
        · exact Or.inl hold
        · exact Or.inr (List.mem_cons.2 (Or.inl (List.mem_singleton.1 hnew)))
    · exact Or.inr (List.mem_cons_of_mem _ hrest)

/-! ## Fresh announcements keep the table distinct -/

/-- The note announces nobody its receiver is or knows, nor anybody twice. -/
def Admits (before : List (Note κ ι)) (note : Note κ ι) : Prop :=
  note.announced.Nodup ∧ ∀ id ∈ note.announced, id ∉ told before ∧ (after before).own ≠ some id

/-- A receiver of admissible notes holds exactly whom it has been told of, each once. -/
theorem distinct_of_admits {notes : List (Note κ ι)} (h : Every Admits notes) :
    Distinct (after notes) ∧ ∀ k, k ∈ (after notes).ids ↔ k ∈ told notes := by
  induction notes using List.reverseRecOn with
  | nil => exact ⟨⟨List.nodup_nil, by simp [after]⟩, by simp [after, ids]⟩
  | append_singleton notes note ih =>
    rcases every_snoc.1 h with ⟨hbefore, hnote⟩
    rcases ih hbefore with ⟨hdistinct, hknown⟩
    rw [after_snoc, told_snoc]
    cases note with
    -- An assignment empties both the table and what the receiver counts as told.
    | assign id => exact ⟨⟨List.nodup_nil, by simp [Listener.hear, ids]⟩,
        by simp [Listener.hear, ids, Lobby.hear]⟩
    | create id info =>
      have hid := hnote.2 id (by simp [Note.announced])
      -- By the induction hypothesis the table holds exactly the ids told before.
      have hfree : id ∉ (after notes).ids := fun hmem => hid.1 ((hknown id).1 hmem)
      refine ⟨hdistinct.create info hid.2 hfree, ?_⟩
      intro k
      have hk := hknown k
      simp only [ids] at hk ⊢
      simp [Listener.hear, Lobby.hear, hk, or_comm]
    | roster entries =>
      refine ⟨hdistinct.roster entries, ?_⟩
      intro k
      show k ∈ (entries.foldl addNew (after notes)).ids ↔ _
      rw [mem_roster, hknown]
      simp only [Lobby.hear, Finset.mem_union, List.mem_toFinset]
      constructor
      · rintro (hold | ⟨hnew, _⟩)
        · exact Or.inl hold
        · exact Or.inr hnew
      · rintro (hold | hnew)
        · exact Or.inl hold
        · exact Or.inr ⟨hnew, (hnote.2 k hnew).2⟩
    | destroy id =>
      refine ⟨hdistinct.destroy id, ?_⟩
      intro k
      rw [hdistinct.mem_destroy, hknown, Lobby.hear, Finset.mem_erase, and_comm]
    | relay id => exact ⟨hdistinct, hknown⟩

end Listener

/-! ## What a step says to whom -/

section Steps

variable [DecidableEq κ] {T T' : List (Member α κ ι)} {out : List (α × Note κ ι)}

/-- Only a join assigns, and only to the new address. -/
theorem Step.assign_of_mem {act : Act α κ ι} (h : Step T act out T') {a : α} {id : κ}
    (hmem : (a, Note.assign id) ∈ out) : ∃ info, act = .join a id info := by
  cases h with
  | idle => cases hmem
  | join T b k info _ _ =>
    obtain ⟨rfl, hnote⟩ := Prod.mk.inj (List.mem_singleton.1 hmem)
    cases hnote
    exact ⟨info, rfl⟩
  | announce before after m info =>
    rcases List.mem_append.1 hmem with hmem | hmem
    · cases (mem_broadcast hmem).1
    · by_cases hp : peers (before ++ m.announce info :: after) (m.announce info).id = []
      · simp [rosterFor, hp] at hmem
      · simp [rosterFor, hp] at hmem
  | relay T m _ _ => cases (mem_broadcast hmem).1
  | leave T m _ =>
    split at hmem
    · cases (mem_broadcast hmem).1
    · cases hmem
  | close =>
    rcases List.mem_flatMap.1 hmem with ⟨m, _, hbroadcast⟩
    cases (mem_broadcast hbroadcast).1

/-- A join takes in a new address under a new id and says nothing but its assignment. -/
theorem Step.of_join {a : α} {id : κ} {info : ι} (h : Step T (.join a id info) out T') :
    out = [(a, .assign id)] ∧ T' = T ++ [{ addr := a, id := id, present := false, info := info }] ∧
      ∀ m ∈ T, m.addr ≠ a := by
  cases h with
  | join _ _ _ _ hfree _ => exact ⟨rfl, rfl, hfree⟩

/-- A member after the step was one before, or it has just joined. -/
theorem Step.mem_cases {act : Act α κ ι} (h : Step T act out T') {m : Member α κ ι}
    (hm : m ∈ T') :
    (∃ q ∈ T, q.addr = m.addr ∧ q.id = m.id) ∨ ∃ info, act = .join m.addr m.id info := by
  cases h with
  | idle => exact Or.inl ⟨m, hm, rfl, rfl⟩
  | join T a id info _ _ =>
    rcases List.mem_append.1 hm with hm | hm
    · exact Or.inl ⟨m, hm, rfl, rfl⟩
    · obtain rfl := List.mem_singleton.1 hm
      exact Or.inr ⟨info, rfl⟩
  | announce before after q info =>
    by_cases hself : m = q.announce info
    · exact Or.inl ⟨q, by simp, by rw [hself]; rfl, by rw [hself]; rfl⟩
    · exact Or.inl ⟨m, mem_replace_of_ne hm hself, rfl, rfl⟩
  | relay => exact Or.inl ⟨m, hm, rfl, rfl⟩
  | leave => exact Or.inl ⟨m, (mem_without.1 hm).1, rfl, rfl⟩
  | close => cases hm

/-- Notes go to a joining address, or to a member that is present or announces itself. -/
theorem Step.told_of_mem {act : Act α κ ι} (h : Step T act out T') {a : α} {note : Note κ ι}
    (hmem : (a, note) ∈ out) :
    (∃ id info, act = .join a id info ∧ note = .assign id) ∨
      ∃ m ∈ T, m.addr = a ∧ (m.present = true ∨ ∃ info, act = .announce m.id info) := by
  cases h with
  | idle => cases hmem
  | join T b id info _ _ =>
    obtain ⟨rfl, hnote⟩ := Prod.mk.inj (List.mem_singleton.1 hmem)
    exact Or.inl ⟨id, info, rfl, hnote⟩
  | announce before after m info =>
    right
    rcases List.mem_append.1 hmem with hmem | hmem
    · -- To the others, or to the announcer itself, whose roster it is.
      rcases (mem_broadcast hmem).2 with ⟨q, hq, haddr⟩
      rcases mem_peers.1 hq with ⟨hqT, hqp, hne⟩
      have hq' : q ∈ before ++ m :: after :=
        mem_replace_of_ne hqT fun heq => hne (by rw [heq]; rfl)
      exact ⟨q, hq', haddr, Or.inl hqp⟩
    · by_cases hp : peers (before ++ m.announce info :: after) (m.announce info).id = []
      · simp [rosterFor, hp] at hmem
      · rw [rosterFor, if_neg hp] at hmem
        have haddr : a = m.addr := (Prod.mk.inj (List.mem_singleton.1 hmem)).1
        exact ⟨m, by simp, haddr.symm, Or.inr ⟨info, rfl⟩⟩
  | relay T m _ _ =>
    rcases (mem_broadcast hmem).2 with ⟨q, hq, haddr⟩
    exact Or.inr ⟨q, (mem_peers.1 hq).1, haddr, Or.inl (mem_peers.1 hq).2.1⟩
  | leave T m _ =>
    split at hmem
    · rcases (mem_broadcast hmem).2 with ⟨q, hq, haddr⟩
      rcases mem_peers.1 hq with ⟨hqT, hqp, _⟩
      exact Or.inr ⟨q, (mem_without.1 hqT).1, haddr, Or.inl hqp⟩
    · cases hmem
  | close =>
    rcases List.mem_flatMap.1 hmem with ⟨m, _, hbroadcast⟩
    rcases (mem_broadcast hbroadcast).2 with ⟨q, hq, haddr⟩
    exact Or.inr ⟨q, (mem_peers.1 hq).1, haddr, Or.inl (mem_peers.1 hq).2.1⟩

/-- A present member was present before, or it has just announced itself. -/
theorem Step.present_of_mem {act : Act α κ ι} (h : Step T act out T') {m : Member α κ ι}
    (hm : m ∈ T') (hp : m.present = true) :
    ∃ q ∈ T, q.addr = m.addr ∧ (q.present = true ∨ ∃ info, act = .announce q.id info) := by
  cases h with
  | idle => exact ⟨m, hm, rfl, Or.inl hp⟩
  | join T a id info _ _ =>
    rcases List.mem_append.1 hm with hm | hm
    · exact ⟨m, hm, rfl, Or.inl hp⟩
    · rw [List.mem_singleton.1 hm] at hp
      cases hp
  | announce before after q info =>
    by_cases hself : m = q.announce info
    · exact ⟨q, by simp, by rw [hself]; rfl, Or.inr ⟨info, rfl⟩⟩
    · exact ⟨m, mem_replace_of_ne hm hself, rfl, Or.inl hp⟩
  | relay => exact ⟨m, hm, rfl, Or.inl hp⟩
  | leave => exact ⟨m, (mem_without.1 hm).1, rfl, Or.inl hp⟩
  | close => cases hm

/-- Only a departure and the end of the service take an address out of the table. -/
theorem Step.gone {act : Act α κ ι} (h : Step T act out T') {m : Member α κ ι} (hm : m ∈ T)
    (hgone : ∀ q ∈ T', q.addr ≠ m.addr) :
    (∃ q ∈ T, act = .leave q.id ∧ q.id = m.id) ∨ act = .close := by
  cases h with
  | idle => exact absurd rfl (hgone m hm)
  | join => exact absurd rfl (hgone m (List.mem_append_left _ hm))
  | announce before after q info =>
    by_cases hself : m = q
    · exact absurd (by rw [hself]; rfl) (hgone (q.announce info) (by simp))
    · exact absurd rfl (hgone m (mem_replace_of_ne hm hself))
  | relay => exact absurd rfl (hgone m hm)
  | leave T q hq =>
    left
    by_cases hid : m.id = q.id
    · exact ⟨q, hq, rfl, hid.symm⟩
    · exact absurd rfl (hgone m (mem_without.2 ⟨hm, hid⟩))
  | close => exact Or.inr rfl

end Steps

theorem mem_inbox [DecidableEq α] {mail : List (α × Note κ ι)} {a : α} {note : Note κ ι} :
    note ∈ inbox mail a ↔ (a, note) ∈ mail := by
  simp only [inbox, List.mem_filterMap]
  constructor
  · rintro ⟨item, hitem, hsome⟩
    by_cases ha : item.1 = a
    · rw [if_pos ha] at hsome
      obtain rfl := Option.some.inj hsome
      exact ha ▸ hitem
    · simp [ha] at hsome
  · intro hmem
    exact ⟨(a, note), hmem, by simp⟩

/-! ## A lobby never announces a receiver to itself -/

section Own

variable [DecidableEq α] [DecidableEq κ]
variable {T T' : List (Member α κ ι)} {mail out : List (α × Note κ ι)}

/-- Every member has been assigned its id. -/
def Owned (T : List (Member α κ ι)) (mail : List (α × Note κ ι)) : Prop :=
  ∀ m ∈ T, (Listener.after (inbox mail m.addr)).own = some m.id

/-- Nobody is announced to itself. -/
def Foreign (mail : List (α × Note κ ι)) : Prop :=
  ∀ a, Every (fun before note => ∀ id ∈ note.announced, (Listener.after before).own ≠ some id)
    (inbox mail a)

theorem Owned.step (hO : Owned T mail) (hT : WellFormed T) {act : Act α κ ι}
    (hstep : Step T act out T') : Owned T' (mail ++ out) := by
  intro m hm
  rw [inbox_append]
  by_cases hjoin : ∃ id info, act = .join m.addr id info
  · rcases hjoin with ⟨id, info, rfl⟩
    cases hstep with
    | join T a id info haddr _ =>
      have hlast : m.id = id := by
        rcases List.mem_append.1 hm with hm | hm
        · exact absurd rfl (haddr m hm)
        · rw [List.mem_singleton.1 hm]
      have hin : inbox [(m.addr, (Note.assign id : Note κ ι))] m.addr = [.assign id] := by simp
      rw [hin, Listener.after_snoc, hlast]
      rfl
  · rcases hstep.mem_cases hm with ⟨q, hq, haddr, hid⟩ | ⟨info, hact⟩
    · have hnone : ∀ id, Note.assign id ∉ inbox out m.addr := by
        intro id hmem
        rcases hstep.assign_of_mem (mem_inbox.1 hmem) with ⟨info, hact⟩
        exact hjoin ⟨id, info, hact⟩
      rw [Listener.after_append, Listener.foldl_hear_own hnone, ← haddr, hO q hq, hid]
    · exact absurd ⟨m.id, info, hact⟩ hjoin

/-- A step announces nobody to itself. -/
theorem Foreign.step (hF : Foreign mail) (hO : Owned T mail) (hT : WellFormed T)
    {act : Act α κ ι} (hstep : Step T act out T') : Foreign (mail ++ out) := by
  intro a
  rw [inbox_append, every_append]
  refine ⟨hF a, ?_⟩
  -- Only an announcement announces.
  have hsilent : (∀ item ∈ out, item.2.announced = []) →
      Every (fun before (note : Note κ ι) =>
        ∀ id ∈ note.announced, (Listener.after (inbox mail a ++ before)).own ≠ some id)
        (inbox out a) := by
    intro hnone
    refine every_inbox_of_forall ?_ a
    intro item hitem before id hid
    rw [hnone item hitem] at hid
    cases hid
  cases hstep with
  | idle => exact hsilent (by simp)
  | join => exact hsilent (by simp [Note.announced])
  | announce before after m info =>
    have hT' : WellFormed (before ++ m.announce info :: after) := hT.replace rfl rfl
    by_cases ha : ∃ q ∈ before ++ m.announce info :: after, q.addr = a
    · rcases ha with ⟨q, hq, rfl⟩
      by_cases hid : q.id = m.id
      · obtain rfl := hT'.eq_of_id hq (show m.announce info ∈ _ by simp) hid
        show Every _ (inbox _ m.addr)
        rw [inbox_announce_self info hT]
        split
        · exact every_nil _
        · rw [every_singleton]
          intro k hk heq
          have hown : (Listener.after (inbox mail m.addr)).own = some k := by
            simpa [Member.announce] using heq
          rw [hO m (by simp)] at hown
          obtain rfl := Option.some.inj hown
          rcases List.mem_map.1 hk with ⟨entry, hentry, hfst⟩
          rcases List.mem_map.1 hentry with ⟨r, hr, rfl⟩
          exact (mem_peers.1 hr).2.2 hfst
      · rw [inbox_announce_other info hT hq hid]
        split
        · rw [every_singleton]
          intro k hk heq
          have hqT : q ∈ before ++ m :: after :=
            mem_replace_of_ne hq fun heq => hid (by rw [heq]; rfl)
          have hown : (Listener.after (inbox mail q.addr)).own = some k := by simpa using heq
          rw [hO q hqT] at hown
          obtain rfl : k = m.id := by simpa [Note.announced] using hk
          exact hid (Option.some.inj hown)
        · exact every_nil _
    · have hnot : ∀ q ∈ before ++ m.announce info :: after, q.addr ≠ a :=
        fun q hq heq => ha ⟨q, hq, heq⟩
      have hself : (m.announce info).addr ≠ a := hnot _ (by simp)
      rw [inbox_append, inbox_broadcast_of_not_mem hnot, inbox_rosterFor]
      simpa [hself] using every_nil _
  | relay T m _ _ =>
    refine hsilent ?_
    intro item hitem
    rw [(mem_broadcast hitem).1]
    rfl
  | leave T m _ =>
    refine hsilent ?_
    intro item hitem
    cases hp : m.present with
    | false => simp [hp] at hitem
    | true =>
      rw [if_pos hp] at hitem
      rw [(mem_broadcast hitem).1]
      rfl
  | close T =>
    refine hsilent ?_
    intro item hitem
    rcases List.mem_flatMap.1 hitem with ⟨m, _, hbroadcast⟩
    rw [(mem_broadcast hbroadcast).1]
    rfl

end Own

end Lobby
end Crossover
